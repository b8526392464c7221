import UpsServer.Network.State

/-!
# The game manager

Registering, finding and deleting games. A game is found by the name of one of its players,
and the last registered match wins.
-/

namespace UpsServer.GameManager

open Framework

/-- The test of the loop in `getGameByPlayer`: somebody with this name holds a seat. -/
def seatsName (s : State) (name : ByteString) (g : GameRef) : Bool :=
  (s.player (s.game g).p1).name == name || (s.player (s.game g).p2).name == name

/-- `GameManager::getGameByPlayer`. -/
def getGameByPlayer (s : State) (p : PlayerRef) : Option GameRef :=
  lastMatch (seatsName s (s.player p).name) s.games

/-- The choice between the two seats that `processGameMove`, `proceedGameEnding`,
    `proceedPlayerLost` and `getPlayersOponent` make. -/
def otherSeat (s : State) (g : GameRef) (p : PlayerRef) : PlayerRef :=
  if (s.player (s.game g).p1).name = (s.player p).name then (s.game g).p2 else (s.game g).p1

/-- `GameManager::getPlayersOponent`. -/
def getPlayersOponent (s : State) (p : PlayerRef) : Option PlayerRef :=
  match getGameByPlayer s p with
  | none => none
  | some pG => some (otherSeat s pG p)

/-- The new object and its entry in the vector. -/
@[simps -fullyApplied] def addGame (s : State) (p1 p2 : PlayerRef) : State :=
  { s with
    gameHeap := s.gameHeap.alloc (Game.new s.maxGameId p1 p2)
    maxGameId := s.maxGameId + 1
    games := s.games ++ [s.gameHeap.next] }

@[simp] theorem player_addGame (s : State) (p1 p2 p : PlayerRef) :
    (addGame s p1 p2).player p = s.player p := rfl

theorem game_addGame (s : State) (p1 p2 : PlayerRef) (g : GameRef) :
    (addGame s p1 p2).game g
      = if g = s.gameHeap.next then Game.new s.maxGameId p1 p2 else s.game g :=
  Heap.get_alloc s.gameHeap _ g

/-- `GameManager::registerGame`: the new game and the next state. -/
def registerGame (s : State) (p1 p2 : PlayerRef) : Except Fault (GameRef × State) :=
  if s.maxGameId = 2 ^ 31 - 1 then .error .gameIdOverflow
  else .ok (s.gameHeap.next, addGame s p1 p2)

/-- `GameManager::deleteGame`, which looks for the game's id. -/
def deleteGame (s : State) (game : GameRef) : Except Fault State :=
  match eraseAt s.games
      (loopIndex (fun g => (s.game g).id == (s.game game).id) s.games (-1)) with
  | some games => .ok (s.withGames games)
  | none => .error .eraseOutside

end UpsServer.GameManager
