import UpsServer.Network.CommandManager

/-!
# What a handler can do

`Effect s mess s'` lists the ways in which handling `mess` takes `s` to `s'`, one constructor
for every branch that returns, with what the branch tested and looked up. `dispatch_effect`
says that nothing else happens; the invariants of the server are proved from it and unfold no
handler.
-/

namespace UpsServer

open Framework Sender CommandManager

/-! ## The parts that erase -/

/-- Two players compared by name, as the loops of `Server` do. -/
def sameName (s : State) (p pp : PlayerRef) : Bool := (s.player pp).name == (s.player p).name

/-- Two games compared by id, as the loop of `deleteGame` does. -/
def sameId (s : State) (g h : GameRef) : Bool := (s.game h).id == (s.game g).id

/-- The vector after `deletePlayer`: the first entry with the player's name is gone, and the last
    entry when nobody has the name. -/
structure ErasesPlayer (s : State) (p : PlayerRef) (players : List PlayerRef) : Prop where
  sublist : players.Sublist s.players
  found : (∃ q ∈ s.players, sameName s p q = true) → players = s.players.eraseP (sameName s p)
  missed : (∀ q ∈ s.players, sameName s p q = false) → players = s.players.dropLast

/-- A listed player has its own name. -/
theorem ErasesPlayer.listed {s : State} {p : PlayerRef} {players : List PlayerRef}
    (h : ErasesPlayer s p players) (hlisted : p ∈ s.players) :
    players = s.players.eraseP (sameName s p) :=
  h.found ⟨p, hlisted, by simp [sameName]⟩

/-- Only the list and the names count. -/
theorem ErasesPlayer.congr {s t : State} {p : PlayerRef} {players : List PlayerRef}
    (h : ErasesPlayer t p players) (hplayers : t.players = s.players)
    (hname : ∀ q, (t.player q).name = (s.player q).name) : ErasesPlayer s p players := by
  have hsame : sameName t p = sameName s p := by
    funext q
    rw [sameName, sameName, hname, hname]
  refine ⟨hplayers ▸ h.sublist, fun hfound => ?_, fun hmissed => ?_⟩
  · rw [← hplayers, ← hsame]
    exact h.found (by rwa [hplayers, hsame])
  · rw [← hplayers]
    exact h.missed (by rwa [hplayers, hsame])

/-- Counting to the first match and erasing there removes the first match. -/
theorem Server.erasePlayerAt_of_match (s : State) (q : PlayerRef → Bool)
    (h : ∃ p ∈ s.players, q p = true) :
    Server.erasePlayerAt s (loopIndex q s.players (-1))
      = .ok (s.withPlayers (s.players.eraseP q)) := by
  rw [Server.erasePlayerAt, eraseAt_loopIndex_of_match q h]

theorem Server.deletePlayer_eq_ok {s s' : State} {p : PlayerRef}
    (h : Server.deletePlayer s p = .ok s') :
    ∃ players, ErasesPlayer s p players ∧ s' = s.withPlayers players := by
  unfold Server.deletePlayer Server.erasePlayerAt at h
  split at h
  · rename_i players heq
    have heq : eraseAt s.players (loopIndex (sameName s p) s.players (-1)) = some players := heq
    refine ⟨players, ⟨eraseAt_sublist heq, fun hfound => ?_, fun hmissed => ?_⟩,
      (Except.ok.inj h).symm⟩
    · rw [eraseAt_loopIndex_of_match _ hfound] at heq
      exact (Option.some.inj heq).symm
    · -- an empty list has no entry that `erase` could remove
      have hnonempty : s.players ≠ [] := by
        rintro hnil
        rw [hnil] at heq
        cases heq
      rw [eraseAt_loopIndex_of_forall_not _ hnonempty hmissed] at heq
      exact (Option.some.inj heq).symm
  · cases h

/-- Deleting a registered game, possibly after updates that keep the games and their ids. -/
theorem GameManager.deleteGame_of_mem {s t : State} {g : GameRef} (hmem : g ∈ s.games)
    (hgames : t.games = s.games) (hid : ∀ h, (t.game h).id = (s.game h).id) :
    GameManager.deleteGame t g = .ok (t.withGames (s.games.eraseP (sameId s g))) := by
  have hsame : (fun h => (t.game h).id == (t.game g).id) = sameId s g := by
    funext h
    rw [sameId, hid, hid]
  unfold GameManager.deleteGame
  rw [hsame, hgames, eraseAt_loopIndex_of_match _ ⟨g, hmem, by simp [sameId]⟩]

theorem GameManager.deleteGame_eq_ok {s t s' : State} {g : GameRef}
    (h : GameManager.deleteGame t g = .ok s') (hmem : g ∈ s.games)
    (hgames : t.games = s.games) (hid : ∀ h, (t.game h).id = (s.game h).id) :
    s' = t.withGames (s.games.eraseP (sameId s g)) :=
  Except.ok.inj (h.symm.trans (GameManager.deleteGame_of_mem hmem hgames hid))

theorem GameManager.getGameByPlayer_eq_some {s : State} {p : PlayerRef} {g : GameRef}
    (h : GameManager.getGameByPlayer s p = some g) :
    g ∈ s.games ∧ GameManager.seatsName s (s.player p).name g = true :=
  lastMatch_spec _ h

/-! ## Losing a connection -/

/-- Test for the socket, as the loops of `Server` do. -/
def hasThisSocket (s : State) (socket : Int) (p : PlayerRef) : Bool :=
  (s.player p).hasSocket && (s.player p).socket == socket

/-- What `proceedPlayerDisconnection` can do. -/
inductive Disconnection (s : State) (socket : Int) : State → Prop where
  /-- The player is free and leaves the list. -/
  | left {pl : PlayerRef} (found : Server.getPlayerBySocket s socket = some pl)
      (free : (s.player pl).inGame = false) :
      Disconnection s socket
        (((s.closeSocket socket).modifyPlayer pl
            fun p => { p.removeSocket with joiningPlayer := none }).withPlayers
          (s.players.eraseP (hasThisSocket s socket)))
  /-- The player is in a game; the list keeps it and a command will mark it as lost. -/
  | stays {pl : PlayerRef} (found : Server.getPlayerBySocket s socket = some pl)
      (playing : (s.player pl).inGame = true) :
      Disconnection s socket
        (((s.closeSocket socket).modifyPlayer pl Player.removeSocket).registerCommand
          ⟨Server.lostMessage pl, none⟩)

theorem Server.getPlayerBySocket_eq_some {s : State} {socket : Int} {p : PlayerRef}
    (h : Server.getPlayerBySocket s socket = some p) :
    p ∈ s.players ∧ hasThisSocket s socket p = true :=
  ⟨List.mem_of_find?_eq_some h, List.find?_some h⟩

theorem Server.disconnection_effect {s s' : State} {socket : Int}
    (h : Server.proceedPlayerDisconnection s socket = .ok s') :
    Disconnection s socket s' := by
  unfold Server.proceedPlayerDisconnection at h
  obtain ⟨pl, hpl, h⟩ := bind_eq_ok_iff.mp h
  have hfound : Server.getPlayerBySocket s socket = some pl := assigned_eq_ok_iff.mp hpl
  obtain ⟨hlisted, hsocket⟩ := Server.getPlayerBySocket_eq_some hfound
  split at h
  · -- the index was counted before the socket was removed
    rename_i hfree
    have herase := Server.erasePlayerAt_of_match
      ((s.closeSocket socket).modifyPlayer pl
        fun p => { p.removeSocket with joiningPlayer := none })
      (hasThisSocket s socket) ⟨pl, hlisted, hsocket⟩
    rw [← Except.ok.inj (herase.symm.trans h)]
    exact .left hfound hfree
  · rename_i hplaying
    rw [← Except.ok.inj h]
    exact .stays hfound (by simpa using hplaying)

/-! ## Handling a command -/

/-- The headers that `CommandManager::run` has a case for. -/
def handledHeaders : List UInt32 :=
  [H_C_NEW_PL, H_C_PL_RECONN, H_C_PL_LIST_REQ, H_C_PL_LOGOUT, H_C_JOIN_PLAYER,
    H_C_DECLIN_JOIN, H_C_ACCEPT_JOIN, H_C_GAME_MOVE, INTERNAL_PL_LOST]

/-- The state in which `proceedPlayerReconnection` looks for the game and the list entry. -/
def handedOver (s : State) (newP oldP : PlayerRef) (game : GameRef) : State :=
  takeOverSeat (takeOverName s newP oldP) game newP

/-- The state with the new game, before its players are told. -/
def gameStarted (s : State) (asking asked : PlayerRef) : State :=
  (((GameManager.addGame (((clearRequest s asked).modifyPlayer asking
    (Player.setAvailible false)).modifyPlayer asked (Player.setAvailible false))
      asking asked).modifyPlayer asking (Player.setInGame true)).modifyPlayer asked
        (Player.setInGame true)).modifyGame s.gameHeap.next (Game.setPlayerOnTurn asking)

/-- Both players of an ending game are free again. -/
def freeBoth (s : State) (p oponent : PlayerRef) : State :=
  (((s.modifyPlayer p (Player.setInGame false)).modifyPlayer oponent
    (Player.setInGame false)).modifyPlayer p (Player.setAvailible true)).modifyPlayer oponent
      (Player.setAvailible true)

/-- What handling a command can do. -/
inductive Effect (s : State) (mess : Message) : State → Prop where
  /-- There is no case for the header. -/
  | ignored (header : mess.header ∉ handledHeaders) : Effect s mess s
  /-- The sender is told something. -/
  | answered {p : PlayerRef} {answer : OutPacket}
      (header : mess.header ∈ [H_C_NEW_PL, H_C_PL_RECONN, H_C_PL_LIST_REQ, H_C_JOIN_PLAYER])
      (sender : mess.player = some p) (sent : answer.For s p) :
      Effect s mess (s.pushOut answer)
  /-- The sender registers under a free name. -/
  | named {p : PlayerRef} {username : ByteString} {answer : OutPacket}
      (header : mess.header = H_C_NEW_PL) (sender : mess.player = some p)
      (payload : payloadString mess 0 = .ok username)
      (unused : isUsernameAvailible s username = true) (sent : answer.For s p) :
      Effect s mess
        (((s.modifyPlayer p (Player.setName username)).modifyPlayer p
          (Player.setAvailible true)).pushOut answer)
  /-- The sender takes over the seat of a lost player. -/
  | reconnected {newP oldP oponent onTurn : PlayerRef} {game : GameRef} {name : ByteString}
      {first second : OutPacket} {players : List PlayerRef}
      (header : mess.header = H_C_PL_RECONN) (sender : mess.player = some newP)
      (payload : payloadString mess 0 = .ok name)
      (found : Server.getPlayerByName s name = some oldP)
      (lost : (s.player oldP).lost = true)
      (playing : GameManager.getGameByPlayer (takeOverName s newP oldP) oldP = some game)
      (turn : ((handedOver s newP oldP game).game game).playerOnTurn = some onTurn)
      (against :
        GameManager.getPlayersOponent (handedOver s newP oldP game) newP = some oponent)
      (sentFirst : first.For s newP) (sentSecond : second.For s oponent)
      (erased : ErasesPlayer (handedOver s newP oldP game) oldP players) :
      Effect s mess
        ((((handedOver s newP oldP game).pushOut first).pushOut second).withPlayers players)
  /-- The sender asks somebody for a game. -/
  | asked {requesting oponent : PlayerRef} {name : ByteString} {ack request : OutPacket}
      (header : mess.header = H_C_JOIN_PLAYER) (sender : mess.player = some requesting)
      (payload : payloadString mess 0 = .ok name)
      (found : Server.getPlayerByName s name = some oponent)
      (joinable : isJoinable s oponent = true)
      (sentAck : ack.For s requesting) (sentRequest : request.For s oponent) :
      Effect s mess
        (((((((s.pushOut ack).modifyPlayer requesting (Player.setAvailible false)).modifyPlayer
          requesting fun p => { p with joiningPlayer := some oponent }).pushOut
            request).modifyPlayer oponent fun p =>
              { p with askedForJoiningBy := some requesting }).modifyPlayer requesting
                (Player.setAvailible false)).modifyPlayer oponent (Player.setAvailible false))
  /-- The sender accepts and the game starts. -/
  | started {asking asked : PlayerRef} {first second : OutPacket}
      (header : mess.header = H_C_ACCEPT_JOIN) (sender : mess.player = some asked)
      (askedBy : (s.player asked).askedForJoiningBy = some asking)
      (distinct : asking ≠ asked) (waiting : (s.player asking).joiningPlayer.isSome = true)
      (sentFirst : first.For s asking) (sentSecond : second.For s asked) :
      Effect s mess
        (((gameStarted s asking asked).pushOut first).pushOut second)
  /-- The sender accepts, but the player who asked does not wait any more. -/
  | gone {asking asked : PlayerRef} {answers : List OutPacket}
      (header : mess.header = H_C_ACCEPT_JOIN) (sender : mess.player = some asked)
      (askedBy : (s.player asked).askedForJoiningBy = some asking)
      (sent : ∀ answer ∈ answers, answer.For s asked) :
      Effect s mess
        ((((clearRequest s asked).modifyPlayer asking (Player.setAvailible false)).modifyPlayer
          asked (Player.setAvailible false)).pushAll answers)
  /-- The sender declines. -/
  | declined {asking asked : PlayerRef} {answers : List OutPacket}
      (header : mess.header = H_C_DECLIN_JOIN) (sender : mess.player = some asked)
      (askedBy : (s.player asked).askedForJoiningBy = some asking)
      (sent : ∀ answer ∈ answers, answer.For s asking) :
      Effect s mess
        ((((clearRequest s asked).pushAll answers).modifyPlayer asking
          (Player.setAvailible true)).modifyPlayer asked (Player.setAvailible true))
  /-- The sender makes a move that does not win. -/
  | moved {p oponent : PlayerRef} {game : GameRef} {cell : Cell} {cardType : Int}
      {info : OutPacket}
      (header : mess.header = H_C_GAME_MOVE) (sender : mess.player = some p)
      (playing : GameManager.getGameByPlayer s p = some game)
      (against : oponent = GameManager.otherSeat s game p) (inside : OnBoard cell)
      (open_ : isGameWon ((s.game game).field.put cell cardType) cell = false)
      (sent : info.For s oponent) :
      Effect s mess
        (((s.modifyGame game (Game.putCard cell cardType)).modifyGame game
          (Game.setPlayerOnTurn oponent)).pushOut info)
  /-- The sender makes a winning move and the game is over. -/
  | won {p oponent : PlayerRef} {game : GameRef} {cell : Cell} {cardType : Int}
      {first second : OutPacket}
      (header : mess.header = H_C_GAME_MOVE) (sender : mess.player = some p)
      (playing : GameManager.getGameByPlayer s p = some game)
      (against : oponent = GameManager.otherSeat s game p) (inside : OnBoard cell)
      (sentFirst : first.For s p) (sentSecond : second.For s oponent) :
      Effect s mess
        ((freeBoth (((s.modifyGame game (Game.putCard cell cardType)).pushOut first).pushOut
          second) p oponent).withGames (s.games.eraseP (sameId s game)))
  /-- The sender leaves the game; its opponent stays. -/
  | ended {p oponent : PlayerRef} {game : GameRef} {info : OutPacket}
      (header : mess.header = H_C_PL_LOGOUT) (sender : mess.player = some p)
      (inGame : (s.player p).inGame = true)
      (playing : GameManager.getGameByPlayer s p = some game)
      (against : oponent = GameManager.otherSeat s game p)
      (present : (s.player oponent).lost = false) (sent : info.For s oponent) :
      Effect s mess
        (((freeBoth s p oponent).pushOut info).withGames (s.games.eraseP (sameId s game)))
  /-- The sender leaves the game; its opponent was lost and leaves the list. -/
  | endedLost {p oponent : PlayerRef} {game : GameRef} {players : List PlayerRef}
      (header : mess.header = H_C_PL_LOGOUT) (sender : mess.player = some p)
      (inGame : (s.player p).inGame = true)
      (playing : GameManager.getGameByPlayer s p = some game)
      (against : oponent = GameManager.otherSeat s game p)
      (absent : (s.player oponent).lost = true) (erased : ErasesPlayer s oponent players) :
      Effect s mess
        ((((s.withPlayers players).modifyPlayer p (Player.setAvailible true)).modifyPlayer p
          (Player.setInGame false)).withGames (s.games.eraseP (sameId s game)))
  /-- The sender is in no game and its connection is closed. -/
  | disconnected {p : PlayerRef} {s' : State}
      (header : mess.header = H_C_PL_LOGOUT) (sender : mess.player = some p)
      (free : (s.player p).inGame = false)
      (closed : Disconnection s (s.player p).socket s') : Effect s mess s'
  /-- A player is lost; its opponent stays. -/
  | missed {lost oponent : PlayerRef} {game : GameRef} {info : OutPacket}
      (header : mess.header = INTERNAL_PL_LOST) (sender : mess.player = some lost)
      (playing : GameManager.getGameByPlayer s lost = some game)
      (against : oponent = GameManager.otherSeat s game lost) (sent : info.For s oponent) :
      Effect s mess ((s.modifyPlayer lost fun p => { p with lost := true }).pushOut info)
  /-- A player is lost and its opponent was lost before; both leave the list. -/
  | bothLost {lost oponent : PlayerRef} {game : GameRef} {players players' : List PlayerRef}
      (header : mess.header = INTERNAL_PL_LOST) (sender : mess.player = some lost)
      (playing : GameManager.getGameByPlayer s lost = some game)
      (against : oponent = GameManager.otherSeat s game lost)
      (absent : oponent = lost ∨ (s.player oponent).lost = true)
      (erased : ErasesPlayer s oponent players)
      (erased' : ErasesPlayer (s.withPlayers players) lost players') :
      Effect s mess
        (((((s.modifyPlayer lost fun p => { p with lost := true }).withGames
          (s.games.eraseP (sameId s game))).modifyPlayer oponent
            (Player.setInGame false)).modifyPlayer lost (Player.setInGame false)).withPlayers
              players')

/-! ## Taking over a seat, field by field -/

section TakeOver

variable (s : State) (newP oldP p : PlayerRef) (g h : GameRef)

@[simp] theorem socket_takeOverName :
    ((takeOverName s newP oldP).player p).socket = (s.player p).socket := by
  simp [takeOverName]

@[simp] theorem socketSet_takeOverName :
    ((takeOverName s newP oldP).player p).socketSet = (s.player p).socketSet := by
  simp [takeOverName]

@[simp] theorem lost_takeOverName :
    ((takeOverName s newP oldP).player p).lost = (s.player p).lost := by
  simp [takeOverName]

@[simp] theorem name_takeOverName :
    ((takeOverName s newP oldP).player p).name
      = if p = newP then (s.player oldP).name else (s.player p).name := by
  simp [takeOverName]

@[simp] theorem inGame_takeOverName :
    ((takeOverName s newP oldP).player p).inGame
      = if p = newP then true else (s.player p).inGame := by
  simp [takeOverName]

@[simp] theorem takeOverName_players : (takeOverName s newP oldP).players = s.players := rfl

@[simp] theorem takeOverName_games : (takeOverName s newP oldP).games = s.games := rfl

@[simp] theorem takeOverName_commandQueue :
    (takeOverName s newP oldP).commandQueue = s.commandQueue := rfl

@[simp] theorem takeOverName_descriptors :
    (takeOverName s newP oldP).descriptors = s.descriptors := rfl

@[simp] theorem game_takeOverName : (takeOverName s newP oldP).game g = s.game g := rfl

/-- The seat is the only thing that changes. -/
theorem takeOverSeat_eq : ∃ f, takeOverSeat s g newP = s.modifyGame g f ∧
    (f = Game.setPlayer1 newP ∨ f = Game.setPlayer2 newP) := by
  unfold takeOverSeat
  split
  · exact ⟨_, rfl, Or.inl rfl⟩
  · exact ⟨_, rfl, Or.inr rfl⟩

@[simp] theorem player_takeOverSeat : (takeOverSeat s g newP).player p = s.player p := by
  obtain ⟨f, hf, _⟩ := takeOverSeat_eq s newP g
  rw [hf, State.player_modifyGame]

@[simp] theorem takeOverSeat_players : (takeOverSeat s g newP).players = s.players := by
  obtain ⟨f, hf, _⟩ := takeOverSeat_eq s newP g
  rw [hf]
  rfl

@[simp] theorem takeOverSeat_playerHeap :
    (takeOverSeat s g newP).playerHeap = s.playerHeap := by
  obtain ⟨f, hf, _⟩ := takeOverSeat_eq s newP g
  rw [hf]
  rfl

@[simp] theorem takeOverSeat_games : (takeOverSeat s g newP).games = s.games := by
  obtain ⟨f, hf, _⟩ := takeOverSeat_eq s newP g
  rw [hf]
  rfl

@[simp] theorem takeOverSeat_maxGameId :
    (takeOverSeat s g newP).maxGameId = s.maxGameId := by
  obtain ⟨f, hf, _⟩ := takeOverSeat_eq s newP g
  rw [hf]
  rfl

@[simp] theorem takeOverSeat_nextGame :
    (takeOverSeat s g newP).gameHeap.next = s.gameHeap.next := by
  obtain ⟨f, hf, _⟩ := takeOverSeat_eq s newP g
  rw [hf]
  rfl

@[simp] theorem takeOverSeat_descriptors :
    (takeOverSeat s g newP).descriptors = s.descriptors := by
  obtain ⟨f, hf, _⟩ := takeOverSeat_eq s newP g
  rw [hf]
  rfl

@[simp] theorem takeOverSeat_commandQueue :
    (takeOverSeat s g newP).commandQueue = s.commandQueue := by
  obtain ⟨f, hf, _⟩ := takeOverSeat_eq s newP g
  rw [hf]
  rfl

@[simp] theorem id_takeOverSeat : ((takeOverSeat s g newP).game h).id = (s.game h).id := by
  obtain ⟨f, hf, rfl | rfl⟩ := takeOverSeat_eq s newP g <;> rw [hf] <;> simp

@[simp] theorem field_takeOverSeat :
    ((takeOverSeat s g newP).game h).field = (s.game h).field := by
  obtain ⟨f, hf, rfl | rfl⟩ := takeOverSeat_eq s newP g <;> rw [hf] <;> simp

@[simp] theorem playerOnTurn_takeOverSeat :
    ((takeOverSeat s g newP).game h).playerOnTurn = (s.game h).playerOnTurn := by
  obtain ⟨f, hf, rfl | rfl⟩ := takeOverSeat_eq s newP g <;> rw [hf] <;> simp

@[simp] theorem handedOver_players : (handedOver s newP oldP g).players = s.players := by
  simp [handedOver]

@[simp] theorem handedOver_games : (handedOver s newP oldP g).games = s.games := by
  simp [handedOver]

@[simp] theorem name_handedOver :
    ((handedOver s newP oldP g).player p).name
      = if p = newP then (s.player oldP).name else (s.player p).name := by
  simp [handedOver]

@[simp] theorem inGame_handedOver :
    ((handedOver s newP oldP g).player p).inGame
      = if p = newP then true else (s.player p).inGame := by
  simp [handedOver]

theorem game_handedOver_of_ne (hne : h ≠ g) :
    (handedOver s newP oldP g).game h = s.game h := by
  obtain ⟨f, hf, _⟩ := takeOverSeat_eq (takeOverName s newP oldP) newP g
  rw [handedOver, hf, State.game_modifyGame_of_ne _ _ hne, game_takeOverName]

end TakeOver

/-- Who answers to the lost player's name once the newcomer has it, too. -/
def SharesName (s : State) (newP oldP q : PlayerRef) : Prop :=
  q = newP ∨ (s.player q).name = (s.player oldP).name

instance (s : State) (newP oldP q : PlayerRef) : Decidable (SharesName s newP oldP q) :=
  inferInstanceAs (Decidable (_ ∨ _))

section SharedName

variable {s : State} {newP oldP : PlayerRef}

theorem name_takeOverName_eq_iff (q : PlayerRef) :
    ((takeOverName s newP oldP).player q).name = (s.player oldP).name ↔
      SharesName s newP oldP q := by
  rw [name_takeOverName, SharesName]
  by_cases hq : q = newP <;> simp [hq]

theorem name_takeOverName_oldP :
    ((takeOverName s newP oldP).player oldP).name = (s.player oldP).name :=
  (name_takeOverName_eq_iff oldP).mpr (Or.inr rfl)

/-- The games that match after the renaming are those that seat somebody of the shared name. -/
theorem seatsName_takeOverName_iff (g : GameRef) :
    GameManager.seatsName (takeOverName s newP oldP)
        ((takeOverName s newP oldP).player oldP).name g = true ↔
      ∃ q, (s.game g).Seats q ∧ SharesName s newP oldP q := by
  rw [GameManager.seatsName, Bool.or_eq_true, beq_iff_eq, beq_iff_eq, name_takeOverName_oldP,
    name_takeOverName_eq_iff, name_takeOverName_eq_iff, game_takeOverName]
  constructor
  · rintro (h | h)
    · exact ⟨_, Or.inl rfl, h⟩
    · exact ⟨_, Or.inr rfl, h⟩
  · rintro ⟨q, rfl | rfl, h⟩
    · exact Or.inl h
    · exact Or.inr h

end SharedName

/-! ## Starting and ending a game, field by field -/

section StartAndEnd

variable (s : State) (asking asked oponent p q : PlayerRef) (g : GameRef)

@[simp] theorem game_clearRequest : (clearRequest s asked).game g = s.game g := rfl

@[simp] theorem name_gameStarted :
    ((gameStarted s asking asked).player p).name = (s.player p).name := by
  simp [gameStarted, clearRequest]

@[simp] theorem socketSet_gameStarted :
    ((gameStarted s asking asked).player p).socketSet = (s.player p).socketSet := by
  simp [gameStarted, clearRequest]

@[simp] theorem socket_gameStarted :
    ((gameStarted s asking asked).player p).socket = (s.player p).socket := by
  simp [gameStarted, clearRequest]

@[simp] theorem lost_gameStarted :
    ((gameStarted s asking asked).player p).lost = (s.player p).lost := by
  simp [gameStarted, clearRequest]

@[simp] theorem inGame_gameStarted :
    ((gameStarted s asking asked).player p).inGame
      = if p = asking ∨ p = asked then true else (s.player p).inGame := by
  -- both flags are set, in whichever of the two cases the player is
  simp only [gameStarted, clearRequest, State.player_modifyGame, State.inGame_setInGame,
    GameManager.player_addGame]
  by_cases hasked : p = asked <;> by_cases hasking : p = asking <;> simp [hasked, hasking]

/-- The new game; all others are as they were. -/
theorem game_gameStarted :
    (gameStarted s asking asked).game g
      = if g = s.gameHeap.next then
          Game.setPlayerOnTurn asking (Game.new s.maxGameId asking asked)
        else s.game g := by
  rw [gameStarted, State.game_modifyGame]
  simp only [State.game_modifyPlayer, GameManager.game_addGame, clearRequest,
    State.modifyPlayer_gameHeap, State.modifyPlayer_maxGameId, if_true]
  by_cases hnew : g = s.gameHeap.next <;> simp [hnew]

@[simp] theorem p1_gameStarted :
    ((gameStarted s asking asked).game g).p1
      = if g = s.gameHeap.next then asking else (s.game g).p1 := by
  rw [game_gameStarted]
  split <;> rfl

@[simp] theorem p2_gameStarted :
    ((gameStarted s asking asked).game g).p2
      = if g = s.gameHeap.next then asked else (s.game g).p2 := by
  rw [game_gameStarted]
  split <;> rfl

@[simp] theorem name_freeBoth :
    ((freeBoth s p oponent).player q).name = (s.player q).name := by
  simp [freeBoth]

@[simp] theorem socketSet_freeBoth :
    ((freeBoth s p oponent).player q).socketSet = (s.player q).socketSet := by
  simp [freeBoth]

@[simp] theorem socket_freeBoth :
    ((freeBoth s p oponent).player q).socket = (s.player q).socket := by
  simp [freeBoth]

@[simp] theorem nameSet_freeBoth :
    ((freeBoth s p oponent).player q).nameSet = (s.player q).nameSet := by
  simp [freeBoth]

@[simp] theorem availible_freeBoth :
    ((freeBoth s p oponent).player q).availible
      = if q = p ∨ q = oponent then true else (s.player q).availible := by
  simp only [freeBoth, State.availible_setAvailible, State.availible_modifyPlayer,
    Player.setInGame_availible, implies_true]
  by_cases hp : q = p <;> by_cases hoponent : q = oponent <;> simp [hp, hoponent]

@[simp] theorem lost_freeBoth :
    ((freeBoth s p oponent).player q).lost = (s.player q).lost := by
  simp [freeBoth]

@[simp] theorem inGame_freeBoth :
    ((freeBoth s p oponent).player q).inGame
      = if q = p ∨ q = oponent then false else (s.player q).inGame := by
  simp only [freeBoth, State.inGame_modifyPlayer, Player.setAvailible_inGame, implies_true,
    State.inGame_setInGame]
  by_cases hp : q = p <;> by_cases hoponent : q = oponent <;> simp [hp, hoponent]

@[simp] theorem game_freeBoth : (freeBoth s p oponent).game g = s.game g := rfl

end StartAndEnd

theorem player_freeBoth_of_ne {s : State} {p oponent q : PlayerRef} (hp : q ≠ p)
    (hoponent : q ≠ oponent) : (freeBoth s p oponent).player q = s.player q := by
  simp [freeBoth, State.player_modifyPlayer_of_ne, hp, hoponent]

/-! ## Each handler -/

section Handlers

variable {s s' : State} {mess : Message}

/-- The descriptor of a player is all that addressing a packet reads. -/
theorem OutPacket.For.congr {t : State} {packet : OutPacket} {p : PlayerRef}
    (h : packet.For t p) (hsocket : (t.player p).socket = (s.player p).socket) :
    packet.For s p :=
  ⟨h.1, h.2.trans hsocket⟩

/-- A handler that only answers its sender. -/
theorem answer_effect {header : UInt32} {data : List Datum}
    (hheader : mess.header ∈ [H_C_NEW_PL, H_C_PL_RECONN, H_C_PL_LIST_REQ, H_C_JOIN_PLAYER])
    (h : registerMessage s (.compose header data mess.player) = .ok s') :
    Effect s mess s' := by
  obtain ⟨p, answer, hsender, hsent, rfl⟩ := registerMessage_eq_ok h
  exact .answered hheader hsender hsent

theorem proceedNewPlayerConnection_effect (hheader : mess.header = H_C_NEW_PL)
    (h : proceedNewPlayerConnection s mess = .ok s') : Effect s mess s' := by
  unfold proceedNewPlayerConnection at h
  obtain ⟨username, hpayload, h⟩ := bind_eq_ok_iff.mp h
  -- the name is free, or the sender is told that it is not
  split at h
  · rename_i hunused
    obtain ⟨p, hp, h⟩ := bind_eq_ok_iff.mp h
    have hsender : mess.player = some p := deref_eq_ok_iff.mp hp
    rw [hsender] at h
    obtain ⟨answer, hsent, rfl⟩ := registerMessage_compose_eq_ok h
    exact .named hheader hsender hpayload hunused (hsent.congr (by simp))
  · exact answer_effect (by simp [hheader]) h

theorem proceedPlayerListRequest_effect (hheader : mess.header = H_C_PL_LIST_REQ)
    (h : proceedPlayerListRequest s mess = .ok s') : Effect s mess s' := by
  unfold proceedPlayerListRequest at h
  obtain ⟨_, _, h⟩ := bind_eq_ok_iff.mp h
  exact answer_effect (by simp [hheader]) h

/-- What the accepting branch of `proceedPlayerReconnection` does. -/
theorem reconnect_eq_ok {newP oldP : PlayerRef} (h : reconnect s newP oldP = .ok s') :
    ∃ game onTurn oponent first second players,
      GameManager.getGameByPlayer (takeOverName s newP oldP) oldP = some game ∧
      ((handedOver s newP oldP game).game game).playerOnTurn = some onTurn ∧
      GameManager.getPlayersOponent (handedOver s newP oldP game) newP = some oponent ∧
      first.For s newP ∧ second.For s oponent ∧
      ErasesPlayer (handedOver s newP oldP game) oldP players ∧
      s' = (((handedOver s newP oldP game).pushOut first).pushOut second).withPlayers players := by
  unfold reconnect at h
  -- the look-ups in the order of the source, then the two messages and the erasure
  obtain ⟨game, hgame, h⟩ := bind_eq_ok_iff.mp h
  obtain ⟨onTurn, hturn, h⟩ := bind_eq_ok_iff.mp h
  obtain ⟨oponent, hoponent, h⟩ := bind_eq_ok_iff.mp h
  obtain ⟨_, hfirst, h⟩ := bind_eq_ok_iff.mp h
  obtain ⟨first, hsentFirst, rfl⟩ := registerMessage_compose_eq_ok hfirst
  obtain ⟨_, hsecond, h⟩ := bind_eq_ok_iff.mp h
  obtain ⟨second, hsentSecond, rfl⟩ := registerMessage_compose_eq_ok hsecond
  obtain ⟨players, herased, rfl⟩ := Server.deletePlayer_eq_ok h
  exact ⟨game, onTurn, oponent, first, second, players, deref_eq_ok_iff.mp hgame,
    assigned_eq_ok_iff.mp hturn, deref_eq_ok_iff.mp hoponent, hsentFirst.congr (by simp),
    hsentSecond.congr (by simp), herased.congr rfl fun _ => rfl, rfl⟩

theorem proceedPlayerReconnection_effect (hheader : mess.header = H_C_PL_RECONN)
    (h : proceedPlayerReconnection s mess = .ok s') : Effect s mess s' := by
  unfold proceedPlayerReconnection at h
  obtain ⟨name, hpayload, h⟩ := bind_eq_ok_iff.mp h
  -- nobody has the name
  split at h
  · exact answer_effect (by simp [hheader]) h
  rename_i oldP hfound
  split at h
  · rename_i hlost
    obtain ⟨newP, hnewP, h⟩ := bind_eq_ok_iff.mp h
    obtain ⟨game, onTurn, oponent, first, second, players, hplaying, hturn, hagainst, hfirst,
      hsecond, herased, rfl⟩ := reconnect_eq_ok h
    exact .reconnected hheader (deref_eq_ok_iff.mp hnewP) hpayload hfound hlost hplaying hturn
      hagainst hfirst hsecond herased
  · exact answer_effect (by simp [hheader]) h

theorem proceedPlayerJoining_effect (hheader : mess.header = H_C_JOIN_PLAYER)
    (h : proceedPlayerJoining s mess = .ok s') : Effect s mess s' := by
  unfold proceedPlayerJoining at h
  obtain ⟨name, hpayload, h⟩ := bind_eq_ok_iff.mp h
  -- nobody has the name, or the player of that name is not joinable
  split at h
  · exact answer_effect (by simp [hheader]) h
  rename_i oponent hfound
  split at h
  · rename_i hjoinable
    obtain ⟨_, hack, h⟩ := bind_eq_ok_iff.mp h
    obtain ⟨requesting, hrequesting, h⟩ := bind_eq_ok_iff.mp h
    have hsender : mess.player = some requesting := deref_eq_ok_iff.mp hrequesting
    rw [hsender] at hack
    obtain ⟨ack, hsentAck, rfl⟩ := registerMessage_compose_eq_ok hack
    unfold askForGame at h
    obtain ⟨_, hrequest, h⟩ := bind_eq_ok_iff.mp h
    obtain ⟨request, hsentRequest, rfl⟩ := registerMessage_compose_eq_ok hrequest
    rw [← Except.ok.inj h]
    exact .asked hheader hsender hpayload hfound hjoinable hsentAck
      (hsentRequest.congr (by simp))
  · exact answer_effect (by simp [hheader]) h

/-- What `proceedAcceptJoin` does when the game starts. -/
theorem startGame_eq_ok {asking asked : PlayerRef}
    (h : startGame (((clearRequest s asked).modifyPlayer asking
      (Player.setAvailible false)).modifyPlayer asked (Player.setAvailible false)) asking asked
        = .ok s') :
    ∃ first second, first.For s asking ∧ second.For s asked ∧
      s' = ((gameStarted s asking asked).pushOut first).pushOut second := by
  unfold startGame at h
  obtain ⟨⟨game, t⟩, hgame, h⟩ := bind_eq_ok_iff.mp h
  unfold GameManager.registerGame at hgame
  split at hgame
  · -- the ids are used up, which is a fault
    cases hgame
  · obtain ⟨rfl, rfl⟩ := Prod.mk.inj (Except.ok.inj hgame)
    obtain ⟨_, hfirst, h⟩ := bind_eq_ok_iff.mp h
    obtain ⟨first, hsentFirst, rfl⟩ := registerMessage_compose_eq_ok hfirst
    obtain ⟨second, hsentSecond, rfl⟩ := registerMessage_compose_eq_ok h
    exact ⟨first, second, hsentFirst.congr (socket_gameStarted s asking asked asking),
      hsentSecond.congr (socket_gameStarted s asking asked asked), rfl⟩

theorem proceedAcceptJoin_effect (hheader : mess.header = H_C_ACCEPT_JOIN)
    (h : proceedAcceptJoin s mess = .ok s') : Effect s mess s' := by
  unfold proceedAcceptJoin at h
  obtain ⟨asked, hasked, h⟩ := bind_eq_ok_iff.mp h
  obtain ⟨asking, hasking, h⟩ := bind_eq_ok_iff.mp h
  have hsender : mess.player = some asked := deref_eq_ok_iff.mp hasked
  have haskedBy := deref_eq_ok_iff.mp hasking
  dsimp only at h
  split at h
  · rename_i hwaiting
    -- a player who accepts its own request has just cleared it
    have hdistinct : asking ≠ asked := by
      rintro rfl
      simp [clearRequest] at hwaiting
    have hstill : (s.player asking).joiningPlayer.isSome = true := by
      simpa [clearRequest, State.player_modifyPlayer_of_ne _ _ hdistinct] using hwaiting
    obtain ⟨first, second, hsentFirst, hsentSecond, rfl⟩ := startGame_eq_ok h
    exact .started hheader hsender haskedBy hdistinct hstill hsentFirst hsentSecond
  · -- the asked player hears that the other one is gone, if it has a socket
    split at h
    · obtain ⟨answer, hsent, rfl⟩ := registerMessage_compose_eq_ok h
      exact @Effect.gone s mess asking asked [answer] hheader hsender haskedBy fun a ha =>
        (List.mem_singleton.mp ha) ▸ hsent.congr (by simp [clearRequest])
    · rw [← Except.ok.inj h, ← State.pushAll_nil (State.modifyPlayer _ _ _)]
      exact .gone hheader hsender haskedBy (by simp)

theorem proceedDeclineJoin_effect (hheader : mess.header = H_C_DECLIN_JOIN)
    (h : proceedDeclineJoin s mess = .ok s') : Effect s mess s' := by
  unfold proceedDeclineJoin at h
  obtain ⟨asked, hasked, h⟩ := bind_eq_ok_iff.mp h
  obtain ⟨asking, hasking, h⟩ := bind_eq_ok_iff.mp h
  have hsender : mess.player = some asked := deref_eq_ok_iff.mp hasked
  have haskedBy := deref_eq_ok_iff.mp hasking
  obtain ⟨t, ht, h⟩ := bind_eq_ok_iff.mp h
  rw [← Except.ok.inj h]
  -- the asking player is told, if it has a socket
  split at ht
  · obtain ⟨answer, hsent, rfl⟩ := registerMessage_compose_eq_ok ht
    exact @Effect.declined s mess asking asked [answer] hheader hsender haskedBy fun a ha =>
      (List.mem_singleton.mp ha) ▸ hsent.congr (by simp [clearRequest])
  · rw [← Except.ok.inj ht, ← State.pushAll_nil (clearRequest s asked)]
    exact .declined hheader hsender haskedBy (by simp)

theorem processGameMove_effect (hheader : mess.header = H_C_GAME_MOVE)
    (h : processGameMove s mess = .ok s') : Effect s mess s' := by
  unfold processGameMove at h
  obtain ⟨p, hp, h⟩ := bind_eq_ok_iff.mp h
  obtain ⟨game, hgame, h⟩ := bind_eq_ok_iff.mp h
  have hsender : mess.player = some p := deref_eq_ok_iff.mp hp
  have hplaying := deref_eq_ok_iff.mp hgame
  obtain ⟨cardType, _, h⟩ := bind_eq_ok_iff.mp h
  obtain ⟨moveI, _, h⟩ := bind_eq_ok_iff.mp h
  obtain ⟨moveJ, _, h⟩ := bind_eq_ok_iff.mp h
  -- a move outside the board is a fault, so the cell is on it
  split at h
  · cases h
  rename_i hmove
  have hinside : OnBoard ((moveI.toNat : Int), (moveJ.toNat : Int)) := by
    simp only [not_or, UInt32.not_lt, UInt32.le_iff_toNat_le] at hmove
    have h7 : (7 : UInt32).toNat = 7 := rfl
    simp only [OnBoard]
    omega
  dsimp only at h
  split at h
  · unfold winGame at h
    obtain ⟨_, hfirst, h⟩ := bind_eq_ok_iff.mp h
    obtain ⟨first, hsentFirst, rfl⟩ := registerMessage_compose_eq_ok hfirst
    obtain ⟨_, hsecond, h⟩ := bind_eq_ok_iff.mp h
    obtain ⟨second, hsentSecond, rfl⟩ := registerMessage_compose_eq_ok hsecond
    dsimp only at h
    rw [GameManager.deleteGame_eq_ok h (GameManager.getGameByPlayer_eq_some hplaying).1
      rfl (by simp)]
    exact .won hheader hsender hplaying rfl hinside (hsentFirst.congr (by simp))
      (hsentSecond.congr (by simp))
  · rename_i hopen
    unfold passTurn at h
    obtain ⟨info, hsent, rfl⟩ := registerMessage_compose_eq_ok h
    exact .moved hheader hsender hplaying rfl hinside
      (by simpa [Game.putCard] using hopen)
      (hsent.congr (by simp))

theorem proceedPlayerLogout_effect (hheader : mess.header = H_C_PL_LOGOUT)
    (h : proceedPlayerLogout s mess = .ok s') : Effect s mess s' := by
  unfold proceedPlayerLogout at h
  obtain ⟨p, hp, h⟩ := bind_eq_ok_iff.mp h
  have hsender : mess.player = some p := deref_eq_ok_iff.mp hp
  split at h
  · rename_i hinGame
    unfold proceedGameEnding at h
    rw [hp, ok_bind] at h
    obtain ⟨game, hgame, h⟩ := bind_eq_ok_iff.mp h
    have hplaying := deref_eq_ok_iff.mp hgame
    dsimp only at h
    split at h
    · -- the opponent was lost before, so it leaves the list
      rename_i habsent
      obtain ⟨_, herase, h⟩ := bind_eq_ok_iff.mp h
      obtain ⟨players, herased, rfl⟩ := Server.deletePlayer_eq_ok herase
      rw [GameManager.deleteGame_eq_ok h (GameManager.getGameByPlayer_eq_some hplaying).1
        rfl (fun _ => rfl)]
      exact .endedLost hheader hsender hinGame hplaying rfl habsent herased
    · rename_i hpresent
      obtain ⟨_, hinfo, h⟩ := bind_eq_ok_iff.mp h
      obtain ⟨info, hsent, rfl⟩ := registerMessage_compose_eq_ok hinfo
      rw [GameManager.deleteGame_eq_ok h (GameManager.getGameByPlayer_eq_some hplaying).1
        rfl (fun _ => rfl)]
      exact .ended hheader hsender hinGame hplaying rfl (by simpa using hpresent)
        (hsent.congr (by simp))
  · rename_i hfree
    exact .disconnected hheader hsender (by simpa using hfree) (Server.disconnection_effect h)

theorem proceedPlayerLost_effect (hheader : mess.header = INTERNAL_PL_LOST)
    (h : proceedPlayerLost s mess = .ok s') : Effect s mess s' := by
  unfold proceedPlayerLost at h
  obtain ⟨lost, hlost, h⟩ := bind_eq_ok_iff.mp h
  obtain ⟨game, hgame, h⟩ := bind_eq_ok_iff.mp h
  have hsender : mess.player = some lost := deref_eq_ok_iff.mp hlost
  have hplaying := deref_eq_ok_iff.mp hgame
  dsimp only at h
  split at h
  · -- the flag of the opponent is read after the lost player's was set
    rename_i habsent
    have habsent' : GameManager.otherSeat s game lost = lost ∨
        (s.player (GameManager.otherSeat s game lost)).lost = true := by
      by_cases heq : GameManager.otherSeat s game lost = lost
      · exact Or.inl heq
      · rw [State.player_modifyPlayer_of_ne _ _ heq] at habsent
        exact Or.inr habsent
    obtain ⟨_, hdelete, h⟩ := bind_eq_ok_iff.mp h
    rw [GameManager.deleteGame_eq_ok hdelete (GameManager.getGameByPlayer_eq_some hplaying).1
      rfl (fun _ => rfl)] at h
    obtain ⟨_, herase, h⟩ := bind_eq_ok_iff.mp h
    obtain ⟨players, herased, rfl⟩ := Server.deletePlayer_eq_ok herase
    obtain ⟨players', herased', rfl⟩ := Server.deletePlayer_eq_ok h
    exact .bothLost hheader hsender hplaying rfl habsent'
      (herased.congr rfl (by simp)) (herased'.congr rfl (by simp))
  · obtain ⟨info, hsent, rfl⟩ := registerMessage_compose_eq_ok h
    exact .missed hheader hsender hplaying rfl (hsent.congr (by simp))

/-- Nothing but the listed effects happens when a command is handled. -/
theorem dispatch_effect (h : dispatch s mess = .ok s') : Effect s mess s' := by
  unfold dispatch at h
  -- one case of the `switch` after the other
  split_ifs at h with h₁ h₂ h₃ h₄ h₅ h₆ h₇ h₈ h₉
  · exact proceedNewPlayerConnection_effect h₁ h
  · exact proceedPlayerReconnection_effect h₂ h
  · exact proceedPlayerListRequest_effect h₃ h
  · exact proceedPlayerLogout_effect h₄ h
  · exact proceedPlayerJoining_effect h₅ h
  · exact proceedDeclineJoin_effect h₆ h
  · exact proceedAcceptJoin_effect h₇ h
  · exact processGameMove_effect h₈ h
  · exact proceedPlayerLost_effect h₉ h
  · rw [← Except.ok.inj h]
    exact .ignored (by simp [handledHeaders, *])

end Handlers

end UpsServer
