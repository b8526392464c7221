import UpsServer.Game.GameManager
import UpsServer.Game.LineControl
import UpsServer.Network.Sender
import UpsServer.Network.Server

/-!
# The command manager

The handlers of `CommandManager.cpp` and the dispatch of `CommandManager::run`. A handler maps
the state and its message to the next state or to a fault.
-/

namespace UpsServer.CommandManager

open Framework Sender

/-- The bytes of a text of the source. -/
def text (t : String) : ByteString := t.toList.map fun c => UInt8.ofNat c.toNat

/-- A payload entry read as a string. -/
def payloadString (mess : Message) (i : Nat) : Except Fault ByteString :=
  (mess.stringAt i).mapError .codec

/-- A payload entry read as an integer. -/
def payloadInt (mess : Message) (i : Nat) : Except Fault UInt32 :=
  (mess.intAt i).mapError .codec

/-! ## Registration and the player list -/

/-- `isUsernameAvailible`. -/
def isUsernameAvailible (s : State) (username : ByteString) : Bool :=
  s.players.all fun p => !((s.player p).name == username)

/-- `proceedNewPlayerConnection`. -/
def proceedNewPlayerConnection (s : State) (mess : Message) : Except Fault State := do
  let username ← payloadString mess 0
  if isUsernameAvailible s username then
    let player ← deref mess.player
    let s := s.modifyPlayer player (Player.setName username)
    let s := s.modifyPlayer player (Player.setAvailible true)
    registerMessage s (.compose H_S_ACK [] mess.player)
  else
    registerMessage s
      (.compose H_S_NACK_REAS [.str (text "Username already in use!")] mess.player)

/-- The test of the loop in `proceedPlayerListRequest`. -/
def isOffered (s : State) (requester p : PlayerRef) : Bool :=
  !(s.player p).inGame && (s.player p).availible && (s.player p).hasSocket &&
    (s.player p).hasName && !((s.player p).name == (s.player requester).name)

/-- The loop of `proceedPlayerListRequest`: the count and the names joined by `;`. -/
def offeredNames (s : State) (requester : PlayerRef) : UInt32 × ByteString :=
  s.players.foldl
    (fun result p =>
      if isOffered s requester p then
        (result.1 + 1, (if 0 < result.1 then result.2 ++ [59] else result.2) ++ (s.player p).name)
      else result)
    (0, [])

/-- `proceedPlayerListRequest`. -/
def proceedPlayerListRequest (s : State) (mess : Message) : Except Fault State := do
  let requester ← deref mess.player
  let result := offeredNames s requester
  registerMessage s (.compose H_S_PL_LIST_ANS [.int result.1, .str result.2] mess.player)

/-! ## Reconnection -/

/-- The refusal of `proceedPlayerReconnection` and `proceedPlayerJoining`. -/
def refuse (s : State) (mess : Message) : Except Fault State :=
  registerMessage s (.compose H_S_NACK [] mess.player)

/-- The renaming and flagging of the newcomer in `proceedPlayerReconnection`. -/
def takeOverName (s : State) (newP oldP : PlayerRef) : State :=
  let s := s.modifyPlayer newP (Player.setName (s.player oldP).name)
  let s := s.modifyPlayer newP (Player.setAvailible false)
  s.modifyPlayer newP (Player.setInGame true)

/-- The choice of the seat in `proceedPlayerReconnection`. -/
def takeOverSeat (s : State) (game : GameRef) (newP : PlayerRef) : State :=
  if (s.player (s.game game).p1).name = (s.player newP).name then
    s.modifyGame game (Game.setPlayer1 newP)
  else
    s.modifyGame game (Game.setPlayer2 newP)

/-- The accepting branch of `proceedPlayerReconnection`. -/
def reconnect (s : State) (newP oldP : PlayerRef) : Except Fault State := do
  let s := takeOverName s newP oldP
  let game ← deref (GameManager.getGameByPlayer s oldP)
  let s := takeOverSeat s game newP
  let onTurn ← assigned (s.game game).playerOnTurn
  let oponent ← deref (GameManager.getPlayersOponent s newP)
  let gameString := (s.game game).getGameString
  let s ← registerMessage s (.compose H_S_GAME_CON
    [.str (s.player onTurn).name, .str (s.player oponent).name, .str gameString] (some newP))
  let s ← registerMessage s (.compose H_S_GAME_CON
    [.str (s.player onTurn).name, .str (s.player newP).name, .str gameString] (some oponent))
  Server.deletePlayer s oldP

/-- `proceedPlayerReconnection`. -/
def proceedPlayerReconnection (s : State) (mess : Message) : Except Fault State := do
  let name ← payloadString mess 0
  match Server.getPlayerByName s name with
  | none => refuse s mess
  | some oldP =>
    if (s.player oldP).lost then
      let newP ← deref mess.player
      reconnect s newP oldP
    else refuse s mess

/-! ## Asking for a game -/

/-- `proceedPlayerJoining` tests whether the opponent is joinable. -/
def isJoinable (s : State) (oponent : PlayerRef) : Bool :=
  (s.player oponent).availible && (s.player oponent).hasSocket && !(s.player oponent).inGame

/-- The marks that `proceedPlayerJoining` leaves on both players. -/
def askForGame (s : State) (requesting oponent : PlayerRef) : Except Fault State := do
  let s := s.modifyPlayer requesting (Player.setAvailible false)
  let s := s.modifyPlayer requesting fun p => { p with joiningPlayer := some oponent }
  let s ← registerMessage s
    (.compose H_S_JOIN_PLAYER [.str (s.player requesting).name] (some oponent))
  let s := s.modifyPlayer oponent fun p => { p with askedForJoiningBy := some requesting }
  let s := s.modifyPlayer requesting (Player.setAvailible false)
  return s.modifyPlayer oponent (Player.setAvailible false)

/-- `proceedPlayerJoining`. -/
def proceedPlayerJoining (s : State) (mess : Message) : Except Fault State := do
  let name ← payloadString mess 0
  match Server.getPlayerByName s name with
  | none => refuse s mess
  | some oponent =>
    if isJoinable s oponent then
      let s ← registerMessage s (.compose H_S_ACK [] mess.player)
      let requesting ← deref mess.player
      askForGame s requesting oponent
    else refuse s mess

/-- `proceedAcceptJoin` and `proceedDeclineJoin` first clear the request of the asked player. -/
def clearRequest (s : State) (asked : PlayerRef) : State :=
  s.modifyPlayer asked fun p => { p with askedForJoiningBy := none, joiningPlayer := none }

/-- The branch of `proceedAcceptJoin` that starts the game. The second message names the asking
    player twice. -/
def startGame (s : State) (asking asked : PlayerRef) : Except Fault State := do
  let (game, s) ← GameManager.registerGame s asking asked
  let s := s.modifyPlayer asking (Player.setInGame true)
  let s := s.modifyPlayer asked (Player.setInGame true)
  let s := s.modifyGame game (Game.setPlayerOnTurn asking)
  let s ← registerMessage s (.compose H_S_GAME_START
    [.str (s.player asking).name, .str (s.player asked).name] (some asking))
  registerMessage s (.compose H_S_GAME_START
    [.str (s.player asking).name, .str (s.player asking).name] (some asked))

/-- `proceedAcceptJoin`. -/
def proceedAcceptJoin (s : State) (mess : Message) : Except Fault State := do
  let asked ← deref mess.player
  let asking ← deref (s.player asked).askedForJoiningBy
  let s := clearRequest s asked
  let s := s.modifyPlayer asking (Player.setAvailible false)
  let s := s.modifyPlayer asked (Player.setAvailible false)
  if (s.player asking).joiningPlayer.isSome then
    startGame s asking asked
  else if (s.player asked).hasSocket then
    registerMessage s
      (.compose H_S_NACK_REAS [.str (text "Player who asked is gone")] (some asked))
  else return s

/-- `proceedDeclineJoin`. -/
def proceedDeclineJoin (s : State) (mess : Message) : Except Fault State := do
  let asked ← deref mess.player
  let asking ← deref (s.player asked).askedForJoiningBy
  let s := clearRequest s asked
  let s ← (if (s.player asking).hasSocket then
      registerMessage s
        (.compose H_S_NACK_REAS [.str (text "Oponent declined")] (some asking))
    else .ok s)
  let s := s.modifyPlayer asking (Player.setAvailible true)
  return s.modifyPlayer asked (Player.setAvailible true)

/-! ## Playing -/

/-- The winning branch of `processGameMove`. -/
def winGame (s : State) (game : GameRef) (turnPlayer oponent : PlayerRef)
    (move : List Datum) : Except Fault State := do
  let data := .str (s.player turnPlayer).name :: move
  let s ← registerMessage s (.compose H_S_GAME_WON data (some turnPlayer))
  let s ← registerMessage s (.compose H_S_GAME_WON data (some oponent))
  let s := s.modifyPlayer turnPlayer (Player.setInGame false)
  let s := s.modifyPlayer oponent (Player.setInGame false)
  let s := s.modifyPlayer turnPlayer (Player.setAvailible true)
  let s := s.modifyPlayer oponent (Player.setAvailible true)
  GameManager.deleteGame s game

/-- The branch of `processGameMove` that hands the turn on. -/
def passTurn (s : State) (game : GameRef) (oponent : PlayerRef) (move : List Datum) :
    Except Fault State :=
  let s := s.modifyGame game (Game.setPlayerOnTurn oponent)
  registerMessage s (.compose H_S_GAME_MOVE move (some oponent))

/-- `processGameMove`. The card type is stored into an `int`; the payload entries are sent on
    as they came. An index above 7 is undefined behaviour and ends the run; a control function that
    returns nothing is read as returning `false`. -/
def processGameMove (s : State) (mess : Message) : Except Fault State := do
  let turnPlayer ← deref mess.player
  let game ← deref (GameManager.getGameByPlayer s turnPlayer)
  let oponent := GameManager.otherSeat s game turnPlayer
  let cardType ← payloadInt mess 0
  let moveI ← payloadInt mess 1
  let moveJ ← payloadInt mess 2
  if 7 < moveI ∨ 7 < moveJ then
    throw (.fieldOutside moveI moveJ)
  let cell : Cell := (moveI.toNat, moveJ.toNat)
  let s := s.modifyGame game (Game.putCard cell (asInt cardType.toNat))
  let move := [.int cardType, .int moveI, .int moveJ]
  if isGameWon (s.game game).field cell then
    winGame s game turnPlayer oponent move
  else
    passTurn s game oponent move

/-- `proceedGameEnding`. -/
def proceedGameEnding (s : State) (mess : Message) : Except Fault State := do
  let p ← deref mess.player
  let game ← deref (GameManager.getGameByPlayer s p)
  let oponent := GameManager.otherSeat s game p
  if (s.player oponent).lost then
    let s ← Server.deletePlayer s oponent
    let s := s.modifyPlayer p (Player.setAvailible true)
    let s := s.modifyPlayer p (Player.setInGame false)
    GameManager.deleteGame s game
  else
    let s := s.modifyPlayer p (Player.setInGame false)
    let s := s.modifyPlayer oponent (Player.setInGame false)
    let s := s.modifyPlayer p (Player.setAvailible true)
    let s := s.modifyPlayer oponent (Player.setAvailible true)
    let s ← registerMessage s (.compose H_S_GAME_ENDED [] (some oponent))
    GameManager.deleteGame s game

/-! ## Leaving -/

/-- `proceedPlayerLogout`. -/
def proceedPlayerLogout (s : State) (mess : Message) : Except Fault State := do
  let p ← deref mess.player
  if (s.player p).inGame then
    proceedGameEnding s mess
  else
    Server.proceedPlayerDisconnection s (s.player p).socket

/-- `proceedPlayerLost`. -/
def proceedPlayerLost (s : State) (mess : Message) : Except Fault State := do
  let lost ← deref mess.player
  let game ← deref (GameManager.getGameByPlayer s lost)
  let oponent := GameManager.otherSeat s game lost
  let s := s.modifyPlayer lost fun p => { p with lost := true }
  if (s.player oponent).lost then
    let s ← GameManager.deleteGame s game
    let s := s.modifyPlayer oponent (Player.setInGame false)
    let s := s.modifyPlayer lost (Player.setInGame false)
    let s ← Server.deletePlayer s oponent
    Server.deletePlayer s lost
  else
    registerMessage s (.compose H_S_PL_LOSS [] (some oponent))

/-! ## Dispatch -/

/-- The `switch` of `CommandManager::run`. Every other header does nothing. -/
def dispatch (s : State) (mess : Message) : Except Fault State :=
  if mess.header = H_C_NEW_PL then proceedNewPlayerConnection s mess
  else if mess.header = H_C_PL_RECONN then proceedPlayerReconnection s mess
  else if mess.header = H_C_PL_LIST_REQ then proceedPlayerListRequest s mess
  else if mess.header = H_C_PL_LOGOUT then proceedPlayerLogout s mess
  else if mess.header = H_C_JOIN_PLAYER then proceedPlayerJoining s mess
  else if mess.header = H_C_DECLIN_JOIN then proceedDeclineJoin s mess
  else if mess.header = H_C_ACCEPT_JOIN then proceedAcceptJoin s mess
  else if mess.header = H_C_GAME_MOVE then processGameMove s mess
  else if mess.header = INTERNAL_PL_LOST then proceedPlayerLost s mess
  else .ok s

section Cases

variable {s : State} {mess : Message}

theorem dispatch_logout (header : mess.header = H_C_PL_LOGOUT) :
    dispatch s mess = proceedPlayerLogout s mess := by
  simp [dispatch, header, H_C_NEW_PL, H_C_PL_RECONN, H_C_PL_LIST_REQ, H_C_PL_LOGOUT]

theorem dispatch_decline (header : mess.header = H_C_DECLIN_JOIN) :
    dispatch s mess = proceedDeclineJoin s mess := by
  simp [dispatch, header, H_C_NEW_PL, H_C_PL_RECONN, H_C_PL_LIST_REQ, H_C_PL_LOGOUT,
    H_C_JOIN_PLAYER, H_C_DECLIN_JOIN]

theorem dispatch_accept (header : mess.header = H_C_ACCEPT_JOIN) :
    dispatch s mess = proceedAcceptJoin s mess := by
  simp [dispatch, header, H_C_NEW_PL, H_C_PL_RECONN, H_C_PL_LIST_REQ, H_C_PL_LOGOUT,
    H_C_JOIN_PLAYER, H_C_DECLIN_JOIN, H_C_ACCEPT_JOIN]

theorem dispatch_move (header : mess.header = H_C_GAME_MOVE) :
    dispatch s mess = processGameMove s mess := by
  simp [dispatch, header, H_C_NEW_PL, H_C_PL_RECONN, H_C_PL_LIST_REQ, H_C_PL_LOGOUT,
    H_C_JOIN_PLAYER, H_C_DECLIN_JOIN, H_C_ACCEPT_JOIN, H_C_GAME_MOVE]

theorem dispatch_lost (header : mess.header = INTERNAL_PL_LOST) :
    dispatch s mess = proceedPlayerLost s mess := by
  simp [dispatch, header, H_C_NEW_PL, H_C_PL_RECONN, H_C_PL_LIST_REQ, H_C_PL_LOGOUT,
    H_C_JOIN_PLAYER, H_C_DECLIN_JOIN, H_C_ACCEPT_JOIN, H_C_GAME_MOVE, INTERNAL_PL_LOST]

end Cases

end UpsServer.CommandManager
