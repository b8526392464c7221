import UpsServer.Network.BoardSteps
import UpsServer.Network.Deliveries
import UpsServer.Network.Orderly
import UpsServer.Network.PayloadKinds

/-!
# What the clients are told

The handlers change the state and register messages on the way. `told` collects the messages of
all handlers in one table: which clients hear what when a command is handled. A handler that
returns has registered exactly these messages, in this order.
-/

namespace UpsServer

open Framework Sender CommandManager

/-! ## The table -/

/-- What a newcomer and its opponent hear when the seat of a lost player is taken over: who is on
    turn, who is on the other seat, and the board. -/
def toldOnHandover (s : State) (newP oldP : PlayerRef) (game : GameRef) : List Message :=
  let after := handedOver s newP oldP game
  match (after.game game).playerOnTurn, GameManager.getPlayersOponent after newP with
  | some onTurn, some oponent =>
    let board : Datum := .str (after.game game).getGameString
    [.compose H_S_GAME_CON
      [.str (after.player onTurn).name, .str (after.player oponent).name, board] (some newP),
      .compose H_S_GAME_CON
        [.str (after.player onTurn).name, .str (after.player newP).name, board] (some oponent)]
  | _, _ => []

/-- What is told when `p` asks for the seat of the player called `name`. -/
def toldOnReconnection (s : State) (p : PlayerRef) (name : ByteString) : List Message :=
  match Server.getPlayerByName s name with
  | none => [.compose H_S_NACK [] (some p)]
  | some oldP =>
    if (s.player oldP).lost then
      match GameManager.getGameByPlayer (takeOverName s p oldP) oldP with
      | some game => toldOnHandover s p oldP game
      | none => []
    else [.compose H_S_NACK [] (some p)]

/-- What is told when `p` asks the player called `name` for a game. -/
def toldOnJoining (s : State) (p : PlayerRef) (name : ByteString) : List Message :=
  match Server.getPlayerByName s name with
  | none => [.compose H_S_NACK [] (some p)]
  | some oponent =>
    if isJoinable s oponent then
      [.compose H_S_ACK [] (some p),
        .compose H_S_JOIN_PLAYER [.str (s.player p).name] (some oponent)]
    else [.compose H_S_NACK [] (some p)]

/-- What is told when `p` accepts: the player on turn and the opponent, from either seat. -/
def toldOnAccept (s : State) (p : PlayerRef) : List Message :=
  match (s.player p).askedForJoiningBy with
  | none => []
  | some asking =>
    if asking ≠ p ∧ (s.player asking).joiningPlayer.isSome then
      [.compose H_S_GAME_START
        [.str (s.player asking).name, .str (s.player p).name] (some asking),
        .compose H_S_GAME_START
          [.str (s.player asking).name, .str (s.player asking).name] (some p)]
    else if (s.player p).hasSocket then
      [.compose H_S_NACK_REAS [.str (text "Player who asked is gone")] (some p)]
    else []

/-- What is told when `p` declines. -/
def toldOnDecline (s : State) (p : PlayerRef) : List Message :=
  match (s.player p).askedForJoiningBy with
  | none => []
  | some asking =>
    if (s.player asking).hasSocket then
      [.compose H_S_NACK_REAS [.str (text "Oponent declined")] (some asking)]
    else []

/-- What is told when `p` makes a move. -/
def toldOnMove (s : State) (p : PlayerRef) (m : Move) : List Message :=
  match GameManager.getGameByPlayer s p with
  | none => []
  | some game =>
    let oponent := GameManager.otherSeat s game p
    if isGameWon (m.boardIn s game) m.cell then
      [.compose H_S_GAME_WON (.str (s.player p).name :: m.data) (some p),
        .compose H_S_GAME_WON (.str (s.player p).name :: m.data) (some oponent)]
    else [.compose H_S_GAME_MOVE m.data (some oponent)]

/-- What is told when `p` leaves its game or the server. -/
def toldOnLogout (s : State) (p : PlayerRef) : List Message :=
  match GameManager.getGameByPlayer s p with
  | none => []
  | some game =>
    let oponent := GameManager.otherSeat s game p
    if (s.player p).inGame && !(s.player oponent).lost then
      [.compose H_S_GAME_ENDED [] (some oponent)]
    else []

/-- What is told when the connection of a seated player is gone. -/
def toldOnLoss (s : State) (p : PlayerRef) : List Message :=
  match GameManager.getGameByPlayer s p with
  | none => []
  | some game =>
    let oponent := GameManager.otherSeat s game p
    if oponent = p ∨ (s.player oponent).lost then [] else [.compose H_S_PL_LOSS [] (some oponent)]

/-- What is told when `p` registers as `name`. -/
def toldOnRegistration (s : State) (p : PlayerRef) (name : ByteString) : List Message :=
  if isUsernameAvailible s name then [.compose H_S_ACK [] (some p)]
  else [.compose H_S_NACK_REAS [.str (text "Username already in use!")] (some p)]

/-- The player list, told to the one who asks for it. -/
def toldOnListRequest (s : State) (p : PlayerRef) : List Message :=
  [.compose H_S_PL_LIST_ANS [.int (offeredNames s p).1, .str (offeredNames s p).2] (some p)]

/-- The messages that handling `mess` registers, in their order. -/
def told (s : State) (mess : Message) : List Message :=
  match mess.player with
  | none => []
  | some p =>
    let name := mess.firstName.getD []
    if mess.header = H_C_NEW_PL then toldOnRegistration s p name
    else if mess.header = H_C_PL_RECONN then toldOnReconnection s p name
    else if mess.header = H_C_PL_LIST_REQ then toldOnListRequest s p
    else if mess.header = H_C_PL_LOGOUT then toldOnLogout s p
    else if mess.header = H_C_JOIN_PLAYER then toldOnJoining s p name
    else if mess.header = H_C_DECLIN_JOIN then toldOnDecline s p
    else if mess.header = H_C_ACCEPT_JOIN then toldOnAccept s p
    else if mess.header = H_C_GAME_MOVE then
      match mess.move with
      | some m => toldOnMove s p m
      | none => []
    else if mess.header = INTERNAL_PL_LOST then toldOnLoss s p
    else []

section Cases

variable {s : State} {mess : Message} {p : PlayerRef}

theorem told_reconnection (header : mess.header = H_C_PL_RECONN) (sender : mess.player = some p) :
    told s mess = toldOnReconnection s p (mess.firstName.getD []) := by
  simp [told, sender, header, H_C_NEW_PL, H_C_PL_RECONN]

theorem told_logout (header : mess.header = H_C_PL_LOGOUT) (sender : mess.player = some p) :
    told s mess = toldOnLogout s p := by
  simp [told, sender, header, H_C_NEW_PL, H_C_PL_RECONN, H_C_PL_LIST_REQ, H_C_PL_LOGOUT]

theorem told_accept (header : mess.header = H_C_ACCEPT_JOIN) (sender : mess.player = some p) :
    told s mess = toldOnAccept s p := by
  simp [told, sender, header, H_C_NEW_PL, H_C_PL_RECONN, H_C_PL_LIST_REQ, H_C_PL_LOGOUT,
    H_C_JOIN_PLAYER, H_C_DECLIN_JOIN, H_C_ACCEPT_JOIN]

theorem told_move {m : Move} (header : mess.header = H_C_GAME_MOVE)
    (sender : mess.player = some p) (hm : mess.move = some m) :
    told s mess = toldOnMove s p m := by
  simp [told, sender, header, hm, H_C_NEW_PL, H_C_PL_RECONN, H_C_PL_LIST_REQ, H_C_PL_LOGOUT,
    H_C_JOIN_PLAYER, H_C_DECLIN_JOIN, H_C_ACCEPT_JOIN, H_C_GAME_MOVE]

theorem told_lost (header : mess.header = INTERNAL_PL_LOST) (sender : mess.player = some p) :
    told s mess = toldOnLoss s p := by
  simp [told, sender, header, H_C_NEW_PL, H_C_PL_RECONN, H_C_PL_LIST_REQ, H_C_PL_LOGOUT,
    H_C_JOIN_PLAYER, H_C_DECLIN_JOIN, H_C_ACCEPT_JOIN, H_C_GAME_MOVE, INTERNAL_PL_LOST]

end Cases

/-! ## Registering -/

/-- A packet made of its message for the descriptor that the addressee has. -/
structure OutPacket.MadeIn (packet : OutPacket) (s : State) : Prop where
  addressed : ∃ p, packet.For s p
  encodes : ∃ size, Serializer.serialize packet.message = .ok (packet.data, size)

/-- Between the states exactly these messages were handed to `Sender`. -/
structure Tells (s t : State) (messages : List Message) : Prop where
  hand : t.senderHand = s.senderHand
  log : t.sentLog = s.sentLog
  queue : ∃ packets : List OutPacket, t.pQueue = s.pQueue ++ packets ∧
    packets.map OutPacket.message = messages ∧ ∀ packet ∈ packets, packet.MadeIn s

/-- The sender's data and all sockets are the same. -/
structure SameOutside (s t : State) : Prop where
  hand : t.senderHand = s.senderHand
  log : t.sentLog = s.sentLog
  queue : t.pQueue = s.pQueue
  socket : ∀ p, (t.player p).socket = (s.player p).socket

namespace Tells

variable {s t u : State} {messages messages' : List Message}

theorem nothing (hand : t.senderHand = s.senderHand) (log : t.sentLog = s.sentLog)
    (queue : t.pQueue = s.pQueue) : Tells s t [] :=
  ⟨hand, log, [], by rw [queue, List.append_nil], rfl, by simp⟩

/-- What is told afterwards changes nothing that the packets are made of. -/
theorem trans (h : Tells s t messages) (h' : Tells t u messages')
    (socket : ∀ p, (t.player p).socket = (s.player p).socket) :
    Tells s u (messages ++ messages') := by
  obtain ⟨packets, hqueue, hmessages, hmade⟩ := h.queue
  obtain ⟨packets', hqueue', hmessages', hmade'⟩ := h'.queue
  refine ⟨h'.hand.trans h.hand, h'.log.trans h.log, packets ++ packets',
    by rw [hqueue', hqueue, List.append_assoc], by rw [List.map_append, hmessages, hmessages'], ?_⟩
  intro packet hpacket
  rcases List.mem_append.mp hpacket with hfirst | hsecond
  · exact hmade packet hfirst
  · obtain ⟨⟨p, hp⟩, hencodes⟩ := hmade' packet hsecond
    exact ⟨⟨p, hp.congr (socket p)⟩, hencodes⟩

/-- Whatever leaves the sender alone may follow. -/
theorem andThen (h : Tells s t messages) (hand : u.senderHand = t.senderHand)
    (log : u.sentLog = t.sentLog) (queue : u.pQueue = t.pQueue) : Tells s u messages :=
  ⟨hand.trans h.hand, log.trans h.log, by rw [queue]; exact h.queue⟩

/-- Whatever leaves the sender and the sockets alone may come first. -/
theorem after (h : Tells t u messages) (same : SameOutside s t) : Tells s u messages := by
  have hfirst : Tells s t [] := .nothing same.hand same.log same.queue
  exact hfirst.trans h same.socket

/-- A registered message. -/
theorem register {m : Message} (h : registerMessage t m = .ok u) (same : SameOutside s t) :
    ∃ packet, u = t.pushOut packet ∧ Tells s u [m] := by
  unfold registerMessage at h
  obtain ⟨packet, hpacket, h⟩ := bind_eq_ok_iff.mp h
  obtain ⟨p, hp, h⟩ := bind_eq_ok_iff.mp h
  have hplayer : m.player = some p := deref_eq_ok_iff.mp hp
  rw [← Except.ok.inj h]
  refine ⟨_, rfl, Tells.after (t := t) ⟨rfl, rfl, [_], rfl, rfl, ?_⟩ same⟩
  intro x hx
  rw [List.mem_singleton.mp hx]
  exact ⟨⟨p, hplayer, rfl⟩, packet.2, mapError_eq_ok_iff.mp hpacket⟩

end Tells

/-! ## Each handler -/

section Handlers

variable {s t : State} {mess : Message} {p : PlayerRef}

/-- The name that a handler read. -/
theorem Message.firstName_getD {name : ByteString} (h : payloadString mess 0 = .ok name) :
    mess.firstName.getD [] = name := by
  rw [payloadString_eq_ok_iff.mp h]
  rfl

theorem proceedNewPlayerConnection_tells (sender : mess.player = some p)
    (h : proceedNewPlayerConnection s mess = .ok t) :
    Tells s t (toldOnRegistration s p (mess.firstName.getD [])) := by
  unfold proceedNewPlayerConnection at h
  obtain ⟨username, hpayload, h⟩ := bind_eq_ok_iff.mp h
  rw [Message.firstName_getD hpayload, toldOnRegistration]
  split at h
  · rename_i hunused
    obtain ⟨q, hq, h⟩ := bind_eq_ok_iff.mp h
    rw [sender] at h
    rw [if_pos hunused]
    obtain ⟨_, -, htells⟩ := Tells.register (s := s) h ⟨rfl, rfl, rfl, by simp⟩
    exact htells
  · rename_i hused
    rw [sender] at h
    rw [if_neg hused]
    obtain ⟨_, -, htells⟩ := Tells.register h ⟨rfl, rfl, rfl, by simp⟩
    exact htells

theorem proceedPlayerListRequest_tells (sender : mess.player = some p)
    (h : proceedPlayerListRequest s mess = .ok t) : Tells s t (toldOnListRequest s p) := by
  unfold proceedPlayerListRequest at h
  obtain ⟨requester, hrequester, h⟩ := bind_eq_ok_iff.mp h
  have heq : some p = some requester := sender.symm.trans (deref_eq_ok_iff.mp hrequester)
  rw [← Option.some.inj heq, sender] at h
  obtain ⟨_, -, htells⟩ := Tells.register h ⟨rfl, rfl, rfl, by simp⟩
  exact htells

theorem refuse_tells (sender : mess.player = some p) (h : refuse s mess = .ok t) :
    Tells s t [.compose H_S_NACK [] (some p)] := by
  unfold refuse at h
  rw [sender] at h
  obtain ⟨_, -, htells⟩ := Tells.register h ⟨rfl, rfl, rfl, by simp⟩
  exact htells

/-- The sender's data after name and seat were taken over. -/
theorem sameOutside_handedOver (s : State) (newP oldP : PlayerRef) (game : GameRef) :
    SameOutside s (handedOver s newP oldP game) := by
  obtain ⟨f, hf, -⟩ := takeOverSeat_eq (takeOverName s newP oldP) newP game
  exact ⟨by rw [handedOver, hf]; rfl, by rw [handedOver, hf]; rfl, by rw [handedOver, hf]; rfl,
    by simp [handedOver]⟩

theorem reconnect_tells {newP oldP : PlayerRef} (h : reconnect s newP oldP = .ok t) :
    ∃ game, GameManager.getGameByPlayer (takeOverName s newP oldP) oldP = some game ∧
      Tells s t (toldOnHandover s newP oldP game) := by
  unfold reconnect at h
  obtain ⟨game, hgame, h⟩ := bind_eq_ok_iff.mp h
  obtain ⟨onTurn, hturn, h⟩ := bind_eq_ok_iff.mp h
  obtain ⟨oponent, hoponent, h⟩ := bind_eq_ok_iff.mp h
  refine ⟨game, deref_eq_ok_iff.mp hgame, ?_⟩
  have hturn' : ((handedOver s newP oldP game).game game).playerOnTurn = some onTurn :=
    assigned_eq_ok_iff.mp hturn
  have hoponent' : GameManager.getPlayersOponent (handedOver s newP oldP game) newP
      = some oponent := deref_eq_ok_iff.mp hoponent
  simp only [toldOnHandover, hturn', hoponent']
  -- the newcomer hears first, then its opponent
  obtain ⟨u, hfirst, h⟩ := bind_eq_ok_iff.mp h
  obtain ⟨first, rfl, htells⟩ := Tells.register hfirst (sameOutside_handedOver s newP oldP game)
  obtain ⟨v, hsecond, h⟩ := bind_eq_ok_iff.mp h
  obtain ⟨second, rfl, htells'⟩ := Tells.register hsecond ⟨rfl, rfl, rfl, fun _ => rfl⟩
  obtain ⟨players, -, rfl⟩ := Server.deletePlayer_eq_ok h
  have hboth := htells.trans htells' (sameOutside_handedOver s newP oldP game).socket
  exact hboth.andThen rfl rfl rfl

theorem proceedPlayerReconnection_tells (sender : mess.player = some p)
    (h : proceedPlayerReconnection s mess = .ok t) :
    Tells s t (toldOnReconnection s p (mess.firstName.getD [])) := by
  unfold proceedPlayerReconnection at h
  obtain ⟨name, hpayload, h⟩ := bind_eq_ok_iff.mp h
  rw [Message.firstName_getD hpayload, toldOnReconnection]
  cases hfound : Server.getPlayerByName s name with
  | none =>
    simp only [hfound] at h
    exact refuse_tells sender h
  | some oldP =>
    simp only [hfound] at h ⊢
    split at h
    · rename_i hlost
      obtain ⟨newP, hnewP, h⟩ := bind_eq_ok_iff.mp h
      have heq : some p = some newP := sender.symm.trans (deref_eq_ok_iff.mp hnewP)
      obtain rfl := Option.some.inj heq
      obtain ⟨game, hgame, htells⟩ := reconnect_tells h
      simp only [hlost, if_true, hgame]
      exact htells
    · rename_i hpresent
      rw [if_neg hpresent]
      exact refuse_tells sender h

theorem proceedPlayerJoining_tells (sender : mess.player = some p)
    (h : proceedPlayerJoining s mess = .ok t) :
    Tells s t (toldOnJoining s p (mess.firstName.getD [])) := by
  unfold proceedPlayerJoining at h
  obtain ⟨name, hpayload, h⟩ := bind_eq_ok_iff.mp h
  rw [Message.firstName_getD hpayload, toldOnJoining]
  cases hfound : Server.getPlayerByName s name with
  | none =>
    simp only [hfound] at h
    exact refuse_tells sender h
  | some oponent =>
    simp only [hfound] at h ⊢
    split at h
    · rename_i hjoinable
      rw [if_pos hjoinable]
      obtain ⟨_, hack, h⟩ := bind_eq_ok_iff.mp h
      rw [sender] at hack
      obtain ⟨ack, rfl, htells⟩ := Tells.register hack ⟨rfl, rfl, rfl, fun _ => rfl⟩
      obtain ⟨requesting, hrequesting, h⟩ := bind_eq_ok_iff.mp h
      have heq : some p = some requesting := sender.symm.trans (deref_eq_ok_iff.mp hrequesting)
      obtain rfl := Option.some.inj heq
      -- the asking player is marked before the opponent hears of it
      unfold askForGame at h
      obtain ⟨_, hrequest, h⟩ := bind_eq_ok_iff.mp h
      obtain ⟨request, rfl, htells'⟩ :=
        Tells.register (s := s.pushOut ack) hrequest ⟨rfl, rfl, rfl, by simp⟩
      rw [← Except.ok.inj h]
      have hboth := htells.trans htells' fun _ => rfl
      have hname : ((((s.pushOut ack).modifyPlayer p (Player.setAvailible false)).modifyPlayer p
          fun x => { x with joiningPlayer := some oponent }).player p).name
            = (s.player p).name := by simp
      rw [hname] at hboth
      exact hboth.andThen rfl rfl rfl
    · rename_i hbusy
      rw [if_neg hbusy]
      exact refuse_tells sender h

theorem proceedAcceptJoin_tells (sender : mess.player = some p)
    (h : proceedAcceptJoin s mess = .ok t) : Tells s t (toldOnAccept s p) := by
  unfold proceedAcceptJoin at h
  obtain ⟨asked, hasked, h⟩ := bind_eq_ok_iff.mp h
  have heq : some p = some asked := sender.symm.trans (deref_eq_ok_iff.mp hasked)
  obtain rfl := Option.some.inj heq
  obtain ⟨asking, hasking, h⟩ := bind_eq_ok_iff.mp h
  simp only [toldOnAccept, deref_eq_ok_iff.mp hasking]
  dsimp only at h
  -- a player who accepts its own request has just cleared it
  have hwaits : ((((clearRequest s p).modifyPlayer asking (Player.setAvailible false)).modifyPlayer
      p (Player.setAvailible false)).player asking).joiningPlayer.isSome = true ↔
        asking ≠ p ∧ (s.player asking).joiningPlayer.isSome = true := by
    by_cases heq : asking = p
    · simp [clearRequest, heq]
    · simp [clearRequest, heq, State.player_modifyPlayer_of_ne _ _ heq]
  split at h
  · rename_i hwaiting
    rw [if_pos (hwaits.mp hwaiting)]
    unfold startGame at h
    obtain ⟨⟨game, u⟩, hgame, h⟩ := bind_eq_ok_iff.mp h
    unfold GameManager.registerGame at hgame
    split at hgame
    · cases hgame
    · obtain ⟨rfl, rfl⟩ := Prod.mk.inj (Except.ok.inj hgame)
      obtain ⟨_, hfirst, h⟩ := bind_eq_ok_iff.mp h
      have hsame : SameOutside s (gameStarted s asking p) := ⟨rfl, rfl, rfl, by simp⟩
      change registerMessage (gameStarted s asking p) (.compose H_S_GAME_START
        [.str ((gameStarted s asking p).player asking).name,
          .str ((gameStarted s asking p).player p).name] (some asking)) = _ at hfirst
      rw [name_gameStarted, name_gameStarted] at hfirst
      obtain ⟨first, rfl, htells⟩ := Tells.register hfirst hsame
      -- the second message names the asking player twice
      change registerMessage ((gameStarted s asking p).pushOut first) (.compose H_S_GAME_START
        [.str ((gameStarted s asking p).player asking).name,
          .str ((gameStarted s asking p).player asking).name] (some p)) = _ at h
      rw [name_gameStarted] at h
      obtain ⟨second, rfl, htells'⟩ := Tells.register h ⟨rfl, rfl, rfl, fun _ => rfl⟩
      exact htells.trans htells' hsame.socket
  · rename_i hgone
    rw [if_neg fun hwaiting => hgone (hwaits.mpr hwaiting)]
    have hsocket : ((((clearRequest s p).modifyPlayer asking
        (Player.setAvailible false)).modifyPlayer p (Player.setAvailible false)).player
          p).hasSocket = (s.player p).hasSocket := by
      simp [Player.hasSocket, clearRequest]
    rw [hsocket] at h
    split at h
    · rename_i hconnected
      rw [if_pos hconnected]
      obtain ⟨_, -, htells⟩ :=
        Tells.register (s := s) h ⟨rfl, rfl, rfl, by simp [clearRequest]⟩
      exact htells
    · rename_i hdisconnected
      rw [if_neg hdisconnected, ← Except.ok.inj h]
      exact .nothing rfl rfl rfl

theorem proceedDeclineJoin_tells (sender : mess.player = some p)
    (h : proceedDeclineJoin s mess = .ok t) : Tells s t (toldOnDecline s p) := by
  unfold proceedDeclineJoin at h
  obtain ⟨asked, hasked, h⟩ := bind_eq_ok_iff.mp h
  have heq : some p = some asked := sender.symm.trans (deref_eq_ok_iff.mp hasked)
  obtain rfl := Option.some.inj heq
  obtain ⟨asking, hasking, h⟩ := bind_eq_ok_iff.mp h
  simp only [toldOnDecline, deref_eq_ok_iff.mp hasking]
  obtain ⟨u, hu, h⟩ := bind_eq_ok_iff.mp h
  have hsocket : ((clearRequest s p).player asking).hasSocket = (s.player asking).hasSocket := by
    simp [Player.hasSocket, clearRequest]
  rw [hsocket] at hu
  rw [← Except.ok.inj h]
  split at hu
  · rename_i hconnected
    rw [if_pos hconnected]
    obtain ⟨_, -, htells⟩ := Tells.register (s := s) hu ⟨rfl, rfl, rfl, by simp [clearRequest]⟩
    exact htells.andThen rfl rfl rfl
  · rename_i hdisconnected
    rw [if_neg hdisconnected, ← Except.ok.inj hu]
    exact .nothing rfl rfl rfl

theorem processGameMove_tells (sender : mess.player = some p)
    (h : processGameMove s mess = .ok t) :
    ∃ m, mess.move = some m ∧ Tells s t (toldOnMove s p m) := by
  unfold processGameMove at h
  obtain ⟨turnPlayer, hturn, h⟩ := bind_eq_ok_iff.mp h
  have heq : some p = some turnPlayer := sender.symm.trans (deref_eq_ok_iff.mp hturn)
  obtain rfl := Option.some.inj heq
  obtain ⟨game, hgame, h⟩ := bind_eq_ok_iff.mp h
  obtain ⟨cardType, h₀, h⟩ := bind_eq_ok_iff.mp h
  obtain ⟨moveI, h₁, h⟩ := bind_eq_ok_iff.mp h
  obtain ⟨moveJ, h₂, h⟩ := bind_eq_ok_iff.mp h
  refine ⟨⟨cardType, moveI, moveJ⟩, Message.move_eq_some h₀ h₁ h₂, ?_⟩
  simp only [toldOnMove, deref_eq_ok_iff.mp hgame]
  -- a move outside the board is a fault
  split at h
  · cases h
  dsimp only at h
  have hboard : ((s.modifyGame game (Game.putCard ((moveI.toNat : Int), (moveJ.toNat : Int))
      (asInt cardType.toNat))).game game).field
      = (⟨cardType, moveI, moveJ⟩ : Move).boardIn s game := by
    rw [State.game_modifyGame_self, Game.putCard]
    rfl
  have hcell : ((moveI.toNat : Int), (moveJ.toNat : Int))
      = (⟨cardType, moveI, moveJ⟩ : Move).cell := rfl
  rw [hboard, hcell] at h
  split at h
  · rename_i hwon
    rw [if_pos hwon]
    unfold winGame at h
    obtain ⟨_, hfirst, h⟩ := bind_eq_ok_iff.mp h
    obtain ⟨first, rfl, htells⟩ := Tells.register (s := s) hfirst ⟨rfl, rfl, rfl, fun _ => rfl⟩
    obtain ⟨_, hsecond, h⟩ := bind_eq_ok_iff.mp h
    obtain ⟨second, rfl, htells'⟩ := Tells.register hsecond ⟨rfl, rfl, rfl, fun _ => rfl⟩
    dsimp only at h
    rw [GameManager.deleteGame_eq_ok h
      (GameManager.getGameByPlayer_eq_some (deref_eq_ok_iff.mp hgame)).1 rfl (by simp)]
    have hboth := htells.trans htells' fun _ => rfl
    exact hboth.andThen rfl rfl rfl
  · rename_i hopen
    rw [if_neg hopen]
    unfold passTurn at h
    obtain ⟨_, -, htells⟩ := Tells.register (s := s) h ⟨rfl, rfl, rfl, fun _ => rfl⟩
    exact htells

theorem proceedPlayerLogout_tells (sender : mess.player = some p)
    (h : proceedPlayerLogout s mess = .ok t) : Tells s t (toldOnLogout s p) := by
  unfold proceedPlayerLogout at h
  obtain ⟨q, hq, h⟩ := bind_eq_ok_iff.mp h
  have heq : some p = some q := sender.symm.trans (deref_eq_ok_iff.mp hq)
  obtain rfl := Option.some.inj heq
  split at h
  · rename_i hinGame
    unfold proceedGameEnding at h
    rw [hq, ok_bind] at h
    obtain ⟨game, hgame, h⟩ := bind_eq_ok_iff.mp h
    simp only [toldOnLogout, deref_eq_ok_iff.mp hgame, hinGame, Bool.true_and]
    dsimp only at h
    split at h
    · -- a lost opponent hears nothing
      rename_i habsent
      obtain ⟨_, herase, h⟩ := bind_eq_ok_iff.mp h
      obtain ⟨players, -, rfl⟩ := Server.deletePlayer_eq_ok herase
      rw [GameManager.deleteGame_eq_ok h
        (GameManager.getGameByPlayer_eq_some (deref_eq_ok_iff.mp hgame)).1 rfl (fun _ => rfl)]
      simp only [habsent, Bool.not_true, Bool.false_eq_true, if_false]
      exact .nothing rfl rfl rfl
    · rename_i hpresent
      have hpresent' : (s.player (GameManager.otherSeat s game p)).lost = false := by
        simpa using hpresent
      obtain ⟨_, hinfo, h⟩ := bind_eq_ok_iff.mp h
      obtain ⟨_, rfl, htells⟩ := Tells.register (s := s) hinfo ⟨rfl, rfl, rfl, by simp⟩
      rw [GameManager.deleteGame_eq_ok h
        (GameManager.getGameByPlayer_eq_some (deref_eq_ok_iff.mp hgame)).1 rfl (fun _ => rfl)]
      simp only [hpresent', Bool.not_false, if_true]
      exact htells.andThen rfl rfl rfl
  · rename_i hfree
    have htold : toldOnLogout s p = [] := by
      unfold toldOnLogout
      split
      · rfl
      · simp [hfree]
    have hqueues := QueuesFor.of_disconnection (Server.disconnection_effect h)
    have hqueue : t.pQueue = s.pQueue := by
      cases Server.disconnection_effect h <;> rfl
    rw [htold]
    exact .nothing hqueues.hand hqueues.log hqueue

theorem proceedPlayerLost_tells (sender : mess.player = some p)
    (h : proceedPlayerLost s mess = .ok t) : Tells s t (toldOnLoss s p) := by
  unfold proceedPlayerLost at h
  obtain ⟨lost, hlost, h⟩ := bind_eq_ok_iff.mp h
  have heq : some p = some lost := sender.symm.trans (deref_eq_ok_iff.mp hlost)
  obtain rfl := Option.some.inj heq
  obtain ⟨game, hgame, h⟩ := bind_eq_ok_iff.mp h
  simp only [toldOnLoss, deref_eq_ok_iff.mp hgame]
  dsimp only at h
  -- the flag of the opponent is read after the lost player's was set
  have habsent : ((s.modifyPlayer p fun x => { x with lost := true }).player
      (GameManager.otherSeat s game p)).lost = true ↔
        GameManager.otherSeat s game p = p ∨
          (s.player (GameManager.otherSeat s game p)).lost = true := by
    by_cases heq : GameManager.otherSeat s game p = p
    · simp [heq]
    · simp [heq, State.player_modifyPlayer_of_ne _ _ heq]
  split at h
  · rename_i hboth
    rw [if_pos (habsent.mp hboth)]
    obtain ⟨_, hdelete, h⟩ := bind_eq_ok_iff.mp h
    rw [GameManager.deleteGame_eq_ok hdelete
      (GameManager.getGameByPlayer_eq_some (deref_eq_ok_iff.mp hgame)).1 rfl (fun _ => rfl)] at h
    obtain ⟨_, herase, h⟩ := bind_eq_ok_iff.mp h
    obtain ⟨players, -, rfl⟩ := Server.deletePlayer_eq_ok herase
    obtain ⟨players', -, rfl⟩ := Server.deletePlayer_eq_ok h
    exact .nothing rfl rfl rfl
  · rename_i hpresent
    rw [if_neg fun hboth => hpresent (habsent.mpr hboth)]
    obtain ⟨_, -, htells⟩ := Tells.register (s := s) h ⟨rfl, rfl, rfl, by simp⟩
    exact htells

/-- A handler that returns has told the clients exactly what the table says. -/
theorem dispatch_tells (h : dispatch s mess = .ok t) : Tells s t (told s mess) := by
  cases hplayer : mess.player with
  | none =>
    -- nobody is told anything on behalf of nobody, and only an ignored message gets this far
    have heffect := dispatch_effect h
    have htold : told s mess = [] := by rw [told, hplayer]
    rw [htold]
    cases heffect with
    | ignored => exact .nothing rfl rfl rfl
    | answered _ sender | named _ sender | reconnected _ sender | asked _ sender
    | started _ sender | gone _ sender | declined _ sender | moved _ sender | won _ sender
    | ended _ sender | endedLost _ sender | disconnected _ sender | missed _ sender
    | bothLost _ sender =>
      rw [hplayer] at sender
      cases sender
  | some p =>
    simp only [told, hplayer]
    unfold dispatch at h
    split_ifs at h ⊢ with h₁ h₂ h₃ h₄ h₅ h₆ h₇ h₈ h₉
    · exact proceedNewPlayerConnection_tells hplayer h
    · exact proceedPlayerReconnection_tells hplayer h
    · exact proceedPlayerListRequest_tells hplayer h
    · exact proceedPlayerLogout_tells hplayer h
    · exact proceedPlayerJoining_tells hplayer h
    · exact proceedDeclineJoin_tells hplayer h
    · exact proceedAcceptJoin_tells hplayer h
    · obtain ⟨m, hm, htells⟩ := processGameMove_tells hplayer h
      rw [hm]
      exact htells
    · exact proceedPlayerLost_tells hplayer h
    · rw [← Except.ok.inj h]
      exact .nothing rfl rfl rfl

end Handlers

end UpsServer
