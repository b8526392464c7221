import UpsServer.Network.Orderly

/-!
# Who leaves the list

An entry is erased by `proceedPlayerDisconnection`, which looks for a socket, and by
`deletePlayer`, which looks for a name. Both look-ups depend on the state before the step only, so
that state tells who leaves. `CallStep` says what a step does to the list and to the descriptors.
-/

namespace UpsServer

open Framework CommandManager

/-! ## Calls of `proceedPlayerDisconnection` -/

/-- The call of `proceedPlayerDisconnection` that a step makes: the state at that moment and the
    socket. -/
def disconnects (s : State) : Action → Option (State × Int)
  | .peerClosed fd => some (s, fd)
  | .resolvePacket =>
    match s.packetStage with
    | .popped packet =>
      match Serializer.deserialize packet.data, Server.getPlayerBySocket s packet.socket with
      | .ok none, some p =>
        if 10 ≤ (s.player p).bullshitMessages + 1 then
          some (countOne { s with packetStage := .idle } p, packet.socket)
        else none
      | _, _ => none
    | _ => none
  | .runCommand =>
    match s.commandQueue with
    | [] => none
    | command :: rest =>
      match command.message.player with
      | none => none
      | some p =>
        if command.message.header = H_C_PL_LOGOUT ∧ (s.player p).inGame = false then
          some (s.withCommands rest, (s.player p).socket)
        else none
  | _ => none

/-- The three ways to a call of `proceedPlayerDisconnection`. -/
inductive DisconnectionCall (s : State) : Action → State → Int → Prop where
  /-- `Server::run` finds the connection closed. -/
  | closed (fd : Int) : DisconnectionCall s (.peerClosed fd) s fd
  /-- `PacketManager` counts the tenth invalid packet of a connection. -/
  | tenth {packet : Packet} {p : PlayerRef} (stage : s.packetStage = .popped packet)
      (decoded : Serializer.deserialize packet.data = .ok none)
      (found : Server.getPlayerBySocket s packet.socket = some p)
      (count : 10 ≤ (s.player p).bullshitMessages + 1) :
      DisconnectionCall s .resolvePacket (countOne { s with packetStage := .idle } p)
        packet.socket
  /-- `proceedPlayerLogout` handles the logout of a player in no game. -/
  | logout {command : Command} {rest : List Command} {p : PlayerRef}
      (queue : s.commandQueue = command :: rest) (sender : command.message.player = some p)
      (header : command.message.header = H_C_PL_LOGOUT) (free : (s.player p).inGame = false) :
      DisconnectionCall s .runCommand (s.withCommands rest) (s.player p).socket

theorem disconnectionCall_of_disconnects {s u : State} {a : Action} {fd : Int}
    (h : disconnects s a = some (u, fd)) : DisconnectionCall s a u fd := by
  unfold disconnects at h
  split at h
  · obtain ⟨rfl, rfl⟩ := Prod.mk.inj (Option.some.inj h)
    exact .closed _
  · split at h
    · rename_i packet hstage
      split at h
      · rename_i p hdecoded hfound
        split at h
        · rename_i hcount
          obtain ⟨rfl, rfl⟩ := Prod.mk.inj (Option.some.inj h)
          exact .tenth hstage hdecoded hfound hcount
        · cases h
      · cases h
    · cases h
  · split at h
    · cases h
    · rename_i command rest hqueue
      split at h
      · cases h
      · rename_i p hsender
        split at h
        · rename_i hlogout
          obtain ⟨rfl, rfl⟩ := Prod.mk.inj (Option.some.inj h)
          exact .logout hqueue hsender hlogout.1 hlogout.2
        · cases h
  · cases h

/-- The step is the call. -/
theorem exec_of_disconnects {s u : State} {a : Action} {fd : Int}
    (h : disconnects s a = some (u, fd)) :
    System.exec s a = Server.proceedPlayerDisconnection u fd := by
  cases disconnectionCall_of_disconnects h with
  | closed => rfl
  | @tenth packet p stage decoded found count =>
    have hfound : Server.getPlayerBySocket { s with packetStage := .idle } packet.socket = some p :=
      found
    have hten :
        10 ≤ ((countOne { s with packetStage := .idle } p).player p).bullshitMessages := by
      rw [countOne, State.player_modifyPlayer_self]
      exact count
    simp only [System.exec, stage, PacketManager.resolvePacket, decoded]
    show PacketManager.countInvalid { s with packetStage := .idle } packet = _
    simp only [PacketManager.countInvalid, hfound]
    exact if_pos hten
  | @logout command rest p queue sender header free =>
    have hfree : ((s.withCommands rest).player p).inGame = false := free
    rw [exec_runCommand queue, dispatch_logout header, proceedPlayerLogout, sender, deref_some,
      ok_bind, hfree]
    rfl

/-- Where a call comes from, and that nothing but the queues and a counter changed before it. -/
theorem disconnects_eq_some {s u : State} {a : Action} {fd : Int}
    (h : disconnects s a = some (u, fd)) :
    SameWorld s u ∧ (a = .peerClosed fd ∨
      (a = .resolvePacket ∧ ∃ p, Server.getPlayerBySocket s fd = some p) ∨
      (a = .runCommand ∧ ∃ command ∈ s.commandQueue.head?,
        command.message.header = H_C_PL_LOGOUT ∧ ∃ p ∈ command.message.player,
          (s.player p).inGame = false ∧ (s.player p).socket = fd)) := by
  cases disconnectionCall_of_disconnects h with
  | closed => exact ⟨.of_eq rfl rfl rfl rfl rfl rfl, Or.inl rfl⟩
  | @tenth packet p stage decoded found =>
    have hidle : SameWorld s { s with packetStage := .idle } := .of_eq rfl rfl rfl rfl rfl rfl
    exact ⟨hidle.trans (quiet_countOne _ p).toSameWorld, Or.inr (Or.inl ⟨rfl, p, found⟩)⟩
  | @logout command rest p queue sender header free =>
    refine ⟨sameWorld_withCommands s rest, Or.inr (Or.inr ⟨rfl, command, ?_, header, p, sender,
      free, rfl⟩)⟩
    rw [queue]
    rfl

/-- Queues and counters do not matter for the look-up. -/
theorem SameWorld.getPlayerBySocket {s t : State} (h : SameWorld s t) (fd : Int) :
    Server.getPlayerBySocket t fd = Server.getPlayerBySocket s fd := by
  unfold Server.getPlayerBySocket
  rw [h.players]
  congr 1
  funext p
  rw [Player.hasSocket, Player.hasSocket, h.socketSet, h.socket]

/-- What a step does to the list and to the descriptors. -/
inductive CallStep (s : State) (a : Action) : State → Prop where
  /-- It calls `proceedPlayerDisconnection`. -/
  | calls {u t : State} {fd : Int} (call : disconnects s a = some (u, fd))
      (closed : Disconnection u fd t) : CallStep s a t
  /-- It handles a command and does not call it. -/
  | handles {command : Command} {rest : List Command} {t : State} (now : a = .runCommand)
      (silent : disconnects s a = none) (queue : s.commandQueue = command :: rest)
      (effect : Effect (s.withCommands rest) command.message t)
      (sockets : SameSockets (s.withCommands rest) t) : CallStep s a t
  /-- It accepts a connection. -/
  | accepts {fd : Int} {nameSet : Bool} (now : a = .accept fd nameSet) :
      CallStep s a (Server.addPlayer s fd nameSet)
  /-- Only queues, logs and counters change. -/
  | quiet {t : State} (silent : disconnects s a = none) (same : SameWorld s t) : CallStep s a t

/-- Counting an invalid packet changes nothing else, unless it is the tenth. -/
theorem sameWorld_of_countInvalid {s t : State} {packet : Packet}
    (stage : s.packetStage = .popped packet)
    (decoded : Serializer.deserialize packet.data = .ok none)
    (silent : disconnects s .resolvePacket = none)
    (counted : PacketManager.countInvalid { s with packetStage := .idle } packet = .ok t) :
    SameWorld s t := by
  have hidle : SameWorld s { s with packetStage := .idle } := .of_eq rfl rfl rfl rfl rfl rfl
  unfold PacketManager.countInvalid at counted
  split at counted
  · rw [← Except.ok.inj counted]
    exact hidle
  · rename_i p hfound
    have hfound' : Server.getPlayerBySocket s packet.socket = some p := hfound
    dsimp only at counted
    split at counted
    · -- the tenth invalid packet is a call
      rename_i hten
      have hten' : 10 ≤ (s.player p).bullshitMessages + 1 := by
        rw [State.player_modifyPlayer_self] at hten
        exact hten
      simp only [disconnects, stage, decoded, hfound', if_pos hten'] at silent
      cases silent
    · rw [← Except.ok.inj counted]
      exact hidle.trans (quiet_countOne _ p).toSameWorld

theorem call_step {s t : State} {a : Action} (exec : System.exec s a = .ok t) :
    CallStep s a t := by
  have same : disconnects s a = none → t = s → CallStep s a t := by
    rintro hsilent rfl
    exact .quiet hsilent (.of_eq rfl rfl rfl rfl rfl rfl)
  cases hcall : disconnects s a with
  | some call =>
    rw [exec_of_disconnects hcall] at exec
    exact .calls hcall (Server.disconnection_effect exec)
  | none =>
    cases a with
    | accept fd nameSet =>
      simp only [System.exec, Server.acceptConnection] at exec
      split at exec
      · cases exec
      · rw [← Except.ok.inj exec]
        exact .accepts rfl
    | receive fd data =>
      obtain ⟨_, _, h⟩ := bind_eq_ok_iff.mp exec
      rw [← Except.ok.inj h]
      exact .quiet hcall (.of_eq rfl rfl rfl rfl rfl rfl)
    | peerClosed fd => cases hcall
    | popPacket =>
      rw [← Except.ok.inj exec]
      unfold PacketManager.popPacket
      split <;> exact .quiet hcall (.of_eq rfl rfl rfl rfl rfl rfl)
    | resolvePacket =>
      simp only [System.exec] at exec
      split at exec
      · rename_i packet hstage
        rcases resolvePacket_eq_ok exec with ⟨mess, _, rfl⟩ | ⟨hdecoded, hinvalid⟩
        · exact .quiet hcall (.of_eq rfl rfl rfl rfl rfl rfl)
        · exact .quiet hcall (sameWorld_of_countInvalid hstage hdecoded hcall hinvalid)
      · exact same hcall (Except.ok.inj exec).symm
    | registerResolved =>
      simp only [System.exec] at exec
      split at exec
      · rw [← Except.ok.inj exec]
        exact .quiet hcall (.of_eq rfl rfl rfl rfl rfl rfl)
      · exact same hcall (Except.ok.inj exec).symm
    | runCommand =>
      simp only [System.exec, System.runCommand] at exec
      split at exec
      · exact same hcall (Except.ok.inj exec).symm
      · rename_i command rest hqueue
        have heffect := dispatch_effect exec
        rcases heffect.sockets with ⟨header, p, sender, free, -⟩ | hsame
        · -- the logout of a free player is a call
          have hfree : (s.player p).inGame = false := free
          simp [disconnects, hqueue, sender, header, hfree] at hcall
        · exact .handles rfl hcall hqueue heffect hsame
    | popOutgoing =>
      rw [← Except.ok.inj exec]
      unfold Sender.popOutgoing
      split <;> exact .quiet hcall (.of_eq rfl rfl rfl rfl rfl rfl)
    | sendOutgoing =>
      rw [← Except.ok.inj exec]
      unfold Sender.sendOutgoing
      split <;> exact .quiet hcall (.of_eq rfl rfl rfl rfl rfl rfl)

/-! ## Calls of `deletePlayer` -/

/-- The entry that `deletePlayer` erases: the first one with the player's name, and the last one
    when nobody has the name. -/
def Server.deletedEntry (s : State) (p : PlayerRef) : Option PlayerRef :=
  (s.players.find? (sameName s p)).or s.players.getLast?

/-- The list without the entry that `deletePlayer` erases. -/
def Server.withoutDeleted (s : State) (p : PlayerRef) : List PlayerRef :=
  s.players.filter fun q => Server.deletedEntry s p ≠ some q

theorem ErasesPlayer.eq_withoutDeleted {s : State} {p : PlayerRef} {players : List PlayerRef}
    (h : ErasesPlayer s p players) (hnodup : s.players.Nodup) :
    players = Server.withoutDeleted s p := by
  have herase : ∀ e, Server.deletedEntry s p = some e →
      s.players.erase e = Server.withoutDeleted s p := by
    intro e he
    rw [Server.withoutDeleted, he, hnodup.erase_eq_filter]
    apply List.filter_congr
    intro q _
    rw [Bool.eq_iff_iff, bne_iff_ne, decide_eq_true_iff, ne_comm, Ne, Ne, Option.some.injEq]
  cases hfind : s.players.find? (sameName s p) with
  | some e =>
    have hmem := List.mem_of_find?_eq_some hfind
    have hname := List.find?_some hfind
    rw [h.found ⟨e, hmem, hname⟩, (eraseP_eq_erase_iff hnodup hmem hname).mpr hfind]
    exact herase e (by rw [Server.deletedEntry, hfind]; rfl)
  | none =>
    have hnone : ∀ q ∈ s.players, sameName s p q = false := by
      simpa using List.find?_eq_none.mp hfind
    rw [h.missed hnone]
    cases hlast : s.players.getLast? with
    | some e =>
      rw [dropLast_eq_erase hnodup hlast]
      exact herase e (by rw [Server.deletedEntry, hfind, hlast]; rfl)
    | none =>
      have hnil := List.getLast?_eq_none_iff.mp hlast
      rw [Server.withoutDeleted, hnil]
      rfl

theorem Server.mem_withoutDeleted {s : State} {p q : PlayerRef} :
    q ∈ Server.withoutDeleted s p ↔ q ∈ s.players ∧ q ∉ (Server.deletedEntry s p).toList := by
  simp [Server.withoutDeleted]

/-- The entry that a reconnection erases: the first one of the sender, who takes the name over, and
    of those who have the name. -/
def replacedEntry (s : State) (newP oldP : PlayerRef) : Option PlayerRef :=
  s.players.find? fun q => q == newP || sameName s oldP q

theorem deletedEntry_handedOver {s : State} {newP oldP : PlayerRef} (game : GameRef)
    (listed : oldP ∈ s.players) :
    Server.deletedEntry (handedOver s newP oldP game) oldP = replacedEntry s newP oldP := by
  have hsame : sameName (handedOver s newP oldP game) oldP
      = fun q => q == newP || sameName s oldP q := by
    funext q
    by_cases hq : q = newP <;> by_cases ho : oldP = newP <;>
      simp [sameName, handedOver, hq, ho]
  have hfound : ((s.players.find? fun q => q == newP || sameName s oldP q)).isSome = true := by
    rw [List.find?_isSome]
    exact ⟨oldP, listed, by simp [sameName]⟩
  rw [Server.deletedEntry, hsame, handedOver_players, replacedEntry, Option.or_of_isSome hfound]

/-- The entries that the handler of a message erases by name. -/
def deletes (s : State) (mess : Message) (sender : PlayerRef) : List PlayerRef :=
  if mess.header = H_C_PL_RECONN then
    match mess.firstName.bind (Server.getPlayerByName s) with
    | none => []
    | some oldP =>
      -- the sender has the name by then, and may stand before the lost player
      if (s.player oldP).lost then (replacedEntry s sender oldP).toList else []
  else
    match GameManager.getGameByPlayer s sender with
    | none => []
    | some game =>
      let oponent := GameManager.otherSeat s game sender
      if mess.header = H_C_PL_LOGOUT ∧ (s.player sender).inGame = true ∧
          (s.player oponent).lost = true then
        -- `proceedGameEnding` finds the opponent lost
        (Server.deletedEntry s oponent).toList
      else if mess.header = INTERNAL_PL_LOST ∧
          (oponent = sender ∨ (s.player oponent).lost = true) then
        -- `proceedPlayerLost` erases both, the second one from the shorter list
        (Server.deletedEntry s oponent).toList ++
          (Server.deletedEntry (s.withPlayers (Server.withoutDeleted s oponent)) sender).toList
      else []

theorem header_of_mem_deletes {s : State} {mess : Message} {sender p : PlayerRef}
    (h : p ∈ deletes s mess sender) :
    mess.header ∈ [H_C_PL_RECONN, H_C_PL_LOGOUT, INTERNAL_PL_LOST] := by
  by_contra hother
  simp only [List.mem_cons, List.not_mem_nil, or_false, not_or] at hother
  rw [deletes, if_neg hother.1] at h
  split at h
  · cases h
  · rw [if_neg fun hboth => hother.2.1 hboth.1, if_neg fun hboth => hother.2.2 hboth.1] at h
    cases h

/-- A handler that does not end a connection takes nobody off the list, or exactly these. -/
theorem Effect.leaves {s t : State} {mess : Message} (hnodup : s.players.Nodup)
    (effect : Effect s mess t) :
    (∀ p ∈ s.players, p ∈ t.players) ∨
      (mess.header = H_C_PL_LOGOUT ∧ ∃ p, mess.player = some p ∧ (s.player p).inGame = false ∧
        Disconnection s (s.player p).socket t) ∨
      ∃ sender, mess.player = some sender ∧
        ∀ p, p ∈ t.players ↔ p ∈ s.players ∧ p ∉ deletes s mess sender := by
  cases effect with
  | disconnected header sender free closed =>
    exact Or.inr (Or.inl ⟨header, _, sender, free, closed⟩)
  | @reconnected newP oldP _ _ game name _ _ players header sender payload found lost _ _ _ _ _
      erased =>
    refine Or.inr (Or.inr ⟨newP, sender, fun p => ?_⟩)
    have hlisted : oldP ∈ s.players := List.mem_of_find?_eq_some found
    have hdeletes : deletes s mess newP = (replacedEntry s newP oldP).toList := by
      rw [deletes, if_pos header, payloadString_eq_ok_iff.mp payload, Option.bind_some]
      simp only [found, lost, if_true]
    show p ∈ players ↔ _
    rw [erased.eq_withoutDeleted (by rwa [handedOver_players]), Server.mem_withoutDeleted,
      handedOver_players, deletedEntry_handedOver game hlisted, hdeletes]
  | @endedLost p oponent game players header sender inGame playing against lost erased =>
    refine Or.inr (Or.inr ⟨p, sender, fun q => ?_⟩)
    have hdeletes : deletes s mess p = (Server.deletedEntry s oponent).toList := by
      subst against
      rw [deletes, if_neg (by rw [header]; decide), playing]
      simp only [header, inGame, lost, and_self, if_true]
    show q ∈ players ↔ _
    rw [erased.eq_withoutDeleted hnodup, Server.mem_withoutDeleted, hdeletes]
  | @bothLost lost oponent game players players' header sender playing against absent erased
      erased' =>
    refine Or.inr (Or.inr ⟨lost, sender, fun q => ?_⟩)
    have hdeletes : deletes s mess lost = (Server.deletedEntry s oponent).toList ++
        (Server.deletedEntry (s.withPlayers (Server.withoutDeleted s oponent)) lost).toList := by
      subst against
      rw [deletes, if_neg (by rw [header]; decide), playing]
      simp only [header]
      rw [if_neg (by rintro ⟨h, -⟩; exact absurd h (by decide)), if_pos ⟨trivial, absent⟩]
    have hfirst := erased.eq_withoutDeleted hnodup
    subst hfirst
    show q ∈ players' ↔ _
    rw [erased'.eq_withoutDeleted (hnodup.filter _), Server.mem_withoutDeleted,
      State.withPlayers_players, Server.mem_withoutDeleted, hdeletes, List.mem_append, not_or,
      and_assoc]
  | _ => exact Or.inl fun p hp => hp

/-! ## Who leaves -/

/-- The player whose entry `proceedPlayerDisconnection` erases in the step. -/
def State.disconnecting (s : State) (a : Action) : List PlayerRef :=
  match disconnects s a with
  | none => []
  | some (_, fd) =>
    ((Server.getPlayerBySocket s fd).filter fun p => !(s.player p).inGame).toList

/-- The players whose entries `deletePlayer` erases in the step. -/
def State.deleting (s : State) (a : Action) : List PlayerRef :=
  if a = .runCommand then
    match s.commandQueue.head? with
    | none => []
    | some command =>
      match command.message.player with
      | none => []
      | some sender => deletes s command.message sender
  else []

/-- The players who leave the list in the step. -/
def State.leaving (s : State) (a : Action) : List PlayerRef := s.disconnecting a ++ s.deleting a

theorem State.deleting_runCommand {s : State} {command : Command} {rest : List Command}
    {sender : PlayerRef} (queue : s.commandQueue = command :: rest)
    (sent : command.message.player = some sender) :
    s.deleting .runCommand = deletes s command.message sender := by
  simp [State.deleting, queue, sent]

/-- Who leaves the list in a step: nobody, the player whose connection ends, or those whom
    `deletePlayer` erases. -/
inductive Departure (s : State) (a : Action) (t : State) : Prop where
  | nobody (stays : ∀ p ∈ s.players, p ∈ t.players)
  | disconnected {u : State} {fd : Int} {pl : PlayerRef} (call : disconnects s a = some (u, fd))
      (closed : Disconnection u fd t) (players : ∀ p, p ∈ t.players ↔ p ∈ s.players ∧ p ≠ pl)
      (leaving : s.leaving a = [pl]) (silent : s.deleting a = [])
      (idle : (t.player pl).joiningPlayer = none)
  | deleted {command : Command} {rest : List Command} (now : a = .runCommand)
      (queue : s.commandQueue = command :: rest)
      (effect : Effect (s.withCommands rest) command.message t)
      (players : ∀ p, p ∈ t.players ↔ p ∈ s.players ∧ p ∉ s.deleting a)
      (leaving : s.leaving a = s.deleting a)

theorem deleting_of_disconnects {s : State} {a : Action} {call : State × Int}
    (h : disconnects s a = some call) : s.deleting a = [] := by
  obtain ⟨-, rfl | ⟨rfl, -⟩ | ⟨rfl, command, hhead, header, sender, hsender, free, -⟩⟩ :=
    disconnects_eq_some h
  · rfl
  · rfl
  · -- the sender of the logout is in no game
    have hhead : s.commandQueue.head? = some command := hhead
    have hsender : command.message.player = some sender := hsender
    simp only [State.deleting, if_true, hhead, hsender, deletes, header, free]
    rw [if_neg (by decide)]
    split
    · rfl
    · rw [if_neg (by simp), if_neg (by rintro ⟨h, -⟩; exact absurd h (by decide))]

theorem departure {s t : State} {a : Action} (hreg : Registry s)
    (exec : System.exec s a = .ok t) : Departure s a t := by
  cases call_step exec with
  | quiet _ same => exact .nobody fun p hp => same.players ▸ hp
  | accepts => exact .nobody fun p hp => List.mem_append_left _ hp
  | calls call closed =>
    have hsame := (disconnects_eq_some call).1
    have hsilent := deleting_of_disconnects call
    cases closed with
    | stays => exact .nobody fun p hp => hsame.players ▸ hp
    | @left pl found free =>
      obtain ⟨hlisted, hsocket⟩ := Server.getPlayerBySocket_eq_some found
      have hnodup := (hreg.same hsame).playersNodup
      refine Departure.disconnected call (Disconnection.left found free) (fun p => ?_)
        (?_ : s.leaving a = [pl]) hsilent ?_
      · rw [State.withPlayers_players, (eraseP_eq_erase_iff hnodup hlisted hsocket).mpr found,
          hnodup.mem_erase_iff, hsame.players, and_comm]
      · rw [hsame.getPlayerBySocket] at found
        rw [hsame.inGame] at free
        simp [State.leaving, hsilent, State.disconnecting, call, found, free]
      · rw [State.player_withPlayers, State.player_modifyPlayer_self]
  | @handles command rest _ now silent queue effect sockets =>
    subst now
    have hleaving : s.leaving .runCommand = s.deleting .runCommand := by
      simp [State.leaving, State.disconnecting, silent]
    have hpop : Registry (s.withCommands rest) := hreg.same (sameWorld_withCommands s rest)
    rcases effect.leaves hpop.playersNodup with hstays | ⟨header, p, sender, free, -⟩ |
        ⟨p, sender, hplayers⟩
    · exact .nobody hstays
    · -- the logout of a free player is a call
      have hfree : (s.player p).inGame = false := free
      simp [disconnects, queue, sender, header, hfree] at silent
    · refine .deleted rfl queue effect ?_ hleaving
      rw [State.deleting_runCommand queue sender]
      exact hplayers

/-- As soon as somebody leaves, `State.leaving` lists exactly the players who leave. -/
theorem leaving_iff {s t : State} {a : Action} (hreg : Registry s)
    (exec : System.exec s a = .ok t) {p : PlayerRef} (listed : p ∈ s.players)
    (left : p ∉ t.players) : ∀ q ∈ s.players, q ∉ t.players ↔ q ∈ s.leaving a := by
  intro q hq
  cases departure hreg exec with
  | nobody stays => exact absurd (stays p listed) left
  | disconnected _ _ players leaving =>
    rw [players, leaving, List.mem_singleton]
    simp [hq]
  | deleted _ _ _ players leaving =>
    rw [players, leaving]
    simp [hq]

end UpsServer
