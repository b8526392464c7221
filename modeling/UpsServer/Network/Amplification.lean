import UpsServer.Network.Connections
import UpsServer.Network.Workload
import Mathlib.Data.Finset.Card

/-!
# What clients can make the server send

A packet that a client sends leads to two packets of the server at most, whatever it holds and to
whomever they go. One more can follow when a connection ends. So what the server ever registers is
bounded by what it has read and by the connections it has accepted.
-/

namespace UpsServer

open Framework CommandManager

/-! ## Sockets that are still set -/

/-- The players whose socket is set. -/
def openSockets (s : State) : Finset PlayerRef :=
  (Finset.range s.playerHeap.next).filter fun p => (s.player p).socketSet = true

section OpenSockets

variable {s t : State}

theorem mem_openSockets {p : PlayerRef} :
    p ∈ openSockets s ↔ p < s.playerHeap.next ∧ (s.player p).socketSet = true := by
  rw [openSockets, Finset.mem_filter, Finset.mem_range]

theorem openSockets_same (next : t.playerHeap.next = s.playerHeap.next)
    (socketSet : ∀ p, (t.player p).socketSet = (s.player p).socketSet) :
    openSockets t = openSockets s := by
  ext p
  rw [mem_openSockets, mem_openSockets, next, socketSet]

theorem card_openSockets_addPlayer (fd : Int) (nameSet : Bool) :
    (openSockets (Server.addPlayer s fd nameSet)).card ≤ (openSockets s).card + 1 := by
  have hsub : openSockets (Server.addPlayer s fd nameSet)
      ⊆ insert s.playerHeap.next (openSockets s) := by
    intro p hp
    obtain ⟨hlt, hset⟩ := mem_openSockets.mp hp
    rw [Finset.mem_insert, mem_openSockets]
    rcases Nat.lt_succ_iff_lt_or_eq.mp hlt with hold | hnew
    · rw [Server.player_addPlayer, if_neg (Nat.ne_of_lt hold)] at hset
      exact Or.inr ⟨hold, hset⟩
    · exact Or.inl hnew
  exact (Finset.card_le_card hsub).trans (Finset.card_insert_le _ _)

/-- Ending a connection takes one socket away. -/
theorem card_openSockets_disconnected {fd : Int} (hreg : Registry s)
    (closed : Disconnection s fd t) : (openSockets t).card + 1 = (openSockets s).card := by
  have herase : ∀ pl, Server.getPlayerBySocket s fd = some pl →
      t.playerHeap.next = s.playerHeap.next →
      (∀ q, (t.player q).socketSet = if q = pl then false else (s.player q).socketSet) →
      (openSockets t).card + 1 = (openSockets s).card := by
    intro pl found next hset
    obtain ⟨hlisted, hsocket⟩ := Server.getPlayerBySocket_eq_some found
    have hmem : pl ∈ openSockets s :=
      mem_openSockets.mpr ⟨hreg.playersAllocated pl hlisted, (Bool.and_eq_true_iff.mp hsocket).1⟩
    have herased : openSockets t = (openSockets s).erase pl := by
      ext q
      rw [Finset.mem_erase, mem_openSockets, mem_openSockets, next, hset]
      by_cases hq : q = pl <;> simp [hq]
    rw [herased, Finset.card_erase_add_one hmem]
  cases closed with
  | @left pl found =>
    refine herase pl found rfl fun q => ?_
    rw [State.player_withPlayers, State.player_modifyPlayer]
    split <;> simp [Player.removeSocket]
  | @stays pl found =>
    refine herase pl found rfl fun q => ?_
    rw [State.player_registerCommand, State.player_modifyPlayer]
    split <;> simp [Player.removeSocket]

end OpenSockets

/-! ## What is still to be registered -/

/-- What a command can lead to. -/
def commandOwed (command : Command) : Nat :=
  if command.message.header = INTERNAL_PL_LOST then 1 else 2

/-- What a packet in hand can lead to. -/
def stageOwed : PacketStage → Nat
  | .idle => 0
  | _ => 2

/-- What can still be registered for the packets that were read. -/
def owed (s : State) : Nat :=
  2 * s.packetQueue.length + stageOwed s.packetStage + (s.commandQueue.map commandOwed).sum

theorem commandOwed_le (command : Command) : commandOwed command ≤ 2 := by
  unfold commandOwed
  split <;> omega

theorem owed_of_one {s t : State} {extra : List Command} (h : QueuesOne s t extra) :
    (extra.map commandOwed).sum ≤ 1 := by
  rcases h.one with rfl | ⟨pl, rfl⟩
  · exact Nat.zero_le _
  · exact le_of_eq rfl

/-- What was registered and what can still be registered. -/
def spent (s : State) : Nat := s.outbox.length + owed s + (openSockets s).card

/-- A logout and a loss tell one player at most. -/
theorem length_told_le_one {s : State} {mess : Message}
    (header : mess.header = H_C_PL_LOGOUT ∨ mess.header = INTERNAL_PL_LOST) :
    (told s mess).length ≤ 1 := by
  cases hplayer : mess.player with
  | none => simp [told, hplayer]
  | some p =>
    rcases header with header | header
    · rw [told_logout header hplayer]
      unfold toldOnLogout
      split
      · simp
      · dsimp only
        split <;> simp
    · rw [told_lost header hplayer]
      unfold toldOnLoss
      split
      · simp
      · dsimp only
        split <;> simp

section Spent

variable {s t : State}

/-- The command that an ended connection leads to is paid for by its socket. -/
theorem spent_le_of_disconnection {fd : Int} (hreg : Registry s)
    (closed : Disconnection s fd t) : spent t ≤ spent s := by
  have hcard := card_openSockets_disconnected hreg closed
  have hout : t.outbox = s.outbox := by cases closed <;> rfl
  have htraffic := closed.sameTraffic
  obtain ⟨extra, hextra⟩ := QueuesOne.of_disconnection closed
  have hone := owed_of_one hextra
  simp only [spent, owed, hout, htraffic.packetQueue, htraffic.packetStage, hextra.queue,
    List.map_append, List.sum_append]
  omega

/-- A handled command leads to no more than it was counted for. -/
theorem spent_le_of_handled {command : Command} {rest : List Command} (hreg : Registry s)
    (queue : s.commandQueue = command :: rest)
    (h : dispatch (s.withCommands rest) command.message = .ok t) : spent t ≤ spent s := by
  have heffect := dispatch_effect h
  obtain ⟨extra, hextra, hlogout⟩ := QueuesOne.of_effect heffect
  have hone := owed_of_one hextra
  have htraffic := heffect.sameTraffic
  obtain ⟨packets, hout, hmessages, -⟩ := (Appends.of_tells (dispatch_tells h)).outbox
  have htold : packets.length = (told (s.withCommands rest) command.message).length := by
    rw [← List.length_map OutPacket.message, hmessages]
  have houtbox : t.outbox = s.outbox ++ packets := hout
  have hqueue : t.commandQueue = rest ++ extra := hextra.queue
  have hpackets : t.packetQueue = s.packetQueue := htraffic.packetQueue
  have hstage : t.packetStage = s.packetStage := htraffic.packetStage
  have hcard : (openSockets t).card ≤ (openSockets s).card := by
    rcases heffect.sockets with ⟨-, _, -, -, hclosed⟩ | hsame
    · have hless := card_openSockets_disconnected
        (hreg.same (sameWorld_withCommands s rest)) hclosed
      exact (Nat.le_succ _).trans hless.le
    · exact (congrArg Finset.card (openSockets_same hsame.nextPlayer hsame.socketSet)).le
  simp only [spent, owed, houtbox, hpackets, hstage, hqueue, queue, List.length_append,
    List.map_append, List.sum_append, List.map_cons, List.sum_cons]
  -- a logout tells one player less, and may queue a command of the server's own
  by_cases hinternal : command.message.header = INTERNAL_PL_LOST
  · have hnone : extra = [] := hlogout (by rw [hinternal]; decide)
    have hcost : commandOwed command = 1 := if_pos hinternal
    have hlength := length_told_le_one (s := s.withCommands rest) (Or.inr hinternal)
    simp only [hnone, List.map_nil, List.sum_nil]
    omega
  · have hcost : commandOwed command = 2 := if_neg hinternal
    by_cases hleave : command.message.header = H_C_PL_LOGOUT
    · have hlength := length_told_le_one (s := s.withCommands rest) (Or.inl hleave)
      omega
    · have hlength := length_told_le (s.withCommands rest) command.message
      rw [hlogout hleave]
      simp only [List.map_nil, List.sum_nil]
      omega

end Spent

/-- What the clients have paid: two for each packet that was read, one for each connection. -/
def paid (s : State) : Nat := 2 * s.readLog.length + s.playerHeap.next

theorem paid_of_disconnection {s t : State} {fd : Int} (closed : Disconnection s fd t) :
    paid t = paid s := by
  cases closed <;> rfl

theorem paid_of_effect {s t : State} {mess : Message} (effect : Effect s mess t) :
    paid t = paid s := by
  rcases effect.sockets with ⟨-, _, -, -, hclosed⟩ | hsame
  · exact paid_of_disconnection hclosed
  · rw [paid, paid, effect.sameTraffic.readLog, hsame.nextPlayer]

/-- A packet that is no message costs a socket at most. -/
theorem covered_of_invalid {s t : State} {packet : Packet} (hreg : Registry s)
    (h : PacketManager.countInvalid s packet = .ok t) (covered : spent s ≤ paid s) :
    spent t ≤ paid t := by
  rcases countInvalid_eq_ok h with rfl | ⟨p, hcounted⟩
  · exact covered
  · have hquiet := (quiet_countOne s p).toSameWorld
    have hsockets : openSockets (countOne s p) = openSockets s :=
      openSockets_same hquiet.nextPlayer hquiet.socketSet
    have hspent : spent (countOne s p) = spent s := by
      simp only [spent, hsockets]
      rfl
    have hpaid : paid (countOne s p) = paid s := rfl
    rcases hcounted with rfl | hclosed
    · rw [hspent, hpaid]
      exact covered
    · have hless := spent_le_of_disconnection (hreg.same hquiet) hclosed
      rw [paid_of_disconnection hclosed, hpaid]
      rw [hspent] at hless
      exact hless.trans covered

/-- No step spends more than it is paid. -/
theorem spent_exec {s t : State} {a : Action} (hreg : Registry s) (enabled : System.Enabled s a)
    (h : System.exec s a = .ok t) (covered : spent s ≤ paid s) : spent t ≤ paid t := by
  cases a with
  | accept fd nameSet =>
    simp only [System.exec, Server.acceptConnection] at h
    split at h
    · cases h
    · rw [← Except.ok.inj h]
      have hcard := card_openSockets_addPlayer (s := s) fd nameSet
      have hpaid : paid (Server.addPlayer s fd nameSet) = paid s + 1 := rfl
      have hspent : spent (Server.addPlayer s fd nameSet)
          = s.outbox.length + owed s + (openSockets (Server.addPlayer s fd nameSet)).card := rfl
      rw [spent] at covered
      omega
  | receive fd data =>
    obtain ⟨owner, _, h⟩ := bind_eq_ok_iff.mp h
    rw [← Except.ok.inj h]
    -- the packet is paid for when it is read
    have hpaid : ∀ packet, 2 * (s.readLog ++ [packet]).length + s.playerHeap.next = paid s + 2 := by
      intro packet
      rw [List.length_append, paid, List.length_singleton]
      omega
    have hspent : ∀ packet, s.outbox.length + (2 * (s.packetQueue ++ [packet]).length
        + stageOwed s.packetStage + (s.commandQueue.map commandOwed).sum)
        + (openSockets s).card = spent s + 2 := by
      intro packet
      rw [List.length_append, spent, owed, List.length_singleton]
      omega
    exact (hspent _).le.trans ((Nat.add_le_add_right covered 2).trans (hpaid _).ge)
  | peerClosed fd =>
    have hclosed := Server.disconnection_effect h
    have hpaid : paid t = paid s := by cases hclosed <;> rfl
    rw [hpaid]
    exact (spent_le_of_disconnection hreg hclosed).trans covered
  | popPacket =>
    obtain ⟨hidle, hne⟩ := enabled
    obtain ⟨packet, rest, hqueue⟩ := List.exists_cons_of_ne_nil hne
    rw [← Except.ok.inj h, PacketManager.popPacket, hqueue]
    refine le_trans ?_ covered
    simp only [spent, owed, hqueue, List.length_cons]
    change s.outbox.length + (2 * rest.length + 2 + _) + (openSockets s).card ≤ _
    omega
  | resolvePacket =>
    simp only [System.exec] at h
    split at h
    · rename_i packet hhand
      rcases resolvePacket_eq_ok h with ⟨mess, _, rfl⟩ | ⟨_, hinvalid⟩
      · refine le_trans ?_ covered
        simp only [spent, owed, hhand]
        exact le_rfl
      · have hidle : spent { s with packetStage := .idle } ≤ spent s := by
          simp only [spent, owed, hhand]
          change s.outbox.length + (2 * s.packetQueue.length + 0 + _) + (openSockets s).card ≤ _
          omega
        have hsame : SameWorld s { s with packetStage := .idle } :=
          .of_eq rfl rfl rfl rfl rfl rfl
        exact covered_of_invalid (hreg.same hsame) hinvalid (hidle.trans covered)
    · rw [← Except.ok.inj h]
      exact covered
  | registerResolved =>
    simp only [System.exec] at h
    split at h
    · rename_i command hhand
      rw [← Except.ok.inj h]
      refine le_trans ?_ covered
      have howed := commandOwed_le command
      have hspent : spent (PacketManager.registerResolved s command) = s.outbox.length
          + (2 * s.packetQueue.length + 0 + ((s.commandQueue ++ [command]).map commandOwed).sum)
          + (openSockets s).card := rfl
      have hstage : stageOwed s.packetStage = 2 := by rw [hhand]; rfl
      rw [hspent, spent, owed, hstage, List.map_append, List.sum_append, List.map_singleton,
        List.sum_singleton]
      omega
    · rw [← Except.ok.inj h]
      exact covered
  | runCommand =>
    obtain ⟨command, rest, hqueue⟩ := List.exists_cons_of_ne_nil enabled
    rw [exec_runCommand hqueue] at h
    rw [paid_of_effect (dispatch_effect h)]
    exact (spent_le_of_handled hreg hqueue h).trans covered
  | popOutgoing =>
    -- the outbox counts a packet wherever it is
    obtain ⟨packets, hout, hnone, -⟩ := (appends_exec enabled h).outbox
    obtain ⟨packet, rest, hqueue⟩ := List.exists_cons_of_ne_nil enabled.2
    rw [List.map_eq_nil_iff.mp hnone, List.append_nil] at hout
    rw [← Except.ok.inj h, Sender.popOutgoing, hqueue] at hout ⊢
    rw [spent, hout]
    exact covered
  | sendOutgoing =>
    obtain ⟨packets, hout, hnone, -⟩ := (appends_exec enabled h).outbox
    obtain ⟨packet, hhand⟩ := Option.ne_none_iff_exists'.mp enabled
    rw [List.map_eq_nil_iff.mp hnone, List.append_nil] at hout
    rw [← Except.ok.inj h, Sender.sendOutgoing, hhand] at hout ⊢
    rw [spent, hout]
    exact covered

/-- **No amplification**: whatever the clients send and however the threads interleave, the server
    has registered two packets at most for each packet it has read, and one more at most for each
    connection it has accepted. -/
theorem no_amplification (s : State) (h : System.Reachable s) :
    s.outbox.length ≤ 2 * s.readLog.length + s.playerHeap.next := by
  have hcovered : spent s ≤ paid s := by
    refine Machine.ReachableFrom.invariant h (I := fun t => spent t ≤ paid t) (Nat.zero_le _) ?_
    intro t u a hreach hcovered henabled _ hexec
    exact spent_exec (registry_of_reachable hreach) henabled hexec hcovered
  exact (Nat.le_add_right _ _).trans ((Nat.le_add_right _ _).trans hcovered)

/-- A game has begun: four packets were read, and six were registered. -/
theorem no_amplification_playing :
    (System.after System.playTwo).readLog.length = 4 ∧
      (System.after System.playTwo).outbox.length = 6 ∧
      (System.after System.playTwo).outbox.length
        ≤ 2 * (System.after System.playTwo).readLog.length
          + (System.after System.playTwo).playerHeap.next :=
  ⟨by decide +kernel, by decide +kernel, no_amplification _ (System.reachable_after _)⟩

end UpsServer
