import UpsServer.Framework.Descent
import UpsServer.Network.Outbox

/-!
# The work that is left

What the threads still have to do with what they were given. A chunk becomes a command at most, a
command two packets and one further command at most, and a packet is popped and sent. So the three
inner threads come to rest when no client does anything, in whatever order they take their steps.
-/

namespace UpsServer

open Framework CommandManager

/-! ## What a command leads to -/

/-- No handler registers more than two messages. -/
theorem length_told_le (s : State) (mess : Message) : (told s mess).length ≤ 2 := by
  unfold told
  split
  · simp
  · dsimp only
    split_ifs
    · unfold toldOnRegistration
      split <;> simp
    · unfold toldOnReconnection toldOnHandover
      split
      · simp
      · split
        · split
          · dsimp only
            split <;> simp
          · simp
        · simp
    · simp [toldOnListRequest]
    · unfold toldOnLogout
      split
      · simp
      · dsimp only
        split <;> simp
    · unfold toldOnJoining
      split
      · simp
      · split <;> simp
    · unfold toldOnDecline
      split
      · simp
      · split <;> simp
    · unfold toldOnAccept
      split
      · simp
      · split_ifs <;> simp
    · split
      · unfold toldOnMove
        split
        · simp
        · dsimp only
          split <;> simp
      · simp
    · unfold toldOnLoss
      split
      · simp
      · dsimp only
        split <;> simp
    · simp

/-- At most one command is queued, which is one of the server's own. -/
structure QueuesOne (s t : State) (extra : List Command) : Prop where
  queue : t.commandQueue = s.commandQueue ++ extra
  one : extra = [] ∨ ∃ pl, extra = [⟨Server.lostMessage pl, none⟩]

namespace QueuesOne

variable {s t : State}

theorem same (h : t.commandQueue = s.commandQueue) : QueuesOne s t [] :=
  ⟨by rw [h, List.append_nil], Or.inl rfl⟩

theorem of_disconnection {fd : Int} (closed : Disconnection s fd t) :
    ∃ extra, QueuesOne s t extra := by
  cases closed with
  | left => exact ⟨[], same rfl⟩
  | @stays pl => exact ⟨[⟨Server.lostMessage pl, none⟩], rfl, Or.inr ⟨pl, rfl⟩⟩

/-- Only a logout queues a command. -/
theorem of_effect {mess : Message} (effect : Effect s mess t) :
    ∃ extra, QueuesOne s t extra ∧ (mess.header ≠ H_C_PL_LOGOUT → extra = []) := by
  cases effect with
  | disconnected header _ _ closed =>
    obtain ⟨extra, hextra⟩ := of_disconnection closed
    exact ⟨extra, hextra, fun hne => absurd header hne⟩
  | @reconnected newP oldP _ _ game =>
    exact ⟨[], same (by simp [handedOver]), fun _ => rfl⟩
  | started | won | ended | gone | declined =>
    exact ⟨[], same rfl, fun _ => rfl⟩
  | _ => exact ⟨[], same rfl, fun _ => rfl⟩

end QueuesOne

/-! ## The workload -/

/-- A command is handled, and its packets are popped and sent; a client's command may lead to one
    of the server's own. -/
def commandCost (command : Command) : Nat :=
  if command.message.header = INTERNAL_PL_LOST then 5 else 10

/-- A popped packet is decoded, and a decoded one is registered. -/
def stageCost : PacketStage → Nat
  | .idle => 0
  | .popped _ => 12
  | .resolved _ => 11

/-- The steps that are left at most. -/
def workload (s : State) : Nat :=
  13 * s.packetQueue.length + stageCost s.packetStage + (s.commandQueue.map commandCost).sum +
    2 * s.pQueue.length + s.senderHand.toList.length

theorem commandCost_le (command : Command) : commandCost command ≤ 10 := by
  unfold commandCost
  split <;> omega

theorem cost_of_one {s t : State} {extra : List Command} (h : QueuesOne s t extra) :
    (extra.map commandCost).sum ≤ 5 := by
  rcases h.one with rfl | ⟨pl, rfl⟩
  · exact Nat.zero_le _
  · exact le_of_eq rfl

/-- The steps of the three inner threads. -/
def Inner : Action → Prop
  | .accept _ _ | .receive _ _ | .peerClosed _ => False
  | _ => True

/-- A packet that is no message costs at most one command of the server's own. -/
theorem workload_countInvalid {s t : State} {packet : Packet}
    (h : PacketManager.countInvalid s packet = .ok t) : workload t ≤ workload s + 5 := by
  rcases countInvalid_eq_ok h with rfl | ⟨p, rfl | hclosed⟩
  · exact Nat.le_add_right _ _
  · exact Nat.le_add_right _ _
  · obtain ⟨extra, hextra⟩ := QueuesOne.of_disconnection hclosed
    have hcost := cost_of_one hextra
    have htraffic := hclosed.sameTraffic
    have hout : t.pQueue = s.pQueue ∧ t.senderHand = s.senderHand := by
      cases hclosed <;> exact ⟨rfl, rfl⟩
    have hqueue : t.commandQueue = s.commandQueue ++ extra := hextra.queue
    have hpackets : t.packetQueue = s.packetQueue := htraffic.packetQueue
    have hstage : t.packetStage = s.packetStage := htraffic.packetStage
    simp only [workload, hqueue, hpackets, hstage, hout.1, hout.2, List.map_append,
      List.sum_append]
    omega

/-- A handled command costs more than what it leads to. -/
theorem workload_handled {s t : State} {command : Command} {rest : List Command}
    (queue : s.commandQueue = command :: rest)
    (h : dispatch (s.withCommands rest) command.message = .ok t) : workload t < workload s := by
  have heffect := dispatch_effect h
  obtain ⟨extra, hextra, hlogout⟩ := QueuesOne.of_effect heffect
  have hcost := cost_of_one hextra
  have htraffic := heffect.sameTraffic
  have htells := dispatch_tells h
  obtain ⟨packets, hout, hmessages, -⟩ := htells.queue
  have htold : packets.length ≤ 2 := by
    rw [← List.length_map OutPacket.message, hmessages]
    exact length_told_le _ _
  have hqueue : t.commandQueue = rest ++ extra := hextra.queue
  have hpackets : t.packetQueue = s.packetQueue := htraffic.packetQueue
  have hstage : t.packetStage = s.packetStage := htraffic.packetStage
  have hhand : t.senderHand = s.senderHand := htells.hand
  have hsent : t.pQueue = s.pQueue ++ packets := hout
  simp only [workload, hqueue, hpackets, hstage, hhand, hsent, queue, List.map_append,
    List.sum_append, List.map_cons, List.sum_cons, List.length_append]
  -- a command of the server's own queues no further one
  by_cases hinternal : command.message.header = INTERNAL_PL_LOST
  · have hnone : extra = [] := hlogout (by rw [hinternal]; decide)
    simp only [hnone, List.map_nil, List.sum_nil, commandCost, hinternal, if_true]
    omega
  · have hclient : commandCost command = 10 := if_neg hinternal
    omega

/-- Every inner step takes something off the workload. -/
theorem workload_decreases : System.machine.Decreases (fun _ => Inner) workload := by
  intro s t a henabled hinner hexec
  have henabled : System.Enabled s a := henabled
  have hexec : System.exec s a = .ok t := hexec
  cases a with
  | accept | receive | peerClosed => exact hinner.elim
  | popPacket =>
    obtain ⟨hidle, hne⟩ := henabled
    obtain ⟨packet, rest, hqueue⟩ := List.exists_cons_of_ne_nil hne
    rw [← Except.ok.inj hexec]
    simp only [PacketManager.popPacket, hqueue, workload, stageCost, List.length_cons]
    omega
  | resolvePacket =>
    simp only [System.exec] at hexec
    split at hexec
    · rename_i packet hhand
      rcases resolvePacket_eq_ok hexec with ⟨mess, _, rfl⟩ | ⟨_, hinvalid⟩
      · simp only [workload, hhand, stageCost]
        omega
      · have hless := workload_countInvalid hinvalid
        simp only [workload, hhand, stageCost] at hless ⊢
        omega
    · rename_i hhand
      cases hstage : s.packetStage with
      | popped packet => exact absurd hstage (hhand packet)
      | idle | resolved =>
        rw [System.Enabled, hstage] at henabled
        cases henabled
  | registerResolved =>
    simp only [System.exec] at hexec
    split at hexec
    · rename_i command hhand
      rw [← Except.ok.inj hexec]
      have hcost := commandCost_le command
      simp only [PacketManager.registerResolved, workload, hhand, stageCost, List.map_append,
        List.sum_append, List.map_cons, List.map_nil, List.sum_cons, List.sum_nil]
      omega
    · rename_i hhand
      cases hstage : s.packetStage with
      | resolved command => exact absurd hstage (hhand command)
      | idle | popped =>
        rw [System.Enabled, hstage] at henabled
        cases henabled
  | runCommand =>
    obtain ⟨command, rest, hqueue⟩ := List.exists_cons_of_ne_nil henabled
    rw [exec_runCommand hqueue] at hexec
    exact workload_handled hqueue hexec
  | popOutgoing =>
    obtain ⟨hnone, hne⟩ := henabled
    obtain ⟨packet, rest, hqueue⟩ := List.exists_cons_of_ne_nil hne
    rw [← Except.ok.inj hexec]
    simp only [Sender.popOutgoing, hqueue, workload, hnone, List.length_cons, Option.toList_none,
      Option.toList_some, List.length_nil]
    omega
  | sendOutgoing =>
    obtain ⟨packet, hhand⟩ := Option.ne_none_iff_exists'.mp henabled
    rw [← Except.ok.inj hexec]
    simp only [Sender.sendOutgoing, hhand, workload, Option.toList_none, Option.toList_some,
      List.length_cons, List.length_nil]
    omega

/-! ## Rest -/

/-- Nothing waits anywhere. -/
structure Drained (s : State) : Prop where
  packetQueue : s.packetQueue = []
  packetStage : s.packetStage = .idle
  commandQueue : s.commandQueue = []
  pQueue : s.pQueue = []
  senderHand : s.senderHand = none

/-- The inner threads rest when nothing waits. -/
theorem atRest_iff_drained (s : State) :
    System.machine.AtRest (fun _ => Inner) s ↔ Drained s := by
  constructor
  · intro h
    have hstep : ∀ a, Inner a → ¬ System.Enabled s a := h
    have hidle : s.packetStage = .idle := by
      cases hstage : s.packetStage with
      | idle => rfl
      | popped => exact (hstep .resolvePacket trivial (by rw [System.Enabled, hstage]; rfl)).elim
      | resolved =>
        exact (hstep .registerResolved trivial (by rw [System.Enabled, hstage]; rfl)).elim
    have hhand : s.senderHand = none := not_not.mp (hstep .sendOutgoing trivial)
    refine ⟨?_, hidle, not_not.mp (hstep .runCommand trivial), ?_, hhand⟩
    · by_contra hne
      exact hstep .popPacket trivial ⟨by rw [hidle]; rfl, hne⟩
    · by_contra hne
      exact hstep .popOutgoing trivial ⟨hhand, hne⟩
  · intro h a hinner henabled
    have henabled : System.Enabled s a := henabled
    cases a with
    | accept | receive | peerClosed => exact hinner
    | popPacket => exact henabled.2 h.packetQueue
    | resolvePacket | registerResolved =>
      rw [System.Enabled, h.packetStage] at henabled
      cases henabled
    | runCommand => exact henabled h.commandQueue
    | popOutgoing => exact henabled.2 h.pQueue
    | sendOutgoing => exact henabled h.senderHand

end UpsServer
