import UpsServer.Network.Connections

/-!
# Where an outgoing packet goes

`Sender::registerMessage` notes the descriptor its addressee has at that moment, and `Sender::run`
writes to it later. In between the connection may end. A packet then goes nowhere, unless `accept`
gave the descriptor out again before it was sent.
-/

namespace UpsServer

open Framework CommandManager

/-- The packets that are not sent yet: the one in `Sender`'s hand and the queue. -/
def State.outgoing (s : State) : List OutPacket := s.senderHand.toList ++ s.pQueue

/-- If the descriptor of the packet leads to a client, it is the addressee. -/
def OnTarget (s : State) (packet : OutPacket) : Prop :=
  ∀ q, s.descriptors packet.socket = some q → packet.message.player = some q

/-- The packet was written to the connection of its addressee, or to no connection. -/
def Delivery.ToAddressee (delivery : Delivery) : Prop :=
  delivery.receiver = none ∨ delivery.receiver = delivery.packet.message.player

/-- The condition on a step: `accept` returns no descriptor for which a packet still waits. -/
def DescriptorUnused (s : State) : Action → Prop
  | .accept fd _ => ∀ packet ∈ s.outgoing, packet.socket ≠ fd
  | _ => True

instance (s : State) : (a : Action) → Decidable (DescriptorUnused s a)
  | .accept _ _ => inferInstanceAs (Decidable (∀ packet ∈ s.outgoing, _))
  | .receive _ _ | .peerClosed _ | .popPacket | .resolvePacket | .registerResolved
  | .runCommand | .popOutgoing | .sendOutgoing => isTrue trivial

/-! ## What a step does to the outgoing packets -/

/-- Packets for the players' current descriptors may have been queued. -/
structure QueuesFor (s t : State) : Prop where
  hand : t.senderHand = s.senderHand
  log : t.sentLog = s.sentLog
  queue : ∃ sent, t.pQueue = s.pQueue ++ sent ∧ ∀ packet ∈ sent, ∃ p, packet.For s p

namespace QueuesFor

variable {s t : State}

theorem nothing (hand : t.senderHand = s.senderHand) (log : t.sentLog = s.sentLog)
    (queue : t.pQueue = s.pQueue) : QueuesFor s t :=
  ⟨hand, log, [], by rw [queue, List.append_nil], by simp⟩

theorem one {packet : OutPacket} {p : PlayerRef} (hpacket : packet.For s p)
    (hand : t.senderHand = s.senderHand) (log : t.sentLog = s.sentLog)
    (queue : t.pQueue = s.pQueue ++ [packet]) : QueuesFor s t := by
  refine ⟨hand, log, [packet], queue, ?_⟩
  intro x hx
  rw [List.mem_singleton.mp hx]
  exact ⟨p, hpacket⟩

theorem two {first second : OutPacket} {p q : PlayerRef} (hfirst : first.For s p)
    (hsecond : second.For s q) (hand : t.senderHand = s.senderHand)
    (log : t.sentLog = s.sentLog) (queue : t.pQueue = s.pQueue ++ [first] ++ [second]) :
    QueuesFor s t := by
  refine ⟨hand, log, [first, second], by rw [queue, List.append_assoc]; rfl, ?_⟩
  intro x hx
  rcases List.mem_cons.mp hx with rfl | hx
  · exact ⟨p, hfirst⟩
  · rw [List.mem_singleton.mp hx]
    exact ⟨q, hsecond⟩

theorem many {sent : List OutPacket} {p : PlayerRef} (hsent : ∀ x ∈ sent, x.For s p)
    (hand : t.senderHand = s.senderHand) (log : t.sentLog = s.sentLog)
    (queue : t.pQueue = s.pQueue ++ sent) : QueuesFor s t :=
  ⟨hand, log, sent, queue, fun x hx => ⟨p, hsent x hx⟩⟩

theorem of_disconnection {fd : Int} (closed : Disconnection s fd t) : QueuesFor s t := by
  cases closed with
  | left => exact .nothing rfl rfl rfl
  | stays => exact .nothing rfl rfl rfl

/-- A handler only queues packets for the descriptors that its players have. -/
theorem of_effect {mess : Message} (effect : Effect s mess t) : QueuesFor s t := by
  cases effect with
  | ignored | endedLost | bothLost => exact .nothing rfl rfl rfl
  | answered _ _ sent => exact .one sent rfl rfl rfl
  | named _ _ _ _ sent => exact .one sent rfl rfl rfl
  | asked _ _ _ _ _ sentAck sentRequest => exact .two sentAck sentRequest rfl rfl rfl
  | started _ _ _ _ _ sentFirst sentSecond => exact .two sentFirst sentSecond rfl rfl rfl
  | gone _ _ _ sent => exact .many sent rfl rfl rfl
  | declined _ _ _ sent => exact .many sent rfl rfl rfl
  | moved _ _ _ _ _ _ sent => exact .one sent rfl rfl rfl
  | won _ _ _ _ _ sentFirst sentSecond => exact .two sentFirst sentSecond rfl rfl rfl
  | ended _ _ _ _ _ _ sent => exact .one sent rfl rfl rfl
  | missed _ _ _ _ sent => exact .one sent rfl rfl rfl
  | disconnected _ _ _ closed => exact of_disconnection closed
  | @reconnected newP oldP _ _ game _ first second _ _ _ _ _ _ _ _ _ sentFirst sentSecond =>
    -- which seat changes is decided by an `if`; the queue is the same in both cases
    obtain ⟨f, hf, -⟩ := takeOverSeat_eq (takeOverName s newP oldP) newP game
    rw [handedOver, hf]
    exact .two sentFirst sentSecond rfl rfl rfl

end QueuesFor

/-- How a step moves the outgoing packets: what waits afterwards has waited before or was made
    for a player's current descriptor, and what is sent has waited. -/
structure OutgoingMove (s t : State) : Prop where
  waits : ∀ packet ∈ t.outgoing, packet ∈ s.outgoing ∨ ∃ p, packet.For s p
  sends : ∀ d ∈ t.sentLog, d ∈ s.sentLog ∨
    (d.packet ∈ s.outgoing ∧ d.receiver = s.descriptors d.packet.socket)

theorem QueuesFor.move {s t : State} (h : QueuesFor s t) : OutgoingMove s t := by
  obtain ⟨sent, hqueue, hsent⟩ := h.queue
  refine ⟨fun packet hpacket => ?_, fun d hd => Or.inl (h.log ▸ hd)⟩
  rw [State.outgoing, h.hand, hqueue, ← List.append_assoc] at hpacket
  rcases List.mem_append.mp hpacket with hold | hnew
  · exact Or.inl hold
  · exact Or.inr (hsent packet hnew)

/-- Every step moves the outgoing packets like that. -/
theorem outgoing_move {s t : State} {a : Action} (h : System.exec s a = .ok t) :
    OutgoingMove s t := by
  have still : ∀ u, u.senderHand = s.senderHand → u.sentLog = s.sentLog → u.pQueue = s.pQueue →
      OutgoingMove s u := fun u hand log queue => (QueuesFor.nothing hand log queue).move
  cases a with
  | accept fd nameSet =>
    simp only [System.exec, Server.acceptConnection] at h
    split at h
    · cases h
    · rw [← Except.ok.inj h]
      exact still _ rfl rfl rfl
  | receive fd data =>
    obtain ⟨_, _, h⟩ := bind_eq_ok_iff.mp h
    rw [← Except.ok.inj h]
    exact still _ rfl rfl rfl
  | peerClosed fd => exact (QueuesFor.of_disconnection (Server.disconnection_effect h)).move
  | popPacket =>
    rw [← Except.ok.inj h]
    unfold PacketManager.popPacket
    split <;> exact still _ rfl rfl rfl
  | resolvePacket =>
    simp only [System.exec] at h
    split at h
    · rcases resolvePacket_eq_ok h with ⟨mess, _, rfl⟩ | ⟨_, hinvalid⟩
      · exact still _ rfl rfl rfl
      · -- an invalid packet is ignored, counted, or ends its connection
        rcases countInvalid_eq_ok hinvalid with rfl | ⟨p, rfl | hclosed⟩
        · exact still _ rfl rfl rfl
        · exact still _ rfl rfl rfl
        · have hqueues := QueuesFor.of_disconnection hclosed
          obtain ⟨sent, hqueue, hsent⟩ := hqueues.queue
          refine QueuesFor.move ⟨hqueues.hand, hqueues.log, sent, hqueue, ?_⟩
          intro packet hpacket
          obtain ⟨q, hq⟩ := hsent packet hpacket
          exact ⟨q, hq.congr ((quiet_countOne _ p).socket q)⟩
    · rw [← Except.ok.inj h]
      exact still _ rfl rfl rfl
  | registerResolved =>
    simp only [System.exec] at h
    split at h <;> rw [← Except.ok.inj h] <;> exact still _ rfl rfl rfl
  | runCommand =>
    simp only [System.exec, System.runCommand] at h
    split at h
    · rw [← Except.ok.inj h]
      exact still _ rfl rfl rfl
    · have hqueues := QueuesFor.of_effect (dispatch_effect h)
      exact QueuesFor.move ⟨hqueues.hand, hqueues.log, hqueues.queue⟩
  | popOutgoing =>
    rw [← Except.ok.inj h]
    unfold Sender.popOutgoing
    split
    · exact still _ rfl rfl rfl
    · -- the packet moves from the queue into the hand
      rename_i packet rest hqueue
      refine ⟨fun x hx => Or.inl ?_, fun d hd => Or.inl hd⟩
      rw [State.outgoing, hqueue]
      exact List.mem_append_right _ hx
  | sendOutgoing =>
    rw [← Except.ok.inj h]
    unfold Sender.sendOutgoing
    split
    · exact still _ rfl rfl rfl
    · -- the packet in the hand is written to what its descriptor leads to now
      rename_i packet hhand
      refine ⟨fun x hx => Or.inl (List.mem_append_right _ hx), fun d hd => ?_⟩
      rcases List.mem_append.mp hd with hd | hd
      · exact Or.inl hd
      · rw [List.mem_singleton.mp hd]
        exact Or.inr ⟨by simp [State.outgoing, hhand], rfl⟩

/-! ## Packets for current descriptors -/

/-- A packet for a player's current descriptor goes to that player or nowhere. -/
theorem OutPacket.For.onTarget {s : State} {packet : OutPacket} {p : PlayerRef}
    (h : packet.For s p) (hconn : Connections s) (hsockets : ClientSockets s) :
    OnTarget s packet := by
  intro q hopen
  rw [h.2] at hopen
  have hnonneg := (hsockets.range _ _ hopen).1
  have hset : (s.player p).socketSet = true := by
    by_contra hunset
    have hremoved := hsockets.removed p (Bool.eq_false_of_not_eq_true hunset)
    omega
  -- both `p` and `q` own the descriptor
  have howner := hconn.socketOpen p hset
  rw [h.1, ← howner, hopen]

/-- The addressee of a packet that can reach anybody exists. -/
theorem OutPacket.For.exists_addressee {s : State} {packet : OutPacket} {p : PlayerRef}
    (h : packet.For s p) (hconn : Connections s) (hsockets : ClientSockets s)
    (hsocket : 0 ≤ packet.socket) :
    ∃ q < s.playerHeap.next, packet.message.player = some q := by
  have hset : (s.player p).socketSet = true := by
    by_contra hunset
    have hremoved := hsockets.removed p (Bool.eq_false_of_not_eq_true hunset)
    rw [h.2] at hsocket
    omega
  exact ⟨p, (hconn.owner _ _ (hconn.socketOpen p hset)).1, h.1⟩

/-! ## Descriptors that are still open -/

theorem Disconnection.open_before {s t : State} {fd : Int} (h : Disconnection s fd t)
    {fd' : Int} {q : PlayerRef} (hopen : t.descriptors fd' = some q) :
    s.descriptors fd' = some q := by
  have hclosed : (if fd' = fd then none else s.descriptors fd') = some q := by
    cases h <;> exact hopen
  split at hclosed
  · cases hclosed
  · exact hclosed

theorem Effect.open_before {s t : State} {mess : Message} (h : Effect s mess t) {fd : Int}
    {q : PlayerRef} (hopen : t.descriptors fd = some q) : s.descriptors fd = some q := by
  rcases h.sockets with ⟨-, _, -, -, closed⟩ | same
  · exact closed.open_before hopen
  · exact same.descriptors ▸ hopen

/-- What a descriptor leads to after a step, unless the step has just given it out. -/
theorem WorldStep.open_before {s t : State} {a : Action} (h : WorldStep s a t) {fd : Int}
    {q : PlayerRef} (hold : ∀ nameSet, a ≠ .accept fd nameSet)
    (hopen : t.descriptors fd = some q) : s.descriptors fd = some q := by
  cases h with
  | quiet hquiet => exact hquiet.descriptors ▸ hopen
  | accepted =>
    change (if fd = _ then _ else _) = _ at hopen
    split at hopen
    · rename_i heq
      exact absurd (by rw [heq]) (hold _)
    · exact hopen
  | closed hquiet hclosed => exact hquiet.descriptors ▸ hclosed.open_before hopen
  | handled _ heffect => exact heffect.open_before hopen

/-! ## Addressees -/

/-- A step frees no `Player`. -/
theorem WorldStep.next_le {s t : State} {a : Action} (h : WorldStep s a t) :
    s.playerHeap.next ≤ t.playerHeap.next := by
  have hclosed : ∀ {u v : State} {fd : Int}, Disconnection u fd v →
      v.playerHeap.next = u.playerHeap.next := by
    intro u v fd closed
    cases closed <;> rfl
  cases h with
  | quiet hquiet => exact le_of_eq hquiet.nextPlayer.symm
  | accepted => exact Nat.le_succ _
  | closed hquiet closed => exact le_of_eq ((hclosed closed).trans hquiet.nextPlayer).symm
  | handled _ heffect =>
    rcases heffect.sockets with ⟨-, _, -, -, closed⟩ | same
    · exact le_of_eq (hclosed closed).symm
    · exact le_of_eq same.nextPlayer.symm

/-- Every packet that can reach anybody has an addressee that exists. -/
def AddresseesExist (s : State) : Prop :=
  ∀ packet ∈ s.outgoing, 0 ≤ packet.socket →
    ∃ q < s.playerHeap.next, packet.message.player = some q

theorem addresseesExist_of_reachable {s : State} (h : System.Reachable s) :
    AddresseesExist s := by
  apply Machine.ReachableFrom.invariant h
  · intro packet hpacket
    simp [System.machine, State.initial, State.outgoing] at hpacket
  · intro t u a hreach hexist henabled _ hexec packet hpacket hsocket
    have hgrow := (exec_step (stageFromPacket_of_reachable hreach) henabled hexec).next_le
    have hbefore : ∃ q < t.playerHeap.next, packet.message.player = some q := by
      rcases (outgoing_move hexec).waits packet hpacket with hold | hnew
      · exact hexist packet hold hsocket
      · obtain ⟨p, hp⟩ := hnew
        exact hp.exists_addressee (connections_of_reachable hreach)
          (clientSockets_of_reachable hreach) hsocket
    obtain ⟨q, hq, hplayer⟩ := hbefore
    exact ⟨q, lt_of_lt_of_le hq hgrow, hplayer⟩

/-! ## Deliveries -/

/-- What waits is on target and what was sent went to its addressee or nowhere. -/
structure AllOnTarget (s : State) : Prop where
  waiting : ∀ packet ∈ s.outgoing, OnTarget s packet
  sent : ∀ d ∈ s.sentLog, d.ToAddressee

/-- Steps that open no descriptor for which a packet waits keep everything on target. -/
theorem AllOnTarget.exec {s t : State} {a : Action} (h : AllOnTarget s)
    (hconn : Connections s) (hsockets : ClientSockets s) (hguard : DescriptorUnused s a)
    (hexec : System.exec s a = .ok t) (hstep : WorldStep s a t) : AllOnTarget t where
  waiting packet hpacket q hopen := by
    rcases (outgoing_move hexec).waits packet hpacket with hold | hnew
    · -- the descriptor was not given out by this step
      have hold_accept : ∀ nameSet, a ≠ .accept packet.socket nameSet := by
        intro nameSet heq
        rw [heq] at hguard
        exact hguard packet hold rfl
      exact h.waiting packet hold q (hstep.open_before hold_accept hopen)
    · obtain ⟨p, hp⟩ := hnew
      by_cases haccept : ∃ nameSet, a = .accept packet.socket nameSet
      · -- an accepted connection queues nothing
        obtain ⟨nameSet, rfl⟩ := haccept
        have hqueue : t.outgoing = s.outgoing := by
          simp only [System.exec, Server.acceptConnection] at hexec
          split at hexec
          · cases hexec
          · rw [← Except.ok.inj hexec]
            rfl
        exact absurd rfl (hguard packet (hqueue ▸ hpacket))
      · have hopen_before : s.descriptors packet.socket = some q :=
          hstep.open_before (fun nameSet heq => haccept ⟨nameSet, heq⟩) hopen
        exact hp.onTarget hconn hsockets q hopen_before
  sent d hd := by
    rcases (outgoing_move hexec).sends d hd with hold | hnew
    · exact h.sent d hold
    · obtain ⟨hwaited, hreceiver⟩ := hnew
      cases hopen : s.descriptors d.packet.socket with
      | none => exact Or.inl (hreceiver.trans hopen)
      | some q =>
        apply Or.inr
        rw [hreceiver, hopen, h.waiting d.packet hwaited q hopen]

theorem allOnTarget_of_unused {s : State} (h : System.ReachableUnder DescriptorUnused s) :
    AllOnTarget s := by
  have known : ∀ t, System.ReachableUnder DescriptorUnused t →
      Connections t ∧ ClientSockets t := by
    intro t hreach
    have hreachable := Machine.ReachableUnder.reachable hreach
    exact ⟨connections_of_reachable hreachable, clientSockets_of_reachable hreachable⟩
  apply guarded_invariant h known
  · refine ⟨fun packet hpacket => ?_, fun d hd => by cases hd⟩
    simp [State.initial, State.outgoing] at hpacket
  · intro t u a hknown hall hguard hexec hstep
    exact hall.exec hknown.1 hknown.2 hguard hexec hstep

/-- The condition is exact for the step that can lead a packet astray: after `accept` all waiting
    packets are still on target exactly when none of them waits for its descriptor. -/
theorem onTarget_accept_iff {s t : State} {fd : Int} {nameSet : Bool} (h : System.Reachable s)
    (hwaiting : ∀ packet ∈ s.outgoing, OnTarget s packet)
    (henabled : System.Enabled s (.accept fd nameSet))
    (hexec : System.exec s (.accept fd nameSet) = .ok t) :
    (∀ packet ∈ t.outgoing, OnTarget t packet) ↔ DescriptorUnused s (.accept fd nameSet) := by
  have ht : t = Server.addPlayer s fd nameSet := by
    simp only [System.exec, Server.acceptConnection] at hexec
    split at hexec
    · cases hexec
    · exact (Except.ok.inj hexec).symm
  subst ht
  apply Iff.intro
  · intro hontarget packet hpacket hsocket
    -- the descriptor now leads to a player that no packet was ever addressed to
    have hnew : (Server.addPlayer s fd nameSet).descriptors packet.socket
        = some s.playerHeap.next := by simp [hsocket]
    have hplayer := hontarget packet hpacket _ hnew
    obtain ⟨q, hq, hother⟩ := addresseesExist_of_reachable h packet hpacket
      (hsocket ▸ henabled.1)
    rw [hplayer] at hother
    have heq : s.playerHeap.next = q := Option.some.inj hother
    exact absurd heq (Nat.ne_of_gt hq)
  · intro hunused packet hpacket q hopen
    have hne : packet.socket ≠ fd := hunused packet hpacket
    have hbefore : s.descriptors packet.socket = some q := by simpa [hne] using hopen
    exact hwaiting packet hpacket q hbefore

/-- **Outgoing delivery**: only an `accept` that returns the descriptor of a waiting packet leads
    packets astray; in every run without such a step each packet is written to the connection of
    its addressee or to none. -/
theorem packets_reach_their_addressee (s : State) (h : System.Reachable s) :
    (∀ fd nameSet t, (∀ packet ∈ s.outgoing, OnTarget s packet) →
      System.Enabled s (.accept fd nameSet) → System.exec s (.accept fd nameSet) = .ok t →
      ((∀ packet ∈ t.outgoing, OnTarget t packet) ↔
        DescriptorUnused s (.accept fd nameSet))) ∧
    (System.ReachableUnder DescriptorUnused s → ∀ d ∈ s.sentLog, d.ToAddressee) := by
  apply And.intro
  · intro fd nameSet t hwaiting henabled hexec
    exact onTarget_accept_iff h hwaiting henabled hexec
  · intro hunused
    exact (allOnTarget_of_unused hunused).sent

/-- `A` registers and leaves before the answer is sent; its descriptor goes to the next client. -/
def answerAfterReuse : List Action :=
  [.accept 5 false] ++ System.deliver 5 H_C_NEW_PL [.str [65]] ++
    [.peerClosed 5, .accept 5 false, .popOutgoing, .sendOutgoing]

/-- In some run an answer is written to another client's connection. -/
theorem packets_go_astray :
    ¬ ∀ s, System.Reachable s → ∀ d ∈ s.sentLog, d.ToAddressee := by
  intro h
  have hlog : (System.after answerAfterReuse).sentLog.map
      (fun d => (d.receiver, d.packet.message.player)) = [(some 1, some 0)] := by
    decide +kernel
  obtain ⟨d, hd, heq⟩ := List.mem_map.mp (hlog ▸ List.mem_singleton_self _)
  have hfate := h _ (System.reachable_after answerAfterReuse) d hd
  obtain ⟨hreceiver, hplayer⟩ := Prod.mk.inj heq
  -- the receiver is player 1, the addressee player 0
  rw [Delivery.ToAddressee, hreceiver, hplayer] at hfate
  rcases hfate with hnone | hsame
  · cases hnone
  · cases hsame

/-- `A` registers and is answered. -/
def answerInTime : List Action :=
  [.accept 5 false] ++ System.deliver 5 H_C_NEW_PL [.str [65]] ++ [.popOutgoing, .sendOutgoing]

theorem packets_reach_their_addressee_answer :
    (System.machine.after DescriptorUnused answerInTime).sentLog.length = 1 ∧
      ∀ d ∈ (System.machine.after DescriptorUnused answerInTime).sentLog, d.ToAddressee := by
  have hreach : System.ReachableUnder DescriptorUnused
      (System.machine.after DescriptorUnused answerInTime) :=
    Machine.reachableUnder_after answerInTime
  have hdelivered := packets_reach_their_addressee
    (System.machine.after DescriptorUnused answerInTime) (Machine.ReachableUnder.reachable hreach)
  exact ⟨by decide +kernel, hdelivered.2 hreach⟩

end UpsServer
