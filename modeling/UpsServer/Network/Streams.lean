import UpsServer.Helpers.StreamDecoding
import UpsServer.Network.References

/-!
# What a client receives

The packets for a player are written to its connection in the order in which the messages were
registered. When the connection ends the rest of them goes nowhere, and since no player gets a
connection back there is never a gap: a client has received the beginning of what was registered
for it, and can tell from the bytes which messages that were.
-/

namespace UpsServer

open Framework CommandManager Serializer

/-! ## The packets of one player -/

/-- The packet is addressed to the player. -/
def OutPacket.isFor (p : PlayerRef) (packet : OutPacket) : Bool := packet.message.player == some p

/-- The packets that were registered for the player, in order. -/
def State.registeredFor (s : State) (p : PlayerRef) : List OutPacket :=
  s.outbox.filter (OutPacket.isFor p)

/-- The packets that still wait for the player. -/
def State.waitingFor (s : State) (p : PlayerRef) : List OutPacket :=
  s.outgoing.filter (OutPacket.isFor p)

/-- The packets that were written to the player's connection, in order. -/
def State.receivedBy (s : State) (p : PlayerRef) : List OutPacket :=
  (s.sentLog.filter fun d => d.receiver == some p).map Delivery.packet

/-- The bytes that were written to the player's connection. -/
def State.streamTo (s : State) (p : PlayerRef) : ByteString :=
  (s.receivedBy p).flatMap OutPacket.data

/-! ## Sockets are kept -/

theorem Disconnection.connected_before {s t : State} {fd : Int} (h : Disconnection s fd t)
    {p : PlayerRef} (hset : (t.player p).socketSet = true) :
    (s.player p).socketSet = true ∧ (t.player p).socket = (s.player p).socket := by
  cases h with
  | left | stays =>
    simp only [State.player_withPlayers, State.player_registerCommand,
      State.player_modifyPlayer] at hset ⊢
    split at hset
    · cases hset
    · rename_i hne
      rw [if_neg hne]
      exact ⟨hset, rfl⟩

/-- Whoever is connected after a step was connected before it, to the same descriptor. -/
theorem WorldStep.connected_before {s t : State} {a : Action} (h : WorldStep s a t)
    {p : PlayerRef} (made : s.Made p) (hset : (t.player p).socketSet = true) :
    (s.player p).socketSet = true ∧ (t.player p).socket = (s.player p).socket := by
  cases h with
  | quiet hquiet =>
    rw [hquiet.socketSet] at hset
    exact ⟨hset, hquiet.socket p⟩
  | accepted =>
    rw [Server.player_addPlayer, if_neg (Nat.ne_of_lt made)] at hset ⊢
    exact ⟨hset, rfl⟩
  | closed hquiet hclosed =>
    obtain ⟨hbefore, hsame⟩ := hclosed.connected_before hset
    rw [hquiet.socketSet] at hbefore
    exact ⟨hbefore, hsame.trans (hquiet.socket p)⟩
  | handled _ heffect =>
    rcases heffect.sockets with ⟨-, _, -, -, hclosed⟩ | hsame
    · exact hclosed.connected_before hset
    · rw [hsame.socketSet] at hset
      exact ⟨hset, hsame.socket p⟩

/-! ## The log of the sender -/

/-- Only `send` adds to the log. -/
theorem sentLog_exec {s t : State} {a : Action} (h : System.exec s a = .ok t)
    (other : a ≠ .sendOutgoing) : t.sentLog = s.sentLog := by
  cases a with
  | accept fd nameSet =>
    simp only [System.exec, Server.acceptConnection] at h
    split at h
    · cases h
    · rw [← Except.ok.inj h]
      rfl
  | receive fd data =>
    obtain ⟨_, _, h⟩ := bind_eq_ok_iff.mp h
    rw [← Except.ok.inj h]
  | peerClosed fd => exact (QueuesFor.of_disconnection (Server.disconnection_effect h)).log
  | popPacket =>
    rw [← Except.ok.inj h]
    unfold PacketManager.popPacket
    split <;> rfl
  | resolvePacket =>
    simp only [System.exec] at h
    split at h
    · rcases resolvePacket_eq_ok h with ⟨mess, _, rfl⟩ | ⟨_, hinvalid⟩
      · rfl
      · rcases countInvalid_eq_ok hinvalid with rfl | ⟨p, rfl | hclosed⟩
        · rfl
        · rfl
        · exact (QueuesFor.of_disconnection hclosed).log
    · rw [← Except.ok.inj h]
  | registerResolved =>
    simp only [System.exec] at h
    split at h
    · rw [← Except.ok.inj h]
      rfl
    · rw [← Except.ok.inj h]
  | runCommand =>
    simp only [System.exec, System.runCommand] at h
    split at h
    · rw [← Except.ok.inj h]
    · exact (QueuesFor.of_effect (dispatch_effect h)).log
  | popOutgoing =>
    rw [← Except.ok.inj h]
    unfold Sender.popOutgoing
    split <;> rfl
  | sendOutgoing => exact absurd rfl other

/-- What waits after a step has waited before or was just told. -/
theorem outgoing_exec {s t : State} {a : Action} (enabled : System.Enabled s a)
    (h : System.exec s a = .ok t) : ∀ packet ∈ t.outgoing, packet ∈ s.outgoing ∨
      (packet.MadeIn s ∧ packet.message ∈ toldBy s a) := by
  intro packet hpacket
  by_cases hsend : a = .sendOutgoing
  · -- the packet in the hand is gone and nothing new waits
    subst hsend
    obtain ⟨sent, hhand⟩ := Option.ne_none_iff_exists'.mp enabled
    rw [← Except.ok.inj h, Sender.sendOutgoing, hhand] at hpacket
    exact Or.inl (List.mem_append_right _ hpacket)
  · obtain ⟨packets, houtbox, hmessages, hmade⟩ := (appends_exec enabled h).outbox
    rw [State.outbox, State.outbox, sentLog_exec h hsend, List.append_assoc] at houtbox
    rw [List.append_cancel_left houtbox] at hpacket
    rcases List.mem_append.mp hpacket with hold | hnew
    · exact Or.inl hold
    · exact Or.inr ⟨hmade packet hnew, hmessages ▸ List.mem_map_of_mem hnew⟩

/-! ## No gaps -/

/-- The packet was sent for the player. -/
def Delivery.isFor (p : PlayerRef) (d : Delivery) : Bool := d.packet.isFor p

/-- What was sent for a player reached it up to some point, and nothing after that. -/
structure NoGap (s : State) (p : PlayerRef) : Prop where
  split : ∃ got missed, s.sentLog.filter (Delivery.isFor p) = got ++ missed ∧
    (∀ d ∈ got, d.receiver = some p) ∧ (∀ d ∈ missed, d.receiver = none) ∧
      (missed ≠ [] → s.Made p ∧ (s.player p).socketSet = false)

/-- A packet that waits for a connected player waits for its descriptor. -/
def Current (s : State) : Prop :=
  ∀ packet ∈ s.outgoing, ∀ p, packet.message.player = some p → (s.player p).socketSet = true →
    packet.socket = (s.player p).socket

/-- What is known of the states that the runs reach. -/
structure Delivering (s : State) : Prop where
  registry : Registry s
  references : References s
  connections : Connections s
  onTarget : AllOnTarget s

theorem delivering_of_unused {s : State} (h : System.ReachableUnder DescriptorUnused s) :
    Delivering s where
  registry := registry_of_reachable h.reachable
  references := references_of_reachable h.reachable
  connections := connections_of_reachable h.reachable
  onTarget := allOnTarget_of_unused h

/-- The addressee of a packet that waits was made. -/
theorem Delivering.made {s : State} (h : Delivering s) {packet : OutPacket} {p : PlayerRef}
    (hpacket : packet ∈ s.outbox) (hplayer : packet.message.player = some p) : s.Made p :=
  (h.references.outbox packet hpacket).made hplayer

theorem Current.exec {s t : State} {a : Action} (h : Current s) (known : Delivering s)
    (enabled : System.Enabled s a) (hexec : System.exec s a = .ok t) (step : WorldStep s a t) :
    Current t := by
  intro packet hpacket p hplayer hset
  rcases outgoing_exec enabled hexec packet hpacket with hold | ⟨hmade, htold⟩
  · have hmade := known.made (List.mem_append_right _ hold) hplayer
    obtain ⟨hbefore, hsocket⟩ := step.connected_before hmade hset
    rw [hsocket]
    exact h packet hold p hplayer hbefore
  · -- a new packet is made for the descriptor that the player has
    obtain ⟨⟨q, hq⟩, -⟩ := hmade
    obtain rfl : q = p := Option.some.inj (hq.1.symm.trans hplayer)
    have htellable := known.references.toldBy_tellable known.registry a _ htold
    rw [(step.connected_before (htellable.made hplayer) hset).2]
    exact hq.2

/-- The packet that is sent reaches its addressee exactly when that is connected. -/
theorem Current.receiver {s : State} (h : Current s) (known : Delivering s) {packet : OutPacket}
    (hpacket : packet ∈ s.outgoing) {p : PlayerRef} (hplayer : packet.message.player = some p) :
    s.descriptors packet.socket = if (s.player p).socketSet = true then some p else none := by
  split
  · rename_i hset
    rw [h packet hpacket p hplayer hset]
    exact known.connections.socketOpen p hset
  · rename_i hunset
    cases hopen : s.descriptors packet.socket with
    | none => rfl
    | some q =>
      -- whoever the descriptor leads to is the addressee, and connected
      have htarget := known.onTarget.waiting packet hpacket q hopen
      obtain rfl : p = q := Option.some.inj (hplayer.symm.trans htarget)
      exact absurd (known.connections.owner _ _ hopen).2.1 hunset

theorem NoGap.closed {s t : State} {a : Action} {p : PlayerRef} {missed : List Delivery}
    (hmissed : missed ≠ [] → s.Made p ∧ (s.player p).socketSet = false)
    (step : WorldStep s a t) : missed ≠ [] → t.Made p ∧ (t.player p).socketSet = false := by
  intro hne
  obtain ⟨hmade, hunset⟩ := hmissed hne
  refine ⟨lt_of_lt_of_le hmade step.next_le, ?_⟩
  by_contra hset
  have hbefore := (step.connected_before hmade (Bool.eq_true_of_not_eq_false hset)).1
  rw [hunset] at hbefore
  cases hbefore

theorem NoGap.exec {s t : State} {a : Action} {p : PlayerRef} (h : NoGap s p)
    (current : Current s) (known : Delivering s) (enabled : System.Enabled s a)
    (hexec : System.exec s a = .ok t) (step : WorldStep s a t) : NoGap t p := by
  obtain ⟨got, missed, hsplit, hgot, hmissed, hclosed⟩ := h.split
  by_cases hsend : a = .sendOutgoing
  · subst hsend
    obtain ⟨packet, hhand⟩ := Option.ne_none_iff_exists'.mp enabled
    have hwaits : packet ∈ s.outgoing := by simp [State.outgoing, hhand]
    have hstate : t = { s with
        senderHand := none
        sentLog := s.sentLog ++ [⟨packet, s.descriptors packet.socket⟩] } := by
      rw [← Except.ok.inj hexec, Sender.sendOutgoing, hhand]
    have hplayer_eq : t.player p = s.player p := by rw [hstate]; rfl
    have hnext : t.playerHeap = s.playerHeap := by rw [hstate]
    constructor
    by_cases hfor : packet.message.player = some p
    · have hfilter : t.sentLog.filter (Delivery.isFor p)
          = got ++ missed ++ [⟨packet, s.descriptors packet.socket⟩] := by
        rw [hstate]
        simp [List.filter_append, hsplit, Delivery.isFor, OutPacket.isFor, hfor]
      rw [hfilter, hplayer_eq, State.Made, hnext]
      have hreceiver := current.receiver known hwaits hfor
      by_cases hset : (s.player p).socketSet = true
      · -- nothing was missed before, and this packet is not missed either
        have hnone : missed = [] := by
          by_contra hne
          rw [(hclosed hne).2] at hset
          cases hset
        refine ⟨got ++ [⟨packet, s.descriptors packet.socket⟩], [], by simp [hnone], ?_, by simp,
          by simp⟩
        intro d hd
        rcases List.mem_append.mp hd with hd | hd
        · exact hgot d hd
        · rw [List.mem_singleton.mp hd, hreceiver, if_pos hset]
      · have hmade := known.made (List.mem_append_right _ hwaits) hfor
        refine ⟨got, missed ++ [⟨packet, s.descriptors packet.socket⟩],
          List.append_assoc _ _ _, hgot, ?_, fun _ => ⟨hmade, Bool.eq_false_of_not_eq_true hset⟩⟩
        intro d hd
        rcases List.mem_append.mp hd with hd | hd
        · exact hmissed d hd
        · rw [List.mem_singleton.mp hd, hreceiver, if_neg hset]
    · have hfilter : t.sentLog.filter (Delivery.isFor p) = got ++ missed := by
        rw [hstate]
        simp [List.filter_append, hsplit, Delivery.isFor, OutPacket.isFor, hfor]
      rw [hfilter, hplayer_eq, State.Made, hnext]
      exact ⟨got, missed, rfl, hgot, hmissed, hclosed⟩
  · refine ⟨got, missed, ?_, hgot, hmissed, NoGap.closed hclosed step⟩
    rw [sentLog_exec hexec hsend]
    exact hsplit

/-- Nobody ever receives anything after a gap. -/
theorem noGap_of_unused {s : State} (h : System.ReachableUnder DescriptorUnused s) :
    Current s ∧ ∀ p, NoGap s p := by
  apply Machine.ReachableFrom.invariant (I := fun s => Current s ∧ ∀ p, NoGap s p) h
  · refine ⟨fun packet hpacket => ?_, fun p => ⟨[], [], rfl, by simp, by simp, by simp⟩⟩
    simp [System.machine, State.initial, State.outgoing] at hpacket
  · intro t u a hreach hI henabled _ hexec
    have hknown := delivering_of_unused hreach
    have hstep := exec_step (stageFromPacket_of_reachable
      (Machine.ReachableUnder.reachable hreach)) henabled hexec
    exact ⟨hI.1.exec hknown henabled hexec hstep,
      fun p => (hI.2 p).exec hI.1 hknown henabled hexec hstep⟩

/-! ## The bytes -/

/-- The packet holds the encoding of its message. -/
structure OutPacket.Encoded (packet : OutPacket) : Prop where
  wellFormed : packet.message.WellFormed
  data : packet.data = packet.message.packet

/-- A message of the table that was encoded has an encoding. -/
theorem OutPacket.MadeIn.encoded {s : State} {packet : OutPacket} (h : packet.MadeIn s)
    (tellable : s.Tellable packet.message) : packet.Encoded := by
  obtain ⟨header, data, p, hmessage, known, -⟩ := tellable
  obtain ⟨size, hencodes⟩ := h.encodes
  have htyped : packet.message.TypeSafe := hmessage ▸ typeSafe_compose (some p) known
  have hfits : packet.message.packet.length < 2 ^ 31 := by
    by_contra hlarge
    obtain ⟨_, hfault⟩ := serialize_of_large htyped.payload (Nat.le_of_not_lt hlarge)
    rw [hfault] at hencodes
    cases hencodes
  have hwell : packet.message.WellFormed := ⟨htyped.format, htyped.payload, hfits⟩
  have hpacket : serialize packet.message
      = .ok (packet.message.packet, packet.message.packet.length) := serialize_eq hwell
  rw [hpacket] at hencodes
  exact ⟨hwell, (Prod.mk.inj (Except.ok.inj hencodes)).1.symm⟩

/-- Every packet that was ever registered holds the encoding of its message. -/
theorem encoded_of_reachable {s : State} (h : System.Reachable s) :
    ∀ packet ∈ s.outbox, packet.Encoded := by
  apply Machine.ReachableFrom.invariant h
  · intro packet hpacket
    simp [System.machine, State.initial, State.outbox, State.outgoing] at hpacket
  · intro t u a hreach hencoded henabled _ hexec packet hpacket
    obtain ⟨packets, houtbox, hmessages, hmade⟩ := (appends_exec henabled hexec).outbox
    rw [houtbox] at hpacket
    rcases List.mem_append.mp hpacket with hold | hnew
    · exact hencoded packet hold
    · have htold : packet.message ∈ toldBy t a := hmessages ▸ List.mem_map_of_mem hnew
      exact (hmade packet hnew).encoded ((references_of_reachable hreach).toldBy_tellable
        (registry_of_reachable hreach) a _ htold)

/-- Encoded packets one behind the other are the stream of their messages. -/
theorem serializeAll_of_encoded {sent : List OutPacket} (h : ∀ packet ∈ sent, packet.Encoded) :
    serializeAll (sent.map OutPacket.message) = .ok (sent.flatMap OutPacket.data) := by
  have hwell : ∀ m ∈ sent.map OutPacket.message, m.WellFormed := by
    intro m hm
    obtain ⟨packet, hpacket, rfl⟩ := List.mem_map.mp hm
    exact (h packet hpacket).wellFormed
  rw [serializeAll_eq hwell, List.flatMap_map]
  congr 1
  apply List.flatMap_congr
  intro packet hpacket
  exact (h packet hpacket).data.symm

/-! ## What arrives -/

/-- What was received is what was sent up to the gap. -/
theorem NoGap.received {s : State} {p : PlayerRef} (h : NoGap s p)
    (sent : ∀ d ∈ s.sentLog, d.ToAddressee) :
    ∃ missed, (s.sentLog.map Delivery.packet).filter (OutPacket.isFor p)
        = s.receivedBy p ++ missed ∧
      (missed ≠ [] → (s.player p).socketSet = false) := by
  obtain ⟨got, missed, hsplit, hgot, hmissed, hclosed⟩ := h.split
  -- whoever received a packet is its addressee
  have hfor : ∀ d ∈ s.sentLog, (d.receiver == some p) = true → d.isFor p = true := by
    intro d hd hreceiver
    rw [beq_iff_eq] at hreceiver
    rcases sent d hd with hnone | hsame
    · rw [hreceiver] at hnone
      cases hnone
    · rw [Delivery.isFor, OutPacket.isFor, ← hsame, hreceiver, beq_self_eq_true]
  have hreceived : s.sentLog.filter (fun d => d.receiver == some p) = got := by
    have hnarrow : s.sentLog.filter (fun d => d.receiver == some p)
        = (s.sentLog.filter (Delivery.isFor p)).filter fun d => d.receiver == some p := by
      rw [List.filter_filter]
      apply List.filter_congr
      intro d hd
      by_cases hreceiver : (d.receiver == some p) = true
      · rw [hreceiver, hfor d hd hreceiver, Bool.and_self]
      · rw [Bool.eq_false_of_not_eq_true hreceiver, Bool.false_and]
    have hall : got.filter (fun d => d.receiver == some p) = got :=
      List.filter_eq_self.mpr fun d hd => by simp [hgot d hd]
    have hnone : missed.filter (fun d => d.receiver == some p) = [] :=
      List.filter_eq_nil_iff.mpr fun d hd => by simp [hmissed d hd]
    rw [hnarrow, hsplit, List.filter_append, hall, hnone, List.append_nil]
  refine ⟨missed.map Delivery.packet, ?_, ?_⟩
  · have hpackets : (s.sentLog.map Delivery.packet).filter (OutPacket.isFor p)
        = (s.sentLog.filter (Delivery.isFor p)).map Delivery.packet := by
      rw [List.filter_map]
      rfl
    rw [hpackets, hsplit, List.map_append, State.receivedBy, hreceived]
  · intro hne
    exact (hclosed fun hnil => hne (by rw [hnil, List.map_nil])).2

/-- **Delivery without gaps**: as long as no descriptor is given out while a packet waits for it,
    every player has received the beginning of what was ever registered for it, in order and
    without a gap; a connected player misses only what still waits; and the bytes written to its
    connection are the encoding of the messages it received and of no others. -/
theorem clients_receive_a_beginning (s : State) (h : System.ReachableUnder DescriptorUnused s)
    (p : PlayerRef) :
    s.receivedBy p <+: s.registeredFor p ∧
    ((s.player p).socketSet = true →
      s.registeredFor p = s.receivedBy p ++ s.waitingFor p) ∧
    serializeAll ((s.receivedBy p).map OutPacket.message) = .ok (s.streamTo p) ∧
    ∀ messages : List Message, (∀ m ∈ messages, m.WellFormed ∧ m.player = some p) →
      serializeAll messages = .ok (s.streamTo p) →
        messages = (s.receivedBy p).map OutPacket.message := by
  have hknown := delivering_of_unused h
  obtain ⟨missed, hsent, hclosed⟩ := ((noGap_of_unused h).2 p).received hknown.onTarget.sent
  have hregistered : s.registeredFor p = (s.receivedBy p ++ missed) ++ s.waitingFor p := by
    rw [State.registeredFor, State.outbox, List.filter_append, hsent]
    rfl
  have hreceived : ∀ packet ∈ s.receivedBy p, packet ∈ s.registeredFor p := by
    intro packet hpacket
    rw [hregistered]
    exact List.mem_append_left _ (List.mem_append_left _ hpacket)
  have hencoded : ∀ packet ∈ s.receivedBy p, packet.Encoded := fun packet hpacket =>
    encoded_of_reachable h.reachable packet (List.mem_filter.mp (hreceived packet hpacket)).1
  have hstream : serializeAll ((s.receivedBy p).map OutPacket.message) = .ok (s.streamTo p) :=
    serializeAll_of_encoded hencoded
  refine ⟨⟨missed ++ s.waitingFor p, by rw [hregistered, List.append_assoc]⟩, ?_, hstream, ?_⟩
  · intro hset
    have hnone : missed = [] := by
      by_contra hne
      rw [hclosed hne] at hset
      cases hset
    rw [hregistered, hnone, List.append_nil]
  · intro messages hmessages hsame
    have hwell : ∀ m ∈ (s.receivedBy p).map OutPacket.message, m.WellFormed := by
      intro m hm
      obtain ⟨packet, hpacket, rfl⟩ := List.mem_map.mp hm
      exact (hencoded packet hpacket).wellFormed
    have hplayer : ∀ m ∈ (s.receivedBy p).map OutPacket.message, m.player = some p := by
      intro m hm
      obtain ⟨packet, hpacket, rfl⟩ := List.mem_map.mp hm
      exact beq_iff_eq.mp (List.mem_filter.mp (hreceived packet hpacket)).2
    have hcarried := map_withPlayer_eq_of_serializeAll_eq (fun m hm => (hmessages m hm).1) hwell
      hsame hstream
    exact eq_of_withPlayer_eq (fun m hm => (hmessages m hm).2) hplayer hcarried

/-- `A` registers, is told so, and leaves before it hears the player list it asked for. -/
def leaveTooEarly : List Action :=
  answerInTime ++ System.deliver 5 H_C_PL_LIST_REQ [] ++ [.peerClosed 5, .popOutgoing,
    .sendOutgoing]

/-- Two packets were registered for `A`, and the first one reached it. -/
theorem clients_receive_a_beginning_left :
    ((System.machine.after DescriptorUnused leaveTooEarly).registeredFor 0).length = 2 ∧
      ((System.machine.after DescriptorUnused leaveTooEarly).receivedBy 0).length = 1 ∧
      (System.machine.after DescriptorUnused leaveTooEarly).receivedBy 0
        <+: (System.machine.after DescriptorUnused leaveTooEarly).registeredFor 0 :=
  ⟨by decide +kernel, by decide +kernel,
    (clients_receive_a_beginning _ (Machine.reachableUnder_after leaveTooEarly) 0).1⟩

end UpsServer
