import UpsServer.Helpers.RoundTrip
import UpsServer.Network.State

/-!
# The sender

`Sender::registerMessage` turns a message into a packet for the descriptor its addressee has at
that moment; `Sender::run` writes the packet to that descriptor later.
-/

namespace UpsServer

open Framework

/-- A message built with `new Message(header, (*headToFormatMap)[header])`, one `addData` for
    each entry and its addressee. -/
def Message.compose (header : UInt32) (data : List Datum) (player : Option PlayerRef) : Message :=
  (data.foldl Message.addData (Message.new header (formatOf header))).withPlayer player

/-- The packet carries a message for the player and goes to the descriptor the player has. -/
def OutPacket.For (packet : OutPacket) (s : State) (p : PlayerRef) : Prop :=
  packet.message.player = some p ∧ packet.socket = (s.player p).socket

namespace Sender

/-- `Sender::registerMessage`. -/
def registerMessage (s : State) (mess : Message) : Except Fault State := do
  let packet ← (Serializer.serialize mess).mapError .codec
  let player ← deref mess.player
  return s.pushOut ⟨(s.player player).socket, packet.1, mess⟩

/-- The first half of an iteration of `Sender::run`. -/
def popOutgoing (s : State) : State :=
  match s.pQueue with
  | [] => s
  | packet :: rest => { s with pQueue := rest, senderHand := some packet }

/-- `send(packet->socket, ...)`: the bytes go to whatever the descriptor leads to now. -/
def sendOutgoing (s : State) : State :=
  match s.senderHand with
  | none => s
  | some packet =>
    { s with
      senderHand := none
      sentLog := s.sentLog ++ [⟨packet, s.descriptors packet.socket⟩] }

/-- What a registered message adds to the state: one packet, which carries the message. -/
theorem registerMessage_carries {s s' : State} {mess : Message}
    (h : registerMessage s mess = .ok s') :
    ∃ p packet, mess.player = some p ∧ packet.For s p ∧ packet.message = mess ∧
      s' = s.pushOut packet := by
  unfold registerMessage at h
  obtain ⟨packet, _, h⟩ := bind_eq_ok_iff.mp h
  obtain ⟨p, hp, h⟩ := bind_eq_ok_iff.mp h
  have hp' : mess.player = some p := deref_eq_ok_iff.mp hp
  exact ⟨p, ⟨(s.player p).socket, packet.1, mess⟩, hp', ⟨hp', rfl⟩, rfl, (Except.ok.inj h).symm⟩

/-- What a registered message adds to the state. -/
theorem registerMessage_eq_ok {s s' : State} {mess : Message}
    (h : registerMessage s mess = .ok s') :
    ∃ p packet, mess.player = some p ∧ packet.For s p ∧ s' = s.pushOut packet := by
  obtain ⟨p, packet, hp, hpacket, -, hs⟩ := registerMessage_carries h
  exact ⟨p, packet, hp, hpacket, hs⟩

/-- A composed message holds the entries as they were given. -/
theorem compose_eq (header : UInt32) (data : List Datum) (player : Option PlayerRef) :
    Message.compose header data player = ⟨header, formatOf header, data, player⟩ := by
  rw [Message.compose, ← Serializer.addAll, Serializer.addAll_eq]
  rfl

@[simp] theorem header_compose (header : UInt32) (data : List Datum)
    (player : Option PlayerRef) : (Message.compose header data player).header = header := by
  rw [compose_eq]

/-- A composed message for a known player, with the header it has. -/
theorem registerMessage_compose_carries {s s' : State} {header : UInt32} {data : List Datum}
    {p : PlayerRef} (h : registerMessage s (.compose header data (some p)) = .ok s') :
    ∃ packet, packet.For s p ∧ packet.message = .compose header data (some p) ∧
      s' = s.pushOut packet := by
  obtain ⟨q, packet, hq, hpacket, hmessage, rfl⟩ := registerMessage_carries h
  have hpq : p = q := Option.some.inj hq
  exact ⟨packet, hpq ▸ hpacket, hmessage, rfl⟩

/-- What a composed message for a known player adds to the state. -/
theorem registerMessage_compose_eq_ok {s s' : State} {header : UInt32} {data : List Datum}
    {p : PlayerRef} (h : registerMessage s (.compose header data (some p)) = .ok s') :
    ∃ packet, packet.For s p ∧ s' = s.pushOut packet := by
  obtain ⟨packet, hpacket, -, hs⟩ := registerMessage_compose_carries h
  exact ⟨packet, hpacket, hs⟩

/-- A well formed message for a known player is always registered. -/
theorem registerMessage_of_wellFormed (s : State) {mess : Message} {p : PlayerRef}
    (h : mess.WellFormed) (addressee : mess.player = some p) :
    registerMessage s mess
      = .ok (s.pushOut ⟨(s.player p).socket, packetOf mess.header mess.payload, mess⟩) := by
  unfold registerMessage
  rw [Serializer.serialize_eq h, addressee]
  rfl

/-- Registering a message for an existing player dereferences no null pointer. -/
theorem registerMessage_ne_nullPointer {s : State} {mess : Message} {p : PlayerRef}
    (hp : mess.player = some p) : registerMessage s mess ≠ .error .nullPointer := by
  intro h
  unfold registerMessage at h
  rcases bind_eq_error_iff.mp h with hcodec | ⟨packet, _, h⟩
  · obtain ⟨_, _, hfault⟩ := mapError_eq_error_iff.mp hcodec
    cases hfault
  · rw [hp] at h
    cases h

end Sender

/-! ## Announcements -/

/-- Between the two states a message with this header is registered with the sender. -/
def Announces (s t : State) (header : UInt32) : Prop :=
  ∃ sent, t.pQueue = s.pQueue ++ sent ∧ ∃ packet ∈ sent, packet.message.header = header

theorem Announces.singleton {s t : State} {header : UInt32} {packet : OutPacket}
    (h : Announces s t header) (queue : t.pQueue = s.pQueue ++ [packet]) :
    packet.message.header = header := by
  obtain ⟨sent, hsent, packet', hmem, hheader⟩ := h
  obtain rfl := List.append_cancel_left (hsent.symm.trans queue)
  rw [← List.mem_singleton.mp hmem]
  exact hheader

end UpsServer
