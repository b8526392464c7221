import UpsServer.Framework.PrefixCode
import UpsServer.Helpers.RoundTrip

/-!
# What a stream of packets says

The packets of well formed messages are a prefix code: the size word of a packet is its real
length. So the bytes written to one connection determine the messages, up to their addressee,
which no packet names.
-/

namespace UpsServer

open Framework

namespace Serializer

/-- The packets of the messages, one behind the other. -/
def serializeAll : List Message → Except CodecFault ByteString
  | [] => return []
  | m :: messages => do
    let packet ← serialize m
    let stream ← serializeAll messages
    return packet.1 ++ stream

end Serializer

open Serializer

/-! ## The packets as a code -/

/-- The packet of a message. -/
def Message.packet (m : Message) : ByteString := packetOf m.header m.payload

/-- The size word of the first packet of a stream. -/
def sizeWord (stream : ByteString) : ℕ := (wordAt stream 4).toNat

/-- The packets of the well formed messages. -/
def packets : Set ByteString := Message.packet '' {m | m.WellFormed}

/-- The size word of a packet is its length. -/
theorem sizeWord_packet {m : Message} (h : m.WellFormed) (rest : ByteString) :
    sizeWord (m.packet ++ rest) = m.packet.length := by
  have hsize : wordAt (m.packet ++ rest) 4
      = UInt32.ofNat (9 + (encodePayload m.payload).length) := by
    have hword := wordAt_append (wordBytes m.header)
      (encodePayload m.payload ++ ([checkSumOf (packetBody m.header m.payload)] ++ rest))
      (UInt32.ofNat (9 + (encodePayload m.payload).length))
    rw [Message.packet, packetOf, List.append_assoc, packetBody, List.append_assoc,
      List.append_assoc]
    exact hword
  have hfits := h.fits
  rw [length_packetOf] at hfits
  rw [sizeWord, hsize, Message.packet, length_packetOf]
  exact toNat_ofNat_of_lt hfits

theorem packets_selfDelimiting : SelfDelimiting packets sizeWord := by
  intro w hw rest
  obtain ⟨m, hm, rfl⟩ := hw
  exact sizeWord_packet hm rest

theorem packets_uniquelyDecodable : InformationTheory.UniquelyDecodable packets := by
  apply packets_selfDelimiting.prefixFree.uniquelyDecodable
  intro hempty
  obtain ⟨m, hm, hnil⟩ := hempty
  have hlen : m.packet.length = 9 + (encodePayload m.payload).length := length_packetOf _ _
  rw [hnil] at hlen
  exact absurd hlen (by rw [List.length_nil]; omega)

/-- The packet of a well formed message determines all of it but the addressee. -/
theorem packet_injective {m m' : Message} (h : m.WellFormed) (h' : m'.WellFormed)
    (heq : m.packet = m'.packet) : m.withPlayer none = m'.withPlayer none := by
  have hdecoded : ∀ {n : Message}, n.WellFormed →
      deserialize n.packet = .ok (some (n.withPlayer none)) := by
    intro n hn
    obtain ⟨packet, size, hpacket, -, hmessage⟩ :=
      deserialize_serialize n.header n.msgFormat n.payload n.player hn.format hn.payload hn.fits
    have hserialize : serialize n = .ok (n.packet, n.packet.length) := serialize_eq hn
    obtain rfl : packet = n.packet := (Prod.mk.inj (Except.ok.inj (hpacket.symm.trans
      hserialize))).1
    exact hmessage
  have hm := hdecoded h
  rw [heq, hdecoded h'] at hm
  exact (Option.some.inj (Except.ok.inj hm)).symm

/-! ## Streams -/

theorem serializeAll_eq {messages : List Message} (h : ∀ m ∈ messages, m.WellFormed) :
    serializeAll messages = .ok (messages.flatMap Message.packet) := by
  induction messages with
  | nil => rfl
  | cons m messages ih =>
    have hfirst : serialize m = .ok (m.packet, m.packet.length) :=
      serialize_eq (h m List.mem_cons_self)
    have hrest := ih fun n hn => h n (List.mem_cons_of_mem _ hn)
    rw [serializeAll, hfirst, ok_bind, hrest, ok_bind]
    rfl

/-- Messages with one addressee are told apart by what their packets carry. -/
theorem eq_of_withPlayer_eq {player : Option PlayerRef} {xs ys : List Message}
    (hxs : ∀ m ∈ xs, m.player = player) (hys : ∀ m ∈ ys, m.player = player)
    (heq : xs.map (·.withPlayer none) = ys.map (·.withPlayer none)) : xs = ys := by
  have hrestore : ∀ zs : List Message, (∀ m ∈ zs, m.player = player) →
      (zs.map (·.withPlayer none)).map (·.withPlayer player) = zs := by
    intro zs hzs
    have hsame : ∀ m ∈ zs, ((·.withPlayer player) ∘ (·.withPlayer none)) m = id m := by
      intro m hm
      rw [← hzs m hm]
      rfl
    rw [List.map_map, List.map_congr_left hsame, List.map_id]
  rw [← hrestore xs hxs, ← hrestore ys hys, heq]

/-- Equal streams come from messages that differ at most in their addressees. -/
theorem map_withPlayer_eq_of_serializeAll_eq {xs ys : List Message} {stream : ByteString}
    (hxs : ∀ m ∈ xs, m.WellFormed) (hys : ∀ m ∈ ys, m.WellFormed)
    (hx : serializeAll xs = .ok stream) (hy : serializeAll ys = .ok stream) :
    xs.map (·.withPlayer none) = ys.map (·.withPlayer none) := by
  rw [serializeAll_eq hxs] at hx
  rw [serializeAll_eq hys] at hy
  have hflat : xs.flatMap Message.packet = ys.flatMap Message.packet :=
    (Except.ok.inj hx).trans (Except.ok.inj hy).symm
  apply map_eq_of_flatMap_eq packets_uniquelyDecodable _ hxs hys hflat
  intro m hm m' hm' heq
  exact packet_injective hm hm' heq

/-- A packet that begins another one is that packet and carries the same message. -/
theorem withPlayer_eq_of_prefix {m m' : Message} {packet packet' : ByteString} {size size' : ℕ}
    (h : m.WellFormed) (h' : m'.WellFormed) (hpacket : serialize m = .ok (packet, size))
    (hpacket' : serialize m' = .ok (packet', size')) (hpre : packet <+: packet') :
    packet = packet' ∧ m.withPlayer none = m'.withPlayer none := by
  have hcode : ∀ {n : Message} {bytes : ByteString} {length : ℕ}, n.WellFormed →
      serialize n = .ok (bytes, length) → n.packet = bytes := by
    intro n bytes length hn hbytes
    have hserialize : serialize n = .ok (n.packet, n.packet.length) := serialize_eq hn
    rw [hserialize] at hbytes
    exact (Prod.mk.inj (Except.ok.inj hbytes)).1
  obtain rfl := hcode h hpacket
  obtain rfl := hcode h' hpacket'
  have heq : m.packet = m'.packet :=
    packets_selfDelimiting.prefixFree _ ⟨m, h, rfl⟩ _ ⟨m', h', rfl⟩ hpre
  exact ⟨heq, packet_injective h h' heq⟩

/-- **Unique decoding** of the bytes written to one connection. Lists of well formed messages
    with equal streams carry the same headers, formats and payloads, so they are equal when they
    go to one player; and no packet is a proper beginning of another one, or the packet of
    another message. -/
theorem outgoing_stream_decodes_uniquely :
    (∀ (xs ys : List Message) (stream : ByteString), (∀ m ∈ xs, m.WellFormed) →
      (∀ m ∈ ys, m.WellFormed) → serializeAll xs = .ok stream → serializeAll ys = .ok stream →
      xs.map (·.withPlayer none) = ys.map (·.withPlayer none) ∧
        ∀ player, (∀ m ∈ xs, m.player = player) → (∀ m ∈ ys, m.player = player) → xs = ys) ∧
    (∀ (m m' : Message) (packet packet' : ByteString) (size size' : ℕ), m.WellFormed →
      m'.WellFormed → serialize m = .ok (packet, size) → serialize m' = .ok (packet', size') →
      packet <+: packet' → packet = packet' ∧ m.withPlayer none = m'.withPlayer none) := by
  constructor
  · intro xs ys stream hxs hys hx hy
    have hmap := map_withPlayer_eq_of_serializeAll_eq hxs hys hx hy
    refine ⟨hmap, ?_⟩
    intro player hpx hpy
    exact eq_of_withPlayer_eq hpx hpy hmap
  · intro m m' packet packet' size size' h h' hpacket hpacket' hpre
    exact withPlayer_eq_of_prefix h h' hpacket hpacket' hpre

/-- An acknowledgement and a request of `A`, for the given player. -/
def ackAndRequest (p : PlayerRef) : List Message :=
  [⟨H_S_ACK, [], [], some p⟩, ⟨H_S_JOIN_PLAYER, ['s'], [.str [65]], some p⟩]

theorem wellFormed_ackAndRequest (p : PlayerRef) : ∀ m ∈ ackAndRequest p, m.WellFormed := by
  intro m hm
  simp only [ackAndRequest, List.mem_cons, List.not_mem_nil, or_false] at hm
  rcases hm with rfl | rfl
  · exact ⟨rfl, .nil, (by decide +kernel : (packetOf H_S_ACK []).length < 2 ^ 31)⟩
  · exact ⟨rfl, .cons rfl .nil,
      (by decide +kernel : (packetOf H_S_JOIN_PLAYER [.str [65]]).length < 2 ^ 31)⟩

/-- The streams of two players who are told the same are equal, and say the same. -/
theorem outgoing_stream_decodes_uniquely_told :
    (serializeAll (ackAndRequest 0)).toOption.map List.length = some 23 ∧
      (ackAndRequest 0).map (·.withPlayer none) = (ackAndRequest 1).map (·.withPlayer none) := by
  have hlength : (serializeAll (ackAndRequest 0)).toOption.map List.length = some 23 := by
    decide +kernel
  obtain ⟨stream, hstream, -⟩ := Option.map_eq_some_iff.mp hlength
  have hfirst : serializeAll (ackAndRequest 0) = .ok stream := toOption_eq_some_iff.mp hstream
  have hsecond : serializeAll (ackAndRequest 1) = .ok stream := hfirst
  exact ⟨hlength, (outgoing_stream_decodes_uniquely.1 (ackAndRequest 0) (ackAndRequest 1) stream
    (wellFormed_ackAndRequest 0) (wellFormed_ackAndRequest 1) hfirst hsecond).1⟩

end UpsServer
