import UpsServer.Helpers.RoundTrip
import UpsServer.Framework.RunningSums

/-!
# The layout of a packet

Where `serialize` puts what. The size of the payload, the size of the buffer and the places of the
fields are computed by three functions of their own; the fields fill the packet between the two
words and the checksum without a gap. The checksum is the sum of the bytes before it modulo 128,
although it is added up in a `uint8_t`.
-/

namespace UpsServer

open Framework

/-! ## Byte sums -/

/-- The sum of the bytes. -/
def byteSum (bytes : ByteString) : Nat := (bytes.map UInt8.toNat).sum

@[simp] theorem byteSum_append (bytes bytes' : ByteString) :
    byteSum (bytes ++ bytes') = byteSum bytes + byteSum bytes' := by
  rw [byteSum, List.map_append, List.sum_append]
  rfl

/-- The checksum of the server is the sum modulo 128. -/
theorem Serializer.toNat_checkSumOf (bytes : ByteString) :
    (checkSumOf bytes).toNat = byteSum bytes % 128 := by
  have hsum : (wrappedSum 128 0 bytes).toNat = (0 + byteSum bytes) % 128 :=
    toNat_wrappedSum (by decide) (by decide) bytes
  rw [Nat.zero_add] at hsum
  exact hsum

/-! ## Sizes and places -/

/-- The bytes a field takes in a packet. -/
def Datum.size : Datum → Nat
  | .int _ => 4
  | .str value => 4 + value.length

/-- The sum of the sizes of the fields. -/
def payloadSize (payload : List Datum) : Nat := (payload.map Datum.size).sum

/-- `count` bytes of the packet from `index` on. -/
def bytesAt (packet : ByteString) (index count : Nat) : ByteString :=
  (packet.drop index).take count

theorem bytesAt_append (before part rest : ByteString) :
    bytesAt (before ++ (part ++ rest)) before.length part.length = part := by
  rw [bytesAt, List.drop_left, List.take_left]

theorem Datum.length_encode (datum : Datum) : datum.encode.length = datum.size := by
  cases datum with
  | int value => rfl
  | str value => rw [Datum.encode, List.length_append, length_wordBytes, Datum.size]

theorem length_encodePayload (payload : List Datum) :
    (encodePayload payload).length = payloadSize payload := by
  rw [encodePayload, List.length_flatMap, payloadSize]
  congr 2
  exact funext Datum.length_encode

/-- The parts of a packet: the header word, the word with the packet's size, every field behind the
    fields before it, and the checksum behind the last one. -/
structure PacketLayout (header : UInt32) (payload : List Datum) (packet : ByteString) : Prop where
  length_eq : packet.length = 8 + payloadSize payload + 1
  header_word : bytesAt packet 0 4 = wordBytes header
  size_word : bytesAt packet 4 4 = wordBytes (UInt32.ofNat packet.length)
  field : ∀ before datum after, payload = before ++ datum :: after →
    bytesAt packet (8 + payloadSize before) datum.size = datum.encode
  checksum : ∃ checkSum, packet[8 + payloadSize payload]? = some checkSum ∧
    checkSum.toNat = byteSum (packet.take (8 + payloadSize payload)) % 128

/-- A packet begins with its header. -/
theorem bytesAt_header (header : UInt32) (payload : List Datum) :
    bytesAt (packetOf header payload) 0 4 = wordBytes header := by
  have hfront := bytesAt_append [] (wordBytes header)
    ((wordBytes (UInt32.ofNat (9 + (encodePayload payload).length)) ++ encodePayload payload) ++
      [Serializer.checkSumOf (packetBody header payload)])
  rw [packetOf, packetBody, List.append_assoc]
  exact hfront

/-- The second word is the size. -/
theorem bytesAt_size (header : UInt32) (payload : List Datum) :
    bytesAt (packetOf header payload) 4 4
      = wordBytes (UInt32.ofNat (packetOf header payload).length) := by
  have hmiddle := bytesAt_append (wordBytes header)
    (wordBytes (UInt32.ofNat (9 + (encodePayload payload).length)))
    (encodePayload payload ++ [Serializer.checkSumOf (packetBody header payload)])
  rw [length_packetOf, packetOf, packetBody, List.append_assoc, List.append_assoc]
  exact hmiddle

/-- A field stands behind the fields before it. -/
theorem bytesAt_field (header : UInt32) (before after : List Datum) (datum : Datum) :
    bytesAt (packetOf header (before ++ datum :: after)) (8 + payloadSize before) datum.size
      = datum.encode := by
  have hsplit : packetOf header (before ++ datum :: after)
      = (wordBytes header ++
          wordBytes (UInt32.ofNat (9 + (encodePayload (before ++ datum :: after)).length)) ++
          encodePayload before) ++
        (datum.encode ++ (encodePayload after ++
          [Serializer.checkSumOf (packetBody header (before ++ datum :: after))])) := by
    rw [packetOf, packetBody]
    simp [encodePayload]
  have hplace : (wordBytes header ++
      wordBytes (UInt32.ofNat (9 + (encodePayload (before ++ datum :: after)).length)) ++
      encodePayload before).length = 8 + payloadSize before := by
    rw [List.length_append, List.length_append, length_wordBytes, length_wordBytes,
      length_encodePayload]
  rw [hsplit, ← hplace, ← Datum.length_encode]
  exact bytesAt_append _ datum.encode _

/-- What `packetOf` puts together has the layout. -/
theorem packetLayout_packetOf (header : UInt32) (payload : List Datum) :
    PacketLayout header payload (packetOf header payload) := by
  have hbody : (packetBody header payload).length = 8 + payloadSize payload := by
    rw [length_packetBody, length_encodePayload]
  refine ⟨?_, bytesAt_header header payload, bytesAt_size header payload, ?_, ?_⟩
  · rw [length_packetOf, length_encodePayload]
    omega
  · intro before datum after hpayload
    subst hpayload
    exact bytesAt_field header before after datum
  · rw [← hbody, packetOf]
    refine ⟨_, List.getElem?_concat_length, ?_⟩
    rw [List.take_left]
    exact Serializer.toNat_checkSumOf _

namespace Serializer

/-- **Packet layout**: for a known header and a payload that matches its format `serialize` returns
    a packet of nine bytes and the sizes of the fields, in a buffer that was allocated with exactly
    this size, with everything in its place. No write goes outside: that would be a fault. -/
theorem serialize_layout (header : UInt32) (format : List Char) (payload : List Datum)
    (player : Option PlayerRef) (known : headToFormatMap header = some format)
    (hmatches : Matches payload format) (hfits : 9 + payloadSize payload < 2 ^ 31) :
    ∃ buffer packet,
      prepareEmptyPacket header (payloadSize payload) = .ok buffer ∧
      buffer.length = 9 + payloadSize payload ∧
      serialize ⟨header, format, payload, player⟩ = .ok (packet, 9 + payloadSize payload) ∧
      packet.length = 9 + payloadSize payload ∧ PacketLayout header payload packet := by
  have hlength : (packetOf header payload).length = 9 + payloadSize payload := by
    rw [length_packetOf, length_encodePayload]
  have hwell : Message.WellFormed ⟨header, format, payload, player⟩ := ⟨known, hmatches, by
    rw [hlength]
    exact hfits⟩
  refine ⟨_, packetOf header payload, prepareEmptyPacket_eq header hfits, ?_, ?_, hlength,
    packetLayout_packetOf header payload⟩
  · rw [List.length_append, List.length_append, length_wordBytes, length_wordBytes,
      List.length_replicate]
    omega
  · rw [serialize_eq hwell, hlength]

/-- The answer to a request for the list of players. -/
theorem serialize_layout_list :
    ∃ buffer packet,
      prepareEmptyPacket H_S_PL_LIST_ANS 11 = .ok buffer ∧ buffer.length = 20 ∧
      serialize ⟨H_S_PL_LIST_ANS, ['i', 's'], [.int 2, .str [65, 59, 66]], none⟩
        = .ok (packet, 20) ∧
      packet.length = 20 ∧ PacketLayout H_S_PL_LIST_ANS [.int 2, .str [65, 59, 66]] packet :=
  serialize_layout H_S_PL_LIST_ANS ['i', 's'] [.int 2, .str [65, 59, 66]] none rfl
    (.cons rfl (.cons rfl .nil)) (by decide)

end Serializer

end UpsServer
