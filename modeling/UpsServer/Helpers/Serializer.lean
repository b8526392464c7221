import UpsServer.Datatypes.Message
import UpsServer.Framework.Fallible

/-!
# The serializer

`Serializer::serialize` and `Serializer::deserialize` with their helpers. A packet is a header
word, a size word, the payload fields in the order of the header's format and one checksum
byte. `deserialize` gets only the data pointer of a received packet; every read is checked
against the packet's real length and a read outside is a fault.
-/

namespace UpsServer

open Framework

/-! ## Formats -/

/-- `fillMapWithValues`: the payload format of every header, `i` for an integer and `s` for a
    string. -/
def headToFormatTable : List (UInt32 × List Char) :=
  [(H_C_NACK, []), (H_C_ACK, []), (H_C_PING, []),
   (H_S_NACK, []), (H_S_ACK, []), (H_S_PING, []),
   (H_C_NEW_PL, ['s']), (H_C_PL_RECONN, ['s']), (H_C_PL_LOGOUT, []),
   (H_C_PL_LIST_REQ, []), (H_S_PL_LIST_ANS, ['i', 's']),
   (H_S_NACK_REAS, ['s']),
   (H_C_JOIN_PLAYER, ['s']),
   (H_S_JOIN_PLAYER, ['s']),
   (H_C_DECLIN_JOIN, []), (H_C_ACCEPT_JOIN, []),
   (H_S_GAME_START, ['s', 's']),
   (H_C_GAME_MOVE, ['i', 'i', 'i']), (H_S_GAME_MOVE, ['i', 'i', 'i']),
   (H_S_GAME_WON, ['s', 'i', 'i', 'i']),
   (H_S_GAME_ENDED, []),
   (H_S_PL_LOSS, []),
   (H_S_GAME_CON, ['s', 's', 's'])]

/-- `headToFormatMap->find(header)`. -/
def headToFormatMap (header : UInt32) : Option (List Char) := headToFormatTable.lookup header

/-- `(*headToFormatMap)[header]`, the empty format for a header that is not there. -/
def formatOf (header : UInt32) : List Char := (headToFormatMap header).getD []

/-- A `uint32_t` or `size_t` value stored into an `int`. -/
def asInt (value : Int) : Int := Int.bmod value (2 ^ 32)

namespace Serializer

/-! ## Encoding -/

/-- `Serializer::copy32intToPlace` on a little-endian host. -/
def copy32intToPlace (target : ByteString) (data : UInt32) (startIndex : Int) :
    Except CodecFault ByteString :=
  writeBytes .writeOutside target startIndex (wordBytes data)

/-- `Serializer::prepareEmptyPacket`. An allocation size beyond `INT_MAX` is a fault. -/
def prepareEmptyPacket (header : UInt32) (dataSize : Nat) : Except CodecFault ByteString := do
  let messageSize := 4 + 4 + dataSize + 1
  if 2 ^ 31 ≤ messageSize then
    throw (.sizeOverflow messageSize)
  let result := List.replicate messageSize 0
  let result ← copy32intToPlace result header 0
  copy32intToPlace result (UInt32.ofNat messageSize) 4

/-- `Serializer::getMessageSizeByPayload`, the loop over the format from entry `i` on. -/
def messageSizeLoop (msg : Message) : List Char → Nat → Nat → Except CodecFault Nat
  | [], _, resultSize => return resultSize
  | f :: format, i, resultSize => do
    match f with
    | 'i' => messageSizeLoop msg format (i + 1) (resultSize + 4)
    | 's' =>
      let value ← msg.stringAt i
      messageSizeLoop msg format (i + 1) (resultSize + 4 + value.length)
    | _ => messageSizeLoop msg format (i + 1) resultSize

/-- `Serializer::getMessageSizeByPayload`. -/
def getMessageSizeByPayload (msg : Message) : Except CodecFault Nat :=
  messageSizeLoop msg msg.msgFormat 0 0

/-- `Serializer::putDataToMessage`, the loop over the format from entry `i` on. -/
def putDataLoop (msg : Message) : List Char → Nat → ByteString → Int →
    Except CodecFault ByteString
  | [], _, target, _ => return target
  | f :: format, i, target, index => do
    match f with
    | 'i' =>
      let intPayload ← msg.intAt i
      let target ← copy32intToPlace target intPayload index
      putDataLoop msg format (i + 1) target (index + 4)
    | 's' =>
      let stringPayload ← msg.stringAt i
      let target ← copy32intToPlace target (UInt32.ofNat stringPayload.length) index
      let target ← writeBytes .writeOutside target (index + 4) stringPayload
      putDataLoop msg format (i + 1) target (index + 4 + stringPayload.length)
    | _ => putDataLoop msg format (i + 1) target index

/-- `Serializer::putDataToMessage`. -/
def putDataToMessage (target : ByteString) (msg : Message) : Except CodecFault ByteString :=
  putDataLoop msg msg.msgFormat 0 target 8

/-- The running checksum of `Serializer::countAndPlaceChecksum`, a `uint8_t`. -/
def checkSumOf (bytes : ByteString) : UInt8 :=
  bytes.foldl (fun checkSum b => (checkSum + b) % 128) 0

/-- `Serializer::countAndPlaceChecksum`. -/
def countAndPlaceChecksum (target : ByteString) (size : Nat) : Except CodecFault ByteString :=
  writeAt .writeOutside target (size - 1) (checkSumOf (target.take (size - 1)))

/-- `Serializer::serialize`: the packet and its size. -/
def serialize (msg : Message) : Except CodecFault (ByteString × Nat) := do
  if msg.msgFormat = [] then
    let result ← prepareEmptyPacket msg.header 0
    let result ← countAndPlaceChecksum result 9
    return (result, 9)
  else
    let payloadSize ← getMessageSizeByPayload msg
    let result ← prepareEmptyPacket msg.header payloadSize
    let result ← putDataToMessage result msg
    let result ← countAndPlaceChecksum result (9 + payloadSize)
    return (result, 9 + payloadSize)

/-! ## Decoding -/

/-- `Serializer::parse32intFromArray`. -/
def parse32intFromArray (source : ByteString) (index : Int) : Except CodecFault UInt32 := do
  let b₀ ← readAt .readOutside source index
  let b₁ ← readAt .readOutside source (index + 1)
  let b₂ ← readAt .readOutside source (index + 2)
  let b₃ ← readAt .readOutside source (index + 3)
  return wordOfBytes b₀ b₁ b₂ b₃

/-- `Serializer::getStringFromMessage`. A negative `size` reads nothing. -/
def getStringFromMessage (source : ByteString) (size index : Int) :
    Except CodecFault ByteString :=
  readBytes .readOutside source index size.toNat

/-- The loop of `Serializer::deserialize` over the rest of the format. The string length is
    passed on as an `int`, and `index += stringLength` is computed in `uint32_t`. -/
def deserializeLoop (data : ByteString) : List Char → Int → Message → Except CodecFault Message
  | [], _, message => return message
  | c :: format, index, message => do
    match c with
    | 'i' =>
      let intPayload ← parse32intFromArray data index
      deserializeLoop data format (index + 4) (message.addData (.int intPayload))
    | 's' =>
      let stringLength ← parse32intFromArray data index
      let stringPayload ← getStringFromMessage data (asInt stringLength.toNat) (index + 4)
      deserializeLoop data format (asInt (index + 4 + stringLength.toNat))
        (message.addData (.str stringPayload))
    | _ => deserializeLoop data format index message

/-- `Serializer::deserialize`; `none` is the null pointer returned for an unknown header. The
    size word is read and not used. -/
def deserialize (data : ByteString) : Except CodecFault (Option Message) := do
  let header ← parse32intFromArray data 0
  let _size ← parse32intFromArray data 4
  match headToFormatMap header with
  | none => return none
  | some format =>
    let message ← deserializeLoop data format 8 (Message.new header format)
    return some message

/-! ## What a decoded message looks like -/

/-- The loop only adds payload entries. -/
theorem deserializeLoop_keeps {data : ByteString} {format : List Char} {index : Int}
    {message result : Message} (h : deserializeLoop data format index message = .ok result) :
    result.header = message.header ∧ result.player = message.player := by
  induction format generalizing index message with
  | nil =>
    cases h
    exact ⟨rfl, rfl⟩
  | cons c format ih =>
    -- `addData` changes neither the header nor the player
    unfold deserializeLoop at h
    split at h
    · obtain ⟨_, _, h⟩ := bind_eq_ok_iff.mp h
      have hkeep := ih h
      exact hkeep
    · obtain ⟨_, _, h⟩ := bind_eq_ok_iff.mp h
      obtain ⟨_, _, h⟩ := bind_eq_ok_iff.mp h
      have hkeep := ih h
      exact hkeep
    · exact ih h

/-- A decoded message has a header of the table and no player yet. -/
theorem deserialize_eq_ok_some {data : ByteString} {message : Message}
    (h : deserialize data = .ok (some message)) :
    (∃ format, headToFormatMap message.header = some format) ∧ message.player = none := by
  unfold deserialize at h
  obtain ⟨header, _, h⟩ := bind_eq_ok_iff.mp h
  obtain ⟨_, _, h⟩ := bind_eq_ok_iff.mp h
  cases hformat : headToFormatMap header with
  | none => simp [hformat] at h
  | some format =>
    simp only [hformat] at h
    obtain ⟨result, hresult, h⟩ := bind_eq_ok_iff.mp h
    obtain rfl : result = message := Option.some.inj (Except.ok.inj h)
    obtain ⟨hheader, hplayer⟩ := deserializeLoop_keeps hresult
    exact ⟨⟨format, by rw [hheader]; exact hformat⟩, hplayer⟩

/-- No packet decodes to the server's own command. -/
theorem deserialize_ne_internal {data : ByteString} {message : Message}
    (h : deserialize data = .ok (some message)) : message.header ≠ INTERNAL_PL_LOST := by
  obtain ⟨⟨format, hformat⟩, _⟩ := deserialize_eq_ok_some h
  -- the table has no entry for it
  intro hinternal
  rw [hinternal] at hformat
  cases hformat

end Serializer

end UpsServer
