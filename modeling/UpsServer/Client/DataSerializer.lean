import UpsServer.Client.Message
import UpsServer.Framework.Fallible

/-!
# `DataSerializer`

Integers and payloads as bytes and back. An integer is sent in four bytes of which only the last
one is filled, and only that one is read. A payload is read with a pointer that is advanced by
what the fields announce; the one check of the pointer stands behind the loop.
-/

namespace UpsServer.Client

open Framework

/-- `Arrays.copyOfRange`: zero bytes stand for what lies beyond the end of the array. -/
def copyOfRange (original : Bytes) (start stop : Int32) : Except Thrown Bytes :=
  if stop.toInt < start.toInt then .error .illegalArgument
  else if start.toInt < 0 ∨ (original.length : Int) < start.toInt then
    .error .arrayIndexOutOfBounds
  else
    let newLength := (stop.toInt - start.toInt).toNat
    let copied := (original.drop start.toInt.toNat).take newLength
    .ok (copied ++ List.replicate (newLength - copied.length) 0)

namespace DataSerializer

/-- `DataSerializer.bytesToInt`: the last byte with its sign. -/
def bytesToInt (bytes : Bytes) : Except Thrown Int32 :=
  match bytes[3]? with
  | some b => .ok b.toInt32
  | none => .error .arrayIndexOutOfBounds

/-- `DataSerializer.intToBytes`. -/
def intToBytes (value : Int32) : Bytes := [0, 0, 0, value.toInt8]

/-- The loop of `DataSerializer.bytesToPayload` over the classes, with the final check. -/
def bytesToPayloadLoop (bytes : Bytes) :
    List PayloadClass → Int32 → List Value → Except Thrown (List Value)
  | [], pointer, list =>
    if pointer.toInt ≠ bytes.length then .error .badPayloadLength else .ok list
  | .integer :: classes, pointer, list => do
    let value ← bytesToInt (← copyOfRange bytes pointer (pointer + 4))
    bytesToPayloadLoop bytes classes (pointer + 4) (list ++ [.integer value])
  | .string :: classes, pointer, list => do
    let len ← bytesToInt (← copyOfRange bytes pointer (pointer + 4))
    let pointer := pointer + 4
    let chars ← copyOfRange bytes pointer (pointer + len)
    bytesToPayloadLoop bytes classes (pointer + len) (list ++ [.string (bytesToString chars)])

/-- The clause `catch (IndexOutOfBoundsException e)`. -/
def catchIndexOutOfBounds : Thrown → Thrown
  | .arrayIndexOutOfBounds => .badPayloadLength
  | thrown => thrown

/-- `DataSerializer.bytesToPayload`. -/
def bytesToPayload (classes : List PayloadClass) (bytes : Bytes) : Except Thrown (List Value) :=
  (bytesToPayloadLoop bytes classes 0 []).mapError catchIndexOutOfBounds

/-- The loop of `DataSerializer.payloadToBytes`; `byteBuilder` holds what is written. -/
def payloadToBytesLoop : List PayloadClass → List Value → Bytes → Except Thrown Bytes
  | [], _, byteBuilder => .ok byteBuilder
  | _ :: _, [], _ => .error .arrayIndexOutOfBounds
  | c :: classes, value :: payload, byteBuilder =>
    if c ≠ value.getClass then .error .badPayloadType
    else
      match value with
      | .string value =>
        payloadToBytesLoop classes payload (byteBuilder
          ++ intToBytes (Int32.ofNat (stringLength value)) ++ stringToBytes value)
      | .integer value => payloadToBytesLoop classes payload (byteBuilder ++ intToBytes value)

/-- `DataSerializer.payloadToBytes`; the classes may be null. -/
def payloadToBytes : Option (List PayloadClass) → List Value → Except Thrown Bytes
  | none, _ => .ok []
  | some classes, payload =>
    if classes.length ≠ payload.length then .error .badPayloadLength
    else payloadToBytesLoop classes payload []

end DataSerializer

end UpsServer.Client
