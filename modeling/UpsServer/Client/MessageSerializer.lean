import UpsServer.Client.DataSerializer

/-!
# `MessageSerializer`

A packet is the header, the size of the packet, the payload and one byte that makes the sum of
all bytes vanish modulo 128. The receiver checks the size and the sum before it looks at the
header.
-/

namespace UpsServer.Client

open Framework

namespace MessageSerializer

/-! ## Checking -/

/-- The loops over an array in `MessageSerializer.checkChecksum` and
    `MessageSerializer.countCheckSum`. Every sum is less than 256 away from zero. -/
def addBytes (sum : Int) (bytes : Bytes) : Int :=
  bytes.foldl (fun sum b => (sum + b.toInt).tmod 128) sum

/-- `MessageSerializer.checkMinimalSize`. -/
def checkMinimalSize (bytes : Bytes) : Except Thrown Unit :=
  if bytes.length < 2 * 4 + 1 then .error .tooShort else .ok ()

/-- `MessageSerializer.checkTotalSize`. -/
def checkTotalSize (bytes : Bytes) : Except Thrown Unit := do
  let lenBytes ← copyOfRange bytes 4 (4 + 4)
  let declaredSize ← DataSerializer.bytesToInt lenBytes
  if (bytes.length : Int) ≠ declaredSize.toInt then .error .badLength else .ok ()

/-- `MessageSerializer.checkChecksum`. -/
def checkChecksum (bytes : Bytes) : Except Thrown Unit :=
  if addBytes 0 bytes ≠ 0 then .error .badCheckSum else .ok ()

/-- `MessageSerializer.checkMessage`. -/
def checkMessage (bytes : Bytes) : Except Thrown Unit := do
  checkMinimalSize bytes
  checkTotalSize bytes
  checkChecksum bytes

/-! ## Reading -/

/-- `MessageSerializer.initMessage`. -/
def initMessage (bytes : Bytes) : Except Thrown Message := do
  let headerId ← DataSerializer.bytesToInt (← copyOfRange bytes 0 (0 + 4))
  let message : Message := { rawType := headerId }
  let checksum ←
    match bytes.getLast? with
    | some b => Except.ok b
    | none => Except.error Thrown.arrayIndexOutOfBounds
  let message := { message with checksum := checksum, length := Int32.ofNat bytes.length }
  let rawPayloads ← copyOfRange bytes 8 (Int32.ofNat bytes.length - 1)
  return { message with rawPayloads := some rawPayloads }

/-- The map `types` of header numbers. -/
def types : List (Int32 × MessageType) :=
  MessageType.values.map fun type => (type.headerId, type)

/-- `MessageSerializer.deserializeMessage`: the message it leaves. -/
def deserializeMessage (message : Message) : Except Thrown Message :=
  match types.lookup message.rawType with
  | none => .error .badHeader
  | some type =>
    let message := { message with type := some type }
    match type.payloadTypes with
    | none | some [] => .ok message
    | some classes =>
      match message.rawPayloads with
      | none => .error .nullPointer
      | some rawPayloads => do
        let payload ← DataSerializer.bytesToPayload classes rawPayloads
        return { message with payload := payload }

/-! ## Writing -/

/-- `MessageSerializer.countCheckSum`. -/
def countCheckSum (header len payload : Bytes) : Int8 :=
  let sum := addBytes (addBytes (addBytes 0 header) len) payload
  Int8.ofInt (128 - sum.tmod 128)

/-- `MessageSerializer.serializeMessage`. -/
def serializeMessage (message : Message) : Except Thrown Bytes :=
  match message.type with
  | none => .error .nullPointer
  | some type => do
    let payloadBytes ← DataSerializer.payloadToBytes type.payloadTypes message.payload
    let len := Int32.ofNat (4 * 2 + 1 + payloadBytes.length)
    let header := DataSerializer.intToBytes type.headerId
    let lenBytes := DataSerializer.intToBytes len
    return header ++ lenBytes ++ payloadBytes ++ [countCheckSum header lenBytes payloadBytes]

end MessageSerializer

end UpsServer.Client
