import UpsServer.Game.Player

/-!
# Messages

Headers, the untyped payload of a `Message` and its accessors. A payload entry is a `void *`
in the source; here it carries the kind it was stored with, and a cast to the other kind is a
fault.
-/

namespace UpsServer

open Framework

/-! ## Headers -/

def H_C_NACK : UInt32 := 0x00000000
def H_C_ACK : UInt32 := 0x00000001
def H_C_PING : UInt32 := 0x00000002

def H_S_NACK : UInt32 := 0x00010000
def H_S_ACK : UInt32 := 0x00010001
def H_S_PING : UInt32 := 0x00010002

def H_C_NEW_PL : UInt32 := 0x00000003
def H_C_PL_RECONN : UInt32 := 0x00000004
def H_C_PL_LOGOUT : UInt32 := 0x00000005

def H_C_PL_LIST_REQ : UInt32 := 0x00000006
def H_S_PL_LIST_ANS : UInt32 := 0x00010007

def H_S_NACK_REAS : UInt32 := 0x00010008

def H_C_JOIN_PLAYER : UInt32 := 0x00000009

def H_S_JOIN_PLAYER : UInt32 := 0x0001000A

def H_C_DECLIN_JOIN : UInt32 := 0x0000000B
def H_C_ACCEPT_JOIN : UInt32 := 0x0000000C

def H_S_GAME_START : UInt32 := 0x0001000D

def H_C_GAME_MOVE : UInt32 := 0x0000000E
def H_S_GAME_MOVE : UInt32 := 0x0001000F

def H_S_GAME_WON : UInt32 := 0x00010010

def H_S_GAME_ENDED : UInt32 := 0x00010011

def H_S_PL_LOSS : UInt32 := 0x00010012

def H_S_GAME_CON : UInt32 := 0x00010013

def INTERNAL_PL_LOST : UInt32 := 0x00011111

/-! ## Faults of the codec -/

/-- What goes wrong inside `Serializer` and the payload accessors. -/
inductive CodecFault where
  /-- A read outside the received buffer. -/
  | readOutside (index : Int)
  /-- A write outside the packet being built. -/
  | writeOutside (index : Int)
  /-- `payload->at(i)` past the end. -/
  | payloadRange (i : Nat)
  /-- A payload entry cast to the kind it was not stored with. -/
  | payloadKind (i : Nat)
  /-- A packet size that `int` does not hold. -/
  | sizeOverflow (size : Int)
  deriving DecidableEq, Repr

/-! ## The message object -/

/-- What a payload entry points to: a `uint32_t` or a `std::string`. -/
inductive Datum where
  | int (value : UInt32)
  | str (value : ByteString)
  deriving DecidableEq, Repr

/-- `class Message`. The constructor leaves `player` unset. -/
structure Message where
  header : UInt32
  msgFormat : List Char
  payload : List Datum
  player : Option PlayerRef
  deriving DecidableEq, Repr

namespace Message

/-- `Message::Message(header, format)`. -/
def new (header : UInt32) (format : List Char) : Message := ⟨header, format, [], none⟩

/-- `Message::addData`. A full payload is only logged. -/
def addData (m : Message) (data : Datum) : Message := { m with payload := m.payload ++ [data] }

/-- `*(std::string *) payload->at(i)`. -/
def stringAt (m : Message) (i : Nat) : Except CodecFault ByteString :=
  match m.payload[i]? with
  | some (.str value) => .ok value
  | some (.int _) => .error (.payloadKind i)
  | none => .error (.payloadRange i)

/-- `*(uint32_t *) payload->at(i)`. -/
def intAt (m : Message) (i : Nat) : Except CodecFault UInt32 :=
  match m.payload[i]? with
  | some (.int value) => .ok value
  | some (.str _) => .error (.payloadKind i)
  | none => .error (.payloadRange i)

/-- The same message addressed to, or sent by, a player. -/
def withPlayer (m : Message) (player : Option PlayerRef) : Message := { m with player := player }

end Message

end UpsServer
