import UpsServer.Framework.Utf8
import Mathlib.Logic.Basic

/-!
# The messages of the client

The data of the Java client's codec: byte arrays, payload values and their classes, the message
types of the client and `Message` itself. A Java `byte` is signed. A `String` is a sequence of
Unicode characters; it counts UTF-16 code units and its bytes are UTF-8, the default charset.
-/

namespace UpsServer.Client

open Framework

/-- A `byte[]`. -/
abbrev Bytes := List Int8

/-- What the codec may throw: the six exceptions of `networking.errors` and the ones of the Java
    library. -/
inductive Thrown where
  | tooShort
  | badLength
  | badCheckSum
  | badHeader
  | badPayloadLength
  | badPayloadType
  | arrayIndexOutOfBounds
  | illegalArgument
  | nullPointer
  deriving DecidableEq

/-! ## Payload values -/

/-- `Integer.class` and `String.class`. -/
inductive PayloadClass where
  | integer
  | string
  deriving DecidableEq

/-- An entry of a payload. -/
inductive Value where
  | integer (value : Int32)
  | string (value : String)
  deriving DecidableEq

/-- `getClass`. -/
def Value.getClass : Value → PayloadClass
  | .integer _ => .integer
  | .string _ => .string

/-- `String.length`: the number of UTF-16 code units. -/
def stringLength (value : String) : Nat := Utf8.utf16Length value.toList

/-- `DataSerializer.stringToBytes`, that is `String.getBytes`. -/
def stringToBytes (value : String) : Bytes := (Utf8.encode value.toList).map UInt8.toInt8

/-- `DataSerializer.bytesToString`, that is `new String(bytes)`. -/
def bytesToString (bytes : Bytes) : String :=
  String.ofList (Utf8.decode (bytes.map Int8.toUInt8))

/-! ## Message types -/

/-- `MessageType`. -/
inductive MessageType where
  | PARSING_TEST0
  | PARSING_TEST1
  | PARSING_TEST2
  | PARSING_TEST3
  | PARSING_TEST4
  | PARSING_TEST5
  deriving DecidableEq

/-- The field `headerId`. -/
def MessageType.headerId : MessageType → Int32
  | .PARSING_TEST0 => 1
  | .PARSING_TEST1 => 101
  | .PARSING_TEST2 => 102
  | .PARSING_TEST3 => 103
  | .PARSING_TEST4 => 104
  | .PARSING_TEST5 => 105

/-- The field `payloadTypes`, which may be null. -/
def MessageType.payloadTypes : MessageType → Option (List PayloadClass)
  | .PARSING_TEST0 => none
  | .PARSING_TEST1 => some [.integer]
  | .PARSING_TEST2 => some [.integer, .integer]
  | .PARSING_TEST3 => some [.string]
  | .PARSING_TEST4 => some [.string, .string]
  | .PARSING_TEST5 => some [.string, .integer]

/-- `MessageType.values`. -/
def MessageType.values : List MessageType :=
  [.PARSING_TEST0, .PARSING_TEST1, .PARSING_TEST2, .PARSING_TEST3, .PARSING_TEST4,
    .PARSING_TEST5]

/-- No two types have the same header number. -/
theorem MessageType.headerId_injective {type type' : MessageType}
    (h : type.headerId = type'.headerId) : type = type' := by
  revert h
  cases type <;> cases type' <;> decide

/-! ## Messages -/

/-- `Message`, with what a new one holds. -/
structure Message where
  type : Option MessageType := none
  rawType : Int32 := 0
  length : Int32 := 0
  payload : List Value := []
  checksum : Int8 := 0
  rawPayloads : Option Bytes := none

end UpsServer.Client
