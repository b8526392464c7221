import Mathlib.Data.List.Basic

/-!
# UTF-8 with replacement of malformed input

Characters as UTF-8 bytes and back. The decoder is total: where no character starts, the bytes
that could have begun one are read as the replacement character. So decoding loses nothing of
the length: encoding the result takes at least as many bytes as were decoded.
-/

namespace UpsServer.Framework.Utf8

/-! ## Encoding -/

/-- The UTF-8 bytes of the characters. -/
def encode (chars : List Char) : List UInt8 := chars.flatMap String.utf8EncodeChar

/-- The number of UTF-16 code units of the characters. -/
def utf16Length : List Char → Nat
  | [] => 0
  | c :: chars => (if c.utf8Size = 4 then 2 else 1) + utf16Length chars

@[simp] theorem encode_nil : encode [] = [] := rfl

@[simp] theorem encode_cons (c : Char) (chars : List Char) :
    encode (c :: chars) = String.utf8EncodeChar c ++ encode chars := rfl

theorem length_encode_cons (c : Char) (chars : List Char) :
    (encode (c :: chars)).length = c.utf8Size + (encode chars).length := by
  rw [encode_cons, List.length_append, String.length_utf8EncodeChar]

/-- No character takes more code units than bytes. -/
theorem utf16Length_le_length_encode (chars : List Char) :
    utf16Length chars ≤ (encode chars).length := by
  induction chars with
  | nil => exact Nat.le_refl 0
  | cons c chars ih =>
    have hpos := c.utf8Size_pos
    rw [length_encode_cons, utf16Length]
    split <;> omega

/-- The two lengths agree only when every character is a single byte. -/
theorem utf16Length_eq_length_encode_iff (chars : List Char) :
    utf16Length chars = (encode chars).length ↔ ∀ c ∈ chars, c.utf8Size = 1 := by
  induction chars with
  | nil => simp [utf16Length]
  | cons c chars ih =>
    have hpos := c.utf8Size_pos
    have hle := utf16Length_le_length_encode chars
    rw [length_encode_cons, utf16Length, List.forall_mem_cons, ← ih]
    split <;> omega

/-! ## One character -/

/-- The character that stands at the front of the bytes. -/
def decodeChar? (bytes : List UInt8) : Option Char := bytes.toByteArray.utf8DecodeChar? 0

theorem decodeChar?_append (c : Char) (rest : List UInt8) :
    decodeChar? (String.utf8EncodeChar c ++ rest) = some c := by
  rw [decodeChar?, List.toByteArray_append]
  exact ByteArray.utf8DecodeChar?_utf8EncodeChar_append

/-! ## Malformed input -/

/-- A byte `10xxxxxx`. -/
def isContinuation (b : UInt8) : Bool := b &&& 0xC0 == 0x80

/-- The second byte may follow the first in a sequence of three or four bytes: it is a
    continuation, the sequence is not overlong and its value not beyond the last character. -/
def secondFits (first second : UInt8) : Bool :=
  0xE0 ≤ first && first ≤ 0xF4 && isContinuation second
    && !(first == 0xE0 && second < 0xA0)
    && !(first == 0xF0 && second < 0x90)
    && !(first == 0xF4 && 0x90 ≤ second)

/-- Where no character starts with `first`, the number of bytes behind it that the same
    replacement character stands for. An encoded surrogate is replaced as a whole. -/
def malformedTail (first : UInt8) : List UInt8 → Nat
  | [] => 0
  | [second] => if secondFits first second then 1 else 0
  | second :: third :: _ =>
    if secondFits first second then
      if isContinuation third then 2 else 1
    else 0

theorem malformedTail_le_two (first : UInt8) (rest : List UInt8) :
    malformedTail first rest ≤ 2 := by
  unfold malformedTail
  split
  · omega
  · split <;> omega
  · split
    · split <;> omega
    · omega

/-- `U+FFFD`. -/
def replacement : Char := Char.ofNat 0xFFFD

/-! ## Decoding -/

/-- The characters of the bytes. -/
def decode : List UInt8 → List Char
  | [] => []
  | b :: rest =>
    match decodeChar? (b :: rest) with
    | some c => c :: decode (rest.drop (c.utf8Size - 1))
    | none => replacement :: decode (rest.drop (malformedTail b rest))
termination_by bytes => bytes.length
decreasing_by all_goals (rw [List.length_drop, List.length_cons]; omega)

@[simp] theorem decode_nil : decode [] = [] := by rw [decode]

theorem decode_of_malformed {b : UInt8} {rest : List UInt8} (h : decodeChar? (b :: rest) = none) :
    decode (b :: rest) = replacement :: decode (rest.drop (malformedTail b rest)) := by
  rw [decode, h]

/-- The bytes of a character decode to it, whatever follows. -/
theorem decode_append (c : Char) (rest : List UInt8) :
    decode (String.utf8EncodeChar c ++ rest) = c :: decode rest := by
  have hlen := String.length_utf8EncodeChar c
  have hpos := c.utf8Size_pos
  have hchar := decodeChar?_append c rest
  cases hbytes : String.utf8EncodeChar c with
  | nil =>
    rw [hbytes] at hlen
    simp only [List.length_nil] at hlen
    omega
  | cons b tail =>
    rw [hbytes, List.length_cons] at hlen
    rw [hbytes, List.cons_append] at hchar
    rw [List.cons_append, decode, hchar]
    -- the rest of the character's own bytes is dropped
    have htail : c.utf8Size - 1 = tail.length := by omega
    show c :: decode ((tail ++ rest).drop (c.utf8Size - 1)) = _
    rw [htail, List.drop_left]

/-- Decoding takes back encoding. -/
@[simp] theorem decode_encode (chars : List Char) : decode (encode chars) = chars := by
  induction chars with
  | nil => exact decode_nil
  | cons c chars ih => rw [encode_cons, decode_append, ih]

/-- Every decoded byte is paid for: a replacement character takes three bytes and stands for at
    most three. -/
theorem length_le_length_encode_decode (bytes : List UInt8) :
    bytes.length ≤ (encode (decode bytes)).length := by
  -- along the decoder; each step drops the bytes that one character stands for
  induction bytes using decode.induct with
  | case1 => exact Nat.zero_le _
  | case2 b rest c hchar ih =>
    have hpos := c.utf8Size_pos
    rw [List.length_drop] at ih
    rw [decode, hchar]
    show _ ≤ (encode (c :: decode (rest.drop (c.utf8Size - 1)))).length
    rw [length_encode_cons, List.length_cons]
    omega
  | case3 b rest hchar ih =>
    have hmost := malformedTail_le_two b rest
    have hsize : replacement.utf8Size = 3 := by decide
    rw [List.length_drop] at ih
    rw [decode_of_malformed hchar, length_encode_cons, hsize, List.length_cons]
    omega

/-! ## Single bytes -/

/-- A character of one byte is that byte. -/
theorem utf8EncodeChar_of_ascii {c : Char} (h : c.utf8Size = 1) :
    String.utf8EncodeChar c = [c.val.toUInt8] ∧ c.val.toUInt8 < 128 := by
  refine ⟨String.utf8EncodeChar_eq_singleton h, ?_⟩
  have hval := Char.utf8Size_eq_one_iff.mp h
  rw [UInt32.le_iff_toNat_le] at hval
  rw [UInt8.lt_iff_toNat_lt, UInt32.toNat_toUInt8]
  simp only [UInt32.reduceToNat] at hval
  simp only [UInt8.reduceToNat]
  omega

/-- Every byte below 128 is a character. -/
theorem exists_char_of_lt {b : UInt8} (h : b < 128) :
    ∃ c : Char, c.utf8Size = 1 ∧ String.utf8EncodeChar c = [b] := by
  have hval : (Char.ofUInt8 b).val = b.toUInt32 := rfl
  have hsize : (Char.ofUInt8 b).utf8Size = 1 := by
    apply Char.utf8Size_eq_one_iff.mpr
    rw [UInt8.lt_iff_toNat_lt] at h
    rw [hval, UInt32.le_iff_toNat_le, UInt8.toNat_toUInt32]
    exact Nat.le_of_lt_succ h
  refine ⟨Char.ofUInt8 b, hsize, ?_⟩
  rw [String.utf8EncodeChar_eq_singleton hsize, hval, UInt8.toUInt8_toUInt32]

/-- Characters of one byte are encoded in bytes below 128. -/
theorem lt_of_mem_encode {chars : List Char} (h : ∀ c ∈ chars, c.utf8Size = 1) :
    ∀ b ∈ encode chars, b < 128 := by
  intro b hb
  obtain ⟨c, hc, hbc⟩ := List.mem_flatMap.mp hb
  obtain ⟨hbytes, hlt⟩ := utf8EncodeChar_of_ascii (h c hc)
  rw [hbytes, List.mem_singleton] at hbc
  rw [hbc]
  exact hlt

/-- Bytes below 128 are the bytes of as many characters. -/
theorem exists_encode_eq {bytes : List UInt8} (h : ∀ b ∈ bytes, b < 128) :
    ∃ chars, encode chars = bytes ∧ ∀ c ∈ chars, c.utf8Size = 1 := by
  induction bytes with
  | nil => exact ⟨[], rfl, fun _ hc => absurd hc List.not_mem_nil⟩
  | cons b bytes ih =>
    obtain ⟨hb, hbytes⟩ := List.forall_mem_cons.mp h
    obtain ⟨c, hsize, hc⟩ := exists_char_of_lt hb
    obtain ⟨chars, hencode, hchars⟩ := ih hbytes
    refine ⟨c :: chars, ?_, List.forall_mem_cons.mpr ⟨hsize, hchars⟩⟩
    rw [encode_cons, hc, hencode]
    rfl

/-- Bytes come back with as many code units as bytes exactly when all of them are below 128. -/
theorem encode_decode_iff (bytes : List UInt8) :
    encode (decode bytes) = bytes ∧ utf16Length (decode bytes) = bytes.length ↔
      ∀ b ∈ bytes, b < 128 := by
  constructor
  · intro h
    obtain ⟨hencode, hlength⟩ := h
    rw [← hencode]
    apply lt_of_mem_encode
    apply (utf16Length_eq_length_encode_iff _).mp
    rw [hlength, hencode]
  · intro h
    obtain ⟨chars, hencode, hchars⟩ := exists_encode_eq h
    have hdecode : decode bytes = chars := by rw [← hencode, decode_encode]
    rw [hdecode]
    refine ⟨hencode, ?_⟩
    rw [(utf16Length_eq_length_encode_iff chars).mpr hchars, hencode]

end UpsServer.Framework.Utf8
