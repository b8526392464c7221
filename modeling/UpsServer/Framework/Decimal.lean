import UpsServer.Framework.ByteBuffer

/-!
# Decimal numbers as bytes

The text of an integer and the number a text stands for. A text is an optional minus sign and
at least one digit; reading undoes writing.
-/

namespace UpsServer.Framework

/-- The ASCII byte of a character. -/
def asciiByte (c : Char) : UInt8 := UInt8.ofNat c.toNat

/-- The decimal text of an integer. -/
def writeDecimal (value : Int) : ByteString :=
  let digits := (Nat.toDigits 10 value.natAbs).map asciiByte
  if value < 0 then 45 :: digits else digits

/-- The number of the digits, put behind the digits already read. -/
def readDigits : ByteString → Nat → Option Nat
  | [], number => some number
  | d :: digits, number =>
    if 48 ≤ d ∧ d ≤ 57 then readDigits digits (10 * number + (d.toNat - 48)) else none

/-- The integer that a text stands for. -/
def readDecimal (bytes : ByteString) : Option Int :=
  match bytes with
  | [] => none
  | first :: others =>
    if first = 45 then
      if others = [] then none else (readDigits others 0).map fun number : Nat => -(number : Int)
    else (readDigits (first :: others) 0).map fun number : Nat => (number : Int)

/-! ## Digits -/

/-- The byte of a digit. -/
theorem asciiByte_of_isDigit {c : Char} (h : c.isDigit = true) :
    48 ≤ asciiByte c ∧ asciiByte c ≤ 57 ∧ (asciiByte c).toNat = c.toNat := by
  obtain ⟨hlow, hhigh⟩ : 48 ≤ c.toNat ∧ c.toNat ≤ 57 := by
    simpa [Char.isDigit, UInt32.le_iff_toNat_le] using h
  have hnat : (asciiByte c).toNat = c.toNat := UInt8.toNat_ofNat_of_lt' (by
    show c.toNat < 256
    omega)
  refine ⟨UInt8.le_iff_toNat_le.mpr ?_, UInt8.le_iff_toNat_le.mpr ?_, hnat⟩
  · rw [hnat]
    exact hlow
  · rw [hnat]
    exact hhigh

/-- Digits are read as the number they form. -/
theorem readDigits_map {digits : List Char} (h : ∀ c ∈ digits, c.isDigit = true) (number : Nat) :
    readDigits (digits.map asciiByte) number = some (Nat.ofDigitChars 10 digits number) := by
  induction digits generalizing number with
  | nil => rfl
  | cons c digits ih =>
    obtain ⟨hlow, hhigh, hnat⟩ := asciiByte_of_isDigit (h c List.mem_cons_self)
    have hrest := ih fun d hd => h d (List.mem_cons_of_mem _ hd)
    rw [List.map_cons, readDigits, if_pos ⟨hlow, hhigh⟩, hrest, hnat, Nat.ofDigitChars_cons]
    rfl

/-- The digits of a number. -/
theorem isDigit_of_mem_digits {n : Nat} {c : Char} (h : c ∈ Nat.toDigits 10 n) :
    c.isDigit = true :=
  Nat.isDigit_of_mem_toDigits (by decide) (by decide) h

theorem readDigits_toDigits (n : Nat) :
    readDigits ((Nat.toDigits 10 n).map asciiByte) 0 = some n := by
  rw [readDigits_map fun _ => isDigit_of_mem_digits, Nat.ofDigitChars_ten_toDigits]

/-! ## Numbers -/

/-- A text consists of a minus sign and digits. -/
theorem eq_or_isDigit_of_mem_writeDecimal {value : Int} {b : UInt8} (h : b ∈ writeDecimal value) :
    b = 45 ∨ 48 ≤ b ∧ b ≤ 57 := by
  have hdigits : b ∈ (Nat.toDigits 10 value.natAbs).map asciiByte → 48 ≤ b ∧ b ≤ 57 := by
    intro hmem
    obtain ⟨c, hc, rfl⟩ := List.mem_map.mp hmem
    obtain ⟨hlow, hhigh, _⟩ := asciiByte_of_isDigit (isDigit_of_mem_digits hc)
    exact ⟨hlow, hhigh⟩
  unfold writeDecimal at h
  split at h
  · rcases List.mem_cons.mp h with hsign | hmem
    · exact Or.inl hsign
    · exact Or.inr (hdigits hmem)
  · exact Or.inr (hdigits h)

theorem writeDecimal_ne_nil (value : Int) : writeDecimal value ≠ [] := by
  unfold writeDecimal
  split
  · exact List.cons_ne_nil _ _
  · exact fun h => Nat.toDigits_ne_nil (List.map_eq_nil_iff.mp h)

/-- Reading undoes writing. -/
theorem readDecimal_writeDecimal (value : Int) : readDecimal (writeDecimal value) = some value := by
  have hread := readDigits_toDigits value.natAbs
  obtain ⟨c, digits, hcons⟩ := List.exists_cons_of_ne_nil
    (Nat.toDigits_ne_nil (n := value.natAbs) (b := 10))
  have hdigit : c.isDigit = true := isDigit_of_mem_digits (hcons ▸ List.mem_cons_self)
  obtain ⟨hlow, _, _⟩ := asciiByte_of_isDigit hdigit
  have hsign : asciiByte c ≠ 45 := by
    -- the first byte is a digit
    intro heq
    rw [heq] at hlow
    exact absurd hlow (by decide)
  unfold writeDecimal
  rw [hcons, List.map_cons] at hread ⊢
  split
  · have habs : -(value.natAbs : Int) = value := by omega
    rw [readDecimal, if_pos rfl, if_neg (List.cons_ne_nil _ _), hread, Option.map_some, habs]
  · have habs : (value.natAbs : Int) = value := by omega
    rw [readDecimal, if_neg hsign, hread, Option.map_some, habs]

end UpsServer.Framework
