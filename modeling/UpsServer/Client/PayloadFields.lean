import UpsServer.Client.DataSerializer
import Mathlib.Algebra.Ring.Int.Defs
import Mathlib.Algebra.Ring.Nat

/-!
# What `bytesToPayload` accepts

The loop reads zero bytes beyond the end of the array and checks its pointer only once, behind
the last field. Since no field moves the pointer back, that check rejects every run that read
beyond the end: what is accepted is the fields of the classes one after another and nothing
else.
-/

namespace UpsServer.Client

open Framework

/-- The fields of the classes in the bytes, with the values they are read as. The first three
    bytes of every word are ignored. -/
inductive Fields : List PayloadClass → List Value → Bytes → Prop where
  | nil : Fields [] [] []
  | integer {classes : List PayloadClass} {payload : List Value} {bytes : Bytes}
      (b₀ b₁ b₂ b₃ : Int8) (others : Fields classes payload bytes) :
      Fields (.integer :: classes) (.integer b₃.toInt32 :: payload) (b₀ :: b₁ :: b₂ :: b₃ :: bytes)
  | string {classes : List PayloadClass} {payload : List Value} {bytes : Bytes}
      (b₀ b₁ b₂ b₃ : Int8) (chars : Bytes) (length_eq : (chars.length : Int) = b₃.toInt)
      (others : Fields classes payload bytes) :
      Fields (.string :: classes) (.string (bytesToString chars) :: payload)
        (b₀ :: b₁ :: b₂ :: b₃ :: (chars ++ bytes))

/-! ## `Arrays.copyOfRange` -/

/-- A part of the array is copied as it stands. -/
theorem copyOfRange_append (before part rest : Bytes) {start stop : Int32}
    (hstart : start.toInt = before.length) (hstop : stop.toInt = before.length + part.length) :
    copyOfRange (before ++ (part ++ rest)) start stop = .ok part := by
  have hnat : start.toInt.toNat = before.length := by omega
  have hlength : (stop.toInt - start.toInt).toNat = part.length := by omega
  rw [copyOfRange, if_neg (by omega), if_neg]
  · simp only [hnat, hlength, List.drop_left, List.take_left, Nat.sub_self,
      List.replicate_zero, List.append_nil]
  · rw [List.length_append]
    omega

/-- A copy is made only of a range that starts in the array and does not run backwards. -/
theorem copyOfRange_eq_ok {original copy : Bytes} {start stop : Int32}
    (h : copyOfRange original start stop = .ok copy) :
    start.toInt ≤ stop.toInt ∧ 0 ≤ start.toInt ∧ start.toInt ≤ original.length := by
  unfold copyOfRange at h
  split at h
  · cases h
  · split at h
    · cases h
    · omega

/-! ## Pointers -/

theorem toInt_add_of_lt {a b : Int32} (h : -2 ^ 31 ≤ a.toInt + b.toInt)
    (h' : a.toInt + b.toInt < 2 ^ 31) : (a + b).toInt = a.toInt + b.toInt := by
  rw [Int32.toInt_add, Int.bmod_eq_of_le] <;> omega

/-- A pointer that did not move back moved by as much as it was told: an overflow would have
    made it negative. -/
theorem toInt_add_of_le {pointer step : Int32} (h : 0 ≤ pointer.toInt)
    (hle : pointer.toInt ≤ (pointer + step).toInt) :
    0 ≤ step.toInt ∧ (pointer + step).toInt = pointer.toInt + step.toInt := by
  have hp := pointer.toInt_lt
  have hs := step.toInt_lt
  have hs' := step.le_toInt
  by_cases hfits : pointer.toInt + step.toInt < 2 ^ 31
  · have hsum := toInt_add_of_lt (a := pointer) (b := step) (by omega) hfits
    omega
  · have hwrap : (pointer + step).toInt = pointer.toInt + step.toInt - 2 ^ 32 := by
      rw [Int32.toInt_add, Int.bmod_def]
      omega
    omega

namespace DataSerializer

/-! ## From the loop to the fields -/

/-- A run that succeeds never stood beyond the end of the array. -/
theorem pointer_le_of_loop {bytes : Bytes} {classes : List PayloadClass} {pointer : Int32}
    {list result : List Value} (h : bytesToPayloadLoop bytes classes pointer list = .ok result) :
    pointer.toInt ≤ bytes.length := by
  -- the next field starts at the pointer, and behind the last one the pointer is checked
  cases classes with
  | nil =>
    unfold bytesToPayloadLoop at h
    split at h
    · cases h
    · omega
  | cons c classes =>
    cases c with
    | integer =>
      unfold bytesToPayloadLoop at h
      obtain ⟨_, hcopy, _⟩ := bind_eq_ok_iff.mp h
      exact (copyOfRange_eq_ok hcopy).2.2
    | string =>
      unfold bytesToPayloadLoop at h
      obtain ⟨_, hcopy, _⟩ := bind_eq_ok_iff.mp h
      exact (copyOfRange_eq_ok hcopy).2.2

/-- Four bytes that are there are read as the last of them. -/
theorem bytesToInt_word (b₀ b₁ b₂ b₃ : Int8) :
    bytesToInt [b₀, b₁, b₂, b₃] = .ok b₃.toInt32 := rfl

/-- A word that was read and not run past stands in the array. -/
theorem exists_word {before rest word : Bytes} {pointer value : Int32}
    (hpointer : pointer.toInt = before.length)
    (hcopy : copyOfRange (before ++ rest) pointer (pointer + 4) = .ok word)
    (hvalue : bytesToInt word = .ok value)
    (hinside : (pointer + 4).toInt ≤ (before ++ rest).length) :
    (pointer + 4).toInt = before.length + 4 ∧
      ∃ b₀ b₁ b₂ b₃ tail, rest = b₀ :: b₁ :: b₂ :: b₃ :: tail ∧ value = b₃.toInt32 := by
  obtain ⟨hle, hnonneg, _⟩ := copyOfRange_eq_ok hcopy
  have hfour : (4 : Int32).toInt = 4 := rfl
  obtain ⟨_, hnext⟩ := toInt_add_of_le hnonneg hle
  rw [hpointer, hfour] at hnext
  refine ⟨hnext, ?_⟩
  rw [hnext, List.length_append] at hinside
  obtain ⟨b₀, b₁, b₂, b₃, tail, rfl⟩ : ∃ b₀ b₁ b₂ b₃ tail,
      rest = b₀ :: b₁ :: b₂ :: b₃ :: tail := by
    match rest, hinside with
    | b₀ :: b₁ :: b₂ :: b₃ :: tail, _ => exact ⟨b₀, b₁, b₂, b₃, tail, rfl⟩
    | [], h | [_], h | [_, _], h | [_, _, _], h =>
      simp only [List.length_cons, List.length_nil] at h
      omega
  refine ⟨b₀, b₁, b₂, b₃, tail, rfl, ?_⟩
  have hword := copyOfRange_append before [b₀, b₁, b₂, b₃] tail hpointer hnext
  obtain rfl : [b₀, b₁, b₂, b₃] = word := Except.ok.inj (hword.symm.trans hcopy)
  exact (Except.ok.inj hvalue).symm

/-- A step over an integer takes a word from the front. -/
theorem loop_integer {classes : List PayloadClass} {before rest : Bytes} {pointer : Int32}
    {list result : List Value} (hpointer : pointer.toInt = before.length)
    (h : bytesToPayloadLoop (before ++ rest) (.integer :: classes) pointer list = .ok result) :
    ∃ b₀ b₁ b₂ b₃ tail, rest = b₀ :: b₁ :: b₂ :: b₃ :: tail ∧
      (pointer + 4).toInt = ((before ++ [b₀, b₁, b₂, b₃]).length : Nat) ∧
      bytesToPayloadLoop ((before ++ [b₀, b₁, b₂, b₃]) ++ tail) classes (pointer + 4)
        (list ++ [.integer b₃.toInt32]) = .ok result := by
  unfold bytesToPayloadLoop at h
  obtain ⟨word, hcopy, h⟩ := bind_eq_ok_iff.mp h
  obtain ⟨value, hvalue, h⟩ := bind_eq_ok_iff.mp h
  obtain ⟨hnext, b₀, b₁, b₂, b₃, tail, rfl, rfl⟩ :=
    exists_word hpointer hcopy hvalue (pointer_le_of_loop h)
  have hassoc : before ++ b₀ :: b₁ :: b₂ :: b₃ :: tail
      = (before ++ [b₀, b₁, b₂, b₃]) ++ tail := by simp
  rw [hassoc] at h
  refine ⟨b₀, b₁, b₂, b₃, tail, rfl, ?_, h⟩
  rw [hnext, List.length_append]
  rfl

/-- A step over a string takes a word and as many characters as it says from the front. -/
theorem loop_string {classes : List PayloadClass} {before rest : Bytes} {pointer : Int32}
    {list result : List Value} (hpointer : pointer.toInt = before.length)
    (h : bytesToPayloadLoop (before ++ rest) (.string :: classes) pointer list = .ok result) :
    ∃ (b₀ b₁ b₂ b₃ : Int8) (chars tail : Bytes) (pointer' : Int32),
      rest = b₀ :: b₁ :: b₂ :: b₃ :: (chars ++ tail) ∧ (chars.length : Int) = b₃.toInt ∧
      pointer'.toInt = ((before ++ [b₀, b₁, b₂, b₃] ++ chars).length : Nat) ∧
      bytesToPayloadLoop ((before ++ [b₀, b₁, b₂, b₃] ++ chars) ++ tail) classes pointer'
        (list ++ [.string (bytesToString chars)]) = .ok result := by
  unfold bytesToPayloadLoop at h
  obtain ⟨word, hcopy, h⟩ := bind_eq_ok_iff.mp h
  obtain ⟨len, hlen, h⟩ := bind_eq_ok_iff.mp h
  obtain ⟨chars, hchars, h⟩ := bind_eq_ok_iff.mp h
  obtain ⟨hle, hnonneg, hstart⟩ := copyOfRange_eq_ok hchars
  obtain ⟨hnext, b₀, b₁, b₂, b₃, tail, rfl, rfl⟩ := exists_word hpointer hcopy hlen hstart
  obtain ⟨hlen0, hstop⟩ := toInt_add_of_le hnonneg hle
  have hinside := pointer_le_of_loop h
  rw [hstop, hnext, Int8.toInt_toInt32, List.length_append] at hinside
  rw [Int8.toInt_toInt32] at hlen0 hstop
  simp only [List.length_cons] at hinside
  -- the characters are all there
  obtain ⟨part, others, rfl, hpart⟩ : ∃ part others, tail = part ++ others ∧
      (part.length : Int) = b₃.toInt :=
    ⟨tail.take b₃.toInt.toNat, tail.drop b₃.toInt.toNat, (List.take_append_drop _ _).symm, by
      rw [List.length_take_of_le (by omega)]; omega⟩
  have hassoc : before ++ b₀ :: b₁ :: b₂ :: b₃ :: (part ++ others)
      = (before ++ [b₀, b₁, b₂, b₃]) ++ (part ++ others) := by simp
  have hplace : (pointer + 4).toInt = ((before ++ [b₀, b₁, b₂, b₃]).length : Nat) := by
    rw [hnext, List.length_append]
    rfl
  rw [hassoc] at hchars h
  have hcopied := copyOfRange_append (before ++ [b₀, b₁, b₂, b₃]) part others hplace
    (hstop.trans (by rw [hplace, hpart]))
  obtain rfl : part = chars := Except.ok.inj (hcopied.symm.trans hchars)
  rw [← List.append_assoc] at h
  refine ⟨b₀, b₁, b₂, b₃, part, others, _, rfl, hpart, ?_, h⟩
  rw [hstop, hplace, ← hpart, ← Int.natCast_add, ← List.length_append]

/-- **Nothing invented**: a run that succeeds has read fields that stand in the array, all of
    it. -/
theorem fields_of_loop {classes : List PayloadClass} {before rest : Bytes} {pointer : Int32}
    {list result : List Value} (hpointer : pointer.toInt = before.length)
    (h : bytesToPayloadLoop (before ++ rest) classes pointer list = .ok result) :
    ∃ payload, Fields classes payload rest ∧ result = list ++ payload := by
  -- on the classes; the fields already read pile up in `before`
  induction classes generalizing before rest pointer list with
  | nil =>
    unfold bytesToPayloadLoop at h
    split at h
    · cases h
    next hend =>
      rw [List.length_append] at hend
      obtain rfl : rest = [] := List.length_eq_zero_iff.mp (by omega)
      exact ⟨[], .nil, by rw [List.append_nil]; exact (Except.ok.inj h).symm⟩
  | cons c classes ih =>
    cases c with
    | integer =>
      obtain ⟨b₀, b₁, b₂, b₃, tail, rfl, hnext, hrun⟩ := loop_integer hpointer h
      obtain ⟨payload, hfields, hresult⟩ := ih hnext hrun
      refine ⟨_, .integer b₀ b₁ b₂ b₃ hfields, ?_⟩
      rw [hresult, List.append_assoc]
      rfl
    | string =>
      obtain ⟨b₀, b₁, b₂, b₃, chars, tail, _, rfl, hlength, hnext, hrun⟩ :=
        loop_string hpointer h
      obtain ⟨payload, hfields, hresult⟩ := ih hnext hrun
      refine ⟨_, .string b₀ b₁ b₂ b₃ chars hlength hfields, ?_⟩
      rw [hresult, List.append_assoc]
      rfl

/-! ## From the fields to the loop -/

/-- A word that stands at the pointer is copied, and the pointer moves behind it. -/
theorem copyOfRange_word (before rest : Bytes) (b₀ b₁ b₂ b₃ : Int8) {pointer : Int32}
    (hpointer : pointer.toInt = before.length)
    (hsize : ((before ++ [b₀, b₁, b₂, b₃]) ++ rest).length < 2 ^ 31) :
    (pointer + 4).toInt = ((before ++ [b₀, b₁, b₂, b₃]).length : Nat) ∧
      copyOfRange ((before ++ [b₀, b₁, b₂, b₃]) ++ rest) pointer (pointer + 4)
        = .ok [b₀, b₁, b₂, b₃] := by
  have hfour : (4 : Int32).toInt = 4 := rfl
  have hlen : (before ++ [b₀, b₁, b₂, b₃]).length = before.length + 4 := List.length_append
  rw [List.length_append, hlen] at hsize
  have hnext : (pointer + 4).toInt = before.length + 4 := by
    rw [toInt_add_of_lt (by omega) (by omega), hpointer, hfour]
  refine ⟨by rw [hnext, hlen]; rfl, ?_⟩
  rw [List.append_assoc]
  exact copyOfRange_append before [b₀, b₁, b₂, b₃] rest hpointer hnext

/-- Fields that stand behind the pointer are read, and the pointer ends behind them. -/
theorem loop_of_fields {classes : List PayloadClass} {payload : List Value} {rest : Bytes}
    (hfields : Fields classes payload rest) {before : Bytes} {pointer : Int32}
    {list : List Value} (hpointer : pointer.toInt = before.length)
    (hsize : (before ++ rest).length < 2 ^ 31) :
    bytesToPayloadLoop (before ++ rest) classes pointer list = .ok (list ++ payload) := by
  -- on the fields; the ones already read pile up in `before`
  induction hfields generalizing before pointer list with
  | nil =>
    unfold bytesToPayloadLoop
    rw [if_neg, List.append_nil]
    rw [List.append_nil, hpointer]
    exact fun hne => hne rfl
  | @integer classes payload bytes b₀ b₁ b₂ b₃ others ih =>
    have hassoc : before ++ b₀ :: b₁ :: b₂ :: b₃ :: bytes
        = (before ++ [b₀, b₁, b₂, b₃]) ++ bytes := by simp
    rw [hassoc] at hsize ⊢
    obtain ⟨hplace, hword⟩ := copyOfRange_word before bytes b₀ b₁ b₂ b₃ hpointer hsize
    unfold bytesToPayloadLoop
    rw [hword, ok_bind, bytesToInt_word, ok_bind, ih hplace hsize, List.append_assoc]
    rfl
  | @string classes payload bytes b₀ b₁ b₂ b₃ chars length_eq others ih =>
    have hassoc : before ++ b₀ :: b₁ :: b₂ :: b₃ :: (chars ++ bytes)
        = (before ++ [b₀, b₁, b₂, b₃]) ++ (chars ++ bytes) := by simp
    rw [hassoc] at hsize ⊢
    obtain ⟨hplace, hword⟩ := copyOfRange_word before (chars ++ bytes) b₀ b₁ b₂ b₃ hpointer hsize
    have hlen : b₃.toInt32.toInt = chars.length := by rw [Int8.toInt_toInt32, length_eq]
    have hstop : (pointer + 4 + b₃.toInt32).toInt
        = ((before ++ [b₀, b₁, b₂, b₃]).length : Nat) + chars.length := by
      have htotal : (chars ++ bytes).length = chars.length + bytes.length := List.length_append
      rw [List.length_append, htotal] at hsize
      rw [toInt_add_of_lt (by omega) (by omega), hplace, hlen]
    have hchars := copyOfRange_append (before ++ [b₀, b₁, b₂, b₃]) chars bytes hplace hstop
    rw [← Int.natCast_add, ← List.length_append] at hstop
    unfold bytesToPayloadLoop
    rw [hword, ok_bind, bytesToInt_word, ok_bind]
    show (copyOfRange _ (pointer + 4) (pointer + 4 + b₃.toInt32) >>= _) = _
    rw [← List.append_assoc] at hsize
    rw [hchars, ok_bind, ← List.append_assoc, ih hstop hsize, List.append_assoc]
    rfl

/-- What is read are fields that stand in the array, of whatever size it is. -/
theorem fields_of_bytesToPayload {classes : List PayloadClass} {bytes : Bytes}
    {payload : List Value} (h : bytesToPayload classes bytes = .ok payload) :
    Fields classes payload bytes := by
  unfold bytesToPayload at h
  rw [mapError_eq_ok_iff] at h
  have hloop : bytesToPayloadLoop ([] ++ bytes) classes 0 [] = .ok payload := h
  obtain ⟨fields, hfields, hpayload⟩ := fields_of_loop (by rfl) hloop
  rw [List.nil_append] at hpayload
  rw [hpayload]
  exact hfields

/-- **What is accepted**: an array is read exactly when it consists of the fields. -/
theorem bytesToPayload_eq_ok_iff {classes : List PayloadClass} {bytes : Bytes}
    {payload : List Value} (hsize : bytes.length < 2 ^ 31) :
    bytesToPayload classes bytes = .ok payload ↔ Fields classes payload bytes := by
  constructor
  · exact fields_of_bytesToPayload
  · intro h
    have hloop : bytesToPayloadLoop ([] ++ bytes) classes 0 [] = .ok ([] ++ payload) :=
      loop_of_fields h (by rfl) hsize
    unfold bytesToPayload
    rw [mapError_eq_ok_iff]
    exact hloop

/-! ## The array as a concatenation -/

/-- The bytes of one field and the value they are read as. -/
def IsField : PayloadClass → Value × Bytes → Prop
  | .integer, (value, part) =>
    part.length = 4 ∧ ∃ n, bytesToInt part = .ok n ∧ value = .integer n
  | .string, (value, part) =>
    ∃ word chars len, part = word ++ chars ∧ word.length = 4 ∧ bytesToInt word = .ok len ∧
      (chars.length : Int) = len.toInt ∧ value = .string (bytesToString chars)

/-- The array consists of one field for each class, and these are read as the payload. -/
def Concatenates (classes : List PayloadClass) (payload : List Value) (bytes : Bytes) : Prop :=
  ∃ fields : List (Value × Bytes), List.Forall₂ IsField classes fields ∧
    fields.map Prod.fst = payload ∧ (fields.map Prod.snd).flatten = bytes

/-- Four bytes are a word. -/
theorem exists_bytes_of_length_four {word : Bytes} (h : word.length = 4) :
    ∃ b₀ b₁ b₂ b₃, word = [b₀, b₁, b₂, b₃] := by
  match word, h with
  | [b₀, b₁, b₂, b₃], _ => exact ⟨b₀, b₁, b₂, b₃, rfl⟩

theorem concatenates_iff_fields {classes : List PayloadClass} {payload : List Value}
    {bytes : Bytes} : Concatenates classes payload bytes ↔ Fields classes payload bytes := by
  constructor
  · intro h
    obtain ⟨fields, hfields, rfl, rfl⟩ := h
    induction hfields with
    | nil => exact .nil
    | @cons c field classes fields hfield _ ih =>
      obtain ⟨value, part⟩ := field
      cases c with
      | integer =>
        obtain ⟨hlength, n, hn, rfl⟩ := hfield
        obtain ⟨b₀, b₁, b₂, b₃, rfl⟩ := exists_bytes_of_length_four hlength
        obtain rfl : b₃.toInt32 = n := Except.ok.inj hn
        exact .integer b₀ b₁ b₂ b₃ ih
      | string =>
        obtain ⟨word, chars, len, rfl, hlength, hlen, hchars, rfl⟩ := hfield
        obtain ⟨b₀, b₁, b₂, b₃, rfl⟩ := exists_bytes_of_length_four hlength
        obtain rfl : b₃.toInt32 = len := Except.ok.inj hlen
        rw [Int8.toInt_toInt32] at hchars
        have hstring := Fields.string b₀ b₁ b₂ b₃ chars hchars ih
        rw [List.map_cons, List.map_cons, List.flatten_cons, List.append_assoc]
        exact hstring
  · intro h
    induction h with
    | nil => exact ⟨[], .nil, rfl, rfl⟩
    | @integer classes payload bytes b₀ b₁ b₂ b₃ _ ih =>
      obtain ⟨fields, hfields, rfl, rfl⟩ := ih
      exact ⟨(_, [b₀, b₁, b₂, b₃]) :: fields, .cons ⟨rfl, _, rfl, rfl⟩ hfields, rfl, rfl⟩
    | @string classes payload bytes b₀ b₁ b₂ b₃ chars length_eq _ ih =>
      obtain ⟨fields, hfields, rfl, rfl⟩ := ih
      refine ⟨(_, [b₀, b₁, b₂, b₃] ++ chars) :: fields,
        .cons ⟨_, chars, _, rfl, rfl, rfl, ?_, rfl⟩ hfields, rfl, rfl⟩
      rw [Int8.toInt_toInt32]
      exact length_eq

/-- **Payload parsing invents nothing**: what is returned are the fields of which the array is the
    concatenation, and every array that is one is accepted. The length of a Java array is an
    `int`. -/
theorem bytesToPayload_invents_nothing (classes : List PayloadClass) (bytes : Bytes)
    (payload : List Value) :
    (bytesToPayload classes bytes = .ok payload → Concatenates classes payload bytes) ∧
    (bytes.length < 2 ^ 31 → Concatenates classes payload bytes →
      bytesToPayload classes bytes = .ok payload) := by
  constructor
  · intro h
    exact concatenates_iff_fields.mpr (fields_of_bytesToPayload h)
  · intro hsize h
    exact (bytesToPayload_eq_ok_iff hsize).mpr (concatenates_iff_fields.mp h)

/-- A text and a number. -/
theorem bytesToPayload_invents_nothing_text :
    bytesToPayload [.string, .integer] [0, 0, 0, 2, 72, 105, 0, 0, 0, -7]
      = .ok [.string (bytesToString [72, 105]), .integer (-7)] :=
  (bytesToPayload_invents_nothing _ _ _).2 (by decide)
    ⟨[(_, [0, 0, 0, 2] ++ [72, 105]), (_, [0, 0, 0, -7])],
      .cons ⟨_, _, _, rfl, rfl, rfl, rfl, rfl⟩ (.cons ⟨rfl, _, rfl, rfl⟩ .nil), rfl, rfl⟩

end DataSerializer

end UpsServer.Client
