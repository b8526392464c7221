import UpsServer.Client.TCPClient

/-!
# What the parser throws

`NetworkManager.processRawMessage` runs `checkMessage`, `initMessage` and `deserializeMessage` in
a row. Reading beyond the end of a payload ends in `BadPayloadLengthException`, either behind the
loop or through the `catch` clause. A string whose length is negative makes `Arrays.copyOfRange`
run backwards; what that throws is no `IndexOutOfBoundsException`, and nobody catches it.
-/

namespace UpsServer.Client

open Framework

/-- The classes lead to a string whose length byte is negative, over fields that stand in the
    bytes. -/
inductive NegativeLength : List PayloadClass → Bytes → Prop where
  | here {classes : List PayloadClass} (b₀ b₁ b₂ b₃ : Int8) (rest : Bytes)
      (negative : b₃.toInt < 0) :
      NegativeLength (.string :: classes) (b₀ :: b₁ :: b₂ :: b₃ :: rest)
  | integer {classes : List PayloadClass} (b₀ b₁ b₂ b₃ : Int8) {rest : Bytes}
      (later : NegativeLength classes rest) :
      NegativeLength (.integer :: classes) (b₀ :: b₁ :: b₂ :: b₃ :: rest)
  | string {classes : List PayloadClass} (b₀ b₁ b₂ b₃ : Int8) (chars : Bytes) {rest : Bytes}
      (length_eq : (chars.length : Int) = b₃.toInt) (later : NegativeLength classes rest) :
      NegativeLength (.string :: classes) (b₀ :: b₁ :: b₂ :: b₃ :: (chars ++ rest))

section Cases

variable {classes : List PayloadClass} {rest : Bytes}

theorem negativeLength_integer_iff :
    NegativeLength (.integer :: classes) rest ↔
      ∃ b₀ b₁ b₂ b₃ tail, rest = b₀ :: b₁ :: b₂ :: b₃ :: tail ∧ NegativeLength classes tail := by
  constructor
  · intro h
    cases h with
    | integer b₀ b₁ b₂ b₃ later => exact ⟨b₀, b₁, b₂, b₃, _, rfl, later⟩
  · intro h
    obtain ⟨b₀, b₁, b₂, b₃, tail, rfl, later⟩ := h
    exact .integer b₀ b₁ b₂ b₃ later

theorem negativeLength_string_iff :
    NegativeLength (.string :: classes) rest ↔
      ∃ b₀ b₁ b₂ b₃ tail, rest = b₀ :: b₁ :: b₂ :: b₃ :: tail ∧
        (b₃.toInt < 0 ∨ ∃ chars others, tail = chars ++ others ∧
          (chars.length : Int) = b₃.toInt ∧ NegativeLength classes others) := by
  constructor
  · intro h
    cases h with
    | here b₀ b₁ b₂ b₃ tail negative => exact ⟨b₀, b₁, b₂, b₃, tail, rfl, Or.inl negative⟩
    | string b₀ b₁ b₂ b₃ chars length_eq later =>
      exact ⟨b₀, b₁, b₂, b₃, _, rfl, Or.inr ⟨chars, _, rfl, length_eq, later⟩⟩
  · intro h
    obtain ⟨b₀, b₁, b₂, b₃, tail, rfl, hcase⟩ := h
    rcases hcase with negative | ⟨chars, others, rfl, length_eq, later⟩
    · exact .here b₀ b₁ b₂ b₃ tail negative
    · exact .string b₀ b₁ b₂ b₃ chars length_eq later

end Cases

/-! ## `Arrays.copyOfRange` -/

/-- A range that runs backwards. -/
theorem copyOfRange_backwards (original : Bytes) {start stop : Int32}
    (h : stop.toInt < start.toInt) :
    copyOfRange original start stop = .error .illegalArgument := by
  rw [copyOfRange, if_pos h]

/-- A range that starts beyond the end. -/
theorem copyOfRange_beyond {original : Bytes} {start stop : Int32}
    (hforward : start.toInt ≤ stop.toInt) (hbeyond : (original.length : Int) < start.toInt) :
    copyOfRange original start stop = .error .arrayIndexOutOfBounds := by
  rw [copyOfRange, if_neg (by omega), if_pos (Or.inr hbeyond)]

/-- Every other range is copied, with zero bytes beyond the end. -/
theorem copyOfRange_inside (before rest : Bytes) {start stop : Int32}
    (hstart : start.toInt = before.length) (hforward : start.toInt ≤ stop.toInt) :
    copyOfRange (before ++ rest) start stop
      = .ok (rest.take (stop.toInt - start.toInt).toNat ++
          List.replicate ((stop.toInt - start.toInt).toNat
            - (rest.take (stop.toInt - start.toInt).toNat).length) 0) := by
  have hnat : start.toInt.toNat = before.length := by omega
  have hinside : ¬ (start.toInt < 0 ∨ ((before ++ rest).length : Int) < start.toInt) := by
    rw [List.length_append]
    omega
  rw [copyOfRange, if_neg (by omega), if_neg hinside]
  simp only [hnat, List.drop_left]

/-- The word at the pointer: its bytes are there, or its last byte is padding. -/
theorem copyOfRange_word_cases (before rest : Bytes) {pointer : Int32}
    (hpointer : pointer.toInt = before.length) (hnext : (pointer + 4).toInt = before.length + 4) :
    (∃ b₀ b₁ b₂ b₃ tail, rest = b₀ :: b₁ :: b₂ :: b₃ :: tail ∧
      copyOfRange (before ++ rest) pointer (pointer + 4) = .ok [b₀, b₁, b₂, b₃]) ∨
    rest.length < 4 ∧ ∃ b₀ b₁ b₂,
      copyOfRange (before ++ rest) pointer (pointer + 4) = .ok [b₀, b₁, b₂, 0] := by
  have hfour : ((pointer + 4).toInt - pointer.toInt).toNat = 4 := by omega
  have hforward : pointer.toInt ≤ (pointer + 4).toInt := by omega
  have hcopy := copyOfRange_inside before rest hpointer hforward
  rw [hfour] at hcopy
  rw [hcopy]
  match rest with
  | b₀ :: b₁ :: b₂ :: b₃ :: tail => exact Or.inl ⟨b₀, b₁, b₂, b₃, tail, rfl, rfl⟩
  | [] => exact Or.inr ⟨by simp, _, _, _, rfl⟩
  | [b₀] => exact Or.inr ⟨by simp, _, _, _, rfl⟩
  | [b₀, b₁] => exact Or.inr ⟨by simp, _, _, _, rfl⟩
  | [b₀, b₁, b₂] => exact Or.inr ⟨by simp, _, _, _, rfl⟩

namespace DataSerializer

/-! ## The loop over the classes -/

theorem toInt_next {pointer : Int32} {n : Nat} (hpointer : pointer.toInt = n) (hn : n < 2 ^ 29) :
    (pointer + 4).toInt = n + 4 := by
  have hfour : (4 : Int32).toInt = 4 := rfl
  rw [toInt_add_of_lt (by omega) (by omega), hpointer, hfour]

theorem toInt_behind {pointer : Int32} {n : Nat} {b : Int8} (hpointer : pointer.toInt = n)
    (hn : n < 2 ^ 29) : (pointer + b.toInt32).toInt = n + b.toInt := by
  have hlow := b.le_toInt
  have hhigh := b.toInt_lt
  have hwide := Int8.toInt_toInt32 b
  rw [toInt_add_of_lt (by omega) (by omega), hpointer, hwide]

/-- A pointer beyond the end never leads to a range that runs backwards. -/
theorem loop_beyond {bytes : Bytes} {classes : List PayloadClass} {pointer : Int32}
    {list : List Value} (hbeyond : (bytes.length : Int) < pointer.toInt)
    (hsmall : pointer.toInt < 2 ^ 30) :
    bytesToPayloadLoop bytes classes pointer list ≠ .error .illegalArgument := by
  have hnext : (pointer + 4).toInt = pointer.toInt + 4 := by
    have hfour : (4 : Int32).toInt = 4 := rfl
    rw [toInt_add_of_lt (by omega) (by omega), hfour]
  have hcopy : copyOfRange bytes pointer (pointer + 4) = .error .arrayIndexOutOfBounds :=
    copyOfRange_beyond (by omega) hbeyond
  -- behind the last class the pointer is checked, and every class begins with a word
  cases classes with
  | nil =>
    unfold bytesToPayloadLoop
    rw [if_pos (by omega)]
    intro h
    cases h
  | cons c classes =>
    cases c with
    | integer =>
      unfold bytesToPayloadLoop
      rw [hcopy, error_bind]
      intro h
      cases h
    | string =>
      unfold bytesToPayloadLoop
      rw [hcopy, error_bind]
      intro h
      cases h

/-- The word in front of every field. What comes after it sees its last byte, unless the array
    ends before. -/
theorem word_eq_illegalArgument_iff {α : Type} {before rest : Bytes} {pointer : Int32}
    {next : Int32 → Except Thrown α} (hpointer : pointer.toInt = before.length)
    (hsize : (before ++ rest).length < 2 ^ 29)
    (padded : rest.length < 4 → next 0 ≠ .error .illegalArgument) :
    (copyOfRange (before ++ rest) pointer (pointer + 4) >>= fun word =>
        bytesToInt word >>= next) = .error .illegalArgument ↔
      ∃ b₀ b₁ b₂ b₃ tail, rest = b₀ :: b₁ :: b₂ :: b₃ :: tail ∧
        next b₃.toInt32 = .error .illegalArgument := by
  rw [List.length_append] at hsize
  rcases copyOfRange_word_cases before rest hpointer (toInt_next hpointer (by omega)) with
    ⟨b₀, b₁, b₂, b₃, tail, rfl, hcopy⟩ | ⟨hshort, b₀, b₁, b₂, hcopy⟩
  · rw [hcopy, ok_bind, bytesToInt_word, ok_bind]
    constructor
    · exact fun h => ⟨b₀, b₁, b₂, b₃, tail, rfl, h⟩
    · intro h
      obtain ⟨_, _, _, _, _, heq, h⟩ := h
      cases heq
      exact h
  · rw [hcopy, ok_bind, bytesToInt_word, ok_bind]
    constructor
    · intro h
      exact absurd h (padded hshort)
    · intro h
      obtain ⟨_, _, _, _, _, rfl, _⟩ := h
      exact absurd hshort (by simp)

/-- The characters of a string: a negative length is a range that runs backwards; behind another
    length the run goes on, if all characters are there. -/
theorem loop_chars {classes : List PayloadClass} {before rest : Bytes} {pointer : Int32}
    {b : Int8} {list : List Value} (hplace : pointer.toInt = before.length)
    (hsize : (before ++ rest).length < 2 ^ 29) :
    (copyOfRange (before ++ rest) pointer (pointer + b.toInt32) >>= fun chars =>
        bytesToPayloadLoop (before ++ rest) classes (pointer + b.toInt32)
          (list ++ [.string (bytesToString chars)])) = .error .illegalArgument ↔
      b.toInt < 0 ∨ ∃ chars others, rest = chars ++ others ∧ (chars.length : Int) = b.toInt ∧
        bytesToPayloadLoop (before ++ (chars ++ others)) classes (pointer + b.toInt32)
          (list ++ [.string (bytesToString chars)]) = .error .illegalArgument := by
  have hhigh := b.toInt_lt
  have hlength : (before ++ rest).length = before.length + rest.length := List.length_append
  have hstop : (pointer + b.toInt32).toInt = before.length + b.toInt :=
    toInt_behind hplace (by omega)
  by_cases hnegative : b.toInt < 0
  · rw [copyOfRange_backwards _ (by omega), error_bind]
    exact ⟨fun _ => Or.inl hnegative, fun _ => rfl⟩
  rw [or_iff_right hnegative]
  by_cases hfits : b.toInt ≤ rest.length
  · obtain ⟨part, others, rfl, hpart⟩ : ∃ part others, rest = part ++ others ∧
        (part.length : Int) = b.toInt :=
      ⟨rest.take b.toInt.toNat, rest.drop b.toInt.toNat, (List.take_append_drop _ _).symm, by
        rw [List.length_take_of_le (by omega)]; omega⟩
    rw [copyOfRange_append before part others hplace (by rw [hstop, hpart]), ok_bind]
    constructor
    · exact fun h => ⟨part, others, rfl, hpart, h⟩
    · intro h
      obtain ⟨chars, others', hsplit, hchars, hrun⟩ := h
      obtain ⟨rfl, rfl⟩ := List.append_inj hsplit (by omega)
      exact hrun
  · -- the missing characters are padding, and the pointer ends beyond the array
    rw [copyOfRange_inside before rest hplace (by omega), ok_bind]
    constructor
    · intro h
      exact absurd h (loop_beyond (by omega) (by omega))
    · intro h
      obtain ⟨chars, others, hsplit, hchars, _⟩ := h
      rw [hsplit, List.length_append] at hfits
      omega

/-- The loop makes a range run backwards exactly when it comes to a negative length. -/
theorem loop_eq_illegalArgument_iff {classes : List PayloadClass} {before rest : Bytes}
    {pointer : Int32} {list : List Value} (hpointer : pointer.toInt = before.length)
    (hsize : (before ++ rest).length < 2 ^ 29) :
    bytesToPayloadLoop (before ++ rest) classes pointer list = .error .illegalArgument ↔
      NegativeLength classes rest := by
  -- on the classes; the fields already read pile up in `before`
  induction classes generalizing before rest pointer list with
  | nil =>
    constructor
    · intro h
      unfold bytesToPayloadLoop at h
      split at h <;> cases h
    · intro h
      cases h
  | cons c classes ih =>
    have hlength : (before ++ rest).length = before.length + rest.length := List.length_append
    have hnext : (pointer + 4).toInt = before.length + 4 := toInt_next hpointer (by omega)
    have hassoc : ∀ b₀ b₁ b₂ b₃ tail, before ++ b₀ :: b₁ :: b₂ :: b₃ :: tail
        = (before ++ [b₀, b₁, b₂, b₃]) ++ tail := by simp
    have hplace : ∀ b₀ b₁ b₂ b₃ : Int8,
        (pointer + 4).toInt = ((before ++ [b₀, b₁, b₂, b₃]).length : Nat) := by
      intro b₀ b₁ b₂ b₃
      rw [hnext, List.length_append]
      rfl
    cases c with
    | integer =>
      unfold bytesToPayloadLoop
      rw [negativeLength_integer_iff, word_eq_illegalArgument_iff hpointer hsize]
      · refine exists_congr fun b₀ => exists_congr fun b₁ => exists_congr fun b₂ =>
          exists_congr fun b₃ => exists_congr fun tail => and_congr_right fun hrest => ?_
        subst hrest
        rw [hassoc] at hsize ⊢
        exact ih (hplace b₀ b₁ b₂ b₃) hsize
      · exact fun _ => loop_beyond (by omega) (by omega)
    | string =>
      unfold bytesToPayloadLoop
      rw [negativeLength_string_iff, word_eq_illegalArgument_iff hpointer hsize]
      · refine exists_congr fun b₀ => exists_congr fun b₁ => exists_congr fun b₂ =>
          exists_congr fun b₃ => exists_congr fun tail => and_congr_right fun hrest => ?_
        subst hrest
        rw [hassoc] at hsize ⊢
        rw [loop_chars (hplace b₀ b₁ b₂ b₃) hsize]
        refine or_congr_right (exists_congr fun chars => exists_congr fun others =>
          and_congr_right fun htail => and_congr_right fun hchars => ?_)
        subst htail
        have hlast : (pointer + 4 + b₃.toInt32).toInt
            = ((before ++ [b₀, b₁, b₂, b₃] ++ chars).length : Nat) := by
          have hsum : (before ++ [b₀, b₁, b₂, b₃] ++ chars).length
              = (before ++ [b₀, b₁, b₂, b₃]).length + chars.length := List.length_append
          rw [List.length_append] at hsize
          rw [toInt_behind (hplace b₀ b₁ b₂ b₃) (by omega), ← hchars, hsum]
          rfl
        rw [← List.append_assoc] at hsize ⊢
        exact ih hlast hsize
      · -- the padding is the length, and the characters begin beyond the end
        intro hshort
        have hbeyond : copyOfRange (before ++ rest) (pointer + 4) (pointer + 4 + 0)
            = .error .arrayIndexOutOfBounds := by
          apply copyOfRange_beyond
          · exact le_of_eq (by simp)
          · omega
        show (copyOfRange _ (pointer + 4) (pointer + 4 + 0) >>= _) ≠ _
        rw [hbeyond, error_bind]
        intro h
        cases h

/-! ## `bytesToPayload` -/

/-- The faults of the loop. -/
theorem loop_ensures (bytes : Bytes) (classes : List PayloadClass) (pointer : Int32)
    (list : List Value) :
    Ensures (bytesToPayloadLoop bytes classes pointer list) (fun _ => True) fun thrown =>
      thrown = .badPayloadLength ∨ thrown = .arrayIndexOutOfBounds ∨ thrown = .illegalArgument := by
  have hcopy : ∀ start stop, Ensures (copyOfRange bytes start stop) (fun _ => True) fun thrown =>
      thrown = .badPayloadLength ∨ thrown = .arrayIndexOutOfBounds ∨
        thrown = .illegalArgument := by
    intro start stop
    unfold copyOfRange
    split
    · exact Or.inr (Or.inr rfl)
    · split
      · exact Or.inr (Or.inl rfl)
      · exact trivial
  have hword : ∀ word, Ensures (bytesToInt word) (fun _ => True) fun thrown =>
      thrown = .badPayloadLength ∨ thrown = .arrayIndexOutOfBounds ∨
        thrown = .illegalArgument := by
    intro word
    unfold bytesToInt
    split
    · exact trivial
    · exact Or.inr (Or.inl rfl)
  induction classes generalizing pointer list with
  | nil =>
    unfold bytesToPayloadLoop
    split
    · exact Or.inl rfl
    · exact trivial
  | cons c classes ih =>
    cases c with
    | integer =>
      unfold bytesToPayloadLoop
      refine (hcopy _ _).bind fun word _ _ => (hword word).bind fun value _ _ => ?_
      exact ih _ _
    | string =>
      unfold bytesToPayloadLoop
      refine (hcopy _ _).bind fun word _ _ => (hword word).bind fun len _ _ => ?_
      exact (hcopy _ _).bind fun chars _ _ => ih _ _

/-- After the `catch` clause two exceptions are left. -/
theorem bytesToPayload_eq_error {classes : List PayloadClass} {bytes : Bytes} {thrown : Thrown}
    (h : bytesToPayload classes bytes = .error thrown) :
    thrown = .badPayloadLength ∨ thrown = .illegalArgument := by
  unfold bytesToPayload at h
  obtain ⟨thrown', hloop, rfl⟩ := mapError_eq_error_iff.mp h
  rcases (ensures_iff.mp (loop_ensures bytes classes 0 [])).2 _ hloop with rfl | rfl | rfl
  · exact Or.inl rfl
  · exact Or.inl rfl
  · exact Or.inr rfl

/-- The exception that escapes comes from a negative length and from nothing else. -/
theorem bytesToPayload_eq_illegalArgument_iff {classes : List PayloadClass} {bytes : Bytes}
    (hsize : bytes.length < 2 ^ 29) :
    bytesToPayload classes bytes = .error .illegalArgument ↔ NegativeLength classes bytes := by
  have hstart : (0 : Int32).toInt = ([] : Bytes).length := rfl
  have hloop : bytesToPayloadLoop bytes classes 0 [] = .error .illegalArgument ↔
      NegativeLength classes bytes := loop_eq_illegalArgument_iff hstart hsize
  rw [← hloop, bytesToPayload, mapError_eq_error_iff]
  constructor
  · intro h
    obtain ⟨thrown, hthrown, hcaught⟩ := h
    rw [hthrown]
    cases thrown <;> first | rfl | cases hcaught
  · exact fun h => ⟨_, h, rfl⟩

end DataSerializer

namespace MessageSerializer

open NetworkManager

/-! ## The parser -/

/-- The exceptions of the parser. -/
def parserErrors : List Thrown :=
  [.tooShort, .badLength, .badCheckSum, .badHeader, .badPayloadLength]

/-- The bytes are parsed, or one of the parser's exceptions is thrown. -/
def Closed (bytes : Bytes) : Prop :=
  ∀ thrown, decode bytes = .error thrown → thrown ∈ parserErrors

/-- A packet with the right size and checksum and a known header, whose payload has a string with
    a negative length where the parser looks for one. -/
def HasNegativeLength (bytes : Bytes) : Prop :=
  ∃ h₀ h₁ h₂ h₃ l₀ l₁ l₂ l₃ body c, ∃ type : MessageType, ∃ classes,
    bytes = envelope h₀ h₁ h₂ h₃ l₀ l₁ l₂ l₃ body c ∧
      ((9 + body.length : Nat) : Int) = l₃.toInt ∧ (128 : Int) ∣ (bytes.map Int8.toInt).sum ∧
      type.headerId = h₃.toInt32 ∧ type.payloadTypes = some classes ∧ NegativeLength classes body

/-- The checks throw nothing else than what they say. -/
theorem checkMessage_eq_error {bytes : Bytes} {thrown : Thrown}
    (h : checkMessage bytes = .error thrown) : thrown ∈ parserErrors := by
  by_cases hlong : 9 ≤ bytes.length
  · obtain ⟨h₀, h₁, h₂, h₃, l₀, l₁, l₂, l₃, body, c, rfl⟩ := exists_envelope hlong
    rw [checkMessage, checkMinimalSize_envelope, ok_bind, checkTotalSize_envelope] at h
    split at h
    · cases h
      decide
    · rw [ok_bind, checkChecksum] at h
      split at h <;> cases h
      decide
  · have hshort : checkMinimalSize bytes = .error .tooShort := by
      rw [checkMinimalSize, if_pos (by omega)]
    rw [checkMessage, hshort, error_bind] at h
    cases h
    decide

/-- **Closed errors**: an exception that is not the parser's own escapes exactly when a string with
    a negative length is read. -/
theorem closed_iff (bytes : Bytes) : Closed bytes ↔ ¬ HasNegativeLength bytes := by
  constructor
  · intro hclosed hnegative
    obtain ⟨h₀, h₁, h₂, h₃, l₀, l₁, l₂, l₃, body, c, type, classes, rfl, hsize, hsum, hheader,
      hclasses, hlength⟩ := hnegative
    have hcheck := (checkMessage_envelope_iff h₀ h₁ h₂ h₃ l₀ l₁ l₂ l₃ body c).mpr ⟨hsize, hsum⟩
    have hbyte := l₃.toInt_lt
    have hdecode : decode (envelope h₀ h₁ h₂ h₃ l₀ l₁ l₂ l₃ body c) = .error .illegalArgument := by
      rw [decode, hcheck, ok_bind, initMessage_envelope _ _ _ _ _ _ _ _ _ _ (by omega), ok_bind]
      apply (deserializeMessage_eq_error_iff rfl).mpr
      exact Or.inr ⟨type, classes, hheader, hclasses,
        (DataSerializer.bytesToPayload_eq_illegalArgument_iff (by omega)).mpr hlength⟩
    exact absurd (hclosed _ hdecode) (by decide)
  · intro hnegative thrown hdecode
    unfold decode at hdecode
    rcases bind_eq_error_iff.mp hdecode with hcheck | ⟨_, hcheck, hdecode⟩
    · exact checkMessage_eq_error hcheck
    · obtain ⟨hlong, hshort⟩ := length_of_checkMessage hcheck
      obtain ⟨h₀, h₁, h₂, h₃, l₀, l₁, l₂, l₃, body, c, rfl⟩ := exists_envelope hlong
      obtain ⟨hsize, hsum⟩ := (checkMessage_envelope_iff h₀ h₁ h₂ h₃ l₀ l₁ l₂ l₃ body c).mp hcheck
      rw [length_envelope] at hshort
      rw [initMessage_envelope _ _ _ _ _ _ _ _ _ _ (by omega), ok_bind] at hdecode
      rcases (deserializeMessage_eq_error_iff rfl).mp hdecode with
        ⟨_, rfl⟩ | ⟨type, classes, hheader, hclasses, herror⟩
      · decide
      · rcases DataSerializer.bytesToPayload_eq_error herror with rfl | rfl
        · decide
        · have hlength :=
            (DataSerializer.bytesToPayload_eq_illegalArgument_iff (by omega)).mp herror
          exact absurd ⟨h₀, h₁, h₂, h₃, l₀, l₁, l₂, l₃, body, c, type, classes, rfl, hsize, hsum,
            hheader, hclasses, hlength⟩ hnegative

/-- A text whose length is -1, in a packet that passes all checks. -/
theorem not_closed : ¬ ∀ bytes, Closed bytes := by
  intro h
  have hdecode : decode [0, 0, 0, 103, 0, 0, 0, 13, 0, 0, 0, -1, 13] = .error .illegalArgument := by
    rfl
  have hmem := h _ _ hdecode
  exact absurd hmem (by decide)

end MessageSerializer

end UpsServer.Client
