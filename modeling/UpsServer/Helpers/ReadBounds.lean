import UpsServer.Framework.Fallible
import UpsServer.Helpers.Serializer

/-!
# Which packets are decoded without an over-read

`deserialize` never learns the length of the packet. It stays inside exactly when the packet
holds the two words of the envelope and, for a known header, every field that the format
announces lies inside the packet. A string whose length word is `2 ^ 31` or more counts as
empty and moves the index backwards, so the condition follows the signed index.
-/

namespace UpsServer.Serializer

open Framework

/-! ## The condition on a packet -/

/-- The length word at `index`, as the `int` that `getStringFromMessage` receives. -/
def stringLengthAt (data : ByteString) (index : Int) : Int :=
  asInt (wordAt data index).toNat

/-- All fields of the format lie inside the packet when the first one starts at `index`. -/
def FieldsInside (data : ByteString) : List Char → Int → Prop
  | [], _ => True
  | c :: format, index =>
    match c with
    | 'i' => 0 ≤ index ∧ index + 4 ≤ data.length ∧ FieldsInside data format (index + 4)
    | 's' =>
      0 ≤ index ∧ index + 4 ≤ data.length ∧
        (0 < stringLengthAt data index →
          index + 4 + stringLengthAt data index ≤ data.length) ∧
        FieldsInside data format (asInt (index + 4 + (wordAt data index).toNat))
    | _ => FieldsInside data format index

/-- The envelope and, for a known header, all fields lie inside the packet. -/
def ReadsInside (data : ByteString) : Prop :=
  8 ≤ data.length ∧
    ∀ format, headToFormatMap (wordAt data 0) = some format → FieldsInside data format 8

/-! ## One word, one string -/

/-- A word that lies inside is read as it is stored. -/
theorem parse32intFromArray_of_inside {source : ByteString} {index : Int} (h : 0 ≤ index)
    (hle : index + 4 ≤ source.length) :
    parse32intFromArray source index = .ok (wordAt source index) := by
  rw [parse32intFromArray, readAt_of_inside _ h (by omega),
    readAt_of_inside _ (by omega) (by omega), readAt_of_inside _ (by omega) (by omega),
    readAt_of_inside _ (by omega) (by omega)]
  rfl

/-- A word that does not lie inside is an over-read. -/
theorem parse32intFromArray_of_outside (source : ByteString) (index : Int)
    (h : ¬ (0 ≤ index ∧ index + 4 ≤ source.length)) :
    ∃ i, parse32intFromArray source index = .error (.readOutside i) := by
  have read : ∀ i : Int, readAt CodecFault.readOutside source i = .ok (byteAt source i) ∨
      readAt CodecFault.readOutside source i = .error (.readOutside i) := fun i => by
    by_cases hi : 0 ≤ i ∧ i < source.length
    · exact Or.inl (readAt_of_inside _ hi.1 hi.2)
    · exact Or.inr (readAt_of_outside _ hi)
  unfold parse32intFromArray
  by_cases hfirst : 0 ≤ index ∧ index < source.length
  · -- the first byte is inside, so the last one is not
    have hlast : readAt CodecFault.readOutside source (index + 3)
        = .error (.readOutside (index + 3)) := readAt_of_outside _ (by omega)
    rcases read index with h₀ | h₀
    · rcases read (index + 1) with h₁ | h₁
      · rcases read (index + 2) with h₂ | h₂
        · exact ⟨index + 3, by simp [h₀, h₁, h₂, hlast]⟩
        · exact ⟨index + 2, by simp [h₀, h₁, h₂]⟩
      · exact ⟨index + 1, by simp [h₀, h₁]⟩
    · exact ⟨index, by simp [h₀]⟩
  · exact ⟨index, by simp [readAt_of_outside _ hfirst]⟩

/-- A string is read without an over-read when it is empty or lies inside. -/
theorem getStringFromMessage_of_inside (source : ByteString) (size index : Int)
    (h : 0 ≤ index) (hle : 0 < size → index + size ≤ source.length) :
    getStringFromMessage source size index
      = .ok ((source.drop index.toNat).take size.toNat) := by
  rw [getStringFromMessage]
  -- the copying loop runs `size` times when that is positive, and never otherwise
  by_cases hsize : 0 < size
  · exact readBytes_of_inside _ h (by have := hle hsize; omega)
  · have : size.toNat = 0 := by omega
    rw [this]
    simp [readBytes]

theorem getStringFromMessage_of_outside (source : ByteString) (size index : Int)
    (hpos : 0 < size) (h : source.length < index + size) :
    ∃ i, getStringFromMessage source size index = .error (.readOutside i) :=
  readBytes_of_outside _ (by omega) (by omega)

/-! ## The loop over the format -/

/-- When all fields lie inside, the loop returns. -/
theorem deserializeLoop_of_inside {data : ByteString} {format : List Char} {index : Int}
    (message : Message) (h : FieldsInside data format index) :
    ∃ result, deserializeLoop data format index message = .ok result := by
  induction format generalizing index message with
  | nil => exact ⟨message, rfl⟩
  | cons c format ih =>
    -- one case for an integer, one for a string, one for any other letter
    unfold FieldsInside at h
    unfold deserializeLoop
    split
    · obtain ⟨h0, hle, hrest⟩ := h
      rw [parse32intFromArray_of_inside h0 hle, ok_bind]
      exact ih _ hrest
    · obtain ⟨h0, hle, hstring, hrest⟩ := h
      rw [parse32intFromArray_of_inside h0 hle, ok_bind, ← stringLengthAt,
        getStringFromMessage_of_inside data _ _ (by omega) hstring, ok_bind]
      exact ih _ hrest
    · rename_i hi hs
      split at h
      · exact absurd rfl hi
      · exact absurd rfl hs
      · exact ih _ h

/-- When some field does not lie inside, the loop over-reads. -/
theorem deserializeLoop_of_outside {data : ByteString} {format : List Char} {index : Int}
    (message : Message) (h : ¬ FieldsInside data format index) :
    ∃ i, deserializeLoop data format index message = .error (.readOutside i) := by
  induction format generalizing index message with
  | nil => exact absurd trivial h
  | cons c format ih =>
    unfold FieldsInside at h
    unfold deserializeLoop
    split
    · -- this word is outside, or something later is
      by_cases hword : 0 ≤ index ∧ index + 4 ≤ data.length
      · rw [parse32intFromArray_of_inside hword.1 hword.2, ok_bind]
        exact ih _ (fun hrest => h ⟨hword.1, hword.2, hrest⟩)
      · obtain ⟨i, hi⟩ := parse32intFromArray_of_outside data index hword
        exact ⟨i, by rw [hi, error_bind]⟩
    · -- the length word, the characters, or something later
      by_cases hword : 0 ≤ index ∧ index + 4 ≤ data.length
      · rw [parse32intFromArray_of_inside hword.1 hword.2, ok_bind, ← stringLengthAt]
        by_cases hstring : 0 < stringLengthAt data index →
            index + 4 + stringLengthAt data index ≤ data.length
        · rw [getStringFromMessage_of_inside data _ _ (by omega) hstring, ok_bind]
          exact ih _ (fun hrest => h ⟨hword.1, hword.2, hstring, hrest⟩)
        · obtain ⟨hpos, hlong⟩ := Classical.not_imp.mp hstring
          obtain ⟨i, hi⟩ := getStringFromMessage_of_outside data _ (index + 4) hpos (by omega)
          exact ⟨i, by rw [hi, error_bind]⟩
      · obtain ⟨i, hi⟩ := parse32intFromArray_of_outside data index hword
        exact ⟨i, by rw [hi, error_bind]⟩
    · rename_i hi hs
      split at h
      · exact absurd rfl hi
      · exact absurd rfl hs
      · exact ih _ h

/-! ## The decoder -/

/-- A packet whose reads lie inside is decoded: to a message, or to the null pointer. -/
theorem deserialize_of_inside {data : ByteString} (h : ReadsInside data) :
    ∃ result, deserialize data = .ok result := by
  obtain ⟨hlen, hfields⟩ := h
  unfold deserialize
  rw [parse32intFromArray_of_inside (by omega) (by omega), ok_bind,
    parse32intFromArray_of_inside (by omega) (by omega), ok_bind]
  cases hformat : headToFormatMap (wordAt data 0) with
  | none => exact ⟨none, rfl⟩
  | some format =>
    obtain ⟨message, hmessage⟩ := deserializeLoop_of_inside
      (Message.new (wordAt data 0) format) (hfields format hformat)
    exact ⟨some message, by simp [hmessage]⟩

/-- Any other packet makes the decoder read outside of it. -/
theorem deserialize_of_outside {data : ByteString} (h : ¬ ReadsInside data) :
    ∃ i, deserialize data = .error (.readOutside i) := by
  unfold deserialize
  -- the header word, the size word, and then the fields of a known header
  by_cases hheader : 4 ≤ data.length
  · rw [parse32intFromArray_of_inside (by omega) (by omega), ok_bind]
    by_cases hsize : 8 ≤ data.length
    · rw [parse32intFromArray_of_inside (by omega) (by omega), ok_bind]
      cases hformat : headToFormatMap (wordAt data 0) with
      | none => exact absurd ⟨hsize, fun f hf => by simp [hformat] at hf⟩ h
      | some format =>
        have hfields : ¬ FieldsInside data format 8 := fun hin =>
          h ⟨hsize, fun f hf => by rw [hformat] at hf; cases hf; exact hin⟩
        obtain ⟨i, hi⟩ := deserializeLoop_of_outside
          (Message.new (wordAt data 0) format) hfields
        exact ⟨i, by simp [hi]⟩
    · obtain ⟨i, hi⟩ := parse32intFromArray_of_outside data 4 (by omega)
      exact ⟨i, by rw [hi, error_bind]⟩
  · obtain ⟨i, hi⟩ := parse32intFromArray_of_outside data 0 (by omega)
    exact ⟨i, by rw [hi, error_bind]⟩

/-- **Read bounds**: `deserialize` reads only inside the packet exactly when the packet holds
    its envelope and every field its header announces. -/
theorem deserialize_reads_inside_iff (data : ByteString) :
    (∀ i, deserialize data ≠ .error (.readOutside i)) ↔ ReadsInside data := by
  constructor
  · intro h
    by_contra hout
    obtain ⟨i, hi⟩ := deserialize_of_outside hout
    exact h i hi
  · intro h i hi
    obtain ⟨result, hresult⟩ := deserialize_of_inside h
    rw [hresult] at hi
    cases hi

/-- A one-byte packet is read past its end, although it should yield the null pointer. -/
theorem deserialize_over_reads_one_byte :
    ¬ ∀ data : ByteString, 1 ≤ data.length →
      ∀ i, deserialize data ≠ .error (.readOutside i) := by
  intro h
  exact h [0] (by decide) 1 rfl

end UpsServer.Serializer
