import UpsServer.Helpers.ReadBounds
import Mathlib.Data.List.Forall2

/-!
# What the bytes of a message look like

The fields of a payload as bytes, and what `deserialize` makes of a packet in terms of them. The
decoder reads the fields its header announces and does not care what follows them. A string
whose length word is `2 ^ 31` or more is read as the empty one.
-/

namespace UpsServer

open Framework

/-! ## Payloads and formats -/

/-- The entry is of the kind that the letter of the format names. -/
def Datum.HasKind : Datum → Char → Prop
  | .int _, c => c = 'i'
  | .str _, c => c = 's'

instance : (datum : Datum) → (c : Char) → Decidable (datum.HasKind c)
  | .int _, c => inferInstanceAs (Decidable (c = 'i'))
  | .str _, c => inferInstanceAs (Decidable (c = 's'))

/-- The payload has one entry for every letter of the format, of its kind. -/
abbrev Matches (payload : List Datum) (format : List Char) : Prop :=
  List.Forall₂ Datum.HasKind payload format

/-- The bytes of an entry: an integer is one word, a string its length and its characters. -/
def Datum.encode : Datum → ByteString
  | .int value => wordBytes value
  | .str value => wordBytes (UInt32.ofNat value.length) ++ value

/-- The bytes of all entries. -/
def encodePayload (payload : List Datum) : ByteString := payload.flatMap Datum.encode

@[simp] theorem encodePayload_nil : encodePayload [] = [] := rfl

@[simp] theorem encodePayload_cons (datum : Datum) (payload : List Datum) :
    encodePayload (datum :: payload) = datum.encode ++ encodePayload payload := rfl

/-- Bytes from which the decoder reads the payload, when strings come last. -/
inductive Stored : List Datum → ByteString → Prop where
  | nil : Stored [] []
  | int {payload : List Datum} {bytes : ByteString} (value : UInt32)
      (rest : Stored payload bytes) : Stored (.int value :: payload) (wordBytes value ++ bytes)
  | str (length : UInt32) (value : ByteString)
      (fits : (asInt length.toNat).toNat = value.length) :
      Stored [.str value] (wordBytes length ++ value)

/-- A string can only be the last field. -/
def StringsLast : List Char → Prop
  | [] => True
  | c :: format => c = 'i' ∧ StringsLast format ∨ c = 's' ∧ format = []

instance : (format : List Char) → Decidable (StringsLast format)
  | [] => isTrue trivial
  | c :: format =>
    have := instDecidableStringsLast format
    inferInstanceAs (Decidable (c = 'i' ∧ StringsLast format ∨ c = 's' ∧ format = []))

namespace Serializer

/-! ## One word, one string -/

/-- A word is read where its bytes stand. -/
theorem parse32intFromArray_eq_ok_iff (before : ByteString) {rest : ByteString} {w : UInt32} :
    parse32intFromArray (before ++ rest) before.length = .ok w ↔
      ∃ tail, rest = wordBytes w ++ tail := by
  constructor
  · intro h
    by_cases hlen : 4 ≤ rest.length
    · -- the four bytes that are there are the bytes of some word
      obtain ⟨b₀, b₁, b₂, b₃, tail, rfl⟩ : ∃ b₀ b₁ b₂ b₃ tail,
          rest = b₀ :: b₁ :: b₂ :: b₃ :: tail := by
        match rest, hlen with
        | b₀ :: b₁ :: b₂ :: b₃ :: tail, _ => exact ⟨b₀, b₁, b₂, b₃, tail, rfl⟩
      have hbytes : b₀ :: b₁ :: b₂ :: b₃ :: tail
          = wordBytes (wordOfBytes b₀ b₁ b₂ b₃) ++ tail := by
        rw [wordBytes_wordOfBytes]
        rfl
      have hlen' : (before.length : Int) + 4
          ≤ (before ++ (b₀ :: b₁ :: b₂ :: b₃ :: tail)).length := by
        rw [List.length_append]
        omega
      rw [parse32intFromArray_of_inside (by omega) hlen', hbytes, wordAt_append] at h
      exact ⟨tail, by rw [hbytes, Except.ok.inj h]⟩
    · -- too few bytes are an over-read
      obtain ⟨i, hi⟩ := parse32intFromArray_of_outside (before ++ rest) before.length
        (by rw [List.length_append]; omega)
      rw [hi] at h
      cases h
  · rintro ⟨tail, rfl⟩
    have hlen : (before.length : Int) + 4 ≤ (before ++ (wordBytes w ++ tail)).length := by
      rw [List.length_append, List.length_append, length_wordBytes]
      omega
    rw [parse32intFromArray_of_inside (by omega) hlen, wordAt_append]

/-- A string is read where its characters stand. -/
theorem getStringFromMessage_eq_ok_iff {before rest value : ByteString} {size : Int} :
    getStringFromMessage (before ++ rest) size before.length = .ok value ↔
      value.length = size.toNat ∧ ∃ tail, rest = value ++ tail := by
  constructor
  · intro h
    -- a size that is not positive reads nothing, wherever the index stands
    by_cases hinside : 0 < size → (before.length : Int) + size ≤ (before ++ rest).length
    · rw [getStringFromMessage_of_inside _ _ _ (by omega) hinside] at h
      rw [← Except.ok.inj h]
      simp only [Int.toNat_natCast, List.drop_left, List.length_take]
      refine ⟨?_, rest.drop size.toNat, (List.take_append_drop _ _).symm⟩
      rw [List.length_append] at hinside
      omega
    · obtain ⟨hpos, hlong⟩ := Classical.not_imp.mp hinside
      obtain ⟨i, hi⟩ := getStringFromMessage_of_outside (before ++ rest) size before.length hpos
        (by omega)
      rw [hi] at h
      cases h
  · rintro ⟨hlen, tail, rfl⟩
    rw [getStringFromMessage_of_inside _ _ _ (by omega)
      (by rw [List.length_append, List.length_append]; omega)]
    simp [← hlen]

/-! ## The loop over the format -/

/-- The message with more payload entries. -/
def addAll (message : Message) (payload : List Datum) : Message :=
  payload.foldl Message.addData message

theorem addAll_eq (message : Message) (payload : List Datum) :
    addAll message payload = { message with payload := message.payload ++ payload } := by
  induction payload generalizing message with
  | nil => simp [addAll]
  | cons datum payload ih =>
    have hcons : addAll message (datum :: payload) = addAll (message.addData datum) payload := rfl
    rw [hcons, ih]
    simp [Message.addData]

/-- The loop reads the fields that stand at its index and ignores the rest of the packet. -/
theorem deserializeLoop_eq_ok_iff {format : List Char} (hformat : StringsLast format)
    (before : ByteString) {rest : ByteString} {message result : Message} :
    deserializeLoop (before ++ rest) format before.length message = .ok result ↔
      ∃ payload fields tail, rest = fields ++ tail ∧ Matches payload format ∧
        Stored payload fields ∧ result = addAll message payload := by
  -- on the format; the bytes already read pile up in `before`
  induction format generalizing before rest message with
  | nil =>
    constructor
    · intro h
      exact ⟨[], [], rest, rfl, .nil, .nil, (Except.ok.inj h).symm⟩
    · rintro ⟨payload, fields, tail, -, hmatches, -, rfl⟩
      cases hmatches
      rfl
  | cons c format ih =>
    rcases hformat with ⟨rfl, hrest⟩ | ⟨rfl, rfl⟩
    · -- the word is read, and the rest of the fields stands behind it
      have hloop : ∀ w tail, rest = wordBytes w ++ tail →
          (deserializeLoop (before ++ rest) format (before.length + 4)
              (message.addData (.int w)) = .ok result ↔
            ∃ payload fields tail', tail = fields ++ tail' ∧ Matches payload format ∧
              Stored payload fields ∧ result = addAll (message.addData (.int w)) payload) := by
        rintro w tail rfl
        have hindex : (before.length : Int) + 4 = ((before ++ wordBytes w).length : Nat) := by
          simp
        rw [← List.append_assoc, hindex]
        exact ih hrest _
      simp only [deserializeLoop, bind_eq_ok_iff, parse32intFromArray_eq_ok_iff]
      constructor
      · rintro ⟨w, ⟨tail, htail⟩, h⟩
        obtain ⟨payload, fields, tail', rfl, hmatches, hstored, rfl⟩ := (hloop w tail htail).mp h
        exact ⟨.int w :: payload, wordBytes w ++ fields, tail', by rw [htail, List.append_assoc],
          .cons rfl hmatches, .int w hstored, rfl⟩
      · rintro ⟨payload, fields, tail', hsplit, hmatches, hstored, hresult⟩
        cases hmatches with
        | @cons datum _ payload _ hkind hmatches =>
          cases hstored with
          | @int _ bytes w hstored =>
            rw [List.append_assoc] at hsplit
            exact ⟨w, ⟨_, hsplit⟩, (hloop w _ hsplit).mpr
              ⟨payload, bytes, tail', rfl, hmatches, hstored, hresult⟩⟩
          | str => exact absurd hkind (by simp [Datum.HasKind])
    · -- the string is the last field
      have hstring : ∀ w tail value, rest = wordBytes w ++ tail →
          (getStringFromMessage (before ++ rest) (asInt w.toNat) (before.length + 4)
              = .ok value ↔
            value.length = (asInt w.toNat).toNat ∧ ∃ tail', tail = value ++ tail') := by
        rintro w tail value rfl
        have hindex : (before.length : Int) + 4 = ((before ++ wordBytes w).length : Nat) := by
          simp
        rw [← List.append_assoc, hindex]
        exact getStringFromMessage_eq_ok_iff
      simp only [deserializeLoop, bind_eq_ok_iff, parse32intFromArray_eq_ok_iff]
      constructor
      · rintro ⟨w, ⟨tail, htail⟩, value, hvalue, h⟩
        obtain ⟨hlen, tail', rfl⟩ := (hstring w tail value htail).mp hvalue
        exact ⟨[.str value], wordBytes w ++ value, tail', by rw [htail, List.append_assoc],
          .cons rfl .nil, .str w value hlen.symm, (Except.ok.inj h).symm⟩
      · rintro ⟨payload, fields, tail', hsplit, hmatches, hstored, hresult⟩
        cases hmatches with
        | @cons datum _ payload _ hkind hmatches =>
          cases hmatches
          cases hstored with
          | int => exact absurd hkind (by simp [Datum.HasKind])
          | str w value hfits =>
            rw [List.append_assoc] at hsplit
            exact ⟨w, ⟨_, hsplit⟩, value, (hstring w _ value hsplit).mpr ⟨hfits.symm, tail', rfl⟩,
              by rw [hresult]; rfl⟩

/-! ## The decoder -/

/-- The two words of the envelope are read first. -/
theorem deserialize_eq_ok_iff {data : ByteString} {result : Option Message} :
    deserialize data = .ok result ↔
      ∃ header size rest, data = wordBytes header ++ (wordBytes size ++ rest) ∧
        (match headToFormatMap header with
          | none => (.ok none : Except CodecFault (Option Message))
          | some format => do
            let message ← deserializeLoop data format 8 (Message.new header format)
            return some message) = .ok result := by
  have hsecond : ∀ header size rest, data = wordBytes header ++ rest →
      (parse32intFromArray data 4 = .ok size ↔ ∃ tail, rest = wordBytes size ++ tail) := by
    rintro header size rest rfl
    exact parse32intFromArray_eq_ok_iff (wordBytes header)
  have hfirst : ∀ header, parse32intFromArray data 0 = .ok header ↔
      ∃ tail, data = wordBytes header ++ tail := fun header =>
    parse32intFromArray_eq_ok_iff []
  unfold deserialize
  simp only [bind_eq_ok_iff, hfirst]
  constructor
  · rintro ⟨header, ⟨tail, htail⟩, size, hsize, h⟩
    obtain ⟨rest, rfl⟩ := (hsecond header size tail htail).mp hsize
    exact ⟨header, size, rest, htail, h⟩
  · rintro ⟨header, size, rest, hdata, h⟩
    exact ⟨header, ⟨_, hdata⟩, size, (hsecond header size _ hdata).mpr ⟨rest, rfl⟩, h⟩

/-- The null pointer is returned for the packets with an unknown header. -/
theorem deserialize_eq_ok_none_iff {data : ByteString} :
    deserialize data = .ok none ↔
      ∃ header size rest, data = wordBytes header ++ (wordBytes size ++ rest) ∧
        headToFormatMap header = none := by
  rw [deserialize_eq_ok_iff]
  refine exists_congr fun header => exists_congr fun size => exists_congr fun rest =>
    and_congr_right fun _ => ?_
  -- with a format the decoder returns a message or faults
  cases headToFormatMap header with
  | none => simp
  | some format => simp [bind_eq_ok_iff]

/-- A message is returned for the packets that begin with its header, any size word and its
    fields. -/
theorem deserialize_eq_ok_some_iff {data : ByteString} {message : Message}
    (hstrings : StringsLast (formatOf message.header)) :
    deserialize data = .ok (some message) ↔
      headToFormatMap message.header = some message.msgFormat ∧ message.player = none ∧
        Matches message.payload message.msgFormat ∧
        ∃ size fields rest, Stored message.payload fields ∧
          data = wordBytes message.header ++ (wordBytes size ++ (fields ++ rest)) := by
  have hloop : ∀ header size rest format, StringsLast format →
      data = wordBytes header ++ (wordBytes size ++ rest) →
      (deserializeLoop data format 8 (Message.new header format) = .ok message ↔
        ∃ payload fields tail, rest = fields ++ tail ∧ Matches payload format ∧
          Stored payload fields ∧ message = addAll (Message.new header format) payload) := by
    rintro header size rest format hformat rfl
    rw [← List.append_assoc]
    exact deserializeLoop_eq_ok_iff hformat (wordBytes header ++ wordBytes size)
  rw [deserialize_eq_ok_iff]
  constructor
  · rintro ⟨header, size, rest, hdata, h⟩
    cases hformat : headToFormatMap header with
    | none => simp [hformat] at h
    | some format =>
      simp only [hformat, bind_eq_ok_iff] at h
      obtain ⟨result, hresult, h⟩ := h
      obtain rfl : result = message := Option.some.inj (Except.ok.inj h)
      -- the header word that was read is the header of the message
      have hheader : result.header = header := (deserializeLoop_keeps hresult).1
      have hlast : StringsLast format := by
        rw [hheader, formatOf, hformat] at hstrings
        exact hstrings
      obtain ⟨payload, fields, tail, rfl, hmatches, hstored, rfl⟩ :=
        (hloop header size rest format hlast hdata).mp hresult
      simp only [addAll_eq, Message.new, List.nil_append]
      exact ⟨hformat, trivial, hmatches, size, fields, tail, hstored, hdata⟩
  · rintro ⟨hformat, hplayer, hmatches, size, fields, rest, hstored, hdata⟩
    have hlast : StringsLast message.msgFormat := by
      rw [formatOf, hformat] at hstrings
      exact hstrings
    -- what the loop builds from these bytes is the message itself
    refine ⟨message.header, size, fields ++ rest, hdata, ?_⟩
    simp only [hformat, bind_eq_ok_iff]
    refine ⟨message, (hloop _ _ _ _ hlast hdata).mpr
      ⟨message.payload, fields, rest, rfl, hmatches, hstored, ?_⟩, rfl⟩
    rw [addAll_eq, Message.new, List.nil_append, ← hplayer]

end Serializer

end UpsServer
