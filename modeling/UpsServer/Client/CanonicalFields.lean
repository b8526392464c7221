import UpsServer.Client.PayloadFields

/-!
# Payloads that survive the codec

What `payloadToBytes` writes, and when reading and writing take each other back. Reading never
shortens a string: its characters, written again, take at least as many bytes as were read. So a
payload can only come back if every field takes up its own place again.
-/

namespace UpsServer.Client

open Framework

/-! ## What is written -/

/-- The bytes of a value. -/
def Value.toBytes : Value → Bytes
  | .integer value => DataSerializer.intToBytes value
  | .string value =>
    DataSerializer.intToBytes (Int32.ofNat (stringLength value)) ++ stringToBytes value

/-- The bytes of all values. -/
def payloadBytes (payload : List Value) : Bytes := payload.flatMap Value.toBytes

@[simp] theorem payloadBytes_nil : payloadBytes [] = [] := rfl

@[simp] theorem payloadBytes_cons (value : Value) (payload : List Value) :
    payloadBytes (value :: payload) = value.toBytes ++ payloadBytes payload := rfl

/-- The loop appends the bytes of the values. -/
theorem DataSerializer.payloadToBytesLoop_eq (payload : List Value) (byteBuilder : Bytes) :
    payloadToBytesLoop (payload.map Value.getClass) payload byteBuilder
      = .ok (byteBuilder ++ payloadBytes payload) := by
  induction payload generalizing byteBuilder with
  | nil => rw [payloadBytes_nil, List.append_nil]; rfl
  | cons value payload ih =>
    rw [List.map_cons]
    unfold payloadToBytesLoop
    rw [if_neg (fun hne => hne rfl), payloadBytes_cons, ← List.append_assoc]
    cases value with
    | integer value =>
      show payloadToBytesLoop _ payload (byteBuilder ++ intToBytes value) = _
      exact ih _
    | string value =>
      show payloadToBytesLoop _ payload
        (byteBuilder ++ intToBytes (Int32.ofNat (stringLength value)) ++ stringToBytes value) = _
      rw [ih, List.append_assoc byteBuilder]
      rfl

/-- A payload of the right classes is written as its bytes; null classes have no payload. -/
theorem DataSerializer.payloadToBytes_eq {classes : Option (List PayloadClass)}
    {payload : List Value} (h : payload.map Value.getClass = classes.getD []) :
    payloadToBytes classes payload = .ok (payloadBytes payload) := by
  cases classes with
  | none =>
    obtain rfl : payload = [] := List.map_eq_nil_iff.mp h
    rfl
  | some classes =>
    obtain rfl : payload.map Value.getClass = classes := h
    show (if (payload.map Value.getClass).length ≠ payload.length then _
      else payloadToBytesLoop _ payload []) = _
    rw [if_neg (fun hne => hne (List.length_map _)), payloadToBytesLoop_eq]
    rfl

/-- Fields are read as values of their classes. -/
theorem Fields.getClass {classes : List PayloadClass} {payload : List Value} {bytes : Bytes}
    (h : Fields classes payload bytes) : payload.map Value.getClass = classes := by
  induction h with
  | nil => rfl
  | integer b₀ b₁ b₂ b₃ others ih => rw [List.map_cons, ih]; rfl
  | string b₀ b₁ b₂ b₃ chars length_eq others ih => rw [List.map_cons, ih]; rfl

/-! ## Strings -/

@[simp] theorem bytesToString_stringToBytes (value : String) :
    bytesToString (stringToBytes value) = value := by
  have hbytes : (stringToBytes value).map Int8.toUInt8 = Utf8.encode value.toList := by
    rw [stringToBytes, List.map_map]
    exact List.map_id _
  rw [bytesToString, hbytes, Utf8.decode_encode, String.ofList_toList]

theorem stringToBytes_bytesToString (chars : Bytes) :
    stringToBytes (bytesToString chars)
      = (Utf8.encode (Utf8.decode (chars.map Int8.toUInt8))).map UInt8.toInt8 := by
  rw [stringToBytes, bytesToString, String.toList_ofList]

theorem stringLength_le (value : String) :
    stringLength value ≤ (stringToBytes value).length := by
  rw [stringToBytes, List.length_map]
  exact Utf8.utf16Length_le_length_encode value.toList

/-- Reading and writing again does not shorten. -/
theorem length_le_length_stringToBytes (chars : Bytes) :
    chars.length ≤ (stringToBytes (bytesToString chars)).length := by
  have hle := Utf8.length_le_length_encode_decode (chars.map Int8.toUInt8)
  rw [List.length_map] at hle
  rw [stringToBytes_bytesToString, List.length_map]
  exact hle

/-- A byte without sign bit is a character of its own. -/
theorem toUInt8_lt_iff (b : Int8) : b.toUInt8 < 128 ↔ 0 ≤ b.toInt := by
  have hnat : b.toInt = (b.toUInt8.toNat : Int).bmod 256 :=
    BitVec.toInt_eq_toNat_bmod b.toBitVec
  have hlt := b.toUInt8.toNat_lt
  rw [UInt8.lt_iff_toNat_lt, hnat, Int.bmod_def]
  simp only [UInt8.reduceToNat]
  omega

/-- Characters come back with their number exactly when all bytes are ASCII. -/
theorem stringToBytes_bytesToString_iff (chars : Bytes) :
    stringToBytes (bytesToString chars) = chars ∧
        stringLength (bytesToString chars) = chars.length ↔
      ∀ b ∈ chars, 0 ≤ b.toInt := by
  have hiff := Utf8.encode_decode_iff (chars.map Int8.toUInt8)
  have hback : ∀ bytes : List UInt8, bytes.map UInt8.toInt8 = chars ↔
      bytes = chars.map Int8.toUInt8 := by
    intro bytes
    constructor
    · intro h
      rw [← h, List.map_map]
      exact (List.map_id _).symm
    · intro h
      rw [h, List.map_map]
      exact List.map_id _
  rw [stringToBytes_bytesToString, hback, stringLength, bytesToString, String.toList_ofList]
  rw [List.length_map] at hiff
  rw [hiff, List.forall_mem_map]
  exact forall₂_congr fun b _ => toUInt8_lt_iff b

/-- A value of which nothing is lost: an integer that a byte holds, an ASCII string. -/
def Value.Narrow : Value → Prop
  | .integer value => -128 ≤ value.toInt ∧ value.toInt ≤ 127
  | .string value => ∀ c ∈ value.toList, c.val ≤ 127

instance : (value : Value) → Decidable value.Narrow
  | .integer value => inferInstanceAs (Decidable (-128 ≤ value.toInt ∧ value.toInt ≤ 127))
  | .string value => List.decidableBAll (fun c : Char => c.val ≤ 127) value.toList

/-- The code units of a string are as many as its bytes exactly for ASCII. -/
theorem stringLength_eq_iff (value : String) :
    stringLength value = (stringToBytes value).length ↔ (Value.string value).Narrow := by
  rw [stringToBytes, List.length_map, stringLength, Utf8.utf16Length_eq_length_encode_iff]
  exact forall₂_congr fun c _ => Char.utf8Size_eq_one_iff

/-! ## Fields without ignored bytes -/

/-- Fields whose words have only their last byte filled and whose characters are ASCII. -/
inductive PlainFields : List PayloadClass → Bytes → Prop where
  | nil : PlainFields [] []
  | integer {classes : List PayloadClass} {bytes : Bytes} (b : Int8)
      (others : PlainFields classes bytes) :
      PlainFields (.integer :: classes) (0 :: 0 :: 0 :: b :: bytes)
  | string {classes : List PayloadClass} {bytes : Bytes} (b : Int8) (chars : Bytes)
      (length_eq : (chars.length : Int) = b.toInt) (ascii : ∀ c ∈ chars, 0 ≤ c.toInt)
      (others : PlainFields classes bytes) :
      PlainFields (.string :: classes) (0 :: 0 :: 0 :: b :: (chars ++ bytes))

/-- What was read takes at least as many bytes when it is written. -/
theorem Fields.length_le {classes : List PayloadClass} {payload : List Value} {bytes : Bytes}
    (h : Fields classes payload bytes) : bytes.length ≤ (payloadBytes payload).length := by
  induction h with
  | nil => exact Nat.le_refl 0
  | integer b₀ b₁ b₂ b₃ others ih =>
    rw [payloadBytes_cons, List.length_append]
    simp only [List.length_cons, Value.toBytes, DataSerializer.intToBytes, List.length_nil]
    omega
  | string b₀ b₁ b₂ b₃ chars length_eq others ih =>
    have hchars := length_le_length_stringToBytes chars
    rw [payloadBytes_cons, List.length_append]
    simp only [List.length_cons, List.length_append, Value.toBytes, DataSerializer.intToBytes,
      List.length_nil]
    omega

/-- The byte of a small number is that number. -/
theorem toInt_toInt8_ofNat {n : Nat} (h : n < 128) : (Int32.ofNat n).toInt8.toInt = n := by
  rw [Int32.toInt8_ofNat', Int8.toInt_ofNat_of_lt (by omega)]

/-- **Writing what was read**: the bytes come back exactly when no byte of them was ignored and
    all characters are ASCII. -/
theorem Fields.payloadBytes_eq_iff {classes : List PayloadClass} {payload : List Value}
    {bytes : Bytes} (h : Fields classes payload bytes) :
    payloadBytes payload = bytes ↔ PlainFields classes bytes := by
  constructor
  · intro hbytes
    induction h with
    | nil => exact .nil
    | @integer classes payload bytes b₀ b₁ b₂ b₃ others ih =>
      have hcons : 0 :: 0 :: 0 :: b₃.toInt32.toInt8 :: payloadBytes payload
          = b₀ :: b₁ :: b₂ :: b₃ :: bytes := hbytes
      simp only [List.cons.injEq] at hcons
      obtain ⟨rfl, rfl, rfl, _, hothers⟩ := hcons
      exact .integer b₃ (ih hothers)
    | @string classes payload bytes b₀ b₁ b₂ b₃ chars length_eq others ih =>
      have hcons : 0 :: 0 :: 0 :: (Int32.ofNat (stringLength (bytesToString chars))).toInt8 ::
            (stringToBytes (bytesToString chars) ++ payloadBytes payload)
          = b₀ :: b₁ :: b₂ :: b₃ :: (chars ++ bytes) := hbytes
      simp only [List.cons.injEq] at hcons
      obtain ⟨rfl, rfl, rfl, hlen, happend⟩ := hcons
      -- neither part can shrink, so both keep their places
      have hgrow := length_le_length_stringToBytes chars
      have hgrow' := others.length_le
      have htotal := congrArg List.length happend
      rw [List.length_append, List.length_append] at htotal
      obtain ⟨hchars, hothers⟩ := List.append_inj happend (by omega)
      have hunits := stringLength_le (bytesToString chars)
      have hbyte := b₃.toInt_lt
      have hsmall := toInt_toInt8_ofNat (n := stringLength (bytesToString chars)) (by omega)
      rw [hlen] at hsmall
      have hascii := (stringToBytes_bytesToString_iff chars).mp ⟨hchars, by omega⟩
      exact .string b₃ chars length_eq hascii (ih hothers)
  · intro hplain
    induction h with
    | nil => rfl
    | @integer classes payload bytes b₀ b₁ b₂ b₃ others ih =>
      cases hplain with
      | integer _ hothers =>
        rw [payloadBytes_cons, ih hothers, Value.toBytes, DataSerializer.intToBytes,
          Int8.toInt8_toInt32]
        rfl
    | @string classes payload bytes b₀ b₁ b₂ b₃ chars length_eq others ih =>
      obtain ⟨rfl, rfl, rfl, hascii, hothers⟩ : b₀ = 0 ∧ b₁ = 0 ∧ b₂ = 0 ∧
          (∀ c ∈ chars, 0 ≤ c.toInt) ∧ PlainFields classes bytes := by
        generalize hwhole : chars ++ bytes = whole at hplain
        cases hplain with
        | string b chars' length_eq' ascii hothers =>
          -- both readings of the length word agree
          obtain ⟨rfl, rfl⟩ := List.append_inj hwhole (by omega)
          exact ⟨rfl, rfl, rfl, ascii, hothers⟩
      obtain ⟨hchars, hlength⟩ := (stringToBytes_bytesToString_iff chars).mpr hascii
      have hbyte := b₃.toInt_lt
      have hword : (Int32.ofNat chars.length).toInt8 = b₃ := by
        apply Int8.toInt.inj
        rw [toInt_toInt8_ofNat (by omega), length_eq]
      rw [payloadBytes_cons, ih hothers, Value.toBytes, DataSerializer.intToBytes, hlength, hword,
        hchars]
      rfl

/-! ## Values that come back -/

/-- Plain fields are read as values of which nothing is lost. -/
theorem Fields.narrow {classes : List PayloadClass} {payload : List Value} {bytes : Bytes}
    (h : Fields classes payload bytes) (hplain : PlainFields classes bytes) :
    ∀ value ∈ payload, value.Narrow := by
  induction h with
  | nil => exact fun _ hmem => absurd hmem List.not_mem_nil
  | @integer classes payload bytes b₀ b₁ b₂ b₃ others ih =>
    cases hplain with
    | integer _ hothers =>
      have hlow := b₃.le_toInt
      have hhigh := b₃.toInt_lt
      refine List.forall_mem_cons.mpr ⟨?_, ih hothers⟩
      show -128 ≤ b₃.toInt32.toInt ∧ b₃.toInt32.toInt ≤ 127
      rw [Int8.toInt_toInt32]
      omega
  | @string classes payload bytes b₀ b₁ b₂ b₃ chars length_eq others ih =>
    generalize hwhole : chars ++ bytes = whole at hplain
    cases hplain with
    | string b chars' length_eq' ascii hothers =>
      obtain ⟨rfl, rfl⟩ := List.append_inj hwhole (by omega)
      obtain ⟨hchars, hlength⟩ := (stringToBytes_bytesToString_iff chars).mpr ascii
      refine List.forall_mem_cons.mpr ⟨(stringLength_eq_iff _).mp ?_, ih hothers⟩
      rw [hlength, hchars]

/-- Values of which nothing is lost are read from their bytes. -/
theorem fields_payloadBytes {payload : List Value} (h : ∀ value ∈ payload, value.Narrow)
    (hsize : (payloadBytes payload).length < 128) :
    Fields (payload.map Value.getClass) payload (payloadBytes payload) := by
  induction payload with
  | nil => exact .nil
  | cons value payload ih =>
    obtain ⟨hvalue, hothers⟩ := List.forall_mem_cons.mp h
    rw [payloadBytes_cons, List.length_append] at hsize
    have hfields := ih hothers (by omega)
    cases value with
    | integer value =>
      have hback : value.toInt8.toInt32 = value := by
        obtain ⟨hlow, hhigh⟩ := hvalue
        apply Int32.toInt.inj
        rw [Int8.toInt_toInt32, Int32.toInt_toInt8, Int.bmod_eq_of_le] <;> omega
      have hread := Fields.integer 0 0 0 value.toInt8 hfields
      rw [hback] at hread
      exact hread
    | string value =>
      have hunits := (stringLength_eq_iff value).mpr hvalue
      simp only [Value.toBytes, List.length_append] at hsize
      have hlength : ((stringToBytes value).length : Int)
          = (Int32.ofNat (stringLength value)).toInt8.toInt := by
        rw [toInt_toInt8_ofNat (by omega), hunits]
      have hread := Fields.string 0 0 0 _ (stringToBytes value) hlength hfields
      rw [bytesToString_stringToBytes] at hread
      exact hread

/-- **Reading what was written**: a payload comes back from its bytes exactly when nothing of its
    values is lost. -/
theorem fields_payloadBytes_iff {payload : List Value}
    (hsize : (payloadBytes payload).length < 128) :
    Fields (payload.map Value.getClass) payload (payloadBytes payload) ↔
      ∀ value ∈ payload, value.Narrow := by
  constructor
  · intro hfields
    exact hfields.narrow (hfields.payloadBytes_eq_iff.mp rfl)
  · intro h
    exact fields_payloadBytes h hsize

end UpsServer.Client
