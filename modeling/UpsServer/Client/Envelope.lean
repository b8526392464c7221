import UpsServer.Client.MessageSerializer
import UpsServer.Client.PayloadFields
import UpsServer.Framework.RunningSums

/-!
# What the checks of a packet say

`checkMessage`, `initMessage` and `deserializeMessage` in terms of the bytes of a packet. The size
is read from one signed byte, so no packet of 128 bytes or more is accepted. The running sum of
the checksum may be negative, yet it vanishes exactly when 128 divides the sum of all bytes.
-/

namespace UpsServer.Client

open Framework

/-- The bytes of a packet: header word, size word, payload and checksum. -/
def envelope (h₀ h₁ h₂ h₃ l₀ l₁ l₂ l₃ : Int8) (body : Bytes) (c : Int8) : Bytes :=
  [h₀, h₁, h₂, h₃] ++ [l₀, l₁, l₂, l₃] ++ body ++ [c]

theorem length_envelope (h₀ h₁ h₂ h₃ l₀ l₁ l₂ l₃ : Int8) (body : Bytes) (c : Int8) :
    (envelope h₀ h₁ h₂ h₃ l₀ l₁ l₂ l₃ body c).length = 9 + body.length := by
  simp only [envelope, List.length_append, List.length_cons, List.length_nil]
  omega

/-- A signed byte holds a size exactly below 128. -/
theorem toInt_ofNat_eq_iff (n : Nat) : (n : Int) = (Int8.ofNat n).toInt ↔ n < 128 := by
  have hbyte := (Int8.ofNat n).toInt_lt
  constructor
  · intro h
    omega
  · intro h
    rw [Int8.toInt_ofNat_of_lt (by omega)]

/-- Modulo 128 a byte is the same with and without its sign. -/
theorem toInt_modEq_toNat (b : Int8) : b.toInt ≡ (b.toUInt8.toNat : Int) [ZMOD 128] := by
  have hbmod : b.toInt = (b.toUInt8.toNat : Int).bmod 256 :=
    BitVec.toInt_eq_toNat_bmod b.toBitVec
  have hmod : (b.toUInt8.toNat : Int).bmod 256 ≡ (b.toUInt8.toNat : Int) [ZMOD 256] :=
    Int.bmod_emod
  rw [hbmod]
  exact hmod.of_dvd ⟨2, rfl⟩

/-- Nine bytes are enough for a packet. -/
theorem exists_envelope {bytes : Bytes} (h : 9 ≤ bytes.length) :
    ∃ h₀ h₁ h₂ h₃ l₀ l₁ l₂ l₃ body c, bytes = envelope h₀ h₁ h₂ h₃ l₀ l₁ l₂ l₃ body c := by
  match bytes, h with
  | h₀ :: h₁ :: h₂ :: h₃ :: l₀ :: l₁ :: l₂ :: l₃ :: b :: rest, _ =>
    refine ⟨h₀, h₁, h₂, h₃, l₀, l₁, l₂, l₃, (b :: rest).dropLast,
      (b :: rest).getLast (List.cons_ne_nil b rest), ?_⟩
    have hlast := List.dropLast_concat_getLast (List.cons_ne_nil b rest)
    rw [envelope, List.append_assoc, hlast]
    rfl

/-- The parts of a packet are determined by its bytes. -/
theorem envelope_inj {h₀ h₁ h₂ h₃ l₀ l₁ l₂ l₃ h₀' h₁' h₂' h₃' l₀' l₁' l₂' l₃' : Int8}
    {body body' : Bytes} {c c' : Int8}
    (h : envelope h₀ h₁ h₂ h₃ l₀ l₁ l₂ l₃ body c
      = envelope h₀' h₁' h₂' h₃' l₀' l₁' l₂' l₃' body' c') :
    [h₀, h₁, h₂, h₃] = [h₀', h₁', h₂', h₃'] ∧ [l₀, l₁, l₂, l₃] = [l₀', l₁', l₂', l₃'] ∧
      body = body' ∧ c = c' := by
  obtain ⟨hfront, hlast⟩ := List.append_inj' h (by rfl)
  obtain ⟨hwords, hbody⟩ := List.append_inj hfront (by rfl)
  obtain ⟨hheader, hsize⟩ := List.append_inj hwords (by rfl)
  exact ⟨hheader, hsize, hbody, List.singleton_inj.mp hlast⟩

namespace MessageSerializer

/-! ## `checkMessage` -/

theorem addBytes_eq (sum : Int) (bytes : Bytes) :
    addBytes sum bytes = truncatedSum 128 sum (bytes.map Int8.toInt) := by
  rw [truncatedSum, List.foldl_map]
  rfl

theorem addBytes_append (sum : Int) (bytes bytes' : Bytes) :
    addBytes sum (bytes ++ bytes') = addBytes (addBytes sum bytes) bytes' :=
  List.foldl_append

theorem addBytes_bounds (bytes : Bytes) :
    -128 < addBytes 0 bytes ∧ addBytes 0 bytes < 128 := by
  rw [addBytes_eq]
  exact truncatedSum_bounds (by omega) ⟨by omega, by omega⟩ _

/-- The running sum vanishes exactly when 128 divides the sum of the bytes. -/
theorem checkChecksum_eq_ok_iff (bytes : Bytes) :
    checkChecksum bytes = .ok () ↔ (128 : Int) ∣ (bytes.map Int8.toInt).sum := by
  have hzero : truncatedSum 128 0 (bytes.map Int8.toInt) = 0 ↔
      (128 : Int) ∣ 0 + (bytes.map Int8.toInt).sum :=
    truncatedSum_eq_zero_iff (by omega) ⟨by omega, by omega⟩ _
  rw [Int.zero_add, ← addBytes_eq] at hzero
  rw [← hzero, checkChecksum]
  by_cases h : addBytes 0 bytes = 0
  · simp [h]
  · simp [h]

section Packet

variable (h₀ h₁ h₂ h₃ l₀ l₁ l₂ l₃ : Int8) (body : Bytes) (c : Int8)

theorem checkMinimalSize_envelope :
    checkMinimalSize (envelope h₀ h₁ h₂ h₃ l₀ l₁ l₂ l₃ body c) = .ok () := by
  rw [checkMinimalSize, length_envelope, if_neg (by omega)]

/-- Only the last byte of the size word counts. -/
theorem checkTotalSize_envelope :
    checkTotalSize (envelope h₀ h₁ h₂ h₃ l₀ l₁ l₂ l₃ body c)
      = if ((9 + body.length : Nat) : Int) ≠ l₃.toInt then .error .badLength else .ok () := by
  have hword : copyOfRange (envelope h₀ h₁ h₂ h₃ l₀ l₁ l₂ l₃ body c) 4 (4 + 4)
      = .ok [l₀, l₁, l₂, l₃] :=
    copyOfRange_append [h₀, h₁, h₂, h₃] [l₀, l₁, l₂, l₃] (body ++ [c]) (by rfl) (by rfl)
  rw [checkTotalSize, hword, ok_bind, DataSerializer.bytesToInt_word, ok_bind, length_envelope,
    Int8.toInt_toInt32]

/-- The checks of a packet that is long enough. -/
theorem checkMessage_envelope_iff :
    checkMessage (envelope h₀ h₁ h₂ h₃ l₀ l₁ l₂ l₃ body c) = .ok () ↔
      ((9 + body.length : Nat) : Int) = l₃.toInt ∧
        (128 : Int) ∣ ((envelope h₀ h₁ h₂ h₃ l₀ l₁ l₂ l₃ body c).map Int8.toInt).sum := by
  rw [checkMessage, checkMinimalSize_envelope, ok_bind, checkTotalSize_envelope,
    ← checkChecksum_eq_ok_iff]
  by_cases h : ((9 + body.length : Nat) : Int) = l₃.toInt
  · rw [if_neg (fun hne => hne h), ok_bind]
    exact (and_iff_right h).symm
  · rw [if_pos h, error_bind]
    constructor
    · intro herror
      cases herror
    · intro hboth
      exact absurd hboth.1 h

end Packet

/-- What passes the checks is a packet of less than 128 bytes. -/
theorem length_of_checkMessage {bytes : Bytes} (h : checkMessage bytes = .ok ()) :
    9 ≤ bytes.length ∧ bytes.length < 128 := by
  have hmin : 9 ≤ bytes.length := by
    unfold checkMessage at h
    obtain ⟨_, hmin, _⟩ := bind_eq_ok_iff.mp h
    unfold checkMinimalSize at hmin
    split at hmin
    · cases hmin
    · omega
  obtain ⟨h₀, h₁, h₂, h₃, l₀, l₁, l₂, l₃, body, c, rfl⟩ := exists_envelope hmin
  obtain ⟨hsize, _⟩ := (checkMessage_envelope_iff h₀ h₁ h₂ h₃ l₀ l₁ l₂ l₃ body c).mp h
  have hbyte := l₃.toInt_lt
  refine ⟨hmin, ?_⟩
  rw [length_envelope]
  omega

/-! ## `initMessage` -/

/-- The raw message of a packet. -/
theorem initMessage_envelope (h₀ h₁ h₂ h₃ l₀ l₁ l₂ l₃ : Int8) (body : Bytes) (c : Int8)
    (hsize : 9 + body.length < 2 ^ 31) :
    initMessage (envelope h₀ h₁ h₂ h₃ l₀ l₁ l₂ l₃ body c) = .ok
      { rawType := h₃.toInt32, checksum := c, length := Int32.ofNat (9 + body.length),
        rawPayloads := some body } := by
  have hword : copyOfRange (envelope h₀ h₁ h₂ h₃ l₀ l₁ l₂ l₃ body c) 0 (0 + 4)
      = .ok [h₀, h₁, h₂, h₃] :=
    copyOfRange_append [] [h₀, h₁, h₂, h₃] ([l₀, l₁, l₂, l₃] ++ (body ++ [c])) (by rfl) (by rfl)
  have hlast : (envelope h₀ h₁ h₂ h₃ l₀ l₁ l₂ l₃ body c).getLast? = some c :=
    List.getLast?_concat
  have hone : (-1 : Int32).toInt = -1 := rfl
  have hstop : (Int32.ofNat (9 + body.length) - 1).toInt = 8 + body.length := by
    rw [Int32.sub_eq_add_neg, toInt_add_of_lt, Int32.toInt_ofNat_of_lt hsize, hone]
    · omega
    · rw [Int32.toInt_ofNat_of_lt hsize, hone]
      omega
    · rw [Int32.toInt_ofNat_of_lt hsize, hone]
      omega
  have hbody : copyOfRange (envelope h₀ h₁ h₂ h₃ l₀ l₁ l₂ l₃ body c) 8
      (Int32.ofNat (9 + body.length) - 1) = .ok body :=
    copyOfRange_append [h₀, h₁, h₂, h₃, l₀, l₁, l₂, l₃] body [c] (by rfl) hstop
  unfold initMessage
  rw [hword, ok_bind, DataSerializer.bytesToInt_word, ok_bind, hlast, length_envelope, hbody]
  rfl

/-! ## `deserializeMessage` -/

/-- A header number is in the map exactly as that of its type. -/
theorem lookup_types_iff {rawType : Int32} {type : MessageType} :
    types.lookup rawType = some type ↔ type.headerId = rawType := by
  constructor
  · intro h
    obtain ⟨before, after, hsplit, _⟩ := List.lookup_eq_some_iff.mp h
    have hmem : (rawType, type) ∈ types := by
      rw [hsplit]
      exact List.mem_append_right _ List.mem_cons_self
    obtain ⟨type', _, heq⟩ := List.mem_map.mp hmem
    obtain ⟨hheader, rfl⟩ := Prod.mk.inj heq
    exact hheader
  · intro h
    subst h
    cases type <;> rfl

/-- A raw message of a known type. -/
theorem deserializeMessage_of_lookup {message : Message} {body : Bytes} {type : MessageType}
    (hraw : message.rawPayloads = some body) (hlookup : types.lookup message.rawType = some type) :
    deserializeMessage message =
      match type.payloadTypes with
      | none => .ok { message with type := some type }
      | some classes => do
        let payload ← DataSerializer.bytesToPayload classes body
        return { message with type := some type, payload := payload } := by
  unfold deserializeMessage
  simp only [hlookup]
  cases htypes : type.payloadTypes with
  | none => rfl
  | some classes =>
    -- no type has an empty list of classes
    cases classes with
    | nil => cases type <;> cases htypes
    | cons first others => simp only [hraw]

/-- A raw message is read as the type of its header number, with the payload that its bytes hold.
    A type without payload ignores them. -/
theorem deserializeMessage_eq_ok_iff {message result : Message} {body : Bytes}
    (hraw : message.rawPayloads = some body) :
    deserializeMessage message = .ok result ↔
      ∃ type, type.headerId = message.rawType ∧
        ((type.payloadTypes = none ∧ result = { message with type := some type }) ∨
          ∃ classes payload, type.payloadTypes = some classes ∧
            DataSerializer.bytesToPayload classes body = .ok payload ∧
            result = { message with type := some type, payload := payload }) := by
  constructor
  · intro h
    cases hlookup : types.lookup message.rawType with
    | none =>
      unfold deserializeMessage at h
      rw [hlookup] at h
      cases h
    | some type =>
      refine ⟨type, lookup_types_iff.mp hlookup, ?_⟩
      rw [deserializeMessage_of_lookup hraw hlookup] at h
      split at h
      · rename_i hnone
        exact Or.inl ⟨hnone, (Except.ok.inj h).symm⟩
      · rename_i classes hsome
        obtain ⟨payload, hpayload, hresult⟩ := bind_eq_ok_iff.mp h
        exact Or.inr ⟨classes, payload, hsome, hpayload, (Except.ok.inj hresult).symm⟩
  · intro h
    obtain ⟨type, hheader, hcase⟩ := h
    rw [deserializeMessage_of_lookup hraw (lookup_types_iff.mpr hheader)]
    rcases hcase with ⟨hnone, rfl⟩ | ⟨classes, payload, hsome, hpayload, rfl⟩
    · rw [hnone]
    · simp only [hsome, hpayload]
      rfl

/-- Reading a raw message fails on its header, or as reading its payload does. -/
theorem deserializeMessage_eq_error_iff {message : Message} {body : Bytes} {thrown : Thrown}
    (hraw : message.rawPayloads = some body) :
    deserializeMessage message = .error thrown ↔
      (types.lookup message.rawType = none ∧ thrown = .badHeader) ∨
      ∃ (type : MessageType) (classes : List PayloadClass), type.headerId = message.rawType ∧
        type.payloadTypes = some classes ∧
        DataSerializer.bytesToPayload classes body = .error thrown := by
  cases hlookup : types.lookup message.rawType with
  | none =>
    unfold deserializeMessage
    rw [hlookup]
    constructor
    · intro h
      exact Or.inl ⟨rfl, (Except.error.inj h).symm⟩
    · intro h
      rcases h with ⟨_, rfl⟩ | ⟨type, _, hheader, _⟩
      · rfl
      · rw [lookup_types_iff.mpr hheader] at hlookup
        cases hlookup
  | some type =>
    rw [deserializeMessage_of_lookup hraw hlookup]
    constructor
    · intro h
      split at h
      · cases h
      · rename_i classes hsome
        rcases bind_eq_error_iff.mp h with herror | ⟨_, _, hpure⟩
        · exact Or.inr ⟨type, classes, lookup_types_iff.mp hlookup, hsome, herror⟩
        · cases hpure
    · intro h
      rcases h with ⟨hnone, _⟩ | ⟨type', classes, hheader, hsome, herror⟩
      · cases hnone
      · rw [lookup_types_iff.mpr hheader] at hlookup
        obtain rfl : type' = type := Option.some.inj hlookup
        simp only [hsome, herror]
        rfl

end MessageSerializer

end UpsServer.Client
