import UpsServer.Client.Envelope
import UpsServer.Client.CanonicalFields

/-!
# Writing and reading messages at the client

Both round trips of the client's codec. A message comes back from its packet exactly when its
numbers fit a byte, its strings are ASCII and the packet has less than 128 bytes. An accepted
packet is written again byte by byte exactly when none of its bytes was ignored and its checksum
is, of the two bytes that cancel the sum, the one that the writer takes.
-/

namespace UpsServer.Client

open Framework

/-! ## Sizes -/

/-- The bytes a value takes in a packet. -/
def Value.size : Value → Nat
  | .integer _ => 4
  | .string value => 4 + value.utf8ByteSize

/-- The size of a message's packet. -/
def Message.packetSize (m : Message) : Nat := 9 + (m.payload.map Value.size).sum

theorem length_stringToBytes (value : String) :
    (stringToBytes value).length = value.utf8ByteSize := by
  rw [stringToBytes, List.length_map, ← String.size_toByteArray, ← String.utf8Encode_toList,
    List.utf8Encode, List.size_toByteArray]
  rfl

theorem Value.length_toBytes (value : Value) : value.toBytes.length = value.size := by
  cases value with
  | integer value => rfl
  | string value =>
    rw [Value.toBytes, List.length_append, length_stringToBytes]
    rfl

theorem Message.length_payloadBytes (m : Message) :
    9 + (payloadBytes m.payload).length = m.packetSize := by
  rw [payloadBytes, List.length_flatMap, Message.packetSize]
  congr 3
  exact funext Value.length_toBytes

namespace MessageSerializer

/-! ## The checksum -/

/-- The checksum of `countCheckSum` by the sign of the running sum. -/
theorem toInt_countCheckSum (header len payload : Bytes) :
    (countCheckSum header len payload).toInt
      = if 0 < addBytes 0 (header ++ len ++ payload)
        then 128 - addBytes 0 (header ++ len ++ payload)
        else -128 - addBytes 0 (header ++ len ++ payload) := by
  obtain ⟨hlow, hhigh⟩ := addBytes_bounds (header ++ len ++ payload)
  have hsum : addBytes (addBytes (addBytes 0 header) len) payload
      = addBytes 0 (header ++ len ++ payload) := by
    rw [addBytes_append, addBytes_append]
  have hsame : (addBytes 0 (header ++ len ++ payload)).tmod 128
      = addBytes 0 (header ++ len ++ payload) := tmod_of_bounds hlow hhigh
  rw [countCheckSum, hsum, hsame, Int8.toInt_ofInt, Int.bmod_def]
  have hbyte : (Int8.size : Int) = 256 := rfl
  rw [hbyte]
  split <;> split <;> omega

/-- The running sum has the residue of the sum. -/
theorem dvd_addBytes_add_iff (bytes : Bytes) (c : Int8) :
    (128 : Int) ∣ addBytes 0 bytes + c.toInt ↔
      (128 : Int) ∣ ((bytes ++ [c]).map Int8.toInt).sum := by
  have hmod := truncatedSum_modEq 128 0 (bytes.map Int8.toInt)
  rw [← addBytes_eq, Int.zero_add] at hmod
  have hadd := hmod.add_right c.toInt
  rw [List.map_append, List.sum_append, List.map_cons, List.map_nil, List.sum_cons, List.sum_nil,
    Int.add_zero, ← Int.modEq_zero_iff_dvd, ← Int.modEq_zero_iff_dvd]
  exact ⟨fun h => hadd.symm.trans h, fun h => hadd.trans h⟩

/-- The checksum cancels the sum of the bytes before it. -/
theorem dvd_sum_countCheckSum (header len payload : Bytes) :
    (128 : Int) ∣
      ((header ++ len ++ payload ++ [countCheckSum header len payload]).map Int8.toInt).sum := by
  apply (dvd_addBytes_add_iff _ _).mp
  rw [toInt_countCheckSum]
  split
  · exact ⟨1, by omega⟩
  · exact ⟨-1, by omega⟩

/-- Of the bytes that cancel the sum, `countCheckSum` takes the one with the sign of the running
    sum, and -128 for a sum of zero. -/
theorem eq_countCheckSum_iff {header len payload : Bytes} {c : Int8}
    (h : (128 : Int) ∣ ((header ++ len ++ payload ++ [c]).map Int8.toInt).sum) :
    countCheckSum header len payload = c ↔
      c.toInt ≠ 0 ∧ (0 < c.toInt ↔ 0 < addBytes 0 (header ++ len ++ payload)) := by
  obtain ⟨hlow, hhigh⟩ := addBytes_bounds (header ++ len ++ payload)
  have hclow := c.le_toInt
  have hchigh := c.toInt_lt
  have hdvd := (dvd_addBytes_add_iff _ _).mpr h
  rw [← Int8.toInt_inj, toInt_countCheckSum]
  split <;> omega

/-! ## Writing -/

/-- The packet of a message whose payload has the classes of its type. -/
theorem serializeMessage_eq {m : Message} {type : MessageType} (htype : m.type = some type)
    (hclasses : m.payload.map Value.getClass = type.payloadTypes.getD []) :
    ∃ c, c = countCheckSum [0, 0, 0, type.headerId.toInt8]
        [0, 0, 0, Int8.ofNat m.packetSize] (payloadBytes m.payload) ∧
      serializeMessage m = .ok (envelope 0 0 0 type.headerId.toInt8 0 0 0
        (Int8.ofNat m.packetSize) (payloadBytes m.payload) c) := by
  refine ⟨_, rfl, ?_⟩
  have hsize : DataSerializer.intToBytes (Int32.ofNat (4 * 2 + 1 + (payloadBytes m.payload).length))
      = [0, 0, 0, Int8.ofNat m.packetSize] := by
    rw [← Message.length_payloadBytes, DataSerializer.intToBytes, Int32.toInt8_ofNat']
  unfold serializeMessage
  rw [htype]
  show (DataSerializer.payloadToBytes type.payloadTypes m.payload >>= _) = _
  rw [DataSerializer.payloadToBytes_eq hclasses, ok_bind]
  show Except.ok (_ ++ DataSerializer.intToBytes (Int32.ofNat (4 * 2 + 1 + _)) ++ _ ++
    [countCheckSum _ (DataSerializer.intToBytes (Int32.ofNat (4 * 2 + 1 + _))) _]) = _
  rw [hsize]
  rfl

/-! ## From the message to the packet and back -/

/-- The message is written, its packet passes the checks, and reading it gives the type and the
    payload back. -/
def RoundTrips (m : Message) : Prop :=
  ∃ bytes received result, serializeMessage m = .ok bytes ∧ checkMessage bytes = .ok () ∧
    initMessage bytes = .ok received ∧ deserializeMessage received = .ok result ∧
    result.type = m.type ∧ result.payload = m.payload

/-- Header numbers fit the byte they are sent in. -/
theorem toInt32_headerId (type : MessageType) : type.headerId.toInt8.toInt32 = type.headerId := by
  cases type <;> decide

/-- The packet that is written for a message passes the checks exactly below 128 bytes. -/
theorem checkMessage_written_iff {m : Message} {h c : Int8}
    (hc : c = countCheckSum [0, 0, 0, h] [0, 0, 0, Int8.ofNat m.packetSize]
      (payloadBytes m.payload)) :
    checkMessage (envelope 0 0 0 h 0 0 0 (Int8.ofNat m.packetSize) (payloadBytes m.payload) c)
      = .ok () ↔ m.packetSize < 128 := by
  rw [checkMessage_envelope_iff, m.length_payloadBytes, toInt_ofNat_eq_iff, hc]
  exact and_iff_left (dvd_sum_countCheckSum _ _ _)

/-- **Round trip of messages**: a message whose payload has the classes of its type comes back
    exactly when its packet has less than 128 bytes, its integers fit a byte and its strings are
    ASCII. -/
theorem roundTrips_iff {m : Message} {type : MessageType} (htype : m.type = some type)
    (hclasses : m.payload.map Value.getClass = type.payloadTypes.getD []) :
    RoundTrips m ↔ m.packetSize < 128 ∧ ∀ value ∈ m.payload, value.Narrow := by
  obtain ⟨c, hc, hserialize⟩ := serializeMessage_eq htype hclasses
  have hlength := m.length_payloadBytes
  have hcheck := checkMessage_written_iff hc
  constructor
  · intro h
    obtain ⟨bytes, received, result, hbytes, hchecked, hinit, hread, _, hpayload⟩ := h
    obtain rfl := Except.ok.inj (hserialize.symm.trans hbytes)
    have hsize := hcheck.mp hchecked
    refine ⟨hsize, ?_⟩
    rw [initMessage_envelope _ _ _ _ _ _ _ _ _ _ (by omega)] at hinit
    obtain rfl := Except.ok.inj hinit
    obtain ⟨type', hheader, hcase⟩ := (deserializeMessage_eq_ok_iff (by rfl)).mp hread
    obtain rfl := MessageType.headerId_injective (hheader.trans (toInt32_headerId type))
    rcases hcase with ⟨hnone, _⟩ | ⟨classes, payload, hsome, hparse, hresult⟩
    · -- a type without classes has no payload
      rw [hnone] at hclasses
      rw [List.map_eq_nil_iff.mp hclasses]
      exact fun _ hmem => absurd hmem List.not_mem_nil
    · rw [hresult] at hpayload
      obtain rfl : payload = m.payload := hpayload
      have hfields := (DataSerializer.bytesToPayload_eq_ok_iff (by omega)).mp hparse
      rw [← hfields.getClass] at hfields
      exact (fields_payloadBytes_iff (by omega)).mp hfields
  · intro h
    obtain ⟨hsize, hnarrow⟩ := h
    have hinit := initMessage_envelope 0 0 0 type.headerId.toInt8 0 0 0 (Int8.ofNat m.packetSize)
      (payloadBytes m.payload) c (by omega)
    have hfields := (fields_payloadBytes_iff (by omega)).mpr hnarrow
    rw [hclasses] at hfields
    let result : Message :=
      { type := some type
        rawType := type.headerId.toInt8.toInt32
        length := Int32.ofNat (9 + (payloadBytes m.payload).length)
        payload := m.payload
        checksum := c
        rawPayloads := some (payloadBytes m.payload) }
    refine ⟨_, _, result, hserialize, hcheck.mpr hsize, hinit, ?_, htype.symm, rfl⟩
    apply (deserializeMessage_eq_ok_iff (by rfl)).mpr
    refine ⟨type, (toInt32_headerId type).symm, ?_⟩
    cases htypes : type.payloadTypes with
    | none =>
      rw [htypes] at hclasses
      have hempty : m.payload = [] := List.map_eq_nil_iff.mp hclasses
      refine .inl ⟨rfl, ?_⟩
      simp only [result, hempty]
    | some classes =>
      rw [htypes] at hfields
      exact .inr ⟨classes, m.payload, rfl,
        (DataSerializer.bytesToPayload_eq_ok_iff (by omega)).mpr hfields, rfl⟩

/-- A short text and a small number come back. -/
theorem roundTrips_iff_text :
    RoundTrips { type := some .PARSING_TEST5, payload := [.string "ABcd", .integer (-2)] } := by
  have htype : some MessageType.PARSING_TEST5 = some .PARSING_TEST5 := rfl
  apply (roundTrips_iff htype rfl).mpr
  decide

/-- The number 300 comes back as 44. -/
theorem not_roundTrips :
    ¬ ∀ (m : Message) (type : MessageType), m.type = some type →
      m.payload.map Value.getClass = type.payloadTypes.getD [] → RoundTrips m := by
  intro h
  obtain ⟨bytes, received, result, hbytes, _, hinit, hread, _, hpayload⟩ :=
    h { type := some .PARSING_TEST1, payload := [.integer 300] } .PARSING_TEST1 rfl rfl
  have hserialize : serializeMessage
      { type := some .PARSING_TEST1, payload := [.integer 300] }
        = .ok [0, 0, 0, 101, 0, 0, 0, 13, 0, 0, 0, 44, 98] := by rfl
  obtain rfl := Except.ok.inj (hserialize.symm.trans hbytes)
  have hreceived : initMessage [0, 0, 0, 101, 0, 0, 0, 13, 0, 0, 0, 44, 98] = .ok
      { rawType := 101, length := 13, checksum := 98, rawPayloads := some [0, 0, 0, 44] } := by
    rfl
  obtain rfl := Except.ok.inj (hreceived.symm.trans hinit)
  have hresult : deserializeMessage
      { rawType := 101, length := 13, checksum := 98, rawPayloads := some [0, 0, 0, 44] } = .ok
      { type := some .PARSING_TEST1, rawType := 101, length := 13, payload := [.integer 44],
        checksum := 98, rawPayloads := some [0, 0, 0, 44] } := by rfl
  obtain rfl := Except.ok.inj (hresult.symm.trans hread)
  revert hpayload
  decide

/-! ## From the packet to the message and back -/

/-- No byte of the packet is ignored: the words of the envelope have only their last byte filled,
    the payload is made of plain fields of the header's type, and the checksum is not zero and
    positive exactly when the running sum of the bytes before it is. -/
def Canonical (bytes : Bytes) : Prop :=
  ∃ (type : MessageType) (l : Int8) (body : Bytes) (c : Int8),
    bytes = envelope 0 0 0 type.headerId.toInt8 0 0 0 l body c ∧
      PlainFields (type.payloadTypes.getD []) body ∧ c.toInt ≠ 0 ∧
      (0 < c.toInt ↔ 0 < truncatedSum 128 0 (bytes.dropLast.map Int8.toInt))

/-- What was read from a packet's payload, and when it is written as it stood. -/
theorem payload_of_read {received result : Message} {body : Bytes} (hsize : body.length < 2 ^ 31)
    (hraw : received.rawPayloads = some body) (hempty : received.payload = [])
    (hread : deserializeMessage received = .ok result) :
    ∃ type, type.headerId = received.rawType ∧ result.type = some type ∧
      result.payload.map Value.getClass = type.payloadTypes.getD [] ∧
      (payloadBytes result.payload = body ↔ PlainFields (type.payloadTypes.getD []) body) := by
  obtain ⟨type, hheader, hcase⟩ := (deserializeMessage_eq_ok_iff hraw).mp hread
  refine ⟨type, hheader, ?_⟩
  rcases hcase with ⟨hnone, rfl⟩ | ⟨classes, payload, hsome, hparse, rfl⟩
  · -- without classes nothing is read and nothing written
    rw [hnone]
    refine ⟨rfl, ?_, ?_⟩
    · show received.payload.map _ = _
      rw [hempty]
      rfl
    · show payloadBytes received.payload = body ↔ PlainFields [] body
      rw [hempty]
      constructor
      · intro h
        rw [← h]
        exact .nil
      · intro h
        cases h
        rfl
  · have hfields := (DataSerializer.bytesToPayload_eq_ok_iff hsize).mp hparse
    rw [hsome]
    exact ⟨rfl, hfields.getClass, hfields.payloadBytes_eq_iff⟩

/-- **Re-encoding**: a packet that was accepted and read is written again byte by byte exactly
    when it is canonical. -/
theorem reencodes_iff {bytes : Bytes} {received result : Message}
    (hcheck : checkMessage bytes = .ok ()) (hinit : initMessage bytes = .ok received)
    (hread : deserializeMessage received = .ok result) :
    serializeMessage result = .ok bytes ↔ Canonical bytes := by
  obtain ⟨hmin, hmax⟩ := length_of_checkMessage hcheck
  obtain ⟨h₀, h₁, h₂, h₃, l₀, l₁, l₂, l₃, body, c, rfl⟩ := exists_envelope hmin
  obtain ⟨hsize, hsum⟩ := (checkMessage_envelope_iff h₀ h₁ h₂ h₃ l₀ l₁ l₂ l₃ body c).mp hcheck
  rw [length_envelope] at hmax
  rw [initMessage_envelope _ _ _ _ _ _ _ _ _ _ (by omega)] at hinit
  obtain rfl := Except.ok.inj hinit
  obtain ⟨type, hheader, htype, hclasses, hplain⟩ := payload_of_read (by omega) rfl rfl hread
  obtain ⟨c', hc', hserialize⟩ := serializeMessage_eq htype hclasses
  have hbyte : type.headerId.toInt8 = h₃ := by
    rw [hheader, Int8.toInt8_toInt32]
  -- the bytes before the checksum, once the ignored ones are zero
  have hbefore : (envelope 0 0 0 h₃ 0 0 0 l₃ body c).dropLast
      = [0, 0, 0, h₃] ++ [0, 0, 0, l₃] ++ body := List.dropLast_concat
  have hchecksum : (128 : Int) ∣ ((envelope 0 0 0 h₃ 0 0 0 l₃ body c).map Int8.toInt).sum →
      (countCheckSum [0, 0, 0, h₃] [0, 0, 0, l₃] body = c ↔ c.toInt ≠ 0 ∧ (0 < c.toInt ↔
        0 < truncatedSum 128 0 ((envelope 0 0 0 h₃ 0 0 0 l₃ body c).dropLast.map Int8.toInt))) := by
    intro hdvd
    rw [hbefore, ← addBytes_eq]
    exact eq_countCheckSum_iff hdvd
  rw [hserialize, hbyte]
  constructor
  · intro h
    obtain ⟨hwords, hsizes, hbody, hsame⟩ := envelope_inj (Except.ok.inj h)
    simp only [List.cons.injEq] at hwords hsizes
    obtain ⟨rfl, rfl, rfl, _⟩ := hwords
    obtain ⟨rfl, rfl, rfl, hl, _⟩ := hsizes
    rw [hbyte, hl, hbody, hsame] at hc'
    have hsign := (hchecksum hsum).mp hc'.symm
    exact ⟨type, l₃, body, c, by rw [hbyte], hplain.mp hbody, hsign.1, hsign.2⟩
  · intro h
    obtain ⟨type', l, body', last, heq, hfields, hne, hsign⟩ := h
    obtain ⟨hwords, hsizes, rfl, rfl⟩ := envelope_inj heq
    simp only [List.cons.injEq] at hwords hsizes
    obtain ⟨rfl, rfl, rfl, hh, _⟩ := hwords
    obtain ⟨rfl, rfl, rfl, rfl, _⟩ := hsizes
    obtain rfl : type' = type := by
      apply MessageType.headerId_injective
      rw [← toInt32_headerId, ← hh, ← hbyte, toInt32_headerId]
    have hbody := hplain.mpr hfields
    have hl : Int8.ofNat result.packetSize = l₃ := by
      rw [← Message.length_payloadBytes, hbody]
      apply Int8.toInt.inj
      rw [← hsize]
      exact ((toInt_ofNat_eq_iff _).mpr (by omega)).symm
    have hsame := (hchecksum hsum).mpr ⟨hne, hsign⟩
    rw [hbyte, hl, hbody, hsame] at hc'
    rw [hl, hbody, hc']

/-- The second packet of `ParserTests.okMessages` is canonical. -/
theorem reencodes_iff_okMessage :
    serializeMessage
        { type := some .PARSING_TEST1, rawType := 101, length := 13, payload := [.integer 15],
          checksum := 127, rawPayloads := some [0, 0, 0, 15] }
      = .ok [0, 0, 0, 101, 0, 0, 0, 13, 0, 0, 0, 15, 127] := by
  have hcheck : checkMessage [0, 0, 0, 101, 0, 0, 0, 13, 0, 0, 0, 15, 127] = .ok () := by
    decide +kernel
  have hinit : initMessage [0, 0, 0, 101, 0, 0, 0, 13, 0, 0, 0, 15, 127] = .ok
      { rawType := 101, length := 13, checksum := 127, rawPayloads := some [0, 0, 0, 15] } := by
    rfl
  apply (reencodes_iff hcheck hinit (by rfl)).mpr
  exact ⟨.PARSING_TEST1, 13, [0, 0, 0, 15], 127, rfl, .integer 15 .nil, by decide, by decide⟩

/-- A header word with a filled first byte is accepted and written with a zero there. -/
theorem not_reencodes :
    ¬ ∀ (bytes : Bytes) (received result : Message), checkMessage bytes = .ok () →
      initMessage bytes = .ok received → deserializeMessage received = .ok result →
      serializeMessage result = .ok bytes := by
  intro h
  have hcheck : checkMessage [1, 0, 0, 1, 0, 0, 0, 9, 117] = .ok () := by decide +kernel
  have hinit : initMessage [1, 0, 0, 1, 0, 0, 0, 9, 117] = .ok
      { rawType := 1, length := 9, checksum := 117, rawPayloads := some [] } := by rfl
  have hread : deserializeMessage
      { rawType := 1, length := 9, checksum := 117, rawPayloads := some [] } = .ok
      { type := some .PARSING_TEST0, rawType := 1, length := 9, checksum := 117,
        rawPayloads := some [] } := by rfl
  have hsame := h _ _ _ hcheck hinit hread
  have hwritten : serializeMessage
      { type := some .PARSING_TEST0, rawType := 1, length := 9, checksum := 117,
        rawPayloads := some [] } = .ok [0, 0, 0, 1, 0, 0, 0, 9, 118] := by rfl
  rw [hwritten] at hsame
  revert hsame
  decide

end MessageSerializer

end UpsServer.Client
