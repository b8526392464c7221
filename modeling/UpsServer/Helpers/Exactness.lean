import UpsServer.Helpers.RoundTrip

/-!
# Which buffers are packets

What `deserialize` returns always fits its format. But the decoder tests neither the size word,
nor the length of the payload, nor the checksum, so it accepts buffers that no message is
serialized to. The buffers on which it is exact are those with an unknown header and those on
which the three tests would have succeeded.
-/

namespace UpsServer

open Framework

/-! ## Formats -/

/-- The formats of the table announce integers and strings only. -/
theorem mem_format {header : UInt32} {format : List Char}
    (h : headToFormatMap header = some format) : ∀ c ∈ format, c = 'i' ∨ c = 's' := by
  have htable : ∀ entry ∈ headToFormatTable, ∀ c ∈ entry.2, c = 'i' ∨ c = 's' := by
    simp [headToFormatTable]
  obtain ⟨before, after, hsplit, -⟩ := List.lookup_eq_some_iff.mp h
  apply htable (header, format)
  rw [hsplit]
  exact List.mem_append_right _ List.mem_cons_self

namespace Serializer

/-! ## Decoded payloads match -/

/-- The loop adds one entry for every letter, of its kind. -/
theorem deserializeLoop_matches {data : ByteString} {format : List Char}
    (hformat : ∀ c ∈ format, c = 'i' ∨ c = 's') {index : Int} {message result : Message}
    (h : deserializeLoop data format index message = .ok result) :
    ∃ payload, Matches payload format ∧ result = addAll message payload := by
  induction format generalizing index message with
  | nil =>
    cases h
    exact ⟨[], .nil, rfl⟩
  | cons c format ih =>
    have hrest : ∀ x ∈ format, x = 'i' ∨ x = 's' := fun x hx =>
      hformat x (List.mem_cons_of_mem _ hx)
    rcases hformat c List.mem_cons_self with rfl | rfl
    · -- an integer
      rw [deserializeLoop] at h
      obtain ⟨w, _, h⟩ := bind_eq_ok_iff.mp h
      obtain ⟨payload, hmatches, hresult⟩ := ih hrest h
      exact ⟨.int w :: payload, .cons rfl hmatches, hresult⟩
    · -- a string
      rw [deserializeLoop] at h
      obtain ⟨w, _, h⟩ := bind_eq_ok_iff.mp h
      obtain ⟨value, _, h⟩ := bind_eq_ok_iff.mp h
      obtain ⟨payload, hmatches, hresult⟩ := ih hrest h
      exact ⟨.str value :: payload, .cons rfl hmatches, hresult⟩

/-- A decoded message has a header of the table, its format and a payload that matches it. -/
theorem deserialize_matches {data : ByteString} {message : Message}
    (h : deserialize data = .ok (some message)) :
    headToFormatMap message.header = some message.msgFormat ∧
      Matches message.payload message.msgFormat ∧ message.player = none := by
  obtain ⟨header, size, rest, -, h⟩ := deserialize_eq_ok_iff.mp h
  cases hformat : headToFormatMap header with
  | none => simp [hformat] at h
  | some format =>
    simp only [hformat] at h
    obtain ⟨result, hresult, h⟩ := bind_eq_ok_iff.mp h
    obtain rfl : result = message := Option.some.inj (Except.ok.inj h)
    obtain ⟨payload, hmatches, rfl⟩ := deserializeLoop_matches (mem_format hformat) hresult
    simp only [addAll_eq, Message.new, List.nil_append]
    exact ⟨hformat, hmatches, trivial⟩

/-- A packet whose size no `int` holds is not allocated. -/
theorem prepareEmptyPacket_of_large (header : UInt32) {dataSize : Nat}
    (hlarge : 2 ^ 31 ≤ 9 + dataSize) :
    ∃ size, prepareEmptyPacket header dataSize = .error (.sizeOverflow size) := by
  refine ⟨(4 + 4 + dataSize + 1 : Nat), ?_⟩
  unfold prepareEmptyPacket
  rw [if_pos (by omega)]
  rfl

/-- The only fault of the encoder on a payload that matches is a size that no `int` holds. -/
theorem serialize_of_large {m : Message} (hmatches : Matches m.payload m.msgFormat)
    (hlarge : 2 ^ 31 ≤ (packetOf m.header m.payload).length) :
    ∃ size, serialize m = .error (.sizeOverflow size) := by
  rw [length_packetOf] at hlarge
  unfold serialize
  split
  · -- the packet of an empty payload is short
    rename_i hempty
    rw [hempty] at hmatches
    rw [List.forall₂_nil_right_iff.mp hmatches] at hlarge
    exact absurd hlarge (by decide)
  · have hsize : getMessageSizeByPayload m = .ok (encodePayload m.payload).length := by
      have hloop := messageSizeLoop_eq hmatches [] rfl 0
      rw [Nat.zero_add] at hloop
      exact hloop
    obtain ⟨size, hprepare⟩ := prepareEmptyPacket_of_large m.header hlarge
    exact ⟨size, by rw [hsize, ok_bind, hprepare]; rfl⟩

/-- A message whose payload matches is serialized only when its packet fits an `int`. -/
theorem fits_of_serialize {m : Message} {packet : ByteString} {size : Nat}
    (hmatches : Matches m.payload m.msgFormat) (h : serialize m = .ok (packet, size)) :
    (packetOf m.header m.payload).length < 2 ^ 31 := by
  by_contra hlarge
  obtain ⟨_, hfault⟩ := serialize_of_large hmatches (Nat.le_of_not_lt hlarge)
  rw [hfault] at h
  cases h

end Serializer

/-! ## The tests the decoder does not make -/

/-- The fields of the format fill the bytes without a gap and without a rest. -/
def FieldsFill : List Char → ByteString → Prop
  | [], bytes => bytes = []
  | c :: format, bytes =>
    if c = 's' then
      4 ≤ bytes.length ∧ 4 + (wordAt bytes 0).toNat ≤ bytes.length ∧
        FieldsFill format (bytes.drop (4 + (wordAt bytes 0).toNat))
    else 4 ≤ bytes.length ∧ FieldsFill format (bytes.drop 4)

instance : (format : List Char) → (bytes : ByteString) → Decidable (FieldsFill format bytes)
  | [], bytes => inferInstanceAs (Decidable (bytes = []))
  | c :: format, _ =>
    have := instDecidableFieldsFill format
    inferInstanceAs (Decidable (if c = 's' then _ ∧ _ ∧ _ else _ ∧ _))

/-- The size word is the length of the buffer, the fields fill the bytes between the envelope
    and the last byte, and the last byte is the checksum of the others. -/
def WellFramed (data : ByteString) (format : List Char) : Prop :=
  9 ≤ data.length ∧ data.length < 2 ^ 31 ∧ (wordAt data 4).toNat = data.length ∧
    FieldsFill format (data.dropLast.drop 8) ∧
      data.getLast? = some (Serializer.checkSumOf data.dropLast)

instance (data : ByteString) (format : List Char) : Decidable (WellFramed data format) :=
  inferInstanceAs (Decidable (_ ∧ _ ∧ _ ∧ _ ∧ _))

/-- A buffer begins with the word stored there. -/
theorem eq_wordBytes_append (bytes : ByteString) (h : 4 ≤ bytes.length) :
    bytes = wordBytes (wordAt bytes 0) ++ bytes.drop 4 := by
  have hread : Serializer.parse32intFromArray bytes 0 = .ok (wordAt bytes 0) :=
    Serializer.parse32intFromArray_of_inside (Int.le_refl 0) (by omega)
  obtain ⟨tail, htail⟩ := (Serializer.parse32intFromArray_eq_ok_iff []).mp hread
  have hdrop : bytes.drop 4 = tail := by
    rw [htail]
    rfl
  rw [hdrop, ← htail]

/-- A buffer begins with the two words of the envelope. -/
theorem eq_envelope_append (data : ByteString) (h : 8 ≤ data.length) :
    data = wordBytes (wordAt data 0) ++ (wordBytes (wordAt data 4) ++ data.drop 8) := by
  have hfirst := eq_wordBytes_append data (by omega)
  have hsecond := eq_wordBytes_append (data.drop 4) (by rw [List.length_drop]; omega)
  rw [List.drop_drop] at hsecond
  have hboth : data = wordBytes (wordAt data 0) ++
      (wordBytes (wordAt (data.drop 4) 0) ++ data.drop 8) := by
    rw [← hsecond]
    exact hfirst
  have hword : wordAt data 4 = wordAt (data.drop 4) 0 := by
    conv_lhs => rw [hboth]
    exact wordAt_append (wordBytes _) _ _
  rw [hword]
  exact hboth

/-- A number in front is one word. -/
theorem fieldsFill_int_iff {format : List Char} {bytes : ByteString} :
    FieldsFill ('i' :: format) bytes ↔
      ∃ value rest, bytes = Datum.encode (.int value) ++ rest ∧ FieldsFill format rest := by
  have hunfold : FieldsFill ('i' :: format) bytes ↔
      4 ≤ bytes.length ∧ FieldsFill format (bytes.drop 4) := Iff.rfl
  rw [hunfold]
  apply Iff.intro
  · intro h
    exact ⟨wordAt bytes 0, bytes.drop 4, eq_wordBytes_append bytes h.1, h.2⟩
  · intro h
    obtain ⟨value, rest, rfl, hfill⟩ := h
    refine ⟨?_, hfill⟩
    rw [List.length_append]
    exact Nat.le_add_right 4 _

/-- A string in front is its length word and its characters. -/
theorem fieldsFill_str_iff {format : List Char} {bytes : ByteString}
    (hlen : bytes.length < 2 ^ 31) :
    FieldsFill ('s' :: format) bytes ↔
      ∃ value rest, bytes = Datum.encode (.str value) ++ rest ∧ FieldsFill format rest := by
  have hunfold : FieldsFill ('s' :: format) bytes ↔
      4 ≤ bytes.length ∧ 4 + (wordAt bytes 0).toNat ≤ bytes.length ∧
        FieldsFill format (bytes.drop (4 + (wordAt bytes 0).toNat)) := Iff.rfl
  rw [hunfold]
  apply Iff.intro
  · intro h
    obtain ⟨hword, hstring, hfill⟩ := h
    have hchars : ((bytes.drop 4).take (wordAt bytes 0).toNat).length
        = (wordAt bytes 0).toNat := by
      rw [List.length_take, List.length_drop]
      omega
    refine ⟨(bytes.drop 4).take (wordAt bytes 0).toNat, _, ?_, hfill⟩
    rw [Datum.encode, hchars, UInt32.ofNat_toNat, List.append_assoc, ← List.drop_drop,
      List.take_append_drop]
    exact eq_wordBytes_append bytes hword
  · intro h
    obtain ⟨value, rest, rfl, hfill⟩ := h
    have hassoc : Datum.encode (.str value) ++ rest
        = wordBytes (UInt32.ofNat value.length) ++ (value ++ rest) := by
      rw [Datum.encode, List.append_assoc]
    rw [hassoc] at hlen ⊢
    have hlength : (wordBytes (UInt32.ofNat value.length) ++ (value ++ rest)).length
        = 4 + (value.length + rest.length) := by simp
    have hword : wordAt (wordBytes (UInt32.ofNat value.length) ++ (value ++ rest)) 0
        = UInt32.ofNat value.length := wordAt_append [] _ _
    have hcount : (UInt32.ofNat value.length).toNat = value.length :=
      toNat_ofNat_of_lt (by omega)
    have hdrop : (wordBytes (UInt32.ofNat value.length) ++ (value ++ rest)).drop
        (4 + value.length) = rest := by
      rw [← List.drop_drop]
      exact List.drop_left
    rw [hword, hcount, hdrop, hlength]
    exact ⟨by omega, by omega, hfill⟩

/-- The bytes that fields fill are the encodings of payloads. -/
theorem fieldsFill_iff {format : List Char} (hformat : ∀ c ∈ format, c = 'i' ∨ c = 's')
    {bytes : ByteString} (hlen : bytes.length < 2 ^ 31) :
    FieldsFill format bytes ↔ ∃ payload, Matches payload format ∧ bytes = encodePayload payload := by
  -- on the format; each letter takes its field from the front
  induction format generalizing bytes with
  | nil =>
    apply Iff.intro
    · intro h
      exact ⟨[], .nil, h⟩
    · intro h
      obtain ⟨payload, hmatches, hbytes⟩ := h
      cases hmatches
      exact hbytes
  | cons c format ih =>
    have hfront : FieldsFill (c :: format) bytes ↔ ∃ datum rest, datum.HasKind c ∧
        bytes = Datum.encode datum ++ rest ∧ FieldsFill format rest := by
      rcases hformat c List.mem_cons_self with rfl | rfl
      · rw [fieldsFill_int_iff]
        apply Iff.intro
        · intro h
          obtain ⟨value, rest, hfield⟩ := h
          exact ⟨.int value, rest, rfl, hfield⟩
        · intro h
          obtain ⟨datum, rest, hkind, hfield⟩ := h
          cases datum with
          | int value => exact ⟨value, rest, hfield⟩
          | str value => exact absurd hkind (by simp [Datum.HasKind])
      · rw [fieldsFill_str_iff hlen]
        apply Iff.intro
        · intro h
          obtain ⟨value, rest, hfield⟩ := h
          exact ⟨.str value, rest, rfl, hfield⟩
        · intro h
          obtain ⟨datum, rest, hkind, hfield⟩ := h
          cases datum with
          | int value => exact absurd hkind (by simp [Datum.HasKind])
          | str value => exact ⟨value, rest, hfield⟩
    have hothers : ∀ x ∈ format, x = 'i' ∨ x = 's' := fun x hx =>
      hformat x (List.mem_cons_of_mem _ hx)
    rw [hfront]
    apply Iff.intro
    · intro h
      obtain ⟨datum, rest, hkind, rfl, hfill⟩ := h
      rw [List.length_append] at hlen
      obtain ⟨payload, hmatches, rfl⟩ := (ih hothers (by omega)).mp hfill
      exact ⟨datum :: payload, .cons hkind hmatches, rfl⟩
    · intro h
      obtain ⟨payload, hmatches, rfl⟩ := h
      cases hmatches with
      | @cons datum _ payload _ hkind hmatches =>
        rw [encodePayload_cons, List.length_append] at hlen
        exact ⟨datum, encodePayload payload, hkind, rfl,
          (ih hothers (by omega)).mpr ⟨payload, hmatches, rfl⟩⟩

/-- The buffers that pass the tests are the packets of the header they begin with. -/
theorem wellFramed_iff {data : ByteString} {format : List Char}
    (hknown : headToFormatMap (wordAt data 0) = some format) :
    WellFramed data format ↔
      data.length < 2 ^ 31 ∧
        ∃ payload, Matches payload format ∧ data = packetOf (wordAt data 0) payload := by
  apply Iff.intro
  · intro h
    obtain ⟨hmin, hmax, hsize, hfill, hlast⟩ := h
    obtain ⟨body, hdata⟩ : ∃ body, data = body ++ [Serializer.checkSumOf data.dropLast] :=
      ⟨data.dropLast, (List.dropLast_append_getLast? _ hlast).symm⟩
    have hbody : data.dropLast = body := by rw [hdata, List.dropLast_concat]
    rw [hbody] at hdata hfill
    have hlen : data.length = body.length + 1 := by rw [hdata]; simp
    obtain ⟨payload, hmatches, hpayload⟩ :=
      (fieldsFill_iff (mem_format hknown) (by rw [List.length_drop]; omega)).mp hfill
    refine ⟨hmax, payload, hmatches, ?_⟩
    -- the two words of the envelope, and the payload behind them
    have henvelope := eq_envelope_append body (by omega)
    have hwhole : data = wordBytes (wordAt body 0) ++ (wordBytes (wordAt body 4) ++
        (body.drop 8 ++ [Serializer.checkSumOf body])) := by
      have happend := congrArg (· ++ [Serializer.checkSumOf body]) henvelope
      simp only [List.append_assoc] at happend
      exact hdata.trans happend
    have hhead : wordAt data 0 = wordAt body 0 := by
      rw [hwhole]
      exact wordAt_append [] _ _
    have hword : wordAt data 4 = wordAt body 4 := by
      rw [hwhole]
      exact wordAt_append (wordBytes _) _ _
    have hcount : UInt32.ofNat (9 + (encodePayload payload).length) = wordAt body 4 := by
      have hsum : 9 + (encodePayload payload).length = (wordAt data 4).toNat := by
        rw [hsize, ← hpayload, List.length_drop]
        omega
      rw [hsum, UInt32.ofNat_toNat, hword]
    have hpacket : packetBody (wordAt data 0) payload = body := by
      rw [packetBody, hcount, hhead, ← hpayload]
      exact henvelope.symm
    rw [packetOf, hpacket]
    exact hdata
  · intro h
    obtain ⟨hmax, payload, hmatches, hdata⟩ := h
    have hlen : data.length = 9 + (encodePayload payload).length := by
      rw [hdata, length_packetOf]
    have hbody : data.dropLast = packetBody (wordAt data 0) payload := by
      conv_lhs => rw [hdata, packetOf, List.dropLast_concat]
    have hfields : data.dropLast.drop 8 = encodePayload payload := by
      rw [hbody]
      rfl
    refine ⟨by omega, hmax, ?_, ?_, ?_⟩
    · have hword : wordAt data 4 = UInt32.ofNat data.length := by
        rw [hlen]
        conv_lhs => rw [hdata, packetOf, packetBody, List.append_assoc, List.append_assoc]
        exact wordAt_append (wordBytes _) _ _
      rw [hword]
      exact toNat_ofNat_of_lt hmax
    · rw [hfields]
      exact (fieldsFill_iff (mem_format hknown) (by omega)).mpr ⟨payload, hmatches, rfl⟩
    · rw [hbody]
      conv_lhs => rw [hdata, packetOf]
      exact List.getLast?_concat

/-! ## Exactness -/

/-- What the decoder does with the buffer is exact: a message is returned only for the packet it
    is serialized to, and any other buffer yields the null pointer. -/
def ParsedExactly (data : ByteString) : Prop :=
  match Serializer.deserialize data with
  | .ok (some m) => Serializer.serialize m = .ok (data, data.length)
  | .ok none => True
  | .error _ => False

/-- The two words of the envelope are there and the header is unknown, or the buffer passes the
    tests for its format. -/
def Recognisable (data : ByteString) : Prop :=
  8 ≤ data.length ∧ ∀ format, headToFormatMap (wordAt data 0) = some format →
    WellFramed data format

/-- **Exactness of the parser**: the decoder is exact on a buffer if and only if the buffer has an
    unknown header or is framed as the encoder frames packets. -/
theorem parsedExactly_iff (data : ByteString) : ParsedExactly data ↔ Recognisable data := by
  unfold ParsedExactly Recognisable
  apply Iff.intro
  · intro h
    split at h
    · -- the message is serialized to the buffer, which is therefore a packet
      rename_i m hdecoded
      obtain ⟨hformat, hmatches, -⟩ := Serializer.deserialize_matches hdecoded
      have hfits := Serializer.fits_of_serialize hmatches h
      have hserialize := Serializer.serialize_eq ⟨hformat, hmatches, hfits⟩
      have hdata : data = packetOf m.header m.payload :=
        (Prod.mk.inj (Except.ok.inj (h.symm.trans hserialize))).1
      have hhead : wordAt data 0 = m.header := by
        rw [hdata, packetOf, packetBody, List.append_assoc]
        exact wordAt_append [] _ _
      have hlen : data.length = 9 + (encodePayload m.payload).length := by
        rw [hdata, length_packetOf]
      refine ⟨by omega, fun format hknown => (wellFramed_iff hknown).mpr ⟨hdata ▸ hfits, ?_⟩⟩
      rw [hhead, hformat] at hknown
      obtain rfl := Option.some.inj hknown
      exact ⟨m.payload, hmatches, by rw [hhead]; exact hdata⟩
    · rename_i hdecoded
      obtain ⟨header, size, rest, hdata, hunknown⟩ :=
        Serializer.deserialize_eq_ok_none_iff.mp hdecoded
      have hhead : wordAt data 0 = header := by
        rw [hdata]
        exact wordAt_append [] _ _
      have hlen : data.length = 4 + (4 + rest.length) := by
        rw [hdata]
        simp
      refine ⟨by omega, fun format hknown => ?_⟩
      rw [hhead, hunknown] at hknown
      cases hknown
    · exact h.elim
  · intro h
    obtain ⟨hlen, hframed⟩ := h
    cases hknown : headToFormatMap (wordAt data 0) with
    | none =>
      -- an unknown header yields the null pointer
      have hnull : Serializer.deserialize data = .ok none := by
        apply Serializer.deserialize_eq_ok_none_iff.mpr
        exact ⟨_, _, _, eq_envelope_append data hlen, hknown⟩
      rw [hnull]
      trivial
    | some format =>
      obtain ⟨hmax, payload, hmatches, hdata⟩ := (wellFramed_iff hknown).mp (hframed format hknown)
      obtain ⟨packet, size, hpacket, hsize, hmessage⟩ :=
        Serializer.deserialize_serialize (wordAt data 0) format payload none hknown hmatches
          (hdata ▸ hmax)
      have hserialize := Serializer.serialize_eq
        (m := ⟨wordAt data 0, format, payload, none⟩) ⟨hknown, hmatches, hdata ▸ hmax⟩
      have hsame : packet = data := by
        rw [hdata]
        exact (Prod.mk.inj (Except.ok.inj (hpacket.symm.trans hserialize))).1
      subst hsame
      rw [hmessage]
      show Serializer.serialize _ = _
      rw [hpacket, hsize]

/-- A ping whose size word and checksum are zero is accepted, although no message is serialized
    to it. -/
theorem not_parsedExactly : ¬ ∀ data, ParsedExactly data := by
  intro h
  have hping := h [0, 0, 0, 2, 0, 0, 0, 0, 0]
  have hdecoded : Serializer.deserialize [0, 0, 0, 2, 0, 0, 0, 0, 0]
      = .ok (some ⟨H_C_PING, [], [], none⟩) := by decide
  have hpacket : Serializer.serialize ⟨H_C_PING, [], [], none⟩
      = .ok ([0, 0, 0, 2, 0, 0, 0, 9, 11], 9) := by decide
  simp only [ParsedExactly, hdecoded, hpacket] at hping
  cases hping

end UpsServer
