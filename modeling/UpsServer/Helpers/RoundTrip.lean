import UpsServer.Helpers.WireFormat

/-!
# Serializing and back

What `serialize` writes for a message whose payload matches its format, byte by byte, and that
`deserialize` gives the message back. Both go over the format with an index of their own: the
encoder fills a zeroed buffer from left to right, the decoder reads the same places in the same
order. The addressee of a message is not part of its packet.
-/

namespace UpsServer

open Framework

/-! ## The packet of a message -/

/-- The header word, the word with the packet's size, and the fields. -/
def packetBody (header : UInt32) (payload : List Datum) : ByteString :=
  wordBytes header ++
    (wordBytes (UInt32.ofNat (9 + (encodePayload payload).length)) ++ encodePayload payload)

/-- The body of the packet and its checksum. -/
def packetOf (header : UInt32) (payload : List Datum) : ByteString :=
  packetBody header payload ++ [Serializer.checkSumOf (packetBody header payload)]

theorem length_packetBody (header : UInt32) (payload : List Datum) :
    (packetBody header payload).length = 8 + (encodePayload payload).length := by
  simp only [packetBody, List.length_append, length_wordBytes]
  omega

@[simp] theorem length_packetOf (header : UInt32) (payload : List Datum) :
    (packetOf header payload).length = 9 + (encodePayload payload).length := by
  rw [packetOf, List.length_append, length_packetBody, List.length_singleton]
  omega

/-- A message with a header of the table, that header's format, a payload that matches it and a
    packet whose size an `int` holds. -/
structure Message.WellFormed (m : Message) : Prop where
  format : headToFormatMap m.header = some m.msgFormat
  payload : Matches m.payload m.msgFormat
  fits : (packetOf m.header m.payload).length < 2 ^ 31

/-- A size that `int` holds survives the conversion. -/
theorem asInt_of_lt {value : Nat} (h : value < 2 ^ 31) : asInt value = value := by
  rw [asInt, Int.bmod_eq_of_le] <;> omega

theorem toNat_ofNat_of_lt {value : Nat} (h : value < 2 ^ 31) :
    (UInt32.ofNat value).toNat = value :=
  UInt32.toNat_ofNat_of_lt' (Nat.lt_trans h (by decide))

/-! ## Payload entries by position -/

theorem Message.stringAt_append {msg : Message} {before after : List Datum} {value : ByteString}
    (h : msg.payload = before ++ .str value :: after) :
    msg.stringAt before.length = .ok value := by
  rw [Message.stringAt, h, List.getElem?_append_right (le_refl _), Nat.sub_self]
  rfl

theorem Message.intAt_append {msg : Message} {before after : List Datum} {value : UInt32}
    (h : msg.payload = before ++ .int value :: after) :
    msg.intAt before.length = .ok value := by
  rw [Message.intAt, h, List.getElem?_append_right (le_refl _), Nat.sub_self]
  rfl

namespace Serializer

/-! ## The encoder -/

/-- The loop over the format adds up the sizes of the entries that are left. -/
theorem messageSizeLoop_eq {msg : Message} {format : List Char} {todo : List Datum}
    (hmatches : Matches todo format) (done : List Datum) (hmsg : msg.payload = done ++ todo)
    (size : Nat) :
    messageSizeLoop msg format done.length size = .ok (size + (encodePayload todo).length) := by
  -- on the format; the entries already counted pile up in `done`
  induction hmatches generalizing done size with
  | nil => rfl
  | @cons datum c todo format hkind _ ih =>
    have hsnoc : msg.payload = (done ++ [datum]) ++ todo := by
      rw [hmsg, List.append_assoc, List.singleton_append]
    have hlen : (done ++ [datum]).length = done.length + 1 := List.length_append
    cases datum with
    | int value =>
      obtain rfl : c = 'i' := hkind
      have hrest := ih _ hsnoc (size + 4)
      rw [hlen] at hrest
      show messageSizeLoop msg format (done.length + 1) (size + 4) = _
      rw [hrest, encodePayload_cons, List.length_append, ← Nat.add_assoc]
      rfl
    | str value =>
      obtain rfl : c = 's' := hkind
      have hrest := ih _ hsnoc (size + 4 + value.length)
      rw [hlen] at hrest
      show (msg.stringAt done.length >>= fun value =>
        messageSizeLoop msg format (done.length + 1) (size + 4 + value.length)) = _
      rw [Message.stringAt_append hmsg, ok_bind, hrest, encodePayload_cons, List.length_append,
        Datum.encode, List.length_append, length_wordBytes]
      congr 1
      omega

/-- A word is written over four bytes. -/
theorem copy32intToPlace_append (before rest : ByteString) {old : ByteString} (word : UInt32)
    (hlen : old.length = 4) :
    copy32intToPlace (before ++ (old ++ rest)) word before.length
      = .ok (before ++ (wordBytes word ++ rest)) :=
  writeBytes_append _ before rest hlen

/-- The loop over the format writes the entries that are left over as many blank bytes. -/
theorem putDataLoop_eq {msg : Message} {format : List Char} {todo : List Datum}
    (hmatches : Matches todo format) (done : List Datum) (hmsg : msg.payload = done ++ todo)
    (before blank after : ByteString) (hblank : blank.length = (encodePayload todo).length) :
    putDataLoop msg format done.length (before ++ (blank ++ after)) before.length
      = .ok (before ++ (encodePayload todo ++ after)) := by
  -- on the format; the bytes already written pile up in `before`
  induction hmatches generalizing done before blank with
  | nil =>
    obtain rfl := List.length_eq_zero_iff.mp hblank
    rfl
  | @cons datum c todo format hkind _ ih =>
    have hsnoc : msg.payload = (done ++ [datum]) ++ todo := by
      rw [hmsg, List.append_assoc, List.singleton_append]
    have hlen : (done ++ [datum]).length = done.length + 1 := List.length_append
    rw [encodePayload_cons, List.length_append] at hblank
    -- the place of this entry and the place of the others
    obtain ⟨here, there, rfl, hhere⟩ : ∃ here there, blank = here ++ there ∧
        here.length = datum.encode.length :=
      ⟨blank.take datum.encode.length, blank.drop datum.encode.length,
        (List.take_append_drop _ _).symm, List.length_take_of_le (by omega)⟩
    have hthere : there.length = (encodePayload todo).length := by
      rw [List.length_append] at hblank
      omega
    have hrest := ih _ hsnoc (before ++ datum.encode) there hthere
    rw [hlen, List.append_assoc, List.append_assoc, List.length_append] at hrest
    rw [encodePayload_cons, List.append_assoc, List.append_assoc]
    cases datum with
    | int value =>
      obtain rfl : c = 'i' := hkind
      show (msg.intAt done.length >>= fun word =>
        copy32intToPlace (before ++ (here ++ (there ++ after))) word before.length >>= fun target =>
          putDataLoop msg format (done.length + 1) target (before.length + 4)) = _
      rw [Message.intAt_append hmsg, ok_bind, copy32intToPlace_append _ _ _ hhere, ok_bind]
      exact hrest
    | str value =>
      obtain rfl : c = 's' := hkind
      -- the length word and the characters have their own places
      obtain ⟨size, chars, rfl, hsize, hchars⟩ : ∃ size chars, here = size ++ chars ∧
          size.length = 4 ∧ chars.length = value.length := by
        rw [Datum.encode, List.length_append, length_wordBytes] at hhere
        exact ⟨here.take 4, here.drop 4, (List.take_append_drop _ _).symm,
          List.length_take_of_le (by omega), by rw [List.length_drop]; omega⟩
      have hword := copy32intToPlace_append before (chars ++ (there ++ after))
        (UInt32.ofNat value.length) hsize
      have hstring : writeBytes CodecFault.writeOutside
          (before ++ (wordBytes (UInt32.ofNat value.length) ++ (chars ++ (there ++ after))))
          (before.length + 4) value
          = .ok (before ++ (Datum.encode (.str value) ++ (there ++ after))) := by
        have hwrite := writeBytes_append CodecFault.writeOutside
          (before ++ wordBytes (UInt32.ofNat value.length)) (there ++ after) hchars
        rw [List.append_assoc, List.append_assoc, List.length_append, length_wordBytes] at hwrite
        rw [Datum.encode, List.append_assoc]
        exact hwrite
      show (msg.stringAt done.length >>= fun value =>
        copy32intToPlace (before ++ ((size ++ chars) ++ (there ++ after)))
            (UInt32.ofNat value.length) before.length >>= fun target =>
          writeBytes .writeOutside target (before.length + 4) value >>= fun target =>
            putDataLoop msg format (done.length + 1) target
              (before.length + 4 + value.length)) = _
      rw [Message.stringAt_append hmsg, ok_bind, List.append_assoc, hword, ok_bind, hstring,
        ok_bind, ← hrest, Datum.encode, List.length_append, length_wordBytes]
      congr 1
      push_cast
      omega

/-- The packet before its payload is written. -/
theorem prepareEmptyPacket_eq (header : UInt32) {dataSize : Nat} (hfits : 9 + dataSize < 2 ^ 31) :
    prepareEmptyPacket header dataSize
      = .ok (wordBytes header ++
          (wordBytes (UInt32.ofNat (9 + dataSize)) ++ List.replicate (dataSize + 1) 0)) := by
  have hsize : 4 + 4 + dataSize + 1 = 9 + dataSize := by omega
  have hblank : List.replicate (9 + dataSize) (0 : UInt8)
      = List.replicate 4 0 ++ (List.replicate 4 0 ++ List.replicate (dataSize + 1) 0) := by
    rw [List.replicate_append_replicate, List.replicate_append_replicate]
    congr 1
    omega
  have hheader := copy32intToPlace_append [] (List.replicate 4 0 ++
    List.replicate (dataSize + 1) 0) header (List.length_replicate (n := 4) (a := (0 : UInt8)))
  have hword := copy32intToPlace_append (wordBytes header) (List.replicate (dataSize + 1) 0)
    (UInt32.ofNat (9 + dataSize)) (List.length_replicate (n := 4) (a := (0 : UInt8)))
  unfold prepareEmptyPacket
  simp only [hsize, if_neg (Nat.not_le.mpr hfits), hblank]
  exact (congrArg (· >>= _) hheader).trans hword

/-- The checksum is written over the last byte. -/
theorem countAndPlaceChecksum_eq (body : ByteString) (last : UInt8) {size : Nat}
    (hsize : size = body.length + 1) :
    countAndPlaceChecksum (body ++ [last]) size = .ok (body ++ [checkSumOf body]) := by
  subst hsize
  rw [countAndPlaceChecksum, Nat.add_sub_cancel, List.take_left]
  have hlast : ((body.length + 1 : Nat) : Int) - 1 = body.length := by omega
  rw [hlast]
  exact writeAt_append _ body [] last _

/-- **The encoder**: a well formed message becomes the packet of its header and payload. -/
theorem serialize_eq {m : Message} (h : m.WellFormed) :
    serialize m = .ok (packetOf m.header m.payload, (packetOf m.header m.payload).length) := by
  have hfits := h.fits
  rw [length_packetOf] at hfits ⊢
  by_cases hempty : m.msgFormat = []
  · -- an empty format has no payload
    have hpayload : m.payload = [] := by
      have hmatches := h.payload
      rw [hempty] at hmatches
      cases hp : m.payload with
      | nil => rfl
      | cons datum payload =>
        rw [hp] at hmatches
        cases hmatches
    unfold serialize
    rw [if_pos hempty, prepareEmptyPacket_eq m.header (by decide), ok_bind, hpayload]
    have hchecksum : countAndPlaceChecksum (packetBody m.header [] ++ [0]) 9
        = .ok (packetOf m.header []) := countAndPlaceChecksum_eq (packetBody m.header []) 0 rfl
    exact congrArg (· >>= fun result => .ok (result, 9)) hchecksum
  · have hsize : getMessageSizeByPayload m = .ok (encodePayload m.payload).length := by
      have hloop := messageSizeLoop_eq h.payload [] rfl 0
      rw [Nat.zero_add] at hloop
      exact hloop
    -- all blank bytes but the last are the place of the payload
    have hput : putDataToMessage
        (wordBytes m.header ++
          (wordBytes (UInt32.ofNat (9 + (encodePayload m.payload).length)) ++
            List.replicate ((encodePayload m.payload).length + 1) 0)) m
        = .ok (packetBody m.header m.payload ++ [0]) := by
      have hloop := putDataLoop_eq h.payload [] rfl
        (wordBytes m.header ++ wordBytes (UInt32.ofNat (9 + (encodePayload m.payload).length)))
        (List.replicate (encodePayload m.payload).length 0) [0] List.length_replicate
      rw [← List.replicate_succ', List.append_assoc, ← List.append_assoc (_ ++ _),
        List.append_assoc (wordBytes _)] at hloop
      exact hloop
    have hlength : 9 + (encodePayload m.payload).length
        = (packetBody m.header m.payload).length + 1 := by
      rw [length_packetBody]
      omega
    unfold serialize
    rw [if_neg hempty, hsize, ok_bind, prepareEmptyPacket_eq m.header hfits, ok_bind, hput,
      ok_bind, countAndPlaceChecksum_eq _ 0 hlength]
    rfl

/-! ## The decoder -/

/-- The loop over the format reads back the entries that stand at its index. -/
theorem deserializeLoop_encodePayload {format : List Char} {payload : List Datum}
    (hmatches : Matches payload format) (before tail : ByteString) (message : Message)
    (hfits : before.length + (encodePayload payload).length < 2 ^ 31) :
    deserializeLoop (before ++ (encodePayload payload ++ tail)) format before.length message
      = .ok (addAll message payload) := by
  -- on the format; the bytes already read pile up in `before`
  induction hmatches generalizing before message with
  | nil => rfl
  | @cons datum c payload format hkind _ ih =>
    rw [encodePayload_cons, List.length_append] at hfits
    have hrest := ih (before ++ datum.encode) (message.addData datum)
      (by rw [List.length_append]; omega)
    rw [List.append_assoc, ← List.append_assoc datum.encode, ← encodePayload_cons] at hrest
    cases datum with
    | int value =>
      obtain rfl : c = 'i' := hkind
      have hword : parse32intFromArray (before ++ (encodePayload (.int value :: payload) ++ tail))
          before.length = .ok value :=
        (parse32intFromArray_eq_ok_iff before).mpr
          ⟨encodePayload payload ++ tail, List.append_assoc _ _ _⟩
      have hindex : ((before ++ Datum.encode (.int value)).length : Int) = before.length + 4 := by
        rw [List.length_append]
        rfl
      rw [hindex] at hrest
      rw [deserializeLoop, hword]
      exact hrest
    | str value =>
      obtain rfl : c = 's' := hkind
      rw [Datum.encode, List.length_append, length_wordBytes] at hfits
      have hlength : (UInt32.ofNat value.length).toNat = value.length :=
        toNat_ofNat_of_lt (by omega)
      have hword : parse32intFromArray (before ++ (encodePayload (.str value :: payload) ++ tail))
          before.length = .ok (UInt32.ofNat value.length) :=
        (parse32intFromArray_eq_ok_iff before).mpr
          ⟨value ++ (encodePayload payload ++ tail), by simp [Datum.encode]⟩
      -- the characters stand behind the length word
      have hchars : getStringFromMessage
          (before ++ (encodePayload (.str value :: payload) ++ tail))
          (asInt (UInt32.ofNat value.length).toNat) (before.length + 4) = .ok value := by
        have hat : before ++ (encodePayload (.str value :: payload) ++ tail)
            = (before ++ wordBytes (UInt32.ofNat value.length)) ++
              (value ++ (encodePayload payload ++ tail)) := by
          simp [Datum.encode]
        have hplace : (before.length : Int) + 4
            = ((before ++ wordBytes (UInt32.ofNat value.length)).length : Nat) := by
          simp
        rw [hat, hplace, hlength, asInt_of_lt (by omega)]
        exact getStringFromMessage_eq_ok_iff.mpr ⟨rfl, _, rfl⟩
      have hindex : asInt ((before.length : Int) + 4 + (UInt32.ofNat value.length).toNat)
          = ((before ++ Datum.encode (.str value)).length : Nat) := by
        have hsum : (before.length : Int) + 4 + value.length
            = ((before.length + 4 + value.length : Nat) : Int) := by push_cast; rfl
        rw [hlength, hsum, asInt_of_lt (by omega), Datum.encode, List.length_append,
          List.length_append, length_wordBytes, Nat.add_assoc]
      rw [deserializeLoop, hword, ok_bind, hchars, ok_bind, hindex]
      exact hrest

/-- **Round trip**: for every header of the table, every payload that matches its format and
    fits an `int`-sized packet, decoding the packet gives the header, the format and the payload
    back. -/
theorem deserialize_serialize (header : UInt32) (format : List Char) (payload : List Datum)
    (player : Option PlayerRef) (known : headToFormatMap header = some format)
    (hmatches : Matches payload format) (fits : (packetOf header payload).length < 2 ^ 31) :
    ∃ packet size, serialize ⟨header, format, payload, player⟩ = .ok (packet, size) ∧
      size = packet.length ∧
      deserialize packet = .ok (some ⟨header, format, payload, none⟩) := by
  have hserialize := serialize_eq (m := ⟨header, format, payload, player⟩) ⟨known, hmatches, fits⟩
  refine ⟨_, _, hserialize, rfl, ?_⟩
  have hlen : (packetOf header payload).length = 9 + (encodePayload payload).length :=
    length_packetOf header payload
  have hpacket : packetOf header payload = wordBytes header ++
      (wordBytes (UInt32.ofNat (9 + (encodePayload payload).length)) ++
        (encodePayload payload ++ [checkSumOf (packetBody header payload)])) := by
    rw [packetOf, packetBody, List.append_assoc, List.append_assoc]
  -- the payload stands behind the two words of the envelope
  have hloop := deserializeLoop_encodePayload hmatches
    (wordBytes header ++ wordBytes (UInt32.ofNat (9 + (encodePayload payload).length)))
    [checkSumOf (packetBody header payload)] (Message.new header format)
    (by rw [List.length_append, length_wordBytes, length_wordBytes]; omega)
  rw [List.append_assoc, addAll_eq] at hloop
  apply deserialize_eq_ok_iff.mpr
  refine ⟨header, _, _, hpacket, ?_⟩
  simp only [known, hpacket]
  exact congrArg (· >>= _) hloop

/-- The winning move as the server reports it. -/
theorem deserialize_serialize_won :
    ∃ packet size,
      serialize ⟨H_S_GAME_WON, ['s', 'i', 'i', 'i'],
        [.str [65, 0, 59], .int 3, .int 0, .int 7], none⟩ = .ok (packet, size) ∧
      size = packet.length ∧
      deserialize packet = .ok (some ⟨H_S_GAME_WON, ['s', 'i', 'i', 'i'],
        [.str [65, 0, 59], .int 3, .int 0, .int 7], none⟩) :=
  deserialize_serialize H_S_GAME_WON _ _ none rfl
    (.cons rfl (.cons rfl (.cons rfl (.cons rfl .nil)))) (by decide)

end Serializer

end UpsServer
