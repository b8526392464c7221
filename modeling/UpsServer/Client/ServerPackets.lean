import UpsServer.Client.Envelope
import UpsServer.Helpers.PacketLayout

/-!
# Packets of the server at the client

Whether the client accepts what `Serializer::serialize` writes. The server ends a packet with the
sum of the bytes before it, the client wants a byte that cancels this sum, and 128 divides twice
the sum only if 64 divides it. The client reads the size from one signed byte, the server writes
it as a word.
-/

namespace UpsServer

open Framework

/-! ## Byte sums -/

/-- A word that fits a byte has no other bytes. -/
theorem byteSum_wordBytes_of_lt {w : UInt32} (h : w.toNat < 256) :
    byteSum (wordBytes w) = w.toNat := by
  have h24 : UInt32.toNat 24 % 32 = 24 := rfl
  have h16 : UInt32.toNat 16 % 32 = 16 := rfl
  have h8 : UInt32.toNat 8 % 32 = 8 := rfl
  simp only [byteSum, wordBytes, List.map_cons, List.map_nil, List.sum_cons, List.sum_nil,
    UInt32.toNat_toUInt8, UInt32.toNat_shiftRight, h24, h16, h8, Nat.shiftRight_eq_div_pow]
  omega

namespace Client

/-! ## Bytes with and without sign -/

/-- The bytes of a packet as the client receives them. -/
def asReceived (packet : ByteString) : Bytes := packet.map UInt8.toInt8

/-- Modulo 128 the sign of a byte does not matter. -/
theorem sum_asReceived_modEq (packet : ByteString) :
    ((asReceived packet).map Int8.toInt).sum ≡ (byteSum packet : Int) [ZMOD 128] := by
  rw [asReceived, List.map_map]
  exact sum_map_modEq (fun b => toInt_modEq_toNat b.toInt8) packet

/-! ## Acceptance -/

/-- The server encodes the message and the client's checks accept the packet. -/
def Accepts (m : UpsServer.Message) : Prop :=
  ∃ packet size, Serializer.serialize m = .ok (packet, size) ∧
    MessageSerializer.checkMessage (asReceived packet) = .ok ()

/-- The size of the message's packet: the envelope and the fields. -/
def packetSize (m : UpsServer.Message) : Nat := 9 + (encodePayload m.payload).length

/-- A packet's bytes at the client. -/
theorem asReceived_packetOf (header : UInt32) (payload : List Datum) :
    ∃ h₀ h₁ h₂ h₃ l₀ l₁ l₂ c, asReceived (packetOf header payload)
      = envelope h₀ h₁ h₂ h₃ l₀ l₁ l₂ (Int8.ofNat (9 + (encodePayload payload).length))
          (asReceived (encodePayload payload)) c := by
  have hword : ∀ w : UInt32, ∃ b₀ b₁ b₂,
      asReceived (wordBytes w) = [b₀, b₁, b₂, (w.toUInt8).toInt8] := fun w => ⟨_, _, _, rfl⟩
  obtain ⟨h₀, h₁, h₂, hheader⟩ := hword header
  obtain ⟨l₀, l₁, l₂, hsize⟩ := hword (UInt32.ofNat (9 + (encodePayload payload).length))
  rw [UInt32.toUInt8_ofNat', UInt8.toInt8_ofNat'] at hsize
  refine ⟨h₀, h₁, h₂, header.toUInt8.toInt8, l₀, l₁, l₂,
    (Serializer.checkSumOf (packetBody header payload)).toInt8, ?_⟩
  have hsplit : asReceived (packetOf header payload)
      = asReceived (wordBytes header) ++
          (asReceived (wordBytes (UInt32.ofNat (9 + (encodePayload payload).length))) ++
            asReceived (encodePayload payload)) ++
          [(Serializer.checkSumOf (packetBody header payload)).toInt8] := by
    rw [packetOf, packetBody]
    simp only [asReceived, List.map_append]
    rfl
  rw [hsplit, hheader, hsize, envelope]
  simp only [List.append_assoc]

/-- The server encodes every well formed message, so only the client's checks count. -/
theorem accepts_eq_checkMessage {m : UpsServer.Message} (h : m.WellFormed) :
    Accepts m ↔
      MessageSerializer.checkMessage (asReceived (packetOf m.header m.payload)) = .ok () := by
  have hserialize := Serializer.serialize_eq h
  constructor
  · intro haccepts
    obtain ⟨packet, size, hpacket, hcheck⟩ := haccepts
    obtain ⟨rfl, _⟩ := Prod.mk.inj (Except.ok.inj (hserialize.symm.trans hpacket))
    exact hcheck
  · intro hcheck
    exact ⟨_, _, hserialize, hcheck⟩

/-- The whole packet sums up to the body and the body modulo 128. -/
theorem byteSum_packetOf (header : UInt32) (payload : List Datum) :
    byteSum (packetOf header payload)
      = byteSum (packetBody header payload) + byteSum (packetBody header payload) % 128 := by
  rw [packetOf, byteSum_append]
  congr 1
  show (Serializer.checkSumOf (packetBody header payload)).toNat + 0 = _
  rw [Serializer.toNat_checkSumOf, Nat.add_zero]

/-- The body of a short packet sums up to its header, its size and its fields. -/
theorem byteSum_packetBody {m : UpsServer.Message} (h : packetSize m < 128) :
    byteSum (packetBody m.header m.payload)
      = byteSum (wordBytes m.header) + packetSize m + byteSum (encodePayload m.payload) := by
  have hnat : (UInt32.ofNat (packetSize m)).toNat = packetSize m := toNat_ofNat_of_lt (by omega)
  have hword : byteSum (wordBytes (UInt32.ofNat (packetSize m))) = packetSize m := by
    rw [byteSum_wordBytes_of_lt (by omega), hnat]
  have hsplit : byteSum (packetBody m.header m.payload) = byteSum (wordBytes m.header)
      + (byteSum (wordBytes (UInt32.ofNat (packetSize m))) + byteSum (encodePayload m.payload)) := by
    rw [packetBody, byteSum_append, byteSum_append]
    rfl
  rw [hsplit, hword, Nat.add_assoc]

/-- **Agreement on the envelope**: the client accepts the server's packet of a message exactly
    when the packet has less than 128 bytes and 64 divides the sum of its header, its size and
    its fields. -/
theorem accepts_iff {m : UpsServer.Message} (h : m.WellFormed) :
    Accepts m ↔ packetSize m < 128 ∧
      64 ∣ byteSum (wordBytes m.header) + packetSize m + byteSum (encodePayload m.payload) := by
  obtain ⟨h₀, h₁, h₂, h₃, l₀, l₁, l₂, c, henvelope⟩ := asReceived_packetOf m.header m.payload
  have hlength : (asReceived (encodePayload m.payload)).length = (encodePayload m.payload).length :=
    List.length_map _
  have hmod := sum_asReceived_modEq (packetOf m.header m.payload)
  have hdvd : ((asReceived (packetOf m.header m.payload)).map Int8.toInt).sum ≡ 0 [ZMOD 128] ↔
      128 ∣ byteSum (packetOf m.header m.payload) := by
    rw [← Int.natCast_dvd_natCast, ← Int.modEq_zero_iff_dvd]
    exact ⟨fun hzero => hmod.symm.trans hzero, fun hzero => hmod.trans hzero⟩
  rw [accepts_eq_checkMessage h, henvelope, MessageSerializer.checkMessage_envelope_iff, hlength,
    toInt_ofNat_eq_iff, ← henvelope, ← Int.modEq_zero_iff_dvd, hdvd]
  show packetSize m < 128 ∧ _ ↔ _
  refine and_congr_right ?_
  intro hsize
  -- twice the sum of the body has to vanish
  rw [byteSum_packetOf, byteSum_packetBody hsize]
  omega

/-- A refusal whose two characters happen to fit. -/
theorem accepts_iff_refusal :
    Accepts ⟨H_S_NACK_REAS, ['s'], [.str [83, 83]], none⟩ := by
  have hformed : UpsServer.Message.WellFormed
      ⟨H_S_NACK_REAS, ['s'], [.str [83, 83]], none⟩ :=
    ⟨rfl, .cons rfl .nil, by decide⟩
  apply (accepts_iff hformed).mpr
  decide

/-- The plain acknowledgement of the server is refused for its checksum. -/
theorem not_accepts : ¬ ∀ m : UpsServer.Message, m.WellFormed → Accepts m := by
  intro h
  obtain ⟨packet, size, hpacket, hcheck⟩ :=
    h ⟨H_S_ACK, [], [], none⟩ ⟨rfl, .nil, by decide⟩
  have hserialize : Serializer.serialize ⟨H_S_ACK, [], [], none⟩
      = .ok ([0, 1, 0, 1, 0, 0, 0, 9, 11], 9) := by rfl
  obtain ⟨rfl, _⟩ := Prod.mk.inj (Except.ok.inj (hserialize.symm.trans hpacket))
  have hrefused : MessageSerializer.checkMessage (asReceived [0, 1, 0, 1, 0, 0, 0, 9, 11])
      = .error .badCheckSum := by decide +kernel
  rw [hrefused] at hcheck
  cases hcheck

end Client

end UpsServer
