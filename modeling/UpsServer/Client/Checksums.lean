import UpsServer.Client.RoundTrip

/-!
# The arithmetic of the client's checksum

`checkChecksum` adds signed bytes with a remainder that follows the sign, `countCheckSum` narrows a
number up to 255 to a signed byte. Modulo 128 neither shows: the check accepts exactly the arrays
whose sum vanishes, and the writer's byte makes it vanish.
-/

namespace UpsServer.Client

open Framework

/-- Replacing a byte changes the sum by the difference. -/
theorem sum_set {bytes : Bytes} {i : Nat} {old : Int8} (hold : bytes[i]? = some old) (new : Int8) :
    ((bytes.set i new).map Int8.toInt).sum
      = (bytes.map Int8.toInt).sum - old.toInt + new.toInt := by
  obtain ⟨hi, rfl⟩ := List.getElem?_eq_some_iff.mp hold
  have hi' : i < (bytes.map Int8.toInt).length := by
    rw [List.length_map]
    exact hi
  rw [List.map_set, List.sum_set', dif_pos hi', List.getElem_map]
  omega

namespace MessageSerializer

/-! ## Checking -/

/-- A sum that does not vanish is the one thing that is refused. -/
theorem checkChecksum_eq_error {bytes : Bytes} (h : checkChecksum bytes ≠ .ok ()) :
    checkChecksum bytes = .error .badCheckSum := by
  unfold checkChecksum at h ⊢
  split
  · rfl
  · rename_i hzero
    rw [if_neg hzero] at h
    exact absurd rfl h

/-- What is written passes the check, whatever the message is. -/
theorem dvd_sum_of_serializeMessage {message : Message} {packet : Bytes}
    (h : serializeMessage message = .ok packet) :
    (128 : Int) ∣ (packet.map Int8.toInt).sum := by
  unfold serializeMessage at h
  split at h
  · cases h
  · obtain ⟨payloadBytes, _, hpacket⟩ := bind_eq_ok_iff.mp h
    rw [← Except.ok.inj hpacket]
    exact dvd_sum_countCheckSum _ _ payloadBytes

/-- A packet with one byte replaced by one that differs modulo 128 does not pass. -/
theorem not_dvd_sum_set {packet : Bytes} (hsum : (128 : Int) ∣ (packet.map Int8.toInt).sum)
    {i : Nat} {old new : Int8} (hold : packet[i]? = some old)
    (hdiffers : ¬ new.toInt ≡ old.toInt [ZMOD 128]) :
    ¬ (128 : Int) ∣ ((packet.set i new).map Int8.toInt).sum := by
  intro hdvd
  rw [sum_set hold] at hdvd
  apply hdiffers
  apply Int.modEq_iff_dvd.mpr
  obtain ⟨k, hk⟩ := hsum
  obtain ⟨l, hl⟩ := hdvd
  exact ⟨k - l, by omega⟩

/-- **The checksum**: it is accepted exactly when the sum of the bytes vanishes modulo 128, read
    with their signs or without; what the client writes is accepted, and is not any more when one
    byte is replaced by a byte that differs modulo 128. -/
theorem checksum_arithmetic :
    (∀ bytes : Bytes,
      (checkChecksum bytes = .ok () ↔ (bytes.map Int8.toInt).sum ≡ 0 [ZMOD 128]) ∧
      (checkChecksum bytes = .ok () ↔
        (bytes.map fun b => b.toUInt8.toNat).sum ≡ 0 [MOD 128])) ∧
    ∀ (message : Message) (packet : Bytes), serializeMessage message = .ok packet →
      checkChecksum packet = .ok () ∧
      ∀ (i : Nat) (old new : Int8), packet[i]? = some old → ¬ new.toInt ≡ old.toInt [ZMOD 128] →
        checkChecksum (packet.set i new) = .error .badCheckSum := by
  constructor
  · intro bytes
    have hunsigned := sum_map_modEq toInt_modEq_toNat bytes
    rw [checkChecksum_eq_ok_iff, ← Int.modEq_zero_iff_dvd, ← Int.natCast_modEq_iff]
    refine ⟨Iff.rfl, ?_⟩
    exact ⟨fun h => hunsigned.symm.trans h, fun h => hunsigned.trans h⟩
  · intro message packet hpacket
    have hsum := dvd_sum_of_serializeMessage hpacket
    refine ⟨(checkChecksum_eq_ok_iff packet).mpr hsum, ?_⟩
    intro i old new hold hdiffers
    apply checkChecksum_eq_error
    intro hok
    exact not_dvd_sum_set hsum hold hdiffers ((checkChecksum_eq_ok_iff _).mp hok)

end MessageSerializer

end UpsServer.Client
