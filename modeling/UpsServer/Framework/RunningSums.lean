import Mathlib.Data.Int.ModEq
import Mathlib.Algebra.BigOperators.Group.List.Basic

/-!
# Running sums with a remainder

Sums that are reduced after every summand, and what they say about the sum that is not. The
remainder of signed numbers follows the sign of the dividend, so a running sum may be negative;
it is zero exactly when the modulus divides the sum. The sum of bytes wraps at 256, which does
no harm to a modulus that divides 256.
-/

namespace UpsServer.Framework

/-! ## Signed numbers -/

/-- The sum of the numbers, reduced after each of them by the remainder that follows the sign. -/
def truncatedSum (m start : Int) (xs : List Int) : Int :=
  xs.foldl (fun sum x => (sum + x).tmod m) start

@[simp] theorem truncatedSum_nil (m start : Int) : truncatedSum m start [] = start := rfl

@[simp] theorem truncatedSum_cons (m start x : Int) (xs : List Int) :
    truncatedSum m start (x :: xs) = truncatedSum m ((start + x).tmod m) xs := rfl

/-- The remainder that follows the sign is a remainder. -/
theorem tmod_modEq (a m : Int) : a.tmod m ≡ a [ZMOD m] := by
  have hdiv := Int.mul_tdiv_add_tmod a m
  apply Int.modEq_iff_dvd.mpr
  exact ⟨a.tdiv m, by omega⟩

/-- What is below the modulus is its own remainder, with either sign. -/
theorem tmod_of_bounds {a m : Int} (h : -m < a) (h' : a < m) : a.tmod m = a := by
  rcases Int.le_total 0 a with hpos | hneg
  · exact Int.tmod_eq_of_lt hpos h'
  · have hflip : (-a).tmod m = -a := Int.tmod_eq_of_lt (by omega) (by omega)
    rw [Int.neg_tmod] at hflip
    omega

/-- Reducing on the way does not change the residue. -/
theorem truncatedSum_modEq (m start : Int) (xs : List Int) :
    truncatedSum m start xs ≡ start + xs.sum [ZMOD m] := by
  induction xs generalizing start with
  | nil => rw [truncatedSum_nil, List.sum_nil, Int.add_zero]
  | cons x xs ih =>
    have hstep : (start + x).tmod m + xs.sum ≡ start + x + xs.sum [ZMOD m] :=
      (tmod_modEq (start + x) m).add_right _
    rw [truncatedSum_cons, List.sum_cons, ← Int.add_assoc]
    exact (ih _).trans hstep

/-- A running sum stays below the modulus. -/
theorem truncatedSum_bounds {m start : Int} (hm : 0 < m) (hstart : -m < start ∧ start < m)
    (xs : List Int) : -m < truncatedSum m start xs ∧ truncatedSum m start xs < m := by
  induction xs generalizing start with
  | nil => exact hstart
  | cons x xs ih =>
    rw [truncatedSum_cons]
    apply ih
    exact ⟨Int.lt_tmod_of_pos _ hm, Int.tmod_lt_of_pos _ hm⟩

/-- A running sum ends at zero exactly when the modulus divides the sum. -/
theorem truncatedSum_eq_zero_iff {m start : Int} (hm : 0 < m) (hstart : -m < start ∧ start < m)
    (xs : List Int) : truncatedSum m start xs = 0 ↔ m ∣ start + xs.sum := by
  have hmod := truncatedSum_modEq m start xs
  obtain ⟨hlow, hhigh⟩ := truncatedSum_bounds hm hstart xs
  constructor
  · intro hzero
    rw [hzero] at hmod
    exact Int.modEq_zero_iff_dvd.mp hmod.symm
  · intro hdvd
    have hdvd' : m ∣ truncatedSum m start xs :=
      Int.modEq_zero_iff_dvd.mp (hmod.trans (Int.modEq_zero_iff_dvd.mpr hdvd))
    exact Int.eq_zero_of_abs_lt_dvd hdvd' (abs_lt.mpr ⟨hlow, hhigh⟩)

/-- Integers with the residues of natural numbers have a sum with the residue of theirs. -/
theorem sum_map_modEq {α : Type*} {m : Int} {f : α → Int} {g : α → Nat}
    (h : ∀ x, f x ≡ (g x : Int) [ZMOD m]) (xs : List α) :
    (xs.map f).sum ≡ ((xs.map g).sum : Nat) [ZMOD m] := by
  induction xs with
  | nil => rfl
  | cons x xs ih =>
    rw [List.map_cons, List.map_cons, List.sum_cons, List.sum_cons, Int.natCast_add]
    exact (h x).add ih

/-! ## Bytes -/

/-- The running sum of bytes, reduced after each of them. -/
def wrappedSum (m start : UInt8) (bytes : List UInt8) : UInt8 :=
  bytes.foldl (fun sum b => (sum + b) % m) start

/-- Neither the reduction on the way nor the wrap at 256 shows in the result. -/
theorem toNat_wrappedSum {m start : UInt8} (hm : m.toNat ∣ 256) (hstart : start < m)
    (bytes : List UInt8) :
    (wrappedSum m start bytes).toNat
      = (start.toNat + (bytes.map UInt8.toNat).sum) % m.toNat := by
  induction bytes generalizing start with
  | nil =>
    rw [List.map_nil, List.sum_nil, Nat.add_zero,
      Nat.mod_eq_of_lt (UInt8.lt_iff_toNat_lt.mp hstart)]
    rfl
  | cons b bytes ih =>
    have hpos : 0 < m := UInt8.lt_iff_toNat_lt.mpr
      (Nat.lt_of_le_of_lt (Nat.zero_le _) (UInt8.lt_iff_toNat_lt.mp hstart))
    have hstep : ((start + b) % m).toNat = (start.toNat + b.toNat) % m.toNat := by
      rw [UInt8.toNat_mod, UInt8.toNat_add]
      exact Nat.mod_mod_of_dvd _ hm
    show (wrappedSum m ((start + b) % m) bytes).toNat = _
    rw [ih (UInt8.mod_lt _ hpos), hstep, List.map_cons, List.sum_cons, Nat.mod_add_mod,
      Nat.add_assoc]

end UpsServer.Framework
