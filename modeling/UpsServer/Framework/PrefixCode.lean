import Mathlib.InformationTheory.Coding.UniquelyDecodable
import Mathlib.Data.Set.Function

/-!
# Prefix codes

A code is a set of words over some alphabet. When no word begins another one, a stream of words
splits in one way only. A code whose words tell their own length is of that kind.
-/

namespace UpsServer.Framework

open InformationTheory

variable {α β : Type*} {code : Set (List α)}

/-! ## Words that do not begin each other -/

/-- No word of the code begins another word of it. -/
def PrefixFree (code : Set (List α)) : Prop :=
  ∀ v ∈ code, ∀ w ∈ code, v <+: w → v = w

/-- The length of a word is read off any stream that begins with it. -/
def SelfDelimiting (code : Set (List α)) (length : List α → ℕ) : Prop :=
  ∀ w ∈ code, ∀ rest, length (w ++ rest) = w.length

theorem SelfDelimiting.prefixFree {length : List α → ℕ} (h : SelfDelimiting code length) :
    PrefixFree code := by
  intro v hv w hw hpre
  obtain ⟨rest, rfl⟩ := hpre
  -- both words tell their length at the same place
  have hlen : v.length = (v ++ rest).length := by
    calc v.length = length (v ++ rest) := (h v hv rest).symm
      _ = length ((v ++ rest) ++ []) := by rw [List.append_nil]
      _ = (v ++ rest).length := h _ hw []
  have hrest : rest = [] := by
    rw [List.length_append] at hlen
    exact List.length_eq_zero_iff.mp (by omega)
  rw [hrest, List.append_nil]

/-- The first word of a stream and the rest of it are determined. -/
theorem PrefixFree.append_inj (h : PrefixFree code) {v w x y : List α} (hv : v ∈ code)
    (hw : w ∈ code) (heq : v ++ x = w ++ y) : v = w ∧ x = y := by
  have hvw : v = w := by
    rcases List.prefix_or_prefix_of_prefix (List.prefix_append v x)
      (heq ▸ List.prefix_append w y) with hpre | hpre
    · exact h v hv w hw hpre
    · exact (h w hw v hv hpre).symm
  subst hvw
  exact ⟨rfl, List.append_cancel_left heq⟩

/-! ## Streams of words -/

/-- A prefix code without the empty word is uniquely decodable. -/
theorem PrefixFree.uniquelyDecodable (h : PrefixFree code) (hne : [] ∉ code) :
    UniquelyDecodable code := by
  intro vs
  induction vs with
  | nil =>
    intro ws _ hws heq
    cases ws with
    | nil => rfl
    | cons w ws =>
      -- a first word would be empty
      have hnil : w = [] := (List.append_eq_nil_iff.mp heq.symm).1
      exact absurd (hnil ▸ hws w List.mem_cons_self) hne
  | cons v vs ih =>
    intro ws hvs hws heq
    cases ws with
    | nil =>
      have hnil : v = [] := (List.append_eq_nil_iff.mp heq).1
      exact absurd (hnil ▸ hvs v List.mem_cons_self) hne
    | cons w ws =>
      obtain ⟨hword, hrest⟩ := h.append_inj (hvs v List.mem_cons_self)
        (hws w List.mem_cons_self) heq
      rw [hword, ih ws (fun u hu => hvs u (List.mem_cons_of_mem _ hu))
        (fun u hu => hws u (List.mem_cons_of_mem _ hu)) hrest]

/-- Sources with equal streams of code words agree in all that their words depend on. -/
theorem map_eq_of_flatMap_eq {γ : Type*} {encode : β → List α} {key : β → γ} {good : Set β}
    (hcode : UniquelyDecodable (encode '' good))
    (hkey : ∀ x ∈ good, ∀ y ∈ good, encode x = encode y → key x = key y) {xs ys : List β}
    (hxs : ∀ x ∈ xs, x ∈ good) (hys : ∀ y ∈ ys, y ∈ good)
    (heq : xs.flatMap encode = ys.flatMap encode) : xs.map key = ys.map key := by
  have hwords : ∀ zs : List β, (∀ z ∈ zs, z ∈ good) →
      ∀ w ∈ zs.map encode, w ∈ encode '' good := by
    intro zs hzs w hw
    obtain ⟨z, hz, rfl⟩ := List.mem_map.mp hw
    exact Set.mem_image_of_mem encode (hzs z hz)
  -- the words are the same, and each of them determines the key
  have hmap : xs.map encode = ys.map encode :=
    hcode _ _ (hwords xs hxs) (hwords ys hys) heq
  clear heq
  induction xs generalizing ys with
  | nil =>
    cases ys with
    | nil => rfl
    | cons y ys => cases hmap
  | cons x xs ih =>
    cases ys with
    | nil => cases hmap
    | cons y ys =>
      obtain ⟨hhead, htail⟩ := List.cons.inj hmap
      have hxy := hkey x (hxs x List.mem_cons_self) y (hys y List.mem_cons_self) hhead
      have hrest := ih (fun z hz => hxs z (List.mem_cons_of_mem _ hz))
        (fun z hz => hys z (List.mem_cons_of_mem _ hz)) htail
      rw [List.map_cons, List.map_cons, hxy, hrest]

end UpsServer.Framework
