import Mathlib.Data.List.Basic

/-!
# Search loops over a vector

Two loop shapes over a `std::vector`: the loop that keeps the last element that matches, and
the loop that counts an index up from `-1` and breaks at the first match, whose index is then
handed to `erase`. When nothing matches the counter stands on the last element, and on `-1`
for an empty vector.
-/

namespace UpsServer.Framework

variable {α : Type*} (q : α → Bool)

/-! ## The last match -/

/-- `for (x : xs) if (q x) result = x;` with `result` null at the start. -/
def lastMatch (xs : List α) : Option α :=
  xs.foldl (fun result x => if q x then some x else result) none

private theorem foldl_lastMatch (xs : List α) (start : Option α) :
    xs.foldl (fun result x => if q x then some x else result) start
      = (lastMatch q xs).or start := by
  induction xs generalizing start with
  | nil => simp [lastMatch]
  | cons x xs ih =>
    rw [lastMatch, List.foldl_cons, List.foldl_cons, ih, ih]
    by_cases hx : q x = true <;> cases lastMatch q xs <;> simp [hx]

@[simp] theorem lastMatch_nil : lastMatch q [] = none := rfl

/-- A match further on wins over a match at the head. -/
theorem lastMatch_cons (x : α) (xs : List α) :
    lastMatch q (x :: xs) = (lastMatch q xs).or (if q x then some x else none) := by
  rw [lastMatch, List.foldl_cons, foldl_lastMatch]

/-- What the loop finds is in the vector and matches. -/
theorem lastMatch_spec {xs : List α} {x : α} (h : lastMatch q xs = some x) :
    x ∈ xs ∧ q x = true := by
  induction xs with
  | nil => simp at h
  | cons y ys ih =>
    rw [lastMatch_cons] at h
    -- a later match hides the head
    cases hys : lastMatch q ys with
    | some z =>
      have hz : z = x := by simpa [hys] using h
      have := ih (by rw [hys, hz])
      exact ⟨List.mem_cons_of_mem _ this.1, this.2⟩
    | none =>
      by_cases hy : q y = true
      · have hyx : y = x := by simpa [hys, hy] using h
        exact ⟨by simp [hyx], by rw [← hyx]; exact hy⟩
      · simp [hys, hy] at h

theorem lastMatch_eq_none_iff {xs : List α} :
    lastMatch q xs = none ↔ ∀ x ∈ xs, q x = false := by
  induction xs with
  | nil => simp
  | cons y ys ih =>
    rw [lastMatch_cons, Option.or_eq_none_iff, ih]
    by_cases hy : q y = true <;> simp [hy]

theorem exists_lastMatch {xs : List α} {x : α} (hmem : x ∈ xs) (hx : q x = true) :
    ∃ y, lastMatch q xs = some y := by
  cases h : lastMatch q xs with
  | some y => exact ⟨y, rfl⟩
  | none =>
    have := (lastMatch_eq_none_iff q).mp h x hmem
    simp [hx] at this

/-- The loop finds `x` exactly when `x` matches and nothing after it does. -/
theorem lastMatch_eq_some_iff {xs : List α} {x : α} :
    lastMatch q xs = some x ↔
      ∃ before after, xs = before ++ x :: after ∧ q x = true ∧ ∀ y ∈ after, q y = false := by
  induction xs with
  | nil => simp
  | cons y ys ih =>
    rw [lastMatch_cons]
    constructor
    · intro h
      cases hys : lastMatch q ys with
      | some z =>
        have hz : z = x := by simpa [hys] using h
        obtain ⟨before, after, rfl, hx, hafter⟩ := ih.mp (by rw [hys, hz])
        exact ⟨y :: before, after, rfl, hx, hafter⟩
      | none =>
        by_cases hy : q y = true
        · have hyx : y = x := by simpa [hys, hy] using h
          subst hyx
          exact ⟨[], ys, rfl, hy, (lastMatch_eq_none_iff q).mp hys⟩
        · simp [hys, hy] at h
    · rintro ⟨before, after, heq, hx, hafter⟩
      cases before with
      | nil =>
        obtain ⟨rfl, rfl⟩ := List.cons.inj heq
        rw [(lastMatch_eq_none_iff q).mpr hafter]
        simp [hx]
      | cons b bs =>
        obtain ⟨rfl, rfl⟩ := List.cons.inj heq
        rw [ih.mpr ⟨bs, after, rfl, hx, hafter⟩]
        simp

/-! ## Counting to the first match -/

/-- `for (x : xs) { index++; if (q x) break; }` from the given index. -/
def loopIndex : List α → Int → Int
  | [], index => index
  | x :: xs, index => if q x then index + 1 else loopIndex xs (index + 1)

/-- `xs.erase(xs.begin() + index)`; `none` when the iterator is before the first element. -/
def eraseAt (xs : List α) (index : Int) : Option (List α) :=
  if 0 ≤ index ∧ index.toNat < xs.length then some (xs.eraseIdx index.toNat) else none

/-- The loop counts one less than the position of the first match, or the whole length. -/
theorem loopIndex_eq (xs : List α) (index : Int) :
    loopIndex q xs index = if ∃ x ∈ xs, q x = true then index + 1 + (xs.findIdx q : Int)
      else index + xs.length := by
  induction xs generalizing index with
  | nil => simp [loopIndex]
  | cons x xs ih =>
    by_cases hx : q x = true
    · simp [loopIndex, hx, List.findIdx_cons]
    · simp only [loopIndex, hx, Bool.false_eq_true, if_false, ih, List.exists_mem_cons_iff,
        false_or, List.findIdx_cons, cond_false, List.length_cons]
      split <;> push_cast <;> omega

/-- The loop followed by `erase` removes the first match. -/
theorem eraseAt_loopIndex_of_match {xs : List α} (h : ∃ x ∈ xs, q x = true) :
    eraseAt xs (loopIndex q xs (-1)) = some (xs.eraseP q) := by
  have hlt : xs.findIdx q < xs.length := List.findIdx_lt_length_of_exists h
  rw [loopIndex_eq, if_pos h]
  -- the counter stands on the first match when the loop breaks
  have hindex : (-1 + 1 + (xs.findIdx q : Int)).toNat = xs.findIdx q := by omega
  rw [eraseAt, hindex, if_pos ⟨by omega, hlt⟩, List.eraseP_eq_eraseIdx]
  simp [List.findIdx?_eq_some_iff_findIdx_eq.mpr ⟨hlt, rfl⟩]

/-- When nothing matches, the loop followed by `erase` removes the last element. -/
theorem eraseAt_loopIndex_of_forall_not {xs : List α} (nonempty : xs ≠ [])
    (h : ∀ x ∈ xs, q x = false) : eraseAt xs (loopIndex q xs (-1)) = some xs.dropLast := by
  have hpos : 0 < xs.length := List.length_pos_iff.mpr nonempty
  have hnone : ¬ ∃ x ∈ xs, q x = true := by
    rintro ⟨x, hmem, hx⟩
    rw [h x hmem] at hx
    cases hx
  -- the counter stands on the last element when the loop ends
  have hindex : (-1 + (xs.length : Int)).toNat = xs.length - 1 := by omega
  rw [loopIndex_eq, if_neg hnone, eraseAt, hindex, if_pos ⟨by omega, by omega⟩,
    List.dropLast_eq_eraseIdx (Nat.sub_add_cancel hpos)]

/-- Whatever the loop found, `erase` only removes entries. -/
theorem eraseAt_sublist {xs ys : List α} {index : Int} (h : eraseAt xs index = some ys) :
    ys.Sublist xs := by
  simp only [eraseAt] at h
  split at h
  · cases h
    exact List.eraseIdx_sublist xs _
  · cases h

/-! ## What erasing the first match leaves -/

variable {q}

/-- In a vector without duplicates exactly one matching element goes. -/
theorem exists_erased {xs : List α} (hnodup : xs.Nodup) (h : ∃ x ∈ xs, q x = true) :
    ∃ e ∈ xs, q e = true ∧ ∀ y, y ∈ xs.eraseP q ↔ y ∈ xs ∧ y ≠ e := by
  obtain ⟨x, hmem, hx⟩ := h
  -- the vector is `before`, the first match and `after`, without repetitions
  obtain ⟨e, before, after, -, he, rfl, herase⟩ := List.exists_of_eraseP hmem hx
  refine ⟨e, by simp, he, fun y => ?_⟩
  rw [herase]
  have hdisjoint := List.nodup_append.mp hnodup
  have hbefore : ∀ y ∈ before, y ≠ e := fun y hy heq =>
    hdisjoint.2.2 y hy e (by simp) heq
  have hafter : ∀ y ∈ after, y ≠ e := fun y hy heq =>
    (List.nodup_cons.mp hdisjoint.2.1).1 (heq ▸ hy)
  constructor
  · intro hy
    rcases List.mem_append.mp hy with hy | hy
    · exact ⟨List.mem_append_left _ hy, hbefore y hy⟩
    · exact ⟨List.mem_append_right _ (List.mem_cons_of_mem _ hy), hafter y hy⟩
  · rintro ⟨hy, hne⟩
    rcases List.mem_append.mp hy with hy | hy
    · exact List.mem_append_left _ hy
    · exact List.mem_append_right _ ((List.mem_cons.mp hy).resolve_left hne)

/-- The only match is what goes. -/
theorem mem_eraseP_of_unique {xs : List α} {x : α} (hnodup : xs.Nodup) (hmem : x ∈ xs)
    (hx : q x = true) (unique : ∀ y ∈ xs, q y = true → y = x) (y : α) :
    y ∈ xs.eraseP q ↔ y ∈ xs ∧ y ≠ x := by
  obtain ⟨e, he, hqe, herased⟩ := exists_erased hnodup ⟨x, hmem, hx⟩
  rw [herased, unique e he hqe]

/-- Of two matches the first goes. -/
theorem mem_eraseP_of_first {xs : List α} {x y : α} (hnodup : xs.Nodup)
    (horder : [x, y].Sublist xs) (hx : q x = true)
    (only : ∀ z ∈ xs, q z = true → z = x ∨ z = y) (z : α) :
    z ∈ xs.eraseP q ↔ z ∈ xs ∧ z ≠ x := by
  induction xs with
  | nil => cases horder
  | cons a as ih =>
    obtain ⟨ha, has⟩ := List.nodup_cons.mp hnodup
    by_cases hax : a = x
    · subst hax
      rw [List.eraseP_cons_of_pos hx, List.mem_cons]
      constructor
      · exact fun hz => ⟨Or.inr hz, fun heq => ha (heq ▸ hz)⟩
      · exact fun hz => hz.1.resolve_left hz.2
    · -- the head is not the first match, so it does not match at all
      have hrest : [x, y].Sublist as := by
        cases horder with
        | cons _ h => exact h
        | cons_cons _ _ => exact absurd rfl hax
      have hqa : ¬ q a = true := fun hqa => by
        rcases only a List.mem_cons_self hqa with heq | heq
        · exact hax heq
        · exact ha (heq ▸ hrest.subset (by simp))
      rw [List.eraseP_cons_of_neg hqa, List.mem_cons, List.mem_cons,
        ih has hrest fun b hb => only b (List.mem_cons_of_mem a hb)]
      constructor
      · rintro (rfl | ⟨hz, hne⟩)
        · exact ⟨Or.inl rfl, hax⟩
        · exact ⟨Or.inr hz, hne⟩
      · rintro ⟨rfl | hz, hne⟩
        · exact Or.inl rfl
        · exact Or.inr ⟨hz, hne⟩

/-- Erasing the first match erases a given match exactly when it is the one that is found. -/
theorem eraseP_eq_erase_iff [DecidableEq α] {xs : List α} {x : α} (hnodup : xs.Nodup)
    (hmem : x ∈ xs) (hx : q x = true) : xs.eraseP q = xs.erase x ↔ xs.find? q = some x := by
  induction xs with
  | nil => cases hmem
  | cons a as ih =>
    obtain ⟨ha, has⟩ := List.nodup_cons.mp hnodup
    by_cases hqa : q a = true
    · rw [List.eraseP_cons_of_pos hqa, List.find?_cons_of_pos hqa, Option.some.injEq]
      constructor
      · -- were `a` another element, `erase` would keep it
        intro heq
        by_contra hne
        rw [List.erase_cons_tail (by simpa using hne)] at heq
        exact ha (heq ▸ List.mem_cons_self)
      · rintro rfl
        rw [List.erase_cons_head]
    · have hne : a ≠ x := fun heq => hqa (heq ▸ hx)
      have hmem' : x ∈ as := (List.mem_cons.mp hmem).resolve_left hne.symm
      rw [List.eraseP_cons_of_neg hqa, List.find?_cons_of_neg hqa,
        List.erase_cons_tail (by simpa using hne), List.cons.injEq, ih has hmem']
      exact and_iff_right rfl

/-- Without duplicates, the last element goes and all others stay. -/
theorem dropLast_eq_erase [DecidableEq α] {xs : List α} {x : α} (hnodup : xs.Nodup)
    (last : xs.getLast? = some x) : xs.dropLast = xs.erase x := by
  obtain ⟨before, rfl⟩ := List.getLast?_eq_some_iff.mp last
  have hfresh : x ∉ before := fun hmem =>
    (List.nodup_append.mp hnodup).2.2 x hmem x (List.mem_singleton_self x) rfl
  rw [List.dropLast_concat, List.erase_append_right _ hfresh, List.erase_cons_head,
    List.append_nil]

/-! ## Two elements in order -/

/-- What follows `x` in the order of the vector stands behind the first `x`. -/
theorem mem_of_pair_sublist {as bs : List α} {x y : α} (hx : x ∉ as)
    (h : [x, y].Sublist (as ++ x :: bs)) : y ∈ bs := by
  induction as with
  | nil =>
    cases h with
    | cons _ h => exact h.subset (by simp)
    | cons_cons _ h => exact h.subset (by simp)
  | cons a as ih =>
    cases h with
    | cons _ h => exact ih (fun hmem => hx (List.mem_cons_of_mem _ hmem)) h
    | cons_cons _ _ => exact absurd List.mem_cons_self hx

theorem pair_sublist_of_mem {as bs : List α} {x y : α} (hy : y ∈ bs) :
    [x, y].Sublist (as ++ x :: bs) :=
  (List.Sublist.cons_cons x (List.singleton_sublist.mpr hy)).trans
    (List.sublist_append_right as (x :: bs))

end UpsServer.Framework
