import Mathlib.Algebra.Ring.Nat

/-!
# Lists joined by a separator

Splitting at the separator gives the pieces back exactly when no piece contains it. The loop that
joins the pieces one by one, with a counter that tells the first one from the others, computes
the joined list.
-/

namespace UpsServer.Framework

variable {α : Type*}

/-! ## Splitting what was joined -/

section Split

variable [BEq α] [LawfulBEq α] {x : α}

/-- No piece contains the separator. -/
theorem not_mem_of_mem_splitOn {l piece : List α} (h : piece ∈ l.splitOn x) : x ∉ piece := by
  induction l generalizing piece with
  | nil =>
    rw [List.splitOn_nil] at h
    simp [List.mem_singleton.mp h]
  | cons a l ih =>
    rw [List.splitOn_cons_eq_if_modifyHead] at h
    split at h
    · -- the piece before the separator is empty
      rcases List.mem_cons.mp h with rfl | h
      · simp
      · exact ih h
    · rename_i hne
      -- the element joins the first piece
      cases hpieces : l.splitOn x with
      | nil => exact absurd hpieces (List.splitOn_ne_nil x l)
      | cons first others =>
        rw [hpieces, List.modifyHead_cons] at h
        rw [hpieces] at ih
        rcases List.mem_cons.mp h with rfl | h
        · have hfirst := ih List.mem_cons_self
          have hxa : x ≠ a := fun heq => hne (by simp [heq])
          simp [hfirst, hxa]
        · exact ih (List.mem_cons_of_mem _ h)

/-- Splitting undoes joining exactly when no piece contains the separator. -/
theorem splitOn_intercalate_iff {pieces : List (List α)} (hne : pieces ≠ []) :
    ([x].intercalate pieces).splitOn x = pieces ↔ ∀ piece ∈ pieces, x ∉ piece := by
  apply Iff.intro
  · intro h piece hpiece
    rw [← h] at hpiece
    exact not_mem_of_mem_splitOn hpiece
  · intro h
    exact List.splitOn_intercalate x h hne

end Split

/-! ## Joining in a loop -/

theorem intercalate_concat (x : α) {pieces : List (List α)} (hne : pieces ≠ [])
    (piece : List α) :
    [x].intercalate (pieces ++ [piece]) = [x].intercalate pieces ++ [x] ++ piece := by
  induction pieces with
  | nil => exact absurd rfl hne
  | cons first pieces ih =>
    cases pieces with
    | nil => simp
    | cons second pieces =>
      have hrest := ih (by simp)
      simp only [List.cons_append, List.intercalate_cons_cons] at hrest ⊢
      rw [hrest]
      simp

/-- The loop over the elements: a chosen element is counted, and its text is appended behind a
    separator unless it is the first one. -/
theorem foldl_join {β : Type*} (x : α) (chosen : β → Bool) (text : β → List α) (elements : List β)
    (done : List (List α))
    (hfits : (done ++ (elements.filter chosen).map text).length < 2 ^ 32) :
    elements.foldl
        (fun result e =>
          if chosen e then
            (result.1 + 1, (if 0 < result.1 then result.2 ++ [x] else result.2) ++ text e)
          else result)
        (UInt32.ofNat done.length, [x].intercalate done)
      = (UInt32.ofNat (done ++ (elements.filter chosen).map text).length,
          [x].intercalate (done ++ (elements.filter chosen).map text)) := by
  -- on the elements; the pieces joined so far pile up in `done`
  induction elements generalizing done with
  | nil => simp
  | cons e elements ih =>
    rw [List.foldl_cons]
    by_cases hchosen : chosen e = true
    · have hsplit : done ++ ((e :: elements).filter chosen).map text
          = (done ++ [text e]) ++ (elements.filter chosen).map text := by
        rw [List.filter_cons_of_pos hchosen, List.map_cons, List.append_assoc]
        rfl
      rw [hsplit] at hfits ⊢
      have hcount : UInt32.ofNat done.length + 1 = UInt32.ofNat (done ++ [text e]).length := by
        rw [List.length_append, List.length_singleton, UInt32.ofNat_add]
        rfl
      -- the counter is zero for the first piece only
      have htext : (if 0 < UInt32.ofNat done.length then [x].intercalate done ++ [x]
          else [x].intercalate done) ++ text e = [x].intercalate (done ++ [text e]) := by
        by_cases hnil : done = []
        · subst hnil
          simp
        · have hpos : 0 < UInt32.ofNat done.length := by
            rw [UInt32.lt_iff_toNat_lt, UInt32.toNat_ofNat_of_lt']
            · exact List.length_pos_iff.mpr hnil
            · rw [List.length_append, List.length_append] at hfits
              exact Nat.lt_of_le_of_lt (by omega) hfits
          rw [if_pos hpos, intercalate_concat x hnil]
      rw [if_pos hchosen]
      simp only [hcount, htext]
      exact ih (done ++ [text e]) hfits
    · rw [List.filter_cons_of_neg hchosen] at hfits ⊢
      rw [if_neg hchosen]
      exact ih done hfits

/-- The loop that looks whether anything was written yet: it joins texts that are not empty. -/
theorem foldl_append_join {β : Type*} [DecidableEq α] (x : α) (text : β → List α)
    (hne : ∀ e, text e ≠ []) (elements : List β) (done : List (List α))
    (hdone : ∀ piece ∈ done, piece ≠ []) :
    elements.foldl
        (fun result e => (if result = [] then result else result ++ [x]) ++ text e)
        ([x].intercalate done)
      = [x].intercalate (done ++ elements.map text) := by
  -- on the elements; the pieces joined so far pile up in `done`
  induction elements generalizing done with
  | nil => simp
  | cons e elements ih =>
    have hsplit : done ++ (e :: elements).map text = (done ++ [text e]) ++ elements.map text := by
      rw [List.map_cons, List.append_assoc]
      rfl
    have hpieces : ∀ piece ∈ done ++ [text e], piece ≠ [] := by
      intro piece hpiece
      rcases List.mem_append.mp hpiece with hpiece | hpiece
      · exact hdone piece hpiece
      · rw [List.mem_singleton.mp hpiece]
        exact hne e
    -- nothing was written exactly when there is no piece
    have htext : (if [x].intercalate done = [] then [x].intercalate done
        else [x].intercalate done ++ [x]) ++ text e = [x].intercalate (done ++ [text e]) := by
      cases done with
      | nil => simp
      | cons first others =>
        have hfirst := hdone first List.mem_cons_self
        have hwritten : [x].intercalate (first :: others) ≠ [] := by
          cases others with
          | nil => simpa using hfirst
          | cons second others => simp [List.intercalate_cons_cons]
        rw [if_neg hwritten, intercalate_concat x (List.cons_ne_nil first others)]
    rw [List.foldl_cons, htext, hsplit]
    exact ih (done ++ [text e]) hpieces

end UpsServer.Framework
