import UpsServer.Framework.TwoEndWalk

/-!
# The calls of a walk

A walk enters a place at most once, whatever a missing answer is read as. Whether every call of
it ends with an answer is decided by one way through the track: leave each place by its first
end that leads neither back nor to a blocked place. The answers are all there exactly when this
way runs into a mark or into itself; otherwise it gets stuck, and the place where it does has no
answer to give.
-/

namespace UpsServer.Framework.Track

variable {P : Type*}

/-! ## The places that were entered -/

/-- The places of the calls that tried ends, in the order of the calls. -/
def entered (calls : List (Call P)) : List P := (calls.filter Call.entered).map Call.place

theorem entered_append (calls calls' : List (Call P)) :
    entered (calls ++ calls') = entered calls ++ entered calls' := by
  simp [entered]

/-- Between the marks `v` and `v'` no place is entered twice, and those that are entered were
    unmarked before and are marked afterwards. -/
structure EntersOnce (v : P → Bool) (calls : List (Call P)) (v' : P → Bool) : Prop where
  keeps : ∀ x, v x = true → v' x = true
  nodup : (entered calls).Nodup
  unmarked : ∀ x ∈ entered calls, v x = false
  marked : ∀ x ∈ entered calls, v' x = true

namespace EntersOnce

variable {v u w : P → Bool} {calls calls' : List (Call P)}

/-- Nothing is entered. -/
theorem of_none (h : entered calls = []) : EntersOnce v calls v where
  keeps _ hx := hx
  nodup := by rw [h]; exact List.nodup_nil
  unmarked := by simp [h]
  marked := by simp [h]

theorem append (h : EntersOnce v calls u) (h' : EntersOnce u calls' w) :
    EntersOnce v (calls ++ calls') w where
  keeps x hx := h'.keeps x (h.keeps x hx)
  nodup := by
    rw [entered_append, List.nodup_append]
    refine ⟨h.nodup, h'.nodup, fun x hx y hy heq => ?_⟩
    -- marked by the first calls, unmarked before the others
    have hmarked := h.marked x hx
    rw [heq, h'.unmarked y hy] at hmarked
    cases hmarked
  unmarked x hx := by
    rw [entered_append] at hx
    rcases List.mem_append.mp hx with hx | hx
    · exact h.unmarked x hx
    · exact Bool.eq_false_iff.mpr fun hmarked => by
        have := h'.unmarked x hx
        rw [h.keeps x hmarked] at this
        cases this
  marked x hx := by
    rw [entered_append] at hx
    rcases List.mem_append.mp hx with hx | hx
    · exact h'.keeps x (h.marked x hx)
    · exact h'.marked x hx

variable [DecidableEq P]

/-- The marking of the place that is entered. -/
theorem enter {c : P} (unseen : v c = false) (a : Answer) :
    EntersOnce v [⟨c, true, a⟩] (mark v c) where
  keeps _ hx := mark_of_marked c hx
  nodup := List.nodup_singleton c
  unmarked x hx := by rwa [List.mem_singleton.mp hx]
  marked x hx := by simp [List.mem_singleton.mp hx, mark]

theorem of_follow {walk : (P → Bool) → P → P → Option (Traced P Answer)}
    {missing : P → Bool} {c origin n : P} {r : Traced P Bool}
    (hwalk : ∀ {t}, walk v n c = some t → EntersOnce v t.calls t.visited)
    (h : followTraced walk missing v c origin n = some r) :
    EntersOnce v r.calls r.visited := by
  rcases followTraced_eq_some h with ⟨-, rfl⟩ | ⟨-, t, ht, rfl⟩
  · exact of_none rfl
  · exact hwalk ht

end EntersOnce

section Entered

variable [DecidableEq P] {T : Track P} {missing : P → Bool}

/-- A walk enters no place twice, and no marked one. -/
theorem entersOnce_of_trace {fuel : Nat} {v : P → Bool} {c origin : P} {t : Traced P Answer}
    (h : T.trace missing fuel v c origin = some t) : EntersOnce v t.calls t.visited := by
  induction fuel generalizing v c origin t with
  | zero => cases h
  | succ fuel ih =>
    cases traceStep_of_trace h with
    | blocked => exact .of_none rfl
    | marked => exact .of_none rfl
    | endless _ unseen => exact .enter unseen _
    | first _ unseen _ tried => exact (EntersOnce.enter unseen _).append (.of_follow ih tried)
    | second _ unseen _ tried _ tried' =>
      -- the second end starts from the marks that the first one left
      exact (EntersOnce.enter unseen _).append
        ((EntersOnce.of_follow ih tried).append (.of_follow ih tried'))

end Entered

/-! ## Calls that answer -/

/-- Every call returned an answer. -/
def Explicit (calls : List (Call P)) : Prop := ∀ call ∈ calls, call.answer ≠ .flowedOff

theorem explicit_nil : Explicit ([] : List (Call P)) := fun _ h => by cases h

theorem explicit_cons_iff {call : Call P} {calls : List (Call P)} :
    Explicit (call :: calls) ↔ call.answer ≠ .flowedOff ∧ Explicit calls :=
  List.forall_mem_cons

theorem explicit_append_iff {calls calls' : List (Call P)} :
    Explicit (calls ++ calls') ↔ Explicit calls ∧ Explicit calls' :=
  List.forall_mem_append

section Answers

variable [DecidableEq P] {T : Track P} {missing v : P → Bool} {fuel : Nat} {c origin : P}
  {t : Traced P Answer}

theorem trace_blocked (shut : T.blocked c = true)
    (h : T.trace missing fuel v c origin = some t) :
    t = ⟨.returned false, v, [⟨c, false, .returned false⟩]⟩ := by
  cases fuel with
  | zero => cases h
  | succ fuel =>
    cases traceStep_of_trace h with
    | blocked => rfl
    | marked isOpen => rw [shut] at isOpen; cases isOpen
    | endless isOpen => rw [shut] at isOpen; cases isOpen
    | first isOpen => rw [shut] at isOpen; cases isOpen
    | second isOpen => rw [shut] at isOpen; cases isOpen

theorem trace_marked (isOpen : T.blocked c = false) (seen : v c = true)
    (h : T.trace missing fuel v c origin = some t) :
    t = ⟨.returned true, v, [⟨c, false, .returned true⟩]⟩ := by
  cases fuel with
  | zero => cases h
  | succ fuel =>
    rw [trace, if_neg (by simp [isOpen]), if_pos seen] at h
    exact (Option.some.inj h).symm

/-- At an open place a walk answers `true` or not at all, and its own call is among the
    calls. -/
theorem trace_open (isOpen : T.blocked c = false)
    (h : T.trace missing fuel v c origin = some t) (explicit : Explicit t.calls) :
    t.value = .returned true := by
  cases fuel with
  | zero => cases h
  | succ fuel =>
    cases traceStep_of_trace h with
    | blocked shut => rw [isOpen] at shut; cases shut
    | marked => rfl
    | endless => exact absurd rfl (explicit_cons_iff.mp explicit).1
    | first => rfl
    | @second _ _ _ r₂ =>
      have hanswer := (explicit_cons_iff.mp explicit).1
      cases hr₂ : r₂.value with
      | true => simp
      | false => simp [hr₂] at hanswer

end Answers

/-! ## The way through the track -/

section Ways

variable [DecidableEq P] (T : Track P)

/-- An end that a walk can go on along. -/
def Passable (origin n : P) : Prop := origin ≠ n ∧ T.blocked n = false

instance (origin n : P) : Decidable (T.Passable origin n) :=
  inferInstanceAs (Decidable (_ ∧ _))

/-- Where a way leaves `c`: by the first end that leads neither back nor to a blocked place. -/
def wayOn (origin c : P) : Option P :=
  match T.ends c with
  | none => none
  | some (first, second) =>
    if T.Passable origin first then some first
    else if T.Passable origin second then some second
    else none

/-- The places that a way passes, one after the other. -/
inductive IsWay : P → List P → Prop
  | here (origin c : P) : IsWay origin [c]
  | on {origin c n : P} {rest : List P} (leaves : T.wayOn origin c = some n)
      (goesOn : IsWay c (n :: rest)) : IsWay origin (c :: n :: rest)

/-- The way from `c` passes a place for the second time. -/
def RunsIntoItself (c : P) : Prop := ∃ way, T.IsWay c (c :: way) ∧ ¬ (c :: way).Nodup

/-- The way from `c` passes a place for the second time, or one that is marked. -/
def ComesBack (v : P → Bool) (origin c : P) : Prop :=
  ∃ way, T.IsWay origin (c :: way) ∧ (¬ (c :: way).Nodup ∨ ∃ x ∈ way, v x = true)

variable {T} {v : P → Bool} {c origin : P}

theorem runsIntoItself_iff : T.RunsIntoItself c ↔ T.ComesBack (fun _ => false) c c := by
  simp [RunsIntoItself, ComesBack]

/-- A way comes back where it goes on to a mark, or behind there. -/
theorem comesBack_iff : T.ComesBack v origin c ↔
    ∃ n, T.wayOn origin c = some n ∧
      (mark v c n = true ∨ T.ComesBack (mark v c) c n) := by
  constructor
  · rintro ⟨way, hway, hback⟩
    cases hway with
    | here => simp at hback
    | @on _ _ n rest hon hrest =>
      refine ⟨n, hon, ?_⟩
      by_cases hn : mark v c n = true
      · exact Or.inl hn
      refine Or.inr ⟨rest, hrest, ?_⟩
      obtain ⟨hnc, hvn⟩ : n ≠ c ∧ v n = false := by
        by_cases hnc : n = c
        · simp [hnc, mark] at hn
        · exact ⟨hnc, by simpa [mark, hnc] using hn⟩
      -- whatever is passed again or marked lies behind `n`
      rcases hback with hback | ⟨x, hx, hvx⟩
      · by_cases hc : c ∈ rest
        · exact Or.inr ⟨c, hc, by simp [mark]⟩
        · refine Or.inl fun hnodup => hback ?_
          exact List.nodup_cons.mpr ⟨by simp [hc, Ne.symm hnc], hnodup⟩
      · rcases List.mem_cons.mp hx with rfl | hx
        · rw [hvn] at hvx
          cases hvx
        · exact Or.inr ⟨x, hx, mark_of_marked c hvx⟩
  · rintro ⟨n, hon, hn | ⟨rest, hrest, hback⟩⟩
    · refine ⟨[n], .on hon (.here c n), ?_⟩
      by_cases hnc : n = c
      · exact Or.inl (by simp [hnc])
      · exact Or.inr ⟨n, by simp, by simpa [mark, hnc] using hn⟩
    · refine ⟨n :: rest, .on hon hrest, ?_⟩
      rcases hback with hback | ⟨x, hx, hmarked⟩
      · exact Or.inl fun hnodup => hback (List.nodup_cons.mp hnodup).2
      · by_cases hxc : x = c
        · exact Or.inl fun hnodup =>
            (List.nodup_cons.mp hnodup).1 (hxc ▸ List.mem_cons_of_mem n hx)
        · exact Or.inr ⟨x, List.mem_cons_of_mem n hx, by simpa [mark, hxc] using hmarked⟩

end Ways

/-! ## When every call answers -/

section Explicit

variable [DecidableEq P] {T : Track P} {missing v w : P → Bool} {fuel : Nat} {c origin n : P}

/-- An end that cannot be followed fails, answers and leaves no mark. -/
theorem follow_impassable {r : Traced P Bool} (himpassable : ¬ T.Passable origin n)
    (h : followTraced (T.trace missing fuel) missing w c origin n = some r) :
    r.value = false ∧ r.visited = w ∧ Explicit r.calls := by
  rcases followTraced_eq_some h with ⟨-, rfl⟩ | ⟨hne, t, ht, rfl⟩
  · exact ⟨rfl, rfl, explicit_nil⟩
  · have hshut : T.blocked n = true := by simpa [Passable, hne] using himpassable
    obtain rfl := trace_blocked hshut ht
    exact ⟨rfl, rfl, by simp [Explicit]⟩

/-- An end that can be followed succeeds when every call behind it answers. These are the calls
    of a walk from its place, unless that is marked. -/
theorem follow_passable {r : Traced P Bool} (hpassable : T.Passable origin n)
    (h : followTraced (T.trace missing fuel) missing w c origin n = some r)
    (hwalk : ∀ t, T.trace missing fuel w n c = some t → w n = false →
      (Explicit t.calls ↔ T.ComesBack w c n)) :
    (Explicit r.calls ↔ w n = true ∨ T.ComesBack w c n) ∧
      (Explicit r.calls → r.value = true) := by
  rcases followTraced_eq_some h with ⟨heq, -⟩ | ⟨-, t, ht, rfl⟩
  · exact absurd heq hpassable.1
  refine ⟨?_, fun explicit => ?_⟩
  · cases hn : w n with
    | true =>
      obtain rfl := trace_marked hpassable.2 hn ht
      simp [Explicit]
    | false => simp [hwalk t ht hn]
  · rw [trace_open hpassable.2 ht explicit]
    rfl

/-- **Every call answers exactly when the way comes back.** -/
theorem explicit_iff_comesBack {t : Traced P Answer} (isOpen : T.blocked c = false)
    (unseen : v c = false) (h : T.trace missing fuel v c origin = some t) :
    Explicit t.calls ↔ T.ComesBack v origin c := by
  induction fuel generalizing v c origin t with
  | zero => cases h
  | succ fuel ih =>
    have hwalk : ∀ {w : P → Bool} {n : P}, T.Passable origin n → ∀ t,
        T.trace missing fuel w n c = some t → w n = false →
          (Explicit t.calls ↔ T.ComesBack w c n) :=
      fun hpassable t ht hn => ih hpassable.2 hn ht
    rw [comesBack_iff]
    cases traceStep_of_trace h with
    | blocked shut => rw [isOpen] at shut; cases shut
    | marked _ seen => rw [unseen] at seen; cases seen
    | endless _ _ ends => simp [explicit_cons_iff, wayOn, ends]
    | @first first second r _ _ ends tried won =>
      -- the end that succeeded is the one by which the way leaves
      have hpassable : T.Passable origin first := by
        by_contra himpassable
        rw [(follow_impassable himpassable tried).1] at won
        cases won
      have hfollow := follow_passable hpassable tried (hwalk hpassable)
      simp [explicit_cons_iff, wayOn, ends, hpassable, hfollow.1]
    | @second first second r₁ r₂ _ _ ends tried failed tried' =>
      by_cases hfirst : T.Passable origin first
      · -- the way leaves by the first end, where some call did not answer
        have hfollow := follow_passable hfirst tried (hwalk hfirst)
        have hsilent : ¬ Explicit r₁.calls := fun explicit => by
          rw [hfollow.2 explicit] at failed
          cases failed
        have hback := mt hfollow.1.mpr hsilent
        simp [explicit_cons_iff, explicit_append_iff, wayOn, ends, hfirst, hsilent, hback]
      · obtain ⟨-, hsame, hexplicit⟩ := follow_impassable hfirst tried
        rw [hsame] at tried'
        by_cases hsecond : T.Passable origin second
        · have hfollow := follow_passable hsecond tried' (hwalk hsecond)
          rw [explicit_cons_iff, explicit_append_iff]
          simp only [hexplicit, true_and, wayOn, ends, hfirst, hsecond, if_true, if_false,
            Option.some.injEq, exists_eq_left', hfollow.1.symm]
          exact ⟨fun h => h.2, fun explicit => ⟨by simp [hfollow.2 explicit], explicit⟩⟩
        · -- the way is stuck, and so is the call
          obtain ⟨hfailed, -, -⟩ := follow_impassable hsecond tried'
          simp [explicit_cons_iff, wayOn, ends, hfirst, hsecond, hfailed]

end Explicit

end UpsServer.Framework.Track
