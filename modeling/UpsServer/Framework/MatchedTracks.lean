import UpsServer.Framework.TwoEndWalk

/-!
# Tracks whose ends meet

The walk of `TwoEndWalk` takes any marked place as the end of a closed line. That is right on a
track whose ends are matched: when an end of one open place leads to another open place, an end of
the second one leads back. There every place the walk enters has one end behind it and one in
front, so the places it has marked form a trail, and the only place where a trail can be met again
is its start.
-/

namespace UpsServer.Framework.Track

variable {P : Type*}

/-! ## Matched ends -/

/-- Open places join each other in both directions, and the ends of a place are two other ones. -/
structure Matched (T : Track P) : Prop where
  back : ∀ c n, T.blocked c = false → T.blocked n = false → T.Joins c n → T.Joins n c
  apart : ∀ c a b, T.ends c = some (a, b) → a ≠ b ∧ a ≠ c ∧ b ≠ c

/-- A place joins at most two others. -/
theorem Joins.eq_or {T : Track P} {c x y z : P} (hx : T.Joins c x) (hy : T.Joins c y)
    (hz : T.Joins c z) : x = y ∨ x = z ∨ y = z := by
  obtain ⟨a, b, hends, hx⟩ := hx
  obtain ⟨a', b', hends', hy⟩ := hy
  obtain ⟨a'', b'', hends'', hz⟩ := hz
  obtain ⟨rfl, rfl⟩ := Prod.mk.inj (Option.some.inj (hends.symm.trans hends'))
  obtain ⟨rfl, rfl⟩ := Prod.mk.inj (Option.some.inj (hends.symm.trans hends''))
  rcases hx with rfl | rfl <;> rcases hy with rfl | rfl <;> rcases hz with rfl | rfl <;> simp

theorem Matched.ne_of_joins {T : Track P} (h : T.Matched) {c n : P} (hjoins : T.Joins c n) :
    n ≠ c := by
  obtain ⟨a, b, hends, rfl | rfl⟩ := hjoins
  · exact (h.apart _ _ _ hends).2.1
  · exact (h.apart _ _ _ hends).2.2

/-! ## Trails -/

/-- The places of a walk that started at `m`, the last one first. -/
structure Trail (T : Track P) (m : P) (trail : List P) : Prop where
  nodup : trail.Nodup
  unblocked : ∀ c ∈ trail, T.blocked c = false
  chain : trail.IsChain fun x y => T.Joins x y ∧ T.Joins y x
  start : trail.getLast? = some m

variable {T : Track P} {m : P}

/-- The trail of a walk that is still at its start. -/
theorem Trail.single (hopen : T.blocked m = false) : Trail T m [m] where
  nodup := List.nodup_singleton m
  unblocked c hc := by rwa [List.mem_singleton.mp hc]
  chain := List.isChain_singleton m
  start := rfl

/-- The walk enters another place. -/
theorem Trail.cons (hT : T.Matched) {c origin : P} {rest : List P}
    (h : Trail T m (origin :: rest)) (hopen : T.blocked c = false) (hjoins : T.Joins origin c)
    (hnew : c ∉ origin :: rest) : Trail T m (c :: origin :: rest) where
  nodup := List.nodup_cons.mpr ⟨hnew, h.nodup⟩
  unblocked x hx := by
    rcases List.mem_cons.mp hx with rfl | hx
    · exact hopen
    · exact h.unblocked x hx
  chain := by
    have horigin := h.unblocked origin List.mem_cons_self
    exact List.isChain_cons_cons.mpr ⟨⟨hT.back _ _ horigin hopen hjoins, hjoins⟩, h.chain⟩
  start := by
    rw [List.getLast?_cons_cons]
    exact h.start

variable [DecidableEq P]

/-- On a cyclic list of three entries or more predecessor and successor are different. -/
theorem prev_ne_next {line : List P} (hnodup : line.Nodup) (hlong : 3 ≤ line.length) {c : P}
    (hc : c ∈ line) : line.prev c hc ≠ line.next c hc := by
  obtain ⟨i, hi, rfl⟩ := List.getElem_of_mem hc
  rw [List.next_getElem line hnodup i hi, List.prev_getElem line hnodup i hi, Ne,
    hnodup.getElem_inj_iff]
  intro heq
  by_cases hend : i + 1 < line.length
  · rw [Nat.mod_eq_of_lt hend] at heq
    by_cases hzero : i = 0
    · subst hzero
      rw [Nat.zero_add, Nat.mod_eq_of_lt (by omega)] at heq
      omega
    · rw [show i + (line.length - 1) = (i - 1) + line.length by omega, Nat.add_mod_right,
        Nat.mod_eq_of_lt (by omega)] at heq
      omega
  · rw [show i + 1 = line.length by omega, Nat.mod_self,
      show i + (line.length - 1) = (i - 1) + line.length by omega, Nat.add_mod_right,
      Nat.mod_eq_of_lt (by omega)] at heq
    omega

section Ends

variable {trail : List P} {origin : P}

/-- A place of a trail joins the one that was entered after it, and the start the last one. -/
theorem Trail.joins_prev (h : Trail T m trail) (hhead : trail.head? = some origin)
    (hback : T.Joins origin m) {c : P} (hc : c ∈ trail) : T.Joins c (trail.prev c hc) := by
  have hchain := List.isChain_iff_getElem.mp h.chain
  obtain ⟨i, hi, rfl⟩ := List.getElem_of_mem hc
  rw [List.prev_getElem trail h.nodup i hi]
  by_cases hzero : i = 0
  · subst hzero
    have hmod : (0 + (trail.length - 1)) % trail.length = trail.length - 1 := by
      rw [Nat.zero_add, Nat.mod_eq_of_lt (by omega)]
    have hfirst : trail[0] = origin := by
      rw [List.head?_eq_getElem?, List.getElem?_eq_getElem hi] at hhead
      exact Option.some.inj hhead
    have hlast : trail[trail.length - 1] = m := by
      have hstart := h.start
      rw [List.getLast?_eq_getElem?, List.getElem?_eq_getElem (by omega)] at hstart
      exact Option.some.inj hstart
    simp only [hmod, hlast, hfirst]
    exact hback
  · have hmod : (i + (trail.length - 1)) % trail.length = i - 1 := by
      rw [show i + (trail.length - 1) = (i - 1) + trail.length by omega, Nat.add_mod_right,
        Nat.mod_eq_of_lt (by omega)]
    have hstep := (hchain (i - 1) (by omega)).2
    simp only [Nat.sub_add_cancel (Nat.pos_of_ne_zero hzero)] at hstep
    simp only [hmod]
    exact hstep

/-- A place of a trail joins the one that was entered before it, and the last one the start. -/
theorem Trail.joins_next (h : Trail T m trail) (hhead : trail.head? = some origin)
    (hjoins : T.Joins m origin) {c : P} (hc : c ∈ trail) : T.Joins c (trail.next c hc) := by
  have hchain := List.isChain_iff_getElem.mp h.chain
  obtain ⟨i, hi, rfl⟩ := List.getElem_of_mem hc
  rw [List.next_getElem trail h.nodup i hi]
  by_cases hend : i + 1 < trail.length
  · simp only [Nat.mod_eq_of_lt hend]
    exact (hchain i hend).1
  · obtain rfl : i = trail.length - 1 := by omega
    have hmod : (trail.length - 1 + 1) % trail.length = 0 := by
      rw [Nat.sub_add_cancel (by omega), Nat.mod_self]
    have hfirst : trail[0] = origin := by
      rw [List.head?_eq_getElem?, List.getElem?_eq_getElem (by omega)] at hhead
      exact Option.some.inj hhead
    have hlast : trail[trail.length - 1] = m := by
      have hstart := h.start
      rw [List.getLast?_eq_getElem?, List.getElem?_eq_getElem (by omega)] at hstart
      exact Option.some.inj hstart
    simp only [hmod, hlast, hfirst]
    exact hjoins

/-- A trail whose ends join each other is a closed line. -/
theorem Trail.closedLine (h : Trail T m trail) (hlong : 3 ≤ trail.length)
    (hhead : trail.head? = some origin) (hjoins : T.Joins m origin) (hback : T.Joins origin m) :
    T.ClosedLine trail where
  nonempty := by
    rintro rfl
    cases hhead
  nodup := h.nodup
  unblocked := h.unblocked
  joined c hc := by
    have hne := prev_ne_next h.nodup hlong hc
    obtain ⟨a, b, hends, hnext⟩ := h.joins_next hhead hjoins hc
    obtain ⟨a', b', hends', hprev⟩ := h.joins_prev hhead hback hc
    obtain ⟨rfl, rfl⟩ := Prod.mk.inj (Option.some.inj (hends.symm.trans hends'))
    refine ⟨a, b, hends, ?_⟩
    -- the two ends are different, so they lead to the two different neighbours
    rcases hprev with hp | hp
    · rcases hnext with hn | hn
      · exact absurd (hp.symm.trans hn) hne
      · exact Or.inl ⟨hp, hn⟩
    · rcases hnext with hn | hn
      · exact Or.inr ⟨hn, hp⟩
      · exact absurd (hp.symm.trans hn) hne

end Ends

omit [DecidableEq P] in
/-- A trail is met again at its start only. -/
theorem Trail.eq_start (hT : T.Matched) {c origin : P} {rest : List P}
    (h : Trail T m (origin :: rest)) (hjoins : T.Joins origin c) (hback : rest.head? ≠ some c)
    (hc : c ∈ origin :: rest) : c = m ∧ 3 ≤ (origin :: rest).length := by
  have hchain := List.isChain_iff_getElem.mp h.chain
  obtain ⟨i, hi, hget⟩ := List.getElem_of_mem hc
  -- it is neither the place the walk is at nor the one before
  have hzero : i ≠ 0 := by
    rintro rfl
    exact hT.ne_of_joins hjoins hget.symm
  have hone : i ≠ 1 := by
    rintro rfl
    rw [List.getElem_cons_succ] at hget
    rw [List.head?_eq_getElem?, List.getElem?_eq_getElem (by simpa using hi)] at hback
    exact hback (congrArg some hget)
  refine ⟨?_, by omega⟩
  by_cases hend : i + 1 < (origin :: rest).length
  · -- an inner place of the trail has both of its ends on the trail already
    have hprev := (hchain (i - 1) (by omega)).2
    simp only [Nat.sub_add_cancel (Nat.pos_of_ne_zero hzero), hget] at hprev
    have hnext := (hchain i hend).1
    rw [hget] at hnext
    have horigin : T.Joins c (origin :: rest)[0] :=
      hT.back _ _ (h.unblocked origin List.mem_cons_self) (h.unblocked c hc) hjoins
    exfalso
    rcases Joins.eq_or horigin hprev hnext with heq | heq | heq <;>
      rw [h.nodup.getElem_inj_iff] at heq <;> omega
  · have hlast : (origin :: rest).getLast? = some c := by
      rw [List.getLast?_eq_getElem?, List.getElem?_eq_getElem (by omega), ← hget]
      congr 2
      omega
    exact Option.some.inj (hlast.symm.trans h.start)

/-! ## The walk on a matched track -/

/-- A walk that comes from one end goes on along the other one. -/
theorem walk_on {fuel : Nat} {v : P → Bool} {c origin other a b : P}
    (hopen : T.blocked c = false) (hnew : v c = false) (hends : T.ends c = some (a, b))
    (hne : a ≠ b) (hfrom : (origin = a ∧ other = b) ∨ (origin = b ∧ other = a)) :
    T.walk (fuel + 1) v c origin = (T.walk fuel (mark v c) other c).map fun r =>
      (if r.1.asBool then .returned true else .flowedOff, r.2) := by
  simp only [walk, hopen, hnew, hends, Bool.false_eq_true, if_false]
  rcases hfrom with ⟨rfl, rfl⟩ | ⟨rfl, rfl⟩
  · rw [follow_origin, Option.bind_some]
    simp only [follow, hne, Bool.false_eq_true, if_false]
    cases T.walk fuel (mark v c) other c with
    | none => rfl
    | some r => cases hwon : r.1.asBool <;> simp [hwon]
  · simp only [follow, hne.symm, if_false, if_true]
    cases T.walk fuel (mark v c) other c with
    | none => rfl
    | some r => cases hwon : r.1.asBool <;> simp [hwon]

omit [DecidableEq P] in
/-- The other end of a place. -/
theorem Joins.other {c origin : P} (h : T.Joins c origin) :
    ∃ a b other, T.ends c = some (a, b) ∧
      ((origin = a ∧ other = b) ∨ (origin = b ∧ other = a)) ∧
      T.Joins c other ∧ ∀ n, T.Joins c n → n = origin ∨ n = other := by
  obtain ⟨a, b, hends, hfrom⟩ := h
  have honly : ∀ n, T.Joins c n → n = a ∨ n = b := by
    rintro n ⟨a', b', hends', hn⟩
    obtain ⟨rfl, rfl⟩ := Prod.mk.inj (Option.some.inj (hends.symm.trans hends'))
    exact hn.imp Eq.symm Eq.symm
  rcases hfrom with rfl | rfl
  · exact ⟨a, b, b, hends, Or.inl ⟨rfl, rfl⟩, ⟨a, b, hends, Or.inr rfl⟩, honly⟩
  · exact ⟨a, b, a, hends, Or.inr ⟨rfl, rfl⟩, ⟨a, b, hends, Or.inl rfl⟩,
      fun n hn => (honly n hn).symm⟩

/-- Following an end that does not lead back is a walk. -/
theorem walk_of_follow {w : (P → Bool) → P → P → Option (Answer × (P → Bool))}
    {v v' : P → Bool} {c origin n : P} {b : Bool} (hne : origin ≠ n)
    (h : follow w v c origin n = some (b, v')) : ∃ a, w v n c = some (a, v') ∧ a.asBool = b := by
  rw [follow, if_neg hne] at h
  obtain ⟨⟨a, u⟩, hwalk, heq⟩ := Option.map_eq_some_iff.mp h
  obtain ⟨rfl, rfl⟩ := Prod.mk.inj heq
  exact ⟨a, hwalk, rfl⟩

/-- What the marks look like that a failed walk left behind: the places behind them are open, and
    their open neighbours are marked, too. Only the first place joins the start. -/
structure Exhausted (T : Track P) (m c origin : P) (v v' : P → Bool) : Prop where
  entered : T.blocked c = false → v c = false ∧ v' c = true
  unblocked : ∀ x, v' x = true → v x = false → T.blocked x = false
  closed : ∀ x n, v' x = true → v x = false → T.blocked n = false → T.Joins x n → v' n = true
  first : ∀ x, v' x = true → v x = false → T.Joins x m → x = c ∧ origin = m

omit [DecidableEq P] in
/-- A walk that enters a blocked place marks nothing. -/
theorem Exhausted.of_blocked {c origin : P} {v : P → Bool} (hblocked : T.blocked c = true) :
    Exhausted T m c origin v v := by
  refine ⟨fun hopen => ?_, fun x hx hx' => ?_, fun x n hx hx' => ?_, fun x hx hx' => ?_⟩
  · rw [hblocked] at hopen
    cases hopen
  · rw [hx] at hx'
    cases hx'
  · rw [hx] at hx'
    cases hx'
  · rw [hx] at hx'
    cases hx'

/-- When the walk fails along the other end of a place, it has failed at the place, too. -/
theorem Exhausted.through {c origin other : P} {v w : P → Bool}
    (h : Exhausted T m other c (mark v c) w) (hopen : T.blocked c = false)
    (hvisited : v c = false) (keep : ∀ x, mark v c x = true → w x = true)
    (horigin : v origin = true) (hm : v m = true) (hstart : T.blocked m = false)
    (honly : ∀ n, T.Joins c n → n = origin ∨ n = other) : Exhausted T m c origin v w := by
  have hmarked : w c = true := keep c (by simp [mark])
  have hbefore : ∀ z, z ≠ c → v z = false → mark v c z = false := by
    intro z hz hv
    rw [mark, if_neg hz, hv]
  refine ⟨fun _ => ⟨hvisited, hmarked⟩, fun z hz hv => ?_, fun z n hz hv hn hzn => ?_,
    fun z hz hv hzm => ?_⟩
  · by_cases hzc : z = c
    · rwa [hzc]
    · exact h.unblocked z hz (hbefore z hzc hv)
  · by_cases hzc : z = c
    · subst hzc
      rcases honly n hzn with rfl | rfl
      · exact keep n (mark_of_marked z horigin)
      · exact (h.entered hn).2
    · exact h.closed z n hz (hbefore z hzc hv) hn hzn
  · by_cases hzc : z = c
    · subst hzc
      rcases honly m hzm with rfl | rfl
      · exact ⟨rfl, rfl⟩
      · -- the start was marked, so the walk would have succeeded there
        have hnew := (h.entered hstart).1
        rw [mark_of_marked z hm] at hnew
        cases hnew
    · have hcm : c = m := (h.first z hz (hbefore z hzc hv) hzm).2
      subst hcm
      rw [hm] at hvisited
      cases hvisited

/-- A walk behind a trail: when it succeeds the start lies on a closed line, and when it fails
    everything it could reach is marked. `old` are the marks of an earlier walk that failed. -/
theorem walk_behind (hT : T.Matched) (old : P → Prop)
    (oldOpen : ∀ x, old x → T.blocked x = false)
    (oldClosed : ∀ x n, old x → T.blocked n = false → T.Joins x n → old n ∨ n = m)
    {fuel : Nat} {v v' : P → Bool} {c origin : P} {rest : List P} {a : Answer}
    (trail : Trail T m (origin :: rest)) (marks : ∀ x, v x = true ↔ x ∈ origin :: rest ∨ old x)
    (joins : T.Joins origin c) (fresh : ¬ old c) (back : rest.head? ≠ some c)
    (h : T.walk fuel v c origin = some (a, v')) :
    (a.asBool = true → ∃ line, T.ClosedLine line ∧ m ∈ line) ∧
      (a.asBool = false → Exhausted T m c origin v v') := by
  induction fuel generalizing v v' c origin rest a with
  | zero => cases h
  | succ fuel ih =>
    by_cases hblocked : T.blocked c = true
    · -- nothing was entered
      simp only [walk, hblocked, if_true, Option.some.injEq, Prod.mk.injEq] at h
      obtain ⟨rfl, rfl⟩ := h
      exact ⟨fun hwon => (by cases hwon), fun _ => .of_blocked hblocked⟩
    have hopen : T.blocked c = false := by simpa using hblocked
    have horigin := trail.unblocked origin List.mem_cons_self
    have hjoins : T.Joins c origin := hT.back _ _ horigin hopen joins
    cases hvisited : v c with
    | true =>
      -- the place is on the trail, so it is the start
      simp only [walk, hopen, hvisited, Bool.false_eq_true, if_false, if_true, Option.some.injEq,
        Prod.mk.injEq] at h
      obtain ⟨rfl, rfl⟩ := h
      refine ⟨fun _ => ?_, fun hlost => (by cases hlost)⟩
      have hmem := ((marks c).mp hvisited).resolve_right fresh
      obtain ⟨rfl, hlong⟩ := trail.eq_start hT joins back hmem
      exact ⟨_, trail.closedLine hlong rfl hjoins joins, hmem⟩
    | false =>
      obtain ⟨x, y, other, hends, hfrom, hother, honly⟩ := hjoins.other
      obtain ⟨hne, -, -⟩ := hT.apart _ _ _ hends
      rw [walk_on hopen hvisited hends hne hfrom] at h
      obtain ⟨⟨a', w⟩, hwalk, heq⟩ := Option.map_eq_some_iff.mp h
      obtain ⟨rfl, rfl⟩ := Prod.mk.inj heq
      have hnew : c ∉ origin :: rest := fun hmem => by
        rw [(marks c).mpr (Or.inl hmem)] at hvisited
        cases hvisited
      have hm : m ∈ origin :: rest := List.mem_of_getLast? trail.start
      have hcm : c ≠ m := fun heq => hnew (heq ▸ hm)
      have hnext : origin ≠ other := by
        rcases hfrom with ⟨rfl, rfl⟩ | ⟨rfl, rfl⟩
        · exact hne
        · exact hne.symm
      -- an old mark in front would have led the earlier walk here
      have hfresh : ¬ old other := by
        intro hold
        have hback := hT.back _ _ hopen (oldOpen other hold) hother
        exact (oldClosed other c hold hopen hback).elim fresh hcm
      have hmarks : ∀ z, mark v c z = true ↔ z ∈ c :: origin :: rest ∨ old z := by
        intro z
        by_cases hz : z = c
        · simp [mark, hz]
        · simp [mark, hz, marks z]
      obtain ⟨hwin, hlose⟩ := ih (trail.cons hT hopen joins hnew) hmarks hother hfresh
        (fun heq => hnext (Option.some.inj heq)) hwalk
      have hkeep := walk_marks T hwalk
      cases hwon : a'.asBool with
      | true => exact ⟨fun _ => hwin hwon, fun hlost => (by simp [Answer.asBool] at hlost)⟩
      | false =>
        refine ⟨fun hfound => (by simp [Answer.asBool] at hfound), fun _ => ?_⟩
        have horigin' : v origin = true := (marks origin).mpr (Or.inl List.mem_cons_self)
        exact (hlose hwon).through hopen hvisited hkeep horigin' ((marks m).mpr (Or.inl hm))
          (trail.unblocked m hm) honly

/-- **No closed line is made up**: on a matched track a walk that starts without marks and answers
    `true` started on a closed line. -/
theorem closedLine_of_walk (hT : T.Matched) {fuel : Nat} {v' : P → Bool} {a : Answer}
    (h : T.walk fuel (fun _ => false) m m = some (a, v')) (won : a.asBool = true) :
    ∃ line, T.ClosedLine line ∧ m ∈ line := by
  cases fuel with
  | zero => cases h
  | succ fuel =>
    unfold walk at h
    split at h
    · cases h
      cases won
    rename_i hblocked
    have hopen : T.blocked m = false := by simpa using hblocked
    rw [if_neg Bool.false_ne_true] at h
    cases hends : T.ends m with
    | none =>
      simp only [hends, Option.some.injEq, Prod.mk.injEq] at h
      rw [← h.1] at won
      cases won
    | some ends =>
      obtain ⟨x, y⟩ := ends
      simp only [hends] at h
      obtain ⟨hxy, hx, hy⟩ := hT.apart m x y hends
      have hjoins : T.Joins m x := ⟨x, y, hends, Or.inl rfl⟩
      have hjoins' : T.Joins m y := ⟨x, y, hends, Or.inr rfl⟩
      have hsingle := Trail.single hopen
      obtain ⟨⟨b₁, w₁⟩, hfollow, h⟩ := Option.bind_eq_some_iff.mp h
      obtain ⟨a₁, hwalk, rfl⟩ := walk_of_follow hx.symm hfollow
      -- the first end, with nothing but the start marked
      have hfirst := walk_behind hT (m := m) (fun _ => False) (fun _ => False.elim)
        (fun _ _ => False.elim) hsingle (fun z => by simp [mark]) hjoins not_false (by simp) hwalk
      cases hwon : a₁.asBool with
      | true => exact hfirst.1 hwon
      | false =>
        simp only [hwon, Bool.false_eq_true, if_false] at h
        have hrest := hfirst.2 hwon
        have hmarked : w₁ m = true := walk_marks T hwalk m (by simp [mark])
        have hold : ∀ z, z ≠ m → mark (fun _ => false) m z = false := by
          intro z hz
          simp [mark, hz]
        obtain ⟨⟨b₂, w₂⟩, hfollow', h⟩ := Option.bind_eq_some_iff.mp h
        obtain ⟨a₂, hwalk', rfl⟩ := walk_of_follow hy.symm hfollow'
        -- the second end, behind the marks that the first one left
        have hsecond := walk_behind hT (m := m) (fun z => w₁ z = true ∧ z ≠ m)
          (fun z hz => hrest.unblocked z hz.1 (hold z hz.2))
          (fun z n hz hn hzn => by
            by_cases hnm : n = m
            · exact Or.inr hnm
            · exact Or.inl ⟨hrest.closed z n hz.1 (hold z hz.2) hn hzn, hnm⟩)
          hsingle (fun z => by by_cases hz : z = m <;> simp [hz, hmarked]) hjoins'
          (fun hmet => by
            have hyopen := hrest.unblocked y hmet.1 (hold y hmet.2)
            have hback := hT.back _ _ hopen hyopen hjoins'
            exact hxy (hrest.first y hmet.1 (hold y hmet.2) hback).1.symm)
          (by simp) hwalk'
        cases hwon' : a₂.asBool with
        | true => exact hsecond.1 hwon'
        | false =>
          simp only [hwon', Bool.false_eq_true, if_false, Option.some.injEq, Prod.mk.injEq] at h
          rw [← h.1] at won
          cases won

end UpsServer.Framework.Track
