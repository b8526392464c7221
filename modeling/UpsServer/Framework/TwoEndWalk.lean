import Mathlib.Data.Finset.Card
import Mathlib.Data.List.Cycle

/-!
# Walking along tracks with two ends

Every place of a track may join up to two neighbouring places, its ends. A closed line is a
cyclic sequence of distinct places in which both ends of every place lead to its predecessor
and its successor.

`walk` is a depth-first search for such a line. It marks every place it enters, follows the
ends of the place except back to where it came from, and takes a marked place as success. A
walk that finds nothing on either end ends without an answer, `flowedOff`.

`trace` is the same search with every call written down and with any reading of a missing
answer. `trace_total` shows that it needs no more fuel than there are unmarked places, and
`walk_closes` that the walk never misses: started on a closed line it answers `true`, whatever
the rest of the track looks like.
-/

namespace UpsServer.Framework

variable {P : Type*}

/-! ## Tracks and closed lines -/

/-- Where the places are and what they join. A blocked place is never entered. -/
structure Track (P : Type*) where
  blocked : P → Bool
  ends : P → Option (P × P)

namespace Track

/-- Two places are joined by an end of the first. -/
def Joins (T : Track P) (c n : P) : Prop :=
  ∃ a b, T.ends c = some (a, b) ∧ (a = n ∨ b = n)

variable [DecidableEq P]

/-- A cyclic sequence of distinct open places whose two ends lead to the predecessor and to
    the successor. -/
structure ClosedLine (T : Track P) (line : List P) : Prop where
  nonempty : line ≠ []
  nodup : line.Nodup
  unblocked : ∀ c ∈ line, T.blocked c = false
  joined : ∀ c (hc : c ∈ line), ∃ a b, T.ends c = some (a, b) ∧
    ((a = line.prev c hc ∧ b = line.next c hc) ∨ (a = line.next c hc ∧ b = line.prev c hc))

omit [DecidableEq P] in
/-- Ends that join a place of `line` stay on the line and are joined back. -/
structure ClosedUnder (T : Track P) (S : P → Prop) : Prop where
  unblocked : ∀ c, S c → T.blocked c = false
  hasEnds : ∀ c, S c → ∃ a b, T.ends c = some (a, b)
  stays : ∀ c n, S c → T.Joins c n → S n
  back : ∀ c n, S c → T.Joins c n → T.Joins n c

/-- The places of a closed line are closed under following ends, in both directions. -/
theorem ClosedLine.closedUnder {T : Track P} {line : List P} (h : T.ClosedLine line) :
    T.ClosedUnder (· ∈ line) where
  unblocked := h.unblocked
  hasEnds c hc := by
    obtain ⟨a, b, hends, _⟩ := h.joined c hc
    exact ⟨a, b, hends⟩
  stays c n hc hjoins := by
    obtain ⟨a, b, hends, hor⟩ := h.joined c hc
    obtain ⟨a', b', hends', hn⟩ := hjoins
    rw [hends] at hends'
    obtain ⟨rfl, rfl⟩ := Prod.mk.inj (Option.some.inj hends')
    rcases hor with ⟨ha, hb⟩ | ⟨ha, hb⟩ <;> rcases hn with rfl | rfl
    · rw [ha]; exact line.prev_mem c hc
    · rw [hb]; exact line.next_mem c hc
    · rw [ha]; exact line.next_mem c hc
    · rw [hb]; exact line.prev_mem c hc
  back c n hc hjoins := by
    -- the successor of the predecessor is the place itself, and the other way round
    have hprev : T.Joins (line.prev c hc) c := by
      obtain ⟨a, b, hends, hor⟩ := h.joined _ (line.prev_mem c hc)
      have hback := line.next_prev h.nodup c hc
      rcases hor with ⟨_, hb⟩ | ⟨ha, _⟩
      · exact ⟨a, b, hends, Or.inr (hb.trans hback)⟩
      · exact ⟨a, b, hends, Or.inl (ha.trans hback)⟩
    have hnext : T.Joins (line.next c hc) c := by
      obtain ⟨a, b, hends, hor⟩ := h.joined _ (line.next_mem c hc)
      have hback := line.prev_next h.nodup c hc
      rcases hor with ⟨ha, _⟩ | ⟨_, hb⟩
      · exact ⟨a, b, hends, Or.inl (ha.trans hback)⟩
      · exact ⟨a, b, hends, Or.inr (hb.trans hback)⟩
    obtain ⟨a, b, hends, hor⟩ := h.joined c hc
    obtain ⟨a', b', hends', hn⟩ := hjoins
    rw [hends] at hends'
    obtain ⟨rfl, rfl⟩ := Prod.mk.inj (Option.some.inj hends')
    rcases hor with ⟨ha, hb⟩ | ⟨ha, hb⟩ <;> rcases hn with rfl | rfl
    · rw [ha]; exact hprev
    · rw [hb]; exact hnext
    · rw [ha]; exact hnext
    · rw [hb]; exact hprev

/-- A closed line only depends on the places it consists of. -/
theorem ClosedLine.congr {T T' : Track P} {line : List P} (h : T.ClosedLine line)
    (hblocked : ∀ c ∈ line, T'.blocked c = T.blocked c)
    (hends : ∀ c ∈ line, T'.ends c = T.ends c) : T'.ClosedLine line where
  nonempty := h.nonempty
  nodup := h.nodup
  unblocked c hc := by rw [hblocked c hc]; exact h.unblocked c hc
  joined c hc := by rw [hends c hc]; exact h.joined c hc

/-! ## The walk -/

/-- How a walk ends: with an answer, or without one after both ends failed. -/
inductive Answer where
  | returned (won : Bool)
  | flowedOff
  deriving DecidableEq, Repr

/-- A missing answer is read as `false`. -/
def Answer.asBool : Answer → Bool
  | .returned won => won
  | .flowedOff => false

/-- `visited` with one more place marked. -/
def mark (visited : P → Bool) (c : P) : P → Bool :=
  fun x => if x = c then true else visited x

/-- Follows one end of `c`, unless it leads back to where the walk came from. -/
def follow (walk : (P → Bool) → P → P → Option (Answer × (P → Bool)))
    (visited : P → Bool) (c origin n : P) : Option (Bool × (P → Bool)) :=
  if origin = n then some (false, visited)
  else (walk visited n c).map fun r => (r.1.asBool, r.2)

/-- The depth-first walk from `c`, entered from `origin`; `none` when the fuel is used up. The
    marks of a failed end are kept for the other end. -/
def walk (T : Track P) : Nat → (P → Bool) → P → P → Option (Answer × (P → Bool))
  | 0, _, _, _ => none
  | fuel + 1, visited, c, origin =>
    if T.blocked c then some (.returned false, visited)
    else if visited c then some (.returned true, visited)
    else
      match T.ends c with
      | none => some (.flowedOff, mark visited c)
      | some (first, second) =>
        (follow (walk T fuel) (mark visited c) c origin first).bind fun r₁ =>
          if r₁.1 then some (.returned true, r₁.2)
          else
            (follow (walk T fuel) r₁.2 c origin second).bind fun r₂ =>
              if r₂.1 then some (.returned true, r₂.2) else some (.flowedOff, r₂.2)

theorem mark_of_marked {v : P → Bool} {x : P} (c : P) (hx : v x = true) : mark v c x = true := by
  unfold mark
  split
  · rfl
  · exact hx

/-- An end that leads back is not followed. -/
theorem follow_origin (w : (P → Bool) → P → P → Option (Answer × (P → Bool))) (v : P → Bool)
    (c n : P) : follow w v c n n = some (false, v) := by
  simp [follow]

/-- Following an end that does not lead back hands on its answer. -/
theorem follow_of_returned {w : (P → Bool) → P → P → Option (Answer × (P → Bool))}
    {v v' : P → Bool} {c origin n : P} {won : Bool} (hne : origin ≠ n)
    (h : w v n c = some (.returned won, v')) : follow w v c origin n = some (won, v') := by
  simp [follow, hne, h, Answer.asBool]

/-! ## The walk, call by call -/

/-- An answer, with `missing` read where there is none. -/
def Answer.readAs (missing : Bool) : Answer → Bool
  | .returned won => won
  | .flowedOff => missing

theorem Answer.readAs_false (a : Answer) : a.readAs false = a.asBool := by
  cases a <;> rfl

/-- One call of a walk. -/
structure Call (P : Type*) where
  place : P
  /-- The place was open and unmarked: it was marked, and its ends were tried. -/
  entered : Bool
  answer : Answer
  deriving DecidableEq, Repr

/-- A value with the marks at the end and the calls that were made for it. -/
structure Traced (P : Type*) (α : Type*) where
  value : α
  visited : P → Bool
  calls : List (Call P)

/-- `follow`, call by call. A missing answer at a place `n` is read as `missing n`. -/
def followTraced (walk : (P → Bool) → P → P → Option (Traced P Answer)) (missing : P → Bool)
    (visited : P → Bool) (c origin n : P) : Option (Traced P Bool) :=
  if origin = n then some ⟨false, visited, []⟩
  else (walk visited n c).map fun t => ⟨t.value.readAs (missing n), t.visited, t.calls⟩

/-- `walk`, call by call. -/
def trace (T : Track P) (missing : P → Bool) :
    Nat → (P → Bool) → P → P → Option (Traced P Answer)
  | 0, _, _, _ => none
  | fuel + 1, visited, c, origin =>
    if T.blocked c then some ⟨.returned false, visited, [⟨c, false, .returned false⟩]⟩
    else if visited c then some ⟨.returned true, visited, [⟨c, false, .returned true⟩]⟩
    else
      match T.ends c with
      | none => some ⟨.flowedOff, mark visited c, [⟨c, true, .flowedOff⟩]⟩
      | some (first, second) =>
        (followTraced (trace T missing fuel) missing (mark visited c) c origin first).bind
          fun r₁ =>
          if r₁.value then
            some ⟨.returned true, r₁.visited, ⟨c, true, .returned true⟩ :: r₁.calls⟩
          else
            (followTraced (trace T missing fuel) missing r₁.visited c origin second).map
              fun r₂ =>
              let answer := if r₂.value then .returned true else .flowedOff
              ⟨answer, r₂.visited, ⟨c, true, answer⟩ :: (r₁.calls ++ r₂.calls)⟩

/-- The answer and the marks of a trace. -/
def Traced.outcome {α : Type*} (t : Traced P α) : α × (P → Bool) := (t.value, t.visited)

/-- Following an end, without the calls. -/
theorem followTraced_outcome (w : (P → Bool) → P → P → Option (Traced P Answer))
    (missing v : P → Bool) (c origin n : P) :
    (followTraced w missing v c origin n).map Traced.outcome
      = if origin = n then some (false, v)
        else ((w v n c).map Traced.outcome).map fun r => (r.1.readAs (missing n), r.2) := by
  unfold followTraced
  split
  · rfl
  · rw [Option.map_map, Option.map_map]
    rfl

/-- The two ends of a place, tried one after the other, without the calls. -/
def tryEnds (walk : (P → Bool) → P → P → Option (Traced P Answer)) (missing visited : P → Bool)
    (c origin : P) : Option (P × P) → Option (Answer × (P → Bool))
  | none => some (.flowedOff, visited)
  | some (first, second) =>
    ((followTraced walk missing visited c origin first).map Traced.outcome).bind fun r₁ =>
      if r₁.1 then some (.returned true, r₁.2)
      else
        ((followTraced walk missing r₁.2 c origin second).map Traced.outcome).bind fun r₂ =>
          if r₂.1 then some (.returned true, r₂.2) else some (.flowedOff, r₂.2)

/-- The trace without its calls, one step unfolded. -/
theorem trace_outcome_succ (T : Track P) (missing : P → Bool) (fuel : Nat) (v : P → Bool)
    (c origin : P) :
    (T.trace missing (fuel + 1) v c origin).map Traced.outcome
      = if T.blocked c then some (.returned false, v)
        else if v c then some (.returned true, v)
        else tryEnds (T.trace missing fuel) missing (mark v c) c origin (T.ends c) := by
  rw [trace]
  split
  · rfl
  split
  · rfl
  cases T.ends c with
  | none => rfl
  | some e =>
    obtain ⟨first, second⟩ := e
    dsimp only [tryEnds]
    cases followTraced (T.trace missing fuel) missing (mark v c) c origin first with
    | none => rfl
    | some r₁ =>
      simp only [Option.bind_some, Option.map_some, Traced.outcome]
      split
      · rfl
      cases followTraced (T.trace missing fuel) missing r₁.visited c origin second with
      | none => rfl
      | some r₂ => cases hr₂ : r₂.value <;> simp [hr₂, Traced.outcome]

/-- The walk is the trace in which a missing answer is read as `false`. -/
theorem walk_eq_trace (T : Track P) (fuel : Nat) (v : P → Bool) (c origin : P) :
    T.walk fuel v c origin
      = (T.trace (fun _ => false) fuel v c origin).map Traced.outcome := by
  induction fuel generalizing v c origin with
  | zero => rfl
  | succ fuel ih =>
    have hfollow : ∀ (w : P → Bool) (n : P), follow (T.walk fuel) w c origin n
        = (followTraced (T.trace (fun _ => false) fuel) (fun _ => false) w c origin n).map
            Traced.outcome := by
      intro w n
      rw [followTraced_outcome, ← ih, follow]
      simp only [Answer.readAs_false]
    rw [trace_outcome_succ, walk]
    simp only [hfollow]
    cases T.ends c <;> rfl

/-! ## What one call does -/

/-- The ways in which a call ends. -/
inductive TraceStep (T : Track P) (missing : P → Bool) (fuel : Nat) (v : P → Bool)
    (c origin : P) : Traced P Answer → Prop
  | blocked (shut : T.blocked c = true) :
      TraceStep T missing fuel v c origin
        ⟨.returned false, v, [⟨c, false, .returned false⟩]⟩
  | marked (isOpen : T.blocked c = false) (seen : v c = true) :
      TraceStep T missing fuel v c origin ⟨.returned true, v, [⟨c, false, .returned true⟩]⟩
  | endless (isOpen : T.blocked c = false) (unseen : v c = false) (ends : T.ends c = none) :
      TraceStep T missing fuel v c origin ⟨.flowedOff, mark v c, [⟨c, true, .flowedOff⟩]⟩
  | first {first second : P} {r : Traced P Bool} (isOpen : T.blocked c = false)
      (unseen : v c = false) (ends : T.ends c = some (first, second))
      (tried : followTraced (T.trace missing fuel) missing (mark v c) c origin first = some r)
      (won : r.value = true) :
      TraceStep T missing fuel v c origin
        ⟨.returned true, r.visited, ⟨c, true, .returned true⟩ :: r.calls⟩
  | second {first second : P} {r₁ r₂ : Traced P Bool} (isOpen : T.blocked c = false)
      (unseen : v c = false) (ends : T.ends c = some (first, second))
      (tried : followTraced (T.trace missing fuel) missing (mark v c) c origin first = some r₁)
      (failed : r₁.value = false)
      (tried' : followTraced (T.trace missing fuel) missing r₁.visited c origin second
        = some r₂) :
      TraceStep T missing fuel v c origin
        ⟨if r₂.value then .returned true else .flowedOff, r₂.visited,
          ⟨c, true, if r₂.value then .returned true else .flowedOff⟩ :: (r₁.calls ++ r₂.calls)⟩

theorem traceStep_of_trace {T : Track P} {missing : P → Bool} {fuel : Nat} {v : P → Bool}
    {c origin : P} {t : Traced P Answer} (h : T.trace missing (fuel + 1) v c origin = some t) :
    TraceStep T missing fuel v c origin t := by
  rw [trace] at h
  split at h
  · rename_i hshut
    cases h
    exact .blocked hshut
  rename_i hopen
  have isOpen : T.blocked c = false := by simpa using hopen
  split at h
  · rename_i hseen
    cases h
    exact .marked isOpen hseen
  rename_i hunseen
  have unseen : v c = false := by simpa using hunseen
  split at h
  · rename_i hends
    cases h
    exact .endless isOpen unseen hends
  · rename_i first second hends
    obtain ⟨r₁, htried, h⟩ := Option.bind_eq_some_iff.mp h
    split at h
    · rename_i hwon
      cases h
      exact .first isOpen unseen hends htried hwon
    · rename_i hfailed
      obtain ⟨r₂, htried', h⟩ := Option.map_eq_some_iff.mp h
      cases h
      exact .second isOpen unseen hends htried (by simpa using hfailed) htried'

/-- An end that leads back makes no call; any other one makes the calls of a walk. -/
theorem followTraced_eq_some {w : (P → Bool) → P → P → Option (Traced P Answer)}
    {missing v : P → Bool} {c origin n : P} {r : Traced P Bool}
    (h : followTraced w missing v c origin n = some r) :
    (origin = n ∧ r = ⟨false, v, []⟩) ∨
      (origin ≠ n ∧ ∃ t, w v n c = some t ∧
        r = ⟨t.value.readAs (missing n), t.visited, t.calls⟩) := by
  unfold followTraced at h
  split at h
  · rename_i hback
    exact Or.inl ⟨hback, (Option.some.inj h).symm⟩
  · rename_i hon
    obtain ⟨t, ht, hr⟩ := Option.map_eq_some_iff.mp h
    exact Or.inr ⟨hon, t, ht, hr.symm⟩

/-! ## Termination -/

/-- The places of `F` that are not marked yet. -/
def unmarked (F : Finset P) (visited : P → Bool) : Finset P :=
  F.filter fun c => visited c = false

omit [DecidableEq P] in
theorem unmarked_subset {F : Finset P} {v v' : P → Bool} (h : ∀ x, v x = true → v' x = true) :
    unmarked F v' ⊆ unmarked F v := by
  intro x hx
  simp only [unmarked, Finset.mem_filter] at hx ⊢
  refine ⟨hx.1, ?_⟩
  cases hv : v x with
  | false => rfl
  | true => rw [h x hv] at hx; exact absurd hx.2 (by simp)

/-- Marking an unmarked place leaves fewer unmarked places. -/
theorem card_unmarked_mark_lt {F : Finset P} {v : P → Bool} {c : P} (hc : c ∈ F)
    (hv : v c = false) :
    (unmarked F (mark v c)).card < (unmarked F v).card := by
  apply Finset.card_lt_card
  refine ⟨unmarked_subset fun x hx => mark_of_marked c hx, fun hsub => ?_⟩
  -- `c` itself is gone
  have hmem : c ∈ unmarked F v := by simp [unmarked, hc, hv]
  have := hsub hmem
  simp [unmarked, mark] at this

/-- What holds of every walk from an end holds of following it. -/
theorem followTraced_marks {w : (P → Bool) → P → P → Option (Traced P Answer)}
    {missing v : P → Bool} {c origin n : P} {r : Traced P Bool}
    (hw : ∀ {t}, w v n c = some t → ∀ x, v x = true → t.visited x = true)
    (h : followTraced w missing v c origin n = some r) :
    ∀ x, v x = true → r.visited x = true := by
  intro x hx
  rcases followTraced_eq_some h with ⟨-, rfl⟩ | ⟨-, t, ht, rfl⟩
  · exact hx
  · exact hw ht x hx

/-- A walk only adds marks. -/
theorem trace_marks {T : Track P} {missing : P → Bool} {fuel : Nat} {v : P → Bool}
    {c origin : P} {t : Traced P Answer} (h : T.trace missing fuel v c origin = some t) :
    ∀ x, v x = true → t.visited x = true := by
  induction fuel generalizing v c origin t with
  | zero => cases h
  | succ fuel ih =>
    intro x hx
    have hmarked := mark_of_marked c hx
    cases traceStep_of_trace h with
    | blocked => exact hx
    | marked => exact hx
    | endless => exact hmarked
    | first _ _ _ tried => exact followTraced_marks ih tried x hmarked
    | second _ _ _ tried _ tried' =>
      exact followTraced_marks ih tried' x (followTraced_marks ih tried x hmarked)

theorem walk_marks (T : Track P) {fuel : Nat} {v v' : P → Bool} {c origin : P} {a : Answer}
    (h : T.walk fuel v c origin = some (a, v')) : ∀ x, v x = true → v' x = true := by
  rw [walk_eq_trace] at h
  obtain ⟨t, ht, houtcome⟩ := Option.map_eq_some_iff.mp h
  cases houtcome
  exact trace_marks ht

/-- More fuel than unmarked places is always enough. -/
theorem trace_total (T : Track P) (missing : P → Bool) {F : Finset P}
    (hF : ∀ c, T.blocked c = false → c ∈ F) {fuel : Nat} {v : P → Bool} (c origin : P)
    (hfuel : (unmarked F v).card < fuel) :
    ∃ t, T.trace missing fuel v c origin = some t := by
  induction fuel generalizing v c origin with
  | zero => omega
  | succ fuel ih =>
    have hfollow : ∀ {w : P → Bool} (n : P), (unmarked F w).card < fuel →
        ∃ r, followTraced (T.trace missing fuel) missing w c origin n = some r := by
      intro w n hw
      unfold followTraced
      split
      · exact ⟨_, rfl⟩
      · obtain ⟨t, ht⟩ := ih n c hw
        exact ⟨_, by rw [ht]; rfl⟩
    unfold trace
    split
    · exact ⟨_, rfl⟩
    rename_i hblocked
    split
    · exact ⟨_, rfl⟩
    -- the place itself is marked now, which pays for the step
    rename_i hvisited
    have hfirst : (unmarked F (mark v c)).card < fuel := by
      have := card_unmarked_mark_lt (v := v) (hF c (by simpa using hblocked))
        (by simpa using hvisited)
      omega
    split
    · exact ⟨_, rfl⟩
    rename_i first second hends
    obtain ⟨r₁, hr₁⟩ := hfollow first hfirst
    rw [hr₁, Option.bind_some]
    split
    · exact ⟨_, rfl⟩
    -- the marks left by the first end only lower the count
    have hsecond : (unmarked F r₁.visited).card < fuel := by
      have hmarks := followTraced_marks (fun ht => trace_marks ht) hr₁
      exact lt_of_le_of_lt (Finset.card_le_card (unmarked_subset hmarks)) hfirst
    obtain ⟨r₂, hr₂⟩ := hfollow second hsecond
    rw [hr₂, Option.map_some]
    exact ⟨_, rfl⟩

theorem walk_total (T : Track P) {F : Finset P} (hF : ∀ c, T.blocked c = false → c ∈ F)
    {fuel : Nat} {v : P → Bool} (c origin : P) (hfuel : (unmarked F v).card < fuel) :
    ∃ a v', T.walk fuel v c origin = some (a, v') := by
  obtain ⟨t, ht⟩ := trace_total T (fun _ => false) hF c origin hfuel
  exact ⟨t.value, t.visited, by rw [walk_eq_trace, ht]; rfl⟩

/-! ## Completeness -/

/-- Inside a set that is closed under following ends, a walk that entered along an end runs on
    until it meets a mark, and answers `true`. -/
theorem walk_originneighbour (T : Track P) {F : Finset P} {S : P → Prop}
    (hF : ∀ c, T.blocked c = false → c ∈ F) (hS : T.ClosedUnder S)
    (hapart : ∀ c a b, T.ends c = some (a, b) → a ≠ b) {fuel : Nat} {v : P → Bool}
    {c origin : P} (hc : S c) (hjoins : T.Joins c origin)
    (hfuel : (unmarked F v).card < fuel) :
    ∃ v', T.walk fuel v c origin = some (.returned true, v') := by
  induction fuel generalizing v c origin with
  | zero => omega
  | succ fuel ih =>
    have hopen := hS.unblocked c hc
    obtain ⟨a, b, hends⟩ := hS.hasEnds c hc
    have hab := hapart c a b hends
    unfold walk
    rw [if_neg (by simp [hopen])]
    split
    · exact ⟨v, rfl⟩
    · rename_i hvisited
      have hfirst : (unmarked F (mark v c)).card < fuel := by
        have := card_unmarked_mark_lt (v := v) (hF c hopen) (by simpa using hvisited)
        omega
      -- one end leads back to `origin`, so the walk goes on along the other one
      have hon : ∀ n, T.Joins c n →
          ∃ v', T.walk fuel (mark v c) n c = some (.returned true, v') := fun n hn =>
        ih (hS.stays c n hc hn) (hS.back c n hc hn) hfirst
      simp only [hends]
      obtain ⟨a', b', hends', hfrom⟩ := hjoins
      rw [hends] at hends'
      obtain ⟨rfl, rfl⟩ := Prod.mk.inj (Option.some.inj hends')
      rcases hfrom with rfl | rfl
      · obtain ⟨v', hv'⟩ := hon b ⟨a, b, hends, Or.inr rfl⟩
        rw [follow_origin, Option.bind_some, follow_of_returned hab hv']
        exact ⟨v', rfl⟩
      · obtain ⟨v', hv'⟩ := hon a ⟨a, b, hends, Or.inl rfl⟩
        rw [follow_of_returned (Ne.symm hab) hv']
        exact ⟨v', rfl⟩

/-- **No closed line is missed**: a walk that starts on a closed line answers `true`. -/
theorem walk_closes (T : Track P) {F : Finset P} {line : List P}
    (hF : ∀ c, T.blocked c = false → c ∈ F)
    (hapart : ∀ c a b, T.ends c = some (a, b) → a ≠ b ∧ a ≠ c)
    (hline : T.ClosedLine line) {fuel : Nat} {v : P → Bool} {c : P} (hc : c ∈ line)
    (hfuel : (unmarked F v).card < fuel) :
    ∃ v', T.walk fuel v c c = some (.returned true, v') := by
  have hS := hline.closedUnder
  -- the start has no origin, so its first end is followed and enters the line
  cases fuel with
  | zero => omega
  | succ fuel =>
    have hopen := hS.unblocked c hc
    obtain ⟨a, b, hends⟩ := hS.hasEnds c hc
    unfold walk
    rw [if_neg (by simp [hopen])]
    split
    · exact ⟨v, rfl⟩
    · rename_i hvisited
      have hfirst : (unmarked F (mark v c)).card < fuel := by
        have := card_unmarked_mark_lt (v := v) (hF c hopen) (by simpa using hvisited)
        omega
      have hjoins : T.Joins c a := ⟨a, b, hends, Or.inl rfl⟩
      obtain ⟨v', hv'⟩ := walk_originneighbour T hF hS (fun x a b hx => (hapart x a b hx).1)
        (hS.stays c a hc hjoins) (hS.back c a hc hjoins) hfirst
      simp only [hends]
      rw [follow_of_returned (Ne.symm (hapart c a b hends).2) hv']
      exact ⟨v', rfl⟩

end Track

end UpsServer.Framework
