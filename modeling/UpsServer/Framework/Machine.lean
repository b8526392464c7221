import Mathlib.Logic.Basic

/-!
# Machines that may fault

A machine takes one labelled action after another. `Enabled` says which actions the
environment may take in a state, `exec` is what the program then does: a next state, or a
fault, after which the run does not continue.

Properties of whole runs are stated over `ReachableFrom`, which carries a `Guard` on every
step. `Unguarded` gives the plain reachable states. A theorem about a guarded machine reads
"in every run whose steps all meet the guard".
-/

namespace UpsServer.Framework

/-- An initial state, the actions the environment may take, and what the program does. -/
structure Machine (σ α ε : Type*) where
  init : σ
  Enabled : σ → α → Prop
  exec : σ → α → Except ε σ

namespace Machine

variable {σ α ε : Type*} (M : Machine σ α ε)

/-! ## Guarded reachability -/

/-- The states reached from `s₀` by steps that do not fault and all meet `Guard`. -/
inductive ReachableFrom (Guard : σ → α → Prop) (s₀ : σ) : σ → Prop where
  | refl : ReachableFrom Guard s₀ s₀
  | step {s s' : σ} {a : α} (reached : ReachableFrom Guard s₀ s) (enabled : M.Enabled s a)
      (guarded : Guard s a) (exec_eq : M.exec s a = .ok s') : ReachableFrom Guard s₀ s'

/-- The states reached from the initial state by guarded steps. -/
def ReachableUnder (Guard : σ → α → Prop) : σ → Prop :=
  M.ReachableFrom Guard M.init

/-- The guard that every step meets. -/
def Unguarded : σ → α → Prop := fun _ _ => True

/-- The states reached by any run. -/
def Reachable : σ → Prop :=
  M.ReachableUnder Unguarded

variable {M}

/-- The induction rule: what holds at the start and is kept by every guarded step from a
    reached state holds in every state reached. -/
theorem ReachableFrom.invariant {Guard : σ → α → Prop} {s₀ s : σ} {I : σ → Prop}
    (reached : M.ReachableFrom Guard s₀ s) (start : I s₀)
    (keep : ∀ t t' a, M.ReachableFrom Guard s₀ t → I t → M.Enabled t a → Guard t a →
      M.exec t a = .ok t' → I t') : I s := by
  induction reached with
  | refl => exact start
  | step hreach henabled hguard hexec ih => exact keep _ _ _ hreach ih henabled hguard hexec

/-- A run under a guard is a run under any weaker guard. -/
theorem ReachableFrom.mono {Guard Guard' : σ → α → Prop} {s₀ s : σ}
    (weaker : ∀ t a, Guard t a → Guard' t a) (reached : M.ReachableFrom Guard s₀ s) :
    M.ReachableFrom Guard' s₀ s := by
  induction reached with
  | refl => exact .refl
  | step _ henabled hguard hexec ih => exact .step ih henabled (weaker _ _ hguard) hexec

/-- Every guarded run is a run. -/
theorem ReachableUnder.reachable {Guard : σ → α → Prop} {s : σ}
    (reached : M.ReachableUnder Guard s) : M.Reachable s :=
  ReachableFrom.mono (fun _ _ _ => trivial) reached

/-- Runs compose. -/
theorem ReachableFrom.trans {Guard : σ → α → Prop} {s₀ s₁ s₂ : σ}
    (first : M.ReachableFrom Guard s₀ s₁) (second : M.ReachableFrom Guard s₁ s₂) :
    M.ReachableFrom Guard s₀ s₂ := by
  induction second with
  | refl => exact first
  | step _ henabled hguard hexec ih => exact .step ih henabled hguard hexec

/-- The simulation rule: when every step of a machine is, seen from outside, a sequence of steps
    of another machine, every run of the first one is a run of the second. -/
theorem ReachableFrom.simulate {σ' α' ε' : Type*} {N : Machine σ' α' ε'}
    {Guard : σ → α → Prop} {Guard' : σ' → α' → Prop} {s₀ s : σ}
    (reached : M.ReachableFrom Guard s₀ s) (view : σ → σ')
    (steps : ∀ t t' a, N.ReachableFrom Guard' (view s₀) (view t) → M.Enabled t a → Guard t a →
      M.exec t a = .ok t' → N.ReachableFrom Guard' (view t) (view t')) :
    N.ReachableFrom Guard' (view s₀) (view s) := by
  apply reached.invariant .refl
  intro t t' a _ hview henabled hguard hexec
  exact hview.trans (steps t t' a hview henabled hguard hexec)

/-! ## Records -/

/-- The machine that also keeps a record of its steps. The record never influences a step. -/
def recorded {η : Type*} (M : Machine σ α ε) (start : η) (record : σ → α → η → η) :
    Machine (σ × η) α ε where
  init := (M.init, start)
  Enabled x a := M.Enabled x.1 a
  exec x a := (M.exec x.1 a).map fun s => (s, record x.1 a x.2)

section Records

variable {η : Type*} {start : η} {record : σ → α → η → η} {Guard : σ → α → Prop}

theorem exec_recorded_eq_ok {x y : σ × η} {a : α}
    (h : (M.recorded start record).exec x a = .ok y) :
    M.exec x.1 a = .ok y.1 ∧ y.2 = record x.1 a x.2 := by
  cases hexec : M.exec x.1 a with
  | error e =>
    simp only [recorded, hexec] at h
    cases h
  | ok s =>
    simp only [recorded, hexec] at h
    cases h
    exact ⟨rfl, rfl⟩

/-- A recorded run is a run. -/
theorem reachable_of_recorded {x : σ × η}
    (h : (M.recorded start record).ReachableUnder (fun y => Guard y.1) x) :
    M.ReachableUnder Guard x.1 := by
  apply ReachableFrom.simulate h Prod.fst
  intro y y' a _ henabled hguard hexec
  exact .step .refl henabled hguard (exec_recorded_eq_ok hexec).1

/-- Every run has a record. -/
theorem exists_recorded {s : σ} (h : M.ReachableUnder Guard s) :
    ∃ r, (M.recorded start record).ReachableUnder (fun y => Guard y.1) (s, r) := by
  induction h with
  | refl => exact ⟨start, .refl⟩
  | @step s s' a _ henabled hguard hexec ih =>
    obtain ⟨r, hr⟩ := ih
    refine ⟨record s a r, .step hr henabled hguard ?_⟩
    show (M.exec s a).map _ = _
    rw [hexec]
    rfl

end Records

/-! ## Executing a list of actions -/

/-- Takes the actions in order; `none` when one is not enabled, not guarded or faults. -/
def run (M : Machine σ α ε) (Guard : σ → α → Prop) [∀ s a, Decidable (M.Enabled s a)]
    [∀ s a, Decidable (Guard s a)] : σ → List α → Option σ
  | s, [] => some s
  | s, a :: as =>
    if M.Enabled s a ∧ Guard s a then
      match M.exec s a with
      | .ok s' => run M Guard s' as
      | .error _ => none
    else none

/-- What `run` returns is reached by a guarded run. -/
theorem reachableFrom_of_run {Guard : σ → α → Prop} [∀ s a, Decidable (M.Enabled s a)]
    [∀ s a, Decidable (Guard s a)] {s₀ s : σ} {as : List α}
    (h : M.run Guard s₀ as = some s) : M.ReachableFrom Guard s₀ s := by
  induction as generalizing s₀ with
  | nil =>
    cases h
    exact .refl
  | cons a as ih =>
    simp only [run] at h
    -- the first action was taken, and the rest is a run from where it led
    split at h
    · rename_i hstep
      split at h
      · rename_i s' hexec
        have hfirst : M.ReachableFrom Guard s₀ s' := .step .refl hstep.1 hstep.2 hexec
        exact hfirst.trans (ih h)
      · cases h
    · cases h

/-- The state after a list of actions from the start; the initial state when one of them is not
    enabled, not guarded or faults. -/
def after (M : Machine σ α ε) (Guard : σ → α → Prop) [∀ s a, Decidable (M.Enabled s a)]
    [∀ s a, Decidable (Guard s a)] (as : List α) : σ :=
  (M.run Guard M.init as).getD M.init

theorem reachableUnder_after {Guard : σ → α → Prop} [∀ s a, Decidable (M.Enabled s a)]
    [∀ s a, Decidable (Guard s a)] (as : List α) :
    M.ReachableUnder Guard (M.after Guard as) := by
  unfold after
  cases hrun : M.run Guard M.init as with
  | none => exact .refl
  | some s => exact reachableFrom_of_run hrun

/-- The state after a list of actions from `s`; `s` itself when one of them cannot be taken. -/
def afterFrom (M : Machine σ α ε) (Guard : σ → α → Prop) [∀ s a, Decidable (M.Enabled s a)]
    [∀ s a, Decidable (Guard s a)] (s : σ) (as : List α) : σ :=
  (M.run Guard s as).getD s

theorem reachableFrom_afterFrom {Guard : σ → α → Prop} [∀ s a, Decidable (M.Enabled s a)]
    [∀ s a, Decidable (Guard s a)] (s : σ) (as : List α) :
    M.ReachableFrom Guard s (M.afterFrom Guard s as) := by
  unfold afterFrom
  cases hrun : M.run Guard s as with
  | none => exact .refl
  | some t => exact reachableFrom_of_run hrun

instance (s : σ) (a : α) : Decidable (Unguarded s a) := isTrue trivial

end Machine

end UpsServer.Framework
