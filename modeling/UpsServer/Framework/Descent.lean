import UpsServer.Framework.Machine

/-!
# Machines that come to rest

A measure that every guarded step decreases bounds the number of steps. From every state some
guarded run then leads to a state in which no guarded step can be taken, or to one in which such
a step faults.
-/

namespace UpsServer.Framework.Machine

variable {σ α ε : Type*} {M : Machine σ α ε} {Guard : σ → α → Prop}

/-- The states reached from `s` by a number of guarded steps. -/
inductive ReachesIn (M : Machine σ α ε) (Guard : σ → α → Prop) (s : σ) : Nat → σ → Prop where
  | refl : ReachesIn M Guard s 0 s
  | step {n : Nat} {t t' : σ} {a : α} (reached : ReachesIn M Guard s n t)
      (enabled : M.Enabled t a) (guarded : Guard t a) (exec_eq : M.exec t a = .ok t') :
      ReachesIn M Guard s (n + 1) t'

/-- No guarded step can be taken. -/
def AtRest (M : Machine σ α ε) (Guard : σ → α → Prop) (s : σ) : Prop :=
  ∀ a, Guard s a → ¬ M.Enabled s a

/-- Some guarded step faults. -/
def Faults (M : Machine σ α ε) (Guard : σ → α → Prop) (s : σ) : Prop :=
  ∃ a e, Guard s a ∧ M.Enabled s a ∧ M.exec s a = .error e

/-- Guarded steps decrease the measure. -/
def Decreases (M : Machine σ α ε) (Guard : σ → α → Prop) (measure : σ → Nat) : Prop :=
  ∀ s t a, M.Enabled s a → Guard s a → M.exec s a = .ok t → measure t < measure s

variable {measure : σ → Nat}

/-- Every step is paid for. -/
theorem ReachesIn.add_measure_le {s t : σ} {n : Nat} (h : M.ReachesIn Guard s n t)
    (decreases : M.Decreases Guard measure) : n + measure t ≤ measure s := by
  induction h with
  | refl => omega
  | step _ henabled hguard hexec ih =>
    have hless := decreases _ _ _ henabled hguard hexec
    omega

/-- A run goes on from where a first step led. -/
theorem ReachesIn.cons {s s' t : σ} {a : α} {n : Nat} (enabled : M.Enabled s a)
    (guarded : Guard s a) (exec_eq : M.exec s a = .ok s') (h : M.ReachesIn Guard s' n t) :
    M.ReachesIn Guard s (n + 1) t := by
  induction h with
  | refl => exact .step .refl enabled guarded exec_eq
  | step _ henabled hguard hexec ih => exact .step ih henabled hguard hexec

/-- Guarded steps can only go on until the machine rests or faults. -/
theorem exists_atRest_or_faults (decreases : M.Decreases Guard measure) (s : σ) :
    ∃ n t, M.ReachesIn Guard s n t ∧ (M.AtRest Guard t ∨ M.Faults Guard t) := by
  induction hmeasure : measure s using Nat.strongRecOn generalizing s with
  | ind bound ih =>
    by_cases hrest : M.AtRest Guard s
    · exact ⟨0, s, .refl, Or.inl hrest⟩
    simp only [AtRest, not_forall, not_not] at hrest
    obtain ⟨a, hguard, henabled⟩ := hrest
    cases hexec : M.exec s a with
    | error e => exact ⟨0, s, .refl, Or.inr ⟨a, e, hguard, henabled, hexec⟩⟩
    | ok s' =>
      have hless := decreases s s' a henabled hguard hexec
      obtain ⟨n, t, hreach, hend⟩ := ih _ (hmeasure ▸ hless) s' rfl
      exact ⟨n + 1, t, hreach.cons henabled hguard hexec, hend⟩

end UpsServer.Framework.Machine
