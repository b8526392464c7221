import Mathlib.Logic.Basic

/-!
# Computations that may fault

How a successful or a faulting `Except` computation comes apart at its binds. With these the
proofs about fallible code never unfold the monad.
-/

namespace UpsServer.Framework

universe u v

variable {ε : Type u} {α β : Type v}

/-- A sequence succeeds exactly when its first part does and its rest does on that result. -/
theorem bind_eq_ok_iff {x : Except ε α} {f : α → Except ε β} {b : β} :
    (x >>= f) = .ok b ↔ ∃ a, x = .ok a ∧ f a = .ok b := by
  cases x <;> simp [bind, Except.bind]

/-- A sequence faults exactly when its first part does or its rest does. -/
theorem bind_eq_error_iff {x : Except ε α} {f : α → Except ε β} {e : ε} :
    (x >>= f) = .error e ↔ x = .error e ∨ ∃ a, x = .ok a ∧ f a = .error e := by
  cases x <;> simp [bind, Except.bind]

@[simp] theorem ok_bind (a : α) (f : α → Except ε β) : (Except.ok a >>= f) = f a := rfl

@[simp] theorem error_bind (e : ε) (f : α → Except ε β) :
    ((Except.error e : Except ε α) >>= f) = .error e := rfl

@[simp] theorem bind_ok (x : Except ε α) : (x >>= Except.ok) = x := by
  cases x <;> rfl

@[simp] theorem pure_eq_ok (a : α) : (pure a : Except ε α) = .ok a := rfl

@[simp] theorem throw_eq_error (e : ε) : (throw e : Except ε α) = .error e := rfl

/-- Forgetting which fault it was keeps the results. -/
@[simp] theorem toOption_eq_some_iff {x : Except ε α} {a : α} :
    x.toOption = some a ↔ x = .ok a := by
  cases x <;> simp [Except.toOption]

/-- The result, or the given value after a fault. -/
def resultOr (x : Except ε α) (fallback : α) : α :=
  match x with
  | .ok a => a
  | .error _ => fallback

theorem eq_ok_resultOr {x : Except ε α} (h : x.isOk = true) (fallback : α) :
    x = .ok (resultOr x fallback) := by
  cases x with
  | ok a => rfl
  | error e => cases h

theorem mapError_ok {ε' : Type*} (f : ε → ε') (a : α) :
    (Except.ok a : Except ε α).mapError f = .ok a := rfl

theorem mapError_error {ε' : Type*} (f : ε → ε') (e : ε) :
    (Except.error e : Except ε α).mapError f = .error (f e) := rfl

/-- Changing the faults changes no success. -/
@[simp] theorem mapError_eq_ok_iff {ε' : Type*} {x : Except ε α} {f : ε → ε'} {a : α} :
    x.mapError f = .ok a ↔ x = .ok a := by
  cases x <;> simp [mapError_ok, mapError_error]

/-- A changed fault comes from a fault. -/
theorem mapError_eq_error_iff {ε' : Type*} {x : Except ε α} {f : ε → ε'} {e' : ε'} :
    x.mapError f = .error e' ↔ ∃ e, x = .error e ∧ f e = e' := by
  cases x <;> simp [mapError_ok, mapError_error]

/-! ## Postconditions -/

/-- Every result meets `post` and every fault meets `onFault`. -/
def Ensures (x : Except ε α) (post : α → Prop) (onFault : ε → Prop) : Prop :=
  match x with
  | .ok a => post a
  | .error e => onFault e

theorem ensures_iff {x : Except ε α} {post : α → Prop} {onFault : ε → Prop} :
    Ensures x post onFault ↔
      (∀ a, x = .ok a → post a) ∧ ∀ e, x = .error e → onFault e := by
  cases x <;> simp [Ensures]

/-- The rule of consequence. -/
theorem Ensures.mono {x : Except ε α} {post post' : α → Prop} {onFault onFault' : ε → Prop}
    (h : Ensures x post onFault) (weaker : ∀ a, post a → post' a)
    (weaker' : ∀ e, onFault e → onFault' e) : Ensures x post' onFault' := by
  cases x with
  | ok a => exact weaker a h
  | error e => exact weaker' e h

/-- The rule of sequence: what the first part ensures is what the second may rely on. -/
theorem Ensures.bind {x : Except ε α} {f : α → Except ε β} {mid : α → Prop} {post : β → Prop}
    {onFault : ε → Prop} (first : Ensures x mid onFault)
    (second : ∀ a, x = .ok a → mid a → Ensures (f a) post onFault) :
    Ensures (x >>= f) post onFault := by
  cases x with
  | ok a => exact second a rfl first
  | error e => exact first

/-- Changing the faults changes the condition on them. -/
theorem Ensures.mapError {ε' : Type*} {x : Except ε α} {f : ε → ε'} {post : α → Prop}
    {onFault : ε' → Prop} (h : Ensures x post fun e => onFault (f e)) :
    Ensures (x.mapError f) post onFault := by
  cases x with
  | ok a => exact h
  | error e => exact h

end UpsServer.Framework
