import UpsServer.Framework.Machine
import UpsServer.Framework.Fallible

/-!
# Concurrent queues

`ConcurrentQueue` locks a mutex around every operation of a `std::queue`, so each operation is
atomic. The loop of a consumer, `while (!queue->empty()) { item = queue->pop(); ... }`, uses two of
them, and any number of producers may push between the check and the pop. One consumer is enough
for the pop to find what the check saw, since nobody else takes items away.
-/

namespace UpsServer

open Framework

/-! ## The operations -/

/-- `front()` and `pop()` of an empty `std::queue` are undefined. -/
inductive QueueFault where
  | emptyPop
  deriving DecidableEq, Repr

namespace ConcurrentQueue

variable {Producer α : Type*}

/-- `ConcurrentQueue::empty`. -/
def empty (queue : List α) : Bool := queue.isEmpty

/-- `ConcurrentQueue::push`. -/
def push (queue : List α) (t : α) : List α := queue ++ [t]

/-- `ConcurrentQueue::pop`. -/
def pop : List α → Except QueueFault (α × List α)
  | [] => .error .emptyPop
  | t :: rest => .ok (t, rest)

/-! ## Many producers and one consumer -/

/-- What happened at a queue so far, and what its consumer knows. -/
structure History (α : Type*) where
  /-- The consumer saw the queue non-empty and did not pop since. -/
  seen : Bool
  pushed : List α
  popped : List α
  deriving DecidableEq, Repr

/-- A queue between its threads. -/
structure Shared (α : Type*) extends History α where
  queue : List α
  deriving DecidableEq, Repr

/-- Nothing has happened. -/
def History.nothing : History α := ⟨false, [], []⟩

/-- The consumer has called `empty()`. -/
def History.look (history : History α) (queue : List α) : History α :=
  { history with seen := !empty queue }

/-- One atomic step of one thread. -/
inductive Step (Producer α : Type*) where
  /-- A producer pushes an item. -/
  | push (producer : Producer) (item : α)
  /-- The consumer calls `empty()`. -/
  | check
  /-- The consumer calls `pop()`. -/
  | pop
  deriving DecidableEq, Repr

/-- The consumer pops after it saw the queue non-empty, and checks otherwise. -/
def Enabled (q : Shared α) : Step Producer α → Prop
  | .push _ _ => True
  | .check => q.seen = false
  | .pop => q.seen = true

/-- What a step does to the queue. -/
def exec (q : Shared α) : Step Producer α → Except QueueFault (Shared α)
  | .push _ item => .ok { q with queue := push q.queue item, pushed := q.pushed ++ [item] }
  | .check => .ok ⟨q.look q.queue, q.queue⟩
  | .pop => do
    let (item, rest) ← pop q.queue
    return { q with queue := rest, popped := q.popped ++ [item], seen := false }

instance (q : Shared α) : (step : Step Producer α) → Decidable (Enabled q step)
  | .push _ _ => isTrue trivial
  | .check => inferInstanceAs (Decidable (_ = false))
  | .pop => inferInstanceAs (Decidable (_ = true))

/-- The threads around one queue. -/
def machine (Producer α : Type*) : Machine (Shared α) (Step Producer α) QueueFault :=
  ⟨⟨.nothing, []⟩, Enabled, exec⟩

instance (q : Shared α) (step : Step Producer α) :
    Decidable ((machine Producer α).Enabled q step) :=
  inferInstanceAs (Decidable (Enabled q step))

/-- What the consumer took and what is still queued are the items pushed, in the order they were
    pushed, and no step pops an empty queue. -/
def HandsOver (Producer : Type*) (q : Shared α) : Prop :=
  q.popped ++ q.queue = q.pushed ∧
    ∀ step, (machine Producer α).Enabled q step →
      (machine Producer α).exec q step ≠ .error .emptyPop

/-- What every step keeps: what the consumer saw is still there. -/
structure Intact (q : Shared α) : Prop where
  nonempty : q.seen = true → q.queue ≠ []
  contents : q.popped ++ q.queue = q.pushed

namespace Intact

variable {q q' : Shared α}

theorem initial : Intact (⟨.nothing, []⟩ : Shared α) where
  nonempty h := by cases h
  contents := rfl

theorem step {a : Step Producer α} (h : Intact q) (hexec : exec q a = .ok q') : Intact q' := by
  cases a with
  | push producer item =>
    obtain rfl := Except.ok.inj hexec
    refine ⟨fun _ => ?_, ?_⟩
    · -- a push takes nothing away
      exact List.append_ne_nil_of_right_ne_nil _ (List.cons_ne_nil item [])
    · show q.popped ++ (q.queue ++ [item]) = q.pushed ++ [item]
      rw [← List.append_assoc, h.contents]
  | check =>
    obtain rfl := Except.ok.inj hexec
    refine ⟨fun hseen => ?_, h.contents⟩
    simpa [History.look, empty] using hseen
  | pop =>
    obtain ⟨⟨item, rest⟩, hpop, hexec⟩ := bind_eq_ok_iff.mp hexec
    obtain rfl := Except.ok.inj hexec
    have hqueue : q.queue = item :: rest := by
      cases hq : q.queue with
      | nil => simp [pop, hq] at hpop
      | cons x xs => simpa [pop, hq] using hpop
    refine ⟨fun hseen => (by cases hseen), ?_⟩
    show q.popped ++ [item] ++ rest = q.pushed
    rw [List.append_assoc, List.singleton_append, ← hqueue]
    exact h.contents

/-- The pop finds what the check saw. -/
theorem handsOver (h : Intact q) : HandsOver Producer q := by
  refine ⟨h.contents, fun step henabled hfault => ?_⟩
  cases step with
  | push | check => cases hfault
  | pop =>
    rcases bind_eq_error_iff.mp hfault with hpop | ⟨_, _, hreturn⟩
    · cases hqueue : q.queue with
      | nil => exact h.nonempty henabled hqueue
      | cons x xs =>
        rw [hqueue] at hpop
        cases hpop
    · cases hreturn

end Intact

theorem intact_of_reachable {q : Shared α} (h : (machine Producer α).Reachable q) : Intact q :=
  Machine.ReachableFrom.invariant h Intact.initial
    fun _ _ _ _ hintact _ _ hexec => hintact.step hexec

/-! ## Runs in larger steps -/

/-- Several items are pushed one after the other. -/
theorem reachable_pushes (producer : Producer) (q : Shared α) (items : List α) :
    (machine Producer α).ReachableFrom Machine.Unguarded q
      { q with queue := q.queue ++ items, pushed := q.pushed ++ items } := by
  induction items generalizing q with
  | nil =>
    rw [List.append_nil, List.append_nil]
    exact .refl
  | cons item items ih =>
    have hfirst : (machine Producer α).ReachableFrom Machine.Unguarded q
        { q with queue := push q.queue item, pushed := q.pushed ++ [item] } :=
      .step .refl (a := .push producer item) trivial trivial rfl
    have hrest := ih { q with queue := push q.queue item, pushed := q.pushed ++ [item] }
    simp only [push, List.append_assoc, List.singleton_append] at hfirst hrest
    exact hfirst.trans hrest

namespace History

/-- The history after a step of the program that pops an item or not and pushes what is new. -/
def advance (history : History α) (pops : Bool) (before after : List α) : History α :=
  let rest := if pops then before.tail else before
  { seen := history.seen && !pops
    pushed := history.pushed ++ after.drop rest.length
    popped := history.popped ++ (if pops then before.head?.toList else []) }

/-- Such a step is a pop, if it pops, and a number of pushes. -/
theorem reachable_advance (producer : Producer) {history : History α} {pops : Bool}
    {before after new : List α} (sees : pops = true → history.seen = true ∧ before ≠ [])
    (appends : after = (if pops then before.tail else before) ++ new) :
    (machine Producer α).ReachableFrom Machine.Unguarded ⟨history, before⟩
      ⟨history.advance pops before after, after⟩ := by
  have hnew : after.drop (if pops then before.tail else before).length = new := by
    rw [appends, List.drop_left]
  cases pops with
  | false =>
    have hpushes := reachable_pushes producer ⟨history, before⟩ new
    rw [advance, hnew, appends]
    simpa using hpushes
  | true =>
    obtain ⟨hseen, hne⟩ := sees rfl
    obtain ⟨item, rest, rfl⟩ := List.exists_cons_of_ne_nil hne
    have hpop : (machine Producer α).ReachableFrom Machine.Unguarded ⟨history, item :: rest⟩
        ⟨⟨false, history.pushed, history.popped ++ [item]⟩, rest⟩ :=
      .step .refl (a := .pop) hseen trivial rfl
    have hpushes := reachable_pushes producer
      ⟨⟨false, history.pushed, history.popped ++ [item]⟩, rest⟩ new
    rw [advance, hnew, appends]
    simpa using hpop.trans hpushes

end History

end ConcurrentQueue

end UpsServer
