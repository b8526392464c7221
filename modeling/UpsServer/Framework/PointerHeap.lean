import Mathlib.Logic.Basic

/-!
# Heaps of objects behind pointers

Objects that are allocated with `new`, are changed through pointers and are never freed.
A pointer is the number of the allocation. Cells past `next` are not allocated yet.
-/

namespace UpsServer.Framework

/-- A store of objects of type `α`; pointers below `next` are allocated. -/
structure Heap (α : Type*) where
  cells : Nat → α
  next : Nat

namespace Heap

variable {α : Type*}

/-- No object is allocated; `blank` fills the cells nobody may look at yet. -/
def empty (blank : α) : Heap α := ⟨fun _ => blank, 0⟩

/-- The object behind a pointer. -/
def get (h : Heap α) (r : Nat) : α := h.cells r

/-- Changes the object behind a pointer. -/
def modify (h : Heap α) (r : Nat) (f : α → α) : Heap α :=
  { h with cells := fun x => if x = r then f (h.cells r) else h.cells x }

/-- Allocates a new object; its pointer is the old `next`. -/
def alloc (h : Heap α) (a : α) : Heap α :=
  ⟨fun x => if x = h.next then a else h.cells x, h.next + 1⟩

@[simp] theorem get_empty (blank : α) (r : Nat) : (empty blank).get r = blank := rfl

@[simp] theorem next_empty (blank : α) : (empty blank).next = 0 := rfl

@[simp] theorem next_modify (h : Heap α) (r : Nat) (f : α → α) :
    (h.modify r f).next = h.next := rfl

@[simp] theorem next_alloc (h : Heap α) (a : α) : (h.alloc a).next = h.next + 1 := rfl

theorem get_modify (h : Heap α) (r r' : Nat) (f : α → α) :
    (h.modify r f).get r' = if r' = r then f (h.get r) else h.get r' := rfl

@[simp] theorem get_modify_self (h : Heap α) (r : Nat) (f : α → α) :
    (h.modify r f).get r = f (h.get r) := by
  simp [get_modify]

theorem get_modify_of_ne (h : Heap α) {r r' : Nat} (f : α → α) (hne : r' ≠ r) :
    (h.modify r f).get r' = h.get r' := by
  simp [get_modify, hne]

/-- A field that the update keeps is unchanged behind every pointer. -/
theorem get_modify_field {β : Type*} (field : α → β) (h : Heap α) (r r' : Nat) (f : α → α)
    (keep : ∀ a, field (f a) = field a) :
    field ((h.modify r f).get r') = field (h.get r') := by
  rw [get_modify]
  split
  · rename_i heq
    rw [heq, keep]
  · rfl

theorem get_alloc (h : Heap α) (a : α) (r : Nat) :
    (h.alloc a).get r = if r = h.next then a else h.get r := rfl

end Heap

end UpsServer.Framework
