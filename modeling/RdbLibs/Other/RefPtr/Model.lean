import Mathlib.Algebra.BigOperators.Group.Finset.Basic
import Mathlib.Algebra.Order.BigOperators.Group.Finset
import Mathlib.Data.List.Count

/-!
# `refCountBase` and `refPtr`

The classes of `Src/Other/win32_unix.h`. An object has a count, and a `refPtr` for each of its
members that is one; the other variables of the type are `roots`. `release` is what a destructor
does, and what `operator=` does to the object on its left: it decrements the count, and deletes an
object whose count is zero. The destructor of an object destroys its members, the last one first, so
that deleting goes on with their objects: those that are still to be released are on a stack.

A deleted object has no count and no members. A function has no result where it reads or writes
those of a deleted object, and where a count does not fit into an `int`.
-/

set_option autoImplicit false
set_option relaxedAutoImplicit false

namespace RdbLibs.Other.RefPtr

/-- A pointer to an object, or `NULL`. -/
abbrev Pointer := Option ℕ

/-- `refCountBase`, with the `m_object` of each `refPtr` that is a member of the object. -/
structure refCountBase where
  m_refCount : ℤ
  members : List Pointer
deriving DecidableEq

/-- Where a `refPtr` is. -/
inductive Place
  | root (index : ℕ)
  | member (object index : ℕ)
deriving DecidableEq

/-- The objects that were created, those that are deleted without a value; the variables that were
constructed, those that are destroyed without a value; and what was deleted, in order. -/
structure Heap where
  objects : List (Option refCountBase)
  roots : List (Option Pointer)
  deletions : List ℕ
deriving DecidableEq

namespace Heap

/-- Nothing was created yet. -/
def empty : Heap := ⟨[], [], []⟩

/-- An object that is not deleted. -/
def object? (h : Heap) (o : ℕ) : Option refCountBase := h.objects[o]?.join

/-- The members of an object that is not deleted. -/
def members (h : Heap) (o : ℕ) : List Pointer := ((h.object? o).map refCountBase.members).getD []

/-- Changes an object. -/
def put (h : Heap) (o : ℕ) (object : Option refCountBase) : Heap :=
  { h with objects := h.objects.set o object }

/-- `m_object` of a `refPtr`. -/
def m_object (h : Heap) : Place → Option Pointer
  | .root index => h.roots[index]?.join
  | .member o index => (h.members o)[index]?

/-- Sets `m_object` of a `refPtr`. -/
def write (h : Heap) (place : Place) (pointer : Pointer) : Heap :=
  match place with
  | .root index => { h with roots := h.roots.set index (some pointer) }
  | .member o index =>
    match h.object? o with
    | none => h
    | some object => h.put o (some { object with members := object.members.set index pointer })

/-- Sets `m_object` of a `refPtr` that is there. -/
def store (h : Heap) (place : Place) (pointer : Pointer) : Option Heap :=
  (h.m_object place).map fun _ ↦ h.write place pointer

/-- A new object, to which there is no pointer yet. -/
def create (h : Heap) (members : ℕ) : Heap :=
  { h with objects := h.objects ++ [some ⟨0, List.replicate members none⟩] }

/-- A new variable. -/
def addRoot (h : Heap) (pointer : Pointer) : Heap := { h with roots := h.roots ++ [some pointer] }

/-- The end of a variable. -/
def endRoot (h : Heap) (index : ℕ) : Heap := { h with roots := h.roots.set index none }

/-- The end of an object. -/
def delete (h : Heap) (o : ℕ) : Heap := { h.put o none with deletions := h.deletions ++ [o] }

/-- `RefIncrement` for the object of a pointer, if there is one. -/
def RefIncrement (h : Heap) : Pointer → Option Heap
  | none => some h
  | some o => do
    let object ← h.object? o
    if object.m_refCount < 2 ^ 31 - 1 then
      some (h.put o (some { object with m_refCount := object.m_refCount + 1 }))
    else none

/-- The number of all members. -/
def weight (h : Heap) : ℕ := ∑ o ∈ Finset.range h.objects.length, (h.members o).length

section Put

variable (h : Heap) {o : ℕ} (object : Option refCountBase)

@[simp] theorem length_objects_put : (h.put o object).objects.length = h.objects.length :=
  List.length_set

@[simp] theorem roots_put : (h.put o object).roots = h.roots := rfl

@[simp] theorem deletions_put : (h.put o object).deletions = h.deletions := rfl

theorem object?_put_self (ho : o < h.objects.length) : (h.put o object).object? o = object := by
  simp [object?, put, ho]

theorem object?_put_of_ne {other : ℕ} (hne : other ≠ o) :
    (h.put o object).object? other = h.object? other := by
  simp [object?, put, hne.symm]

theorem members_put_self (ho : o < h.objects.length) :
    (h.put o object).members o = (object.map refCountBase.members).getD [] := by
  rw [members, h.object?_put_self object ho]

theorem members_put_of_ne {other : ℕ} (hne : other ≠ o) :
    (h.put o object).members other = h.members other := by
  rw [members, h.object?_put_of_ne object hne, members]

variable {h}

theorem lt_length_of_object? {object : refCountBase} (hobject : h.object? o = some object) :
    o < h.objects.length := by
  by_contra! hlength
  simp [object?, hlength] at hobject

theorem members_of_object? {object : refCountBase} (hobject : h.object? o = some object) :
    h.members o = object.members := by
  rw [members, hobject, Option.map_some, Option.getD_some]

theorem members_of_none (hobject : h.object? o = none) : h.members o = [] := by
  rw [members, hobject, Option.map_none, Option.getD_none]

/-- What is deleted and what is not are different objects. -/
theorem ne_of_object? {other : ℕ} {object : refCountBase} (hdead : h.object? o = none)
    (hobject : h.object? other = some object) : o ≠ other := by
  rintro rfl
  rw [hdead] at hobject
  cases hobject

/-- A change of an object deletes nothing. -/
theorem object?_put_eq_none {object : refCountBase} (changed : refCountBase)
    (hobject : h.object? o = some object) (other : ℕ) :
    (h.put o (some changed)).object? other = none ↔ h.object? other = none := by
  by_cases hsame : other = o
  · subst hsame
    rw [h.object?_put_self _ (lt_length_of_object? hobject), hobject]
    exact iff_of_false (Option.some_ne_none _) (Option.some_ne_none _)
  · rw [h.object?_put_of_ne _ hsame]

/-- A change of a count changes no members. -/
theorem members_put_count {object : refCountBase} (count : ℤ) (hobject : h.object? o = some object)
    (owner : ℕ) : (h.put o (some { object with m_refCount := count })).members owner =
      h.members owner := by
  by_cases hsame : owner = o
  · subst hsame
    rw [h.members_put_self _ (lt_length_of_object? hobject), members_of_object? hobject]
    rfl
  · exact h.members_put_of_ne _ hsame

/-- A sum over all objects changes by the summand of the object that changes. -/
theorem sum_members_put (f : List Pointer → ℕ) (ho : o < h.objects.length) :
    ∑ owner ∈ Finset.range h.objects.length, f ((h.put o object).members owner) + f (h.members o) =
      ∑ owner ∈ Finset.range h.objects.length, f (h.members owner) +
        f ((object.map refCountBase.members).getD []) := by
  have hmem : o ∈ Finset.range h.objects.length := Finset.mem_range.mpr ho
  have hold := Finset.sum_erase_add _ (fun owner ↦ f (h.members owner)) hmem
  have hnew := Finset.sum_erase_add _ (fun owner ↦ f ((h.put o object).members owner)) hmem
  have hrest : ∑ owner ∈ (Finset.range h.objects.length).erase o,
      f ((h.put o object).members owner) =
        ∑ owner ∈ (Finset.range h.objects.length).erase o, f (h.members owner) :=
    Finset.sum_congr rfl fun owner howner ↦ by
      rw [h.members_put_of_ne object (Finset.ne_of_mem_erase howner)]
  rw [hrest] at hnew
  rw [h.members_put_self object ho] at hnew
  omega

theorem weight_delete {object : refCountBase} (hobject : h.object? o = some object) :
    (h.delete o).weight + object.members.length = h.weight := by
  have hsum := sum_members_put none List.length (lt_length_of_object? hobject)
  rw [members_of_object? hobject, ← length_objects_put h none] at hsum
  exact hsum.trans (by rw [length_objects_put]; rfl)

theorem weight_put {object : refCountBase} (other : refCountBase)
    (hobject : h.object? o = some object) (hmembers : other.members = object.members) :
    (h.put o (some other)).weight = h.weight := by
  have hsum := sum_members_put (some other) List.length (lt_length_of_object? hobject)
  rw [members_of_object? hobject, Option.map_some, Option.getD_some, hmembers] at hsum
  rw [weight, length_objects_put]
  exact Nat.add_right_cancel hsum

end Put

/-- Releases the objects of some pointers: each count is decremented, and an object whose count is
zero is deleted, with its members behind it. -/
def release (h : Heap) : List Pointer → Option Heap
  | [] => some h
  | none :: stack => h.release stack
  | some o :: stack =>
    match _hobject : h.object? o with
    | none => none
    | some object =>
      if object.m_refCount - 1 = 0 then (h.delete o).release (object.members.reverse ++ stack)
      else
        (h.put o (some { object with m_refCount := object.m_refCount - 1 })).release stack
termination_by stack => h.weight + stack.length
decreasing_by
  · simp
  · have := weight_delete _hobject
    simp only [List.length_append, List.length_reverse, List.length_cons]
    omega
  · have hweight := weight_put ⟨object.m_refCount - 1, object.members⟩ _hobject rfl
    rw [hweight, List.length_cons]
    omega

section Release

variable {h : Heap} {o : ℕ} (stack : List Pointer)

@[simp] theorem release_nil (h : Heap) : h.release [] = some h := by rw [release]

@[simp] theorem release_null (h : Heap) : h.release (none :: stack) = h.release stack := by
  rw [release]

theorem release_deleted (hdead : h.object? o = none) : h.release (some o :: stack) = none := by
  rw [release]
  split
  · rfl
  · next object hobject => rw [hdead] at hobject; cases hobject

theorem release_last {object : refCountBase} (hobject : h.object? o = some object)
    (hcount : object.m_refCount - 1 = 0) :
    h.release (some o :: stack) = (h.delete o).release (object.members.reverse ++ stack) := by
  rw [release]
  split
  · next hdead => rw [hdead] at hobject; cases hobject
  · next object' hobject' =>
    obtain rfl : object' = object := Option.some.inj (hobject'.symm.trans hobject)
    rw [if_pos hcount]

theorem release_held {object : refCountBase} (hobject : h.object? o = some object)
    (hcount : object.m_refCount - 1 ≠ 0) :
    h.release (some o :: stack) =
      (h.put o (some { object with m_refCount := object.m_refCount - 1 })).release stack := by
  rw [release]
  split
  · next hdead => rw [hdead] at hobject; cases hobject
  · next object' hobject' =>
    obtain rfl : object' = object := Option.some.inj (hobject'.symm.trans hobject)
    rw [if_neg hcount]

end Release

/-- `operator=`. -/
def assign (h : Heap) (lhs rhs : Place) : Option Heap := do
  let object ← h.m_object lhs
  let other ← h.m_object rhs
  if object ≠ other then
    let h ← h.release [object]
    let other ← h.m_object rhs
    let h ← h.store lhs other
    h.RefIncrement other
  else some h

end Heap

/-- What a program does with objects and with `refPtr` variables: it creates an object with some
members, constructs a variable, from nothing, from a pointer or as a copy, assigns, and destroys a
variable. -/
inductive Operation
  | create (members : ℕ)
  | construct
  | constructFrom (object : Pointer)
  | copy (rhs : Place)
  | assign (lhs rhs : Place)
  | destroy (index : ℕ)

namespace Heap

/-- An operation. A variable ends when its destructor starts. -/
def step (h : Heap) : Operation → Option Heap
  | .create members => some (h.create members)
  | .construct => some (h.addRoot none)
  | .constructFrom object => (h.addRoot object).RefIncrement object
  | .copy rhs => do
    let object ← h.m_object rhs
    (h.addRoot object).RefIncrement object
  | .assign lhs rhs => h.assign lhs rhs
  | .destroy index => do
    let object ← h.m_object (.root index)
    (h.endRoot index).release [object]

end Heap

end RdbLibs.Other.RefPtr
