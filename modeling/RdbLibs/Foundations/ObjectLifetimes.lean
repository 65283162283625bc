import Mathlib.Data.List.Infix
import Mathlib.Tactic.Common

/-!
# Objects that are created, used and deleted

Objects have numbers, in the order of their creation, and a heap keeps the history of what was done
to them through pointers. A history is `Safe` when no object is used or deleted after it was
deleted. A `Sound` heap has a safe history and numbers for new objects; it stays sound while only
objects that are `Live` are used and deleted (`Sound.use`, `Sound.delete`). A history that is not
safe stays so (`Safe.of_prefix`).
-/

set_option autoImplicit false
set_option relaxedAutoImplicit false

namespace RdbLibs.ObjectLifetimes

inductive Event
  | created (object : ℕ)
  | used (object : ℕ)
  | deleted (object : ℕ)
deriving DecidableEq

/-- The number of the next object, and the history. -/
structure Heap where
  next : ℕ
  events : List Event

namespace Heap

def empty : Heap := ⟨0, []⟩

/-- Creates an object, which has the number `next`. -/
def create (h : Heap) : Heap := ⟨h.next + 1, h.events ++ [.created h.next]⟩

/-- A use of the object that a pointer points to. -/
def use (h : Heap) (pointer : Option ℕ) : Heap :=
  { h with events := h.events ++ (pointer.map Event.used).toList }

/-- Deletes the object that a pointer points to. A null pointer may be deleted. -/
def delete (h : Heap) (pointer : Option ℕ) : Heap :=
  { h with events := h.events ++ (pointer.map Event.deleted).toList }

/-- No object is used or deleted after it was deleted. -/
def Safe (h : Heap) : Prop :=
  h.events.Pairwise fun first second ↦
    ∀ object, first = .deleted object → second ≠ .used object ∧ second ≠ .deleted object

/-- The object was created and not deleted. -/
structure Live (h : Heap) (object : ℕ) : Prop where
  lt_next : object < h.next
  not_deleted : Event.deleted object ∉ h.events

/-- A safe history, in which no object was deleted that was not created. -/
structure Sound (h : Heap) : Prop where
  safe : h.Safe
  lt_next : ∀ object, Event.deleted object ∈ h.events → object < h.next

variable {h : Heap} {object other : ℕ}

theorem sound_empty : Sound empty := ⟨.nil, nofun⟩

theorem safe_append_singleton (hsafe : h.Safe) {event : Event}
    (hevent : ∀ object, .deleted object ∈ h.events →
      event ≠ .used object ∧ event ≠ .deleted object) :
    Safe { h with events := h.events ++ [event] } := by
  refine List.pairwise_append.mpr ⟨hsafe, List.pairwise_singleton _ _, ?_⟩
  intro first hfirst second hsecond
  obtain rfl := List.mem_singleton.mp hsecond
  rintro object rfl
  exact hevent object hfirst

theorem Sound.create (hsound : Sound h) : Sound h.create where
  safe := safe_append_singleton hsound.safe fun _ _ ↦ ⟨nofun, nofun⟩
  lt_next := by
    intro object hdeleted
    rw [Heap.create, List.mem_append, List.mem_singleton] at hdeleted
    exact Nat.lt_succ_of_lt (hsound.lt_next object (hdeleted.resolve_right nofun))

theorem Sound.live_create (hsound : Sound h) : Live h.create h.next where
  lt_next := Nat.lt_succ_self h.next
  not_deleted := by
    intro hdeleted
    rw [Heap.create, List.mem_append, List.mem_singleton] at hdeleted
    exact lt_irrefl _ (hsound.lt_next _ (hdeleted.resolve_right nofun))

theorem Live.create (hlive : Live h object) : Live h.create object where
  lt_next := Nat.lt_succ_of_lt hlive.lt_next
  not_deleted := by
    intro hdeleted
    rw [Heap.create, List.mem_append, List.mem_singleton] at hdeleted
    exact hlive.not_deleted (hdeleted.resolve_right nofun)

theorem Sound.use (hsound : Sound h) (hlive : Live h object) : Sound (h.use (some object)) where
  safe := by
    refine safe_append_singleton hsound.safe fun other hdeleted ↦ ⟨?_, nofun⟩
    rintro ⟨⟩
    exact hlive.not_deleted hdeleted
  lt_next := by
    intro other hdeleted
    rw [Heap.use, List.mem_append] at hdeleted
    exact hsound.lt_next other (hdeleted.resolve_right (by simp))

theorem Live.use (hlive : Live h object) (pointer : Option ℕ) : Live (h.use pointer) object where
  lt_next := hlive.lt_next
  not_deleted := by
    intro hdeleted
    rw [Heap.use, List.mem_append] at hdeleted
    exact hlive.not_deleted (hdeleted.resolve_right (by simp))

theorem Sound.delete (hsound : Sound h) (hlive : Live h object) :
    Sound (h.delete (some object)) where
  safe := by
    refine safe_append_singleton hsound.safe fun other hdeleted ↦ ⟨nofun, ?_⟩
    rintro ⟨⟩
    exact hlive.not_deleted hdeleted
  lt_next := by
    intro other hdeleted
    rw [Heap.delete, List.mem_append] at hdeleted
    rcases hdeleted with hdeleted | hdeleted
    · exact hsound.lt_next other hdeleted
    · have hsame : other = object := by simpa using hdeleted
      exact hsame ▸ hlive.lt_next

theorem Live.delete (hlive : Live h object) (hne : object ≠ other) :
    Live (h.delete (some other)) object where
  lt_next := hlive.lt_next
  not_deleted := by
    intro hdeleted
    rw [Heap.delete, List.mem_append] at hdeleted
    rcases hdeleted with hdeleted | hdeleted
    · exact hlive.not_deleted hdeleted
    · exact hne (by simpa using hdeleted)

/-- After it is deleted, an object is in the history as deleted. -/
theorem deleted_mem (h : Heap) (object : ℕ) :
    Event.deleted object ∈ (h.delete (some object)).events :=
  List.mem_append_right _ List.mem_cons_self

/-- To delete an object for a second time is not safe. -/
theorem not_safe_delete (hdeleted : Event.deleted object ∈ h.events) :
    ¬Safe (h.delete (some object)) := by
  intro hsafe
  have hpair := (List.pairwise_append.mp hsafe).2.2 _ hdeleted _ List.mem_cons_self object rfl
  exact hpair.2 rfl

/-- What was not safe is not made safe by what follows. -/
theorem Safe.of_prefix {h' : Heap} (hsafe : h'.Safe) (hextends : h.events <+: h'.events) : h.Safe :=
  List.Pairwise.sublist hextends.sublist hsafe

theorem prefix_create (h : Heap) : h.events <+: h.create.events := List.prefix_append ..

theorem prefix_use (h : Heap) (pointer : Option ℕ) : h.events <+: (h.use pointer).events :=
  List.prefix_append ..

theorem prefix_delete (h : Heap) (pointer : Option ℕ) : h.events <+: (h.delete pointer).events :=
  List.prefix_append ..

end Heap

end RdbLibs.ObjectLifetimes
