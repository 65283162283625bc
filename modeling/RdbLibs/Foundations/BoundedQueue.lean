import Mathlib.Data.List.DropRight
import Mathlib.Tactic.Common

/-!
# Bounded first-in-first-out queues

The abstract component behind the ring buffers: a list of at most `capacity` entries, the oldest
first. A producer may `offer` a block, of which the queue keeps what it has room for, or
`overwrite`, which keeps the newest entries and drops the oldest; a consumer may `discard` entries
from the front. `BoundedQueue` carries its bound, so a queue that is too long cannot be built.
-/

set_option autoImplicit false
set_option relaxedAutoImplicit false

namespace RdbLibs

variable {α : Type*} {capacity : ℕ}

/-- A queue of at most `capacity` entries, oldest first. -/
@[ext] structure BoundedQueue (α : Type*) (capacity : ℕ) where
  entries : List α
  length_le : entries.length ≤ capacity

namespace BoundedQueue

/-- The queue without entries. -/
def empty : BoundedQueue α capacity := ⟨[], Nat.zero_le _⟩

/-- How many entries the queue can still take. -/
def room (queue : BoundedQueue α capacity) : ℕ := capacity - queue.entries.length

/-- Appends the entries of a block that there is room for. -/
def offer (queue : BoundedQueue α capacity) (block : List α) : BoundedQueue α capacity where
  entries := queue.entries ++ block.take queue.room
  length_le := by
    have hlength := queue.length_le
    simp only [List.length_append, List.length_take, room]
    omega

/-- Appends a block and keeps the newest `capacity` entries. -/
def overwrite (queue : BoundedQueue α capacity) (block : List α) : BoundedQueue α capacity where
  entries := (queue.entries ++ block).rtake capacity
  length_le := by
    simp only [List.rtake, List.length_drop]
    omega

/-- Drops entries from the front. -/
def discard (queue : BoundedQueue α capacity) (count : ℕ) : BoundedQueue α capacity where
  entries := queue.entries.drop count
  length_le := by
    have hlength := queue.length_le
    simp only [List.length_drop]
    omega

theorem rtake_of_length_le {list : List α} {keep : ℕ} (h : list.length ≤ keep) :
    list.rtake keep = list := by
  rw [List.rtake, Nat.sub_eq_zero_of_le h, List.drop_zero]

/-- The last entry is kept, and before it one entry less. -/
theorem rtake_concat {keep : ℕ} (hpos : 1 ≤ keep) (list : List α) (value : α) :
    (list ++ [value]).rtake keep = list.rtake (keep - 1) ++ [value] := by
  obtain ⟨before, rfl⟩ : ∃ before, keep = before + 1 := Nat.exists_eq_add_one.mpr hpos
  exact List.rtake_concat_succ list before value

/-- Keeping the newest entries before more are appended loses nothing that is kept afterwards. -/
theorem rtake_rtake_append (list block : List α) (keep : ℕ) :
    (list.rtake keep ++ block).rtake keep = (list ++ block).rtake keep := by
  rcases Nat.le_total list.length keep with hshort | hlong
  · rw [rtake_of_length_le hshort]
  · simp only [List.rtake, List.length_append, List.length_drop, List.drop_append,
      List.drop_drop]
    congr 2 <;> omega

/-- Without loss, overwriting is appending. -/
theorem entries_overwrite_of_le {queue : BoundedQueue α capacity} {block : List α}
    (h : block.length ≤ queue.room) :
    (queue.overwrite block).entries = queue.entries ++ block := by
  have hlength := queue.length_le
  refine rtake_of_length_le ?_
  simp only [room] at h
  simp only [List.length_append]
  omega

/-- One entry into a full queue takes the place of the oldest one. -/
theorem entries_overwrite_singleton_of_full {queue : BoundedQueue α capacity} (value : α)
    (hpos : 0 < capacity) (hfull : queue.entries.length = capacity) :
    (queue.overwrite [value]).entries = queue.entries.tail ++ [value] := by
  have hlength : (queue.entries ++ [value]).length - capacity = 1 := by
    simp only [List.length_append, List.length_singleton]
    omega
  simp only [overwrite, List.rtake]
  rw [hlength, List.drop_append_of_le_length (by omega), List.drop_one]

theorem overwrite_nil (queue : BoundedQueue α capacity) : queue.overwrite [] = queue := by
  ext1
  simp [overwrite, rtake_of_length_le queue.length_le]

/-- Overwriting with a block is overwriting with its parts in turn. -/
theorem overwrite_append (queue : BoundedQueue α capacity) (first second : List α) :
    queue.overwrite (first ++ second) = (queue.overwrite first).overwrite second := by
  ext1
  simp only [overwrite, rtake_rtake_append, List.append_assoc]

end BoundedQueue

end RdbLibs
