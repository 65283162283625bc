import Mathlib.Data.Int.Notation
import RdbLibs.Foundations.CheckedMemory

/-!
# Edits of a sequence

A `std::vector` is the list of its entries. `insertAt` and `eraseRange` are its `insert` and `erase`
at positions that are counted from `begin()`; a position outside the sequence is a `Fault`, as it is
for an access to memory. Entries that are inserted one after the other at consecutive positions
stand between what was before the first position and what was behind it (`insertEach_eq`).
-/

set_option autoImplicit false
set_option relaxedAutoImplicit false

namespace RdbLibs.CheckedMemory

variable {α : Type*}

/-- Inserts an entry before the position `index`, which may be the end. -/
def insertAt (entries : List α) (index : ℕ) (value : α) : Except Fault (List α) :=
  if index ≤ entries.length then .ok (entries.insertIdx index value) else .error .outOfBounds

/-- Removes the entries from the position `first` to before `last`. -/
def eraseRange (entries : List α) (first last : ℤ) : Except Fault (List α) :=
  if 0 ≤ first ∧ first ≤ last ∧ last ≤ entries.length then
    .ok (entries.take first.toNat ++ entries.drop last.toNat)
  else .error .outOfBounds

theorem insertAt_middle (front back : List α) (value : α) :
    insertAt (front ++ back) front.length value = .ok (front ++ value :: back) := by
  have hinside : front.length ≤ (front ++ back).length := by
    rw [List.length_append]
    exact Nat.le_add_right _ _
  have hinsert : (front ++ back).insertIdx front.length value = front ++ value :: back := by
    induction front with
    | nil => rfl
    | cons first front ih =>
      have hrest : front.length ≤ (front ++ back).length := by
        rw [List.length_append]
        exact Nat.le_add_right _ _
      rw [List.cons_append, List.length_cons, List.insertIdx_succ_cons, ih hrest, List.cons_append]
  rw [insertAt, if_pos hinside, hinsert]

/-- Inserts entries at the position `index` and at the positions behind it. -/
def insertEach (entries : List α) : ℕ → List α → Except Fault (List α)
  | _, [] => .ok entries
  | index, value :: values => do
    let entries ← insertAt entries index value
    insertEach entries (index + 1) values

theorem insertEach_eq (back values : List α) : ∀ front : List α,
    insertEach (front ++ back) front.length values = .ok (front ++ values ++ back) := by
  induction values with
  | nil => exact fun front ↦ by rw [insertEach, List.append_nil]
  | cons value values ih =>
    intro front
    have hnext := ih (front ++ [value])
    rw [List.length_append, List.length_singleton, List.append_assoc, List.singleton_append]
      at hnext
    rw [insertEach, insertAt_middle, ok_bind, hnext, List.append_assoc front [value],
      List.singleton_append]

theorem eraseRange_of_inside {entries : List α} {first last : ℤ} (hfirst : 0 ≤ first)
    (hle : first ≤ last) (hlast : last ≤ entries.length) :
    eraseRange entries first last = .ok (entries.take first.toNat ++ entries.drop last.toNat) :=
  if_pos ⟨hfirst, hle, hlast⟩

theorem inside_of_eraseRange {entries entries' : List α} {first last : ℤ}
    (h : eraseRange entries first last = .ok entries') :
    0 ≤ first ∧ first ≤ last ∧ last ≤ entries.length := by
  unfold eraseRange at h
  split_ifs at h with hinside
  exact hinside

theorem length_of_eraseRange {entries entries' : List α} {first last : ℤ}
    (h : eraseRange entries first last = .ok entries') :
    entries'.length = entries.length - (last - first).toNat := by
  obtain ⟨hfirst, hle, hlast⟩ := inside_of_eraseRange h
  obtain rfl := Except.ok.inj ((eraseRange_of_inside hfirst hle hlast).symm.trans h)
  rw [List.length_append, List.length_take, List.length_drop]
  omega

end RdbLibs.CheckedMemory
