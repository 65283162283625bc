import Mathlib.Data.Int.ModEq
import Mathlib.Data.List.Range
import Mathlib.Tactic.Common

/-!
# Windows into a circular array

`window cells size start count` lists `count` cells of a circular array of `size` cells, beginning
at `start` and wrapping at the end. It is the abstraction function of every ring buffer: the
entries in the order in which they were stored. A window splits at any point (`window_add`), so its
prefixes and suffixes are windows; writing the cell behind a window that is not full appends to it
(`window_push`), and writing the first cell of a full window while moving the start drops the oldest
entry and appends the new one (`window_rotate`).
-/

set_option autoImplicit false
set_option relaxedAutoImplicit false

namespace RdbLibs.CircularWindow

variable {α : Type*}

/-- The entries at `start`, `start + 1`, …, wrapping at `size`. -/
def window (cells : ℕ → α) (size start count : ℕ) : List α :=
  (List.range count).map fun offset ↦ cells ((start + offset) % size)

@[simp] theorem length_window (cells : ℕ → α) (size start count : ℕ) :
    (window cells size start count).length = count := by
  simp [window]

theorem window_add (cells : ℕ → α) (size start first second : ℕ) :
    window cells size start (first + second) =
      window cells size start first ++ window cells size ((start + first) % size) second := by
  simp only [window, List.range_add, List.map_append, List.map_map, Function.comp_def,
    Nat.mod_add_mod, Nat.add_assoc]

/-- A window may start at any representative of its first slot. -/
theorem window_mod (cells : ℕ → α) (size start count : ℕ) :
    window cells size (start % size) count = window cells size start count := by
  simp only [window, Nat.mod_add_mod]

theorem window_succ (cells : ℕ → α) (size start count : ℕ) :
    window cells size start (count + 1) =
      window cells size start count ++ [cells ((start + count) % size)] := by
  rw [window_add]
  simp [window]

theorem window_eq_cons (cells : ℕ → α) (size start count : ℕ) :
    window cells size start (count + 1) =
      cells (start % size) :: window cells size ((start + 1) % size) count := by
  rw [Nat.add_comm count 1, window_add]
  simp [window]

theorem take_window (cells : ℕ → α) (size start : ℕ) {count keep : ℕ} (h : keep ≤ count) :
    (window cells size start count).take keep = window cells size start keep := by
  obtain ⟨rest, rfl⟩ := Nat.exists_eq_add_of_le h
  rw [window_add]
  exact List.take_left' (length_window _ _ _ _)

theorem drop_window (cells : ℕ → α) (size start : ℕ) {count skip : ℕ} (h : skip ≤ count) :
    (window cells size start count).drop skip =
      window cells size ((start + skip) % size) (count - skip) := by
  obtain ⟨rest, rfl⟩ := Nat.exists_eq_add_of_le h
  rw [window_add, Nat.add_sub_cancel_left]
  exact List.drop_left' (length_window _ _ _ _)

/-- Two arrays that agree on the slots of a window show the same window. -/
theorem window_congr {first second : ℕ → α} {size start count : ℕ}
    (h : ∀ offset < count,
      first ((start + offset) % size) = second ((start + offset) % size)) :
    window first size start count = window second size start count :=
  List.map_congr_left fun offset hoffset ↦ h offset (List.mem_range.mp hoffset)

/-- Offsets less than one turn apart are different slots. -/
theorem slot_ne {size start first second : ℕ} (hlt : first < second)
    (hturn : second < first + size) : (start + first) % size ≠ (start + second) % size := by
  intro heq
  have hdvd : size ∣ (start + second) - (start + first) :=
    (Nat.modEq_iff_dvd' (by omega)).mp heq
  have hle := Nat.le_of_dvd (by omega) hdvd
  omega

theorem window_update_of_ne {cells : ℕ → α} {size start count slot : ℕ} (value : α)
    (h : ∀ offset < count, (start + offset) % size ≠ slot) :
    window (Function.update cells slot value) size start count =
      window cells size start count :=
  window_congr fun offset hoffset ↦ Function.update_of_ne (h offset hoffset) _ _

/-- Writing the slot behind a window that is not full appends the value to the window. -/
theorem window_push (cells : ℕ → α) {size start count : ℕ} (h : count < size) (value : α) :
    window (Function.update cells ((start + count) % size) value) size start (count + 1) =
      window cells size start count ++ [value] := by
  rw [window_succ, Function.update_self,
    window_update_of_ne value fun offset hoffset ↦ slot_ne hoffset (by omega)]

/-- Writing the first slot of a full window, while the window moves on by one slot, drops the
oldest entry and appends the value. -/
theorem window_rotate (cells : ℕ → α) {size start : ℕ} (h : start < size) (value : α) :
    window (Function.update cells start value) size ((start + 1) % size) size =
      (window cells size start size).tail ++ [value] := by
  obtain ⟨rest, rfl⟩ : ∃ rest, size = rest + 1 := ⟨size - 1, by omega⟩
  have hlast : ((start + 1) % (rest + 1) + rest) % (rest + 1) = start := by
    rw [Nat.mod_add_mod, Nat.add_assoc, Nat.add_comm 1 rest, Nat.add_mod_right,
      Nat.mod_eq_of_lt h]
  have hpush : window (Function.update cells
      (((start + 1) % (rest + 1) + rest) % (rest + 1)) value) (rest + 1) ((start + 1) % (rest + 1))
        (rest + 1) = window cells (rest + 1) ((start + 1) % (rest + 1)) rest ++ [value] :=
    window_push cells (Nat.lt_succ_self rest) value
  rw [hlast] at hpush
  rw [hpush, window_eq_cons cells _ start, List.tail_cons]

/-! ### Indices of a circular array -/

/-- A sum of two indices wraps at most once. -/
theorem mod_eq_ite {size index : ℕ} (h : index < 2 * size) :
    index % size = if size ≤ index then index - size else index := by
  split_ifs with hwrap
  · rw [Nat.mod_eq_sub_mod hwrap, Nat.mod_eq_of_lt (by omega)]
  · exact Nat.mod_eq_of_lt (not_le.mp hwrap)

/-- The successor of an index, as `if (++index >= size) index = 0` computes it. -/
theorem succ_wrap {size index : ℕ} (h : index < size) :
    (if size ≤ index + 1 then 0 else index + 1) = (index + 1) % size := by
  rw [mod_eq_ite (by omega)]
  split_ifs <;> omega

end RdbLibs.CircularWindow
