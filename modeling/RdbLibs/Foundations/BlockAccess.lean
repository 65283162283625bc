import RdbLibs.Foundations.CheckedMemory

/-!
# Accesses to a block

Where a program goes on after an access that leaves its block, an access is recorded, with the range
of bytes that it covers, and is performed on the bytes of it that are in the list at hand. The list
is a block, or a block with what is behind it in memory. Inside the block such an access is the one
that is checked (`overwrite_of_storeRange`).
-/

set_option autoImplicit false
set_option relaxedAutoImplicit false

namespace RdbLibs.BlockAccess

open CheckedMemory

variable {α : Type*}

/-- The range of an access, from the start of a block. -/
structure Access where
  offset : ℕ
  count : ℕ
deriving DecidableEq

/-- The range is inside a block of the given size. -/
def Access.Inside (access : Access) (size : ℕ) : Prop := access.offset + access.count ≤ size

instance (access : Access) (size : ℕ) : Decidable (access.Inside size) :=
  inferInstanceAs (Decidable (_ ≤ _))

/-- Writes those of the values from `offset` on that are in the list. -/
def overwrite (cells : List α) (offset : ℕ) (values : List α) : List α :=
  cells.take offset ++ values.take (cells.length - offset) ++ cells.drop (offset + values.length)

/-- Writes `value` to those of the `count` cells from `offset` on that are in the list. -/
def fill (cells : List α) (offset count : ℕ) (value : α) : List α :=
  cells.take offset ++ List.replicate (min count (cells.length - offset)) value ++
    cells.drop (offset + count)

@[simp] theorem length_overwrite (cells : List α) (offset : ℕ) (values : List α) :
    (overwrite cells offset values).length = cells.length := by
  rw [overwrite, List.length_append, List.length_append, List.length_take, List.length_take,
    List.length_drop]
  omega

@[simp] theorem length_fill (cells : List α) (offset count : ℕ) (value : α) :
    (fill cells offset count value).length = cells.length := by
  rw [fill, List.length_append, List.length_append, List.length_take, List.length_replicate,
    List.length_drop]
  omega

/-- Inside the block, what is written is what a checked access writes. -/
theorem overwrite_of_storeRange {cells cells' : List α} {offset : ℕ} {values : List α}
    (h : storeRange cells offset values = .ok cells') : overwrite cells offset values = cells' := by
  obtain ⟨hinside, rfl⟩ := exists_of_storeRange h
  have hall : values.take (cells.length - offset) = values := List.take_of_length_le (by omega)
  rw [overwrite, hall]

section Ranges

variable {front middle : List α} {offset : ℕ} (back : List α)

theorem fill_middle (hoffset : front.length = offset) {count : ℕ} (hcount : middle.length = count)
    (value : α) :
    fill (front ++ middle ++ back) offset count value =
      front ++ List.replicate count value ++ back := by
  subst hoffset hcount
  rw [fill, Nat.min_eq_left (by simp only [List.length_append]; omega)]
  simp

end Ranges

section Parts

variable {cells : List α} {offset count k : ℕ} {values : List α}

/-- Inside the block, what is written is between what is before it and what is behind it. -/
theorem overwrite_eq (h : offset + values.length ≤ cells.length) :
    overwrite cells offset values =
      cells.take offset ++ values ++ cells.drop (offset + values.length) :=
  overwrite_of_storeRange (if_pos h)

/-- A write leaves what is before it. -/
theorem take_overwrite (hk : k ≤ offset) (hoffset : offset ≤ cells.length) (values : List α) :
    (overwrite cells offset values).take k = cells.take k := by
  have hlength : k ≤ (cells.take offset).length := by
    rw [List.length_take]
    omega
  rw [overwrite, List.append_assoc, List.take_append_of_le_length hlength, List.take_take,
    Nat.min_eq_left hk]

theorem take_fill (hk : k ≤ offset) (hoffset : offset ≤ cells.length) (count : ℕ) (value : α) :
    (fill cells offset count value).take k = cells.take k := by
  have hlength : k ≤ (cells.take offset).length := by
    rw [List.length_take]
    omega
  rw [fill, List.append_assoc, List.take_append_of_le_length hlength, List.take_take,
    Nat.min_eq_left hk]

/-- Up to its end, a block is what is before the write and what was written. -/
theorem take_overwrite_end (h : offset + values.length ≤ cells.length) :
    (overwrite cells offset values).take (offset + values.length) =
      cells.take offset ++ values := by
  have hlength : (cells.take offset ++ values).length = offset + values.length := by
    rw [List.length_append, List.length_take_of_le (by omega)]
  rw [overwrite_eq h]
  exact List.take_left' hlength

/-- A write leaves what is behind it. -/
theorem drop_overwrite (h : offset + values.length ≤ cells.length)
    (hk : offset + values.length ≤ k) :
    (overwrite cells offset values).drop k = cells.drop k := by
  have hlength : (cells.take offset ++ values).length = offset + values.length := by
    rw [List.length_append, List.length_take_of_le (by omega)]
  rw [overwrite_eq h, List.drop_append, hlength, List.drop_eq_nil_of_le (by omega),
    List.nil_append, List.drop_drop, Nat.add_sub_cancel' hk]

/-- A list of which the first cells were replaced is as it was behind them. -/
theorem getElem?_append_drop {count : ℕ} (hvalues : values.length = count) (hk : count ≤ k) :
    (values ++ cells.drop count)[k]? = cells[k]? := by
  subst hvalues
  rw [List.getElem?_append_right hk, List.getElem?_drop, Nat.add_sub_cancel' hk]

/-- What was written is read back. -/
theorem read_overwrite (h : offset + values.length ≤ cells.length) :
    ((overwrite cells offset values).drop offset).take values.length = values := by
  have hlength : (cells.take offset).length = offset := List.length_take_of_le (by omega)
  rw [overwrite_eq h, List.append_assoc, List.drop_left' hlength]
  exact List.take_left' rfl

/-- A cell from the start of a write on is one of the values, or behind them as it was. -/
theorem getElem?_overwrite (h : offset + values.length ≤ cells.length) (k : ℕ) :
    (overwrite cells offset values)[offset + k]? =
      if k < values.length then values[k]? else cells[offset + k]? := by
  have hbefore : (cells.take offset).length = offset := List.length_take_of_le (by omega)
  rw [overwrite_eq h, List.append_assoc, List.getElem?_append_right (by omega), hbefore,
    Nat.add_sub_cancel_left, List.getElem?_append]
  split_ifs with hinside
  · rfl
  · have hindex : offset + values.length + (k - values.length) = offset + k := by omega
    rw [List.getElem?_drop, hindex]

/-- What one of two writes leaves, and the other does not, is seen where the cells before differ. -/
theorem not_overwrite_eq_of_lt [Nontrivial α] {first second : List α} {length : ℕ}
    (hlt : first.length < second.length) (hsecond : second.length ≤ length) :
    ¬∀ cells : List α, length ≤ cells.length →
      overwrite cells 0 first = overwrite cells 0 second := by
  intro h
  obtain ⟨x, y, hne⟩ := exists_pair_ne α
  have hkept : ∀ value, second[first.length]? = some value := by
    intro value
    have hcells := congrArg (·[0 + first.length]?)
      (h (List.replicate length value) (Nat.le_of_eq List.length_replicate.symm))
    rw [getElem?_overwrite (by rw [List.length_replicate]; omega),
      getElem?_overwrite (by rw [List.length_replicate]; omega), if_neg (Nat.lt_irrefl _),
      if_pos hlt, List.getElem?_replicate, if_pos (by omega)] at hcells
    exact hcells.symm
  exact hne (Option.some.inj ((hkept x).symm.trans (hkept y)))

/-- Two writes with the same effect on all memories that have room for them are the same. -/
theorem overwrite_injective [Nontrivial α] {first second : List α} {length : ℕ}
    (hfirst : first.length ≤ length) (hsecond : second.length ≤ length)
    (h : ∀ cells : List α, length ≤ cells.length →
      overwrite cells 0 first = overwrite cells 0 second) : first = second := by
  rcases Nat.lt_trichotomy first.length second.length with hlt | hsame | hgt
  · exact absurd h (not_overwrite_eq_of_lt hlt hsecond)
  · obtain ⟨x, -⟩ := exists_pair_ne α
    have hroom : length ≤ (List.replicate length x).length :=
      Nat.le_of_eq List.length_replicate.symm
    have hwritten := congrArg (List.take first.length) (h _ hroom)
    have hbegins (values : List α) (hvalues : values.length ≤ length) :
        (overwrite (List.replicate length x) 0 values).take values.length = values := by
      have hend : 0 + values.length ≤ (List.replicate length x).length := by omega
      simpa using take_overwrite_end hend
    rwa [hbegins first hfirst, hsame, hbegins second hsecond] at hwritten
  · exact absurd (fun cells hcells ↦ (h cells hcells).symm) (not_overwrite_eq_of_lt hgt hfirst)

/-- A write to the first part of a list. -/
theorem overwrite_append (h : offset + values.length ≤ cells.length) (behind : List α) :
    overwrite (cells ++ behind) offset values = overwrite cells offset values ++ behind := by
  rw [overwrite_eq h, overwrite_eq (by rw [List.length_append]; omega),
    List.take_append_of_le_length (by omega), List.drop_append_of_le_length h,
    List.append_assoc _ _ behind]

end Parts

end RdbLibs.BlockAccess
