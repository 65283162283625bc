import Mathlib.Tactic.Common
import Mathlib.Data.List.Basic
import Mathlib.Algebra.Order.Group.Nat

/-!
# Output in blocks

A buffer collects entries, and when it holds a block of them, it emits the block and is empty again.
`emitted` is what it emits over some entries. What does not fill a block is never emitted: the
output of a buffer that starts empty consists of one piece for each block that fits in the entries
(`emitted_eq_flatMap`). Pieces of one length are compared with a list one by one
(`flatMap_range_eq_take_iff`).
-/

set_option autoImplicit false
set_option relaxedAutoImplicit false

namespace RdbLibs.BlockBuffer

variable {α β : Type*}

/-- What a buffer that holds `pending` emits over some entries, with blocks of `size` entries. -/
def emitted (size : ℕ) (emit : List β → List α) : List β → List β → List α
  | _, [] => []
  | pending, entry :: entries =>
    if size ≤ pending.length + 1 then
      emit (pending ++ [entry]) ++ emitted size emit [] entries
    else emitted size emit (pending ++ [entry]) entries

variable {size : ℕ} {emit : List β → List α} {pending entries : List β}

/-- Too few entries for a block are held back. -/
theorem emitted_of_lt (h : pending.length + entries.length < size) :
    emitted size emit pending entries = [] := by
  induction entries generalizing pending with
  | nil => rfl
  | cons entry entries ih =>
    rw [List.length_cons] at h
    rw [emitted, if_neg (by omega), ih]
    rw [List.length_append, List.length_singleton]
    omega

/-- The entries that fill the block are emitted with what was pending. -/
theorem emitted_block {block : List β} (hpending : pending.length < size)
    (hblock : pending.length + block.length = size) :
    emitted size emit pending (block ++ entries) =
      emit (pending ++ block) ++ emitted size emit [] entries := by
  induction block generalizing pending with
  | nil =>
    rw [List.length_nil] at hblock
    omega
  | cons entry block ih =>
    rw [List.length_cons] at hblock
    rw [List.cons_append, emitted]
    split_ifs with hfull
    · obtain rfl : block = [] := List.eq_nil_of_length_eq_zero (by omega)
      rfl
    · have hlength : (pending ++ [entry]).length = pending.length + 1 := by simp
      rw [ih (by omega) (by omega), ← List.append_cons]

/-- The output has a piece for each block. -/
theorem emitted_eq_flatMap (hsize : 1 ≤ size) :
    ∀ {count : ℕ} {entries : List β}, entries.length / size = count →
      emitted size emit [] entries =
        (List.range count).flatMap fun k ↦ emit ((entries.drop (size * k)).take size) := by
  intro count
  induction count with
  | zero =>
    intro entries hcount
    have hlt := (Nat.div_eq_zero_iff_lt hsize).mp hcount
    exact emitted_of_lt (by rwa [List.length_nil, Nat.zero_add])
  | succ count ih =>
    intro entries hcount
    have hle : size ≤ entries.length := by
      by_contra hlt
      rw [Nat.div_eq_of_lt (Nat.lt_of_not_le hlt)] at hcount
      exact Nat.succ_ne_zero count hcount.symm
    have hrest : (entries.drop size).length / size = count := by
      rw [Nat.div_eq_sub_div hsize hle] at hcount
      rw [List.length_drop, Nat.succ.inj hcount]
    have hfirst : emitted size emit [] (entries.take size ++ entries.drop size) =
        emit ([] ++ entries.take size) ++ emitted size emit [] (entries.drop size) := by
      apply emitted_block hsize
      rw [List.length_take_of_le hle, List.length_nil, Nat.zero_add]
    rw [List.take_append_drop, ih hrest, List.nil_append] at hfirst
    rw [hfirst, List.range_succ_eq_map, List.flatMap_cons, List.flatMap_map]
    simp [Nat.mul_succ, Nat.add_comm]

section Pieces

variable {pieces : ℕ → List α} {length count : ℕ}
  (hpieces : ∀ k < count, (pieces k).length = length)
include hpieces

theorem length_flatMap_range : ((List.range count).flatMap pieces).length = length * count := by
  rw [List.length_flatMap, List.map_congr_left fun k hk ↦ hpieces k (List.mem_range.mp hk),
    List.map_const', List.length_range, List.sum_replicate_nat, Nat.mul_comm]

/-- Pieces of one length, one behind the other, are what a list starts with if each piece is what
the list has in its place. -/
theorem flatMap_range_eq_take_iff {list : List α} (hlist : length * count ≤ list.length) :
    (List.range count).flatMap pieces = list.take (length * count) ↔
      ∀ k < count, pieces k = (list.drop (length * k)).take length := by
  induction count with
  | zero => simp
  | succ count ih =>
    have hinit (k : ℕ) (hk : k < count) : (pieces k).length = length :=
      hpieces k (Nat.lt_succ_of_lt hk)
    rw [Nat.mul_succ] at hlist
    have hle : length * count ≤ list.length := Nat.le_of_add_right_le hlist
    rw [List.range_succ, List.flatMap_append, List.flatMap_singleton, Nat.mul_succ, List.take_add,
      Nat.forall_lt_succ_right, ← ih hinit hle]
    constructor
    · intro heq
      apply List.append_inj heq
      rw [length_flatMap_range hinit, List.length_take_of_le hle]
    · rintro ⟨hinit_eq, hlast_eq⟩
      rw [hinit_eq, hlast_eq]

end Pieces

end RdbLibs.BlockBuffer
