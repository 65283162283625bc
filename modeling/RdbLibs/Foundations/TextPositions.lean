import Mathlib.Data.List.Basic
import Mathlib.Tactic.Common

/-!
# Positions in a text

A scanner that goes through a text by positions, as with the members `find`, `rfind` and `substr`
of a string class. `findFrom` is the first position of a character from some position on
(`findFrom_eq_some_iff`), and `findLast` the last position of it (`findLast_append_cons`). `substr`
cuts a piece, and stops where it should begin behind the end of the text; what is found is in the
text (`findFrom_bounds`), so that a piece that begins there, or behind it, is always cut.
-/

set_option autoImplicit false
set_option relaxedAutoImplicit false

namespace RdbLibs.TextPositions

variable {α : Type*}

/-- A piece of a text that begins behind its end. -/
inductive RangeFault
  | outOfRange
deriving DecidableEq

/-- The piece of at most `count` characters from a position on. -/
def substr (text : List α) (pos count : ℕ) : Except RangeFault (List α) :=
  if text.length < pos then .error .outOfRange else .ok ((text.drop pos).take count)

/-- All characters from a position on. -/
def substrFrom (text : List α) (pos : ℕ) : Except RangeFault (List α) :=
  substr text pos text.length

variable {text : List α} {pos : ℕ}

theorem substr_eq (h : pos ≤ text.length) (count : ℕ) :
    substr text pos count = .ok ((text.drop pos).take count) :=
  if_neg (Nat.not_lt.mpr h)

theorem substrFrom_eq (h : pos ≤ text.length) : substrFrom text pos = .ok (text.drop pos) := by
  have hall : (text.drop pos).length ≤ text.length := by
    rw [List.length_drop]
    exact Nat.sub_le _ _
  rw [substrFrom, substr_eq h, List.take_of_length_le hall]

section Find

variable [DecidableEq α] {c : α} {k : ℕ}

/-- The first position of a character, from a position on. -/
def findFrom (text : List α) (c : α) (pos : ℕ) : Option ℕ :=
  ((text.drop pos).idxOf? c).map fun k ↦ pos + k

/-- The last position of a character. -/
def findLast (text : List α) (c : α) : Option ℕ :=
  (text.reverse.idxOf? c).map fun k ↦ text.length - 1 - k

theorem idxOf?_append_cons {front : List α} (hfront : c ∉ front) (back : List α) :
    (front ++ c :: back).idxOf? c = some front.length := by
  induction front with
  | nil => rw [List.nil_append, List.idxOf?_cons, if_pos (beq_self_eq_true c), List.length_nil]
  | cons x front ih =>
    obtain ⟨hne, hrest⟩ := List.ne_and_not_mem_of_not_mem_cons hfront
    rw [List.cons_append, List.idxOf?_cons, if_neg (by simpa using hne.symm), ih hrest]
    rfl

theorem findFrom_eq_none_iff : findFrom text c pos = none ↔ c ∉ text.drop pos := by
  rw [findFrom, Option.map_eq_none_iff, List.idxOf?_eq_none_iff]

/-- A character is found behind what has it not. -/
theorem findFrom_append_cons {before front : List α} (hbefore : before.length = pos)
    (hfront : c ∉ front) (back : List α) :
    findFrom (before ++ (front ++ c :: back)) c pos = some (pos + front.length) := by
  rw [findFrom, List.drop_left' hbefore, idxOf?_append_cons hfront]
  rfl

theorem findFrom_zero_append_cons {front : List α} (hfront : c ∉ front) (back : List α) :
    findFrom (front ++ c :: back) c 0 = some front.length := by
  rw [findFrom, List.drop_zero, idxOf?_append_cons hfront, Option.map_some, Nat.zero_add]

/-- What is found is the first position, from there on, at which the character stands. -/
theorem findFrom_eq_some_iff : findFrom text c pos = some k ↔
    ∃ front back, text.drop pos = front ++ c :: back ∧ c ∉ front ∧ k = pos + front.length := by
  constructor
  · intro h
    have hmem : c ∈ text.drop pos := by
      by_contra hnot
      rw [findFrom_eq_none_iff.mpr hnot] at h
      exact Option.some_ne_none k h.symm
    obtain ⟨front, back, hsplit, hfront⟩ := List.eq_append_cons_of_mem hmem
    rw [findFrom, hsplit, idxOf?_append_cons hfront] at h
    exact ⟨front, back, hsplit, hfront, (Option.some.inj h).symm⟩
  · rintro ⟨front, back, hsplit, hfront, rfl⟩
    rw [findFrom, hsplit, idxOf?_append_cons hfront]
    rfl

/-- What is found is in the text, and not before the position. -/
theorem findFrom_bounds (h : findFrom text c pos = some k) : pos ≤ k ∧ k < text.length := by
  obtain ⟨front, back, hsplit, -, rfl⟩ := findFrom_eq_some_iff.mp h
  have hlength := congrArg List.length hsplit
  rw [List.length_drop, List.length_append, List.length_cons] at hlength
  omega

theorem findLast_eq_none (h : c ∉ text) : findLast text c = none := by
  rw [findLast, Option.map_eq_none_iff, List.idxOf?_eq_none_iff, List.mem_reverse]
  exact h

theorem findLast_append_cons {back : List α} (hback : c ∉ back) (front : List α) :
    findLast (front ++ c :: back) c = some front.length := by
  have hreverse : (front ++ c :: back).reverse = back.reverse ++ c :: front.reverse := by
    rw [List.reverse_append, List.reverse_cons, List.append_assoc, List.singleton_append]
  rw [findLast, hreverse, idxOf?_append_cons (by rwa [List.mem_reverse]), List.length_reverse,
    Option.map_some, List.length_append, List.length_cons]
  congr 1
  omega

end Find

end RdbLibs.TextPositions
