import Mathlib.Algebra.Group.Nat.Defs
import RdbLibs.Foundations.Trimming

/-!
# `removeLeadingSpaces` and `removeTrailingSpaces`

The functions of `Src/String/StrUtils.h`. Each counts the characters that it removes, from its end
of the text, in an `int`; there is no result where the count overflows. The two differ in the test
that leaves the loop when `bRemoveTabs` is set: `removeTrailingSpaces` leaves it at the first
whitespace character, and not at the first other one, so that it removes the last word of a text and
no space (`removeTrailingSpaces_of_removeTabs`).
-/

set_option autoImplicit false
set_option relaxedAutoImplicit false

namespace RdbLibs.StrUtils

open Trimming

/-- `std::isspace` in the C locale. -/
def isspace (ch : Char) : Bool := ch == ' ' || decide ('\t' ≤ ch ∧ ch ≤ '\r')

/-- The loop of both functions, from `x` on: `x` counts the characters before the first one at which
the loop is left. -/
def countUntil (leaves : Char → Bool) : List Char → ℕ → Option ℕ
  | [], x => some x
  | ch :: rest, x =>
    if leaves ch then some x
    else if x + 1 < 2 ^ 31 then countUntil leaves rest (x + 1)
    else none

/-- `StrUtils::removeLeadingSpaces`. -/
def removeLeadingSpaces (sIn : List Char) (bRemoveTabs : Bool) : Option (List Char) :=
  if sIn.isEmpty then some []
  else (countUntil (fun ch ↦ if bRemoveTabs = false then ch != ' ' else isspace ch == false)
    sIn 0).map fun x ↦ sIn.drop x

/-- `StrUtils::removeTrailingSpaces`. -/
def removeTrailingSpaces (sIn : List Char) (bRemoveTabs : Bool) : Option (List Char) :=
  if sIn.isEmpty then some []
  else (countUntil (fun ch ↦ if bRemoveTabs = false then ch != ' ' else isspace ch != false)
    sIn.reverse 0).map fun x ↦ sIn.take (sIn.length - x)

/-- The characters that are to be removed. -/
def isBlank (bRemoveTabs : Bool) (ch : Char) : Bool :=
  if bRemoveTabs = false then ch == ' ' else isspace ch

/-- Both functions remove the longest run of blanks at their end of the text, and the second is the
mirror image of the first. -/
def TrimsMirrored (sIn : List Char) (bRemoveTabs : Bool) : Prop :=
  ∃ leading trailing mirrored, removeLeadingSpaces sIn bRemoveTabs = some leading ∧
    removeTrailingSpaces sIn bRemoveTabs = some trailing ∧
    removeLeadingSpaces sIn.reverse bRemoveTabs = some mirrored ∧
    WithoutLeading (isBlank bRemoveTabs) sIn leading ∧
    WithoutTrailing (isBlank bRemoveTabs) sIn trailing ∧ trailing = mirrored.reverse

/-! ### The loops -/

variable {sIn : List Char}

/-- The loop counts the characters at which it goes on, if an `int` can count them. -/
theorem countUntil_eq (leaves : Char → Bool) (rest : List Char) : ∀ x < 2 ^ 31,
    countUntil leaves rest x =
      if x + (rest.takeWhile fun ch ↦ !leaves ch).length < 2 ^ 31 then
        some (x + (rest.takeWhile fun ch ↦ !leaves ch).length)
      else none := by
  induction rest with
  | nil =>
    intro x hx
    exact (if_pos hx).symm
  | cons ch rest ih =>
    intro x hx
    rw [countUntil]
    cases hch : leaves ch with
    | true =>
      have htake : (ch :: rest).takeWhile (fun ch ↦ !leaves ch) = [] :=
        List.takeWhile_cons_of_neg (by simp [hch])
      rw [if_pos rfl, htake, List.length_nil, Nat.add_zero, if_pos hx]
    | false =>
      have htake : (ch :: rest).takeWhile (fun ch ↦ !leaves ch) =
          ch :: rest.takeWhile fun ch ↦ !leaves ch :=
        List.takeWhile_cons_of_pos (by simp [hch])
      rw [if_neg Bool.false_ne_true, htake, List.length_cons, ← Nat.add_assoc, Nat.add_right_comm]
      split_ifs with hnext hcount hcount
      · rw [ih _ hnext, if_pos hcount]
      · rw [ih _ hnext, if_neg hcount]
      · omega
      · rfl

theorem removeLeadingSpaces_eq (sIn : List Char) (bRemoveTabs : Bool) :
    removeLeadingSpaces sIn bRemoveTabs =
      if (sIn.takeWhile (isBlank bRemoveTabs)).length < 2 ^ 31 then
        some (sIn.dropWhile (isBlank bRemoveTabs))
      else none := by
  have hgoes : (fun ch ↦ !(if bRemoveTabs = false then ch != ' ' else isspace ch == false)) =
      isBlank bRemoveTabs := by
    ext ch
    cases bRemoveTabs with
    | false => simp [isBlank, bne]
    | true => simp [isBlank]
  cases sIn with
  | nil => rfl
  | cons ch rest =>
    rw [removeLeadingSpaces, List.isEmpty_cons, if_neg Bool.false_ne_true,
      countUntil_eq _ _ _ (Nat.two_pow_pos 31), hgoes, Nat.zero_add]
    split_ifs
    · rw [Option.map_some, drop_length_takeWhile]
    · rfl

/-- The characters that `removeTrailingSpaces` goes on at. -/
def isRemovedBehind (bRemoveTabs : Bool) (ch : Char) : Bool :=
  if bRemoveTabs = false then ch == ' ' else !isspace ch

theorem removeTrailingSpaces_eq (sIn : List Char) (bRemoveTabs : Bool) :
    removeTrailingSpaces sIn bRemoveTabs =
      if (sIn.reverse.takeWhile (isRemovedBehind bRemoveTabs)).length < 2 ^ 31 then
        some (sIn.rdropWhile (isRemovedBehind bRemoveTabs))
      else none := by
  have hgoes : (fun ch ↦ !(if bRemoveTabs = false then ch != ' ' else isspace ch != false)) =
      isRemovedBehind bRemoveTabs := by
    ext ch
    cases bRemoveTabs with
    | false => simp [isRemovedBehind, bne]
    | true => simp [isRemovedBehind]
  cases sIn with
  | nil => rfl
  | cons ch rest =>
    rw [removeTrailingSpaces, List.isEmpty_cons, if_neg Bool.false_ne_true,
      countUntil_eq _ _ _ (Nat.two_pow_pos 31), hgoes, Nat.zero_add]
    split_ifs
    · rw [Option.map_some, take_length_sub_takeWhile]
    · rfl

/-! ### Both functions -/

/-- With `bRemoveTabs` the last character decides: a blank is kept, and anything else is removed. -/
theorem rdropWhile_ne (hsome : sIn ≠ []) :
    sIn.rdropWhile (isRemovedBehind true) ≠ sIn.rdropWhile (isBlank true) := by
  obtain ⟨front, last, rfl⟩ := List.eq_nil_or_concat' sIn |>.resolve_left hsome
  have hshorter {p : Char → Bool} : (front.rdropWhile p).length < (front ++ [last]).length := by
    have hle := (List.rdropWhile_prefix p (l := front)).length_le
    rw [List.length_append, List.length_singleton]
    omega
  cases hlast : isspace last with
  | true =>
    rw [List.rdropWhile_concat_neg _ _ _ (by simp [isRemovedBehind, hlast]),
      List.rdropWhile_concat_pos _ _ _ (by simp [isBlank, hlast])]
    exact fun heq ↦ Nat.lt_irrefl _ (heq ▸ hshorter (p := isBlank true))
  | false =>
    rw [List.rdropWhile_concat_pos _ _ _ (by simp [isRemovedBehind, hlast]),
      List.rdropWhile_concat_neg _ _ _ (by simp [isBlank, hlast])]
    exact fun heq ↦ Nat.lt_irrefl _ (heq ▸ hshorter (p := isRemovedBehind true))

/-- Both functions trim a text as they should exactly when it is empty, or spaces alone are to be
removed and an `int` can count them at either end. -/
theorem trimsMirrored_iff (sIn : List Char) (bRemoveTabs : Bool) :
    TrimsMirrored sIn bRemoveTabs ↔ sIn = [] ∨ bRemoveTabs = false ∧
      (sIn.takeWhile (· == ' ')).length < 2 ^ 31 ∧
        (sIn.reverse.takeWhile (· == ' ')).length < 2 ^ 31 := by
  by_cases hempty : sIn = []
  · subst hempty
    refine iff_of_true ⟨[], [], [], rfl, rfl, rfl, ?_, ?_, rfl⟩ (.inl rfl)
    · exact withoutLeading_iff.mpr rfl
    · exact withoutTrailing_iff.mpr rfl
  rw [or_iff_right hempty]
  unfold TrimsMirrored
  simp only [withoutLeading_iff, withoutTrailing_iff]
  rw [removeLeadingSpaces_eq, removeLeadingSpaces_eq, removeTrailingSpaces_eq]
  cases bRemoveTabs with
  | true =>
    refine iff_of_false ?_ fun h ↦ Bool.noConfusion h.1
    rintro ⟨leading, trailing, mirrored, -, htrailing, -, -, hright, -⟩
    split_ifs at htrailing
    exact rdropWhile_ne hempty ((Option.some.inj htrailing).trans hright)
  | false =>
    constructor
    · rintro ⟨leading, trailing, mirrored, hleading, htrailing, -⟩
      split_ifs at hleading htrailing with hfront hback
      exact ⟨rfl, hfront, hback⟩
    · rintro ⟨-, hfront, hback⟩
      exact ⟨_, _, _, if_pos hfront, if_pos hback, if_pos hback, rfl, rfl, rfl⟩

/-- With `bRemoveTabs` the text `ab` loses its characters, and the text `ab ` keeps its space. -/
theorem trailing_word_is_removed :
    removeTrailingSpaces ['a', 'b'] true = some [] ∧
      removeTrailingSpaces ['a', 'b', ' '] true = some ['a', 'b', ' '] ∧
      ¬TrimsMirrored ['a', 'b', ' '] true := by
  refine ⟨rfl, rfl, ?_⟩
  rintro ⟨leading, trailing, mirrored, -, htrailing, -, -, hright, -⟩
  obtain rfl := Option.some.inj htrailing
  exact absurd (withoutTrailing_iff.mp hright) (by decide)

end RdbLibs.StrUtils
