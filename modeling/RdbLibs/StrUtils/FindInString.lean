import RdbLibs.Foundations.MachineWord
import RdbLibs.Foundations.TextSearch

/-!
# `findInString`

`findInString` and `toLower` of `Src/String/StrUtils.h`. Where letter case is to be ignored, the
texts that are searched are copies in lower case, without the characters that `toLower` leaves out:
those that are not printable, and the negative ones, here those from 128 on. The position that is
returned is one in the copy (`findsPosition_iff`), as an `int`.
-/

set_option autoImplicit false
set_option relaxedAutoImplicit false

namespace RdbLibs.StrUtils

open MachineWord TextSearch

/-- `std::isprint` in the C locale. -/
def isprint (ch : Char) : Bool := decide (32 ≤ ch.toNat ∧ ch.toNat < 127)

/-- One pass of the loop of `toLower`: the character that is added, unless it is left out. -/
def lowerChar (bFilterNonPrintable : Bool) (ch : Char) : Option Char :=
  if 128 ≤ ch.toNat then none
  else if bFilterNonPrintable = true ∧ isprint ch = false then none
  else if ch.isAlpha then some ch.toLower
  else some ch

/-- `StrUtils::toLower`. -/
def toLower (sIn : List Char) (bFilterNonPrintable : Bool) : List Char :=
  sIn.filterMap (lowerChar bFilterNonPrintable)

/-- `StrUtils::findInString`. -/
def findInString (sStr1 sStr2 : List Char) (bCaseSensative : Bool) : ℤ :=
  if bCaseSensative = false then
    let sTestValue := toLower sStr2 true
    let sTestString := toLower sStr1 true
    match find sTestString sTestValue with
    | some foundAt => toInt foundAt
    | none => -1
  else
    match find sStr1 sStr2 with
    | some foundAt => toInt foundAt
    | none => -1

/-- A text as it is compared: where letter case is ignored, all its letters are lower case. -/
def caseFolded (bCaseSensative : Bool) (text : List Char) : List Char :=
  if bCaseSensative then text else text.map Char.toLower

/-- The copy of a text that is searched. -/
def searched (bCaseSensative : Bool) (text : List Char) : List Char :=
  if bCaseSensative then text else toLower text true

/-- A character that the copy of a text has. -/
def isSearched (bCaseSensative : Bool) (ch : Char) : Bool := bCaseSensative || isprint ch

/-- A position that is returned is the first one at which the second text stands in the first one,
and it stands nowhere if the answer is `-1`. -/
def FindsPosition (sStr1 sStr2 : List Char) (bCaseSensative : Bool) : Prop :=
  (∀ k : ℕ, findInString sStr1 sStr2 bCaseSensative = k →
    FirstAt (caseFolded bCaseSensative sStr1) (caseFolded bCaseSensative sStr2) k) ∧
  (findInString sStr1 sStr2 bCaseSensative = -1 →
    ∀ k, ¬StandsAt (caseFolded bCaseSensative sStr1) (caseFolded bCaseSensative sStr2) k)

/-! ### The copies -/

theorem lowerChar_eq (ch : Char) :
    lowerChar true ch = if isprint ch.toLower then some ch.toLower else none := by
  have hall : ∀ n : Fin 128, lowerChar true (Char.ofNat n) =
      if isprint (Char.ofNat n).toLower then some (Char.ofNat n).toLower else none := by decide
  rcases Nat.lt_or_ge ch.toNat 128 with hlow | hhigh
  · have hch := hall ⟨ch.toNat, hlow⟩
    rwa [Char.ofNat_toNat] at hch
  · have hsame : ch.toLower = ch := by
      refine dif_neg fun hupper ↦ ?_
      have hnat : ch.toNat ≤ 90 := hupper.2
      omega
    have hnot : isprint ch = false := decide_eq_false fun hprint ↦ by omega
    rw [lowerChar, if_pos hhigh, hsame, hnot, if_neg Bool.false_ne_true]

/-- A copy is the text in lower case without the characters that it leaves out. -/
theorem searched_eq (bCaseSensative : Bool) (text : List Char) :
    searched bCaseSensative text =
      (caseFolded bCaseSensative text).filter (isSearched bCaseSensative) := by
  cases bCaseSensative with
  | true => exact (List.filter_eq_self.mpr fun _ _ ↦ rfl).symm
  | false =>
    show text.filterMap (lowerChar true) = (text.map Char.toLower).filter isprint
    rw [← List.filterMap_eq_filter, List.filterMap_map]
    refine congrArg (fun f ↦ text.filterMap f) (funext fun ch ↦ ?_)
    rw [lowerChar_eq, Function.comp_apply, Option.guard]

theorem findInString_eq (sStr1 sStr2 : List Char) (bCaseSensative : Bool) :
    findInString sStr1 sStr2 bCaseSensative =
      match find (searched bCaseSensative sStr1) (searched bCaseSensative sStr2) with
      | some foundAt => toInt foundAt
      | none => -1 := by
  cases bCaseSensative <;> rfl

/-- The position of a copy in a copy, as an `int`. -/
theorem findInString_of_firstAt {sStr1 sStr2 : List Char} {bCaseSensative : Bool} {r : ℕ}
    (h : FirstAt (searched bCaseSensative sStr1) (searched bCaseSensative sStr2) r) :
    findInString sStr1 sStr2 bCaseSensative = toInt r := by
  rw [findInString_eq, find_eq_some_iff.mpr h]

/-! ### The positions -/

/-- The copy of the second text stands nowhere in the copy of the first one; or the second text
itself stands in the first one, at a position that `int` has, before which no character is left out
and before which the copies do not meet; or the first position in the copies is one that `int` has
not, as which it is below `-1`, or is `-1` where the text does not stand anywhere. -/
def KeepsPosition (sStr1 sStr2 : List Char) (bCaseSensative : Bool) : Prop :=
  (∀ r, ¬StandsAt (searched bCaseSensative sStr1) (searched bCaseSensative sStr2) r) ∨
  (∃ p < 2 ^ 31, StandsAt (caseFolded bCaseSensative sStr1) (caseFolded bCaseSensative sStr2) p ∧
    (∀ ch ∈ (caseFolded bCaseSensative sStr1).take p, isSearched bCaseSensative ch = true) ∧
    ∀ j < p, ¬StandsAt (searched bCaseSensative sStr1) (searched bCaseSensative sStr2) j) ∨
  ∃ r, 2 ^ 31 ≤ r % 2 ^ 32 ∧
    FirstAt (searched bCaseSensative sStr1) (searched bCaseSensative sStr2) r ∧
    (r % 2 ^ 32 = 2 ^ 32 - 1 →
      ∀ j, ¬StandsAt (caseFolded bCaseSensative sStr1) (caseFolded bCaseSensative sStr2) j)

section Found

variable {sStr1 sStr2 : List Char} {bCaseSensative : Bool} {r : ℕ}

/-- With a first position in the copies, the condition is that the text stands there itself, or that
`int` has not the position. -/
theorem keepsPosition_iff_of_firstAt
    (hfirst : FirstAt (searched bCaseSensative sStr1) (searched bCaseSensative sStr2) r) :
    KeepsPosition sStr1 sStr2 bCaseSensative ↔
      r < 2 ^ 31 ∧
        StandsAt (caseFolded bCaseSensative sStr1) (caseFolded bCaseSensative sStr2) r ∨
      2 ^ 31 ≤ r % 2 ^ 32 ∧ (r % 2 ^ 32 = 2 ^ 32 - 1 →
        ∀ j, ¬StandsAt (caseFolded bCaseSensative sStr1) (caseFolded bCaseSensative sStr2) j) := by
  unfold KeepsPosition
  rw [searched_eq, searched_eq] at hfirst ⊢
  constructor
  · rintro (hnowhere | ⟨p, hp, hstands, hkept, hleast⟩ | ⟨r', hlarge, hr', hlast⟩)
    · exact absurd hfirst.1 (hnowhere r)
    · obtain rfl := (hstands.firstAt_filter hkept hleast).unique hfirst
      exact .inl ⟨hp, hstands⟩
    · obtain rfl := hr'.unique hfirst
      exact .inr ⟨hlarge, hlast⟩
  · rintro (⟨hp, hstands⟩ | ⟨hlarge, hlast⟩)
    · refine .inr (.inl ⟨r, hp, hstands, (hfirst.of_filter hstands).2, fun j hlt hj ↦ ?_⟩)
      exact Nat.not_le.mpr hlt (hfirst.2 j hj)
    · exact .inr (.inr ⟨r, hlarge, hfirst, hlast⟩)

/-- What is returned is what the text asks for under the same condition. -/
theorem findsPosition_iff_of_firstAt
    (hfirst : FirstAt (searched bCaseSensative sStr1) (searched bCaseSensative sStr2) r) :
    FindsPosition sStr1 sStr2 bCaseSensative ↔
      r < 2 ^ 31 ∧
        StandsAt (caseFolded bCaseSensative sStr1) (caseFolded bCaseSensative sStr2) r ∨
      2 ^ 31 ≤ r % 2 ^ 32 ∧ (r % 2 ^ 32 = 2 ^ 32 - 1 →
        ∀ j, ¬StandsAt (caseFolded bCaseSensative sStr1) (caseFolded bCaseSensative sStr2) j) := by
  unfold FindsPosition
  rw [findInString_of_firstAt hfirst]
  rw [searched_eq, searched_eq] at hfirst
  rcases Nat.lt_or_ge (r % 2 ^ 32) (2 ^ 31) with hsmall | hlarge
  · have hint : toInt r = (r % 2 ^ 32 : ℕ) := if_pos hsmall
    rw [hint]
    constructor
    · rintro ⟨hposition, -⟩
      have hstands := (hposition _ rfl).1
      have hle := hfirst.le_of_filter hstands
      have hsame : r % 2 ^ 32 = r := Nat.le_antisymm (Nat.mod_le _ _) hle
      rw [hsame] at hstands hsmall
      exact .inl ⟨hsmall, hstands⟩
    · rintro (⟨hr, hstands⟩ | ⟨hlarge, -⟩)
      · refine ⟨fun k hk ↦ ?_, fun hneg ↦ by omega⟩
        obtain rfl : r = k := by omega
        exact (hfirst.of_filter hstands).1
      · omega
  · have hint : toInt r = (r % 2 ^ 32 : ℕ) - 2 ^ 32 := if_neg (Nat.not_lt.mpr hlarge)
    rw [hint]
    constructor
    · rintro ⟨-, hnowhere⟩
      exact .inr ⟨hlarge, fun hlast ↦ hnowhere (by omega)⟩
    · rintro (⟨hr, -⟩ | ⟨-, hlast⟩)
      · omega
      · exact ⟨fun k hk ↦ by omega, fun hneg ↦ hlast (by omega)⟩

end Found

/-- `findInString` finds positions of the text that it was given exactly when the copies keep the
position. -/
theorem findsPosition_iff (sStr1 sStr2 : List Char) (bCaseSensative : Bool) :
    FindsPosition sStr1 sStr2 bCaseSensative ↔ KeepsPosition sStr1 sStr2 bCaseSensative := by
  cases hfind : find (searched bCaseSensative sStr1) (searched bCaseSensative sStr2) with
  | none =>
    have hnowhere := not_standsAt_of_find hfind
    refine iff_of_true ⟨fun k hk ↦ ?_, fun _ k hk ↦ ?_⟩ (.inl hnowhere)
    · rw [findInString_eq, hfind] at hk
      have hneg : (-1 : ℤ) = k := hk
      omega
    · rw [searched_eq, searched_eq] at hnowhere
      exact hnowhere _ hk.filter
  | some r =>
    have hfirst := find_eq_some_iff.mp hfind
    exact (findsPosition_iff_of_firstAt hfirst).trans (keepsPosition_iff_of_firstAt hfirst).symm

/-- The text `abc` stands at position 1 behind a tab, and is found at position 0. -/
theorem tab_moves_position :
    findInString ['\t', 'a', 'b', 'c'] ['a', 'b', 'c'] false = 0 ∧
      ¬FindsPosition ['\t', 'a', 'b', 'c'] ['a', 'b', 'c'] false := by
  have hzero : findInString ['\t', 'a', 'b', 'c'] ['a', 'b', 'c'] false = 0 := by decide
  refine ⟨hzero, fun h ↦ ?_⟩
  exact absurd (h.1 0 hzero).1.2 (by decide)

end RdbLibs.StrUtils
