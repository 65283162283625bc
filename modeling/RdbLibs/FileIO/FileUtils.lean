import Mathlib.Data.Nat.Digits.Defs
import RdbLibs.Foundations.MachineWord
import RdbLibs.Foundations.TextSearch
import RdbLibs.Foundations.Trimming

/-!
# Numbers in the lines of a text file

The functions of `Src/FileIO/FileUtils.h` that read a number from a line, and those of
`Src/String/StrUtils.h` and of the standard library that they and the writers of text files use.
`CRawAudioFileIO` has its own copy of `getNumericStringAt`, with the same body. `extension` is what
the classes use of `std::filesystem::path`.
-/

set_option autoImplicit false
set_option relaxedAutoImplicit false

namespace RdbLibs.FileIO

open MachineWord Trimming

/-- Why reading a number ends without a result: the last character of an empty text is taken, an
`int` overflows, or `std::stoi` throws. -/
inductive TextFault
  | emptyText
  | overflow
  | invalidArgument
  | outOfRange
deriving DecidableEq

/-- `std::filesystem::path::extension`: what the last component of a path has from its last dot on,
unless that is its first character. -/
def extension (filepath : List Char) : List Char :=
  let filename := filepath.rtakeWhile (· ≠ '/')
  let stem := filename.rdropWhile (· ≠ '.')
  if stem.length ≤ 1 ∨ filename = ['.', '.'] then [] else '.' :: filename.rtakeWhile (· ≠ '.')

/-- `StrUtils::tos` and `std::to_string` of an `int`. -/
def tos : ℤ → List Char
  | .ofNat n => Nat.toDigits 10 n
  | .negSucc n => '-' :: Nat.toDigits 10 (n + 1)

/-- `StrUtils::isNumeric`. -/
def isNumeric (sIn : List Char) : Bool := sIn.all Char.isDigit

/-- `std::stoi` of a text of digits. -/
def stoi (sIn : List Char) : Except TextFault ℤ :=
  if sIn.isEmpty then .error .invalidArgument
  else if Nat.ofDigitChars 10 sIn 0 < 2 ^ 31 then .ok (Nat.ofDigitChars 10 sIn 0)
  else .error .outOfRange

/-- `removeLeadingSpaces`. -/
def removeLeadingSpaces (sStr : List Char) : List Char := sStr.dropWhile (· == ' ')

/-- The loop of `removeTrailingSpaces`, over the characters that it goes back through. -/
def countBack : List Char → ℤ → Except TextFault ℤ
  | [], nLen => return nLen
  | ch :: rest, nLen =>
    if ch ≠ ' ' then return nLen
    else if nLen = -2 ^ 31 then .error .overflow
    else countBack rest (nLen - 1)

/-- `removeTrailingSpaces`. The loop goes from the last character back to the second one. It starts
at `end() - 1`, which an empty text does not have, and never looks at the first character. -/
def removeTrailingSpaces : List Char → Except TextFault (List Char)
  | [] => .error .emptyText
  | first :: rest => do
    let nLen ← countBack rest.reverse (toInt (first :: rest).length)
    return (first :: rest).take (intToSize nLen)

/-- `getNumericStringAt`. -/
def getNumericStringAt (sText : List Char) (pos : ℕ) : Except TextFault ℤ := do
  if sText.length ≤ pos then return -1
  let sTemp := sText.drop pos
  let sTemp := removeLeadingSpaces sTemp
  let sTemp ← removeTrailingSpaces sTemp
  if isNumeric sTemp = false then return -1
  stoi sTemp

/-! ### Numbers that were written -/

theorem isDigit_of_mem_digits {n : ℕ} {c : Char} (h : c ∈ Nat.toDigits 10 n) : c.isDigit :=
  Nat.isDigit_of_mem_toDigits (by decide) le_rfl h

theorem isNumeric_digits (n : ℕ) : isNumeric (Nat.toDigits 10 n) = true :=
  List.all_eq_true.mpr fun _ h ↦ isDigit_of_mem_digits h

theorem stoi_digits {n : ℕ} (h : n < 2 ^ 31) : stoi (Nat.toDigits 10 n) = .ok (n : ℤ) := by
  have hsome : (Nat.toDigits 10 n).isEmpty = false :=
    List.isEmpty_eq_false_iff.mpr Nat.toDigits_ne_nil
  rw [stoi, hsome, Nat.ofDigitChars_ten_toDigits, if_neg Bool.false_ne_true, if_pos h]

theorem space_not_mem_digits (n : ℕ) : ' ' ∉ Nat.toDigits 10 n := by
  intro h
  exact absurd (isDigit_of_mem_digits h) (by decide)

theorem removeLeadingSpaces_of_head {sStr : List Char} (h : sStr.head? ≠ some ' ') :
    removeLeadingSpaces (' ' :: sStr) = sStr := by
  show removeLeadingSpaces sStr = sStr
  cases sStr with
  | nil => rfl
  | cons first rest =>
    have hfirst : (first == ' ') = false := by simpa using h
    simp [removeLeadingSpaces, hfirst]

theorem rdropWhile_spaces {sStr : List Char} (h : ' ' ∉ sStr) (spaces : ℕ) :
    (sStr ++ List.replicate spaces ' ').rdropWhile (· == ' ') = sStr := by
  induction spaces with
  | zero =>
    rw [List.replicate_zero, List.append_nil, List.rdropWhile_eq_self_iff]
    intro hsome hlast
    exact h (eq_of_beq hlast ▸ List.getLast_mem hsome)
  | succ spaces ih =>
    rw [List.replicate_succ', ← List.append_assoc, List.rdropWhile_concat_pos _ _ _ rfl, ih]

/-- The loop counts the spaces that it meets, unless the count overflows. -/
theorem countBack_eq (rest : List Char) : ∀ nLen : ℤ, -2 ^ 31 ≤ nLen →
    countBack rest nLen =
      if -2 ^ 31 ≤ nLen - (rest.takeWhile (· == ' ')).length then
        .ok (nLen - (rest.takeWhile (· == ' ')).length)
      else .error .overflow := by
  induction rest with
  | nil =>
    intro nLen hlow
    rw [List.takeWhile_nil, List.length_nil, Int.natCast_zero, Int.sub_zero, if_pos hlow]
    rfl
  | cons ch rest ih =>
    intro nLen hlow
    rw [countBack]
    by_cases hch : ch = ' '
    · have htake : (ch :: rest).takeWhile (· == ' ') = ch :: rest.takeWhile (· == ' ') :=
        List.takeWhile_cons_of_pos (beq_iff_eq.mpr hch)
      rw [if_neg (not_not.mpr hch), htake, List.length_cons, Int.natCast_succ]
      by_cases hend : nLen = -2 ^ 31
      · rw [if_pos hend, if_neg (by omega)]
      · rw [if_neg hend, ih _ (by omega)]
        have hsame : nLen - 1 - ((rest.takeWhile (· == ' ')).length : ℤ) =
            nLen - ((rest.takeWhile (· == ' ')).length + 1) := by omega
        rw [hsame]
    · have htake : (ch :: rest).takeWhile (· == ' ') = [] :=
        List.takeWhile_cons_of_neg fun h ↦ hch (beq_iff_eq.mp h)
      rw [if_pos hch, htake, List.length_nil, Int.natCast_zero, Int.sub_zero, if_pos hlow]
      rfl

/-- What is left of a text that an `int` can count. -/
theorem removeTrailingSpaces_of_lt {first : Char} {rest : List Char}
    (h : (first :: rest).length < 2 ^ 31) :
    removeTrailingSpaces (first :: rest) = .ok (first :: rest.rdropWhile (· == ' ')) := by
  have hle := (List.takeWhile_prefix (· == ' ') (l := rest.reverse)).length_le
  have hlength : (first :: rest).length = rest.length + 1 := List.length_cons
  rw [List.length_reverse] at hle
  rw [removeTrailingSpaces, toInt_of_lt h, countBack_eq _ _ (by omega), if_pos (by omega)]
  have hsize : intToSize (((first :: rest).length : ℤ) -
      (rest.reverse.takeWhile (· == ' ')).length) =
        rest.length - (rest.reverse.takeWhile (· == ' ')).length + 1 := by
    rw [intToSize]
    omega
  show Except.ok ((first :: rest).take _) = _
  rw [hsize, List.take_succ_cons, take_length_sub_takeWhile]

/-- The spaces behind a number are dropped. -/
theorem removeTrailingSpaces_digits {n spaces : ℕ} (h : n < 2 ^ 31) (hspaces : spaces ≤ 1) :
    removeTrailingSpaces (Nat.toDigits 10 n ++ List.replicate spaces ' ') =
      .ok (Nat.toDigits 10 n) := by
  have hspace := space_not_mem_digits n
  have hcount : (Nat.toDigits 10 n).length ≤ 10 :=
    Nat.toDigits_length 10 n 10 (by decide) (by omega)
  cases hdigits : Nat.toDigits 10 n with
  | nil => exact absurd hdigits Nat.toDigits_ne_nil
  | cons first rest =>
    rw [hdigits] at hspace hcount
    rw [List.length_cons] at hcount
    rw [List.cons_append, removeTrailingSpaces_of_lt,
      rdropWhile_spaces (List.not_mem_of_not_mem_cons hspace)]
    rw [List.length_cons, List.length_append, List.length_replicate]
    omega

/-- A number that follows a keyword and a space is read. -/
theorem getNumericStringAt_digits (sSearchText : List Char) {n spaces : ℕ} (h : n < 2 ^ 31)
    (hspaces : spaces ≤ 1) :
    getNumericStringAt (sSearchText ++ ' ' :: (Nat.toDigits 10 n ++ List.replicate spaces ' '))
      sSearchText.length = .ok (n : ℤ) := by
  have hhead : (Nat.toDigits 10 n ++ List.replicate spaces ' ').head? ≠ some ' ' := by
    rw [List.head?_append_of_ne_nil _ Nat.toDigits_ne_nil]
    exact fun hhead ↦ space_not_mem_digits n (List.mem_of_mem_head? hhead)
  have hinside : ¬(sSearchText ++
      ' ' :: (Nat.toDigits 10 n ++ List.replicate spaces ' ')).length ≤ sSearchText.length := by
    simp
  rw [getNumericStringAt, if_neg hinside, List.drop_left]
  dsimp only
  rw [removeLeadingSpaces_of_head hhead, removeTrailingSpaces_digits h hspaces]
  show (if isNumeric (Nat.toDigits 10 n) = false then pure (-1) else stoi (Nat.toDigits 10 n)) = _
  rw [isNumeric_digits, if_neg Bool.noConfusion, stoi_digits h]

end RdbLibs.FileIO
