import RdbLibs.FileIO.FileUtils
import RdbLibs.Foundations.CheckedMemory

/-!
# Numbers that are read from any text

`getNumericStringAt` reads a number from what is behind a position of a text, without the spaces
around it. It takes the last character of that before it looks whether there is one, so that a text
of spaces alone ends in an undefined access; and `std::stoi` throws for a number that is no `int`,
which nothing catches (`readsNumber_iff_of_lt`). The length of the text is an `int` between the
removal of the leading spaces and that of the trailing ones, so that from `2 ^ 31` characters on
another part of the text may be kept (`readsNumber_iff`).
-/

set_option autoImplicit false
set_option relaxedAutoImplicit false

namespace RdbLibs.FileIO

open MachineWord Trimming

/-- `CRawAudioFileIO::getNumericStringAt`, which has the same body. -/
def CRawAudioFileIO.getNumericStringAt (sText : List Char) (pos : ℕ) : Except TextFault ℤ :=
  FileIO.getNumericStringAt sText pos

/-- A text without the spaces around it. -/
def stripSpaces (sText : List Char) : List Char :=
  (sText.dropWhile (· == ' ')).rdropWhile (· == ' ')

/-- The number that a text is, if it is one that `int` has. -/
def numberIn (sText : List Char) : Option ℕ :=
  if sText ≠ [] ∧ isNumeric sText = true ∧ Nat.ofDigitChars 10 sText 0 < 2 ^ 31 then
    some (Nat.ofDigitChars 10 sText 0)
  else none

/-- The answer for a text: the number that it is, or `-1`. -/
def answerFor (sText : List Char) : ℤ := (numberIn sText).elim (-1) fun n ↦ (n : ℤ)

/-- Both functions answer for what is behind the position, without the spaces around it. -/
def ReadsNumber (sText : List Char) (pos : ℕ) : Prop :=
  getNumericStringAt sText pos = .ok (answerFor (stripSpaces (sText.drop pos))) ∧
    CRawAudioFileIO.getNumericStringAt sText pos = .ok (answerFor (stripSpaces (sText.drop pos)))

/-- The spaces that the loop of `removeTrailingSpaces` counts. -/
def trailingSpaces (sStr : List Char) : ℕ := (sStr.tail.reverse.takeWhile (· == ' ')).length

/-- What `removeTrailingSpaces` keeps of a text. -/
def keptText (sStr : List Char) : List Char :=
  sStr.take (intToSize (toInt sStr.length - trailingSpaces sStr))

/-! ### The number in a text -/

variable {sText : List Char}

theorem answerFor_inj {first second : List Char} :
    answerFor first = answerFor second ↔ numberIn first = numberIn second := by
  unfold answerFor
  cases numberIn first <;> cases numberIn second <;> simp

theorem numberIn_of_not_isNumeric (h : isNumeric sText = false) : numberIn sText = none :=
  if_neg fun hall ↦ Bool.false_ne_true (h.symm.trans hall.2.1)

/-- The last steps of `getNumericStringAt` answer for a text, unless it has digits alone and is not
the number of an `int`. -/
theorem number_eq_ok_iff {answer : ℤ} :
    (if isNumeric sText = false then pure (-1) else stoi sText) = Except.ok answer ↔
      (isNumeric sText = true → (numberIn sText).isSome = true) ∧ answerFor sText = answer := by
  cases hnumeric : isNumeric sText with
  | false =>
    rw [if_pos rfl, answerFor, numberIn_of_not_isNumeric hnumeric]
    exact ⟨fun h ↦ ⟨fun hyes ↦ absurd hyes Bool.false_ne_true, Except.ok.inj h⟩,
      fun h ↦ congrArg Except.ok h.2⟩
  | true =>
    rw [if_neg Bool.noConfusion, imp_iff_right rfl, stoi, answerFor, numberIn, hnumeric]
    by_cases hempty : sText = []
    · rw [hempty]
      exact iff_of_false (by rintro ⟨⟩) fun h ↦ Bool.false_ne_true h.1
    rw [List.isEmpty_eq_false_iff.mpr hempty, if_neg Bool.false_ne_true]
    by_cases hlarge : Nat.ofDigitChars 10 sText 0 < 2 ^ 31
    · rw [if_pos hlarge, if_pos ⟨hempty, rfl, hlarge⟩]
      exact ⟨fun h ↦ ⟨rfl, Except.ok.inj h⟩, fun h ↦ congrArg Except.ok h.2⟩
    · rw [if_neg hlarge, if_neg fun hall ↦ hlarge hall.2.2]
      exact iff_of_false (by rintro ⟨⟩) fun h ↦ Bool.false_ne_true h.1

/-! ### The text that is kept -/

theorem removeTrailingSpaces_eq {sStr : List Char} (hsome : sStr ≠ []) :
    removeTrailingSpaces sStr =
      if -2 ^ 31 ≤ toInt sStr.length - trailingSpaces sStr then .ok (keptText sStr)
      else .error .overflow := by
  cases sStr with
  | nil => exact absurd rfl hsome
  | cons first rest =>
    have hlow : -2 ^ 31 ≤ toInt (first :: rest).length := by
      unfold toInt
      split_ifs <;> omega
    rw [removeTrailingSpaces, countBack_eq _ _ hlow, trailingSpaces, List.tail_cons]
    split_ifs
    · rfl
    · rfl

/-- Of a text that an `int` can count, and that does not begin with a space, the trailing spaces are
removed. -/
theorem keptText_of_lt {first : Char} {rest : List Char} (hfirst : (first == ' ') = false)
    (hshort : (first :: rest).length < 2 ^ 31) :
    -2 ^ 31 ≤ toInt (first :: rest).length - trailingSpaces (first :: rest) ∧
      keptText (first :: rest) = (first :: rest).rdropWhile (· == ' ') := by
  have heq := removeTrailingSpaces_eq (List.cons_ne_nil first rest)
  rw [removeTrailingSpaces_of_lt hshort] at heq
  rw [rdropWhile_cons_of_neg (p := (· == ' ')) hfirst]
  split_ifs at heq with hcount
  exact ⟨hcount, (Except.ok.inj heq).symm⟩

/-! ### The functions -/

/-- The text behind the leading spaces is not empty, its trailing spaces can be counted, and what is
kept of it, which is no number too large for `int`, is the number that it should be. -/
def KeepsNumber (sTemp : List Char) : Prop :=
  sTemp ≠ [] ∧ -2 ^ 31 ≤ toInt sTemp.length - trailingSpaces sTemp ∧
    (isNumeric (keptText sTemp) = true → (numberIn (keptText sTemp)).isSome = true) ∧
    numberIn (keptText sTemp) = numberIn (sTemp.rdropWhile (· == ' '))

theorem getNumericStringAt_eq_ok_iff {pos : ℕ} (hpos : pos < sText.length) :
    getNumericStringAt sText pos = .ok (answerFor (stripSpaces (sText.drop pos))) ↔
      KeepsNumber (removeLeadingSpaces (sText.drop pos)) := by
  rw [getNumericStringAt, if_neg (Nat.not_le.mpr hpos)]
  unfold KeepsNumber stripSpaces removeLeadingSpaces
  dsimp only
  generalize (sText.drop pos).dropWhile (· == ' ') = sTemp
  by_cases hsome : sTemp = []
  · subst hsome
    exact iff_of_false (by rintro ⟨⟩) fun h ↦ h.1 rfl
  rw [removeTrailingSpaces_eq hsome, and_iff_right hsome]
  split_ifs with hcount
  · rw [and_iff_right hcount]
    refine number_eq_ok_iff.trans ?_
    rw [answerFor_inj]
  · exact iff_of_false (by rintro ⟨⟩) fun h ↦ hcount h.1

/-- Both functions read a number as they should exactly when there is nothing behind the position,
or what is kept of it is what it should be. Where an `int` can count the text, this is to say that
it has other characters than spaces and is no number too large for `int`. -/
theorem readsNumber_iff (sText : List Char) (pos : ℕ) :
    (ReadsNumber sText pos ↔
      sText.length ≤ pos ∨ KeepsNumber (removeLeadingSpaces (sText.drop pos))) ∧
    ((sText.drop pos).length < 2 ^ 31 → (ReadsNumber sText pos ↔
      sText.length ≤ pos ∨ stripSpaces (sText.drop pos) ≠ [] ∧
        (isNumeric (stripSpaces (sText.drop pos)) = true →
          Nat.ofDigitChars 10 (stripSpaces (sText.drop pos)) 0 < 2 ^ 31))) := by
  have hboth : ReadsNumber sText pos ↔
      getNumericStringAt sText pos = .ok (answerFor (stripSpaces (sText.drop pos))) :=
    and_self_iff
  have hgeneral : ReadsNumber sText pos ↔
      sText.length ≤ pos ∨ KeepsNumber (removeLeadingSpaces (sText.drop pos)) := by
    rw [hboth]
    rcases Nat.lt_or_ge pos sText.length with hinside | hbehind
    · rw [getNumericStringAt_eq_ok_iff hinside, or_iff_right (Nat.not_le.mpr hinside)]
    · rw [getNumericStringAt, if_pos hbehind, List.drop_of_length_le hbehind]
      exact iff_of_true rfl (.inl hbehind)
  refine ⟨hgeneral, fun hshort ↦ hgeneral.trans (or_congr_right ?_)⟩
  have hlength := (List.dropWhile_suffix (· == ' ') (l := sText.drop pos)).length_le
  unfold KeepsNumber stripSpaces removeLeadingSpaces
  cases htext : (sText.drop pos).dropWhile (· == ' ') with
  | nil => exact iff_of_false (fun h ↦ h.1 rfl) fun h ↦ h.1 rfl
  | cons first rest =>
    rw [htext] at hlength
    have hfirst : (first == ' ') = false := not_of_dropWhile_eq_cons (p := (· == ' ')) htext
    obtain ⟨hcount, hkept⟩ := keptText_of_lt hfirst (hlength.trans_lt hshort)
    have hsome : (first :: rest).rdropWhile (· == ' ') ≠ [] := by
      rw [rdropWhile_cons_of_neg (p := (· == ' ')) hfirst]
      exact List.cons_ne_nil _ _
    rw [hkept, and_iff_right (List.cons_ne_nil _ _), and_iff_right hcount,
      and_iff_left rfl, and_iff_right hsome]
    refine forall_congr' fun hnumeric ↦ ?_
    unfold numberIn
    split_ifs with hall
    · exact iff_of_true rfl hall.2.2
    · exact iff_of_false Bool.false_ne_true fun hsmall ↦ hall ⟨hsome, hnumeric, hsmall⟩

/-- Behind the position there are spaces alone, or the number `2147483648`. -/
theorem blank_and_large_are_not_read :
    getNumericStringAt ['a', ':', ' ', ' '] 2 = .error .emptyText ∧
      getNumericStringAt ['2', '1', '4', '7', '4', '8', '3', '6', '4', '8'] 0 =
        .error .outOfRange ∧
      ¬ReadsNumber ['a', ':', ' ', ' '] 2 := by
  refine ⟨rfl, rfl, fun h ↦ ?_⟩
  have hblank : getNumericStringAt ['a', ':', ' ', ' '] 2 = .error .emptyText := rfl
  rw [h.1] at hblank
  cases hblank

end RdbLibs.FileIO
