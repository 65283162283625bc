import RdbLibs.FileIO.FileUtils

/-!
# Info text files

`CRawAudioFileIO::parseInfoTextFile` and `CRawVideoFileIO::parseInfoTextFile` are one loop over the
lines of a text file. Each pass looks for the keywords of the file, one after the other, anywhere in
the line, and takes the value of the first one that it finds. The loops differ in their keywords and
in what they do with the values, so that a field of a file is a keyword with what follows it in the
body of the loop. A value is taken from behind the keyword, but a number is taken from the position
that is as far from the beginning of the line as the keyword is long.
-/

set_option autoImplicit false
set_option relaxedAutoImplicit false

namespace RdbLibs.FileIO

open TextSearch

variable {Info : Type}

/-- What the loop has: `bOut` and `info`. -/
structure Parsed (Info : Type) where
  bOut : Bool
  info : Info

/-- A keyword, and what a pass does with a line in which it stands at `pos`. Without a result the
pass ends the loop by `break`. -/
structure InfoField (Info : Type) where
  sSearchText : List Char
  takeValue (sInputText : List Char) (pos : ℕ) (parsed : Parsed Info) :
    Except TextFault (Option (Parsed Info))

/-- A number. -/
def numericField (sSearchText : List Char) (setValue : Info → ℤ → Info) : InfoField Info where
  sSearchText := sSearchText
  takeValue sInputText _ parsed := do
    let val ← getNumericStringAt sInputText sSearchText.length
    if val < 0 then return none
    return some ⟨true, setValue parsed.info val⟩

/-- The name of an integer type, which stands for its number of bits. -/
def typeField (sSearchText : List Char) (types : List (List Char × ℤ))
    (setValue : Info → ℤ → Info) : InfoField Info where
  sSearchText := sSearchText
  takeValue sInputText pos parsed :=
    let sTemp := sInputText.drop (pos + sSearchText.length)
    let sTemp := removeLeadingSpaces sTemp
    match types.lookup sTemp with
    | some bits => return some ⟨true, setValue parsed.info bits⟩
    | none => return some { parsed with bOut := false }

/-- A text. -/
def textField (sSearchText : List Char) (setValue : Info → List Char → Info) : InfoField Info where
  sSearchText := sSearchText
  takeValue sInputText pos parsed :=
    let sTemp := sInputText.drop (pos + sSearchText.length)
    let sTemp := removeLeadingSpaces sTemp
    return some ⟨true, setValue parsed.info sTemp⟩

/-- The body of the loop for a line that is not empty. -/
def parseFields : List (InfoField Info) → List Char → Parsed Info →
    Except TextFault (Option (Parsed Info))
  | [], _, parsed => return some parsed
  | field :: fields, sInputText, parsed =>
    match find sInputText field.sSearchText with
    | some pos => field.takeValue sInputText pos parsed
    | none => parseFields fields sInputText parsed

/-- The loop, over the lines that `std::getline` reads until the end of the file. -/
def parseLines (fields : List (InfoField Info)) :
    List (List Char) → Parsed Info → Except TextFault (Parsed Info)
  | [], parsed => return parsed
  | sInputText :: lines, parsed => do
    if sInputText.isEmpty then return ← parseLines fields lines parsed
    match ← parseFields fields sInputText parsed with
    | some next => parseLines fields lines next
    | none => return parsed

/-- `parseInfoTextFile` of a file with the given text, if it can be opened. `clear` is the value
that `info.clear()` leaves. -/
def parseInfoText (fields : List (InfoField Info)) (clear : Info) (sFile : Option (List Char))
    (info : Info) : Except TextFault (Parsed Info) :=
  match sFile with
  | none => return ⟨false, info⟩
  | some text => parseLines fields (text.splitOn '\n') ⟨false, clear⟩

/-- The lines of a file, each ended by a newline. -/
def textOfLines (lines : List (List Char)) : List Char := lines.flatMap fun line ↦ line ++ ['\n']

/-! ### Lines that were written -/

/-- The keywords tell the lines of a file apart: none has a space or a newline, all have a colon,
and none stands in a keyword that is looked for after it. -/
structure Distinguishes (fields : List (InfoField Info)) : Prop where
  space : ∀ field ∈ fields, ' ' ∉ field.sSearchText
  newline : ∀ field ∈ fields, '\n' ∉ field.sSearchText
  colon : ∀ field ∈ fields, ':' ∈ field.sSearchText
  apart : fields.Pairwise fun first second ↦ ¬first.sSearchText <:+: second.sSearchText

variable {fields : List (InfoField Info)} {field : InfoField Info} {parsed : Parsed Info}

/-- The keywords alone decide. -/
theorem distinguishes_of_searchTexts {searchTexts : List (List Char)}
    (htexts : fields.map InfoField.sSearchText = searchTexts)
    (hcharacters : searchTexts.all fun text ↦ ' ' ∉ text ∧ '\n' ∉ text ∧ ':' ∈ text)
    (hapart : searchTexts.Pairwise fun first second ↦ ¬first <:+: second) :
    Distinguishes fields := by
  subst htexts
  have hall (other : InfoField Info) (hother : other ∈ fields) : ' ' ∉ other.sSearchText ∧
      '\n' ∉ other.sSearchText ∧ ':' ∈ other.sSearchText :=
    of_decide_eq_true (List.all_eq_true.mp hcharacters _ (List.mem_map_of_mem hother))
  exact ⟨fun other hother ↦ (hall other hother).1, fun other hother ↦ (hall other hother).2.1,
    fun other hother ↦ (hall other hother).2.2, List.pairwise_map.mp hapart⟩

theorem Distinguishes.tail (h : Distinguishes (field :: fields)) : Distinguishes fields where
  space other hother := h.space other (List.mem_cons_of_mem _ hother)
  newline other hother := h.newline other (List.mem_cons_of_mem _ hother)
  colon other hother := h.colon other (List.mem_cons_of_mem _ hother)
  apart := (List.pairwise_cons.mp h.apart).2

/-- No keyword stands in a value without a colon. -/
theorem Distinguishes.absent (h : Distinguishes fields) {value : List Char}
    (hvalue : ':' ∉ value) : ∀ field ∈ fields, ¬field.sSearchText <:+: value :=
  fun field hfield hstands ↦ hvalue (List.IsInfix.subset hstands (h.colon field hfield))

/-- A line of a keyword, a space and a value in which no keyword stands is taken by the field of its
keyword. -/
theorem parseFields_line (h : Distinguishes fields) (hfield : field ∈ fields) {value : List Char}
    (hvalue : ∀ other ∈ fields, ¬other.sSearchText <:+: value) :
    parseFields fields (field.sSearchText ++ ' ' :: value) parsed =
      field.takeValue (field.sSearchText ++ ' ' :: value) 0 parsed := by
  induction fields with
  | nil => cases hfield
  | cons first fields ih =>
    rcases List.mem_cons.mp hfield with rfl | hlater
    · rw [parseFields, find_append]
    · have hapart := (List.pairwise_cons.mp h.apart).1 field hlater
      have hskip : ¬first.sSearchText <:+: field.sSearchText ++ ' ' :: value := by
        rw [infix_append_cons_iff (h.space first List.mem_cons_self)]
        exact not_or.mpr ⟨hapart, hvalue first List.mem_cons_self⟩
      rw [parseFields, find_eq_none hskip]
      exact ih h.tail hlater fun other hother ↦ hvalue other (List.mem_cons_of_mem _ hother)

/-- The loop takes such a line and goes on behind it. -/
theorem parseLines_line (h : Distinguishes fields) (hfield : field ∈ fields) {value : List Char}
    (hvalue : ∀ other ∈ fields, ¬other.sSearchText <:+: value) {next : Parsed Info}
    (htake : field.takeValue (field.sSearchText ++ ' ' :: value) 0 parsed = .ok (some next))
    (lines : List (List Char)) :
    parseLines fields ((field.sSearchText ++ ' ' :: value) :: lines) parsed =
      parseLines fields lines next := by
  have hempty : ¬(field.sSearchText ++ ' ' :: value).isEmpty = true := by simp
  rw [parseLines, if_neg hempty, parseFields_line h hfield hvalue, htake]
  rfl

theorem newline_not_mem_line (h : Distinguishes fields) (hfield : field ∈ fields)
    {value : List Char} (hvalue : '\n' ∉ value) : '\n' ∉ field.sSearchText ++ ' ' :: value := by
  have hkeyword := h.newline field hfield
  simp [hkeyword, hvalue]

/-- The lines that were written are the lines that are read, and an empty one. -/
theorem parseInfoText_lines {clear : Info} {lines : List (List Char)}
    (h : ∀ line ∈ lines, '\n' ∉ line) (info : Info) :
    parseInfoText fields clear (some (textOfLines lines)) info =
      parseLines fields (lines ++ [[]]) ⟨false, clear⟩ := by
  rw [parseInfoText, textOfLines, splitOn_lines h]

theorem takeValue_numericField (sSearchText : List Char) (setValue : Info → ℤ → Info)
    {n spaces : ℕ} (h : n < 2 ^ 31) (hspaces : spaces ≤ 1) :
    (numericField sSearchText setValue).takeValue
      (sSearchText ++ ' ' :: (Nat.toDigits 10 n ++ List.replicate spaces ' ')) 0 parsed =
        .ok (some ⟨true, setValue parsed.info n⟩) := by
  have hsign : ¬(n : ℤ) < 0 := Int.not_lt.mpr (Int.natCast_nonneg n)
  rw [numericField]
  dsimp only
  rw [getNumericStringAt_digits sSearchText h hspaces]
  show (if (n : ℤ) < 0 then Except.ok none
    else .ok (some (Parsed.mk true (setValue parsed.info n)))) = _
  rw [if_neg hsign]

section TypeField

variable {types : List (List Char × ℤ)} {value : List Char} (hvalue : value.head? ≠ some ' ')
include hvalue

theorem takeValue_typeField {bits : ℤ} (hlookup : types.lookup value = some bits)
    (sSearchText : List Char) (setValue : Info → ℤ → Info) :
    (typeField sSearchText types setValue).takeValue (sSearchText ++ ' ' :: value) 0 parsed =
      .ok (some ⟨true, setValue parsed.info bits⟩) := by
  rw [typeField]
  dsimp only
  rw [Nat.zero_add, List.drop_left, removeLeadingSpaces_of_head hvalue, hlookup]
  rfl

/-- A name that is not known changes the answer, and not the information. -/
theorem takeValue_typeField_unknown (hlookup : types.lookup value = none)
    (sSearchText : List Char) (setValue : Info → ℤ → Info) :
    (typeField sSearchText types setValue).takeValue (sSearchText ++ ' ' :: value) 0 parsed =
      .ok (some { parsed with bOut := false }) := by
  rw [typeField]
  dsimp only
  rw [Nat.zero_add, List.drop_left, removeLeadingSpaces_of_head hvalue, hlookup]
  rfl

end TypeField

theorem takeValue_textField (sSearchText : List Char) (setValue : Info → List Char → Info)
    {value : List Char} (hvalue : value.head? ≠ some ' ') :
    (textField sSearchText setValue).takeValue (sSearchText ++ ' ' :: value) 0 parsed =
      .ok (some ⟨true, setValue parsed.info value⟩) := by
  rw [textField]
  dsimp only
  rw [Nat.zero_add, List.drop_left, removeLeadingSpaces_of_head hvalue]
  rfl

/-! ### Lines with a number -/

section Number

variable (h : Distinguishes fields) {sSearchText : List Char} {setValue : Info → ℤ → Info}
  (hfield : numericField sSearchText setValue ∈ fields) (n spaces : ℕ)
include h hfield

theorem newline_not_mem_number :
    '\n' ∉ sSearchText ++ ' ' :: (Nat.toDigits 10 n ++ List.replicate spaces ' ') := by
  refine newline_not_mem_line h hfield ?_
  rw [List.mem_append, not_or]
  refine ⟨fun hmem ↦ absurd (isDigit_of_mem_digits hmem) (by decide), fun hmem ↦ ?_⟩
  exact absurd (List.eq_of_mem_replicate hmem) (by decide)

/-- A line with a number is taken, with or without a space behind the number. -/
theorem parseLines_number (hn : n < 2 ^ 31) (hspaces : spaces ≤ 1) (lines : List (List Char))
    (parsed : Parsed Info) :
    parseLines fields
        ((sSearchText ++ ' ' :: (Nat.toDigits 10 n ++ List.replicate spaces ' ')) :: lines) parsed =
      parseLines fields lines ⟨true, setValue parsed.info n⟩ := by
  have hcolon : ':' ∉ Nat.toDigits 10 n ++ List.replicate spaces ' ' := by
    rw [List.mem_append, not_or]
    refine ⟨fun hmem ↦ absurd (isDigit_of_mem_digits hmem) (by decide), fun hmem ↦ ?_⟩
    exact absurd (List.eq_of_mem_replicate hmem) (by decide)
  exact parseLines_line h hfield (h.absent hcolon)
    (takeValue_numericField sSearchText setValue hn hspaces) lines

end Number

end RdbLibs.FileIO
