import RdbLibs.FileIO.InfoText

/-!
# The info file of a raw video file

`CRawVideoFileIO::writeInfoTextFile` writes one line for each field of the format, and
`parseInfoTextFile` reads them back. The keywords have no space and each line has a space behind its
keyword, so that no keyword reaches from one into the value. None stands in another, and all contain
a colon, which no number and no type name contains. That leaves the FourCC text.
-/

set_option autoImplicit false
set_option relaxedAutoImplicit false

namespace RdbLibs.FileIO.CRawVideoFileIO

open TextSearch

/-- `CRawVideoFileIO::SVideoFormatInfo`. -/
structure SVideoFormatInfo where
  width : ℤ
  height : ℤ
  bitsPerPixel : ℤ
  frameRate : ℤ
  sFourCC : List Char
deriving DecidableEq

/-- `SVideoFormatInfo::clear`. -/
def SVideoFormatInfo.cleared : SVideoFormatInfo where
  width := 0
  height := 0
  bitsPerPixel := 0
  frameRate := 0
  sFourCC := []

def frameWidthText : List Char := ['F', 'r', 'a', 'm', 'e', 'W', 'i', 'd', 't', 'h', ':']

def frameHeightText : List Char := ['F', 'r', 'a', 'm', 'e', 'H', 'e', 'i', 'g', 'h', 't', ':']

def frameRateText : List Char := ['F', 'r', 'a', 'm', 'e', 'R', 'a', 't', 'e', ':']

def pixelSizeText : List Char := ['P', 'i', 'x', 'e', 'l', 'S', 'i', 'z', 'e', ':']

def fourCCText : List Char := ['F', 'o', 'u', 'r', 'C', 'C', ':']

/-- The comparisons of `parseInfoTextFile` with the name of a type. -/
def pixelTypes : List (List Char × ℤ) :=
  [(['i', 'n', 't', '8', '_', 't'], 8), (['i', 'n', 't', '1', '6', '_', 't'], 16),
    (['i', 'n', 't', '2', '4', '_', 't'], 24), (['i', 'n', 't', '3', '2', '_', 't'], 32),
    (['i', 'n', 't', '4', '8', '_', 't'], 48)]

/-- What `parseInfoTextFile` looks for, in this order. -/
def infoFields : List (InfoField SVideoFormatInfo) :=
  [numericField frameWidthText fun info val ↦ { info with width := val },
    numericField frameHeightText fun info val ↦ { info with height := val },
    numericField frameRateText fun info val ↦ { info with frameRate := val },
    typeField pixelSizeText pixelTypes fun info bits ↦ { info with bitsPerPixel := bits },
    textField fourCCText fun info sTemp ↦ { info with sFourCC := sTemp }]

/-- `CRawVideoFileIO::parseInfoTextFile`. -/
def parseInfoTextFile (sFile : Option (List Char)) (info : SVideoFormatInfo) :
    Except TextFault (Parsed SVideoFormatInfo) :=
  parseInfoText infoFields .cleared sFile info

/-- The `switch` of `writeInfoTextFile`. -/
def sizeText (bitsPerPixel : ℤ) : Option (List Char) :=
  if bitsPerPixel = 8 then some ['i', 'n', 't', '8', '_', 't']
  else if bitsPerPixel = 16 then some ['i', 'n', 't', '1', '6', '_', 't']
  else if bitsPerPixel = 24 then some ['i', 'n', 't', '2', '4', '_', 't']
  else if bitsPerPixel = 32 then some ['i', 'n', 't', '3', '2', '_', 't']
  else if bitsPerPixel = 48 then some ['i', 'n', 't', '4', '8', '_', 't']
  else none

/-- `CRawVideoFileIO::writeInfoTextFile`: its answer, and the text of the file. `isOpen` is whether
the file can be created. -/
def writeInfoTextFile (isOpen : Bool) (info : SVideoFormatInfo) : Bool × Option (List Char) :=
  if isOpen = false then (false, none)
  else
    let numbers := [frameWidthText ++ ' ' :: tos info.width,
      frameHeightText ++ ' ' :: tos info.height, frameRateText ++ ' ' :: tos info.frameRate]
    match sizeText info.bitsPerPixel with
    | none => (false, some (textOfLines numbers))
    | some sSize => (true, some (textOfLines (numbers ++
        [pixelSizeText ++ ' ' :: sSize, fourCCText ++ ' ' :: info.sFourCC])))

/-! ### Which keywords stand in a line -/

/-- The keywords of the file. -/
def searchTexts : List (List Char) :=
  [frameWidthText, frameHeightText, frameRateText, pixelSizeText, fourCCText]

theorem distinguishes_infoFields : Distinguishes infoFields :=
  distinguishes_of_searchTexts rfl (by decide) (by decide)

/-! ### The file that is written -/

/-- The names of the types are the ones that the parser knows. -/
theorem sizeText_eq {bitsPerPixel : ℤ} (h : bitsPerPixel ∈ [8, 16, 24, 32, 48]) :
    ∃ sSize, sizeText bitsPerPixel = some sSize ∧ pixelTypes.lookup sSize = some bitsPerPixel ∧
      sSize.head? ≠ some ' ' ∧ ':' ∉ sSize ∧ '\n' ∉ sSize := by
  simp only [List.mem_cons, List.not_mem_nil, or_false] at h
  rcases h with rfl | rfl | rfl | rfl | rfl
  all_goals exact ⟨_, rfl, by decide, by decide, by decide, by decide⟩

theorem tos_natCast (n : ℕ) : tos n = Nat.toDigits 10 n ++ List.replicate 0 ' ' := by
  rw [List.replicate_zero, List.append_nil]
  rfl

theorem parseLines_size {bits : ℤ} {sSize : List Char}
    (hlookup : pixelTypes.lookup sSize = some bits) (hspace : sSize.head? ≠ some ' ')
    (hcolon : ':' ∉ sSize) (lines : List (List Char)) (parsed : Parsed SVideoFormatInfo) :
    parseLines infoFields ((pixelSizeText ++ ' ' :: sSize) :: lines) parsed =
      parseLines infoFields lines ⟨true, { parsed.info with bitsPerPixel := bits }⟩ :=
  parseLines_line distinguishes_infoFields (.tail _ (.tail _ (.tail _ (.head _))))
    (distinguishes_infoFields.absent hcolon) (takeValue_typeField hspace hlookup _ _) lines

theorem parseLines_fourCC {sFourCC : List Char} (hspace : sFourCC.head? ≠ some ' ')
    (hkeyword : ∀ sSearchText ∈ searchTexts, ¬sSearchText <:+: sFourCC)
    (lines : List (List Char)) (parsed : Parsed SVideoFormatInfo) :
    parseLines infoFields ((fourCCText ++ ' ' :: sFourCC) :: lines) parsed =
      parseLines infoFields lines ⟨true, { parsed.info with sFourCC := sFourCC }⟩ :=
  parseLines_line distinguishes_infoFields (.tail _ (.tail _ (.tail _ (.tail _ (.head _)))))
    (fun _ hfield ↦ hkeyword _ (List.mem_map_of_mem (f := InfoField.sSearchText) hfield))
    (takeValue_textField _ _ hspace) lines

/-- Assumes: a format whose numbers are not negative and fit `int`, whose pixel size has a name, and
whose FourCC text has no newline, no leading space and no keyword. It is written, and read back
from what was written. -/
theorem info_file_round_trip {info : SVideoFormatInfo}
    (hwidth : 0 ≤ info.width ∧ info.width < 2 ^ 31)
    (hheight : 0 ≤ info.height ∧ info.height < 2 ^ 31)
    (hrate : 0 ≤ info.frameRate ∧ info.frameRate < 2 ^ 31)
    (hpixel : info.bitsPerPixel ∈ [8, 16, 24, 32, 48]) (hline : '\n' ∉ info.sFourCC)
    (hspace : info.sFourCC.head? ≠ some ' ')
    (hkeyword : ∀ sSearchText ∈ searchTexts, ¬sSearchText <:+: info.sFourCC)
    (previous : SVideoFormatInfo) :
    ∃ text, writeInfoTextFile true info = (true, some text) ∧
      parseInfoTextFile (some text) previous = .ok ⟨true, info⟩ := by
  obtain ⟨sSize, hsize, hlookup, hsizeSpace, hsizeColon, hsizeLine⟩ := sizeText_eq hpixel
  obtain ⟨width, height, bitsPerPixel, frameRate, sFourCC⟩ := info
  obtain ⟨width, rfl⟩ := Int.eq_ofNat_of_zero_le hwidth.1
  obtain ⟨height, rfl⟩ := Int.eq_ofNat_of_zero_le hheight.1
  obtain ⟨frameRate, rfl⟩ := Int.eq_ofNat_of_zero_le hrate.1
  have hfields := distinguishes_infoFields
  have hwritten : writeInfoTextFile true ⟨width, height, bitsPerPixel, frameRate, sFourCC⟩ =
      (true, some (textOfLines [frameWidthText ++ ' ' :: tos width,
        frameHeightText ++ ' ' :: tos height, frameRateText ++ ' ' :: tos frameRate,
        pixelSizeText ++ ' ' :: sSize, fourCCText ++ ' ' :: sFourCC])) := by
    rw [writeInfoTextFile, if_neg Bool.noConfusion, hsize]
    rfl
  refine ⟨_, hwritten, ?_⟩
  rw [tos_natCast, tos_natCast, tos_natCast, parseInfoTextFile, parseInfoText_lines]
  · simp only [List.cons_append, List.nil_append]
    rw [parseLines_number hfields (.head _) _ _ (Int.ofNat_lt.mp hwidth.2) (Nat.zero_le 1),
      parseLines_number hfields (.tail _ (.head _)) _ _ (Int.ofNat_lt.mp hheight.2)
        (Nat.zero_le 1),
      parseLines_number hfields (.tail _ (.tail _ (.head _))) _ _ (Int.ofNat_lt.mp hrate.2)
        (Nat.zero_le 1),
      parseLines_size hlookup hsizeSpace hsizeColon, parseLines_fourCC hspace hkeyword]
    rfl
  · simp only [List.forall_mem_cons]
    exact ⟨newline_not_mem_number hfields (.head _) _ _,
      newline_not_mem_number hfields (.tail _ (.head _)) _ _,
      newline_not_mem_number hfields (.tail _ (.tail _ (.head _))) _ _,
      newline_not_mem_line hfields (.tail _ (.tail _ (.tail _ (.head _)))) hsizeLine,
      newline_not_mem_line hfields (.tail _ (.tail _ (.tail _ (.tail _ (.head _))))) hline, nofun⟩

theorem info_file_round_trip_nv12 :
    ∃ text, writeInfoTextFile true ⟨1920, 1080, 24, 0, ['N', 'V', '1', '2', ' ']⟩ =
        (true, some text) ∧
      parseInfoTextFile (some text) .cleared =
        .ok ⟨true, ⟨1920, 1080, 24, 0, ['N', 'V', '1', '2', ' ']⟩⟩ :=
  info_file_round_trip (by decide) (by decide) (by decide) (by decide) (by decide) (by decide)
    (by
      have hall : searchTexts.all fun text ↦ ¬text <:+: ['N', 'V', '1', '2', ' '] := by decide
      exact fun _ h ↦ of_decide_eq_true (List.all_eq_true.mp hall _ h)) .cleared

end RdbLibs.FileIO.CRawVideoFileIO
