import RdbLibs.FileIO.CRawAudioFileIO.Opening

/-!
# The info file of a raw audio file

`openFile` ends every line of the info file with a space. `parseInfoTextFile` drops the spaces
behind a number, but compares what follows `SampleSize:` with the names of the types as it stands,
so that it never knows the sample size. The lines behind set its answer to `true` again.
-/

set_option autoImplicit false
set_option relaxedAutoImplicit false

namespace RdbLibs.FileIO.CRawAudioFileIO

/-- `CRawAudioFileIO::SRawFileInfo`. -/
structure SRawFileInfo where
  numChannels : ℤ
  sampleRate : ℤ
  bitsPerSample : ℤ
deriving DecidableEq

/-- `SRawFileInfo::clear`. -/
def SRawFileInfo.cleared : SRawFileInfo := ⟨0, 0, 0⟩

/-- The comparisons of `parseInfoTextFile` with the name of a type. -/
def sampleTypes : List (List Char × ℤ) :=
  [(['i', 'n', 't', '8', '_', 't'], 8), (['i', 'n', 't', '1', '6', '_', 't'], 16),
    (['i', 'n', 't', '3', '2', '_', 't'], 32)]

/-- What `parseInfoTextFile` looks for, in this order. -/
def infoFields : List (InfoField SRawFileInfo) :=
  [numericField numberOfChannelsText fun info val ↦ { info with numChannels := val },
    numericField sampleRateText fun info val ↦ { info with sampleRate := val },
    typeField sampleSizeText sampleTypes fun info bits ↦ { info with bitsPerSample := bits }]

/-- `CRawAudioFileIO::parseInfoTextFile`. -/
def parseInfoTextFile (sFile : Option (List Char)) (info : SRawFileInfo) :
    Except TextFault (Parsed SRawFileInfo) :=
  parseInfoText infoFields .cleared sFile info

/-! ### Which keywords stand in a line -/

/-- The keywords of the file. -/
def searchTexts : List (List Char) := [numberOfChannelsText, sampleRateText, sampleSizeText]

theorem distinguishes_infoFields : Distinguishes infoFields :=
  distinguishes_of_searchTexts rfl (by decide) (by decide)

/-! ### The file that is written -/

/-- A sample type with a space behind it is not known. -/
theorem sampleTypeText_eq (bitsPerSample : ℤ) :
    ∃ value, sampleTypeText bitsPerSample ++ [' '] = value ∧ sampleTypes.lookup value = none ∧
      value.head? ≠ some ' ' ∧ ':' ∉ value ∧ '\n' ∉ value := by
  unfold sampleTypeText
  split_ifs
  all_goals exact ⟨_, rfl, by decide, by decide, by decide, by decide⟩

theorem parseLines_size {value : List Char} (hlookup : sampleTypes.lookup value = none)
    (hspace : value.head? ≠ some ' ') (hcolon : ':' ∉ value) (lines : List (List Char))
    (parsed : Parsed SRawFileInfo) :
    parseLines infoFields ((sampleSizeText ++ ' ' :: value) :: lines) parsed =
      parseLines infoFields lines { parsed with bOut := false } :=
  parseLines_line distinguishes_infoFields (.tail _ (.tail _ (.head _)))
    (distinguishes_infoFields.absent hcolon)
    (takeValue_typeField_unknown hspace hlookup _ _) lines

/-- What `parseInfoTextFile` reads from the file that `openFile` writes: the sample size is left as
`clear` has it. -/
theorem parse_infoText {s : CRawAudioFileIO} (hchls : s.m_numChls < 2 ^ 31)
    (hrate : 1 ≤ s.m_sampleRate ∧ s.m_sampleRate < 2 ^ 31) (previous : SRawFileInfo) :
    parseInfoTextFile (some s.infoText) previous =
      .ok ⟨true, ⟨s.m_numChls, s.m_sampleRate, 0⟩⟩ := by
  obtain ⟨value, hvalue, hlookup, hspace, hcolon, hline⟩ := sampleTypeText_eq s.m_nBitsPerSample
  have hfields := distinguishes_infoFields
  have htext : s.infoText = textOfLines [sampleSizeText ++ ' ' :: value,
      numberOfChannelsText ++ ' ' :: (Nat.toDigits 10 s.m_numChls ++ List.replicate 1 ' '),
      sampleRateText ++ ' ' :: (Nat.toDigits 10 s.m_sampleRate ++ List.replicate 1 ' ')] := by
    rw [infoText, hvalue, if_pos (Nat.pos_iff_ne_zero.mp hrate.1)]
    rfl
  rw [htext, parseInfoTextFile, parseInfoText_lines]
  · simp only [List.cons_append, List.nil_append]
    rw [parseLines_size hlookup hspace hcolon, parseLines_number hfields (.head _) _ _ hchls le_rfl,
      parseLines_number hfields (.tail _ (.head _)) _ _ hrate.2 le_rfl]
    rfl
  · simp only [List.forall_mem_cons]
    exact ⟨newline_not_mem_line hfields (.tail _ (.tail _ (.head _))) hline,
      newline_not_mem_number hfields (.head _) _ _,
      newline_not_mem_number hfields (.tail _ (.head _)) _ _, nofun⟩

theorem infoFile_writer {config : AudioConfig} (hinfo : config.infoTextFile = true)
    {sFilePath : List Char} (hraw : getAudioFileType sFilePath = .raw)
    (file : Option (List UInt8)) :
    (config.writer file sFilePath true).infoFile = some (config.object file).infoText :=
  if_pos ⟨hraw, hinfo, rfl⟩

/-- Assumes: an object with a number of channels and a sample rate that fit `int`, one of the three
sample sizes, and the option set that writes an info file. It opens a raw file for output, and
writes an info file from which everything is read back but the sample size. -/
theorem info_file_loses_sample_size {config : AudioConfig}
    (hchls : 1 ≤ config.numChannels ∧ config.numChannels < 2 ^ 31)
    (hrate : 1 ≤ config.rate ∧ config.rate < 2 ^ 31)
    (hbits : config.numBits = 8 ∨ config.numBits = 16 ∨ config.numBits = 32)
    (hinfo : config.infoTextFile = true) {sFilePath : List Char}
    (hraw : getAudioFileType sFilePath = .raw) (file : Option (List UInt8))
    (previous : SRawFileInfo) :
    ∃ after text,
      (config.object file).openFile .output sFilePath ⟨true, true, true⟩ = some (true, after) ∧
      after.infoFile = some text ∧
      parseInfoTextFile (some text) previous = .ok ⟨true, ⟨config.numChannels, config.rate, 0⟩⟩ ∧
      parseInfoTextFile (some text) previous ≠
        .ok ⟨true, ⟨config.numChannels, config.rate, config.numBits⟩⟩ := by
  have hpath : sFilePath ≠ [] := by
    rintro rfl
    exact absurd hraw (by decide)
  have hparsed := parse_infoText (s := config.object file) hchls.2 hrate previous
  refine ⟨_, _, AudioConfig.openFile_output hchls.1 hpath true file,
    infoFile_writer hinfo hraw file, hparsed, ?_⟩
  rw [hparsed]
  intro hsame
  have hzero : (0 : ℤ) = config.numBits :=
    congrArg SRawFileInfo.bitsPerSample (congrArg Parsed.info (Except.ok.inj hsame))
  rcases hbits with h | h | h
  · rw [h] at hzero
    exact absurd hzero (by decide)
  · rw [h] at hzero
    exact absurd hzero (by decide)
  · rw [h] at hzero
    exact absurd hzero (by decide)

theorem info_file_loses_sample_size_stereo :
    ∃ after text, (AudioConfig.object ⟨2, 32, 44100, 0, false, true⟩ none).openFile .output
        ['a', '.', 'r', 'a', 'w'] ⟨true, true, true⟩ = some (true, after) ∧
      after.infoFile = some text ∧
      parseInfoTextFile (some text) .cleared = .ok ⟨true, ⟨2, 44100, 0⟩⟩ ∧
      parseInfoTextFile (some text) .cleared ≠ .ok ⟨true, ⟨2, 44100, 32⟩⟩ :=
  @info_file_loses_sample_size ⟨2, 32, 44100, 0, false, true⟩ (by decide) (by decide)
    (by decide) rfl _ (by decide) none .cleared

/-- The info file of a file with 16-bit stereo samples gives the sample size zero. -/
theorem info_file_without_sample_size :
    ∃ after text, (AudioConfig.object ⟨2, 16, 48000, 0, false, true⟩ none).openFile .output
        ['a'] ⟨true, true, true⟩ = some (true, after) ∧
      after.infoFile = some text ∧
      parseInfoTextFile (some text) .cleared ≠ .ok ⟨true, ⟨2, 48000, 16⟩⟩ := by
  refine ⟨_, _, AudioConfig.openFile_output (by decide) (List.cons_ne_nil _ _) true none,
    infoFile_writer rfl (by decide) none, ?_⟩
  rw [parse_infoText (by decide) (by decide)]
  exact fun hsame ↦ absurd (congrArg SRawFileInfo.bitsPerSample
    (congrArg Parsed.info (Except.ok.inj hsame))) (by decide)

end RdbLibs.FileIO.CRawAudioFileIO
