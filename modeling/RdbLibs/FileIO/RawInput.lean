import RdbLibs.FileIO.CRawAudioFileIO.Opening
import RdbLibs.FileIO.CRawAudioFileIO.Positions
import RdbLibs.FileIO.CRawVideoFileIO.Model

/-!
# Raw files that are open for input

`openFile` of both classes leaves the stream at the end of the file, where `getFileSize` has moved
it, and `m_lCurrentFilePos` at its beginning (`input`). `setCurrentFrame` is the call that brings
the two together, and a caller that reads frames from the first one on makes it. Of an empty file it
fails, but there the beginning is the end.
-/

set_option autoImplicit false
set_option relaxedAutoImplicit false

namespace RdbLibs.FileIO

open MachineWord

theorem CFileIO.openFile_input {io io' : CFileIO} {granted : Bool}
    (hopen : io.openFile .input granted = (true, io')) : granted = true ∧ ∃ content eMode,
      io = ⟨some content, none, eMode⟩ ∧
      io' = ⟨some content, some ⟨content, 0, true, false, false⟩, .input⟩ := by
  obtain ⟨hgranted, hhandle, stream, hstream, rfl⟩ := of_openFile (by decide) hopen
  obtain ⟨file, handle, eMode⟩ := io
  obtain rfl : handle = none := hhandle
  obtain ⟨content, rfl, rfl⟩ := Option.map_eq_some_iff.mp hstream
  exact ⟨hgranted, content, eMode, rfl, rfl⟩

namespace RawBlocks

/-- What `openFile` for input leaves. -/
def input (b : RawBlocks) (content : List UInt8) : RawBlocks :=
  { b with
    m_bFileOpened := true
    m_nFramesInFile := content.length / b.m_nFrameSize
    m_nCurrentFrameIdx := 0
    m_nCurrentFrame := 0
    m_fileIO := ⟨some content, some ⟨content, content.length, true, false, false⟩, .input⟩
    m_lFileSize := content.length
    m_lCurrentFilePos := 0 }

/-- One object has opened its file for input, and has become the other. -/
def OpensAs (b b' : RawBlocks) : Prop :=
  ∃ content, b.m_fileIO.file = some content ∧ b.m_nFrameSize ≠ 0 ∧ b' = b.input content

theorem reads_input {b : RawBlocks} {content : List UInt8} (hsize : b.m_nFrameSize ≠ 0)
    (hsmall : content.length < 2 ^ 63) : Reads content content.length (b.input content) :=
  ⟨rfl, hsize, rfl, rfl, rfl, hsmall, Nat.zero_le _⟩

/-- A file that was opened is read from its first frame on, once this was made the current frame.
-/
theorem positioned_first {b : RawBlocks} {content : List UInt8} (hsize : b.m_nFrameSize ≠ 0)
    (hsmall : content.length < 2 ^ 63) :
    Positioned content 0 ((b.input content).setCurrentFrame 0).2 := by
  have hreads := reads_input hsize hsmall
  have hzero : 0 * b.m_nFrameSize = 0 := Nat.zero_mul _
  have hfirst : toUnsigned (0 * (b.input content).m_nFrameSize) = 0 := by
    rw [Nat.zero_mul]
    rfl
  rw [hreads.setCurrentFrame_eq, hfirst, hreads.fileSize]
  split_ifs with hempty
  · refine ⟨?_, hzero.symm, rfl⟩
    rw [Nat.zero_mul, ← Nat.le_zero.mp hempty]
    exact hreads
  · refine ⟨?_, hzero.symm, rfl⟩
    rw [Nat.zero_mul]
    exact { hreads.streamAt 0 with filePos_le := Nat.zero_le _ }

end RawBlocks

namespace CRawAudioFileIO

variable {s after : CRawAudioFileIO} {sFilePath : List Char} {o : OpenOutcome}

theorem openInput_blocks (hclosed : s.m_bFileOpened = false) (hmode : s.m_eMode = .input)
    (hopen : s.openInput o = some (true, after)) :
    after.m_eMode = .input ∧ s.blocks.OpensAs after.blocks := by
  cases hfile : s.m_fileIO.openFile .input o.opened with
  | mk status io =>
    cases status with
    | false =>
      unfold openInput at hopen
      rw [hfile] at hopen
      cases hopen
    | true =>
      obtain ⟨hgranted, content, eMode, hio, -⟩ := CFileIO.openFile_input hfile
      rw [openInput_eq hclosed hmode hio hgranted, Option.ite_none_left_eq_some] at hopen
      obtain ⟨hsize, hopened⟩ := hopen
      cases hopened
      exact ⟨hmode, content, congrArg CFileIO.file hio, hsize, rfl⟩

/-- What a successful `openFile` for input leaves. -/
theorem openFile_blocks (hopen : s.openFile .input sFilePath o = some (true, after)) :
    after.m_eMode = .input ∧ s.blocks.OpensAs after.blocks := by
  unfold openFile at hopen
  by_cases hrefused : s.m_bFileOpened = true ∨ s.m_numChls < 1
  · rw [if_pos hrefused] at hopen
    cases hopen
  rw [if_neg hrefused] at hopen
  rw [not_or, Bool.not_eq_true] at hrefused
  extract_lets named at hopen
  have hnamed : named.m_bFileOpened = false ∧ named.blocks = s.blocks := by
    unfold named
    split_ifs
    · exact ⟨hrefused.1, rfl⟩
    · exact ⟨hrefused.1, rfl⟩
  clear_value named
  rw [← hnamed.2]
  split_ifs at hopen
  · cases hopen
  · cases hopen
  · exact openInput_blocks (s := { named with
      m_eFileType := getAudioFileType named.m_sFilePath
      m_pFramebuffer := _
      m_eMode := .input }) hnamed.1 rfl hopen

end CRawAudioFileIO

namespace CRawVideoFileIO

variable {s after : CRawVideoFileIO} {sFilePath : List Char} {o : OpenOutcome}

/-- What `openFile` leaves of a file for input, with the format of its info file. -/
def inputOf (s : CRawVideoFileIO) (content : List UInt8) (info : SVideoFormatInfo) :
    CRawVideoFileIO :=
  opened { useInfo { s with
      m_fileIO := ⟨some content, some ⟨content, content.length, true, false, false⟩, .input⟩ }
        info with
    m_lFileSize := content.length
    m_nFramesInFile := content.length / s.m_nFrameSize
    m_lCurrentFilePos := 0 }

/-- `openFile` for input, behind the allocation of the buffer. An exception leaves it where the info
file is read, and behind it `openFile` divides by the size of a frame. -/
theorem openInput_eq {content : List UInt8} {eMode : eFileIoMode_def}
    (hfile : s.m_fileIO = ⟨some content, none, eMode⟩) (ho : o.opened = true) :
    s.openInput o = match parseInfoTextFile s.infoFile s.m_fileInfo with
      | .error _ => none
      | .ok parsed =>
        if s.m_nFrameSize = 0 then none else some (true, s.inputOf content parsed.info) := by
  have hlen : ¬(content.length : ℤ) < 0 := by omega
  have hopen : s.m_fileIO.openFile .input o.opened =
      (true, ⟨some content, some ⟨content, 0, true, false, false⟩, .input⟩) := by
    rw [hfile, ho]
    rfl
  unfold openInput
  rw [hopen]
  dsimp only
  rw [if_neg Bool.noConfusion]
  show (if (content.length : ℤ) < 0 then _ else _) = _
  rw [if_neg hlen]
  cases parseInfoTextFile s.infoFile s.m_fileInfo with
  | error fault => rfl
  | ok parsed =>
    show (if s.m_nFrameSize = 0 then none else _) = _
    split_ifs
    · rfl
    · rfl

/-- What a successful `openInput` leaves. -/
theorem openInput_cases (hopen : s.openInput o = some (true, after)) :
    ∃ content info, s.m_fileIO.file = some content ∧ s.m_nFrameSize ≠ 0 ∧
      after = s.inputOf content info := by
  cases hfile : s.m_fileIO.openFile .input o.opened with
  | mk status io =>
    cases status with
    | false =>
      unfold openInput at hopen
      rw [hfile] at hopen
      cases hopen
    | true =>
      obtain ⟨hgranted, content, eMode, hio, -⟩ := CFileIO.openFile_input hfile
      rw [openInput_eq hio hgranted] at hopen
      cases hinfo : parseInfoTextFile s.infoFile s.m_fileInfo with
      | error fault =>
        rw [hinfo] at hopen
        cases hopen
      | ok parsed =>
        rw [hinfo] at hopen
        obtain ⟨hsize, hopened⟩ := Option.ite_none_left_eq_some.mp hopen
        cases hopened
        exact ⟨content, parsed.info, congrArg CFileIO.file hio, hsize, rfl⟩

/-- What `openFile` does where it is successful, behind the allocation of the buffer. -/
theorem openFile_cases {mode : eFileIoMode_def}
    (hopen : s.openFile mode sFilePath o = some (true, after)) :
    ∃ path buffer, buffer.isNone = false ∧
      (mode = .input ∧ openInput { s with
          m_sFilePath := path
          m_pFramebuffer := buffer
          m_eMode := .input } o = some (true, after) ∨
        mode = .output ∧ openOutput { s with
          m_sFilePath := path
          m_pFramebuffer := buffer
          m_eMode := .output } o = (true, after)) := by
  unfold openFile at hopen
  by_cases hrefused : s.m_bFileOpened = true
  · rw [if_pos hrefused] at hopen
    cases hopen
  rw [if_neg hrefused] at hopen
  extract_lets named at hopen
  obtain ⟨path, hnamed⟩ : ∃ path, named = { s with m_sFilePath := path } := by
    unfold named
    split_ifs
    · exact ⟨s.m_sFilePath, rfl⟩
    · exact ⟨sFilePath, rfl⟩
  clear_value named
  subst hnamed
  split_ifs at hopen with hpath hbits hbuffer
  · cases hopen
  · cases hopen
  · rw [Bool.not_eq_true] at hbuffer
    refine ⟨path, _, hbuffer, ?_⟩
    cases mode with
    | input => exact .inl ⟨rfl, hopen⟩
    | output => exact .inr ⟨rfl, Option.some.inj hopen⟩
    | unknown => cases hopen
    | io => cases hopen
    | append => cases hopen
  · cases hopen

/-- What a successful `openFile` for input leaves. The info file may change the number of bits. -/
theorem openFile_blocks (hopen : s.openFile .input sFilePath o = some (true, after)) :
    ∃ bits, RawBlocks.OpensAs { s.blocks with bits := bits } after.blocks := by
  obtain ⟨path, buffer, -, ⟨-, hinput⟩ | ⟨hmode, -⟩⟩ := openFile_cases hopen
  · obtain ⟨content, info, hcontent, hsize, rfl⟩ := openInput_cases hinput
    exact ⟨(s.useInfo info).m_bitsPerPixel, content, hcontent, hsize, rfl⟩
  · cases hmode

end CRawVideoFileIO

/-- An object for mono samples, whose file has the given content. -/
def monoSamples (bits : ℤ) (content : List UInt8) : CRawAudioFileIO :=
  CRawAudioFileIO.AudioConfig.object ⟨1, bits, 0, 0, false, false⟩ (some content)

/-- It has opened the file. -/
def monoReader (bits : ℤ) (content : List UInt8) : CRawAudioFileIO :=
  CRawAudioFileIO.AudioConfig.reader ⟨1, bits, 0, 0, false, false⟩ content ['a']

/-- It is at the first frame of the file. -/
def monoAtFirst (bits : ℤ) (content : List UInt8) : CRawAudioFileIO :=
  ((monoReader bits content).setCurrentFrame 0).2

end RdbLibs.FileIO
