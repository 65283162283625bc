import RdbLibs.FileIO.CRawAudioFileIO.Model

/-!
# Opening a raw audio file

What `openFile` leaves of an object that was constructed and configured, for output (`writer`) and
for input (`reader`). `getFileSize` leaves the stream of a file at its end, and the call of
`nextFrame` in `openFile` reads nothing, because `m_bFileOpened` is not set before the end of
`openFile`: the stream of an input file stays at the end, while `m_lCurrentFilePos` is zero.
-/

set_option autoImplicit false
set_option relaxedAutoImplicit false

namespace RdbLibs.FileIO.CRawAudioFileIO

open CheckedMemory FileStream MachineWord

/-- The object when `openFile` has allocated the buffer. -/
def prepared (s : CRawAudioFileIO) (mode : eFileIoMode_def) (sFilePath : List Char) :
    CRawAudioFileIO :=
  { s with
    m_sFilePath := sFilePath
    m_eFileType := getAudioFileType sFilePath
    m_pFramebuffer := s.allocFramebuffer true
    m_eMode := mode }

section Open

variable {s : CRawAudioFileIO} (hclosed : s.m_bFileOpened = false) (hchls : 1 ≤ s.m_numChls)
  {sFilePath : List Char} (hpath : sFilePath ≠ []) {o : OpenOutcome} (ho : o.allocated = true)
include hclosed hchls hpath ho

theorem openFile_eq (mode : eFileIoMode_def) :
    s.openFile mode sFilePath o =
      match mode with
      | .input => (s.prepared mode sFilePath).openInput o
      | .output => some ((s.prepared mode sFilePath).openOutput o)
      | _ => some (false, s.prepared mode sFilePath) := by
  have hopen : ¬(s.m_bFileOpened = true ∨ s.m_numChls < 1) := by
    rw [hclosed, not_or]
    exact ⟨Bool.false_ne_true, not_lt.mpr hchls⟩
  have hempty : sFilePath.isEmpty = false := by rwa [List.isEmpty_eq_false_iff]
  unfold openFile
  rw [if_neg hopen, hempty, ho]
  simp only [Bool.false_eq_true, if_false, hempty]
  cases mode
  all_goals rfl

end Open

section Closed

variable {s : CRawAudioFileIO} (hclosed : s.m_bFileOpened = false) (hinput : s.m_eMode = .input)
include hclosed

theorem readBlock_closed (pData : Option (List UInt8)) (numFrames : ℕ) :
    s.readBlock pData numFrames = some ⟨false, pData, s⟩ := by
  cases pData with
  | none => rfl
  | some target =>
    rw [readBlock, if_pos (.inl hclosed)]

include hinput

theorem transferFrames_closed (numFrames : ℕ) : s.transferFrames numFrames = some (false, s) := by
  rw [transferFrames, hinput]
  dsimp only
  split_ifs
  · rfl
  · rw [readBlock_closed hclosed]
    rfl

/-- Before `m_bFileOpened` is set, `nextFrame` moves nothing but the index. -/
theorem nextFrame_closed :
    ∃ status index, s.nextFrame = some (status, s.setFrameIdx index) := by
  by_cases hbuffer : s.m_pFramebuffer = none
  · refine ⟨false, s.m_nCurrentFrameIdx, ?_⟩
    rw [nextFrame, if_pos (by rwa [Option.isNone_iff_eq_none])]
    rfl
  have htransfer (index numFrames : ℕ) :
      (s.setFrameIdx index).transferFrames numFrames = some (false, s.setFrameIdx index) :=
    transferFrames_closed (s := s.setFrameIdx index) hclosed hinput numFrames
  rcases lt_or_ge s.m_nIoBlockSize 1 with hsingle | hblock
  · exact ⟨false, 0, (nextFrame_single hbuffer hsingle).trans (htransfer 0 1)⟩
  · rcases lt_or_ge ((s.m_nCurrentFrameIdx + 1 : ℕ) : ℤ) s.m_nIoBlockSize with hroom | hfull
    · exact ⟨true, _, nextFrame_room hbuffer hblock hroom⟩
    · exact ⟨false, _, nextFrame_full hbuffer hblock hfull (htransfer _ _)⟩

theorem opened_nextFrame_closed :
    (s.nextFrame >>= fun result ↦ some (true, result.2.opened)) = some (true, s.opened) := by
  obtain ⟨status, index, hnext⟩ := nextFrame_closed hclosed hinput
  rw [hnext]
  rfl

/-- `openFile` for input, behind the allocation of the buffer. -/
theorem openInput_eq {content : List UInt8} {eMode : eFileIoMode_def}
    (hfile : s.m_fileIO = ⟨some content, none, eMode⟩) {o : OpenOutcome} (ho : o.opened = true) :
    s.openInput o = if s.m_nFrameSize = 0 then none else some (true, opened { s with
      m_fileIO := ⟨some content, some ⟨content, content.length, true, false, false⟩, .input⟩
      m_lFileSize := content.length
      m_nFramesInFile := content.length / s.m_nFrameSize
      m_lCurrentFilePos := 0
      m_lastChlRead := -1 }) := by
  rw [openInput, hfile, ho]
  by_cases hzero : s.m_nFrameSize = 0
  · rw [if_pos hzero]
    exact if_pos hzero
  · rw [if_neg hzero]
    exact (if_neg hzero).trans (opened_nextFrame_closed hclosed hinput)

end Closed

/-- How an object is configured before it opens a file. -/
structure AudioConfig where
  numChannels : ℕ
  numBits : ℤ
  rate : ℕ
  numFrames : ℤ
  looping : Bool
  infoTextFile : Bool

namespace AudioConfig

/-- The object, for a path at which the disk has the given file. -/
def object (config : AudioConfig) (file : Option (List UInt8)) : CRawAudioFileIO :=
  createInfoTextFile (setLoopingRead (setIoBlockSize (setSampleRate
    (setSampleSize (new config.numChannels file) config.numBits) config.rate)
    config.numFrames) config.looping) config.infoTextFile

/-- The sample size that `setSampleSize` leaves. -/
def bitsPerSample (config : AudioConfig) : ℤ :=
  if config.numBits = 16 ∨ config.numBits = 32 ∨ config.numBits = 8 then config.numBits else 16

/-- The size of a frame, as `m_nFrameSize` has it. -/
def frameSize (config : AudioConfig) : ℕ :=
  toUnsigned (config.numChannels * sampleBytes config.bitsPerSample)

/-- The number of samples in the frame buffer. -/
def bufferSamples (config : AudioConfig) : ℕ :=
  if config.numFrames < 1 then config.numChannels
  else toUnsigned (config.numChannels * intToUnsigned config.numFrames)

/-- The frame buffer of an object that has opened a file. -/
def framebuffer (config : AudioConfig) : List UInt8 :=
  List.replicate (sampleBytes config.bitsPerSample * config.bufferSamples) 0

/-- The object after it has opened its file for output. -/
def writer (config : AudioConfig) (file : Option (List UInt8)) (sFilePath : List Char)
    (infoOpened : Bool) : CRawAudioFileIO :=
  { config.object file with
    m_sFilePath := sFilePath
    m_eFileType := getAudioFileType sFilePath
    m_pFramebuffer := some config.framebuffer
    m_eMode := .output
    m_fileIO := ⟨file, some ⟨[], 0, false, true, false⟩, .output⟩
    m_nIoCntr := 0
    m_nCurrentFrame := 0
    m_bFileOpened := true
    infoFile := if getAudioFileType sFilePath = .raw ∧ config.infoTextFile = true ∧
      infoOpened = true then some (config.object file).infoText else none }

/-- The object after it has opened a file with the given content for input. -/
def reader (config : AudioConfig) (content : List UInt8) (sFilePath : List Char) :
    CRawAudioFileIO :=
  { config.object (some content) with
    m_sFilePath := sFilePath
    m_eFileType := getAudioFileType sFilePath
    m_pFramebuffer := some config.framebuffer
    m_eMode := .input
    m_fileIO := ⟨some content, some ⟨content, content.length, true, false, false⟩, .input⟩
    m_lFileSize := content.length
    m_nFramesInFile := content.length / config.frameSize
    m_nIoCntr := 0
    m_nCurrentFrame := 0
    m_bFileOpened := true }

variable {config : AudioConfig}

section Open

variable (hchls : 1 ≤ config.numChannels) {sFilePath : List Char} (hpath : sFilePath ≠ [])
  (infoOpened : Bool)
include hchls hpath

theorem openFile_output (file : Option (List UInt8)) :
    (config.object file).openFile .output sFilePath ⟨true, true, infoOpened⟩ =
      some (true, config.writer file sFilePath infoOpened) := by
  rw [openFile_eq rfl hchls hpath rfl]
  rfl

/-- The call of `nextFrame` in `openFile` transfers nothing. -/
theorem openFile_input (content : List UInt8) :
    (config.object (some content)).openFile .input sFilePath ⟨true, true, infoOpened⟩ =
      if config.frameSize = 0 then none else some (true, config.reader content sFilePath) := by
  rw [openFile_eq rfl hchls hpath rfl]
  exact openInput_eq (s := (config.object (some content)).prepared .input sFilePath) rfl rfl rfl rfl

end Open

end AudioConfig

end RdbLibs.FileIO.CRawAudioFileIO
