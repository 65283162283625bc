import RdbLibs.FileIO.CRawAudioFileIO.Input
import RdbLibs.FileIO.CRawAudioFileIO.Sampling

/-!
# Reading samples of a raw audio file

`openFile` reads no frame into the frame buffer, and leaves the stream at the end of the file. The
first transfer by `nextFrame` fails there, and sets `m_lCurrentFilePos` to the end. The calls of
`readSample` return the zeros of the buffer, for as long as no transfer finds anything else. The
state of an object that has zeros in its buffer (`Reading`) is kept by calls of `readSample`, by a
transfer of zeros, and by the ways in which a transfer finds nothing.
-/

set_option autoImplicit false
set_option relaxedAutoImplicit false

namespace RdbLibs.FileIO.CRawAudioFileIO

open ByteCodec CheckedMemory FileStream MachineWord

/-- An overload of `readSample`. -/
abbrev SampleReader : Type := CRawAudioFileIO → ℕ → Option (Option ℤ × CRawAudioFileIO)

/-- Calls of `readSample`, for some channels from `chl` on. -/
def readSamples (readSample : SampleReader) (s : CRawAudioFileIO) (chl : ℕ) :
    ℕ → Option (List (Option ℤ) × CRawAudioFileIO)
  | 0 => some ([], s)
  | count + 1 => do
    let (data, s) ← readSample s chl
    let (samples, s) ← s.readSamples readSample (chl + 1) count
    return (data :: samples, s)

/-- Calls of `readSample` for every channel and of `nextFrame`, for some frames. -/
def readFrames (readSample : SampleReader) (s : CRawAudioFileIO) :
    ℕ → Option (List (List (Option ℤ)) × CRawAudioFileIO)
  | 0 => some ([], s)
  | numFrames + 1 => do
    let (frame, s) ← s.readSamples readSample 0 s.m_numChls
    let (_, s) ← s.nextFrame
    let (frames, s) ← s.readFrames readSample numFrames
    return (frame :: frames, s)

/-- The bytes that `readBlock` pads behind no frame. They are counted in an `int`. -/
def AudioConfig.padSize (config : AudioConfig) : ℕ := intToSize (toInt (config.frameSize * 2))

/-- An object that reads a file of 16-bit samples and has zeros in its frame buffer. -/
structure Reading (config : AudioConfig) (content : List UInt8) (index position offset : ℕ)
    (s : CRawAudioFileIO) : Prop where
  opened : s.m_bFileOpened = true
  mode : s.m_eMode = .input
  channels : s.m_numChls = config.numChannels
  frameSize : s.m_nFrameSize = config.frameSize
  bits : s.m_nBitsPerSample = 16
  block : s.m_nIoBlockSize = config.numFrames
  looping : s.m_bUseLoopingRead = config.looping
  fileSize : s.m_lFileSize = content.length
  framesInFile : s.m_nFramesInFile = content.length / config.frameSize
  buffer : s.m_pFramebuffer = some (List.replicate (2 * config.bufferSamples) 0)
  index : s.m_nCurrentFrameIdx = index
  position : s.m_lCurrentFilePos = position
  stream : s.m_fileIO.m_pFileHandle = some ⟨content, offset, true, false, false⟩

variable {config : AudioConfig} {content : List UInt8} {index position offset : ℕ}
  {s : CRawAudioFileIO}

section Samples

variable (h : Reading config content index position offset s)
include h

/-- A sample of a frame that the file has is read of the buffer. -/
theorem Reading.readSample_eq (hindex : index < content.length / config.frameSize) {chl : ℕ}
    (hchl : chl < config.numChannels) :
    readSample16 s chl = do
      let bytes ← (loadRange (List.replicate (2 * config.bufferSamples) 0)
        (2 * (toUnsigned (index * config.numChannels) + chl)) 2).toOption
      let data := toSigned 2 (ofLittleEndian bytes)
      if toInt chl = s.m_lastChlRead then return (some data, s)
      return (some data, { s with m_nIoCntr := s.m_nIoCntr + 1, m_lastChlRead := toInt chl }) := by
  have haccepted : ¬(s.m_bFileOpened = false ∨ s.m_numChls ≤ chl ∨
      s.m_nBitsPerSample ≠ 8 * (2 : ℕ)) := by
    rw [h.opened, h.channels, h.bits]
    simpa using hchl
  have heof : ¬s.isEOF = true := by
    rw [isEOF, h.framesInFile, h.index]
    simpa using hindex
  rw [readSample16, readSampleOfSize, h.buffer]
  dsimp only
  rw [if_neg haccepted, if_neg heof, sampleIndex h.index h.channels]

/-- It is zero. -/
theorem Reading.readSample_inside (hindex : index < content.length / config.frameSize) {chl : ℕ}
    (hchl : chl < config.numChannels)
    (hinside : toUnsigned (index * config.numChannels) + chl < config.bufferSamples) :
    ∃ after, readSample16 s chl = some (some 0, after) ∧
      Reading config content index position offset after := by
  rw [h.readSample_eq hindex hchl, loadRange_replicate (by omega)]
  show ∃ after, (if toInt chl = s.m_lastChlRead then _ else _) = _ ∧ _
  split_ifs
  · exact ⟨s, rfl, h⟩
  · exact ⟨_, rfl, { h with }⟩

/-- The samples of a frame that is in the buffer. -/
theorem Reading.readSamples_inside (hindex : index < content.length / config.frameSize)
    {chl count : ℕ} (hcount : chl + count = config.numChannels)
    (hinside : toUnsigned (index * config.numChannels) + config.numChannels ≤
      config.bufferSamples) :
    ∃ after, s.readSamples readSample16 chl count = some (List.replicate count (some 0), after) ∧
      Reading config content index position offset after := by
  induction count generalizing chl s with
  | zero => exact ⟨s, rfl, h⟩
  | succ count ih =>
    have hchl : chl < config.numChannels := by omega
    have hnext : chl + 1 + count = config.numChannels := by omega
    obtain ⟨middle, hfirst, hmiddle⟩ := h.readSample_inside hindex hchl (by omega)
    obtain ⟨after, hrest, hafter⟩ := ih hmiddle hnext
    refine ⟨after, ?_, hafter⟩
    rw [readSamples, hfirst]
    show (middle.readSamples _ _ _ >>= _) = _
    rw [hrest]
    rfl

end Samples

/-! ### Transfers -/

theorem Reading.setFrameIdx (h : Reading config content index position offset s) (newIndex : ℕ) :
    Reading config content newIndex position offset (s.setFrameIdx newIndex) :=
  { h with index := rfl }

theorem Reading.framesLeft (h : Reading config content index position offset s)
    (hposition : position ≤ content.length) (hlength : content.length < 2 ^ 63) :
    s.framesLeftInFile = (content.length - position) / config.frameSize := by
  have hleft : toSize (content.length + 2 ^ 64 - position) = content.length - position := by
    rw [toSize]
    omega
  rw [framesLeftInFile, h.fileSize, h.position, h.frameSize, hleft]

/-- The end of a read, with the stream at a new offset. -/
theorem Reading.finished (h : Reading config content index position offset s) {io : CFileIO}
    {newOffset : ℕ} (hstream : io.m_pFileHandle = some ⟨content, newOffset, true, false, false⟩)
    (hoffset : newOffset < 2 ^ 63) (status : Bool) (nReadSize : ℕ) :
    Reading config content index newOffset newOffset
      (finishRead { s with m_fileIO := io } status nReadSize) := by
  have hposition : intToSize io.getFilePosition = newOffset := by
    have hword : newOffset < 2 ^ 64 := hoffset.trans (by norm_num)
    have hplace := CFileIO.getFilePosition_stream hstream
    rw [hplace]
    exact intToSize_of_lt hword
  cases status with
  | false => exact { h with position := hposition, stream := hstream }
  | true => exact { h with position := hposition, stream := hstream }

/-- What `nextFrame` makes of a read for input, into a buffer of zeros. -/
theorem Reading.transfer_of_readBlock (h : Reading config content index position offset s)
    (heof : s.isEOF = false) {numFrames newPosition newOffset : ℕ} {status : Bool}
    {middle : CRawAudioFileIO} (hread : s.readBlock (some (List.replicate
      (2 * config.bufferSamples) 0)) numFrames =
        some ⟨status, some (List.replicate (2 * config.bufferSamples) 0), middle⟩)
    (hmiddle : Reading config content index newPosition newOffset middle) :
    ∃ after, s.transferFrames numFrames = some (status, after) ∧
      Reading config content index newPosition newOffset after := by
  rw [transferFrames, h.mode]
  dsimp only
  rw [heof, if_neg Bool.false_ne_true, h.buffer, hread]
  cases status with
  | false => exact ⟨_, rfl, { hmiddle with buffer := rfl }⟩
  | true => exact ⟨_, rfl, { hmiddle with buffer := rfl }⟩

/-- A read of an item of zeros into a block of zeros. -/
theorem readBlock_zeros {io : CFileIO}
    (hstream : io.m_pFileHandle = some ⟨content, offset, true, false, false⟩) {size length : ℕ}
    (hsize : size ≠ 0) (hzeros : (content.drop offset).take size = List.replicate size 0)
    (hlength : size ≤ length) :
    io.readBlock (List.replicate length 0) size 1 = some (true, List.replicate length 0,
      { io with m_pFileHandle := some ⟨content, offset + size, true, false, false⟩ }) := by
  have hread : (Stream.mk content offset true false false).read size 1 =
      (1, List.replicate size 0, ⟨content, offset + size, true, false, false⟩) := by
    rw [Stream.read, if_neg (by simpa using hsize)]
    simp [hzeros, Nat.div_self (Nat.pos_of_ne_zero hsize), Stream.seek]
  unfold CFileIO.readBlock
  rw [hstream]
  dsimp only
  rw [hread, storeRange_replicate (by simpa using hlength)]
  rfl

section Transfer

variable (h : Reading config content index position offset s)
include h

/-- At the end of the file, nothing is transferred. -/
theorem Reading.transfer_atEOF (heof : content.length / config.frameSize ≤ index) (numFrames : ℕ) :
    s.transferFrames numFrames = some (false, s) := by
  have hatEOF : s.isEOF = true := by
    rw [isEOF, h.framesInFile, h.index]
    exact decide_eq_true heof
  rw [transferFrames, h.mode]
  dsimp only
  rw [if_pos hatEOF]
  rfl

variable (hsize : config.frameSize ≠ 0) (hlength : content.length < 2 ^ 63)
  (heof : index < content.length / config.frameSize)

include heof in
theorem Reading.isEOF_eq : s.isEOF = false := by
  rw [isEOF, h.framesInFile, h.index]
  exact decide_eq_false (Nat.not_le.mpr heof)

include hsize hlength heof

/-- The first transfer that is tried: the stream is at the end of the file, while `readBlock` finds
all frames left. -/
theorem Reading.transfer_fails (hposition : position = 0) (hend : offset = content.length)
    {numFrames : ℕ} (hpos : 1 ≤ numFrames) (hfits : numFrames ≤ content.length / config.frameSize) :
    ∃ after, s.transferFrames numFrames = some (false, after) ∧
      Reading config content index content.length content.length after := by
  subst hposition hend
  have hleft : numFrames ≤ s.framesLeftInFile := by
    rwa [h.framesLeft (Nat.zero_le _) hlength]
  have hatEnd : (Stream.mk content content.length true false false).AtEnd := rfl
  have hread := readBlock_fits h.opened hpos (h.isEOF_eq heof) (by rwa [h.frameSize]) hleft
    (readBlock_stream_atEnd h.stream hatEnd (List.replicate (2 * config.bufferSamples) 0)
      s.m_nFrameSize hpos)
  exact h.transfer_of_readBlock (h.isEOF_eq heof) hread (h.finished h.stream hlength _ _)

/-- A transfer of zeros. -/
theorem Reading.transfer_zeros (hposition : position = offset)
    (hfits : offset + config.frameSize ≤ content.length)
    (hzeros : (content.drop offset).take config.frameSize = List.replicate config.frameSize 0)
    (hbuffer : config.frameSize ≤ 2 * config.bufferSamples) :
    ∃ after, s.transferFrames 1 = some (true, after) ∧
      Reading config content index (offset + config.frameSize) (offset + config.frameSize)
        after := by
  subst hposition
  have hleft : 1 ≤ s.framesLeftInFile := by
    rw [h.framesLeft (by omega) hlength]
    exact (Nat.one_le_div_iff (Nat.pos_of_ne_zero hsize)).mpr (by omega)
  have hread := readBlock_fits h.opened le_rfl (h.isEOF_eq heof) (by rwa [h.frameSize]) hleft
    (h.frameSize.symm ▸ readBlock_zeros h.stream hsize hzeros hbuffer)
  exact h.transfer_of_readBlock (h.isEOF_eq heof) hread
    (h.finished (by rw [h.frameSize]) (by omega) _ _)

section AtEnd

variable (hposition : position = offset) (hinside : offset ≤ content.length)
  (hend : content.length < offset + config.frameSize)
include hposition hinside hend

omit hsize heof in
theorem Reading.framesLeft_eq_zero : s.framesLeftInFile = 0 := by
  rw [h.framesLeft (by omega) hlength]
  exact Nat.div_eq_of_lt (by omega)

/-- At the end of the file, an object that does not read in a loop pads the buffer, or more than the
buffer. -/
theorem Reading.transfer_pads (hloop : config.looping = false) :
    (config.padSize ≤ 2 * config.bufferSamples → ∃ after, s.transferFrames 1 = some (true, after) ∧
      Reading config content index position offset after) ∧
    (2 * config.bufferSamples < config.padSize → s.transferFrames 1 = none) := by
  have hleft := h.framesLeft_eq_zero hlength hposition hinside hend
  have hbeyond : s.readBlock (some (List.replicate (2 * config.bufferSamples) 0)) 1 = do
      let pData ← (fillRange (List.replicate (2 * config.bufferSamples) (0 : UInt8)) 0
        config.padSize 0).toOption
      return ⟨true, some pData, s⟩ := by
    rw [readBlock_beyond h.opened le_rfl (h.isEOF_eq heof) (by rwa [h.frameSize]) hleft, readBeyond,
      h.looping, hloop, if_pos rfl, h.bits, h.frameSize, Nat.sub_zero, Nat.one_mul, Nat.zero_mul]
    rfl
  constructor
  · intro hpad
    rw [fillRange_replicate (by rwa [Nat.zero_add])] at hbeyond
    exact h.transfer_of_readBlock (h.isEOF_eq heof) hbeyond h
  · intro hpad
    have hfill : fillRange (List.replicate (2 * config.bufferSamples) (0 : UInt8)) 0
        config.padSize 0 = .error .outOfBounds :=
      if_neg (by rw [Nat.zero_add, List.length_replicate]; exact Nat.not_le.mpr hpad)
    rw [hfill] at hbeyond
    rw [transferFrames, h.mode]
    dsimp only
    rw [h.isEOF_eq heof, if_neg Bool.false_ne_true, h.buffer, hbeyond]
    rfl

/-- At the end of the file, an object that reads in a loop goes back to its beginning. -/
theorem Reading.transfer_rewinds (hloop : config.looping = true)
    (hfits : config.frameSize ≤ content.length)
    (hzeros : content.take config.frameSize = List.replicate config.frameSize 0)
    (hbuffer : config.frameSize ≤ 2 * config.bufferSamples) :
    ∃ after, s.transferFrames 1 = some (true, after) ∧
      Reading config content index config.frameSize config.frameSize after := by
  have hleft := h.framesLeft_eq_zero hlength hposition hinside hend
  obtain ⟨io, hseek, hio⟩ : ∃ io, s.m_fileIO.setFilePosition 0 = (true, io) ∧
      io.m_pFileHandle = some ⟨content, 0, true, false, false⟩ :=
    ⟨_, CFileIO.setFilePosition_stream h.stream 0, rfl⟩
  have hread := readBlock_zeros hio hsize hzeros hbuffer
  have hbeyond := readBlock_beyond h.opened le_rfl (h.isEOF_eq heof) (by rwa [h.frameSize]) hleft
    (List.replicate (2 * config.bufferSamples) 0)
  rw [readBeyond_loop (h.looping.trans hloop) hseek (h.frameSize.symm ▸ hread)] at hbeyond
  have hrewound : Reading config content index 0 offset
      { s with m_lCurrentFilePos := 0, m_nCurrentFrame := 0 } := { h with position := rfl }
  exact h.transfer_of_readBlock (h.isEOF_eq heof) hbeyond
    (hrewound.finished (by rw [Nat.zero_add, h.frameSize]) (hfits.trans_lt hlength) _ _)

end AtEnd

end Transfer

end RdbLibs.FileIO.CRawAudioFileIO
