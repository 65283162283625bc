import RdbLibs.FileIO.CRawAudioFileIO.Model
import RdbLibs.FileIO.RawBlocks

/-!
# Positions in a raw audio file

`readBlock` of the class is the `readBlock` of its blocks: it decides and reads by the members that
`RawBlocks` has, and moves no other. `setCurrentFrame` is the one by which a caller moves the object
to a frame.
-/

set_option autoImplicit false
set_option relaxedAutoImplicit false

namespace RdbLibs.FileIO.CRawAudioFileIO

/-- The members by which blocks are read. -/
def blocks (s : CRawAudioFileIO) : RawBlocks where
  m_nFrameSize := s.m_nFrameSize
  m_bFileOpened := s.m_bFileOpened
  m_nFramesInFile := s.m_nFramesInFile
  m_nCurrentFrameIdx := s.m_nCurrentFrameIdx
  m_nCurrentFrame := s.m_nCurrentFrame
  m_bUseLoopingRead := s.m_bUseLoopingRead
  bits := s.m_nBitsPerSample
  m_fileIO := s.m_fileIO
  m_lFileSize := s.m_lFileSize
  m_lCurrentFilePos := s.m_lCurrentFilePos

/-- The members that a call on blocks moves. -/
def withBlocks (s : CRawAudioFileIO) (b : RawBlocks) : CRawAudioFileIO :=
  { s with
    m_nCurrentFrame := b.m_nCurrentFrame
    m_fileIO := b.m_fileIO
    m_lCurrentFilePos := b.m_lCurrentFilePos }

/-- `CRawAudioFileIO::setCurrentFrame`. -/
def setCurrentFrame (s : CRawAudioFileIO) (frameNum : ℕ) : Bool × CRawAudioFileIO :=
  let (status, b) := s.blocks.setCurrentFrame frameNum
  (status, s.withBlocks b)

/-- `CRawAudioFileIO::resetPlayPosition`. -/
def resetPlayPosition (s : CRawAudioFileIO) : Bool × CRawAudioFileIO :=
  (true, { (s.setCurrentFrame 0).2 with m_nCurrentFrameIdx := 0 })

/-- What a call on blocks leaves, as a result of `readBlock`. -/
def ofBlocks (s : CRawAudioFileIO) (result : RawBlocks.BlockResult) : ReadResult :=
  ⟨result.status, result.pData, s.withBlocks result.blocks⟩

theorem finishRead_eq (s : CRawAudioFileIO) (b : RawBlocks) (status : Bool) (nReadSize : ℕ) :
    (s.withBlocks b).finishRead status nReadSize =
      s.withBlocks (b.finishRead status nReadSize) := by
  cases status with
  | false => rfl
  | true => rfl

/-- Two sequences that begin alike, and go on to what a function translates. -/
theorem bind_eq_map_bind {α β γ : Type} {first : Option α} {next : α → Option γ}
    {next' : α → Option β} {translate : β → γ}
    (hnext : ∀ value, next value = (next' value).map translate) :
    (first >>= next) = (first >>= next').map translate := by
  cases first with
  | none => rfl
  | some value => exact hnext value

theorem readBeyond_eq (s : CRawAudioFileIO) (io : CFileIO) (target : List UInt8)
    (numFrames left : ℕ) :
    readBeyond { s with m_fileIO := io } target numFrames left =
      (RawBlocks.readBeyond { s.blocks with m_fileIO := io } target numFrames left).map
        s.ofBlocks := by
  have hloop : s.blocks.m_bUseLoopingRead = s.m_bUseLoopingRead := rfl
  have hbits : s.blocks.bits = s.m_nBitsPerSample := rfl
  have hsize : s.blocks.m_nFrameSize = s.m_nFrameSize := rfl
  unfold readBeyond RawBlocks.readBeyond
  dsimp only
  rw [hloop, hbits, hsize]
  by_cases hlooping : s.m_bUseLoopingRead = false
  · rw [if_pos hlooping, if_pos hlooping]
    by_cases hrefused : s.m_nBitsPerSample ≠ 16 ∧ s.m_nBitsPerSample ≠ 32
    · rw [if_pos hrefused, if_pos hrefused]
      rfl
    · rw [if_neg hrefused, if_neg hrefused]
      exact bind_eq_map_bind fun _ ↦ rfl
  · rw [if_neg hlooping, if_neg hlooping]
    by_cases hstatus : (io.setFilePosition 0).1 = false
    · rw [if_pos hstatus, if_pos hstatus]
      rfl
    · rw [if_neg hstatus, if_neg hstatus]
      refine bind_eq_map_bind fun read ↦ ?_
      split_ifs
      · rfl
      · rfl

theorem readBlock_eq (s : CRawAudioFileIO) (pData : Option (List UInt8)) (numFrames : ℕ) :
    s.readBlock pData numFrames = (s.blocks.readBlock pData numFrames).map s.ofBlocks := by
  cases pData with
  | none => rfl
  | some target =>
    have hopen : s.blocks.m_bFileOpened = s.m_bFileOpened := rfl
    have heof : s.blocks.isEOF = s.isEOF := rfl
    have hleft : s.blocks.framesLeftInFile = s.framesLeftInFile := rfl
    have hsize : s.blocks.m_nFrameSize = s.m_nFrameSize := rfl
    have hio : s.blocks.m_fileIO = s.m_fileIO := rfl
    unfold readBlock RawBlocks.readBlock RawBlocks.readLeft
    dsimp only
    rw [heof, hleft, hsize, hopen, hio]
    split_ifs
    · rfl
    · rfl
    · rfl
    · refine bind_eq_map_bind fun read ↦ ?_
      split_ifs
      · rfl
      · exact readBeyond_eq s read.2.2 read.2.1 numFrames s.framesLeftInFile
    · refine bind_eq_map_bind fun read ↦ ?_
      split_ifs
      · rfl
      · exact readBeyond_eq s read.2.2 read.2.1 numFrames s.framesLeftInFile
    · refine bind_eq_map_bind fun read ↦ ?_
      rw [Option.pure_def, Option.pure_def, Option.map_some]
      refine congrArg some ?_
      exact congrArg (ReadResult.mk _ _)
        (finishRead_eq s { s.blocks with m_fileIO := read.2.2 } read.1 numFrames)

theorem blocks_withBlocks {s : CRawAudioFileIO} {b : RawBlocks} (h : RawBlocks.Moves s.blocks b) :
    (s.withBlocks b).blocks = b := h.symm

theorem blocks_setCurrentFrame (s : CRawAudioFileIO) (frameNum : ℕ) :
    (s.setCurrentFrame frameNum).2.blocks = (s.blocks.setCurrentFrame frameNum).2 :=
  blocks_withBlocks (RawBlocks.moves_setCurrentFrame s.blocks frameNum)

/-- A call of `readBlock` is one of the blocks. -/
theorem readBlock_blocks {s : CRawAudioFileIO} {pData : Option (List UInt8)} {numFrames : ℕ}
    {result : ReadResult} (hread : s.readBlock pData numFrames = some result) :
    s.blocks.readBlock pData numFrames = some ⟨result.status, result.pData, result.s.blocks⟩ := by
  rw [readBlock_eq, Option.map_eq_some_iff] at hread
  obtain ⟨answer, hanswer, rfl⟩ := hread
  rw [hanswer, ofBlocks, blocks_withBlocks (RawBlocks.moves_readBlock hanswer)]

end RdbLibs.FileIO.CRawAudioFileIO
