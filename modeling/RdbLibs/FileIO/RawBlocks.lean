import RdbLibs.Foundations.BlockAccess
import RdbLibs.Foundations.MachineWord
import RdbLibs.FileIO.CFileIO

/-!
# Blocks of frames in raw files

`CRawAudioFileIO::readBlock` and `CRawVideoFileIO::readVideoBlock` are one text, and so are `isEOF`
and `setCurrentFrame` of the two classes. `RawBlocks` has the members that these functions use, with
`bits` for `m_nBitsPerSample` of the one class and `m_bitsPerPixel` of the other. The functions know
two positions in a file: the offset of the stream, at which they read, and `m_lCurrentFilePos`, by
which they decide how much is left.
-/

set_option autoImplicit false
set_option relaxedAutoImplicit false

namespace RdbLibs.FileIO

open BlockAccess CheckedMemory FileStream MachineWord

/-- The members by which blocks of a raw file are read. -/
structure RawBlocks where
  m_nFrameSize : ℕ
  m_bFileOpened : Bool
  m_nFramesInFile : ℕ
  m_nCurrentFrameIdx : ℕ
  m_nCurrentFrame : ℤ
  m_bUseLoopingRead : Bool
  bits : ℤ
  m_fileIO : CFileIO
  m_lFileSize : ℕ
  m_lCurrentFilePos : ℕ

namespace RawBlocks

/-- The answer of `readBlock`, the memory at `pData`, and what becomes of the object. -/
structure BlockResult where
  status : Bool
  pData : Option (List UInt8)
  blocks : RawBlocks

/-- `isEOF`. -/
def isEOF (b : RawBlocks) : Bool := decide (b.m_nFramesInFile ≤ b.m_nCurrentFrameIdx)

/-- The end of `readBlock`, after `nReadSize` frames have been read. -/
def finishRead (b : RawBlocks) (status : Bool) (nReadSize : ℕ) : RawBlocks :=
  let b := { b with m_lCurrentFilePos := intToSize b.m_fileIO.getFilePosition }
  if status then { b with m_nCurrentFrame := b.m_nCurrentFrame + nReadSize } else b

/-- The branch of `readBlock` for a read that exceeds the file, behind what is left of it. The
comparison of `nFramesLeftInFile` with zero is one of an unsigned number, and never true. -/
def readBeyond (b : RawBlocks) (pData : List UInt8) (numFrames nFramesLeftInFile : ℕ) :
    Option BlockResult := do
  if b.m_bUseLoopingRead = false then
    let sizeOfItem := if b.bits = 16 then 2 else 4
    if b.bits ≠ 16 ∧ b.bits ≠ 32 then return ⟨false, some pData, b⟩
    let nPadSize := toInt ((numFrames - nFramesLeftInFile) * b.m_nFrameSize * sizeOfItem)
    let pPadStart := sizeOfItem * (nFramesLeftInFile * b.m_nFrameSize)
    let pData ← (fillRange pData pPadStart (intToSize nPadSize) 0).toOption
    return ⟨true, some pData, b⟩
  let (status, io) := b.m_fileIO.setFilePosition 0
  let b := { b with m_fileIO := io }
  if status = false then return ⟨false, some pData, { b with m_fileIO := b.m_fileIO.closeFile.2 }⟩
  let b := { b with m_lCurrentFilePos := 0, m_nCurrentFrame := 0 }
  let nReadSize := toUnsigned (numFrames - nFramesLeftInFile)
  let (status, pData, io) ← b.m_fileIO.readBlock pData b.m_nFrameSize nReadSize
  let b := { b with m_fileIO := io }
  if status = false then return ⟨false, some pData, b⟩
  return ⟨true, some pData, b.finishRead true nReadSize⟩

/-- `nFramesLeftInFile` of `readBlock`, where a frame has a size. -/
def framesLeftInFile (b : RawBlocks) : ℕ :=
  toSize (b.m_lFileSize + 2 ^ 64 - b.m_lCurrentFilePos) / b.m_nFrameSize

/-- The read of `readBlock` of what is left of the file, if there is something left. -/
def readLeft (b : RawBlocks) (pData : List UInt8) : Option (Bool × List UInt8 × CFileIO) :=
  if 0 < b.framesLeftInFile then
    b.m_fileIO.readBlock pData b.m_nFrameSize (toUnsigned b.framesLeftInFile)
  else some (true, pData, b.m_fileIO)

/-- `readBlock`. -/
def readBlock (b : RawBlocks) (pData : Option (List UInt8)) (numFrames : ℕ) :
    Option BlockResult :=
  match pData with
  | none => some ⟨false, none, b⟩
  | some target =>
    if b.m_bFileOpened = false ∨ numFrames < 1 then some ⟨false, some target, b⟩
    else if b.isEOF then some ⟨false, some target, b⟩
    else if b.m_nFrameSize = 0 then none
    else if b.framesLeftInFile < numFrames then do
      let (status, target, io) ← b.readLeft target
      let nFramesLeftInFile := b.framesLeftInFile
      let b := { b with m_fileIO := io }
      if status = false then return ⟨false, some target, b⟩
      b.readBeyond target numFrames nFramesLeftInFile
    else do
      let (status, target, io) ← b.m_fileIO.readBlock target b.m_nFrameSize numFrames
      return ⟨status, some target, finishRead { b with m_fileIO := io } status numFrames⟩

/-- `setCurrentFrame`. It moves both positions in the file, and not the number of the frame. -/
def setCurrentFrame (b : RawBlocks) (frameNum : ℕ) : Bool × RawBlocks :=
  if b.m_bFileOpened = false then (false, b)
  else
    let newFilePos := toUnsigned (frameNum * b.m_nFrameSize)
    if b.m_lFileSize ≤ newFilePos then (false, b)
    else
      let (status, io) := b.m_fileIO.setFilePosition newFilePos
      let b := { b with m_fileIO := io }
      if status = false then (false, b) else (true, { b with m_lCurrentFilePos := newFilePos })

/-! ### What a call moves -/

/-- All that differs are the positions. -/
def Moves (b b' : RawBlocks) : Prop :=
  b' = { b with
    m_nCurrentFrame := b'.m_nCurrentFrame
    m_fileIO := b'.m_fileIO
    m_lCurrentFilePos := b'.m_lCurrentFilePos }

theorem Moves.refl (b : RawBlocks) : Moves b b := rfl

theorem moves_finishRead (b : RawBlocks) (io : CFileIO) (filePos : ℕ) (frame : ℤ) (status : Bool)
    (nReadSize : ℕ) :
    Moves b (finishRead { b with
      m_fileIO := io
      m_lCurrentFilePos := filePos
      m_nCurrentFrame := frame } status nReadSize) := by
  cases status with
  | false => rfl
  | true => rfl

theorem moves_readBeyond {b : RawBlocks} {io : CFileIO} {pData : List UInt8}
    {numFrames left : ℕ} {result : BlockResult}
    (hread : readBeyond { b with m_fileIO := io } pData numFrames left = some result) :
    Moves b result.blocks := by
  unfold readBeyond at hread
  dsimp only at hread
  split_ifs at hread
  · obtain rfl := Option.some.inj hread
    rfl
  · obtain ⟨target, -, hresult⟩ := Option.bind_eq_some_iff.mp hread
    obtain rfl := Option.some.inj hresult
    rfl
  · obtain ⟨target, -, hresult⟩ := Option.bind_eq_some_iff.mp hread
    obtain rfl := Option.some.inj hresult
    rfl
  · obtain rfl := Option.some.inj hread
    rfl
  · obtain ⟨⟨status, target, io'⟩, -, hresult⟩ := Option.bind_eq_some_iff.mp hread
    cases status with
    | false =>
      obtain rfl := Option.some.inj hresult
      rfl
    | true =>
      obtain rfl := Option.some.inj hresult
      exact moves_finishRead b io' 0 0 true _

/-- A read of blocks changes nothing but the positions. -/
theorem moves_readBlock {b : RawBlocks} {pData : Option (List UInt8)} {numFrames : ℕ}
    {result : BlockResult} (hread : b.readBlock pData numFrames = some result) :
    Moves b result.blocks := by
  cases pData with
  | none =>
    obtain rfl := Option.some.inj hread
    exact .refl b
  | some target =>
    unfold readBlock at hread
    dsimp only at hread
    split_ifs at hread
    · obtain rfl := Option.some.inj hread
      exact .refl b
    · obtain rfl := Option.some.inj hread
      exact .refl b
    · obtain ⟨⟨status, target, io⟩, -, hresult⟩ := Option.bind_eq_some_iff.mp hread
      cases status with
      | false =>
        obtain rfl := Option.some.inj hresult
        rfl
      | true => exact moves_readBeyond hresult
    · obtain ⟨⟨status, target, io⟩, -, hresult⟩ := Option.bind_eq_some_iff.mp hread
      obtain rfl := Option.some.inj hresult
      exact moves_finishRead b io b.m_lCurrentFilePos b.m_nCurrentFrame status numFrames

theorem moves_setCurrentFrame (b : RawBlocks) (frameNum : ℕ) :
    Moves b (b.setCurrentFrame frameNum).2 := by
  unfold setCurrentFrame
  dsimp only
  split_ifs
  · exact .refl b
  · exact .refl b
  · rfl
  · rfl

/-- A property of the stream and of `m_lCurrentFilePos` that every step of a read keeps. -/
structure Kept (P : CFileIO → ℕ → Prop) : Prop where
  read : ∀ {io io' : CFileIO} {filePos size count : ℕ} {target pData : List UInt8} {status : Bool},
    P io filePos → io.readBlock target size count = some (status, pData, io') → P io' filePos
  note : ∀ {io : CFileIO} {filePos : ℕ}, P io filePos → P io (intToSize io.getFilePosition)
  rewind : ∀ {io : CFileIO} {filePos : ℕ}, P io filePos →
    (io.setFilePosition 0).1 = true ∧ P (io.setFilePosition 0).2 0

section Keeps

variable {P : CFileIO → ℕ → Prop} (hkept : Kept P) {b : RawBlocks} {numFrames : ℕ}
  {result : BlockResult}
include hkept

theorem Kept.finishRead (hb : P b.m_fileIO b.m_lCurrentFilePos) (status : Bool) (nReadSize : ℕ) :
    P (RawBlocks.m_fileIO (b.finishRead status nReadSize))
      (b.finishRead status nReadSize).m_lCurrentFilePos := by
  cases status with
  | false => exact hkept.note hb
  | true => exact hkept.note hb

theorem Kept.readBeyond (hb : P b.m_fileIO b.m_lCurrentFilePos) {pData : List UInt8} {left : ℕ}
    (hread : b.readBeyond pData numFrames left = some result) :
    P result.blocks.m_fileIO result.blocks.m_lCurrentFilePos := by
  obtain ⟨hseek, hrewound⟩ := hkept.rewind hb
  have hsought : ¬(b.m_fileIO.setFilePosition 0).1 = false := by
    rw [hseek]
    exact Bool.noConfusion
  unfold RawBlocks.readBeyond at hread
  dsimp only at hread
  rw [if_neg hsought] at hread
  split_ifs at hread
  · obtain rfl := Option.some.inj hread
    exact hb
  · obtain ⟨target, -, hresult⟩ := Option.bind_eq_some_iff.mp hread
    obtain rfl := Option.some.inj hresult
    exact hb
  · obtain ⟨target, -, hresult⟩ := Option.bind_eq_some_iff.mp hread
    obtain rfl := Option.some.inj hresult
    exact hb
  · obtain ⟨⟨status, target, io⟩, htransfer, hresult⟩ := Option.bind_eq_some_iff.mp hread
    have hafter := hkept.read hrewound htransfer
    cases status with
    | false =>
      obtain rfl := Option.some.inj hresult
      exact hafter
    | true =>
      obtain rfl := Option.some.inj hresult
      exact hkept.finishRead hafter true _

/-- What every step of a read keeps is kept by a call. -/
theorem Kept.readBlock (hb : P b.m_fileIO b.m_lCurrentFilePos) {pData : Option (List UInt8)}
    (hread : b.readBlock pData numFrames = some result) :
    P result.blocks.m_fileIO result.blocks.m_lCurrentFilePos := by
  cases pData with
  | none =>
    obtain rfl := Option.some.inj hread
    exact hb
  | some target =>
    unfold RawBlocks.readBlock readLeft at hread
    dsimp only at hread
    split_ifs at hread
    · obtain rfl := Option.some.inj hread
      exact hb
    · obtain rfl := Option.some.inj hread
      exact hb
    · obtain ⟨⟨status, target, io⟩, htransfer, hresult⟩ := Option.bind_eq_some_iff.mp hread
      have hafter := hkept.read hb htransfer
      cases status with
      | false =>
        obtain rfl := Option.some.inj hresult
        exact hafter
      | true => exact hkept.readBeyond hafter hresult
    · exact hkept.readBeyond hb hread
    · obtain ⟨⟨status, target, io⟩, htransfer, hresult⟩ := Option.bind_eq_some_iff.mp hread
      obtain rfl := Option.some.inj hresult
      have hafter := hkept.read hb htransfer
      exact hkept.finishRead (b := { b with m_fileIO := io }) hafter status numFrames

end Keeps

/-! ### Reading a file -/

/-- A call is refused where `isEOF` says that the file is at its end. -/
theorem readBlock_eof {b : RawBlocks} (heof : b.isEOF = true) (pData : Option (List UInt8))
    (numFrames : ℕ) : b.readBlock pData numFrames = some ⟨false, pData, b⟩ := by
  cases pData with
  | none => rfl
  | some target =>
    unfold readBlock
    dsimp only
    rw [if_pos heof, ite_self]

/-- The object with the stream of a file that is open for reading, at an offset. -/
def streamAt (b : RawBlocks) (content : List UInt8) (offset : ℕ) : RawBlocks :=
  { b with m_fileIO := { b.m_fileIO with
      m_pFileHandle := some ⟨content, offset, true, false, false⟩ } }

/-- The object reads a file, and its stream is at an offset. -/
structure Reads (content : List UInt8) (offset : ℕ) (b : RawBlocks) : Prop where
  opened : b.m_bFileOpened = true
  frameSize : b.m_nFrameSize ≠ 0
  stream : b.m_fileIO.m_pFileHandle = some ⟨content, offset, true, false, false⟩
  fileSize : b.m_lFileSize = content.length
  framesInFile : b.m_nFramesInFile = content.length / b.m_nFrameSize
  small : content.length < 2 ^ 63
  filePos_le : b.m_lCurrentFilePos ≤ content.length

namespace Reads

variable {content : List UInt8} {offset : ℕ} {b : RawBlocks}

theorem streamAt (h : Reads content offset b) (offset' : ℕ) :
    Reads content offset' (b.streamAt content offset') :=
  { h with stream := rfl }

theorem getFilePosition_eq (h : Reads content offset b) : b.m_fileIO.getFilePosition = offset :=
  CFileIO.getFilePosition_stream h.stream

/-- The end of a read notes the offset. -/
theorem finishRead_eq (h : Reads content offset b) (hoffset : offset ≤ content.length)
    (status : Bool) (nReadSize : ℕ) : b.finishRead status nReadSize = { b with
      m_lCurrentFilePos := offset
      m_nCurrentFrame := if status then b.m_nCurrentFrame + nReadSize else b.m_nCurrentFrame } := by
  have hsmall := h.small
  have hpos : intToSize b.m_fileIO.getFilePosition = offset := by
    rw [h.getFilePosition_eq, intToSize_of_lt (by omega)]
  unfold finishRead
  rw [hpos]
  cases status with
  | false => rfl
  | true => rfl

theorem framesLeftInFile_eq (h : Reads content offset b) :
    b.framesLeftInFile = (content.length - b.m_lCurrentFilePos) / b.m_nFrameSize := by
  have hsmall := h.small
  have hle := h.filePos_le
  have hleft : toSize (content.length + 2 ^ 64 - b.m_lCurrentFilePos) =
      content.length - b.m_lCurrentFilePos := by
    rw [toSize]
    omega
  rw [framesLeftInFile, h.fileSize, hleft]

theorem framesLeft_eq_zero_iff (h : Reads content offset b) :
    b.framesLeftInFile = 0 ↔ content.length - b.m_lCurrentFilePos < b.m_nFrameSize := by
  rw [h.framesLeftInFile_eq, Nat.div_eq_zero_iff, or_iff_right h.frameSize]

/-- What is left behind the frame at which `m_lCurrentFilePos` is. -/
theorem framesLeft_of_filePos (h : Reads content offset b) {frame : ℕ}
    (hframe : b.m_lCurrentFilePos = frame * b.m_nFrameSize) :
    b.framesLeftInFile = b.m_nFramesInFile - frame := by
  rw [h.framesLeftInFile_eq, hframe, Nat.mul_comm, Nat.sub_mul_div, h.framesInFile]

/-- Frames that are left are in the file. -/
theorem mul_le_of_framesLeft (h : Reads content offset b) {count : ℕ}
    (hcount : count ≤ b.framesLeftInFile) :
    b.m_nFrameSize * count ≤ content.length - b.m_lCurrentFilePos := by
  rw [h.framesLeftInFile_eq, Nat.le_div_iff_mul_le (Nat.pos_of_ne_zero h.frameSize)] at hcount
  rwa [Nat.mul_comm]

/-- A seek from the beginning of the file. -/
theorem setFilePosition_eq (h : Reads content offset b) (position : ℕ) :
    b.m_fileIO.setFilePosition position = (true, m_fileIO (b.streamAt content position)) :=
  CFileIO.setFilePosition_stream h.stream position

/-- `setCurrentFrame` moves both positions to a place inside the file, or nothing. -/
theorem setCurrentFrame_eq (h : Reads content offset b) (frameNum : ℕ) :
    b.setCurrentFrame frameNum =
      if b.m_lFileSize ≤ toUnsigned (frameNum * b.m_nFrameSize) then (false, b)
      else (true, { b.streamAt content (toUnsigned (frameNum * b.m_nFrameSize)) with
        m_lCurrentFilePos := toUnsigned (frameNum * b.m_nFrameSize) }) := by
  have hopen : ¬b.m_bFileOpened = false := by
    rw [h.opened]
    exact Bool.noConfusion
  unfold setCurrentFrame
  rw [if_neg hopen]
  dsimp only
  rw [h.setFilePosition_eq]
  rfl

/-- What a transfer of some frames leaves. -/
theorem readBlock_stream (h : Reads content offset b) {count length : ℕ}
    (hlength : length = min (b.m_nFrameSize * count) (content.length - offset))
    (target : List UInt8) :
    b.m_fileIO.readBlock target b.m_nFrameSize count = if length ≤ target.length then
      some (length / b.m_nFrameSize == count,
        (content.drop offset).take length ++ target.drop length,
        m_fileIO (b.streamAt content (offset + length)))
      else none :=
  CFileIO.readBlock_stream h.stream h.frameSize hlength target

variable {numFrames : ℕ} (hpos : 1 ≤ numFrames) (hmore : b.isEOF = false)

include hpos in
/-- A call for some frames is not refused for its arguments. -/
theorem not_refused (h : Reads content offset b) :
    ¬(b.m_bFileOpened = false ∨ numFrames < 1) := by
  rw [h.opened]
  exact not_or.mpr ⟨Bool.noConfusion, Nat.not_lt.mpr hpos⟩

section Calls

include hpos hmore

/-- A read of more than what is counted as left. -/
theorem readBlock_less (h : Reads content offset b) (hless : b.framesLeftInFile < numFrames)
    (target : List UInt8) :
    b.readBlock (some target) numFrames = b.readLeft target >>= fun read ↦
      if read.1 = false then some ⟨false, some read.2.1, { b with m_fileIO := read.2.2 }⟩
      else readBeyond { b with m_fileIO := read.2.2 } read.2.1 numFrames b.framesLeftInFile := by
  unfold RawBlocks.readBlock
  dsimp only
  rw [if_neg (h.not_refused hpos), hmore, if_neg Bool.noConfusion, if_neg h.frameSize, if_pos hless]
  rfl

/-- A read that fits in what is counted as left. -/
theorem readBlock_fits (h : Reads content offset b) (hfits : numFrames ≤ b.framesLeftInFile)
    {length : ℕ} (hlength : length = min (b.m_nFrameSize * numFrames) (content.length - offset))
    (target : List UInt8) :
    b.readBlock (some target) numFrames = if length ≤ target.length then
      some ⟨length / b.m_nFrameSize == numFrames,
        some ((content.drop offset).take length ++ target.drop length),
        (b.streamAt content (offset + length)).finishRead (length / b.m_nFrameSize == numFrames)
          numFrames⟩
      else none := by
  unfold RawBlocks.readBlock
  dsimp only
  rw [if_neg (h.not_refused hpos), hmore, if_neg Bool.noConfusion, if_neg h.frameSize,
    if_neg (Nat.not_lt.mpr hfits), h.readBlock_stream hlength]
  split_ifs
  · rfl
  · rfl

/-- A read of more than what is counted as left, which is something. -/
theorem readBlock_exceeds (h : Reads content offset b) (hless : b.framesLeftInFile < numFrames)
    (hword : numFrames < 2 ^ 32) (hsome : 0 < b.framesLeftInFile) {length : ℕ}
    (hlength : length = min (b.m_nFrameSize * b.framesLeftInFile) (content.length - offset))
    (target : List UInt8) :
    b.readBlock (some target) numFrames = if length ≤ target.length then
      if length / b.m_nFrameSize = b.framesLeftInFile then
        (b.streamAt content (offset + length)).readBeyond
          ((content.drop offset).take length ++ target.drop length) numFrames b.framesLeftInFile
      else some ⟨false, some ((content.drop offset).take length ++ target.drop length),
        b.streamAt content (offset + length)⟩
      else none := by
  have hcount : toUnsigned b.framesLeftInFile = b.framesLeftInFile :=
    toUnsigned_of_lt (hless.trans hword)
  rw [h.readBlock_less hpos hmore hless, readLeft, if_pos hsome, hcount,
    h.readBlock_stream hlength]
  split_ifs with hroom hall
  · rw [hall, beq_self_eq_true]
    rfl
  · rw [beq_eq_false_iff_ne.mpr hall]
    rfl
  · rfl

/-- A read of frames that are there. -/
theorem readBlock_complete (h : Reads content offset b) (hfits : numFrames ≤ b.framesLeftInFile)
    (hinside : offset + b.m_nFrameSize * numFrames ≤ content.length) (target : List UInt8) :
    b.readBlock (some target) numFrames = if b.m_nFrameSize * numFrames ≤ target.length then
      some ⟨true, some ((content.drop offset).take (b.m_nFrameSize * numFrames) ++
          target.drop (b.m_nFrameSize * numFrames)),
        { b.streamAt content (offset + b.m_nFrameSize * numFrames) with
          m_lCurrentFilePos := offset + b.m_nFrameSize * numFrames
          m_nCurrentFrame := b.m_nCurrentFrame + numFrames }⟩
      else none := by
  have hlength : b.m_nFrameSize * numFrames =
      min (b.m_nFrameSize * numFrames) (content.length - offset) := by omega
  have hcomplete : (b.m_nFrameSize * numFrames / b.m_nFrameSize == numFrames) = true := by
    rw [Nat.mul_div_cancel_left _ (Nat.pos_of_ne_zero h.frameSize), beq_self_eq_true]
  rw [h.readBlock_fits hpos hmore hfits hlength, hcomplete,
    (h.streamAt _).finishRead_eq hinside, if_pos rfl]
  rfl

/-- A read of more than what is counted as left, where this is there. -/
theorem readBlock_last (h : Reads content offset b) (hless : b.framesLeftInFile < numFrames)
    (hword : numFrames < 2 ^ 32) (hsome : 0 < b.framesLeftInFile)
    (hinside : offset + b.m_nFrameSize * b.framesLeftInFile ≤ content.length)
    (target : List UInt8) :
    b.readBlock (some target) numFrames =
      if b.m_nFrameSize * b.framesLeftInFile ≤ target.length then
        (b.streamAt content (offset + b.m_nFrameSize * b.framesLeftInFile)).readBeyond
          ((content.drop offset).take (b.m_nFrameSize * b.framesLeftInFile) ++
            target.drop (b.m_nFrameSize * b.framesLeftInFile)) numFrames b.framesLeftInFile
      else none := by
  have hlength : b.m_nFrameSize * b.framesLeftInFile =
      min (b.m_nFrameSize * b.framesLeftInFile) (content.length - offset) := by omega
  have hcomplete : b.m_nFrameSize * b.framesLeftInFile / b.m_nFrameSize = b.framesLeftInFile :=
    Nat.mul_div_cancel_left _ (Nat.pos_of_ne_zero h.frameSize)
  rw [h.readBlock_exceeds hpos hmore hless hword hsome hlength, if_pos hcomplete]

/-- A read where nothing is counted as left. -/
theorem readBlock_spent (h : Reads content offset b) (hnone : b.framesLeftInFile = 0)
    (target : List UInt8) :
    b.readBlock (some target) numFrames = b.readBeyond target numFrames 0 := by
  rw [h.readBlock_less hpos hmore (by omega), readLeft, hnone, if_neg (Nat.lt_irrefl 0)]
  rfl

end Calls

end Reads

/-- The object reads a file, and both its positions are those of the frame that it counts. -/
structure Positioned (content : List UInt8) (frame : ℕ) (b : RawBlocks) : Prop
    extends Reads content (frame * b.m_nFrameSize) b where
  filePos : b.m_lCurrentFilePos = frame * b.m_nFrameSize
  currentFrame : b.m_nCurrentFrame = frame

/-- The bytes of some frames, from one of them on. -/
def framesFrom (frameBytes : ℕ) (content : List UInt8) (first count : ℕ) : List UInt8 :=
  (content.drop (first * frameBytes)).take (count * frameBytes)

theorem length_framesFrom {frameBytes first count : ℕ} {content : List UInt8}
    (h : (first + count) * frameBytes ≤ content.length) :
    (framesFrom frameBytes content first count).length = count * frameBytes := by
  rw [Nat.add_mul] at h
  rw [framesFrom, List.length_take, List.length_drop]
  omega

/-- One of some frames. -/
theorem frame_of_framesFrom {frameBytes first count : ℕ} {content : List UInt8}
    (h : (first + count) * frameBytes ≤ content.length) (behind : List UInt8) {i : ℕ}
    (hi : i < count) :
    ((framesFrom frameBytes content first count ++ behind).drop (frameBytes * i)).take frameBytes =
      framesFrom frameBytes content (first + i) 1 := by
  have hlength := length_framesFrom h
  have hend : frameBytes * i + frameBytes ≤ count * frameBytes := by
    rw [← Nat.mul_succ, Nat.mul_comm count]
    exact Nat.mul_le_mul_left _ hi
  have hstart : first * frameBytes + frameBytes * i = (first + i) * frameBytes := by
    rw [Nat.add_mul, Nat.mul_comm frameBytes]
  rw [List.drop_append_of_le_length (by omega),
    List.take_append_of_le_length (by rw [List.length_drop]; omega), framesFrom, List.drop_take,
    List.take_take, List.drop_drop, hstart, Nat.min_eq_left (by omega), framesFrom, Nat.one_mul]

namespace Positioned

variable {content : List UInt8} {frame : ℕ} {b : RawBlocks}

theorem framesLeft (h : Positioned content frame b) :
    b.framesLeftInFile = b.m_nFramesInFile - frame :=
  h.framesLeft_of_filePos h.filePos

theorem frame_le (h : Positioned content frame b) : frame ≤ b.m_nFramesInFile := by
  rw [h.framesInFile, Nat.le_div_iff_mul_le (Nat.pos_of_ne_zero h.frameSize), ← h.filePos]
  exact h.filePos_le

/-- The frames of the file are in it. -/
theorem mul_le (h : Positioned content frame b) {count : ℕ} (hcount : count ≤ b.m_nFramesInFile) :
    count * b.m_nFrameSize ≤ content.length := by
  rw [h.framesInFile] at hcount
  exact (Nat.mul_le_mul_right _ hcount).trans (Nat.div_mul_le_self ..)

/-- A read of frames that are left. -/
theorem readBlock_fits (h : Positioned content frame b) (hmore : b.isEOF = false) {numFrames : ℕ}
    (hpos : 1 ≤ numFrames) (hfits : frame + numFrames ≤ b.m_nFramesInFile) {target : List UInt8}
    (hroom : numFrames * b.m_nFrameSize ≤ target.length) :
    ∃ after, b.readBlock (some target) numFrames = some ⟨true,
        some (framesFrom b.m_nFrameSize content frame numFrames ++
          target.drop (numFrames * b.m_nFrameSize)), after⟩ ∧
      Positioned content (frame + numFrames) after := by
  have hend := h.mul_le hfits
  have hoffset : frame * b.m_nFrameSize + b.m_nFrameSize * numFrames =
      (frame + numFrames) * b.m_nFrameSize := by rw [Nat.mul_comm b.m_nFrameSize, Nat.add_mul]
  have hleft : numFrames ≤ b.framesLeftInFile := by
    rw [h.framesLeft]
    omega
  have hinside : frame * b.m_nFrameSize + b.m_nFrameSize * numFrames ≤ content.length := by
    rwa [hoffset]
  rw [Nat.mul_comm] at hroom
  rw [h.readBlock_complete hpos hmore hleft hinside, if_pos hroom, hoffset,
    Nat.mul_comm b.m_nFrameSize]
  refine ⟨_, rfl, ⟨?_, rfl, ?_⟩⟩
  · exact { h.toReads.streamAt ((frame + numFrames) * b.m_nFrameSize) with filePos_le := hend }
  · show b.m_nCurrentFrame + numFrames = _
    rw [h.currentFrame, Nat.cast_add]

/-- A read of more frames than are left, of which there are some, goes on behind them. -/
theorem readBlock_last (h : Positioned content frame b) (hmore : b.isEOF = false) {numFrames : ℕ}
    (hsome : frame < b.m_nFramesInFile) (hless : b.m_nFramesInFile - frame < numFrames)
    (hword : numFrames < 2 ^ 32) {target : List UInt8}
    (hroom : (b.m_nFramesInFile - frame) * b.m_nFrameSize ≤ target.length) :
    b.readBlock (some target) numFrames =
      (b.streamAt content (b.m_nFramesInFile * b.m_nFrameSize)).readBeyond
        (framesFrom b.m_nFrameSize content frame (b.m_nFramesInFile - frame) ++
          target.drop ((b.m_nFramesInFile - frame) * b.m_nFrameSize))
        numFrames (b.m_nFramesInFile - frame) := by
  have hend := h.mul_le le_rfl
  have hleft := h.framesLeft
  have hoffset : frame * b.m_nFrameSize + b.m_nFrameSize * (b.m_nFramesInFile - frame) =
      b.m_nFramesInFile * b.m_nFrameSize := by
    rw [Nat.mul_comm b.m_nFrameSize, ← Nat.add_mul, Nat.add_sub_cancel' hsome.le]
  have hinside : frame * b.m_nFrameSize + b.m_nFrameSize * b.framesLeftInFile ≤
      content.length := by
    rwa [hleft, hoffset]
  rw [Nat.mul_comm] at hroom
  rw [h.toReads.readBlock_last (by omega) hmore (by omega) hword (by omega) hinside, hleft,
    if_pos hroom, hoffset, Nat.mul_comm b.m_nFrameSize]
  rfl

end Positioned

/-- The numbers of bits for which `readBlock` pads what it cannot read. -/
def PadsBits (b : RawBlocks) : Prop := b.bits = 16 ∨ b.bits = 32

instance (b : RawBlocks) : Decidable b.PadsBits :=
  inferInstanceAs (Decidable (b.bits = 16 ∨ b.bits = 32))

section Beyond

variable {b : RawBlocks} (hlooping : b.m_bUseLoopingRead = false) (target : List UInt8)
  (numFrames left : ℕ)
include hlooping

theorem readBeyond_pads (hbits : b.PadsBits) : b.readBeyond target numFrames left =
    (fillRange target ((if b.bits = 16 then 2 else 4) * (left * b.m_nFrameSize))
      (intToSize (toInt ((numFrames - left) * b.m_nFrameSize * if b.bits = 16 then 2 else 4)))
        0).toOption.map fun pData ↦ ⟨true, some pData, b⟩ := by
  unfold readBeyond
  rw [if_pos hlooping]
  dsimp only
  rw [if_neg (by rintro ⟨h16, h32⟩; exact hbits.elim h16 h32)]
  exact (Option.map_eq_bind ..).symm

theorem readBeyond_refused (hbits : ¬b.PadsBits) :
    b.readBeyond target numFrames left = some ⟨false, some target, b⟩ := by
  unfold readBeyond
  rw [if_pos hlooping]
  dsimp only
  rw [if_pos (not_or.mp hbits)]
  rfl

end Beyond

/-- Without a loop, a read beyond the file moves nothing, and is successful if it pads. -/
theorem readBeyond_some {b : RawBlocks} (hlooping : b.m_bUseLoopingRead = false)
    {target : List UInt8} {numFrames left : ℕ} {result : BlockResult}
    (hread : b.readBeyond target numFrames left = some result) :
    (result.status = true ↔ b.PadsBits) ∧ result.blocks = b := by
  by_cases hbits : b.PadsBits
  · rw [readBeyond_pads hlooping target numFrames left hbits, Option.map_eq_some_iff] at hread
    obtain ⟨pData, -, rfl⟩ := hread
    exact ⟨iff_of_true rfl hbits, rfl⟩
  · rw [readBeyond_refused hlooping target numFrames left hbits] at hread
    obtain rfl := Option.some.inj hread
    exact ⟨iff_of_false Bool.noConfusion hbits, rfl⟩

/-- In a loop, a read beyond the file goes on at its beginning, and stores what it reads there where
`pData` begins. -/
theorem Reads.readBeyond_loops {b : RawBlocks} {content : List UInt8} {offset : ℕ}
    (h : Reads content offset b) (hlooping : b.m_bUseLoopingRead = true)
    {numFrames left count : ℕ} (hcount : toUnsigned (numFrames - left) = count)
    (hinside : b.m_nFrameSize * count ≤ content.length) (target : List UInt8) :
    b.readBeyond target numFrames left = if b.m_nFrameSize * count ≤ target.length then
      some ⟨true, some (content.take (b.m_nFrameSize * count) ++
          target.drop (b.m_nFrameSize * count)),
        { b.streamAt content (b.m_nFrameSize * count) with
          m_lCurrentFilePos := b.m_nFrameSize * count
          m_nCurrentFrame := count }⟩
      else none := by
  have hlength : b.m_nFrameSize * count = min (b.m_nFrameSize * count) (content.length - 0) := by
    omega
  have hcomplete : (b.m_nFrameSize * count / b.m_nFrameSize == count) = true := by
    rw [Nat.mul_div_cancel_left _ (Nat.pos_of_ne_zero h.frameSize), beq_self_eq_true]
  have hrewound : Reads content (b.m_nFrameSize * count)
      { b.streamAt content (b.m_nFrameSize * count) with
        m_lCurrentFilePos := 0, m_nCurrentFrame := 0 } :=
    { h.streamAt _ with filePos_le := Nat.zero_le _ }
  have hread := (h.streamAt 0).readBlock_stream hlength target
  rw [Nat.zero_add, List.drop_zero] at hread
  unfold readBeyond
  rw [if_neg (by rw [hlooping]; exact Bool.noConfusion), h.setFilePosition_eq]
  dsimp only
  have hsize : (b.streamAt content 0).m_nFrameSize = b.m_nFrameSize := rfl
  rw [hsize] at hread
  rw [if_neg Bool.noConfusion, hcount, hread]
  split_ifs
  · rw [hcomplete]
    refine congrArg (fun after ↦ some (BlockResult.mk true _ after)) ?_
    exact (hrewound.finishRead_eq hinside true count).trans (by rw [if_pos rfl, Int.zero_add])
  · rfl

namespace Positioned

variable {content : List UInt8} {frame numFrames : ℕ} {b : RawBlocks}

/-- In a loop, a read behind the last frame is one from the first frame on. -/
theorem readBlock_rewinds (h : Positioned content frame b) (hmore : b.isEOF = false)
    (hlooping : b.m_bUseLoopingRead = true) (hpos : 1 ≤ numFrames) (hword : numFrames < 2 ^ 32)
    (hspent : b.m_nFramesInFile ≤ frame) (hfits : numFrames ≤ b.m_nFramesInFile)
    {target : List UInt8} (hroom : numFrames * b.m_nFrameSize ≤ target.length) :
    ∃ after, b.readBlock (some target) numFrames = some ⟨true,
        some (framesFrom b.m_nFrameSize content 0 numFrames ++
          target.drop (numFrames * b.m_nFrameSize)), after⟩ ∧
      Positioned content numFrames after := by
  have hinside := h.mul_le hfits
  have hnone : b.framesLeftInFile = 0 := by
    rw [h.framesLeft]
    omega
  have hcount : toUnsigned (numFrames - 0) = numFrames := toUnsigned_of_lt hword
  rw [Nat.mul_comm] at hinside hroom
  rw [h.toReads.readBlock_spent hpos hmore hnone, h.readBeyond_loops hlooping hcount hinside,
    if_pos hroom, framesFrom, Nat.zero_mul, List.drop_zero, Nat.mul_comm numFrames]
  refine ⟨_, rfl, ⟨?_, Nat.mul_comm .., rfl⟩⟩
  rw [Nat.mul_comm]
  exact { h.toReads.streamAt _ with filePos_le := hinside }

/-- A read that goes on at the beginning of the file never writes the last of the frames that it is
asked for. -/
theorem readBlock_wraps (h : Positioned content frame b) (hmore : b.isEOF = false)
    (hlooping : b.m_bUseLoopingRead = true) (hword : numFrames < 2 ^ 32)
    (hsome : frame < b.m_nFramesInFile) (hless : b.m_nFramesInFile - frame < numFrames)
    (hfits : numFrames ≤ b.m_nFramesInFile) {target pData : List UInt8}
    (hroom : numFrames * b.m_nFrameSize ≤ target.length) {after : RawBlocks}
    (hread : b.readBlock (some target) numFrames = some ⟨true, some pData, after⟩) {k : ℕ}
    (hk : (numFrames - 1) * b.m_nFrameSize ≤ k) : pData[k]? = target[k]? := by
  obtain ⟨left, hleft⟩ : ∃ left, left = b.m_nFramesInFile - frame := ⟨_, rfl⟩
  obtain ⟨rest, hrest⟩ : ∃ rest, rest = numFrames - left := ⟨_, rfl⟩
  have hfirst : left * b.m_nFrameSize ≤ (numFrames - 1) * b.m_nFrameSize :=
    Nat.mul_le_mul_right _ (by omega)
  have hsecond : b.m_nFrameSize * rest ≤ (numFrames - 1) * b.m_nFrameSize := by
    rw [Nat.mul_comm]
    exact Nat.mul_le_mul_right _ (by omega)
  have hframes : (framesFrom b.m_nFrameSize content frame left).length = left * b.m_nFrameSize :=
    length_framesFrom (h.mul_le (by omega))
  have hinside : b.m_nFrameSize * rest ≤ content.length := by
    rw [Nat.mul_comm]
    exact h.mul_le (by omega)
  have hcount : toUnsigned (numFrames - left) = rest := by
    rw [← hrest]
    exact toUnsigned_of_lt (by omega)
  have hleftRoom : left * b.m_nFrameSize ≤ target.length :=
    (Nat.mul_le_mul_right _ (by omega)).trans hroom
  rw [h.readBlock_last hmore hsome hless hword (hleft ▸ hleftRoom), ← hleft,
    (h.toReads.streamAt _).readBeyond_loops (by exact hlooping) hcount (by exact hinside)] at hread
  obtain ⟨-, hresult⟩ := Option.ite_none_right_eq_some.mp hread
  have hstored : some (content.take (b.m_nFrameSize * rest) ++
      (framesFrom b.m_nFrameSize content frame left ++ target.drop (left * b.m_nFrameSize)).drop
        (b.m_nFrameSize * rest)) = some pData :=
    congrArg BlockResult.pData (Option.some.inj hresult)
  rw [← Option.some.inj hstored,
    getElem?_append_drop (List.length_take_of_le hinside) (hsecond.trans hk),
    getElem?_append_drop hframes (hfirst.trans hk)]

end Positioned

end RawBlocks

end RdbLibs.FileIO
