import RdbLibs.Foundations.ByteCodec
import RdbLibs.Foundations.MachineWord
import RdbLibs.FileIO.CFileIO
import RdbLibs.FileIO.InfoText

/-!
# `CRawAudioFileIO`

The class of `Src/FileIO/CAudioFileIO.cpp` that reads and writes raw audio files, with the members
of `CAudioFileIO` that it uses. Memory is a list of bytes, and samples are stored with their least
significant byte first. A function has no result where the sources leave its behaviour undefined:
an access outside of a block of memory, or a division by a frame size of zero. `m_nFrameSize`, the
number of samples of the frame buffer and an index into it are computed in `unsigned int`, and wrap
around.
-/

set_option autoImplicit false
set_option relaxedAutoImplicit false

namespace RdbLibs.FileIO

open ByteCodec CheckedMemory MachineWord

/-- `eAudioFileType_def`. -/
inductive eAudioFileType_def
  | unknown
  | raw
  | wav
  | aiff
  | mp3
  | aac
  | ac3
  | ec3
  | info
  | text
deriving DecidableEq

/-- `getAudioFileType`. -/
def getAudioFileType (filepath : List Char) : eAudioFileType_def :=
  if filepath.isEmpty then .unknown
  else
    let ext := extension filepath
    if ext.isEmpty ∨ ext = ['.', 'r', 'a', 'w'] then .raw
    else if ext = ['.', 'w', 'a', 'v'] then .wav
    else if ext = ['.', 'a', 'i', 'f', 'f'] then .aiff
    else if ext = ['.', 'm', 'p', '3'] then .mp3
    else if ext = ['.', 'a', 'a', 'c'] then .aac
    else if ext = ['.', 'a', 'c', '3'] then .ac3
    else if ext = ['.', 'e', 'c', '3'] then .ec3
    else if ext = ['.', 'i', 'n', 'f', 'o'] then .info
    else if ext = ['.', 't', 'x', 't'] ∨ ext = ['.', 't', 'e', 'x', 't'] then .text
    else .unknown

/-- `CRawAudioFileIO`. `infoFile` is the text of the info file beside the audio file, if there is
one. -/
structure CRawAudioFileIO where
  m_sampleRate : ℕ
  m_numChls : ℕ
  m_nFrameSize : ℕ
  m_sFilePath : List Char
  m_bFileOpened : Bool
  m_eMode : eFileIoMode_def
  m_nIoBlockSize : ℤ
  m_nFramesInFile : ℕ
  m_nCurrentFrameIdx : ℕ
  m_nIoCntr : ℤ
  m_nCurrentFrame : ℤ
  m_bUseLoopingRead : Bool
  m_eFileType : eAudioFileType_def
  m_nBitsPerSample : ℤ
  m_fileIO : CFileIO
  m_pFramebuffer : Option (List UInt8)
  m_lFileSize : ℕ
  m_lCurrentFilePos : ℕ
  m_lastChlRead : ℤ
  m_lastChlWritten : ℤ
  m_bCreateInfoTextFile : Bool
  infoFile : Option (List Char)

/-- What the system answers while a file is opened: whether `calloc` serves the memory, and whether
the file and the info file beside it can be opened. -/
structure OpenOutcome where
  allocated : Bool
  opened : Bool
  infoOpened : Bool

namespace CRawAudioFileIO

/-- The constructor, for a path at which the disk has the given file. -/
def new (numChannels : ℕ) (file : Option (List UInt8)) : CRawAudioFileIO where
  m_sampleRate := 0
  m_numChls := numChannels
  m_nFrameSize := toUnsigned (numChannels * 2)
  m_sFilePath := []
  m_bFileOpened := false
  m_eMode := .unknown
  m_nIoBlockSize := 0
  m_nFramesInFile := 0
  m_nCurrentFrameIdx := 0
  m_nIoCntr := -1
  m_nCurrentFrame := -1
  m_bUseLoopingRead := false
  m_eFileType := .unknown
  m_nBitsPerSample := 16
  m_fileIO := .new file
  m_pFramebuffer := none
  m_lFileSize := 0
  m_lCurrentFilePos := 0
  m_lastChlRead := -1
  m_lastChlWritten := -1
  m_bCreateInfoTextFile := false
  infoFile := none

/-- What the disk has at the path of the object. -/
def onDisk (s : CRawAudioFileIO) : Option (List UInt8) := s.m_fileIO.file

/-- `CAudioFileIO::setLoopingRead`. -/
def setLoopingRead (s : CRawAudioFileIO) (value : Bool) : CRawAudioFileIO :=
  { s with m_bUseLoopingRead := value }

/-- `CAudioFileIO::setSampleRate`. -/
def setSampleRate (s : CRawAudioFileIO) (rate : ℕ) : CRawAudioFileIO :=
  { s with m_sampleRate := rate }

/-- `CAudioFileIO::setIoBlockSize`. -/
def setIoBlockSize (s : CRawAudioFileIO) (numFrames : ℤ) : CRawAudioFileIO :=
  { s with m_nIoBlockSize := numFrames }

/-- The size of a sample in bytes, as `setSampleSize` and `openFile` choose it. -/
def sampleBytes (bitsPerSample : ℤ) : ℕ :=
  if bitsPerSample = 32 then 4 else if bitsPerSample = 8 then 1 else 2

/-- `CAudioFileIO::setSampleSize`. -/
def setSampleSize (s : CRawAudioFileIO) (numBits : ℤ) : CRawAudioFileIO :=
  let bits := if numBits = 16 ∨ numBits = 32 ∨ numBits = 8 then numBits else s.m_nBitsPerSample
  { s with
    m_nBitsPerSample := bits
    m_nFrameSize := toUnsigned (s.m_numChls * sampleBytes bits) }

/-- `CRawAudioFileIO::createInfoTextFile`. -/
def createInfoTextFile (s : CRawAudioFileIO) (value : Bool) : CRawAudioFileIO :=
  { s with m_bCreateInfoTextFile := value }

/-- `CRawAudioFileIO::isEOF`. -/
def isEOF (s : CRawAudioFileIO) : Bool := decide (s.m_nFramesInFile ≤ s.m_nCurrentFrameIdx)

/-- `CRawAudioFileIO::getNumFrames`, which leaves the stream at the beginning of the file.
`quotient` is the division in `float`, and its conversion to `int`. -/
def getNumFrames (quotient : ℤ → ℕ → ℤ) (s : CRawAudioFileIO) : ℤ × CRawAudioFileIO :=
  if s.m_bFileOpened = false ∨ s.m_eMode = .unknown ∨ s.m_eMode = .output ∨ s.m_numChls < 1 then
    (-1, s)
  else
    let (fileSize, io) := s.m_fileIO.getFileSize
    (quotient fileSize s.m_nFrameSize, { s with m_fileIO := (io.setFilePosition 0).2 })

/-! ### Blocks -/

/-- The answer of `readBlock`, the memory at `pData`, and what becomes of the object. -/
structure ReadResult where
  status : Bool
  pData : Option (List UInt8)
  s : CRawAudioFileIO

/-- The end of `readBlock`, after `nReadSize` frames have been read. -/
def finishRead (s : CRawAudioFileIO) (status : Bool) (nReadSize : ℕ) : CRawAudioFileIO :=
  let s := { s with m_lCurrentFilePos := intToSize s.m_fileIO.getFilePosition }
  if status then { s with m_nCurrentFrame := s.m_nCurrentFrame + nReadSize } else s

/-- The branch of `readBlock` for a read that exceeds the file, behind what is left of it. -/
def readBeyond (s : CRawAudioFileIO) (pData : List UInt8) (numFrames nFramesLeftInFile : ℕ) :
    Option ReadResult := do
  if s.m_bUseLoopingRead = false then
    let sizeOfSample := if s.m_nBitsPerSample = 16 then 2 else 4
    if s.m_nBitsPerSample ≠ 16 ∧ s.m_nBitsPerSample ≠ 32 then return ⟨false, some pData, s⟩
    let nPadSize := toInt ((numFrames - nFramesLeftInFile) * s.m_nFrameSize * sizeOfSample)
    let pPadStart := sizeOfSample * (nFramesLeftInFile * s.m_nFrameSize)
    let pData ← (fillRange pData pPadStart (intToSize nPadSize) 0).toOption
    return ⟨true, some pData, s⟩
  let (status, io) := s.m_fileIO.setFilePosition 0
  let s := { s with m_fileIO := io }
  if status = false then return ⟨false, some pData, { s with m_fileIO := s.m_fileIO.closeFile.2 }⟩
  let s := { s with m_lCurrentFilePos := 0, m_nCurrentFrame := 0 }
  let nReadSize := toUnsigned (numFrames - nFramesLeftInFile)
  let (status, pData, io) ← s.m_fileIO.readBlock pData s.m_nFrameSize nReadSize
  let s := { s with m_fileIO := io }
  if status = false then return ⟨false, some pData, s⟩
  return ⟨true, some pData, s.finishRead true nReadSize⟩

/-- `nFramesLeftInFile` of `readBlock`, where a frame has a size. -/
def framesLeftInFile (s : CRawAudioFileIO) : ℕ :=
  toSize (s.m_lFileSize + 2 ^ 64 - s.m_lCurrentFilePos) / s.m_nFrameSize

/-- `CRawAudioFileIO::readBlock`. -/
def readBlock (s : CRawAudioFileIO) (pData : Option (List UInt8)) (numFrames : ℕ) :
    Option ReadResult :=
  match pData with
  | none => some ⟨false, none, s⟩
  | some target =>
    if s.m_bFileOpened = false ∨ numFrames < 1 then some ⟨false, some target, s⟩
    else if s.isEOF then some ⟨false, some target, s⟩
    else if s.m_nFrameSize = 0 then none
    else if s.framesLeftInFile < numFrames then do
      let (status, target, io) ←
        if 0 < s.framesLeftInFile then
          s.m_fileIO.readBlock target s.m_nFrameSize (toUnsigned s.framesLeftInFile)
        else some (true, target, s.m_fileIO)
      let nFramesLeftInFile := s.framesLeftInFile
      let s := { s with m_fileIO := io }
      if status = false then return ⟨false, some target, s⟩
      s.readBeyond target numFrames nFramesLeftInFile
    else do
      let (status, target, io) ← s.m_fileIO.readBlock target s.m_nFrameSize numFrames
      return ⟨status, some target, finishRead { s with m_fileIO := io } status numFrames⟩

/-- A read that fits in the file is one read of the stream. -/
theorem readBlock_fits {s : CRawAudioFileIO} {target : List UInt8} {numFrames : ℕ}
    (hopen : s.m_bFileOpened = true) (hpos : 1 ≤ numFrames) (heof : s.isEOF = false)
    (hsize : s.m_nFrameSize ≠ 0) (hfits : numFrames ≤ s.framesLeftInFile) {status : Bool}
    {target' : List UInt8} {io : CFileIO}
    (hread : s.m_fileIO.readBlock target s.m_nFrameSize numFrames = some (status, target', io)) :
    s.readBlock (some target) numFrames = some ⟨status, some target',
      finishRead { s with m_fileIO := io } status numFrames⟩ := by
  have hrefused : ¬(s.m_bFileOpened = false ∨ numFrames < 1) := by
    rw [hopen]
    exact not_or.mpr ⟨Bool.noConfusion, Nat.not_lt.mpr hpos⟩
  rw [readBlock, if_neg hrefused, heof, if_neg Bool.noConfusion, if_neg hsize,
    if_neg (Nat.not_lt.mpr hfits), hread]
  rfl

/-- A read of more than what is left of the file, which is nothing. -/
theorem readBlock_beyond {s : CRawAudioFileIO} {numFrames : ℕ} (hopen : s.m_bFileOpened = true)
    (hpos : 1 ≤ numFrames) (heof : s.isEOF = false) (hsize : s.m_nFrameSize ≠ 0)
    (hleft : s.framesLeftInFile = 0) (target : List UInt8) :
    s.readBlock (some target) numFrames = s.readBeyond target numFrames 0 := by
  have hrefused : ¬(s.m_bFileOpened = false ∨ numFrames < 1) := by
    rw [hopen]
    exact not_or.mpr ⟨Bool.noConfusion, Nat.not_lt.mpr hpos⟩
  have hmore : 0 < numFrames := hpos
  rw [readBlock, if_neg hrefused, heof, if_neg Bool.noConfusion, if_neg hsize, hleft, if_pos hmore,
    if_neg (Nat.lt_irrefl 0)]
  rfl

/-- A read in a loop goes on at the beginning of the file. -/
theorem readBeyond_loop {s : CRawAudioFileIO} {target : List UInt8} {numFrames left : ℕ}
    (hloop : s.m_bUseLoopingRead = true) {io : CFileIO}
    (hseek : s.m_fileIO.setFilePosition 0 = (true, io)) {target' : List UInt8} {io' : CFileIO}
    (hread : io.readBlock target s.m_nFrameSize (toUnsigned (numFrames - left)) =
      some (true, target', io')) :
    s.readBeyond target numFrames left = some ⟨true, some target', finishRead { s with
      m_lCurrentFilePos := 0
      m_nCurrentFrame := 0
      m_fileIO := io' } true (toUnsigned (numFrames - left))⟩ := by
  rw [readBeyond, hloop, if_neg Bool.noConfusion, hseek]
  dsimp only
  rw [if_neg Bool.noConfusion, hread]
  rfl

/-- `CRawAudioFileIO::writeBlock`. -/
def writeBlock (s : CRawAudioFileIO) (pData : Option (List UInt8)) (numFrames : ℕ) :
    Option (Bool × CRawAudioFileIO) :=
  match pData with
  | none => return (false, s)
  | some source => do
    if numFrames < 1 ∨ s.m_eMode = .input ∨ s.m_pFramebuffer.isNone then return (false, s)
    let (status, io) ← s.m_fileIO.writeBlock source s.m_nFrameSize numFrames
    let s := { s with m_fileIO := io }
    let s := { s with m_lCurrentFilePos := intToSize s.m_fileIO.getFilePosition }
    if status = false then return (false, s)
    return (true, { s with
      m_nCurrentFrame := s.m_nCurrentFrame + numFrames
      m_nFramesInFile := s.m_nFramesInFile + numFrames })

/-! ### Samples and frames -/

/-- Both overloads of `CRawAudioFileIO::writeSample`, for samples of `size` bytes. -/
def writeSampleOfSize (size : ℕ) (s : CRawAudioFileIO) (data : ℤ) (chl : ℕ) :
    Option (Bool × CRawAudioFileIO) :=
  match s.m_pFramebuffer with
  | none => return (false, s)
  | some buffer => do
    if s.m_numChls ≤ chl ∨ s.m_eMode = .input ∨ s.m_nBitsPerSample ≠ 8 * size then
      return (false, s)
    let index := if s.m_nCurrentFrameIdx < 1 then chl
      else toUnsigned (s.m_nCurrentFrameIdx * s.m_numChls) + chl
    let bytes := littleEndian size (data % 256 ^ size).toNat
    let buffer ← (storeRange buffer (size * index) bytes).toOption
    let s := { s with m_pFramebuffer := some buffer }
    if toInt chl = s.m_lastChlWritten then return (true, s)
    return (true, { s with m_nIoCntr := s.m_nIoCntr + 1, m_lastChlWritten := toInt chl })

/-- `CRawAudioFileIO::writeSample` of an `int16_t`. -/
def writeSample16 : CRawAudioFileIO → ℤ → ℕ → Option (Bool × CRawAudioFileIO) :=
  writeSampleOfSize 2

/-- `CRawAudioFileIO::writeSample` of an `int32_t`. -/
def writeSample32 : CRawAudioFileIO → ℤ → ℕ → Option (Bool × CRawAudioFileIO) :=
  writeSampleOfSize 4

/-- Both overloads of `CRawAudioFileIO::readSample`, for samples of `size` bytes. The answer is what
is stored in `data`, if the call returns true; otherwise it stores nothing. -/
def readSampleOfSize (size : ℕ) (s : CRawAudioFileIO) (chl : ℕ) :
    Option (Option ℤ × CRawAudioFileIO) :=
  match s.m_pFramebuffer with
  | none => return (none, s)
  | some buffer => do
    if s.m_bFileOpened = false ∨ s.m_numChls ≤ chl ∨ s.m_nBitsPerSample ≠ 8 * size then
      return (none, s)
    if s.isEOF then return (none, s)
    let index := if s.m_nCurrentFrameIdx < 1 then chl
      else toUnsigned (s.m_nCurrentFrameIdx * s.m_numChls) + chl
    let bytes ← (loadRange buffer (size * index) size).toOption
    let data := toSigned size (ofLittleEndian bytes)
    if toInt chl = s.m_lastChlRead then return (some data, s)
    return (some data, { s with m_nIoCntr := s.m_nIoCntr + 1, m_lastChlRead := toInt chl })

/-- `CRawAudioFileIO::readSample` of an `int16_t`. -/
def readSample16 : CRawAudioFileIO → ℕ → Option (Option ℤ × CRawAudioFileIO) :=
  readSampleOfSize 2

/-- `CRawAudioFileIO::readSample` of an `int32_t`. -/
def readSample32 : CRawAudioFileIO → ℕ → Option (Option ℤ × CRawAudioFileIO) :=
  readSampleOfSize 4

/-- The `switch` of `nextFrame`, for a transfer of `numFrames` frames. -/
def transferFrames (s : CRawAudioFileIO) (numFrames : ℕ) : Option (Bool × CRawAudioFileIO) :=
  match s.m_eMode with
  | .input => do
    if s.isEOF then return (false, s)
    let result ← s.readBlock s.m_pFramebuffer numFrames
    let s := { result.s with m_pFramebuffer := result.pData }
    if result.status = false then return (false, s)
    return (true, { s with m_lastChlRead := -1 })
  | .output => do
    let (status, s) ← s.writeBlock s.m_pFramebuffer numFrames
    if status = false then return (false, s)
    return (true, { s with m_lastChlWritten := -1 })
  | _ => return (false, s)

/-- Sets `m_nCurrentFrameIdx`. -/
def setFrameIdx (s : CRawAudioFileIO) (index : ℕ) : CRawAudioFileIO :=
  { s with m_nCurrentFrameIdx := index }

/-- `CRawAudioFileIO::nextFrame`. -/
def nextFrame (s : CRawAudioFileIO) : Option (Bool × CRawAudioFileIO) :=
  if s.m_pFramebuffer.isNone then return (false, s)
  else if s.m_nIoBlockSize < 1 then (s.setFrameIdx 0).transferFrames 1
  else
    let s := s.setFrameIdx (s.m_nCurrentFrameIdx + 1)
    if s.m_nIoBlockSize ≤ s.m_nCurrentFrameIdx then do
      let (status, s) ← s.transferFrames s.m_nIoBlockSize.toNat
      if status = false then return (false, s)
      return (true, s.setFrameIdx 0)
    else return (true, s)

section NextFrame

variable {s : CRawAudioFileIO} (hbuffer : s.m_pFramebuffer ≠ none)
include hbuffer

/-- Without an I/O block, every frame is transferred. -/
theorem nextFrame_single (hsingle : s.m_nIoBlockSize < 1) :
    s.nextFrame = (s.setFrameIdx 0).transferFrames 1 := by
  rw [nextFrame, if_neg (by rwa [Option.isNone_iff_eq_none]), if_pos hsingle]

/-- A frame that does not fill the I/O block stays in the buffer. -/
theorem nextFrame_room (hblock : 1 ≤ s.m_nIoBlockSize)
    (hroom : ((s.m_nCurrentFrameIdx + 1 : ℕ) : ℤ) < s.m_nIoBlockSize) :
    s.nextFrame = some (true, s.setFrameIdx (s.m_nCurrentFrameIdx + 1)) := by
  rw [nextFrame, if_neg (by rwa [Option.isNone_iff_eq_none]), if_neg (Int.not_lt.mpr hblock)]
  exact if_neg (Int.not_le.mpr hroom)

/-- A frame that fills the I/O block has it transferred. -/
theorem nextFrame_full (hblock : 1 ≤ s.m_nIoBlockSize)
    (hfull : s.m_nIoBlockSize ≤ ((s.m_nCurrentFrameIdx + 1 : ℕ) : ℤ)) {status : Bool}
    {after : CRawAudioFileIO}
    (htransfer : (s.setFrameIdx (s.m_nCurrentFrameIdx + 1)).transferFrames
      s.m_nIoBlockSize.toNat = some (status, after)) :
    s.nextFrame = some (status, if status then after.setFrameIdx 0 else after) := by
  rw [nextFrame, if_neg (by rwa [Option.isNone_iff_eq_none]), if_neg (Int.not_lt.mpr hblock)]
  dsimp only
  rw [if_pos (by exact hfull)]
  show ((s.setFrameIdx (s.m_nCurrentFrameIdx + 1)).transferFrames s.m_nIoBlockSize.toNat >>= _) = _
  rw [htransfer]
  cases status with
  | false => rfl
  | true => rfl

end NextFrame

/-! ### Opening and closing -/

/-- The frame buffer that `openFile` allocates, of zeros. -/
def allocFramebuffer (s : CRawAudioFileIO) (allocated : Bool) : Option (List UInt8) :=
  let samples := if s.m_nIoBlockSize < 1 then s.m_numChls
    else toUnsigned (s.m_numChls * intToUnsigned s.m_nIoBlockSize)
  if allocated then some (List.replicate (sampleBytes s.m_nBitsPerSample * samples) 0) else none

def sampleSizeText : List Char := ['S', 'a', 'm', 'p', 'l', 'e', 'S', 'i', 'z', 'e', ':']

def numberOfChannelsText : List Char :=
  ['N', 'u', 'm', 'b', 'e', 'r', 'O', 'f', 'C', 'h', 'a', 'n', 'n', 'e', 'l', 's', ':']

def sampleRateText : List Char := ['S', 'a', 'm', 'p', 'l', 'e', 'R', 'a', 't', 'e', ':']

/-- The name of the sample type that `openFile` writes to the info file. -/
def sampleTypeText (bitsPerSample : ℤ) : List Char :=
  if bitsPerSample = 8 then ['i', 'n', 't', '8', '_', 't']
  else if bitsPerSample = 32 then ['i', 'n', 't', '3', '2', '_', 't']
  else ['i', 'n', 't', '1', '6', '_', 't']

/-- The text that `openFile` writes to the info file. Its lines end with a space. -/
def infoText (s : CRawAudioFileIO) : List Char :=
  textOfLines ([sampleSizeText ++ ' ' :: (sampleTypeText s.m_nBitsPerSample ++ [' ']),
    numberOfChannelsText ++ ' ' :: (Nat.toDigits 10 s.m_numChls ++ [' '])] ++
    if s.m_sampleRate ≠ 0 then [sampleRateText ++ ' ' :: (Nat.toDigits 10 s.m_sampleRate ++ [' '])]
    else [])

/-- The end of `openFile`. -/
def opened (s : CRawAudioFileIO) : CRawAudioFileIO :=
  { s with m_nCurrentFrameIdx := 0, m_nIoCntr := 0, m_nCurrentFrame := 0, m_bFileOpened := true }

/-- `openFile` for input. -/
def openInput (s : CRawAudioFileIO) (o : OpenOutcome) : Option (Bool × CRawAudioFileIO) := do
  let (status, io) := s.m_fileIO.openFile .input o.opened
  let s := { s with m_fileIO := io }
  if status = false then return (false, s)
  let (len, io) := s.m_fileIO.getFileSize
  let s := { s with m_fileIO := io }
  if len < 0 then return (false, { s with m_fileIO := s.m_fileIO.closeFile.2 })
  if s.m_nFrameSize = 0 then none
  let s := { s with
    m_lFileSize := len.toNat
    m_nFramesInFile := len.toNat / s.m_nFrameSize
    m_lCurrentFilePos := 0
    m_lastChlRead := -1 }
  let (_, s) ← s.nextFrame
  return (true, s.opened)

/-- `openFile` for output. -/
def openOutput (s : CRawAudioFileIO) (o : OpenOutcome) : Bool × CRawAudioFileIO :=
  let (status, io) := s.m_fileIO.openFile .output o.opened
  let s := { s with m_fileIO := io }
  if status = false then (false, s)
  else
    let infoFile := if s.m_eFileType = .raw ∧ s.m_bCreateInfoTextFile = true ∧ o.infoOpened = true
      then some s.infoText else s.infoFile
    let s := { s with
      m_lFileSize := 0
      m_lCurrentFilePos := 0
      m_lastChlWritten := -1
      infoFile := infoFile }
    (true, s.opened)

/-- `CRawAudioFileIO::openFile`. -/
def openFile (s : CRawAudioFileIO) (mode : eFileIoMode_def) (sFilePath : List Char)
    (o : OpenOutcome) : Option (Bool × CRawAudioFileIO) := do
  if s.m_bFileOpened = true ∨ s.m_numChls < 1 then return (false, s)
  let s := if sFilePath.isEmpty then s else { s with m_sFilePath := sFilePath }
  if s.m_sFilePath.isEmpty then return (false, s)
  let s := { s with m_eFileType := getAudioFileType s.m_sFilePath }
  let s := { s with m_pFramebuffer := s.allocFramebuffer o.allocated }
  if s.m_pFramebuffer.isNone then return (false, s)
  let s := { s with m_eMode := mode }
  match mode with
  | .input => s.openInput o
  | .output => return s.openOutput o
  | _ => return (false, s)

/-- `CRawAudioFileIO::closeFile`. -/
def closeFile (s : CRawAudioFileIO) : Bool × CRawAudioFileIO :=
  let s := if s.m_fileIO.isOpen then
    { s with m_fileIO := s.m_fileIO.closeFile.2, m_pFramebuffer := none } else s
  (true, { s with
    m_nCurrentFrameIdx := 0
    m_nIoCntr := -1
    m_nCurrentFrame := -1
    m_eMode := .unknown
    m_bFileOpened := false })

end CRawAudioFileIO

end RdbLibs.FileIO
