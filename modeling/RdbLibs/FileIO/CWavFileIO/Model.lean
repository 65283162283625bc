import RdbLibs.Foundations.ByteCodec
import RdbLibs.Foundations.CheckedMemory
import RdbLibs.Foundations.MachineWord
import RdbLibs.FileIO.CFileIO
import RdbLibs.FileIO.CRawAudioFileIO.Model

/-!
# `CWavFileIO`

The class of `Src/FileIO/CAudioFileIO.cpp` that reads and writes WAV files, where `USE_DR_WAV` is
not defined. The object keeps all samples of its file in an `AudioFile`, one list for each channel.
What `AudioFile::load` leaves is an argument of `openFile`. Of `AudioFile::save` there is what it
reads of the samples: it changes no member, and the file that it writes and its answer are not
looked at. The samples are of any type, with two functions for the macros that convert them.
`int16_t` is `BitVec 16`.

A function stops with an `AccessFault` where it has an index outside of the samples that are stored,
or leaves the memory of its caller. `m_pFramebuffer`, `m_currChannel` and `m_blockSize` are not used
here.
-/

set_option autoImplicit false
set_option relaxedAutoImplicit false

namespace RdbLibs.FileIO

open ByteCodec CheckedMemory MachineWord

/-- `ConvertFloatToInt16` and `ConvertInt16ToFloat`. -/
structure SampleConversion (α : Type) where
  ConvertFloatToInt16 : α → BitVec 16
  ConvertInt16ToFloat : BitVec 16 → α

/-- An access that the language leaves undefined: an index outside of `m_audioFile.samples`, or an
address outside of the memory at `pData`. -/
inductive AccessFault
  | samples
  | memory
deriving DecidableEq

/-- `CWavFileIO`, with `samples`, `sampleRate` and `bitDepth` of its `m_audioFile`. -/
structure CWavFileIO (α : Type) where
  m_sampleRate : ℕ
  m_numChls : ℕ
  m_nFrameSize : ℕ
  m_sFilePath : List Char
  m_bFileOpened : Bool
  m_eMode : eFileIoMode_def
  m_nIoBlockSize : ℤ
  m_nFramesInFile : ℤ
  m_nCurrentFrameIdx : ℤ
  m_nIoCntr : ℤ
  m_nCurrentFrame : ℤ
  m_bUseLoopingRead : Bool
  m_eFileType : eAudioFileType_def
  m_nBitsPerSample : ℤ
  samples : List (List α)
  sampleRate : ℕ
  bitDepth : ℤ
  m_lastChlRead : ℤ
  m_lastChlWritten : ℤ
  m_bWriteFileForEachFrame : Bool

/-- What `AudioFile::load` returns, and leaves of the audio file. -/
structure LoadOutcome (α : Type) where
  status : Bool
  samples : List (List α)
  sampleRate : ℕ
  bitDepth : ℤ

/-- `std::vector::resize`. -/
def resize {α : Type} (values : List α) (size : ℕ) (value : α) : List α :=
  values.take size ++ List.replicate (size - values.length) value

/-- Conversion of a `long` to `int`. -/
def longToInt (value : ℤ) : ℤ := toInt (intToUnsigned value)

/-- `samples[chl][frame]` is a sample that is stored. -/
def IsStored {α : Type} (samples : List (List α)) (chl : ℕ) (frame : ℤ) : Prop :=
  0 ≤ frame ∧ ∃ channel, samples[chl]? = some channel ∧ frame < channel.length

/-- Reads `samples[chl][frame]`. -/
def sampleAt {α : Type} (samples : List (List α)) (chl : ℕ) (frame : ℤ) :
    Except AccessFault α :=
  if frame < 0 then .error .samples
  else
    match samples[chl]? with
    | none => .error .samples
    | some channel =>
      match channel[frame.toNat]? with
      | none => .error .samples
      | some sample => .ok sample

/-- Writes `samples[chl][frame]`. -/
def setSampleAt {α : Type} (samples : List (List α)) (chl : ℕ) (frame : ℤ) (sample : α) :
    Except AccessFault (List (List α)) :=
  if frame < 0 then .error .samples
  else
    match samples[chl]? with
    | none => .error .samples
    | some channel =>
      if frame.toNat < channel.length then .ok (samples.set chl (channel.set frame.toNat sample))
      else .error .samples

/-- An access to the memory of the caller. -/
def callerMemory {β : Type} (access : Except Fault β) : Except AccessFault β :=
  access.mapError fun _ ↦ .memory

namespace CWavFileIO

variable {α : Type} [Zero α] (conv : SampleConversion α)

/-- The constructor with a path. An `AudioFile` is constructed with one channel. -/
def new (numChannels : ℕ) (sFilePath : List Char) : CWavFileIO α where
  m_sampleRate := 0
  m_numChls := numChannels
  m_nFrameSize := toUnsigned (numChannels * 2)
  m_sFilePath := sFilePath
  m_bFileOpened := false
  m_eMode := .unknown
  m_nIoBlockSize := 0
  m_nFramesInFile := 0
  m_nCurrentFrameIdx := 0
  m_nIoCntr := -1
  m_nCurrentFrame := -1
  m_bUseLoopingRead := false
  m_eFileType := .unknown
  m_nBitsPerSample := 16
  samples := [[]]
  sampleRate := 44100
  bitDepth := 16
  m_lastChlRead := -1
  m_lastChlWritten := -1
  m_bWriteFileForEachFrame := false

/-- `AudioFile::getNumSamplesPerChannel`. -/
def getNumSamplesPerChannel (s : CWavFileIO α) : ℤ :=
  match s.samples with
  | [] => 0
  | channel :: _ => toInt channel.length

/-- `AudioFile::getNumChannels`. -/
def getNumChannels (s : CWavFileIO α) : ℤ := toInt s.samples.length

/-- `AudioFile::setNumChannels`, for a number of channels that is not negative. -/
def setNumChannels (s : CWavFileIO α) (numChannels : ℕ) : CWavFileIO α :=
  let channel := List.replicate (intToSize s.getNumSamplesPerChannel) 0
  { s with samples := resize s.samples numChannels channel }

/-- `AudioFile::load`. -/
def load (s : CWavFileIO α) (outcome : LoadOutcome α) : Bool × CWavFileIO α :=
  (outcome.status, { s with
    samples := outcome.samples
    sampleRate := outcome.sampleRate
    bitDepth := outcome.bitDepth })

/-- The loops of `AudioFile::saveToWaveFile` and `AudioFile::saveToAiffFile`. Where they do not know
the bit depth, they return before they read a sample. -/
def save (s : CWavFileIO α) : Except AccessFault Unit :=
  if s.bitDepth ∈ [8, 16, 24, 32] then
    (List.range s.getNumSamplesPerChannel.toNat).forM fun i ↦
      (List.range s.getNumChannels.toNat).forM fun channel ↦ do
        let _ ← sampleAt s.samples channel i
  else return ()

/-- `CAudioFileIO::setLoopingRead`. -/
def setLoopingRead (s : CWavFileIO α) (value : Bool) : CWavFileIO α :=
  { s with m_bUseLoopingRead := value }

/-- `CAudioFileIO::setIoBlockSize`. -/
def setIoBlockSize (s : CWavFileIO α) (numFrames : ℤ) : CWavFileIO α :=
  { s with m_nIoBlockSize := numFrames }

/-- `CWavFileIO::setSampleRate`. -/
def setSampleRate (s : CWavFileIO α) (rate : ℕ) : CWavFileIO α :=
  { s with m_sampleRate := rate, sampleRate := rate }

/-- `CWavFileIO::setFrameOutputWriteFlag`. -/
def setFrameOutputWriteFlag (s : CWavFileIO α) (value : Bool) : CWavFileIO α :=
  { s with m_bWriteFileForEachFrame := value }

/-- The end of `openFile`. -/
def opened (s : CWavFileIO α) : CWavFileIO α :=
  { s with
    m_nCurrentFrameIdx := 0
    m_nIoCntr := 0
    m_nCurrentFrame := 0
    m_lastChlRead := -1
    m_lastChlWritten := -1
    m_bFileOpened := true }

/-- What `openFile` does to the audio file for output. A number of channels that is negative as an
`int` is an exception. -/
def prepareOutput (s : CWavFileIO α) : Option <| CWavFileIO α :=
  if toInt s.m_numChls < 0 then none
  else
    let s := s.setNumChannels (toInt s.m_numChls).toNat
    some (if s.m_sampleRate ≠ 0 then { s with sampleRate := s.m_sampleRate } else s)

/-- The path that `openFile` is given replaces the one of the object, unless it is empty. -/
def usePath (s : CWavFileIO α) (sFilePath : List Char) : CWavFileIO α :=
  if sFilePath.isEmpty then s else { s with m_sFilePath := sFilePath }

/-- `openFile` for input, behind the `load` that returned `status`. -/
def checkInput (s : CWavFileIO α) (status : Bool) : Bool × CWavFileIO α :=
  if status = false then (false, s)
  else if s.getNumSamplesPerChannel < 1 then (false, s)
  else if s.m_numChls ≠ intToUnsigned s.getNumChannels then (false, s)
  else if s.m_sampleRate ≠ 0 ∧ s.m_sampleRate ≠ s.sampleRate then (false, s)
  else (true, opened { s with m_nFramesInFile := s.getNumSamplesPerChannel })

/-- `CWavFileIO::openFile`. There is no result where an exception leaves it. -/
def openFile (s : CWavFileIO α) (mode : eFileIoMode_def) (sFilePath : List Char)
    (outcome : LoadOutcome α) : Option (Bool × CWavFileIO α) := do
  let s := s.usePath sFilePath
  if s.m_sFilePath.isEmpty then return (false, s)
  let s := { s with m_eFileType := getAudioFileType s.m_sFilePath, m_eMode := mode }
  match mode with
  | .input =>
    let (status, s) := s.load outcome
    return s.checkInput status
  | .output =>
    let s ← s.prepareOutput
    return (true, s.opened)
  | .io =>
    let (status, s) := s.load outcome
    let s ← if status = false then s.prepareOutput else some s
    return (true, opened { s with m_nFramesInFile := s.getNumSamplesPerChannel })
  | _ => return (false, s)

/-- `nFramesLeftInFile`. -/
def framesLeftInFile (s : CWavFileIO α) : ℤ := s.m_nFramesInFile - s.m_nCurrentFrame

/-- `CWavFileIO::isEOF`. -/
def isEOF (s : CWavFileIO α) : Bool := decide (s.framesLeftInFile < 1)

/-- `readSample` of an object that reads in a loop starts again behind the last frame. -/
def rewindFrame (s : CWavFileIO α) : CWavFileIO α :=
  if s.getNumSamplesPerChannel ≤ s.m_nCurrentFrame then { s with m_nCurrentFrame := 0 } else s

/-- The end of `readSample`. -/
def countRead (s : CWavFileIO α) (chl : ℕ) : CWavFileIO α :=
  if toInt chl = s.m_lastChlRead then s
  else { s with m_nIoCntr := s.m_nIoCntr + 1, m_lastChlRead := toInt chl }

/-- `CWavFileIO::readSample` of an `int16_t`. The answer is followed by what `data` is then: the
sample is read and converted, and not stored there. -/
def readSample16 (s : CWavFileIO α) (data : BitVec 16) (chl : ℕ) :
    Except AccessFault (Bool × BitVec 16 × CWavFileIO α) := do
  if s.m_numChls ≤ chl ∨ s.m_eMode = .output ∨ s.m_nBitsPerSample ≠ 16 then
    return (false, data, s)
  if s.getNumSamplesPerChannel ≤ s.m_nCurrentFrame ∧ s.m_bUseLoopingRead = false then
    return (false, data, s)
  let s := s.rewindFrame
  let _ ← sampleAt s.samples chl s.m_nCurrentFrame
  return (true, data, s.countRead chl)

/-- The body of the inner loop of `getSamples`, with the memory at `pData` and `readOffset`. -/
def getSample (s : CWavFileIO α) (frame : ℤ) (target : List UInt8 × ℕ) (chl : ℕ) :
    Except AccessFault (List UInt8 × ℕ) := do
  let sample ← sampleAt s.samples chl frame
  let pData ← callerMemory (storeRange target.1 (2 * target.2)
    (littleEndian 2 (conv.ConvertFloatToInt16 sample).toNat))
  return (pData, toUnsigned (target.2 + 1))

/-- `CWavFileIO::getSamples`, which always returns true. -/
def getSamples (s : CWavFileIO α) (pData : List UInt8) (numFrames : ℕ) :
    Except AccessFault (List UInt8) :=
  Prod.fst <$> (List.range numFrames).foldlM (fun target (i : ℕ) ↦
    (List.range s.m_numChls).foldlM (s.getSample conv (s.m_nCurrentFrame + i)) target) (pData, 0)

/-- The answer of `readBlock`, the memory at `pData`, and what becomes of the object. -/
structure WavReadResult (α : Type) where
  status : Bool
  pData : Option (List UInt8)
  s : CWavFileIO α

/-- `readBlock` without a loop, behind the `left` frames that it has read: the padding. -/
def padFrames (s : CWavFileIO α) (pData : List UInt8) (numFrames : ℕ) (left : ℤ) :
    Except AccessFault (WavReadResult α) := do
  if left < 1 then return ⟨false, some pData, s⟩
  if s.m_nBitsPerSample ≠ 16 ∧ s.m_nBitsPerSample ≠ 32 then return ⟨false, some pData, s⟩
  let sizeOfSample := if s.m_nBitsPerSample = 16 then 2 else 4
  let nPadSize := toInt ((numFrames - left.toNat) * s.m_nFrameSize * sizeOfSample)
  let pPadStart := sizeOfSample * (left.toNat * s.m_nFrameSize)
  let pData ← callerMemory (fillRange pData pPadStart (intToSize nPadSize) 0)
  return ⟨true, some pData, s⟩

/-- `readBlock` of frames that the file has, or that it has from its beginning on. -/
def readFramesAt (s : CWavFileIO α) (pData : List UInt8) (nReadSize : ℕ) :
    Except AccessFault (WavReadResult α) := do
  let pData ← s.getSamples conv pData nReadSize
  return ⟨true, some pData, { s with m_nCurrentFrame := s.m_nCurrentFrame + nReadSize }⟩

/-- `CWavFileIO::readBlock`. -/
def readBlock (s : CWavFileIO α) (pData : Option (List UInt8)) (numFrames : ℕ) :
    Except AccessFault (WavReadResult α) :=
  match pData with
  | none => return ⟨false, none, s⟩
  | some target => do
    if s.m_eMode = .output then return ⟨false, some target, s⟩
    if s.isEOF = true ∧ s.m_bUseLoopingRead = false then return ⟨false, some target, s⟩
    let left := s.framesLeftInFile
    if left < numFrames then
      let target ← s.getSamples conv target left.toNat
      let s := { s with m_nCurrentFrame := s.m_nCurrentFrame + left.toNat }
      if s.m_bUseLoopingRead = false then s.padFrames target numFrames left
      else
        let s := { s with m_nCurrentFrame := 0 }
        s.readFramesAt conv target (intToUnsigned (numFrames - left))
    else s.readFramesAt conv target numFrames

/-- The samples behind the two calls of `resize` in `writeSample`. -/
def resizeSamples (s : CWavFileIO α) (chl : ℕ) : List (List α) :=
  let samples := if toInt s.samples.length ≤ toInt chl then resize s.samples (chl + 1) []
    else s.samples
  samples.modify chl fun channel ↦
    if toInt channel.length ≤ longToInt s.m_nCurrentFrame then
      resize channel (s.m_nCurrentFrame + 1).toNat 0
    else channel

/-- The end of `writeSample`. -/
def countWritten (s : CWavFileIO α) (chl : ℕ) : CWavFileIO α :=
  if toInt chl = s.m_lastChlWritten then s
  else { s with m_nIoCntr := s.m_nIoCntr + 1, m_lastChlWritten := toInt chl }

/-- `CWavFileIO::writeSample` of an `int16_t`. -/
def writeSample16 (s : CWavFileIO α) (data : BitVec 16) (chl : ℕ) :
    Except AccessFault (Bool × CWavFileIO α) := do
  if s.m_numChls ≤ chl ∨ s.m_eMode = .input ∨ s.m_nBitsPerSample ≠ 16 then return (false, s)
  let samples ← setSampleAt (s.resizeSamples chl) chl s.m_nCurrentFrame
    (conv.ConvertInt16ToFloat data)
  return (true, countWritten { s with samples := samples } chl)

/-- The body of the inner loop of `writeBlock`, with the samples that are stored and `writeOffset`.
-/
def putSample (source : List UInt8) (frame : ℤ) (stored : List (List α) × ℕ) (chl : ℕ) :
    Except AccessFault (List (List α) × ℕ) := do
  let bytes ← callerMemory (loadRange source (2 * stored.2) 2)
  let samples ← setSampleAt stored.1 chl frame
    (conv.ConvertInt16ToFloat (BitVec.ofNat 16 (ofLittleEndian bytes)))
  return (samples, toUnsigned (stored.2 + 1))

/-- The loops of `writeBlock`. -/
def putSamples (s : CWavFileIO α) (source : List UInt8) (numFrames : ℕ) :
    Except AccessFault (List (List α)) :=
  Prod.fst <$> (List.range numFrames).foldlM (fun stored (i : ℕ) ↦
    (List.range s.m_numChls).foldlM (putSample conv source (s.m_nCurrentFrame + i)) stored)
      (s.samples, 0)

/-- The part of `writeBlock` that saves the file, and forgets its frames then. -/
def saveBlock (s : CWavFileIO α) : Except AccessFault <| CWavFileIO α := do
  if s.m_bWriteFileForEachFrame = true ∨ s.m_nIoBlockSize ≤ s.m_nCurrentFrameIdx then
    if s.m_eMode = .output ∨ s.m_eMode = .io then s.save
    return { s with m_nFramesInFile := 0 }
  return s

/-- `CWavFileIO::writeBlock`. It counts the frames twice. -/
def writeBlock (s : CWavFileIO α) (pData : Option (List UInt8)) (numFrames : ℕ) :
    Except AccessFault (Bool × CWavFileIO α) :=
  match pData with
  | none => return (false, s)
  | some source => do
    if numFrames < 1 ∨ s.m_numChls < 1 ∨ s.m_eMode = .input then return (false, s)
    let samples ← s.putSamples conv source numFrames
    let s ← saveBlock { s with
      samples := samples
      m_nFramesInFile := s.m_nFramesInFile + numFrames }
    return (true, { s with
      m_nCurrentFrame := s.m_nCurrentFrame + numFrames
      m_nFramesInFile := s.m_nFramesInFile + numFrames })

/-- The part of `nextFrame` for output. -/
def saveFrame (s : CWavFileIO α) : Except AccessFault <| CWavFileIO α := do
  if s.m_nIoBlockSize < 1 then
    s.save
    return s
  let s := { s with m_nCurrentFrameIdx := s.m_nCurrentFrameIdx + 1 }
  if s.m_nIoBlockSize ≤ s.m_nCurrentFrameIdx then
    s.save
    return { s with m_nCurrentFrameIdx := 0 }
  return s

/-- The end of `nextFrame`. -/
def countFrame (s : CWavFileIO α) : CWavFileIO α :=
  { s with m_nCurrentFrame := s.m_nCurrentFrame + 1, m_nFramesInFile := s.m_nFramesInFile + 1 }

/-- `CWavFileIO::nextFrame`. -/
def nextFrame (s : CWavFileIO α) : Except AccessFault (Bool × CWavFileIO α) :=
  match s.m_eMode with
  | .input =>
    let s := { s with m_lastChlRead := -1 }
    return if s.isEOF then (false, s) else (true, s.countFrame)
  | .output => do
    let s ← s.saveFrame
    return (true, countFrame { s with m_lastChlWritten := -1 })
  | _ => return (false, s)

/-- `CWavFileIO::setCurrentFrame`. -/
def setCurrentFrame (s : CWavFileIO α) (frameNum : ℕ) : Bool × CWavFileIO α :=
  if s.m_bFileOpened = false then (false, s)
  else if intToUnsigned s.getNumSamplesPerChannel ≤ frameNum then (false, s)
  else (true, { s with m_nCurrentFrame := frameNum })

end CWavFileIO

end RdbLibs.FileIO
