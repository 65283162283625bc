import Mathlib
import RdbLibs.FileIO.CRawAudioFileIO.Model
import RdbLibs.FileIO.CRawVideoFileIO.InfoFile
import RdbLibs.FileIO.RawBlocks

/-!
# `CRawVideoFileIO`

The class of `Src/FileIO/CVideoFileIO.cpp` that reads and writes raw video files, with the members
of `CVideoFileIO` that it uses. `m_eFileType`, `m_lastFrameRead` and `m_lastFrameWritten` are set
and never used, and left out. A function has no result where an exception leaves it, or where a file
is divided into frames of no size.
-/

set_option autoImplicit false
set_option relaxedAutoImplicit false

namespace RdbLibs.FileIO

open MachineWord CRawVideoFileIO

/-- `eVideoDataIoFormat_def`. -/
inductive eVideoDataIoFormat_def
  | unknown
  | yuv
  | yuy2
  | yv12
  | nv12
  | rgb
  | bgr
  | mjpeg
  | mpeg1
  | mpeg2
  | mpeg4
  | h264
  | h265
  | divx
  | webm
  | vp7
  | vp8
  | vp9
  | vc1
  | i420
deriving DecidableEq

/-- `videoFormatToFourCC`. -/
def videoFormatToFourCC : eVideoDataIoFormat_def → List Char
  | .yuv => ['Y', 'U', 'V']
  | .yuy2 => ['Y', 'U', 'Y', '2']
  | .yv12 => ['Y', 'V', '1', '2']
  | .nv12 => ['N', 'V', '1', '2']
  | .rgb => ['R', 'G', 'B']
  | .bgr => ['B', 'G', 'R']
  | .mjpeg => ['M', 'J', 'P', 'G']
  | .mpeg4 => ['M', 'P', 'G', '4']
  | .mpeg2 => ['M', 'P', 'G', '2']
  | .mpeg1 => ['M', 'P', 'G', '1']
  | .h264 => ['H', '2', '6', '4']
  | .h265 => ['H', '2', '6', '5']
  | .vp7 => ['V', 'P', '7', 'V']
  | .vp8 => ['V', 'P', '8']
  | .vp9 => ['V', 'P', '9']
  | .vc1 => ['V', 'C', '1']
  | .divx => ['D', 'I', 'V', 'x']
  | .webm => ['W', 'E', 'B', 'M']
  | .i420 => ['I', '4', '2', '0']
  | .unknown => []

/-- `CRawVideoFileIO`. `infoFile` is the text of the info file beside the video file, if there is
one. -/
structure CRawVideoFileIO where
  m_frameRate : ℕ
  m_width : ℕ
  m_height : ℕ
  m_bitsPerPixel : ℕ
  m_nFrameSize : ℕ
  m_sFilePath : List Char
  m_bFileOpened : Bool
  m_eMode : eFileIoMode_def
  m_nFramesInFile : ℕ
  m_nCurrentFrameIdx : ℕ
  m_nIoCntr : ℤ
  m_nCurrentFrame : ℤ
  m_bUseLoopingRead : Bool
  m_eVideoFormat : eVideoDataIoFormat_def
  m_fileIO : CFileIO
  m_pFramebuffer : Option (List UInt8)
  m_lFileSize : ℕ
  m_lCurrentFilePos : ℕ
  m_bCreateInfoTextFile : Bool
  m_fileInfo : SVideoFormatInfo
  infoFile : Option (List Char)

namespace CRawVideoFileIO

/-- The size of a frame, as it is computed in `unsigned int`. -/
def frameSize (width height bitsPerPixel : ℕ) : ℕ :=
  toUnsigned (width * height * (bitsPerPixel / 8))

/-- The constructor with a format, for a path at which the disk has the given file. -/
def new (width height bitsPerPixel : ℕ) (file : Option (List UInt8)) : CRawVideoFileIO :=
  let bits := if 0 < bitsPerPixel then bitsPerPixel else 24
  { m_frameRate := 0
    m_width := width
    m_height := height
    m_bitsPerPixel := bits
    m_nFrameSize := frameSize width height bits
    m_sFilePath := []
    m_bFileOpened := false
    m_eMode := .unknown
    m_nFramesInFile := 0
    m_nCurrentFrameIdx := 0
    m_nIoCntr := -1
    m_nCurrentFrame := -1
    m_bUseLoopingRead := false
    m_eVideoFormat := .unknown
    m_fileIO := .new file
    m_pFramebuffer := none
    m_lFileSize := 0
    m_lCurrentFilePos := 0
    m_bCreateInfoTextFile := false
    m_fileInfo := ⟨toInt width, toInt height, toInt bits, 0, []⟩
    infoFile := none }

/-- The constructor without arguments. -/
def newEmpty (file : Option (List UInt8)) : CRawVideoFileIO :=
  { new 0 0 24 file with m_nFrameSize := 0, m_fileInfo := .cleared }

/-- The constructor with a path. -/
def newPath (sFilePath : List Char) (file : Option (List UInt8)) : CRawVideoFileIO :=
  { newEmpty file with m_sFilePath := sFilePath }

/-- `CVideoFileIO::setBitsPerPixel`. -/
def setBitsPerPixel (s : CRawVideoFileIO) (bits : ℤ) : CRawVideoFileIO :=
  { s with m_bitsPerPixel := intToUnsigned bits }

/-- `CVideoFileIO::setFrameSize`. -/
def setFrameSize (s : CRawVideoFileIO) (width height bitsPerPixel : ℕ) : CRawVideoFileIO :=
  let s := { s with m_width := width, m_height := height }
  let s := if 0 < bitsPerPixel then { s with m_bitsPerPixel := bitsPerPixel } else s
  { s with m_nFrameSize := frameSize width height s.m_bitsPerPixel }

/-- What the disk has at the path of the object. -/
def onDisk (s : CRawVideoFileIO) : Option (List UInt8) := s.m_fileIO.file

/-- `CVideoFileIO::setLoopingRead`. -/
def setLoopingRead (s : CRawVideoFileIO) (value : Bool) : CRawVideoFileIO :=
  { s with m_bUseLoopingRead := value }

/-- The members by which blocks are read. -/
def blocks (s : CRawVideoFileIO) : RawBlocks where
  m_nFrameSize := s.m_nFrameSize
  m_bFileOpened := s.m_bFileOpened
  m_nFramesInFile := s.m_nFramesInFile
  m_nCurrentFrameIdx := s.m_nCurrentFrameIdx
  m_nCurrentFrame := s.m_nCurrentFrame
  m_bUseLoopingRead := s.m_bUseLoopingRead
  bits := s.m_bitsPerPixel
  m_fileIO := s.m_fileIO
  m_lFileSize := s.m_lFileSize
  m_lCurrentFilePos := s.m_lCurrentFilePos

/-- The members that a call on blocks moves. -/
def withBlocks (s : CRawVideoFileIO) (b : RawBlocks) : CRawVideoFileIO :=
  { s with
    m_nCurrentFrame := b.m_nCurrentFrame
    m_fileIO := b.m_fileIO
    m_lCurrentFilePos := b.m_lCurrentFilePos }

/-- `CRawVideoFileIO::isEOF`. -/
def isEOF (s : CRawVideoFileIO) : Bool := s.blocks.isEOF

/-- The answer of `readVideoBlock`, the memory at `pData`, and what becomes of the object. -/
structure VideoReadResult where
  status : Bool
  pData : Option (List UInt8)
  s : CRawVideoFileIO

/-- `CRawVideoFileIO::readVideoBlock`. -/
def readVideoBlock (s : CRawVideoFileIO) (pData : Option (List UInt8)) (numFrames : ℕ) :
    Option VideoReadResult :=
  (s.blocks.readBlock pData numFrames).map fun result ↦
    ⟨result.status, result.pData, s.withBlocks result.blocks⟩

/-- `CRawVideoFileIO::setCurrentFrame`. -/
def setCurrentFrame (s : CRawVideoFileIO) (frameNum : ℕ) : Bool × CRawVideoFileIO :=
  let (status, b) := s.blocks.setCurrentFrame frameNum
  (status, s.withBlocks b)

/-- `CRawVideoFileIO::resetPlayPosition`. -/
def resetPlayPosition (s : CRawVideoFileIO) : Bool × CRawVideoFileIO :=
  (true, { (s.setCurrentFrame 0).2 with m_nCurrentFrameIdx := 0 })

theorem blocks_withBlocks {s : CRawVideoFileIO} {b : RawBlocks} (h : RawBlocks.Moves s.blocks b) :
    (s.withBlocks b).blocks = b := h.symm

theorem blocks_setCurrentFrame (s : CRawVideoFileIO) (frameNum : ℕ) :
    (s.setCurrentFrame frameNum).2.blocks = (s.blocks.setCurrentFrame frameNum).2 :=
  blocks_withBlocks (RawBlocks.moves_setCurrentFrame s.blocks frameNum)

/-- A call of `readVideoBlock` is one of the blocks. -/
theorem readVideoBlock_blocks {s : CRawVideoFileIO} {pData : Option (List UInt8)} {numFrames : ℕ}
    {result : VideoReadResult} (hread : s.readVideoBlock pData numFrames = some result) :
    s.blocks.readBlock pData numFrames = some ⟨result.status, result.pData, result.s.blocks⟩ := by
  rw [readVideoBlock, Option.map_eq_some_iff] at hread
  obtain ⟨answer, hanswer, rfl⟩ := hread
  rw [hanswer, blocks_withBlocks (RawBlocks.moves_readBlock hanswer)]

/-- `CRawVideoFileIO::readVideoFrame`. A null pointer is not checked, but handed on to `fread`. -/
def readVideoFrame (s : CRawVideoFileIO) (pData : Option (List UInt8)) :
    Option VideoReadResult := do
  if s.m_bFileOpened = false ∨ s.m_pFramebuffer.isNone then return ⟨false, pData, s⟩
  if s.isEOF then return ⟨false, pData, s⟩
  let (status, target, io) ← s.m_fileIO.readBlock (← pData) s.m_nFrameSize 1
  let s := { s with m_fileIO := io }
  if status = false then return ⟨false, some target, s⟩
  return ⟨true, some target, s⟩

/-- `CRawVideoFileIO::writeVideoFrame`. -/
def writeVideoFrame (s : CRawVideoFileIO) (pData : Option (List UInt8)) :
    Option (Bool × CRawVideoFileIO) :=
  match pData with
  | none => return (false, s)
  | some source => do
    if s.m_nFrameSize < 1 then return (false, s)
    if s.m_eMode = .input then return (false, s)
    let (status, io) ← s.m_fileIO.writeBlock source s.m_nFrameSize 1
    let s := { s with m_fileIO := io }
    if status = false then return (false, s)
    return (true, s)

/-- `CRawVideoFileIO::writeVideoBlock`. -/
def writeVideoBlock (s : CRawVideoFileIO) (pData : Option (List UInt8)) (numFrames : ℕ) :
    Option (Bool × CRawVideoFileIO) :=
  match pData with
  | none => return (false, s)
  | some source => do
    if numFrames < 1 ∨ s.m_eMode = .input ∨ s.m_pFramebuffer.isNone then return (false, s)
    let (status, io) ← s.m_fileIO.writeBlock source s.m_nFrameSize numFrames
    let s := { s with m_fileIO := io }
    let s := { s with m_lCurrentFilePos := intToSize s.m_fileIO.getFilePosition }
    if status = false then return (false, s)
    return (true, { s with
      m_nCurrentFrame := s.m_nCurrentFrame + numFrames
      m_nFramesInFile := s.m_nFramesInFile + numFrames })

/-- `CRawVideoFileIO::getNumFrames`, which leaves the stream at the beginning of the file.
`quotient` is the division in `float`, and its conversion to `int`. -/
def getNumFrames (quotient : ℤ → ℕ → ℤ) (s : CRawVideoFileIO) : ℤ × CRawVideoFileIO :=
  if s.m_bFileOpened = false ∨ s.m_eMode = .unknown ∨ s.m_eMode = .output then (-1, s)
  else
    let (fileSize, io) := s.m_fileIO.getFileSize
    (quotient fileSize s.m_nFrameSize, { s with m_fileIO := (io.setFilePosition 0).2 })

/-! ### Opening -/

/-- The numbers of the info file replace those of the object, where they are positive. -/
def useInfo (s : CRawVideoFileIO) (info : SVideoFormatInfo) : CRawVideoFileIO :=
  { s with
    m_fileInfo := info
    m_width := if 0 < info.width then intToUnsigned info.width else s.m_width
    m_height := if 0 < info.height then intToUnsigned info.height else s.m_height
    m_frameRate := if 0 < info.frameRate then intToUnsigned info.frameRate else s.m_frameRate
    m_bitsPerPixel :=
      if 0 < info.bitsPerPixel then intToUnsigned info.bitsPerPixel else s.m_bitsPerPixel }

/-- The end of `openFile`. -/
def opened (s : CRawVideoFileIO) : CRawVideoFileIO :=
  { s with m_nCurrentFrameIdx := 0, m_nIoCntr := 0, m_nCurrentFrame := 0, m_bFileOpened := true }

/-- `openFile` for input. The format of the info file does not change the size of a frame. -/
def openInput (s : CRawVideoFileIO) (o : OpenOutcome) : Option (Bool × CRawVideoFileIO) := do
  let (status, io) := s.m_fileIO.openFile .input o.opened
  let s := { s with m_fileIO := io }
  if status = false then return (false, s)
  let (len, io) := s.m_fileIO.getFileSize
  let s := { s with m_fileIO := io }
  if len < 0 then return (false, { s with m_fileIO := s.m_fileIO.closeFile.2 })
  let parsed ← (parseInfoTextFile s.infoFile s.m_fileInfo).toOption
  let s := s.useInfo parsed.info
  if s.m_nFrameSize = 0 then none
  return (true, opened { s with
    m_lFileSize := len.toNat
    m_nFramesInFile := len.toNat / s.m_nFrameSize
    m_lCurrentFilePos := 0 })

/-- The format that `openFile` writes to the info file. -/
def formatInfo (s : CRawVideoFileIO) : SVideoFormatInfo where
  width := toInt s.m_width
  height := toInt s.m_height
  bitsPerPixel := toInt s.m_bitsPerPixel
  frameRate := toInt s.m_frameRate
  sFourCC := videoFormatToFourCC s.m_eVideoFormat

/-- `openFile` for output. -/
def openOutput (s : CRawVideoFileIO) (o : OpenOutcome) : Bool × CRawVideoFileIO :=
  let (status, io) := s.m_fileIO.openFile .output o.opened
  let s := { s with m_fileIO := io }
  if status = false then (false, s)
  else
    let s := { s with m_lFileSize := 0, m_lCurrentFilePos := 0 }
    let s := if s.m_bCreateInfoTextFile = true then
      { s with
        m_fileInfo := s.formatInfo
        infoFile := (writeInfoTextFile o.infoOpened s.formatInfo).2.or s.infoFile } else s
    (true, s.opened)

/-- The frame that `openFile` allocates, of zeros. -/
def allocFramebuffer (s : CRawVideoFileIO) (allocated : Bool) : Option (List UInt8) :=
  if allocated then
    some (List.replicate (s.m_bitsPerPixel / 8 * toUnsigned (s.m_width * s.m_height)) 0)
  else none

/-- `CRawVideoFileIO::openFile`. -/
def openFile (s : CRawVideoFileIO) (mode : eFileIoMode_def) (sFilePath : List Char)
    (o : OpenOutcome) : Option (Bool × CRawVideoFileIO) := do
  if s.m_bFileOpened = true then return (false, s)
  let s := if sFilePath.isEmpty then s else { s with m_sFilePath := sFilePath }
  if s.m_sFilePath.isEmpty then return (false, s)
  if s.m_bitsPerPixel ∉ [8, 16, 24, 32] then return (false, s)
  let s := { s with m_pFramebuffer := s.allocFramebuffer o.allocated }
  if s.m_pFramebuffer.isNone then return (false, s)
  let s := { s with m_eMode := mode }
  match mode with
  | .input => s.openInput o
  | .output => return s.openOutput o
  | _ => return (false, s)

end CRawVideoFileIO

end RdbLibs.FileIO
