import Mathlib.Data.UInt
import RdbLibs.Foundations.CheckedMemory
import RdbLibs.Foundations.FileStream

/-!
# `CFileIO`

The class of `Src/FileIO/CFileIO.h`, without its error texts and codes, and compiled as the classes
that use it compile it: neither `SET_FILE_POSITION_BEFORE_READ` nor `UPDATE_FILE_POSITION` is
defined where the header is included, so that the stream alone knows the position, and
`m_lCurrFilePos` is never read. The standard library reports no error but the failure to open a
file, which is an argument of `openFile`. A function has no result where an access leaves the
memory that it is given.
-/

set_option autoImplicit false
set_option relaxedAutoImplicit false

namespace RdbLibs.FileIO

open CheckedMemory FileStream

/-- `eFileIoMode_def`. -/
inductive eFileIoMode_def
  | unknown
  | input
  | output
  | io
  | append
deriving DecidableEq

/-- `CFileIO`. `file` is what the disk has at the path of the object, where a
stream leaves its file when it is closed. -/
structure CFileIO where
  file : Option (List UInt8)
  m_pFileHandle : Option (Stream UInt8)
  m_eMode : eFileIoMode_def

namespace CFileIO

/-- A `CFileIO` whose path has the given file. -/
def new (file : Option (List UInt8)) : CFileIO := ⟨file, none, .unknown⟩

/-- `CFileIO::isOpen`. -/
def isOpen (io : CFileIO) : Bool := io.m_pFileHandle.isSome

/-- `fopen` with the modes `r`, `w`, `r+` and `a+`. -/
def fopen (file : Option (List UInt8)) : eFileIoMode_def → Option (Stream UInt8)
  | .unknown => none
  | .input => file.map fun content ↦ ⟨content, 0, true, false, false⟩
  | .output => some ⟨[], 0, false, true, false⟩
  | .io => file.map fun content ↦ ⟨content, 0, true, true, false⟩
  | .append => some ⟨file.getD [], 0, true, true, true⟩

/-- `CFileIO::openFile` for an object that has a path. `granted` is whether the system lets the file
be opened. -/
def openFile (io : CFileIO) (eMode : eFileIoMode_def) (granted : Bool) : Bool × CFileIO :=
  if io.m_pFileHandle.isSome then (false, io)
  else
    let io := if eMode = .unknown then io else { io with m_eMode := eMode }
    match if granted then fopen io.file io.m_eMode else none with
    | none => (false, io)
    | some stream => (true, { io with m_pFileHandle := some stream })

/-- `CFileIO::closeFile`. -/
def closeFile (io : CFileIO) : Bool × CFileIO :=
  match io.m_pFileHandle with
  | none => (false, io)
  | some stream => (true, { io with file := some stream.content, m_pFileHandle := none })

/-- `CFileIO::getFileSize`, which leaves the stream at the end of the file. -/
def getFileSize (io : CFileIO) : ℤ × CFileIO :=
  match io.m_pFileHandle with
  | none => (0, io)
  | some stream => (stream.content.length, { io with m_pFileHandle := some stream.seekEnd })

/-- `CFileIO::getFilePosition`. -/
def getFilePosition (io : CFileIO) : ℤ :=
  match io.m_pFileHandle with
  | none => -1
  | some stream => stream.offset

/-- `CFileIO::setFilePosition`. -/
def setFilePosition (io : CFileIO) (position : ℕ) : Bool × CFileIO :=
  match io.m_pFileHandle with
  | none => (false, io)
  | some stream => (true, { io with m_pFileHandle := some (stream.seek position) })

section Positions

variable {io : CFileIO} {stream : Stream UInt8} (hstream : io.m_pFileHandle = some stream)
include hstream

theorem getFilePosition_stream : io.getFilePosition = stream.offset := by
  rw [getFilePosition, hstream]

theorem setFilePosition_stream (position : ℕ) : io.setFilePosition position =
    (true, { io with m_pFileHandle := some (stream.seek position) }) := by
  rw [setFilePosition, hstream]

/-- What `getNumFrames` of the raw classes does with the stream. -/
theorem rewound_stream :
    (io.getFileSize.2.setFilePosition 0).2.m_pFileHandle = some (stream.seek 0) := by
  rw [getFileSize, hstream]
  rfl

end Positions

/-- `CFileIO::readBlock`. The answer is followed by the memory at `pData`. -/
def readBlock (io : CFileIO) (pData : List UInt8) (blockSize numBlocks : ℕ) :
    Option (Bool × List UInt8 × CFileIO) :=
  match io.m_pFileHandle with
  | none => some (false, pData, io)
  | some stream => do
    let (length, bytes, stream) := stream.read blockSize numBlocks
    let pData ← (storeRange pData 0 bytes).toOption
    return (length == numBlocks, pData, { io with m_pFileHandle := some stream })

/-- A stream that can be read transfers what is left of its file, as far as it is asked to. -/
theorem readBlock_stream {io : CFileIO} {content : List UInt8} {offset : ℕ}
    {writable appends : Bool}
    (hstream : io.m_pFileHandle = some ⟨content, offset, true, writable, appends⟩)
    {blockSize numBlocks length : ℕ} (hsize : blockSize ≠ 0)
    (hlength : length = min (blockSize * numBlocks) (content.length - offset))
    (pData : List UInt8) :
    io.readBlock pData blockSize numBlocks = if length ≤ pData.length then
      some (length / blockSize == numBlocks,
        (content.drop offset).take length ++ pData.drop length,
        { io with m_pFileHandle := some ⟨content, offset + length, true, writable, appends⟩ })
      else none := by
  have hread : (content.drop offset).take (blockSize * numBlocks) =
      (content.drop offset).take length := by
    rw [hlength, List.take_eq_take_iff, List.length_drop, Nat.min_assoc, Nat.min_self]
  have hbytes : ((content.drop offset).take length).length = length := by
    rw [List.length_take, List.length_drop]
    omega
  unfold readBlock
  rw [hstream]
  dsimp only
  rw [Stream.read, if_neg (by simp [hsize])]
  dsimp only
  rw [hread, hbytes, storeRange, hbytes, Nat.zero_add]
  split_ifs
  · rfl
  · rfl

/-- `CFileIO::checkEof`, behind a `readBlock` that was not complete: the stream was read to its
end. -/
def checkEof (io : CFileIO) : Bool :=
  match io.m_pFileHandle with
  | none => false
  | some stream => stream.readable && decide (stream.offset = stream.content.length)

/-- `CFileIO::writeBlock`. -/
def writeBlock (io : CFileIO) (pData : List UInt8) (bloclSize numBlocks : ℕ) :
    Option (Bool × CFileIO) :=
  match io.m_pFileHandle with
  | none => some (false, io)
  | some stream => do
    let bytes ← (loadRange pData 0 (bloclSize * numBlocks)).toOption
    let (length, stream) := stream.write bloclSize bytes
    return (length == numBlocks, { io with m_pFileHandle := some stream })

/-- What a successful `openFile` leaves: the file is not opened twice, and the stream is the one of
`fopen`. -/
theorem of_openFile {io io' : CFileIO} {eMode : eFileIoMode_def} {granted : Bool}
    (hmode : eMode ≠ .unknown) (hopen : io.openFile eMode granted = (true, io')) :
    granted = true ∧ io.m_pFileHandle = none ∧
      ∃ stream, fopen io.file eMode = some stream ∧ io' = ⟨io.file, some stream, eMode⟩ := by
  obtain ⟨file, handle, mode⟩ := io
  cases handle with
  | some stream => cases hopen
  | none =>
    cases granted with
    | false => cases hopen
    | true =>
      simp only [openFile, if_neg hmode] at hopen
      cases hstream : fopen file eMode with
      | none =>
        rw [hstream] at hopen
        cases hopen
      | some stream =>
        rw [hstream] at hopen
        cases hopen
        exact ⟨rfl, rfl, stream, rfl, rfl⟩

end CFileIO

end RdbLibs.FileIO
