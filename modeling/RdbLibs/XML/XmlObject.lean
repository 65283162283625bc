import Mathlib.Logic.Function.Basic
import RdbLibs.FileIO.CFileIO
import RdbLibs.Foundations.MachineWord
import RdbLibs.XML.Document

/-!
# `XmlParserUtil` and `CXmlHandler`

The classes of `Src/XML/XmlUtils` and `Src/XML/xmlHandler` have the same fields, and the same
functions but for a few: one object, `XmlObject`, stands for both, and `XmlParserUtil.new` and
`CXmlHandler.new` are the constructors, which differ. Two flags that no function reads are left out,
and what is printed.

The disk gives each path its file. Whether the system lets a file be opened, and whether it has
memory, are arguments of the calls. A function has no result where it accesses a null pointer, or
leaves the memory of the text.
-/

set_option autoImplicit false
set_option relaxedAutoImplicit false

namespace RdbLibs.XML

open CheckedMemory FileIO MachineWord

/-- The files, by their paths. -/
abbrev Disk := List Char → Option (List UInt8)

/-- What the system grants a call: the files that it may open, the memory of the text buffer, and
that of a copy. -/
structure System where
  granted : List Char → Bool
  allocated : Bool
  copied : Bool

/-- The fields of both classes. -/
structure XmlObject where
  m_pXmlParser : Option xml_node
  m_pBaseNode : Option Path
  m_pLastNode : Option Path
  m_pXmlBuffer : Option (List UInt8)
  m_lXmlBufLen : ℕ
  m_bDumpXmlOnError : Bool
  m_sXmlDumpFile : List Char

/-- `DEFAULT_XML_DUMP_FILE`. -/
def DEFAULT_XML_DUMP_FILE : List Char :=
  ['X', 'M', 'L', '_', 'D', 'u', 'm', 'p', '.', 't', 'x', 't']

/-- What both functions `Init` set, but for the parser. -/
def XmlObject.init (m_pXmlParser : Option xml_node) : XmlObject where
  m_pXmlParser := m_pXmlParser
  m_pBaseNode := none
  m_pLastNode := none
  m_pXmlBuffer := none
  m_lXmlBufLen := 0
  m_bDumpXmlOnError := false
  m_sXmlDumpFile := DEFAULT_XML_DUMP_FILE

/-- `SetDumpOnError`, for constructors that are told so. -/
def XmlObject.setDumpOnError (s : XmlObject) (bDumpOnError : Bool)
    (pDumpFile : Option (List Char)) : XmlObject :=
  { s with
    m_bDumpXmlOnError := bDumpOnError
    m_sXmlDumpFile := pDumpFile.getD DEFAULT_XML_DUMP_FILE }

/-- The constructors of `XmlParserUtil`. The line of `Init` that creates the parser is a comment. -/
def XmlParserUtil.new (bDumpOnError : Bool) (pDumpFile : Option (List Char)) : XmlObject :=
  (XmlObject.init none).setDumpOnError bDumpOnError pDumpFile

/-- The constructors of `CXmlHandler`. `created` is whether there is memory for the parser. -/
def CXmlHandler.new (bDumpOnError : Bool) (pDumpFile : Option (List Char)) (created : Bool) :
    XmlObject :=
  (XmlObject.init (if created then some xml_document else none)).setDumpOnError bDumpOnError
    pDumpFile

/-- The characters that `Parse` replaces. -/
def isControl (chr : UInt8) : Bool :=
  chr == 10 || chr == 13 || chr == 9 || chr == 11 || chr == 7 || chr == 12 || chr == 0

/-- What they are replaced by. -/
def blank (chr : UInt8) : UInt8 := if isControl chr then 32 else chr

/-- The body of the loop of `Parse`. -/
def blankAt (pXmlBuffer : List UInt8) (x : ℕ) : Option (List UInt8) := do
  let chr ← (load pXmlBuffer x).toOption
  if isControl chr then (store pXmlBuffer x 32).toOption else some pXmlBuffer

/-- The loop of `Parse`, from the character `x` on. -/
def blankText (pXmlBuffer : List UInt8) (x : ℕ) : ℕ → Option (List UInt8)
  | 0 => some pXmlBuffer
  | count + 1 => do
    let pXmlBuffer ← blankAt pXmlBuffer x
    blankText pXmlBuffer (x + 1) count

/-- The loop of `DumpXmlBuffer`, which fills the copy `pTemp`. -/
def copyText (pXmlBuffer pTemp : List UInt8) (x : ℕ) : ℕ → Option (List UInt8)
  | 0 => some pTemp
  | count + 1 => do
    let chr ← (load pXmlBuffer x).toOption
    let pTemp ← (store pTemp x (blank chr)).toOption
    copyText pXmlBuffer pTemp (x + 1) count

/-- The path that `setFileDir` and `setFileName` make. -/
def filePath (sFileDir sFileName : List Char) : List Char :=
  (if 0 < sFileDir.length ∧ sFileDir.getLast? ≠ some '/' then sFileDir ++ ['/'] else sFileDir) ++
    sFileName

/-- `CFileIO::openFile` with a path of the disk, which must not be empty. -/
def openFile (disk : Disk) (system : System) (sFilePath : List Char) (eMode : eFileIoMode_def) :
    Bool × CFileIO :=
  let cFileManager := CFileIO.new (disk sFilePath)
  cFileManager.openFile eMode (decide (sFilePath ≠ []) && system.granted sFilePath)

/-- `CFileIO::closeFile`, with what it leaves on the disk. -/
def closeFile (disk : Disk) (sFilePath : List Char) (cFileManager : CFileIO) : Disk :=
  Function.update disk sFilePath cFileManager.closeFile.2.file

namespace XmlObject

/-- `FreeXmlBuffer`. -/
def FreeXmlBuffer (s : XmlObject) : XmlObject := { s with m_pXmlBuffer := none }

/-- `AllocXmlBuffer`. No system has memory for a size that does not fit into an `int`. -/
def AllocXmlBuffer (s : XmlObject) (nLen : ℤ) (allocated : Bool) : Bool × XmlObject :=
  if nLen < 3 then (false, s)
  else
    let s := if s.m_pXmlBuffer ≠ none then s.FreeXmlBuffer else s
    if allocated ∧ nLen + 2 < 2 ^ 31 then
      (true, { s with m_pXmlBuffer := some (List.replicate (nLen + 2).toNat 0) })
    else (false, { s with m_pXmlBuffer := none })

/-- The length of what `DumpXmlBuffer` writes: where none is noted, that of the string in the
buffer. -/
def dumpLength (s : XmlObject) (pXmlBuffer : List UInt8) : Option ℕ :=
  if s.m_lXmlBufLen < 1 then (cString pXmlBuffer).map List.length else some s.m_lXmlBufLen

/-- The end of `DumpXmlBuffer`, behind the opening of the file. -/
def writeDump (s : XmlObject) (pXmlBuffer : List UInt8) (copied bSpaceFill : Bool)
    (cFileManager : CFileIO) : Option (Bool × CFileIO) := do
  let pData ←
    if bSpaceFill && copied then
      copyText pXmlBuffer (List.replicate (s.m_lXmlBufLen + 2) 0) 0 s.m_lXmlBufLen
    else some pXmlBuffer
  cFileManager.writeBlock pData s.m_lXmlBufLen 1

/-- The rest of `DumpXmlBuffer`, behind the choice of the length. -/
def dumpTo (s : XmlObject) (pXmlBuffer : List UInt8) (disk : Disk) (system : System)
    (sFilePath : List Char) (bSpaceFill : Bool) : Option (Bool × XmlObject × Disk) :=
  let (bStatus, cFileManager) := openFile disk system sFilePath .output
  if bStatus = false then some (false, s, disk)
  else do
    let (bStatus, cFileManager) ← s.writeDump pXmlBuffer system.copied bSpaceFill cFileManager
    some (bStatus, s, closeFile disk sFilePath cFileManager)

/-- `DumpXmlBuffer`. -/
def DumpXmlBuffer (s : XmlObject) (disk : Disk) (system : System)
    (pFolder pFileName : Option (List Char)) (bSpaceFill : Bool) :
    Option (Bool × XmlObject × Disk) :=
  match s.m_pXmlBuffer with
  | none => some (false, s, disk)
  | some pXmlBuffer => do
    let lBufLen ← s.dumpLength pXmlBuffer
    if lBufLen < 1 then some (false, s, disk)
    else
      let sFilePath := filePath (pFolder.getD []) (pFileName.getD s.m_sXmlDumpFile)
      dumpTo { s with m_lXmlBufLen := lBufLen } pXmlBuffer disk system sFilePath
        (bSpaceFill && decide (1 ≤ s.m_lXmlBufLen))

section Parsing

variable (parse : (text : List UInt8) → Parsed text)

/-- `Parse`. -/
def Parse (s : XmlObject) : Option (Bool × XmlObject) :=
  match s.m_pXmlParser with
  | none => some (false, s)
  | some _ => do
    let pXmlBuffer ← s.m_pXmlBuffer
    let pXmlBuffer ← blankText pXmlBuffer 0 s.m_lXmlBufLen
    let text ← cString pXmlBuffer
    some ((parse text).accepted, { s with
      m_pXmlParser := some (parse text).document
      m_pXmlBuffer := some ((parse text).rewritten ++ pXmlBuffer.drop text.length) })

/-- `Parse`, with the dump of a text that is not accepted. -/
def parseOrDump (s : XmlObject) (disk : Disk) (system : System) (pFileName : Option (List Char))
    (bSpaceFill : Bool) : Option (Bool × XmlObject × Disk) := do
  let (bStatus, s) ← s.Parse parse
  if bStatus = false ∧ s.m_bDumpXmlOnError then
    let (_, s, disk) ← s.DumpXmlBuffer disk system none pFileName bSpaceFill
    some (bStatus, s, disk)
  else some (bStatus, s, disk)

/-- `LoadXmlBuffer`. -/
def LoadXmlBuffer (s : XmlObject) (disk : Disk) (system : System) (pBuffer : Option (List UInt8))
    (nLen : ℤ) : Option (Bool × XmlObject × Disk) :=
  match s.m_pXmlParser, pBuffer with
  | none, _ | _, none => some (false, s, disk)
  | some _, some pBuffer =>
    if nLen < 1 then some (false, s, disk)
    else
      let (bStatus, s) := s.AllocXmlBuffer nLen system.allocated
      if bStatus = false then some (false, s, disk)
      else do
        let text ← (loadRange pBuffer 0 nLen.toNat).toOption
        let pXmlBuffer ← s.m_pXmlBuffer
        let pXmlBuffer ← (storeRange pXmlBuffer 0 text).toOption
        parseOrDump parse { s with m_pXmlBuffer := some pXmlBuffer, m_lXmlBufLen := nLen.toNat }
          disk system none false

/-- `LoadXmlFile`, behind the allocation of the buffer for `lFileLen` characters. -/
def readXmlFile (s : XmlObject) (disk : Disk) (system : System) (sFilePath : List Char)
    (lFileLen : ℕ) (cFileManager : CFileIO) : Option (Bool × XmlObject × Disk) := do
  let (_, cFileManager) := cFileManager.setFilePosition 0
  let pXmlBuffer ← s.m_pXmlBuffer
  let (bStatus, pXmlBuffer, cFileManager) ←
    cFileManager.readBlock pXmlBuffer (toUnsigned lFileLen) 1
  if bStatus = false ∧ cFileManager.checkEof = false then
    some (false, { s with m_pXmlBuffer := some pXmlBuffer },
      closeFile disk sFilePath cFileManager)
  else
    let (bStatus, s, disk) ←
      parseOrDump parse { s with m_pXmlBuffer := some pXmlBuffer, m_lXmlBufLen := lFileLen }
        disk system (some s.m_sXmlDumpFile) true
    some (bStatus, s, closeFile disk sFilePath cFileManager)

/-- `XmlParserUtil::LoadXmlFile`. -/
def LoadXmlFile (s : XmlObject) (disk : Disk) (system : System)
    (pFolder pFileName : Option (List Char)) : Option (Bool × XmlObject × Disk) :=
  match s.m_pXmlParser, pFileName with
  | none, _ | _, none => some (false, s, disk)
  | some _, some pFileName =>
    let sFilePath := filePath (pFolder.getD []) pFileName
    let (bStatus, cFileManager) := openFile disk system sFilePath .output
    if bStatus = false then some (false, s, disk)
    else
      let (lFileLen, cFileManager) := cFileManager.getFileSize
      if lFileLen < 1 then some (bStatus, s, closeFile disk sFilePath cFileManager)
      else
        let (bStatus, s) := s.AllocXmlBuffer (toInt lFileLen.toNat) system.allocated
        if bStatus = false then some (false, s, closeFile disk sFilePath cFileManager)
        else s.readXmlFile parse disk system sFilePath lFileLen.toNat cFileManager

end Parsing

end XmlObject

end RdbLibs.XML
