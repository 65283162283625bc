import RdbLibs.Foundations.MachineWord
import RdbLibs.Foundations.WhileLoop
import Mathlib.Algebra.Notation.Defs
import Mathlib.Logic.Function.Basic

/-!
# The class `CVRingBuffer`

`Src/Buffer/CVRingBuffer.h`, function by function. Every public method holds `m_ioMutex` from its
first line to its last, so a call is one atomic step on the fields. Entries are of any type with a
zero, the value of memory that `memset` has cleared. A pointer argument is `none` when it is null
and otherwise the memory that it points to, as a function of the offset.

The two `readBlock` overloads share their loop, and so do the two `writeBlock` overloads; the
overloads that take `entriesPerBlock` are named after it. Loop counters are `unsigned int` while
the sizes they run against are `size_t`, so a loop need not end for a buffer of `2 ^ 32` entries or
more: the functions with a loop take a bound on the number of passes. The products of two `size_t`
wrap. The sums `m_readIdx + numEntries` do not, because a vector has fewer than `2 ^ 63` entries.
Log messages are left out.
-/

set_option autoImplicit false
set_option relaxedAutoImplicit false

namespace RdbLibs.Buffer

open MachineWord WhileLoop

/-- The fields of `CVRingBuffer`, without its mutex. -/
structure CVRingBuffer (T : Type*) where
  m_dataBuffer : List T
  m_bufferSize : ℕ
  m_entriesPerBlock : ℕ
  m_currentDataSize : ℕ
  m_writeIdx : ℕ
  m_readIdx : ℕ
deriving DecidableEq

namespace CVRingBuffer

variable {T : Type*}

/-- The assignments that empty the buffer: both indices and the count become 0. -/
def resetIndices (s : CVRingBuffer T) : CVRingBuffer T :=
  { s with m_readIdx := 0, m_writeIdx := 0, m_currentDataSize := 0 }

/-- `if (currentBufSize < m_bufferSize) m_bufferSize = currentBufSize`, with which the methods
begin. -/
def clampBufferSize (s : CVRingBuffer T) : CVRingBuffer T :=
  if s.m_dataBuffer.length < s.m_bufferSize then { s with m_bufferSize := s.m_dataBuffer.length }
  else s

/-- `if (m_bufferSize < bufSize) m_bufferSize = bufSize`, with which `erase` begins. -/
def growBufferSize (s : CVRingBuffer T) : CVRingBuffer T :=
  if s.m_bufferSize < s.m_dataBuffer.length then { s with m_bufferSize := s.m_dataBuffer.length }
  else s

/-! ### Construction and resizing -/

section Resizing

variable [Zero T]

/-- `std::vector::resize`: keeps a prefix, and value-initializes what is added. -/
def resize (cells : List T) (size : ℕ) : List T :=
  cells.take size ++ List.replicate (size - cells.length) 0

/-- `CVRingBuffer::setBufferSize`. `granted` is whether the allocator serves the vector; if it does
not, or the size exceeds `max_size()`, `resize` throws and leaves the object as it was (`none`). -/
def setBufferSize (s : CVRingBuffer T) (numEntries : ℕ) (granted : Bool) :
    Option (Bool × CVRingBuffer T) :=
  if 0 < numEntries then
    if granted ∧ numEntries < 2 ^ 63 then
      let s := { s with m_dataBuffer := resize s.m_dataBuffer numEntries }
      let currSize := s.m_dataBuffer.length
      if currSize < numEntries then some (false, s)
      else
        some (true, { s with
          m_dataBuffer := s.m_dataBuffer.map fun _ ↦ 0
          m_bufferSize := numEntries })
    else none
  else some (false, s)

/-- The fields that both constructors set before they size the buffer. -/
def unsized (entriesPerBlock : ℕ) : CVRingBuffer T where
  m_dataBuffer := []
  m_bufferSize := 0
  m_entriesPerBlock := entriesPerBlock
  m_currentDataSize := 0
  m_writeIdx := 0
  m_readIdx := 0

/-- `CVRingBuffer(numEntries)`, whose argument is 0 by default. -/
def construct (numEntries : ℕ) (granted : Bool) : Option (CVRingBuffer T) :=
  if 0 < numEntries then ((unsized 1).setBufferSize numEntries granted).map Prod.snd
  else some (unsized 1)

/-- `CVRingBuffer(entriesPerBlock, numBlocks)`. -/
def constructBlocks (entriesPerBlock numBlocks : ℕ) (granted : Bool) : Option (CVRingBuffer T) :=
  if 0 < entriesPerBlock ∧ 0 < numBlocks then
    ((unsized entriesPerBlock).setBufferSize (toSize (entriesPerBlock * numBlocks)) granted).map
      Prod.snd
  else some (unsized entriesPerBlock)

/-- `CVRingBuffer::setMaxBufferSize(numEntries)`. -/
def setMaxBufferSize (s : CVRingBuffer T) (numEntries : ℕ) (granted : Bool) :
    Option (Bool × CVRingBuffer T) :=
  s.setBufferSize numEntries granted

/-- `CVRingBuffer::setMaxBufferSize(entriesPerBlock, numBlocks)`. -/
def setMaxBufferSizeBlocks (s : CVRingBuffer T) (entriesPerBlock numBlocks : ℕ) (granted : Bool) :
    Option (Bool × CVRingBuffer T) :=
  if 0 < entriesPerBlock ∧ 0 < numBlocks then
    let numEntries := toSize (entriesPerBlock * numBlocks)
    (s.setBufferSize numEntries granted).map fun (status, s) ↦
      if status then
        (status, { s with m_entriesPerBlock := entriesPerBlock, m_bufferSize := numEntries })
      else (status, s)
  else some (false, s)

/-- `CVRingBuffer::flush`. The error path answers `-1` as a `bool`, which is `true`. -/
def flush (s : CVRingBuffer T) (bZeroOutBuffer : Bool) : Bool × CVRingBuffer T :=
  let s := s.resetIndices
  if bZeroOutBuffer then
    let s := s.clampBufferSize
    if s.m_bufferSize < 1 ∨ s.m_bufferSize < s.m_dataBuffer.length then (true, s)
    else (true, { s with m_dataBuffer := s.m_dataBuffer.map fun _ ↦ 0 })
  else (true, s)

end Resizing

/-! ### Deleting -/

/-- `CVRingBuffer::erase`. The comparison `numEntries > (int) bufSize` converts the `int` back to
`size_t`. -/
def erase (s : CVRingBuffer T) (numEntries : ℕ) : Bool × CVRingBuffer T :=
  let bufSize := s.m_dataBuffer.length
  let s := s.growBufferSize
  if bufSize < 1 ∨ s.m_currentDataSize < 1 then (false, s)
  else if numEntries = 1 then
    if s.m_readIdx = s.m_writeIdx then (true, s.resetIndices)
    else
      (true, { s with
        m_readIdx := if bufSize ≤ s.m_readIdx + 1 then 0 else s.m_readIdx + 1
        m_currentDataSize :=
          if 0 < s.m_currentDataSize then s.m_currentDataSize - 1 else s.m_currentDataSize })
  else if intToSize (toInt bufSize) < numEntries then (false, s.resetIndices)
  else if s.m_currentDataSize < numEntries then (true, s.resetIndices)
  else
    (true, { s with
      m_readIdx :=
        if bufSize ≤ s.m_readIdx + numEntries then s.m_readIdx + numEntries - bufSize
        else s.m_readIdx + numEntries
      m_currentDataSize :=
        if numEntries < s.m_currentDataSize then s.m_currentDataSize - numEntries else 0 })

/-- `CVRingBuffer::deleteEntry`. -/
def deleteEntry (s : CVRingBuffer T) : Bool × CVRingBuffer T := s.erase 1

/-- `CVRingBuffer::deleteBlock`, whose parameter is an `unsigned int`. -/
def deleteBlock (s : CVRingBuffer T) (numEntries : ℕ) : Bool × CVRingBuffer T :=
  s.erase (toUnsigned numEntries)

/-! ### Reading -/

/-- What a `readBlock` call leaves: its result, the target memory and the buffer. -/
structure ReadResult (T : Type*) where
  value : ℤ
  target : Option (ℕ → T)
  buffer : CVRingBuffer T

/-- The variables of the read loop. -/
structure ReadLoop (T : Type*) where
  buffer : CVRingBuffer T
  target : ℕ → T
  currentReadIdx : ℕ
  entriesRead : ℕ

/-- Leaving the read loop, by its condition or by a `break`. -/
def ReadLoop.finish (l : ReadLoop T) : ReadResult T where
  value := toInt l.entriesRead
  target := some l.target
  buffer := l.buffer

/-- One pass of the read loop. The `catch` of the exception that `at` may throw is a `break`. -/
def readPass (numEntriesToRead : ℕ) (deleteEntries : Bool) (l : ReadLoop T) :
    Pass (ReadLoop T) (ReadResult T) :=
  if l.entriesRead < numEntriesToRead then
    let currentReadIdx := if l.buffer.m_bufferSize ≤ l.currentReadIdx then 0 else l.currentReadIdx
    if currentReadIdx = l.buffer.m_writeIdx then .leave l.finish
    else
      match l.buffer.m_dataBuffer[currentReadIdx]? with
      | none => .leave l.finish
      | some valueRead => .again
        { buffer := if deleteEntries then (l.buffer.erase 1).2 else l.buffer
          target := Function.update l.target l.entriesRead valueRead
          currentReadIdx := toUnsigned (currentReadIdx + 1)
          entriesRead := toUnsigned (l.entriesRead + 1) }
  else .leave l.finish

/-- The read loop from its first pass. -/
def readEntries (fuel : ℕ) (s : CVRingBuffer T) (target : ℕ → T) (numEntriesToRead : ℕ)
    (deleteEntries : Bool) : Option (ReadResult T) :=
  loop (readPass numEntriesToRead deleteEntries) fuel
    { buffer := s, target := target, currentReadIdx := toUnsigned s.m_readIdx, entriesRead := 0 }

/-- `CVRingBuffer::readBlock(pTargetBuff, blockSize, deleteEntries)`. -/
def readBlock (fuel : ℕ) (s : CVRingBuffer T) (pTargetBuff : Option (ℕ → T)) (blockSize : ℕ)
    (deleteEntries : Bool) : Option (ReadResult T) :=
  match pTargetBuff with
  | none => some ⟨-1, none, s⟩
  | some target =>
    let s := s.clampBufferSize
    if s.m_bufferSize < 1 ∨ s.m_bufferSize < blockSize then some ⟨-1, some target, s⟩
    else if s.m_currentDataSize < 1 then some ⟨0, some target, s⟩
    else readEntries fuel s target blockSize deleteEntries

/-- `CVRingBuffer::readBlock(pTargetBuff, entriesPerBlock, blockSize, deleteEntries)`. -/
def readBlockEntriesPerBlock (fuel : ℕ) (s : CVRingBuffer T) (pTargetBuff : Option (ℕ → T))
    (entriesPerBlock blockSize : ℕ) (deleteEntries : Bool) : Option (ReadResult T) :=
  match pTargetBuff with
  | none => some ⟨-1, none, s⟩
  | some target =>
    let s := s.clampBufferSize
    if s.m_bufferSize < 1 ∨ s.m_bufferSize < blockSize then some ⟨-1, some target, s⟩
    else if s.m_currentDataSize < 1 then some ⟨0, some target, s⟩
    else readEntries fuel s target (toSize (entriesPerBlock * blockSize)) deleteEntries

/-! ### Writing -/

/-- The variables of the write loop. -/
structure WriteLoop (T : Type*) where
  buffer : CVRingBuffer T
  entriesWritten : ℕ

/-- The part of a pass of the write loop after its over-flow test: stores one entry, counts it and
moves the write index. The `catch` of the exception that `at` may throw returns `-6`. The count
saturates, and a saturated count ends a call that must not overwrite. -/
def writeSlot (source : ℕ → T) (bOverwrite : Bool) (s : CVRingBuffer T) (entriesWritten : ℕ) :
    Pass (WriteLoop T) (ℤ × CVRingBuffer T) :=
  if s.m_writeIdx < s.m_dataBuffer.length then
    let m_dataBuffer := s.m_dataBuffer.set s.m_writeIdx (source entriesWritten)
    let m_writeIdx := if s.m_bufferSize ≤ s.m_writeIdx + 1 then 0 else s.m_writeIdx + 1
    if s.m_currentDataSize < s.m_bufferSize then
      .again ⟨{ s with m_dataBuffer, m_currentDataSize := s.m_currentDataSize + 1, m_writeIdx },
        toUnsigned (entriesWritten + 1)⟩
    else if bOverwrite = false then .leave (toInt entriesWritten, { s with m_dataBuffer })
    else .again ⟨{ s with m_dataBuffer, m_writeIdx }, toUnsigned (entriesWritten + 1)⟩
  else .leave (-6, s)

/-- One pass of the write loop. -/
def writePass (source : ℕ → T) (writeSize : ℕ) (bOverwrite : Bool) (l : WriteLoop T) :
    Pass (WriteLoop T) (ℤ × CVRingBuffer T) :=
  if l.entriesWritten < writeSize then
    let s := l.buffer
    if s.m_writeIdx = s.m_readIdx ∧ 0 < s.m_currentDataSize then
      if bOverwrite = false then .leave (-5, s)
      else
        let m_readIdx := if s.m_bufferSize ≤ s.m_readIdx + 1 then 0 else s.m_readIdx + 1
        writeSlot source bOverwrite { s with m_readIdx } l.entriesWritten
    else writeSlot source bOverwrite s l.entriesWritten
  else .leave (toInt l.entriesWritten, l.buffer)

/-- The write loop from its first pass. -/
def writeEntries (fuel : ℕ) (s : CVRingBuffer T) (source : ℕ → T) (writeSize : ℕ)
    (bOverwrite : Bool) : Option (ℤ × CVRingBuffer T) :=
  loop (writePass source writeSize bOverwrite) fuel { buffer := s, entriesWritten := 0 }

/-- `CVRingBuffer::writeBlock(pSourceBuff, blockSize, bOverwrite)`. -/
def writeBlock (fuel : ℕ) (s : CVRingBuffer T) (pSourceBuff : Option (ℕ → T)) (blockSize : ℕ)
    (bOverwrite : Bool) : Option (ℤ × CVRingBuffer T) :=
  match pSourceBuff with
  | none => some (-1, s)
  | some source =>
    let s := s.clampBufferSize
    if s.m_bufferSize < 1 ∨ s.m_bufferSize < blockSize then some (-2, s)
    else writeEntries fuel s source blockSize bOverwrite

/-- `CVRingBuffer::writeBlock(pSourceBuff, entriesPerBlock, blockSize, bOverwrite)`. -/
def writeBlockEntriesPerBlock (fuel : ℕ) (s : CVRingBuffer T) (pSourceBuff : Option (ℕ → T))
    (entriesPerBlock blockSize : ℕ) (bOverwrite : Bool) : Option (ℤ × CVRingBuffer T) :=
  match pSourceBuff with
  | none => some (-1, s)
  | some source =>
    let s := s.clampBufferSize
    if s.m_bufferSize < 1 ∨ s.m_bufferSize < blockSize then some (-2, s)
    else
      let writeSize := toSize (entriesPerBlock * blockSize)
      if writeSize < 1 ∨ s.m_bufferSize ≤ writeSize then some (-3, s)
      else writeEntries fuel s source writeSize bOverwrite

/-! ### Calls -/

/-- The public methods that can change the buffer, with their arguments. -/
inductive Op (T : Type*)
  | writeBlock (pSourceBuff : Option (ℕ → T)) (blockSize : ℕ) (bOverwrite : Bool)
  | writeBlockEntriesPerBlock (pSourceBuff : Option (ℕ → T)) (entriesPerBlock blockSize : ℕ)
      (bOverwrite : Bool)
  | readBlock (pTargetBuff : Option (ℕ → T)) (blockSize : ℕ) (deleteEntries : Bool)
  | readBlockEntriesPerBlock (pTargetBuff : Option (ℕ → T)) (entriesPerBlock blockSize : ℕ)
      (deleteEntries : Bool)
  | deleteEntry
  | deleteBlock (numEntries : ℕ)
  | flush (bZeroOutBuffer : Bool)
  | setMaxBufferSize (numEntries : ℕ) (granted : Bool)
  | setMaxBufferSizeBlocks (entriesPerBlock numBlocks : ℕ) (granted : Bool)

/-- The answer of a call: an `int`, an `int` with the target memory of a read, a `bool`, or the
exception of an allocation that failed. -/
inductive Reply (T : Type*)
  | count (value : ℤ)
  | read (value : ℤ) (target : Option (ℕ → T))
  | status (value : Bool)
  | threw

/-- The answer to a resizing and the buffer after it. -/
def resizeReply (s : CVRingBuffer T) : Option (Bool × CVRingBuffer T) → Reply T × CVRingBuffer T
  | none => (.threw, s)
  | some (status, s') => (.status status, s')

/-- Carries out one call, with a bound on the passes of its loop. -/
def exec [Zero T] (fuel : ℕ) (s : CVRingBuffer T) : Op T → Option (Reply T × CVRingBuffer T)
  | .writeBlock p blockSize bOverwrite =>
    (s.writeBlock fuel p blockSize bOverwrite).map fun r ↦ (.count r.1, r.2)
  | .writeBlockEntriesPerBlock p entriesPerBlock blockSize bOverwrite =>
    (s.writeBlockEntriesPerBlock fuel p entriesPerBlock blockSize bOverwrite).map
      fun r ↦ (.count r.1, r.2)
  | .readBlock p blockSize deleteEntries =>
    (s.readBlock fuel p blockSize deleteEntries).map fun r ↦ (.read r.value r.target, r.buffer)
  | .readBlockEntriesPerBlock p entriesPerBlock blockSize deleteEntries =>
    (s.readBlockEntriesPerBlock fuel p entriesPerBlock blockSize deleteEntries).map
      fun r ↦ (.read r.value r.target, r.buffer)
  | .deleteEntry => some (.status s.deleteEntry.1, s.deleteEntry.2)
  | .deleteBlock numEntries => some (.status (s.deleteBlock numEntries).1,
      (s.deleteBlock numEntries).2)
  | .flush bZeroOutBuffer => some (.status (s.flush bZeroOutBuffer).1, (s.flush bZeroOutBuffer).2)
  | .setMaxBufferSize numEntries granted =>
    some (s.resizeReply (s.setMaxBufferSize numEntries granted))
  | .setMaxBufferSizeBlocks entriesPerBlock numBlocks granted =>
    some (s.resizeReply (s.setMaxBufferSizeBlocks entriesPerBlock numBlocks granted))

/-- A call that returns (or throws): the buffer before it, its answer, the buffer after it. -/
def Step [Zero T] (s : CVRingBuffer T) (op : Op T) (reply : Reply T) (s' : CVRingBuffer T) :
    Prop :=
  ∃ fuel, s.exec fuel op = some (reply, s')

end CVRingBuffer

end RdbLibs.Buffer
