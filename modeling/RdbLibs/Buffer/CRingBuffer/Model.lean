import RdbLibs.Buffer.CVRingBuffer.Model
import RdbLibs.Foundations.CheckedMemory

/-!
# The class `CRingBuffer`

`Src/Buffer/CRingBuffer.h`, function by function: the ring buffer of `CVRingBuffer` over memory
from `calloc` instead of a vector, with the same public methods, so that calls and answers are
those of `CVRingBuffer` (none of these calls throws). The code was copied and the two have drifted
apart. An access outside the memory is not an exception here but a `Fault`. The memory is null when
`calloc` has failed or nothing was allocated, while `m_bufferSize` keeps the last size. Writes
refuse a block as long as the buffer. A saturated count does not end a write. And where the loop of
the overload `writeBlock(pBuff, entriesPerBlock, blockSize, bOverwrite)` meets a full buffer
without the permission to overwrite, it has the statement `-5;` and not `return -5;`, so that it
goes on.

`free` is taken for the function of the C library, as the call with an argument in the member of
that name must mean. `calloc` never serves `2 ^ 63` entries or more.
-/

set_option autoImplicit false
set_option relaxedAutoImplicit false

namespace RdbLibs.Buffer

open MachineWord WhileLoop CheckedMemory
open CVRingBuffer (Op Reply)

/-- The fields of `CRingBuffer`, without its mutex. -/
structure CRingBuffer (T : Type*) where
  m_pDataBuffer : Option (List T)
  m_bufferSize : ℕ
  m_entriesPerBlock : ℕ
  m_currentDataSize : ℕ
  m_writeIdx : ℕ
  m_readIdx : ℕ
deriving DecidableEq

namespace CRingBuffer

variable {T : Type*}

/-- The assignments that empty the buffer: both indices and the count become 0. -/
def resetIndices (s : CRingBuffer T) : CRingBuffer T :=
  { s with m_readIdx := 0, m_writeIdx := 0, m_currentDataSize := 0 }

/-! ### Construction and resizing -/

section Resizing

variable [Zero T]

/-- `CRingBuffer::free`. -/
def free (s : CRingBuffer T) : CRingBuffer T := { s with m_pDataBuffer := none }

/-- `CRingBuffer::allocateBuffer`. `granted` is whether `calloc` serves the memory. -/
def allocateBuffer (s : CRingBuffer T) (numEntries : ℕ) (granted : Bool) :
    Bool × CRingBuffer T :=
  let s := s.free
  if 0 < numEntries then
    if granted ∧ numEntries < 2 ^ 63 then
      (true, { s with
        m_pDataBuffer := some (List.replicate numEntries 0)
        m_bufferSize := numEntries })
    else (false, s)
  else (false, s)

/-- The fields that both constructors set before they allocate. -/
def unallocated (entriesPerBlock : ℕ) : CRingBuffer T where
  m_pDataBuffer := none
  m_bufferSize := 0
  m_entriesPerBlock := entriesPerBlock
  m_currentDataSize := 0
  m_writeIdx := 0
  m_readIdx := 0

/-- `CRingBuffer(numEntries)`, whose argument is 0 by default. -/
def construct (numEntries : ℕ) (granted : Bool) : CRingBuffer T :=
  if 0 < numEntries then ((unallocated 1).allocateBuffer numEntries granted).2
  else unallocated 1

/-- `CRingBuffer(entriesPerBlock, numBlocks)`. -/
def constructBlocks (entriesPerBlock numBlocks : ℕ) (granted : Bool) : CRingBuffer T :=
  if 0 < entriesPerBlock ∧ 0 < numBlocks then
    ((unallocated entriesPerBlock).allocateBuffer (toSize (entriesPerBlock * numBlocks)) granted).2
  else unallocated entriesPerBlock

/-- `CRingBuffer::setMaxBufferSize(numEntries)`. -/
def setMaxBufferSize (s : CRingBuffer T) (numEntries : ℕ) (granted : Bool) :
    Bool × CRingBuffer T :=
  s.allocateBuffer numEntries granted

/-- `CRingBuffer::setMaxBufferSize(entriesPerBlock, numBlocks)`. -/
def setMaxBufferSizeBlocks (s : CRingBuffer T) (entriesPerBlock numBlocks : ℕ) (granted : Bool) :
    Bool × CRingBuffer T :=
  if 0 < entriesPerBlock ∧ 0 < numBlocks then
    let numEntries := toSize (entriesPerBlock * numBlocks)
    let (status, s) := s.allocateBuffer numEntries granted
    if status then
      (status, { s with m_entriesPerBlock := entriesPerBlock, m_bufferSize := numEntries })
    else (status, s)
  else (false, s)

/-- `CRingBuffer::flush`. -/
def flush (s : CRingBuffer T) (bZeroOutBuffer : Bool) : Except Fault (Bool × CRingBuffer T) :=
  let s := s.resetIndices
  if bZeroOutBuffer = false then .ok (true, s)
  else if 0 < s.m_bufferSize then
    match s.m_pDataBuffer with
    | none => .error .nullPointer
    | some cells =>
      if s.m_bufferSize ≤ cells.length then
        .ok (true, { s with
          m_pDataBuffer :=
            some (List.replicate s.m_bufferSize 0 ++ cells.drop s.m_bufferSize) })
      else .error .outOfBounds
  else .ok (false, s)

end Resizing

/-! ### Deleting -/

/-- `CRingBuffer::erase`. The comparison `numEntries > (int) m_bufferSize` converts the `int` back
to `size_t`. -/
def erase (s : CRingBuffer T) (numEntries : ℕ) : Bool × CRingBuffer T :=
  if s.m_pDataBuffer.isNone ∨ s.m_bufferSize < 1 ∨ s.m_currentDataSize < 1 then (false, s)
  else if numEntries = 1 then
    if s.m_readIdx = s.m_writeIdx then (true, s.resetIndices)
    else
      (true, { s with
        m_readIdx := if s.m_bufferSize ≤ s.m_readIdx + 1 then 0 else s.m_readIdx + 1
        m_currentDataSize :=
          if 0 < s.m_currentDataSize then s.m_currentDataSize - 1 else s.m_currentDataSize })
  else if intToSize (toInt s.m_bufferSize) < numEntries then (false, s.resetIndices)
  else if s.m_currentDataSize < numEntries then (true, s.resetIndices)
  else
    (true, { s with
      m_readIdx :=
        if s.m_bufferSize ≤ s.m_readIdx + numEntries then s.m_readIdx + numEntries - s.m_bufferSize
        else s.m_readIdx + numEntries
      m_currentDataSize :=
        if numEntries < s.m_currentDataSize then s.m_currentDataSize - numEntries else 0 })

/-- `CRingBuffer::deleteEntry`. -/
def deleteEntry (s : CRingBuffer T) : Bool × CRingBuffer T := s.erase 1

/-- `CRingBuffer::deleteBlock`, whose parameter is an `unsigned int`. -/
def deleteBlock (s : CRingBuffer T) (numEntries : ℕ) : Bool × CRingBuffer T :=
  s.erase (toUnsigned numEntries)

/-! ### Reading -/

/-- What a `readBlock` call leaves: its result, the target memory and the buffer. -/
structure ReadResult (T : Type*) where
  value : ℤ
  target : Option (ℕ → T)
  buffer : CRingBuffer T

/-- The variables of the read loop. -/
structure ReadLoop (T : Type*) where
  buffer : CRingBuffer T
  target : ℕ → T
  currentReadIdx : ℕ
  entriesRead : ℕ

/-- Leaving the read loop, by its condition or by a `break`. -/
def ReadLoop.finish (l : ReadLoop T) : ReadResult T where
  value := toInt l.entriesRead
  target := some l.target
  buffer := l.buffer

/-- Reads the cell of the buffer at an index. -/
def entryAt (s : CRingBuffer T) (index : ℕ) : Except Fault T :=
  match s.m_pDataBuffer with
  | none => .error .nullPointer
  | some cells => load cells index

/-- One pass of the read loop. -/
def readPass (numEntriesToRead : ℕ) (deleteEntries : Bool) (l : ReadLoop T) :
    Pass (ReadLoop T) (Except Fault (ReadResult T)) :=
  if l.entriesRead < numEntriesToRead then
    let currentReadIdx := if l.buffer.m_bufferSize ≤ l.currentReadIdx then 0 else l.currentReadIdx
    if currentReadIdx = l.buffer.m_writeIdx then .leave (.ok l.finish)
    else
      match l.buffer.entryAt currentReadIdx with
      | .error fault => .leave (.error fault)
      | .ok valueRead => .again
        { buffer := if deleteEntries then (l.buffer.erase 1).2 else l.buffer
          target := Function.update l.target l.entriesRead valueRead
          currentReadIdx := toUnsigned (currentReadIdx + 1)
          entriesRead := toUnsigned (l.entriesRead + 1) }
  else .leave (.ok l.finish)

/-- The read loop from its first pass. -/
def readEntries (fuel : ℕ) (s : CRingBuffer T) (target : ℕ → T) (numEntriesToRead : ℕ)
    (deleteEntries : Bool) : Option (Except Fault (ReadResult T)) :=
  loop (readPass numEntriesToRead deleteEntries) fuel
    { buffer := s, target := target, currentReadIdx := toUnsigned s.m_readIdx, entriesRead := 0 }

/-- `CRingBuffer::readBlock(pTargetBuff, blockSize, deleteEntries)`. -/
def readBlock (fuel : ℕ) (s : CRingBuffer T) (pTargetBuff : Option (ℕ → T)) (blockSize : ℕ)
    (deleteEntries : Bool) : Option (Except Fault (ReadResult T)) :=
  match s.m_pDataBuffer, pTargetBuff with
  | some _, some target =>
    if s.m_bufferSize < 1 ∨ s.m_bufferSize < blockSize then some (.ok ⟨-1, some target, s⟩)
    else if s.m_currentDataSize < 1 then some (.ok ⟨0, some target, s⟩)
    else readEntries fuel s target blockSize deleteEntries
  | _, _ => some (.ok ⟨-1, pTargetBuff, s⟩)

/-- `CRingBuffer::readBlock(pTargetBuff, entriesPerBlock, blockSize, deleteEntries)`. -/
def readBlockEntriesPerBlock (fuel : ℕ) (s : CRingBuffer T) (pTargetBuff : Option (ℕ → T))
    (entriesPerBlock blockSize : ℕ) (deleteEntries : Bool) :
    Option (Except Fault (ReadResult T)) :=
  match s.m_pDataBuffer, pTargetBuff with
  | some _, some target =>
    if s.m_bufferSize < 1 ∨ s.m_bufferSize < blockSize then some (.ok ⟨-1, some target, s⟩)
    else if s.m_currentDataSize < 1 then some (.ok ⟨0, some target, s⟩)
    else readEntries fuel s target (toSize (entriesPerBlock * blockSize)) deleteEntries
  | _, _ => some (.ok ⟨-1, pTargetBuff, s⟩)

/-! ### Writing -/

/-- The variables of a write loop. -/
structure WriteLoop (T : Type*) where
  buffer : CRingBuffer T
  entriesWritten : ℕ

/-- What the `else` branch of the over-flow test does: the read index moves on. -/
def advanceReadIdx (s : CRingBuffer T) : CRingBuffer T :=
  { s with m_readIdx := if s.m_bufferSize ≤ s.m_readIdx + 1 then 0 else s.m_readIdx + 1 }

/-- The part of a pass of a write loop after its over-flow test: stores one entry, counts it and
moves the write index. The count saturates. -/
def writeSlot (source : ℕ → T) (s : CRingBuffer T) (entriesWritten : ℕ) :
    Pass (WriteLoop T) (Except Fault (ℤ × CRingBuffer T)) :=
  match s.m_pDataBuffer with
  | none => .leave (.error .nullPointer)
  | some cells =>
    match store cells s.m_writeIdx (source entriesWritten) with
    | .error fault => .leave (.error fault)
    | .ok cells => .again
      ⟨{ s with
          m_pDataBuffer := some cells
          m_currentDataSize :=
            if s.m_currentDataSize < s.m_bufferSize then s.m_currentDataSize + 1
            else s.m_currentDataSize
          m_writeIdx := if s.m_bufferSize ≤ s.m_writeIdx + 1 then 0 else s.m_writeIdx + 1 },
        toUnsigned (entriesWritten + 1)⟩

/-- One pass of the loop of `writeBlock(pBuff, blockSize, bOverwrite)`. -/
def writePass (source : ℕ → T) (blockSize : ℕ) (bOverwrite : Bool) (l : WriteLoop T) :
    Pass (WriteLoop T) (Except Fault (ℤ × CRingBuffer T)) :=
  if l.entriesWritten < blockSize then
    let s := l.buffer
    if s.m_writeIdx = s.m_readIdx ∧ 0 < s.m_currentDataSize then
      if bOverwrite = false then .leave (.ok (-5, s))
      else writeSlot source s.advanceReadIdx l.entriesWritten
    else writeSlot source s l.entriesWritten
  else .leave (.ok (toInt l.entriesWritten, l.buffer))

/-- `CRingBuffer::writeBlock(pBuff, blockSize, bOverwrite)`. -/
def writeBlock (fuel : ℕ) (s : CRingBuffer T) (pBuff : Option (ℕ → T)) (blockSize : ℕ)
    (bOverwrite : Bool) : Option (Except Fault (ℤ × CRingBuffer T)) :=
  match s.m_pDataBuffer, pBuff with
  | some _, some source =>
    if s.m_bufferSize < 1 ∨ s.m_bufferSize ≤ blockSize then some (.ok (-2, s))
    else loop (writePass source blockSize bOverwrite) fuel { buffer := s, entriesWritten := 0 }
  | _, _ => some (.ok (-1, s))

/-- One pass of the loop of `writeBlock(pBuff, entriesPerBlock, blockSize, bOverwrite)`. The
statement `-5;` of its over-flow test has no effect. -/
def writePassEntriesPerBlock (source : ℕ → T) (writeSize : ℕ) (bOverwrite : Bool)
    (l : WriteLoop T) : Pass (WriteLoop T) (Except Fault (ℤ × CRingBuffer T)) :=
  if l.entriesWritten < writeSize then
    let s := l.buffer
    if s.m_writeIdx = s.m_readIdx ∧ 0 < s.m_currentDataSize then
      if bOverwrite = false then writeSlot source s l.entriesWritten
      else writeSlot source s.advanceReadIdx l.entriesWritten
    else writeSlot source s l.entriesWritten
  else .leave (.ok (toInt l.entriesWritten, l.buffer))

/-- `CRingBuffer::writeBlock(pBuff, entriesPerBlock, blockSize, bOverwrite)`. -/
def writeBlockEntriesPerBlock (fuel : ℕ) (s : CRingBuffer T) (pBuff : Option (ℕ → T))
    (entriesPerBlock blockSize : ℕ) (bOverwrite : Bool) :
    Option (Except Fault (ℤ × CRingBuffer T)) :=
  match s.m_pDataBuffer, pBuff with
  | some _, some source =>
    if s.m_bufferSize < 1 ∨ s.m_bufferSize ≤ blockSize then some (.ok (-2, s))
    else
      let writeSize := toSize (entriesPerBlock * blockSize)
      if writeSize < 1 ∨ s.m_bufferSize ≤ writeSize then some (.ok (-3, s))
      else
        loop (writePassEntriesPerBlock source writeSize bOverwrite) fuel
          { buffer := s, entriesWritten := 0 }
  | _, _ => some (.ok (-1, s))

/-! ### Calls -/

/-- The answer of a write and the buffer after it. -/
def countReply : ℤ × CRingBuffer T → Reply T × CRingBuffer T
  | (value, s) => (.count value, s)

/-- The answer of a read and the buffer after it. -/
def readReply (result : ReadResult T) : Reply T × CRingBuffer T :=
  (.read result.value result.target, result.buffer)

/-- The answer of the other methods and the buffer after them. -/
def statusReply : Bool × CRingBuffer T → Reply T × CRingBuffer T
  | (status, s) => (.status status, s)

/-- Carries out one call, with a bound on the passes of its loop. -/
def exec [Zero T] (fuel : ℕ) (s : CRingBuffer T) :
    Op T → Option (Except Fault (Reply T × CRingBuffer T))
  | .writeBlock p blockSize bOverwrite =>
    (s.writeBlock fuel p blockSize bOverwrite).map (Except.map countReply)
  | .writeBlockEntriesPerBlock p entriesPerBlock blockSize bOverwrite =>
    (s.writeBlockEntriesPerBlock fuel p entriesPerBlock blockSize bOverwrite).map
      (Except.map countReply)
  | .readBlock p blockSize deleteEntries =>
    (s.readBlock fuel p blockSize deleteEntries).map (Except.map readReply)
  | .readBlockEntriesPerBlock p entriesPerBlock blockSize deleteEntries =>
    (s.readBlockEntriesPerBlock fuel p entriesPerBlock blockSize deleteEntries).map
      (Except.map readReply)
  | .deleteEntry => some (.ok (statusReply s.deleteEntry))
  | .deleteBlock numEntries => some (.ok (statusReply (s.deleteBlock numEntries)))
  | .flush bZeroOutBuffer => some ((s.flush bZeroOutBuffer).map statusReply)
  | .setMaxBufferSize numEntries granted =>
    some (.ok (statusReply (s.setMaxBufferSize numEntries granted)))
  | .setMaxBufferSizeBlocks entriesPerBlock numBlocks granted =>
    some (.ok (statusReply (s.setMaxBufferSizeBlocks entriesPerBlock numBlocks granted)))

/-- A call that returns: the buffer before it, its answer, the buffer after it. -/
def Step [Zero T] (s : CRingBuffer T) (op : Op T) (reply : Reply T) (s' : CRingBuffer T) : Prop :=
  ∃ fuel, s.exec fuel op = some (.ok (reply, s'))

end CRingBuffer

end RdbLibs.Buffer
