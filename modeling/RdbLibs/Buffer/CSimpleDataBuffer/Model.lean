import RdbLibs.Foundations.BlockHeap
import RdbLibs.Foundations.CellLoops
import RdbLibs.Foundations.MachineWord

/-!
# `CSimpleDataBuffer`

The template of `Src/Buffer/CDataBuffer.h`. An object has the heap that it allocates its blocks
from, and `m_pBuffer` is a pointer to one of them. The functions that answer a pointer answer its
offset in the block of `m_pBuffer`. An array that is passed with the number of its items is the
list of them, and what is read into an array is answered. The mutex is left out: each function
locks it for itself, and none calls another. A function has no result where an access leaves the
block, or where the block was freed.
-/

set_option autoImplicit false
set_option relaxedAutoImplicit false

namespace RdbLibs.Buffer

open BlockHeap CheckedMemory MachineWord

/-- `CSimpleDataBuffer<T>`. -/
structure CSimpleDataBuffer (T : Type*) where
  m_frameSize : ℕ
  m_blockSize : ℕ
  m_arraySize : ℕ
  m_readIdx : ℕ
  m_writeIdx : ℕ
  m_bAllocated : Bool
  m_pBuffer : Option ℕ
  heap : Heap T

namespace CSimpleDataBuffer

variable {T : Type*}

/-- The constructor. -/
def new : CSimpleDataBuffer T := ⟨1, 0, 0, 0, 0, false, none, .empty⟩

/-- `CSimpleDataBuffer::setFrameSize`. -/
def setFrameSize (b : CSimpleDataBuffer T) (frameSize : ℕ) : CSimpleDataBuffer T :=
  if b.m_bAllocated then b else { b with m_frameSize := frameSize }

/-- `CSimpleDataBuffer::setFramePerBlock`. -/
def setFramePerBlock (b : CSimpleDataBuffer T) (blockSize : ℕ) : CSimpleDataBuffer T :=
  if b.m_bAllocated then b else { b with m_blockSize := blockSize }

/-- `CSimpleDataBuffer::setSize`. -/
def setSize (b : CSimpleDataBuffer T) (frameSize blockSize : ℕ) : CSimpleDataBuffer T :=
  if b.m_bAllocated then b else { b with m_frameSize := frameSize, m_blockSize := blockSize }

/-- The block size that `alloc` goes on with. -/
def blockSizeOf (b : CSimpleDataBuffer T) (blockSize : ℕ) : ℕ :=
  if 0 < blockSize then blockSize else b.m_blockSize

/-- `CSimpleDataBuffer::alloc`. `granted` is whether `calloc` finds the memory. -/
def alloc [Zero T] (b : CSimpleDataBuffer T) (blockSize : ℕ) (granted : Bool) :
    Bool × CSimpleDataBuffer T :=
  let b := { b with m_blockSize := b.blockSizeOf blockSize }
  if b.m_blockSize < 1 then (false, b)
  else if b.m_frameSize < 1 then (false, b)
  else if granted then
    let arraySize := toUnsigned (b.m_blockSize * b.m_frameSize)
    (true, { b with
      m_arraySize := arraySize
      m_pBuffer := some b.heap.next
      heap := b.heap.allocate (List.replicate arraySize 0)
      m_bAllocated := true })
  else (false, { b with m_pBuffer := none, m_arraySize := 0 })

/-- `CSimpleDataBuffer::free`. -/
def free (b : CSimpleDataBuffer T) : Except HeapFault (CSimpleDataBuffer T) := do
  let heap ← b.heap.free b.m_pBuffer
  return { b with heap := heap, m_bAllocated := false }

/-- The destructor. -/
def destroy (b : CSimpleDataBuffer T) : Except HeapFault (CSimpleDataBuffer T) :=
  free { b with m_blockSize := 0, m_arraySize := 0, m_readIdx := 0, m_writeIdx := 0 }

/-- The block behind `m_pBuffer`. -/
def block (b : CSimpleDataBuffer T) : Except HeapFault (List T) := b.heap.cells b.m_pBuffer

/-- Changes the block behind `m_pBuffer`. -/
def setBlock (b : CSimpleDataBuffer T) (cells : List T) : CSimpleDataBuffer T :=
  match b.m_pBuffer with
  | none => b
  | some block => { b with heap := b.heap.put block (some cells) }

/-- `CSimpleDataBuffer::clear`. -/
def clear [Zero T] (b : CSimpleDataBuffer T) : Except HeapFault (CSimpleDataBuffer T) :=
  if b.m_bAllocated = false then .ok b
  else if b.m_arraySize < 1 then .ok b
  else do
    let cells ← access (fillRange (← b.block) 0 b.m_arraySize 0)
    return { b.setBlock cells with m_readIdx := 0, m_writeIdx := 0 }

/-- `CSimpleDataBuffer::getBuffPtr`. -/
def getBuffPtr (b : CSimpleDataBuffer T) : Option ℕ :=
  if b.m_bAllocated = false then none else b.m_pBuffer.map fun _ ↦ 0

/-- `CSimpleDataBuffer::getDataPtr`. -/
def getDataPtr (b : CSimpleDataBuffer T) (index : ℕ) : Option ℕ :=
  let offset := toUnsigned (index * b.m_frameSize)
  if b.m_arraySize ≤ offset then none else some offset

/-- `CSimpleDataBuffer::getFramePtr`. -/
def getFramePtr (b : CSimpleDataBuffer T) (frame : ℕ) : Option ℕ :=
  if b.m_bAllocated = false then none
  else if b.m_blockSize ≤ frame then none
  else
    let offset := toUnsigned (frame * b.m_frameSize)
    if b.m_arraySize ≤ offset then none else some offset

/-- The offset of an item in `getData` and `setSample`. -/
def offset (b : CSimpleDataBuffer T) (idx frame : ℕ) : ℕ :=
  toUnsigned (frame * b.m_frameSize + idx)

/-- The check of the arguments in `getData`, which compares the frame with the frame size. -/
def RefusesGet (b : CSimpleDataBuffer T) (frame : ℕ) : Prop :=
  b.m_frameSize < 1 ∨ b.m_frameSize < frame ∨ b.m_blockSize < 1 ∨ b.m_blockSize < frame ∨
    b.m_bAllocated = false

/-- The check of the arguments in `setSample`. -/
def RefusesSet (b : CSimpleDataBuffer T) (idx frame : ℕ) : Prop :=
  b.m_frameSize < 1 ∨ b.m_frameSize < idx ∨ b.m_blockSize < 1 ∨ b.m_blockSize < frame ∨
    b.m_bAllocated = false

instance (b : CSimpleDataBuffer T) (frame : ℕ) : Decidable (b.RefusesGet frame) :=
  inferInstanceAs (Decidable (_ ∨ _))

instance (b : CSimpleDataBuffer T) (idx frame : ℕ) : Decidable (b.RefusesSet idx frame) :=
  inferInstanceAs (Decidable (_ ∨ _))

/-- `CSimpleDataBuffer::getData`. -/
def getData [Zero T] (b : CSimpleDataBuffer T) (idx frame : ℕ) : Except HeapFault T :=
  if b.RefusesGet frame then .ok 0
  else if b.m_arraySize ≤ b.offset idx frame then .ok 0
  else do access (load (← b.block) (b.offset idx frame))

/-- `CSimpleDataBuffer::setSample`. -/
def setSample (b : CSimpleDataBuffer T) (idx frame : ℕ) (value : T) :
    Except HeapFault (CSimpleDataBuffer T) :=
  if b.RefusesSet idx frame then .ok b
  else if b.m_arraySize ≤ b.offset idx frame then .ok b
  else do
    let cells ← access (store (← b.block) (b.offset idx frame) value)
    return b.setBlock cells

/-- `CSimpleDataBuffer::resetReadIndex`. -/
def resetReadIndex (b : CSimpleDataBuffer T) : CSimpleDataBuffer T := { b with m_readIdx := 0 }

/-- `CSimpleDataBuffer::resetWriteIndex`. -/
def resetWriteIndex (b : CSimpleDataBuffer T) : CSimpleDataBuffer T := { b with m_writeIdx := 0 }

/-- `CSimpleDataBuffer::readItem`. -/
def readItem [Zero T] (b : CSimpleDataBuffer T) : Except HeapFault (T × CSimpleDataBuffer T) :=
  if b.m_bAllocated = false then .ok (0, b)
  else if b.m_arraySize ≤ b.m_readIdx then .ok (0, b)
  else do
    let value ← access (load (← b.block) b.m_readIdx)
    return (value, { b with m_readIdx := b.m_readIdx + 1 })

/-- `CSimpleDataBuffer::readData`. -/
def readData [Zero T] (b : CSimpleDataBuffer T) (index : ℕ) : Except HeapFault T :=
  if b.m_bAllocated = false then .ok 0
  else if b.m_arraySize ≤ index then .ok 0
  else do access (load (← b.block) index)

/-- `CSimpleDataBuffer::readDataBlock` at the current offset. -/
def readDataBlock (b : CSimpleDataBuffer T) (numItems : ℕ) :
    Except HeapFault (ℕ × List T × CSimpleDataBuffer T) :=
  if b.m_bAllocated = false then .ok (0, [], b)
  else if b.m_arraySize ≤ b.m_readIdx + numItems then .ok (0, [], b)
  else do
    let buf ← access (gather (← b.block) (List.range' 0 numItems))
    return (b.m_readIdx + numItems, buf, { b with m_readIdx := b.m_readIdx + numItems })

/-- `CSimpleDataBuffer::readDataBlock` at a given offset. -/
def readDataBlockAt (b : CSimpleDataBuffer T) (startPos numItems : ℕ) :
    Except HeapFault (ℕ × List T) :=
  if b.m_bAllocated = false then .ok (0, [])
  else if b.m_arraySize ≤ toUnsigned (startPos + numItems) then .ok (0, [])
  else do
    let buf ← access (gather (← b.block) ((List.range' startPos numItems).map toUnsigned))
    return (toUnsigned (startPos + numItems), buf)

/-- `CSimpleDataBuffer::writeData`. -/
def writeData (b : CSimpleDataBuffer T) (value : T) :
    Except HeapFault (ℕ × CSimpleDataBuffer T) :=
  if b.m_bAllocated = false then .ok (0, b)
  else if b.m_arraySize ≤ b.m_writeIdx then .ok (0, b)
  else do
    let cells ← access (store (← b.block) b.m_writeIdx value)
    return (b.m_writeIdx + 1, { b.setBlock cells with m_writeIdx := b.m_writeIdx + 1 })

/-- `CSimpleDataBuffer::writeDataBlock` of one item. -/
def writeDataBlockItem (b : CSimpleDataBuffer T) (index : ℕ) (value : T) :
    Except HeapFault (ℕ × CSimpleDataBuffer T) :=
  if b.m_bAllocated = false then .ok (0, b)
  else if b.m_arraySize ≤ index then .ok (0, b)
  else do
    let cells ← access (store (← b.block) index value)
    return (index + 1, b.setBlock cells)

/-- `CSimpleDataBuffer::writeDataBlock` of an array of items. -/
def writeDataBlock (b : CSimpleDataBuffer T) (buf : List T) :
    Except HeapFault (ℕ × CSimpleDataBuffer T) :=
  if b.m_bAllocated = false then .ok (0, b)
  else if b.m_arraySize ≤ b.m_writeIdx + buf.length then .ok (0, b)
  else do
    let cells ← access (scatter (← b.block) (List.range' b.m_writeIdx buf.length) buf)
    let writeIdx := b.m_writeIdx + buf.length
    return (writeIdx, { b.setBlock cells with m_writeIdx := writeIdx })

/-- `CSimpleDataBuffer::writeDataBlock` of the bytes of some items, by `memcpy`. -/
def writeDataBlockBytes (b : CSimpleDataBuffer T) (pBuf : List T) :
    Except HeapFault (ℕ × CSimpleDataBuffer T) :=
  if b.m_bAllocated = false then .ok (0, b)
  else if b.m_arraySize ≤ b.m_writeIdx + pBuf.length then .ok (0, b)
  else do
    let cells ← access (storeRange (← b.block) b.m_writeIdx pBuf)
    let writeIdx := b.m_writeIdx + pBuf.length
    return (writeIdx, { b.setBlock cells with m_writeIdx := writeIdx })

/-- `CSimpleDataBuffer::writeDataBlock` at a given offset. -/
def writeDataBlockAt (b : CSimpleDataBuffer T) (buf : List T) (startPos : ℕ) :
    Except HeapFault (ℕ × CSimpleDataBuffer T) :=
  if b.m_bAllocated = false then .ok (0, b)
  else if b.m_arraySize ≤ toUnsigned (startPos + buf.length) then .ok (0, b)
  else do
    let cells ←
      access (scatter (← b.block) ((List.range' startPos buf.length).map toUnsigned) buf)
    return (toUnsigned (startPos + buf.length), b.setBlock cells)

end CSimpleDataBuffer

end RdbLibs.Buffer
