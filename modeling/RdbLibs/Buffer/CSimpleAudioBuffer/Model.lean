import RdbLibs.Foundations.CellLoops
import RdbLibs.Foundations.MachineWord

/-!
# `CSimpleAudioBuffer`

The template of `Src/Buffer/CAudioBuffer.h`, with the functions that access one sample, one frame
or a block of samples. A pointer into the block is its offset, or none for a null pointer. An array
that is passed with the number of its samples is the list of them, and what is read into an array
is answered. The mutex is left out: each function locks it for itself, and none calls another. A
function has no result where an access leaves the block.
-/

set_option autoImplicit false
set_option relaxedAutoImplicit false

namespace RdbLibs.Buffer

open CheckedMemory MachineWord

/-- `CSimpleAudioBuffer<T>`. -/
structure CSimpleAudioBuffer (T : Type*) where
  m_numChls : ℕ
  m_blockSize : ℕ
  m_arraySize : ℕ
  m_readIdx : ℕ
  m_writeIdx : ℕ
  m_bInterleaved : Bool
  m_bAllocated : Bool
  m_pBuffer : Option (List T)

namespace CSimpleAudioBuffer

variable {T : Type*}

/-- The constructor. -/
def new (bInterleaved : Bool) : CSimpleAudioBuffer T := ⟨1, 0, 0, 0, 0, bInterleaved, false, none⟩

/-- `CSimpleAudioBuffer::setSize`. -/
def setSize (b : CSimpleAudioBuffer T) (numChls blockSize : ℕ) : CSimpleAudioBuffer T :=
  if b.m_bAllocated then b else { b with m_numChls := numChls, m_blockSize := blockSize }

/-- `CSimpleAudioBuffer::alloc`. `granted` is whether `calloc` finds the memory. -/
def alloc [Zero T] (b : CSimpleAudioBuffer T) (blockSize : ℕ) (granted : Bool) :
    Bool × CSimpleAudioBuffer T :=
  let b := if 0 < blockSize then { b with m_blockSize := blockSize } else b
  if b.m_blockSize < 1 then (false, b)
  else if b.m_numChls < 1 then (false, b)
  else
    let b := { b with m_arraySize := toUnsigned (b.m_blockSize * b.m_numChls) }
    if granted then
      (true, { b with m_pBuffer := some (List.replicate b.m_arraySize 0), m_bAllocated := true })
    else (false, { b with m_pBuffer := none, m_arraySize := 0 })

/-- `CSimpleAudioBuffer::free`. -/
def free (b : CSimpleAudioBuffer T) : CSimpleAudioBuffer T :=
  if b.m_bAllocated then { b with m_pBuffer := none, m_bAllocated := false } else b

/-- The block behind `m_pBuffer`. -/
def block (b : CSimpleAudioBuffer T) : Except Fault (List T) :=
  match b.m_pBuffer with
  | none => .error .nullPointer
  | some cells => .ok cells

/-- `CSimpleAudioBuffer::clear`. -/
def clear [Zero T] (b : CSimpleAudioBuffer T) : Except Fault (CSimpleAudioBuffer T) :=
  if b.m_bAllocated = false then .ok b
  else if b.m_arraySize < 1 then .ok b
  else do
    let cells ← fillRange (← b.block) 0 b.m_arraySize 0
    return { b with m_pBuffer := some cells, m_readIdx := 0, m_writeIdx := 0 }

/-- The offset of a sample in `getSample` and `setSample`. -/
def offset (b : CSimpleAudioBuffer T) (chan frame : ℕ) : ℕ :=
  if b.m_bInterleaved then toUnsigned (frame * b.m_numChls + chan)
  else toUnsigned (chan * b.m_blockSize + frame)

/-- The check of the arguments in `getSample` and `setSample`. -/
def Refuses (b : CSimpleAudioBuffer T) (chan frame : ℕ) : Prop :=
  b.m_numChls < 1 ∨ b.m_numChls < chan ∨ b.m_blockSize < 1 ∨ b.m_blockSize < frame ∨
    b.m_bAllocated = false

instance (b : CSimpleAudioBuffer T) (chan frame : ℕ) : Decidable (b.Refuses chan frame) :=
  inferInstanceAs (Decidable (_ ∨ _))

/-- `CSimpleAudioBuffer::getSample`. -/
def getSample [Zero T] (b : CSimpleAudioBuffer T) (chan frame : ℕ) : Except Fault T :=
  if b.Refuses chan frame then .ok 0
  else if b.m_arraySize ≤ b.offset chan frame then .ok 0
  else do load (← b.block) (b.offset chan frame)

/-- `CSimpleAudioBuffer::setSample`. -/
def setSample (b : CSimpleAudioBuffer T) (chan frame : ℕ) (value : T) :
    Except Fault (CSimpleAudioBuffer T) :=
  if b.Refuses chan frame then .ok b
  else if b.m_arraySize ≤ b.offset chan frame then .ok b
  else do
    let cells ← store (← b.block) (b.offset chan frame) value
    return { b with m_pBuffer := some cells }

/-- `CSimpleAudioBuffer::getDataPtr`. -/
def getDataPtr (b : CSimpleAudioBuffer T) (index : ℕ) : Option ℕ :=
  let offset := toUnsigned (index * (if b.m_bInterleaved then b.m_numChls else b.m_blockSize))
  if b.m_arraySize ≤ offset then none else some offset

/-- `CSimpleAudioBuffer::getChannelPtr`. -/
def getChannelPtr (b : CSimpleAudioBuffer T) (chan : ℕ) : Option ℕ :=
  if b.m_bAllocated = false then none
  else if b.m_bInterleaved then none
  else if b.m_numChls ≤ chan then none
  else
    let offset := toUnsigned (chan * b.m_blockSize)
    if b.m_arraySize ≤ offset then none else some offset

/-- `CSimpleAudioBuffer::getFramePtr`. -/
def getFramePtr (b : CSimpleAudioBuffer T) (frame : ℕ) : Option ℕ :=
  if b.m_bAllocated = false then none
  else if b.m_bInterleaved = false then none
  else if b.m_blockSize ≤ frame then none
  else
    let offset := toUnsigned (frame * b.m_numChls)
    if b.m_arraySize ≤ offset then none else some offset

/-- The sample behind a pointer that a function of the class has answered. -/
def pointed (b : CSimpleAudioBuffer T) (pointer : Option ℕ) (index : ℕ) : Except Fault T :=
  match pointer with
  | none => .error .nullPointer
  | some offset => do load (← b.block) (offset + index)

/-- `CSimpleAudioBuffer::readSample` with an index. -/
def readSample [Zero T] (b : CSimpleAudioBuffer T) (index : ℕ) : Except Fault T :=
  if b.m_bAllocated = false then .ok 0
  else if b.m_arraySize ≤ index then .ok 0
  else do load (← b.block) index

/-- `CSimpleAudioBuffer::readSamples`. -/
def readSamples (b : CSimpleAudioBuffer T) (count : ℕ) :
    Except Fault (ℕ × List T × CSimpleAudioBuffer T) :=
  if b.m_bAllocated = false then .ok (0, [], b)
  else if b.m_arraySize ≤ b.m_readIdx + count then .ok (0, [], b)
  else do
    let buf ← gather (← b.block) (List.range' 0 count)
    return (b.m_readIdx + count, buf, { b with m_readIdx := b.m_readIdx + count })

/-- `CSimpleAudioBuffer::readSampleBlock`. -/
def readSampleBlock (b : CSimpleAudioBuffer T) (startPos numSamples : ℕ) :
    Except Fault (ℕ × List T) :=
  if b.m_bAllocated = false then .ok (0, [])
  else if b.m_arraySize ≤ toUnsigned (startPos + numSamples) then .ok (0, [])
  else do
    let buf ← gather (← b.block) ((List.range' startPos numSamples).map toUnsigned)
    return (toUnsigned (startPos + numSamples), buf)

/-- `CSimpleAudioBuffer::readSampleFrame`. The answer is followed by the memory at `buf`. -/
def readSampleFrame (b : CSimpleAudioBuffer T) (buf : List T) (frameNum : ℕ) :
    Except Fault (ℕ × List T) :=
  if b.m_bAllocated = false then .ok (0, buf)
  else if b.m_bInterleaved = false then .ok (0, buf)
  else if b.m_blockSize ≤ frameNum then .ok (0, buf)
  else do
    let frame ← loadRange (← b.block) (toUnsigned (frameNum * b.m_numChls)) b.m_numChls
    return (b.m_numChls, ← storeRange buf 0 frame)

/-- `CSimpleAudioBuffer::writeSamples`. -/
def writeSamples (b : CSimpleAudioBuffer T) (buf : List T) :
    Except Fault (ℕ × CSimpleAudioBuffer T) :=
  if b.m_bAllocated = false then .ok (0, b)
  else if b.m_arraySize ≤ b.m_writeIdx + buf.length then .ok (0, b)
  else do
    let cells ← scatter (← b.block) (List.range' b.m_writeIdx buf.length) buf
    let writeIdx := b.m_writeIdx + buf.length
    return (writeIdx, { b with m_pBuffer := some cells, m_writeIdx := writeIdx })

/-- `CSimpleAudioBuffer::writeSampleBlock`. -/
def writeSampleBlock (b : CSimpleAudioBuffer T) (buf : List T) (startPos : ℕ) :
    Except Fault (ℕ × CSimpleAudioBuffer T) :=
  if b.m_bAllocated = false then .ok (0, b)
  else if b.m_arraySize ≤ toUnsigned (startPos + buf.length) then .ok (0, b)
  else do
    let cells ← scatter (← b.block) ((List.range' startPos buf.length).map toUnsigned) buf
    return (toUnsigned (startPos + buf.length), { b with m_pBuffer := some cells })

/-- `CSimpleAudioBuffer::writeSampleFrame`. -/
def writeSampleFrame (b : CSimpleAudioBuffer T) (buf : List T) (frameNum : ℕ) :
    Except Fault (ℕ × CSimpleAudioBuffer T) :=
  if b.m_bAllocated = false then .ok (0, b)
  else if b.m_bInterleaved = false then .ok (0, b)
  else if b.m_blockSize ≤ frameNum then .ok (0, b)
  else do
    let frame ← loadRange buf 0 b.m_numChls
    let cells ← storeRange (← b.block) (toUnsigned (frameNum * b.m_numChls)) frame
    return (b.m_numChls, { b with m_pBuffer := some cells })

end CSimpleAudioBuffer

end RdbLibs.Buffer
