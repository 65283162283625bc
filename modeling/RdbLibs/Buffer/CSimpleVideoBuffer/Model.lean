import RdbLibs.Foundations.CheckedMemory
import RdbLibs.Foundations.MachineWord

/-!
# `CSimpleVideoBuffer`

The class of `Src/Buffer/CVideoBuffer.h`. The block behind `m_pBuffer` is the list of its bytes,
and a null pointer has none. A pointer that the caller passes for what is read is given by whether
it is not null, and what is copied there is answered; a pointer to what is written gives the bytes
behind it. The mutex is left out: each function locks it for itself, and none calls another. A
function has no result where it copies bytes outside the block, or stores a length outside
`m_frameDataLen`.
-/

set_option autoImplicit false
set_option relaxedAutoImplicit false

namespace RdbLibs.Buffer

open CheckedMemory MachineWord

/-- Why a function has no result: an access outside the block, or outside the lengths. -/
inductive VideoFault
  | outsideBuffer
  | outsideLengths
deriving DecidableEq

/-- `CSimpleVideoBuffer`. -/
structure CSimpleVideoBuffer where
  m_frameWidth : ℕ
  m_frameHeight : ℕ
  m_blockSize : ℕ
  m_frameSize : ℕ
  m_nBitsPerPixel : ℕ
  m_readIdx : ℕ
  m_writeIdx : ℕ
  m_bAllocated : Bool
  m_pBuffer : Option (List UInt8)
  m_nBufferLen : ℕ
  m_frameDataLen : List ℕ

namespace CSimpleVideoBuffer

/-- The constructor, which leaves the resolution as it finds it. -/
def new (frameWidth frameHeight : ℕ) : CSimpleVideoBuffer where
  m_frameWidth := frameWidth
  m_frameHeight := frameHeight
  m_blockSize := 1
  m_frameSize := 0
  m_nBitsPerPixel := 0
  m_readIdx := 0
  m_writeIdx := 0
  m_bAllocated := false
  m_pBuffer := none
  m_nBufferLen := 0
  m_frameDataLen := [0]

/-- `CSimpleVideoBuffer::resetFrameLen`. -/
def resetFrameLen (v : CSimpleVideoBuffer) : CSimpleVideoBuffer :=
  { v with m_frameDataLen := v.m_frameDataLen.map fun _ ↦ 0 }

/-- `CSimpleVideoBuffer::setPixelSize`. -/
def setPixelSize (v : CSimpleVideoBuffer) (nBitsPerPixel : ℕ) : CSimpleVideoBuffer :=
  { v with m_nBitsPerPixel := nBitsPerPixel }

/-- `CSimpleVideoBuffer::setResolution`. -/
def setResolution (v : CSimpleVideoBuffer) (frameWidth frameHeight : ℕ) : CSimpleVideoBuffer :=
  if v.m_bAllocated then v
  else { v with m_frameWidth := frameWidth, m_frameHeight := frameHeight }

/-- `CSimpleVideoBuffer::setFrameWidth`. -/
def setFrameWidth (v : CSimpleVideoBuffer) (frameWidth : ℕ) : CSimpleVideoBuffer :=
  if v.m_bAllocated then v else { v with m_frameWidth := frameWidth }

/-- `CSimpleVideoBuffer::setFrameHeight`. -/
def setFrameHeight (v : CSimpleVideoBuffer) (frameHeight : ℕ) : CSimpleVideoBuffer :=
  if v.m_bAllocated then v else { v with m_frameHeight := frameHeight }

/-- `CSimpleVideoBuffer::setFramesPerBlock`. -/
def setFramesPerBlock (v : CSimpleVideoBuffer) (blockSize : ℕ) : CSimpleVideoBuffer :=
  if v.m_bAllocated then v
  else
    { v with
      m_blockSize := blockSize
      m_frameDataLen := List.replicate blockSize 0 }

/-- The block size that `alloc` goes on with. -/
def blockSizeOf (v : CSimpleVideoBuffer) (blockSize : ℕ) : ℕ :=
  if 0 < blockSize then blockSize else v.m_blockSize

/-- The frame size that `alloc` goes on with. -/
def frameSizeOf (v : CSimpleVideoBuffer) : ℕ :=
  if 0 < v.m_frameWidth ∧ 0 < v.m_frameHeight then
    if v.m_frameSize < 1 then toUnsigned (v.m_frameWidth * v.m_frameHeight) else v.m_frameSize
  else v.m_frameSize

/-- The number of bytes that `alloc` asks for. -/
def bufferSizeInBytes (v : CSimpleVideoBuffer) : ℕ :=
  let numPixelsPerBlock := toUnsigned (v.m_frameSize * v.m_blockSize)
  toUnsigned (numPixelsPerBlock * v.m_nBitsPerPixel) / 8

/-- `CSimpleVideoBuffer::alloc`. `granted` is whether `calloc` finds the memory. -/
def alloc (v : CSimpleVideoBuffer) (blockSize : ℕ) (granted : Bool) : Bool × CSimpleVideoBuffer :=
  let v := { v with m_blockSize := v.blockSizeOf blockSize }
  if v.m_blockSize < 1 then (false, v)
  else
    let v := { v with m_frameSize := v.frameSizeOf }
    if v.m_nBitsPerPixel < 1 ∨ v.m_frameSize < 1 then (false, { v with m_frameSize := 0 })
    else if granted then
      (true, { v.resetFrameLen with
        m_pBuffer := some (List.replicate v.bufferSizeInBytes 0)
        m_nBufferLen := v.bufferSizeInBytes
        m_bAllocated := true })
    else (false, { v with m_pBuffer := none, m_nBufferLen := 0 })

/-- `CSimpleVideoBuffer::free`. -/
def free (v : CSimpleVideoBuffer) : CSimpleVideoBuffer :=
  if v.m_bAllocated = false then v
  else { v.resetFrameLen with m_pBuffer := none, m_nBufferLen := 0, m_bAllocated := false }

/-- `CSimpleVideoBuffer::getFrameLength`. -/
def getFrameLength (v : CSimpleVideoBuffer) : ℕ := v.m_frameSize

/-- `CSimpleVideoBuffer::setFrameDataLen`. -/
def setFrameDataLen (v : CSimpleVideoBuffer) (nLen nFrame : ℕ) : CSimpleVideoBuffer :=
  if nFrame < v.m_frameDataLen.length then
    { v with m_frameDataLen := v.m_frameDataLen.set nFrame nLen }
  else v

/-- `CSimpleVideoBuffer::getFrameDataLen`. -/
def getFrameDataLen (v : CSimpleVideoBuffer) (nFrame : ℕ) : ℕ :=
  if nFrame < v.m_frameDataLen.length then v.m_frameDataLen.getD nFrame 0 else 0

/-! ### Copies -/

/-- The bytes of the block. -/
def bytes (v : CSimpleVideoBuffer) : List UInt8 := v.m_pBuffer.getD []

/-- Copies bytes out of the block. A copy of no bytes accesses nothing. -/
def copyFrom (v : CSimpleVideoBuffer) (offset size : ℕ) : Except VideoFault (List UInt8) :=
  if size = 0 then .ok []
  else (loadRange v.bytes offset size).mapError fun _ ↦ .outsideBuffer

/-- Copies bytes into the block. A copy of no bytes accesses nothing. -/
def copyTo (v : CSimpleVideoBuffer) (offset size : ℕ) (source : ℕ → UInt8) :
    Except VideoFault CSimpleVideoBuffer :=
  if size = 0 then .ok v
  else do
    let bytes ← (storeRange v.bytes offset ((List.range size).map source)).mapError fun _ ↦
      .outsideBuffer
    return { v with m_pBuffer := some bytes }

/-- `CSimpleVideoBuffer::clear`. -/
def clear (v : CSimpleVideoBuffer) : Except VideoFault CSimpleVideoBuffer :=
  if v.m_frameSize < 1 ∨ v.m_blockSize < 1 ∨ v.m_bAllocated = false ∨ v.m_nBitsPerPixel < 8 then
    .ok v
  else do
    let v ← v.copyTo 0 v.m_nBufferLen fun _ ↦ 0
    return { v.resetFrameLen with m_readIdx := 0, m_writeIdx := 0 }

/-- The check that all accesses make, with the smallest pixel size that they take. -/
def Refuses (v : CSimpleVideoBuffer) (frame minBits : ℕ) : Prop :=
  v.m_frameSize < 1 ∨ v.m_blockSize < 1 ∨ v.m_blockSize < frame ∨ v.m_bAllocated = false ∨
    v.m_nBitsPerPixel < minBits

instance (v : CSimpleVideoBuffer) (frame minBits : ℕ) : Decidable (v.Refuses frame minBits) :=
  inferInstanceAs (Decidable (_ ∨ _))

def bytesPerFrame (v : CSimpleVideoBuffer) : ℕ := toUnsigned (v.m_nBitsPerPixel * v.m_frameSize) / 8

def bytesPerScanLine (v : CSimpleVideoBuffer) : ℕ :=
  toUnsigned (v.m_frameWidth * v.m_nBitsPerPixel) / 8

/-- The offset of a frame. -/
def frameOffset (v : CSimpleVideoBuffer) (frame : ℕ) : ℕ := toUnsigned (v.bytesPerFrame * frame)

/-- The offset of a pixel that is given by its index in a frame. -/
def pixelOffset (v : CSimpleVideoBuffer) (frame index : ℕ) : ℕ :=
  toUnsigned (frame * v.bytesPerFrame + toSize (index * v.m_nBitsPerPixel) / 8)

/-- The offset of a pixel that is given by its coordinates in a frame. -/
def coordinateOffset (v : CSimpleVideoBuffer) (frame xPos yPos : ℕ) : ℕ :=
  toUnsigned (frame * v.bytesPerFrame + yPos * v.bytesPerScanLine +
    toSize (xPos * v.m_nBitsPerPixel) / 8)

def pixelSize (v : CSimpleVideoBuffer) : ℕ := toUnsigned (v.m_nBitsPerPixel + 7) / 8

/-- The number of bytes of some pixels. -/
def copySize (v : CSimpleVideoBuffer) (count : ℕ) : ℕ :=
  toUnsigned (v.m_nBitsPerPixel * count + 7) / 8

/-! ### Frames -/

/-- `CSimpleVideoBuffer::getFrame`. -/
def getFrame (v : CSimpleVideoBuffer) (target : Bool) (frame : ℕ) :
    Except VideoFault (Bool × List UInt8) :=
  if v.Refuses frame 8 then .ok (false, [])
  else if target = false then .ok (false, [])
  else do
    let bytes ← v.copyFrom (v.frameOffset frame) v.bytesPerFrame
    return (true, bytes)

/-- `CSimpleVideoBuffer::setFrame`. -/
def setFrame (v : CSimpleVideoBuffer) (source : Option (ℕ → UInt8)) (frame : ℕ) :
    Except VideoFault (Bool × CSimpleVideoBuffer) :=
  if v.Refuses frame 8 then .ok (false, v)
  else
    match source with
    | none => .ok (false, v)
    | some source => do
      let v ← v.copyTo (v.frameOffset frame) v.bytesPerFrame source
      let lengths ← (store v.m_frameDataLen frame v.bytesPerFrame).mapError fun _ ↦ .outsideLengths
      return (true, { v with m_frameDataLen := lengths })

/-! ### Pixels that are read -/

/-- `CSimpleVideoBuffer::resetReadIndex`. -/
def resetReadIndex (v : CSimpleVideoBuffer) : CSimpleVideoBuffer := { v with m_readIdx := 0 }

/-- `CSimpleVideoBuffer::readPixel` at the current read index. -/
def readPixel (v : CSimpleVideoBuffer) (target : Bool) (frame : ℕ) :
    Except VideoFault (ℤ × List UInt8 × CSimpleVideoBuffer) :=
  if v.Refuses frame 1 then .ok (-1, [], v)
  else if target = false then .ok (-1, [], v)
  else if v.m_frameSize ≤ v.m_readIdx then .ok (-1, [], { v with m_readIdx := 0 })
  else do
    let bytes ← v.copyFrom (v.pixelOffset frame v.m_readIdx) v.pixelSize
    return (toInt (v.m_readIdx + 1), bytes, { v with m_readIdx := v.m_readIdx + 1 })

/-- `CSimpleVideoBuffer::readPixelAt`. -/
def readPixelAt (v : CSimpleVideoBuffer) (target : Bool) (index frame : ℕ) :
    Except VideoFault (Bool × List UInt8) :=
  if v.Refuses frame 8 ∨ v.m_frameSize < index then .ok (false, [])
  else if target = false then .ok (false, [])
  else if toUnsigned (v.m_frameSize * v.m_blockSize) ≤ index then .ok (false, [])
  else do
    let bytes ← v.copyFrom (v.pixelOffset frame index) v.pixelSize
    return (true, bytes)

/-- `CSimpleVideoBuffer::readPixel` at a position. -/
def readPixelXY (v : CSimpleVideoBuffer) (target : Bool) (xPos yPos frame : ℕ) :
    Except VideoFault (Bool × List UInt8) :=
  if v.Refuses frame 8 ∨ v.m_frameWidth < xPos ∨ v.m_frameHeight < yPos then .ok (false, [])
  else if target = false then .ok (false, [])
  else do
    let bytes ← v.copyFrom (v.coordinateOffset frame xPos yPos) v.pixelSize
    return (true, bytes)

/-- `CSimpleVideoBuffer::readPixels`. -/
def readPixels (v : CSimpleVideoBuffer) (target : Bool) (count frame : ℕ) :
    Except VideoFault (ℤ × List UInt8 × CSimpleVideoBuffer) :=
  if v.Refuses frame 8 then .ok (-1, [], v)
  else if target = false then .ok (-1, [], v)
  else if toUnsigned (v.m_frameSize * v.m_blockSize) ≤ v.m_readIdx + count then .ok (-1, [], v)
  else do
    let bytes ← v.copyFrom (v.pixelOffset frame v.m_readIdx) (v.copySize count)
    return (toInt (v.m_readIdx + count), bytes, { v with m_readIdx := v.m_readIdx + count })

/-! ### Pixels that are written -/

/-- `CSimpleVideoBuffer::resetWriteIndex`. -/
def resetWriteIndex (v : CSimpleVideoBuffer) : CSimpleVideoBuffer := { v with m_writeIdx := 0 }

/-- `CSimpleVideoBuffer::writePixel` at the current write index. -/
def writePixel (v : CSimpleVideoBuffer) (source : Option (ℕ → UInt8)) (frame : ℕ) :
    Except VideoFault (ℤ × CSimpleVideoBuffer) :=
  if v.Refuses frame 8 then .ok (-1, v)
  else
    match source with
    | none => .ok (-1, v)
    | some source =>
      if v.m_frameSize ≤ v.m_writeIdx then .ok (-1, { v with m_writeIdx := 0 })
      else do
        let v ← v.copyTo (v.pixelOffset frame v.m_writeIdx) v.pixelSize source
        return (toInt (v.m_writeIdx + 1), { v with m_writeIdx := v.m_writeIdx + 1 })

/-- `CSimpleVideoBuffer::writePixelAt`. -/
def writePixelAt (v : CSimpleVideoBuffer) (source : Option (ℕ → UInt8)) (index frame : ℕ) :
    Except VideoFault (Bool × CSimpleVideoBuffer) :=
  if v.Refuses frame 8 then .ok (false, v)
  else
    match source with
    | none => .ok (false, v)
    | some source =>
      if v.m_frameSize ≤ index then .ok (false, v)
      else do
        let v ← v.copyTo (v.pixelOffset frame index) v.pixelSize source
        return (true, v)

/-- `CSimpleVideoBuffer::writePixel` at a position. -/
def writePixelXY (v : CSimpleVideoBuffer) (source : Option (ℕ → UInt8)) (xPos yPos frame : ℕ) :
    Except VideoFault (Bool × CSimpleVideoBuffer) :=
  if v.Refuses frame 8 ∨ v.m_frameWidth < xPos ∨ v.m_frameHeight < yPos then .ok (false, v)
  else
    match source with
    | none => .ok (false, v)
    | some source => do
      let v ← v.copyTo (v.coordinateOffset frame xPos yPos) v.pixelSize source
      return (true, v)

/-- `CSimpleVideoBuffer::writePixels`. -/
def writePixels (v : CSimpleVideoBuffer) (source : Option (ℕ → UInt8)) (count frame : ℕ) :
    Except VideoFault (ℤ × CSimpleVideoBuffer) :=
  if v.Refuses frame 8 ∨ v.m_frameSize < count then .ok (-1, v)
  else
    match source with
    | none => .ok (-1, v)
    | some source =>
      if v.m_frameSize < v.m_writeIdx + count then .ok (-1, v)
      else do
        let v ← v.copyTo (v.pixelOffset frame v.m_writeIdx) (v.copySize count) source
        return (toInt (v.m_writeIdx + count), { v with m_writeIdx := v.m_writeIdx + count })

end CSimpleVideoBuffer

end RdbLibs.Buffer
