import RdbLibs.Foundations.MachineWord
import RdbLibs.NetIO.MessageHeader

/-!
# The class `CNetMessageData`

`Src/NetIO/CNetworkIO.cpp`, method by method: a block of memory for one message, a header followed
by an area for the body, with its lengths, a flag that says that the message is new, and the mutex
`m_dataLock`. The mutex is kept as whether it is locked: `getDataPtr` and `getBodyPtr` lock it for
their caller, who unlocks it with `releasePtr`, while the other methods lock it for themselves. A
method that would lock it twice or unlock it when it is free is a `Fault`, as is every access
outside the block. A pointer is the offset of its target in the block, and `none` when it is null.

`m_nDataLength` counts the header and the body, in an `unsigned int` whose readers take it for an
`int`.
-/

set_option autoImplicit false
set_option relaxedAutoImplicit false

namespace RdbLibs.NetIO

open MachineWord CheckedMemory

/-- The fields of `CNetMessageData`. -/
structure CNetMessageData where
  m_pData : Option (List UInt8)
  m_nHeaderLength : ℕ
  m_nMaxDataSize : ℕ
  m_nDataLength : ℕ
  m_bUpdated : Bool
  m_dataLock : Bool
deriving DecidableEq

namespace CNetMessageData

/-- The constructor. -/
def construct (nHeaderLength : ℕ) : CNetMessageData where
  m_pData := none
  m_nHeaderLength := nHeaderLength
  m_nMaxDataSize := 0
  m_nDataLength := 0
  m_bUpdated := false
  m_dataLock := false

/-! ### The mutex and the memory -/

/-- Locks `m_dataLock`. -/
def lock (d : CNetMessageData) : Except Fault CNetMessageData :=
  if d.m_dataLock then .error .alreadyLocked else .ok { d with m_dataLock := true }

/-- Unlocks `m_dataLock`. -/
def unlock (d : CNetMessageData) : Except Fault CNetMessageData :=
  if d.m_dataLock then .ok { d with m_dataLock := false } else .error .notLocked

/-- The block that `m_pData` points to. -/
def cells (d : CNetMessageData) : Except Fault (List UInt8) :=
  match d.m_pData with
  | none => .error .nullPointer
  | some cells => .ok cells

/-- A write through `m_pData`. -/
def access (d : CNetMessageData) (write : List UInt8 → Except Fault (List UInt8)) :
    Except Fault CNetMessageData := do
  let cells ← write (← d.cells)
  return { d with m_pData := some cells }

/-! ### Lengths and flags -/

/-- `CNetMessageData::isBufferAllocated`. -/
def isBufferAllocated (d : CNetMessageData) : Bool :=
  if d.m_pData.isNone ∧ 0 < d.m_nMaxDataSize then false else true

/-- `CNetMessageData::getMaxDataLen`. -/
def getMaxDataLen (d : CNetMessageData) : ℤ :=
  if d.m_nMaxDataSize = 0 then 0
  else if d.m_nMaxDataSize < d.m_nHeaderLength then 0
  else toInt (d.m_nMaxDataSize - d.m_nHeaderLength)

/-- `CNetMessageData::getCurDataLen`. -/
def getCurDataLen (d : CNetMessageData) : ℤ := toInt d.m_nDataLength

/-- `CNetMessageData::setHeaderLength`. -/
def setHeaderLength (d : CNetMessageData) (nLen : ℕ) : CNetMessageData :=
  { d with m_nHeaderLength := toUnsigned nLen }

/-- `CNetMessageData::getHeaderLength`. -/
def getHeaderLength (d : CNetMessageData) : ℤ := toInt d.m_nHeaderLength

/-- `CNetMessageData::setBodyLength`. -/
def setBodyLength (d : CNetMessageData) (nLen : ℕ) : CNetMessageData :=
  { d with m_nDataLength := toUnsigned (d.m_nHeaderLength + nLen) }

/-- `CNetMessageData::getBodyLength`. -/
def getBodyLength (d : CNetMessageData) : ℤ :=
  if d.m_nDataLength = 0 then 0
  else if d.m_nDataLength < d.m_nHeaderLength then 0
  else toInt (d.m_nDataLength - d.m_nHeaderLength)

/-- `CNetMessageData::setUpdated`. -/
def setUpdated (d : CNetMessageData) (val : Bool) : CNetMessageData := { d with m_bUpdated := val }

/-- `CNetMessageData::isUpdated`. -/
def isUpdated (d : CNetMessageData) : Bool := d.m_bUpdated

/-- The limit that `setMsgData` checks, `m_nMaxDataSize - m_nHeaderLength` in `unsigned int`. -/
def payloadLimit (d : CNetMessageData) : ℕ :=
  toUnsigned (d.m_nMaxDataSize + 2 ^ 32 - d.m_nHeaderLength)

/-- The size that `clearMsgBody` clears, `m_nMaxDataSize - MsgHeaderLen_def` in `size_t`. -/
def bodySize (d : CNetMessageData) : ℕ := toSize (d.m_nMaxDataSize + 2 ^ 64 - msgHeaderLen)

/-! ### Methods that lock the mutex -/

/-- `CNetMessageData::allocBuffer`. `granted` is whether `malloc` serves the memory. -/
def allocBuffer (d : CNetMessageData) (nMaxDataSize : ℕ) (granted : Bool) :
    Except Fault (Bool × CNetMessageData) := do
  let d ← d.lock
  if nMaxDataSize < 1 then return (false, ← d.unlock)
  let nBufSize := toUnsigned (msgHeaderLen + nMaxDataSize)
  let d := { d with m_pData := none, m_nHeaderLength := msgHeaderLen }
  if granted = false then return (false, ← d.unlock)
  let d := { d with m_pData := some (List.replicate nBufSize 0), m_nMaxDataSize := nBufSize }
  return (true, ← d.unlock)

/-- `CNetMessageData::clearAll`. -/
def clearAll (d : CNetMessageData) : Except Fault CNetMessageData := do
  let d ← d.lock
  let d := { d with m_nDataLength := 0 }
  if d.m_pData.isNone then d.unlock
  else
    let d ← d.access fun cells ↦ fillRange cells 0 d.m_nMaxDataSize 0
    d.unlock

/-- `CNetMessageData::clearMsgBody`. -/
def clearMsgBody (d : CNetMessageData) : Except Fault CNetMessageData := do
  let d ← d.lock
  let d := { d with m_nDataLength := 0 }
  if d.m_pData.isNone then d.unlock
  else
    let d ← d.access fun cells ↦ fillRange cells msgHeaderLen d.bodySize 0
    d.unlock

/-- `CNetMessageData::getDataPtr`. -/
def getDataPtr (d : CNetMessageData) : Except Fault (Option ℕ × CNetMessageData) := do
  let d ← d.lock
  return (d.m_pData.map fun _ ↦ 0, d)

/-- `CNetMessageData::getBodyPtr`. From a null `m_pData` it makes a pointer to no block, which is
not null unless the header has length 0. -/
def getBodyPtr (d : CNetMessageData) : Except Fault (Option ℕ × CNetMessageData) := do
  let d ← d.lock
  if d.m_pData.isNone ∧ d.m_nHeaderLength = 0 then return (none, d)
  return (some d.m_nHeaderLength, d)

/-- `CNetMessageData::releasePtr`. -/
def releasePtr (d : CNetMessageData) : Except Fault CNetMessageData := d.unlock

/-- `CNetMessageData::setMsgData`. `pData` is null or points to the bytes given. -/
def setMsgData (d : CNetMessageData) (pData : Option (List UInt8)) (nLen : ℕ) :
    Except Fault (Bool × CNetMessageData) :=
  match pData with
  | none => return (false, d)
  | some source => do
    if nLen < 1 then return (false, d)
    if d.payloadLimit < nLen then return (false, d)
    let d ← d.lock
    let bytes ← loadRange source 0 nLen
    let d ← d.access fun cells ↦ storeRange cells d.m_nHeaderLength bytes
    let d := { d with m_nDataLength := toUnsigned (d.m_nHeaderLength + nLen), m_bUpdated := true }
    return (true, ← d.unlock)

/-- The loop of `compareMsgData`, from the index `x` on. -/
def compareFrom (d : CNetMessageData) (source : List UInt8) : ℕ → ℕ → Except Fault Bool
  | 0, _ => return true
  | remaining + 1, x => do
    let expected ← load source x
    let found ← load (← d.cells) (d.m_nHeaderLength + x)
    if expected ≠ found then return false
    compareFrom d source remaining (x + 1)

/-- `CNetMessageData::compareMsgData`. `pData` is null or points to the bytes given. -/
def compareMsgData (d : CNetMessageData) (pData : Option (List UInt8)) (nLen : ℕ) :
    Except Fault (Bool × CNetMessageData) :=
  match pData with
  | none => return (false, d)
  | some source => do
    if nLen < 1 then return (false, d)
    if d.payloadLimit < nLen then return (false, d)
    let d ← d.lock
    let same ← d.compareFrom source nLen 0
    return (same, ← d.unlock)

/-- `CNetMessageData::decodeMsgHeader`. The type is not used. -/
def decodeMsgHeader (d : CNetMessageData) (_sType : List UInt8) :
    Except Fault (Bool × CNetMessageData) := do
  let d := d.setBodyLength 0
  if d.isBufferAllocated = false then return (false, d)
  let (_, d) ← d.getDataPtr
  let header ← d.cells
  if (← NetworkDataHeaderInfo.headerMarker header) ≠ 0xFFFF then return (false, ← d.releasePtr)
  let nDataLen ← NetworkDataHeaderInfo.dataLen header
  if intToUnsigned d.getMaxDataLen ≤ nDataLen then return (false, ← d.releasePtr)
  let d := d.setBodyLength nDataLen
  return (true, ← d.releasePtr)

/-- `CNetMessageData::encodeMsgHeader`. -/
def encodeMsgHeader (d : CNetMessageData) (sType : List UInt8) :
    Except Fault (Bool × CNetMessageData) := do
  if d.isBufferAllocated = false then return (false, d)
  let (_, d) ← d.getDataPtr
  let nLen := intToUnsigned d.getBodyLength
  let d ← d.access fun cells ↦ NetworkDataHeaderInfo.initializeHeader cells (some sType) nLen
  return (true, ← d.releasePtr)

end CNetMessageData

end RdbLibs.NetIO
