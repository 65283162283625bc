import RdbLibs.Foundations.CheckedMemory

/-!
# `CMediaBuffer`

The class of `Src/GST/GstWrapper.h`, in one thread: a mutex is whether it is held, and to lock it
twice or to unlock it when it is free is a fault. Each function sets `m_bIsLocked` by hand beside
the mutex that it locks. The media type and the FourCC are left out.
-/

set_option autoImplicit false
set_option relaxedAutoImplicit false

namespace RdbLibs.GST

open CheckedMemory

/-- `CMediaBuffer`. -/
structure CMediaBuffer where
  m_pIoBuffer : Option (List UInt8)
  m_bNetData : Bool
  m_nMaxDataLen : ℕ
  m_buferMutex : Bool
  m_hasDataMutex : Bool
  m_dataLenMutex : Bool
  m_bIsLocked : Bool
  m_nCurDataLen : ℕ
deriving DecidableEq

/-- `std::mutex::lock`. -/
def lock (mutex : Bool) : Except Fault Bool :=
  if mutex then .error .alreadyLocked else .ok true

/-- `std::mutex::unlock`. -/
def unlock (mutex : Bool) : Except Fault Bool := if mutex then .ok false else .error .notLocked

namespace CMediaBuffer

/-- The constructor, which leaves `m_nMaxDataLen` as it is in memory. -/
def new (m_nMaxDataLen : ℕ) : CMediaBuffer :=
  ⟨none, false, m_nMaxDataLen, false, false, false, false, 0⟩

/-- Sets `m_bIsLocked` and locks `m_buferMutex`. -/
def acquire (b : CMediaBuffer) : Except Fault CMediaBuffer := do
  return { b with m_buferMutex := ← lock b.m_buferMutex, m_bIsLocked := true }

/-- Unlocks `m_buferMutex` and clears `m_bIsLocked`. -/
def release (b : CMediaBuffer) : Except Fault CMediaBuffer := do
  return { b with m_buferMutex := ← unlock b.m_buferMutex, m_bIsLocked := false }

/-- `CMediaBuffer::allocate`. `granted` is whether `calloc` finds the memory. -/
def allocate (b : CMediaBuffer) (nSize : ℕ) (granted : Bool) :
    Except Fault (Bool × CMediaBuffer) := do
  if b.m_pIoBuffer ≠ none then return (false, b)
  let b ← b.acquire
  let b := { b with
    m_pIoBuffer := if granted then some (List.replicate nSize 0) else none, m_nCurDataLen := 0 }
  let b ← b.release
  if b.m_pIoBuffer = none then return (false, b)
  return (true, { b with m_nMaxDataLen := nSize })

/-- `CMediaBuffer::free`. -/
def free (b : CMediaBuffer) : Except Fault (Bool × CMediaBuffer) := do
  if b.m_pIoBuffer = none then return (false, b)
  let b ← b.acquire
  let b := { b with m_nCurDataLen := 0, m_pIoBuffer := none }
  return (true, ← b.release)

/-- `CMediaBuffer::clear`. -/
def clear (b : CMediaBuffer) : Except Fault (Bool × CMediaBuffer) := do
  if b.m_pIoBuffer = none then return (false, b)
  let b ← b.acquire
  let b := { b with m_nCurDataLen := 0, m_bNetData := false }
  return (true, ← b.release)

/-- `CMediaBuffer::map`. The answer is whether the pointer is not null. -/
def map (b : CMediaBuffer) : Except Fault (Bool × CMediaBuffer) := do
  if b.m_pIoBuffer = none then return (false, b)
  return (true, ← b.acquire)

/-- `CMediaBuffer::unmap`. -/
def unmap (b : CMediaBuffer) : Except Fault (Bool × CMediaBuffer) := do
  if b.m_pIoBuffer = none then return (false, b)
  return (true, ← b.release)

/-- `CMediaBuffer::isLocked`. -/
def isLocked (b : CMediaBuffer) : Bool := if b.m_pIoBuffer = none then false else b.m_bIsLocked

/-- `CMediaBuffer::setCurrentDataLen`. -/
def setCurrentDataLen (b : CMediaBuffer) (nLen : ℕ) : Except Fault (Bool × CMediaBuffer) := do
  if b.m_pIoBuffer = none then return (false, b)
  let b := { b with m_bIsLocked := true }
  let b := { b with m_dataLenMutex := ← lock b.m_dataLenMutex }
  let b := { b with m_nCurDataLen := nLen }
  let b ←
    if nLen = 0 then do
      let b := { b with m_hasDataMutex := ← lock b.m_hasDataMutex }
      let b := { b with m_bNetData := false }
      pure { b with m_hasDataMutex := ← unlock b.m_hasDataMutex }
    else pure b
  return (true, { b with m_dataLenMutex := ← unlock b.m_dataLenMutex, m_bIsLocked := false })

/-- `CMediaBuffer::getCurrentDataLen`. -/
def getCurrentDataLen (b : CMediaBuffer) : Except Fault (ℕ × CMediaBuffer) := do
  if b.m_pIoBuffer = none then return (0, b)
  let b ← b.acquire
  let nOut := b.m_nCurDataLen
  return (nOut, ← b.release)

/-- `CMediaBuffer::getMaxDataLen`. -/
def getMaxDataLen (b : CMediaBuffer) : ℕ × CMediaBuffer :=
  if b.m_pIoBuffer = none then (0, b) else (b.m_nMaxDataLen, { b with m_bIsLocked := true })

/-- The destructor. -/
def destroy (b : CMediaBuffer) : Except Fault CMediaBuffer := do
  let b ←
    if b.m_bIsLocked = true then do pure { b with m_buferMutex := ← unlock b.m_buferMutex }
    else pure b
  return (← b.free).2

end CMediaBuffer

end RdbLibs.GST
