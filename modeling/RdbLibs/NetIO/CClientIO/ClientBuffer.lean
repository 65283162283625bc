import RdbLibs.Foundations.BlockAccess
import RdbLibs.Foundations.MachineWord
import RdbLibs.Foundations.Runs
import RdbLibs.NetIO.MessageHeader

/-!
# The buffer of a client

The members of `CTcpClient` and of `CUdpClient` that make up the buffer, and the functions on them,
of `Src/NetIO/CClientIO.cpp`. Both classes have the same members, and the same text for these
functions, which is here once; each class has its functions under its own name.

A call answers with the accesses that it makes to the block, as ranges from its start, and goes on
after one that leaves the block. The lengths and the sizes are `unsigned int`.
-/

set_option autoImplicit false
set_option relaxedAutoImplicit false

namespace RdbLibs.NetIO.CClientIO

open BlockAccess ByteCodec MachineWord

/-- Where `m_pBufferHeader` points: to nothing, to the block of the buffer, or to a block that was
freed. -/
inductive HeaderPointer
  | null
  | block
  | freed
deriving DecidableEq

structure ClientBuffer where
  m_pBufferHeader : HeaderPointer
  m_nHeaderSize : ℕ
  m_pDataBuffer : Option (List UInt8)
  m_nBufferSize : ℕ
  m_nCurrDataLen : ℕ

/-- What a call answers, the accesses to the block that it makes, and the object it leaves. -/
structure Outcome (σ α : Type) where
  answer : α
  accesses : List Access
  after : σ

/-- The arguments `pSource` and `nLen`. A pointer points to `nLen` bytes. -/
inductive Source
  | null (nLen : ℕ)
  | bytes (values : List UInt8)

def Source.nLen : Source → ℕ
  | .null nLen => nLen
  | .bytes values => values.length

/-- The accesses of `NetworkDataHeaderInfo_def::initialize`. -/
def headerAccesses : List Access := [⟨0, 2⟩, ⟨2, netStreamTypeLen⟩, ⟨12, 4⟩]

/-- `NetworkDataHeaderInfo_def::initialize` without arguments, on a block that may be too small. -/
def initializedHeader (cells : List UInt8) : List UInt8 :=
  let cells := overwrite cells 0 (littleEndian 2 0xFFFF)
  let cells := fill cells 2 netStreamTypeLen 0
  overwrite cells 12 (littleEndian 4 0)

/-- How many characters of a type are written to the header. The length of the type is compared as
an `unsigned int`. -/
def typeLength (sType : List UInt8) : ℕ := min netStreamTypeLen (toUnsigned sType.length)

/-- The pointer to the header after the block of the buffer was freed. -/
def HeaderPointer.afterFree : HeaderPointer → HeaderPointer
  | .block => .freed
  | pointer => pointer

namespace ClientBuffer

/-- The members as the constructor sets them. -/
def new : ClientBuffer := ⟨.null, 0, none, 0, 0⟩

/-- `allocBuffer`. `granted` is whether `calloc` serves the memory. -/
def allocBuffer (b : ClientBuffer) (nSize : ℕ) (bAllocBufHeader granted : Bool) :
    Outcome ClientBuffer Bool :=
  if nSize < (if bAllocBufHeader then msgHeaderLen + 2 else 2) then ⟨false, [], b⟩
  else
    let pointer := b.m_pBufferHeader.afterFree
    if granted = false then
      ⟨false, [], { b with m_pBufferHeader := pointer, m_pDataBuffer := none }⟩
    else
      let cells := List.replicate nSize 0
      if bAllocBufHeader then
        ⟨true, headerAccesses, ⟨.block, msgHeaderLen, some (initializedHeader cells), nSize, 0⟩⟩
      else ⟨true, [], ⟨pointer, b.m_nHeaderSize, some cells, nSize, 0⟩⟩

/-- `freeBuffer`. -/
def freeBuffer (b : ClientBuffer) : Outcome ClientBuffer Bool :=
  match b.m_pDataBuffer with
  | none => ⟨false, [], { b with m_pBufferHeader := .null, m_nHeaderSize := 0 }⟩
  | some _ => ⟨true, [], ⟨.null, 0, none, 0, 0⟩⟩

/-- `clearBuffer`. -/
def clearBuffer (b : ClientBuffer) : Outcome ClientBuffer Bool :=
  match b.m_pDataBuffer with
  | none => ⟨false, [], b⟩
  | some cells =>
    let nClear := unsignedSub b.m_nBufferSize b.m_nHeaderSize
    ⟨true, [⟨b.m_nHeaderSize, nClear⟩], { b with
      m_pDataBuffer := some (fill cells b.m_nHeaderSize nClear 0), m_nCurrDataLen := 0 }⟩

/-- The block after a write to it. A null pointer has no block. -/
def update (b : ClientBuffer) (write : List UInt8 → List UInt8) : ClientBuffer :=
  { b with m_pDataBuffer := b.m_pDataBuffer.map write }

/-- `setBuffer`. -/
def setBuffer (b : ClientBuffer) : Source → Outcome ClientBuffer Bool
  | .null _ => ⟨false, [], b⟩
  | .bytes values =>
    let nLen := values.length
    if nLen < 1 then ⟨false, [], b⟩
    else if b.m_nBufferSize < toUnsigned (nLen + b.m_nHeaderSize) then ⟨false, [], b⟩
    else
      let copied := { b.update (overwrite · b.m_nHeaderSize values) with m_nCurrDataLen := nLen }
      let nFillLen := toInt (unsignedSub b.m_nBufferSize nLen)
      if 0 < nFillLen then
        let start := toUnsigned (b.m_nHeaderSize + nLen)
        ⟨true, [⟨b.m_nHeaderSize, nLen⟩, ⟨start, intToSize nFillLen⟩],
          copied.update (fill · start (intToSize nFillLen) 0)⟩
      else ⟨true, [⟨b.m_nHeaderSize, nLen⟩], copied⟩

/-- `appendBuffer`. -/
def appendBuffer (b : ClientBuffer) : Source → Outcome ClientBuffer Bool
  | .null _ => ⟨false, [], b⟩
  | .bytes values =>
    let nLen := values.length
    let start := toUnsigned (b.m_nHeaderSize + b.m_nCurrDataLen)
    if nLen < 1 then ⟨false, [], b⟩
    else if b.m_nBufferSize < toUnsigned (nLen + start) then ⟨false, [], b⟩
    else ⟨true, [⟨start, nLen⟩], { b.update (overwrite · start values) with
      m_nCurrDataLen := toUnsigned (b.m_nCurrDataLen + nLen) }⟩

/-- `getBuffer`, with the bytes that it copies. `pTarget` is whether the pointer is not null, and
`behind` is what is in memory behind the block. -/
def getBuffer (b : ClientBuffer) (pTarget : Bool) (nLen nStartingAt : ℕ) (behind : List UInt8) :
    Outcome ClientBuffer (Bool × List UInt8) :=
  if pTarget = false ∨ nLen < 1 then ⟨(false, []), [], b⟩
  else if unsignedSub b.m_nBufferSize b.m_nHeaderSize < nLen then ⟨(false, []), [], b⟩
  else
    let start := toUnsigned (b.m_nHeaderSize + nStartingAt)
    ⟨(true, ((b.m_pDataBuffer.getD [] ++ behind).drop start).take nLen), [⟨start, nLen⟩], b⟩

/-- `setDataSize`. -/
def setDataSize (b : ClientBuffer) (nLen : ℕ) : Outcome ClientBuffer Bool :=
  if unsignedSub b.m_nBufferSize b.m_nHeaderSize < nLen then ⟨false, [], b⟩
  else ⟨true, [], { b with m_nCurrDataLen := toUnsigned (b.m_nHeaderSize + nLen) }⟩

end ClientBuffer

/-! ### Sequences of calls -/

/-- A call of a function on the buffer, with its arguments. -/
inductive BufferCall
  | allocBuffer (nSize : ℕ) (bAllocBufHeader granted : Bool)
  | freeBuffer
  | clearBuffer
  | setBuffer (source : Source)
  | appendBuffer (source : Source)
  | getBuffer (pTarget : Bool) (nLen nStartingAt : ℕ) (behind : List UInt8)
  | setDataSize (nLen : ℕ)

/-- Lengths and offsets have 32 bits. -/
def BufferCall.Legal : BufferCall → Prop
  | .allocBuffer nSize _ _ => nSize < 2 ^ 32
  | .setBuffer source => source.nLen < 2 ^ 32
  | .appendBuffer source => source.nLen < 2 ^ 32
  | .getBuffer _ nLen nStartingAt _ => nLen < 2 ^ 32 ∧ nStartingAt < 2 ^ 32
  | .setDataSize nLen => nLen < 2 ^ 32
  | _ => True

instance (call : BufferCall) : Decidable call.Legal :=
  match call with
  | .allocBuffer _ _ _ => inferInstanceAs (Decidable (_ < _))
  | .freeBuffer => inferInstanceAs (Decidable True)
  | .clearBuffer => inferInstanceAs (Decidable True)
  | .setBuffer _ => inferInstanceAs (Decidable (_ < _))
  | .appendBuffer _ => inferInstanceAs (Decidable (_ < _))
  | .getBuffer _ _ _ _ => inferInstanceAs (Decidable (_ ∧ _))
  | .setDataSize _ => inferInstanceAs (Decidable (_ < _))

namespace ClientBuffer

/-- What a buffer makes of a call. -/
def answer (b : ClientBuffer) : BufferCall → Outcome ClientBuffer Bool
  | .allocBuffer nSize bAllocBufHeader granted => b.allocBuffer nSize bAllocBufHeader granted
  | .freeBuffer => b.freeBuffer
  | .clearBuffer => b.clearBuffer
  | .setBuffer source => b.setBuffer source
  | .appendBuffer source => b.appendBuffer source
  | .getBuffer pTarget nLen nStartingAt behind =>
    let outcome := b.getBuffer pTarget nLen nStartingAt behind
    ⟨outcome.answer.1, outcome.accesses, outcome.after⟩
  | .setDataSize nLen => b.setDataSize nLen

/-- What holds of the members between any two calls. -/
structure WellFormed (b : ClientBuffer) : Prop where
  header : b.m_nHeaderSize = 0 ∨ b.m_nHeaderSize = msgHeaderLen
  block : ∀ cells, b.m_pDataBuffer = some cells → cells.length = b.m_nBufferSize
  size_lt : b.m_nBufferSize < 2 ^ 32
  length_lt : b.m_nCurrDataLen < 2 ^ 32

variable {b : ClientBuffer}

theorem wellFormed_new : WellFormed new := ⟨.inl rfl, nofun, by decide, by decide⟩

/-- A write to the block, with a new length of the data. -/
theorem WellFormed.update (h : WellFormed b) {write : List UInt8 → List UInt8}
    (hwrite : ∀ cells, (write cells).length = cells.length) {nLen : ℕ} (hlen : nLen < 2 ^ 32) :
    WellFormed { b.update write with m_nCurrDataLen := nLen } where
  header := h.header
  block := by
    intro cells hcells
    obtain ⟨old, hold, rfl⟩ := Option.map_eq_some_iff.mp hcells
    exact (hwrite old).trans (h.block old hold)
  size_lt := h.size_lt
  length_lt := hlen

@[simp] theorem length_initializedHeader (cells : List UInt8) :
    (initializedHeader cells).length = cells.length := by
  simp [initializedHeader]

theorem WellFormed.allocBuffer (h : WellFormed b) {nSize : ℕ} (hsize : nSize < 2 ^ 32)
    (bAllocBufHeader granted : Bool) :
    WellFormed (b.allocBuffer nSize bAllocBufHeader granted).after := by
  unfold ClientBuffer.allocBuffer
  by_cases hsmall : nSize < (if bAllocBufHeader then msgHeaderLen + 2 else 2)
  · rw [if_pos hsmall]
    exact h
  · rw [if_neg hsmall]
    cases granted with
    | false => exact ⟨h.header, nofun, h.size_lt, h.length_lt⟩
    | true =>
      cases bAllocBufHeader with
      | false =>
        refine ⟨h.header, fun cells hcells ↦ ?_, hsize, Nat.two_pow_pos 32⟩
        obtain rfl := Option.some.inj hcells
        exact List.length_replicate
      | true =>
        refine ⟨.inr rfl, fun cells hcells ↦ ?_, hsize, Nat.two_pow_pos 32⟩
        obtain rfl := Option.some.inj hcells
        exact (length_initializedHeader _).trans List.length_replicate

theorem WellFormed.freeBuffer (h : WellFormed b) : WellFormed b.freeBuffer.after := by
  unfold ClientBuffer.freeBuffer
  cases hdata : b.m_pDataBuffer with
  | none =>
    exact ⟨.inl rfl, fun cells hcells ↦ h.block cells (hdata.trans hcells), h.size_lt, h.length_lt⟩
  | some cells => exact wellFormed_new

theorem WellFormed.clearBuffer (h : WellFormed b) : WellFormed b.clearBuffer.after := by
  unfold ClientBuffer.clearBuffer
  cases hdata : b.m_pDataBuffer with
  | none => exact h
  | some cells =>
    refine ⟨h.header, fun cells' hcells' ↦ ?_, h.size_lt, Nat.two_pow_pos 32⟩
    obtain rfl := Option.some.inj hcells'
    exact (length_fill ..).trans (h.block cells hdata)

theorem WellFormed.setBuffer (h : WellFormed b) {source : Source} (hsource : source.nLen < 2 ^ 32) :
    WellFormed (b.setBuffer source).after := by
  cases source with
  | null nLen => exact h
  | bytes values =>
    have hcopied := h.update (length_overwrite · b.m_nHeaderSize values) hsource
    unfold ClientBuffer.setBuffer
    dsimp only
    split_ifs
    · exact h
    · exact h
    · exact hcopied.update (length_fill · _ _ 0) hsource
    · exact hcopied

theorem WellFormed.appendBuffer (h : WellFormed b) (source : Source) :
    WellFormed (b.appendBuffer source).after := by
  cases source with
  | null nLen => exact h
  | bytes values =>
    unfold ClientBuffer.appendBuffer
    dsimp only
    split_ifs
    · exact h
    · exact h
    · exact h.update (length_overwrite · _ values) (toUnsigned_lt _)

theorem WellFormed.setDataSize (h : WellFormed b) (nLen : ℕ) :
    WellFormed (b.setDataSize nLen).after := by
  unfold ClientBuffer.setDataSize
  split_ifs
  · exact h
  · exact ⟨h.header, h.block, h.size_lt, toUnsigned_lt _⟩

theorem after_getBuffer (pTarget : Bool) (nLen nStartingAt : ℕ) (behind : List UInt8) :
    (b.getBuffer pTarget nLen nStartingAt behind).after = b := by
  unfold ClientBuffer.getBuffer
  split_ifs <;> rfl

/-- What one call preserves. -/
theorem WellFormed.answer (h : WellFormed b) {call : BufferCall} (hlegal : call.Legal) :
    WellFormed (b.answer call).after := by
  cases call with
  | allocBuffer nSize bAllocBufHeader granted => exact h.allocBuffer hlegal bAllocBufHeader granted
  | freeBuffer => exact h.freeBuffer
  | clearBuffer => exact h.clearBuffer
  | setBuffer source => exact h.setBuffer hlegal
  | appendBuffer source => exact h.appendBuffer source
  | getBuffer pTarget nLen nStartingAt behind =>
    exact (after_getBuffer pTarget nLen nStartingAt behind).symm ▸ h
  | setDataSize nLen => exact h.setDataSize nLen

end ClientBuffer

/-! ### Clients with a buffer -/

section Clients

variable {σ : Type} (buffer : σ → ClientBuffer) (answer : σ → BufferCall → Outcome σ Bool)

/-- What the functions of a class make of its buffer is what the functions above make of it. -/
structure ActsOnBuffer : Prop where
  accesses : ∀ client call, (answer client call).accesses = ((buffer client).answer call).accesses
  after : ∀ client call, buffer (answer client call).after = ((buffer client).answer call).after

/-- A call of a function on the buffer of a client. -/
def BufferStep (before : σ) (call : BufferCall) (reply : Outcome σ Bool) (after : σ) : Prop :=
  call.Legal ∧ reply = answer before call ∧ after = reply.after

variable {buffer answer}

theorem ActsOnBuffer.wellFormed_step (h : ActsOnBuffer buffer answer) {before after : σ}
    {call : BufferCall} {reply : Outcome σ Bool} (hbefore : (buffer before).WellFormed)
    (hstep : BufferStep answer before call reply after) : (buffer after).WellFormed := by
  obtain ⟨hlegal, rfl, rfl⟩ := hstep
  rw [h.after]
  exact hbefore.answer hlegal

end Clients

end RdbLibs.NetIO.CClientIO
