import RdbLibs.Foundations.Postcondition
import RdbLibs.NetIO.AllocatedMessage

/-!
# Methods that respect the mutex

`Guarded Excused payload locked d` is the invariant of an allocated message between any two steps of
a method: whether the mutex is locked, and, unless an access outside the block is excused, lengths
that stay inside it. Every method of the message takes one such state to another, so that it never
locks a mutex that is locked and never unlocks one that is free.
-/

set_option autoImplicit false
set_option relaxedAutoImplicit false

namespace RdbLibs.NetIO.CNetMessageData

open MachineWord CheckedMemory ByteCodec NetworkDataHeaderInfo

variable {Excused : Fault → Prop} {payload : ℕ} {d : CNetMessageData}

/-- The size of the block of an allocated message. -/
def blockSize (payload : ℕ) : ℕ := toUnsigned (msgHeaderLen + payload)

/-- An allocated message whose mutex is as stated. Unless an access outside the block is excused,
the size of the block has not wrapped around, and `m_nDataLength` is within it. -/
structure Guarded (Excused : Fault → Prop) (payload : ℕ) (locked : Bool) (d : CNetMessageData) :
    Prop where
  lock_eq : d.m_dataLock = locked
  block : Allocated payload { d with m_dataLock := false }
  fits : Excused .outOfBounds ∨
    msgHeaderLen + payload < 2 ^ 32 ∧ d.m_nDataLength ≤ blockSize payload

theorem Guarded.allocated (h : Guarded Excused payload false d) : Allocated payload d := by
  have hblock := h.block
  rwa [← h.lock_eq] at hblock

theorem Allocated.guarded (h : Allocated payload d)
    (hfits : Excused .outOfBounds ∨
      msgHeaderLen + payload < 2 ^ 32 ∧ d.m_nDataLength ≤ blockSize payload) :
    Guarded Excused payload false d where
  lock_eq := h.unlocked
  block := by rwa [← h.unlocked]
  fits := hfits

/-- Unless the size of the block has wrapped around, the header is inside it. -/
theorem Guarded.header_le {locked : Bool} (h : Guarded Excused payload locked d) :
    Excused .outOfBounds ∨ msgHeaderLen ≤ blockSize payload := by
  refine h.fits.imp_right fun hfits ↦ ?_
  rw [blockSize, toUnsigned_of_lt hfits.1]
  exact Nat.le_add_right ..

/-! ### Steps -/

theorem Guarded.lock (h : Guarded Excused payload false d) :
    Yields Excused d.lock (Guarded Excused payload true) := by
  rw [CNetMessageData.lock, h.lock_eq]
  exact .ok ⟨rfl, h.block, h.fits⟩

theorem Guarded.unlock (h : Guarded Excused payload true d) :
    Yields Excused d.unlock (Guarded Excused payload false) := by
  rw [CNetMessageData.unlock, h.lock_eq]
  exact .ok ⟨rfl, h.block, h.fits⟩

theorem Guarded.releasePtr (h : Guarded Excused payload true d) :
    Yields Excused d.releasePtr (Guarded Excused payload false) := h.unlock

theorem Guarded.setLength {locked : Bool} (h : Guarded Excused payload locked d) {length : ℕ}
    (hlength : Excused .outOfBounds ∨ length ≤ blockSize payload) :
    Guarded Excused payload locked { d with m_nDataLength := length } where
  lock_eq := h.lock_eq
  block := ⟨h.block.data, h.block.headerLength, h.block.maxDataSize, h.block.payload_pos,
    h.block.payload_lt, rfl⟩
  fits := by
    rcases h.fits with hexcused | hfits
    · exact .inl hexcused
    · exact hlength.imp_right fun hle ↦ ⟨hfits.1, hle⟩

theorem Guarded.setUpdated {locked : Bool} (h : Guarded Excused payload locked d) (val : Bool) :
    Guarded Excused payload locked (d.setUpdated val) where
  lock_eq := h.lock_eq
  block := ⟨h.block.data, h.block.headerLength, h.block.maxDataSize, h.block.payload_pos,
    h.block.payload_lt, rfl⟩
  fits := h.fits

/-- The length of a body that is inside the block can be noted. -/
theorem Guarded.setBodyLength {locked : Bool} (h : Guarded Excused payload locked d) {nLen : ℕ}
    (hlength : Excused .outOfBounds ∨ msgHeaderLen + nLen ≤ blockSize payload) :
    Guarded Excused payload locked (d.setBodyLength nLen) := by
  refine h.setLength (hlength.imp_right fun hle ↦ ?_)
  rw [show d.m_nHeaderLength = msgHeaderLen from h.block.headerLength,
    toUnsigned_of_lt (hle.trans_lt (toUnsigned_lt _))]
  exact hle

/-- A write that keeps the size of the block. -/
theorem Guarded.access {locked : Bool} (h : Guarded Excused payload locked d)
    {write : List UInt8 → Except Fault (List UInt8)}
    (hwrite : ∀ cells, cells.length = blockSize payload →
      Yields Excused (write cells) fun cells' ↦ cells'.length = cells.length) :
    Yields Excused (d.access write) (Guarded Excused payload locked) := by
  obtain ⟨cells, hcells, hlength⟩ := h.block.data
  have hblock : d.cells = .ok cells := by
    rw [CNetMessageData.cells, show d.m_pData = some cells from hcells]
  rw [CNetMessageData.access, hblock, ok_bind]
  refine (hwrite cells (hlength.trans h.block.maxDataSize)).bind fun cells' hcells' ↦ .pure ?_
  exact ⟨h.lock_eq, ⟨⟨cells', rfl, hcells'.trans hlength⟩, h.block.headerLength,
    h.block.maxDataSize, h.block.payload_pos, h.block.payload_lt, rfl⟩, h.fits⟩

/-! ### Methods -/

theorem Guarded.clearAll (h : Guarded Excused payload false d) :
    Yields Excused d.clearAll (Guarded Excused payload false) := by
  unfold CNetMessageData.clearAll
  refine h.lock.bind fun locked hlocked ↦ ?_
  have hcleared := hlocked.setLength (.inr (Nat.zero_le _))
  refine .ite (fun _ ↦ hcleared.unlock) fun _ ↦ ?_
  refine (hcleared.access fun cells hcells ↦ ?_).bind fun written hwritten ↦ hwritten.unlock
  refine .fillRange (.inr ?_) 0
  rw [Nat.zero_add, hcells]
  exact hlocked.block.maxDataSize.le

/-- What `clearMsgBody` clears is inside the block. -/
theorem Guarded.body_le {locked : Bool} (h : Guarded Excused payload locked d) :
    Excused .outOfBounds ∨ msgHeaderLen + d.bodySize ≤ blockSize payload := by
  refine h.header_le.imp_right fun hheader ↦ ?_
  have hsize : d.m_nMaxDataSize = blockSize payload := h.block.maxDataSize
  have hlt : blockSize payload < 2 ^ 32 := toUnsigned_lt _
  rw [bodySize, hsize, toSize]
  omega

theorem Guarded.clearMsgBody (h : Guarded Excused payload false d) :
    Yields Excused d.clearMsgBody (Guarded Excused payload false) := by
  unfold CNetMessageData.clearMsgBody
  refine h.lock.bind fun locked hlocked ↦ ?_
  have hcleared := hlocked.setLength (.inr (Nat.zero_le _))
  refine .ite (fun _ ↦ hcleared.unlock) fun _ ↦ ?_
  refine (hcleared.access fun cells hcells ↦ ?_).bind fun written hwritten ↦ hwritten.unlock
  have hbody := hcleared.body_le
  rw [← hcells] at hbody
  generalize bodySize _ = size at hbody ⊢
  exact .fillRange hbody 0

/-- The pointer to the block, for a caller who has the mutex until it releases the pointer. -/
theorem Guarded.getDataPtr (h : Guarded Excused payload false d) :
    Yields Excused d.getDataPtr fun r ↦ r.1 = some 0 ∧ Guarded Excused payload true r.2 := by
  unfold CNetMessageData.getDataPtr
  refine h.lock.bind fun locked hlocked ↦ .pure ⟨?_, hlocked⟩
  obtain ⟨cells, hcells, -⟩ := hlocked.block.data
  rw [show locked.m_pData = some cells from hcells]
  rfl

theorem Guarded.getBodyPtr (h : Guarded Excused payload false d) :
    Yields Excused d.getBodyPtr fun r ↦
      r.1 = some msgHeaderLen ∧ Guarded Excused payload true r.2 := by
  unfold CNetMessageData.getBodyPtr
  refine h.lock.bind fun locked hlocked ↦ ?_
  have hheader : locked.m_nHeaderLength = msgHeaderLen := hlocked.block.headerLength
  rw [hheader, if_neg (by unfold msgHeaderLen; omega)]
  exact .pure ⟨rfl, hlocked⟩

theorem Guarded.cells {locked : Bool} (h : Guarded Excused payload locked d) :
    Yields Excused d.cells fun cells ↦ cells.length = blockSize payload := by
  obtain ⟨cells, hcells, hlength⟩ := h.block.data
  rw [CNetMessageData.cells, show d.m_pData = some cells from hcells]
  exact .ok (hlength.trans h.block.maxDataSize)

theorem Guarded.isBufferAllocated {locked : Bool} (h : Guarded Excused payload locked d) :
    d.isBufferAllocated = true := by
  obtain ⟨cells, hcells, -⟩ := h.block.data
  rw [CNetMessageData.isBufferAllocated, show d.m_pData = some cells from hcells]
  exact if_neg (by simp)

/-- A body shorter than what `getMaxDataLen` says is inside the block. -/
theorem Guarded.lt_maxDataLen {locked : Bool} (h : Guarded Excused payload locked d) {nLen : ℕ}
    (hlen : nLen < intToUnsigned d.getMaxDataLen) :
    Excused .outOfBounds ∨ msgHeaderLen + nLen ≤ blockSize payload := by
  refine h.fits.imp_right fun hfits ↦ ?_
  have hsize : d.m_nMaxDataSize = blockSize payload := h.block.maxDataSize
  have hheader : d.m_nHeaderLength = msgHeaderLen := h.block.headerLength
  have hblock : blockSize payload = msgHeaderLen + payload := toUnsigned_of_lt hfits.1
  have hmax : intToUnsigned d.getMaxDataLen = payload := by
    rw [getMaxDataLen, hsize, hheader, hblock, if_neg (by unfold msgHeaderLen; omega),
      if_neg (by omega), Nat.add_sub_cancel_left, intToUnsigned_toInt h.block.payload_lt]
  omega

theorem headerMarker_yields {cells : List UInt8} (h : Excused .outOfBounds ∨ 0 + 2 ≤ cells.length) :
    Yields Excused (headerMarker cells) fun _ ↦ True :=
  .map ((Yields.loadRange h).mono fun _ _ ↦ trivial)

theorem dataLen_yields {cells : List UInt8} (h : Excused .outOfBounds ∨ 12 + 4 ≤ cells.length) :
    Yields Excused (dataLen cells) fun _ ↦ True :=
  .map ((Yields.loadRange h).mono fun _ _ ↦ trivial)

theorem copyType_yields {cells : List UInt8} (h : Excused .outOfBounds ∨ 12 ≤ cells.length)
    (pType : Option (List UInt8)) :
    Yields Excused (copyType cells pType) fun cells' ↦ cells'.length = cells.length := by
  cases pType with
  | none => exact .ok rfl
  | some type =>
    exact .storeRange (h.imp_right fun hle ↦
      (Nat.add_le_add_left (length_streamType_le type) 2).trans hle)

theorem initializeHeader_yields {cells : List UInt8}
    (h : Excused .outOfBounds ∨ 16 ≤ cells.length) (pType : Option (List UInt8)) (nLen : ℕ) :
    Yields Excused (initializeHeader cells pType nLen) fun cells' ↦
      cells'.length = cells.length := by
  have hfield : ∀ {last : ℕ} {block : List UInt8}, block.length = cells.length →
      last ≤ 16 → Excused .outOfBounds ∨ last ≤ block.length :=
    fun hblock hlast ↦ h.imp_right fun hle ↦ (hlast.trans hle).trans hblock.ge
  unfold initializeHeader
  refine (Yields.storeRange (hfield rfl (by rw [length_littleEndian]; decide))).bind
    fun marked hmarked ↦ ?_
  refine (Yields.fillRange (hfield hmarked (by decide)) 0).bind fun cleared hcleared ↦ ?_
  refine (copyType_yields (hfield (hcleared.trans hmarked) (by decide)) pType).bind
    fun typed htyped ↦ ?_
  have hlength := htyped.trans (hcleared.trans hmarked)
  exact (Yields.storeRange (hfield hlength (by rw [length_littleEndian]))).mono
    fun cells' hcells' ↦ hcells'.trans hlength

theorem Guarded.decodeMsgHeader (h : Guarded Excused payload false d) (sType : List UInt8) :
    Yields Excused (d.decodeMsgHeader sType) fun r ↦ Guarded Excused payload false r.2 := by
  have hcleared : Guarded Excused payload false (d.setBodyLength 0) := h.setBodyLength h.header_le
  unfold CNetMessageData.decodeMsgHeader
  dsimp only
  rw [hcleared.isBufferAllocated, if_neg (by decide)]
  refine hcleared.getDataPtr.bind fun r hr ↦ ?_
  refine hr.2.cells.bind fun cells hcells ↦ ?_
  have hfield : ∀ last ≤ msgHeaderLen, Excused .outOfBounds ∨ last ≤ cells.length :=
    fun _ hlast ↦ h.header_le.imp_right fun hle ↦ (hlast.trans hle).trans hcells.ge
  refine (headerMarker_yields (hfield (0 + 2) (by decide))).bind fun marker _ ↦ ?_
  refine .ite (fun _ ↦ hr.2.releasePtr.bind fun d' hd' ↦ .pure hd') fun _ ↦ ?_
  refine (dataLen_yields (hfield (12 + 4) (by decide))).bind fun nDataLen _ ↦ ?_
  refine .ite (fun _ ↦ hr.2.releasePtr.bind fun d' hd' ↦ .pure hd') fun hshort ↦ ?_
  have hnoted := hr.2.setBodyLength (hr.2.lt_maxDataLen (not_le.mp hshort))
  exact hnoted.releasePtr.bind fun d' hd' ↦ .pure hd'

theorem Guarded.encodeMsgHeader (h : Guarded Excused payload false d) (sType : List UInt8) :
    Yields Excused (d.encodeMsgHeader sType) fun r ↦ Guarded Excused payload false r.2 := by
  unfold CNetMessageData.encodeMsgHeader
  rw [h.isBufferAllocated, if_neg (by decide)]
  refine h.getDataPtr.bind fun r hr ↦ ?_
  refine (hr.2.access fun cells hcells ↦ ?_).bind fun written hwritten ↦ ?_
  · exact initializeHeader_yields (h.header_le.imp_right fun hle ↦
      (show 16 ≤ msgHeaderLen by decide).trans (hle.trans hcells.ge)) _ _
  · exact hwritten.releasePtr.bind fun d' hd' ↦ .pure hd'

end RdbLibs.NetIO.CNetMessageData
