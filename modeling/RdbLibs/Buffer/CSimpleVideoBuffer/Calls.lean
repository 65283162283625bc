import RdbLibs.Buffer.CSimpleVideoBuffer.Model
import RdbLibs.Foundations.Postcondition
import RdbLibs.Foundations.Runs

/-!
# Runs of a `CSimpleVideoBuffer`

A run is a sequence of calls, from the constructor on, that have a result. In each state of a run
the block has as many bytes as `m_nBufferLen` counts, and the sizes and the indices are words of 32
bits (`Sound`).
-/

set_option autoImplicit false
set_option relaxedAutoImplicit false

namespace RdbLibs.Buffer.CSimpleVideoBuffer

open CheckedMemory MachineWord Runs

/-- The calls that access the block. -/
inductive Access
  | getFrame (target : Bool) (frame : ℕ)
  | setFrame (source : Option (ℕ → UInt8)) (frame : ℕ)
  | readPixel (target : Bool) (frame : ℕ)
  | readPixelAt (target : Bool) (index frame : ℕ)
  | readPixelXY (target : Bool) (xPos yPos frame : ℕ)
  | readPixels (target : Bool) (count frame : ℕ)
  | writePixel (source : Option (ℕ → UInt8)) (frame : ℕ)
  | writePixelAt (source : Option (ℕ → UInt8)) (index frame : ℕ)
  | writePixelXY (source : Option (ℕ → UInt8)) (xPos yPos frame : ℕ)
  | writePixels (source : Option (ℕ → UInt8)) (count frame : ℕ)

/-- A buffer after an access. -/
def perform (v : CSimpleVideoBuffer) : Access → Except VideoFault CSimpleVideoBuffer
  | .getFrame target frame => (v.getFrame target frame).map fun _ ↦ v
  | .setFrame source frame => (v.setFrame source frame).map Prod.snd
  | .readPixel target frame => (v.readPixel target frame).map fun answer ↦ answer.2.2
  | .readPixelAt target index frame => (v.readPixelAt target index frame).map fun _ ↦ v
  | .readPixelXY target xPos yPos frame => (v.readPixelXY target xPos yPos frame).map fun _ ↦ v
  | .readPixels target count frame =>
    (v.readPixels target count frame).map fun answer ↦ answer.2.2
  | .writePixel source frame => (v.writePixel source frame).map Prod.snd
  | .writePixelAt source index frame => (v.writePixelAt source index frame).map Prod.snd
  | .writePixelXY source xPos yPos frame => (v.writePixelXY source xPos yPos frame).map Prod.snd
  | .writePixels source count frame => (v.writePixels source count frame).map Prod.snd

/-- The calls of a run. -/
inductive Call
  | setPixelSize (nBitsPerPixel : ℕ)
  | setResolution (frameWidth frameHeight : ℕ)
  | setFrameWidth (frameWidth : ℕ)
  | setFrameHeight (frameHeight : ℕ)
  | setFramesPerBlock (blockSize : ℕ)
  | alloc (blockSize : ℕ) (granted : Bool)
  | free
  | setFrameDataLen (nLen nFrame : ℕ)
  | clear
  | resetReadIndex
  | resetWriteIndex
  | access (access : Access)

/-- A buffer after a call. -/
def apply (v : CSimpleVideoBuffer) : Call → Except VideoFault CSimpleVideoBuffer
  | .setPixelSize nBitsPerPixel => .ok (v.setPixelSize nBitsPerPixel)
  | .setResolution frameWidth frameHeight => .ok (v.setResolution frameWidth frameHeight)
  | .setFrameWidth frameWidth => .ok (v.setFrameWidth frameWidth)
  | .setFrameHeight frameHeight => .ok (v.setFrameHeight frameHeight)
  | .setFramesPerBlock blockSize => .ok (v.setFramesPerBlock blockSize)
  | .alloc blockSize granted => .ok (v.alloc blockSize granted).2
  | .free => .ok v.free
  | .setFrameDataLen nLen nFrame => .ok (v.setFrameDataLen nLen nFrame)
  | .clear => v.clear
  | .resetReadIndex => .ok v.resetReadIndex
  | .resetWriteIndex => .ok v.resetWriteIndex
  | .access access => v.perform access

/-- A call of a run has a result. -/
def Step (v : CSimpleVideoBuffer) (call : Call) (_ : Unit) (v' : CSimpleVideoBuffer) : Prop :=
  v.apply call = .ok v'

/-- The sizes that a call sets are `unsigned int`. -/
def Call.Words : Call → Prop
  | .setPixelSize nBitsPerPixel => nBitsPerPixel < 2 ^ 32
  | .setResolution frameWidth frameHeight => frameWidth < 2 ^ 32 ∧ frameHeight < 2 ^ 32
  | .setFrameWidth frameWidth => frameWidth < 2 ^ 32
  | .setFrameHeight frameHeight => frameHeight < 2 ^ 32
  | .setFramesPerBlock blockSize => blockSize < 2 ^ 32
  | .alloc blockSize _ => blockSize < 2 ^ 32
  | _ => True

/-- The block has the bytes that are counted, and the sizes and indices are words. -/
structure Sound (v : CSimpleVideoBuffer) : Prop where
  length : v.bytes.length = v.m_nBufferLen
  bufferLen : 8 * v.m_nBufferLen < 2 ^ 32
  frameWidth : v.m_frameWidth < 2 ^ 32
  frameHeight : v.m_frameHeight < 2 ^ 32
  blockSize : v.m_blockSize < 2 ^ 32
  frameSize : v.m_frameSize < 2 ^ 32
  bits : v.m_nBitsPerPixel < 2 ^ 32
  readIdx : v.m_readIdx < 2 ^ 32
  writeIdx : v.m_writeIdx < 2 ^ 32

theorem sound_new {frameWidth frameHeight : ℕ} (hwidth : frameWidth < 2 ^ 32)
    (hheight : frameHeight < 2 ^ 32) : (new frameWidth frameHeight).Sound :=
  ⟨rfl, zero_lt_word, hwidth, hheight, (by decide : 1 < 2 ^ 32), zero_lt_word, zero_lt_word,
    zero_lt_word, zero_lt_word⟩

/-- A copy into the block changes nothing but its bytes. -/
theorem ensures_copyTo (v : CSimpleVideoBuffer) (offset size : ℕ) (source : ℕ → UInt8) :
    Ensures (v.copyTo offset size source) fun v' ↦ ∃ buffer : Option (List UInt8),
      v' = { v with m_pBuffer := buffer } ∧ (buffer.getD []).length = v.bytes.length := by
  refine .ite (fun _ ↦ .ok ⟨v.m_pBuffer, rfl, rfl⟩) fun _ ↦ .bind (.mapError ?_) fun bytes hbytes ↦
    .ok ⟨some bytes, rfl, hbytes⟩
  exact fun bytes hstore ↦ length_of_storeRange hstore

/-- What an access leaves as it was: the sizes, the block but for what is in its bytes, and the
number of the lengths. The indices are still words. -/
structure Keeps (v v' : CSimpleVideoBuffer) : Prop where
  frameWidth : v'.m_frameWidth = v.m_frameWidth
  frameHeight : v'.m_frameHeight = v.m_frameHeight
  blockSize : v'.m_blockSize = v.m_blockSize
  frameSize : v'.m_frameSize = v.m_frameSize
  bits : v'.m_nBitsPerPixel = v.m_nBitsPerPixel
  isAllocated : v'.m_bAllocated = v.m_bAllocated
  bufferLen : v'.m_nBufferLen = v.m_nBufferLen
  length : v'.bytes.length = v.bytes.length
  lengths : v'.m_frameDataLen.length = v.m_frameDataLen.length
  readIdx : v.m_frameSize < 2 ^ 32 → v.m_readIdx < 2 ^ 32 → v'.m_readIdx < 2 ^ 32
  writeIdx : v.m_frameSize < 2 ^ 32 → v.m_writeIdx < 2 ^ 32 → v'.m_writeIdx < 2 ^ 32

theorem Keeps.refl (v : CSimpleVideoBuffer) : v.Keeps v :=
  ⟨rfl, rfl, rfl, rfl, rfl, rfl, rfl, rfl, rfl, fun _ h ↦ h, fun _ h ↦ h⟩

theorem Keeps.trans {first middle last : CSimpleVideoBuffer} (hfirst : first.Keeps middle)
    (hlast : middle.Keeps last) : first.Keeps last where
  frameWidth := hlast.frameWidth.trans hfirst.frameWidth
  frameHeight := hlast.frameHeight.trans hfirst.frameHeight
  blockSize := hlast.blockSize.trans hfirst.blockSize
  frameSize := hlast.frameSize.trans hfirst.frameSize
  bits := hlast.bits.trans hfirst.bits
  isAllocated := hlast.isAllocated.trans hfirst.isAllocated
  bufferLen := hlast.bufferLen.trans hfirst.bufferLen
  length := hlast.length.trans hfirst.length
  lengths := hlast.lengths.trans hfirst.lengths
  readIdx hsize hindex := hlast.readIdx (hfirst.frameSize ▸ hsize) (hfirst.readIdx hsize hindex)
  writeIdx hsize hindex := hlast.writeIdx (hfirst.frameSize ▸ hsize) (hfirst.writeIdx hsize hindex)

theorem ensures_perform (v : CSimpleVideoBuffer) (access : Access) :
    Ensures (v.perform access) v.Keeps := by
  have h := Keeps.refl v
  cases access with
  | getFrame target frame => exact .map fun _ _ ↦ h
  | setFrame source frame =>
    refine .map (.ite (fun _ ↦ .ok h) fun _ ↦ ?_)
    cases source with
    | none => exact .ok h
    | some source =>
      refine .bind (ensures_copyTo _ _ _ _) ?_
      rintro v' ⟨buffer, rfl, hlength⟩
      refine .bind (.mapError fun lengths hstore ↦ length_of_store hstore) fun lengths hlengths ↦ ?_
      exact .ok { h with length := hlength, lengths := hlengths }
  | readPixel target frame =>
    refine .map (.ite (fun _ ↦ .ok h) fun _ ↦ .ite (fun _ ↦ .ok h) fun _ ↦ .ite ?_ ?_)
    · exact fun _ ↦ .ok { h with readIdx := fun _ _ ↦ zero_lt_word }
    · refine fun hindex ↦ .bind (fun _ _ ↦ trivial) fun bytes _ ↦ .ok { h with readIdx := ?_ }
      exact fun hsize _ ↦ (Nat.succ_le_of_lt (not_le.mp hindex)).trans_lt hsize
  | readPixelAt target index frame => exact .map fun _ _ ↦ h
  | readPixelXY target xPos yPos frame => exact .map fun _ _ ↦ h
  | readPixels target count frame =>
    refine .map (.ite (fun _ ↦ .ok h) fun _ ↦ .ite (fun _ ↦ .ok h) fun _ ↦ .ite ?_ ?_)
    · exact fun _ ↦ .ok h
    · refine fun hindex ↦ .bind (fun _ _ ↦ trivial) fun bytes _ ↦ .ok { h with readIdx := ?_ }
      exact fun _ _ ↦ (not_le.mp hindex).trans (toUnsigned_lt _)
  | writePixel source frame =>
    refine .map (.ite (fun _ ↦ .ok h) fun _ ↦ ?_)
    cases source with
    | none => exact .ok h
    | some source =>
      refine .ite (fun _ ↦ .ok { h with writeIdx := fun _ _ ↦ zero_lt_word }) fun hindex ↦
        .bind (ensures_copyTo _ _ _ _) ?_
      rintro v' ⟨buffer, rfl, hlength⟩
      refine .ok { h with length := hlength, writeIdx := ?_ }
      exact fun hsize _ ↦ (Nat.succ_le_of_lt (not_le.mp hindex)).trans_lt hsize
  | writePixelAt source index frame =>
    refine .map (.ite (fun _ ↦ .ok h) fun _ ↦ ?_)
    cases source with
    | none => exact .ok h
    | some source =>
      refine .ite (fun _ ↦ .ok h) fun _ ↦ .bind (ensures_copyTo _ _ _ _) ?_
      rintro v' ⟨buffer, rfl, hlength⟩
      exact .ok { h with length := hlength }
  | writePixelXY source xPos yPos frame =>
    refine .map (.ite (fun _ ↦ .ok h) fun _ ↦ ?_)
    cases source with
    | none => exact .ok h
    | some source =>
      refine .bind (ensures_copyTo _ _ _ _) ?_
      rintro v' ⟨buffer, rfl, hlength⟩
      exact .ok { h with length := hlength }
  | writePixels source count frame =>
    refine .map (.ite (fun _ ↦ .ok h) fun _ ↦ ?_)
    cases source with
    | none => exact .ok h
    | some source =>
      refine .ite (fun _ ↦ .ok h) fun hindex ↦ .bind (ensures_copyTo _ _ _ _) ?_
      rintro v' ⟨buffer, rfl, hlength⟩
      refine .ok { h with length := hlength, writeIdx := ?_ }
      exact fun hsize _ ↦ (not_lt.mp hindex).trans_lt hsize

theorem bufferLen_lt (v : CSimpleVideoBuffer) : 8 * v.bufferSizeInBytes < 2 ^ 32 :=
  (Nat.mul_div_le _ 8).trans_lt (toUnsigned_lt _)

namespace Sound

variable {v : CSimpleVideoBuffer} (h : v.Sound)
include h

theorem alloc {blockSize : ℕ} (hblock : blockSize < 2 ^ 32) (granted : Bool) :
    (v.alloc blockSize granted).2.Sound := by
  have hframes : v.blockSizeOf blockSize < 2 ^ 32 := by
    unfold blockSizeOf
    split_ifs
    · exact hblock
    · exact h.blockSize
  have hpixels : v.frameSizeOf < 2 ^ 32 := by
    unfold frameSizeOf
    split_ifs
    · exact toUnsigned_lt _
    · exact h.frameSize
    · exact h.frameSize
  unfold CSimpleVideoBuffer.alloc
  dsimp only
  split_ifs
  · exact { h with blockSize := hframes }
  · exact { h with blockSize := hframes, frameSize := zero_lt_word }
  · refine { h with
      blockSize := hframes, frameSize := hpixels, length := List.length_replicate, bufferLen := ?_ }
    exact bufferLen_lt _
  · exact { h with
      blockSize := hframes, frameSize := hpixels, length := rfl, bufferLen := zero_lt_word }

theorem keeps {v' : CSimpleVideoBuffer} (hkeeps : v.Keeps v') : v'.Sound where
  length := hkeeps.length.trans (h.length.trans hkeeps.bufferLen.symm)
  bufferLen := hkeeps.bufferLen ▸ h.bufferLen
  frameWidth := hkeeps.frameWidth ▸ h.frameWidth
  frameHeight := hkeeps.frameHeight ▸ h.frameHeight
  blockSize := hkeeps.blockSize ▸ h.blockSize
  frameSize := hkeeps.frameSize ▸ h.frameSize
  bits := hkeeps.bits ▸ h.bits
  readIdx := hkeeps.readIdx h.frameSize h.readIdx
  writeIdx := hkeeps.writeIdx h.frameSize h.writeIdx

theorem apply {call : Call} (hwords : call.Words) : Ensures (v.apply call) Sound := by
  cases call with
  | setPixelSize nBitsPerPixel => exact .ok { h with bits := hwords }
  | setResolution frameWidth frameHeight =>
    refine .ok ?_
    unfold setResolution
    split_ifs
    · exact h
    · exact { h with frameWidth := hwords.1, frameHeight := hwords.2 }
  | setFrameWidth frameWidth =>
    refine .ok ?_
    unfold setFrameWidth
    split_ifs
    · exact h
    · exact { h with frameWidth := hwords }
  | setFrameHeight frameHeight =>
    refine .ok ?_
    unfold setFrameHeight
    split_ifs
    · exact h
    · exact { h with frameHeight := hwords }
  | setFramesPerBlock blockSize =>
    refine .ok ?_
    unfold setFramesPerBlock
    split_ifs
    · exact h
    · exact { h with blockSize := hwords }
  | alloc blockSize granted => exact .ok (h.alloc hwords granted)
  | free =>
    refine .ok ?_
    unfold free
    split_ifs
    · exact h
    · exact { h with length := rfl, bufferLen := zero_lt_word }
  | setFrameDataLen nLen nFrame =>
    refine .ok ?_
    unfold setFrameDataLen
    split_ifs
    · exact { h with }
    · exact h
  | clear =>
    refine .ite (fun _ ↦ .ok h) fun _ ↦ .bind (ensures_copyTo _ _ _ _) ?_
    rintro v' ⟨buffer, rfl, hlength⟩
    exact .ok { h with
      length := hlength.trans h.length, readIdx := zero_lt_word, writeIdx := zero_lt_word }
  | resetReadIndex => exact .ok { h with readIdx := zero_lt_word }
  | resetWriteIndex => exact .ok { h with writeIdx := zero_lt_word }
  | access access => exact (ensures_perform v access).mono fun _ ↦ h.keeps

end Sound

/-- Every state of a run is sound. -/
theorem sound_run {frameWidth frameHeight : ℕ} (hwidth : frameWidth < 2 ^ 32)
    (hheight : frameHeight < 2 ^ 32) {trace : List (Runs.Call CSimpleVideoBuffer Call Unit)}
    {v : CSimpleVideoBuffer} (hrun : Run Step (new frameWidth frameHeight) trace v)
    (hwords : ∀ call ∈ trace, call.label.Words) : v.Sound :=
  hrun.invariant Sound Call.Words (fun _ _ _ _ hcall h hstep ↦ h.apply hcall _ hstep) hwords
    (sound_new hwidth hheight)

end RdbLibs.Buffer.CSimpleVideoBuffer
