import RdbLibs.Buffer.CSimpleVideoBuffer.Calls

/-!
# The bytes that an access copies

The accesses compare their arguments by `>`, so that the frame behind the last one, the pixel
behind the last one of a frame and the column and row behind the last ones get through, and some
compare only with the whole block, or not with it. The offset in the block is computed in 32 bits.
An access stays inside the block exactly when its checks refuse it, or the bytes from this offset
on are in the block (`Sound.staysInside_iff`). Where these bytes are is another question, of the
sizes and the arguments.
-/

set_option autoImplicit false
set_option relaxedAutoImplicit false

namespace RdbLibs.Buffer.CSimpleVideoBuffer

open CheckedMemory MachineWord Runs

/-- The access does not copy bytes outside the block. -/
def StaysInside (v : CSimpleVideoBuffer) (access : Access) : Prop :=
  v.perform access ≠ .error .outsideBuffer

/-- The access returns an error before it copies anything. -/
def Refused (v : CSimpleVideoBuffer) : Access → Prop
  | .getFrame target frame => v.Refuses frame 8 ∨ target = false
  | .setFrame source frame => v.Refuses frame 8 ∨ source = none
  | .readPixel target frame => v.Refuses frame 1 ∨ target = false ∨ v.m_frameSize ≤ v.m_readIdx
  | .readPixelAt target index frame =>
    (v.Refuses frame 8 ∨ v.m_frameSize < index) ∨ target = false ∨
      toUnsigned (v.m_frameSize * v.m_blockSize) ≤ index
  | .readPixelXY target xPos yPos frame =>
    (v.Refuses frame 8 ∨ v.m_frameWidth < xPos ∨ v.m_frameHeight < yPos) ∨ target = false
  | .readPixels target count frame =>
    v.Refuses frame 8 ∨ target = false ∨
      toUnsigned (v.m_frameSize * v.m_blockSize) ≤ v.m_readIdx + count
  | .writePixel source frame => v.Refuses frame 8 ∨ source = none ∨ v.m_frameSize ≤ v.m_writeIdx
  | .writePixelAt source index frame =>
    v.Refuses frame 8 ∨ source = none ∨ v.m_frameSize ≤ index
  | .writePixelXY source xPos yPos frame =>
    (v.Refuses frame 8 ∨ v.m_frameWidth < xPos ∨ v.m_frameHeight < yPos) ∨ source = none
  | .writePixels source count frame =>
    (v.Refuses frame 8 ∨ v.m_frameSize < count) ∨ source = none ∨
      v.m_frameSize < v.m_writeIdx + count

/-- The first byte of a pixel of a frame. -/
def indexByte (v : CSimpleVideoBuffer) (frame index : ℕ) : ℕ :=
  frame * v.bytesPerFrame + index * v.m_nBitsPerPixel / 8

/-- The first byte of a pixel that is given by its coordinates. -/
def coordinateByte (v : CSimpleVideoBuffer) (frame xPos yPos : ℕ) : ℕ :=
  frame * v.bytesPerFrame + yPos * v.bytesPerScanLine + xPos * v.m_nBitsPerPixel / 8

/-- The first byte that an access names. -/
def firstByte (v : CSimpleVideoBuffer) : Access → ℕ
  | .getFrame _ frame => frame * v.bytesPerFrame
  | .setFrame _ frame => frame * v.bytesPerFrame
  | .readPixel _ frame => v.indexByte frame v.m_readIdx
  | .readPixelAt _ index frame => v.indexByte frame index
  | .readPixelXY _ xPos yPos frame => v.coordinateByte frame xPos yPos
  | .readPixels _ _ frame => v.indexByte frame v.m_readIdx
  | .writePixel _ frame => v.indexByte frame v.m_writeIdx
  | .writePixelAt _ index frame => v.indexByte frame index
  | .writePixelXY _ xPos yPos frame => v.coordinateByte frame xPos yPos
  | .writePixels _ _ frame => v.indexByte frame v.m_writeIdx

/-- The number of bytes that an access names. -/
def numBytes (v : CSimpleVideoBuffer) : Access → ℕ
  | .getFrame _ _ => v.bytesPerFrame
  | .setFrame _ _ => v.bytesPerFrame
  | .readPixels _ count _ => v.copySize count
  | .writePixels _ count _ => v.copySize count
  | _ => v.pixelSize

/-- The arguments of an access are words of 32 bits. -/
def Access.Words : Access → Prop
  | .getFrame _ frame => frame < 2 ^ 32
  | .setFrame _ frame => frame < 2 ^ 32
  | .readPixel _ frame => frame < 2 ^ 32
  | .readPixelAt _ index frame => index < 2 ^ 32 ∧ frame < 2 ^ 32
  | .readPixelXY _ xPos yPos frame => xPos < 2 ^ 32 ∧ yPos < 2 ^ 32 ∧ frame < 2 ^ 32
  | .readPixels _ count frame => count < 2 ^ 32 ∧ frame < 2 ^ 32
  | .writePixel _ frame => frame < 2 ^ 32
  | .writePixelAt _ index frame => index < 2 ^ 32 ∧ frame < 2 ^ 32
  | .writePixelXY _ xPos yPos frame => xPos < 2 ^ 32 ∧ yPos < 2 ^ 32 ∧ frame < 2 ^ 32
  | .writePixels _ count frame => count < 2 ^ 32 ∧ frame < 2 ^ 32

/-! ### Which copies leave the block -/

variable {v : CSimpleVideoBuffer}

theorem copyFrom_eq_error_iff {offset size : ℕ} :
    v.copyFrom offset size = .error .outsideBuffer ↔
      size ≠ 0 ∧ v.bytes.length < offset + size := by
  unfold copyFrom loadRange
  split_ifs with hsize hinside
  · exact iff_of_false nofun fun h ↦ h.1 hsize
  · exact iff_of_false nofun fun h ↦ absurd h.2 (not_lt.mpr hinside)
  · exact iff_of_true rfl ⟨hsize, not_le.mp hinside⟩

theorem copyTo_eq_error_iff {offset size : ℕ} {source : ℕ → UInt8} :
    v.copyTo offset size source = .error .outsideBuffer ↔
      size ≠ 0 ∧ v.bytes.length < offset + size := by
  have hlength : ((List.range size).map source).length = size := by
    rw [List.length_map, List.length_range]
  unfold copyTo storeRange
  rw [hlength]
  split_ifs with hsize hinside
  · exact iff_of_false nofun fun h ↦ h.1 hsize
  · exact iff_of_false nofun fun h ↦ absurd h.2 (not_lt.mpr hinside)
  · exact iff_of_true rfl ⟨hsize, not_le.mp hinside⟩

theorem copyTo_of_le {offset size : ℕ} (source : ℕ → UInt8) (hsize : size ≠ 0)
    (hinside : offset + size ≤ v.bytes.length) :
    v.copyTo offset size source = .ok { v with
      m_pBuffer := some (v.bytes.take offset ++ (List.range size).map source ++
        v.bytes.drop (offset + size)) } := by
  have hlength : ((List.range size).map source).length = size := by
    rw [List.length_map, List.length_range]
  rw [copyTo, if_neg hsize, storeRange, hlength, if_pos hinside]
  rfl

/-- A copy that does not leave the block has a result. -/
theorem exists_copyTo {offset size : ℕ} {source : ℕ → UInt8}
    (h : v.copyTo offset size source ≠ .error .outsideBuffer) :
    ∃ buffer, v.copyTo offset size source = .ok { v with m_pBuffer := buffer } := by
  by_cases hsize : size = 0
  · exact ⟨v.m_pBuffer, by rw [copyTo, if_pos hsize]⟩
  · have hinside : offset + size ≤ v.bytes.length :=
      not_lt.mp fun hlt ↦ h (copyTo_eq_error_iff.mpr ⟨hsize, hlt⟩)
    exact ⟨_, copyTo_of_le source hsize hinside⟩

/-- After the copy, `setFrame` can only leave the lengths. -/
theorem setLength_ne_error {frame : ℕ} (v : CSimpleVideoBuffer) : (do
    let lengths ← (store v.m_frameDataLen frame v.bytesPerFrame).mapError fun _ ↦ .outsideLengths
    return (true, { v with m_frameDataLen := lengths })) ≠
      Except.error VideoFault.outsideBuffer := by
  rw [Ne, bind_pure_eq_error_iff]
  cases store v.m_frameDataLen frame v.bytesPerFrame <;> exact nofun

theorem frameOffset_eq (v : CSimpleVideoBuffer) (frame : ℕ) :
    v.frameOffset frame = frame * v.bytesPerFrame % 2 ^ 32 := by
  rw [frameOffset, Nat.mul_comm, toUnsigned]

namespace Sound

variable (h : v.Sound)
include h

theorem toSize_bits {index : ℕ} (hindex : index < 2 ^ 32) :
    toSize (index * v.m_nBitsPerPixel) = index * v.m_nBitsPerPixel := by
  have hproduct : index * v.m_nBitsPerPixel < 2 ^ 32 * 2 ^ 32 := Nat.mul_lt_mul'' hindex h.bits
  exact Nat.mod_eq_of_lt (hproduct.trans_eq (by norm_num))

theorem pixelOffset_eq {frame index : ℕ} (hindex : index < 2 ^ 32) :
    v.pixelOffset frame index = v.indexByte frame index % 2 ^ 32 := by
  rw [pixelOffset, h.toSize_bits hindex, toUnsigned, indexByte]

theorem coordinateOffset_eq {frame xPos yPos : ℕ} (hindex : xPos < 2 ^ 32) :
    v.coordinateOffset frame xPos yPos = v.coordinateByte frame xPos yPos % 2 ^ 32 := by
  rw [coordinateOffset, h.toSize_bits hindex, toUnsigned, coordinateByte]

/-- The accesses that leave the block. -/
theorem perform_eq_error_iff {access : Access} (hwords : access.Words) :
    v.perform access = .error .outsideBuffer ↔ ¬v.Refused access ∧ v.numBytes access ≠ 0 ∧
      v.m_nBufferLen < v.firstByte access % 2 ^ 32 + v.numBytes access := by
  rw [← h.length]
  cases access with
  | getFrame target frame =>
    rw [CSimpleVideoBuffer.perform, map_eq_error_iff, getFrame, ite_eq_error_iff, ite_eq_error_iff,
      bind_pure_eq_error_iff, copyFrom_eq_error_iff, frameOffset_eq, Refused, not_or, and_assoc]
    rfl
  | setFrame source frame =>
    rw [CSimpleVideoBuffer.perform, map_eq_error_iff, setFrame.eq_def, ite_eq_error_iff, Refused,
      not_or, and_assoc]
    refine and_congr_right fun _ ↦ ?_
    cases source with
    | none => exact iff_of_false (by rintro ⟨⟩) fun hcall ↦ hcall.1 rfl
    | some source =>
      rw [bind_eq_error_iff setLength_ne_error, copyTo_eq_error_iff, frameOffset_eq]
      exact (and_iff_right (Option.some_ne_none source)).symm
  | readPixel target frame =>
    rw [CSimpleVideoBuffer.perform, map_eq_error_iff, readPixel, ite_eq_error_iff,
      ite_eq_error_iff, ite_eq_error_iff, bind_pure_eq_error_iff, copyFrom_eq_error_iff,
      h.pixelOffset_eq h.readIdx, Refused, not_or, not_or, and_assoc, and_assoc]
    rfl
  | readPixelAt target index frame =>
    rw [CSimpleVideoBuffer.perform, map_eq_error_iff, readPixelAt, ite_eq_error_iff,
      ite_eq_error_iff, ite_eq_error_iff, bind_pure_eq_error_iff, copyFrom_eq_error_iff,
      h.pixelOffset_eq hwords.1, Refused, @not_or (v.Refuses frame 8 ∨ v.m_frameSize < index),
      @not_or (target = false), and_assoc, and_assoc]
    rfl
  | readPixelXY target xPos yPos frame =>
    rw [CSimpleVideoBuffer.perform, map_eq_error_iff, readPixelXY, ite_eq_error_iff,
      ite_eq_error_iff, bind_pure_eq_error_iff, copyFrom_eq_error_iff,
      h.coordinateOffset_eq hwords.1, Refused,
      @not_or (v.Refuses frame 8 ∨ v.m_frameWidth < xPos ∨ v.m_frameHeight < yPos), and_assoc]
    rfl
  | readPixels target count frame =>
    rw [CSimpleVideoBuffer.perform, map_eq_error_iff, readPixels, ite_eq_error_iff,
      ite_eq_error_iff, ite_eq_error_iff, bind_pure_eq_error_iff, copyFrom_eq_error_iff,
      h.pixelOffset_eq h.readIdx, Refused, not_or, not_or, and_assoc, and_assoc]
    rfl
  | writePixel source frame =>
    rw [CSimpleVideoBuffer.perform, map_eq_error_iff, writePixel.eq_def, ite_eq_error_iff,
      Refused, not_or, not_or, and_assoc, and_assoc]
    refine and_congr_right fun _ ↦ ?_
    cases source with
    | none => exact iff_of_false (by rintro ⟨⟩) fun hcall ↦ hcall.1 rfl
    | some source =>
      rw [ite_eq_error_iff, bind_pure_eq_error_iff, copyTo_eq_error_iff,
        h.pixelOffset_eq h.writeIdx]
      exact (and_iff_right (Option.some_ne_none source)).symm
  | writePixelAt source index frame =>
    rw [CSimpleVideoBuffer.perform, map_eq_error_iff, writePixelAt.eq_def, ite_eq_error_iff,
      Refused, not_or, not_or, and_assoc, and_assoc]
    refine and_congr_right fun _ ↦ ?_
    cases source with
    | none => exact iff_of_false (by rintro ⟨⟩) fun hcall ↦ hcall.1 rfl
    | some source =>
      rw [ite_eq_error_iff, bind_pure_eq_error_iff, copyTo_eq_error_iff,
        h.pixelOffset_eq hwords.1]
      exact (and_iff_right (Option.some_ne_none source)).symm
  | writePixelXY source xPos yPos frame =>
    rw [CSimpleVideoBuffer.perform, map_eq_error_iff, writePixelXY.eq_def, ite_eq_error_iff,
      Refused, @not_or (v.Refuses frame 8 ∨ v.m_frameWidth < xPos ∨ v.m_frameHeight < yPos),
      and_assoc]
    refine and_congr_right fun _ ↦ ?_
    cases source with
    | none => exact iff_of_false (by rintro ⟨⟩) fun hcall ↦ hcall.1 rfl
    | some source =>
      rw [bind_pure_eq_error_iff, copyTo_eq_error_iff, h.coordinateOffset_eq hwords.1]
      exact (and_iff_right (Option.some_ne_none source)).symm
  | writePixels source count frame =>
    rw [CSimpleVideoBuffer.perform, map_eq_error_iff, writePixels.eq_def, ite_eq_error_iff, Refused,
      @not_or (v.Refuses frame 8 ∨ v.m_frameSize < count), @not_or (source = none), and_assoc,
      and_assoc]
    refine and_congr_right fun _ ↦ ?_
    cases source with
    | none => exact iff_of_false (by rintro ⟨⟩) fun hcall ↦ hcall.1 rfl
    | some source =>
      rw [ite_eq_error_iff, bind_pure_eq_error_iff, copyTo_eq_error_iff,
        h.pixelOffset_eq h.writeIdx]
      exact (and_iff_right (Option.some_ne_none source)).symm

/-- An access stays inside the block exactly when it is refused, copies no bytes, or names bytes of
the block, from an offset in 32 bits on. -/
theorem staysInside_iff {access : Access} (hwords : access.Words) :
    v.StaysInside access ↔ v.Refused access ∨ v.numBytes access = 0 ∨
      v.firstByte access % 2 ^ 32 + v.numBytes access ≤ v.m_nBufferLen := by
  rw [StaysInside, Ne, h.perform_eq_error_iff hwords, not_and_or, not_and_or, not_not, not_not,
    not_lt]

end Sound

end RdbLibs.Buffer.CSimpleVideoBuffer
