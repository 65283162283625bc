import Mathlib.Tactic.Ring
import RdbLibs.Buffer.CSimpleVideoBuffer.AccessBounds

/-!
# The layout of the block

The frames of a block are behind each other, each in whole bytes, and so are the lines of a frame;
the pixels of a line are packed. An access that its checks do not refuse names at most one frame
behind the last one, one line behind the last one of a frame, or as many pixels as the block has.
So where the sizes multiply without overflow, it is not too far away for an offset of 32 bits
(`SizesFit.bounded`), and stays inside the block exactly when the pixels that it names are in the
block. Where they do not, pixels of the block are still found there
(`Sound.staysInside_of_inLayout`).
-/

set_option autoImplicit false
set_option relaxedAutoImplicit false

namespace RdbLibs.Buffer.CSimpleVideoBuffer

open CheckedMemory MachineWord Runs

/-- Where an access begins: a frame, and some lines and pixels in it. -/
structure Place where
  frame : ℕ
  lines : ℕ
  pixels : ℕ

/-- The place that an access is given, or goes on at. -/
def place (v : CSimpleVideoBuffer) : Access → Place
  | .getFrame _ frame => ⟨frame, 0, 0⟩
  | .setFrame _ frame => ⟨frame, 0, 0⟩
  | .readPixel _ frame => ⟨frame, 0, v.m_readIdx⟩
  | .readPixelAt _ index frame => ⟨frame, 0, index⟩
  | .readPixelXY _ xPos yPos frame => ⟨frame, yPos, xPos⟩
  | .readPixels _ _ frame => ⟨frame, 0, v.m_readIdx⟩
  | .writePixel _ frame => ⟨frame, 0, v.m_writeIdx⟩
  | .writePixelAt _ index frame => ⟨frame, 0, index⟩
  | .writePixelXY _ xPos yPos frame => ⟨frame, yPos, xPos⟩
  | .writePixels _ _ frame => ⟨frame, 0, v.m_writeIdx⟩

/-- The first pixel that an access names, in the order of the block. -/
def firstPixel (v : CSimpleVideoBuffer) (access : Access) : ℕ :=
  (v.place access).frame * v.m_frameSize +
    ((v.place access).lines * v.m_frameWidth + (v.place access).pixels)

/-- The number of pixels that an access names. -/
def numPixels (v : CSimpleVideoBuffer) : Access → ℕ
  | .getFrame _ _ => v.m_frameSize
  | .setFrame _ _ => v.m_frameSize
  | .readPixels _ count _ => count
  | .writePixels _ count _ => count
  | _ => 1

/-- The whole bytes of a frame. -/
def frameBytes (v : CSimpleVideoBuffer) : ℕ := v.m_nBitsPerPixel * v.m_frameSize / 8

/-- The whole bytes of a line. -/
def lineBytes (v : CSimpleVideoBuffer) : ℕ := v.m_frameWidth * v.m_nBitsPerPixel / 8

/-- The bytes that some pixels take. -/
def pixelBytes (v : CSimpleVideoBuffer) (count : ℕ) : ℕ := (v.m_nBitsPerPixel * count + 7) / 8

/-- The first byte of the place of an access. -/
def startByte (v : CSimpleVideoBuffer) (access : Access) : ℕ :=
  (v.place access).frame * v.frameBytes + (v.place access).lines * v.lineBytes +
    (v.place access).pixels * v.m_nBitsPerPixel / 8

/-- The bytes of the pixels that an access names. -/
def byteCount (v : CSimpleVideoBuffer) : Access → ℕ
  | .getFrame _ _ => v.frameBytes
  | .setFrame _ _ => v.frameBytes
  | access => v.pixelBytes (v.numPixels access)

/-- The access is refused, or the pixels that it names are in the block. -/
def InLayout (v : CSimpleVideoBuffer) (access : Access) : Prop :=
  v.Refused access ∨ v.byteCount access = 0 ∨
    v.startByte access + v.byteCount access ≤ v.m_nBufferLen

/-- The numbers of bits in a block, in an image of the resolution and in one of its lines are words
of 32 bits. -/
structure SizesFit (v : CSimpleVideoBuffer) : Prop where
  block : v.m_frameSize * v.m_blockSize * v.m_nBitsPerPixel + 7 < 2 ^ 32
  image : v.m_frameWidth * v.m_frameHeight * v.m_nBitsPerPixel < 2 ^ 32
  line : v.m_frameWidth * v.m_nBitsPerPixel < 2 ^ 32

variable {v : CSimpleVideoBuffer} {access : Access}

theorem firstByte_eq (v : CSimpleVideoBuffer) (access : Access) : v.firstByte access =
    (v.place access).frame * v.bytesPerFrame + (v.place access).lines * v.bytesPerScanLine +
      (v.place access).pixels * v.m_nBitsPerPixel / 8 := by
  cases access <;> simp [firstByte, place, indexByte, coordinateByte]

/-- Each part of the place of an access, and what it copies, is less than 2^32 bits away. -/
structure Bounded (v : CSimpleVideoBuffer) (access : Access) : Prop where
  frame : 8 * ((v.place access).frame * v.frameBytes) < 2 ^ 32
  lines : 8 * ((v.place access).lines * v.lineBytes) < 2 ^ 32
  pixels : 8 * ((v.place access).pixels * v.m_nBitsPerPixel / 8) < 2 ^ 32
  count : 8 * v.byteCount access < 2 ^ 32

theorem bytesPerFrame_of_lt (h : 8 * v.frameBytes < 2 ^ 32) : v.bytesPerFrame = v.frameBytes := by
  unfold frameBytes at h
  rw [bytesPerFrame, toUnsigned_of_lt (by omega), frameBytes]

theorem bytesPerScanLine_of_lt (h : 8 * v.lineBytes < 2 ^ 32) :
    v.bytesPerScanLine = v.lineBytes := by
  unfold lineBytes at h
  rw [bytesPerScanLine, toUnsigned_of_lt (by omega), lineBytes]

theorem copySize_of_lt {count : ℕ} (h : 8 * v.pixelBytes count < 2 ^ 32) :
    v.copySize count = v.pixelBytes count := by
  unfold pixelBytes at h
  rw [copySize, toUnsigned_of_lt (by omega), pixelBytes]

theorem pixelSize_eq_copySize (v : CSimpleVideoBuffer) : v.pixelSize = v.copySize 1 := by
  rw [pixelSize, copySize, Nat.mul_one]

/-- A multiple of a stride is computed as it is, if it is not too large. -/
theorem mul_stride_eq {count stride stride' : ℕ} (h : 8 * (count * stride) < 2 ^ 32)
    (hstride : 8 * stride < 2 ^ 32 → stride' = stride) : count * stride' = count * stride := by
  rcases Nat.eq_zero_or_pos count with rfl | hpos
  · rw [Nat.zero_mul, Nat.zero_mul]
  · have hle := Nat.le_mul_of_pos_left stride hpos
    rw [hstride (by omega)]

theorem numBytes_eq (h : 8 * v.byteCount access < 2 ^ 32) :
    v.numBytes access = v.byteCount access := by
  cases access with
  | getFrame | setFrame => exact bytesPerFrame_of_lt h
  | readPixels | writePixels => exact copySize_of_lt h
  | _ => exact v.pixelSize_eq_copySize.trans (copySize_of_lt h)

namespace Bounded

variable (h : v.Bounded access)
include h

/-- The offset that an access computes is the one in the layout. -/
theorem firstByte_eq : v.firstByte access % 2 ^ 32 = v.startByte access := by
  have hframe := mul_stride_eq h.frame bytesPerFrame_of_lt
  have hlines := mul_stride_eq h.lines bytesPerScanLine_of_lt
  have hpixels := h.pixels
  rw [v.firstByte_eq, hframe, hlines]
  refine Nat.mod_eq_of_lt ?_
  have hframes := h.frame
  have hrows := h.lines
  omega

/-- An access stays inside the block exactly when its pixels are in it. -/
theorem staysInside_iff (hsound : v.Sound) (hwords : access.Words) :
    v.StaysInside access ↔ v.InLayout access := by
  rw [hsound.staysInside_iff hwords, h.firstByte_eq, numBytes_eq h.count, InLayout]

end Bounded

/-- Pixels that are in the block are not too far away. -/
theorem Sound.bounded (hsound : v.Sound)
    (h : v.startByte access + v.byteCount access ≤ v.m_nBufferLen) : v.Bounded access := by
  have hword := hsound.bufferLen
  unfold startByte at h
  exact ⟨by omega, by omega, by omega, by omega⟩

/-- An access to pixels that are in the block stays inside it, whatever the sizes are. -/
theorem Sound.staysInside_of_inLayout (hsound : v.Sound) (hwords : access.Words)
    (h : v.InLayout access) : v.StaysInside access := by
  rcases h with hrefused | hnone | hinside
  · exact (hsound.staysInside_iff hwords).mpr (.inl hrefused)
  · have hzero : v.numBytes access = 0 := by rw [numBytes_eq (by rw [hnone]; norm_num), hnone]
    exact (hsound.staysInside_iff hwords).mpr (.inr (.inl hzero))
  · exact ((hsound.bounded hinside).staysInside_iff hsound hwords).mpr (.inr (.inr hinside))

/-! ### What the checks leave -/

/-- What holds of an access that its checks do not refuse. -/
structure Checked (v : CSimpleVideoBuffer) (access : Access) : Prop where
  pixels : 1 ≤ v.m_frameSize
  frames : 1 ≤ v.m_blockSize
  bits : 1 ≤ v.m_nBitsPerPixel
  frame : (v.place access).frame ≤ v.m_blockSize
  start : ((v.place access).lines = 0 ∧
      (v.place access).pixels ≤ v.m_frameSize * v.m_blockSize) ∨
    ((v.place access).lines ≤ v.m_frameHeight ∧ (v.place access).pixels ≤ v.m_frameWidth)
  count : v.numPixels access ≤ v.m_frameSize * v.m_blockSize

theorem not_refuses_iff {frame minBits : ℕ} :
    ¬v.Refuses frame minBits ↔ 1 ≤ v.m_frameSize ∧ 1 ≤ v.m_blockSize ∧ frame ≤ v.m_blockSize ∧
      v.m_bAllocated = true ∧ minBits ≤ v.m_nBitsPerPixel := by
  unfold Refuses
  simp only [not_or, not_lt, Bool.not_eq_false]

/-- The check that all accesses make, with the others. -/
theorem Checked.of_place {frame lines pixels minBits : ℕ} (hrefuses : ¬v.Refuses frame minBits)
    (hbits : 1 ≤ minBits) (hplace : v.place access = ⟨frame, lines, pixels⟩)
    (hstart : (lines = 0 ∧ pixels ≤ v.m_frameSize * v.m_blockSize) ∨
      (lines ≤ v.m_frameHeight ∧ pixels ≤ v.m_frameWidth))
    (hcount : v.numPixels access ≤ v.m_frameSize * v.m_blockSize) : v.Checked access := by
  obtain ⟨hpixels, hframes, hframe, -, hminBits⟩ := not_refuses_iff.mp hrefuses
  exact ⟨hpixels, hframes, hbits.trans hminBits, hplace ▸ hframe, hplace ▸ hstart, hcount⟩

theorem checked_of_not_refused (hnot : ¬v.Refused access) : v.Checked access := by
  have hpixel : 1 ≤ 8 := by decide
  have hblock {frame minBits : ℕ} (hrefuses : ¬v.Refuses frame minBits) :
      1 ≤ v.m_frameSize ∧ v.m_frameSize ≤ v.m_frameSize * v.m_blockSize := by
    obtain ⟨hpixels, hframes, -⟩ := not_refuses_iff.mp hrefuses
    exact ⟨hpixels, Nat.le_mul_of_pos_right _ hframes⟩
  cases access with
  | getFrame target frame | setFrame source frame =>
    have hrefuses := (not_or.mp hnot).1
    exact .of_place hrefuses hpixel rfl (.inl ⟨rfl, Nat.zero_le _⟩) (hblock hrefuses).2
  | readPixel target frame =>
    obtain ⟨hrefuses, hrest⟩ := not_or.mp hnot
    obtain ⟨hpixels, hle⟩ := hblock hrefuses
    have hindex : ¬v.m_frameSize ≤ v.m_readIdx := (not_or.mp hrest).2
    exact .of_place hrefuses le_rfl rfl (.inl ⟨rfl, by omega⟩) (hpixels.trans hle)
  | readPixelAt target index frame =>
    obtain ⟨hrefuses, hindex⟩ := not_or.mp (not_or.mp hnot).1
    obtain ⟨hpixels, hle⟩ := hblock hrefuses
    exact .of_place hrefuses hpixel rfl (.inl ⟨rfl, by omega⟩) (hpixels.trans hle)
  | readPixelXY target xPos yPos frame | writePixelXY source xPos yPos frame =>
    obtain ⟨hrefuses, hrange⟩ := not_or.mp (not_or.mp hnot).1
    obtain ⟨hpixels, hle⟩ := hblock hrefuses
    exact .of_place hrefuses hpixel rfl (.inr ⟨by omega, by omega⟩) (hpixels.trans hle)
  | readPixels target count frame =>
    obtain ⟨hrefuses, hrest⟩ := not_or.mp hnot
    have hindex : ¬toUnsigned (v.m_frameSize * v.m_blockSize) ≤ v.m_readIdx + count :=
      (not_or.mp hrest).2
    have hmod : toUnsigned (v.m_frameSize * v.m_blockSize) ≤ v.m_frameSize * v.m_blockSize :=
      Nat.mod_le _ _
    have hcount : count ≤ v.m_frameSize * v.m_blockSize := by omega
    exact .of_place hrefuses hpixel rfl (.inl ⟨rfl, by omega⟩) hcount
  | writePixel source frame =>
    obtain ⟨hrefuses, hrest⟩ := not_or.mp hnot
    obtain ⟨hpixels, hle⟩ := hblock hrefuses
    have hindex : ¬v.m_frameSize ≤ v.m_writeIdx := (not_or.mp hrest).2
    exact .of_place hrefuses hpixel rfl (.inl ⟨rfl, by omega⟩) (hpixels.trans hle)
  | writePixelAt source index frame =>
    obtain ⟨hrefuses, hrest⟩ := not_or.mp hnot
    obtain ⟨hpixels, hle⟩ := hblock hrefuses
    have hindex : ¬v.m_frameSize ≤ index := (not_or.mp hrest).2
    exact .of_place hrefuses hpixel rfl (.inl ⟨rfl, by omega⟩) (hpixels.trans hle)
  | writePixels source count frame =>
    obtain ⟨hchecks, hrest⟩ := not_or.mp hnot
    have hrefuses := (not_or.mp hchecks).1
    obtain ⟨hpixels, hle⟩ := hblock hrefuses
    have hindex : ¬v.m_frameSize < v.m_writeIdx + count := (not_or.mp hrest).2
    have hcount : count ≤ v.m_frameSize * v.m_blockSize := by omega
    exact .of_place hrefuses hpixel rfl (.inl ⟨rfl, by omega⟩) hcount

namespace SizesFit

variable (h : v.SizesFit)
include h

/-- So many pixels have a number of bits that is a word. -/
theorem bits_mul_lt {count : ℕ} (hcount : count ≤ v.m_frameSize * v.m_blockSize) :
    count * v.m_nBitsPerPixel + 7 < 2 ^ 32 :=
  (Nat.add_le_add_right (Nat.mul_le_mul_right _ hcount) 7).trans_lt h.block

/-- An access that is not refused is not too far away. -/
theorem bounded (hchecked : v.Checked access) : v.Bounded access := by
  obtain ⟨-, hframes, -, hframe, hstart, hcount⟩ := hchecked
  have hpixels := h.bits_mul_lt hcount
  rw [Nat.mul_comm] at hpixels
  have hsize := h.bits_mul_lt (Nat.le_mul_of_pos_right v.m_frameSize hframes)
  rw [Nat.mul_comm] at hsize
  constructor
  · calc 8 * ((v.place access).frame * v.frameBytes)
        ≤ v.m_blockSize * (8 * v.frameBytes) := by
          rw [Nat.mul_left_comm]
          exact Nat.mul_le_mul_right _ hframe
      _ ≤ v.m_blockSize * (v.m_nBitsPerPixel * v.m_frameSize) :=
          Nat.mul_le_mul_left _ (Nat.mul_div_le _ 8)
      _ = v.m_frameSize * v.m_blockSize * v.m_nBitsPerPixel := by ring
      _ < 2 ^ 32 := (Nat.le_add_right _ 7).trans_lt h.block
  · rcases hstart with ⟨hlines, -⟩ | ⟨hlines, -⟩
    · rw [hlines, Nat.zero_mul]
      norm_num
    · calc 8 * ((v.place access).lines * v.lineBytes)
          ≤ v.m_frameHeight * (8 * v.lineBytes) := by
            rw [Nat.mul_left_comm]
            exact Nat.mul_le_mul_right _ hlines
        _ ≤ v.m_frameHeight * (v.m_frameWidth * v.m_nBitsPerPixel) :=
            Nat.mul_le_mul_left _ (Nat.mul_div_le _ 8)
        _ = v.m_frameWidth * v.m_frameHeight * v.m_nBitsPerPixel := by ring
        _ < 2 ^ 32 := h.image
  · refine (Nat.mul_div_le _ 8).trans_lt ?_
    rcases hstart with ⟨-, hle⟩ | ⟨-, hle⟩
    · exact (Nat.le_add_right _ 7).trans_lt (h.bits_mul_lt hle)
    · exact (Nat.mul_le_mul_right _ hle).trans_lt h.line
  · have hframeBits : 8 * v.frameBytes < 2 ^ 32 :=
      (Nat.mul_div_le _ 8).trans_lt ((Nat.le_add_right _ 7).trans_lt hsize)
    have hpixelBits : 8 * v.pixelBytes (v.numPixels access) < 2 ^ 32 :=
      (Nat.mul_div_le _ 8).trans_lt hpixels
    cases access with
    | getFrame | setFrame => exact hframeBits
    | _ => exact hpixelBits

/-- Where the sizes fit, an access stays inside the block exactly when it is refused, or its pixels
are in the block. -/
theorem staysInside_iff (hsound : v.Sound) (hwords : access.Words) :
    v.StaysInside access ↔ v.InLayout access := by
  by_cases hrefused : v.Refused access
  · exact iff_of_true ((hsound.staysInside_iff hwords).mpr (.inl hrefused)) (.inl hrefused)
  · exact (h.bounded (checked_of_not_refused hrefused)).staysInside_iff hsound hwords

end SizesFit

/-! ### Pixels of whole bytes -/

section WholeBytes

variable {size : ℕ} (hsize : v.m_nBitsPerPixel = 8 * size)
include hsize

theorem frameBytes_eq : v.frameBytes = v.m_frameSize * size := by
  rw [frameBytes, hsize, Nat.mul_assoc, Nat.mul_div_cancel_left _ (by decide), Nat.mul_comm]

theorem lineBytes_eq : v.lineBytes = v.m_frameWidth * size := by
  rw [lineBytes, hsize, Nat.mul_left_comm, Nat.mul_div_cancel_left _ (by decide)]

theorem pixelBytes_eq (count : ℕ) : v.pixelBytes count = count * size := by
  rw [pixelBytes, hsize, Nat.mul_assoc, Nat.mul_comm count]
  omega

theorem startByte_eq (access : Access) : v.startByte access = v.firstPixel access * size := by
  rw [startByte, firstPixel, frameBytes_eq hsize, lineBytes_eq hsize, hsize,
    Nat.mul_left_comm _ 8, Nat.mul_div_cancel_left _ (by decide)]
  ring

theorem byteCount_eq (access : Access) : v.byteCount access = v.numPixels access * size := by
  cases access with
  | getFrame | setFrame => exact frameBytes_eq hsize
  | _ => exact pixelBytes_eq hsize _

variable (h : v.SizesFit)
include h

theorem bytesPerFrame_eq (hframes : 1 ≤ v.m_blockSize) :
    v.bytesPerFrame = v.m_frameSize * size := by
  have hbits := h.bits_mul_lt (Nat.le_mul_of_pos_right v.m_frameSize hframes)
  have hframe : 8 * v.frameBytes ≤ v.m_nBitsPerPixel * v.m_frameSize := Nat.mul_div_le _ 8
  rw [Nat.mul_comm] at hbits
  rw [bytesPerFrame_of_lt (by omega), frameBytes_eq hsize]

theorem indexByte_eq (hframes : 1 ≤ v.m_blockSize) (frame index : ℕ) :
    v.indexByte frame index = (frame * v.m_frameSize + index) * size := by
  rw [indexByte, bytesPerFrame_eq hsize h hframes, hsize, Nat.mul_left_comm index,
    Nat.mul_div_cancel_left _ (by decide), Nat.add_mul, Nat.mul_assoc]

theorem coordinateByte_eq (hframes : 1 ≤ v.m_blockSize) (frame xPos yPos : ℕ) :
    v.coordinateByte frame xPos yPos =
      (frame * v.m_frameSize + (yPos * v.m_frameWidth + xPos)) * size := by
  have hline : 8 * v.lineBytes < 2 ^ 32 := (Nat.mul_div_le _ 8).trans_lt h.line
  rw [coordinateByte, bytesPerFrame_eq hsize h hframes, bytesPerScanLine_of_lt hline,
    lineBytes_eq hsize, hsize, Nat.mul_left_comm xPos, Nat.mul_div_cancel_left _ (by decide)]
  ring

theorem pixelSize_eq (hpixels : 1 ≤ v.m_frameSize * v.m_blockSize) : v.pixelSize = size := by
  have hbits := h.bits_mul_lt hpixels
  have hpixel : 8 * v.pixelBytes 1 ≤ v.m_nBitsPerPixel * 1 + 7 := Nat.mul_div_le _ 8
  rw [pixelSize_eq_copySize, copySize_of_lt (by omega), pixelBytes_eq hsize, Nat.one_mul]

end WholeBytes

/-- Where a pixel has whole bytes, the bytes of the layout are those of the pixels, numbered through
the block. -/
theorem inLayout_iff_pixels (hbits : 8 ∣ v.m_nBitsPerPixel) :
    v.InLayout access ↔ v.Refused access ∨ v.numPixels access = 0 ∨
      (v.firstPixel access + v.numPixels access) * v.m_nBitsPerPixel ≤ 8 * v.m_nBufferLen := by
  rw [InLayout]
  refine or_congr_right' fun hnot ↦ ?_
  obtain ⟨size, hsize⟩ := hbits
  have hpos : 1 ≤ size := by
    have hbit := (checked_of_not_refused hnot).bits
    omega
  rw [startByte_eq hsize, byteCount_eq hsize, hsize, Nat.mul_eq_zero,
    or_iff_left (Nat.ne_of_gt hpos), ← Nat.add_mul, Nat.mul_left_comm,
    Nat.mul_le_mul_left_iff (by decide)]

/-! ### The block for the sizes -/

/-- The block is the one for the sizes: a pixel has whole bytes, a frame has the pixels of the
resolution, and the bytes are those of all frames. -/
structure Current (v : CSimpleVideoBuffer) : Prop where
  bits : 8 ∣ v.m_nBitsPerPixel
  frameSize : v.m_frameSize = v.m_frameWidth * v.m_frameHeight
  bufferLen : 8 * v.m_nBufferLen = v.m_frameSize * v.m_blockSize * v.m_nBitsPerPixel

namespace Current

variable (h : v.Current)
include h

theorem width_le (hpixels : 1 ≤ v.m_frameSize) : v.m_frameWidth ≤ v.m_frameSize := by
  have hheight : 0 < v.m_frameHeight :=
    Nat.pos_of_mul_pos_left (h.frameSize ▸ hpixels : 0 < v.m_frameWidth * v.m_frameHeight)
  exact h.frameSize ▸ Nat.le_mul_of_pos_right _ hheight

/-- The sizes of a block that there is fit. -/
theorem sizesFit (hword : 8 * v.m_nBufferLen < 2 ^ 32) (hpixels : 1 ≤ v.m_frameSize)
    (hframes : 1 ≤ v.m_blockSize) : v.SizesFit := by
  have hbits := h.bufferLen
  have hframe : v.m_frameSize * v.m_nBitsPerPixel ≤ 8 * v.m_nBufferLen :=
    hbits ▸ Nat.mul_le_mul_right _ (Nat.le_mul_of_pos_right _ hframes)
  have hline : v.m_frameWidth * v.m_nBitsPerPixel ≤ v.m_frameSize * v.m_nBitsPerPixel :=
    Nat.mul_le_mul_right _ (h.width_le hpixels)
  exact ⟨by omega, h.frameSize ▸ hframe.trans_lt hword, by omega⟩

/-- An access stays inside the block exactly when it is refused, or names no pixels but those of
the block. -/
theorem staysInside_iff_pixels (hsound : v.Sound) (hwords : access.Words) :
    v.StaysInside access ↔ v.Refused access ∨ v.numPixels access = 0 ∨
      v.firstPixel access + v.numPixels access ≤ v.m_frameSize * v.m_blockSize := by
  by_cases hrefused : v.Refused access
  · exact iff_of_true ((hsound.staysInside_iff hwords).mpr (.inl hrefused)) (.inl hrefused)
  · have hchecked := checked_of_not_refused hrefused
    have hfit := h.sizesFit hsound.bufferLen hchecked.pixels hchecked.frames
    rw [hfit.staysInside_iff hsound hwords, inLayout_iff_pixels h.bits, h.bufferLen,
      Nat.mul_le_mul_right_iff hchecked.bits]

end Current

/-- In each state of a run, an access with arguments of 32 bits that is refused, or whose pixels are
in the block, stays inside it. Where the sizes fit, it stays inside in no other case; and where,
moreover, a pixel has whole bytes, its pixels are those that are numbered through the block, and
where the block is the one for the sizes, these are the pixels of all frames. Where the sizes do not
fit, it also stays inside if the offset that it computes in 32 bits leads back into the block. -/
theorem video_accesses_stay_inside_iff {frameWidth frameHeight : ℕ} (hwidth : frameWidth < 2 ^ 32)
    (hheight : frameHeight < 2 ^ 32) {trace : List (Runs.Call CSimpleVideoBuffer Call Unit)}
    {v : CSimpleVideoBuffer} (hrun : Run Step (new frameWidth frameHeight) trace v)
    (hwords : ∀ call ∈ trace, call.label.Words) (access : Access) (haccess : access.Words) :
    (v.InLayout access → v.StaysInside access) ∧
    (v.SizesFit → (v.StaysInside access ↔ v.InLayout access)) ∧
    (v.SizesFit → 8 ∣ v.m_nBitsPerPixel →
      (v.StaysInside access ↔ v.Refused access ∨ v.numPixels access = 0 ∨
        (v.firstPixel access + v.numPixels access) * v.m_nBitsPerPixel ≤ 8 * v.m_nBufferLen)) ∧
    (v.Current → (v.StaysInside access ↔ v.Refused access ∨ v.numPixels access = 0 ∨
      v.firstPixel access + v.numPixels access ≤ v.m_frameSize * v.m_blockSize)) ∧
    (¬v.SizesFit → (v.StaysInside access ↔ v.Refused access ∨ v.numBytes access = 0 ∨
      v.firstByte access % 2 ^ 32 + v.numBytes access ≤ v.m_nBufferLen)) := by
  have hsound := sound_run hwidth hheight hrun hwords
  exact ⟨hsound.staysInside_of_inLayout haccess, fun hfit ↦ hfit.staysInside_iff hsound haccess,
    fun hfit hbits ↦ (hfit.staysInside_iff hsound haccess).trans (inLayout_iff_pixels hbits),
    fun h ↦ h.staysInside_iff_pixels hsound haccess, fun _ ↦ hsound.staysInside_iff haccess⟩

/-- A buffer of two frames of one pixel each. -/
theorem video_accesses_stay_inside_iff_two :
    ∃ v, (∃ trace, Run Step (new 0 0) trace v ∧ trace.map Runs.Call.label =
      [.setResolution 1 1, .setPixelSize 8, .setFramesPerBlock 2, .alloc 0 true]) ∧
        v.StaysInside (.getFrame true 1) ∧ ¬v.StaysInside (.getFrame true 2) := by
  have hrun : Run Step (new 0 0) [⟨new 0 0, .setResolution 1 1, ()⟩, ⟨_, .setPixelSize 8, ()⟩,
      ⟨_, .setFramesPerBlock 2, ()⟩, ⟨_, .alloc 0 true, ()⟩] _ :=
    .cons rfl (.cons rfl (.cons rfl (.cons rfl (.nil _))))
  refine ⟨_, ⟨_, hrun, rfl⟩, ?_⟩
  have haccess (frame : ℕ) (hframe : frame < 2 ^ 32) := (video_accesses_stay_inside_iff
    zero_lt_word zero_lt_word hrun (by simp [Call.Words]) (.getFrame true frame) hframe).2.2.1
      ⟨by decide, by decide, by decide⟩ (by decide)
  refine ⟨(haccess 1 (by decide)).mpr (.inr (.inr (by decide))), fun hinside ↦ ?_⟩
  rcases (haccess 2 (by decide)).mp hinside with hrefused | hpixels
  · exact hrefused.elim (absurd · (by decide)) (absurd · (by decide))
  · exact absurd hpixels (by decide)

/-- The frame behind the last one is copied from behind the block. -/
theorem not_video_accesses_stay_inside :
    ∃ trace v, Run Step (new 0 0) trace v ∧ trace.map Runs.Call.label =
      [.setResolution 1 1, .setPixelSize 8, .alloc 0 true] ∧
        v.perform (.getFrame true 1) = .error .outsideBuffer :=
  ⟨[⟨new 0 0, .setResolution 1 1, ()⟩, ⟨_, .setPixelSize 8, ()⟩, ⟨_, .alloc 0 true, ()⟩], _,
    .cons rfl (.cons rfl (.cons rfl (.nil _))), rfl, rfl⟩

end RdbLibs.Buffer.CSimpleVideoBuffer
