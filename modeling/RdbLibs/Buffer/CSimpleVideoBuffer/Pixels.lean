import RdbLibs.Buffer.CSimpleVideoBuffer.Allocation
import RdbLibs.Buffer.CSimpleVideoBuffer.BlockLayout
import RdbLibs.Foundations.GridLayout

/-!
# The pixels of a block

A buffer that was configured and allocated for the first time is `Ready`: its block is the one for
its sizes, and none of them is zero. The accesses keep it so. Its block is a grid with a column for
each pixel, and the two functions that read a pixel, and the two that write one, find the same
column by different formulas. So a pixel that was written is read, in the frame too, and no other
pixel has changed (`pixel_writes_are_exact`).
-/

set_option autoImplicit false
set_option relaxedAutoImplicit false

namespace RdbLibs.Buffer.CSimpleVideoBuffer

open CheckedMemory GridLayout MachineWord Runs

variable {v v' : CSimpleVideoBuffer}

/-- The block is the one for the sizes, of which none is zero. -/
structure Ready (v : CSimpleVideoBuffer) : Prop where
  sound : v.Sound
  current : v.Current
  isAllocated : v.m_bAllocated = true
  pixels : 1 ≤ v.m_frameSize
  frames : 1 ≤ v.m_blockSize
  bits : 1 ≤ v.m_nBitsPerPixel

/-- A call of `alloc` with no number of pixels from before. -/
theorem ready_of_alloc (hsound : v.Sound) (hnew : v.m_frameSize = 0) {blockSize : ℕ}
    (hblock : blockSize < 2 ^ 32) {granted : Bool} (halloc : v.alloc blockSize granted = (true, v'))
    (hbits : 8 ∣ v'.m_nBitsPerPixel) (hneeded : v'.bitsNeeded < 2 ^ 32)
    (hwidth : 0 < v'.m_frameWidth) (hheight : 0 < v'.m_frameHeight) : v'.Ready := by
  have hsound' : v'.Sound := by
    have h := hsound.alloc hblock granted
    rwa [halloc] at h
  obtain ⟨⟨-, hframes, hpixel, hpixels⟩, rfl⟩ := alloc_eq_true_iff.mp halloc
  have hle : v.m_frameWidth * v.m_frameHeight ≤ (v.allocated blockSize).bitsNeeded := by
    have hmul : (v.allocated blockSize).bitsNeeded =
        v.blockSizeOf blockSize * (v.m_frameWidth * v.m_frameHeight) * v.m_nBitsPerPixel :=
      congrArg (· * v.m_nBitsPerPixel) (Nat.mul_assoc _ _ _)
    rw [hmul]
    exact (Nat.le_mul_of_pos_left _ hframes).trans (Nat.le_mul_of_pos_right _ hpixel)
  have hsize : v.frameSizeOf = v.m_frameWidth * v.m_frameHeight := by
    rw [frameSizeOf_of_pos (v := v) hwidth hheight, if_pos hnew,
      Nat.mod_eq_of_lt (hle.trans_lt hneeded)]
  have hlen : 8 * (v.allocated blockSize).m_nBufferLen = (v.allocated blockSize).bitsNeeded := by
    rw [bufferLen_allocated hsize, Nat.mod_eq_of_lt hneeded]
    exact Nat.mul_div_cancel' (Dvd.dvd.mul_left hbits _)
  refine ⟨hsound', ⟨hbits, hsize, ?_⟩, rfl, hpixels, hframes, hpixel⟩
  show _ = v.frameSizeOf * v.blockSizeOf blockSize * v.m_nBitsPerPixel
  rw [hlen, hsize, Nat.mul_comm (v.m_frameWidth * v.m_frameHeight), ← Nat.mul_assoc]
  rfl

/-- No call but `alloc` changes the number of pixels of a frame. -/
theorem ensures_frameSize (v : CSimpleVideoBuffer) {call : Call}
    (hcall : ∀ blockSize granted, call ≠ .alloc blockSize granted) :
    Ensures (v.apply call) fun v' ↦ v'.m_frameSize = v.m_frameSize := by
  cases call with
  | setPixelSize nBitsPerPixel => exact .ok rfl
  | setResolution frameWidth frameHeight => exact .ok (by unfold setResolution; split_ifs <;> rfl)
  | setFrameWidth frameWidth => exact .ok (by unfold setFrameWidth; split_ifs <;> rfl)
  | setFrameHeight frameHeight => exact .ok (by unfold setFrameHeight; split_ifs <;> rfl)
  | setFramesPerBlock blockSize => exact .ok (by unfold setFramesPerBlock; split_ifs <;> rfl)
  | alloc blockSize granted => exact absurd rfl (hcall blockSize granted)
  | free => exact .ok (by unfold free; split_ifs <;> rfl)
  | setFrameDataLen nLen nFrame => exact .ok (by unfold setFrameDataLen; split_ifs <;> rfl)
  | clear =>
    refine .ite (fun _ ↦ .ok rfl) fun _ ↦ .bind (ensures_copyTo _ _ _ _) ?_
    rintro v' ⟨buffer, rfl, -⟩
    exact .ok rfl
  | resetReadIndex => exact .ok rfl
  | resetWriteIndex => exact .ok rfl
  | access access => exact (ensures_perform v access).mono fun _ ↦ Keeps.frameSize

/-- The number of a pixel, in the order of the block. -/
def pixelNumber (v : CSimpleVideoBuffer) (frame xPos yPos : ℕ) : ℕ :=
  frame * v.m_frameSize + (yPos * v.m_frameWidth + xPos)

/-- The bytes of a pixel. -/
def pixelOf (v : CSimpleVideoBuffer) (number : ℕ) : List UInt8 :=
  columnOf (v.m_nBitsPerPixel / 8) v.bytes number

/-- The bytes that are copied from a source to a pixel. -/
def valueOf (v : CSimpleVideoBuffer) (source : ℕ → UInt8) : List UInt8 :=
  (List.range (v.m_nBitsPerPixel / 8)).map source

/-- A buffer after a pixel was written. -/
def withPixel (v : CSimpleVideoBuffer) (number : ℕ) (source : ℕ → UInt8) : CSimpleVideoBuffer :=
  let size := v.m_nBitsPerPixel / 8
  { v with
    m_pBuffer := some (v.bytes.take (number * size) ++ v.valueOf source ++
      v.bytes.drop (number * size + size)) }

theorem length_valueOf (v : CSimpleVideoBuffer) (source : ℕ → UInt8) :
    (v.valueOf source).length = v.m_nBitsPerPixel / 8 := by
  rw [valueOf, List.length_map, List.length_range]

/-- A pixel of a frame of the block is a pixel of the block. -/
theorem number_lt {frame index : ℕ} (hframe : frame < v.m_blockSize)
    (hindex : index < v.m_frameSize) :
    frame * v.m_frameSize + index < v.m_frameSize * v.m_blockSize :=
  (mul_add_lt_mul hframe hindex).trans_eq (Nat.mul_comm _ _)

namespace Ready

theorem keeps (h : v.Ready) (hkeeps : v.Keeps v') : v'.Ready where
  sound := h.sound.keeps hkeeps
  current := by
    refine ⟨?_, ?_, ?_⟩
    · rw [hkeeps.bits]
      exact h.current.bits
    · rw [hkeeps.frameSize, hkeeps.frameWidth, hkeeps.frameHeight]
      exact h.current.frameSize
    · rw [hkeeps.bufferLen, hkeeps.frameSize, hkeeps.blockSize, hkeeps.bits]
      exact h.current.bufferLen
  isAllocated := hkeeps.isAllocated.trans h.isAllocated
  pixels := h.pixels.trans_eq hkeeps.frameSize.symm
  frames := h.frames.trans_eq hkeeps.blockSize.symm
  bits := h.bits.trans_eq hkeeps.bits.symm

variable (h : v.Ready)
include h

theorem bits_eq : v.m_nBitsPerPixel = 8 * (v.m_nBitsPerPixel / 8) :=
  (Nat.mul_div_cancel' h.current.bits).symm

theorem size_pos : 1 ≤ v.m_nBitsPerPixel / 8 := by
  have hbits := h.bits
  have heq := h.bits_eq
  omega

/-- The block has the bytes of its pixels. -/
theorem length_bytes :
    v.bytes.length = v.m_nBitsPerPixel / 8 * (v.m_frameSize * v.m_blockSize) := by
  have hlen := h.current.bufferLen
  rw [h.bits_eq, Nat.mul_left_comm] at hlen
  rw [h.sound.length, Nat.mul_comm (v.m_nBitsPerPixel / 8)]
  exact Nat.eq_of_mul_eq_mul_left (by decide) hlen

theorem sizesFit : v.SizesFit := h.current.sizesFit h.sound.bufferLen h.pixels h.frames

theorem pixelSize_eq : v.pixelSize = v.m_nBitsPerPixel / 8 :=
  CSimpleVideoBuffer.pixelSize_eq h.bits_eq h.sizesFit (Nat.mul_pos h.pixels h.frames)

/-- No pixel of the block begins behind the bytes that are counted in 32 bits. -/
theorem mul_size_lt {number : ℕ} (hnumber : number < v.m_frameSize * v.m_blockSize) :
    number * (v.m_nBitsPerPixel / 8) < 2 ^ 32 := by
  have hlt := h.sizesFit.bits_mul_lt hnumber.le
  have hle : number * (v.m_nBitsPerPixel / 8) ≤ number * v.m_nBitsPerPixel :=
    Nat.mul_le_mul_left _ (Nat.div_le_self _ 8)
  omega

/-- A pixel of the block ends in it. -/
theorem end_le {number : ℕ} (hnumber : number < v.m_frameSize * v.m_blockSize) :
    number * (v.m_nBitsPerPixel / 8) + v.m_nBitsPerPixel / 8 ≤ v.bytes.length := by
  rw [h.length_bytes, ← Nat.succ_mul, Nat.mul_comm (v.m_nBitsPerPixel / 8)]
  exact Nat.mul_le_mul_right _ hnumber

theorem not_refuses {frame : ℕ} (hframe : frame < v.m_blockSize) : ¬v.Refuses frame 8 := by
  refine not_refuses_iff.mpr ⟨h.pixels, h.frames, hframe.le, h.isAllocated, ?_⟩
  have hsize := h.size_pos
  omega

/-- A pixel that is given by its index begins at its number. -/
theorem pixelOffset_eq {frame index : ℕ} (hframe : frame < v.m_blockSize)
    (hindex : index < v.m_frameSize) :
    v.pixelOffset frame index = (frame * v.m_frameSize + index) * (v.m_nBitsPerPixel / 8) := by
  rw [h.sound.pixelOffset_eq (hindex.trans h.sound.frameSize),
    indexByte_eq h.bits_eq h.sizesFit h.frames,
    Nat.mod_eq_of_lt (h.mul_size_lt (number_lt hframe hindex))]

/-- The index of a pixel in its frame. -/
theorem index_lt {xPos yPos : ℕ} (hx : xPos < v.m_frameWidth) (hy : yPos < v.m_frameHeight) :
    yPos * v.m_frameWidth + xPos < v.m_frameSize := by
  rw [h.current.frameSize, Nat.mul_comm v.m_frameWidth]
  exact mul_add_lt_mul hy hx

/-- A pixel that is given by its coordinates begins at its number, too. -/
theorem coordinateOffset_eq {frame xPos yPos : ℕ} (hframe : frame < v.m_blockSize)
    (hx : xPos < v.m_frameWidth) (hy : yPos < v.m_frameHeight) :
    v.coordinateOffset frame xPos yPos =
      v.pixelNumber frame xPos yPos * (v.m_nBitsPerPixel / 8) := by
  rw [h.sound.coordinateOffset_eq (hx.trans h.sound.frameWidth),
    coordinateByte_eq h.bits_eq h.sizesFit h.frames,
    Nat.mod_eq_of_lt (h.mul_size_lt (number_lt hframe (h.index_lt hx hy))), pixelNumber]

/-! ### What is copied -/

theorem copyFrom_pixel {number : ℕ} (hnumber : number < v.m_frameSize * v.m_blockSize) :
    v.copyFrom (number * (v.m_nBitsPerPixel / 8)) v.pixelSize = .ok (v.pixelOf number) := by
  have hsize := h.size_pos
  rw [h.pixelSize_eq, copyFrom, if_neg (Nat.ne_of_gt hsize), loadRange, if_pos (h.end_le hnumber)]
  rfl

theorem copyTo_pixel {number : ℕ} (hnumber : number < v.m_frameSize * v.m_blockSize)
    (source : ℕ → UInt8) :
    v.copyTo (number * (v.m_nBitsPerPixel / 8)) v.pixelSize source =
      .ok (v.withPixel number source) := by
  have hsize := h.size_pos
  rw [h.pixelSize_eq, copyTo_of_le source (Nat.ne_of_gt hsize) (h.end_le hnumber)]
  rfl

theorem readPixelAt_eq {index frame : ℕ} (hindex : index < v.m_frameSize)
    (hframe : frame < v.m_blockSize) :
    v.readPixelAt true index frame = .ok (true, v.pixelOf (frame * v.m_frameSize + index)) := by
  have hpixels : toUnsigned (v.m_frameSize * v.m_blockSize) = v.m_frameSize * v.m_blockSize := by
    have hlt := h.sizesFit.bits_mul_lt le_rfl
    have hle := Nat.le_mul_of_pos_right (v.m_frameSize * v.m_blockSize) h.bits
    exact toUnsigned_of_lt (by omega)
  have hchecks : ¬(v.Refuses frame 8 ∨ v.m_frameSize < index) :=
    not_or.mpr ⟨h.not_refuses hframe, hindex.not_gt⟩
  have hinside : ¬toUnsigned (v.m_frameSize * v.m_blockSize) ≤ index := by
    rw [hpixels, not_le]
    exact hindex.trans_le (Nat.le_mul_of_pos_right _ h.frames)
  rw [readPixelAt, if_neg hchecks, if_neg Bool.true_eq_false.mp, if_neg hinside,
    h.pixelOffset_eq hframe hindex, h.copyFrom_pixel (number_lt hframe hindex)]
  rfl

theorem writePixelAt_eq {index frame : ℕ} (hindex : index < v.m_frameSize)
    (hframe : frame < v.m_blockSize) (source : ℕ → UInt8) :
    v.writePixelAt (some source) index frame =
      .ok (true, v.withPixel (frame * v.m_frameSize + index) source) := by
  rw [writePixelAt, if_neg (h.not_refuses hframe), if_neg hindex.not_ge,
    h.pixelOffset_eq hframe hindex, h.copyTo_pixel (number_lt hframe hindex)]
  rfl

theorem getFrame_eq {frame : ℕ} (hframe : frame < v.m_blockSize) :
    v.getFrame true frame = .ok (true, (v.bytes.drop (frame * v.m_frameSize *
      (v.m_nBitsPerPixel / 8))).take (v.m_frameSize * (v.m_nBitsPerPixel / 8))) := by
  have hbytes := bytesPerFrame_eq h.bits_eq h.sizesFit h.frames
  have hfirst : frame * v.m_frameSize < v.m_frameSize * v.m_blockSize :=
    number_lt hframe h.pixels
  have hoffset : v.frameOffset frame = frame * v.m_frameSize * (v.m_nBitsPerPixel / 8) := by
    rw [frameOffset_eq, hbytes, ← Nat.mul_assoc, Nat.mod_eq_of_lt (h.mul_size_lt hfirst)]
  have hsize : v.m_frameSize * (v.m_nBitsPerPixel / 8) ≠ 0 :=
    Nat.ne_of_gt (Nat.mul_pos h.pixels h.size_pos)
  have hinside : frame * v.m_frameSize * (v.m_nBitsPerPixel / 8) +
      v.m_frameSize * (v.m_nBitsPerPixel / 8) ≤ v.bytes.length := by
    rw [h.length_bytes, ← Nat.add_mul, ← Nat.succ_mul, Nat.mul_comm (v.m_nBitsPerPixel / 8),
      Nat.mul_comm v.m_frameSize v.m_blockSize]
    exact Nat.mul_le_mul_right _ (Nat.mul_le_mul_right _ hframe)
  rw [getFrame, if_neg (h.not_refuses hframe), if_neg Bool.true_eq_false.mp, hoffset, hbytes,
    copyFrom, if_neg hsize, loadRange, if_pos hinside]
  rfl

section Coordinates

variable {xPos yPos frame : ℕ} (hx : xPos < v.m_frameWidth) (hy : yPos < v.m_frameHeight)
  (hframe : frame < v.m_blockSize)
include hx hy hframe

theorem pixelNumber_lt : v.pixelNumber frame xPos yPos < v.m_frameSize * v.m_blockSize :=
  number_lt hframe (h.index_lt hx hy)

theorem not_refuses_coordinates :
    ¬(v.Refuses frame 8 ∨ v.m_frameWidth < xPos ∨ v.m_frameHeight < yPos) :=
  not_or.mpr ⟨h.not_refuses hframe, not_or.mpr ⟨hx.not_gt, hy.not_gt⟩⟩

theorem readPixelXY_eq : v.readPixelXY true xPos yPos frame =
    .ok (true, v.pixelOf (v.pixelNumber frame xPos yPos)) := by
  rw [readPixelXY, if_neg (h.not_refuses_coordinates hx hy hframe), if_neg Bool.true_eq_false.mp,
    h.coordinateOffset_eq hframe hx hy, h.copyFrom_pixel (h.pixelNumber_lt hx hy hframe)]
  rfl

theorem writePixelXY_eq (source : ℕ → UInt8) : v.writePixelXY (some source) xPos yPos frame =
    .ok (true, v.withPixel (v.pixelNumber frame xPos yPos) source) := by
  rw [writePixelXY, if_neg (h.not_refuses_coordinates hx hy hframe),
    h.coordinateOffset_eq hframe hx hy, h.copyTo_pixel (h.pixelNumber_lt hx hy hframe)]
  rfl

end Coordinates

/-! ### What a pixel changes -/

section Written

variable {number : ℕ} (hnumber : number < v.m_frameSize * v.m_blockSize) (source : ℕ → UInt8)
include hnumber

theorem withPixel : (v.withPixel number source).Ready := by
  refine h.keeps { Keeps.refl v with length := ?_ }
  have hend := h.end_le hnumber
  show (v.bytes.take _ ++ v.valueOf source ++ v.bytes.drop _).length = v.bytes.length
  rw [List.length_append, List.length_append, List.length_take, List.length_drop, length_valueOf]
  omega

theorem pixelOf_withPixel {number' : ℕ} (hnumber' : number' < v.m_frameSize * v.m_blockSize) :
    (v.withPixel number source).pixelOf number' =
      if number' = number then v.valueOf source else v.pixelOf number' := by
  have hset := columnOf_setColumn h.length_bytes hnumber hnumber' (length_valueOf v source)
  rw [length_valueOf] at hset
  exact hset

end Written

end Ready

/-- What the accesses of a run leave as it was. -/
theorem keeps_run {start : CSimpleVideoBuffer}
    {trace : List (Runs.Call CSimpleVideoBuffer Call Unit)} (hrun : Run Step start trace v)
    (honly : ∀ call ∈ trace, ∃ access, call.label = .access access) : start.Keeps v := by
  refine hrun.invariant start.Keeps (fun call ↦ ∃ access, call = .access access) ?_ honly
    (Keeps.refl start)
  rintro before _ _ after ⟨access, rfl⟩ hkeeps hstep
  exact hkeeps.trans (ensures_perform before access after hstep)

/-- A pixel is read by its coordinates, and by its index. -/
def ReadsPixel (v : CSimpleVideoBuffer) (xPos yPos frame : ℕ) (value : List UInt8) : Prop :=
  v.readPixelXY true xPos yPos frame = .ok (true, value) ∧
    v.readPixelAt true (yPos * v.m_frameWidth + xPos) frame = .ok (true, value)

/-- A pixel is written by its coordinates or by its index, with the same effect. Then it is read,
all other pixels are read as before, and the frame has it at its place. -/
def WritesPixel (v : CSimpleVideoBuffer) (source : ℕ → UInt8) (xPos yPos frame : ℕ) : Prop :=
  ∃ v', v.writePixelXY (some source) xPos yPos frame = .ok (true, v') ∧
    v.writePixelAt (some source) (yPos * v.m_frameWidth + xPos) frame = .ok (true, v') ∧
    v'.ReadsPixel xPos yPos frame (v.valueOf source) ∧
    (∀ xPos' < v.m_frameWidth, ∀ yPos' < v.m_frameHeight, ∀ frame' < v.m_blockSize,
      ¬(xPos' = xPos ∧ yPos' = yPos ∧ frame' = frame) →
        ∃ value, v.ReadsPixel xPos' yPos' frame' value ∧ v'.ReadsPixel xPos' yPos' frame' value) ∧
    ∃ bytes, v'.getFrame true frame = .ok (true, bytes) ∧
      (bytes.drop ((yPos * v.m_frameWidth + xPos) * v.m_nBitsPerPixel / 8)).take
        (v.m_nBitsPerPixel / 8) = v.valueOf source

theorem Ready.readsPixel (h : v.Ready) {xPos yPos frame : ℕ} (hx : xPos < v.m_frameWidth)
    (hy : yPos < v.m_frameHeight) (hframe : frame < v.m_blockSize) :
    v.ReadsPixel xPos yPos frame (v.pixelOf (v.pixelNumber frame xPos yPos)) :=
  ⟨h.readPixelXY_eq hx hy hframe, h.readPixelAt_eq (h.index_lt hx hy) hframe⟩

/-- Pixels with one number have one position. -/
theorem Ready.pixelNumber_inj (h : v.Ready) {xPos yPos frame xPos' yPos' frame' : ℕ}
    (hx : xPos < v.m_frameWidth) (hy : yPos < v.m_frameHeight) (hx' : xPos' < v.m_frameWidth)
    (hy' : yPos' < v.m_frameHeight)
    (hnumber : v.pixelNumber frame' xPos' yPos' = v.pixelNumber frame xPos yPos) :
    xPos' = xPos ∧ yPos' = yPos ∧ frame' = frame := by
  obtain ⟨hframe, hindex⟩ := mul_add_inj (h.index_lt hx' hy') (h.index_lt hx hy) hnumber
  obtain ⟨hrow, hcolumn⟩ := mul_add_inj hx' hx hindex
  exact ⟨hcolumn, hrow, hframe⟩

theorem Ready.writesPixel (h : v.Ready) (source : ℕ → UInt8) {xPos yPos frame : ℕ}
    (hx : xPos < v.m_frameWidth) (hy : yPos < v.m_frameHeight) (hframe : frame < v.m_blockSize) :
    v.WritesPixel source xPos yPos frame := by
  have hindex := h.index_lt hx hy
  have hnumber := h.pixelNumber_lt hx hy hframe
  have hnext := h.withPixel hnumber source
  have hself : (v.withPixel (v.pixelNumber frame xPos yPos) source).pixelOf
      (v.pixelNumber frame xPos yPos) = v.valueOf source := by
    rw [h.pixelOf_withPixel hnumber source hnumber, if_pos rfl]
  refine ⟨_, h.writePixelXY_eq hx hy hframe source, h.writePixelAt_eq hindex hframe source, ?_, ?_,
    _, hnext.getFrame_eq hframe, ?_⟩
  · rw [← hself]
    exact hnext.readsPixel hx hy hframe
  · intro xPos' hx' yPos' hy' frame' hframe' hother
    have hnumber' := h.pixelNumber_lt hx' hy' hframe'
    have hne : v.pixelNumber frame' xPos' yPos' ≠ v.pixelNumber frame xPos yPos :=
      fun heq ↦ hother (h.pixelNumber_inj hx hy hx' hy' heq)
    refine ⟨_, h.readsPixel hx' hy' hframe', ?_⟩
    have hsame := h.pixelOf_withPixel hnumber source hnumber'
    rw [if_neg hne] at hsame
    rw [← hsame]
    exact hnext.readsPixel hx' hy' hframe'
  · have hbyte : (yPos * v.m_frameWidth + xPos) * v.m_nBitsPerPixel / 8 =
        (yPos * v.m_frameWidth + xPos) * (v.m_nBitsPerPixel / 8) :=
      Nat.mul_div_assoc _ h.current.bits
    rw [hbyte]
    exact (columnOf_columns hindex).trans hself

/-- After a first call of `alloc`, for sizes whose bits are less than 2^32 and a pixel size of
whole bytes, and after any accesses to the block, a pixel is written exactly: it is read by its
coordinates and by its index, no other pixel has changed, and the frame has it at its place. -/
theorem pixel_writes_are_exact {frameWidth frameHeight : ℕ} (hwidth : frameWidth < 2 ^ 32)
    (hheight : frameHeight < 2 ^ 32)
    {configuration : List (Runs.Call CSimpleVideoBuffer Call Unit)} {before : CSimpleVideoBuffer}
    (hconfigure : Run Step (new frameWidth frameHeight) configuration before)
    (hwords : ∀ call ∈ configuration, call.label.Words)
    (hfirst : ∀ call ∈ configuration, ∀ blockSize granted, call.label ≠ .alloc blockSize granted)
    {blockSize : ℕ} (hblock : blockSize < 2 ^ 32) {granted : Bool} {fresh : CSimpleVideoBuffer}
    (halloc : before.alloc blockSize granted = (true, fresh)) (hbits : 8 ∣ fresh.m_nBitsPerPixel)
    (hneeded : fresh.bitsNeeded < 2 ^ 32)
    {accesses : List (Runs.Call CSimpleVideoBuffer Call Unit)} {v : CSimpleVideoBuffer}
    (haccess : Run Step fresh accesses v)
    (honly : ∀ call ∈ accesses, ∃ access, call.label = .access access) (source : ℕ → UInt8)
    {xPos yPos frame : ℕ} (hx : xPos < v.m_frameWidth) (hy : yPos < v.m_frameHeight)
    (hframe : frame < v.m_blockSize) : v.WritesPixel source xPos yPos frame := by
  have hsound := sound_run hwidth hheight hconfigure hwords
  have hnew : before.m_frameSize = 0 := by
    refine hconfigure.invariant (fun v ↦ v.m_frameSize = 0)
      (fun call ↦ ∀ blockSize granted, call ≠ .alloc blockSize granted) ?_ hfirst rfl
    intro before call _ after hcall hzero hstep
    exact (ensures_frameSize before hcall after hstep).trans hzero
  have hkeeps := keeps_run haccess honly
  have hcolumns : 0 < fresh.m_frameWidth := hkeeps.frameWidth ▸ Nat.zero_lt_of_lt hx
  have hrows : 0 < fresh.m_frameHeight := hkeeps.frameHeight ▸ Nat.zero_lt_of_lt hy
  have hfresh := ready_of_alloc hsound hnew hblock halloc hbits hneeded hcolumns hrows
  exact (hfresh.keeps hkeeps).writesPixel source hx hy hframe

/-- A pixel of 24 bits, in the last row and column of the last of two frames. -/
theorem pixel_writes_are_exact_last :
    ((((new 0 0).setResolution 2 3).setPixelSize 24).allocated 2).WritesPixel
      UInt8.ofNat 1 2 1 := by
  have hrun : Run Step (new 0 0) [⟨new 0 0, .setResolution 2 3, ()⟩, ⟨_, .setPixelSize 24, ()⟩]
      (((new 0 0).setResolution 2 3).setPixelSize 24) :=
    .cons rfl (.cons rfl (.nil _))
  have halloc : (((new 0 0).setResolution 2 3).setPixelSize 24).alloc 2 true =
      (true, (((new 0 0).setResolution 2 3).setPixelSize 24).allocated 2) := rfl
  refine pixel_writes_are_exact zero_lt_word zero_lt_word hrun (by simp [Call.Words]) (by simp)
    (by decide : 2 < 2 ^ 32) halloc (by decide) (by decide) (.nil _) nofun _ ?_ ?_ ?_
  all_goals decide

end RdbLibs.Buffer.CSimpleVideoBuffer
