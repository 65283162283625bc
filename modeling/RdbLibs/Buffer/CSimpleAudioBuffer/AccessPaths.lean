import RdbLibs.Buffer.CSimpleAudioBuffer.Layouts

/-!
# The ways to a sample

An allocated `CSimpleAudioBuffer` gives its samples by channel and frame, by their index, by
pointers to a frame or a channel, and a frame at a time. Each function computes the cell for
itself. All are shown to reach the cell of the layout.
-/

set_option autoImplicit false
set_option relaxedAutoImplicit false

namespace RdbLibs.Buffer.CSimpleAudioBuffer

open CheckedMemory GridLayout MachineWord

variable {T : Type*}

/-- The buffer is allocated, with any contents. -/
structure Allocated (b : CSimpleAudioBuffer T) : Prop where
  arraySize : b.m_arraySize = b.m_numChls * b.m_blockSize
  allocated : b.m_bAllocated = true
  block : ∃ cells, b.m_pBuffer = some cells ∧ cells.length = b.m_numChls * b.m_blockSize

theorem Allocated.exists_stores [Zero T] {b : CSimpleAudioBuffer T} (h : b.Allocated)
    (hfits : b.m_numChls * b.m_blockSize < 2 ^ 32) : ∃ grid, b.Stores grid := by
  obtain ⟨cells, hcells, hlength⟩ := h.block
  exact ⟨_, hfits, h.arraySize, h.allocated, cells, hcells, holds_getD _ hlength 0⟩

namespace Stores

variable {b : CSimpleAudioBuffer T} {grid : ℕ → ℕ → T} (h : b.Stores grid) {chan frame : ℕ}
include h

/-- `readSample` answers what is in the cell with the index. -/
theorem readSample_eq [Zero T] (hchan : chan < b.m_numChls) (hframe : frame < b.m_blockSize) :
    b.readSample ((layout b.m_bInterleaved b.m_numChls b.m_blockSize).cell chan frame) =
      .ok (grid chan frame) := by
  obtain ⟨cells, hcells, hholds⟩ := h.holds
  have hlt := h.offset_lt hchan hframe
  rw [h.offset_eq hchan hframe] at hlt
  rw [readSample, if_neg (by simp [h.allocated]), if_neg (not_le.mpr hlt), CSimpleAudioBuffer.block,
    hcells, ok_bind, load, hholds.entry hchan hframe]

/-- A pointer to the start of a frame or a channel leads to its samples. -/
theorem pointed_eq (hchan : chan < b.m_numChls) (hframe : frame < b.m_blockSize)
    {start index : ℕ} (hstart : start + index =
      (layout b.m_bInterleaved b.m_numChls b.m_blockSize).cell chan frame) :
    toUnsigned start < b.m_arraySize ∧ b.pointed (some (toUnsigned start)) index =
      .ok (grid chan frame) := by
  obtain ⟨cells, hcells, hholds⟩ := h.holds
  have hlt := h.offset_lt hchan hframe
  rw [h.offset_eq hchan hframe, ← hstart] at hlt
  have hword : toUnsigned start = start := by
    refine toUnsigned_of_lt ?_
    have hfits := h.fits
    rw [← h.arraySize] at hfits
    omega
  rw [hword]
  refine ⟨by omega, ?_⟩
  rw [pointed, CSimpleAudioBuffer.block, hcells, ok_bind, hstart, load, hholds.entry hchan hframe]

theorem getDataPtr_interleaved (hinterleaved : b.m_bInterleaved = true)
    (hchan : chan < b.m_numChls) (hframe : frame < b.m_blockSize) :
    b.pointed (b.getDataPtr frame) chan = .ok (grid chan frame) := by
  obtain ⟨hlt, hpointed⟩ := h.pointed_eq hchan hframe
    (show frame * b.m_numChls + chan = _ by rw [hinterleaved]; rfl)
  unfold getDataPtr
  rwa [if_pos hinterleaved, if_neg (not_le.mpr hlt)]

theorem getFramePtr_interleaved (hinterleaved : b.m_bInterleaved = true)
    (hchan : chan < b.m_numChls) (hframe : frame < b.m_blockSize) :
    b.pointed (b.getFramePtr frame) chan = .ok (grid chan frame) := by
  obtain ⟨hlt, hpointed⟩ := h.pointed_eq hchan hframe
    (show frame * b.m_numChls + chan = _ by rw [hinterleaved]; rfl)
  unfold getFramePtr
  rwa [if_neg (by simp [h.allocated]), if_neg (by simp [hinterleaved]),
    if_neg (not_le.mpr hframe), if_neg (not_le.mpr hlt)]

theorem getDataPtr_planar (hplanar : b.m_bInterleaved = false) (hchan : chan < b.m_numChls)
    (hframe : frame < b.m_blockSize) :
    b.pointed (b.getDataPtr chan) frame = .ok (grid chan frame) := by
  obtain ⟨hlt, hpointed⟩ := h.pointed_eq hchan hframe
    (show chan * b.m_blockSize + frame = _ by rw [hplanar]; rfl)
  have hfalse : ¬b.m_bInterleaved = true := by simp [hplanar]
  unfold getDataPtr
  rwa [if_neg hfalse, if_neg (not_le.mpr hlt)]

theorem getChannelPtr_planar (hplanar : b.m_bInterleaved = false) (hchan : chan < b.m_numChls)
    (hframe : frame < b.m_blockSize) :
    b.pointed (b.getChannelPtr chan) frame = .ok (grid chan frame) := by
  obtain ⟨hlt, hpointed⟩ := h.pointed_eq hchan hframe
    (show chan * b.m_blockSize + frame = _ by rw [hplanar]; rfl)
  unfold getChannelPtr
  rwa [if_neg (by simp [h.allocated]), if_neg (by simp [hplanar]),
    if_neg (not_le.mpr hchan), if_neg (not_le.mpr hlt)]

/-! ### Frames -/

section Frames

variable (hinterleaved : b.m_bInterleaved = true) (hframe : frame < b.m_blockSize)
include hinterleaved hframe

/-- The cells of an interleaved buffer, and the place of a frame in them. -/
theorem exists_cells :
    ∃ cells, b.m_pBuffer = some cells ∧
      Holds (columnMajor b.m_numChls b.m_blockSize) cells grid ∧
      toUnsigned (frame * b.m_numChls) = frame * b.m_numChls ∧
      frame * b.m_numChls + b.m_numChls ≤ cells.length := by
  obtain ⟨cells, hcells, hholds⟩ := h.holds
  rw [layout, if_pos hinterleaved] at hholds
  have hend := hholds.column_end_le hframe
  refine ⟨cells, hcells, hholds, toUnsigned_of_lt ?_, hend⟩
  exact (Nat.le_of_add_right_le hend).trans_lt (hholds.length.trans_lt h.fits)

/-- `readSampleFrame` copies the samples of a frame. -/
theorem exists_readSampleFrame {buf : List T} (hbuf : b.m_numChls ≤ buf.length) :
    ∃ buf', b.readSampleFrame buf frame = .ok (b.m_numChls, buf') ∧
      ∀ chan < b.m_numChls, buf'[chan]? = some (grid chan frame) := by
  obtain ⟨cells, hcells, hholds, hword, hend⟩ := h.exists_cells hinterleaved hframe
  have hlength : ((cells.drop (frame * b.m_numChls)).take b.m_numChls).length = b.m_numChls := by
    rw [List.length_take, List.length_drop]
    omega
  refine ⟨(cells.drop (frame * b.m_numChls)).take b.m_numChls ++ buf.drop b.m_numChls, ?_, ?_⟩
  · rw [readSampleFrame, if_neg (by simp [h.allocated]), if_neg (by simp [hinterleaved]),
      if_neg (not_le.mpr hframe), CSimpleAudioBuffer.block, hcells, hword, ok_bind, loadRange,
      if_pos hend, ok_bind, storeRange, hlength, Nat.zero_add, if_pos hbuf]
    rfl
  · intro chan hchan
    rw [List.getElem?_append_left (by rwa [hlength])]
    exact hholds.getElem?_column hframe hchan

/-- `writeSampleFrame` stores the samples of a frame. -/
theorem exists_writeSampleFrame {buf : List T} (hbuf : b.m_numChls ≤ buf.length) :
    ∃ b', b.writeSampleFrame buf frame = .ok (b.m_numChls, b') ∧
      b'.m_numChls = b.m_numChls ∧ b'.m_blockSize = b.m_blockSize ∧
      b'.Stores fun chan frame' ↦ if frame' = frame then buf.getD chan (grid chan frame')
        else grid chan frame' := by
  obtain ⟨cells, hcells, hholds, hword, hend⟩ := h.exists_cells hinterleaved hframe
  have hlength : (buf.take b.m_numChls).length = b.m_numChls := List.length_take_of_le hbuf
  have hset := hholds.setColumn hframe hlength
  rw [hlength] at hset
  refine ⟨{ b with m_pBuffer := some (cells.take (frame * b.m_numChls) ++ buf.take b.m_numChls ++
    cells.drop (frame * b.m_numChls + b.m_numChls)) }, ?_, rfl, rfl, h.fits, h.arraySize,
    h.allocated, _, rfl, ?_⟩
  · rw [writeSampleFrame, if_neg (by simp [h.allocated]), if_neg (by simp [hinterleaved]),
      if_neg (not_le.mpr hframe), loadRange, Nat.zero_add, if_pos hbuf, ok_bind,
      CSimpleAudioBuffer.block, hcells, hword, ok_bind, List.drop_zero, storeRange, hlength,
      if_pos hend]
    rfl
  · dsimp only
    rw [layout, if_pos hinterleaved]
    refine ⟨hset.length, fun {chan frame'} hchan hframe' ↦ (hset.entry hchan hframe').trans ?_⟩
    rw [List.getD_eq_getElem?_getD, List.getElem?_take_of_lt hchan, ← List.getD_eq_getElem?_getD]

end Frames

end Stores

/-- Assumes: an allocated buffer with any contents, whose number of samples is an `unsigned int`,
and a channel and a frame of it. All functions answer the same sample. In an interleaved buffer
these are `getSample`, `readSample`, `getFramePtr`, `getDataPtr` and `readSampleFrame`; and after
`writeSampleFrame` the frame has the samples that were written, and every other frame has its own.
In the other layout they are `getSample`, `readSample`, `getChannelPtr` and `getDataPtr`. -/
theorem access_paths_agree [Zero T] {b : CSimpleAudioBuffer T} (h : b.Allocated)
    (hfits : b.m_numChls * b.m_blockSize < 2 ^ 32) {chan frame : ℕ} (hchan : chan < b.m_numChls)
    (hframe : frame < b.m_blockSize) :
    ∃ sample, b.getSample chan frame = .ok sample ∧
      (b.m_bInterleaved = true →
        b.readSample (frame * b.m_numChls + chan) = .ok sample ∧
        b.pointed (b.getFramePtr frame) chan = .ok sample ∧
        b.pointed (b.getDataPtr frame) chan = .ok sample ∧
        ∀ buf : List T, b.m_numChls ≤ buf.length →
          (∃ buf', b.readSampleFrame buf frame = .ok (b.m_numChls, buf') ∧
            buf'[chan]? = some sample) ∧
          ∃ b', b.writeSampleFrame buf frame = .ok (b.m_numChls, b') ∧
            (∀ sample', buf[chan]? = some sample' → b'.getSample chan frame = .ok sample') ∧
            ∀ chan' < b.m_numChls, ∀ frame' < b.m_blockSize, frame' ≠ frame →
              b'.getSample chan' frame' = b.getSample chan' frame') ∧
      (b.m_bInterleaved = false →
        b.readSample (chan * b.m_blockSize + frame) = .ok sample ∧
        b.pointed (b.getChannelPtr chan) frame = .ok sample ∧
        b.pointed (b.getDataPtr chan) frame = .ok sample) := by
  obtain ⟨grid, hstores⟩ := h.exists_stores hfits
  have hread := hstores.readSample_eq hchan hframe
  refine ⟨grid chan frame, hstores.getSample_eq hchan hframe, fun hinterleaved ↦ ?_,
    fun hplanar ↦ ?_⟩
  · rw [hinterleaved] at hread
    refine ⟨hread, hstores.getFramePtr_interleaved hinterleaved hchan hframe,
      hstores.getDataPtr_interleaved hinterleaved hchan hframe, fun buf hbuf ↦ ⟨?_, ?_⟩⟩
    · obtain ⟨buf', hcopied, hentries⟩ :=
        hstores.exists_readSampleFrame hinterleaved hframe hbuf
      exact ⟨buf', hcopied, hentries chan hchan⟩
    · obtain ⟨b', hwritten, hchannels, hblock, hstores'⟩ :=
        hstores.exists_writeSampleFrame hinterleaved hframe hbuf
      refine ⟨b', hwritten, fun sample' hsample' ↦ ?_, fun chan' hchan' frame' hframe' hne ↦ ?_⟩
      · rw [hstores'.getSample_eq (hchan.trans_eq hchannels.symm) (hframe.trans_eq hblock.symm),
          if_pos rfl, List.getD_eq_getElem?_getD, hsample', Option.getD_some]
      · rw [hstores'.getSample_eq (hchan'.trans_eq hchannels.symm) (hframe'.trans_eq hblock.symm),
          if_neg hne, hstores.getSample_eq hchan' hframe']
  · rw [hplanar] at hread
    exact ⟨hread, hstores.getChannelPtr_planar hplanar hchan hframe,
      hstores.getDataPtr_planar hplanar hchan hframe⟩

theorem access_paths_agree_interleaved :
    ∃ sample, (⟨2, 2, 4, 0, 0, true, true, some [3, 5, 7, 9]⟩ :
        CSimpleAudioBuffer ℕ).getSample 0 1 = .ok sample ∧ sample = 7 ∧
      (⟨2, 2, 4, 0, 0, true, true, some [3, 5, 7, 9]⟩ :
        CSimpleAudioBuffer ℕ).readSample 2 = .ok sample := by
  obtain ⟨sample, hsample, hinterleaved, -⟩ := access_paths_agree
    (b := (⟨2, 2, 4, 0, 0, true, true, some [3, 5, 7, 9]⟩ : CSimpleAudioBuffer ℕ))
    ⟨rfl, rfl, _, rfl, rfl⟩ (by decide) (by decide : 0 < 2) (by decide : 1 < 2)
  exact ⟨sample, hsample, (Except.ok.inj hsample).symm, (hinterleaved rfl).1⟩

end RdbLibs.Buffer.CSimpleAudioBuffer
