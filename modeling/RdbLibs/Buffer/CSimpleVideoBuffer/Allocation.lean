import RdbLibs.Buffer.CSimpleVideoBuffer.Calls

/-!
# What a video buffer allocates

`alloc` computes the number of pixels of a frame only where there is none yet, and `free` keeps it,
so that a resolution that was set in between is not allocated for. It computes the number of bytes
in 32 bits and rounds it down. So it allocates what the resolution needs exactly when the number of
pixels is not an old one, and the bits of all frames have no overflow and are whole bytes
(`allocates_enough_iff`).
-/

set_option autoImplicit false
set_option relaxedAutoImplicit false

namespace RdbLibs.Buffer.CSimpleVideoBuffer

open MachineWord Runs

/-- The number of bits that the sizes of a buffer need. -/
def bitsNeeded (v : CSimpleVideoBuffer) : ℕ :=
  v.m_blockSize * v.m_frameWidth * v.m_frameHeight * v.m_nBitsPerPixel

/-- A call of `alloc` that returns `true`, with a positive resolution, has allocated the bytes that
the sizes need, rounded up, and a frame has the pixels of the resolution. -/
def AllocatesEnough (v : CSimpleVideoBuffer) (blockSize : ℕ) (granted : Bool) : Prop :=
  ∀ v', v.alloc blockSize granted = (true, v') → 0 < v'.m_frameWidth → 0 < v'.m_frameHeight →
    (v'.bitsNeeded + 7) / 8 ≤ v'.m_nBufferLen ∧
      v'.getFrameLength = v'.m_frameWidth * v'.m_frameHeight

/-- Where memory for a positive number of frames, of pixels and of bits is found, the number of
pixels is new or that of the resolution, and the bits have no overflow and are whole bytes. -/
def NeedsFit (v : CSimpleVideoBuffer) (blockSize : ℕ) (granted : Bool) : Prop :=
  granted = true → 1 ≤ v.blockSizeOf blockSize → 1 ≤ v.m_nBitsPerPixel → 1 ≤ v.frameSizeOf →
    0 < v.m_frameWidth → 0 < v.m_frameHeight →
      (v.m_frameSize = 0 ∨ v.m_frameSize = v.m_frameWidth * v.m_frameHeight) ∧
        { v with m_blockSize := v.blockSizeOf blockSize }.bitsNeeded < 2 ^ 32 ∧
          8 ∣ { v with m_blockSize := v.blockSizeOf blockSize }.bitsNeeded

variable {v v' : CSimpleVideoBuffer} {blockSize : ℕ} {granted : Bool}

/-- A buffer with the sizes that `alloc` goes on with. -/
def sized (v : CSimpleVideoBuffer) (blockSize : ℕ) : CSimpleVideoBuffer :=
  { v with m_blockSize := v.blockSizeOf blockSize, m_frameSize := v.frameSizeOf }

/-- A buffer after `alloc` has returned `true`. -/
def allocated (v : CSimpleVideoBuffer) (blockSize : ℕ) : CSimpleVideoBuffer :=
  { (v.sized blockSize).resetFrameLen with
    m_pBuffer := some (List.replicate (v.sized blockSize).bufferSizeInBytes 0)
    m_nBufferLen := (v.sized blockSize).bufferSizeInBytes
    m_bAllocated := true }

theorem alloc_eq_true_iff : v.alloc blockSize granted = (true, v') ↔
    (granted = true ∧ 1 ≤ v.blockSizeOf blockSize ∧ 1 ≤ v.m_nBitsPerPixel ∧ 1 ≤ v.frameSizeOf) ∧
      v' = v.allocated blockSize := by
  have hframeSize : ({ v with m_blockSize := v.blockSizeOf blockSize } :
      CSimpleVideoBuffer).frameSizeOf = v.frameSizeOf := rfl
  unfold alloc
  dsimp only
  rw [hframeSize]
  split_ifs with hframes hpixels hgranted
  · exact iff_of_false nofun fun h ↦ by omega
  · exact iff_of_false nofun fun h ↦ by omega
  · constructor
    · intro h
      exact ⟨⟨hgranted, by omega, by omega, by omega⟩, (Prod.ext_iff.mp h).2.symm⟩
    · rintro ⟨-, rfl⟩
      rfl
  · exact iff_of_false nofun fun h ↦ hgranted h.1.1

/-- The number of bytes, in 32 bits. -/
theorem bufferSizeInBytes_eq (v : CSimpleVideoBuffer) :
    v.bufferSizeInBytes = v.m_frameSize * v.m_blockSize * v.m_nBitsPerPixel % 2 ^ 32 / 8 := by
  rw [bufferSizeInBytes, toUnsigned, toUnsigned, Nat.mod_mul_mod]

/-- Where a resolution is positive, the number of pixels that `alloc` goes on with is the old one,
or that of the resolution in 32 bits. -/
theorem frameSizeOf_of_pos (hwidth : 0 < v.m_frameWidth) (hheight : 0 < v.m_frameHeight) :
    v.frameSizeOf = if v.m_frameSize = 0 then v.m_frameWidth * v.m_frameHeight % 2 ^ 32
      else v.m_frameSize := by
  rw [frameSizeOf, if_pos ⟨hwidth, hheight⟩]
  simp only [Nat.lt_one_iff]
  rfl

/-- Rounded up, what is needed is at most what is allocated, rounded down and in 32 bits, exactly
when there is nothing to round and no overflow. -/
theorem ceil_le_floor_mod_iff {needed : ℕ} :
    (needed + 7) / 8 ≤ needed % 2 ^ 32 / 8 ↔ needed < 2 ^ 32 ∧ 8 ∣ needed := by
  omega

/-- What a frame of the resolution needs, for all frames. -/
theorem bufferLen_allocated (hpixels : v.frameSizeOf = v.m_frameWidth * v.m_frameHeight) :
    (v.allocated blockSize).m_nBufferLen =
      (v.allocated blockSize).bitsNeeded % 2 ^ 32 / 8 := by
  have hbits : v.frameSizeOf * v.blockSizeOf blockSize * v.m_nBitsPerPixel =
      v.blockSizeOf blockSize * v.m_frameWidth * v.m_frameHeight * v.m_nBitsPerPixel := by
    rw [hpixels, Nat.mul_comm (v.m_frameWidth * v.m_frameHeight), Nat.mul_assoc _ v.m_frameWidth]
  exact (bufferSizeInBytes_eq _).trans (congrArg (· % 2 ^ 32 / 8) hbits)

theorem allocatesEnough_iff :
    v.AllocatesEnough blockSize granted ↔ v.NeedsFit blockSize granted := by
  unfold AllocatesEnough NeedsFit
  simp only [alloc_eq_true_iff]
  constructor
  · intro h hgranted hframes hbits hpixels hwidth hheight
    obtain ⟨hbytes, hlength⟩ := h _ ⟨⟨hgranted, hframes, hbits, hpixels⟩, rfl⟩ hwidth hheight
    have hresolution : v.frameSizeOf = v.m_frameWidth * v.m_frameHeight := hlength
    rw [bufferLen_allocated hresolution] at hbytes
    refine ⟨?_, ceil_le_floor_mod_iff.mp hbytes⟩
    rw [frameSizeOf_of_pos hwidth hheight] at hresolution
    split_ifs at hresolution with hzero
    · exact .inl hzero
    · exact .inr hresolution
  · rintro h v' ⟨⟨hgranted, hframes, hbits, hpixels⟩, rfl⟩ hwidth hheight
    obtain ⟨hsize, hneeded⟩ := h hgranted hframes hbits hpixels hwidth hheight
    have hresolution : v.frameSizeOf = v.m_frameWidth * v.m_frameHeight := by
      have hle : v.m_frameWidth * v.m_frameHeight ≤
          v.blockSizeOf blockSize * v.m_frameWidth * v.m_frameHeight * v.m_nBitsPerPixel := by
        rw [Nat.mul_assoc (v.blockSizeOf blockSize)]
        exact (Nat.le_mul_of_pos_left _ hframes).trans (Nat.le_mul_of_pos_right _ hbits)
      rw [frameSizeOf_of_pos (v := v) hwidth hheight]
      split_ifs with hzero
      · exact Nat.mod_eq_of_lt (hle.trans_lt hneeded.1)
      · exact hsize.resolve_left hzero
    refine ⟨?_, hresolution⟩
    rw [bufferLen_allocated hresolution]
    exact ceil_le_floor_mod_iff.mpr hneeded

/-- A call of a run that is a call of `alloc` has a property. -/
def OfAlloc (P : CSimpleVideoBuffer → ℕ → Bool → Prop)
    (call : Runs.Call CSimpleVideoBuffer Call Unit) : Prop :=
  ∀ blockSize granted, call.label = .alloc blockSize granted → P call.before blockSize granted

/-- In a run, all calls of `alloc` that return `true` allocate what a positive resolution needs
exactly when all of them meet the condition. -/
theorem allocates_enough_iff (frameWidth frameHeight : ℕ) :
    ∀ trace v, Run Step (new frameWidth frameHeight) trace v →
      ((∀ call ∈ trace, OfAlloc AllocatesEnough call) ↔ ∀ call ∈ trace, OfAlloc NeedsFit call) := by
  intro trace v _
  simp only [OfAlloc, allocatesEnough_iff]

/-- A resolution that is set before the first block. -/
theorem allocates_enough_iff_first :
    AllocatesEnough (((new 0 0).setResolution 2 3).setPixelSize 24) 2 true := by
  have hrun : Run Step (new 0 0) [⟨new 0 0, .setResolution 2 3, ()⟩, ⟨_, .setPixelSize 24, ()⟩,
      ⟨((new 0 0).setResolution 2 3).setPixelSize 24, .alloc 2 true, ()⟩] _ :=
    .cons rfl (.cons rfl (.cons rfl (.nil _)))
  refine (allocates_enough_iff 0 0 _ _ hrun).mpr ?_
    ⟨((new 0 0).setResolution 2 3).setPixelSize 24, .alloc 2 true, ()⟩
    (List.mem_cons_of_mem _ (List.mem_cons_of_mem _ List.mem_cons_self)) 2 true rfl
  intro call hcall blockSize granted hlabel
  simp only [List.mem_cons, List.not_mem_nil, or_false] at hcall
  obtain rfl | rfl | rfl := hcall
  · cases hlabel
  · cases hlabel
  · cases hlabel
    exact fun _ _ _ _ _ _ ↦ ⟨.inl rfl, by decide, by decide⟩

/-- After `free`, a second resolution is not allocated for. -/
theorem not_allocates_enough :
    ∃ trace v v', Run Step (new 0 0) trace v ∧ trace.map Runs.Call.label =
      [.setPixelSize 8, .setResolution 1 1, .alloc 0 true, .free, .setResolution 2 1] ∧
        v.alloc 0 true = (true, v') ∧ v'.m_nBufferLen = 1 ∧ v'.getFrameLength = 1 ∧
          ¬v.AllocatesEnough 0 true := by
  refine ⟨[⟨new 0 0, .setPixelSize 8, ()⟩, ⟨_, .setResolution 1 1, ()⟩, ⟨_, .alloc 0 true, ()⟩,
    ⟨_, .free, ()⟩, ⟨_, .setResolution 2 1, ()⟩], _, _,
    .cons rfl (.cons rfl (.cons rfl (.cons rfl (.cons rfl (.nil _))))), rfl, rfl, rfl, rfl, ?_⟩
  intro h
  exact absurd (h _ rfl (by decide) (by decide)).2 (by decide)

end RdbLibs.Buffer.CSimpleVideoBuffer
