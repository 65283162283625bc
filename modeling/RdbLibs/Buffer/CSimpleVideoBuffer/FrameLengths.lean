import RdbLibs.Buffer.CSimpleVideoBuffer.AccessBounds

/-!
# The lengths of the frames

`m_frameDataLen` has a length for each frame, which `setFrame` stores without a check.
`setFramesPerBlock` changes the number of frames with the number of lengths, and `alloc` changes
only the number of frames. So a buffer has one length for each frame in all states of a run exactly
when no call of `alloc` gives a number of frames but the one that is there (`frame_lengths_iff`).
-/

set_option autoImplicit false
set_option relaxedAutoImplicit false

namespace RdbLibs.Buffer.CSimpleVideoBuffer

open CheckedMemory Runs

/-- There is one length for each frame. -/
def HasLengths (v : CSimpleVideoBuffer) : Prop := v.m_frameDataLen.length = v.m_blockSize

/-- Where `setFrame` copies a frame of the block, it stores the number of its bytes, and
`getFrameDataLen` answers it. -/
def StoresLengths (v : CSimpleVideoBuffer) : Prop :=
  ∀ (source : ℕ → UInt8) (frame : ℕ), frame < v.m_blockSize →
    ¬v.Refused (.setFrame (some source) frame) → v.StaysInside (.setFrame (some source) frame) →
      ∃ v', v.setFrame (some source) frame = .ok (true, v') ∧
        v'.getFrameDataLen frame = v.bytesPerFrame

variable {v v' : CSimpleVideoBuffer}

theorem HasLengths.storesLengths (h : v.HasLengths) : v.StoresLengths := by
  intro source frame hframe hrefused hinside
  have hnot : ¬v.Refuses frame 8 := fun hr ↦ hrefused (.inl hr)
  have hcopy : v.copyTo (v.frameOffset frame) v.bytesPerFrame source ≠ .error .outsideBuffer := by
    intro hfault
    apply hinside
    rw [perform, map_eq_error_iff, setFrame, if_neg hnot, hfault, error_bind]
  obtain ⟨buffer, hbuffer⟩ := exists_copyTo hcopy
  have hlt : frame < v.m_frameDataLen.length := hframe.trans_eq h.symm
  refine ⟨{ v with
    m_pBuffer := buffer, m_frameDataLen := v.m_frameDataLen.set frame v.bytesPerFrame }, ?_, ?_⟩
  · rw [setFrame, if_neg hnot, hbuffer, ok_bind, store_of_lt hlt]
    rfl
  · have hlength : frame < (v.m_frameDataLen.set frame v.bytesPerFrame).length := by
      rwa [List.length_set]
    rw [getFrameDataLen, if_pos hlength, List.getD_eq_getElem?_getD, List.getElem?_set_self hlt,
      Option.getD_some]

/-- The lengths belong to the frames, and are stored and answered. -/
def KeepsLengths (v : CSimpleVideoBuffer) : Prop := v.HasLengths ∧ v.StoresLengths

theorem keepsLengths_iff : v.KeepsLengths ↔ v.HasLengths :=
  and_iff_left_of_imp HasLengths.storesLengths

/-- A call of `alloc` gives no number of frames, or the one that is there. -/
def KeepsBlockSize (call : Runs.Call CSimpleVideoBuffer Call Unit) : Prop :=
  match call.label with
  | .alloc blockSize _ => blockSize = 0 ∨ blockSize = call.before.m_blockSize
  | _ => True

theorem hasLengths_alloc_iff (h : v.HasLengths) (blockSize : ℕ) (granted : Bool) :
    (v.alloc blockSize granted).2.HasLengths ↔ blockSize = 0 ∨ blockSize = v.m_blockSize := by
  have hsizes : (v.alloc blockSize granted).2.m_blockSize = v.blockSizeOf blockSize ∧
      (v.alloc blockSize granted).2.m_frameDataLen.length = v.m_blockSize := by
    unfold alloc
    dsimp only
    split_ifs
    · exact ⟨rfl, h⟩
    · exact ⟨rfl, h⟩
    · exact ⟨rfl, (List.length_map _).trans h⟩
    · exact ⟨rfl, h⟩
  rw [HasLengths, hsizes.1, hsizes.2, blockSizeOf]
  split_ifs with hpos <;> omega

/-- A call that keeps the number of frames keeps the number of lengths with it. -/
theorem HasLengths.ensures_apply (h : v.HasLengths) {call : Call}
    (hcall : KeepsBlockSize ⟨v, call, ()⟩) : Ensures (v.apply call) HasLengths := by
  cases call with
  | setPixelSize nBitsPerPixel => exact .ok h
  | setResolution frameWidth frameHeight =>
    refine .ok ?_
    unfold setResolution
    split_ifs <;> exact h
  | setFrameWidth frameWidth =>
    refine .ok ?_
    unfold setFrameWidth
    split_ifs <;> exact h
  | setFrameHeight frameHeight =>
    refine .ok ?_
    unfold setFrameHeight
    split_ifs <;> exact h
  | setFramesPerBlock blockSize =>
    refine .ok ?_
    unfold setFramesPerBlock
    split_ifs
    · exact h
    · exact List.length_replicate
  | alloc blockSize granted => exact .ok ((hasLengths_alloc_iff h blockSize granted).mpr hcall)
  | free =>
    refine .ok ?_
    unfold free
    split_ifs
    · exact h
    · exact (List.length_map _).trans h
  | setFrameDataLen nLen nFrame =>
    refine .ok ?_
    unfold setFrameDataLen
    split_ifs
    · exact List.length_set.trans h
    · exact h
  | clear =>
    refine .ite (fun _ ↦ .ok h) fun _ ↦ .bind (ensures_copyTo _ _ _ _) ?_
    rintro v' ⟨buffer, rfl, -⟩
    exact .ok ((List.length_map _).trans h)
  | resetReadIndex => exact .ok h
  | resetWriteIndex => exact .ok h
  | access access =>
    exact (ensures_perform v access).mono fun v' hkeeps ↦
      hkeeps.lengths.trans (h.trans hkeeps.blockSize.symm)

/-- What one call does to the number of lengths. -/
theorem HasLengths.step_iff (h : v.HasLengths) {call : Call} (hstep : v.apply call = .ok v') :
    v'.HasLengths ↔ KeepsBlockSize ⟨v, call, ()⟩ := by
  refine ⟨fun h' ↦ ?_, fun hcall ↦ h.ensures_apply hcall v' hstep⟩
  cases call with
  | alloc blockSize granted =>
    obtain rfl := Except.ok.inj hstep
    exact (hasLengths_alloc_iff h blockSize granted).mp h'
  | _ => trivial

/-- In all states of a run there is one length for each frame, which `setFrame` stores and
`getFrameDataLen` answers, exactly when no call of `alloc` changes the number of frames. -/
theorem frame_lengths_iff {frameWidth frameHeight : ℕ}
    {trace : List (Runs.Call CSimpleVideoBuffer Call Unit)} {v : CSimpleVideoBuffer}
    (hrun : Run Step (new frameWidth frameHeight) trace v) :
    (∀ call ∈ trace, call.before.KeepsLengths) ∧ v.KeepsLengths ↔
      ∀ call ∈ trace, KeepsBlockSize call := by
  simp only [keepsLengths_iff]
  exact hrun.good_iff (fun _ ↦ True) HasLengths (fun _ _ _ _ _ _ ↦ trivial)
    (fun _ _ _ _ _ h hstep ↦ h.step_iff hstep) trivial rfl

/-- Two frames are set before the block is allocated. -/
theorem frame_lengths_iff_two :
    ∃ v, (∃ trace, Run Step (new 0 0) trace v ∧ trace.map Runs.Call.label =
      [.setResolution 1 1, .setPixelSize 8, .setFramesPerBlock 2, .alloc 2 true]) ∧
        v.KeepsLengths := by
  have hrun : Run Step (new 0 0) [⟨new 0 0, .setResolution 1 1, ()⟩, ⟨_, .setPixelSize 8, ()⟩,
      ⟨_, .setFramesPerBlock 2, ()⟩, ⟨_, .alloc 2 true, ()⟩] _ :=
    .cons rfl (.cons rfl (.cons rfl (.cons rfl (.nil _))))
  refine ⟨_, ⟨_, hrun, rfl⟩, ((frame_lengths_iff hrun).mpr ?_).2⟩
  simp [KeepsBlockSize, setFramesPerBlock, setPixelSize, setResolution, new]

/-- A block of two frames is allocated with the one length of the constructor, and the second frame
stores its length behind it. -/
theorem not_frame_lengths :
    ∃ trace v, Run Step (new 0 0) trace v ∧ trace.map Runs.Call.label =
      [.setResolution 1 1, .setPixelSize 8, .alloc 2 true] ∧ ¬v.HasLengths ∧
        v.setFrame (some fun _ ↦ 7) 1 = .error .outsideLengths :=
  ⟨[⟨new 0 0, .setResolution 1 1, ()⟩, ⟨_, .setPixelSize 8, ()⟩, ⟨_, .alloc 2 true, ()⟩], _,
    .cons rfl (.cons rfl (.cons rfl (.nil _))), rfl, by rw [HasLengths]; decide, rfl⟩

end RdbLibs.Buffer.CSimpleVideoBuffer
