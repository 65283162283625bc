import RdbLibs.FileIO.CWavFileIO.StoredFrames

/-!
# Positions in a WAV file

The current frame is the only position that an object has in its samples. `readBlock` has its frames
from there to the end of the file, and goes on at the beginning if it reads in a loop.
-/

set_option autoImplicit false
set_option relaxedAutoImplicit false

namespace RdbLibs.FileIO.CWavFileIO

open CheckedMemory MachineWord

variable {α : Type} {conv : SampleConversion α} {s : CWavFileIO α} {F frame numFrames : ℕ}

/-- The object has `F` frames of samples, and is at one of them, or behind the last one. -/
structure AtFrame (F frame : ℕ) (s : CWavFileIO α) : Prop where
  mode : s.m_eMode ≠ .output
  someChannels : 1 ≤ s.m_numChls
  channels : s.samples.length = s.m_numChls
  lengths : ∀ channel ∈ s.samples, channel.length = F
  framesInFile : s.m_nFramesInFile = F
  currentFrame : s.m_nCurrentFrame = frame
  frame_le : frame ≤ F

namespace AtFrame

theorem framesLeftInFile (h : AtFrame F frame s) : s.framesLeftInFile = (F - frame : ℕ) := by
  have hle := h.frame_le
  unfold CWavFileIO.framesLeftInFile
  rw [h.framesInFile, h.currentFrame]
  omega

/-- The object at another frame. -/
theorem moveTo (h : AtFrame F frame s) {frame' : ℕ} (hle : frame' ≤ F) :
    AtFrame F frame' { s with m_nCurrentFrame := frame' } :=
  { h with currentFrame := rfl, frame_le := hle }

/-- `getSamples` stores frames that are in the file. -/
theorem getSamples (h : AtFrame F frame s) (conv : SampleConversion α) {count : ℕ}
    (hcount : frame + count ≤ F) {pData : List UInt8}
    (hroom : min (2 * s.m_numChls * count) (2 ^ 33) ≤ pData.length) :
    ∃ buffer, s.getSamples conv pData count = .ok buffer ∧
      StoresFrames conv s frame count pData buffer := by
  refine getSamples_stored h.currentFrame (fun i hi chl hchl ↦ ?_) hroom
  refine ⟨Int.natCast_nonneg _, _, List.getElem?_eq_getElem (h.channels.symm ▸ hchl), ?_⟩
  rw [h.lengths _ (List.getElem_mem _)]
  omega

/-- Frames that the file has are read. -/
theorem readFramesAt (h : AtFrame F frame s) (conv : SampleConversion α) {count : ℕ}
    (hcount : frame + count ≤ F) {pData : List UInt8}
    (hroom : min (2 * s.m_numChls * count) (2 ^ 33) ≤ pData.length) :
    ∃ buffer, s.readFramesAt conv pData count =
        .ok ⟨true, some buffer, { s with m_nCurrentFrame := (frame + count : ℕ) }⟩ ∧
      StoresFrames conv s frame count pData buffer := by
  obtain ⟨buffer, hread, hstored⟩ := h.getSamples conv hcount hroom
  refine ⟨buffer, ?_, hstored⟩
  unfold CWavFileIO.readFramesAt
  rw [hread, h.currentFrame, Nat.cast_add]
  rfl

/-- A read that fits in the file. -/
theorem readBlock_fits (h : AtFrame F frame s) (conv : SampleConversion α) (hpos : 1 ≤ numFrames)
    (hfits : frame + numFrames ≤ F) {pData : List UInt8}
    (hroom : min (2 * s.m_numChls * numFrames) (2 ^ 33) ≤ pData.length) :
    ∃ buffer, s.readBlock conv (some pData) numFrames =
        .ok ⟨true, some buffer, { s with m_nCurrentFrame := (frame + numFrames : ℕ) }⟩ ∧
      StoresFrames conv s frame numFrames pData buffer := by
  obtain ⟨buffer, hread, hstored⟩ := h.readFramesAt conv hfits hroom
  refine ⟨buffer, ?_, hstored⟩
  have hmore : ¬(s.isEOF = true ∧ s.m_bUseLoopingRead = false) := by
    rw [isEOF, decide_eq_true_iff, h.framesLeftInFile]
    omega
  unfold readBlock
  dsimp only
  rw [if_neg h.mode, if_neg hmore, h.framesLeftInFile, if_neg (by omega), hread]

/-- A read of more frames than are left goes on behind them. -/
theorem readBlock_beyond (h : AtFrame F frame s) (conv : SampleConversion α)
    (hmore : frame < F ∨ s.m_bUseLoopingRead = true) (hless : F - frame < numFrames)
    (pData : List UInt8) :
    s.readBlock conv (some pData) numFrames =
      s.getSamples conv pData (F - frame) >>= fun buffer ↦
        if s.m_bUseLoopingRead = false then
          padFrames { s with m_nCurrentFrame := F } buffer numFrames (F - frame : ℕ)
        else
          CWavFileIO.readFramesAt conv { s with m_nCurrentFrame := 0 } buffer
            (intToUnsigned (numFrames - (F - frame : ℕ))) := by
  have hle := h.frame_le
  have hopen : ¬(s.isEOF = true ∧ s.m_bUseLoopingRead = false) := by
    rw [isEOF, decide_eq_true_iff, h.framesLeftInFile]
    rintro ⟨hend, hlooping⟩
    rw [hlooping] at hmore
    have hinside := hmore.resolve_right Bool.noConfusion
    omega
  have hend : s.m_nCurrentFrame + ((F - frame : ℕ) : ℤ).toNat = F := by
    rw [h.currentFrame]
    omega
  unfold readBlock
  dsimp only
  rw [if_neg h.mode, if_neg hopen, h.framesLeftInFile, if_pos (by omega), hend,
    Int.toNat_natCast]

/-- In a loop, a read of more frames than are left is one of these frames, and one of frames from
the first one on, which are stored where `pData` begins. -/
theorem readBlock_loops (h : AtFrame F frame s) (conv : SampleConversion α)
    (hlooping : s.m_bUseLoopingRead = true) (hless : F - frame < numFrames)
    (hword : numFrames < 2 ^ 32) (hfits : numFrames ≤ F) {pData : List UInt8}
    (hroom : 2 * s.m_numChls * numFrames ≤ pData.length) :
    ∃ first buffer, s.readBlock conv (some pData) numFrames =
        .ok ⟨true, some buffer,
          { s with m_nCurrentFrame := (numFrames - (F - frame) : ℕ) }⟩ ∧
      StoresFrames conv s frame (F - frame) pData first ∧
      StoresFrames conv s 0 (numFrames - (F - frame)) first buffer := by
  have hle := h.frame_le
  have hroomLeft : min (2 * s.m_numChls * (F - frame)) (2 ^ 33) ≤ pData.length :=
    (Nat.min_le_left ..).trans ((Nat.mul_le_mul_left _ hless.le).trans hroom)
  obtain ⟨first, hget, hfirst⟩ := h.getSamples conv (Nat.add_sub_cancel' hle).le hroomLeft
  obtain ⟨rest, hrest⟩ : ∃ rest, rest = numFrames - (F - frame) := ⟨_, rfl⟩
  have hroomRest : min (2 * s.m_numChls * rest) (2 ^ 33) ≤ first.length := by
    rw [hfirst.length_eq]
    exact (Nat.min_le_left ..).trans ((Nat.mul_le_mul_left _ (by omega)).trans hroom)
  obtain ⟨buffer, hread, hbuffer⟩ :=
    (h.moveTo (Nat.zero_le F)).readFramesAt conv (by omega : 0 + rest ≤ F) hroomRest
  have hcount : intToUnsigned (numFrames - (F - frame : ℕ)) = rest := by
    rw [intToUnsigned]
    omega
  refine ⟨first, buffer, ?_, hfirst, hrest ▸ { hbuffer with }⟩
  rw [h.readBlock_beyond conv (.inr hlooping) hless, hget, ok_bind,
    if_neg (by rw [hlooping]; exact Bool.noConfusion), hcount, ← hrest]
  rwa [Nat.zero_add] at hread

end AtFrame

end RdbLibs.FileIO.CWavFileIO
