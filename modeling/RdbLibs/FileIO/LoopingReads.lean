import RdbLibs.FileIO.CWavFileIO.Calls
import RdbLibs.FileIO.CWavFileIO.Positions
import RdbLibs.FileIO.RawInput

/-!
# Reads in a loop

A read in a loop of more frames than the file has left goes on at the beginning of the file, and at
the beginning of the caller's block too: it writes over the frames that it has just stored there,
and never reaches the end of the block. So a loop delivers its frames in order only where no read
has to cross the end of the file. For WAV files there is a second reason for a block that is not
filled, which is the type by which `getSamples` counts the samples that it has stored.
-/

set_option autoImplicit false
set_option relaxedAutoImplicit false

namespace RdbLibs.FileIO

open CWavFileIO

/-- The answers of `readBlock`, the memory of its caller, and what is left of the object, by what
the memory was. -/
abbrev LoopReader (σ : Type) := List UInt8 → Option (Bool × Option (List UInt8) × σ)

/-- A read of `numFrames` frames from the frame `pos` on succeeds, and stores them, where the first
of the `F` frames of the file follows the last one. The object is then at the frame behind them. -/
def WrapsAround {σ : Type} (read : LoopReader σ) (At : ℕ → σ → Prop) (frameAt : ℕ → List UInt8)
    (frameBytes F pos numFrames : ℕ) : Prop :=
  ∀ target, frameBytes * numFrames ≤ target.length → ∃ pData next after,
    read target = some (true, some pData, after) ∧
    (∀ i < numFrames, (pData.drop (frameBytes * i)).take frameBytes = frameAt ((pos + i) % F)) ∧
    next ≤ F ∧ next % F = (pos + numFrames) % F ∧ At next after

section Wraps

variable {σ : Type} {read : LoopReader σ} {At : ℕ → σ → Prop} {frameAt : ℕ → List UInt8}
  {frameBytes F pos numFrames : ℕ}

/-- A read that never writes the last byte that it should does not wrap around. -/
theorem not_wrapsAround (hsize : 0 < frameBytes) (hpos : 1 ≤ numFrames)
    (hframe : (frameAt ((pos + (numFrames - 1)) % F)).length = frameBytes)
    (hkept : ∀ target pData after, frameBytes * numFrames ≤ target.length →
      read target = some (true, some pData, after) →
      pData[frameBytes * numFrames - 1]? = target[frameBytes * numFrames - 1]?) :
    ¬WrapsAround read At frameAt frameBytes F pos numFrames := by
  intro hwraps
  obtain ⟨last, hlast⟩ : ∃ last, last = frameAt ((pos + (numFrames - 1)) % F) := ⟨_, rfl⟩
  rw [← hlast] at hframe
  have hinside : frameBytes - 1 < last.length := by omega
  have : Nontrivial UInt8 := ⟨0, 1, by decide⟩
  obtain ⟨other, hother⟩ := exists_ne last[frameBytes - 1]
  obtain ⟨target, htarget⟩ : ∃ target, target = List.replicate (frameBytes * numFrames) other :=
    ⟨_, rfl⟩
  have hroom : frameBytes * numFrames ≤ target.length := by rw [htarget, List.length_replicate]
  obtain ⟨pData, next, after, hread, hstored, -⟩ := hwraps target hroom
  have hplace : frameBytes * (numFrames - 1) + (frameBytes - 1) = frameBytes * numFrames - 1 := by
    obtain ⟨count, rfl⟩ := Nat.exists_eq_add_of_le' hpos
    rw [Nat.add_sub_cancel, Nat.mul_succ]
    omega
  have hbyte : pData[frameBytes * numFrames - 1]? = some last[frameBytes - 1] := by
    have hlt : frameBytes - 1 < frameBytes := by omega
    rw [← hplace, ← List.getElem?_drop, ← List.getElem?_take_of_lt hlt,
      hstored (numFrames - 1) (by omega), ← hlast, List.getElem?_eq_getElem hinside]
  have hsame := hkept target pData after hroom hread
  have hbytes : 0 < frameBytes * numFrames := Nat.mul_pos hsize hpos
  rw [hbyte, htarget, List.getElem?_replicate_of_lt (by omega)] at hsame
  exact hother (Option.some.inj hsame).symm

end Wraps

/-- `CRawAudioFileIO::readBlock`. -/
def CRawAudioFileIO.loopReader (s : CRawAudioFileIO) (numFrames : ℕ) :
    LoopReader CRawAudioFileIO :=
  fun target ↦ (s.readBlock (some target) numFrames).map fun result ↦
    (result.status, result.pData, result.s)

/-- `CWavFileIO::readBlock`. -/
def CWavFileIO.loopReader {α : Type} (conv : SampleConversion α) (s : CWavFileIO α)
    (numFrames : ℕ) : LoopReader <| CWavFileIO α :=
  fun target ↦ (s.readBlock conv (some target) numFrames).toOption.map fun result ↦
    (result.status, result.pData, result.s)

section Raw

variable {s : CRawAudioFileIO} {content : List UInt8} {pos numFrames : ℕ}

/-- What a call leaves is at a frame of the same file, and all but its positions is as it was. -/
def CRawAudioFileIO.IsAt (s : CRawAudioFileIO) (content : List UInt8) (next : ℕ)
    (after : CRawAudioFileIO) : Prop :=
  after.blocks.Positioned content next ∧ s.blocks.Moves after.blocks

theorem CRawAudioFileIO.loopReader_eq (s : CRawAudioFileIO) (numFrames : ℕ)
    (target : List UInt8) : s.loopReader numFrames target =
      (s.blocks.readBlock (some target) numFrames).map fun result ↦
        (result.status, result.pData, s.withBlocks result.blocks) := by
  rw [loopReader, readBlock_eq, Option.map_map]
  rfl

/-- A read of blocks that stores the right frames is one of the object. -/
theorem CRawAudioFileIO.loopReader_stores {first next : ℕ}
    (hinside : (first + numFrames) * s.m_nFrameSize ≤ content.length)
    (hframes : ∀ i < numFrames, first + i = (pos + i) % s.m_nFramesInFile)
    (hnext : next ≤ s.m_nFramesInFile)
    (hend : next % s.m_nFramesInFile = (pos + numFrames) % s.m_nFramesInFile)
    {target : List UInt8} (hread : ∃ after, s.blocks.readBlock (some target) numFrames =
        some ⟨true, some (RawBlocks.framesFrom s.m_nFrameSize content first numFrames ++
          target.drop (numFrames * s.m_nFrameSize)), after⟩ ∧
      RawBlocks.Positioned content next after) :
    ∃ pData next after, s.loopReader numFrames target = some (true, some pData, after) ∧
      (∀ i < numFrames, (pData.drop (s.m_nFrameSize * i)).take s.m_nFrameSize =
        RawBlocks.framesFrom s.m_nFrameSize content ((pos + i) % s.m_nFramesInFile) 1) ∧
      next ≤ s.m_nFramesInFile ∧
      next % s.m_nFramesInFile = (pos + numFrames) % s.m_nFramesInFile ∧
      s.IsAt content next after := by
  obtain ⟨after, hread, hafter⟩ := hread
  have hmoves : RawBlocks.Moves s.blocks after := RawBlocks.moves_readBlock hread
  have hblocks := blocks_withBlocks hmoves
  refine ⟨RawBlocks.framesFrom s.m_nFrameSize content first numFrames ++
    target.drop (numFrames * s.m_nFrameSize), next, s.withBlocks after, ?_, fun i hi ↦ ?_, hnext,
    hend, hblocks.symm ▸ hafter, hblocks.symm ▸ hmoves⟩
  · rw [loopReader_eq, hread]
    rfl
  · rw [RawBlocks.frame_of_framesFrom hinside _ hi, hframes i hi]

/-- A successful read across the end of the file leaves the last byte of its memory as it was. -/
theorem CRawAudioFileIO.loopReader_kept (h : s.blocks.Positioned content pos)
    (hlooping : s.m_bUseLoopingRead = true) (hfits : numFrames ≤ s.m_nFramesInFile)
    (hword : numFrames < 2 ^ 32)
    (hcross : ¬(s.m_nCurrentFrameIdx < s.m_nFramesInFile ∧
      (pos + numFrames ≤ s.m_nFramesInFile ∨ pos = s.m_nFramesInFile)))
    {target pData : List UInt8} {after : CRawAudioFileIO}
    (hroom : s.m_nFrameSize * numFrames ≤ target.length)
    (hread : s.loopReader numFrames target = some (true, some pData, after)) :
    pData[s.m_nFrameSize * numFrames - 1]? = target[s.m_nFrameSize * numFrames - 1]? := by
  have hle : pos ≤ s.m_nFramesInFile := h.frame_le
  have hsize : 0 < s.m_nFrameSize := Nat.pos_of_ne_zero h.frameSize
  rw [s.loopReader_eq, Option.map_eq_some_iff] at hread
  obtain ⟨⟨status, stored, blocks⟩, hread, hresult⟩ := hread
  obtain ⟨rfl, hrest⟩ := Prod.mk.inj hresult
  obtain ⟨rfl, -⟩ := Prod.mk.inj hrest
  by_cases hmore : s.m_nCurrentFrameIdx < s.m_nFramesInFile
  · have hends := not_or.mp fun hends ↦ hcross ⟨hmore, hends⟩
    have hsome : pos < s.m_nFramesInFile := by omega
    have hless : s.m_nFramesInFile - pos < numFrames := by omega
    have hlast : (numFrames - 1) * s.m_nFrameSize ≤ s.m_nFrameSize * numFrames - 1 := by
      rw [Nat.mul_comm s.m_nFrameSize, Nat.sub_one_mul]
      omega
    rw [Nat.mul_comm] at hroom
    exact h.readBlock_wraps (decide_eq_false (Nat.not_le.mpr hmore)) hlooping hword hsome hless
      hfits hroom hread hlast
  · rw [RawBlocks.readBlock_eof (decide_eq_true (Nat.not_lt.mp hmore))] at hread
    exact absurd (congrArg RawBlocks.BlockResult.status (Option.some.inj hread)) Bool.noConfusion

/-- A read of raw audio wraps around only where it does not cross the end of the file. -/
theorem raw_wrapsAround_iff (h : s.blocks.Positioned content pos)
    (hlooping : s.m_bUseLoopingRead = true) (hpos : 1 ≤ numFrames)
    (hfits : numFrames ≤ s.m_nFramesInFile) (hword : numFrames < 2 ^ 32) :
    WrapsAround (s.loopReader numFrames) (s.IsAt content)
      (fun frame ↦ RawBlocks.framesFrom s.m_nFrameSize content frame 1) s.m_nFrameSize
      s.m_nFramesInFile pos numFrames ↔
        s.m_nCurrentFrameIdx < s.m_nFramesInFile ∧
          (pos + numFrames ≤ s.m_nFramesInFile ∨ pos = s.m_nFramesInFile) := by
  constructor
  · intro hwraps
    by_contra hcross
    have hlt : (pos + (numFrames - 1)) % s.m_nFramesInFile < s.m_nFramesInFile :=
      Nat.mod_lt _ (by omega)
    refine not_wrapsAround (Nat.pos_of_ne_zero h.frameSize) hpos ?_ ?_ hwraps
    · exact (RawBlocks.length_framesFrom (h.mul_le hlt)).trans (Nat.one_mul _)
    · intro target pData after
      exact CRawAudioFileIO.loopReader_kept h hlooping hfits hword hcross
  · rintro ⟨hmore, hinside | rfl⟩ target hroom
    · rw [Nat.mul_comm] at hroom
      exact CRawAudioFileIO.loopReader_stores (h.mul_le hinside)
        (fun i hi ↦ (Nat.mod_eq_of_lt (by omega)).symm) hinside rfl
        (h.readBlock_fits (decide_eq_false (Nat.not_le.mpr hmore)) hpos hinside hroom)
    · rw [Nat.mul_comm] at hroom
      exact CRawAudioFileIO.loopReader_stores (h.mul_le (by rwa [Nat.zero_add]))
        (fun i hi ↦ by rw [Nat.zero_add, Nat.add_mod_left, Nat.mod_eq_of_lt (by omega)]) hfits
        (Nat.add_mod_left ..).symm
        (h.readBlock_rewinds (decide_eq_false (Nat.not_le.mpr hmore)) hlooping hpos hword le_rfl
          hfits hroom)

end Raw

section Wav

variable {α : Type} {conv : SampleConversion α} {s : CWavFileIO α} {F pos numFrames : ℕ}

theorem CWavFileIO.loopReader_eq {target pData : List UInt8} {after : CWavFileIO α}
    (hread : s.readBlock conv (some target) numFrames = .ok ⟨true, some pData, after⟩) :
    s.loopReader conv numFrames target = some (true, some pData, after) := by
  rw [loopReader, hread]
  rfl

/-- A successful read across the end of the file leaves the last byte of its memory as it was, and
so does one of more samples than can be counted. -/
theorem CWavFileIO.AtFrame.loopReader_kept (h : s.AtFrame F pos) (conv : SampleConversion α)
    (hlooping : s.m_bUseLoopingRead = true) (hpos : 1 ≤ numFrames) (hfits : numFrames ≤ F)
    (hword : numFrames < 2 ^ 32)
    (hcross : ¬(s.m_numChls * numFrames ≤ 2 ^ 32 ∧ (pos + numFrames ≤ F ∨ pos = F)))
    {target pData : List UInt8} {after : CWavFileIO α}
    (hroom : 2 * s.m_numChls * numFrames ≤ target.length)
    (hread : s.loopReader conv numFrames target = some (true, some pData, after)) :
    pData[2 * s.m_numChls * numFrames - 1]? = target[2 * s.m_numChls * numFrames - 1]? := by
  have hle := h.frame_le
  have hchannels := h.someChannels
  have hbytes : 2 * s.m_numChls * numFrames = 2 * (s.m_numChls * numFrames) := Nat.mul_assoc ..
  have hbefore {count : ℕ} (hcount : count < numFrames) :
      2 * s.m_numChls * count ≤ 2 * s.m_numChls * numFrames - 1 := by
    have hmul := Nat.mul_le_mul_left (2 * s.m_numChls) hcount
    rw [Nat.mul_succ] at hmul
    omega
  by_cases hinside : pos + numFrames ≤ F
  · obtain ⟨buffer, hblock, hstored⟩ :=
      h.readBlock_fits conv hpos hinside ((Nat.min_le_left ..).trans hroom)
    obtain ⟨⟩ := hread.symm.trans <| CWavFileIO.loopReader_eq hblock
    exact hstored.getElem?_behind (by omega)
  · obtain ⟨first, buffer, hblock, hfirst, hstored⟩ :=
      h.readBlock_loops conv hlooping (by omega) hword hfits hroom
    obtain ⟨⟩ := hread.symm.trans <| CWavFileIO.loopReader_eq hblock
    rw [hstored.getElem?_behind ?_, hfirst.getElem?_behind ?_]
    · exact (Nat.min_le_left ..).trans (hbefore (by omega))
    · rcases hle.eq_or_lt with rfl | hlt
      · omega
      · exact (Nat.min_le_left ..).trans (hbefore (by omega))

/-- A read of a WAV file wraps around only where it does not cross the end of the file, and where
the samples that it stores can be counted. -/
theorem wav_wrapsAround_iff (h : s.AtFrame F pos) (conv : SampleConversion α)
    (hlooping : s.m_bUseLoopingRead = true) (hpos : 1 ≤ numFrames) (hfits : numFrames ≤ F)
    (hword : numFrames < 2 ^ 32) :
    WrapsAround (s.loopReader conv numFrames)
      (fun next after ↦ after = { s with m_nCurrentFrame := (next : ℕ) })
      (frameBytes conv s.samples s.m_numChls) (2 * s.m_numChls) F pos numFrames ↔
        s.m_numChls * numFrames ≤ 2 ^ 32 ∧ (pos + numFrames ≤ F ∨ pos = F) := by
  have hchannels := h.someChannels
  constructor
  · intro hwraps
    by_contra hcross
    refine not_wrapsAround (by omega) hpos (length_frameBytes ..) ?_ hwraps
    intro target pData after
    exact h.loopReader_kept conv hlooping hpos hfits hword hcross
  · rintro ⟨hsmall, hinside | rfl⟩ target hroom
    · obtain ⟨buffer, hblock, hstored⟩ :=
        h.readBlock_fits conv hpos hinside ((Nat.min_le_left ..).trans hroom)
      refine ⟨buffer, pos + numFrames, _, CWavFileIO.loopReader_eq hblock, fun i hi ↦ ?_, hinside,
        rfl, rfl⟩
      rw [hstored.frame hroom hsmall hi, Nat.mod_eq_of_lt (by omega)]
    · obtain ⟨first, buffer, hblock, hfirst, hstored⟩ :=
        h.readBlock_loops conv hlooping (by omega) hword hfits hroom
      rw [Nat.sub_self, Nat.sub_zero] at hblock hstored
      refine ⟨buffer, numFrames, _, CWavFileIO.loopReader_eq hblock, fun i hi ↦ ?_, hfits,
        (Nat.add_mod_left ..).symm, rfl⟩
      rw [hstored.frame (hfirst.length_eq.symm ▸ hroom) hsmall hi, Nat.zero_add,
        Nat.add_mod_left, Nat.mod_eq_of_lt (by omega)]

end Wav

/-- A read in a loop delivers its frames only where it does not cross the end of the file: it ends
with the last frame or before it, or begins behind it. Raw audio is also refused where `isEOF` says
so, and of a WAV file no more samples are stored than an `unsigned int` counts. A frame in the
caller's memory has `m_nFrameSize` bytes for raw audio. For a WAV file it is one `int16_t` for each
channel, which is what `getSamples` stores, whatever `m_nFrameSize` is. -/
theorem readBlock_wraps_iff {numFrames : ℕ} (hpos : 1 ≤ numFrames) (hword : numFrames < 2 ^ 32) :
    (∀ (s : CRawAudioFileIO) (content : List UInt8) (pos : ℕ),
      s.blocks.Positioned content pos → s.m_bUseLoopingRead = true →
      numFrames ≤ s.m_nFramesInFile →
        (WrapsAround (s.loopReader numFrames) (s.IsAt content)
          (fun frame ↦ RawBlocks.framesFrom s.m_nFrameSize content frame 1) s.m_nFrameSize
          s.m_nFramesInFile pos numFrames ↔
            s.m_nCurrentFrameIdx < s.m_nFramesInFile ∧
              (pos + numFrames ≤ s.m_nFramesInFile ∨ pos = s.m_nFramesInFile))) ∧
    ∀ {α : Type} (conv : SampleConversion α) (s : CWavFileIO α) (F pos : ℕ),
      s.AtFrame F pos → s.m_bUseLoopingRead = true → numFrames ≤ F →
        (WrapsAround (s.loopReader conv numFrames)
          (fun next after ↦ after = { s with m_nCurrentFrame := (next : ℕ) })
          (frameBytes conv s.samples s.m_numChls) (2 * s.m_numChls) F pos numFrames ↔
            s.m_numChls * numFrames ≤ 2 ^ 32 ∧ (pos + numFrames ≤ F ∨ pos = F)) :=
  ⟨fun _ _ _ h hlooping hfits ↦ raw_wrapsAround_iff h hlooping hpos hfits hword,
    fun conv _ _ _ h hlooping hfits ↦ wav_wrapsAround_iff h conv hlooping hpos hfits hword⟩

/-- A loop of two raw frames, at the first one. -/
def rawLoop : CRawAudioFileIO := (monoAtFirst 16 [1, 0, 2, 0]).setLoopingRead true

/-- It has read the first one. -/
def rawLoopSecond : CRawAudioFileIO :=
  (rawLoop.readBlock (some [9, 9]) 1).elim rawLoop CRawAudioFileIO.ReadResult.s

/-- A loop of two frames of a WAV file. -/
def wavLoop (frame : ℕ) : CWavFileIO ℤ :=
  { frameFile 7 with
    m_nFramesInFile := 2
    samples := [[7, 8]]
    m_bUseLoopingRead := true
    m_nCurrentFrame := frame }

theorem positioned_rawLoop : rawLoop.blocks.Positioned [1, 0, 2, 0] 0 :=
  ⟨⟨rfl, by decide, rfl, rfl, rfl, by decide, Nat.zero_le _⟩, rfl, rfl⟩

theorem positioned_rawLoopSecond : rawLoopSecond.blocks.Positioned [1, 0, 2, 0] 1 :=
  ⟨⟨rfl, by decide, rfl, rfl, rfl, by decide, by decide⟩, rfl, rfl⟩

theorem atFrame_wavLoop {frame : ℕ} (hle : frame ≤ 2) : (wavLoop frame).AtFrame 2 frame where
  mode h := eFileIoMode_def.noConfusion h
  someChannels := le_rfl
  channels := rfl
  lengths _ hchannel := List.mem_singleton.mp hchannel ▸ rfl
  framesInFile := rfl
  currentFrame := rfl
  frame_le := hle

/-- Both frames at once, from the first one on, and from behind the last one. -/
theorem readBlock_wraps_iff_whole :
    WrapsAround (rawLoop.loopReader 2) (rawLoop.IsAt [1, 0, 2, 0])
      (fun frame ↦ RawBlocks.framesFrom 2 [1, 0, 2, 0] frame 1) 2 2 0 2 ∧
    WrapsAround ((wavLoop 2).loopReader integerConversion 2)
      (fun next after ↦ after = { wavLoop 2 with m_nCurrentFrame := (next : ℕ) })
      (frameBytes integerConversion [[7, 8]] 1) 2 2 2 2 :=
  ⟨((readBlock_wraps_iff (by decide) (by decide)).1 rawLoop [1, 0, 2, 0] 0 positioned_rawLoop rfl
      (by decide)).mpr (by decide),
    ((readBlock_wraps_iff (by decide) (by decide)).2 integerConversion (wavLoop 2) 2 2
      (atFrame_wavLoop le_rfl) rfl (by decide)).mpr (by decide)⟩

/-- Two frames from the second one on: what is stored is the first one, and nothing behind it. -/
theorem loop_is_overwritten :
    (rawLoopSecond.blocks.Positioned [1, 0, 2, 0] 1 ∧ rawLoopSecond.m_bUseLoopingRead = true ∧
      ¬WrapsAround (rawLoopSecond.loopReader 2) (rawLoopSecond.IsAt [1, 0, 2, 0])
        (fun frame ↦ RawBlocks.framesFrom 2 [1, 0, 2, 0] frame 1) 2 2 1 2) ∧
    (wavLoop 1).AtFrame 2 1 ∧ (wavLoop 1).m_bUseLoopingRead = true ∧
      ¬WrapsAround ((wavLoop 1).loopReader integerConversion 2)
        (fun next after ↦ after = { wavLoop 1 with m_nCurrentFrame := (next : ℕ) })
        (frameBytes integerConversion [[7, 8]] 1) 2 2 1 2 := by
  refine ⟨⟨positioned_rawLoopSecond, rfl, fun hwraps ↦ ?_⟩, atFrame_wavLoop (by decide), rfl,
    fun hwraps ↦ ?_⟩
  · obtain ⟨pData, next, after, hread, hstored, -⟩ := hwraps [9, 9, 9, 9] (by decide)
    cases hread
    exact absurd (hstored 0 (by decide)) (by decide)
  · obtain ⟨pData, next, after, hread, hstored, -⟩ := hwraps [9, 9, 9, 9] (by decide)
    cases hread
    exact absurd (hstored 0 (by decide)) (by decide)

end RdbLibs.FileIO
