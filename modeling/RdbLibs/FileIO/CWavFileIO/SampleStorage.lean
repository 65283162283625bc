import RdbLibs.FileIO.CWavFileIO.Calls
import RdbLibs.Foundations.CheckedLoop

/-!
# The indices of the samples

`writeSample` makes room for the frame that it writes. `writeBlock` does not, and so can write only
frames that are stored already. `readSample` compares the current frame with the samples of the
file. `readBlock` trusts `m_nFramesInFile`, which `nextFrame` counts up also where it reads, and
the rest that it reads in a loop may be longer than the file. `writeBlock` and `nextFrame` save the
file, which reads of every channel as many samples as the first one has.
-/

set_option autoImplicit false
set_option relaxedAutoImplicit false

namespace RdbLibs.FileIO

open CheckedLoop CheckedMemory MachineWord Runs

section Samples

variable {α : Type} {samples samples' : List (List α)} {chl : ℕ} {frame : ℤ}

theorem checks_sampleAt (samples : List (List α)) (chl : ℕ) (frame : ℤ) :
    Checks .samples (IsStored samples chl frame) (fun _ ↦ True) (sampleAt samples chl frame) := by
  unfold sampleAt IsStored
  split_ifs with hneg
  · exact .error fun h ↦ absurd h.1 (Int.not_le.mpr hneg)
  · cases samples[chl]? with
    | none => exact .error (by simp)
    | some channel =>
      dsimp only
      cases hsample : channel[frame.toNat]? with
      | none =>
        rw [List.getElem?_eq_none_iff] at hsample
        apply Checks.error
        simp only [Option.some.injEq, exists_eq_left']
        omega
      | some sample =>
        obtain ⟨hlt, -⟩ := List.getElem?_eq_some_iff.mp hsample
        refine .ok ?_ trivial
        simp only [Option.some.injEq, exists_eq_left']
        omega

/-- As many channels, of the same lengths. -/
def SameLengths (samples samples' : List (List α)) : Prop :=
  samples.map List.length = samples'.map List.length

theorem SameLengths.refl (samples : List (List α)) : SameLengths samples samples := rfl

theorem SameLengths.length_eq (h : SameLengths samples samples') :
    samples'.length = samples.length := by
  simpa using (congrArg List.length h).symm

theorem isStored_congr (h : SameLengths samples samples') :
    IsStored samples chl frame ↔ IsStored samples' chl frame := by
  have hiff (stored : List (List α)) : (∃ channel, stored[chl]? = some channel ∧
      frame < channel.length) ↔
        ∃ length, (stored.map List.length)[chl]? = some length ∧ frame < (length : ℤ) := by
    simp
  rw [IsStored, IsStored, hiff, hiff, h]

theorem checks_setSampleAt (samples : List (List α)) (chl : ℕ) (frame : ℤ) (sample : α) :
    Checks .samples (IsStored samples chl frame) (SameLengths samples)
      (setSampleAt samples chl frame sample) := by
  unfold setSampleAt IsStored
  split_ifs with hneg
  · exact .error fun h ↦ absurd h.1 (Int.not_le.mpr hneg)
  · cases hchannel : samples[chl]? with
    | none => exact .error (by simp)
    | some channel =>
      dsimp only
      split_ifs with hlt
      · refine .ok ?_ ?_
        · simp only [Option.some.injEq, exists_eq_left']
          omega
        · obtain ⟨hchl, rfl⟩ := List.getElem?_eq_some_iff.mp hchannel
          have hmap : chl < (samples.map List.length).length := by rwa [List.length_map]
          have hself := List.set_getElem_self hmap
          rw [List.getElem_map] at hself
          rw [SameLengths, List.map_set, List.length_set, hself]
      · apply Checks.error
        simp only [Option.some.injEq, exists_eq_left']
        omega

/-- The memory of the caller is another matter. -/
theorem checks_callerMemory {β : Type} (access : Except Fault β) :
    Checks .samples True (fun _ ↦ True) (callerMemory access) := by
  cases access with
  | error fault => exact .of_ne nofun
  | ok value => exact .pure trivial

end Samples

namespace CWavFileIO

variable {α : Type} {conv : SampleConversion α} {s : CWavFileIO α}

/-- Some frames from `start` on are stored in every channel. -/
def HasFrames (s : CWavFileIO α) (start : ℤ) (numFrames : ℕ) : Prop :=
  numFrames = 0 ∨ ∀ chl < s.m_numChls, 0 ≤ start ∧ ∃ channel,
    s.samples[chl]? = some channel ∧ start + numFrames ≤ channel.length

theorem hasFrames_iff {start : ℤ} {numFrames : ℕ} :
    (∀ i ∈ List.range numFrames, ∀ chl ∈ List.range s.m_numChls,
      IsStored s.samples chl (start + i)) ↔ s.HasFrames start numFrames := by
  simp only [List.mem_range, IsStored, HasFrames]
  constructor
  · intro h
    rcases Nat.eq_zero_or_pos numFrames with hzero | hpos
    · exact .inl hzero
    · refine .inr fun chl hchl ↦ ?_
      obtain ⟨hstart, -⟩ := h 0 hpos chl hchl
      obtain ⟨-, channel, hchannel, hlast⟩ := h (numFrames - 1) (by omega) chl hchl
      exact ⟨by omega, channel, hchannel, by omega⟩
  · rintro (rfl | h) i hi chl hchl
    · exact absurd hi (Nat.not_lt_zero i)
    · obtain ⟨hstart, channel, hchannel, hlength⟩ := h chl hchl
      exact ⟨by omega, channel, hchannel, by omega⟩

theorem checks_getSample (s : CWavFileIO α) (frame : ℤ) (target : List UInt8 × ℕ) (chl : ℕ) :
    Checks .samples (IsStored s.samples chl frame) (fun _ ↦ True)
      (s.getSample conv frame target chl) :=
  ((checks_sampleAt s.samples chl frame).bind fun _ _ ↦
    (checks_callerMemory _).bind fun _ _ ↦ .pure trivial).congr (by simp)

theorem checks_getSamples (s : CWavFileIO α) (pData : List UInt8) (numFrames : ℕ) :
    Checks .samples (s.HasFrames s.m_nCurrentFrame numFrames) (fun _ ↦ True)
      (s.getSamples conv pData numFrames) := by
  refine Checks.congr (.map (.foldlM (fun _ ↦ True) (fun i _ target _ ↦ ?_) trivial)
    fun _ _ ↦ trivial) hasFrames_iff
  exact .foldlM _ (fun chl _ target _ ↦ checks_getSample s _ target chl) trivial

theorem checks_putSample (source : List UInt8) (frame : ℤ) (samples : List (List α)) (chl : ℕ)
    (stored : List (List α) × ℕ) (hstored : SameLengths samples stored.1) :
    Checks .samples (IsStored samples chl frame) (fun stored ↦ SameLengths samples stored.1)
      (putSample conv source frame stored chl) := by
  have hchecks : Checks .samples (True ∧ IsStored stored.1 chl frame ∧ True)
      (fun stored ↦ SameLengths samples stored.1) (putSample conv source frame stored chl) :=
    (checks_callerMemory _).bind fun _ _ ↦
      (checks_setSampleAt stored.1 chl frame _).bind fun _ hset ↦ .pure (hstored.trans hset)
  exact hchecks.congr (by simp [isStored_congr hstored])

theorem checks_putSamples (s : CWavFileIO α) (source : List UInt8) (numFrames : ℕ) :
    Checks .samples (s.HasFrames s.m_nCurrentFrame numFrames) (SameLengths s.samples)
      (s.putSamples conv source numFrames) := by
  refine Checks.congr (.map (.foldlM (fun stored ↦ SameLengths s.samples stored.1)
    (fun i _ stored hstored ↦ ?_) (.refl s.samples)) fun _ hstored ↦ hstored) hasFrames_iff
  exact .foldlM _ (fun chl _ stored hstored ↦
    checks_putSample source _ s.samples chl stored hstored) hstored

/-- The frame that `writeSample` has made room for. It compares both counters as values of type
`int`. -/
def HasRoom (s : CWavFileIO α) (chl : ℕ) : Prop :=
  ∀ channel, s.samples[chl]? = some channel →
    toInt channel.length ≤ longToInt s.m_nCurrentFrame ∨ s.m_nCurrentFrame < channel.length

/-- No channel is shorter than the first one, or the file is not written with this bit depth. -/
def Savable (s : CWavFileIO α) : Prop :=
  s.bitDepth ∈ [8, 16, 24, 32] →
    ∀ channel ∈ s.samples, s.getNumSamplesPerChannel ≤ channel.length

/-- `writeBlock` saves the file. -/
def SavesBlock (s : CWavFileIO α) : Prop :=
  s.m_bWriteFileForEachFrame = true ∨ s.m_nIoBlockSize ≤ s.m_nCurrentFrameIdx

/-- `nextFrame` saves the file. -/
def SavesFrame (s : CWavFileIO α) : Prop :=
  s.m_nIoBlockSize < 1 ∨ s.m_nIoBlockSize ≤ s.m_nCurrentFrameIdx + 1

/-- The condition under which a call has no index outside of the samples. -/
def InRange (s : CWavFileIO α) : WavCall → Prop
  | .writeSample16 _ chl =>
    s.m_eMode = .input ∨ s.m_nBitsPerSample ≠ 16 ∨ s.m_numChls ≤ chl ∨ s.HasRoom chl
  | .writeBlock pData numFrames =>
    pData = none ∨ (numFrames < 1 ∨ s.m_numChls < 1 ∨ s.m_eMode = .input) ∨
      (s.HasFrames s.m_nCurrentFrame numFrames ∧ (s.SavesBlock → s.Savable))
  | .readBlock pData numFrames =>
    pData = none ∨ s.m_eMode = .output ∨ (s.isEOF = true ∧ s.m_bUseLoopingRead = false) ∨
      (s.HasFrames s.m_nCurrentFrame (min numFrames s.framesLeftInFile.toNat) ∧
        (s.m_bUseLoopingRead = true → s.framesLeftInFile < numFrames →
          s.HasFrames 0 (intToUnsigned (numFrames - s.framesLeftInFile))))
  | .nextFrame => s.m_eMode = .input ∨ (s.SavesFrame → s.Savable)
  | _ => True

/-- What holds of an object between its calls. The channels of a file that is read are of one
length; a file that is written has all its channels. -/
structure Sound (s : CWavFileIO α) : Prop where
  frame : 0 ≤ s.m_nCurrentFrame
  storage : (s.m_eMode = .input ∧ s.m_numChls ≤ s.samples.length ∧
      ∃ F, 1 ≤ toInt F ∧ ∀ channel ∈ s.samples, channel.length = F) ∨
    (s.m_eMode = .output ∧ s.m_numChls < 2 ^ 31 ∧ s.samples.length = s.m_numChls)

section Output

variable [Zero α] {chl : ℕ} (hframe : 0 ≤ s.m_nCurrentFrame) (hsmall : s.m_numChls < 2 ^ 31)
  (hlength : s.samples.length = s.m_numChls) (hchl : chl < s.m_numChls)
include hsmall hlength hchl

theorem resizeSamples_eq : s.resizeSamples chl = s.samples.modify chl fun channel ↦
    if toInt channel.length ≤ longToInt s.m_nCurrentFrame then
      resize channel (s.m_nCurrentFrame + 1).toNat 0
    else channel := by
  have hchannels : ¬toInt s.samples.length ≤ toInt chl := by
    rw [hlength, toInt_of_lt hsmall, toInt_of_lt (hchl.trans hsmall)]
    omega
  rw [resizeSamples, if_neg hchannels]

include hframe

theorem isStored_resizeSamples :
    IsStored (s.resizeSamples chl) chl s.m_nCurrentFrame ↔ s.HasRoom chl := by
  rw [← hlength] at hchl
  rw [resizeSamples_eq hsmall hlength (hlength ▸ hchl), IsStored, HasRoom, List.getElem?_modify_eq,
    List.getElem?_eq_getElem hchl, and_iff_right hframe]
  simp only [Option.map_eq_map, Option.map_some, Option.some.injEq, exists_eq_left', forall_eq']
  split_ifs with hresize
  · rw [length_resize]
    omega
  · omega

end Output

/-- Other samples of the same lengths. -/
theorem Sound.withSamples (h : s.Sound) (hmode : s.m_eMode ≠ .input) {samples : List (List α)}
    (hlength : samples.length = s.samples.length) : Sound { s with samples := samples } := by
  obtain ⟨hinput, -⟩ | ⟨houtput, hsmall, heq⟩ := h.storage
  · exact absurd hinput hmode
  · exact ⟨h.frame, .inr ⟨houtput, hsmall, hlength.trans heq⟩⟩

theorem Sound.countRead (h : s.Sound) (chl : ℕ) : (s.countRead chl).Sound := by
  unfold CWavFileIO.countRead
  split_ifs
  · exact h
  · exact { h with }

theorem Sound.countWritten (h : s.Sound) (chl : ℕ) : (s.countWritten chl).Sound := by
  unfold CWavFileIO.countWritten
  split_ifs
  · exact h
  · exact { h with }

theorem Sound.rewindFrame (h : s.Sound) : s.rewindFrame.Sound := by
  unfold CWavFileIO.rewindFrame
  split_ifs
  · exact { h with frame := le_rfl }
  · exact h

theorem Sound.checks_writeSample16 [Zero α] (h : s.Sound) (data : BitVec 16) (chl : ℕ) :
    Checks .samples (s.InRange (.writeSample16 data chl)) (fun result ↦ result.2.Sound)
      (s.writeSample16 conv data chl) := by
  unfold writeSample16
  split_ifs with hrefused
  · exact .ok (by rw [InRange]; tauto) h
  · push Not at hrefused
    obtain ⟨hchl, hmode, hbits⟩ := hrefused
    obtain ⟨hinput, -⟩ | ⟨-, hsmall, hlength⟩ := h.storage
    · exact absurd hinput hmode
    have hrange : s.HasRoom chl ↔ s.InRange (.writeSample16 data chl) := by
      simp [InRange, hmode, hbits, Nat.not_le.mpr hchl]
    refine Checks.congr (Q := s.InRange (.writeSample16 data chl))
      ((checks_setSampleAt _ chl _ _).bind fun samples hset ↦ .pure ?_)
      ((and_iff_left trivial).trans
        ((isStored_resizeSamples h.frame hsmall hlength hchl).trans hrange))
    refine (h.withSamples hmode ?_).countWritten chl
    rw [hset.length_eq, resizeSamples_eq hsmall hlength hchl, List.length_modify]

/-- `AudioFile::save` reads as many samples of each channel as the first one has. -/
theorem checks_save (hsmall : s.samples.length < 2 ^ 31) :
    Checks .samples s.Savable (fun _ ↦ True) s.save := by
  have hchannels : s.getNumChannels.toNat = s.samples.length := by
    rw [getNumChannels, toInt_of_lt hsmall, Int.toNat_natCast]
  unfold save
  rw [hchannels]
  split_ifs with hdepth
  · have hsample (i chl : ℕ) : Checks AccessFault.samples (IsStored s.samples chl i) (fun _ ↦ True)
        (sampleAt s.samples chl i >>= fun _ ↦ (.ok () : Except AccessFault Unit)) :=
      ((checks_sampleAt s.samples chl i).bind fun _ _ ↦ .pure trivial).congr (and_iff_left trivial)
    refine (Checks.forM fun i _ ↦ Checks.forM fun chl _ ↦ hsample i chl).congr ?_
    simp only [List.mem_range, IsStored]
    constructor
    · intro hstored _ channel hmem
      obtain ⟨chl, hchl, rfl⟩ := List.getElem_of_mem hmem
      by_contra hshort
      obtain ⟨-, channel, hchannel, hlt⟩ := hstored s.samples[chl].length (by omega) chl hchl
      obtain rfl := Option.some.inj ((List.getElem?_eq_getElem hchl).symm.trans hchannel)
      exact lt_irrefl _ hlt
    · intro hsavable i hi chl hchl
      have hlength := hsavable hdepth _ (List.getElem_mem hchl)
      exact ⟨Int.natCast_nonneg i, _, List.getElem?_eq_getElem hchl, by omega⟩
  · exact .ok (absurd · hdepth) trivial

/-- An object that writes has a number of channels that is an `int`. -/
theorem Sound.output (h : s.Sound) (hmode : s.m_eMode ≠ .input) :
    s.m_eMode = .output ∧ s.samples.length < 2 ^ 31 := by
  obtain ⟨hinput, -⟩ | ⟨houtput, hsmall, hlength⟩ := h.storage
  · exact absurd hinput hmode
  · exact ⟨houtput, hlength.trans_lt hsmall⟩

/-- The file is saved, and then the object is another one. -/
theorem Sound.checks_save_then (h : s.Sound) (hmode : s.m_eMode ≠ .input) {after : CWavFileIO α}
    (hafter : after.Sound) :
    Checks .samples s.Savable Sound (s.save >>= fun _ ↦ (.ok after : Except AccessFault _)) :=
  ((checks_save (h.output hmode).2).bind fun _ _ ↦ .pure hafter).congr (and_iff_left trivial)

theorem Sound.checks_saveBlock (h : s.Sound) (hmode : s.m_eMode ≠ .input) :
    Checks .samples (s.SavesBlock → s.Savable) Sound s.saveBlock := by
  have hforgotten : Sound { s with m_nFramesInFile := 0 } := { h with }
  unfold saveBlock
  by_cases hsaves : s.m_bWriteFileForEachFrame = true ∨ s.m_nIoBlockSize ≤ s.m_nCurrentFrameIdx
  · rw [if_pos hsaves, if_pos (.inl (h.output hmode).1)]
    exact (h.checks_save_then hmode hforgotten).congr
      ⟨fun hsavable _ ↦ hsavable, fun hsavable ↦ hsavable hsaves⟩
  · rw [if_neg hsaves]
    exact .ok (absurd · hsaves) h

theorem Sound.checks_saveFrame (h : s.Sound) (hmode : s.m_eMode ≠ .input) :
    Checks .samples (s.SavesFrame → s.Savable) Sound s.saveFrame := by
  have hcounted : Sound { s with m_nCurrentFrameIdx := s.m_nCurrentFrameIdx + 1 } := { h with }
  unfold saveFrame
  by_cases hsingle : s.m_nIoBlockSize < 1
  · rw [if_pos hsingle]
    exact (h.checks_save_then hmode h).congr
      ⟨fun hsavable _ ↦ hsavable, fun hsavable ↦ hsavable (.inl hsingle)⟩
  rw [if_neg hsingle]
  by_cases hfull : s.m_nIoBlockSize ≤ s.m_nCurrentFrameIdx + 1
  · refine Checks.congr (P := s.Savable) ?_
      ⟨fun hsavable _ ↦ hsavable, fun hsavable ↦ hsavable (.inr hfull)⟩
    dsimp only
    rw [if_pos hfull]
    exact hcounted.checks_save_then hmode { h with }
  · dsimp only
    rw [if_neg hfull]
    exact .ok (fun hsaves ↦ absurd hsaves (not_or.mpr ⟨hsingle, hfull⟩)) hcounted

/-- Samples of the same lengths are saved alike. -/
theorem savable_congr {s' : CWavFileIO α} (hdepth : s'.bitDepth = s.bitDepth)
    (h : SameLengths s.samples s'.samples) : s'.Savable ↔ s.Savable := by
  have hcount : s'.getNumSamplesPerChannel = s.getNumSamplesPerChannel := by
    unfold getNumSamplesPerChannel
    unfold SameLengths at h
    cases hfirst : s.samples with
    | nil =>
      rw [hfirst, List.map_nil, eq_comm, List.map_eq_nil_iff] at h
      rw [h]
    | cons channel rest =>
      rw [hfirst, List.map_cons, eq_comm, List.map_eq_cons_iff] at h
      obtain ⟨channel', rest', hsamples, hlength, -⟩ := h
      rw [hsamples]
      exact congrArg toInt hlength
  have hlengths (samples : List (List α)) (count : ℤ) : (∀ channel ∈ samples,
      count ≤ channel.length) ↔ ∀ length ∈ samples.map List.length, count ≤ (length : ℤ) := by
    simp
  rw [Savable, Savable, hdepth, hcount, hlengths, hlengths, h]

theorem Sound.checks_writeBlock (h : s.Sound) (pData : Option (List UInt8)) (numFrames : ℕ) :
    Checks .samples (s.InRange (.writeBlock pData numFrames)) (fun result ↦ result.2.Sound)
      (s.writeBlock conv pData numFrames) := by
  unfold writeBlock
  cases pData with
  | none => exact .ok (.inl rfl) h
  | some source =>
    dsimp only
    by_cases hrefused : numFrames < 1 ∨ s.m_numChls < 1 ∨ s.m_eMode = .input
    · rw [if_pos hrefused]
      exact .ok (.inr (.inl hrefused)) h
    · rw [if_neg hrefused]
      have hmode : s.m_eMode ≠ .input := fun hinput ↦ hrefused (.inr (.inr hinput))
      have hrange : s.InRange (.writeBlock (some source) numFrames) ↔
          s.HasFrames s.m_nCurrentFrame numFrames ∧ (s.SavesBlock → s.Savable) := by
        simp only [InRange, hrefused, false_or, reduceCtorEq]
      refine Checks.congr ((checks_putSamples s source numFrames).bind fun samples hput ↦ ?_)
        hrange.symm
      have hstored : Sound { s with
          samples := samples
          m_nFramesInFile := s.m_nFramesInFile + numFrames } :=
        { h.withSamples hmode hput.length_eq with }
      have hsaved := (hstored.checks_saveBlock hmode).congr
        (imp_congr_right fun _ ↦ savable_congr (s := s) rfl hput)
      refine (hsaved.bind fun after hafter ↦ .pure ?_).congr (and_iff_left trivial)
      exact { hafter with frame := Int.add_nonneg hafter.frame (Int.natCast_nonneg numFrames) }

/-- The sample that `readSample` reads is a sample of the file. -/
theorem Sound.isStored_rewindFrame (h : s.Sound) (hmode : s.m_eMode ≠ .output) {chl : ℕ}
    (hchl : chl < s.m_numChls) :
    IsStored s.rewindFrame.samples chl s.rewindFrame.m_nCurrentFrame := by
  obtain ⟨-, hle, F, hF, hchannels⟩ | ⟨houtput, -⟩ := h.storage
  · have hlt := hchl.trans_le hle
    have hcount := getNumSamplesPerChannel_eq (List.ne_nil_of_length_pos (Nat.zero_lt_of_lt hlt))
      hchannels
    have hlength := hchannels _ (List.getElem_mem hlt)
    have hFle := toInt_le F
    have hframe := h.frame
    unfold CWavFileIO.rewindFrame
    split_ifs with hend
    · exact ⟨le_rfl, _, List.getElem?_eq_getElem hlt, by show (0 : ℤ) < _; omega⟩
    · exact ⟨hframe, _, List.getElem?_eq_getElem hlt, by omega⟩
  · exact absurd houtput hmode

theorem Sound.checks_readSample16 (h : s.Sound) (data : BitVec 16) (chl : ℕ) :
    Checks .samples True (fun result ↦ result.2.2.Sound) (s.readSample16 data chl) := by
  unfold readSample16
  split_ifs with hrefused heof
  · exact .pure h
  · exact .pure h
  · push Not at hrefused
    obtain ⟨hchl, hmode, -⟩ := hrefused
    exact Checks.congr (Q := True)
      ((checks_sampleAt _ chl _).bind fun _ _ ↦ .pure (h.rewindFrame.countRead chl))
      (iff_of_true ⟨h.isStored_rewindFrame hmode hchl, trivial⟩ trivial)

theorem Sound.checks_padFrames (h : s.Sound) (pData : List UInt8) (numFrames : ℕ) (left : ℤ) :
    Checks .samples True (fun result ↦ result.s.Sound) (s.padFrames pData numFrames left) := by
  have hpadded (target : List UInt8) : Checks AccessFault.samples True
      (fun result : WavReadResult α ↦ result.s.Sound) (.ok ⟨true, some target, s⟩) := .pure h
  unfold padFrames
  by_cases hnone : left < 1
  · rw [if_pos hnone]
    exact .pure h
  rw [if_neg hnone]
  by_cases hbits : s.m_nBitsPerSample ≠ 16 ∧ s.m_nBitsPerSample ≠ 32
  · rw [if_pos hbits]
    exact .pure h
  rw [if_neg hbits]
  exact ((checks_callerMemory _).bind fun target _ ↦ hpadded target).congr (and_iff_left trivial)

theorem Sound.checks_readFramesAt (h : s.Sound) (pData : List UInt8) (nReadSize : ℕ) :
    Checks .samples (s.HasFrames s.m_nCurrentFrame nReadSize) (fun result ↦ result.s.Sound)
      (s.readFramesAt conv pData nReadSize) := by
  have hread (target : List UInt8) : Checks AccessFault.samples True
      (fun result : WavReadResult α ↦ result.s.Sound)
      (.ok ⟨true, some target, { s with m_nCurrentFrame := s.m_nCurrentFrame + nReadSize }⟩) :=
    .pure { h with frame := Int.add_nonneg h.frame (Int.natCast_nonneg nReadSize) }
  exact ((checks_getSamples s pData nReadSize).bind fun target _ ↦ hread target).congr
    (and_iff_left trivial)

/-- The part of `readBlock` behind the frames that are left: the padding, or a second read from the
beginning of the file. -/
theorem Sound.checks_readRest (h : s.Sound) (target : List UInt8) (numFrames : ℕ) (left : ℤ) :
    Checks .samples (s.m_bUseLoopingRead = true → s.HasFrames 0 (intToUnsigned (numFrames - left)))
      (fun result ↦ result.s.Sound)
      (if s.m_bUseLoopingRead = false then s.padFrames target numFrames left
        else readFramesAt conv { s with m_nCurrentFrame := 0 } target
          (intToUnsigned (numFrames - left))) := by
  have hrewound : Sound { s with m_nCurrentFrame := 0 } := { h with frame := le_rfl }
  by_cases hlooping : s.m_bUseLoopingRead = false
  · rw [if_pos hlooping]
    exact (h.checks_padFrames target numFrames left).congr
      (iff_of_true trivial fun htrue ↦ Bool.noConfusion (hlooping.symm.trans htrue))
  · rw [if_neg hlooping]
    exact (hrewound.checks_readFramesAt target _).congr
      ⟨fun hframes _ ↦ hframes, fun hframes ↦ hframes (Bool.not_eq_false _ ▸ hlooping)⟩

theorem Sound.checks_readBlock (h : s.Sound) (pData : Option (List UInt8)) (numFrames : ℕ) :
    Checks .samples (s.InRange (.readBlock pData numFrames)) (fun result ↦ result.s.Sound)
      (s.readBlock conv pData numFrames) := by
  unfold readBlock
  cases pData with
  | none => exact .ok (.inl rfl) h
  | some target =>
    dsimp only
    by_cases hmode : s.m_eMode = .output
    · rw [if_pos hmode]
      exact .ok (.inr (.inl hmode)) h
    rw [if_neg hmode]
    by_cases heof : s.isEOF = true ∧ s.m_bUseLoopingRead = false
    · rw [if_pos heof]
      exact .ok (.inr (.inr (.inl heof))) h
    rw [if_neg heof]
    have hrange : s.InRange (.readBlock (some target) numFrames) ↔
        s.HasFrames s.m_nCurrentFrame (min numFrames s.framesLeftInFile.toNat) ∧
          (s.m_bUseLoopingRead = true → s.framesLeftInFile < numFrames →
            s.HasFrames 0 (intToUnsigned (numFrames - s.framesLeftInFile))) := by
      simp only [InRange, hmode, heof, false_or, reduceCtorEq]
    by_cases hless : s.framesLeftInFile < numFrames
    · rw [if_pos hless]
      have hmin : min numFrames s.framesLeftInFile.toNat = s.framesLeftInFile.toNat := by omega
      rw [hmin] at hrange
      have hmoved : Sound { s with
          m_nCurrentFrame := s.m_nCurrentFrame + s.framesLeftInFile.toNat } :=
        { h with frame := Int.add_nonneg h.frame (Int.natCast_nonneg _) }
      refine Checks.congr ((checks_getSamples s target s.framesLeftInFile.toNat).bind
        fun target _ ↦ hmoved.checks_readRest target numFrames s.framesLeftInFile) ?_
      rw [hrange]
      exact and_congr_right fun _ ↦ imp_congr_right fun _ ↦ ⟨fun hframes _ ↦ hframes, (· hless)⟩
    · rw [if_neg hless]
      have hmin : min numFrames s.framesLeftInFile.toNat = numFrames := by omega
      rw [hmin] at hrange
      refine (h.checks_readFramesAt target numFrames).congr ?_
      rw [hrange]
      simp [hless]

theorem Sound.countFrame (h : s.Sound) : s.countFrame.Sound :=
  { h with frame := Int.add_nonneg h.frame Int.one_nonneg }

theorem Sound.checks_nextFrame (h : s.Sound) :
    Checks .samples (s.InRange .nextFrame) (fun result ↦ result.2.Sound) s.nextFrame := by
  by_cases hmode : s.m_eMode = .input
  · rw [nextFrame_input hmode]
    refine .ok (.inl hmode) ?_
    split_ifs
    · exact { h with }
    · exact Sound.countFrame { h with }
  · have houtput := (h.output hmode).1
    have hcounted (s' : CWavFileIO α) (hafter : s'.Sound) : Checks AccessFault.samples True
        (fun result : Bool × CWavFileIO α ↦ result.2.Sound)
        (.ok (true, CWavFileIO.countFrame { s' with m_lastChlWritten := -1 })) :=
      .pure (Sound.countFrame { hafter with })
    have hchecks := (h.checks_saveFrame hmode).bind hcounted
    unfold nextFrame
    rw [houtput]
    exact hchecks.congr ((and_iff_left trivial).trans (or_iff_right hmode).symm)

theorem Sound.checks_answer [Zero α] (h : s.Sound) (call : WavCall) :
    Checks .samples (s.InRange call) (fun result ↦ result.2.Sound) (s.answer conv call) := by
  cases call with
  | writeSample16 data chl => exact h.checks_writeSample16 data chl
  | writeBlock pData numFrames => exact h.checks_writeBlock pData numFrames
  | readSample16 data chl =>
    exact (h.checks_readSample16 data chl).map fun _ hsound ↦ hsound
  | readBlock pData numFrames =>
    exact (h.checks_readBlock pData numFrames).map fun _ hsound ↦ hsound
  | nextFrame => exact h.checks_nextFrame
  | setCurrentFrame frameNum =>
    refine .ok trivial ?_
    unfold setCurrentFrame
    split_ifs
    · exact h
    · exact h
    · exact { h with frame := Int.natCast_nonneg frameNum }
  | setLoopingRead value => exact .ok trivial { h with }
  | setIoBlockSize numFrames => exact .ok trivial { h with }
  | setSampleRate rate => exact .ok trivial { h with }
  | setFrameOutputWriteFlag value => exact .ok trivial { h with }

/-- A call is answered exactly when it is in range. -/
theorem Sound.step [Zero α] {before after : CWavFileIO α} {call : WavCall} {reply : Option Bool}
    (h : before.Sound) (hstep : Step conv before call reply after) :
    after.Sound ∧ (reply ≠ none ↔ before.InRange call) := by
  obtain ⟨hok, hbad⟩ := h.checks_answer call
  cases hstep with
  | answered hanswer =>
    obtain ⟨hrange, hafter⟩ := hok _ hanswer
    exact ⟨hafter, iff_of_true nofun hrange⟩
  | outOfRange hanswer =>
    exact ⟨h, iff_of_false (fun hne ↦ hne rfl) fun hrange ↦ hbad hrange hanswer⟩

section Opened

variable [Zero α] {sFilePath : List Char} {outcome : LoadOutcome α} {after : CWavFileIO α}

/-- `openFile` has just succeeded, for the input of channels that have one length, or for output. -/
inductive Opened : CWavFileIO α → Prop
  | input {s after : CWavFileIO α} {sFilePath : List Char} {outcome : LoadOutcome α} {F : ℕ}
      (hload : ∀ channel ∈ outcome.samples, channel.length = F)
      (hopen : s.openFile .input sFilePath outcome = some (true, after)) : Opened after
  | output {s after : CWavFileIO α} {sFilePath : List Char} {outcome : LoadOutcome α}
      (hchannels : s.m_numChls < 2 ^ 32)
      (hopen : s.openFile .output sFilePath outcome = some (true, after)) : Opened after

theorem Opened.sound (h : Opened s) : s.Sound := by
  cases h with
  | @input _ _ _ _ F hload hopen =>
    obtain ⟨hstart, hsamples, -⟩ := openFile_input hopen
    rw [← hsamples] at hload
    refine ⟨hstart.frame.ge, .inl ⟨hstart.mode, ?_, F, ?_, hload⟩⟩
    · rw [hstart.channels]
      exact intToUnsigned_toInt_le _
    · rw [← getNumSamplesPerChannel_eq hstart.samples_ne hload]
      exact hstart.nonempty
  | output hchannels hopen =>
    obtain ⟨hmode, hframe, hsmall, hlength⟩ := openFile_output hchannels hopen
    exact ⟨hframe.ge, .inr ⟨hmode, hsmall, hlength⟩⟩

/-- In every run from an object that was just opened, all calls have their indices inside of the
samples exactly when each call meets its condition on the state before it. -/
theorem answered_iff (conv : SampleConversion α) (hopened : Opened s) {final : CWavFileIO α}
    {trace : List (Call _ WavCall (Option Bool))} (hrun : Run (Step conv) s trace final) :
    (∀ call ∈ trace, call.reply ≠ none) ↔ ∀ call ∈ trace, call.before.InRange call.label :=
  forall₂_congr (hrun.forall_calls Sound
    (fun _ _ _ _ hsound hstep ↦ (hsound.step hstep).1)
    (fun _ _ _ _ hsound hstep ↦ (hsound.step hstep).2) hopened.sound)

end Opened

theorem opened_blankFile : Opened blankFile := .output (by decide) openFile_blankFile

theorem opened_stereoFile : Opened stereoFile := .output (by decide) openFile_stereoFile

/-- A frame of both channels, which `nextFrame` saves, and the same frame in a block. -/
theorem answered_iff_stereo : ∃ trace final,
    Run (Step integerConversion) stereoFile trace final ∧
      trace.map Call.label = [.writeSample16 7 0, .writeSample16 8 1, .nextFrame,
        .setCurrentFrame 0, .writeBlock (some [1, 0, 2, 0]) 1] ∧
      ∀ call ∈ trace, call.before.InRange call.label := by
  have hexists : ∃ trace final, Run (Step integerConversion) stereoFile trace final ∧
      trace.map Call.label = [.writeSample16 7 0, .writeSample16 8 1, .nextFrame,
        .setCurrentFrame 0, .writeBlock (some [1, 0, 2, 0]) 1] ∧
      ∀ call ∈ trace, call.reply ≠ none := by
    refine Run.exists_cons _ (.answered rfl) <| Run.exists_cons _ (.answered rfl) <|
      Run.exists_cons _ (.answered rfl) <| Run.exists_cons _ (.answered rfl) <|
      Run.exists_cons _ (.answered rfl) ⟨_, _, .nil _, rfl, ?_⟩
    simp
  obtain ⟨trace, final, hrun, hlabels, hreplies⟩ := hexists
  exact ⟨trace, final, hrun, hlabels,
    (answered_iff integerConversion opened_stereoFile hrun).mp hreplies⟩

/-- `writeBlock` of one frame into a file that is still empty; and `nextFrame`, which saves the
file, where only one of two channels has a sample. -/
theorem not_answered_blank :
    (∃ final, Run (Step integerConversion) stereoFile
        [⟨stereoFile, .writeSample16 7 0, some true⟩,
          ⟨countWritten { stereoFile with samples := [[7], []] } 0, .nextFrame, none⟩] final) ∧
      ¬∀ (s final : CWavFileIO ℤ) (trace : List (Call _ _ _)), Opened s →
        Run (Step integerConversion) s trace final → ∀ call ∈ trace, call.reply ≠ none := by
  refine ⟨⟨_, .cons (.answered rfl) (.cons (.outOfRange rfl) (.nil _))⟩, fun h ↦ ?_⟩
  have hrun : Run (Step integerConversion) blankFile
      [⟨blankFile, .writeBlock (some [1, 0]) 1, none⟩] blankFile :=
    .cons (.outOfRange rfl) (.nil _)
  exact h _ _ _ opened_blankFile hrun _ List.mem_cons_self rfl

end CWavFileIO

end RdbLibs.FileIO
