import RdbLibs.FileIO.CRawAudioFileIO.Sampling

/-!
# Writing a raw audio file sample by sample

The file that `writeSample` and `nextFrame` leave, compared with the one that a single call of
`writeBlock` leaves. `closeFile` drops what does not fill an I/O block, so that the files are the
same only if blocks fill up exactly (`same_file_iff_dvd`). Where the size of a frame wraps around,
each transfer and the single call take too few bytes, from different places; where it wraps around
to zero, both files are empty, and the samples have to fit in the frame buffer
(`same_file_iff_room`).
-/

set_option autoImplicit false
set_option relaxedAutoImplicit false

namespace RdbLibs.FileIO.CRawAudioFileIO

open BlockBuffer MachineWord

/-- The overload of `writeSample` for the sample size. There is none for samples of a byte. -/
def AudioConfig.writeSample (config : AudioConfig) : SampleWriter :=
  if config.bitsPerSample = 32 then writeSample32 else writeSample16

/-- The file that is left when frames are written sample by sample. -/
def sampleWise (config : AudioConfig) (file : Option (List UInt8)) (sFilePath : List Char)
    (frames : List (List ℤ)) : Option (Option (List UInt8)) := do
  let (_, s) ← (config.object file).openFile .output sFilePath ⟨true, true, true⟩
  let s ← s.writeFrames config.writeSample frames
  return s.closeFile.2.onDisk

/-- The file that is left when frames are written by one call of `writeBlock`. -/
def blockWise (config : AudioConfig) (file : Option (List UInt8)) (sFilePath : List Char)
    (frames : List (List ℤ)) : Option (Option (List UInt8)) := do
  let (_, s) ← (config.object file).openFile .output sFilePath ⟨true, true, true⟩
  let pData := framesData (sampleBytes config.bitsPerSample) frames
  let (_, s) ← s.writeBlock (some pData) (toUnsigned frames.length)
  return s.closeFile.2.onDisk

/-- Both ways of writing frames have a result, and leave the same file. -/
def SameFile (config : AudioConfig) (file : Option (List UInt8)) (sFilePath : List Char)
    (frames : List (List ℤ)) : Prop :=
  ∃ left, sampleWise config file sFilePath frames = some left ∧
    blockWise config file sFilePath frames = some left

variable {config : AudioConfig}

section Files

variable {file : Option (List UInt8)} {sFilePath : List Char} {frames : List (List ℤ)}
  (hbits : config.bitsPerSample ≠ 8) (hpath : sFilePath ≠ [])
  (hframes : ∀ frame ∈ frames, frame.length = config.numChannels)

include hbits in
theorem AudioConfig.writeSample_eq :
    config.writeSample = writeSampleOfSize (sampleBytes config.bitsPerSample) := by
  rw [AudioConfig.writeSample, sampleBytes, if_neg hbits]
  split_ifs
  · rfl
  · rfl

theorem same_file_iff_eq {left right : Option (List UInt8)}
    (hleft : sampleWise config file sFilePath frames = some left)
    (hright : blockWise config file sFilePath frames = some right) :
    SameFile config file sFilePath frames ↔ left = right := by
  rw [SameFile, hleft, hright]
  simp [eq_comm]

include hbits in
/-- Without channels, no file is opened. -/
theorem same_file_without_channels (hnone : config.numChannels = 0) :
    SameFile config file sFilePath frames := by
  have hopen : (config.object file).openFile .output sFilePath ⟨true, true, true⟩ =
      some (false, config.object file) := if_pos (.inr (hnone.trans_lt Nat.zero_lt_one))
  refine ⟨file, ?_, ?_⟩
  · rw [sampleWise, hopen]
    show (writeFrames _ _ frames >>= _) = _
    rw [AudioConfig.writeSample_eq hbits, writeFrames_refused rfl]
    rfl
  · rw [blockWise, hopen]
    show (writeBlock _ _ _ >>= _) = _
    have hrefused (source : List UInt8) (numFrames : ℕ) :
        (config.object file).writeBlock (some source) numFrames =
          some (false, config.object file) := if_pos (.inr (.inr rfl))
    rw [hrefused]
    rfl

section Opened

variable (file) (hchls : 1 ≤ config.numChannels)
include hpath hchls

include hframes in
theorem blockWise_eq (hcount : frames.length < 2 ^ 32) :
    blockWise config file sFilePath frames =
      some (some ((framesData (sampleBytes config.bitsPerSample) frames).take
        (config.frameSize * frames.length))) := by
  obtain ⟨after, hwrite, hafter⟩ :=
    (writing_writer config file sFilePath true).append_block (frameSize_mul_le hframes)
  rw [blockWise, AudioConfig.openFile_output hchls hpath true file]
  show (writeBlock _ _ (toUnsigned frames.length) >>= _) = _
  rw [toUnsigned_of_lt hcount, hwrite]
  exact congrArg some hafter.file_closeFile

include hbits in
theorem sampleWise_eq {after : CRawAudioFileIO} {content buffer : List UInt8} {index : ℕ}
    (hwrites : (config.writer file sFilePath true).writeFrames
      (writeSampleOfSize (sampleBytes config.bitsPerSample)) frames = some after)
    (hafter : Writing config content buffer index after) :
    sampleWise config file sFilePath frames = some (some content) := by
  rw [sampleWise, AudioConfig.openFile_output hchls hpath true file]
  show (writeFrames _ _ frames >>= _) = _
  rw [AudioConfig.writeSample_eq hbits, hwrites]
  exact congrArg some hafter.file_closeFile

include hbits hframes

theorem sampleWise_flush (hint : config.numFrames < 2 ^ 31)
    (hfits : config.numChannels * config.blockFrames < 2 ^ 32)
    (hflush : config.numFrames < 1 ∨ config.frameSize ≠ 0) :
    sampleWise config file sFilePath frames =
      some (some (emitted config.blockFrames config.transferred [] frames)) := by
  have hsamples : config.bufferSamples = config.blockFrames * config.numChannels := by
    rw [AudioConfig.bufferSamples_eq hint]
    split_ifs with hsingle
    · rw [AudioConfig.blockFrames, if_pos hsingle, Nat.one_mul]
    · rw [toUnsigned_of_lt hfits, Nat.mul_comm]
  have hlt : config.bufferSamples < 2 ^ 32 := by rwa [hsamples, Nat.mul_comm]
  obtain ⟨after, buffer, index, hwrites, hafter⟩ :=
    (sampling_writer config file sFilePath true).flush_frames hlt hframes hsamples hflush
      config.one_le_blockFrames
  exact sampleWise_eq file hbits hpath hchls hwrites hafter

theorem sampleWise_hold (hint : config.numFrames < 2 ^ 31)
    (hlt : config.numChannels < 2 ^ 32) (hblock : 1 ≤ config.numFrames)
    (hhold : config.frameSize = 0 ∨ 2 ^ 32 ≤ config.numChannels * config.blockFrames) :
    sampleWise config file sFilePath frames =
      if frames.length * config.numChannels ≤ config.bufferSamples then some (some [])
      else none := by
  have hsamples := AudioConfig.bufferSamples_lt hint hlt
  have hrun := (sampling_writer config file sFilePath true).hold_frames hsamples hframes hblock
    (hhold.imp_right fun hwraps ↦ by
      rw [Nat.mul_comm]
      exact hsamples.trans_le hwraps)
    (by rw [List.length_nil, Nat.zero_mul]; exact Nat.zero_le _)
  rw [List.length_nil, Nat.zero_add] at hrun
  split_ifs at hrun ⊢ with hroom
  · obtain ⟨after, buffer, index, hwrites, hafter⟩ := hrun
    exact sampleWise_eq file hbits hpath hchls hwrites hafter
  · rw [sampleWise, AudioConfig.openFile_output hchls hpath true file]
    show (writeFrames _ _ frames >>= _) = _
    rw [AudioConfig.writeSample_eq hbits, hrun]
    rfl

end Opened

section Pieces

/-- What is taken of each block is what a single call of `writeBlock` has in its place. -/
def AudioConfig.InPlace (config : AudioConfig) (frames : List (List ℤ)) : Prop :=
  ∀ k < frames.length / config.blockFrames,
    ((framesData (sampleBytes config.bitsPerSample) frames).drop
      (config.numChannels * sampleBytes config.bitsPerSample * (config.blockFrames * k))).take
      (config.frameSize * config.blockFrames) =
    ((framesData (sampleBytes config.bitsPerSample) frames).drop
      (config.frameSize * config.blockFrames * k)).take (config.frameSize * config.blockFrames)

include hframes

/-- What is transferred of a block, in the memory of all frames. -/
theorem transferred_block {k : ℕ} (hk : k < frames.length / config.blockFrames) :
    config.transferred ((frames.drop (config.blockFrames * k)).take config.blockFrames) =
        ((framesData (sampleBytes config.bitsPerSample) frames).drop
          (config.numChannels * sampleBytes config.bitsPerSample * (config.blockFrames * k))).take
          (config.frameSize * config.blockFrames) ∧
      (config.transferred
        ((frames.drop (config.blockFrames * k)).take config.blockFrames)).length =
        config.frameSize * config.blockFrames := by
  have hinside : config.blockFrames * (k + 1) ≤ frames.length :=
    (Nat.mul_le_mul_left _ hk).trans (Nat.mul_div_le _ _)
  rw [Nat.mul_succ] at hinside
  have hfull : ((frames.drop (config.blockFrames * k)).take config.blockFrames).length =
      config.blockFrames := by
    rw [List.length_take_of_le]
    rw [List.length_drop]
    omega
  have hbytes : config.frameSize * config.blockFrames ≤
      (framesData (sampleBytes config.bitsPerSample)
        ((frames.drop (config.blockFrames * k)).take config.blockFrames)).length := by
    refine (Nat.mul_le_mul_left _ hfull.ge).trans (frameSize_mul_le fun frame hframe ↦ ?_)
    exact hframes frame (List.mem_of_mem_drop (List.mem_of_mem_take hframe))
  refine ⟨?_, List.length_take_of_le hbytes⟩
  rw [AudioConfig.transferred, ← List.take_append_of_le_length hbytes, ← framesData_append,
    List.take_append_drop, framesData_drop _ hframes (Nat.le_of_add_right_le hinside)]

/-- Blocks leave all frames in the file if the frames fill blocks up, in place. -/
theorem emitted_eq_take_iff (hsize : config.frameSize ≠ 0) :
    emitted config.blockFrames config.transferred [] frames =
        (framesData (sampleBytes config.bitsPerSample) frames).take
          (config.frameSize * frames.length) ↔
      config.blockFrames ∣ frames.length ∧ config.InPlace frames := by
  have hpieces (k : ℕ) (hk : k < frames.length / config.blockFrames) :=
    (transferred_block hframes hk).2
  have hwhole := frameSize_mul_le hframes
  have hplace : config.blockFrames ∣ frames.length →
      (emitted config.blockFrames config.transferred [] frames =
          (framesData (sampleBytes config.bitsPerSample) frames).take
            (config.frameSize * frames.length) ↔ config.InPlace frames) := by
    intro hdvd
    have hlength : config.frameSize * config.blockFrames * (frames.length / config.blockFrames) =
        config.frameSize * frames.length := by
      rw [Nat.mul_assoc, Nat.mul_div_cancel' hdvd]
    rw [← hlength] at hwhole ⊢
    rw [emitted_eq_flatMap config.one_le_blockFrames rfl, flatMap_range_eq_take_iff hpieces hwhole]
    refine forall₂_congr fun k hk ↦ ?_
    rw [(transferred_block hframes hk).1]
  refine ⟨fun heq ↦ ?_, fun ⟨hdvd, hinPlace⟩ ↦ (hplace hdvd).mpr hinPlace⟩
  have hdvd : config.blockFrames ∣ frames.length := by
    have hlength := congrArg List.length heq
    rw [emitted_eq_flatMap config.one_le_blockFrames rfl, length_flatMap_range hpieces,
      List.length_take_of_le hwhole, Nat.mul_assoc] at hlength
    exact Dvd.intro _ (Nat.eq_of_mul_eq_mul_left (Nat.pos_of_ne_zero hsize) hlength)
  exact ⟨hdvd, (hplace hdvd).mp heq⟩

end Pieces

/-- Without frames, both files are empty. -/
theorem same_file_nil (hpath : sFilePath ≠ []) (hchls : 1 ≤ config.numChannels)
    (hbits : config.bitsPerSample ≠ 8) : SameFile config file sFilePath [] := by
  refine ⟨some [], ?_, ?_⟩
  · exact sampleWise_eq file hbits hpath hchls rfl (writing_writer config file sFilePath true)
  · exact blockWise_eq file hpath (List.forall_mem_nil _) hchls (by decide)

theorem emitted_of_frameSize_zero (hsize : config.frameSize = 0) :
    emitted config.blockFrames config.transferred [] frames = [] := by
  rw [emitted_eq_flatMap config.one_le_blockFrames rfl, List.flatMap_eq_nil_iff]
  intro k _
  rw [AudioConfig.transferred, hsize, Nat.zero_mul, List.take_zero]

section Cases

variable (hchls : config.numChannels < 2 ^ 32) (hint : config.numFrames < 2 ^ 31)
  (hcount : frames.length < 2 ^ 32) (hpos : 1 ≤ config.numChannels)
include hbits hpath hframes hchls hint hcount hpos

/-- Frames whose size wraps around to zero are not written, and have to fit in the frame buffer. -/
theorem same_file_iff_room (hsize : config.frameSize = 0) :
    SameFile config file sFilePath frames ↔
      config.numFrames < 1 ∨ frames.length * config.numChannels ≤ config.bufferSamples := by
  have hright := blockWise_eq file hpath hframes hpos hcount
  rw [hsize, Nat.zero_mul, List.take_zero] at hright
  rcases lt_or_ge config.numFrames 1 with hsingle | hblock
  · have hfits : config.numChannels * config.blockFrames < 2 ^ 32 := by
      rwa [AudioConfig.blockFrames, if_pos hsingle, Nat.mul_one]
    have hleft := sampleWise_flush file hbits hpath hframes hpos hint hfits (.inl hsingle)
    rw [emitted_of_frameSize_zero hsize] at hleft
    exact iff_of_true ⟨_, hleft, hright⟩ (.inl hsingle)
  · have hleft := sampleWise_hold file hbits hpath hframes hpos hint hchls hblock
      (.inl hsize)
    rw [or_iff_right (not_lt.mpr hblock), SameFile, hleft, hright]
    split_ifs with hroom
    · exact iff_of_true ⟨_, rfl, rfl⟩ hroom
    · exact iff_of_false (by simp) hroom

/-- Frames that have a size are written in blocks, which have to fit in the frame buffer. -/
theorem same_file_iff_blocks (hsize : config.frameSize ≠ 0) (hsome : frames ≠ []) :
    SameFile config file sFilePath frames ↔
      config.numChannels * config.blockFrames < 2 ^ 32 ∧
        config.blockFrames ∣ frames.length ∧ config.InPlace frames := by
  have hright := blockWise_eq file hpath hframes hpos hcount
  rcases lt_or_ge (config.numChannels * config.blockFrames) (2 ^ 32) with hfits | hwraps
  · have hleft := sampleWise_flush file hbits hpath hframes hpos hint hfits (.inr hsize)
    rw [same_file_iff_eq hleft hright, Option.some_inj, emitted_eq_take_iff hframes hsize,
      and_iff_right hfits]
  · have hblock : 1 ≤ config.numFrames := by
      by_contra hsingle
      rw [AudioConfig.blockFrames, if_pos (Int.not_le.mp hsingle), Nat.mul_one] at hwraps
      exact Nat.not_lt.mpr hwraps hchls
    have hleft := sampleWise_hold file hbits hpath hframes hpos hint hchls hblock
      (.inr hwraps)
    have hwritten : (framesData (sampleBytes config.bitsPerSample) frames).take
        (config.frameSize * frames.length) ≠ [] := by
      apply List.ne_nil_of_length_pos
      rw [List.length_take_of_le (frameSize_mul_le hframes)]
      exact Nat.mul_pos (Nat.pos_of_ne_zero hsize) (List.length_pos_of_ne_nil hsome)
    refine iff_of_false ?_ fun h ↦ Nat.not_lt.mpr hwraps h.1
    rintro ⟨left, hsample, hblockWise⟩
    rw [hleft] at hsample
    split_ifs at hsample
    rw [hright, ← hsample, Option.some_inj, Option.some_inj] at hblockWise
    exact hwritten hblockWise

end Cases

/-- Frames whose size does not wrap around are in place. -/
theorem inPlace_of_lt
    (hfits : config.numChannels * sampleBytes config.bitsPerSample < 2 ^ 32) :
    config.InPlace frames := by
  intro k _
  rw [AudioConfig.frameSize, toUnsigned_of_lt hfits, Nat.mul_assoc _ config.blockFrames]

/-- Frames of less than 4 GiB, with I/O blocks that the frame buffer has room for, are all written
if and only if they fill up blocks. -/
theorem same_file_iff_dvd (hbits : config.bitsPerSample ≠ 8) (hpath : sFilePath ≠ [])
    (hframes : ∀ frame ∈ frames, frame.length = config.numChannels)
    (hint : config.numFrames < 2 ^ 31) (hcount : frames.length < 2 ^ 32) (hsome : frames ≠ [])
    (hpos : 1 ≤ config.numChannels)
    (hfits : config.numChannels * sampleBytes config.bitsPerSample < 2 ^ 32)
    (hroom : config.numChannels * config.blockFrames < 2 ^ 32) :
    SameFile config file sFilePath frames ↔ config.blockFrames ∣ frames.length := by
  have hchls : config.numChannels < 2 ^ 32 :=
    (Nat.le_mul_of_pos_right _ config.one_le_blockFrames).trans_lt hroom
  have hsize : config.frameSize ≠ 0 := by
    rw [AudioConfig.frameSize, toUnsigned_of_lt hfits]
    exact Nat.mul_ne_zero (Nat.one_le_iff_ne_zero.mp hpos)
      (Nat.one_le_iff_ne_zero.mp (one_le_sampleBytes _))
  rw [same_file_iff_blocks hbits hpath hframes hchls hint hcount hpos hsize hsome,
    and_iff_right hroom, and_iff_left (inPlace_of_lt hfits)]

/-- Assumes: there is an overload of `writeSample` for the sample size; the configuration, and the
number of frames that `writeBlock` is called with, are values of their types; and a frame has a
sample for every channel. -/
theorem same_file_iff (hbits : config.bitsPerSample ≠ 8) (hpath : sFilePath ≠ [])
    (hchls : config.numChannels < 2 ^ 32) (hint : config.numFrames < 2 ^ 31)
    (hframes : ∀ frame ∈ frames, frame.length = config.numChannels)
    (hcount : frames.length < 2 ^ 32) :
    SameFile config file sFilePath frames ↔
      frames = [] ∨ config.numChannels = 0 ∨
      (config.frameSize = 0 ∧ (config.numFrames < 1 ∨
        frames.length * config.numChannels ≤ config.bufferSamples)) ∨
      (config.frameSize ≠ 0 ∧ config.numChannels * config.blockFrames < 2 ^ 32 ∧
        config.blockFrames ∣ frames.length ∧ config.InPlace frames) := by
  rcases Nat.eq_zero_or_pos config.numChannels with hnone | hpos
  · exact iff_of_true (same_file_without_channels hbits hnone) (.inr (.inl hnone))
  rcases eq_or_ne frames [] with rfl | hsome
  · exact iff_of_true (same_file_nil hpath hpos hbits) (.inl rfl)
  rw [or_iff_right hsome, or_iff_right hpos.ne']
  rcases eq_or_ne config.frameSize 0 with hsize | hsize
  · rw [same_file_iff_room hbits hpath hframes hchls hint hcount hpos hsize]
    simp [hsize]
  · rw [same_file_iff_blocks hbits hpath hframes hchls hint hcount hpos hsize hsome]
    simp [hsize]

end Files

theorem same_file_iff_stereo :
    SameFile ⟨2, 16, 48000, 2, false, false⟩ none ['a'] [[1, -1], [2, -2]] :=
  (same_file_iff (by decide) (by decide) (by decide) (by decide) (by decide) (by decide)).mpr
    (.inr (.inr (.inr ⟨by decide, by decide, by decide, inPlace_of_lt (by decide)⟩)))

/-- A frame that does not fill a block of two frames is not in the file. -/
theorem partial_block_is_lost :
    sampleWise ⟨1, 16, 48000, 2, false, false⟩ none ['a'] [[1]] = some (some []) ∧
      blockWise ⟨1, 16, 48000, 2, false, false⟩ none ['a'] [[1]] = some (some [1, 0]) ∧
      ¬SameFile ⟨1, 16, 48000, 2, false, false⟩ none ['a'] [[1]] := by
  have hleft :
      sampleWise ⟨1, 16, 48000, 2, false, false⟩ none ['a'] [[1]] = some (some []) := by decide
  have hright :
      blockWise ⟨1, 16, 48000, 2, false, false⟩ none ['a'] [[1]] = some (some [1, 0]) := by decide
  refine ⟨hleft, hright, fun hsame ↦ ?_⟩
  rw [same_file_iff_eq hleft hright] at hsame
  exact absurd hsame (by decide)

end RdbLibs.FileIO.CRawAudioFileIO
