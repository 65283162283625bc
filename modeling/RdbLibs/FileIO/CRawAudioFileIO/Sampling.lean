import Mathlib.Tactic.Linarith
import RdbLibs.Foundations.BlockBuffer
import RdbLibs.FileIO.CRawAudioFileIO.Writing

/-!
# Samples in the frame buffer

`writeSample` puts samples into the frame buffer, and `nextFrame` transfers the buffer when it holds
an I/O block, and goes on to the next frame otherwise. Where blocks are transferred, the file has
what a buffer of blocks emits (`Sampling.flush_frames`). Where the size of a frame or of the frame
buffer wraps around, nothing is transferred, and the index goes on until it leaves the buffer
(`Sampling.hold_frames`).
-/

set_option autoImplicit false
set_option relaxedAutoImplicit false

namespace RdbLibs.FileIO.CRawAudioFileIO

open BlockBuffer ByteCodec CheckedMemory MachineWord

/-- An overload of `writeSample`. -/
abbrev SampleWriter : Type := CRawAudioFileIO → ℤ → ℕ → Option (Bool × CRawAudioFileIO)

/-- Calls of `writeSample`, for the channels from `chl` on. -/
def writeSamples (writeSample : SampleWriter) (s : CRawAudioFileIO) (chl : ℕ) :
    List ℤ → Option CRawAudioFileIO
  | [] => some s
  | data :: samples => do
    let (_, s) ← writeSample s data chl
    s.writeSamples writeSample (chl + 1) samples

/-- Calls of `writeSample` for every channel of a frame and of `nextFrame`, for some frames. -/
def writeFrames (writeSample : SampleWriter) (s : CRawAudioFileIO) :
    List (List ℤ) → Option CRawAudioFileIO
  | [] => some s
  | frame :: frames => do
    let s ← s.writeSamples writeSample 0 frame
    let (_, s) ← s.nextFrame
    s.writeFrames writeSample frames

/-- A frame in memory. -/
def frameData (size : ℕ) (frame : List ℤ) : List UInt8 :=
  frame.flatMap fun data ↦ littleEndian size (data % 256 ^ size).toNat

/-- Frames in memory. -/
def framesData (size : ℕ) (frames : List (List ℤ)) : List UInt8 := frames.flatMap (frameData size)

theorem length_frameData (size : ℕ) (frame : List ℤ) :
    (frameData size frame).length = frame.length * size := by
  induction frame with
  | nil => exact (Nat.zero_mul size).symm
  | cons data frame ih =>
    rw [frameData, List.flatMap_cons, List.length_append, length_littleEndian, ← frameData, ih,
      List.length_cons, Nat.succ_mul, Nat.add_comm]

theorem length_framesData {numChannels : ℕ} (size : ℕ) {frames : List (List ℤ)}
    (h : ∀ frame ∈ frames, frame.length = numChannels) :
    (framesData size frames).length = numChannels * size * frames.length := by
  induction frames with
  | nil => rfl
  | cons frame frames ih =>
    rw [List.forall_mem_cons] at h
    rw [framesData, List.flatMap_cons, List.length_append, length_frameData, h.1, ← framesData,
      ih h.2, List.length_cons, Nat.mul_succ, Nat.add_comm]

theorem framesData_append (size : ℕ) (frames others : List (List ℤ)) :
    framesData size (frames ++ others) = framesData size frames ++ framesData size others :=
  List.flatMap_append

theorem framesData_concat (size : ℕ) (frames : List (List ℤ)) (frame : List ℤ) :
    framesData size (frames ++ [frame]) = framesData size frames ++ frameData size frame := by
  rw [framesData_append]
  exact congrArg _ (List.flatMap_singleton _ _)

theorem framesData_drop {numChannels : ℕ} (size : ℕ) {frames : List (List ℤ)}
    (h : ∀ frame ∈ frames, frame.length = numChannels) {count : ℕ}
    (hcount : count ≤ frames.length) :
    framesData size (frames.drop count) =
      (framesData size frames).drop (numChannels * size * count) := by
  have hfirst : (framesData size (frames.take count)).length = numChannels * size * count := by
    rw [length_framesData size fun frame hframe ↦ h frame (List.mem_of_mem_take hframe),
      List.length_take_of_le hcount]
  conv_rhs => rw [← List.take_append_drop count frames, framesData_append]
  exact (List.drop_left' hfirst).symm

variable {config : AudioConfig} {content buffer : List UInt8} {index size : ℕ} {s : CRawAudioFileIO}

/-- Frames are at least as many bytes as are written of them. -/
theorem frameSize_mul_le {frames : List (List ℤ)}
    (h : ∀ frame ∈ frames, frame.length = config.numChannels) :
    config.frameSize * frames.length ≤
      (framesData (sampleBytes config.bitsPerSample) frames).length := by
  rw [length_framesData _ h]
  exact Nat.mul_le_mul_right _ (frameSize_le config)

theorem Writing.framebuffer_ne_none (h : Writing config content buffer index s) :
    s.m_pFramebuffer ≠ none := by
  rw [h.buffer]
  exact Option.some_ne_none _

/-- Without a frame buffer, nothing is written. -/
theorem writeFrames_refused (hbuffer : s.m_pFramebuffer = none) {frames : List (List ℤ)} :
    s.writeFrames (writeSampleOfSize size) frames = some s := by
  have hsamples (samples : List ℤ) :
      ∀ chl, s.writeSamples (writeSampleOfSize size) chl samples = some s := by
    induction samples with
    | nil => exact fun _ ↦ rfl
    | cons data samples ih =>
      intro chl
      rw [writeSamples, writeSampleOfSize, hbuffer]
      exact ih (chl + 1)
  induction frames with
  | nil => rfl
  | cons frame frames ih =>
    rw [writeFrames, hsamples, Option.bind_eq_bind, Option.bind_some, nextFrame, hbuffer]
    exact ih

/-! ### Samples -/

/-- Where `writeSample` and `readSample` have a sample. -/
theorem sampleIndex {numChannels : ℕ} (hindex : s.m_nCurrentFrameIdx = index)
    (hchannels : s.m_numChls = numChannels) (chl : ℕ) :
    (if s.m_nCurrentFrameIdx < 1 then chl
      else toUnsigned (s.m_nCurrentFrameIdx * s.m_numChls) + chl) =
      toUnsigned (index * numChannels) + chl := by
  rw [hindex, hchannels]
  split_ifs with hfirst
  · rw [Nat.lt_one_iff.mp hfirst, Nat.zero_mul, toUnsigned, Nat.zero_mod, Nat.zero_add]
  · rfl

section Samples

variable (hbits : config.bitsPerSample = 8 * size)
include hbits

theorem Writing.sampleAccepted (h : Writing config content buffer index s) {chl : ℕ}
    (hchl : chl < config.numChannels) :
    ¬(s.m_numChls ≤ chl ∨ s.m_eMode = .input ∨ s.m_nBitsPerSample ≠ 8 * size) := by
  rw [h.channels, h.mode, h.bits, hbits]
  simpa using hchl

/-- A sample that the buffer has room for is stored. -/
theorem Writing.store_sample (h : Writing config content buffer index s) {chl : ℕ}
    (hchl : chl < config.numChannels) {data : ℤ} {buffer' : List UInt8}
    (hstore : storeRange buffer (size * (toUnsigned (index * config.numChannels) + chl))
      (littleEndian size (data % 256 ^ size).toNat) = .ok buffer') :
    ∃ after, s.writeSampleOfSize size data chl = some (true, after) ∧
      Writing config content buffer' index after := by
  rw [← sampleIndex h.index h.channels chl] at hstore
  rw [writeSampleOfSize, h.buffer]
  dsimp only
  rw [if_neg (h.sampleAccepted hbits hchl), hstore]
  show ∃ after, ite _ _ _ = _ ∧ _
  split_ifs with hlast
  · exact ⟨_, rfl, h.mode, h.channels, h.frameSize, h.bits, h.block, rfl, h.index, h.stream⟩
  · exact ⟨_, rfl, h.mode, h.channels, h.frameSize, h.bits, h.block, rfl, h.index, h.stream⟩

/-- A sample that the buffer has no room for is stored outside of it. -/
theorem Writing.sample_faults (h : Writing config content buffer index s) {chl : ℕ}
    (hchl : chl < config.numChannels) {data : ℤ} {fault : Fault}
    (hstore : storeRange buffer (size * (toUnsigned (index * config.numChannels) + chl))
      (littleEndian size (data % 256 ^ size).toNat) = .error fault) :
    s.writeSampleOfSize size data chl = none := by
  rw [← sampleIndex h.index h.channels chl] at hstore
  rw [writeSampleOfSize, h.buffer]
  dsimp only
  rw [if_neg (h.sampleAccepted hbits hchl), hstore]
  rfl

/-- Samples that the buffer has room for are stored one behind the other. -/
theorem Writing.store_samples {samples : List ℤ} {back : List UInt8} :
    ∀ {front middle : List UInt8} {chl : ℕ} {s : CRawAudioFileIO},
      Writing config content (front ++ middle ++ back) index s →
      front.length = size * (toUnsigned (index * config.numChannels) + chl) →
      middle.length = samples.length * size → chl + samples.length ≤ config.numChannels →
      ∃ after, s.writeSamples (writeSampleOfSize size) chl samples = some after ∧
        Writing config content (front ++ frameData size samples ++ back) index after := by
  induction samples with
  | nil =>
    intro front middle chl s h _ hmiddle _
    obtain rfl : middle = [] := List.eq_nil_of_length_eq_zero (by simpa using hmiddle)
    exact ⟨s, rfl, h⟩
  | cons data samples ih =>
    intro front middle chl s h hfront hmiddle hchl
    rw [List.length_cons] at hmiddle hchl
    rw [Nat.succ_mul] at hmiddle
    have hfirst : (middle.take size).length = size := List.length_take_of_le (by omega)
    have hrest : (middle.drop size).length = samples.length * size := by
      rw [List.length_drop]
      omega
    have hbytes : (littleEndian size (data % 256 ^ size).toNat).length = size :=
      length_littleEndian _ _
    have hstore := storeRange_middle (middle.drop size ++ back) hfront
      (hfirst.trans hbytes.symm)
    have hsplit : front ++ middle.take size ++ (middle.drop size ++ back) =
        front ++ middle ++ back := by
      rw [List.append_assoc, ← List.append_assoc (middle.take size), List.take_append_drop,
        List.append_assoc]
    rw [hsplit] at hstore
    obtain ⟨stored, hwrite, hstored⟩ := h.store_sample hbits (by omega) hstore
    rw [← List.append_assoc] at hstored
    have hnext : (front ++ littleEndian size (data % 256 ^ size).toNat).length =
        size * (toUnsigned (index * config.numChannels) + (chl + 1)) := by
      rw [List.length_append, hfront, hbytes, ← Nat.add_assoc, Nat.mul_succ]
    obtain ⟨after, hwrites, hafter⟩ := ih hstored hnext hrest (by omega)
    refine ⟨after, ?_, ?_⟩
    · rw [writeSamples, hwrite]
      exact hwrites
    · rwa [frameData, List.flatMap_cons, ← List.append_assoc]

/-- Samples that the buffer has no room for are stored outside of it. -/
theorem Writing.samples_fault (hsize : 1 ≤ size) {samples : List ℤ} {room : ℕ} :
    ∀ {buffer : List UInt8} {chl : ℕ} {s : CRawAudioFileIO},
      Writing config content buffer index s → buffer.length = size * room →
      toUnsigned (index * config.numChannels) + chl ≤ room →
      room < toUnsigned (index * config.numChannels) + chl + samples.length →
      chl + samples.length ≤ config.numChannels →
      s.writeSamples (writeSampleOfSize size) chl samples = none := by
  induction samples with
  | nil =>
    intro buffer chl s _ _ hinside houtside _
    exact absurd houtside (Nat.not_lt.mpr hinside)
  | cons data samples ih =>
    intro buffer chl s h hbuffer hinside houtside hchl
    rw [List.length_cons] at houtside hchl
    rw [writeSamples]
    cases hstore : storeRange buffer (size * (toUnsigned (index * config.numChannels) + chl))
        (littleEndian size (data % 256 ^ size).toNat) with
    | error fault =>
      rw [h.sample_faults hbits (by omega) hstore]
      rfl
    | ok stored =>
      obtain ⟨middle, hwrite, hmiddle⟩ := h.store_sample hbits (by omega) hstore
      have hroom := (exists_of_storeRange hstore).1
      rw [length_littleEndian, hbuffer, ← Nat.mul_succ] at hroom
      rw [hwrite]
      exact ih hmiddle ((length_of_storeRange hstore).trans hbuffer)
        (Nat.le_of_mul_le_mul_left hroom hsize) (by omega) (by omega)

end Samples

/-! ### Frames -/

/-- The number of frames that `nextFrame` transfers at a time. -/
def AudioConfig.blockFrames (config : AudioConfig) : ℕ :=
  if config.numFrames < 1 then 1 else config.numFrames.toNat

theorem AudioConfig.one_le_blockFrames (config : AudioConfig) : 1 ≤ config.blockFrames := by
  rw [blockFrames]
  split_ifs with hsingle
  · exact le_rfl
  · omega

/-- The frame buffer has room for a block, unless its size wraps around. -/
theorem AudioConfig.bufferSamples_eq (hint : config.numFrames < 2 ^ 31) :
    config.bufferSamples = if config.numFrames < 1 then config.numChannels
      else toUnsigned (config.numChannels * config.blockFrames) := by
  rw [bufferSamples, blockFrames]
  split_ifs with hsingle
  · rfl
  · rw [intToUnsigned, Int.emod_eq_of_lt (by omega) (by omega)]

/-- An object whose frame buffer begins with the given frames, in the memory that `openFile` has
allocated. -/
def Sampling (config : AudioConfig) (content : List UInt8) (stored : List (List ℤ)) (index : ℕ)
    (s : CRawAudioFileIO) : Prop :=
  (∀ frame ∈ stored, frame.length = config.numChannels) ∧ ∃ rest,
    Writing config content (framesData (sampleBytes config.bitsPerSample) stored ++ rest) index s ∧
    (framesData (sampleBytes config.bitsPerSample) stored ++ rest).length =
      sampleBytes config.bitsPerSample * config.bufferSamples

theorem Writing.set_index (h : Writing config content buffer index s) (other : ℕ) :
    Writing config content buffer other (s.setFrameIdx other) :=
  ⟨h.mode, h.channels, h.frameSize, h.bits, h.block, h.buffer, rfl, h.stream⟩

/-- What `nextFrame` transfers of the frame buffer. -/
theorem Writing.transfer (h : Writing config content buffer index s) {numFrames : ℕ}
    (hsource : config.frameSize * numFrames ≤ buffer.length) :
    ∃ after, s.transferFrames numFrames =
        some (decide (1 ≤ numFrames ∧ config.frameSize ≠ 0), after) ∧
      Writing config (content ++ buffer.take (config.frameSize * numFrames)) buffer index
        after := by
  obtain ⟨after, hwrite, hafter⟩ := h.append_block hsource
  rw [transferFrames, h.mode, h.buffer]
  dsimp only
  rw [hwrite]
  cases decide (1 ≤ numFrames ∧ config.frameSize ≠ 0) with
  | false => exact ⟨after, rfl, hafter⟩
  | true =>
    exact ⟨_, rfl, hafter.mode, hafter.channels, hafter.frameSize, hafter.bits, hafter.block,
      hafter.buffer, hafter.index, hafter.stream⟩

theorem sampling_writer (config : AudioConfig) (file : Option (List UInt8)) (sFilePath : List Char)
    (infoOpened : Bool) :
    Sampling config [] [] 0 (config.writer file sFilePath infoOpened) :=
  ⟨nofun, config.framebuffer, writing_writer config file sFilePath infoOpened,
    List.length_replicate⟩

section Frames

variable {stored : List (List ℤ)} (hint : config.numFrames < 2 ^ 31)
  (hchls : config.numChannels < 2 ^ 32)

include hint hchls in
theorem AudioConfig.bufferSamples_lt : config.bufferSamples < 2 ^ 32 := by
  rw [bufferSamples_eq hint]
  split_ifs with hsingle
  · exact hchls
  · exact toUnsigned_lt _

theorem one_le_sampleBytes (bitsPerSample : ℤ) : 1 ≤ sampleBytes bitsPerSample := by
  rw [sampleBytes]
  split_ifs
  all_goals decide

theorem AudioConfig.bitsPerSample_eq (config : AudioConfig) :
    config.bitsPerSample = 8 * sampleBytes config.bitsPerSample := by
  rw [bitsPerSample]
  split_ifs with hbits
  · obtain hbits | hbits | hbits := hbits
    all_goals
      rw [hbits]
      rfl
  · rfl

section Sampling

variable (hlt : config.bufferSamples < 2 ^ 32) {frame : List ℤ}
  (hframe : frame.length = config.numChannels)
include hlt hframe

/-- A frame that the buffer has room for is stored behind the others. -/
theorem Sampling.store_frame (h : Sampling config content stored stored.length s)
    (hroom : (stored.length + 1) * config.numChannels ≤ config.bufferSamples) :
    ∃ middle, s.writeSamples (writeSampleOfSize (sampleBytes config.bitsPerSample)) 0 frame =
        some middle ∧
      Sampling config content (stored ++ [frame]) stored.length middle := by
  obtain ⟨hstored, rest, hwriting, hlength⟩ := h
  have hfront := length_framesData (sampleBytes config.bitsPerSample) hstored
  have hindex : toUnsigned (stored.length * config.numChannels) =
      stored.length * config.numChannels :=
    toUnsigned_of_lt (((Nat.mul_le_mul_right _ (Nat.le_succ _)).trans hroom).trans_lt hlt)
  have hrest : config.numChannels * sampleBytes config.bitsPerSample ≤ rest.length := by
    have hbytes := Nat.mul_le_mul_left (sampleBytes config.bitsPerSample) hroom
    rw [List.length_append, hfront] at hlength
    linarith
  rw [← List.take_append_drop (config.numChannels * sampleBytes config.bitsPerSample) rest,
    ← List.append_assoc] at hwriting hlength
  have hstart : (framesData (sampleBytes config.bitsPerSample) stored).length =
      sampleBytes config.bitsPerSample *
        (toUnsigned (stored.length * config.numChannels) + 0) := by
    rw [hfront, hindex]
    ring
  obtain ⟨middle, hwrite, hmiddle⟩ := Writing.store_samples config.bitsPerSample_eq hwriting hstart
    (by rw [List.length_take_of_le hrest, hframe]) (by rw [hframe, Nat.zero_add])
  rw [← framesData_concat] at hmiddle
  refine ⟨middle, hwrite, ?_, _, hmiddle, ?_⟩
  · rw [List.forall_mem_append, List.forall_mem_singleton]
    exact ⟨hstored, hframe⟩
  · rw [← hlength, framesData_concat]
    simp only [List.length_append, length_frameData, hframe, List.length_take_of_le hrest]

/-- A frame that the buffer has no room for leaves it. -/
theorem Sampling.frame_faults (h : Sampling config content stored stored.length s)
    (hinside : stored.length * config.numChannels ≤ config.bufferSamples)
    (houtside : config.bufferSamples < (stored.length + 1) * config.numChannels) :
    s.writeSamples (writeSampleOfSize (sampleBytes config.bitsPerSample)) 0 frame = none := by
  obtain ⟨-, rest, hwriting, hlength⟩ := h
  have hindex : toUnsigned (stored.length * config.numChannels) =
      stored.length * config.numChannels := toUnsigned_of_lt (hinside.trans_lt hlt)
  rw [Nat.succ_mul] at houtside
  apply Writing.samples_fault config.bitsPerSample_eq (one_le_sampleBytes _) hwriting hlength
  · rwa [hindex]
  · rwa [hindex, hframe]
  · rw [hframe, Nat.zero_add]

end Sampling

theorem AudioConfig.blockFrames_eq (hblock : 1 ≤ config.numFrames) :
    config.blockFrames = config.numFrames.toNat := if_neg (Int.not_lt.mpr hblock)

section NextFrame

variable {index : ℕ} (h : Sampling config content stored index s)
include h

/-- A block that is full is transferred, and the frame buffer is filled anew. -/
theorem Sampling.transfer_block (hfull : stored.length = config.blockFrames)
    (hlast : config.blockFrames ≤ index + 1)
    (hflush : config.numFrames < 1 ∨ config.frameSize ≠ 0) :
    ∃ status after, s.nextFrame = some (status, after) ∧
      Sampling config (content ++ (framesData (sampleBytes config.bitsPerSample) stored).take
        (config.frameSize * config.blockFrames)) [] 0 after := by
  obtain ⟨hstored, rest, hwriting, hlength⟩ := h
  have hbuffer := hwriting.framebuffer_ne_none
  have hbytes : config.frameSize * config.blockFrames ≤
      (framesData (sampleBytes config.bitsPerSample) stored).length := by
    rw [← hfull]
    exact frameSize_mul_le hstored
  have hsource := hbytes.trans (List.sublist_append_left _ rest).length_le
  rw [← List.take_append_of_le_length hbytes]
  rcases lt_or_ge config.numFrames 1 with hsingle | hblock
  · have hone : config.blockFrames = 1 := if_pos hsingle
    rw [hone] at hsource ⊢
    obtain ⟨after, htransfer, hafter⟩ := (hwriting.set_index 0).transfer hsource
    have hsingle' : s.m_nIoBlockSize < 1 := by rwa [hwriting.block]
    exact ⟨_, after, (nextFrame_single hbuffer hsingle').trans htransfer, nofun, _,
      hafter, hlength⟩
  · obtain ⟨after, htransfer, hafter⟩ :=
      (hwriting.set_index (index + 1)).transfer hsource
    have htrue : decide (1 ≤ config.blockFrames ∧ config.frameSize ≠ 0) = true :=
      decide_eq_true ⟨config.one_le_blockFrames, hflush.resolve_left (Int.not_lt.mpr hblock)⟩
    rw [htrue, AudioConfig.blockFrames_eq hblock, ← hwriting.block, ← hwriting.index] at htransfer
    rw [AudioConfig.blockFrames_eq hblock, Int.toNat_le, ← hwriting.block,
      ← hwriting.index] at hlast
    refine ⟨_, _, nextFrame_full hbuffer (by rwa [hwriting.block]) hlast htransfer,
      nofun, _, hafter.set_index 0, hlength⟩

/-- A block that is not full, or of which nothing is transferred, is kept. -/
theorem Sampling.keep_block (hblock : 1 ≤ config.numFrames)
    (hkeeps : index + 1 < config.blockFrames ∨ config.frameSize = 0) :
    ∃ status after, s.nextFrame = some (status, after) ∧
      Sampling config content stored (index + 1) after := by
  obtain ⟨hstored, rest, hwriting, hlength⟩ := h
  have hbuffer := hwriting.framebuffer_ne_none
  have hblock' : 1 ≤ s.m_nIoBlockSize := by rwa [hwriting.block]
  rcases lt_or_ge ((s.m_nCurrentFrameIdx + 1 : ℕ) : ℤ) s.m_nIoBlockSize with hroom | hlast
  · refine ⟨_, _, nextFrame_room hbuffer hblock' hroom, hstored, rest, ?_, hlength⟩
    rw [hwriting.index]
    exact hwriting.set_index (index + 1)
  · have hzero : config.frameSize = 0 := by
      apply hkeeps.resolve_left
      rw [hwriting.index, hwriting.block] at hlast
      rw [AudioConfig.blockFrames_eq hblock]
      omega
    have hsource : config.frameSize * config.numFrames.toNat ≤
        (framesData (sampleBytes config.bitsPerSample) stored ++ rest).length := by
      rw [hzero, Nat.zero_mul]
      exact Nat.zero_le _
    obtain ⟨after, htransfer, hafter⟩ :=
      (hwriting.set_index (index + 1)).transfer hsource
    rw [hzero, Nat.zero_mul, List.take_zero, List.append_nil] at hafter
    rw [hzero, decide_eq_false (by simp), ← hwriting.block, ← hwriting.index] at htransfer
    exact ⟨_, _, nextFrame_full hbuffer hblock' hlast htransfer, hstored, rest,
      hafter, hlength⟩

end NextFrame

/-- What `nextFrame` transfers of a block. -/
def AudioConfig.transferred (config : AudioConfig) (block : List (List ℤ)) : List UInt8 :=
  (framesData (sampleBytes config.bitsPerSample) block).take
    (config.frameSize * config.blockFrames)

section Runs

variable (hlt : config.bufferSamples < 2 ^ 32) {frames : List (List ℤ)}
  (hframes : ∀ frame ∈ frames, frame.length = config.numChannels)
include hlt hframes

/-- With room for blocks that are transferred, the file has what a buffer of blocks emits. -/
theorem Sampling.flush_frames
    (hsamples : config.bufferSamples = config.blockFrames * config.numChannels)
    (hflush : config.numFrames < 1 ∨ config.frameSize ≠ 0) :
    ∀ {stored : List (List ℤ)} {content : List UInt8} {s : CRawAudioFileIO},
      Sampling config content stored stored.length s → stored.length < config.blockFrames →
      ∃ after buffer index,
        s.writeFrames (writeSampleOfSize (sampleBytes config.bitsPerSample)) frames = some after ∧
        Writing config (content ++ emitted config.blockFrames config.transferred stored frames)
          buffer index after := by
  induction frames with
  | nil =>
    rintro stored content s ⟨-, rest, hwriting, -⟩ _
    rw [← List.append_nil content] at hwriting
    exact ⟨s, _, _, rfl, hwriting⟩
  | cons frame frames ih =>
    intro stored content s h hstored
    rw [List.forall_mem_cons] at hframes
    have hroom : (stored.length + 1) * config.numChannels ≤ config.bufferSamples := by
      rw [hsamples]
      exact Nat.mul_le_mul_right _ hstored
    obtain ⟨middle, hwrite, hmiddle⟩ := h.store_frame hlt hframes.1 hroom
    have hlength : (stored ++ [frame]).length = stored.length + 1 := by simp
    rw [emitted]
    split_ifs with hfull
    · obtain ⟨status, next, hnext, hsampling⟩ :=
        hmiddle.transfer_block (hlength.trans (le_antisymm hstored hfull)) hfull hflush
      obtain ⟨after, buffer, index, hwrites, hafter⟩ :=
        ih hframes.2 hsampling config.one_le_blockFrames
      refine ⟨after, buffer, index, ?_, ?_⟩
      · rw [writeFrames, hwrite, Option.bind_eq_bind, Option.bind_some, hnext]
        exact hwrites
      · rwa [← List.append_assoc]
    · have hblock : 1 ≤ config.numFrames := by
        by_contra hsingle
        exact hfull ((if_pos (Int.not_le.mp hsingle)).trans_le (Nat.le_add_left _ _))
      obtain ⟨status, next, hnext, hsampling⟩ :=
        hmiddle.keep_block hblock (.inl (Nat.lt_of_not_le hfull))
      rw [← hlength] at hsampling
      obtain ⟨after, buffer, index, hwrites, hafter⟩ := ih hframes.2 hsampling
        (hlength.trans_lt (Nat.lt_of_not_le hfull))
      refine ⟨after, buffer, index, ?_, hafter⟩
      rw [writeFrames, hwrite, Option.bind_eq_bind, Option.bind_some, hnext]
      exact hwrites

/-- Without a transfer, frames are stored until the buffer is full, and the next sample leaves it.
-/
theorem Sampling.hold_frames (hblock : 1 ≤ config.numFrames)
    (hhold : config.frameSize = 0 ∨
      config.bufferSamples < config.blockFrames * config.numChannels) :
    ∀ {stored : List (List ℤ)} {s : CRawAudioFileIO},
      Sampling config content stored stored.length s →
      stored.length * config.numChannels ≤ config.bufferSamples →
      if (stored.length + frames.length) * config.numChannels ≤ config.bufferSamples then
        ∃ after buffer index,
          s.writeFrames (writeSampleOfSize (sampleBytes config.bitsPerSample)) frames = some after ∧
          Writing config content buffer index after
      else s.writeFrames (writeSampleOfSize (sampleBytes config.bitsPerSample)) frames = none := by
  induction frames with
  | nil =>
    rintro stored s ⟨-, rest, hwriting, -⟩ hstored
    rw [if_pos (by exact hstored)]
    exact ⟨s, _, _, rfl, hwriting⟩
  | cons frame frames ih =>
    intro stored s h hstored
    rw [List.forall_mem_cons] at hframes
    rcases le_or_gt ((stored.length + 1) * config.numChannels) config.bufferSamples
      with hroom | houtside
    · obtain ⟨middle, hwrite, hmiddle⟩ := h.store_frame hlt hframes.1 hroom
      have hkeeps : stored.length + 1 < config.blockFrames ∨ config.frameSize = 0 := by
        refine hhold.symm.imp_left fun hwraps ↦ ?_
        exact Nat.lt_of_mul_lt_mul_right (hroom.trans_lt hwraps)
      obtain ⟨status, next, hnext, hsampling⟩ := hmiddle.keep_block hblock hkeeps
      have hlength : (stored ++ [frame]).length = stored.length + 1 := by simp
      rw [← hlength] at hsampling hroom
      have hrest := ih hframes.2 hsampling hroom
      rw [writeFrames, hwrite, Option.bind_eq_bind, Option.bind_some, hnext]
      rwa [hlength, Nat.add_assoc, Nat.add_comm 1] at hrest
    · rw [if_neg, writeFrames,
        h.frame_faults hlt hframes.1 hstored houtside]
      · rfl
      · refine not_le.mpr (houtside.trans_le (Nat.mul_le_mul_right _ ?_))
        rw [List.length_cons]
        omega

end Runs

end Frames

end RdbLibs.FileIO.CRawAudioFileIO
