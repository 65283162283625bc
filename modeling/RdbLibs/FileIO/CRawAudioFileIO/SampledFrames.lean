import RdbLibs.FileIO.CRawAudioFileIO.SampleInput

/-!
# The frames that samples are read of

A caller reads the samples of each frame of a file and goes to the next frame. It is given the
zeros of the frame buffer, and so is right about a file of zeros only. How many frames it can read
of one depends on the I/O block: without one, the second transfer pads the buffer, and leaves it,
unless the object reads in a loop; with one, the buffer is never refilled, and is left behind its
last frame.
-/

set_option autoImplicit false
set_option relaxedAutoImplicit false

namespace RdbLibs.FileIO.CRawAudioFileIO

open ByteCodec CheckedMemory FileStream MachineWord

/-- The object can read on at the end of its file: it reads in a loop, or what it pads stays inside
of the frame buffer. -/
def AudioConfig.ReadsOn (config : AudioConfig) : Prop :=
  config.looping = true ∨ config.padSize ≤ 2 * config.numChannels

variable {config : AudioConfig} {content : List UInt8} {index position offset : ℕ}
  {s : CRawAudioFileIO}

/-- All samples are zero. -/
def Silent (frames : List (List ℤ)) : Prop := ∀ frame ∈ frames, ∀ data ∈ frame, data = 0

section Frames

variable {frames : List (List ℤ)} (hframes : ∀ frame ∈ frames, frame.length = config.numChannels)
include hframes

theorem framesData_silent (hsilent : Silent frames) :
    framesData 2 frames = List.replicate (config.numChannels * 2 * frames.length) 0 := by
  refine List.eq_replicate_iff.mpr ⟨length_framesData 2 hframes, fun byte hbyte ↦ ?_⟩
  obtain ⟨frame, hframe, hbyte⟩ := List.mem_flatMap.mp hbyte
  obtain ⟨data, hdata, hbyte⟩ := List.mem_flatMap.mp hbyte
  rw [hsilent frame hframe data hdata] at hbyte
  simpa [littleEndian] using hbyte

/-- The bytes of the first frames of a file are zero, where these are silent. -/
theorem take_drop_silent {count start size : ℕ} (hsilent : Silent (frames.take count))
    (hcount : count ≤ frames.length) (hinside : start + size ≤ config.numChannels * 2 * count) :
    ((framesData 2 frames).drop start).take size = List.replicate size 0 := by
  have htake : ∀ frame ∈ frames.take count, frame.length = config.numChannels := fun frame hframe ↦
    hframes frame (List.mem_of_mem_take hframe)
  have hfirst := framesData_silent htake hsilent
  rw [List.length_take_of_le hcount] at hfirst
  rw [← List.take_append_drop count frames, framesData_append, hfirst,
    List.drop_append_of_le_length, List.take_append_of_le_length, List.drop_replicate,
    List.take_replicate, Nat.min_eq_left (by omega)]
  · rw [List.length_drop, List.length_replicate]
    omega
  · rw [List.length_replicate]
    omega

/-- Before the transfer of frame `k`, without an I/O block. The stream is at the end of the file, or
the object reads in a loop, and what it reads next are bytes of the frames up to `k`. -/
def AtFrame (config : AudioConfig) (content : List UInt8) (k : ℕ) (s : CRawAudioFileIO) : Prop :=
  (k = 0 ∧ Reading config content 0 0 content.length s) ∨
    (1 ≤ k ∧ ∃ offset, Reading config content 0 offset offset s ∧ offset ≤ content.length ∧
      (offset = content.length ∨ config.looping = true ∧
        offset + config.frameSize ≤ config.numChannels * 2 * k))

omit hframes in
theorem frameSize_le_two (hbits : config.bitsPerSample = 16) :
    config.frameSize ≤ config.numChannels * 2 := by
  have hle := frameSize_le config
  rwa [hbits] at hle

/-- The file has the frames that are meant, or more. -/
theorem length_le_div (hbits : config.bitsPerSample = 16) (hsize : config.frameSize ≠ 0) :
    frames.length ≤ (framesData 2 frames).length / config.frameSize := by
  rw [Nat.le_div_iff_mul_le (Nat.pos_of_ne_zero hsize), length_framesData 2 hframes, Nat.mul_comm]
  exact Nat.mul_le_mul_right _ (frameSize_le_two hbits)

section Single

variable (hbits : config.bitsPerSample = 16) (hsize : config.frameSize ≠ 0)
  (hlength : (framesData 2 frames).length < 2 ^ 63) (hsingle : config.numFrames < 1)
include hbits hsize hlength hsingle

omit hframes hbits hsize hlength in
theorem bufferSamples_single : config.bufferSamples = config.numChannels := if_pos hsingle

omit hframes hbits hsize hlength in
theorem Reading.nextFrame_single (h : Reading config content index position offset s) :
    s.nextFrame = (s.setFrameIdx 0).transferFrames 1 := by
  refine CRawAudioFileIO.nextFrame_single ?_ (h.block.trans_lt hsingle)
  rw [h.buffer]
  exact Option.some_ne_none _

/-- The transfer behind a frame, of an object that reads in a loop. -/
theorem Reading.next_loop {k : ℕ} (h : Reading config (framesData 2 frames) 0 offset offset s)
    (hinside : offset ≤ (framesData 2 frames).length)
    (hoffset : offset = (framesData 2 frames).length ∨
      offset + config.frameSize ≤ config.numChannels * 2 * k)
    (hloop : config.looping = true) (hpos : 1 ≤ k) (hk : k < frames.length)
    (hsilent : Silent (frames.take (k + 1))) :
    ∃ after, s.nextFrame = some (true, after) ∧
      AtFrame config (framesData 2 frames) (k + 1) after := by
  have hframeSize := frameSize_le_two hbits
  have hbuffer : config.frameSize ≤ 2 * config.bufferSamples := by
    rwa [bufferSamples_single hsingle, Nat.mul_comm]
  have hbytes : config.numChannels * 2 * (k + 1) =
      config.numChannels * 2 * k + config.numChannels * 2 := Nat.mul_succ _ _
  have htwo : config.numChannels * 2 ≤ config.numChannels * 2 * k := Nat.le_mul_of_pos_right _ hpos
  have hone : 1 ≤ (framesData 2 frames).length / config.frameSize :=
    (Nat.zero_lt_of_lt hk).trans_le (length_le_div hframes hbits hsize)
  have hfirst := (Nat.one_le_div_iff (Nat.pos_of_ne_zero hsize)).mp hone
  rw [h.nextFrame_single hsingle]
  rcases le_or_gt (offset + config.frameSize) (framesData 2 frames).length with hfits | hbeyond
  · have hread : offset + config.frameSize ≤ config.numChannels * 2 * k :=
      hoffset.resolve_left (by omega)
    have hzeros := take_drop_silent hframes hsilent hk (hread.trans (by omega))
    obtain ⟨after, htransfer, hafter⟩ := (h.setFrameIdx 0).transfer_zeros hsize hlength hone rfl
      hfits hzeros hbuffer
    exact ⟨after, htransfer, .inr ⟨by omega, _, hafter, hfits, .inr ⟨hloop, by omega⟩⟩⟩
  · have hzeros : ((framesData 2 frames).drop 0).take config.frameSize =
        List.replicate config.frameSize 0 := take_drop_silent hframes hsilent hk (by omega)
    obtain ⟨after, htransfer, hafter⟩ := (h.setFrameIdx 0).transfer_rewinds hsize hlength hone rfl
      hinside hbeyond hloop hfirst hzeros hbuffer
    exact ⟨after, htransfer, .inr ⟨by omega, _, hafter, hfirst, .inr ⟨hloop, by omega⟩⟩⟩

/-- The transfer behind frame `k`. -/
theorem AtFrame.next {k : ℕ} (h : AtFrame config (framesData 2 frames) k s) (hk : k < frames.length)
    (hpasses : k = 0 ∨ config.ReadsOn) (hsilent : Silent (frames.take (k + 1))) :
    ∃ status after, s.nextFrame = some (status, after) ∧
      AtFrame config (framesData 2 frames) (k + 1) after := by
  have hone : 1 ≤ (framesData 2 frames).length / config.frameSize :=
    (Nat.zero_lt_of_lt hk).trans_le (length_le_div hframes hbits hsize)
  obtain ⟨-, h⟩ | ⟨hpos, offset, h, hinside, hoffset⟩ := h
  · obtain ⟨after, htransfer, hafter⟩ :=
      (h.setFrameIdx 0).transfer_fails hsize hlength hone rfl rfl le_rfl hone
    rw [h.nextFrame_single hsingle]
    exact ⟨false, after, htransfer, .inr ⟨by omega, _, hafter, le_rfl, .inl rfl⟩⟩
  · cases hloop : config.looping with
    | true =>
      obtain ⟨after, hnext, hafter⟩ := h.next_loop hframes hbits hsize hlength hsingle hinside
        (hoffset.imp_right And.right) hloop hpos hk hsilent
      exact ⟨true, after, hnext, hafter⟩
    | false =>
      obtain rfl : offset = _ := hoffset.resolve_right fun hlooping ↦
        Bool.noConfusion (hloop.symm.trans hlooping.1)
      have hpad : config.padSize ≤ 2 * config.bufferSamples := by
        rw [bufferSamples_single hsingle]
        exact (hpasses.resolve_left (by omega)).resolve_left (by simp [hloop])
      obtain ⟨after, htransfer, hafter⟩ := ((h.setFrameIdx 0).transfer_pads hsize hlength hone rfl
        le_rfl (Nat.lt_add_of_pos_right (Nat.pos_of_ne_zero hsize)) hloop).1 hpad
      rw [h.nextFrame_single hsingle]
      exact ⟨true, after, htransfer, .inr ⟨by omega, _, hafter, le_rfl, .inl rfl⟩⟩

omit hframes hbits hsize hlength in
theorem Reading.samples_single (h : Reading config content 0 position offset s)
    (hone : 1 ≤ content.length / config.frameSize) :
    ∃ middle, s.readSamples readSample16 0 s.m_numChls =
        some (List.replicate config.numChannels (some 0), middle) ∧
      Reading config content 0 position offset middle := by
  rw [h.channels]
  refine h.readSamples_inside hone (Nat.zero_add _) ?_
  rw [bufferSamples_single hsingle, Nat.zero_mul]
  exact Nat.le_of_eq (Nat.zero_add _)

omit hframes hbits hsize hlength in
theorem AtFrame.samples {k : ℕ} (h : AtFrame config content k s)
    (hone : 1 ≤ content.length / config.frameSize) :
    ∃ middle, s.readSamples readSample16 0 s.m_numChls =
        some (List.replicate config.numChannels (some 0), middle) ∧
      AtFrame config content k middle := by
  obtain ⟨hfirst, h⟩ | ⟨hpos, offset, h, hoffset⟩ := h
  · obtain ⟨middle, hsamples, hmiddle⟩ := h.samples_single hsingle hone
    exact ⟨middle, hsamples, .inl ⟨hfirst, hmiddle⟩⟩
  · obtain ⟨middle, hsamples, hmiddle⟩ := h.samples_single hsingle hone
    exact ⟨middle, hsamples, .inr ⟨hpos, offset, hmiddle, hoffset⟩⟩

end Single

/-! ### With an I/O block -/

/-- Before the transfer of frame `k`, with an I/O block. Nothing was transferred before the last
frame of the block. -/
def InBlock (config : AudioConfig) (content : List UInt8) (k : ℕ) (s : CRawAudioFileIO) : Prop :=
  ∃ position offset, Reading config content k position offset s ∧ (k : ℤ) ≤ config.numFrames ∧
    ((k : ℤ) < config.numFrames → position = 0 ∧ offset = content.length)

/-- Frame `k` is in the frame buffer. -/
def AudioConfig.Holds (config : AudioConfig) (k : ℕ) : Prop :=
  toUnsigned (k * config.numChannels) + config.numChannels ≤ config.bufferSamples

section Block

variable (hsize : config.frameSize ≠ 0) (hblock : 1 ≤ config.numFrames)
  (hint : config.numFrames < 2 ^ 31) (hchls : 1 ≤ config.numChannels)

omit hframes in
include hblock hint in
theorem bufferSamples_block :
    config.bufferSamples = toUnsigned (config.numFrames.toNat * config.numChannels) := by
  have hunsigned : intToUnsigned config.numFrames = config.numFrames.toNat := by
    rw [intToUnsigned]
    omega
  rw [AudioConfig.bufferSamples, if_neg (Int.not_lt.mpr hblock), hunsigned, Nat.mul_comm]

omit hframes in
include hblock hint hchls in
/-- The buffer holds frames of its block only. -/
theorem AudioConfig.Holds.lt {k : ℕ} (h : config.Holds k) (hk : (k : ℤ) ≤ config.numFrames) :
    (k : ℤ) < config.numFrames := by
  refine lt_of_le_of_ne hk fun heq ↦ ?_
  rw [AudioConfig.Holds, bufferSamples_block hblock hint, ← heq, Int.toNat_natCast] at h
  omega

omit hframes in
include hsize hblock hint hchls in
/-- The step to the next frame of the block. -/
theorem InBlock.next {k : ℕ} (h : InBlock config content k s) (hlength : content.length < 2 ^ 63)
    (hholds : config.Holds k) :
    ∃ status after, s.nextFrame = some (status, after) ∧ InBlock config content (k + 1) after := by
  obtain ⟨position, offset, h, hle, hstart⟩ := h
  have hlt := hholds.lt hblock hint hchls hle
  obtain ⟨rfl, rfl⟩ := hstart hlt
  have hbuffer : s.m_pFramebuffer ≠ none := by
    rw [h.buffer]
    exact Option.some_ne_none _
  have hmoved : Reading config content (k + 1) 0 content.length
      (s.setFrameIdx (s.m_nCurrentFrameIdx + 1)) := h.index ▸ h.setFrameIdx _
  rcases lt_or_ge ((s.m_nCurrentFrameIdx + 1 : ℕ) : ℤ) config.numFrames with hroom | hfull
  · refine ⟨true, _, nextFrame_room hbuffer (h.block ▸ hblock) (h.block ▸ hroom), ?_⟩
    exact ⟨0, _, hmoved, by omega, fun _ ↦ ⟨rfl, rfl⟩⟩
  · have hlast : config.numFrames = (k + 1 : ℕ) := by
      rw [h.index] at hfull
      omega
    have hnext {after : CRawAudioFileIO}
        (htransfer : (s.setFrameIdx (s.m_nCurrentFrameIdx + 1)).transferFrames
          s.m_nIoBlockSize.toNat = some (false, after)) : s.nextFrame = some (false, after) :=
      nextFrame_full hbuffer (h.block ▸ hblock) (h.block ▸ hfull) htransfer
    rcases le_or_gt (content.length / config.frameSize) (k + 1) with heof | hmore
    · refine ⟨false, _, hnext (hmoved.transfer_atEOF heof _), 0, _, hmoved, hlast.ge, ?_⟩
      exact fun hlt ↦ absurd hlast hlt.ne'
    · have hcount : s.m_nIoBlockSize.toNat = k + 1 := by
        rw [h.block, hlast, Int.toNat_natCast]
      obtain ⟨after, htransfer, hafter⟩ := hmoved.transfer_fails hsize hlength hmore rfl rfl
        (Nat.le_add_left 1 k) hmore.le
      refine ⟨false, after, hnext (hcount ▸ htransfer), _, _, hafter, hlast.ge, ?_⟩
      exact fun hlt ↦ absurd hlast hlt.ne'

end Block

end Frames

end RdbLibs.FileIO.CRawAudioFileIO
