import RdbLibs.FileIO.CRawAudioFileIO.Opening

/-!
# Writing a raw audio file

The state of an object that writes a file (`Writing`): what is in the file, what is in the frame
buffer, and the index of the frame to be filled next. `writeBlock` appends whole frames of
`m_nFrameSize` bytes to the file, which are as many bytes as the caller means as long as that
product does not wrap around. `closeFile` leaves on the disk what was written, and drops the frame
buffer.
-/

set_option autoImplicit false
set_option relaxedAutoImplicit false

namespace RdbLibs.FileIO.CRawAudioFileIO

open CheckedMemory FileStream MachineWord

/-- An object that writes a file, with the given content of the file, frame buffer and index. -/
structure Writing (config : AudioConfig) (content buffer : List UInt8) (index : ℕ)
    (s : CRawAudioFileIO) : Prop where
  mode : s.m_eMode = .output
  channels : s.m_numChls = config.numChannels
  frameSize : s.m_nFrameSize = config.frameSize
  bits : s.m_nBitsPerSample = config.bitsPerSample
  block : s.m_nIoBlockSize = config.numFrames
  buffer : s.m_pFramebuffer = some buffer
  index : s.m_nCurrentFrameIdx = index
  stream : s.m_fileIO.m_pFileHandle = some ⟨content, content.length, false, true, false⟩

variable {config : AudioConfig} {content buffer : List UInt8} {index : ℕ} {s : CRawAudioFileIO}

theorem writing_writer (config : AudioConfig) (file : Option (List UInt8)) (sFilePath : List Char)
    (infoOpened : Bool) :
    Writing config [] config.framebuffer 0 (config.writer file sFilePath infoOpened) :=
  ⟨rfl, rfl, rfl, rfl, rfl, rfl, rfl, rfl⟩

/-- Blocks of bytes are appended to the file. -/
theorem writeBlock_stream {io : CFileIO}
    (hstream : io.m_pFileHandle = some ⟨content, content.length, false, true, false⟩)
    {source : List UInt8} {size count : ℕ} (hsource : size * count ≤ source.length)
    (hcount : 1 ≤ count) :
    io.writeBlock source size count = some (decide (size ≠ 0), { io with
      m_pFileHandle := some ⟨content ++ source.take (size * count),
        (content ++ source.take (size * count)).length, false, true, false⟩ }) := by
  have hload : loadRange source 0 (size * count) = .ok (source.take (size * count)) := by
    rw [loadRange, Nat.zero_add, if_pos hsource, List.drop_zero]
  unfold CFileIO.writeBlock
  rw [hstream]
  dsimp only
  rw [hload]
  show some (_, _) = some (_, _)
  by_cases hsize : size = 0
  · subst hsize
    simp [Stream.write, Nat.ne_of_lt hcount]
  · have hlength : (source.take (size * count)).length / size = count := by
      rw [List.length_take_of_le hsource, Nat.mul_div_cancel_left count (Nat.pos_of_ne_zero hsize)]
    have hend : (Stream.mk content content.length false true false).AtEnd := rfl
    rw [Stream.write_atEnd hend rfl hsize, hlength]
    simp [hsize]

/-- `writeBlock` appends the frames, or nothing where a frame has no size. -/
theorem Writing.append_block (h : Writing config content buffer index s) {source : List UInt8}
    {numFrames : ℕ} (hsource : config.frameSize * numFrames ≤ source.length) :
    ∃ after, s.writeBlock (some source) numFrames =
        some (decide (1 ≤ numFrames ∧ config.frameSize ≠ 0), after) ∧
      Writing config (content ++ source.take (config.frameSize * numFrames)) buffer index
        after := by
  by_cases hcount : 1 ≤ numFrames
  · have hrefused : ¬(numFrames < 1 ∨ s.m_eMode = .input ∨ s.m_pFramebuffer.isNone = true) := by
      rw [h.mode, h.buffer]
      simpa using Nat.one_le_iff_ne_zero.mp hcount
    have hwrite := writeBlock_stream h.stream hsource hcount
    rw [writeBlock, if_neg hrefused, h.frameSize, hwrite]
    by_cases hsize : config.frameSize = 0
    · have hstatus : decide (1 ≤ numFrames ∧ config.frameSize ≠ 0) = false := by simp [hsize]
      rw [decide_eq_false (not_not.mpr hsize), hstatus]
      exact ⟨_, rfl, h.mode, h.channels, rfl, h.bits, h.block, h.buffer, h.index, rfl⟩
    · rw [decide_eq_true hsize, decide_eq_true ⟨hcount, hsize⟩]
      exact ⟨_, rfl, h.mode, h.channels, rfl, h.bits, h.block, h.buffer, h.index, rfl⟩
  · obtain rfl : numFrames = 0 := by omega
    rw [writeBlock, if_pos (.inl Nat.zero_lt_one)]
    refine ⟨s, rfl, ?_⟩
    rw [Nat.mul_zero, List.take_zero, List.append_nil]
    exact h

/-- Calls of `writeBlock`, each with some frames. -/
def writeBlocks (s : CRawAudioFileIO) : List (List (List UInt8)) → Option CRawAudioFileIO
  | [] => some s
  | block :: blocks => do
    let (_, s) ← s.writeBlock (some block.flatten) block.length
    s.writeBlocks blocks

theorem length_flatten_frames {size : ℕ} {frames : List (List UInt8)}
    (h : ∀ frame ∈ frames, frame.length = size) : frames.flatten.length = size * frames.length := by
  induction frames with
  | nil => rfl
  | cons frame frames ih =>
    rw [List.forall_mem_cons] at h
    rw [List.flatten_cons, List.length_append, h.1, ih h.2, List.length_cons, Nat.mul_succ,
      Nat.add_comm]

/-- The size of a frame that is computed is at most the one that is meant. -/
theorem frameSize_le (config : AudioConfig) :
    config.frameSize ≤ config.numChannels * sampleBytes config.bitsPerSample := Nat.mod_le _ _

/-- What calls of `writeBlock` append. -/
theorem Writing.append_blocks {blocks : List (List (List UInt8))}
    (hframes : ∀ block ∈ blocks, ∀ frame ∈ block,
      frame.length = config.numChannels * sampleBytes config.bitsPerSample) :
    ∀ {content : List UInt8} {s : CRawAudioFileIO}, Writing config content buffer index s →
      ∃ after, s.writeBlocks blocks = some after ∧
        Writing config (content ++ blocks.flatMap fun block ↦
          block.flatten.take (config.frameSize * block.length)) buffer index after := by
  induction blocks with
  | nil =>
    intro content s h
    refine ⟨s, rfl, ?_⟩
    rwa [List.flatMap_nil, List.append_nil]
  | cons block blocks ih =>
    intro content s h
    rw [List.forall_mem_cons] at hframes
    have hsource : config.frameSize * block.length ≤ block.flatten.length := by
      rw [length_flatten_frames hframes.1]
      exact Nat.mul_le_mul_right _ (frameSize_le config)
    obtain ⟨middle, hwrite, hmiddle⟩ := h.append_block hsource
    obtain ⟨after, hrest, hafter⟩ := ih hframes.2 hmiddle
    refine ⟨after, ?_, ?_⟩
    · rw [writeBlocks, hwrite]
      exact hrest
    · rwa [List.flatMap_cons, ← List.append_assoc]

/-- What is on the disk after the file has been closed. -/
theorem Writing.file_closeFile (h : Writing config content buffer index s) :
    s.closeFile.2.onDisk = some content := by
  have hopen : s.m_fileIO.isOpen = true := by
    unfold CFileIO.isOpen
    rw [h.stream]
    rfl
  have hclose : s.m_fileIO.closeFile.2.file = some content := by
    unfold CFileIO.closeFile
    rw [h.stream]
  rw [closeFile, if_pos hopen]
  exact hclose

end RdbLibs.FileIO.CRawAudioFileIO
