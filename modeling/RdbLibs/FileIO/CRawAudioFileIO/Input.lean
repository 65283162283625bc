import RdbLibs.FileIO.CRawAudioFileIO.Writing

/-!
# Reading back a raw audio file

Nothing is read of a file that was just opened for input. `openFile` asks for the size of the file,
which leaves the stream at its end, and the frame that `nextFrame` should read there is refused,
because the file does not yet count as opened. `readBlock` trusts `m_lCurrentFilePos`, which is
zero, finds frames left in the file, and reads at its end.
-/

set_option autoImplicit false
set_option relaxedAutoImplicit false

namespace RdbLibs.FileIO.CRawAudioFileIO

open CheckedMemory FileStream MachineWord

/-- The file that some calls of `writeBlock` leave, between `openFile` for output and `closeFile`.
-/
def writtenFile (config : AudioConfig) (sFilePath : List Char) (blocks : List (List (List UInt8))) :
    Option (List UInt8) := do
  let (_, s) ← (config.object none).openFile .output sFilePath ⟨true, true, true⟩
  let s ← s.writeBlocks blocks
  s.closeFile.2.onDisk

/-- Calls of `readBlock` return frames in order, each call as many as it asks for. -/
def ReadsFrames (size : ℕ) : CRawAudioFileIO → List ℕ → List (List UInt8) → Prop
  | _, [], _ => True
  | s, numFrames :: reads, frames => ∀ target : List UInt8, target.length = size * numFrames →
      ∃ after, s.readBlock (some target) numFrames =
          some ⟨true, some (frames.take numFrames).flatten, after⟩ ∧
        ReadsFrames size after reads (frames.drop numFrames)

/-- An object with the same configuration opens the file that was written, and any reads that fit in
it return the frames that were written. -/
def ReadsBack (config : AudioConfig) (sFilePath : List Char)
    (blocks : List (List (List UInt8))) : Prop :=
  ∃ content reader, writtenFile config sFilePath blocks = some content ∧
    (config.object (some content)).openFile .input sFilePath ⟨true, true, true⟩ =
      some (true, reader) ∧
    ∀ reads : List ℕ, (∀ numFrames ∈ reads, 1 ≤ numFrames ∧ numFrames < 2 ^ 32) →
      reads.sum ≤ blocks.flatten.length →
        ReadsFrames (config.numChannels * sampleBytes config.bitsPerSample) reader reads
          blocks.flatten

variable {config : AudioConfig} {sFilePath : List Char}

theorem writtenFile_eq (hchls : 1 ≤ config.numChannels) (hpath : sFilePath ≠ [])
    {blocks : List (List (List UInt8))} (hframes : ∀ block ∈ blocks, ∀ frame ∈ block,
      frame.length = config.numChannels * sampleBytes config.bitsPerSample) :
    writtenFile config sFilePath blocks = some (blocks.flatMap fun block ↦
      block.flatten.take (config.frameSize * block.length)) := by
  obtain ⟨after, hwrite, hafter⟩ :=
    Writing.append_blocks hframes (writing_writer config none sFilePath true)
  rw [writtenFile, AudioConfig.openFile_output hchls hpath true none]
  show (writeBlocks _ blocks >>= _) = _
  rw [hwrite]
  exact hafter.file_closeFile

/-- No more is written than the callers give. -/
theorem length_written_le (size : ℕ) (blocks : List (List (List UInt8))) :
    (blocks.flatMap fun block ↦ block.flatten.take (size * block.length)).length ≤
      blocks.flatten.flatten.length := by
  induction blocks with
  | nil => exact le_rfl
  | cons block blocks ih =>
    rw [List.flatMap_cons, List.length_append, List.flatten_cons, List.flatten_append,
      List.length_append]
    exact Nat.add_le_add (List.length_take_le' _ _) ih

/-- Reading at the end of a file transfers nothing. -/
theorem readBlock_stream_atEnd {s : CRawAudioFileIO} {stream : Stream UInt8}
    (hstream : s.m_fileIO.m_pFileHandle = some stream) (hend : stream.AtEnd) (target : List UInt8)
    (size : ℕ) {count : ℕ} (hcount : 1 ≤ count) :
    s.m_fileIO.readBlock target size count = some (false, target, s.m_fileIO) := by
  have hnone : (0 == count) = false := by simpa using Nat.ne_of_lt hcount
  have hstore : storeRange target 0 [] = .ok target := by
    rw [storeRange, if_pos (by exact Nat.zero_le _)]
    rfl
  unfold CFileIO.readBlock
  rw [hstream]
  dsimp only
  rw [Stream.read_atEnd hend, hstore, ← hstream]
  show some (0 == count, target, s.m_fileIO) = _
  rw [hnone]

variable (sFilePath) in
/-- The first read of a file that was opened for input fails, if it fits in the file at all. -/
theorem readBlock_reader {content : List UInt8} (hsize : config.frameSize ≠ 0)
    (hlength : content.length < 2 ^ 63) {numFrames : ℕ} (hpos : 1 ≤ numFrames)
    (hfits : content.length / config.frameSize = 0 ∨
      numFrames ≤ content.length / config.frameSize) (target : List UInt8) :
    ∃ after, (config.reader content sFilePath).readBlock (some target) numFrames =
      some ⟨false, some target, after⟩ := by
  by_cases hempty : content.length / config.frameSize = 0
  · have hopen : ¬((config.reader content sFilePath).m_bFileOpened = false ∨ numFrames < 1) :=
      not_or.mpr ⟨Bool.noConfusion, not_lt.mpr hpos⟩
    have heof : (config.reader content sFilePath).isEOF = true :=
      decide_eq_true (Nat.le_of_eq hempty)
    rw [readBlock, if_neg hopen, if_pos heof]
    exact ⟨_, rfl⟩
  · have heof : (config.reader content sFilePath).isEOF = false :=
      decide_eq_false fun h ↦ hempty (Nat.le_zero.mp h)
    have hleft : (config.reader content sFilePath).framesLeftInFile =
        content.length / config.frameSize := by
      show toSize (content.length + 2 ^ 64 - 0) / config.frameSize = _
      rw [Nat.sub_zero, toSize, Nat.add_mod_right, Nat.mod_eq_of_lt (by omega)]
    have hend : (Stream.mk content content.length true false false).AtEnd := rfl
    have hread := readBlock_stream_atEnd (s := config.reader content sFilePath) rfl hend target
      config.frameSize hpos
    exact ⟨_, readBlock_fits rfl hpos heof hsize (hleft ▸ hfits.resolve_left hempty) hread⟩

/-- Assumes: frames of the configured size are written, in at least one block, and their bytes
can be counted in a `long`. They are not read back. -/
theorem never_reads_back (hchls : 1 ≤ config.numChannels) (hpath : sFilePath ≠ [])
    {blocks : List (List (List UInt8))} (hframes : ∀ block ∈ blocks, ∀ frame ∈ block,
      frame.length = config.numChannels * sampleBytes config.bitsPerSample)
    (hsome : blocks.flatten ≠ []) (hbytes : blocks.flatten.flatten.length < 2 ^ 63) :
    ¬ReadsBack config sFilePath blocks := by
  rintro ⟨content, reader, hwritten, hopen, hreads⟩
  rw [writtenFile_eq hchls hpath hframes] at hwritten
  obtain rfl := Option.some.inj hwritten
  rw [AudioConfig.openFile_input hchls hpath] at hopen
  split_ifs at hopen with hsize
  obtain ⟨-, rfl⟩ := Prod.mk.inj (Option.some.inj hopen)
  have hone := hreads [1] (by decide) (List.length_pos_of_ne_nil hsome)
  have hlength := (length_written_le config.frameSize blocks).trans_lt hbytes
  obtain ⟨after, hfirst⟩ := readBlock_reader sFilePath hsize hlength le_rfl
    (Nat.eq_zero_or_pos _) (List.replicate
      (config.numChannels * sampleBytes config.bitsPerSample * 1) 0)
  obtain ⟨_, htrue, -⟩ := hone _ List.length_replicate
  rw [hfirst] at htrue
  exact Bool.noConfusion (congrArg ReadResult.status (Option.some.inj htrue))

theorem never_reads_back_mono :
    ¬ReadsBack ⟨1, 16, 0, 0, false, false⟩ ['a'] [[[1, 0]], [[2, 0], [3, 0]]] :=
  never_reads_back (by decide) (by decide) (by decide) (by decide) (by decide)

/-- Two mono frames are written. After the file was opened again, the first read of one frame fails,
and so does the claim that they are read back. -/
theorem written_frames_are_not_read :
    writtenFile ⟨1, 16, 0, 0, false, false⟩ ['a'] [[[1, 0]], [[2, 0]]] = some [1, 0, 2, 0] ∧
      (∃ reader after,
        (AudioConfig.object ⟨1, 16, 0, 0, false, false⟩ (some [1, 0, 2, 0])).openFile .input ['a']
          ⟨true, true, true⟩ = some (true, reader) ∧ reader.m_nFramesInFile = 2 ∧
        reader.readBlock (some [9, 9]) 1 = some ⟨false, some [9, 9], after⟩) ∧
      ¬ReadsBack ⟨1, 16, 0, 0, false, false⟩ ['a'] [[[1, 0]], [[2, 0]]] := by
  have hwritten :
      writtenFile ⟨1, 16, 0, 0, false, false⟩ ['a'] [[[1, 0]], [[2, 0]]] = some [1, 0, 2, 0] := by
    decide
  have hopened : (AudioConfig.object ⟨1, 16, 0, 0, false, false⟩ (some [1, 0, 2, 0])).openFile
      .input ['a'] ⟨true, true, true⟩ =
        some (true, AudioConfig.reader ⟨1, 16, 0, 0, false, false⟩ [1, 0, 2, 0] ['a']) := by
    rw [AudioConfig.openFile_input (by decide) (List.cons_ne_nil _ _)]
    exact if_neg (by decide)
  obtain ⟨after, hfails⟩ := @readBlock_reader ⟨1, 16, 0, 0, false, false⟩ ['a'] [1, 0, 2, 0]
    (by decide) (by decide) 1 le_rfl (.inr (by decide)) [9, 9]
  refine ⟨hwritten, ⟨_, after, hopened, by decide, hfails⟩, ?_⟩
  rintro ⟨content, reader, hcontent, hopen, hreads⟩
  obtain rfl := Option.some.inj (hwritten.symm.trans hcontent)
  obtain ⟨-, rfl⟩ := Prod.mk.inj (Option.some.inj (hopened.symm.trans hopen))
  obtain ⟨_, hread, -⟩ := hreads [1] (by decide) (by decide) [9, 9] rfl
  rw [hfails] at hread
  exact Bool.noConfusion (congrArg ReadResult.status (Option.some.inj hread))

end RdbLibs.FileIO.CRawAudioFileIO
