import RdbLibs.FileIO.CRawVideoFileIO.Sessions

/-!
# Single frames and blocks of one

`readVideoFrame` and `writeVideoFrame` move the stream by a frame, as `readVideoBlock` and
`writeVideoBlock` do for a block of one frame, but they know neither `m_lCurrentFilePos` nor the
counters of frames, which the block functions maintain and by which they decide how much is left. So
the two styles agree where both refuse the call, and hardly ever elsewhere.
-/

set_option autoImplicit false
set_option relaxedAutoImplicit false

namespace RdbLibs.FileIO.CRawVideoFileIO

open CheckedMemory FileStream MachineWord Runs

/-- The file position, the position that is noted, the counters of frames, and the number of frames
in the file. -/
def standing (s : CRawVideoFileIO) : ℤ × ℕ × ℤ × ℕ × ℕ :=
  (s.m_fileIO.getFilePosition, s.m_lCurrentFilePos, s.m_nCurrentFrame, s.m_nCurrentFrameIdx,
    s.m_nFramesInFile)

/-- `readVideoFrame` and `readVideoBlock` for one frame return the same, store the same, and leave
the same. -/
def ReadsAgree (s : CRawVideoFileIO) (target : List UInt8) : Prop :=
  (s.readVideoFrame (some target)).map (fun read ↦ (read.status, read.pData, read.s.standing)) =
    (s.readVideoBlock (some target) 1).map fun read ↦ (read.status, read.pData, read.s.standing)

/-- `writeVideoFrame` and `writeVideoBlock` for one frame return the same, and leave the same file
and the same positions and counters. -/
def WritesAgree (s : CRawVideoFileIO) (source : List UInt8) : Prop :=
  (s.writeVideoFrame (some source)).map (fun (status, after) ↦
      (status, after.m_fileIO.m_pFileHandle.map Stream.content, after.standing)) =
    (s.writeVideoBlock (some source) 1).map fun (status, after) ↦
      (status, after.m_fileIO.m_pFileHandle.map Stream.content, after.standing)

/-- The stream can be read, and the file has the bytes of a frame behind its offset. -/
def StreamHasFrame (s : CRawVideoFileIO) : Prop :=
  ∃ stream, s.m_fileIO.m_pFileHandle = some stream ∧ stream.readable = true ∧
    stream.offset + s.m_nFrameSize ≤ stream.content.length

/-- A frame is left, behind the offset of the stream or behind the position that is noted. -/
def FrameLeft (s : CRawVideoFileIO) : Prop :=
  s.StreamHasFrame ∨ 1 ≤ s.blocks.framesLeftInFile

/-- The two styles agree: on reads with memory for a frame, where a frame is left, and on writes of
the bytes of a frame. -/
def StylesAgree (s : CRawVideoFileIO) : Prop :=
  (s.FrameLeft → ∀ target, s.m_nFrameSize ≤ target.length → s.ReadsAgree target) ∧
    ∀ source, s.m_nFrameSize ≤ source.length → s.WritesAgree source

/-- The object reads, and no frame is left. Or one is left behind the offset of the stream alone,
which is at the beginning of a file of one frame that is read in a loop, and was read once. -/
def AgreesHere (s : CRawVideoFileIO) : Prop :=
  s.m_eMode = .input ∧ s.m_lFileSize - s.m_lCurrentFilePos < s.m_nFrameSize ∧
    (s.StreamHasFrame → s.m_bUseLoopingRead = true ∧ s.m_fileIO.getFilePosition = 0 ∧
      s.m_lCurrentFilePos = s.m_nFrameSize ∧ s.m_nCurrentFrame = 1)

/-! ### Writes -/

section Writes

variable {s : CRawVideoFileIO}

/-- While a file is read, both styles refuse to write. -/
theorem writesAgree_of_input (hmode : s.m_eMode = .input) (source : List UInt8) :
    s.WritesAgree source := by
  have hframe : s.writeVideoFrame (some source) = some (false, s) := by
    unfold writeVideoFrame
    dsimp only
    rw [if_pos hmode, ite_self]
    rfl
  have hblock : s.writeVideoBlock (some source) 1 = some (false, s) := by
    unfold writeVideoBlock
    dsimp only
    rw [if_pos (.inr (.inl hmode))]
    rfl
  rw [WritesAgree, hframe, hblock]

/-- A frame is written as a whole. -/
theorem writeBlock_frame {io : CFileIO} {filePos size : ℕ} {source : List UInt8}
    (h : WritesStream io filePos) (hsize : size ≠ 0) (hroom : size ≤ source.length) :
    ∃ io', io.writeBlock source size 1 = some (true, io') := by
  obtain ⟨content, offset, hstream⟩ := h
  have hload : loadRange source 0 (size * 1) = .ok (source.take size) := by
    rw [loadRange, Nat.mul_one, Nat.zero_add, if_pos hroom, List.drop_zero]
  have hcount : (Stream.write ⟨content, offset, false, true, false⟩ size (source.take size)).1 =
      1 := by
    rw [Stream.write_fst rfl hsize, List.length_take_of_le hroom,
      Nat.div_self (Nat.pos_of_ne_zero hsize)]
  unfold CFileIO.writeBlock
  rw [hstream]
  dsimp only
  rw [hload]
  exact ⟨_, congrArg (fun count ↦ some (count == 1, _)) hcount⟩

/-- While a file is written, a block of one frame is counted, and a single frame is not. -/
theorem Opened.not_writesAgree (h : Opened s) (hmode : s.m_eMode = .output) {source : List UInt8}
    (hroom : s.m_nFrameSize ≤ source.length) : ¬s.WritesAgree source := by
  have hinput : s.m_eMode ≠ .input := by
    rw [hmode]
    exact nofun
  have hwrites := (h.session.resolve_left fun hreads ↦ hinput hreads.1).2
  obtain ⟨io, hwrite⟩ := writeBlock_frame hwrites h.frameSize hroom
  have hsize : ¬s.m_nFrameSize < 1 := Nat.not_lt.mpr (Nat.one_le_iff_ne_zero.mpr h.frameSize)
  have hframe : s.writeVideoFrame (some source) = some (true, { s with m_fileIO := io }) := by
    unfold CRawVideoFileIO.writeVideoFrame
    dsimp only
    rw [if_neg hsize, if_neg hinput, hwrite]
    rfl
  have hblock : s.writeVideoBlock (some source) 1 = some (true, { s with
      m_fileIO := io
      m_lCurrentFilePos := intToSize io.getFilePosition
      m_nCurrentFrame := s.m_nCurrentFrame + (1 : ℕ)
      m_nFramesInFile := s.m_nFramesInFile + 1 }) := by
    unfold CRawVideoFileIO.writeVideoBlock
    dsimp only
    rw [if_neg (by simp [hinput, h.framebuffer]), hwrite]
    rfl
  rw [WritesAgree, hframe, hblock]
  intro hagree
  have hcount : s.m_nFramesInFile = s.m_nFramesInFile + 1 :=
    congrArg (fun seen ↦ seen.2.2.2.2.2.2) (Option.some.inj hagree)
  omega

end Writes

/-! ### Reads -/

section Reads

variable {s : CRawVideoFileIO} {content : List UInt8} {offset : ℕ}

/-- What `readVideoFrame` of an object that reads a file does, where it is not refused. -/
theorem readVideoFrame_eq (hreads : s.blocks.Reads content offset)
    (hbuffer : s.m_pFramebuffer.isNone = false) (hmore : s.isEOF = false) {length : ℕ}
    (hlength : length = min s.m_nFrameSize (content.length - offset)) (target : List UInt8) :
    s.readVideoFrame (some target) = if length ≤ target.length then
      some ⟨length / s.m_nFrameSize == 1,
        some ((content.drop offset).take length ++ target.drop length),
        s.withBlocks (s.blocks.streamAt content (offset + length))⟩
      else none := by
  have hopened : s.m_bFileOpened = true := hreads.opened
  have hlength' : length = min (s.m_nFrameSize * 1) (content.length - offset) := by
    rwa [Nat.mul_one]
  have hread : s.m_fileIO.readBlock target s.m_nFrameSize 1 = if length ≤ target.length then
      some (length / s.m_nFrameSize == 1,
        (content.drop offset).take length ++ target.drop length,
        RawBlocks.m_fileIO (s.blocks.streamAt content (offset + length)))
      else none := hreads.readBlock_stream hlength' target
  unfold readVideoFrame
  rw [if_neg (by simp [hopened, hbuffer]), hmore, if_neg Bool.noConfusion, Option.bind_eq_bind,
    Option.bind_some, hread]
  split_ifs
  · cases length / s.m_nFrameSize == 1 with
    | false => rfl
    | true => rfl
  · rfl

/-- The members that a block moves, as `ReadsAgree` has them. -/
theorem readsAgree_iff (s : CRawVideoFileIO) (target : List UInt8) : s.ReadsAgree target ↔
    (s.readVideoFrame (some target)).map
        (fun read ↦ (read.status, read.pData, read.s.standing)) =
      (s.blocks.readBlock (some target) 1).map fun result ↦ (result.status, result.pData,
        result.blocks.m_fileIO.getFilePosition, result.blocks.m_lCurrentFilePos,
        result.blocks.m_nCurrentFrame, s.m_nCurrentFrameIdx, s.m_nFramesInFile) := by
  rw [ReadsAgree, readVideoBlock, Option.map_map]
  rfl

section Agreement

variable (hreads : s.blocks.Reads content offset) (hoffset : offset ≤ content.length)
  (hbuffer : s.m_pFramebuffer.isNone = false) (hmore : s.isEOF = false)
  {target : List UInt8} (hroom : s.m_nFrameSize ≤ target.length)
include hreads hoffset hbuffer hmore hroom

/-- Where a frame is left behind the position that is noted, a block is counted or noted, and a
single frame is not. -/
theorem not_readsAgree_of_left (hleft : 1 ≤ s.blocks.framesLeftInFile) : ¬s.ReadsAgree target := by
  obtain ⟨length, hlength⟩ : ∃ length, length = min s.m_nFrameSize (content.length - offset) :=
    ⟨_, rfl⟩
  have hlength' : length = min (s.blocks.m_nFrameSize * 1) (content.length - offset) := by
    rwa [Nat.mul_one]
  have hinside : offset + length ≤ content.length := by omega
  have hfit : length ≤ target.length := by omega
  have hframe : s.m_nFrameSize ≤ content.length - s.m_lCurrentFilePos := by
    have hle := hreads.mul_le_of_framesLeft hleft
    rwa [Nat.mul_one] at hle
  have hpos : 0 < s.m_nFrameSize := Nat.pos_of_ne_zero hreads.frameSize
  rw [readsAgree_iff, readVideoFrame_eq hreads hbuffer hmore hlength,
    hreads.readBlock_fits le_rfl hmore hleft hlength', if_pos hfit, if_pos hfit,
    (hreads.streamAt _).finishRead_eq hinside]
  intro hagree
  have hseen := Option.some.inj hagree
  have hnoted : s.m_lCurrentFilePos = offset + length :=
    congrArg (fun seen ↦ seen.2.2.2.1) hseen
  have hcounted : s.m_nCurrentFrame = if length / s.m_nFrameSize == 1
      then s.m_nCurrentFrame + (1 : ℕ) else s.m_nCurrentFrame :=
    congrArg (fun seen ↦ seen.2.2.2.2.1) hseen
  by_cases hfull : length = s.m_nFrameSize
  · rw [hfull, Nat.div_self hpos] at hcounted
    simp at hcounted
  · omega

/-- Where no frame is left behind the position that is noted, but one behind the offset of the
stream, a block is read in a loop, and from the beginning of the file. -/
theorem readsAgree_iff_of_spent (hleft : s.blocks.framesLeftInFile = 0)
    (hframe : offset + s.m_nFrameSize ≤ content.length) : s.ReadsAgree target ↔
      s.m_bUseLoopingRead = true ∧ offset = 0 ∧ s.m_lCurrentFilePos = s.m_nFrameSize ∧
        s.m_nCurrentFrame = 1 := by
  have hlength : s.m_nFrameSize = min s.m_nFrameSize (content.length - offset) := by omega
  have hpos : 0 < s.m_nFrameSize := Nat.pos_of_ne_zero hreads.frameSize
  rw [readsAgree_iff, readVideoFrame_eq hreads hbuffer hmore hlength,
    hreads.readBlock_spent le_rfl hmore hleft, if_pos hroom]
  by_cases hlooping : s.m_bUseLoopingRead = true
  · have hone : s.blocks.m_nFrameSize * 1 = s.m_nFrameSize := Nat.mul_one _
    have hword : toUnsigned (1 - 0) = 1 := rfl
    rw [hreads.readBeyond_loops hlooping hword (by omega), hone, if_pos hroom,
      and_iff_right hlooping]
    constructor
    · intro hagree
      have hseen := Option.some.inj hagree
      have hplace : ((offset + s.m_nFrameSize : ℕ) : ℤ) = (s.m_nFrameSize : ℕ) :=
        congrArg (fun seen ↦ seen.2.2.1) hseen
      have hnoted : s.m_lCurrentFilePos = s.m_nFrameSize :=
        congrArg (fun seen ↦ seen.2.2.2.1) hseen
      have hcounted : s.m_nCurrentFrame = 1 := congrArg (fun seen ↦ seen.2.2.2.2.1) hseen
      exact ⟨by omega, hnoted, hcounted⟩
    · rintro ⟨rfl, hnoted, hcounted⟩
      show some (s.m_nFrameSize / s.m_nFrameSize == 1,
          some ((content.drop 0).take s.m_nFrameSize ++ target.drop s.m_nFrameSize),
          ((0 + s.m_nFrameSize : ℕ) : ℤ), s.m_lCurrentFilePos, s.m_nCurrentFrame,
          s.m_nCurrentFrameIdx, s.m_nFramesInFile) = _
      rw [hnoted, hcounted, Nat.div_self hpos, Nat.zero_add, List.drop_zero]
      rfl
  · refine iff_of_false ?_ fun hloops ↦ hlooping hloops.1
    rw [Bool.not_eq_true] at hlooping
    intro hagree
    obtain ⟨result, hread, hseen⟩ := Option.map_eq_some_iff.mp hagree.symm
    obtain ⟨-, hblocks⟩ := RawBlocks.readBeyond_some (b := s.blocks) hlooping hread
    have hplace : result.blocks.m_fileIO.getFilePosition = ((offset + s.m_nFrameSize : ℕ) : ℤ) :=
      congrArg (fun seen ↦ seen.2.2.1) hseen
    rw [hblocks, hreads.getFilePosition_eq] at hplace
    omega

end Agreement

/-- A file with the bytes of a frame is not at its end for `isEOF`. -/
theorem isEOF_of_frame (hreads : s.blocks.Reads content offset) (hindex : s.m_nCurrentFrameIdx = 0)
    (hframe : s.m_nFrameSize ≤ content.length) : s.isEOF = false := by
  have hpos : 0 < s.m_nFrameSize := Nat.pos_of_ne_zero hreads.frameSize
  have hframes : s.m_nFramesInFile = content.length / s.m_nFrameSize := hreads.framesInFile
  have hone : 1 ≤ s.m_nFramesInFile := by
    rw [hframes, Nat.le_div_iff_mul_le hpos]
    omega
  refine decide_eq_false ?_
  show ¬s.m_nFramesInFile ≤ s.m_nCurrentFrameIdx
  omega

theorem streamHasFrame_iff (hreads : s.blocks.Reads content offset) :
    s.StreamHasFrame ↔ offset + s.m_nFrameSize ≤ content.length := by
  have hstream : s.m_fileIO.m_pFileHandle = some ⟨content, offset, true, false, false⟩ :=
    hreads.stream
  constructor
  · rintro ⟨stream, hopen, -, hframe⟩
    obtain rfl := Option.some.inj (hstream.symm.trans hopen)
    exact hframe
  · exact fun hframe ↦ ⟨_, hstream, rfl, hframe⟩

/-- The two styles of an object that reads a file. -/
theorem stylesAgree_iff_of_reads (hreads : s.blocks.Reads content offset)
    (hoffset : offset ≤ content.length) (hbuffer : s.m_pFramebuffer.isNone = false)
    (hindex : s.m_nCurrentFrameIdx = 0) (hmode : s.m_eMode = .input) :
    s.StylesAgree ↔ s.AgreesHere := by
  have hfileSize : s.m_lFileSize = content.length := hreads.fileSize
  have hspent : s.blocks.framesLeftInFile = 0 ↔
      content.length - s.m_lCurrentFilePos < s.m_nFrameSize := hreads.framesLeft_eq_zero_iff
  have hposition : s.m_fileIO.getFilePosition = offset := hreads.getFilePosition_eq
  obtain ⟨target, htarget⟩ : ∃ target : List UInt8, target.length = s.m_nFrameSize :=
    ⟨List.replicate s.m_nFrameSize 0, List.length_replicate⟩
  rw [StylesAgree, and_iff_left fun source _ ↦ writesAgree_of_input hmode source, AgreesHere,
    and_iff_right hmode, hfileSize, hposition, ← hspent]
  by_cases hnone : s.blocks.framesLeftInFile = 0
  · have hframeLeft : s.FrameLeft ↔ s.StreamHasFrame := by
      rw [FrameLeft, hnone]
      exact or_iff_left (by omega)
    rw [and_iff_right hnone, hframeLeft, streamHasFrame_iff hreads]
    refine forall_congr' fun hframe ↦ ?_
    have hmore := isEOF_of_frame hreads hindex (by omega)
    rw [Int.natCast_eq_zero]
    constructor
    · exact fun hagree ↦ (readsAgree_iff_of_spent hreads hoffset hbuffer hmore htarget.ge hnone
        hframe).mp (hagree target htarget.ge)
    · exact fun hloops target hroom ↦ (readsAgree_iff_of_spent hreads hoffset hbuffer hmore hroom
        hnone hframe).mpr hloops
  · refine iff_of_false (fun hagree ↦ ?_) fun hhere ↦ hnone hhere.1
    have hsome : 1 ≤ s.blocks.framesLeftInFile := Nat.one_le_iff_ne_zero.mpr hnone
    have hmore := isEOF_of_frame hreads hindex (by omega)
    exact not_readsAgree_of_left hreads hoffset hbuffer hmore htarget.ge hsome
      (hagree (.inr hsome) target htarget.ge)

end Reads

/-- The two styles of an object that is open. -/
theorem Opened.stylesAgree_iff {s : CRawVideoFileIO} (h : Opened s) :
    s.StylesAgree ↔ s.AgreesHere := by
  obtain ⟨hmode, content, offset, hoffset, hreads⟩ | ⟨hmode, -⟩ := h.session
  · exact stylesAgree_iff_of_reads hreads hoffset h.framebuffer h.frameIdx hmode
  · refine iff_of_false (fun hagree ↦ ?_) fun hhere ↦ ?_
    · have hroom : s.m_nFrameSize ≤ (List.replicate s.m_nFrameSize (0 : UInt8)).length :=
        List.length_replicate.ge
      exact h.not_writesAgree hmode hroom (hagree.2 _ hroom)
    · exact absurd (hmode.symm.trans hhere.1) nofun

/-- In every state of a session, in which the two styles are mixed in any order, single frames and
blocks of one frame agree exactly where the object reads and no frame is left, but for the second
reading of a file of one frame in a loop. Assumes: a frame has a size, and the size of the file is a
`long`. -/
theorem single_frames_agree_iff (quotient : ℤ → ℕ → ℤ) {s opened now : CRawVideoFileIO}
    {mode : eFileIoMode_def} {sFilePath : List Char} {o : OpenOutcome}
    {trace : List (Call CRawVideoFileIO VideoCall Unit)} (hsize : s.m_nFrameSize ≠ 0)
    (hsmall : ∀ content, s.onDisk = some content → content.length < 2 ^ 63)
    (hopen : s.openFile mode sFilePath o = some (true, opened))
    (hrun : Run (Session quotient) opened trace now) :
    now.StylesAgree ↔ now.AgreesHere := by
  have hopened : Opened now := hrun.invariant Opened (fun _ ↦ True)
    (fun _ _ _ _ _ hbefore hcall ↦ hbefore.next hcall) (fun _ _ ↦ trivial)
    (opened_of_openFile hsize hsmall hopen)
  exact hopened.stylesAgree_iff

/-- A file of one frame that is read in a loop, was read once, and is at its beginning again. -/
theorem single_frames_agree_iff_looped : ∃ trace final, trace.length = 4 ∧
    Run (Session fun _ _ ↦ 1) (pixelReader 8 [1]) trace final ∧ final.FrameLeft ∧
      final.StylesAgree := by
  have hrun : Run (Session fun _ _ ↦ 1) (pixelReader 8 [1])
      [⟨_, .setCurrentFrame 0, ()⟩, ⟨_, .setLoopingRead true, ()⟩,
        ⟨_, .readVideoBlock (some [0]) 1, ()⟩, ⟨_, .getNumFrames, ()⟩] _ :=
    .cons rfl (.cons rfl (.cons rfl (.cons rfl (.nil _))))
  refine ⟨_, _, rfl, hrun, .inl ⟨_, rfl, rfl, by decide⟩,
    (@single_frames_agree_iff (fun _ _ ↦ 1) (singlePixels 8 [1]) (pixelReader 8 [1]) _ .input ['v']
      ⟨true, true, true⟩ _ (by decide) ?_ rfl hrun).mpr ⟨rfl, by decide, fun _ ↦ ?_⟩⟩
  · rintro content ⟨⟩
    decide
  · exact ⟨rfl, rfl, rfl, rfl⟩

/-- From a file of two frames a single one is read, which no position or counter but that of the
stream notes. -/
theorem single_frame_is_not_noted :
    ¬∀ (quotient : ℤ → ℕ → ℤ) (s opened now : CRawVideoFileIO) (mode : eFileIoMode_def)
        (sFilePath : List Char) (o : OpenOutcome)
        (trace : List (Call CRawVideoFileIO VideoCall Unit)), s.m_nFrameSize ≠ 0 →
      (∀ content, s.onDisk = some content → content.length < 2 ^ 63) →
      s.openFile mode sFilePath o = some (true, opened) →
      Run (Session quotient) opened trace now → now.StylesAgree := by
  intro h
  have hrun : Run (Session fun _ _ ↦ 2) (pixelReader 8 [1, 2]) [⟨_, .setCurrentFrame 0, ()⟩] _ :=
    .cons rfl (.nil _)
  have hagree := h (fun _ _ ↦ 2) (singlePixels 8 [1, 2]) (pixelReader 8 [1, 2]) _ .input ['v']
    ⟨true, true, true⟩ _ (by decide) (by rintro content ⟨⟩; decide) rfl hrun
  have hreads := hagree.1 (.inr (by decide)) [0] (by decide)
  exact absurd (congrArg (Option.map fun seen ↦ seen.2.2.2.2.1) hreads) (by decide)

end RdbLibs.FileIO.CRawVideoFileIO
