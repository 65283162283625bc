import RdbLibs.FileIO.Seeking

/-!
# Sessions with a raw video file

A session begins with a successful `openFile`, and goes on with calls that read, write, seek and ask
for the number of frames, in any order. Each of them leaves the object open (`Opened.next`): its
positions are in the file if it reads, and its stream is one that can be written if it writes.
-/

set_option autoImplicit false
set_option relaxedAutoImplicit false

namespace RdbLibs.FileIO

open FileStream MachineWord

theorem CFileIO.openFile_output {io io' : CFileIO} {granted : Bool}
    (hopen : io.openFile .output granted = (true, io')) :
    io'.m_pFileHandle = some ⟨[], 0, false, true, false⟩ := by
  obtain ⟨-, -, stream, hstream, rfl⟩ := of_openFile (by decide) hopen
  exact hstream.symm

namespace CRawVideoFileIO

/-- A call in a session, with its arguments. -/
inductive VideoCall
  | readVideoFrame (pData : Option (List UInt8))
  | readVideoBlock (pData : Option (List UInt8)) (numFrames : ℕ)
  | writeVideoFrame (pData : Option (List UInt8))
  | writeVideoBlock (pData : Option (List UInt8)) (numFrames : ℕ)
  | setCurrentFrame (frameNum : ℕ)
  | setLoopingRead (value : Bool)
  | getNumFrames

/-- What becomes of an object by a call, as far as it has a result. -/
def next (quotient : ℤ → ℕ → ℤ) (s : CRawVideoFileIO) : VideoCall → Option CRawVideoFileIO
  | .readVideoFrame pData => (s.readVideoFrame pData).map VideoReadResult.s
  | .readVideoBlock pData numFrames => (s.readVideoBlock pData numFrames).map VideoReadResult.s
  | .writeVideoFrame pData => (s.writeVideoFrame pData).map Prod.snd
  | .writeVideoBlock pData numFrames => (s.writeVideoBlock pData numFrames).map Prod.snd
  | .setCurrentFrame frameNum => some (s.setCurrentFrame frameNum).2
  | .setLoopingRead value => some (s.setLoopingRead value)
  | .getNumFrames => some (s.getNumFrames quotient).2

/-- The calls of a session, in any order. -/
def Session (quotient : ℤ → ℕ → ℤ) (before : CRawVideoFileIO) (call : VideoCall) (_reply : Unit)
    (after : CRawVideoFileIO) : Prop := before.next quotient call = some after

/-- The stream is one that a file is written through. -/
def WritesStream (io : CFileIO) (_filePos : ℕ) : Prop :=
  ∃ content offset, io.m_pFileHandle = some ⟨content, offset, false, true, false⟩

/-- The object has opened a file, for input or for output. -/
structure Opened (s : CRawVideoFileIO) : Prop where
  opened : s.m_bFileOpened = true
  frameSize : s.m_nFrameSize ≠ 0
  framebuffer : s.m_pFramebuffer.isNone = false
  frameIdx : s.m_nCurrentFrameIdx = 0
  session : (s.m_eMode = .input ∧ ∃ content, s.blocks.ReadsInside content) ∨
    (s.m_eMode = .output ∧ WritesStream s.m_fileIO s.m_lCurrentFilePos)

theorem writesStream_setFilePosition {io : CFileIO} {filePos : ℕ} (h : WritesStream io filePos)
    (position filePos' : ℕ) : (io.setFilePosition position).1 = true ∧
      WritesStream (io.setFilePosition position).2 filePos' := by
  obtain ⟨content, offset, hstream⟩ := h
  have hseek := CFileIO.setFilePosition_stream hstream position
  rw [hseek]
  exact ⟨rfl, content, position, rfl⟩

theorem writesStream_setCurrentFrame {b : RawBlocks} (frameNum : ℕ)
    (h : WritesStream b.m_fileIO b.m_lCurrentFilePos) :
    WritesStream (RawBlocks.m_fileIO (b.setCurrentFrame frameNum).2)
      (b.setCurrentFrame frameNum).2.m_lCurrentFilePos := by
  unfold RawBlocks.setCurrentFrame
  dsimp only
  split_ifs
  · exact h
  · exact h
  · exact (writesStream_setFilePosition h _ _).2
  · exact (writesStream_setFilePosition h _ _).2

/-- Nothing is read from a stream that a file is written through. -/
theorem readBlock_writesStream {io io' : CFileIO} {filePos size count : ℕ}
    {target pData : List UInt8} {status : Bool} (h : WritesStream io filePos)
    (hread : io.readBlock target size count = some (status, pData, io')) : io' = io := by
  obtain ⟨content, offset, hstream⟩ := h
  unfold CFileIO.readBlock at hread
  rw [hstream] at hread
  dsimp only at hread
  rw [Stream.read, if_pos (.inl rfl)] at hread
  obtain ⟨stored, -, hresult⟩ := Option.bind_eq_some_iff.mp hread
  cases hresult
  rw [← hstream]

theorem kept_writesStream : RawBlocks.Kept WritesStream where
  read := fun hwrites hread ↦ readBlock_writesStream hwrites hread ▸ hwrites
  note := id
  rewind := fun hwrites ↦ writesStream_setFilePosition hwrites 0 0

/-- A write through the stream is complete. -/
theorem writeBlock_writesStream {io io' : CFileIO} {filePos size count : ℕ} {source : List UInt8}
    {status : Bool} (h : WritesStream io filePos)
    (hwrite : io.writeBlock source size count = some (status, io')) (filePos' : ℕ) :
    WritesStream io' filePos' := by
  obtain ⟨content, offset, hstream⟩ := h
  unfold CFileIO.writeBlock at hwrite
  rw [hstream] at hwrite
  obtain ⟨bytes, -, hresult⟩ := Option.bind_eq_some_iff.mp hwrite
  obtain ⟨-, rfl⟩ := Prod.mk.inj (Option.some.inj hresult)
  obtain ⟨content', offset', hwritten⟩ :=
    Stream.exists_write ⟨content, offset, false, true, false⟩ size bytes
  exact ⟨content', offset', congrArg some hwritten⟩

/-- `readVideoFrame` reads from the stream, or leaves the object as it is. -/
theorem readVideoFrame_kept {s : CRawVideoFileIO} {pData : Option (List UInt8)}
    {result : VideoReadResult} (hread : s.readVideoFrame pData = some result) :
    ∃ io, result.s = { s with m_fileIO := io } ∧ ∀ P : CFileIO → ℕ → Prop, RawBlocks.Kept P →
      P s.m_fileIO s.m_lCurrentFilePos → P io s.m_lCurrentFilePos := by
  unfold readVideoFrame at hread
  split_ifs at hread
  · obtain rfl := Option.some.inj hread
    exact ⟨s.m_fileIO, rfl, fun _ _ hP ↦ hP⟩
  · obtain rfl := Option.some.inj hread
    exact ⟨s.m_fileIO, rfl, fun _ _ hP ↦ hP⟩
  · obtain ⟨target, -, hrest⟩ := Option.bind_eq_some_iff.mp hread
    obtain ⟨⟨status, stored, io⟩, htransfer, hresult⟩ := Option.bind_eq_some_iff.mp hrest
    cases status with
    | false =>
      obtain rfl := Option.some.inj hresult
      exact ⟨io, rfl, fun _ hkept hP ↦ hkept.read hP htransfer⟩
    | true =>
      obtain rfl := Option.some.inj hresult
      exact ⟨io, rfl, fun _ hkept hP ↦ hkept.read hP htransfer⟩

namespace Opened

variable {s after : CRawVideoFileIO} {quotient : ℤ → ℕ → ℤ}

/-- A call that moves the positions, as it moves them in a file that is read and in a stream that is
written, leaves an object that is open. -/
theorem withBlocks (h : Opened s) {b : RawBlocks} (hmoves : s.blocks.Moves b)
    (hinput : ∀ content, s.blocks.ReadsInside content → b.ReadsInside content)
    (houtput : WritesStream s.m_fileIO s.m_lCurrentFilePos →
      WritesStream b.m_fileIO b.m_lCurrentFilePos) : Opened (s.withBlocks b) where
  opened := h.opened
  frameSize := h.frameSize
  framebuffer := h.framebuffer
  frameIdx := h.frameIdx
  session := by
    refine h.session.imp ?_ fun houtputs ↦ ⟨houtputs.1, houtput houtputs.2⟩
    rintro ⟨hmode, content, hreads⟩
    exact ⟨hmode, content, blocks_withBlocks hmoves ▸ hinput content hreads⟩

/-- A call by whose steps the positions are moved. -/
theorem kept (h : Opened s) {b : RawBlocks} (hmoves : s.blocks.Moves b)
    (hkeeps : ∀ P : CFileIO → ℕ → Prop, RawBlocks.Kept P →
      P s.m_fileIO s.m_lCurrentFilePos → P b.m_fileIO b.m_lCurrentFilePos) :
    Opened (s.withBlocks b) :=
  h.withBlocks hmoves (fun _ hreads ↦ hreads.kept hmoves hkeeps) (hkeeps _ kept_writesStream)

theorem readVideoFrame (h : Opened s) {pData : Option (List UInt8)} {result : VideoReadResult}
    (hread : s.readVideoFrame pData = some result) : Opened result.s := by
  obtain ⟨io, hafter, hkeeps⟩ := readVideoFrame_kept hread
  rw [hafter]
  exact h.kept (b := { s.blocks with m_fileIO := io }) rfl hkeeps

theorem readVideoBlock (h : Opened s) {pData : Option (List UInt8)} {numFrames : ℕ}
    {result : VideoReadResult} (hread : s.readVideoBlock pData numFrames = some result) :
    Opened result.s := by
  obtain ⟨answer, hanswer, rfl⟩ := Option.map_eq_some_iff.mp hread
  exact h.kept (RawBlocks.moves_readBlock hanswer) fun P hkept hP ↦ hkept.readBlock hP hanswer

/-- What is left where a stream was written and the counters may have been raised. -/
theorem written (h : Opened s) (hmode : s.m_eMode ≠ .input) {io : CFileIO} {source : List UInt8}
    {size count : ℕ} {status : Bool} (hwrite : s.m_fileIO.writeBlock source size count =
      some (status, io)) (filePos framesInFile : ℕ) (current : ℤ) :
    Opened { s with
      m_fileIO := io
      m_lCurrentFilePos := filePos
      m_nCurrentFrame := current
      m_nFramesInFile := framesInFile } where
  opened := h.opened
  frameSize := h.frameSize
  framebuffer := h.framebuffer
  frameIdx := h.frameIdx
  session := by
    obtain ⟨hinput, -⟩ | ⟨houtput, hwrites⟩ := h.session
    · exact absurd hinput hmode
    · exact .inr ⟨houtput, writeBlock_writesStream hwrites hwrite filePos⟩

theorem writeVideoFrame (h : Opened s) {pData : Option (List UInt8)} {status : Bool}
    (hwrite : s.writeVideoFrame pData = some (status, after)) : Opened after := by
  cases pData with
  | none =>
    cases hwrite
    exact h
  | some source =>
    unfold CRawVideoFileIO.writeVideoFrame at hwrite
    split_ifs at hwrite with hsize hmode
    · cases hwrite
      exact h
    · cases hwrite
      exact h
    · obtain ⟨⟨done, io⟩, htransfer, hresult⟩ := Option.bind_eq_some_iff.mp hwrite
      have hafter := h.written hmode htransfer s.m_lCurrentFilePos s.m_nFramesInFile
        s.m_nCurrentFrame
      cases done with
      | false =>
        cases hresult
        exact hafter
      | true =>
        cases hresult
        exact hafter

theorem writeVideoBlock (h : Opened s) {pData : Option (List UInt8)} {numFrames : ℕ} {status : Bool}
    (hwrite : s.writeVideoBlock pData numFrames = some (status, after)) : Opened after := by
  cases pData with
  | none =>
    cases hwrite
    exact h
  | some source =>
    unfold CRawVideoFileIO.writeVideoBlock at hwrite
    split_ifs at hwrite with hrefused
    · cases hwrite
      exact h
    · obtain ⟨⟨done, io⟩, htransfer, hresult⟩ := Option.bind_eq_some_iff.mp hwrite
      have hmode : s.m_eMode ≠ .input := fun hinput ↦ hrefused (.inr (.inl hinput))
      have hafter := h.written hmode htransfer (intToSize io.getFilePosition)
      cases done with
      | false =>
        cases hresult
        exact hafter s.m_nFramesInFile s.m_nCurrentFrame
      | true =>
        cases hresult
        exact hafter _ _

theorem setCurrentFrame (h : Opened s) (frameNum : ℕ) : Opened (s.setCurrentFrame frameNum).2 := by
  refine h.withBlocks (RawBlocks.moves_setCurrentFrame s.blocks frameNum)
    (fun content hreads ↦ hreads.setCurrentFrame frameNum)
    (writesStream_setCurrentFrame (b := s.blocks) frameNum)

theorem getNumFrames (h : Opened s) (quotient : ℤ → ℕ → ℤ) :
    Opened (s.getNumFrames quotient).2 := by
  unfold CRawVideoFileIO.getNumFrames
  split_ifs with hrefused
  · exact h
  · rw [not_or, not_or] at hrefused
    obtain ⟨hmode, content, offset, hoffset, hreads⟩ :=
      h.session.resolve_right fun houtput ↦ hrefused.2.2 houtput.1
    have hrewound := CFileIO.rewound_stream hreads.stream
    exact { h with session := .inl ⟨hmode, content, 0, Nat.zero_le _,
      { hreads with stream := hrewound }⟩ }

theorem setLoopingRead (h : Opened s) (value : Bool) : Opened (s.setLoopingRead value) := by
  refine { h with session := h.session.imp_left ?_ }
  rintro ⟨hmode, content, offset, hoffset, hreads⟩
  exact ⟨hmode, content, offset, hoffset, { hreads with }⟩

/-- Every call of a session leaves the object open. -/
theorem next (h : Opened s) {call : VideoCall} (hnext : s.next quotient call = some after) :
    Opened after := by
  cases call with
  | readVideoFrame pData =>
    obtain ⟨result, hread, rfl⟩ := Option.map_eq_some_iff.mp hnext
    exact h.readVideoFrame hread
  | readVideoBlock pData numFrames =>
    obtain ⟨result, hread, rfl⟩ := Option.map_eq_some_iff.mp hnext
    exact h.readVideoBlock hread
  | writeVideoFrame pData =>
    obtain ⟨result, hwrite, rfl⟩ := Option.map_eq_some_iff.mp hnext
    exact h.writeVideoFrame hwrite
  | writeVideoBlock pData numFrames =>
    obtain ⟨result, hwrite, rfl⟩ := Option.map_eq_some_iff.mp hnext
    exact h.writeVideoBlock hwrite
  | setCurrentFrame frameNum =>
    cases hnext
    exact h.setCurrentFrame frameNum
  | setLoopingRead value =>
    cases hnext
    exact h.setLoopingRead value
  | getNumFrames =>
    cases hnext
    exact h.getNumFrames quotient

end Opened

section Opening

variable {s after : CRawVideoFileIO} {o : OpenOutcome}

theorem openOutput_opened (hopen : s.openOutput o = (true, after)) (hmode : s.m_eMode = .output)
    (hsize : s.m_nFrameSize ≠ 0) (hbuffer : s.m_pFramebuffer.isNone = false) :
    Opened after := by
  unfold openOutput at hopen
  cases hfile : s.m_fileIO.openFile .output o.opened with
  | mk status io =>
    rw [hfile] at hopen
    dsimp only at hopen
    cases status with
    | false => cases hopen
    | true =>
      have hwrites : WritesStream io 0 := ⟨[], 0, CFileIO.openFile_output hfile⟩
      rw [if_neg Bool.noConfusion] at hopen
      obtain ⟨-, rfl⟩ := Prod.mk.inj hopen
      split_ifs
      · exact ⟨rfl, hsize, hbuffer, rfl, .inr ⟨hmode, hwrites⟩⟩
      · exact ⟨rfl, hsize, hbuffer, rfl, .inr ⟨hmode, hwrites⟩⟩

/-- A file that was opened, for input or output. -/
theorem opened_of_openFile {mode : eFileIoMode_def} {sFilePath : List Char}
    (hsize : s.m_nFrameSize ≠ 0)
    (hsmall : ∀ content, s.onDisk = some content → content.length < 2 ^ 63)
    (hopen : s.openFile mode sFilePath o = some (true, after)) : Opened after := by
  obtain ⟨path, buffer, hbuffer, ⟨rfl, hinput⟩ | ⟨rfl, houtput⟩⟩ := openFile_cases hopen
  · obtain ⟨content, info, hcontent, -, rfl⟩ := openInput_cases hinput
    have hreads := RawBlocks.reads_input (b := s.blocks) hsize (hsmall content hcontent)
    exact ⟨rfl, hsize, hbuffer, rfl, .inl ⟨rfl, content, content.length, le_rfl, { hreads with }⟩⟩
  · exact openOutput_opened houtput rfl hsize hbuffer

end Opening

end CRawVideoFileIO

end RdbLibs.FileIO
