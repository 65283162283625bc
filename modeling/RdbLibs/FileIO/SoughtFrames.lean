import RdbLibs.FileIO.CRawVideoFileIO.Sessions

/-!
# Seeking in a file that is open for input

A caller of a raw file may read samples, single frames and blocks between its seeks, ask for the
number of frames and rewind. None of these calls changes the file or the size of a frame, and the
stream stays in the file (`InSession`), so that at any time a seek is exact exactly when its
condition is met. The condition is on where the calls before have left the counters: those of
`nextFrame` raise the index in the I/O block, and those of `readVideoFrame` count no frame.
-/

set_option autoImplicit false
set_option relaxedAutoImplicit false

namespace RdbLibs.FileIO

open MachineWord RawBlocks Runs

variable {content : List UInt8} {frameBytes F : ℕ} {quotient : ℤ → ℕ → ℤ}

/-! ### Raw audio files -/

namespace CRawAudioFileIO

/-- A call of a function of the class that the other class does not have, or has otherwise. -/
inductive ReaderCall
  | nextFrame
  | readSample16 (chl : ℕ)
  | readSample32 (chl : ℕ)
  | getNumFrames
  | setIoBlockSize (numFrames : ℤ)
  | resetPlayPosition

/-- What such a call answers, and what becomes of the object. A function that returns no `bool` is
always successful. -/
def readerCall (quotient : ℤ → ℕ → ℤ) (s : CRawAudioFileIO) :
    ReaderCall → Option (Bool × CRawAudioFileIO)
  | .nextFrame => s.nextFrame
  | .readSample16 chl => (s.readSample16 chl).map fun read ↦ (read.1.isSome, read.2)
  | .readSample32 chl => (s.readSample32 chl).map fun read ↦ (read.1.isSome, read.2)
  | .getNumFrames => some (true, (s.getNumFrames quotient).2)
  | .setIoBlockSize numFrames => some (true, s.setIoBlockSize numFrames)
  | .resetPlayPosition => some s.resetPlayPosition

/-- The object reads a file of `F` whole frames. -/
structure InputSession (content : List UInt8) (frameBytes F : ℕ) (s : CRawAudioFileIO) : Prop where
  mode : s.m_eMode = .input
  session : InSession content frameBytes F s.blocks

variable {s after : CRawAudioFileIO}

theorem readBlock_mode {pData : Option (List UInt8)} {numFrames : ℕ} {result : ReadResult}
    (hread : s.readBlock pData numFrames = some result) : result.s.m_eMode = s.m_eMode := by
  rw [readBlock_eq] at hread
  obtain ⟨answer, -, rfl⟩ := Option.map_eq_some_iff.mp hread
  rfl

theorem calls_input (hmode : s.m_eMode = .input) {call : SeekCall} {reply : Bool}
    (hcall : frameReader.Calls s call reply after) : after.m_eMode = .input := by
  cases hcall with
  | setLoopingRead value => exact hmode
  | setCurrentFrame frameNum => exact hmode
  | readBlock pData numFrames hread =>
    obtain ⟨result, hblock, hresult⟩ := Option.map_eq_some_iff.mp hread
    cases hresult
    exact (readBlock_mode hblock).trans hmode

/-- A sample is read of the frame buffer. -/
theorem readSampleOfSize_blocks {size chl : ℕ} {data : Option ℤ}
    (hread : readSampleOfSize size s chl = some (data, after)) :
    after.m_eMode = s.m_eMode ∧ after.blocks = s.blocks := by
  unfold readSampleOfSize at hread
  cases hbuffer : s.m_pFramebuffer with
  | none =>
    rw [hbuffer] at hread
    cases hread
    exact ⟨rfl, rfl⟩
  | some buffer =>
    rw [hbuffer] at hread
    dsimp only at hread
    split_ifs at hread
    · cases hread
      exact ⟨rfl, rfl⟩
    · cases hread
      exact ⟨rfl, rfl⟩
    -- The sample is counted or not, and is one of the first frame of the buffer or of another.
    all_goals
      obtain ⟨bytes, -, hresult⟩ := Option.bind_eq_some_iff.mp hread
      cases hresult
      exact ⟨rfl, rfl⟩

namespace InputSession

theorem setFrameIdx (h : InputSession content frameBytes F s) (index : ℕ) :
    InputSession content frameBytes F (s.setFrameIdx index) :=
  ⟨h.mode, h.session.setFrameIdx index⟩

/-- A transfer reads into the frame buffer. -/
theorem transferFrames (h : InputSession content frameBytes F s) {numFrames : ℕ} {status : Bool}
    (htransfer : s.transferFrames numFrames = some (status, after)) :
    InputSession content frameBytes F after := by
  unfold CRawAudioFileIO.transferFrames at htransfer
  rw [h.mode] at htransfer
  dsimp only at htransfer
  split_ifs at htransfer
  · cases htransfer
    exact h
  · obtain ⟨result, hread, hresult⟩ := Option.bind_eq_some_iff.mp htransfer
    have hmode : result.s.m_eMode = .input := (readBlock_mode hread).trans h.mode
    have hsession := h.session.readBlock (readBlock_blocks hread)
    split_ifs at hresult
    · cases hresult
      exact ⟨hmode, hsession⟩
    · cases hresult
      exact ⟨hmode, hsession⟩

theorem nextFrame (h : InputSession content frameBytes F s) {status : Bool}
    (hnext : s.nextFrame = some (status, after)) : InputSession content frameBytes F after := by
  unfold CRawAudioFileIO.nextFrame at hnext
  dsimp only at hnext
  split_ifs at hnext
  · cases hnext
    exact h
  · exact (h.setFrameIdx 0).transferFrames hnext
  · obtain ⟨⟨done, middle⟩, htransfer, hresult⟩ := Option.bind_eq_some_iff.mp hnext
    have hmiddle := (h.setFrameIdx _).transferFrames htransfer
    cases done with
    | false =>
      cases hresult
      exact hmiddle
    | true =>
      cases hresult
      exact hmiddle.setFrameIdx 0
  · cases hnext
    exact h.setFrameIdx _

theorem readSampleOfSize (h : InputSession content frameBytes F s) {size chl : ℕ} {status : Bool}
    (hread : (s.readSampleOfSize size chl).map (fun read ↦ (read.1.isSome, read.2)) =
      some (status, after)) : InputSession content frameBytes F after := by
  obtain ⟨⟨data, after⟩, hsample, hresult⟩ := Option.map_eq_some_iff.mp hread
  cases hresult
  obtain ⟨hmode, hblocks⟩ := readSampleOfSize_blocks hsample
  exact ⟨hmode.trans h.mode, hblocks ▸ h.session⟩

theorem getNumFrames (h : InputSession content frameBytes F s) (quotient : ℤ → ℕ → ℤ) :
    InputSession content frameBytes F (s.getNumFrames quotient).2 := by
  unfold CRawAudioFileIO.getNumFrames
  split_ifs
  · exact h
  · exact ⟨h.mode, h.session.rewound⟩

theorem resetPlayPosition (h : InputSession content frameBytes F s) :
    InputSession content frameBytes F s.resetPlayPosition.2 := by
  have hfirst := h.session.setCurrentFrame 0
  rw [← blocks_setCurrentFrame] at hfirst
  exact ⟨h.mode, hfirst.setFrameIdx 0⟩

/-- Every other call of the class keeps a session. -/
theorem readerCall (h : InputSession content frameBytes F s) {call : ReaderCall} {reply : Bool}
    (hcall : s.readerCall quotient call = some (reply, after)) :
    InputSession content frameBytes F after := by
  cases call with
  | nextFrame => exact h.nextFrame hcall
  | readSample16 chl => exact h.readSampleOfSize hcall
  | readSample32 chl => exact h.readSampleOfSize hcall
  | getNumFrames =>
    cases hcall
    exact h.getNumFrames quotient
  | setIoBlockSize numFrames =>
    cases hcall
    exact ⟨h.mode, h.session⟩
  | resetPlayPosition =>
    cases hcall
    exact h.resetPlayPosition

end InputSession

end CRawAudioFileIO

/-! ### Raw video files -/

namespace CRawVideoFileIO

/-- A call of a function of the class that the other class does not have, or has otherwise. -/
inductive ReaderCall
  | readVideoFrame (pData : Option (List UInt8))
  | getNumFrames
  | resetPlayPosition

/-- What such a call answers, and what becomes of the object. A function that returns no `bool` is
always successful. -/
def readerCall (quotient : ℤ → ℕ → ℤ) (s : CRawVideoFileIO) :
    ReaderCall → Option (Bool × CRawVideoFileIO)
  | .readVideoFrame pData => (s.readVideoFrame pData).map fun result ↦ (result.status, result.s)
  | .getNumFrames => some (true, (s.getNumFrames quotient).2)
  | .resetPlayPosition => some s.resetPlayPosition

variable {s after : CRawVideoFileIO}

theorem inSession_readVideoFrame (h : InSession content frameBytes F s.blocks)
    {pData : Option (List UInt8)} {result : VideoReadResult}
    (hread : s.readVideoFrame pData = some result) :
    InSession content frameBytes F result.s.blocks := by
  obtain ⟨io, hafter, hkeeps⟩ := readVideoFrame_kept hread
  rw [hafter]
  exact h.kept rfl hkeeps

theorem inSession_getNumFrames (h : InSession content frameBytes F s.blocks)
    (quotient : ℤ → ℕ → ℤ) :
    InSession content frameBytes F (s.getNumFrames quotient).2.blocks := by
  unfold getNumFrames
  split_ifs
  · exact h
  · exact h.rewound

theorem inSession_resetPlayPosition (h : InSession content frameBytes F s.blocks) :
    InSession content frameBytes F s.resetPlayPosition.2.blocks := by
  have hfirst := h.setCurrentFrame 0
  rw [← blocks_setCurrentFrame] at hfirst
  exact hfirst.setFrameIdx 0

/-- Every other call of the class keeps a session. -/
theorem inSession_readerCall (h : InSession content frameBytes F s.blocks) {call : ReaderCall}
    {reply : Bool} (hcall : s.readerCall quotient call = some (reply, after)) :
    InSession content frameBytes F after.blocks := by
  cases call with
  | readVideoFrame pData =>
    obtain ⟨result, hread, hresult⟩ := Option.map_eq_some_iff.mp hcall
    cases hresult
    exact inSession_readVideoFrame h hread
  | getNumFrames =>
    cases hcall
    exact inSession_getNumFrames h quotient
  | resetPlayPosition =>
    cases hcall
    exact inSession_resetPlayPosition h

end CRawVideoFileIO

/-! ### Sessions -/

/-- In every session on a file of `F` whole frames, with calls of all functions that read, seek,
count frames or rewind, a seek is exact exactly when its condition is met. Assumes: the size of the
file is a `long`. -/
theorem seek_is_exact_iff (content : List UInt8) (hsmall : content.length < 2 ^ 63)
    (F frameNum : ℕ) (quotient : ℤ → ℕ → ℤ) :
    (∀ (s opened now : CRawAudioFileIO) (sFilePath : List Char) (o : OpenOutcome)
        (trace : List (Call CRawAudioFileIO (SeekCall ⊕ CRawAudioFileIO.ReaderCall) Bool)),
      s.onDisk = some content → content.length = F * s.m_nFrameSize →
      s.openFile .input sFilePath o = some (true, opened) →
      Run (FrameReader.Session CRawAudioFileIO.frameReader <| CRawAudioFileIO.readerCall quotient)
        opened trace now →
        (FrameReader.SeeksExactly CRawAudioFileIO.frameReader content s.m_nFrameSize F now
            frameNum ↔
          now.blocks.SeekMeets content frameNum)) ∧
    ∀ (s opened now : CRawVideoFileIO) (sFilePath : List Char) (o : OpenOutcome)
        (trace : List (Call CRawVideoFileIO (SeekCall ⊕ CRawVideoFileIO.ReaderCall) Bool)),
      s.onDisk = some content → content.length = F * s.m_nFrameSize →
      s.openFile .input sFilePath o = some (true, opened) →
      Run (FrameReader.Session CRawVideoFileIO.frameReader <| CRawVideoFileIO.readerCall quotient)
        opened trace now →
        (FrameReader.SeeksExactly CRawVideoFileIO.frameReader content s.m_nFrameSize F now
            frameNum ↔
          now.blocks.SeekMeets content frameNum) := by
  constructor
  · intro s opened now sFilePath o trace hcontent hwhole hopen hrun
    obtain ⟨hmode, hopened⟩ := CRawAudioFileIO.openFile_blocks hopen
    have hstart := hopened.inSession hcontent hsmall hwhole
    refine InSession.run_iff CRawAudioFileIO.refines_blocks (fun s ↦ s.m_eMode = .input)
      (fun hinput ↦ CRawAudioFileIO.calls_input hinput) ?_ hrun hmode hstart frameNum
    intro before call reply after hinput hsession hcall
    obtain ⟨hmode', hafter⟩ := CRawAudioFileIO.InputSession.readerCall ⟨hinput, hsession⟩ hcall
    exact ⟨hmode', hafter⟩
  · intro s opened now sFilePath o trace hcontent hwhole hopen hrun
    obtain ⟨bits, hopened⟩ := CRawVideoFileIO.openFile_blocks hopen
    have hstart := hopened.inSession hcontent hsmall hwhole
    exact InSession.run_iff CRawVideoFileIO.refines_blocks (fun _ ↦ True) (fun _ _ ↦ trivial)
      (fun _ hsession hcall ↦ ⟨trivial, CRawVideoFileIO.inSession_readerCall hsession hcall⟩) hrun
      trivial hstart frameNum

/-- The second of two frames is found where the first one was read: by `nextFrame` in the one class,
and in the other by a block, behind which `readVideoFrame` counts no frame. -/
theorem seek_is_exact_iff_second :
    (∃ trace now, trace.length = 2 ∧
      Run (FrameReader.Session CRawAudioFileIO.frameReader <|
        CRawAudioFileIO.readerCall fun size frame ↦ size / frame) (monoReader 8 [1, 2]) trace now ∧
      CRawAudioFileIO.frameReader.SeeksExactly [1, 2] 1 2 now 1) ∧
    ∃ trace now, trace.length = 3 ∧
      Run (FrameReader.Session CRawVideoFileIO.frameReader <|
        CRawVideoFileIO.readerCall fun size frame ↦ size / frame) (pixelReader 8 [1, 2]) trace
        now ∧
      CRawVideoFileIO.frameReader.SeeksExactly [1, 2] 1 2 now 1 := by
  have haudio : Run (FrameReader.Session CRawAudioFileIO.frameReader <|
      CRawAudioFileIO.readerCall fun size frame ↦ size / frame) (monoReader 8 [1, 2])
      [⟨_, .inl (.setCurrentFrame 0), true⟩, ⟨_, .inr .nextFrame, true⟩] _ :=
    .cons (.shared (.setCurrentFrame _ 0)) (.cons (.other rfl) (.nil _))
  have hvideo : Run (FrameReader.Session CRawVideoFileIO.frameReader <|
      CRawVideoFileIO.readerCall fun size frame ↦ size / frame) (pixelReader 8 [1, 2])
      [⟨_, .inl (.setCurrentFrame 0), true⟩, ⟨_, .inl (.readBlock (some [9]) 1), true⟩,
        ⟨_, .inr (.readVideoFrame (some [9])), true⟩] _ :=
    .cons (.shared (.setCurrentFrame _ 0)) (.cons (.shared (.readBlock _ _ rfl))
      (.cons (.other rfl) (.nil _)))
  refine ⟨⟨_, _, rfl, haudio, ?_⟩, ⟨_, _, rfl, hvideo, ?_⟩⟩
  · exact ((seek_is_exact_iff [1, 2] (by decide) 2 1 _).1 (monoSamples 8 [1, 2])
      (monoReader 8 [1, 2]) _ ['a'] ⟨true, true, true⟩ _ rfl rfl rfl haudio).mpr (by decide)
  · exact ((seek_is_exact_iff [1, 2] (by decide) 2 1 _).2 (singlePixels 8 [1, 2])
      (pixelReader 8 [1, 2]) _ ['v'] ⟨true, true, true⟩ _ rfl rfl rfl hvideo).mpr (by decide)

/-- A seek to the second of two frames is successful, and the first one is still the current frame.
-/
theorem sought_frame_is_not_current :
    (¬∀ (quotient : ℤ → ℕ → ℤ) (s opened now : CRawAudioFileIO) (content : List UInt8)
        (F frameNum : ℕ) (sFilePath : List Char) (o : OpenOutcome)
        (trace : List (Call CRawAudioFileIO (SeekCall ⊕ CRawAudioFileIO.ReaderCall) Bool)),
      s.onDisk = some content → content.length < 2 ^ 63 → content.length = F * s.m_nFrameSize →
      frameNum < 2 ^ 32 → s.openFile .input sFilePath o = some (true, opened) →
      Run (FrameReader.Session CRawAudioFileIO.frameReader <| CRawAudioFileIO.readerCall quotient)
        opened trace now →
        CRawAudioFileIO.frameReader.SeeksExactly content s.m_nFrameSize F now frameNum) ∧
    ¬∀ (quotient : ℤ → ℕ → ℤ) (s opened now : CRawVideoFileIO) (content : List UInt8)
        (F frameNum : ℕ) (sFilePath : List Char) (o : OpenOutcome)
        (trace : List (Call CRawVideoFileIO (SeekCall ⊕ CRawVideoFileIO.ReaderCall) Bool)),
      s.onDisk = some content → content.length < 2 ^ 63 → content.length = F * s.m_nFrameSize →
      frameNum < 2 ^ 32 → s.openFile .input sFilePath o = some (true, opened) →
      Run (FrameReader.Session CRawVideoFileIO.frameReader <| CRawVideoFileIO.readerCall quotient)
        opened trace now →
        CRawVideoFileIO.frameReader.SeeksExactly content s.m_nFrameSize F now frameNum := by
  constructor
  · intro h
    obtain ⟨-, hfound⟩ := h (fun size frame ↦ size / frame) (monoSamples 8 [1, 2])
      (monoReader 8 [1, 2]) _ [1, 2] 2 1 ['a'] ⟨true, true, true⟩ [] rfl (by decide) rfl (by decide)
      rfl (.nil _)
    exact absurd (hfound rfl).1 (by decide)
  · intro h
    obtain ⟨-, hfound⟩ := h (fun size frame ↦ size / frame) (singlePixels 8 [1, 2])
      (pixelReader 8 [1, 2]) _ [1, 2] 2 1 ['v'] ⟨true, true, true⟩ [] rfl (by decide) rfl
      (by decide) rfl (.nil _)
    exact absurd (hfound rfl).1 (by decide)

end RdbLibs.FileIO
