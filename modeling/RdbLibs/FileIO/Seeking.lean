import RdbLibs.FileIO.EndOfInput

/-!
# Seeking in raw files

The raw classes keep the number of the current frame beside the two positions in the file, and
`setCurrentFrame` moves the positions only. `CWavFileIO::setCurrentFrame` sets the number too. So a
seek is exact where the object counts the frame as its current one already, which is not what a
caller seeks for. The position of a frame is computed in 32 bits, and of a file that is larger
another frame may be found there. And `readBlock` is refused where `isEOF` compares the index in
the I/O block, which a seek leaves as it is, with the number of frames in the file.
-/

set_option autoImplicit false
set_option relaxedAutoImplicit false

namespace RdbLibs.FileIO

open FileStream MachineWord Runs

/-- The functions of a class by which a caller looks for frames and reads them. The answer of a read
is followed by the caller's memory, and by what becomes of the object. -/
structure FrameReader (σ : Type) where
  setLoopingRead : σ → Bool → σ
  setCurrentFrame : σ → ℕ → Bool × σ
  getCurrentFrame : σ → ℤ
  readBlock : σ → Option (List UInt8) → ℕ → Option (Bool × Option (List UInt8) × σ)

/-- A call of one of the functions by which an object is changed. -/
inductive SeekCall
  | setLoopingRead (value : Bool)
  | setCurrentFrame (frameNum : ℕ)
  | readBlock (pData : Option (List UInt8)) (numFrames : ℕ)

namespace FrameReader

variable {σ τ : Type}

/-- The calls of a caller, as far as they have a result. -/
inductive Calls (r : FrameReader σ) : σ → SeekCall → Bool → σ → Prop
  | setLoopingRead (s : σ) (value : Bool) :
      Calls r s (.setLoopingRead value) true (r.setLoopingRead s value)
  | setCurrentFrame (s : σ) (frameNum : ℕ) :
      Calls r s (.setCurrentFrame frameNum) (r.setCurrentFrame s frameNum).1
        (r.setCurrentFrame s frameNum).2
  | readBlock {s after : σ} {status : Bool} (pData : Option (List UInt8)) (numFrames : ℕ)
      {pData' : Option (List UInt8)}
      (hread : r.readBlock s pData numFrames = some (status, pData', after)) :
      Calls r s (.readBlock pData numFrames) status after

/-- The calls of a caller that uses other functions of the class too. `other` is what they answer,
and what becomes of the object. -/
inductive Session {κ : Type} (r : FrameReader σ) (other : σ → κ → Option (Bool × σ)) :
    σ → SeekCall ⊕ κ → Bool → σ → Prop
  | shared {s after : σ} {call : SeekCall} {reply : Bool} (hcall : Calls r s call reply after) :
      Session r other s (.inl call) reply after
  | other {s after : σ} {call : κ} {reply : Bool} (hcall : other s call = some (reply, after)) :
      Session r other s (.inr call) reply after

/-- A seek in a file of `F` frames is successful if the file has the frame, which is then the
current one, and the one that the next read delivers. -/
def SeeksExactly (r : FrameReader σ) (content : List UInt8) (frameBytes F : ℕ) (s : σ)
    (frameNum : ℕ) : Prop :=
  ((r.setCurrentFrame s frameNum).1 = true ↔ frameNum < F) ∧
    ((r.setCurrentFrame s frameNum).1 = true →
      r.getCurrentFrame (r.setCurrentFrame s frameNum).2 = frameNum ∧
      ∀ target : List UInt8, frameBytes ≤ target.length → ∃ after,
        r.readBlock (r.setCurrentFrame s frameNum).2 (some target) 1 = some (true,
          some (RawBlocks.framesFrom frameBytes content frameNum 1 ++ target.drop frameBytes),
          after) ∧
        r.getCurrentFrame after = frameNum + 1)

/-- A class does what another one does with a part of its objects. -/
structure Refines (r : FrameReader σ) (view : σ → τ) (r' : FrameReader τ) : Prop where
  setLoopingRead : ∀ s value, r'.setLoopingRead (view s) value = view (r.setLoopingRead s value)
  setCurrentFrame : ∀ s frameNum, r'.setCurrentFrame (view s) frameNum =
    ((r.setCurrentFrame s frameNum).1, view (r.setCurrentFrame s frameNum).2)
  getCurrentFrame : ∀ s, r'.getCurrentFrame (view s) = r.getCurrentFrame s
  readBlock : ∀ s pData numFrames, r'.readBlock (view s) pData numFrames =
    (r.readBlock s pData numFrames).map fun read ↦ (read.1, read.2.1, view read.2.2)

namespace Refines

variable {r : FrameReader σ} {view : σ → τ} {r' : FrameReader τ}

theorem calls (h : r.Refines view r') {before after : σ} {call : SeekCall} {reply : Bool}
    (hcall : r.Calls before call reply after) :
    r'.Calls (view before) call reply (view after) := by
  cases hcall with
  | setLoopingRead value =>
    rw [← h.setLoopingRead]
    exact .setLoopingRead _ value
  | setCurrentFrame frameNum =>
    have hsought := Calls.setCurrentFrame (r := r') (view before) frameNum
    rwa [h.setCurrentFrame] at hsought
  | readBlock pData numFrames hread =>
    have hresult := h.readBlock before pData numFrames
    rw [hread] at hresult
    exact .readBlock pData numFrames hresult

theorem seeksExactly_iff (h : r.Refines view r') (content : List UInt8) (frameBytes F : ℕ) (s : σ)
    (frameNum : ℕ) : r.SeeksExactly content frameBytes F s frameNum ↔
      r'.SeeksExactly content frameBytes F (view s) frameNum := by
  unfold SeeksExactly
  rw [h.setCurrentFrame]
  dsimp only
  rw [h.getCurrentFrame]
  refine and_congr_right fun _ ↦ imp_congr_right fun _ ↦ and_congr_right fun _ ↦
    forall₂_congr fun target _ ↦ ?_
  rw [h.readBlock]
  constructor
  · rintro ⟨after, hread, hcurrent⟩
    exact ⟨view after, by rw [hread]; rfl, (h.getCurrentFrame after).trans hcurrent⟩
  · rintro ⟨after', hread, hcurrent⟩
    obtain ⟨⟨status, pData, after⟩, hafter, hresult⟩ := Option.map_eq_some_iff.mp hread
    obtain ⟨rfl, hrest⟩ := Prod.mk.inj hresult
    obtain ⟨rfl, rfl⟩ := Prod.mk.inj hrest
    exact ⟨after, hafter, (h.getCurrentFrame after).symm.trans hcurrent⟩

end Refines

end FrameReader

/-- `CAudioFileIO::getCurrentFrame`. -/
def CRawAudioFileIO.getCurrentFrame (s : CRawAudioFileIO) : ℤ :=
  toInt (intToUnsigned s.m_nCurrentFrame)

/-- `CVideoFileIO::getCurrentFrame`. -/
def CRawVideoFileIO.getCurrentFrame (s : CRawVideoFileIO) : ℤ :=
  toInt (intToUnsigned s.m_nCurrentFrame)

/-- The functions of `CRawAudioFileIO`. -/
def CRawAudioFileIO.frameReader : FrameReader CRawAudioFileIO where
  setLoopingRead := setLoopingRead
  setCurrentFrame := setCurrentFrame
  getCurrentFrame := getCurrentFrame
  readBlock := fun s pData numFrames ↦
    (s.readBlock pData numFrames).map fun result ↦ (result.status, result.pData, result.s)

/-- The functions of `CRawVideoFileIO`, whose `readBlock` is `readVideoBlock`. -/
def CRawVideoFileIO.frameReader : FrameReader CRawVideoFileIO where
  setLoopingRead := setLoopingRead
  setCurrentFrame := setCurrentFrame
  getCurrentFrame := getCurrentFrame
  readBlock := fun s pData numFrames ↦
    (s.readVideoBlock pData numFrames).map fun result ↦ (result.status, result.pData, result.s)

namespace RawBlocks

/-- `getCurrentFrame`. -/
def getCurrentFrame (b : RawBlocks) : ℤ := toInt (intToUnsigned b.m_nCurrentFrame)

/-- What both classes do with the members that they have in common. -/
def frameReader : FrameReader RawBlocks where
  setLoopingRead := fun b value ↦ { b with m_bUseLoopingRead := value }
  setCurrentFrame := setCurrentFrame
  getCurrentFrame := getCurrentFrame
  readBlock := fun b pData numFrames ↦
    (b.readBlock pData numFrames).map fun result ↦ (result.status, result.pData, result.blocks)

/-- What makes a seek exact. The frame that is sought is the current one, `isEOF` refuses no read,
the number of the next frame is an `int`, and at the position of the frame, in 32 bits, the file has
its bytes. Behind the last frame, the position in 32 bits is behind the file as well. -/
def SeekMeets (b : RawBlocks) (content : List UInt8) (frameNum : ℕ) : Prop :=
  if frameNum < b.m_nFramesInFile then
    b.getCurrentFrame = frameNum ∧ b.isEOF = false ∧ frameNum + 1 < 2 ^ 31 ∧
      (content.drop (toUnsigned (frameNum * b.m_nFrameSize))).take b.m_nFrameSize =
        framesFrom b.m_nFrameSize content frameNum 1
  else content.length ≤ toUnsigned (frameNum * b.m_nFrameSize)

instance (b : RawBlocks) (content : List UInt8) (frameNum : ℕ) :
    Decidable (b.SeekMeets content frameNum) := by
  unfold SeekMeets
  infer_instance

/-- The stream and `m_lCurrentFilePos` are in a file that is read. -/
def InFile (content : List UInt8) (io : CFileIO) (filePos : ℕ) : Prop :=
  (∃ offset ≤ content.length,
    io.m_pFileHandle = some ⟨content, offset, true, false, false⟩) ∧ filePos ≤ content.length

/-- The object reads a file, and its stream is in it. -/
def ReadsInside (content : List UInt8) (b : RawBlocks) : Prop :=
  ∃ offset ≤ content.length, Reads content offset b

section Inside

variable {content : List UInt8} {b after : RawBlocks}

/-- A read leaves both positions in the file. -/
theorem kept_inFile (hsmall : content.length < 2 ^ 63) : Kept (InFile content) where
  read := by
    rintro io io' filePos size count target pData status ⟨⟨offset, hoffset, hstream⟩, hpos⟩ hread
    by_cases hsize : size = 0
    · unfold CFileIO.readBlock at hread
      rw [hstream] at hread
      dsimp only at hread
      rw [Stream.read, if_pos (.inr hsize)] at hread
      obtain ⟨stored, -, hresult⟩ := Option.bind_eq_some_iff.mp hread
      cases hresult
      exact ⟨⟨offset, hoffset, rfl⟩, hpos⟩
    · have hstored : io.readBlock target size count = _ :=
        CFileIO.readBlock_stream hstream hsize rfl target
      obtain ⟨-, hresult⟩ := Option.ite_none_right_eq_some.mp (hstored.symm.trans hread)
      cases hresult
      exact ⟨⟨_, by omega, rfl⟩, hpos⟩
  note := by
    rintro io filePos ⟨⟨offset, hoffset, hstream⟩, -⟩
    refine ⟨⟨offset, hoffset, hstream⟩, ?_⟩
    have hword : offset < 2 ^ 64 := by omega
    have hnoted : intToSize io.getFilePosition = offset := by
      have hposition := CFileIO.getFilePosition_stream hstream
      rw [hposition]
      exact intToSize_of_lt hword
    rwa [hnoted]
  rewind := by
    rintro io filePos ⟨⟨offset, -, hstream⟩, -⟩
    have hseek := CFileIO.setFilePosition_stream hstream 0
    rw [hseek]
    exact ⟨rfl, ⟨0, Nat.zero_le _, rfl⟩, Nat.zero_le _⟩

theorem ReadsInside.small (h : ReadsInside content b) : content.length < 2 ^ 63 := by
  obtain ⟨offset, -, hreads⟩ := h
  exact hreads.small

theorem ReadsInside.inFile (h : ReadsInside content b) :
    InFile content b.m_fileIO b.m_lCurrentFilePos := by
  obtain ⟨offset, hoffset, hreads⟩ := h
  exact ⟨⟨offset, hoffset, hreads.stream⟩, hreads.filePos_le⟩

/-- What a call leaves that moves the positions in the file. -/
theorem ReadsInside.moved (h : ReadsInside content b) (hmoves : Moves b after)
    (hinside : InFile content after.m_fileIO after.m_lCurrentFilePos) :
    ReadsInside content after := by
  obtain ⟨offset, -, hreads⟩ := h
  obtain ⟨⟨offset', hoffset', hstream⟩, hpos⟩ := hinside
  rw [hmoves]
  exact ⟨offset', hoffset', { hreads with stream := hstream, filePos_le := hpos }⟩

/-- What a call leaves by whose steps the positions are moved. -/
theorem ReadsInside.kept (h : ReadsInside content b) (hmoves : Moves b after)
    (hkeeps : ∀ P : CFileIO → ℕ → Prop, Kept P →
      P b.m_fileIO b.m_lCurrentFilePos → P after.m_fileIO after.m_lCurrentFilePos) :
    ReadsInside content after :=
  h.moved hmoves (hkeeps _ (kept_inFile h.small) h.inFile)

theorem ReadsInside.setCurrentFrame (h : ReadsInside content b) (frameNum : ℕ) :
    ReadsInside content (b.setCurrentFrame frameNum).2 := by
  obtain ⟨offset, hoffset, hreads⟩ := h
  rw [hreads.setCurrentFrame_eq, hreads.fileSize]
  split_ifs with hbehind
  · exact ⟨offset, hoffset, hreads⟩
  · have hinside := (Nat.lt_of_not_le hbehind).le
    exact ⟨_, hinside, { hreads.streamAt _ with filePos_le := hinside }⟩

end Inside

/-- An object in a session of reads from a file of `F` whole frames. -/
structure InSession (content : List UInt8) (frameBytes F : ℕ) (b : RawBlocks) : Prop where
  reads : ReadsInside content b
  frameSize : b.m_nFrameSize = frameBytes
  whole : content.length = F * frameBytes

section Session

variable {content : List UInt8} {frameBytes F offset : ℕ} {b : RawBlocks}

theorem InSession.framesInFile (h : InSession content frameBytes F b) : b.m_nFramesInFile = F := by
  obtain ⟨offset, -, hreads⟩ := h.reads
  have hsize := Nat.pos_of_ne_zero hreads.frameSize
  rw [hreads.framesInFile, h.whole, h.frameSize,
    Nat.mul_div_cancel _ (Nat.lt_of_lt_of_eq hsize h.frameSize)]

theorem InSession.moved (h : InSession content frameBytes F b) {after : RawBlocks}
    (hmoves : Moves b after) (hreads : ReadsInside content after) :
    InSession content frameBytes F after :=
  ⟨hreads, (congrArg m_nFrameSize hmoves).trans h.frameSize, h.whole⟩

theorem InSession.kept (h : InSession content frameBytes F b) {after : RawBlocks}
    (hmoves : Moves b after) (hkeeps : ∀ P : CFileIO → ℕ → Prop, Kept P →
      P b.m_fileIO b.m_lCurrentFilePos → P after.m_fileIO after.m_lCurrentFilePos) :
    InSession content frameBytes F after :=
  h.moved hmoves (h.reads.kept hmoves hkeeps)

theorem InSession.readBlock (h : InSession content frameBytes F b) {pData : Option (List UInt8)}
    {numFrames : ℕ} {result : BlockResult} (hread : b.readBlock pData numFrames = some result) :
    InSession content frameBytes F result.blocks :=
  h.kept (moves_readBlock hread) fun _ hkept hP ↦ hkept.readBlock hP hread

theorem InSession.setCurrentFrame (h : InSession content frameBytes F b) (frameNum : ℕ) :
    InSession content frameBytes F (b.setCurrentFrame frameNum).2 :=
  h.moved (moves_setCurrentFrame b frameNum) (h.reads.setCurrentFrame frameNum)

/-- The index in the I/O block may be any. -/
theorem InSession.setFrameIdx (h : InSession content frameBytes F b) (index : ℕ) :
    InSession content frameBytes F { b with m_nCurrentFrameIdx := index } := by
  obtain ⟨offset, hoffset, hreads⟩ := h.reads
  exact ⟨⟨offset, hoffset, { hreads with }⟩, h.frameSize, h.whole⟩

/-- What `getNumFrames` leaves. -/
theorem InSession.rewound (h : InSession content frameBytes F b) :
    InSession content frameBytes F
      { b with m_fileIO := (b.m_fileIO.getFileSize.2.setFilePosition 0).2 } := by
  obtain ⟨offset, -, hreads⟩ := h.reads
  have hstream := CFileIO.rewound_stream hreads.stream
  exact ⟨⟨0, Nat.zero_le _, { hreads with stream := hstream }⟩, h.frameSize, h.whole⟩

/-- A session stays one. -/
theorem InSession.calls (h : InSession content frameBytes F b) {call : SeekCall} {reply : Bool}
    {after : RawBlocks} (hcall : frameReader.Calls b call reply after) :
    InSession content frameBytes F after := by
  cases hcall with
  | setLoopingRead value =>
    obtain ⟨offset, hoffset, hreads⟩ := h.reads
    exact ⟨⟨offset, hoffset, { hreads with }⟩, h.frameSize, h.whole⟩
  | setCurrentFrame frameNum => exact h.setCurrentFrame frameNum
  | readBlock pData numFrames hread =>
    obtain ⟨result, hblocks, hresult⟩ := Option.map_eq_some_iff.mp hread
    cases hresult
    exact h.readBlock hblocks

/-- The number behind a frame's number is an `int` or not. -/
theorem toInt_succ_iff {current : ℤ} {frameNum : ℕ}
    (hcurrent : toInt (intToUnsigned current) = frameNum) :
    toInt (intToUnsigned (current + 1)) = frameNum + 1 ↔ frameNum + 1 < 2 ^ 31 := by
  unfold toInt intToUnsigned at *
  split_ifs at * <;> omega

/-- The object behind a successful seek to a position. -/
def soughtTo (b : RawBlocks) (content : List UInt8) (position : ℕ) : RawBlocks :=
  { b.streamAt content position with m_lCurrentFilePos := position }

/-- From a position with a frame's bytes behind it, a read of one frame delivers them. -/
theorem Reads.readBlock_one (h : Reads content offset b) (hmore : b.isEOF = false) {position : ℕ}
    (hinside : position + b.m_nFrameSize ≤ content.length) {target : List UInt8}
    (hroom : b.m_nFrameSize ≤ target.length) :
    (b.soughtTo content position).readBlock (some target) 1 = some ⟨true,
      some ((content.drop position).take b.m_nFrameSize ++ target.drop b.m_nFrameSize),
      { b.soughtTo content (position + b.m_nFrameSize) with
        m_nCurrentFrame := b.m_nCurrentFrame + 1 }⟩ := by
  have hposition : position ≤ content.length := by omega
  have hsought : Reads content position (b.soughtTo content position) :=
    { h.streamAt position with filePos_le := hposition }
  have hmore' : (b.soughtTo content position).isEOF = false := hmore
  have hsize : (b.soughtTo content position).m_nFrameSize = b.m_nFrameSize := rfl
  have hfilePos : (b.soughtTo content position).m_lCurrentFilePos = position := rfl
  have hleft : 1 ≤ (b.soughtTo content position).framesLeftInFile := by
    rw [hsought.framesLeftInFile_eq, hsize, hfilePos,
      Nat.le_div_iff_mul_le (Nat.pos_of_ne_zero h.frameSize)]
    omega
  have hone : (b.soughtTo content position).m_nFrameSize * 1 = b.m_nFrameSize := Nat.mul_one _
  rw [hsought.readBlock_complete le_rfl hmore' hleft (by rwa [hone]), hone, if_pos hroom]
  rfl

/-- Where `isEOF` refuses no read, what is delivered behind a seek is what the file has there. -/
theorem Reads.delivers_iff (h : Reads content offset b) {position : ℕ}
    (hinside : position + b.m_nFrameSize ≤ content.length) {bytes : List UInt8}
    (hlength : bytes.length = b.m_nFrameSize) (current : ℤ) :
    (∀ target : List UInt8, b.m_nFrameSize ≤ target.length → ∃ after,
      frameReader.readBlock (b.soughtTo content position) (some target) 1 =
        some (true, some (bytes ++ target.drop b.m_nFrameSize), after) ∧
      frameReader.getCurrentFrame after = current) ↔
      b.isEOF = false ∧ toInt (intToUnsigned (b.m_nCurrentFrame + 1)) = current ∧
        (content.drop position).take b.m_nFrameSize = bytes := by
  have hread (hmore : b.isEOF = false) {target : List UInt8}
      (hroom : b.m_nFrameSize ≤ target.length) :
      frameReader.readBlock (b.soughtTo content position) (some target) 1 = some (true,
        some ((content.drop position).take b.m_nFrameSize ++ target.drop b.m_nFrameSize),
        { b.soughtTo content (position + b.m_nFrameSize) with
          m_nCurrentFrame := b.m_nCurrentFrame + 1 }) := by
    show Option.map _ _ = _
    rw [h.readBlock_one hmore hinside hroom]
    rfl
  constructor
  · intro hall
    obtain ⟨target, htarget⟩ : ∃ target : List UInt8, target.length = b.m_nFrameSize :=
      ⟨List.replicate b.m_nFrameSize 0, List.length_replicate⟩
    obtain ⟨after, hafter, hcurrent⟩ := hall target htarget.ge
    cases hmore : b.isEOF with
    | true =>
      have hrefused := readBlock_eof (b := b.soughtTo content position) hmore (some target) 1
      obtain ⟨result, hresult, hanswer⟩ := Option.map_eq_some_iff.mp hafter
      obtain rfl := Option.some.inj (hrefused.symm.trans hresult)
      exact Bool.noConfusion (Prod.mk.inj hanswer).1
    | false =>
      rw [hread hmore htarget.ge] at hafter
      obtain ⟨hstored, rfl⟩ := Prod.mk.inj (Prod.mk.inj (Option.some.inj hafter)).2
      have hlengths : ((content.drop position).take b.m_nFrameSize).length = bytes.length := by
        rw [hlength, List.length_take, List.length_drop]
        omega
      exact ⟨rfl, hcurrent, List.append_inj_left (Option.some.inj hstored) hlengths⟩
  · rintro ⟨hmore, hcurrent, rfl⟩ target hroom
    exact ⟨_, hread hmore hroom, hcurrent⟩

/-- A seek to a frame that the file has. -/
theorem InSession.seeksExactly_of_lt (h : InSession content frameBytes F b) {frameNum : ℕ}
    (hlt : frameNum < F) : frameReader.SeeksExactly content frameBytes F b frameNum ↔
      b.SeekMeets content frameNum := by
  have hframes := h.framesInFile
  have hwhole := h.whole
  obtain ⟨⟨offset, -, hreads⟩, rfl, -⟩ := h
  obtain ⟨position, hposition⟩ :
      ∃ position, position = toUnsigned (frameNum * b.m_nFrameSize) := ⟨_, rfl⟩
  have hle : position ≤ frameNum * b.m_nFrameSize := hposition ▸ Nat.mod_le ..
  have hframe : (frameNum + 1) * b.m_nFrameSize ≤ content.length := by
    rw [hwhole]
    exact Nat.mul_le_mul_right _ hlt
  have hinside : position + b.m_nFrameSize ≤ content.length := by
    rw [Nat.add_mul] at hframe
    omega
  have hsize := Nat.pos_of_ne_zero hreads.frameSize
  have hseek : frameReader.setCurrentFrame b frameNum = (true, b.soughtTo content position) := by
    show b.setCurrentFrame frameNum = _
    rw [hreads.setCurrentFrame_eq, hreads.fileSize, ← hposition, if_neg (by omega)]
    rfl
  have hlength : (framesFrom b.m_nFrameSize content frameNum 1).length = b.m_nFrameSize :=
    (length_framesFrom hframe).trans (Nat.one_mul _)
  rw [FrameReader.SeeksExactly, hseek, SeekMeets, hframes, if_pos hlt, ← hposition]
  dsimp only
  rw [iff_true_right hlt, and_iff_right rfl, imp_iff_right rfl,
    hreads.delivers_iff hinside hlength]
  exact and_congr_right fun hcurrent ↦ and_congr_right fun _ ↦ and_congr_left fun _ ↦
    toInt_succ_iff hcurrent

/-- In a session a seek is exact exactly when its condition is met. -/
theorem InSession.seeksExactly_iff (h : InSession content frameBytes F b) (frameNum : ℕ) :
    frameReader.SeeksExactly content frameBytes F b frameNum ↔ b.SeekMeets content frameNum := by
  by_cases hlt : frameNum < F
  · exact h.seeksExactly_of_lt hlt
  have hframes := h.framesInFile
  obtain ⟨offset, -, hreads⟩ := h.reads
  have hseek : (frameReader.setCurrentFrame b frameNum).1 = true ↔
      ¬content.length ≤ toUnsigned (frameNum * b.m_nFrameSize) := by
    show (b.setCurrentFrame frameNum).1 = true ↔ _
    rw [hreads.setCurrentFrame_eq, hreads.fileSize]
    split_ifs with hbehind
    · exact iff_of_false not_false (not_not.mpr hbehind)
    · exact iff_of_true rfl hbehind
  rw [FrameReader.SeeksExactly, SeekMeets, hframes, if_neg hlt, iff_false_right hlt, hseek, not_not]
  exact and_iff_left_of_imp fun hbehind hinside ↦ absurd hbehind hinside

/-- What a file that was opened is read by. -/
theorem OpensAs.inSession {b b' : RawBlocks} (hopen : b.OpensAs b')
    (hcontent : b.m_fileIO.file = some content) (hsmall : content.length < 2 ^ 63)
    (hwhole : content.length = F * b.m_nFrameSize) : InSession content b.m_nFrameSize F b' := by
  obtain ⟨content', hcontent', hsize, rfl⟩ := hopen
  obtain rfl := Option.some.inj (hcontent'.symm.trans hcontent)
  exact ⟨⟨_, le_rfl, reads_input hsize hsmall⟩, rfl, hwhole⟩

/-- Assumes: the other functions of a class keep a session, where the object is as the class has it
(`Standing`), and all functions leave it so. In every run of the class a seek is exact exactly when
its condition is met. -/
theorem InSession.run_iff {σ κ : Type} {r : FrameReader σ} {other : σ → κ → Option (Bool × σ)}
    {blocks : σ → RawBlocks} (hrefines : r.Refines blocks frameReader) (Standing : σ → Prop)
    (hshared : ∀ {before call reply after}, Standing before → r.Calls before call reply after →
      Standing after)
    (hother : ∀ {before call reply after}, Standing before →
      InSession content frameBytes F (blocks before) → other before call = some (reply, after) →
        Standing after ∧ InSession content frameBytes F (blocks after))
    {start now : σ} {trace : List (Call σ (SeekCall ⊕ κ) Bool)}
    (hrun : Run (r.Session other) start trace now) (hstanding : Standing start)
    (hstart : InSession content frameBytes F (blocks start)) (frameNum : ℕ) :
    r.SeeksExactly content frameBytes F now frameNum ↔
      (blocks now).SeekMeets content frameNum := by
  have hnow : Standing now ∧ InSession content frameBytes F (blocks now) := by
    refine hrun.invariant (fun s ↦ Standing s ∧ InSession content frameBytes F (blocks s))
      (fun _ ↦ True) ?_ (fun _ _ ↦ trivial) ⟨hstanding, hstart⟩
    rintro before label reply after - ⟨hbefore, hsession⟩ hstep
    cases hstep with
    | shared hcall => exact ⟨hshared hbefore hcall, hsession.calls (hrefines.calls hcall)⟩
    | other hcall => exact hother hbefore hsession hcall
  rw [hrefines.seeksExactly_iff, hnow.2.seeksExactly_iff]

end Session

end RawBlocks

theorem CRawAudioFileIO.refines_blocks :
    CRawAudioFileIO.frameReader.Refines blocks RawBlocks.frameReader where
  setLoopingRead := fun _ _ ↦ rfl
  setCurrentFrame := fun s frameNum ↦ Prod.ext rfl (s.blocks_setCurrentFrame frameNum).symm
  getCurrentFrame := fun _ ↦ rfl
  readBlock := fun s pData numFrames ↦ by
    show Option.map _ _ = Option.map _ (Option.map _ _)
    rw [s.readBlock_eq]
    cases hread : s.blocks.readBlock pData numFrames with
    | none => rfl
    | some result =>
      have hblocks := blocks_withBlocks (RawBlocks.moves_readBlock hread)
      simp only [Option.map_some, ofBlocks, hblocks]

theorem CRawVideoFileIO.refines_blocks :
    CRawVideoFileIO.frameReader.Refines blocks RawBlocks.frameReader where
  setLoopingRead := fun _ _ ↦ rfl
  setCurrentFrame := fun s frameNum ↦ Prod.ext rfl (s.blocks_setCurrentFrame frameNum).symm
  getCurrentFrame := fun _ ↦ rfl
  readBlock := fun s pData numFrames ↦ by
    show Option.map _ _ = Option.map _ (Option.map _ _)
    rw [readVideoBlock]
    cases hread : s.blocks.readBlock pData numFrames with
    | none => rfl
    | some result =>
      have hblocks := blocks_withBlocks (RawBlocks.moves_readBlock hread)
      simp only [Option.map_some, hblocks]

end RdbLibs.FileIO
