import RdbLibs.FileIO.RawInput
import RdbLibs.Foundations.Runs

/-!
# The end of a raw file that is read

A caller that reads a file to its end stops at the first call that fails. `isEOF` does not tell it
when: it looks at `m_nCurrentFrameIdx`, which `readBlock` never changes. Once the offset is at the
end of the file and `m_lCurrentFilePos` with it, nothing is left, the whole block counts as one that
has to be padded, and each call is successful.
-/

set_option autoImplicit false
set_option relaxedAutoImplicit false

namespace RdbLibs.FileIO

open MachineWord Runs

/-- A call of `readBlock` or `readVideoBlock`, with its arguments. -/
structure BlockCall where
  pData : Option (List UInt8)
  numFrames : ℕ

section Monitor

variable {σ : Type}

/-- The calls of a function that reads blocks, for a positive number of frames, as far as they have
a result. -/
inductive BlockReads (answer : σ → BlockCall → Option (Bool × σ)) : σ → BlockCall → Bool → σ → Prop
  | answered {before after : σ} {call : BlockCall} {status : Bool} (hpos : 1 ≤ call.numFrames)
      (hword : call.numFrames < 2 ^ 32) (hanswer : answer before call = some (status, after)) :
      BlockReads answer before call status after

/-- Adds the frames that a successful call has read of a file of `F` frames. -/
def addDelivered (F total : ℕ) (call : Call σ BlockCall Bool) : ℕ :=
  if call.reply then min F (total + call.label.numFrames) else total

/-- Once all frames have been delivered, a call fails. -/
def StopsAtEnd (F total : ℕ) (call : Call σ BlockCall Bool) : Prop :=
  F ≤ total → call.reply = false

/-- The calls of a trace deliver a file of `F` frames: once all frames have been delivered, every
further call fails, and so no more than `F` calls are successful. -/
def DeliversFrames (F : ℕ) (trace : List (Call σ BlockCall Bool)) : Prop :=
  Obeys (addDelivered F) (StopsAtEnd F) 0 trace ∧ trace.countP (·.reply) ≤ F

/-- Every successful call delivers a frame. -/
theorem countP_le_of_obeys {F : ℕ} {trace : List (Call σ BlockCall Bool)} :
    ∀ total, total ≤ F → (∀ call ∈ trace, 1 ≤ call.label.numFrames) →
      Obeys (addDelivered F) (StopsAtEnd F) total trace →
        total + trace.countP (·.reply) ≤ F := by
  induction trace with
  | nil => intro total htotal _ _; exact htotal
  | cons call rest ih =>
    intro total htotal hcounts hobeys
    rw [List.forall_mem_cons] at hcounts
    obtain ⟨hstops, hrest⟩ := hobeys
    rw [List.countP_cons]
    cases hreply : call.reply with
    | false =>
      have hsame : addDelivered F total call = total := by simp [addDelivered, hreply]
      rw [hsame] at hrest
      simpa using ih total htotal hcounts.2 hrest
    | true =>
      have hmore : total < F := by
        by_contra hle
        exact Bool.noConfusion (hreply.symm.trans (hstops (not_lt.mp hle)))
      have hnext : addDelivered F total call = min F (total + call.label.numFrames) := by
        simp [addDelivered, hreply]
      have hbound := ih _ (hnext.trans_le (Nat.min_le_left ..)) hcounts.2 hrest
      rw [hnext] at hbound
      have hone := hcounts.1
      rw [if_pos rfl]
      omega

end Monitor

namespace RawBlocks

/-- The answer of a call, and what becomes of the object. -/
def answer (b : RawBlocks) (call : BlockCall) : Option (Bool × RawBlocks) :=
  (b.readBlock call.pData call.numFrames).map fun result ↦ (result.status, result.blocks)

/-- A call with memory for its frames finds less than a frame between `m_lCurrentFilePos` and the
end of the file, and the number of bits is one for which it pads. -/
def AtEnd (b : RawBlocks) (call : BlockCall) : Prop :=
  call.pData ≠ none ∧ 1 ≤ b.m_nFramesInFile ∧ b.PadsBits ∧
    b.m_lFileSize - b.m_lCurrentFilePos < b.m_nFrameSize

/-- An object that does not read in a loop has delivered `total` frames of a file. Its positions are
at the next frame, or less than a frame is behind the offset. -/
structure Delivering (content : List UInt8) (F total : ℕ) (b : RawBlocks) : Prop where
  looping : b.m_bUseLoopingRead = false
  frameIdx : b.m_nCurrentFrameIdx = 0
  framesInFile : b.m_nFramesInFile = F
  total_le : total ≤ F
  position : ∃ offset, Reads content offset b ∧
    (offset = total * b.m_nFrameSize ∧ b.m_lCurrentFilePos = offset ∨
      offset ≤ content.length ∧ content.length < offset + b.m_nFrameSize ∧
        (total = F ∨ ¬b.PadsBits))

variable {content : List UInt8} {F total : ℕ} {b : RawBlocks}

theorem Delivering.isEOF_iff (h : Delivering content F total b) : b.isEOF = true ↔ F = 0 := by
  rw [isEOF, decide_eq_true_iff, h.framesInFile, h.frameIdx, Nat.le_zero]

section Synced

variable (h : Delivering content F total b) (hreads : Reads content (total * b.m_nFrameSize) b)
  (hsynced : b.m_lCurrentFilePos = total * b.m_nFrameSize) (hmore : b.isEOF = false)
  {target : List UInt8} {numFrames : ℕ} {result : BlockResult} (hpos : 1 ≤ numFrames)
  (hread : b.readBlock (some target) numFrames = some result)
include h hreads hsynced hmore hpos hread

/-- A call for frames that are left delivers them. -/
theorem Delivering.next (hfits : numFrames ≤ F - total) :
    result.status = true ∧ Delivering content F (total + numFrames) result.blocks := by
  have hleft : b.framesLeftInFile = F - total :=
    (hreads.framesLeft_of_filePos hsynced).trans (by rw [h.framesInFile])
  rw [← hleft] at hfits
  have hinside := hreads.mul_le_of_framesLeft hfits
  have hend : total * b.m_nFrameSize + b.m_nFrameSize * numFrames ≤ content.length := by
    have hle := hreads.filePos_le
    omega
  rw [hreads.readBlock_complete hpos hmore hfits hend, Option.ite_none_right_eq_some] at hread
  obtain rfl := Option.some.inj hread.2
  have hoffset : total * b.m_nFrameSize + b.m_nFrameSize * numFrames =
      (total + numFrames) * b.m_nFrameSize := by ring
  refine ⟨rfl, h.looping, h.frameIdx, h.framesInFile, by omega, _, ?_, .inl ⟨hoffset, rfl⟩⟩
  exact { hreads.streamAt _ with filePos_le := hend }

/-- A call for more frames than are left reads what is left, and is successful if it pads. -/
theorem Delivering.last (hless : F - total < numFrames) (hword : numFrames < 2 ^ 32)
    (hsome : total < F) : (result.status = true ↔ b.PadsBits) ∧
      Delivering content F (if result.status then F else total) result.blocks := by
  have hleft : b.framesLeftInFile = F - total :=
    (hreads.framesLeft_of_filePos hsynced).trans (by rw [h.framesInFile])
  have hinside := hreads.mul_le_of_framesLeft (le_refl b.framesLeftInFile)
  have hend : total * b.m_nFrameSize + b.m_nFrameSize * b.framesLeftInFile ≤ content.length := by
    have hle := hreads.filePos_le
    omega
  rw [hreads.readBlock_last hpos hmore (hleft.trans_lt hless) hword (by omega) hend,
    Option.ite_none_right_eq_some] at hread
  have hlooping : (b.streamAt content (total * b.m_nFrameSize +
      b.m_nFrameSize * b.framesLeftInFile)).m_bUseLoopingRead = false := h.looping
  obtain ⟨hstatus, hblocks⟩ := readBeyond_some hlooping hread.2
  have hspent : content.length <
      total * b.m_nFrameSize + b.m_nFrameSize * b.framesLeftInFile + b.m_nFrameSize := by
    have hframes := Nat.lt_mul_div_succ content.length (Nat.pos_of_ne_zero hreads.frameSize)
    rw [← hreads.framesInFile, h.framesInFile] at hframes
    have hsum : b.m_nFrameSize * (F + 1) =
        total * b.m_nFrameSize + b.m_nFrameSize * (F - total) + b.m_nFrameSize := by
      obtain ⟨rest, rfl⟩ := Nat.exists_eq_add_of_le hsome.le
      rw [Nat.add_sub_cancel_left]
      ring
    rw [hleft]
    omega
  refine ⟨hstatus, ?_⟩
  rw [hblocks]
  cases hanswer : result.status with
  | true =>
    exact ⟨h.looping, h.frameIdx, h.framesInFile, le_rfl, _, hreads.streamAt _,
      .inr ⟨hend, hspent, .inl rfl⟩⟩
  | false =>
    have hbits : ¬b.PadsBits := fun hpads ↦
      Bool.noConfusion (hanswer.symm.trans (hstatus.mpr hpads))
    exact ⟨h.looping, h.frameIdx, h.framesInFile, h.total_le, _, hreads.streamAt _,
      .inr ⟨hend, hspent, .inr hbits⟩⟩

end Synced

section Spent

variable {offset : ℕ} (h : Delivering content F total b) (hreads : Reads content offset b)
  (hend : offset ≤ content.length) (hspent : content.length < offset + b.m_nFrameSize)
  (hdone : total = F ∨ ¬b.PadsBits) (hmore : b.isEOF = false) {target : List UInt8}
  {numFrames : ℕ} {result : BlockResult} (hpos : 1 ≤ numFrames) (hword : numFrames < 2 ^ 32)
  (hread : b.readBlock (some target) numFrames = some result)
include h hreads hend hspent hdone hmore hpos hword hread

/-- Less than a frame is behind the offset, and what `m_lCurrentFilePos` says is left is not there.
-/
theorem Delivering.spent (hleft : 0 < b.framesLeftInFile) :
    result.status = false ∧ Delivering content F total result.blocks := by
  have hnone {count length : ℕ} (hcount : 0 < count)
      (hlength : length = min (b.m_nFrameSize * count) (content.length - offset)) :
      length / b.m_nFrameSize ≠ count := by
    have hzero : length / b.m_nFrameSize = 0 := Nat.div_eq_of_lt (by omega)
    omega
  rcases lt_or_ge b.framesLeftInFile numFrames with hless | hfits
  · obtain ⟨length, hlength⟩ : ∃ length, length =
      min (b.m_nFrameSize * b.framesLeftInFile) (content.length - offset) := ⟨_, rfl⟩
    rw [hreads.readBlock_exceeds hpos hmore hless hword hleft hlength,
      if_neg (hnone hleft hlength), Option.ite_none_right_eq_some] at hread
    obtain rfl := Option.some.inj hread.2
    refine ⟨rfl, h.looping, h.frameIdx, h.framesInFile, h.total_le, _, hreads.streamAt _,
      .inr ⟨by omega, ?_, hdone⟩⟩
    show content.length < offset + length + b.m_nFrameSize
    omega
  · obtain ⟨length, hlength⟩ : ∃ length, length =
      min (b.m_nFrameSize * numFrames) (content.length - offset) := ⟨_, rfl⟩
    have hinside : offset + length ≤ content.length := by omega
    rw [hreads.readBlock_fits hpos hmore hfits hlength,
      beq_eq_false_iff_ne.mpr (hnone hpos hlength), (hreads.streamAt _).finishRead_eq hinside,
      Option.ite_none_right_eq_some] at hread
    obtain rfl := Option.some.inj hread.2
    refine ⟨rfl, h.looping, h.frameIdx, h.framesInFile, h.total_le, offset + length, ?_,
      .inr ⟨hinside, ?_, hdone⟩⟩
    · exact { hreads.streamAt (offset + length) with filePos_le := hinside }
    · show content.length < offset + length + b.m_nFrameSize
      omega

end Spent

/-- Where nothing is counted as left, a call moves nothing, and is successful if it pads. -/
theorem Delivering.atEnd (h : Delivering content F total b) {offset : ℕ}
    (hreads : Reads content offset b) (hmore : b.isEOF = false) {target : List UInt8}
    {numFrames : ℕ} {result : BlockResult} (hpos : 1 ≤ numFrames)
    (hread : b.readBlock (some target) numFrames = some result) (hleft : b.framesLeftInFile = 0) :
    (result.status = true ↔ b.PadsBits) ∧ result.blocks = b := by
  rw [hreads.readBlock_spent hpos hmore hleft] at hread
  exact readBeyond_some h.looping hread

/-- A call that is refused delivers nothing. -/
theorem Delivering.refused (h : Delivering content F total b) {call : BlockCall}
    (hrefused : call.pData = none ∨ b.isEOF = true) {result : BlockResult}
    (hread : b.readBlock call.pData call.numFrames = some result) :
    result.status = false ∧ result.blocks = b ∧ ¬b.AtEnd call := by
  rcases hrefused with hnull | heof
  · rw [hnull] at hread
    obtain rfl := Option.some.inj hread
    exact ⟨rfl, rfl, fun hend ↦ hend.1 hnull⟩
  · rw [readBlock_eof heof] at hread
    obtain rfl := Option.some.inj hread
    refine ⟨rfl, rfl, fun hend ↦ ?_⟩
    have hsome := hend.2.1
    rw [h.framesInFile, h.isEOF_iff.mp heof] at hsome
    exact absurd hsome (by decide)

/-- A call stops as it should exactly when it is not at the end, and then the count goes on. -/
theorem Delivering.step (h : Delivering content F total b) {call : BlockCall} {reply : Bool}
    {after : RawBlocks} (hstep : BlockReads answer b call reply after) :
    ((F ≤ total → reply = false) ↔ ¬b.AtEnd call) ∧ (¬b.AtEnd call →
      Delivering content F (if reply then min F (total + call.numFrames) else total) after) := by
  obtain ⟨hpos, hword, hanswer⟩ := hstep
  rw [answer, Option.map_eq_some_iff] at hanswer
  obtain ⟨result, hread, hresult⟩ := hanswer
  obtain ⟨rfl, rfl⟩ := Prod.mk.inj hresult
  by_cases hrefused : call.pData = none ∨ b.isEOF = true
  · obtain ⟨hstatus, hblocks, hend⟩ := h.refused hrefused hread
    rw [hstatus, hblocks]
    exact ⟨iff_of_true (fun _ ↦ rfl) hend, fun _ ↦ h⟩
  rw [not_or, Bool.not_eq_true] at hrefused
  obtain ⟨hsome, hmore⟩ := hrefused
  obtain ⟨pData, numFrames⟩ := call
  obtain ⟨target, rfl⟩ := Option.ne_none_iff_exists'.mp hsome
  obtain ⟨offset, hreads, hposition⟩ := h.position
  have hF : 1 ≤ F := Nat.one_le_iff_ne_zero.mpr fun hzero ↦
    Bool.noConfusion (hmore.symm.trans (h.isEOF_iff.mpr hzero))
  have hend : b.AtEnd ⟨some target, numFrames⟩ ↔ b.PadsBits ∧ b.framesLeftInFile = 0 := by
    rw [AtEnd, h.framesInFile, hreads.framesLeft_eq_zero_iff, hreads.fileSize]
    simp [hF]
  have htotal := h.total_le
  rw [hend]
  rcases Nat.eq_zero_or_pos b.framesLeftInFile with hnone | hleft
  · obtain ⟨hstatus, hblocks⟩ := h.atEnd hreads hmore hpos hread hnone
    have hall (hbits : b.PadsBits) : F ≤ total := by
      rcases hposition with ⟨rfl, hsynced⟩ | ⟨-, -, hdone⟩
      · have hleft := hreads.framesLeft_of_filePos hsynced
        rw [hnone, h.framesInFile] at hleft
        omega
      · exact (hdone.resolve_right (not_not.mpr hbits)).ge
    rw [and_iff_left hnone, hblocks, ← hstatus, Bool.not_eq_true]
    refine ⟨⟨fun hstops ↦ ?_, fun hfails _ ↦ hfails⟩, fun hfails ↦ by rwa [hfails]⟩
    by_contra hanswer
    rw [Bool.not_eq_false] at hanswer
    exact Bool.noConfusion (hanswer.symm.trans (hstops (hall (hstatus.mp hanswer))))
  · have hinside : ¬(b.PadsBits ∧ b.framesLeftInFile = 0) := fun hend ↦ hleft.ne' hend.2
    rw [iff_true_right hinside, imp_iff_right hinside]
    rcases hposition with ⟨rfl, hsynced⟩ | ⟨hoffset, hspent, hdone⟩
    · have hrest := hreads.framesLeft_of_filePos hsynced
      rw [h.framesInFile] at hrest
      refine ⟨fun hle ↦ by omega, ?_⟩
      dsimp only
      rcases lt_or_ge (F - total) numFrames with hless | hfits
      · obtain ⟨-, hafter⟩ := h.last hreads hsynced hmore hpos hread hless hword (by omega)
        rwa [Nat.min_eq_left (by omega)]
      · obtain ⟨hstatus, hafter⟩ := h.next hreads hsynced hmore hpos hread hfits
        rwa [hstatus, if_pos rfl, Nat.min_eq_right (by omega)]
    · obtain ⟨hstatus, hafter⟩ := h.spent hreads hoffset hspent hdone hmore hpos hword hread hleft
      rw [hstatus]
      exact ⟨fun _ ↦ rfl, hafter⟩

/-- An object whose positions are at the first frame has delivered nothing. -/
theorem Positioned.delivering (h : Positioned content 0 b) (hlooping : b.m_bUseLoopingRead = false)
    (hindex : b.m_nCurrentFrameIdx = 0) : Delivering content b.m_nFramesInFile 0 b :=
  ⟨hlooping, hindex, rfl, Nat.zero_le _, _, h.toReads, .inl ⟨rfl, h.filePos⟩⟩

/-- The calls of a run deliver the frames of a file exactly when none of them is at the end. The run
is one of objects that have blocks, and their calls are those of the blocks. -/
theorem deliversFrames_iff {σ : Type} {step : σ → BlockCall → Bool → σ → Prop}
    (blocks : σ → RawBlocks) (hblocks : ∀ before call reply after, step before call reply after →
      BlockReads answer (blocks before) call reply (blocks after))
    {start final : σ} {trace : List (Call σ BlockCall Bool)} (hrun : Run step start trace final)
    (hstart : Delivering content F 0 (blocks start)) :
    DeliversFrames F trace ↔ ∀ call ∈ trace, ¬(blocks call.before).AtEnd call.label := by
  have hcounts : ∀ call ∈ trace, 1 ≤ call.label.numFrames :=
    hrun.forall_calls (fun _ ↦ True) (fun _ _ _ _ _ _ ↦ trivial)
      (fun _ _ _ _ _ hstep ↦ by cases hblocks _ _ _ _ hstep; assumption) trivial
  have hobeys : Obeys (addDelivered F) (StopsAtEnd F) 0 trace ↔
      ∀ call ∈ trace, ¬(blocks call.before).AtEnd call.label := hrun.obeys_iff_meets
    (fun state total ↦ Delivering content F total (blocks state))
    (fun _ _ _ _ _ h hstep ↦ (h.step (hblocks _ _ _ _ hstep)).1)
    (fun _ _ _ _ _ h hstep hmeets ↦ (h.step (hblocks _ _ _ _ hstep)).2 hmeets) 0 hstart
  rw [← hobeys]
  refine and_iff_left_of_imp fun hall ↦ ?_
  have hbound := countP_le_of_obeys 0 (Nat.zero_le F) hcounts hall
  rwa [Nat.zero_add] at hbound

end RawBlocks

/-- The answer of `CRawAudioFileIO::readBlock`, and what becomes of the object. -/
def CRawAudioFileIO.answer (s : CRawAudioFileIO) (call : BlockCall) :
    Option (Bool × CRawAudioFileIO) :=
  (s.readBlock call.pData call.numFrames).map fun result ↦ (result.status, result.s)

/-- The answer of `CRawVideoFileIO::readVideoBlock`, and what becomes of the object. -/
def CRawVideoFileIO.answer (s : CRawVideoFileIO) (call : BlockCall) :
    Option (Bool × CRawVideoFileIO) :=
  (s.readVideoBlock call.pData call.numFrames).map fun result ↦ (result.status, result.s)

theorem CRawAudioFileIO.blockReads_blocks {before after : CRawAudioFileIO} {call : BlockCall}
    {reply : Bool} (hstep : BlockReads answer before call reply after) :
    BlockReads RawBlocks.answer before.blocks call reply after.blocks := by
  obtain ⟨hpos, hword, hanswer⟩ := hstep
  rw [answer, Option.map_eq_some_iff] at hanswer
  obtain ⟨result, hread, hresult⟩ := hanswer
  obtain ⟨rfl, rfl⟩ := Prod.mk.inj hresult
  exact ⟨hpos, hword, by rw [RawBlocks.answer, readBlock_blocks hread]; rfl⟩

theorem CRawVideoFileIO.blockReads_blocks {before after : CRawVideoFileIO} {call : BlockCall}
    {reply : Bool} (hstep : BlockReads answer before call reply after) :
    BlockReads RawBlocks.answer before.blocks call reply after.blocks := by
  obtain ⟨hpos, hword, hanswer⟩ := hstep
  rw [answer, Option.map_eq_some_iff] at hanswer
  obtain ⟨result, hread, hresult⟩ := hanswer
  obtain ⟨rfl, rfl⟩ := Prod.mk.inj hresult
  exact ⟨hpos, hword, by rw [RawBlocks.answer, readVideoBlock_blocks hread]; rfl⟩

/-- An object that opened its file has delivered nothing of it, where it is moved to its first
frame. -/
theorem RawBlocks.OpensAs.delivering {b b' : RawBlocks} {content : List UInt8}
    (hopen : b.OpensAs b') (hcontent : b.m_fileIO.file = some content)
    (hsmall : content.length < 2 ^ 63) (hlooping : b'.m_bUseLoopingRead = false) :
    RawBlocks.Delivering content (content.length / b.m_nFrameSize) 0 (b'.setCurrentFrame 0).2 := by
  obtain ⟨content', hcontent', hsize, rfl⟩ := hopen
  obtain rfl := Option.some.inj (hcontent'.symm.trans hcontent)
  have hstart := RawBlocks.positioned_first hsize hsmall
  have hmoves := RawBlocks.moves_setCurrentFrame (b.input content') 0
  have hframes : ((b.input content').setCurrentFrame 0).2.m_nFramesInFile =
      content'.length / b.m_nFrameSize := by
    rw [hmoves]
    rfl
  rw [← hframes]
  apply hstart.delivering
  · rw [hmoves]
    exact hlooping
  · rw [hmoves]
    rfl

/-- In a run of reads from the first frame of a raw file on, the frames of the file are delivered
once, and the calls behind them fail, exactly when no call is at the end of a file whose samples or
pixels have 16 or 32 bits. Assumes: the size of the file is a `long`. -/
theorem reads_end_iff (content : List UInt8) (hsmall : content.length < 2 ^ 63) :
    (∀ (s opened final : CRawAudioFileIO) (sFilePath : List Char) (o : OpenOutcome)
        (trace : List (Call CRawAudioFileIO BlockCall Bool)), s.onDisk = some content →
      s.openFile .input sFilePath o = some (true, opened) → opened.m_bUseLoopingRead = false →
      Run (BlockReads CRawAudioFileIO.answer) (opened.setCurrentFrame 0).2 trace final →
        (DeliversFrames (content.length / s.m_nFrameSize) trace ↔
          ∀ call ∈ trace, ¬call.before.blocks.AtEnd call.label)) ∧
    ∀ (s opened final : CRawVideoFileIO) (sFilePath : List Char) (o : OpenOutcome)
        (trace : List (Call CRawVideoFileIO BlockCall Bool)), s.onDisk = some content →
      s.openFile .input sFilePath o = some (true, opened) → opened.m_bUseLoopingRead = false →
      Run (BlockReads CRawVideoFileIO.answer) (opened.setCurrentFrame 0).2 trace final →
        (DeliversFrames (content.length / s.m_nFrameSize) trace ↔
          ∀ call ∈ trace, ¬call.before.blocks.AtEnd call.label) := by
  constructor
  · intro s opened final sFilePath o trace hcontent hopen hlooping hrun
    obtain ⟨-, hopened⟩ := CRawAudioFileIO.openFile_blocks hopen
    have hstart := hopened.delivering hcontent hsmall hlooping
    rw [← CRawAudioFileIO.blocks_setCurrentFrame] at hstart
    exact RawBlocks.deliversFrames_iff CRawAudioFileIO.blocks
      (fun _ _ _ _ hstep ↦ CRawAudioFileIO.blockReads_blocks hstep) hrun hstart
  · intro s opened final sFilePath o trace hcontent hopen hlooping hrun
    obtain ⟨bits, hopened⟩ := CRawVideoFileIO.openFile_blocks hopen
    have hstart := hopened.delivering hcontent hsmall hlooping
    rw [← CRawVideoFileIO.blocks_setCurrentFrame] at hstart
    exact RawBlocks.deliversFrames_iff CRawVideoFileIO.blocks
      (fun _ _ _ _ hstep ↦ CRawVideoFileIO.blockReads_blocks hstep) hrun hstart

/-- What becomes of an object by a call that has a result. -/
def afterCall {σ : Type} (answer : σ → BlockCall → Option (Bool × σ)) (s : σ) (call : BlockCall) :
    σ := (answer s call).elim s Prod.snd

/-- A run of two calls. -/
theorem run_pair {σ : Type} (answer : σ → BlockCall → Option (Bool × σ)) (start : σ)
    (first second : BlockCall) {status status' : Bool}
    (hfirst : 1 ≤ first.numFrames ∧ first.numFrames < 2 ^ 32)
    (hsecond : 1 ≤ second.numFrames ∧ second.numFrames < 2 ^ 32)
    (hanswer : answer start first = some (status, afterCall answer start first))
    (hanswer' : answer (afterCall answer start first) second =
      some (status', afterCall answer (afterCall answer start first) second)) :
    Run (BlockReads answer) start
      [⟨start, first, status⟩, ⟨afterCall answer start first, second, status'⟩]
      (afterCall answer (afterCall answer start first) second) :=
  .cons (.answered hfirst.1 hfirst.2 hanswer)
    (.cons (.answered hsecond.1 hsecond.2 hanswer') (.nil _))

/-- An object for frames of one pixel, whose file has the given content. -/
def singlePixels (bits : ℕ) (content : List UInt8) : CRawVideoFileIO := .new 1 1 bits (some content)

/-- It has opened the file. -/
def pixelReader (bits : ℕ) (content : List UInt8) : CRawVideoFileIO :=
  ((singlePixels bits content).openFile .input ['v'] ⟨true, true, true⟩).elim
    (singlePixels bits content) Prod.snd

/-- Two bytes are read at once, and the next call fails. -/
theorem reads_end_iff_bytes :
    (∃ trace final, trace.length = 2 ∧
      Run (BlockReads CRawAudioFileIO.answer) ((monoReader 8 [1, 2]).setCurrentFrame 0).2 trace
        final ∧ DeliversFrames 2 trace) ∧
    ∃ trace final, trace.length = 2 ∧
      Run (BlockReads CRawVideoFileIO.answer) ((pixelReader 8 [1, 2]).setCurrentFrame 0).2 trace
        final ∧ DeliversFrames 2 trace := by
  have haudio := run_pair CRawAudioFileIO.answer ((monoReader 8 [1, 2]).setCurrentFrame 0).2
    ⟨some [0, 0], 2⟩ ⟨some [0, 0], 1⟩ (by decide) (by decide) rfl rfl
  have hvideo := run_pair CRawVideoFileIO.answer ((pixelReader 8 [1, 2]).setCurrentFrame 0).2
    ⟨some [0, 0], 2⟩ ⟨some [0, 0], 1⟩ (by decide) (by decide) rfl rfl
  refine ⟨⟨_, _, rfl, haudio, ?_⟩, ⟨_, _, rfl, hvideo, ?_⟩⟩
  · refine ((reads_end_iff [1, 2] (by decide)).1 (monoSamples 8 [1, 2]) (monoReader 8 [1, 2]) _
      ['a'] ⟨true, true, true⟩ _ rfl rfl rfl haudio).mpr ?_
    refine List.forall_mem_cons.mpr ⟨fun hend ↦ ?_, List.forall_mem_singleton.mpr fun hend ↦ ?_⟩
    · exact absurd hend.2.2.1 (by decide)
    · exact absurd hend.2.2.1 (by decide)
  · refine ((reads_end_iff [1, 2] (by decide)).2 (singlePixels 8 [1, 2]) (pixelReader 8 [1, 2]) _
      ['v'] ⟨true, true, true⟩ _ rfl rfl rfl hvideo).mpr ?_
    refine List.forall_mem_cons.mpr ⟨fun hend ↦ ?_, List.forall_mem_singleton.mpr fun hend ↦ ?_⟩
    · exact absurd hend.2.2.1 (by decide)
    · exact absurd hend.2.2.1 (by decide)

/-- A file of one frame with 16 bits, of which two calls for one frame are successful. -/
theorem frame_is_delivered_twice :
    (¬∀ (s opened final : CRawAudioFileIO) (content : List UInt8) (sFilePath : List Char)
        (o : OpenOutcome) (trace : List (Call CRawAudioFileIO BlockCall Bool)),
      s.onDisk = some content → content.length < 2 ^ 63 →
      s.openFile .input sFilePath o = some (true, opened) → opened.m_bUseLoopingRead = false →
      Run (BlockReads CRawAudioFileIO.answer) (opened.setCurrentFrame 0).2 trace final →
        DeliversFrames (content.length / s.m_nFrameSize) trace) ∧
    ¬∀ (s opened final : CRawVideoFileIO) (content : List UInt8) (sFilePath : List Char)
        (o : OpenOutcome) (trace : List (Call CRawVideoFileIO BlockCall Bool)),
      s.onDisk = some content → content.length < 2 ^ 63 →
      s.openFile .input sFilePath o = some (true, opened) → opened.m_bUseLoopingRead = false →
      Run (BlockReads CRawVideoFileIO.answer) (opened.setCurrentFrame 0).2 trace final →
        DeliversFrames (content.length / s.m_nFrameSize) trace := by
  have haudio := run_pair CRawAudioFileIO.answer ((monoReader 16 [1, 0]).setCurrentFrame 0).2
    ⟨some [9, 9, 9, 9], 1⟩ ⟨some [9, 9, 9, 9], 1⟩ (by decide) (by decide) rfl rfl
  have hvideo := run_pair CRawVideoFileIO.answer ((pixelReader 16 [1, 0]).setCurrentFrame 0).2
    ⟨some [9, 9, 9, 9], 1⟩ ⟨some [9, 9, 9, 9], 1⟩ (by decide) (by decide) rfl rfl
  constructor
  · intro h
    obtain ⟨-, hcount⟩ := h (monoSamples 16 [1, 0]) (monoReader 16 [1, 0]) _ [1, 0] ['a']
      ⟨true, true, true⟩ _ rfl (by decide) rfl rfl haudio
    exact absurd hcount (by decide)
  · intro h
    obtain ⟨-, hcount⟩ := h (singlePixels 16 [1, 0]) (pixelReader 16 [1, 0]) _ [1, 0] ['v']
      ⟨true, true, true⟩ _ rfl (by decide) rfl rfl hvideo
    exact absurd hcount (by decide)

end RdbLibs.FileIO
