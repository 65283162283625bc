import RdbLibs.FileIO.CWavFileIO.Calls

/-!
# The end of a WAV file that is read

`isEOF` compares the current frame with the number of frames. `readBlock` advances the current
frame up to this number. `nextFrame` advances both: after it the file has one frame more, and as
many frames are left as before. So the end is reached as it should be by those callers only whose
calls of `nextFrame` all fail.
-/

set_option autoImplicit false
set_option relaxedAutoImplicit false

namespace RdbLibs.FileIO.CWavFileIO

open CheckedMemory MachineWord Runs

/-- A call that goes on in a file that is read. -/
inductive ReadCall
  | nextFrame
  | readBlock (pData : Option (List UInt8)) (numFrames : ℕ)

/-- The call, among all calls. -/
def ReadCall.toWavCall : ReadCall → WavCall
  | .nextFrame => .nextFrame
  | .readBlock pData numFrames => .readBlock pData numFrames

/-- A call, with the state that it found and its answer. -/
abbrev ReadRecord (α : Type) := (Call · ReadCall (Option Bool)) <| CWavFileIO α

variable {α : Type} {conv : SampleConversion α} {s : CWavFileIO α} {F : ℕ}

/-- The frames that a call consumes: a successful `nextFrame` consumes one, and a successful
`readBlock` what it is asked for, as far as there are frames left. -/
def consumed (call : ReadRecord α) : ℕ :=
  match call.label, call.reply with
  | .nextFrame, some true => 1
  | .readBlock _ numFrames, some true => min numFrames call.before.framesLeftInFile.toNat
  | _, _ => 0

/-- Adds what a call consumes. -/
def addConsumed (total : ℕ) (call : ReadRecord α) : ℕ :=
  total + consumed call

/-- The file has its `F` frames, and is at its end once these are consumed. -/
def Counted (F : ℕ) (s : CWavFileIO α) (total : ℕ) : Prop :=
  s.m_nFramesInFile = F ∧ (F ≤ total → s.isEOF = true)

/-- A call finds its file with `F` frames, and fails once these are consumed. -/
def FailsAtEnd (F total : ℕ) (call : ReadRecord α) : Prop :=
  Counted F call.before total ∧ (F ≤ total → call.reply = some false)

/-- In all states of a run the file has `F` frames. Once these are consumed, it is at its end, and
every further call fails. -/
def EndsAt (F : ℕ) (trace : List (ReadRecord α)) (final : CWavFileIO α) : Prop :=
  Obeys addConsumed (FailsAtEnd F) 0 trace ∧ Counted F final (trace.foldl addConsumed 0)

theorem readFramesAt_ok {pData : List UInt8} {nReadSize : ℕ} {result : WavReadResult α}
    (hread : s.readFramesAt conv pData nReadSize = .ok result) :
    result.status = true ∧
      result.s = { s with m_nCurrentFrame := s.m_nCurrentFrame + nReadSize } := by
  obtain ⟨target, -, hresult⟩ := of_bind_eq_ok hread
  obtain rfl := Except.ok.inj hresult
  exact ⟨rfl, rfl⟩

theorem padFrames_ok {pData : List UInt8} {numFrames : ℕ} {left : ℤ} {result : WavReadResult α}
    (hpad : s.padFrames pData numFrames left = .ok result) (hbits : s.m_nBitsPerSample = 16)
    (hleft : 1 ≤ left) : result.status = true ∧ result.s = s := by
  unfold padFrames at hpad
  rw [if_neg (Int.not_lt.mpr hleft), if_neg fun h ↦ h.1 hbits] at hpad
  obtain ⟨target, -, hresult⟩ := of_bind_eq_ok hpad
  obtain rfl := Except.ok.inj hresult
  exact ⟨rfl, rfl⟩

theorem readBlock_eof (heof : s.isEOF = true) (hlooping : s.m_bUseLoopingRead = false)
    (pData : Option (List UInt8)) (numFrames : ℕ) :
    s.readBlock conv pData numFrames = .ok ⟨false, pData, s⟩ := by
  cases pData with
  | none => rfl
  | some target =>
    unfold readBlock
    dsimp only
    rw [if_pos (show s.isEOF = true ∧ _ from ⟨heof, hlooping⟩), ite_self]
    rfl

/-- What a `readBlock` that returns has done, where the object does not read in a loop. -/
theorem readBlock_ok {pData : Option (List UInt8)} {numFrames : ℕ} {result : WavReadResult α}
    (hmode : s.m_eMode = .input) (hlooping : s.m_bUseLoopingRead = false)
    (hbits : s.m_nBitsPerSample = 16) (hread : s.readBlock conv pData numFrames = .ok result) :
    (result.status = false ∧ result.s = s) ∨
      (result.status = true ∧ s.isEOF = false ∧ result.s = { s with
        m_nCurrentFrame := s.m_nCurrentFrame + (min numFrames s.framesLeftInFile.toNat : ℕ) }) := by
  by_cases heof : s.isEOF = true
  · rw [readBlock_eof heof hlooping] at hread
    obtain rfl := Except.ok.inj hread
    exact .inl ⟨rfl, rfl⟩
  have hmore : s.isEOF = false := Bool.eq_false_iff.mpr heof
  have hleft : 1 ≤ s.framesLeftInFile := by simpa [isEOF] using heof
  unfold readBlock at hread
  cases pData with
  | none =>
    obtain rfl := Except.ok.inj hread
    exact .inl ⟨rfl, rfl⟩
  | some target =>
    dsimp only at hread
    rw [if_neg (by simp [hmode]), if_neg fun h ↦ heof h.1] at hread
    by_cases hless : s.framesLeftInFile < numFrames
    · rw [if_pos hless] at hread
      obtain ⟨padded, -, hpad⟩ := of_bind_eq_ok hread
      rw [if_pos hlooping] at hpad
      obtain ⟨hstatus, hs⟩ := padFrames_ok hpad hbits hleft
      have hmin : min numFrames s.framesLeftInFile.toNat = s.framesLeftInFile.toNat := by omega
      rw [hmin]
      exact .inr ⟨hstatus, hmore, hs⟩
    · rw [if_neg hless] at hread
      obtain ⟨hstatus, hs⟩ := readFramesAt_ok hread
      have hmin : min numFrames s.framesLeftInFile.toNat = numFrames := by omega
      rw [hmin]
      exact .inr ⟨hstatus, hmore, hs⟩

/-- An object that reads a file of `F` frames, of which it has consumed `total`. -/
structure Reading (F : ℕ) (s : CWavFileIO α) (total : ℕ) : Prop where
  mode : s.m_eMode = .input
  looping : s.m_bUseLoopingRead = false
  bits : s.m_nBitsPerSample = 16
  framesInFile : s.m_nFramesInFile = F
  frame : s.m_nCurrentFrame = total
  total_le : total ≤ F

variable {total : ℕ}

theorem Reading.framesLeftInFile (h : Reading F s total) : s.framesLeftInFile = F - total := by
  unfold CWavFileIO.framesLeftInFile
  rw [h.framesInFile, h.frame]

theorem Reading.isEOF_iff (h : Reading F s total) : s.isEOF = true ↔ F ≤ total := by
  rw [isEOF, decide_eq_true_iff, h.framesLeftInFile]
  omega

theorem Reading.counted (h : Reading F s total) : Counted F s total :=
  ⟨h.framesInFile, h.isEOF_iff.mpr⟩

/-- A `nextFrame` that fails changes nothing that is counted. -/
theorem Reading.nextFrame (h : Reading F s total) (heof : s.isEOF = true) :
    ∃ after, s.nextFrame = .ok (false, after) ∧ Reading F after total := by
  rw [nextFrame_input h.mode, if_pos heof]
  exact ⟨_, rfl, { h with }⟩

/-- A `nextFrame` that succeeds makes the file longer. -/
theorem nextFrame_framesInFile (hmode : s.m_eMode = .input) (heof : ¬s.isEOF = true) :
    ∃ after, s.nextFrame = .ok (true, after) ∧
      after.m_nFramesInFile = s.m_nFramesInFile + 1 := by
  rw [nextFrame_input hmode, if_neg heof]
  exact ⟨_, rfl, rfl⟩

/-- A `readBlock` consumes the frames that it reads. -/
theorem Reading.readBlock (h : Reading F s total) {pData : Option (List UInt8)} {numFrames : ℕ}
    {result : WavReadResult α} (hread : s.readBlock conv pData numFrames = .ok result) :
    FailsAtEnd F total ⟨s, .readBlock pData numFrames, some result.status⟩ ∧
      Reading F result.s
        (addConsumed total ⟨s, .readBlock pData numFrames, some result.status⟩) := by
  obtain ⟨hstatus, hs⟩ | ⟨hstatus, hmore, hs⟩ := readBlock_ok h.mode h.looping h.bits hread
  · rw [hstatus, hs]
    exact ⟨⟨h.counted, fun _ ↦ rfl⟩, h⟩
  · have hlt : ¬F ≤ total := fun hle ↦
      Bool.noConfusion (hmore.symm.trans (h.isEOF_iff.mpr hle))
    have htotal : addConsumed total ⟨s, .readBlock pData numFrames, some true⟩ =
        total + min numFrames (F - total) := by
      simp only [addConsumed, consumed, h.framesLeftInFile]
      omega
    rw [hstatus, hs, htotal, h.framesLeftInFile]
    refine ⟨⟨h.counted, fun hle ↦ absurd hle hlt⟩, { h with frame := ?_, total_le := by omega }⟩
    show s.m_nCurrentFrame + _ = _
    rw [h.frame]
    omega

section Runs

variable [Zero α]

/-- The steps of these calls. -/
abbrev ReadStep (conv : SampleConversion α) (before : CWavFileIO α) (call : ReadCall) :=
  Step conv before call.toWavCall

/-- A call keeps the count, unless it is a `nextFrame` that succeeds. -/
theorem Reading.step (h : Reading F s total) {call : ReadCall} {reply : Option Bool}
    {after : CWavFileIO α} (hstep : ReadStep conv s call reply after)
    (hmeets : call = .nextFrame → s.isEOF = true) :
    FailsAtEnd F total ⟨s, call, reply⟩ ∧
      Reading F after (addConsumed total ⟨s, call, reply⟩) := by
  cases call with
  | nextFrame =>
    obtain ⟨next, hnext, hafter⟩ := h.nextFrame (hmeets rfl)
    cases hstep with
    | answered hanswer =>
      obtain ⟨rfl, rfl⟩ := Prod.ext_iff.mp (Except.ok.inj (hnext.symm.trans hanswer))
      exact ⟨⟨h.counted, fun _ ↦ rfl⟩, hafter⟩
    | outOfRange hanswer => cases hnext.symm.trans hanswer
  | readBlock pData numFrames =>
    cases hread : s.readBlock conv pData numFrames with
    | ok result =>
      have hdone : s.answer conv (.readBlock pData numFrames) = .ok (result.status, result.s) := by
        rw [answer, hread]
        rfl
      cases hstep with
      | answered hanswer =>
        obtain ⟨rfl, rfl⟩ := Prod.ext_iff.mp (Except.ok.inj (hdone.symm.trans hanswer))
        exact h.readBlock hread
      | outOfRange hanswer => cases hdone.symm.trans hanswer
    | error fault =>
      have hfault : s.answer conv (.readBlock pData numFrames) = .error fault := by
        rw [answer, hread]
        rfl
      cases hstep with
      | answered hanswer => cases hfault.symm.trans hanswer
      | outOfRange hanswer =>
        refine ⟨⟨h.counted, fun hle ↦ ?_⟩, h⟩
        have heof : s.readBlock conv pData numFrames = .ok ⟨false, pData, s⟩ :=
          readBlock_eof (h.isEOF_iff.mpr hle) h.looping pData numFrames
        cases hread.symm.trans heof

/-- An object that was just opened has consumed nothing. -/
theorem Reading.start {after : CWavFileIO α} {sFilePath : List Char} {outcome : LoadOutcome α}
    (hload : ∀ channel ∈ outcome.samples, channel.length = F) (hF : F < 2 ^ 31)
    (hbits : s.m_nBitsPerSample = 16) (hlooping : s.m_bUseLoopingRead = false)
    (hopen : s.openFile .input sFilePath outcome = some (true, after)) : Reading F after 0 := by
  obtain ⟨hstart, hsamples, hsameBits, hsameLooping⟩ := openFile_input hopen
  rw [← hsamples] at hload
  refine ⟨hstart.mode, hsameLooping.trans hlooping, hsameBits.trans hbits, ?_, hstart.frame,
    F.zero_le⟩
  rw [hstart.framesInFile, getNumSamplesPerChannel_eq hstart.samples_ne hload, toInt_of_lt hF]

/-- In a run from an object that was just opened, the file ends as it should exactly when no call
of `nextFrame` succeeds. Assumes: the file has `F` frames, which are counted by an `int`, and the
object does not read in a loop. -/
theorem endsAt_iff (conv : SampleConversion α) {start final : CWavFileIO α}
    {trace : List (ReadRecord α)} {sFilePath : List Char} {outcome : LoadOutcome α}
    (hload : ∀ channel ∈ outcome.samples, channel.length = F) (hF : F < 2 ^ 31)
    (hbits : s.m_nBitsPerSample = 16) (hlooping : s.m_bUseLoopingRead = false)
    (hopen : s.openFile .input sFilePath outcome = some (true, start))
    (hrun : Run (ReadStep conv) start trace final) :
    EndsAt F trace final ↔
      ∀ call ∈ trace, call.label = .nextFrame → call.before.isEOF = true := by
  refine hrun.obeys_iff (Reading F) (Counted F) (fun _ _ h ↦ h.counted) (fun _ _ h ↦ h.1)
    (fun _ _ _ _ _ h hstep hmeets ↦ h.step hstep hmeets) ?_ 0
    (.start hload hF hbits hlooping hopen)
  intro before call reply after total h hstep hmeets hcounted
  rw [Classical.not_imp] at hmeets
  obtain ⟨rfl, heof⟩ := hmeets
  obtain ⟨next, hnext, hmore⟩ := nextFrame_framesInFile h.mode heof
  cases hstep with
  | answered hanswer =>
    obtain ⟨rfl, rfl⟩ := Prod.ext_iff.mp (Except.ok.inj (hnext.symm.trans hanswer))
    rw [hcounted.1, h.framesInFile] at hmore
    omega
  | outOfRange hanswer => cases hnext.symm.trans hanswer

theorem endsAt_iff_frame : ∃ trace final, trace.length = 2 ∧
    Run (ReadStep integerConversion) (frameFile 7) trace final ∧ EndsAt 1 trace final := by
  have hrun : Run (ReadStep integerConversion) (frameFile 7)
      [⟨frameFile 7, .readBlock (some [0, 0]) 1, some true⟩,
        ⟨{ frameFile 7 with m_nCurrentFrame := 1 }, .nextFrame, some false⟩]
      { frameFile 7 with m_nCurrentFrame := 1 } :=
    .cons (.answered rfl) (.cons (.answered rfl) (.nil _))
  have hends := endsAt_iff integerConversion (s := monoFile) (F := 1) (by simp) (by norm_num) rfl
    rfl (openFile_frameFile 7) hrun
  exact ⟨_, _, rfl, hrun, hends.mpr (by simp [isEOF, framesLeftInFile, frameFile, opened])⟩

/-- One `nextFrame`, which makes a file of one frame one of two frames. -/
theorem not_endsAt_frame : ¬∀ trace final,
    Run (ReadStep integerConversion) (frameFile 7) trace final → EndsAt 1 trace final := by
  intro h
  obtain ⟨-, hcounted⟩ :=
    h [⟨frameFile 7, .nextFrame, some true⟩] _ (.cons (.answered rfl) (.nil _))
  exact absurd hcounted.1 (by decide)

end Runs

end RdbLibs.FileIO.CWavFileIO
