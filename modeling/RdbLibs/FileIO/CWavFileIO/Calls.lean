import RdbLibs.FileIO.CWavFileIO.Model
import RdbLibs.Foundations.Runs

/-!
# Calls on an open WAV file

The calls that read, write, move on and set a member between `openFile` and `closeFile`, as the
steps of a component. A call that has an index outside of the samples is not answered. What the
caller does with its own memory is not a question here: a call that leaves this memory is no step.
-/

set_option autoImplicit false
set_option relaxedAutoImplicit false

namespace RdbLibs.FileIO.CWavFileIO

open MachineWord

variable {α : Type} [Zero α] {s after : CWavFileIO α}

/-- A call, with its arguments. -/
inductive WavCall
  | writeSample16 (data : BitVec 16) (chl : ℕ)
  | writeBlock (pData : Option (List UInt8)) (numFrames : ℕ)
  | readSample16 (data : BitVec 16) (chl : ℕ)
  | readBlock (pData : Option (List UInt8)) (numFrames : ℕ)
  | nextFrame
  | setCurrentFrame (frameNum : ℕ)
  | setLoopingRead (value : Bool)
  | setIoBlockSize (numFrames : ℤ)
  | setSampleRate (rate : ℕ)
  | setFrameOutputWriteFlag (value : Bool)

section Steps

variable (conv : SampleConversion α)

/-- The answer of a call, and what becomes of the object. -/
def answer (s : CWavFileIO α) : WavCall → Except AccessFault (Bool × CWavFileIO α)
  | .writeSample16 data chl => s.writeSample16 conv data chl
  | .writeBlock pData numFrames => s.writeBlock conv pData numFrames
  | .readSample16 data chl => (fun result ↦ (result.1, result.2.2)) <$> s.readSample16 data chl
  | .readBlock pData numFrames =>
    (fun result ↦ (result.status, result.s)) <$> s.readBlock conv pData numFrames
  | .nextFrame => s.nextFrame
  | .setCurrentFrame frameNum => .ok (s.setCurrentFrame frameNum)
  | .setLoopingRead value => .ok (true, s.setLoopingRead value)
  | .setIoBlockSize numFrames => .ok (true, s.setIoBlockSize numFrames)
  | .setSampleRate rate => .ok (true, s.setSampleRate rate)
  | .setFrameOutputWriteFlag value => .ok (true, s.setFrameOutputWriteFlag value)

/-- A call is answered, or has an index outside of the samples. -/
inductive Step : CWavFileIO α → WavCall → Option Bool → CWavFileIO α → Prop
  | answered {s after : CWavFileIO α} {call : WavCall} {status : Bool}
      (hanswer : s.answer conv call = .ok (status, after)) : Step s call (some status) after
  | outOfRange {s : CWavFileIO α} {call : WavCall}
      (hanswer : s.answer conv call = .error .samples) : Step s call none s

end Steps

omit [Zero α] in
/-- `nextFrame` where the object reads. -/
theorem nextFrame_input (hmode : s.m_eMode = .input) : s.nextFrame =
    .ok (if s.isEOF = true then (false, { s with m_lastChlRead := -1 })
      else (true, countFrame { s with m_lastChlRead := -1 })) := by
  unfold nextFrame
  rw [hmode]
  rfl

/-- An object that was just opened for input. -/
structure AtStart (s : CWavFileIO α) : Prop where
  mode : s.m_eMode = .input
  frame : s.m_nCurrentFrame = 0
  framesInFile : s.m_nFramesInFile = s.getNumSamplesPerChannel
  nonempty : 1 ≤ s.getNumSamplesPerChannel
  channels : s.m_numChls = intToUnsigned s.getNumChannels

omit [Zero α] in
theorem AtStart.samples_ne (h : AtStart s) : s.samples ≠ [] := by
  intro hnil
  have hcount := h.nonempty
  rw [getNumSamplesPerChannel, hnil] at hcount
  exact absurd hcount (by norm_num)

omit [Zero α] in
theorem getNumSamplesPerChannel_eq {F : ℕ} (hne : s.samples ≠ [])
    (hchannels : ∀ channel ∈ s.samples, channel.length = F) :
    s.getNumSamplesPerChannel = toInt F := by
  unfold getNumSamplesPerChannel
  cases hsamples : s.samples with
  | nil => exact absurd hsamples hne
  | cons channel rest =>
    rw [hsamples] at hchannels
    show toInt channel.length = toInt F
    rw [hchannels channel List.mem_cons_self]

omit [Zero α] in
theorem atStart_of_checkInput {status : Bool} (hmode : s.m_eMode = .input)
    (hopen : s.checkInput status = (true, after)) :
    AtStart after ∧ after.samples = s.samples ∧ after.m_nBitsPerSample = s.m_nBitsPerSample ∧
      after.m_bUseLoopingRead = s.m_bUseLoopingRead := by
  unfold checkInput at hopen
  split_ifs at hopen with hstatus hcount hchannels hrate <;> cases hopen
  exact ⟨⟨hmode, rfl, rfl, Int.not_lt.mp hcount, not_not.mp hchannels⟩, rfl, rfl, rfl⟩

/-- What a successful `openFile` for input leaves. -/
theorem openFile_input {sFilePath : List Char} {outcome : LoadOutcome α}
    (hopen : s.openFile .input sFilePath outcome = some (true, after)) :
    AtStart after ∧ after.samples = outcome.samples ∧ after.m_nBitsPerSample = s.m_nBitsPerSample ∧
      after.m_bUseLoopingRead = s.m_bUseLoopingRead := by
  have hbits : (s.usePath sFilePath).m_nBitsPerSample = s.m_nBitsPerSample := by
    unfold usePath
    split_ifs <;> rfl
  have hlooping : (s.usePath sFilePath).m_bUseLoopingRead = s.m_bUseLoopingRead := by
    unfold usePath
    split_ifs <;> rfl
  rw [← hbits, ← hlooping]
  simp only [openFile, load, Option.pure_def] at hopen
  split_ifs at hopen with hpath
  · cases hopen
  · exact atStart_of_checkInput rfl (Option.some.inj hopen)

omit [Zero α] in
theorem length_resize {values : List α} {size : ℕ} {value : α} :
    (resize values size value).length = size := by
  rw [resize, List.length_append, List.length_take, List.length_replicate]
  omega

theorem prepareOutput_some (hprepare : s.prepareOutput = some after) :
    after.m_eMode = s.m_eMode ∧ after.m_numChls = s.m_numChls ∧ 0 ≤ toInt s.m_numChls ∧
      after.samples.length = (toInt s.m_numChls).toNat := by
  unfold prepareOutput at hprepare
  split_ifs at hprepare with hneg
  obtain rfl := Option.some.inj hprepare
  split_ifs <;> exact ⟨rfl, rfl, Int.not_lt.mp hneg, length_resize⟩

/-- What a successful `openFile` for output leaves. -/
theorem openFile_output {sFilePath : List Char} {outcome : LoadOutcome α}
    (hchannels : s.m_numChls < 2 ^ 32)
    (hopen : s.openFile .output sFilePath outcome = some (true, after)) :
    after.m_eMode = .output ∧ after.m_nCurrentFrame = 0 ∧ after.m_numChls < 2 ^ 31 ∧
      after.samples.length = after.m_numChls := by
  have hpath : (s.usePath sFilePath).m_numChls = s.m_numChls := by
    unfold usePath
    split_ifs <;> rfl
  simp only [openFile, Option.pure_def] at hopen
  split_ifs at hopen with hempty
  · cases hopen
  · obtain ⟨prepared, hprepare, hopened⟩ := Option.bind_eq_some_iff.mp hopen
    obtain ⟨hmode, hnumChls, hpos, hlength⟩ := prepareOutput_some hprepare
    have hsame : prepared.m_numChls = s.m_numChls := hnumChls.trans hpath
    rw [← hnumChls, hsame] at hpos hlength
    have hsmall : s.m_numChls < 2 ^ 31 := by
      by_contra hlarge
      exact absurd hpos (Int.not_le.mpr (toInt_neg (not_lt.mp hlarge) hchannels))
    rw [toInt_of_lt hsmall, Int.toNat_natCast, ← hsame] at hlength
    cases hopened
    exact ⟨hmode, rfl, hsame.trans_lt hsmall, hlength⟩

/-- Samples that are integers. -/
def integerConversion : SampleConversion ℤ where
  ConvertFloatToInt16 := BitVec.ofInt 16
  ConvertInt16ToFloat := BitVec.toInt

/-- An object for one channel, before `openFile`. -/
def monoFile : CWavFileIO ℤ := new 1 ['a', '.', 'w', 'a', 'v']

/-- An object for two channels, before `openFile`. -/
def stereoNew : CWavFileIO ℤ := new 2 ['a', '.', 'w', 'a', 'v']

/-- The object for one channel, just opened for output. -/
def blankFile : CWavFileIO ℤ :=
  opened { monoFile with m_eMode := .output, m_eFileType := .wav }

/-- The object for two channels, just opened for output. -/
def stereoFile : CWavFileIO ℤ :=
  opened { stereoNew with m_eMode := .output, m_eFileType := .wav, samples := [[], []] }

/-- The object for one channel, just opened for the input of one frame. -/
def frameFile (sample : ℤ) : CWavFileIO ℤ :=
  opened { monoFile with
    m_eMode := .input
    m_eFileType := .wav
    m_nFramesInFile := 1
    samples := [[sample]] }

theorem openFile_blankFile :
    monoFile.openFile .output [] ⟨false, [], 0, 0⟩ = some (true, blankFile) := by rfl

theorem openFile_stereoFile :
    stereoNew.openFile .output [] ⟨false, [], 0, 0⟩ = some (true, stereoFile) := by rfl

theorem openFile_frameFile (sample : ℤ) :
    monoFile.openFile .input [] ⟨true, [[sample]], 44100, 16⟩ = some (true, frameFile sample) := by
  rfl

end RdbLibs.FileIO.CWavFileIO
