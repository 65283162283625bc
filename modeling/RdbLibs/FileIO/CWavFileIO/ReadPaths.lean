import RdbLibs.FileIO.CWavFileIO.Positions

/-!
# Two ways to read a WAV file

A caller reads the samples of each frame of a file with `readSample` and goes on with `nextFrame`,
or reads all frames with `readBlock`. Both go through the same samples. `readBlock` stores the
converted samples frame by frame; `readSample` converts them and leaves `data` as it was. So the
two agree only where the caller's variables hold the samples already.
-/

set_option autoImplicit false
set_option relaxedAutoImplicit false

namespace RdbLibs.FileIO.CWavFileIO

open BlockBuffer ByteCodec CheckedMemory MachineWord

variable {α : Type} {conv : SampleConversion α} {s : CWavFileIO α}

/-- The calls of `readSample` for some channels, from `chl` on, with what the variable for each
channel holds before. What it holds behind the call follows the answer. -/
def readSamples (s : CWavFileIO α) (initial : ℕ → BitVec 16) (chl : ℕ) :
    ℕ → Except AccessFault (List (Bool × BitVec 16) × CWavFileIO α)
  | 0 => return ([], s)
  | count + 1 => do
    let (status, data, s) ← s.readSample16 (initial chl) chl
    let (rest, s) ← s.readSamples initial (chl + 1) count
    return ((status, data) :: rest, s)

/-- The calls for some frames, from `frame` on: all channels, and `nextFrame`. -/
def readFrames (s : CWavFileIO α) (initial : ℕ → ℕ → BitVec 16) (frame : ℕ) :
    ℕ → Except AccessFault (List (List (Bool × BitVec 16)) × CWavFileIO α)
  | 0 => return ([], s)
  | count + 1 => do
    let (row, s) ← s.readSamples (initial frame) 0 s.m_numChls
    let (_, s) ← s.nextFrame
    let (rows, s) ← s.readFrames initial (frame + 1) count
    return (row :: rows, s)

/-- Both ways to read `F` frames return, each `readSample` is successful, and `data` is then what
`readBlock` stores in its place. -/
def PathsAgree (conv : SampleConversion α) (s : CWavFileIO α) (initial : ℕ → ℕ → BitVec 16)
    (pData : List UInt8) (F : ℕ) : Prop :=
  ∃ rows after buffer after', s.readFrames initial 0 F = .ok (rows, after) ∧
    s.readBlock conv (some pData) F = .ok ⟨true, some buffer, after'⟩ ∧
    ∀ f < F, ∀ chl < s.m_numChls, ∃ row data, rows[f]? = some row ∧ row[chl]? = some (true, data) ∧
      (buffer.drop (2 * (f * s.m_numChls + chl))).take 2 = littleEndian 2 data.toNat

/-- Where `nextFrame` has led in a file of `F` frames. -/
structure OnFrame (samples : List (List α)) (numChls F f : ℕ) (s : CWavFileIO α) : Prop where
  sound : s.Sound
  mode : s.m_eMode = .input
  bits : s.m_nBitsPerSample = 16
  samples : s.samples = samples
  channels : s.m_numChls = numChls
  count : s.getNumSamplesPerChannel = F
  frame : s.m_nCurrentFrame = f
  framesInFile : s.m_nFramesInFile = F + f

variable {samples : List (List α)} {numChls F f : ℕ}

theorem OnFrame.countRead (h : OnFrame samples numChls F f s) (chl : ℕ) :
    OnFrame samples numChls F f (s.countRead chl) := by
  have hsound := h.sound.countRead chl
  unfold CWavFileIO.countRead at hsound ⊢
  split_ifs at hsound ⊢
  · exact h
  · exact { h with sound := hsound }

/-- `readSample` is successful, and leaves `data` as it was. -/
theorem OnFrame.readSample16 (h : OnFrame samples numChls F f s) (hf : f < F) {chl : ℕ}
    (hchl : chl < numChls) (data : BitVec 16) :
    s.readSample16 data chl = .ok (true, data, s.countRead chl) := by
  have hinside : ¬s.getNumSamplesPerChannel ≤ s.m_nCurrentFrame := by
    rw [h.count, h.frame]
    omega
  have hchls : chl < s.m_numChls := by rwa [h.channels]
  have hrewind : s.rewindFrame = s := if_neg hinside
  have hmode : s.m_eMode ≠ .output := by simp [h.mode]
  obtain ⟨sample, hsample⟩ := exists_sampleAt (h.sound.isStored_rewindFrame hmode hchls)
  unfold CWavFileIO.readSample16
  rw [if_neg (by simp [hmode, h.bits, hchls]), if_neg fun hend ↦ hinside hend.1]
  dsimp only
  rw [hsample, hrewind]
  rfl

/-- The samples of a frame are what their variables held. -/
theorem OnFrame.readSamples (initial : ℕ → BitVec 16) (hf : f < F) {count : ℕ} :
    ∀ {s : CWavFileIO α} {chl : ℕ}, OnFrame samples numChls F f s → chl + count = numChls →
      ∃ after, s.readSamples initial chl count =
          .ok ((List.range' chl count).map fun chl ↦ (true, initial chl), after) ∧
        OnFrame samples numChls F f after := by
  induction count with
  | zero => exact fun h _ ↦ ⟨_, rfl, h⟩
  | succ count ih =>
    intro s chl h hcount
    have hchls : chl + 1 + count = numChls := by omega
    obtain ⟨after, hrest, hafter⟩ := ih (h.countRead chl) hchls
    refine ⟨after, ?_, hafter⟩
    unfold CWavFileIO.readSamples
    rw [h.readSample16 hf (by omega), ok_bind]
    dsimp only
    rw [hrest]
    rfl

/-- `nextFrame` goes on, and counts a frame more. -/
theorem OnFrame.nextFrame (h : OnFrame samples numChls F f s) (hF : 1 ≤ F) :
    ∃ status after, s.nextFrame = .ok (status, after) ∧
      OnFrame samples numChls F (f + 1) after := by
  have hmore : ¬s.isEOF = true := by
    rw [isEOF, decide_eq_true_iff, framesLeftInFile, h.framesInFile, h.frame]
    omega
  have hrewound : Sound { s with m_lastChlRead := -1 } := { h.sound with }
  refine ⟨true, _, by rw [nextFrame_input h.mode, if_neg hmore],
    { h with sound := hrewound.countFrame, frame := ?_, framesInFile := ?_ }⟩
  · show s.m_nCurrentFrame + 1 = _
    rw [h.frame, Nat.cast_succ]
  · show s.m_nFramesInFile + 1 = _
    rw [h.framesInFile, Nat.cast_succ, Int.add_assoc]

/-- The variables of all frames hold what they held. -/
theorem OnFrame.readFrames (initial : ℕ → ℕ → BitVec 16) {count : ℕ} :
    ∀ {s : CWavFileIO α} {f : ℕ}, OnFrame samples numChls F f s → f + count = F →
      ∃ after, s.readFrames initial f count = .ok ((List.range' f count).map fun f ↦
        (List.range' 0 numChls).map fun chl ↦ (true, initial f chl), after) := by
  induction count with
  | zero => exact fun _ _ ↦ ⟨_, rfl⟩
  | succ count ih =>
    intro s f h hcount
    obtain ⟨read, hsamples, hread⟩ := OnFrame.readSamples (initial f) (by omega) h
      (Nat.zero_add numChls)
    obtain ⟨status, next, hmoved, hnext⟩ := hread.nextFrame (by omega)
    obtain ⟨after, hrest⟩ := ih hnext (by omega)
    refine ⟨after, ?_⟩
    unfold CWavFileIO.readFrames
    rw [h.channels, hsamples, ok_bind]
    dsimp only
    rw [hmoved, ok_bind]
    dsimp only
    rw [hrest]
    rfl

/-- The bytes of a sample, in its place among the frames. -/
theorem sampleBytes_of_take {buffer : List UInt8} (hlength : 2 * numChls * F ≤ buffer.length)
    (hframes : (List.range F).flatMap (frameBytes conv samples numChls) =
      buffer.take (2 * numChls * F)) {chl : ℕ} (hf : f < F) (hchl : chl < numChls) :
    (buffer.drop (2 * (f * numChls + chl))).take 2 =
      littleEndian 2 (convertedSample conv samples f chl).toNat := by
  have hframe := (flatMap_range_eq_take_iff
    (fun f _ ↦ length_frameBytes samples numChls f) hlength).mp hframes f hf
  have hend : 2 * numChls * f + 2 * numChls ≤ 2 * numChls * F := by
    rw [← Nat.mul_succ]
    exact Nat.mul_le_mul_left _ hf
  have hrest : 2 * numChls ≤ (buffer.drop (2 * numChls * f)).length := by
    rw [List.length_drop]
    omega
  have hsample := (flatMap_range_eq_take_iff
    (fun chl _ ↦ length_littleEndian 2 (convertedSample conv samples f chl).toNat) hrest).mp
      hframe chl hchl
  have hplace : 2 * (f * numChls + chl) = 2 * numChls * f + 2 * chl := by ring
  rw [hsample, List.drop_drop, hplace]

theorem littleEndian_toNat_inj {first second : BitVec 16}
    (h : littleEndian 2 first.toNat = littleEndian 2 second.toNat) : first = second := by
  have hword (word : BitVec 16) : ofLittleEndian (littleEndian 2 word.toNat) = word.toNat :=
    (ofLittleEndian_littleEndian 2 word.toNat).trans (Nat.mod_eq_of_lt word.isLt)
  have hvalue := congrArg ofLittleEndian h
  rw [hword, hword] at hvalue
  exact BitVec.eq_of_toNat_eq hvalue

/-- On its first frame, an object is at the frame from which `readBlock` reads the whole file. -/
theorem OnFrame.atFrame (h : OnFrame samples samples.length F 0 s) (hsome : 1 ≤ samples.length)
    (hload : ∀ channel ∈ samples, channel.length = F) : s.AtFrame F 0 where
  mode houtput := eFileIoMode_def.noConfusion (h.mode.symm.trans houtput)
  someChannels := h.channels.symm ▸ hsome
  channels := by rw [h.samples, h.channels]
  lengths := h.samples.symm ▸ hload
  framesInFile := h.framesInFile.trans (Int.add_zero _)
  currentFrame := h.frame
  frame_le := Nat.zero_le F

section Opened

variable [Zero α] {start : CWavFileIO α} {sFilePath : List Char} {outcome : LoadOutcome α}

/-- An object that was just opened is on its first frame. Assumes: its file is a size that is an
`int`. -/
theorem OnFrame.of_openFile (hload : ∀ channel ∈ outcome.samples, channel.length = F)
    (hsize : outcome.samples.length * F < 2 ^ 31) (hbits : s.m_nBitsPerSample = 16)
    (hopen : s.openFile .input sFilePath outcome = some (true, start)) :
    OnFrame outcome.samples outcome.samples.length F 0 start ∧ 1 ≤ outcome.samples.length ∧
      1 ≤ F := by
  have hsound := (Opened.input hload hopen).sound
  obtain ⟨hstart, hsamples, hsameBits, -⟩ := openFile_input hopen
  have hne := hstart.samples_ne
  rw [← hsamples] at hload hsize ⊢
  have hcount := getNumSamplesPerChannel_eq hne hload
  have hF : 1 ≤ F := by
    have hnonempty := hstart.nonempty
    rw [hcount] at hnonempty
    have hle := toInt_le F
    omega
  have hchannels : start.samples.length < 2 ^ 31 := (Nat.le_mul_of_pos_right _ hF).trans_lt hsize
  have hsome := List.length_pos_iff.mpr hne
  have hframes : F < 2 ^ 31 := (Nat.le_mul_of_pos_left _ hsome).trans_lt hsize
  rw [toInt_of_lt hframes] at hcount
  refine ⟨⟨hsound, hstart.mode, hsameBits.trans hbits, rfl, ?_, hcount, hstart.frame, ?_⟩, hsome,
    hF⟩
  · rw [hstart.channels, getNumChannels, intToUnsigned_toInt (hchannels.trans (by norm_num))]
  · rw [hstart.framesInFile, hcount, Nat.cast_zero, Int.add_zero]

/-- Both ways to read a file agree exactly when the caller's variables hold the converted samples
before they are read. Assumes: the channels of the file have `F` frames each, the number of samples
is an `int`, and the buffer has room for them. -/
theorem pathsAgree_iff (conv : SampleConversion α)
    (hload : ∀ channel ∈ outcome.samples, channel.length = F)
    (hsize : outcome.samples.length * F < 2 ^ 31) (hbits : s.m_nBitsPerSample = 16)
    (hopen : s.openFile .input sFilePath outcome = some (true, start))
    (initial : ℕ → ℕ → BitVec 16) {pData : List UInt8}
    (hroom : 2 * (outcome.samples.length * F) ≤ pData.length) :
    PathsAgree conv start initial pData F ↔ ∀ f < F, ∀ chl < outcome.samples.length,
      initial f chl = convertedSample conv outcome.samples f chl := by
  obtain ⟨hstart, hsome, hF⟩ := OnFrame.of_openFile hload hsize hbits hopen
  obtain ⟨after, hrows⟩ := hstart.readFrames initial (Nat.zero_add F)
  rw [← Nat.mul_assoc] at hroom
  have hword : 2 * outcome.samples.length * F ≤ 2 ^ 33 := by
    rw [Nat.mul_assoc]
    omega
  obtain ⟨buffer, hread, hstored⟩ := (hstart.atFrame hsome hload).readBlock_fits conv hF
    (Nat.zero_add F).le ((Nat.min_le_left ..).trans (by rwa [hstart.channels]))
  have hframes := hstored.stored (by rwa [hstart.channels])
  rw [hstart.channels, hstart.samples] at hframes
  simp only [Nat.zero_add] at hframes
  have hcell (f : ℕ) (hf : f < F) (chl : ℕ) (hchl : chl < outcome.samples.length) :
      (∃ row data, ((List.range' 0 F).map fun f ↦ (List.range' 0 outcome.samples.length).map
        fun chl ↦ (true, initial f chl))[f]? = some row ∧ row[chl]? = some (true, data) ∧
        (buffer.drop (2 * (f * outcome.samples.length + chl))).take 2 =
          littleEndian 2 data.toNat) ↔
      initial f chl = convertedSample conv outcome.samples f chl := by
    rw [sampleBytes_of_take (hstored.length_eq.symm ▸ hroom) hframes.symm hf hchl]
    simp only [List.getElem?_map, List.getElem?_range' hf, Option.map_some, Option.some.injEq,
      exists_and_left, exists_eq_left', List.getElem?_range' hchl, Nat.zero_add, Nat.one_mul,
      Prod.mk.injEq, true_and]
    exact ⟨fun hbytes ↦ (littleEndian_toNat_inj hbytes).symm, fun hdata ↦ by rw [hdata]⟩
  rw [PathsAgree, hrows, hread, hstart.channels]
  constructor
  · rintro ⟨rows, other, block, other', hsameRows, hsameBlock, hagree⟩ f hf chl hchl
    cases hsameRows
    cases hsameBlock
    exact (hcell f hf chl hchl).mp (hagree f hf chl hchl)
  · intro hinitial
    exact ⟨_, _, _, _, rfl, rfl, fun f hf chl hchl ↦
      (hcell f hf chl hchl).mpr (hinitial f hf chl hchl)⟩

theorem pathsAgree_iff_frame :
    PathsAgree integerConversion (frameFile 7) (fun _ _ ↦ 7) [0, 0] 1 := by
  refine (pathsAgree_iff integerConversion (by simp) (by norm_num) rfl (openFile_frameFile 7) _
    (by simp)).mpr ?_
  intro f hf chl hchl
  obtain rfl := Nat.lt_one_iff.mp hf
  obtain rfl := Nat.lt_one_iff.mp hchl
  rfl

/-- The only sample of a file, which is not 0, read into a variable that is. -/
theorem not_pathsAgree_frame : ¬∀ (initial : ℕ → ℕ → BitVec 16) (pData : List UInt8),
    2 ≤ pData.length → PathsAgree integerConversion (frameFile 7) initial pData 1 := by
  intro h
  obtain ⟨rows, after, buffer, after', hrows, hread, hagree⟩ := h (fun _ _ ↦ 0) [0, 0] le_rfl
  cases hrows
  cases hread
  obtain ⟨row, data, hrow, hdata, hbytes⟩ := hagree 0 Nat.one_pos 0 Nat.one_pos
  cases hrow
  cases hdata
  exact absurd hbytes (by decide)

end Opened

end RdbLibs.FileIO.CWavFileIO
