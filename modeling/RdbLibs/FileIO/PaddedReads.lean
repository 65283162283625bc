import RdbLibs.FileIO.CWavFileIO.Calls
import RdbLibs.FileIO.CWavFileIO.Positions
import RdbLibs.FileIO.RawInput

/-!
# Reads that are padded

A read of more frames than a file has left fills the rest of the caller's block with zeros.
`m_nFrameSize` is a number of bytes, but `readBlock` adds it to a pointer to samples, and multiplies
it by the size of a sample: the zeros begin at twice or four times the place behind the frames, and
they are two or four times as many. The byte behind the frames, which should be zero, is never
written, in neither of the two classes.
-/

set_option autoImplicit false
set_option relaxedAutoImplicit false

namespace RdbLibs.FileIO

open CheckedMemory CWavFileIO MachineWord

/-- The answers of `readBlock`, and the memory of its caller, by what this memory was. -/
abbrev BlockReader := List UInt8 → Option (Bool × Option (List UInt8))

/-- A successful read of `numFrames` frames, of which the file has `left`, stores `frames`, and
zeros for the others, and nothing behind them. -/
def PadsExactly (read : BlockReader) (frames : List UInt8) (frameBytes left numFrames : ℕ) : Prop :=
  ∀ target pData, numFrames * frameBytes ≤ target.length → read target = some (true, pData) →
    pData = some (frames ++ List.replicate ((numFrames - left) * frameBytes) 0 ++
      target.drop (numFrames * frameBytes))

section Pads

variable {read : BlockReader} {frames : List UInt8} {frameBytes left numFrames : ℕ}

/-- A read that is never successful stores nothing wrong. -/
theorem padsExactly_of_fails (hfails : ∀ target pData, read target ≠ some (true, pData)) :
    PadsExactly read frames frameBytes left numFrames :=
  fun target pData _ hread ↦ absurd hread (hfails target pData)

/-- A read that leaves the byte behind the frames as it was does not pad. -/
theorem not_padsExactly (hframes : frames.length = left * frameBytes) (hsize : 0 < frameBytes)
    (hless : left < numFrames) {length : ℕ} (hlength : numFrames * frameBytes ≤ length)
    {pData : List UInt8} (hread : read (List.replicate length 1) = some (true, some pData))
    (hbyte : pData[left * frameBytes]? = some 1) :
    ¬PadsExactly read frames frameBytes left numFrames := by
  intro hpads
  have hstored := hpads (List.replicate length 1) (some pData)
    (by rwa [List.length_replicate]) hread
  have hzeros : 0 < (numFrames - left) * frameBytes :=
    Nat.mul_pos (Nat.sub_pos_of_lt hless) hsize
  rw [Option.some.inj hstored, ← hframes, List.append_assoc,
    List.getElem?_append_right le_rfl, Nat.sub_self,
    List.getElem?_append_left (by rwa [List.length_replicate]),
    List.getElem?_replicate_of_lt hzeros] at hbyte
  exact absurd hbyte (by decide)

/-- In some memory there is room for all the zeros, and they begin behind the byte that follows the
frames. -/
theorem exists_memory (bits : ℤ) (numFrames count : ℕ) (hbehind : 0 < left * frameBytes) :
    ∃ length, numFrames * frameBytes ≤ length ∧ left * frameBytes < length ∧
      ∀ buffer : List UInt8, buffer.length = length → buffer[left * frameBytes]? = some 1 →
        ∃ pData, fillRange buffer ((if bits = 16 then 2 else 4) * (left * frameBytes)) count 0 =
          .ok pData ∧ pData[left * frameBytes]? = some 1 := by
  obtain ⟨start, hstart⟩ : ∃ start, start = (if bits = 16 then 2 else 4) * (left * frameBytes) :=
    ⟨_, rfl⟩
  have hlt : left * frameBytes < start := by split_ifs at hstart <;> omega
  rw [← hstart]
  refine ⟨start + count + numFrames * frameBytes, by omega, by omega, fun buffer hlength hbyte ↦ ?_⟩
  obtain ⟨pData, hfill⟩ : ∃ pData, fillRange buffer start count 0 = .ok pData :=
    ⟨_, if_pos (by omega)⟩
  exact ⟨pData, hfill, (getElem?_of_fillRange hfill hlt).trans hbyte⟩

end Pads

/-- `CRawAudioFileIO::readBlock`. -/
def CRawAudioFileIO.blockReader (s : CRawAudioFileIO) (numFrames : ℕ) : BlockReader :=
  fun target ↦ (s.readBlock (some target) numFrames).map fun result ↦ (result.status, result.pData)

/-- `CWavFileIO::readBlock`. -/
def CWavFileIO.blockReader {α : Type} (conv : SampleConversion α) (s : CWavFileIO α)
    (numFrames : ℕ) : BlockReader :=
  fun target ↦ (s.readBlock conv (some target) numFrames).toOption.map fun result ↦
    (result.status, result.pData)

section Raw

variable {s : CRawAudioFileIO} {content : List UInt8} {frame numFrames : ℕ}

theorem CRawAudioFileIO.blockReader_eq (s : CRawAudioFileIO) (numFrames : ℕ)
    (target : List UInt8) : s.blockReader numFrames target =
      (s.blocks.readBlock (some target) numFrames).map fun result ↦
        (result.status, result.pData) := by
  rw [blockReader, readBlock_eq, Option.map_map]
  rfl

/-- A read that is padded leaves the byte behind the frames as it was, where the memory is large
enough for all its zeros. -/
theorem RawBlocks.Positioned.exists_read {b : RawBlocks} (h : b.Positioned content frame)
    (hlooping : b.m_bUseLoopingRead = false) (hbits : b.PadsBits) (hmore : b.isEOF = false)
    (hsome : frame < b.m_nFramesInFile) (hless : b.m_nFramesInFile - frame < numFrames)
    (hword : numFrames < 2 ^ 32) :
    ∃ length pData after, numFrames * b.m_nFrameSize ≤ length ∧
      b.readBlock (some (List.replicate length 1)) numFrames = some ⟨true, some pData, after⟩ ∧
      pData[(b.m_nFramesInFile - frame) * b.m_nFrameSize]? = some 1 := by
  obtain ⟨left, hleft⟩ : ∃ left, left = b.m_nFramesInFile - frame := ⟨_, rfl⟩
  have hbehind : 0 < left * b.m_nFrameSize :=
    Nat.mul_pos (by omega) (Nat.pos_of_ne_zero h.frameSize)
  obtain ⟨length, hroom, hlength, hpads⟩ := exists_memory b.bits numFrames (intToSize (toInt
    ((numFrames - left) * b.m_nFrameSize * if b.bits = 16 then 2 else 4))) hbehind
  have hframes : (framesFrom b.m_nFrameSize content frame left).length = left * b.m_nFrameSize :=
    length_framesFrom (h.mul_le (by omega))
  have htarget : (b.m_nFramesInFile - frame) * b.m_nFrameSize ≤
      (List.replicate length (1 : UInt8)).length := by
    rw [List.length_replicate, ← hleft]
    exact hlength.le
  have hread := h.readBlock_last hmore hsome hless hword htarget
  rw [← hleft, readBeyond_pads (by exact hlooping) _ _ _ (by exact hbits)] at hread
  obtain ⟨buffer, hbuffer⟩ : ∃ buffer, buffer = framesFrom b.m_nFrameSize content frame left ++
    (List.replicate length 1).drop (left * b.m_nFrameSize) := ⟨_, rfl⟩
  have hsame : buffer.length = length := by
    rw [hbuffer, List.length_append, hframes, List.length_drop, List.length_replicate]
    omega
  have hone : buffer[left * b.m_nFrameSize]? = some 1 := by
    rw [hbuffer, List.getElem?_append_right hframes.le, hframes, Nat.sub_self,
      List.drop_replicate, List.getElem?_replicate_of_lt (by omega)]
  obtain ⟨pData, hfill, hbyte⟩ := hpads buffer hsame hone
  rw [hbuffer] at hfill
  refine ⟨length, pData, b.streamAt content (b.m_nFramesInFile * b.m_nFrameSize), hroom, ?_,
    hleft ▸ hbyte⟩
  rw [hread]
  exact congrArg (Option.map _) (congrArg Except.toOption hfill)

/-- Raw frames are padded exactly only where the read is refused. -/
theorem raw_padsExactly_iff (h : s.blocks.Positioned content frame)
    (hlooping : s.m_bUseLoopingRead = false)
    (hbits : s.m_nBitsPerSample = 16 ∨ s.m_nBitsPerSample = 32)
    (hsome : frame < s.m_nFramesInFile) (hless : s.m_nFramesInFile - frame < numFrames)
    (hword : numFrames < 2 ^ 32) :
    PadsExactly (s.blockReader numFrames)
      (RawBlocks.framesFrom s.m_nFrameSize content frame (s.m_nFramesInFile - frame))
      s.m_nFrameSize (s.m_nFramesInFile - frame) numFrames ↔
        s.m_nFramesInFile ≤ s.m_nCurrentFrameIdx := by
  constructor
  · intro hpads
    by_contra hmore
    obtain ⟨length, pData, after, hroom, hread, hbyte⟩ :=
      h.exists_read hlooping hbits (decide_eq_false hmore) hsome hless hword
    have hinside := h.mul_le (Nat.add_sub_cancel' hsome.le).le
    refine not_padsExactly (RawBlocks.length_framesFrom hinside) (Nat.pos_of_ne_zero h.frameSize)
      hless hroom ?_ hbyte hpads
    rw [s.blockReader_eq, hread]
    rfl
  · intro heof
    apply padsExactly_of_fails
    intro target pData
    rw [s.blockReader_eq, RawBlocks.readBlock_eof (decide_eq_true heof)]
    exact fun hread ↦ Bool.noConfusion (Prod.mk.inj (Option.some.inj hread)).1

end Raw

section Wav

variable {α : Type} {conv : SampleConversion α} {s : CWavFileIO α} {F frame numFrames left : ℕ}

/-- Where the sample size is one for which it pads, the padding is a fill. -/
theorem CWavFileIO.padFrames_eq (hbits : s.m_nBitsPerSample = 16 ∨ s.m_nBitsPerSample = 32)
    (hleft : 0 < left) {buffer pData : List UInt8}
    (hfill : fillRange buffer ((if s.m_nBitsPerSample = 16 then 2 else 4) *
      (left * s.m_nFrameSize)) (intToSize (toInt ((numFrames - left) * s.m_nFrameSize *
        if s.m_nBitsPerSample = 16 then 2 else 4))) 0 = .ok pData) :
    s.padFrames buffer numFrames left = .ok ⟨true, some pData, s⟩ := by
  unfold padFrames
  rw [if_neg (by omega), if_neg (by rintro ⟨h16, h32⟩; exact hbits.elim h16 h32),
    Int.toNat_natCast]
  dsimp only
  rw [hfill]
  rfl

/-- For another sample size, `readBlock` fails. -/
theorem CWavFileIO.padFrames_refused
    (hbits : ¬(s.m_nBitsPerSample = 16 ∨ s.m_nBitsPerSample = 32)) (buffer : List UInt8) :
    s.padFrames buffer numFrames left = .ok ⟨false, some buffer, s⟩ := by
  unfold padFrames
  rw [if_pos (not_or.mp hbits), ite_self]
  rfl

/-- A frame of samples for which `readBlock` pads is as large as what `getSamples` stores of it. -/
theorem CWavFileIO.stored_le_frameSize
    (hsize : s.m_nFrameSize = s.m_numChls * CRawAudioFileIO.sampleBytes s.m_nBitsPerSample)
    (hbits : s.m_nBitsPerSample = 16 ∨ s.m_nBitsPerSample = 32) :
    2 * s.m_numChls ≤ s.m_nFrameSize := by
  rw [hsize]
  rcases hbits with h16 | h32
  · rw [h16]
    exact (Nat.mul_comm ..).le
  · rw [h32]
    exact (Nat.mul_comm ..).le.trans (Nat.mul_le_mul_left _ (by decide))

/-- A read that is padded leaves the byte behind the frames as it was, where the memory is large
enough for all its zeros. -/
theorem CWavFileIO.AtFrame.exists_read (h : s.AtFrame F frame) (conv : SampleConversion α)
    (hlooping : s.m_bUseLoopingRead = false)
    (hbits : s.m_nBitsPerSample = 16 ∨ s.m_nBitsPerSample = 32)
    (hbytes : 2 * s.m_numChls ≤ s.m_nFrameSize) (hsome : frame < F)
    (hless : F - frame < numFrames) :
    ∃ length pData, numFrames * s.m_nFrameSize ≤ length ∧
      s.blockReader conv numFrames (List.replicate length 1) = some (true, some pData) ∧
      pData[(F - frame) * s.m_nFrameSize]? = some 1 := by
  obtain ⟨left, hleft⟩ : ∃ left, left = F - frame := ⟨_, rfl⟩
  have hchannels := h.someChannels
  have hbehind : 0 < left * s.m_nFrameSize := Nat.mul_pos (by omega) (by omega)
  obtain ⟨length, hroom, hlength, hpads⟩ := exists_memory s.m_nBitsPerSample numFrames (intToSize
    (toInt ((numFrames - left) * s.m_nFrameSize * if s.m_nBitsPerSample = 16 then 2 else 4)))
    hbehind
  have hsamples : 2 * s.m_numChls * left ≤ left * s.m_nFrameSize := by
    rw [Nat.mul_comm]
    exact Nat.mul_le_mul_left _ hbytes
  have htarget : min (2 * s.m_numChls * (F - frame)) (2 ^ 33) ≤
      (List.replicate length (1 : UInt8)).length := by
    rw [List.length_replicate, ← hleft]
    omega
  obtain ⟨buffer, hget, hstored⟩ := h.getSamples conv (Nat.add_sub_cancel' hsome.le).le htarget
  have hone : buffer[left * s.m_nFrameSize]? = some 1 := by
    rw [hstored.getElem?_behind (by rw [← hleft]; omega), List.getElem?_replicate_of_lt hlength]
  obtain ⟨pData, hfill, hbyte⟩ := hpads buffer
    (hstored.length_eq.trans List.length_replicate) hone
  have hpad : CWavFileIO.padFrames { s with m_nCurrentFrame := F } buffer numFrames left =
      .ok ⟨true, some pData, { s with m_nCurrentFrame := F }⟩ :=
    CWavFileIO.padFrames_eq (s := { s with m_nCurrentFrame := F }) hbits (by omega) hfill
  refine ⟨length, pData, hroom, ?_, hleft ▸ hbyte⟩
  unfold CWavFileIO.blockReader
  rw [h.readBlock_beyond conv (.inl hsome) hless, hget, ok_bind, if_pos hlooping, ← hleft, hpad]
  rfl

/-- For samples of another size, a read of more frames than are left is never successful. -/
theorem CWavFileIO.AtFrame.blockReader_fails (h : s.AtFrame F frame) (conv : SampleConversion α)
    (hlooping : s.m_bUseLoopingRead = false)
    (hbits : ¬(s.m_nBitsPerSample = 16 ∨ s.m_nBitsPerSample = 32)) (hsome : frame < F)
    (hless : F - frame < numFrames) (target : List UInt8) (pData : Option (List UInt8)) :
    s.blockReader conv numFrames target ≠ some (true, pData) := by
  intro hread
  unfold CWavFileIO.blockReader at hread
  rw [h.readBlock_beyond conv (.inl hsome) hless, Option.map_eq_some_iff] at hread
  obtain ⟨result, hresult, hanswer⟩ := hread
  cases hget : s.getSamples conv target (F - frame) with
  | error _ =>
    rw [hget] at hresult
    cases hresult
  | ok buffer =>
    rw [hget, ok_bind, if_pos hlooping,
      CWavFileIO.padFrames_refused (s := { s with m_nCurrentFrame := F }) hbits] at hresult
    obtain rfl := Option.some.inj hresult
    exact Bool.noConfusion (Prod.mk.inj hanswer).1

/-- WAV frames are padded exactly only where the padding fails. -/
theorem wav_padsExactly_iff (h : s.AtFrame F frame) (conv : SampleConversion α)
    (hlooping : s.m_bUseLoopingRead = false)
    (hsize : s.m_nFrameSize = s.m_numChls * CRawAudioFileIO.sampleBytes s.m_nBitsPerSample)
    (hsome : frame < F) (hless : F - frame < numFrames) {frames : List UInt8}
    (hframes : frames.length = (F - frame) * s.m_nFrameSize) :
    PadsExactly (s.blockReader conv numFrames) frames s.m_nFrameSize (F - frame) numFrames ↔
      ¬(s.m_nBitsPerSample = 16 ∨ s.m_nBitsPerSample = 32) := by
  constructor
  · intro hpads hbits
    have hbytes := CWavFileIO.stored_le_frameSize hsize hbits
    have hchannels := h.someChannels
    obtain ⟨length, pData, hroom, hread, hbyte⟩ :=
      h.exists_read conv hlooping hbits hbytes hsome hless
    exact not_padsExactly hframes (by omega) hless hroom hread hbyte hpads
  · intro hbits
    exact padsExactly_of_fails (h.blockReader_fails conv hlooping hbits hsome hless)

end Wav

/-- Short reads are padded exactly only where none of them is successful: for raw audio where
`isEOF` refuses the call, and for WAV where the samples have neither 16 nor 32 bits. `frames` may be
any bytes of the size of the frames that are left. Assumes: the size of a frame is an
`unsigned int`. -/
theorem readBlock_pads_iff (numFrames : ℕ) :
    (∀ (s : CRawAudioFileIO) (content : List UInt8) (frame : ℕ),
      s.blocks.Positioned content frame → s.m_bUseLoopingRead = false →
      s.m_nBitsPerSample = 16 ∨ s.m_nBitsPerSample = 32 →
      frame < s.m_nFramesInFile → s.m_nFramesInFile - frame < numFrames → numFrames < 2 ^ 32 →
        (PadsExactly (s.blockReader numFrames)
          (RawBlocks.framesFrom s.m_nFrameSize content frame (s.m_nFramesInFile - frame))
          s.m_nFrameSize (s.m_nFramesInFile - frame) numFrames ↔
            s.m_nFramesInFile ≤ s.m_nCurrentFrameIdx)) ∧
    ∀ {α : Type} (conv : SampleConversion α) (s : CWavFileIO α) (F frame : ℕ)
      (frames : List UInt8), s.AtFrame F frame → s.m_bUseLoopingRead = false →
      s.m_nFrameSize = s.m_numChls * CRawAudioFileIO.sampleBytes s.m_nBitsPerSample →
      frame < F → F - frame < numFrames → frames.length = (F - frame) * s.m_nFrameSize →
        (PadsExactly (s.blockReader conv numFrames) frames s.m_nFrameSize (F - frame) numFrames ↔
          ¬(s.m_nBitsPerSample = 16 ∨ s.m_nBitsPerSample = 32)) :=
  ⟨fun _ _ _ h hlooping hbits hsome hless hword ↦
      raw_padsExactly_iff h hlooping hbits hsome hless hword,
    fun conv _ _ _ _ h hlooping hsize hsome hless hframes ↦
      wav_padsExactly_iff h conv hlooping hsize hsome hless hframes⟩

theorem positioned_monoAtFirst : (monoAtFirst 16 [1, 0]).blocks.Positioned [1, 0] 0 :=
  ⟨⟨rfl, by decide, rfl, rfl, rfl, by decide, Nat.zero_le _⟩, rfl, rfl⟩

theorem atFrame_frameFile (sample : ℤ) : (frameFile sample).AtFrame 1 0 where
  mode h := eFileIoMode_def.noConfusion h
  someChannels := le_rfl
  channels := rfl
  lengths _ hchannel := List.mem_singleton.mp hchannel ▸ rfl
  framesInFile := rfl
  currentFrame := rfl
  frame_le := Nat.zero_le 1

/-- The frame index says that the file is at its end. -/
def monoIndexed : CRawAudioFileIO := { monoAtFirst 16 [1, 0] with m_nCurrentFrameIdx := 1 }

/-- A WAV file of one frame with 8 bits. -/
def byteFile : CWavFileIO ℤ := { frameFile 7 with m_nBitsPerSample := 8, m_nFrameSize := 1 }

/-- A raw file that `isEOF` refuses, and a WAV file with 8 bits. -/
theorem readBlock_pads_iff_refused :
    PadsExactly (monoIndexed.blockReader 2) [1, 0] 2 1 2 ∧
    PadsExactly (byteFile.blockReader integerConversion 2) [7] 1 1 2 := by
  constructor
  · exact ((readBlock_pads_iff 2).1 monoIndexed [1, 0] 0 { positioned_monoAtFirst with } rfl
      (.inl rfl) (by decide) (by decide) (by decide)).mpr (by decide)
  · exact ((readBlock_pads_iff 2).2 integerConversion byteFile 1 0 [7]
      { atFrame_frameFile 7 with } rfl rfl (by decide) (by decide) rfl).mpr (by decide)

/-- One frame of a raw file, and one of a WAV file, before a frame of zeros: the bytes behind the
frame are not touched, and those behind both are. -/
theorem padding_is_misplaced :
    ((monoAtFirst 16 [1, 0]).blocks.Positioned [1, 0] 0 ∧
      (monoAtFirst 16 [1, 0]).m_bUseLoopingRead = false ∧
      ¬PadsExactly ((monoAtFirst 16 [1, 0]).blockReader 2) [1, 0] 2 1 2) ∧
    (frameFile 7).AtFrame 1 0 ∧ (frameFile 7).m_bUseLoopingRead = false ∧
      ¬PadsExactly ((frameFile 7).blockReader integerConversion 2) [7, 0] 2 1 2 := by
  refine ⟨⟨positioned_monoAtFirst, rfl, fun hpads ↦ ?_⟩, atFrame_frameFile 7, rfl, fun hpads ↦ ?_⟩
  · have hread : (monoAtFirst 16 [1, 0]).blockReader 2 [9, 9, 9, 9, 9, 9, 9, 9] =
        some (true, some [1, 0, 9, 9, 0, 0, 0, 0]) := by decide
    exact absurd (hpads _ _ (by decide) hread) (by decide)
  · have hread : (frameFile 7).blockReader integerConversion 2 [9, 9, 9, 9, 9, 9, 9, 9] =
        some (true, some [7, 0, 9, 9, 0, 0, 0, 0]) := by decide
    exact absurd (hpads _ _ (by decide) hread) (by decide)

end RdbLibs.FileIO
