import RdbLibs.FileIO.CWavFileIO.SampleStorage
import RdbLibs.Foundations.BlockAccess
import RdbLibs.Foundations.BlockBuffer

/-!
# The frames that `getSamples` stores

`getSamples` goes through the channels of each frame, and stores the converted samples one behind
the other. It counts them in an `unsigned int`. So it stores frames as long as there are no more
samples than this type counts; what comes then goes to the beginning of the memory again, and what
is behind the samples that can be counted is never touched.
-/

set_option autoImplicit false
set_option relaxedAutoImplicit false

namespace RdbLibs.FileIO.CWavFileIO

open BlockAccess BlockBuffer ByteCodec CheckedLoop CheckedMemory MachineWord

variable {α : Type} {conv : SampleConversion α} {s : CWavFileIO α} {samples : List (List α)}

/-- The converted sample of a channel in a frame. -/
def convertedSample (conv : SampleConversion α) (samples : List (List α)) (frame chl : ℕ) :
    BitVec 16 :=
  match sampleAt samples chl frame with
  | .ok sample => conv.ConvertFloatToInt16 sample
  | .error _ => 0

/-- The bytes that `readBlock` stores for a frame. -/
def frameBytes (conv : SampleConversion α) (samples : List (List α)) (numChls f : ℕ) :
    List UInt8 :=
  (List.range numChls).flatMap fun chl ↦ littleEndian 2 (convertedSample conv samples f chl).toNat

theorem length_frameBytes (samples : List (List α)) (numChls f : ℕ) :
    (frameBytes conv samples numChls f).length = 2 * numChls :=
  length_flatMap_range fun _ _ ↦ length_littleEndian 2 _

theorem exists_sampleAt {chl : ℕ} {frame : ℤ} (hstored : IsStored samples chl frame) :
    ∃ sample, sampleAt samples chl frame = .ok sample := by
  obtain ⟨hpos, channel, hchannel, hlt⟩ := hstored
  have hframe : frame.toNat < channel.length := by omega
  refine ⟨channel[frame.toNat], ?_⟩
  rw [sampleAt, if_neg (Int.not_lt.mpr hpos), hchannel]
  simp only [List.getElem?_eq_getElem hframe]

/-- `getSamples` has emitted some bytes into memory that was `pData`: its offset counts their
samples, it has them stored as far as they can be counted, and the rest of the memory is as it was.
-/
structure Emitted (pData front : List UInt8) (target : List UInt8 × ℕ) : Prop where
  length_eq : target.1.length = pData.length
  offset_eq : target.2 = toUnsigned (front.length / 2)
  even : 2 ∣ front.length
  stored : front.length ≤ 2 ^ 33 → target.1.take front.length = front
  behind : target.1.drop (min front.length (2 ^ 33)) = pData.drop (min front.length (2 ^ 33))

theorem Emitted.start (pData : List UInt8) : Emitted pData [] (pData, 0) :=
  ⟨rfl, rfl, Nat.dvd_zero 2, fun _ ↦ rfl, rfl⟩

/-- The two bytes of a sample are emitted behind the others. -/
theorem Emitted.store {pData front bytes : List UInt8} {target : List UInt8 × ℕ}
    (h : Emitted pData front target) (hbytes : bytes.length = 2)
    (hroom : min (front.length + 2) (2 ^ 33) ≤ pData.length) :
    ∃ stored, storeRange target.1 (2 * target.2) bytes = .ok stored ∧
      Emitted pData (front ++ bytes) (stored, toUnsigned (target.2 + 1)) := by
  obtain ⟨hlength, hoffset, heven, hstored, hbehind⟩ := h
  obtain ⟨count, hcount⟩ := heven
  have hhalf : front.length / 2 = count := by omega
  rw [hhalf] at hoffset
  have hle : target.2 ≤ count ∧ target.2 < 2 ^ 32 :=
    hoffset ▸ ⟨Nat.mod_le count _, toUnsigned_lt count⟩
  have hinside : 2 * target.2 + bytes.length ≤ target.1.length := by omega
  have hall : (front ++ bytes).length = 2 * count + 2 := by
    rw [List.length_append, hbytes, hcount]
  have hwrite := overwrite_eq hinside
  refine ⟨_, if_pos hinside, ?_, ?_, ?_, ?_, ?_⟩
  · rw [← hwrite, length_overwrite, hlength]
  · have hnext : (front ++ bytes).length / 2 = count + 1 := by omega
    rw [hnext, hoffset, toUnsigned, toUnsigned, toUnsigned, Nat.mod_add_mod]
  · exact ⟨count + 1, by omega⟩
  · intro hsmall
    rw [hall] at hsmall
    have hexact : target.2 = count := hoffset.trans (toUnsigned_of_lt (by omega))
    have hend : (front ++ bytes).length = 2 * target.2 + bytes.length := by omega
    have hfront : 2 * target.2 = front.length := by omega
    rw [← hwrite, hend, take_overwrite_end hinside, hfront, hstored (by omega)]
  · have hlater : min front.length (2 ^ 33) ≤ min (front ++ bytes).length (2 ^ 33) := by omega
    obtain ⟨more, hmore⟩ := Nat.exists_eq_add_of_le hlater
    rw [← hwrite, drop_overwrite hinside (by omega), hmore, ← List.drop_drop, hbehind,
      List.drop_drop]

/-- The body of the inner loop emits a sample. -/
theorem getSample_emitted {pData front : List UInt8} {target : List UInt8 × ℕ} {chl frame : ℕ}
    (hsample : IsStored s.samples chl frame) (h : Emitted pData front target)
    (hroom : min (front.length + 2) (2 ^ 33) ≤ pData.length) :
    ∃ next, s.getSample conv frame target chl = .ok next ∧
      Emitted pData (front ++ littleEndian 2 (convertedSample conv s.samples frame chl).toNat)
        next := by
  obtain ⟨sample, hsample⟩ := exists_sampleAt hsample
  have hconverted : convertedSample conv s.samples frame chl =
      conv.ConvertFloatToInt16 sample := by
    rw [convertedSample, hsample]
  rw [hconverted]
  obtain ⟨stored, hstore, hnext⟩ := h.store
    (length_littleEndian 2 (conv.ConvertFloatToInt16 sample).toNat) hroom
  refine ⟨_, ?_, hnext⟩
  unfold getSample
  rw [hsample, ok_bind, hstore]
  rfl

/-- The inner loop emits a frame. -/
theorem getFrame_emitted {pData front : List UInt8} {target : List UInt8 × ℕ} {f capacity : ℕ}
    (hsamples : ∀ chl < s.m_numChls, IsStored s.samples chl f) (h : Emitted pData front target)
    (hfits : front.length + 2 * s.m_numChls ≤ capacity)
    (hroom : min capacity (2 ^ 33) ≤ pData.length) :
    ∃ next, (List.range s.m_numChls).foldlM (s.getSample conv f) target = .ok next ∧
      Emitted pData (front ++ frameBytes conv s.samples s.m_numChls f) next := by
  have hframe : front.length + (frameBytes conv s.samples s.m_numChls f).length ≤ capacity := by
    rwa [length_frameBytes]
  refine exists_foldlM_emits (Emitted pData) (fun chl hchl front target h hnext ↦ ?_) h hframe
  rw [length_littleEndian] at hnext
  exact getSample_emitted (hsamples chl (List.mem_range.mp hchl)) h (by omega)

/-- What `getSamples` leaves of the memory, from the frame `start` on. -/
structure StoresFrames (conv : SampleConversion α) (s : CWavFileIO α) (start numFrames : ℕ)
    (pData buffer : List UInt8) : Prop where
  length_eq : buffer.length = pData.length
  stored : 2 * s.m_numChls * numFrames ≤ 2 ^ 33 → buffer.take (2 * s.m_numChls * numFrames) =
    (List.range numFrames).flatMap fun i ↦ frameBytes conv s.samples s.m_numChls (start + i)
  behind : buffer.drop (min (2 * s.m_numChls * numFrames) (2 ^ 33)) =
    pData.drop (min (2 * s.m_numChls * numFrames) (2 ^ 33))

/-- What is behind the frames is as it was. -/
theorem StoresFrames.getElem?_behind {start numFrames : ℕ} {pData buffer : List UInt8}
    (h : StoresFrames conv s start numFrames pData buffer) {k : ℕ}
    (hk : min (2 * s.m_numChls * numFrames) (2 ^ 33) ≤ k) : buffer[k]? = pData[k]? := by
  have hbyte := congrArg
    (·[k - min (2 * s.m_numChls * numFrames) (2 ^ 33)]?) h.behind
  simpa only [List.getElem?_drop, Nat.add_sub_cancel' hk] using hbyte

/-- One of the frames that were stored. -/
theorem StoresFrames.frame {first numFrames : ℕ} {pData buffer : List UInt8}
    (h : StoresFrames conv s first numFrames pData buffer)
    (hroom : 2 * s.m_numChls * numFrames ≤ pData.length)
    (hsmall : s.m_numChls * numFrames ≤ 2 ^ 32) {i : ℕ} (hi : i < numFrames) :
    (buffer.drop (2 * s.m_numChls * i)).take (2 * s.m_numChls) =
      frameBytes conv s.samples s.m_numChls (first + i) := by
  have hstored := h.stored (by rw [Nat.mul_assoc]; omega)
  rw [← h.length_eq] at hroom
  exact ((flatMap_range_eq_take_iff (fun i _ ↦ length_frameBytes s.samples s.m_numChls (first + i))
    hroom).mp hstored.symm i hi).symm

/-- `getSamples` stores the frames one behind the other. -/
theorem getSamples_stored {pData : List UInt8} {start numFrames : ℕ}
    (hcurrent : s.m_nCurrentFrame = start)
    (hsamples : ∀ i < numFrames, ∀ chl < s.m_numChls, IsStored s.samples chl (start + i : ℕ))
    (hroom : min (2 * s.m_numChls * numFrames) (2 ^ 33) ≤ pData.length) :
    ∃ buffer, s.getSamples conv pData numFrames = .ok buffer ∧
      StoresFrames conv s start numFrames pData buffer := by
  have hlength : ((List.range numFrames).flatMap fun i ↦
      frameBytes conv s.samples s.m_numChls (start + i)).length = 2 * s.m_numChls * numFrames :=
    length_flatMap_range fun i _ ↦ length_frameBytes s.samples s.m_numChls (start + i)
  have hfits : ([] : List UInt8).length + ((List.range numFrames).flatMap fun i ↦
      frameBytes conv s.samples s.m_numChls (start + i)).length ≤
        2 * s.m_numChls * numFrames := by
    rw [hlength, List.length_nil, Nat.zero_add]
  have hloops : ∃ final, (List.range numFrames).foldlM (fun target (i : ℕ) ↦
      (List.range s.m_numChls).foldlM (s.getSample conv (s.m_nCurrentFrame + i)) target)
        (pData, 0) = .ok final ∧ Emitted pData ([] ++ (List.range numFrames).flatMap fun i ↦
          frameBytes conv s.samples s.m_numChls (start + i)) final := by
    refine exists_foldlM_emits (Emitted pData) (fun i hi front target h hnext ↦ ?_)
      (.start pData) hfits
    rw [length_frameBytes] at hnext
    rw [hcurrent, ← Nat.cast_add]
    exact getFrame_emitted (hsamples i (List.mem_range.mp hi)) h hnext hroom
  obtain ⟨⟨buffer, offset⟩, hfinal, hemitted⟩ := hloops
  rw [List.nil_append] at hemitted
  refine ⟨buffer, ?_, hemitted.length_eq, fun hsmall ↦ ?_, ?_⟩
  · unfold getSamples
    rw [hfinal]
    rfl
  · rw [← hlength] at hsmall ⊢
    exact hemitted.stored hsmall
  · rw [← hlength]
    exact hemitted.behind

end RdbLibs.FileIO.CWavFileIO
