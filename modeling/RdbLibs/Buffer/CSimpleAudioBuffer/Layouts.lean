import RdbLibs.Buffer.CSimpleAudioBuffer.Model
import RdbLibs.Foundations.GridLayout

/-!
# The layouts of a `CSimpleAudioBuffer`

The samples of a buffer are a grid with a row for each channel and a column for each frame. An
interleaved buffer keeps it in column-major order, the other in row-major order. `Stores` says that
a buffer is allocated and holds a grid in its layout: `alloc` stores zeros, `setSample` updates an
entry and `getSample` answers it. So two buffers that receive the same samples answer the same,
whatever their layouts.
-/

set_option autoImplicit false
set_option relaxedAutoImplicit false

namespace RdbLibs.Buffer.CSimpleAudioBuffer

open CheckedMemory GridLayout MachineWord

variable {T : Type*}

/-- Where a buffer keeps the sample of a channel and a frame. -/
def layout (bInterleaved : Bool) (numChls blockSize : ℕ) : Layout numChls blockSize :=
  if bInterleaved then columnMajor numChls blockSize else rowMajor numChls blockSize

/-- The buffer is allocated and holds a grid of samples. -/
structure Stores (b : CSimpleAudioBuffer T) (grid : ℕ → ℕ → T) : Prop where
  fits : b.m_numChls * b.m_blockSize < 2 ^ 32
  arraySize : b.m_arraySize = b.m_numChls * b.m_blockSize
  allocated : b.m_bAllocated = true
  holds : ∃ cells, b.m_pBuffer = some cells ∧
    Holds (layout b.m_bInterleaved b.m_numChls b.m_blockSize) cells grid

/-- A buffer that a successful call of `alloc` has left. -/
def Allocates [Zero T] (b : CSimpleAudioBuffer T) : Prop :=
  ∃ (before : CSimpleAudioBuffer T) (blockSize : ℕ) (granted : Bool),
    before.alloc blockSize granted = (true, b)

theorem Allocates.stores [Zero T] {b : CSimpleAudioBuffer T} (h : b.Allocates)
    (hfits : b.m_numChls * b.m_blockSize < 2 ^ 32) : b.Stores fun _ _ ↦ 0 := by
  obtain ⟨before, blockSize, granted, halloc⟩ := h
  unfold alloc at halloc
  dsimp only at halloc
  generalize (if 0 < blockSize then { before with m_blockSize := blockSize } else before) = sized
    at halloc
  split_ifs at halloc with hblock hchannels hgranted
  · cases halloc
  · cases halloc
  · obtain rfl := (Prod.ext_iff.mp halloc).2
    have hsize : toUnsigned (sized.m_blockSize * sized.m_numChls) =
        sized.m_numChls * sized.m_blockSize := by
      rw [Nat.mul_comm]
      exact toUnsigned_of_lt hfits
    refine ⟨hfits, hsize, rfl, _, rfl, ?_⟩
    dsimp only
    rw [hsize]
    exact .replicate _ 0
  · cases halloc

/-! ### One call -/

namespace Stores

variable {b : CSimpleAudioBuffer T} {grid : ℕ → ℕ → T} (h : b.Stores grid) {chan frame : ℕ}
include h

theorem not_refuses (hchan : chan < b.m_numChls) (hframe : frame < b.m_blockSize) :
    ¬b.Refuses chan frame := by
  unfold Refuses
  rw [h.allocated]
  simp only [Bool.true_eq_false, or_false]
  omega

theorem offset_eq (hchan : chan < b.m_numChls) (hframe : frame < b.m_blockSize) :
    b.offset chan frame = (layout b.m_bInterleaved b.m_numChls b.m_blockSize).cell chan frame := by
  have hlt (bInterleaved : Bool) :
      (layout bInterleaved b.m_numChls b.m_blockSize).cell chan frame < 2 ^ 32 :=
    (Layout.cell_lt _ hchan hframe).trans h.fits
  unfold offset
  cases b.m_bInterleaved with
  | true => exact toUnsigned_of_lt (hlt true)
  | false => exact toUnsigned_of_lt (hlt false)

theorem offset_lt (hchan : chan < b.m_numChls) (hframe : frame < b.m_blockSize) :
    b.offset chan frame < b.m_arraySize := by
  rw [h.offset_eq hchan hframe, h.arraySize]
  exact Layout.cell_lt _ hchan hframe

/-- `getSample` answers the entry of the grid. -/
theorem getSample_eq [Zero T] (hchan : chan < b.m_numChls) (hframe : frame < b.m_blockSize) :
    b.getSample chan frame = .ok (grid chan frame) := by
  obtain ⟨cells, hcells, hholds⟩ := h.holds
  rw [getSample, if_neg (h.not_refuses hchan hframe),
    if_neg (not_le.mpr (h.offset_lt hchan hframe)), block, hcells, h.offset_eq hchan hframe,
    ok_bind, load, hholds.entry hchan hframe]

/-- `setSample` updates the entry of the grid. -/
theorem exists_setSample (hchan : chan < b.m_numChls) (hframe : frame < b.m_blockSize) (value : T) :
    ∃ cells, b.setSample chan frame value = .ok { b with m_pBuffer := some cells } ∧
      Stores { b with m_pBuffer := some cells } (update grid chan frame value) := by
  obtain ⟨cells, hcells, hholds⟩ := h.holds
  have hlt : b.offset chan frame < cells.length := by
    rw [hholds.length, ← h.arraySize]
    exact h.offset_lt hchan hframe
  refine ⟨cells.set (b.offset chan frame) value, ?_, h.fits, h.arraySize, h.allocated, _, rfl, ?_⟩
  · rw [setSample, if_neg (h.not_refuses hchan hframe),
      if_neg (not_le.mpr (h.offset_lt hchan hframe)), block, hcells, ok_bind, store_of_lt hlt]
    rfl
  · rw [h.offset_eq hchan hframe]
    exact hholds.set hchan hframe value

/-- `clear` stores zeros. -/
theorem exists_clear [Zero T] :
    ∃ b', b.clear = .ok b' ∧ b'.m_numChls = b.m_numChls ∧ b'.m_blockSize = b.m_blockSize ∧
      b'.Stores fun _ _ ↦ 0 := by
  obtain ⟨cells, hcells, hholds⟩ := h.holds
  have hlength : cells.length = b.m_arraySize := hholds.length.trans h.arraySize.symm
  rw [clear, if_neg (by simp [h.allocated])]
  split_ifs with hempty
  · refine ⟨b, rfl, rfl, rfl, h.fits, h.arraySize, h.allocated, cells, hcells, hholds.length, ?_⟩
    intro chan frame hchan hframe
    have hlt := h.offset_lt hchan hframe
    omega
  · have hfill :
        fillRange cells 0 b.m_arraySize 0 = .ok (List.replicate b.m_arraySize (0 : T)) := by
      have hmiddle := @fillRange_middle T [] cells 0 [] rfl _ hlength 0
      simpa using hmiddle
    refine ⟨{ b with
      m_pBuffer := some (List.replicate b.m_arraySize 0), m_readIdx := 0, m_writeIdx := 0 },
      ?_, rfl, rfl, h.fits, h.arraySize, h.allocated, _, rfl, ?_⟩
    · rw [block, hcells, ok_bind, hfill]
      rfl
    · rw [h.arraySize]
      exact .replicate _ 0

end Stores

/-! ### Sequences of calls -/

/-- The calls that change samples. -/
inductive SampleCall (T : Type*)
  | setSample (chan frame : ℕ) (value : T)
  | clear

/-- The sample is in a buffer of the given size. -/
def SampleCall.InRange (numChls blockSize : ℕ) : SampleCall T → Prop
  | .setSample chan frame _ => chan < numChls ∧ frame < blockSize
  | .clear => True

/-- A buffer after a call. -/
def apply [Zero T] (b : CSimpleAudioBuffer T) :
    SampleCall T → Except Fault (CSimpleAudioBuffer T)
  | .setSample chan frame value => b.setSample chan frame value
  | .clear => b.clear

/-- A buffer after a sequence of calls. -/
def applyAll [Zero T] (b : CSimpleAudioBuffer T) (calls : List (SampleCall T)) :
    Except Fault (CSimpleAudioBuffer T) := calls.foldlM apply b

/-- What a call makes of a grid of samples. -/
def SampleCall.write [Zero T] (grid : ℕ → ℕ → T) : SampleCall T → ℕ → ℕ → T
  | .setSample chan frame value => update grid chan frame value
  | .clear => fun _ _ ↦ 0

/-- The last value that was set for a channel and a frame since the samples were cleared. -/
def lastSample [Zero T] (calls : List (SampleCall T)) : ℕ → ℕ → T :=
  calls.foldl SampleCall.write fun _ _ ↦ 0

variable [Zero T] {b : CSimpleAudioBuffer T} {grid : ℕ → ℕ → T}

theorem Stores.exists_apply (h : b.Stores grid) {call : SampleCall T}
    (hrange : call.InRange b.m_numChls b.m_blockSize) :
    ∃ b', b.apply call = .ok b' ∧ b'.m_numChls = b.m_numChls ∧ b'.m_blockSize = b.m_blockSize ∧
      b'.Stores (call.write grid) := by
  cases call with
  | setSample chan frame value =>
    obtain ⟨cells, hset, hstores⟩ := h.exists_setSample hrange.1 hrange.2 value
    exact ⟨_, hset, rfl, rfl, hstores⟩
  | clear => exact h.exists_clear

/-- After a sequence of calls a buffer stores the grid that they have written. -/
theorem Stores.exists_applyAll (calls : List (SampleCall T)) :
    ∀ {b : CSimpleAudioBuffer T} {grid : ℕ → ℕ → T}, b.Stores grid →
      (∀ call ∈ calls, call.InRange b.m_numChls b.m_blockSize) →
      ∃ b', b.applyAll calls = .ok b' ∧ b'.m_numChls = b.m_numChls ∧
        b'.m_blockSize = b.m_blockSize ∧ b'.Stores (calls.foldl SampleCall.write grid) := by
  induction calls with
  | nil => exact fun h _ ↦ ⟨_, rfl, rfl, rfl, h⟩
  | cons call calls ih =>
    intro b grid h hrange
    rw [List.forall_mem_cons] at hrange
    obtain ⟨middle, hfirst, hchannels, hblock, hmiddle⟩ := h.exists_apply hrange.1
    obtain ⟨b', hrest, hchannels', hblock', hstores⟩ :=
      ih hmiddle (by rw [hchannels, hblock]; exact hrange.2)
    refine ⟨b', ?_, hchannels'.trans hchannels, hblock'.trans hblock, hstores⟩
    rw [applyAll, List.foldlM_cons, hfirst]
    exact hrest

/-- A buffer that was allocated and has received samples answers the last one of each channel and
frame. -/
theorem Allocates.getSample_applyAll (h : b.Allocates)
    (hfits : b.m_numChls * b.m_blockSize < 2 ^ 32) {calls : List (SampleCall T)}
    (hrange : ∀ call ∈ calls, call.InRange b.m_numChls b.m_blockSize) :
    ∃ b', b.applyAll calls = .ok b' ∧ ∀ chan < b.m_numChls, ∀ frame < b.m_blockSize,
      b'.getSample chan frame = .ok (lastSample calls chan frame) := by
  obtain ⟨b', hcalls, hchannels, hblock, hstores⟩ := (h.stores hfits).exists_applyAll calls hrange
  refine ⟨b', hcalls, fun chan hchan frame hframe ↦ ?_⟩
  exact hstores.getSample_eq (hchan.trans_eq hchannels.symm) (hframe.trans_eq hblock.symm)

/-- Assumes: an interleaved buffer and one that is not are allocated with the same numbers of
channels and frames, whose product is an `unsigned int`. After the same sequence of samples inside
the buffer, both answer for each channel and frame the last value that was set. -/
theorem samples_layout_independent {numChls blockSize : ℕ}
    (hfits : numChls * blockSize < 2 ^ 32) {interleaved planar : CSimpleAudioBuffer T}
    (hinterleaved : interleaved.Allocates ∧ interleaved.m_bInterleaved = true ∧
      interleaved.m_numChls = numChls ∧ interleaved.m_blockSize = blockSize)
    (hplanar : planar.Allocates ∧ planar.m_bInterleaved = false ∧
      planar.m_numChls = numChls ∧ planar.m_blockSize = blockSize)
    (calls : List (SampleCall T)) (hrange : ∀ call ∈ calls, call.InRange numChls blockSize) :
    ∃ interleaved' planar', interleaved.applyAll calls = .ok interleaved' ∧
      planar.applyAll calls = .ok planar' ∧ ∀ chan < numChls, ∀ frame < blockSize,
        interleaved'.getSample chan frame = .ok (lastSample calls chan frame) ∧
          planar'.getSample chan frame = .ok (lastSample calls chan frame) := by
  obtain ⟨halloc, -, rfl, rfl⟩ := hinterleaved
  obtain ⟨halloc', -, hchannels, hblock⟩ := hplanar
  obtain ⟨interleaved', hcalls, hsamples⟩ := halloc.getSample_applyAll hfits hrange
  rw [← hchannels, ← hblock] at hfits hrange hsamples ⊢
  obtain ⟨planar', hcalls', hsamples'⟩ := halloc'.getSample_applyAll hfits hrange
  exact ⟨interleaved', planar', hcalls, hcalls', fun chan hchan frame hframe ↦
    ⟨hsamples chan hchan frame hframe, hsamples' chan hchan frame hframe⟩⟩

theorem samples_layout_independent_two :
    ∃ interleaved' planar' : CSimpleAudioBuffer ℕ,
      (((new true).setSize 2 3).alloc 0 true).2.applyAll
        [.setSample 1 2 7, .clear, .setSample 0 1 5] = .ok interleaved' ∧
      (((new false).setSize 2 3).alloc 0 true).2.applyAll
        [.setSample 1 2 7, .clear, .setSample 0 1 5] = .ok planar' ∧
      ∀ chan < 2, ∀ frame < 3,
        interleaved'.getSample chan frame =
          .ok (lastSample [.setSample 1 2 7, .clear, .setSample 0 1 5] chan frame) ∧
        planar'.getSample chan frame =
          .ok (lastSample [.setSample 1 2 7, .clear, .setSample 0 1 5] chan frame) :=
  @samples_layout_independent ℕ _ 2 3 (by decide) _ _
    ⟨⟨(new true).setSize 2 3, 0, true, rfl⟩, rfl, rfl, rfl⟩
    ⟨⟨(new false).setSize 2 3, 0, true, rfl⟩, rfl, rfl, rfl⟩ _ (by simp [SampleCall.InRange])

end RdbLibs.Buffer.CSimpleAudioBuffer
