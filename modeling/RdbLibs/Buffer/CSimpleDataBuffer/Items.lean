import RdbLibs.Buffer.GrantedBlocks
import RdbLibs.Foundations.GridLayout

/-!
# The items of a `CSimpleDataBuffer`

The items of a buffer are a grid with a row for each item of a frame and a column for each frame, in
column-major order. `setSample` updates an entry of the grid. `getData` compares the frame with the
number of items in a frame, where `setSample` compares the item. So it answers the entries of all
frames up to that number, and zero for the frames behind (`getData_setSamples_iff`).
-/

set_option autoImplicit false
set_option relaxedAutoImplicit false

namespace RdbLibs.Buffer.CSimpleDataBuffer

open BlockHeap CheckedMemory GridLayout MachineWord

variable {T : Type*} {b : CSimpleDataBuffer T} {grid : ℕ → ℕ → T}

/-- The buffer is allocated and holds a grid of items. -/
structure Stores (b : CSimpleDataBuffer T) (grid : ℕ → ℕ → T) : Prop where
  fits : b.m_frameSize * b.m_blockSize < 2 ^ 32
  holds : ∃ cells, b.Granted cells ∧ Holds (columnMajor b.m_frameSize b.m_blockSize) cells grid

theorem Granted.arraySize_eq {cells : List T} (h : b.Granted cells)
    (hfits : b.m_frameSize * b.m_blockSize < 2 ^ 32) :
    b.m_arraySize = b.m_frameSize * b.m_blockSize := by
  rw [h.arraySize, Nat.mul_comm, toUnsigned_of_lt hfits]

/-- `alloc` stores zeros. -/
theorem Stores.of_alloc [Zero T] {before : CSimpleDataBuffer T} {blockSize : ℕ} {granted : Bool}
    (halloc : before.alloc blockSize granted = (true, b))
    (hfits : b.m_frameSize * b.m_blockSize < 2 ^ 32) : b.Stores fun _ _ ↦ 0 := by
  have hgranted := Granted.of_alloc halloc
  refine ⟨hfits, _, hgranted, ?_⟩
  rw [hgranted.arraySize_eq hfits]
  exact .replicate _ 0

/-! ### One call -/

namespace Stores

variable (h : b.Stores grid) {idx frame : ℕ} (hidx : idx < b.m_frameSize)
  (hframe : frame < b.m_blockSize)
include h hidx hframe

theorem offset_eq : b.offset idx frame = (columnMajor b.m_frameSize b.m_blockSize).cell idx frame :=
  toUnsigned_of_lt ((Layout.cell_lt (columnMajor _ _) hidx hframe).trans h.fits)

theorem offset_lt : b.offset idx frame < b.m_arraySize := by
  obtain ⟨cells, hgranted, -⟩ := h.holds
  rw [h.offset_eq hidx hframe, hgranted.arraySize_eq h.fits]
  exact Layout.cell_lt _ hidx hframe

/-- `setSample` updates the entry of the grid. -/
theorem exists_setSample (value : T) :
    ∃ b', b.setSample idx frame value = .ok b' ∧ b'.m_frameSize = b.m_frameSize ∧
      b'.m_blockSize = b.m_blockSize ∧ b'.Stores (update grid idx frame value) := by
  obtain ⟨cells, hgranted, hholds⟩ := h.holds
  have hoffset := h.offset_lt hidx hframe
  have hlt : b.offset idx frame < cells.length := hgranted.length ▸ hoffset
  have hnot : ¬b.RefusesSet idx frame := by
    rw [hgranted.refusesSet_iff]
    omega
  refine ⟨b.setBlock (cells.set (b.offset idx frame) value), ?_, by simp, by simp, ?_, _,
    hgranted.setBlock List.length_set, ?_⟩
  · rw [setSample, if_neg hnot, if_neg (not_le.mpr hoffset), hgranted.block_eq, ok_bind,
      store_of_lt hlt]
    rfl
  · simpa using h.fits
  · rw [m_frameSize_setBlock, m_blockSize_setBlock, h.offset_eq hidx hframe]
    exact hholds.set hidx hframe value

/-- `getData` answers the entry of the grid for the frames up to the number of items. -/
theorem getData_eq [Zero T] :
    b.getData idx frame = .ok (if frame ≤ b.m_frameSize then grid idx frame else 0) := by
  obtain ⟨cells, hgranted, hholds⟩ := h.holds
  have hrefuses : b.RefusesGet frame ↔ ¬frame ≤ b.m_frameSize := by
    rw [hgranted.refusesGet_iff]
    omega
  rw [getData, if_neg (not_le.mpr (h.offset_lt hidx hframe)), hgranted.block_eq, ok_bind,
    h.offset_eq hidx hframe, load, hholds.entry hidx hframe]
  by_cases hlarge : frame ≤ b.m_frameSize
  · rw [if_neg (hrefuses.not.mpr (not_not.mpr hlarge)), if_pos hlarge]
    rfl
  · rw [if_pos (hrefuses.mpr hlarge), if_neg hlarge]

end Stores

/-! ### Sequences of calls -/

/-- The arguments of a call of `setSample`. -/
structure SetCall (T : Type*) where
  idx : ℕ
  frame : ℕ
  value : T

/-- A buffer after a sequence of calls of `setSample`. -/
def setSamples (b : CSimpleDataBuffer T) (calls : List (SetCall T)) :
    Except HeapFault (CSimpleDataBuffer T) :=
  calls.foldlM (fun b call ↦ b.setSample call.idx call.frame call.value) b

/-- The last value that was set for an item and a frame, or zero. -/
def lastItem [Zero T] (calls : List (SetCall T)) : ℕ → ℕ → T :=
  calls.foldl (fun grid call ↦ update grid call.idx call.frame call.value) fun _ _ ↦ 0

/-- After a sequence of calls a buffer stores the grid that they have written. -/
theorem Stores.exists_setSamples (calls : List (SetCall T)) :
    ∀ {b : CSimpleDataBuffer T} {grid : ℕ → ℕ → T}, b.Stores grid →
      (∀ call ∈ calls, call.idx < b.m_frameSize ∧ call.frame < b.m_blockSize) →
      ∃ b', b.setSamples calls = .ok b' ∧ b'.m_frameSize = b.m_frameSize ∧
        b'.m_blockSize = b.m_blockSize ∧
          b'.Stores (calls.foldl (fun grid call ↦ update grid call.idx call.frame call.value)
            grid) := by
  induction calls with
  | nil => exact fun h _ ↦ ⟨_, rfl, rfl, rfl, h⟩
  | cons call calls ih =>
    intro b grid h hrange
    rw [List.forall_mem_cons] at hrange
    obtain ⟨middle, hfirst, hframe, hblock, hmiddle⟩ :=
      h.exists_setSample hrange.1.1 hrange.1.2 call.value
    obtain ⟨b', hrest, hframe', hblock', hstores⟩ :=
      ih hmiddle (by rw [hframe, hblock]; exact hrange.2)
    refine ⟨b', ?_, hframe'.trans hframe, hblock'.trans hblock, hstores⟩
    rw [setSamples, List.foldlM_cons, hfirst]
    exact hrest

/-- Assumes: a buffer is allocated, and its number of items is an `unsigned int`. After a sequence
of calls of `setSample` inside the buffer, `getData` answers the last value exactly for the frames
up to the number of items in a frame, and for the items whose last value is zero. -/
theorem getData_setSamples_iff [Zero T] {before b : CSimpleDataBuffer T} {blockSize : ℕ}
    {granted : Bool} (halloc : before.alloc blockSize granted = (true, b))
    (hfits : b.m_frameSize * b.m_blockSize < 2 ^ 32) (calls : List (SetCall T))
    (hrange : ∀ call ∈ calls, call.idx < b.m_frameSize ∧ call.frame < b.m_blockSize) :
    ∃ b', b.setSamples calls = .ok b' ∧ ∀ idx < b.m_frameSize, ∀ frame < b.m_blockSize,
      (b'.getData idx frame = .ok (lastItem calls idx frame) ↔
        frame ≤ b.m_frameSize ∨ lastItem calls idx frame = 0) := by
  obtain ⟨b', hcalls, hframe, hblock, hstores⟩ :=
    (Stores.of_alloc halloc hfits).exists_setSamples calls hrange
  refine ⟨b', hcalls, fun idx hidx frame hbounds ↦ ?_⟩
  rw [hstores.getData_eq (hidx.trans_eq hframe.symm) (hbounds.trans_eq hblock.symm), hframe]
  by_cases hlarge : frame ≤ b.m_frameSize
  · rw [if_pos hlarge]
    exact iff_of_true rfl (.inl hlarge)
  · rw [if_neg hlarge, or_iff_right hlarge]
    exact ⟨fun hzero ↦ (Except.ok.inj hzero).symm, fun hzero ↦ congrArg Except.ok hzero.symm⟩

theorem getData_setSamples_iff_two :
    ∃ b', (((new : CSimpleDataBuffer ℕ).setSize 2 3).alloc 0 true).2.setSamples
      [⟨1, 2, 7⟩, ⟨0, 1, 5⟩] = .ok b' ∧ ∀ idx < 2, ∀ frame < 3,
        (b'.getData idx frame = .ok (lastItem [⟨1, 2, 7⟩, ⟨0, 1, 5⟩] idx frame) ↔
          frame ≤ 2 ∨ lastItem [⟨1, 2, 7⟩, ⟨0, 1, 5⟩] idx frame = 0) :=
  @getData_setSamples_iff ℕ _ ((new : CSimpleDataBuffer ℕ).setSize 2 3) _ 0 true rfl (by decide)
    [⟨1, 2, 7⟩, ⟨0, 1, 5⟩] (by decide)

/-- With one item in a frame, the last of three frames is set and not read. -/
theorem not_getData_setSamples :
    let b := (((new : CSimpleDataBuffer ℕ).setSize 1 3).alloc 0 true).2
    ∃ b', b.setSamples [⟨0, 2, 7⟩] = .ok b' ∧ 0 < b.m_frameSize ∧ 2 < b.m_blockSize ∧
      b.m_frameSize * b.m_blockSize < 2 ^ 32 ∧
        b'.getData 0 2 ≠ .ok (lastItem [⟨0, 2, 7⟩] 0 2) :=
  ⟨_, rfl, by decide, by decide, by decide, by decide⟩

end RdbLibs.Buffer.CSimpleDataBuffer
