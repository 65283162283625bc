import RdbLibs.Buffer.CSimpleAudioBuffer.Model
import RdbLibs.Buffer.CSimpleDataBuffer.Model

/-!
# Allocated buffers

A buffer of either class is `Granted` some cells from a successful call of `alloc` on: it is
allocated, and the block behind `m_pBuffer` has those cells. Their number is the product of the
sizes, in 32 bits.
-/

set_option autoImplicit false
set_option relaxedAutoImplicit false

namespace RdbLibs.Buffer

open BlockHeap CheckedMemory MachineWord

variable {T : Type*} {cells : List T}

namespace CSimpleAudioBuffer

/-- The buffer is allocated, and its block has the given cells. -/
structure Granted (b : CSimpleAudioBuffer T) (cells : List T) : Prop where
  numChls_pos : 1 ≤ b.m_numChls
  blockSize_pos : 1 ≤ b.m_blockSize
  arraySize : b.m_arraySize = toUnsigned (b.m_blockSize * b.m_numChls)
  allocated : b.m_bAllocated = true
  pBuffer : b.m_pBuffer = some cells
  length : cells.length = b.m_arraySize

variable {b : CSimpleAudioBuffer T}

theorem Granted.of_alloc [Zero T] {before : CSimpleAudioBuffer T} {blockSize : ℕ} {granted : Bool}
    (halloc : before.alloc blockSize granted = (true, b)) :
    b.Granted (List.replicate b.m_arraySize 0) := by
  unfold alloc at halloc
  dsimp only at halloc
  generalize (if 0 < blockSize then { before with m_blockSize := blockSize } else before) = sized
    at halloc
  split_ifs at halloc with hblock hchannels hgranted
  · cases halloc
  · cases halloc
  · obtain rfl := (Prod.ext_iff.mp halloc).2
    exact ⟨Nat.not_lt.mp hchannels, Nat.not_lt.mp hblock, rfl, rfl, rfl, List.length_replicate⟩
  · cases halloc

namespace Granted

variable (h : b.Granted cells)
include h

theorem not_unallocated : ¬b.m_bAllocated = false := by
  rw [h.allocated]
  exact Bool.true_eq_false.mp

theorem block_eq : b.block = .ok cells := by
  rw [block, h.pBuffer]

theorem arraySize_lt : b.m_arraySize < 2 ^ 32 := h.arraySize ▸ toUnsigned_lt _

theorem refuses_iff {chan frame : ℕ} :
    b.Refuses chan frame ↔ b.m_numChls < chan ∨ b.m_blockSize < frame := by
  have hchannels := h.numChls_pos
  have hblock := h.blockSize_pos
  unfold Refuses
  rw [h.allocated]
  simp only [Bool.true_eq_false, or_false]
  omega

end Granted

end CSimpleAudioBuffer

namespace CSimpleDataBuffer

/-- The buffer is allocated, and its block has the given cells. -/
structure Granted (b : CSimpleDataBuffer T) (cells : List T) : Prop where
  frameSize_pos : 1 ≤ b.m_frameSize
  blockSize_pos : 1 ≤ b.m_blockSize
  arraySize : b.m_arraySize = toUnsigned (b.m_blockSize * b.m_frameSize)
  allocated : b.m_bAllocated = true
  pBuffer : ∃ block, b.m_pBuffer = some block ∧ b.heap.cells? block = some cells
  length : cells.length = b.m_arraySize

variable {b : CSimpleDataBuffer T}

theorem Granted.of_alloc [Zero T] {before : CSimpleDataBuffer T} {blockSize : ℕ} {granted : Bool}
    (halloc : before.alloc blockSize granted = (true, b)) :
    b.Granted (List.replicate b.m_arraySize 0) := by
  unfold alloc at halloc
  dsimp only at halloc
  split_ifs at halloc with hblock hframe hgranted
  · cases halloc
  · cases halloc
  · obtain rfl := (Prod.ext_iff.mp halloc).2
    exact ⟨Nat.not_lt.mp hframe, Nat.not_lt.mp hblock, rfl, rfl,
      ⟨_, rfl, Heap.cells?_allocate_self _ _⟩, List.length_replicate⟩
  · cases halloc

section SetBlock

variable (b) (cells' : List T)

@[simp] theorem m_frameSize_setBlock : (b.setBlock cells').m_frameSize = b.m_frameSize := by
  unfold setBlock
  split <;> rfl

@[simp] theorem m_blockSize_setBlock : (b.setBlock cells').m_blockSize = b.m_blockSize := by
  unfold setBlock
  split <;> rfl

@[simp] theorem m_arraySize_setBlock : (b.setBlock cells').m_arraySize = b.m_arraySize := by
  unfold setBlock
  split <;> rfl

@[simp] theorem m_bAllocated_setBlock : (b.setBlock cells').m_bAllocated = b.m_bAllocated := by
  unfold setBlock
  split <;> rfl

@[simp] theorem m_readIdx_setBlock : (b.setBlock cells').m_readIdx = b.m_readIdx := by
  unfold setBlock
  split <;> rfl

@[simp] theorem m_pBuffer_setBlock : (b.setBlock cells').m_pBuffer = b.m_pBuffer := by
  unfold setBlock
  split <;> rfl

theorem heap_setBlock {block : ℕ} (hblock : b.m_pBuffer = some block) :
    (b.setBlock cells').heap = b.heap.put block (some cells') := by
  unfold setBlock
  rw [hblock]

end SetBlock

namespace Granted

variable (h : b.Granted cells)
include h

theorem not_unallocated : ¬b.m_bAllocated = false := by
  rw [h.allocated]
  exact Bool.true_eq_false.mp

theorem block_eq : b.block = .ok cells := by
  obtain ⟨block, hblock, hcells⟩ := h.pBuffer
  rw [CSimpleDataBuffer.block, hblock, Heap.cells_of_cells? hcells]

theorem arraySize_lt : b.m_arraySize < 2 ^ 32 := h.arraySize ▸ toUnsigned_lt _

theorem refusesGet_iff {frame : ℕ} :
    b.RefusesGet frame ↔ b.m_frameSize < frame ∨ b.m_blockSize < frame := by
  have hframe := h.frameSize_pos
  have hblock := h.blockSize_pos
  unfold RefusesGet
  rw [h.allocated]
  simp only [Bool.true_eq_false, or_false]
  omega

theorem refusesSet_iff {idx frame : ℕ} :
    b.RefusesSet idx frame ↔ b.m_frameSize < idx ∨ b.m_blockSize < frame := by
  have hframe := h.frameSize_pos
  have hblock := h.blockSize_pos
  unfold RefusesSet
  rw [h.allocated]
  simp only [Bool.true_eq_false, or_false]
  omega

/-- Cells that were changed are granted in their place. -/
theorem setBlock {cells' : List T} (hlength : cells'.length = cells.length) :
    (b.setBlock cells').Granted cells' := by
  obtain ⟨block, hblock, hcells⟩ := h.pBuffer
  refine ⟨by simpa using h.frameSize_pos, by simpa using h.blockSize_pos,
    by simpa using h.arraySize, by simpa using h.allocated, ⟨block, by simpa using hblock, ?_⟩,
    by simpa using hlength.trans h.length⟩
  rw [heap_setBlock b cells' hblock]
  exact Heap.cells?_put_self (Heap.lt_next_of_cells? hcells) _

/-- In an allocated buffer, a block that is copied as a whole is copied item by item. -/
theorem writeDataBlockBytes_eq (buf : List T) :
    b.writeDataBlockBytes buf = b.writeDataBlock buf := by
  rw [writeDataBlockBytes, writeDataBlock, if_neg h.not_unallocated, if_neg h.not_unallocated,
    h.block_eq, ok_bind, ok_bind]
  by_cases hfits : b.m_arraySize ≤ b.m_writeIdx + buf.length
  · rw [if_pos hfits, if_pos hfits]
  · have hinside : b.m_writeIdx + buf.length ≤ cells.length := h.length ▸ (not_le.mp hfits).le
    rw [if_neg hfits, if_neg hfits, storeRange, if_pos hinside, scatter_range' hinside]

end Granted

end CSimpleDataBuffer

end RdbLibs.Buffer
