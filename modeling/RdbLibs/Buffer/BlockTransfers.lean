import RdbLibs.Buffer.GrantedBlocks

/-!
# Where block transfers fit

The functions that read or write a block of cells, at the current index or at a given one, compare
the index behind the block with the number of cells by `>=`, so that a block that ends with the
last cell is refused. Those with a given index compute the index behind the block in 32 bits: where
the sum wraps around, the comparison lets a block through that leaves the buffer. Elsewhere they
succeed exactly when the block fits (`block_transfers_iff`).
-/

set_option autoImplicit false
set_option relaxedAutoImplicit false

namespace RdbLibs.Buffer

open BlockHeap CheckedMemory MachineWord

universe u

variable {T : Type*} {cells : List T}

/-- A transfer has a result, and answers an index that is not zero exactly when the block fits. -/
def TransfersExactly {ε : Type*} (answer : Except ε ℕ) (startPos count size : ℕ) : Prop :=
  ∃ position, answer = .ok position ∧ (position ≠ 0 ↔ startPos + count ≤ size)

/-- The block does not end with the last cell. -/
def EndsApart (startPos count size : ℕ) : Prop := startPos + count ≠ size

/-- The index behind the block is at least `2 ^ 32`, and reads as the index of a cell. -/
def WrapsInside (startPos count size : ℕ) : Prop :=
  2 ^ 32 ≤ startPos + count ∧ startPos + count - 2 ^ 32 < size

/-- The block does not end with the last cell, and not at an index that wraps around to a cell. -/
def FitsWord (startPos count size : ℕ) : Prop :=
  EndsApart startPos count size ∧ ¬WrapsInside startPos count size

/-! ### The two kinds of checks -/

section Checks

variable {ε : Type*} {β γ : Type u} {transfer : Except ε β} {startPos count size : ℕ} {before : γ}
  {after : β → γ}

/-- What a checked transfer answers, apart from the cells. -/
theorem map_fst_check {ε : Type*} {β γ : Type u} {refused : Prop} [Decidable refused]
    (transfer : Except ε β) (position : ℕ) (before : γ) (after : β → γ) :
    (if refused then Except.ok (0, before)
      else transfer >>= fun result ↦ .ok (position, after result)).map Prod.fst =
        if refused then .ok 0 else transfer.map fun _ ↦ position := by
  split_ifs
  · rfl
  · cases transfer <;> rfl

/-- At the current index, the sum does not wrap around. -/
theorem transfersExactly_next_iff (hcount : 1 ≤ count)
    (htransfer : startPos + count < size → ∃ result, transfer = .ok result) :
    TransfersExactly ((if size ≤ startPos + count then Except.ok (0, before)
      else transfer >>= fun result ↦ .ok (startPos + count, after result)).map Prod.fst)
      startPos count size ↔ EndsApart startPos count size := by
  rw [map_fst_check]
  unfold TransfersExactly EndsApart
  by_cases hrefused : size ≤ startPos + count
  · rw [if_pos hrefused]
    constructor
    · rintro ⟨position, hanswer, hfits⟩
      obtain rfl := Except.ok.inj hanswer
      omega
    · intro hapart
      exact ⟨0, rfl, by omega⟩
  · obtain ⟨result, rfl⟩ := htransfer (not_le.mp hrefused)
    rw [if_neg hrefused]
    exact iff_of_true ⟨startPos + count, rfl, by omega⟩ (by omega)

/-- The sum of a given index and a count, in 32 bits. -/
theorem toUnsigned_add (hstart : startPos < 2 ^ 32) (hsmall : count < 2 ^ 32) :
    toUnsigned (startPos + count) =
      if startPos + count < 2 ^ 32 then startPos + count else startPos + count - 2 ^ 32 := by
  rw [toUnsigned]
  split_ifs <;> omega

/-- Where the sum of 32 bits is the index of a cell, so are all indices of the block exactly when
the sum does not wrap around. -/
theorem forall_index_lt_iff (hstart : startPos < 2 ^ 32) (hsmall : count < 2 ^ 32)
    (hsize : size < 2 ^ 32) (hend : toUnsigned (startPos + count) < size) :
    (∀ index ∈ (List.range' startPos count).map toUnsigned, index < size) ↔
      ¬WrapsInside startPos count size := by
  rw [toUnsigned_add hstart hsmall] at hend
  have hindex : ∀ x < count, toUnsigned (startPos + x) ∈
      (List.range' startPos count).map toUnsigned := fun x hx ↦
    List.mem_map_of_mem (List.mem_range'_1.mpr ⟨Nat.le_add_right _ _, by omega⟩)
  unfold WrapsInside
  by_cases hwraps : startPos + count < 2 ^ 32
  · rw [if_pos hwraps] at hend
    refine iff_of_true ?_ (by omega)
    intro index hmem
    obtain ⟨index, hrange, rfl⟩ := List.mem_map.mp hmem
    have hlt := (List.mem_range'_1.mp hrange).2
    rw [toUnsigned_of_lt (by omega)]
    omega
  · rw [if_neg hwraps] at hend
    refine iff_of_false (fun hinside ↦ ?_) (by omega)
    -- The index of the first cell of the block, or the one behind the last cell of the buffer.
    rcases Nat.lt_or_ge startPos size with hlt | hge
    · have hlast := hinside _ (hindex (size - startPos) (by omega))
      rw [Nat.add_sub_cancel' hlt.le, toUnsigned_of_lt hsize] at hlast
      exact absurd hlast (lt_irrefl size)
    · have hfirst := hinside _ (hindex 0 (by omega))
      rw [Nat.add_zero, toUnsigned_of_lt hstart] at hfirst
      omega

/-- A transfer at a given index that has a result did not wrap around. -/
theorem not_wrapsInside_of_ok {answer next : γ} {answers : β → γ} (hstart : startPos < 2 ^ 32)
    (hsmall : count < 2 ^ 32) (hsize : size < 2 ^ 32)
    (htransfer : (∃ result, transfer = .ok result) ↔
      ∀ index ∈ (List.range' startPos count).map toUnsigned, index < size)
    (hok : (if size ≤ toUnsigned (startPos + count) then Except.ok answer
      else transfer >>= fun result ↦ .ok (answers result)) = .ok next) :
    ¬WrapsInside startPos count size := by
  intro hwraps
  have hend : toUnsigned (startPos + count) < size := by
    have hsum := hwraps.1
    rw [toUnsigned_add hstart hsmall, if_neg (by omega)]
    exact hwraps.2
  rw [if_neg (not_le.mpr hend)] at hok
  obtain ⟨result, hresult, -⟩ := of_bind_eq_ok hok
  exact (forall_index_lt_iff hstart hsmall hsize hend).mp (htransfer.mp ⟨result, hresult⟩) hwraps

/-- At a given index, the sum of 32 bits is compared, and each index of the block has 32 bits. -/
theorem transfersExactly_at_iff (hstart : startPos < 2 ^ 32) (hcount : 1 ≤ count)
    (hsmall : count < 2 ^ 32) (hsize : size < 2 ^ 32)
    (htransfer : (∃ result, transfer = .ok result) ↔
      ∀ index ∈ (List.range' startPos count).map toUnsigned, index < size) :
    TransfersExactly ((if size ≤ toUnsigned (startPos + count) then Except.ok (0, before)
      else transfer >>= fun result ↦ .ok (toUnsigned (startPos + count), after result)).map
        Prod.fst) startPos count size ↔ FitsWord startPos count size := by
  rw [map_fst_check]
  have hword := toUnsigned_add hstart hsmall
  unfold TransfersExactly FitsWord EndsApart
  by_cases hrefused : size ≤ toUnsigned (startPos + count)
  · rw [if_pos hrefused, WrapsInside]
    rw [hword] at hrefused
    constructor
    · rintro ⟨position, hanswer, hfits⟩
      obtain rfl := Except.ok.inj hanswer
      split_ifs at hrefused <;> omega
    · intro hfits
      refine ⟨0, rfl, ?_⟩
      split_ifs at hrefused <;> omega
  · have hsuccess : (∃ result, transfer = .ok result) ↔ ¬WrapsInside startPos count size :=
      htransfer.trans (forall_index_lt_iff hstart hsmall hsize (not_le.mp hrefused))
    rw [if_neg hrefused, ← hsuccess]
    rw [hword] at hrefused
    have hfits : (∃ result, transfer = .ok result) →
        startPos + count < 2 ^ 32 ∧ startPos + count < size := by
      rw [hsuccess, WrapsInside]
      intro hwraps
      split_ifs at hrefused <;> omega
    constructor
    · rintro ⟨position, hanswer, -⟩
      cases transfer with
      | error error => cases hanswer
      | ok result => exact ⟨(hfits ⟨result, rfl⟩).2.ne, result, rfl⟩
    · rintro ⟨-, result, rfl⟩
      obtain ⟨hnowrap, hinside⟩ := hfits ⟨result, rfl⟩
      refine ⟨toUnsigned (startPos + count), rfl, ?_⟩
      rw [hword, if_pos hnowrap]
      exact iff_of_true (by omega) hinside.le

end Checks

/-! ### The transfers of both classes -/

theorem exists_access {β : Type*} {transfer : Except Fault β} :
    (∃ result, access transfer = .ok result) ↔ ∃ result, transfer = .ok result := by
  cases transfer with
  | error fault => exact iff_of_false (fun ⟨_, h⟩ ↦ nomatch h) (fun ⟨_, h⟩ ↦ nomatch h)
  | ok result => exact iff_of_true ⟨result, rfl⟩ ⟨result, rfl⟩

theorem exists_gather {indices : List ℕ} :
    (∃ result, gather cells indices = .ok result) ↔ ∀ index ∈ indices, index < cells.length :=
  isOk_iff.symm.trans isOk_gather

theorem exists_scatter {indices : List ℕ} {values : List T}
    (hlength : indices.length = values.length) :
    (∃ result, scatter cells indices values = .ok result) ↔
      ∀ index ∈ indices, index < cells.length :=
  isOk_iff.symm.trans (isOk_scatter hlength)

theorem forall_range'_lt {start count size : ℕ} (h : start + count < size) :
    ∀ index ∈ List.range' start count, index < size := fun _ hmem ↦
  (List.mem_range'_1.mp hmem).2.trans h

namespace CSimpleAudioBuffer

variable {b : CSimpleAudioBuffer T} (h : b.Granted cells)
include h

theorem Granted.readSamples_iff {count : ℕ} (hcount : 1 ≤ count) :
    TransfersExactly ((b.readSamples count).map Prod.fst) b.m_readIdx count b.m_arraySize ↔
      EndsApart b.m_readIdx count b.m_arraySize := by
  rw [readSamples, if_neg h.not_unallocated, h.block_eq, ok_bind]
  refine transfersExactly_next_iff hcount fun hfits ↦ exists_gather.mpr ?_
  rw [h.length]
  exact forall_range'_lt (by omega)

theorem Granted.writeSamples_iff {buf : List T} (hcount : 1 ≤ buf.length) :
    TransfersExactly ((b.writeSamples buf).map Prod.fst) b.m_writeIdx buf.length b.m_arraySize ↔
      EndsApart b.m_writeIdx buf.length b.m_arraySize := by
  rw [writeSamples, if_neg h.not_unallocated, h.block_eq, ok_bind]
  refine transfersExactly_next_iff hcount fun hfits ↦ (exists_scatter List.length_range').mpr ?_
  rw [h.length]
  exact forall_range'_lt hfits

theorem Granted.readSampleBlock_iff {startPos count : ℕ} (hstart : startPos < 2 ^ 32)
    (hcount : 1 ≤ count) (hsmall : count < 2 ^ 32) :
    TransfersExactly ((b.readSampleBlock startPos count).map Prod.fst) startPos count
      b.m_arraySize ↔ FitsWord startPos count b.m_arraySize := by
  rw [readSampleBlock, if_neg h.not_unallocated, h.block_eq, ok_bind]
  refine transfersExactly_at_iff hstart hcount hsmall h.arraySize_lt ?_
  rw [exists_gather, h.length]

theorem Granted.writeSampleBlock_iff {startPos : ℕ} {buf : List T} (hstart : startPos < 2 ^ 32)
    (hcount : 1 ≤ buf.length) (hsmall : buf.length < 2 ^ 32) :
    TransfersExactly ((b.writeSampleBlock buf startPos).map Prod.fst) startPos buf.length
      b.m_arraySize ↔ FitsWord startPos buf.length b.m_arraySize := by
  rw [writeSampleBlock, if_neg h.not_unallocated, h.block_eq, ok_bind]
  refine transfersExactly_at_iff hstart hcount hsmall h.arraySize_lt ?_
  rw [exists_scatter (by rw [List.length_map, List.length_range']), h.length]

end CSimpleAudioBuffer

namespace CSimpleDataBuffer

variable {b : CSimpleDataBuffer T} (h : b.Granted cells)
include h

theorem Granted.readDataBlock_iff {count : ℕ} (hcount : 1 ≤ count) :
    TransfersExactly ((b.readDataBlock count).map Prod.fst) b.m_readIdx count b.m_arraySize ↔
      EndsApart b.m_readIdx count b.m_arraySize := by
  rw [readDataBlock, if_neg h.not_unallocated, h.block_eq, ok_bind]
  refine transfersExactly_next_iff hcount fun hfits ↦ exists_access.mpr (exists_gather.mpr ?_)
  rw [h.length]
  exact forall_range'_lt (by omega)

theorem Granted.writeDataBlock_iff {buf : List T} (hcount : 1 ≤ buf.length) :
    TransfersExactly ((b.writeDataBlock buf).map Prod.fst) b.m_writeIdx buf.length
      b.m_arraySize ↔ EndsApart b.m_writeIdx buf.length b.m_arraySize := by
  rw [writeDataBlock, if_neg h.not_unallocated, h.block_eq, ok_bind]
  refine transfersExactly_next_iff hcount fun hfits ↦
      exists_access.mpr ((exists_scatter List.length_range').mpr ?_)
  rw [h.length]
  exact forall_range'_lt hfits

theorem Granted.writeDataBlockBytes_iff {buf : List T} (hcount : 1 ≤ buf.length) :
    TransfersExactly ((b.writeDataBlockBytes buf).map Prod.fst) b.m_writeIdx buf.length
      b.m_arraySize ↔ EndsApart b.m_writeIdx buf.length b.m_arraySize := by
  rw [h.writeDataBlockBytes_eq]
  exact h.writeDataBlock_iff hcount

theorem Granted.readDataBlockAt_iff {startPos count : ℕ} (hstart : startPos < 2 ^ 32)
    (hcount : 1 ≤ count) (hsmall : count < 2 ^ 32) :
    TransfersExactly ((b.readDataBlockAt startPos count).map Prod.fst) startPos count
      b.m_arraySize ↔ FitsWord startPos count b.m_arraySize := by
  rw [readDataBlockAt, if_neg h.not_unallocated, h.block_eq, ok_bind]
  refine transfersExactly_at_iff hstart hcount hsmall h.arraySize_lt ?_
  rw [exists_access, exists_gather, h.length]

theorem Granted.writeDataBlockAt_iff {startPos : ℕ} {buf : List T} (hstart : startPos < 2 ^ 32)
    (hcount : 1 ≤ buf.length) (hsmall : buf.length < 2 ^ 32) :
    TransfersExactly ((b.writeDataBlockAt buf startPos).map Prod.fst) startPos buf.length
      b.m_arraySize ↔ FitsWord startPos buf.length b.m_arraySize := by
  rw [writeDataBlockAt, if_neg h.not_unallocated, h.block_eq, ok_bind]
  refine transfersExactly_at_iff hstart hcount hsmall h.arraySize_lt ?_
  rw [exists_access, exists_scatter (by rw [List.length_map, List.length_range']), h.length]

end CSimpleDataBuffer

/-- In an allocated buffer of either class, the transfers at the current index succeed exactly when
the block fits, but for a block that ends with the last cell; those at a given index, but for such a
block and for one whose last index wraps around to the index of a cell. -/
theorem block_transfers_iff (startPos : ℕ) (buf : List T) (hstart : startPos < 2 ^ 32)
    (hcount : 1 ≤ buf.length) (hsmall : buf.length < 2 ^ 32) :
    (∀ b : CSimpleAudioBuffer T, b.Granted cells →
      let A := b.m_arraySize
      let count := buf.length
      (TransfersExactly ((b.readSamples count).map Prod.fst) b.m_readIdx count A ↔
        EndsApart b.m_readIdx count A) ∧
      (TransfersExactly ((b.writeSamples buf).map Prod.fst) b.m_writeIdx count A ↔
        EndsApart b.m_writeIdx count A) ∧
      (TransfersExactly ((b.readSampleBlock startPos count).map Prod.fst) startPos count A ↔
        FitsWord startPos count A) ∧
      (TransfersExactly ((b.writeSampleBlock buf startPos).map Prod.fst) startPos count A ↔
        FitsWord startPos count A)) ∧
    ∀ b : CSimpleDataBuffer T, b.Granted cells →
      let A := b.m_arraySize
      let count := buf.length
      (TransfersExactly ((b.readDataBlock count).map Prod.fst) b.m_readIdx count A ↔
        EndsApart b.m_readIdx count A) ∧
      (TransfersExactly ((b.writeDataBlock buf).map Prod.fst) b.m_writeIdx count A ↔
        EndsApart b.m_writeIdx count A) ∧
      (TransfersExactly ((b.writeDataBlockBytes buf).map Prod.fst) b.m_writeIdx count A ↔
        EndsApart b.m_writeIdx count A) ∧
      (TransfersExactly ((b.readDataBlockAt startPos count).map Prod.fst) startPos count A ↔
        FitsWord startPos count A) ∧
      (TransfersExactly ((b.writeDataBlockAt buf startPos).map Prod.fst) startPos count A ↔
        FitsWord startPos count A) :=
  ⟨fun _ h ↦ ⟨h.readSamples_iff hcount, h.writeSamples_iff hcount,
      h.readSampleBlock_iff hstart hcount hsmall, h.writeSampleBlock_iff hstart hcount hsmall⟩,
    fun _ h ↦ ⟨h.readDataBlock_iff hcount, h.writeDataBlock_iff hcount,
      h.writeDataBlockBytes_iff hcount, h.readDataBlockAt_iff hstart hcount hsmall,
      h.writeDataBlockAt_iff hstart hcount hsmall⟩⟩

theorem block_transfers_iff_inside :
    let audio : CSimpleAudioBuffer ℕ := ⟨1, 4, 4, 0, 0, false, true, some [0, 0, 0, 0]⟩
    let data : CSimpleDataBuffer ℕ := ⟨1, 4, 4, 0, 0, true, some 0, ⟨[some [0, 0, 0, 0]]⟩⟩
    TransfersExactly ((audio.writeSampleBlock [5, 6] 1).map Prod.fst) 1 2 4 ∧
      TransfersExactly ((data.readDataBlockAt 1 2).map Prod.fst) 1 2 4 := by
  have hrule := @block_transfers_iff ℕ [0, 0, 0, 0] 1 [5, 6] (by decide) (by decide) (by decide)
  have haudio := hrule.1 ⟨1, 4, 4, 0, 0, false, true, some [0, 0, 0, 0]⟩
    ⟨by decide, by decide, rfl, rfl, rfl, rfl⟩
  have hdata := hrule.2 ⟨1, 4, 4, 0, 0, true, some 0, ⟨[some [0, 0, 0, 0]]⟩⟩
    ⟨by decide, by decide, rfl, rfl, ⟨0, rfl, rfl⟩, rfl⟩
  have hfits : FitsWord 1 2 4 := ⟨by rw [EndsApart]; decide, by rw [WrapsInside]; decide⟩
  exact ⟨haudio.2.2.2.mpr hfits, hdata.2.2.2.1.mpr hfits⟩

/-- A block of all four cells is refused, and one that starts behind the last index of 32 bits
writes behind the block. -/
theorem not_block_transfers_exactly :
    let b : CSimpleAudioBuffer ℕ :=
      (((.new true : CSimpleAudioBuffer ℕ).setSize 1 4).alloc 0 true).2
    b.Granted [0, 0, 0, 0] ∧
      ¬TransfersExactly ((b.writeSampleBlock [5, 6, 7, 8] 0).map Prod.fst) 0 4 b.m_arraySize ∧
      ¬TransfersExactly ((b.writeSampleBlock [5, 6] (2 ^ 32 - 1)).map Prod.fst) (2 ^ 32 - 1) 2
        b.m_arraySize := by
  refine ⟨⟨by decide, by decide, rfl, rfl, rfl, rfl⟩, ?_, ?_⟩
  · rintro ⟨position, hanswer, hfits⟩
    obtain rfl := Except.ok.inj hanswer
    exact absurd (hfits.mpr (by decide)) (by decide)
  · rintro ⟨position, hanswer, -⟩
    cases hanswer

end RdbLibs.Buffer
