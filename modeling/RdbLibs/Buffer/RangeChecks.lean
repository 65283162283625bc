import RdbLibs.Buffer.GrantedBlocks

/-!
# The range checks of single samples

`getSample`, `getData` and `setSample` compare a coordinate with its number by `>`, and the offset
that they compute from both, in 32 bits, with the number of cells. So a coordinate just outside its
range gets through where the offset is that of a cell. `getData` checks the frame twice and the
item not at all. A position outside is ignored exactly where one of the checks stops it, or where
the cell that it reaches has a zero and gets a zero (`outside_ignored_iff`).
-/

set_option autoImplicit false
set_option relaxedAutoImplicit false

namespace RdbLibs.Buffer

open BlockHeap CheckedMemory MachineWord

variable {T : Type*} {cells : List T}

theorem set_eq_self_iff {index : ℕ} {old : T} (hold : cells[index]? = some old) (value : T) :
    cells.set index value = cells ↔ old = value := by
  obtain ⟨hlt, hget⟩ := List.getElem?_eq_some_iff.mp hold
  constructor
  · intro hset
    rw [← hset, List.getElem?_set_self hlt, Option.some_inj] at hold
    exact hold.symm
  · rintro rfl
    rw [← hget, List.set_getElem_self]

namespace CSimpleAudioBuffer

/-- A position at which `setSample` changes no cell and `getSample` returns zero. -/
def Ignores [Zero T] (b : CSimpleAudioBuffer T) (chan frame : ℕ) (value : T) : Prop :=
  (∃ b', b.setSample chan frame value = .ok b' ∧ b'.block = b.block) ∧
    b.getSample chan frame = .ok 0

/-- The position of a sample among the cells, in 32 bits. -/
def position (b : CSimpleAudioBuffer T) (chan frame : ℕ) : ℕ :=
  if b.m_bInterleaved then (frame * b.m_numChls + chan) % 2 ^ 32
  else (chan * b.m_blockSize + frame) % 2 ^ 32

/-- A position is ignored exactly where a coordinate is too large for `>`, or where it is the one of
no cell, or of one that is zero and is set to zero. -/
theorem Granted.ignores_iff [Zero T] {b : CSimpleAudioBuffer T} (h : b.Granted cells)
    {chan frame : ℕ} {value : T} :
    b.Ignores chan frame value ↔ b.m_numChls < chan ∨ b.m_blockSize < frame ∨
      ∀ old, cells[b.position chan frame]? = some old → old = 0 ∧ value = 0 := by
  have hoffset : b.offset chan frame = b.position chan frame := rfl
  rw [Ignores, setSample, getSample, hoffset, h.block_eq, ok_bind, ok_bind, ← or_assoc,
    ← h.refuses_iff]
  by_cases hrefuses : b.Refuses chan frame
  · rw [if_pos hrefuses, if_pos hrefuses]
    exact iff_of_true ⟨⟨b, rfl, h.block_eq⟩, rfl⟩ (.inl hrefuses)
  rw [if_neg hrefuses, if_neg hrefuses, or_iff_right hrefuses]
  by_cases hlength : b.m_arraySize ≤ b.position chan frame
  · rw [if_pos hlength, if_pos hlength]
    refine iff_of_true ⟨⟨b, rfl, h.block_eq⟩, rfl⟩ fun old hold ↦ ?_
    rw [List.getElem?_eq_none (h.length.trans_le hlength)] at hold
    cases hold
  · have hlt : b.position chan frame < cells.length := h.length ▸ not_le.mp hlength
    have hcell := List.getElem?_eq_getElem hlt
    rw [if_neg hlength, if_neg hlength, store_of_lt hlt, load_of_lt hlt, ok_bind, hcell]
    generalize cells[b.position chan frame] = old at hcell ⊢
    simp only [Option.some_inj, forall_eq']
    constructor
    · rintro ⟨⟨b', hset, hblock⟩, hzero⟩
      obtain rfl := Except.ok.inj hset
      obtain rfl := Except.ok.inj hzero
      exact ⟨rfl, ((set_eq_self_iff hcell value).mp (Except.ok.inj hblock)).symm⟩
    · rintro ⟨rfl, rfl⟩
      refine ⟨⟨_, rfl, ?_⟩, rfl⟩
      exact congrArg Except.ok ((set_eq_self_iff hcell 0).mpr rfl)

end CSimpleAudioBuffer

namespace CSimpleDataBuffer

/-- A position at which `setSample` changes no cell and `getData` returns zero. -/
def Ignores [Zero T] (b : CSimpleDataBuffer T) (idx frame : ℕ) (value : T) : Prop :=
  (∃ b', b.setSample idx frame value = .ok b' ∧ b'.block = b.block) ∧
    b.getData idx frame = .ok 0

/-- The position of an item among the cells, in 32 bits. -/
def position (b : CSimpleDataBuffer T) (idx frame : ℕ) : ℕ :=
  (frame * b.m_frameSize + idx) % 2 ^ 32

/-- A position is ignored exactly where the frame is too large for `>`, or where it is the one of no
cell, or of one that is not changed, because the item is too large or it has the value already, and
that is not read, because the frame is larger than a frame has items, or is zero. -/
theorem Granted.ignores_iff [Zero T] {b : CSimpleDataBuffer T} (h : b.Granted cells)
    {idx frame : ℕ} {value : T} :
    b.Ignores idx frame value ↔ b.m_blockSize < frame ∨
      ∀ old, cells[b.position idx frame]? = some old →
        (b.m_frameSize < idx ∨ old = value) ∧ (b.m_frameSize < frame ∨ old = 0) := by
  have hoffset : b.offset idx frame = b.position idx frame := rfl
  rw [Ignores, setSample, getData, hoffset, h.block_eq, ok_bind, ok_bind]
  by_cases hframe : b.m_blockSize < frame
  · rw [if_pos (h.refusesSet_iff.mpr (.inr hframe)), if_pos (h.refusesGet_iff.mpr (.inr hframe))]
    exact iff_of_true ⟨⟨b, rfl, h.block_eq⟩, rfl⟩ (.inl hframe)
  have hset : b.RefusesSet idx frame ↔ b.m_frameSize < idx :=
    h.refusesSet_iff.trans (or_iff_left hframe)
  have hget : b.RefusesGet frame ↔ b.m_frameSize < frame :=
    h.refusesGet_iff.trans (or_iff_left hframe)
  rw [or_iff_right hframe]
  by_cases hlength : b.m_arraySize ≤ b.position idx frame
  · rw [if_pos hlength, if_pos hlength, ite_self, ite_self]
    refine iff_of_true ⟨⟨b, rfl, h.block_eq⟩, rfl⟩ fun old hold ↦ ?_
    rw [List.getElem?_eq_none (h.length.trans_le hlength)] at hold
    cases hold
  · have hlt : b.position idx frame < cells.length := h.length ▸ not_le.mp hlength
    have hcell := List.getElem?_eq_getElem hlt
    rw [if_neg hlength, if_neg hlength, store_of_lt hlt, load_of_lt hlt, hcell]
    generalize cells[b.position idx frame] = old at hcell ⊢
    simp only [Option.some_inj, forall_eq']
    refine and_congr ?_ ?_
    · by_cases hidx : b.m_frameSize < idx
      · rw [if_pos (hset.mpr hidx)]
        exact iff_of_true ⟨b, rfl, h.block_eq⟩ (.inl hidx)
      · rw [if_neg (hset.not.mpr hidx), or_iff_right hidx, ← set_eq_self_iff hcell value]
        have hblock : (b.setBlock (cells.set (b.position idx frame) value)).block =
            .ok (cells.set (b.position idx frame) value) :=
          (h.setBlock List.length_set).block_eq
        constructor
        · rintro ⟨b', hset', hsame⟩
          obtain rfl := Except.ok.inj hset'
          exact Except.ok.inj (hblock.symm.trans hsame)
        · intro hsame
          exact ⟨_, rfl, hblock.trans (congrArg _ hsame)⟩
    · by_cases hlarge : b.m_frameSize < frame
      · rw [if_pos (hget.mpr hlarge)]
        exact iff_of_true rfl (.inl hlarge)
      · rw [if_neg (hget.not.mpr hlarge), or_iff_right hlarge]
        exact ⟨fun hzero ↦ Except.ok.inj hzero, fun hzero ↦ congrArg Except.ok hzero⟩

end CSimpleDataBuffer

/-- In an allocated buffer of either class, a position outside is ignored exactly where the range
checks stop it, or where it reaches a cell that has the value and is zero. -/
theorem outside_ignored_iff [Zero T] (index frame : ℕ) (value : T) :
    (∀ b : CSimpleAudioBuffer T, b.Granted cells →
      b.m_numChls ≤ index ∨ b.m_blockSize ≤ frame →
        (b.Ignores index frame value ↔ b.m_numChls < index ∨ b.m_blockSize < frame ∨
          ∀ old, cells[b.position index frame]? = some old → old = 0 ∧ value = 0)) ∧
    ∀ b : CSimpleDataBuffer T, b.Granted cells →
      b.m_frameSize ≤ index ∨ b.m_blockSize ≤ frame →
        (b.Ignores index frame value ↔ b.m_blockSize < frame ∨
          ∀ old, cells[b.position index frame]? = some old →
            (b.m_frameSize < index ∨ old = value) ∧ (b.m_frameSize < frame ∨ old = 0)) :=
  ⟨fun _ h _ ↦ h.ignores_iff, fun _ h _ ↦ h.ignores_iff⟩

theorem outside_ignored_iff_last :
    (⟨2, 2, 4, 0, 0, false, true, some [0, 0, 0, 0]⟩ : CSimpleAudioBuffer ℕ).Ignores 2 0 7 ∧
      (⟨2, 2, 4, 0, 0, true, some 0, ⟨[some [0, 0, 0, 0]]⟩⟩ :
        CSimpleDataBuffer ℕ).Ignores 2 1 7 := by
  have haudio := (@outside_ignored_iff ℕ [0, 0, 0, 0] _ 2 0 7).1
    ⟨2, 2, 4, 0, 0, false, true, some [0, 0, 0, 0]⟩
    ⟨by decide, by decide, rfl, rfl, rfl, rfl⟩ (by decide)
  have hdata := (@outside_ignored_iff ℕ [0, 0, 0, 0] _ 2 1 7).2
    ⟨2, 2, 4, 0, 0, true, some 0, ⟨[some [0, 0, 0, 0]]⟩⟩
    ⟨by decide, by decide, rfl, rfl, ⟨0, rfl, rfl⟩, rfl⟩ (by decide)
  exact ⟨haudio.mpr (.inr (.inr nofun)), hdata.mpr (.inr nofun)⟩

/-- The channel behind the last one of a frame is the first one of the next frame. -/
theorem not_ignores_next_frame :
    let b : CSimpleAudioBuffer ℕ :=
      (((.new true : CSimpleAudioBuffer ℕ).setSize 2 2).alloc 0 true).2
    b.Granted [0, 0, 0, 0] ∧ b.m_numChls ≤ 2 ∧ ¬b.Ignores 2 0 7 := by
  refine ⟨⟨by decide, by decide, rfl, rfl, rfl, rfl⟩, by decide, ?_⟩
  rintro ⟨⟨b', hset, hblock⟩, -⟩
  obtain rfl := Except.ok.inj hset
  have hcells : [0, 0, 7, 0] = [0, 0, 0, 0] := Except.ok.inj hblock
  exact absurd hcells (by decide)

end RdbLibs.Buffer
