import RdbLibs.Buffer.CVRingBuffer.Calls
import RdbLibs.Foundations.Runs

/-!
# The states that a `CVRingBuffer` reaches

`Reachable` holds of every state that the constructors and any calls of public methods lead to. In
all of them the vector has the size that `m_bufferSize` says (`Reachable.sized`). The index
invariant is not among the properties of all reachable states, because `setMaxBufferSize` clears
the vector and leaves the counters of the old capacity behind, although its comment says that it
flushes. `Fits` says that the counters happen to describe a queue in the new capacity too.
`Settled` holds of the states of the runs in which every resizing that succeeds fits, or is
followed by a `flush`; these are the runs without a wrong resizing, and they keep the invariant
(`Settled.indexed`).
-/

set_option autoImplicit false
set_option relaxedAutoImplicit false

namespace RdbLibs.Buffer.CVRingBuffer

open MachineWord WhileLoop

variable {T : Type*} [Zero T] {N : ℕ} {s s' : CVRingBuffer T}

/-! ### Construction -/

/-- The buffers that a constructor makes with capacity `N`. -/
inductive Built (N : ℕ) : CVRingBuffer T → Prop
  | entries {granted : Bool} {s : CVRingBuffer T} : construct N granted = some s → Built N s
  | blocks {entriesPerBlock numBlocks : ℕ} {granted : Bool} {s : CVRingBuffer T} :
      toSize (entriesPerBlock * numBlocks) = N →
        constructBlocks entriesPerBlock numBlocks granted = some s → Built N s

/-- A buffer without a vector, as the constructors make it when they are asked for no entries. -/
structure Blank (s : CVRingBuffer T) : Prop where
  dataBuffer_eq : s.m_dataBuffer = []
  bufferSize_eq : s.m_bufferSize = 0
  dataSize_eq : s.m_currentDataSize = 0
  writeIdx_eq : s.m_writeIdx = 0
  readIdx_eq : s.m_readIdx = 0

omit [Zero T] in
theorem blank_unsized (entriesPerBlock : ℕ) :
    Blank (unsized entriesPerBlock : CVRingBuffer T) :=
  ⟨rfl, rfl, rfl, rfl, rfl⟩

/-- The counters describe a queue in a buffer of capacity `size`. -/
def Fits (s : CVRingBuffer T) (size : ℕ) : Prop :=
  s.m_readIdx < size ∧ s.m_writeIdx < size ∧ s.m_currentDataSize ≤ size ∧
    s.m_writeIdx = (s.m_readIdx + s.m_currentDataSize) % size

instance (s : CVRingBuffer T) (size : ℕ) : Decidable (s.Fits size) :=
  inferInstanceAs (Decidable (_ ∧ _ ∧ _ ∧ _))

/-- A resized buffer has the index invariant exactly when its counters fit. -/
theorem indexed_resized_iff (s : CVRingBuffer T) (size entriesPerBlock : ℕ) :
    Indexed size { s.resized size with m_entriesPerBlock := entriesPerBlock } ↔ s.Fits size := by
  constructor
  · intro h
    exact ⟨h.readIdx_lt, h.writeIdx_lt, h.dataSize_le, h.writeIdx_eq⟩
  · rintro ⟨hread, hwrite, hsize, heq⟩
    exact ⟨List.length_replicate, rfl, hread, hwrite, hsize, heq⟩

omit [Zero T] in
theorem Blank.fits (h : Blank s) {size : ℕ} (hpos : 0 < size) : s.Fits size := by
  simp [Fits, h.readIdx_eq, h.writeIdx_eq, h.dataSize_eq, hpos]

/-- What a constructor makes: a buffer without a vector, or an empty one that is indexed. -/
theorem sized_unsized {entriesPerBlock numEntries : ℕ} {granted : Bool}
    (h : ((unsized entriesPerBlock : CVRingBuffer T).setBufferSize numEntries granted).map
      Prod.snd = some s) :
    numEntries = 0 ∧ Blank s ∨ 0 < numEntries ∧ Indexed numEntries s ∧ s.stored = [] := by
  rw [setBufferSize_eq] at h
  by_cases hpos : 0 < numEntries
  · rw [if_pos hpos] at h
    split_ifs at h with hgranted
    · obtain rfl := Option.some.inj h
      refine .inr ⟨hpos, ?_, stored_of_dataSize_eq_zero rfl⟩
      exact (indexed_resized_iff (unsized entriesPerBlock) numEntries entriesPerBlock).mpr
        ((blank_unsized entriesPerBlock).fits hpos)
    · cases h
  · rw [if_neg hpos] at h
    obtain rfl := Option.some.inj h
    exact .inl ⟨by omega, blank_unsized _⟩

theorem Built.indexed (h : Built N s) (hpos : 0 < N) : Indexed N s ∧ s.stored = [] := by
  cases h with
  | entries hmake =>
    rw [construct, if_pos hpos] at hmake
    rcases sized_unsized hmake with ⟨hzero, _⟩ | ⟨_, hindexed, hstored⟩
    · omega
    · exact ⟨hindexed, hstored⟩
  | blocks hproduct hmake =>
    rw [constructBlocks] at hmake
    split_ifs at hmake with hfactors
    · rw [hproduct] at hmake
      rcases sized_unsized hmake with ⟨hzero, _⟩ | ⟨_, hindexed, hstored⟩
      · omega
      · exact ⟨hindexed, hstored⟩
    · rcases not_and_or.mp hfactors with hzero | hzero
      · simp [Nat.eq_zero_of_not_pos hzero, toSize] at hproduct
        omega
      · simp [Nat.eq_zero_of_not_pos hzero, toSize] at hproduct
        omega

/-! ### All runs -/

/-- The states that the public interface leads to. -/
inductive Reachable : CVRingBuffer T → Prop
  | built {N : ℕ} {s : CVRingBuffer T} : Built N s → Reachable s
  | step {s s' : CVRingBuffer T} {op : Op T} {reply : Reply T} :
      Reachable s → Step s op reply s' → Reachable s'

/-- The states of the runs in which every resizing fits the counters, or is followed by a flush. -/
inductive Settled : CVRingBuffer T → Prop
  | built {N : ℕ} {s : CVRingBuffer T} : Built N s → Settled s
  | step {s s' : CVRingBuffer T} {op : Op T} {reply : Reply T} : Settled s →
      (∀ size, op.newSize = some size → s.Fits size) → Step s op reply s' → Settled s'
  | flush {s s' : CVRingBuffer T} {bZeroOutBuffer : Bool} {reply : Reply T} : Reachable s →
      Step s (.flush bZeroOutBuffer) reply s' → Settled s'

/-- A buffer of numbers with these cells and counters, for concrete runs. -/
def ofCells (m_dataBuffer : List ℕ) (m_currentDataSize m_writeIdx m_readIdx : ℕ) :
    CVRingBuffer ℕ where
  m_dataBuffer := m_dataBuffer
  m_bufferSize := m_dataBuffer.length
  m_entriesPerBlock := 1
  m_currentDataSize := m_currentDataSize
  m_writeIdx := m_writeIdx
  m_readIdx := m_readIdx

theorem built_ofCells_two : Built 2 (ofCells [0, 0] 0 0 0) :=
  .entries (show construct 2 true = some _ from rfl)

/-- One entry in a buffer of two. -/
theorem settled_one : Settled (ofCells [7, 0] 1 1 0) :=
  .step (.built built_ofCells_two) (by intro size hsize; cases hsize)
    (⟨2, rfl⟩ : Step _ (.writeBlock (some fun _ ↦ 7) 1 false) (.count 1) _)

/-- Two entries in a buffer of two. -/
theorem settled_two : Settled (ofCells [7, 8] 2 0 0) :=
  .step (.built built_ofCells_two) (by intro size hsize; cases hsize)
    (⟨3, rfl⟩ : Step _ (.writeBlock (some fun offset ↦ 7 + offset) 2 false) (.count 2) _)

/-- Two entries in a buffer of three. -/
theorem settled_two_of_three : Settled (ofCells [7, 8, 0] 2 2 0) :=
  .step (.built (.entries (show construct 3 true = some (ofCells [0, 0, 0] 0 0 0) from rfl)))
    (by intro size hsize; cases hsize)
    (⟨3, rfl⟩ : Step _ (.writeBlock (some fun offset ↦ 7 + offset) 2 false) (.count 2) _)

theorem Settled.reachable (h : Settled s) : Reachable s := by
  induction h with
  | built hbuilt => exact .built hbuilt
  | step _ _ hstep ih => exact .step ih hstep
  | flush hreach hstep => exact .step hreach hstep

/-! ### The size of the vector -/

theorem Sized.step (h : s.Sized) {op : Op T} {reply : Reply T} (hstep : Step s op reply s') :
    s'.Sized := by
  cases hstep.effect h with
  | nothing => exact h
  | writes _ hcall => exact h.writeEntries hcall
  | reads _ hcall => exact (h.readEntries hcall).1
  | erases numEntries => exact h.erase numEntries
  | flushes bZeroOutBuffer =>
    obtain ⟨cells, hcells, hflush⟩ := h.flush_eq bZeroOutBuffer
    rw [hflush]
    exact hcells
  | resizes _ _ => exact List.length_replicate

omit [Zero T] in
theorem Blank.sized (h : Blank s) : s.Sized := by
  rw [Sized, h.dataBuffer_eq, h.bufferSize_eq]
  rfl

theorem Built.blank_or_indexed (h : Built N s) : Blank s ∨ Indexed N s := by
  rcases Nat.eq_zero_or_pos N with rfl | hpos
  · refine .inl ?_
    cases h with
    | entries hmake =>
      obtain rfl := Option.some.inj hmake
      exact blank_unsized 1
    | blocks hproduct hmake =>
      rw [constructBlocks] at hmake
      split_ifs at hmake with hfactors
      · rw [hproduct] at hmake
        rcases sized_unsized hmake with ⟨_, hblank⟩ | ⟨hpos, _⟩
        · exact hblank
        · omega
      · obtain rfl := Option.some.inj hmake
        exact blank_unsized _
  · exact .inr (h.indexed hpos).1

/-- In every reachable state the vector has the size that the buffer counts with. -/
theorem Reachable.sized (h : Reachable s) : s.Sized := by
  induction h with
  | built hbuilt =>
    rcases hbuilt.blank_or_indexed with hblank | hindexed
    · exact hblank.sized
    · exact hindexed.sized
  | step _ hstep ih => exact ih.step hstep

/-! ### The index invariant of settled states -/

/-- A buffer without a vector stays so until it is resized. -/
theorem Blank.step (h : Blank s) {op : Op T} (hop : op.newSize = none) {reply : Reply T}
    (hstep : Step s op reply s') : Blank s' := by
  have hsize := h.bufferSize_eq
  cases hstep.effect h.sized with
  | nothing => exact h
  | writes hpos _ => omega
  | reads hpos _ => omega
  | erases numEntries =>
    simp only [erase, h.sized.growBufferSize_eq, h.dataBuffer_eq]
    rw [if_pos (.inl (by simp))]
    exact h
  | flushes bZeroOutBuffer =>
    obtain ⟨cells, hcells, hflush⟩ := h.sized.flush_eq bZeroOutBuffer
    rw [hflush]
    exact ⟨List.eq_nil_of_length_eq_zero (hcells.trans hsize), hsize, rfl, rfl, rfl⟩
  | resizes _ hresize =>
    rw [hop] at hresize
    cases hresize

/-- A state that has no vector or has the index invariant. -/
def Sound (s : CVRingBuffer T) : Prop := Blank s ∨ Indexed s.m_bufferSize s

omit [Zero T] in
theorem Indexed.sound (h : Indexed N s) : s.Sound := .inr (by rw [h.bufferSize_eq]; exact h)

theorem Sound.step (h : s.Sound) {op : Op T} (hfits : ∀ size, op.newSize = some size → s.Fits size)
    {reply : Reply T} (hstep : Step s op reply s') : s'.Sound := by
  cases hsize : op.newSize with
  | none =>
    rcases h with hblank | hindexed
    · exact .inl (hblank.step hsize hstep)
    · exact (hindexed.step hsize hstep).sound
  | some size =>
    obtain ⟨_, entriesPerBlock, rfl⟩ := hstep.of_newSize hsize
    exact ((indexed_resized_iff s size entriesPerBlock).mpr (hfits size hsize)).sound

theorem Settled.sound (h : Settled s) : s.Sound := by
  induction h with
  | built hbuilt =>
    rcases hbuilt.blank_or_indexed with hblank | hindexed
    · exact .inl hblank
    · exact hindexed.sound
  | step _ hfits hstep ih => exact ih.step hfits hstep
  | @flush s s' bZeroOutBuffer reply hreach hstep =>
    obtain ⟨fuel, hfuel⟩ := hstep
    obtain ⟨_, rfl⟩ := Prod.mk.inj (Option.some.inj hfuel)
    obtain ⟨cells, hcells, hflush⟩ := hreach.sized.flush_eq bZeroOutBuffer
    rw [hflush]
    rcases Nat.eq_zero_or_pos s.m_bufferSize with hzero | hpos
    · rw [hzero] at hcells
      exact .inl ⟨List.eq_nil_of_length_eq_zero hcells, hzero, rfl, rfl, rfl⟩
    · exact .inr (.resetIndices (s := { s with m_dataBuffer := cells }) hcells rfl hpos)

/-- A settled buffer of positive capacity has the index invariant. -/
theorem Settled.indexed (h : Settled s) (hsize : s.m_bufferSize = N) (hpos : 0 < N) :
    Indexed N s := by
  rcases h.sound with hblank | hindexed
  · have hzero := hblank.bufferSize_eq
    omega
  · rw [← hsize]
    exact hindexed

end RdbLibs.Buffer.CVRingBuffer
