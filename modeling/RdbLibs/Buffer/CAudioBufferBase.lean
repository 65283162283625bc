import RdbLibs.Foundations.CellLoops
import RdbLibs.Foundations.GridLayout
import RdbLibs.Foundations.MachineWord
import RdbLibs.Foundations.Runs

/-!
# `CAudioBufferBase` and its two subclasses

The base class of `Src/Buffer/CAudioBuffer.h`, with `CInterleavedBuffer` and
`CNonInterleavedBuffer`. The accessors of the subclasses check only that the buffer is
`initialized`, and the sizes can be set at any time. The samples that the sizes name stay inside
the block exactly when their number is at most that of the samples allocated (`staysInside_iff`).
So a buffer stays inside in all states of a run exactly when a size is set only to what the block
has room for, and what is allocated is counted without overflow (`accesses_stay_inside_iff`). Then,
and only then, the accessors reach all samples (`accesses_succeed_iff`).
-/

set_option autoImplicit false
set_option relaxedAutoImplicit false

namespace RdbLibs.Buffer

open CheckedMemory GridLayout MachineWord Runs

/-- `CAudioBufferBase<T>`. -/
structure CAudioBufferBase (T : Type*) where
  m_pBuff : Option (List T)
  m_numChls : ℕ
  m_samplesPerBlock : ℕ
  m_totalNumSamples : ℕ
  m_bAllocated : Bool

variable {T : Type*}

namespace CAudioBufferBase

/-- `CAudioBufferBase::allocBuffer`. `granted` is whether `calloc` finds the memory. -/
def allocBuffer [Zero T] (b : CAudioBufferBase T) (granted : Bool) : CAudioBufferBase T :=
  if b.m_numChls = 0 ∨ b.m_samplesPerBlock = 0 then b
  else
    let totalNumSamples := toUnsigned (b.m_numChls * b.m_samplesPerBlock)
    if granted then
      { b with
        m_totalNumSamples := totalNumSamples
        m_pBuff := some (List.replicate totalNumSamples 0)
        m_bAllocated := true }
    else { b with m_pBuff := none, m_totalNumSamples := 0 }

/-- `CAudioBufferBase::alloc`. -/
def alloc [Zero T] (b : CAudioBufferBase T) (size : ℕ) (granted : Bool) : CAudioBufferBase T :=
  let b := if 0 < size then { b with m_samplesPerBlock := size } else b
  let b := if b.m_numChls = 0 then { b with m_numChls := 1 } else b
  b.allocBuffer granted

/-- `CAudioBufferBase::freeBuffer`. -/
def freeBuffer (b : CAudioBufferBase T) : CAudioBufferBase T :=
  { b with m_pBuff := none, m_bAllocated := false, m_totalNumSamples := 0 }

/-- `CAudioBufferBase::setNumChannels`. -/
def setNumChannels (b : CAudioBufferBase T) (numChls : ℕ) : CAudioBufferBase T :=
  { b with m_numChls := numChls }

/-- `CAudioBufferBase::setSamplesPerBlock`. -/
def setSamplesPerBlock (b : CAudioBufferBase T) (samplesPerBlk : ℕ) : CAudioBufferBase T :=
  { b with m_samplesPerBlock := samplesPerBlk }

/-- `CAudioBufferBase::initialized`. -/
def initialized (b : CAudioBufferBase T) : Bool :=
  if b.m_numChls < 1 ∨ b.m_samplesPerBlock < 1 then false
  else if b.m_pBuff.isNone then false
  else if b.m_bAllocated = false then false
  else if b.m_totalNumSamples < 1 then false
  else true

/-- The block behind `m_pBuff`. -/
def block (b : CAudioBufferBase T) : Except Fault (List T) :=
  match b.m_pBuff with
  | none => .error .nullPointer
  | some cells => .ok cells

/-- Writes a sample into a cell, as `setSample` of both subclasses does. -/
def setCell (b : CAudioBufferBase T) (cell : ℕ) (value : T) :
    Except Fault (CAudioBufferBase T) :=
  if b.initialized = false then .ok b
  else do
    let cells ← store (← b.block) cell value
    return { b with m_pBuff := some cells }

/-- Reads the sample of a cell, as `getSample` of both subclasses does. -/
def getCell [Zero T] (b : CAudioBufferBase T) (cell : ℕ) : Except Fault T :=
  if b.initialized = false then .ok 0
  else do load (← b.block) cell

/-- What is constructed. The constructor that takes both sizes leaves `m_bAllocated` as it finds it,
and allocates. -/
inductive Constructor
  | default
  | channels (numChls : ℕ)
  | sized (numChls samplesPerBlk : ℕ) (bAllocated granted : Bool)

/-- The constructors. The first two have no samples in a block, and do not allocate. -/
def new [Zero T] : Constructor → CAudioBufferBase T
  | .default => allocBuffer ⟨none, 0, 0, 0, false⟩ false
  | .channels numChls => allocBuffer ⟨none, numChls, 0, 0, false⟩ false
  | .sized numChls samplesPerBlk bAllocated granted =>
    allocBuffer ⟨none, numChls, samplesPerBlk, 0, bAllocated⟩ granted

end CAudioBufferBase

open CAudioBufferBase

namespace CInterleavedBuffer

/-- The cell of a sample in a `CInterleavedBuffer`, in 64 bits. -/
def cell (b : CAudioBufferBase T) (chan frame : ℕ) : ℕ := frame * b.m_numChls + chan

/-- `CInterleavedBuffer::setSample`. -/
def setSample (b : CAudioBufferBase T) (chan frame : ℕ) (value : T) :
    Except Fault (CAudioBufferBase T) := b.setCell (cell b chan frame) value

/-- `CInterleavedBuffer::getSample`. -/
def getSample [Zero T] (b : CAudioBufferBase T) (chan frame : ℕ) : Except Fault T :=
  b.getCell (cell b chan frame)

end CInterleavedBuffer

namespace CNonInterleavedBuffer

/-- The cell of a sample in a `CNonInterleavedBuffer`, in 64 bits. -/
def cell (b : CAudioBufferBase T) (chan index : ℕ) : ℕ := chan * b.m_samplesPerBlock + index

/-- `CNonInterleavedBuffer::setSample`. -/
def setSample (b : CAudioBufferBase T) (chan index : ℕ) (value : T) :
    Except Fault (CAudioBufferBase T) := b.setCell (cell b chan index) value

/-- `CNonInterleavedBuffer::getSample`. -/
def getSample [Zero T] (b : CAudioBufferBase T) (chan index : ℕ) : Except Fault T :=
  b.getCell (cell b chan index)

end CNonInterleavedBuffer

namespace CAudioBufferBase

/-! ### Where the accesses go -/

/-- The buffer has a block of samples, and knows of it. -/
def HasBlock (b : CAudioBufferBase T) : Prop :=
  b.m_pBuff.isSome = true ∧ b.m_bAllocated = true ∧ 1 ≤ b.m_totalNumSamples

theorem initialized_iff {b : CAudioBufferBase T} :
    b.initialized = true ↔ 1 ≤ b.m_numChls ∧ 1 ≤ b.m_samplesPerBlock ∧ b.HasBlock := by
  rw [initialized, HasBlock]
  constructor
  · intro h
    split_ifs at h with hsizes hnone hnot htotal
    have hsome : b.m_pBuff.isSome = true := by
      rwa [← Option.not_isNone, Bool.not_eq_true', ← Bool.not_eq_true]
    exact ⟨by omega, by omega, hsome, Bool.not_eq_false _ ▸ hnot, by omega⟩
  · rintro ⟨hchannels, hsamples, hsome, hallocated, htotal⟩
    have hnone : ¬b.m_pBuff.isNone = true := by
      rwa [Bool.not_eq_true, ← Bool.not_eq_true', Option.not_isNone]
    rw [if_neg (by omega), if_neg hnone, if_neg (by rw [hallocated]; decide), if_neg (by omega)]

/-- Each sample that the sizes name is in one of the cells that are allocated. -/
def StaysInside (b : CAudioBufferBase T) (cell : ℕ → ℕ → ℕ) : Prop :=
  b.initialized = true → ∀ chan < b.m_numChls, ∀ frame < b.m_samplesPerBlock,
    cell chan frame < b.m_totalNumSamples

/-- The block has as many cells as the buffer counts. -/
def Sized (b : CAudioBufferBase T) : Prop :=
  ∀ cells, b.m_pBuff = some cells → cells.length = b.m_totalNumSamples

theorem sized_of_none {b : CAudioBufferBase T} (h : b.m_pBuff = none) : b.Sized := by
  intro cells hcells
  rw [h] at hcells
  cases hcells

/-- In a block that has as many cells as the buffer counts, a sample is written and read exactly
where its cell is one of them. -/
theorem Sized.isOk_setCell_getCell [Zero T] {b : CAudioBufferBase T} (h : b.Sized)
    (hinitialized : b.initialized = true) (cell : ℕ) (value : T) :
    ((b.setCell cell value).isOk = true ↔ cell < b.m_totalNumSamples) ∧
      ((b.getCell cell).isOk = true ↔ cell < b.m_totalNumSamples) := by
  obtain ⟨cells, hcells⟩ := Option.isSome_iff_exists.mp (initialized_iff.mp hinitialized).2.2.1
  have hnot : ¬b.initialized = false := Bool.not_eq_false _ ▸ hinitialized
  rw [setCell, getCell, if_neg hnot, if_neg hnot, block, hcells, ok_bind, ok_bind, ← h cells hcells,
    isOk_bind_iff, ← @isOk_store _ cells cell value, isOk_load, isOk_store]
  refine ⟨⟨?_, fun hcell ↦ ⟨_, store_of_lt hcell value, rfl⟩⟩, Iff.rfl⟩
  rintro ⟨cells', hstore, -⟩
  exact isOk_store.mp (isOk_iff.mpr ⟨cells', hstore⟩)

/-- The samples that the sizes name have room in the block. -/
def HasRoom (b : CAudioBufferBase T) : Prop :=
  b.HasBlock → b.m_numChls * b.m_samplesPerBlock ≤ b.m_totalNumSamples

/-- Where there is a block, a size that is zero names no sample, and asks for no room. -/
theorem staysInside_iff {b : CAudioBufferBase T} {cell : ℕ → ℕ → ℕ}
    (hcell : (∀ chan < b.m_numChls, ∀ frame < b.m_samplesPerBlock,
      cell chan frame < b.m_totalNumSamples) ↔
        b.m_numChls * b.m_samplesPerBlock ≤ b.m_totalNumSamples) :
    b.StaysInside cell ↔ b.HasRoom := by
  rw [StaysInside, hcell, initialized_iff, HasRoom]
  constructor
  · intro h hblock
    rcases b.m_numChls.eq_zero_or_pos with hzero | hchannels
    · rw [hzero, Nat.zero_mul]
      exact Nat.zero_le _
    rcases b.m_samplesPerBlock.eq_zero_or_pos with hzero | hsamples
    · rw [hzero, Nat.mul_zero]
      exact Nat.zero_le _
    exact h ⟨hchannels, hsamples, hblock⟩
  · exact fun h hinitialized ↦ h hinitialized.2.2

theorem staysInside_interleaved_iff {b : CAudioBufferBase T} :
    b.StaysInside (CInterleavedBuffer.cell b) ↔ b.HasRoom := by
  refine staysInside_iff ?_
  rw [Nat.mul_comm, ← forall_mul_add_lt_iff]
  exact ⟨fun h frame hframe chan hchan ↦ h chan hchan frame hframe,
    fun h chan hchan frame hframe ↦ h frame hframe chan hchan⟩

theorem staysInside_nonInterleaved_iff {b : CAudioBufferBase T} :
    b.StaysInside (CNonInterleavedBuffer.cell b) ↔ b.HasRoom :=
  staysInside_iff forall_mul_add_lt_iff

/-! ### Runs -/

/-- A call that changes the sizes or the block, with the number of samples it asks for and whether
the memory is found. -/
inductive Call
  | setNumChannels (numChls : ℕ)
  | setSamplesPerBlock (samplesPerBlk : ℕ)
  | alloc (size : ℕ) (granted : Bool)
  | allocBuffer (granted : Bool)
  | freeBuffer

variable [Zero T]

/-- A buffer after a call. -/
def apply (b : CAudioBufferBase T) : Call → CAudioBufferBase T
  | .setNumChannels numChls => b.setNumChannels numChls
  | .setSamplesPerBlock samplesPerBlk => b.setSamplesPerBlock samplesPerBlk
  | .alloc size granted => b.alloc size granted
  | .allocBuffer granted => b.allocBuffer granted
  | .freeBuffer => b.freeBuffer

/-- A buffer after its construction and a sequence of calls. -/
def run (T : Type*) [Zero T] (constructor : Constructor) (calls : List Call) : CAudioBufferBase T :=
  calls.foldl apply (new constructor)

theorem run_append_singleton (constructor : Constructor) (calls : List Call) (call : Call) :
    run T constructor (calls ++ [call]) = (run T constructor calls).apply call := by
  rw [run, List.foldl_append]
  rfl

/-- The number of samples is what `unsigned int` makes of it, or becomes zero. -/
def Counts (numChls samplesPerBlock : ℕ) : Prop :=
  numChls * samplesPerBlock < 2 ^ 32 ∨ numChls * samplesPerBlock % 2 ^ 32 = 0

/-- What construction must meet. -/
def Constructor.Meets : Constructor → Prop
  | .default => True
  | .channels _ => True
  | .sized numChls samplesPerBlk _ granted => granted = true → Counts numChls samplesPerBlk

/-- What a call must meet: a size is set only to what the block has room for, and what is allocated
is counted. -/
def Meets (b : CAudioBufferBase T) : Call → Prop
  | .setNumChannels numChls => b.HasBlock → numChls * b.m_samplesPerBlock ≤ b.m_totalNumSamples
  | .setSamplesPerBlock samplesPerBlk =>
    b.HasBlock → b.m_numChls * samplesPerBlk ≤ b.m_totalNumSamples
  | .alloc size granted => granted = true →
    Counts (if b.m_numChls = 0 then 1 else b.m_numChls)
      (if 0 < size then size else b.m_samplesPerBlock)
  | .allocBuffer granted => granted = true → Counts b.m_numChls b.m_samplesPerBlock
  | .freeBuffer => True

theorem sized_allocBuffer {b : CAudioBufferBase T} (h : b.Sized) (granted : Bool) :
    (b.allocBuffer granted).Sized := by
  unfold allocBuffer
  split_ifs
  · exact h
  · intro cells hcells
    obtain rfl := Option.some.inj hcells
    exact List.length_replicate
  · exact sized_of_none rfl

theorem sized_new (constructor : Constructor) : (new constructor : CAudioBufferBase T).Sized := by
  cases constructor <;> exact sized_allocBuffer (sized_of_none rfl) _

theorem Sized.apply {b : CAudioBufferBase T} (h : b.Sized) (call : Call) :
    (b.apply call).Sized := by
  cases call with
  | setNumChannels numChls => exact h
  | setSamplesPerBlock samplesPerBlk => exact h
  | alloc size granted =>
    refine sized_allocBuffer ?_ granted
    split_ifs <;> exact h
  | allocBuffer granted => exact sized_allocBuffer h granted
  | freeBuffer => exact sized_of_none rfl

/-- In every state of a run the block has as many cells as the buffer counts. -/
theorem sized_run (constructor : Constructor) (calls : List Call) :
    (run T constructor calls).Sized := by
  induction calls using List.reverseRecOn with
  | nil => exact sized_new constructor
  | append_singleton calls call ih =>
    rw [run_append_singleton]
    exact ih.apply call

/-- All samples that the sizes name are written and read. -/
def Accesses (b : CAudioBufferBase T) (cell : ℕ → ℕ → ℕ) : Prop :=
  b.initialized = true → ∀ chan < b.m_numChls, ∀ frame < b.m_samplesPerBlock, ∀ value,
    (b.setCell (cell chan frame) value).isOk = true ∧ (b.getCell (cell chan frame)).isOk = true

/-- In every state of a run, the samples stay inside exactly where all of them are accessed. -/
theorem accesses_run_iff (constructor : Constructor) (calls : List Call) (cell : ℕ → ℕ → ℕ) :
    (run T constructor calls).Accesses cell ↔ (run T constructor calls).StaysInside cell := by
  refine forall_congr' fun hinitialized ↦ forall_congr' fun chan ↦ forall_congr' fun _ ↦
    forall_congr' fun frame ↦ forall_congr' fun _ ↦ ?_
  have haccess (value : T) :=
    (sized_run constructor calls).isOk_setCell_getCell hinitialized (cell chan frame) value
  constructor
  · intro hall
    exact (haccess 0).2.mp (hall 0).2
  · intro hinside value
    exact ⟨(haccess value).1.mpr hinside, (haccess value).2.mpr hinside⟩

theorem hasRoom_allocBuffer_iff {b : CAudioBufferBase T} {granted : Bool} :
    (b.allocBuffer granted).HasRoom ↔
      (granted = true → Counts b.m_numChls b.m_samplesPerBlock) := by
  unfold allocBuffer
  split_ifs with hzero hgranted
  · have hproduct : b.m_numChls * b.m_samplesPerBlock = 0 := Nat.mul_eq_zero.mpr hzero
    refine iff_of_true (fun _ ↦ ?_) fun _ ↦ .inl ?_
    · rw [hproduct]
      exact Nat.zero_le _
    · rw [hproduct]
      decide
  · rw [HasRoom, HasBlock, Counts, toUnsigned]
    simp only [Option.isSome_some, true_and, hgranted, forall_const]
    omega
  · exact iff_of_true (fun h ↦ absurd h.1 Bool.false_ne_true) fun h ↦ absurd h hgranted

theorem hasRoom_new_iff {constructor : Constructor} :
    (new constructor : CAudioBufferBase T).HasRoom ↔ constructor.Meets := by
  cases constructor with
  | default => exact hasRoom_allocBuffer_iff.trans (iff_of_true nofun trivial)
  | channels numChls => exact hasRoom_allocBuffer_iff.trans (iff_of_true nofun trivial)
  | sized numChls samplesPerBlk bAllocated granted => exact hasRoom_allocBuffer_iff

theorem hasRoom_apply_iff {b : CAudioBufferBase T} {call : Call} :
    (b.apply call).HasRoom ↔ b.Meets call := by
  cases call with
  | setNumChannels numChls => exact Iff.rfl
  | setSamplesPerBlock samplesPerBlk => exact Iff.rfl
  | alloc size granted =>
    refine hasRoom_allocBuffer_iff.trans ?_
    rw [Meets]
    split_ifs <;> rfl
  | allocBuffer granted => exact hasRoom_allocBuffer_iff
  | freeBuffer => exact iff_of_true (fun h ↦ nomatch h.1) trivial

/-- A run has room for the samples in all its states exactly when its construction and its calls
meet the conditions. -/
theorem hasRoom_run_iff (constructor : Constructor) (calls : List Call) :
    (∀ before, before <+: calls → (run T constructor before).HasRoom) ↔
      constructor.Meets ∧ ∀ before call, before ++ [call] <+: calls →
        (run T constructor before).Meets call := by
  rw [← hasRoom_new_iff (T := T)]
  by_cases hnew : (new constructor : CAudioBufferBase T).HasRoom
  · rw [and_iff_right hnew]
    refine forall_isPrefix_iff hnew (fun before call _ ↦ ?_) calls
    rw [run_append_singleton, hasRoom_apply_iff]
  · exact iff_of_false (fun h ↦ hnew (h [] List.nil_prefix)) fun h ↦ hnew h.1

/-- The samples of both subclasses are written and read, in all states of a run, exactly when
construction and calls meet the conditions. -/
theorem accesses_succeed_iff (constructor : Constructor) (calls : List Call) :
    ((∀ before, before <+: calls → let b := run T constructor before
      b.Accesses (CInterleavedBuffer.cell b)) ↔
        constructor.Meets ∧ ∀ before call, before ++ [call] <+: calls →
          (run T constructor before).Meets call) ∧
    ((∀ before, before <+: calls → let b := run T constructor before
      b.Accesses (CNonInterleavedBuffer.cell b)) ↔
        constructor.Meets ∧ ∀ before call, before ++ [call] <+: calls →
          (run T constructor before).Meets call) := by
  rw [← hasRoom_run_iff]
  simp only [accesses_run_iff, staysInside_interleaved_iff, staysInside_nonInterleaved_iff,
    and_self]

/-- The accesses of both subclasses stay inside what is allocated, in all states of a run, exactly
when construction and calls meet the conditions. -/
theorem accesses_stay_inside_iff (constructor : Constructor) (calls : List Call) :
    ((∀ before, before <+: calls → let b := run T constructor before
      b.StaysInside (CInterleavedBuffer.cell b)) ↔
        constructor.Meets ∧ ∀ before call, before ++ [call] <+: calls →
          (run T constructor before).Meets call) ∧
    ((∀ before, before <+: calls → let b := run T constructor before
      b.StaysInside (CNonInterleavedBuffer.cell b)) ↔
        constructor.Meets ∧ ∀ before call, before ++ [call] <+: calls →
          (run T constructor before).Meets call) := by
  rw [← hasRoom_run_iff]
  simp only [staysInside_interleaved_iff, staysInside_nonInterleaved_iff, and_self]

/-- After one sample was allocated, a second channel is set. -/
theorem not_accesses_stay_inside :
    let b := run ℕ (.sized 1 1 false true) [.setNumChannels 2]
    b.initialized = true ∧ 1 < b.m_numChls ∧ 0 < b.m_samplesPerBlock ∧
      ¬CInterleavedBuffer.cell b 1 0 < b.m_totalNumSamples ∧
        CInterleavedBuffer.getSample b 1 0 = .error .outOfBounds := by
  decide

end CAudioBufferBase

end RdbLibs.Buffer
