import RdbLibs.Buffer.BlockTransfers
import RdbLibs.Foundations.FallibleRuns

/-!
# The block of a `CSimpleDataBuffer`, from its allocation to the destructor

`free` frees the block and leaves its pointer in `m_pBuffer`, where `getDataPtr` still finds it and
the destructor frees it again; `alloc` overwrites the pointer to a block that is still there. A
buffer that is not allocated and has a pointer is `Dangling`. A run of calls, with the destructor
at its end, uses its blocks properly exactly when no call of `alloc` meets an allocated buffer, no
call of `free` and no destructor meets a dangling one, no pointer is asked of a dangling one, and no
transfer at a given index wraps around (`runs_cleanly_iff`).
-/

set_option autoImplicit false
set_option relaxedAutoImplicit false

namespace RdbLibs.Buffer.CSimpleDataBuffer

open BlockHeap CheckedMemory FallibleRuns MachineWord

universe u

variable {T : Type u}

/-- The calls of the functions of the class, with their arguments. -/
inductive Operation (T : Type*)
  | setFrameSize (frameSize : ℕ)
  | setFramePerBlock (blockSize : ℕ)
  | setSize (frameSize blockSize : ℕ)
  | alloc (blockSize : ℕ) (granted : Bool)
  | free
  | clear
  | getBuffPtr
  | getDataPtr (index : ℕ)
  | getFramePtr (frame : ℕ)
  | getData (idx frame : ℕ)
  | setSample (idx frame : ℕ) (value : T)
  | resetReadIndex
  | resetWriteIndex
  | readItem
  | readData (index : ℕ)
  | readDataBlock (numItems : ℕ)
  | readDataBlockAt (startPos numItems : ℕ)
  | writeData (value : T)
  | writeDataBlockItem (index : ℕ) (value : T)
  | writeDataBlock (buf : List T)
  | writeDataBlockBytes (pBuf : List T)
  | writeDataBlockAt (buf : List T) (startPos : ℕ)

/-- A buffer after a call. -/
def apply [Zero T] (b : CSimpleDataBuffer T) :
    Operation T → Except HeapFault (CSimpleDataBuffer T)
  | .setFrameSize frameSize => .ok (b.setFrameSize frameSize)
  | .setFramePerBlock blockSize => .ok (b.setFramePerBlock blockSize)
  | .setSize frameSize blockSize => .ok (b.setSize frameSize blockSize)
  | .alloc blockSize granted => .ok (b.alloc blockSize granted).2
  | .free => b.free
  | .clear => b.clear
  | .getBuffPtr => .ok b
  | .getDataPtr _ => .ok b
  | .getFramePtr _ => .ok b
  | .getData idx frame => (b.getData idx frame).map fun _ ↦ b
  | .setSample idx frame value => b.setSample idx frame value
  | .resetReadIndex => .ok b.resetReadIndex
  | .resetWriteIndex => .ok b.resetWriteIndex
  | .readItem => b.readItem.map Prod.snd
  | .readData index => (b.readData index).map fun _ ↦ b
  | .readDataBlock numItems => (b.readDataBlock numItems).map fun answer ↦ answer.2.2
  | .readDataBlockAt startPos numItems => (b.readDataBlockAt startPos numItems).map fun _ ↦ b
  | .writeData value => (b.writeData value).map Prod.snd
  | .writeDataBlockItem index value => (b.writeDataBlockItem index value).map Prod.snd
  | .writeDataBlock buf => (b.writeDataBlock buf).map Prod.snd
  | .writeDataBlockBytes pBuf => (b.writeDataBlockBytes pBuf).map Prod.snd
  | .writeDataBlockAt buf startPos => (b.writeDataBlockAt buf startPos).map Prod.snd

/-- The pointer that a call answers. -/
def pointer (b : CSimpleDataBuffer T) : Operation T → Option ℕ
  | .getBuffPtr => b.getBuffPtr
  | .getDataPtr index => b.getDataPtr index
  | .getFramePtr frame => b.getFramePtr frame
  | _ => none

/-- The block behind `m_pBuffer` is not freed. -/
def Live (b : CSimpleDataBuffer T) : Prop :=
  ∃ block cells, b.m_pBuffer = some block ∧ b.heap.cells? block = some cells

/-- A pointer that is answered leads to a block that is not freed. -/
def AnswersLive (b : CSimpleDataBuffer T) (operation : Operation T) : Prop :=
  ∀ offset, b.pointer operation = some offset → b.Live

/-- The destructor has a result, and every block was freed. -/
def EndsClean (b : CSimpleDataBuffer T) : Prop :=
  ∃ b', b.destroy = .ok b' ∧ b'.heap.AllFreed

/-- No call of a run accesses what it must not, frees a block twice or answers a pointer to a freed
one, and after the destructor every block was freed. -/
def RunsCleanly [Zero T] (operations : List (Operation T)) : Prop :=
  Completes apply AnswersLive EndsClean new operations

/-- The buffer has a pointer, and is not allocated. -/
def Dangling (b : CSimpleDataBuffer T) : Prop := b.m_pBuffer.isSome = true ∧ b.m_bAllocated = false

/-- What each call must meet. -/
def Meets (b : CSimpleDataBuffer T) : Operation T → Prop
  | .alloc blockSize _ =>
    1 ≤ b.blockSizeOf blockSize → 1 ≤ b.m_frameSize → b.m_bAllocated = false
  | .free => ¬b.Dangling
  | .getDataPtr index => b.Dangling → b.m_arraySize ≤ toUnsigned (index * b.m_frameSize)
  | .readDataBlockAt startPos numItems =>
    b.m_bAllocated = true → ¬WrapsInside startPos numItems b.m_arraySize
  | .writeDataBlockAt buf startPos =>
    b.m_bAllocated = true → ¬WrapsInside startPos buf.length b.m_arraySize
  | _ => True

/-- The offsets and counts of a call are `unsigned int`. -/
def Operation.Words : Operation T → Prop
  | .readDataBlockAt startPos numItems => startPos < 2 ^ 32 ∧ numItems < 2 ^ 32
  | .writeDataBlockAt buf startPos => startPos < 2 ^ 32 ∧ buf.length < 2 ^ 32
  | _ => True

/-! ### Calls that leave the block where it is -/

/-- The pointer, the flag, the number of cells and the blocks are kept, but for what is in cells,
and so are the sizes where the buffer is allocated. -/
structure Keeps (b b' : CSimpleDataBuffer T) : Prop where
  pBuffer : b'.m_pBuffer = b.m_pBuffer
  allocated : b'.m_bAllocated = b.m_bAllocated
  arraySize : b'.m_arraySize = b.m_arraySize
  sizes : b.m_bAllocated = true → b'.m_frameSize = b.m_frameSize ∧ b'.m_blockSize = b.m_blockSize
  blocks : ∀ block, (b'.heap.cells? block).map List.length = (b.heap.cells? block).map List.length

variable {b b' : CSimpleDataBuffer T} {cells cells' : List T}

theorem Keeps.refl (b : CSimpleDataBuffer T) : b.Keeps b :=
  ⟨rfl, rfl, rfl, fun _ ↦ ⟨rfl, rfl⟩, fun _ ↦ rfl⟩

theorem Keeps.withIndices (h : b.Keeps b') (readIdx writeIdx : ℕ) :
    b.Keeps { b' with m_readIdx := readIdx, m_writeIdx := writeIdx } :=
  ⟨h.pBuffer, h.allocated, h.arraySize, h.sizes, h.blocks⟩

theorem keeps_setBlock (hblock : b.block = .ok cells) (hlength : cells'.length = cells.length) :
    b.Keeps (b.setBlock cells') := by
  obtain ⟨block, hpointer, hcells⟩ := Heap.of_cells_eq_ok hblock
  refine ⟨by simp, by simp, by simp, fun _ ↦ by simp, fun other ↦ ?_⟩
  rw [heap_setBlock b cells' hpointer]
  by_cases hother : other = block
  · subst hother
    rw [Heap.cells?_put_self (Heap.lt_next_of_cells? hcells), hcells, Option.map_some,
      Option.map_some, hlength]
  · rw [Heap.cells?_put_of_ne hother]

/-- A buffer that is allocated has the only block that is left. Where a buffer is not allocated, all
blocks were freed, and a pointer that is null counts no cells. -/
inductive Inv (b : CSimpleDataBuffer T) : Prop
  | allocated {cells : List T} (granted : b.Granted cells)
      (others : ∀ block, b.m_pBuffer ≠ some block → b.heap.cells? block = none)
  | released (unallocated : b.m_bAllocated = false) (freed : b.heap.AllFreed)
      (null : b.m_pBuffer = none → b.m_arraySize = 0)

theorem Inv.exists_granted (h : b.Inv) (hflag : ¬b.m_bAllocated = false) :
    ∃ cells, b.Granted cells := by
  cases h with
  | allocated granted others => exact ⟨_, granted⟩
  | released unallocated freed null => exact absurd unallocated hflag

/-- A call that keeps the buffer where it has a result, and has one from a state of `Inv` where it
meets a condition. -/
def Harmless {β : Type*} (b : CSimpleDataBuffer T) (Met : Prop) (call : Except HeapFault β)
    (after : β → CSimpleDataBuffer T) : Prop :=
  (∀ answer, call = .ok answer → b.Keeps (after answer)) ∧
    (b.Inv → Met → ∃ answer, call = .ok answer)

namespace Harmless

variable {α β : Type u} {Met : Prop} {after : β → CSimpleDataBuffer T}

theorem ok {answer : β} (h : b.Keeps (after answer)) : b.Harmless Met (.ok answer) after :=
  ⟨fun _ hanswer ↦ Except.ok.inj hanswer ▸ h, fun _ _ ↦ ⟨answer, rfl⟩⟩

theorem ite {condition : Prop} [Decidable condition] {first second : Except HeapFault β}
    (hfirst : condition → b.Harmless Met first after)
    (hsecond : ¬condition → b.Harmless Met second after) :
    b.Harmless Met (if condition then first else second) after := by
  split_ifs with h
  · exact hfirst h
  · exact hsecond h

theorem map {call : Except HeapFault β} (h : b.Harmless Met call after) :
    b.Harmless Met (call.map after) id := by
  constructor
  · intro answer hanswer
    cases call with
    | error fault => cases hanswer
    | ok value => exact Except.ok.inj hanswer ▸ h.1 value rfl
  · intro hinv hmet
    obtain ⟨answer, rfl⟩ := h.2 hinv hmet
    exact ⟨after answer, rfl⟩

/-- The rule for a function that reads the block and answers what it has read. -/
theorem read {read : List T → Except Fault β} (hflag : ¬b.m_bAllocated = false)
    (hread : ∀ cells, b.Granted cells → ∃ value, read cells = .ok value) :
    b.Harmless Met (b.block >>= fun cells ↦ access (read cells)) fun _ ↦ b := by
  refine ⟨fun _ _ ↦ .refl b, fun hinv _ ↦ ?_⟩
  obtain ⟨cells, hgranted⟩ := hinv.exists_granted hflag
  obtain ⟨value, hvalue⟩ := hread cells hgranted
  exact ⟨value, by rw [hgranted.block_eq, ok_bind, hvalue, access_ok]⟩

/-- The rule for a function that accesses the block and goes on with the result. -/
theorem transfer {transfer : List T → Except Fault α} {answer : α → β}
    (hflag : ¬b.m_bAllocated = false)
    (hkeeps : ∀ cells result, b.block = .ok cells → transfer cells = .ok result →
      b.Keeps (after (answer result)))
    (hresult : Met → ∀ cells, b.Granted cells → ∃ result, transfer cells = .ok result) :
    b.Harmless Met (b.block >>= fun cells ↦ access (transfer cells) >>= fun result ↦
      .ok (answer result)) after := by
  constructor
  · intro value hvalue
    obtain ⟨cells, hblock, hnext⟩ := of_bind_eq_ok hvalue
    obtain ⟨result, haccess, hanswer⟩ := of_bind_eq_ok hnext
    exact Except.ok.inj hanswer ▸ hkeeps cells result hblock (access_eq_ok.mp haccess)
  · intro hinv hmet
    obtain ⟨cells, hgranted⟩ := hinv.exists_granted hflag
    obtain ⟨result, hok⟩ := hresult hmet cells hgranted
    exact ⟨answer result, by rw [hgranted.block_eq, ok_bind, hok, access_ok, ok_bind]⟩

end Harmless

section Calls

variable {Met : Prop}

theorem harmless_clear [Zero T] : b.Harmless Met b.clear id := by
  refine .ite (fun _ ↦ .ok (.refl b)) fun hflag ↦ .ite (fun _ ↦ .ok (.refl b)) fun _ ↦
    .transfer hflag ?_ ?_
  · intro cells cells' hblock hfill
    exact (keeps_setBlock hblock (length_of_fillRange hfill)).withIndices 0 0
  · intro _ cells hgranted
    exact isOk_iff.mp (isOk_fillRange.mpr (by rw [Nat.zero_add, hgranted.length]))

theorem harmless_getData [Zero T] (idx frame : ℕ) :
    b.Harmless Met (b.getData idx frame) fun _ ↦ b := by
  refine .ite (fun _ ↦ .ok (.refl b)) fun hrefuses ↦ .ite (fun _ ↦ .ok (.refl b)) fun hfits ↦
    .read (fun hflag ↦ hrefuses (by simp [RefusesGet, hflag])) fun cells hgranted ↦ ?_
  exact ⟨_, load_of_lt (hgranted.length ▸ not_le.mp hfits)⟩

theorem harmless_setSample (idx frame : ℕ) (value : T) :
    b.Harmless Met (b.setSample idx frame value) id := by
  refine .ite (fun _ ↦ .ok (.refl b)) fun hrefuses ↦ .ite (fun _ ↦ .ok (.refl b)) fun hfits ↦
    .transfer (fun hflag ↦ hrefuses (by simp [RefusesSet, hflag])) ?_ ?_
  · intro cells cells' hblock hstore
    exact keeps_setBlock hblock (length_of_store hstore)
  · intro _ cells hgranted
    exact ⟨_, store_of_lt (hgranted.length ▸ not_le.mp hfits) value⟩

theorem harmless_readItem [Zero T] : b.Harmless Met b.readItem Prod.snd := by
  refine .ite (fun _ ↦ .ok (.refl b)) fun hflag ↦ .ite (fun _ ↦ .ok (.refl b)) fun hfits ↦
    .transfer hflag (fun _ _ _ _ ↦ (Keeps.refl b).withIndices _ _) fun _ cells hgranted ↦ ?_
  exact ⟨_, load_of_lt (hgranted.length ▸ not_le.mp hfits)⟩

theorem harmless_readData [Zero T] (index : ℕ) : b.Harmless Met (b.readData index) fun _ ↦ b := by
  refine .ite (fun _ ↦ .ok (.refl b)) fun hflag ↦ .ite (fun _ ↦ .ok (.refl b)) fun hfits ↦
    .read hflag fun cells hgranted ↦ ?_
  exact ⟨_, load_of_lt (hgranted.length ▸ not_le.mp hfits)⟩

theorem harmless_readDataBlock (numItems : ℕ) :
    b.Harmless Met (b.readDataBlock numItems) fun answer ↦ answer.2.2 := by
  refine .ite (fun _ ↦ .ok (.refl b)) fun hflag ↦ .ite (fun _ ↦ .ok (.refl b)) fun hfits ↦
    .transfer hflag (fun _ _ _ _ ↦ (Keeps.refl b).withIndices _ _) fun _ cells hgranted ↦ ?_
  have hlength := hgranted.length
  exact ⟨_, gather_range' (by omega)⟩

theorem harmless_readDataBlockAt {startPos numItems : ℕ} (hstart : startPos < 2 ^ 32)
    (hsmall : numItems < 2 ^ 32) :
    b.Harmless (b.Meets (.readDataBlockAt startPos numItems))
      (b.readDataBlockAt startPos numItems) fun _ ↦ b := by
  refine .ite (fun _ ↦ .ok (.refl b)) fun hflag ↦ .ite (fun _ ↦ .ok (.refl b)) fun hfits ↦
    .transfer hflag (fun _ _ _ _ ↦ .refl b) fun hmet cells hgranted ↦ ?_
  rw [exists_gather, hgranted.length,
    forall_index_lt_iff hstart hsmall hgranted.arraySize_lt (not_le.mp hfits)]
  exact hmet hgranted.allocated

theorem harmless_writeData (value : T) : b.Harmless Met (b.writeData value) Prod.snd := by
  refine .ite (fun _ ↦ .ok (.refl b)) fun hflag ↦ .ite (fun _ ↦ .ok (.refl b)) fun hfits ↦
    .transfer hflag ?_ ?_
  · intro cells cells' hblock hstore
    exact (keeps_setBlock hblock (length_of_store hstore)).withIndices _ _
  · intro _ cells hgranted
    exact ⟨_, store_of_lt (hgranted.length ▸ not_le.mp hfits) value⟩

theorem harmless_writeDataBlockItem (index : ℕ) (value : T) :
    b.Harmless Met (b.writeDataBlockItem index value) Prod.snd := by
  refine .ite (fun _ ↦ .ok (.refl b)) fun hflag ↦ .ite (fun _ ↦ .ok (.refl b)) fun hfits ↦
    .transfer hflag ?_ ?_
  · intro cells cells' hblock hstore
    exact keeps_setBlock hblock (length_of_store hstore)
  · intro _ cells hgranted
    exact ⟨_, store_of_lt (hgranted.length ▸ not_le.mp hfits) value⟩

theorem harmless_writeDataBlock (buf : List T) :
    b.Harmless Met (b.writeDataBlock buf) Prod.snd := by
  refine .ite (fun _ ↦ .ok (.refl b)) fun hflag ↦ .ite (fun _ ↦ .ok (.refl b)) fun hfits ↦
    .transfer hflag ?_ ?_
  · intro cells cells' hblock hscatter
    exact (keeps_setBlock hblock (length_of_scatter hscatter)).withIndices _ _
  · intro _ cells hgranted
    exact ⟨_, scatter_range' (hgranted.length ▸ (not_le.mp hfits).le)⟩

theorem harmless_writeDataBlockBytes (pBuf : List T) :
    b.Harmless Met (b.writeDataBlockBytes pBuf) Prod.snd := by
  refine .ite (fun _ ↦ .ok (.refl b)) fun hflag ↦ .ite (fun _ ↦ .ok (.refl b)) fun hfits ↦
    .transfer hflag ?_ ?_
  · intro cells cells' hblock hstore
    exact (keeps_setBlock hblock (length_of_storeRange hstore)).withIndices _ _
  · intro _ cells hgranted
    exact isOk_iff.mp (isOk_storeRange.mpr (hgranted.length ▸ (not_le.mp hfits).le))

theorem harmless_writeDataBlockAt {buf : List T} {startPos : ℕ} (hstart : startPos < 2 ^ 32)
    (hsmall : buf.length < 2 ^ 32) :
    b.Harmless (b.Meets (.writeDataBlockAt buf startPos)) (b.writeDataBlockAt buf startPos)
      Prod.snd := by
  refine .ite (fun _ ↦ .ok (.refl b)) fun hflag ↦ .ite (fun _ ↦ .ok (.refl b)) fun hfits ↦
    .transfer hflag ?_ ?_
  · intro cells cells' hblock hscatter
    exact keeps_setBlock hblock (length_of_scatter hscatter)
  · intro hmet cells hgranted
    rw [exists_scatter (by rw [List.length_map, List.length_range']), hgranted.length,
      forall_index_lt_iff hstart hsmall hgranted.arraySize_lt (not_le.mp hfits)]
    exact hmet hgranted.allocated

/-- The operations that may change the block behind `m_pBuffer` for another one. -/
def Operation.Manages : Operation T → Prop
  | .alloc _ _ => True
  | .free => True
  | _ => False

/-- All other calls keep the buffer, and have a result where they meet the condition. -/
theorem harmless_apply [Zero T] {operation : Operation T} (hmanages : ¬operation.Manages)
    (hwords : operation.Words) : b.Harmless (b.Meets operation) (b.apply operation) id := by
  cases operation with
  | setFrameSize frameSize =>
    refine .ok ?_
    unfold setFrameSize
    split_ifs with hflag
    · exact .refl b
    · exact ⟨rfl, rfl, rfl, fun h ↦ absurd h hflag, fun _ ↦ rfl⟩
  | setFramePerBlock blockSize =>
    refine .ok ?_
    unfold setFramePerBlock
    split_ifs with hflag
    · exact .refl b
    · exact ⟨rfl, rfl, rfl, fun h ↦ absurd h hflag, fun _ ↦ rfl⟩
  | setSize frameSize blockSize =>
    refine .ok ?_
    unfold setSize
    split_ifs with hflag
    · exact .refl b
    · exact ⟨rfl, rfl, rfl, fun h ↦ absurd h hflag, fun _ ↦ rfl⟩
  | alloc blockSize granted => exact absurd trivial hmanages
  | free => exact absurd trivial hmanages
  | clear => exact harmless_clear
  | getBuffPtr => exact .ok (.refl b)
  | getDataPtr index => exact .ok (.refl b)
  | getFramePtr frame => exact .ok (.refl b)
  | getData idx frame => exact (harmless_getData idx frame).map
  | setSample idx frame value => exact harmless_setSample idx frame value
  | resetReadIndex => exact .ok ((Keeps.refl b).withIndices 0 b.m_writeIdx)
  | resetWriteIndex => exact .ok ((Keeps.refl b).withIndices b.m_readIdx 0)
  | readItem => exact harmless_readItem.map
  | readData index => exact (harmless_readData index).map
  | readDataBlock numItems => exact (harmless_readDataBlock numItems).map
  | readDataBlockAt startPos numItems => exact (harmless_readDataBlockAt hwords.1 hwords.2).map
  | writeData value => exact (harmless_writeData value).map
  | writeDataBlockItem index value => exact (harmless_writeDataBlockItem index value).map
  | writeDataBlock buf => exact (harmless_writeDataBlock buf).map
  | writeDataBlockBytes pBuf => exact (harmless_writeDataBlockBytes pBuf).map
  | writeDataBlockAt buf startPos => exact (harmless_writeDataBlockAt hwords.1 hwords.2).map

end Calls

/-! ### What a run does to the blocks -/

theorem Keeps.cells?_eq_none_iff (h : b.Keeps b') (block : ℕ) :
    b'.heap.cells? block = none ↔ b.heap.cells? block = none := by
  rw [← Option.map_eq_none_iff (f := List.length), h.blocks block, Option.map_eq_none_iff]

theorem Inv.keeps (hinv : b.Inv) (h : b.Keeps b') : b'.Inv := by
  cases hinv with
  | @allocated cells granted others =>
    obtain ⟨block, hblock, hcells⟩ := granted.pBuffer
    obtain ⟨hframe, hsize⟩ := h.sizes granted.allocated
    have hlength := h.blocks block
    rw [hcells, Option.map_some, Option.map_eq_some_iff] at hlength
    obtain ⟨cells', hcells', hlength⟩ := hlength
    refine @Inv.allocated _ _ cells' ⟨?_, ?_, ?_, ?_, ⟨block, ?_, hcells'⟩, ?_⟩
      fun other hother ↦ ?_
    · exact hframe ▸ granted.frameSize_pos
    · exact hsize ▸ granted.blockSize_pos
    · rw [h.arraySize, hframe, hsize, granted.arraySize]
    · exact h.allocated.trans granted.allocated
    · exact h.pBuffer.trans hblock
    · rw [hlength, h.arraySize, granted.length]
    · exact (h.cells?_eq_none_iff other).mpr (others other (h.pBuffer ▸ hother))
  | released unallocated freed null =>
    refine .released (h.allocated.trans unallocated) (fun other ↦ ?_) fun hnull ↦ ?_
    · exact (h.cells?_eq_none_iff other).mpr (freed other)
    · exact h.arraySize.trans (null (h.pBuffer.symm.trans hnull))

/-- A call of `alloc` that meets the condition finds no block. -/
theorem Inv.alloc [Zero T] (hinv : b.Inv) {blockSize : ℕ} {granted : Bool}
    (hmeets : b.Meets (.alloc blockSize granted)) : (b.alloc blockSize granted).2.Inv := by
  cases hinv with
  | allocated hgranted others =>
    have hsize : 1 ≤ b.blockSizeOf blockSize := by
      have hpos := hgranted.blockSize_pos
      unfold blockSizeOf
      split_ifs <;> omega
    exact absurd (hmeets hsize hgranted.frameSize_pos) hgranted.not_unallocated
  | released unallocated freed null =>
    unfold CSimpleDataBuffer.alloc
    dsimp only
    split_ifs with hsize hframe hgranted
    · exact .released unallocated freed null
    · exact .released unallocated freed null
    · refine .allocated ⟨Nat.not_lt.mp hframe, Nat.not_lt.mp hsize, rfl, rfl,
        ⟨_, rfl, Heap.cells?_allocate_self _ _⟩, List.length_replicate⟩ fun block hblock ↦ ?_
      rw [Heap.cells?_allocate_of_ne fun hnext ↦ hblock (congrArg some hnext.symm)]
      exact freed block
    · exact .released unallocated freed fun _ ↦ rfl

/-- A call of `free` that meets the condition frees the block that is there, if any. -/
theorem Inv.exists_free (hinv : b.Inv) (hmeets : ¬b.Dangling) :
    ∃ b', b.free = .ok b' ∧ b'.m_pBuffer = b.m_pBuffer ∧ b'.m_arraySize = b.m_arraySize ∧
      b'.m_bAllocated = false ∧ b'.heap.AllFreed := by
  cases hinv with
  | allocated granted others =>
    obtain ⟨block, hblock, hcells⟩ := granted.pBuffer
    refine ⟨{ b with heap := b.heap.put block none, m_bAllocated := false }, ?_, rfl, rfl, rfl, ?_⟩
    · rw [CSimpleDataBuffer.free, hblock, Heap.free_of_cells? hcells]
      rfl
    · intro other
      by_cases hother : other = block
      · rw [hother]
        exact Heap.cells?_put_self (Heap.lt_next_of_cells? hcells) none
      · refine (Heap.cells?_put_of_ne hother none).trans (others other fun hpointer ↦ hother ?_)
        exact Option.some.inj (hpointer.symm.trans hblock)
  | released unallocated freed null =>
    have hnone : b.m_pBuffer = none := by
      rw [← Option.not_isSome_iff_eq_none]
      exact fun hsome ↦ hmeets ⟨hsome, unallocated⟩
    refine ⟨{ b with m_bAllocated := false }, ?_, rfl, rfl, rfl, freed⟩
    rw [CSimpleDataBuffer.free, hnone]
    rfl

/-- A dangling pointer is not freed again. -/
theorem Inv.not_dangling (hinv : b.Inv) (hfree : b.free = .ok b') : ¬b.Dangling := by
  rintro ⟨hsome, hflag⟩
  obtain ⟨block, hblock⟩ := Option.isSome_iff_exists.mp hsome
  cases hinv with
  | allocated granted others => exact granted.not_unallocated hflag
  | released unallocated freed null =>
    rw [CSimpleDataBuffer.free, hblock, Heap.free_of_freed (freed block)] at hfree
    cases hfree

theorem Inv.not_live (hinv : b.Inv) (hdangling : b.Dangling) : ¬b.Live := by
  rintro ⟨block, cells, hblock, hcells⟩
  cases hinv with
  | allocated granted others => exact granted.not_unallocated hdangling.2
  | released unallocated freed null => cases (freed block).symm.trans hcells

/-- Where the buffer does not dangle, the pointers that it answers are live. -/
theorem Inv.answersLive (hinv : b.Inv) {operation : Operation T} (hmeets : b.Meets operation) :
    b.AnswersLive operation := by
  intro offset hoffset
  cases hinv with
  | allocated granted others =>
    obtain ⟨block, hblock, hcells⟩ := granted.pBuffer
    exact ⟨block, _, hblock, hcells⟩
  | released unallocated freed null =>
    cases operation with
    | getBuffPtr =>
      rw [pointer, getBuffPtr, if_pos unallocated] at hoffset
      cases hoffset
    | getFramePtr frame =>
      rw [pointer, getFramePtr, if_pos unallocated] at hoffset
      cases hoffset
    | getDataPtr index =>
      have hrefused : b.m_arraySize ≤ toUnsigned (index * b.m_frameSize) := by
        cases hpointer : b.m_pBuffer with
        | none => exact (null hpointer).trans_le (Nat.zero_le _)
        | some block => exact hmeets ⟨by rw [hpointer]; rfl, unallocated⟩
      rw [pointer, getDataPtr, if_pos hrefused] at hoffset
      cases hoffset
    | _ => cases hoffset

/-! ### Blocks that are lost -/

/-- A block that is not freed, and that `m_pBuffer` does not lead to. -/
def Leaks (b : CSimpleDataBuffer T) : Prop :=
  ∃ block cells, b.heap.cells? block = some cells ∧ b.m_pBuffer ≠ some block

theorem Leaks.keeps (hleaks : b.Leaks) (h : b.Keeps b') : b'.Leaks := by
  obtain ⟨block, cells, hcells, hpointer⟩ := hleaks
  have hlength := h.blocks block
  rw [hcells, Option.map_some, Option.map_eq_some_iff] at hlength
  obtain ⟨cells', hcells', -⟩ := hlength
  exact ⟨block, cells', hcells', h.pBuffer ▸ hpointer⟩

theorem leaks_alloc [Zero T] {block : ℕ} (hcells : b.heap.cells? block = some cells)
    (blockSize : ℕ) (granted : Bool) (hlost : b.m_pBuffer ≠ some block ∨
      1 ≤ b.blockSizeOf blockSize ∧ 1 ≤ b.m_frameSize) : (b.alloc blockSize granted).2.Leaks := by
  unfold alloc
  dsimp only
  split_ifs with hsize hframe hgranted
  · exact ⟨block, cells, hcells, hlost.resolve_right fun h ↦ absurd h.1 (Nat.not_le.mpr hsize)⟩
  · exact ⟨block, cells, hcells, hlost.resolve_right fun h ↦ absurd h.2 (Nat.not_le.mpr hframe)⟩
  · have hne : block ≠ b.heap.next := (Heap.lt_next_of_cells? hcells).ne
    exact ⟨block, cells, (Heap.cells?_allocate_of_ne hne _).trans hcells,
      fun hnext ↦ hne (Option.some.inj hnext).symm⟩
  · exact ⟨block, cells, hcells, nofun⟩

theorem Leaks.free (hleaks : b.Leaks) (hfree : b.free = .ok b') : b'.Leaks := by
  obtain ⟨block, cells, hcells, hpointer⟩ := hleaks
  obtain ⟨heap, hheap, hresult⟩ := of_bind_eq_ok hfree
  obtain rfl := Except.ok.inj hresult
  refine ⟨block, cells, ?_, hpointer⟩
  cases hpBuffer : b.m_pBuffer with
  | none =>
    rw [hpBuffer] at hheap
    exact Except.ok.inj hheap ▸ hcells
  | some other =>
    have hne : block ≠ other := fun hother ↦ hpointer (hpBuffer.trans (congrArg some hother.symm))
    cases hother : b.heap.cells? other with
    | none =>
      rw [hpBuffer, Heap.free_of_freed hother] at hheap
      cases hheap
    | some others =>
      rw [hpBuffer, Heap.free_of_cells? hother] at hheap
      obtain rfl := Except.ok.inj hheap
      exact (Heap.cells?_put_of_ne hne none).trans hcells

theorem Leaks.apply [Zero T] {operation : Operation T} (hwords : operation.Words)
    (hleaks : b.Leaks) (happly : b.apply operation = .ok b') : b'.Leaks := by
  by_cases hmanages : operation.Manages
  · cases operation with
    | alloc blockSize granted =>
      obtain ⟨block, cells, hcells, hpointer⟩ := hleaks
      obtain rfl := Except.ok.inj happly
      exact leaks_alloc hcells blockSize granted (.inl hpointer)
    | free => exact hleaks.free happly
    | _ => cases hmanages
  · exact hleaks.keeps ((harmless_apply hmanages hwords).1 b' happly)

theorem destroy_eq (b : CSimpleDataBuffer T) : b.destroy = b.free.map fun b ↦
    { b with m_blockSize := 0, m_arraySize := 0, m_readIdx := 0, m_writeIdx := 0 } := by
  unfold destroy CSimpleDataBuffer.free
  dsimp only
  cases b.heap.free b.m_pBuffer <;> rfl

theorem endsClean_iff_free : b.EndsClean ↔ ∃ b', b.free = .ok b' ∧ b'.heap.AllFreed := by
  rw [EndsClean, destroy_eq]
  cases b.free with
  | error fault => exact iff_of_false nofun nofun
  | ok b' =>
    constructor
    · rintro ⟨b'', hresult, hfreed⟩
      obtain rfl := Except.ok.inj hresult
      exact ⟨b', rfl, hfreed⟩
    · rintro ⟨b'', hresult, hfreed⟩
      obtain rfl := Except.ok.inj hresult
      exact ⟨_, rfl, hfreed⟩

theorem Leaks.not_endsClean (hleaks : b.Leaks) : ¬b.EndsClean := by
  rw [endsClean_iff_free]
  rintro ⟨b', hfree, hfreed⟩
  obtain ⟨block, cells, hcells, -⟩ := hleaks.free hfree
  cases (hfreed block).symm.trans hcells

/-! ### Whole runs -/

theorem Inv.apply [Zero T] (hinv : b.Inv) {operation : Operation T} (hwords : operation.Words)
    (hmeets : b.Meets operation) : ∃ b', b.apply operation = .ok b' ∧ b'.Inv := by
  by_cases hmanages : operation.Manages
  · cases operation with
    | alloc blockSize granted => exact ⟨_, rfl, hinv.alloc hmeets⟩
    | free =>
      obtain ⟨b', hfree, hpointer, hsize, hflag, hfreed⟩ := hinv.exists_free hmeets
      refine ⟨b', hfree, .released hflag hfreed fun hnull ↦ ?_⟩
      cases hinv with
      | allocated granted others =>
        obtain ⟨block, hblock, -⟩ := granted.pBuffer
        cases hblock.symm.trans (hpointer.symm.trans hnull)
      | released unallocated freed null => exact hsize.trans (null (hpointer.symm.trans hnull))
    | _ => cases hmanages
  · have hharmless := harmless_apply (b := b) hmanages hwords
    obtain ⟨b', happly⟩ := hharmless.2 hinv hmeets
    exact ⟨b', happly, hinv.keeps (hharmless.1 b' happly)⟩

/-- A call that does not meet the condition has no result, answers a pointer to a block that was
freed, or loses a block. -/
theorem Inv.leaks_of_not_meets [Zero T] (hinv : b.Inv) {operation : Operation T}
    (hwords : operation.Words) (hmeets : ¬b.Meets operation) (hlive : b.AnswersLive operation)
    (happly : b.apply operation = .ok b') : b'.Leaks := by
  cases operation with
  | alloc blockSize granted =>
    obtain ⟨hsize, hsizes⟩ := Classical.not_imp.mp hmeets
    obtain ⟨hframe, hflag⟩ := Classical.not_imp.mp hsizes
    obtain ⟨cells, hgranted⟩ := hinv.exists_granted hflag
    obtain ⟨block, -, hcells⟩ := hgranted.pBuffer
    obtain rfl := Except.ok.inj happly
    exact leaks_alloc hcells blockSize granted (.inr ⟨hsize, hframe⟩)
  | free => exact absurd (hinv.not_dangling happly) hmeets
  | getDataPtr index =>
    obtain ⟨hdangling, hlt⟩ := Classical.not_imp.mp hmeets
    refine absurd (hlive (toUnsigned (index * b.m_frameSize)) ?_) (hinv.not_live hdangling)
    rw [pointer, getDataPtr, if_neg hlt]
  | readDataBlockAt startPos numItems =>
    obtain ⟨hflag, hwraps⟩ := Classical.not_imp.mp hmeets
    obtain ⟨cells, hgranted⟩ := hinv.exists_granted (by rw [hflag]; decide)
    obtain ⟨answer, hanswer, -⟩ := of_except_map_eq_ok happly
    rw [readDataBlockAt, if_neg hgranted.not_unallocated, hgranted.block_eq, ok_bind] at hanswer
    refine absurd (not_wrapsInside_of_ok hwords.1 hwords.2 hgranted.arraySize_lt ?_ hanswer) hwraps
    rw [exists_access, exists_gather, hgranted.length]
  | writeDataBlockAt buf startPos =>
    obtain ⟨hflag, hwraps⟩ := Classical.not_imp.mp hmeets
    obtain ⟨cells, hgranted⟩ := hinv.exists_granted (by rw [hflag]; decide)
    obtain ⟨answer, hanswer, -⟩ := of_except_map_eq_ok happly
    rw [writeDataBlockAt, if_neg hgranted.not_unallocated, hgranted.block_eq, ok_bind] at hanswer
    refine absurd (not_wrapsInside_of_ok hwords.1 hwords.2 hgranted.arraySize_lt ?_ hanswer) hwraps
    rw [exists_access, exists_scatter (by rw [List.length_map, List.length_range']),
      hgranted.length]
  | _ => exact absurd trivial hmeets

theorem Inv.endsClean_iff (hinv : b.Inv) : b.EndsClean ↔ ¬b.Dangling := by
  rw [endsClean_iff_free]
  constructor
  · rintro ⟨b', hfree, -⟩
    exact hinv.not_dangling hfree
  · intro hdangling
    obtain ⟨b', hfree, -, -, -, hfreed⟩ := hinv.exists_free hdangling
    exact ⟨b', hfree, hfreed⟩

theorem inv_new : (new : CSimpleDataBuffer T).Inv := .released rfl (fun _ ↦ rfl) fun _ ↦ rfl

/-- Assumes: the offsets and counts of the calls are `unsigned int`. A run of calls from the
constructor to the destructor is clean exactly when each call that it comes to meets its condition,
and the destructor does not find a dangling pointer. -/
theorem runs_cleanly_iff [Zero T] (operations : List (Operation T))
    (hwords : ∀ operation ∈ operations, operation.Words) :
    RunsCleanly operations ↔ AllMeet apply Meets (¬Dangling ·) new operations :=
  completes_iff Inv Leaks Operation.Words
    (fun _ _ hinv hwords hmeets ↦ ⟨hinv.answersLive hmeets, hinv.apply hwords hmeets⟩)
    (fun _ _ _ hinv hwords hmeets hlive happly ↦
      hinv.leaks_of_not_meets hwords hmeets hlive happly)
    (fun _ hinv ↦ hinv.endsClean_iff) (fun _ _ _ hwords hleaks happly ↦ hleaks.apply hwords happly)
    (fun _ hleaks ↦ hleaks.not_endsClean) operations new inv_new hwords

theorem runs_cleanly_iff_write :
    RunsCleanly ([.setSize 1 4, .alloc 0 true, .writeDataBlockAt [5] 1] : List (Operation ℕ)) := by
  refine (runs_cleanly_iff _ ?_).mpr ⟨trivial, fun sized hset ↦ ⟨?_, fun allocated halloc ↦
    ⟨?_, fun written hwrite ↦ ?_⟩⟩⟩
  · simp [Operation.Words]
  · obtain rfl := Except.ok.inj hset
    exact fun _ _ ↦ rfl
  · exact fun _ hwraps ↦ absurd hwraps.1 (by decide)
  · obtain rfl := Except.ok.inj hset
    obtain rfl := Except.ok.inj halloc
    obtain rfl := Except.ok.inj hwrite
    exact fun hdangling ↦ nomatch hdangling.2

/-- The destructor frees what `free` has freed. -/
theorem not_runs_cleanly :
    ¬RunsCleanly ([.setSize 1 4, .alloc 0 true, .free] : List (Operation ℕ)) := by
  rintro ⟨-, sized, hset, -, allocated, halloc, -, freed, hfree, destroyed, hdestroy, -⟩
  obtain rfl := Except.ok.inj hset
  obtain rfl := Except.ok.inj halloc
  obtain rfl := Except.ok.inj hfree
  cases hdestroy

end RdbLibs.Buffer.CSimpleDataBuffer
