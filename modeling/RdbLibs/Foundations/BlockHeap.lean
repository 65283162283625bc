import RdbLibs.Foundations.CheckedMemory

/-!
# Blocks that are allocated and freed

A heap is the list of its blocks, in the order of their allocation. A block has its cells until it
is freed; a pointer to a block is its number. A use of a block that was freed, or freeing it again,
is a fault of its own. A block that was freed stays so, and one that is not freed stays until
someone frees it.
-/

set_option autoImplicit false
set_option relaxedAutoImplicit false

namespace RdbLibs.BlockHeap

open CheckedMemory

variable {α β : Type*}

/-- The blocks. One that was freed has no cells. -/
structure Heap (α : Type*) where
  blocks : List (Option (List α))

/-- Why a program with a heap stops: an undefined access to a block, or a block that was freed. -/
inductive HeapFault
  | access (fault : Fault)
  | freed
deriving DecidableEq

/-- An access to the cells of a block. -/
def access (result : Except Fault β) : Except HeapFault β := result.mapError .access

@[simp] theorem access_ok (value : β) : access (.ok value) = .ok value := rfl

theorem access_eq_ok {result : Except Fault β} {value : β} :
    access result = .ok value ↔ result = .ok value := by
  cases result with
  | error fault => exact iff_of_false nofun nofun
  | ok result => exact ⟨fun h ↦ congrArg _ (Except.ok.inj h), fun h ↦ congrArg access h⟩

namespace Heap

def empty : Heap α := ⟨[]⟩

/-- The cells of a block that is not freed. -/
def cells? (h : Heap α) (block : ℕ) : Option (List α) := h.blocks[block]?.join

/-- The pointer that the next allocation gives. -/
def next (h : Heap α) : ℕ := h.blocks.length

/-- Allocates a block. -/
def allocate (h : Heap α) (cells : List α) : Heap α := ⟨h.blocks ++ [some cells]⟩

/-- Changes the cells of a block. -/
def put (h : Heap α) (block : ℕ) (cells : Option (List α)) : Heap α := ⟨h.blocks.set block cells⟩

/-- The cells behind a pointer. -/
def cells (h : Heap α) (pointer : Option ℕ) : Except HeapFault (List α) :=
  match pointer with
  | none => .error (.access .nullPointer)
  | some block =>
    match h.cells? block with
    | none => .error .freed
    | some cells => .ok cells

/-- Frees the block behind a pointer. A null pointer may be freed. -/
def free (h : Heap α) (pointer : Option ℕ) : Except HeapFault (Heap α) :=
  match pointer with
  | none => .ok h
  | some block =>
    match h.cells? block with
    | none => .error .freed
    | some _ => .ok (h.put block none)

/-- Every block was freed. -/
def AllFreed (h : Heap α) : Prop := ∀ block, h.cells? block = none

variable {h : Heap α} {block other : ℕ} {cells : List α}

theorem lt_next_of_cells? (hcells : h.cells? block = some cells) : block < h.next := by
  by_contra hlength
  rw [cells?, List.getElem?_eq_none (Nat.not_lt.mp hlength)] at hcells
  cases hcells

@[simp] theorem cells?_allocate_self (h : Heap α) (cells : List α) :
    (h.allocate cells).cells? h.next = some cells := by
  simp [cells?, allocate, next]

theorem cells?_allocate_of_ne (hne : other ≠ h.next) (cells : List α) :
    (h.allocate cells).cells? other = h.cells? other := by
  rw [cells?, cells?, allocate, List.getElem?_append]
  split_ifs with hlt
  · rfl
  · have hlarge : h.blocks.length < other :=
      Nat.lt_of_le_of_ne (Nat.not_lt.mp hlt) (Ne.symm hne)
    have hbehind : [some cells].length ≤ other - h.blocks.length := Nat.sub_pos_of_lt hlarge
    rw [List.getElem?_eq_none hbehind, List.getElem?_eq_none (Nat.le_of_lt hlarge)]

theorem cells?_put_self (hblock : block < h.next) (cells : Option (List α)) :
    (h.put block cells).cells? block = cells := by
  rw [cells?, put, List.getElem?_set_self hblock]
  rfl

theorem cells?_put_of_ne (hne : other ≠ block) (cells : Option (List α)) :
    (h.put block cells).cells? other = h.cells? other := by
  rw [cells?, put, List.getElem?_set_ne hne.symm, cells?]

theorem cells_of_cells? (hcells : h.cells? block = some cells) :
    h.cells (some block) = .ok cells := by
  rw [Heap.cells, hcells]

theorem of_cells_eq_ok {pointer : Option ℕ} (hcells : h.cells pointer = .ok cells) :
    ∃ block, pointer = some block ∧ h.cells? block = some cells := by
  unfold Heap.cells at hcells
  cases pointer with
  | none => cases hcells
  | some block =>
    dsimp only at hcells
    split at hcells
    · cases hcells
    · obtain rfl := Except.ok.inj hcells
      exact ⟨block, rfl, ‹_›⟩

theorem free_of_freed (hfreed : h.cells? block = none) : h.free (some block) = .error .freed := by
  rw [Heap.free, hfreed]

theorem free_of_cells? (hcells : h.cells? block = some cells) :
    h.free (some block) = .ok (h.put block none) := by
  rw [Heap.free, hcells]

end Heap

end RdbLibs.BlockHeap
