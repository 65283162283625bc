import RdbLibs.Buffer.CVRingBuffer.Model
import RdbLibs.Foundations.BoundedQueue
import RdbLibs.Foundations.CircularWindow

/-!
# The index invariant of `CVRingBuffer`

The three counters of the class describe one queue: `m_readIdx` is the slot of the oldest entry,
`m_currentDataSize` how many there are, and `m_writeIdx` the slot behind the newest. `Indexed N`
says so for a buffer of capacity `N`, and `stored` and `queue` are the queue that is described. The
empty and the full buffer have equal indices, and they are the only ones
(`Indexed.writeIdx_eq_readIdx_iff`).

Every method moves between such states by one of four changes of state, defined here with what they
do to the queue: `resetIndices` empties it, `dropOldest` removes entries at the front, `storeNext`
appends one entry, and `replaceOldest` appends one to a full buffer in place of the oldest.
-/

set_option autoImplicit false
set_option relaxedAutoImplicit false

namespace RdbLibs.Buffer.CVRingBuffer

open CircularWindow

variable {T : Type*} {N : ℕ} {s : CVRingBuffer T}

/-- The vector has the size that the buffer counts with. -/
def Sized (s : CVRingBuffer T) : Prop := s.m_dataBuffer.length = s.m_bufferSize

theorem Sized.clampBufferSize_eq (h : s.Sized) : s.clampBufferSize = s := by
  rw [clampBufferSize, if_neg (Eq.not_lt h)]

theorem Sized.growBufferSize_eq (h : s.Sized) : s.growBufferSize = s := by
  rw [growBufferSize, if_neg (Eq.not_gt h)]

/-- The counters of a buffer of capacity `N` describe a queue. -/
structure Indexed (N : ℕ) (s : CVRingBuffer T) : Prop where
  length_eq : s.m_dataBuffer.length = N
  bufferSize_eq : s.m_bufferSize = N
  readIdx_lt : s.m_readIdx < N
  writeIdx_lt : s.m_writeIdx < N
  dataSize_le : s.m_currentDataSize ≤ N
  writeIdx_eq : s.m_writeIdx = (s.m_readIdx + s.m_currentDataSize) % N

/-- The `m_currentDataSize` entries from `m_readIdx` on, oldest first. -/
def stored [Zero T] (s : CVRingBuffer T) : List T :=
  window (fun slot ↦ s.m_dataBuffer.getD slot 0) s.m_bufferSize s.m_readIdx s.m_currentDataSize

@[simp] theorem length_stored [Zero T] (s : CVRingBuffer T) :
    s.stored.length = s.m_currentDataSize := length_window _ _ _ _

theorem stored_of_dataSize_eq_zero [Zero T] (h : s.m_currentDataSize = 0) : s.stored = [] :=
  List.eq_nil_of_length_eq_zero (by rw [length_stored, h])

/-- The bounded queue that an indexed buffer holds. -/
def queue [Zero T] (h : Indexed N s) : BoundedQueue T N where
  entries := s.stored
  length_le := by
    rw [length_stored]
    exact h.dataSize_le

namespace Indexed

theorem pos (h : Indexed N s) : 0 < N := Nat.zero_lt_of_lt h.readIdx_lt

theorem sized (h : Indexed N s) : s.Sized := h.length_eq.trans h.bufferSize_eq.symm

theorem clampBufferSize_eq (h : Indexed N s) : s.clampBufferSize = s := h.sized.clampBufferSize_eq

theorem growBufferSize_eq (h : Indexed N s) : s.growBufferSize = s := h.sized.growBufferSize_eq

/-- Equal indices mean that the buffer is empty or full. -/
theorem writeIdx_eq_readIdx_iff (h : Indexed N s) :
    s.m_writeIdx = s.m_readIdx ↔ s.m_currentDataSize = 0 ∨ s.m_currentDataSize = N := by
  have hread := h.readIdx_lt
  have hsize := h.dataSize_le
  rw [h.writeIdx_eq, mod_eq_ite (by omega)]
  split_ifs <;> omega

end Indexed

/-! ### Emptying -/

theorem Indexed.resetIndices (hlength : s.m_dataBuffer.length = N) (hsize : s.m_bufferSize = N)
    (hpos : 0 < N) : Indexed N s.resetIndices where
  length_eq := hlength
  bufferSize_eq := hsize
  readIdx_lt := hpos
  writeIdx_lt := hpos
  dataSize_le := Nat.zero_le N
  writeIdx_eq := (Nat.zero_mod N).symm

@[simp] theorem stored_resetIndices [Zero T] (s : CVRingBuffer T) : s.resetIndices.stored = [] :=
  stored_of_dataSize_eq_zero rfl

/-! ### Removing the oldest entries -/

/-- The buffer without its `count` oldest entries. -/
def dropOldest (s : CVRingBuffer T) (count : ℕ) : CVRingBuffer T :=
  { s with
    m_readIdx := (s.m_readIdx + count) % s.m_bufferSize
    m_currentDataSize := s.m_currentDataSize - count }

theorem Indexed.dropOldest (h : Indexed N s) {count : ℕ} (hcount : count ≤ s.m_currentDataSize) :
    Indexed N (s.dropOldest count) where
  length_eq := h.length_eq
  bufferSize_eq := h.bufferSize_eq
  readIdx_lt := by
    change (s.m_readIdx + count) % s.m_bufferSize < N
    rw [h.bufferSize_eq]
    exact Nat.mod_lt _ h.pos
  writeIdx_lt := h.writeIdx_lt
  dataSize_le := (Nat.sub_le _ _).trans h.dataSize_le
  writeIdx_eq := by
    change s.m_writeIdx =
      ((s.m_readIdx + count) % s.m_bufferSize + (s.m_currentDataSize - count)) % N
    rw [h.bufferSize_eq, Nat.mod_add_mod, Nat.add_assoc, Nat.add_sub_cancel' hcount]
    exact h.writeIdx_eq

theorem stored_dropOldest [Zero T] {count : ℕ} (hcount : count ≤ s.m_currentDataSize) :
    (s.dropOldest count).stored = s.stored.drop count :=
  (drop_window _ _ _ hcount).symm

theorem Indexed.dropOldest_zero (h : Indexed N s) : s.dropOldest 0 = s := by
  have hread : s.m_readIdx % s.m_bufferSize = s.m_readIdx := by
    rw [h.bufferSize_eq]
    exact Nat.mod_eq_of_lt h.readIdx_lt
  simp [CVRingBuffer.dropOldest, hread]

theorem dropOldest_dropOldest (s : CVRingBuffer T) (first second : ℕ) :
    (s.dropOldest first).dropOldest second = s.dropOldest (first + second) := by
  simp [dropOldest, Nat.mod_add_mod, Nat.add_assoc, Nat.sub_sub]

/-! ### Storing an entry -/

/-- A cell that was written reads as the new value, the others as before. -/
theorem getD_set [Zero T] {slot : ℕ} {cells : List T} (hslot : slot < cells.length) (value : T) :
    (fun index ↦ (cells.set slot value).getD index 0) =
      Function.update (fun index ↦ cells.getD index 0) slot value := by
  funext index
  by_cases hindex : index = slot
  · subst hindex
    simp [hslot]
  · rw [Function.update_of_ne hindex, List.getD_eq_getElem?_getD, List.getD_eq_getElem?_getD,
      List.getElem?_set_ne (Ne.symm hindex)]

/-- The buffer with one more entry behind the newest. -/
def storeNext (s : CVRingBuffer T) (value : T) : CVRingBuffer T :=
  { s with
    m_dataBuffer := s.m_dataBuffer.set s.m_writeIdx value
    m_currentDataSize := s.m_currentDataSize + 1
    m_writeIdx := (s.m_writeIdx + 1) % s.m_bufferSize }

theorem Indexed.storeNext (h : Indexed N s) (hroom : s.m_currentDataSize < N) (value : T) :
    Indexed N (s.storeNext value) where
  length_eq := by
    change (s.m_dataBuffer.set s.m_writeIdx value).length = N
    rw [List.length_set]
    exact h.length_eq
  bufferSize_eq := h.bufferSize_eq
  readIdx_lt := h.readIdx_lt
  writeIdx_lt := by
    change (s.m_writeIdx + 1) % s.m_bufferSize < N
    rw [h.bufferSize_eq]
    exact Nat.mod_lt _ h.pos
  dataSize_le := hroom
  writeIdx_eq := by
    change (s.m_writeIdx + 1) % s.m_bufferSize = (s.m_readIdx + (s.m_currentDataSize + 1)) % N
    rw [h.bufferSize_eq, h.writeIdx_eq, Nat.mod_add_mod, Nat.add_assoc]

theorem stored_storeNext [Zero T] (h : Indexed N s) (hroom : s.m_currentDataSize < N) (value : T) :
    (s.storeNext value).stored = s.stored ++ [value] := by
  have hslot : s.m_writeIdx < s.m_dataBuffer.length := by
    rw [h.length_eq]
    exact h.writeIdx_lt
  change window (fun slot ↦ (s.m_dataBuffer.set s.m_writeIdx value).getD slot 0) s.m_bufferSize
    s.m_readIdx (s.m_currentDataSize + 1) = _
  rw [getD_set hslot, h.writeIdx_eq, ← h.bufferSize_eq]
  exact window_push _ (by rw [h.bufferSize_eq]; exact hroom) value

/-- The buffer with a new entry in the slot of its oldest, and both indices moved on. -/
def replaceOldest (s : CVRingBuffer T) (value : T) : CVRingBuffer T :=
  { s with
    m_dataBuffer := s.m_dataBuffer.set s.m_writeIdx value
    m_writeIdx := (s.m_writeIdx + 1) % s.m_bufferSize
    m_readIdx := (s.m_readIdx + 1) % s.m_bufferSize }

theorem Indexed.replaceOldest (h : Indexed N s) (hfull : s.m_currentDataSize = N) (value : T) :
    Indexed N (s.replaceOldest value) where
  length_eq := by
    change (s.m_dataBuffer.set s.m_writeIdx value).length = N
    rw [List.length_set]
    exact h.length_eq
  bufferSize_eq := h.bufferSize_eq
  readIdx_lt := by
    change (s.m_readIdx + 1) % s.m_bufferSize < N
    rw [h.bufferSize_eq]
    exact Nat.mod_lt _ h.pos
  writeIdx_lt := by
    change (s.m_writeIdx + 1) % s.m_bufferSize < N
    rw [h.bufferSize_eq]
    exact Nat.mod_lt _ h.pos
  dataSize_le := h.dataSize_le
  writeIdx_eq := by
    have heq : s.m_writeIdx = s.m_readIdx := h.writeIdx_eq_readIdx_iff.mpr (.inr hfull)
    change (s.m_writeIdx + 1) % s.m_bufferSize =
      ((s.m_readIdx + 1) % s.m_bufferSize + s.m_currentDataSize) % N
    rw [heq, h.bufferSize_eq, hfull, Nat.add_mod_right, Nat.mod_mod]

theorem stored_replaceOldest [Zero T] (h : Indexed N s) (hfull : s.m_currentDataSize = N)
    (value : T) : (s.replaceOldest value).stored = s.stored.tail ++ [value] := by
  have heq : s.m_writeIdx = s.m_readIdx := h.writeIdx_eq_readIdx_iff.mpr (.inr hfull)
  have hslot : s.m_readIdx < s.m_dataBuffer.length := by
    rw [h.length_eq]
    exact h.readIdx_lt
  change window (fun slot ↦ (s.m_dataBuffer.set s.m_writeIdx value).getD slot 0) s.m_bufferSize
    ((s.m_readIdx + 1) % s.m_bufferSize) s.m_currentDataSize = _
  rw [heq, getD_set hslot, stored, hfull, h.bufferSize_eq]
  exact window_rotate _ h.readIdx_lt value

end RdbLibs.Buffer.CVRingBuffer
