import RdbLibs.Buffer.CVRingBuffer.Invariant
import Mathlib.Tactic.Linarith

/-!
# Deleting from a `CVRingBuffer`

What `erase` does from every state of the index invariant (`Indexed.erase_eq`): it removes the
oldest entries, or it empties the buffer. It empties the buffer when more is to be deleted than is
stored, and in two cases in which less is: one entry of a full buffer, whose equal indices `erase`
takes for those of an empty one, and a number of entries above the capacity as an `int`, which a
capacity of `2 ^ 31` or more does not fit (`ErasesAll`).
-/

set_option autoImplicit false
set_option relaxedAutoImplicit false

namespace RdbLibs.Buffer.CVRingBuffer

open MachineWord

variable {T : Type*} {N : ℕ} {s : CVRingBuffer T}

theorem Sized.erase (h : s.Sized) (numEntries : ℕ) : (s.erase numEntries).2.Sized := by
  simp only [CVRingBuffer.erase, h.growBufferSize_eq]
  split_ifs <;> exact h

theorem bufferSize_erase (h : s.Sized) (numEntries : ℕ) :
    (s.erase numEntries).2.m_bufferSize = s.m_bufferSize := by
  simp only [CVRingBuffer.erase, h.growBufferSize_eq]
  split_ifs <;> rfl

/-- The branch structure of `erase` from a state of the index invariant. -/
theorem Indexed.erase_eq (h : Indexed N s) (numEntries : ℕ) :
    s.erase numEntries =
      if s.m_currentDataSize = 0 then (false, s)
      else if numEntries = 1 then
        if s.m_currentDataSize = N then (true, s.resetIndices) else (true, s.dropOldest 1)
      else if intToSize (toInt N) < numEntries then (false, s.resetIndices)
      else if s.m_currentDataSize < numEntries then (true, s.resetIndices)
      else (true, s.dropOldest numEntries) := by
  have hpos := h.pos
  have hread := h.readIdx_lt
  have hsize := h.dataSize_le
  have hlength := h.length_eq
  have hbuffer := h.bufferSize_eq
  have hindices : s.m_readIdx = s.m_writeIdx ↔
      s.m_currentDataSize = 0 ∨ s.m_currentDataSize = N :=
    eq_comm.trans h.writeIdx_eq_readIdx_iff
  simp only [erase, h.growBufferSize_eq, hlength]
  by_cases hempty : s.m_currentDataSize = 0
  · rw [if_pos (by omega), if_pos hempty]
  rw [if_neg (by omega), if_neg hempty]
  by_cases hone : numEntries = 1
  · rw [if_pos hone, if_pos hone]
    by_cases hfull : s.m_currentDataSize = N
    · rw [if_pos (hindices.mpr (.inr hfull)), if_pos hfull]
    · rw [if_neg (fun heq ↦ (hindices.mp heq).elim hempty hfull), if_neg hfull]
      simp only [CVRingBuffer.dropOldest, hbuffer, CircularWindow.succ_wrap hread,
        if_pos (Nat.pos_of_ne_zero hempty)]
  rw [if_neg hone, if_neg hone]
  by_cases hmany : intToSize (toInt N) < numEntries
  · rw [if_pos hmany, if_pos hmany]
  rw [if_neg hmany, if_neg hmany]
  by_cases hmore : s.m_currentDataSize < numEntries
  · rw [if_pos hmore, if_pos hmore]
  rw [if_neg hmore, if_neg hmore]
  have hwrap : (if N ≤ s.m_readIdx + numEntries then s.m_readIdx + numEntries - N
      else s.m_readIdx + numEntries) = (s.m_readIdx + numEntries) % N :=
    (CircularWindow.mod_eq_ite (by omega)).symm
  have hcount : (if numEntries < s.m_currentDataSize then s.m_currentDataSize - numEntries
      else 0) = s.m_currentDataSize - numEntries := by
    split_ifs <;> omega
  simp only [CVRingBuffer.dropOldest, hbuffer, hwrap, hcount]

/-- Deleting keeps the index invariant, whatever the number. -/
theorem Indexed.erase (h : Indexed N s) (numEntries : ℕ) : Indexed N (s.erase numEntries).2 := by
  have hreset : Indexed N s.resetIndices := .resetIndices h.length_eq h.bufferSize_eq h.pos
  rw [h.erase_eq]
  split_ifs with hempty hone hfull hmany hmore
  · exact h
  · exact hreset
  · exact h.dropOldest (Nat.pos_of_ne_zero hempty)
  · exact hreset
  · exact hreset
  · exact h.dropOldest (not_lt.mp hmore)

/-- The calls of `erase` that empty a buffer whose count is `count` or more. -/
def ErasesAll (N count numEntries : ℕ) : Prop :=
  numEntries = 1 ∧ count = N ∨ numEntries ≠ 1 ∧ intToSize (toInt N) < numEntries

instance (N count numEntries : ℕ) : Decidable (ErasesAll N count numEntries) :=
  inferInstanceAs (Decidable (_ ∨ _))

theorem Indexed.stored_erase_of_erasesAll [Zero T] (h : Indexed N s)
    (hpos : 0 < s.m_currentDataSize) {numEntries : ℕ}
    (hall : ErasesAll N s.m_currentDataSize numEntries) : (s.erase numEntries).2.stored = [] := by
  rw [h.erase_eq, if_neg (by omega)]
  rcases hall with ⟨hone, hfull⟩ | ⟨hone, hmany⟩
  · rw [if_pos hone, if_pos hfull, stored_resetIndices]
  · rw [if_neg hone, if_pos hmany, stored_resetIndices]

/-- Otherwise `erase` removes what it was asked to, if there is as much. -/
theorem Indexed.erase_of_not_erasesAll (h : Indexed N s) (hpos : 0 < s.m_currentDataSize)
    {numEntries : ℕ} (hall : ¬ ErasesAll N s.m_currentDataSize numEntries)
    (hle : numEntries ≤ s.m_currentDataSize) :
    s.erase numEntries = (true, s.dropOldest numEntries) := by
  simp only [ErasesAll, not_or, not_and] at hall
  rw [h.erase_eq, if_neg (by omega)]
  by_cases hone : numEntries = 1
  · rw [if_pos hone, if_neg (hall.1 hone), hone]
  · rw [if_neg hone, if_neg (hall.2 hone), if_neg (by omega)]

/-- Below `2 ^ 31` entries of capacity, only the deletion of one entry of a full buffer is
affected. -/
theorem not_erasesAll_of_lt {count numEntries : ℕ} (hN : N < 2 ^ 31) (hle : numEntries ≤ N)
    (hfull : numEntries ≠ 1 ∨ count ≠ N) : ¬ ErasesAll N count numEntries := by
  rw [ErasesAll, intToSize_toInt_of_lt hN]
  omega

end RdbLibs.Buffer.CVRingBuffer
