import RdbLibs.Buffer.CRingBuffer.Model
import RdbLibs.Buffer.CVRingBuffer.Read

/-!
# `CRingBuffer` as a `CVRingBuffer`

A `CRingBuffer` whose memory is allocated is a `CVRingBuffer` with the same cells and counters
(`ofVector`), and on such buffers the code that was copied still does what it did: `erase` and the
read loop do so whenever the memory has the size that is counted with, and the write loop of three
arguments under the index invariant. The write loop of four arguments does so if it may overwrite,
or if there is room for the whole block (`loop_writePassEntriesPerBlock`). The results about the
loops of `CVRingBuffer` are results about these loops then.
-/

set_option autoImplicit false
set_option relaxedAutoImplicit false

namespace RdbLibs.Buffer.CRingBuffer

open MachineWord WhileLoop CheckedMemory
open CVRingBuffer (Indexed Sized)

variable {T : Type*} {N : ℕ} {v : CVRingBuffer T}

/-- The buffer with the cells and counters of a `CVRingBuffer`. -/
def ofVector (v : CVRingBuffer T) : CRingBuffer T where
  m_pDataBuffer := some v.m_dataBuffer
  m_bufferSize := v.m_bufferSize
  m_entriesPerBlock := v.m_entriesPerBlock
  m_currentDataSize := v.m_currentDataSize
  m_writeIdx := v.m_writeIdx
  m_readIdx := v.m_readIdx

theorem erase_ofVector (h : v.Sized) (numEntries : ℕ) :
    (ofVector v).erase numEntries = ((v.erase numEntries).1, ofVector (v.erase numEntries).2) := by
  have hlength : v.m_dataBuffer.length = v.m_bufferSize := h
  simp only [erase, CVRingBuffer.erase, h.growBufferSize_eq, hlength]
  by_cases hempty : v.m_bufferSize < 1 ∨ v.m_currentDataSize < 1
  · rw [if_pos hempty, if_pos (.inr hempty)]
  rw [if_neg hempty, if_neg (fun hor ↦ hor.elim Bool.false_ne_true hempty)]
  by_cases hone : numEntries = 1
  · rw [if_pos hone, if_pos hone]
    by_cases hmeet : v.m_readIdx = v.m_writeIdx
    · rw [if_pos hmeet]
      exact if_pos hmeet
    · rw [if_neg hmeet]
      exact if_neg hmeet
  rw [if_neg hone, if_neg hone]
  by_cases hmany : intToSize (toInt v.m_bufferSize) < numEntries
  · rw [if_pos hmany]
    exact if_pos hmany
  rw [if_neg hmany]
  refine (if_neg hmany).trans ?_
  by_cases hmore : v.m_currentDataSize < numEntries
  · rw [if_pos hmore]
    exact if_pos hmore
  · rw [if_neg hmore]
    exact if_neg hmore

/-! ### Reading -/

/-- The variables of a read loop over a vector, as those of a read loop here. -/
def ofReadLoop (l : CVRingBuffer.ReadLoop T) : ReadLoop T where
  buffer := ofVector l.buffer
  target := l.target
  currentReadIdx := l.currentReadIdx
  entriesRead := l.entriesRead

/-- The result of a read loop over a vector, as a result here. -/
def ofReadResult (r : CVRingBuffer.ReadResult T) : Except Fault (ReadResult T) :=
  .ok { value := r.value, target := r.target, buffer := ofVector r.buffer }

theorem readPass_done {numEntriesToRead : ℕ} {deleteEntries : Bool} {l : ReadLoop T}
    (h : ¬ l.entriesRead < numEntriesToRead) :
    readPass numEntriesToRead deleteEntries l = .leave (.ok l.finish) := by
  simp [readPass, h]

theorem readPass_meet {numEntriesToRead : ℕ} {deleteEntries : Bool} {l : ReadLoop T}
    (h : (if l.buffer.m_bufferSize ≤ l.currentReadIdx then 0 else l.currentReadIdx) =
      l.buffer.m_writeIdx) :
    readPass numEntriesToRead deleteEntries l = .leave (.ok l.finish) := by
  simp [readPass, h]

theorem readPass_copy {numEntriesToRead : ℕ} (deleteEntries : Bool) {l : ReadLoop T} {slot : ℕ}
    {value : T} (hmore : l.entriesRead < numEntriesToRead)
    (hslot : (if l.buffer.m_bufferSize ≤ l.currentReadIdx then 0 else l.currentReadIdx) = slot)
    (hne : slot ≠ l.buffer.m_writeIdx) (hcell : l.buffer.entryAt slot = .ok value) :
    readPass numEntriesToRead deleteEntries l = .again
      { buffer := if deleteEntries then (l.buffer.erase 1).2 else l.buffer
        target := Function.update l.target l.entriesRead value
        currentReadIdx := toUnsigned (slot + 1)
        entriesRead := toUnsigned (l.entriesRead + 1) } := by
  simp only [readPass, if_pos hmore, hslot, if_neg hne, hcell]

theorem readPass_ofReadLoop [Zero T] (numEntriesToRead : ℕ) (deleteEntries : Bool)
    {l : CVRingBuffer.ReadLoop T} (h : l.buffer.Sized) (hpos : 0 < l.buffer.m_bufferSize) :
    readPass numEntriesToRead deleteEntries (ofReadLoop l) =
      (CVRingBuffer.readPass numEntriesToRead deleteEntries l).map ofReadLoop ofReadResult := by
  have hlength : l.buffer.m_dataBuffer.length = l.buffer.m_bufferSize := h
  by_cases hmore : l.entriesRead < numEntriesToRead
  · generalize hslot : (if l.buffer.m_bufferSize ≤ l.currentReadIdx then 0
      else l.currentReadIdx) = slot
    by_cases hmeet : slot = l.buffer.m_writeIdx
    · rw [CVRingBuffer.readPass_meet (hslot.trans hmeet)]
      exact readPass_meet (hslot.trans hmeet)
    · have hlt : slot < l.buffer.m_dataBuffer.length := by
        rw [hlength, ← hslot]
        split_ifs <;> omega
      have hcell : (ofVector l.buffer).entryAt slot = .ok (l.buffer.m_dataBuffer.getD slot 0) := by
        rw [List.getD_eq_getElem?_getD, List.getElem?_eq_getElem hlt]
        exact load_of_lt hlt
      rw [CVRingBuffer.readPass_copy deleteEntries hmore hslot hmeet hlt]
      refine (readPass_copy deleteEntries (l := ofReadLoop l) hmore hslot hmeet hcell).trans ?_
      cases deleteEntries with
      | false => rfl
      | true =>
        simp only [if_true, Pass.map, ofReadLoop, erase_ofVector h]
  · rw [CVRingBuffer.readPass_done hmore]
    exact readPass_done hmore

theorem readEntries_ofVector [Zero T] (h : v.Sized) (hpos : 0 < v.m_bufferSize) (fuel : ℕ)
    (target : ℕ → T) (numEntriesToRead : ℕ) (deleteEntries : Bool) :
    (ofVector v).readEntries fuel target numEntriesToRead deleteEntries =
      (v.readEntries fuel target numEntriesToRead deleteEntries).map ofReadResult := by
  refine loop_map (fun l : CVRingBuffer.ReadLoop T ↦ l.buffer.Sized ∧ 0 < l.buffer.m_bufferSize)
    ofReadLoop ofReadResult ?_ ?_ fuel ⟨v, target, toUnsigned v.m_readIdx, 0⟩ ⟨h, hpos⟩
  · rintro l ⟨hl, hlpos⟩
    exact readPass_ofReadLoop numEntriesToRead deleteEntries hl hlpos
  · rintro l next ⟨hl, hlpos⟩ hpass
    have hbuffer := CVRingBuffer.readPass_buffer numEntriesToRead deleteEntries l
    rw [hpass] at hbuffer
    rcases hbuffer with hsame | herase
    · rw [hsame]
      exact ⟨hl, hlpos⟩
    · rw [herase, CVRingBuffer.bufferSize_erase hl]
      exact ⟨hl.erase 1, hlpos⟩

/-! ### Writing -/

/-- The variables of a write loop over a vector, as those of a write loop here. -/
def ofWriteLoop (l : CVRingBuffer.WriteLoop T) : WriteLoop T where
  buffer := ofVector l.buffer
  entriesWritten := l.entriesWritten

/-- The result of a write loop over a vector, as a result here. -/
def ofWriteResult (r : ℤ × CVRingBuffer T) : Except Fault (ℤ × CRingBuffer T) :=
  .ok (r.1, ofVector r.2)

theorem writeSlot_ofVector (h : Indexed N v) (hroom : v.m_currentDataSize < N)
    (source : ℕ → T) (written : ℕ) :
    writeSlot source (ofVector v) written =
      .again ⟨ofVector (v.storeNext (source written)), toUnsigned (written + 1)⟩ := by
  have hslot : v.m_writeIdx < v.m_dataBuffer.length := by
    rw [h.length_eq]
    exact h.writeIdx_lt
  simp only [writeSlot, ofVector, store_of_lt hslot, h.bufferSize_eq, if_pos hroom,
    CVRingBuffer.storeNext, CircularWindow.succ_wrap h.writeIdx_lt]

theorem writeSlot_ofVector_full (h : Indexed N v) (hfull : v.m_currentDataSize = N)
    (source : ℕ → T) (written : ℕ) :
    writeSlot source (ofVector v).advanceReadIdx written =
      .again ⟨ofVector (v.replaceOldest (source written)), toUnsigned (written + 1)⟩ := by
  have hslot : v.m_writeIdx < v.m_dataBuffer.length := by
    rw [h.length_eq]
    exact h.writeIdx_lt
  simp only [writeSlot, advanceReadIdx, ofVector, store_of_lt hslot, h.bufferSize_eq, hfull,
    lt_irrefl, if_false, CVRingBuffer.replaceOldest, CircularWindow.succ_wrap h.writeIdx_lt,
    CircularWindow.succ_wrap h.readIdx_lt]

theorem writePass_done {source : ℕ → T} {writeSize : ℕ} {bOverwrite : Bool} {l : WriteLoop T}
    (h : ¬ l.entriesWritten < writeSize) :
    writePass source writeSize bOverwrite l = .leave (.ok (toInt l.entriesWritten, l.buffer)) ∧
      writePassEntriesPerBlock source writeSize bOverwrite l =
        .leave (.ok (toInt l.entriesWritten, l.buffer)) := by
  simp [writePass, writePassEntriesPerBlock, h]

/-- A pass that finds room, in both overloads. -/
theorem writePass_ofWriteLoop_room (source : ℕ → T) {blockSize written : ℕ} (bOverwrite : Bool)
    (h : Indexed N v) (hmore : written < blockSize) (hroom : v.m_currentDataSize < N) :
    writePass source blockSize bOverwrite (ofWriteLoop ⟨v, written⟩) =
        (CVRingBuffer.writePass source blockSize bOverwrite ⟨v, written⟩).map ofWriteLoop
          ofWriteResult ∧
      writePassEntriesPerBlock source blockSize bOverwrite (ofWriteLoop ⟨v, written⟩) =
        (CVRingBuffer.writePass source blockSize bOverwrite ⟨v, written⟩).map ofWriteLoop
          ofWriteResult := by
  have hmeet : ¬ ((ofVector v).m_writeIdx = (ofVector v).m_readIdx ∧
      0 < (ofVector v).m_currentDataSize) := by
    change ¬ (v.m_writeIdx = v.m_readIdx ∧ 0 < v.m_currentDataSize)
    rw [h.writeIdx_eq_readIdx_iff]
    omega
  rw [h.writePass_room source bOverwrite hmore hroom]
  simp only [writePass, writePassEntriesPerBlock, ofWriteLoop, if_pos hmore, if_neg hmeet,
    writeSlot_ofVector h hroom]
  exact ⟨rfl, rfl⟩

/-- The pass of three arguments, under the index invariant. -/
theorem writePass_ofWriteLoop (source : ℕ → T) (blockSize : ℕ) (bOverwrite : Bool)
    {l : CVRingBuffer.WriteLoop T} (h : Indexed N l.buffer) :
    writePass source blockSize bOverwrite (ofWriteLoop l) =
      (CVRingBuffer.writePass source blockSize bOverwrite l).map ofWriteLoop ofWriteResult := by
  by_cases hmore : l.entriesWritten < blockSize
  · rcases h.dataSize_le.lt_or_eq with hroom | hfull
    · exact (writePass_ofWriteLoop_room source bOverwrite h hmore hroom).1
    · have hmeet : (ofVector l.buffer).m_writeIdx = (ofVector l.buffer).m_readIdx ∧
          0 < (ofVector l.buffer).m_currentDataSize :=
        ⟨h.writeIdx_eq_readIdx_iff.mpr (.inr hfull), h.pos.trans_eq hfull.symm⟩
      cases bOverwrite with
      | false =>
        rw [h.writePass_full_refuse source hmore hfull]
        simp only [writePass, ofWriteLoop, if_pos hmore, if_pos hmeet, if_true]
        rfl
      | true =>
        rw [h.writePass_full_overwrite source hmore hfull]
        simp only [writePass, ofWriteLoop, if_pos hmore, if_pos hmeet, Bool.true_eq_false, if_false,
          writeSlot_ofVector_full h hfull]
        rfl
  · rw [CVRingBuffer.writePass_done hmore]
    exact (writePass_done hmore).1

theorem loop_writePass (h : Indexed N v) (source : ℕ → T) (blockSize : ℕ) (bOverwrite : Bool)
    (fuel : ℕ) :
    loop (writePass source blockSize bOverwrite) fuel ⟨ofVector v, 0⟩ =
      (v.writeEntries fuel source blockSize bOverwrite).map ofWriteResult := by
  refine loop_map (fun l : CVRingBuffer.WriteLoop T ↦ Indexed N l.buffer) ofWriteLoop
    ofWriteResult ?_ ?_ fuel ⟨v, 0⟩ h
  · intro l hl
    exact writePass_ofWriteLoop source blockSize bOverwrite hl
  · intro l next hl hpass
    have hkeep := hl.writePass source blockSize bOverwrite l.entriesWritten
    rw [hpass] at hkeep
    exact hkeep

/-- With the permission to overwrite, the passes of the two overloads are the same. -/
theorem writePassEntriesPerBlock_true (source : ℕ → T) (writeSize : ℕ) :
    writePassEntriesPerBlock source writeSize true = writePass source writeSize true := by
  funext l
  simp only [writePassEntriesPerBlock, writePass, Bool.true_eq_false, if_false]

/-- Without it, a pass of four arguments does not heed a full buffer. -/
theorem writePassEntriesPerBlock_false (source : ℕ → T) {writeSize : ℕ} {l : WriteLoop T}
    (hmore : l.entriesWritten < writeSize) :
    writePassEntriesPerBlock source writeSize false l =
      writeSlot source l.buffer l.entriesWritten := by
  simp only [writePassEntriesPerBlock, if_pos hmore, if_true, ite_self]

/-- The loop of four arguments, where there is room for the whole block. -/
theorem loop_writePassEntriesPerBlock (h : Indexed N v) (source : ℕ → T) {writeSize : ℕ}
    (hword : writeSize < 2 ^ 32) (hfits : writeSize ≤ N - v.m_currentDataSize) (fuel : ℕ) :
    loop (writePassEntriesPerBlock source writeSize false) fuel ⟨ofVector v, 0⟩ =
      (v.writeEntries fuel source writeSize false).map ofWriteResult := by
  refine loop_map
    (fun l : CVRingBuffer.WriteLoop T ↦ Indexed N l.buffer ∧ l.entriesWritten ≤ writeSize ∧
      writeSize - l.entriesWritten ≤ N - l.buffer.m_currentDataSize)
    ofWriteLoop ofWriteResult ?_ ?_ fuel ⟨v, 0⟩ ⟨h, Nat.zero_le _, hfits⟩
  · rintro l ⟨hl, hle, hrest⟩
    by_cases hmore : l.entriesWritten < writeSize
    · exact (writePass_ofWriteLoop_room source false hl hmore (by omega)).2
    · rw [CVRingBuffer.writePass_done hmore]
      exact (writePass_done hmore).2
  · rintro l next ⟨hl, hle, hrest⟩ hpass
    by_cases hmore : l.entriesWritten < writeSize
    · have hroom : l.buffer.m_currentDataSize < N := by omega
      rw [hl.writePass_room source false hmore hroom, toUnsigned_of_lt (by omega)] at hpass
      obtain rfl := Pass.again.inj hpass
      refine ⟨hl.storeNext hroom _, hmore, ?_⟩
      change writeSize - (l.entriesWritten + 1) ≤ N - (l.buffer.m_currentDataSize + 1)
      omega
    · rw [CVRingBuffer.writePass_done hmore] at hpass
      cases hpass

end RdbLibs.Buffer.CRingBuffer
