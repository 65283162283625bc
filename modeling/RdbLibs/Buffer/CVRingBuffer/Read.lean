import RdbLibs.Buffer.CVRingBuffer.Delete
import RdbLibs.Buffer.CVRingBuffer.Write

/-!
# The read loop of `CVRingBuffer`

Both `readBlock` overloads run one loop, which copies entries from a private 32-bit index until it
has as many as it was asked for or meets the write index, and which deletes each entry as it is
copied if it is told to. From a state of the index invariant that is neither empty nor full, the
loop delivers the oldest entries (`Indexed.returns_read`), provided that the slots it visits have
32-bit numbers (`Addressable`, which holds of every buffer of at most `2 ^ 32` entries). From a
full buffer it delivers nothing, because it meets the write index at once
(`Indexed.returns_read_full`).
-/

set_option autoImplicit false
set_option relaxedAutoImplicit false

namespace RdbLibs.Buffer.CVRingBuffer

open MachineWord WhileLoop CircularWindow

variable {T : Type*} {N : ℕ} {s : CVRingBuffer T}

/-! ### The target memory -/

/-- The target memory after entries were copied to `start` and the offsets behind it. -/
def deliver (target : ℕ → T) (start : ℕ) : List T → ℕ → T
  | [] => target
  | value :: rest => deliver (Function.update target start value) (start + 1) rest

theorem deliver_of_lt (entries : List T) : ∀ (target : ℕ → T) {start offset : ℕ},
    offset < start → deliver target start entries offset = target offset := by
  induction entries with
  | nil => intro target start offset _; rfl
  | cons value rest ih =>
    intro target start offset hlt
    rw [deliver, ih _ (by omega), Function.update_of_ne (by omega)]

/-- The delivered entries are what the target holds where they were copied to. -/
theorem block_deliver (entries : List T) : ∀ (target : ℕ → T) (start : ℕ),
    block (deliver target start entries) start entries.length = entries := by
  induction entries with
  | nil => intro target start; rfl
  | cons value rest ih =>
    intro target start
    rw [List.length_cons, block_succ, deliver, ih, deliver_of_lt _ _ (Nat.lt_succ_self start),
      Function.update_self]

/-! ### One pass -/

/-- The state that a read which has copied `count` entries has made of the buffer. -/
def afterRead (deleteEntries : Bool) (s : CVRingBuffer T) (count : ℕ) : CVRingBuffer T :=
  if deleteEntries then s.dropOldest count else s

@[simp] theorem dataBuffer_afterRead (deleteEntries : Bool) (s : CVRingBuffer T) (count : ℕ) :
    (afterRead deleteEntries s count).m_dataBuffer = s.m_dataBuffer := by
  cases deleteEntries <;> rfl

@[simp] theorem bufferSize_afterRead (deleteEntries : Bool) (s : CVRingBuffer T) (count : ℕ) :
    (afterRead deleteEntries s count).m_bufferSize = s.m_bufferSize := by
  cases deleteEntries <;> rfl

@[simp] theorem writeIdx_afterRead (deleteEntries : Bool) (s : CVRingBuffer T) (count : ℕ) :
    (afterRead deleteEntries s count).m_writeIdx = s.m_writeIdx := by
  cases deleteEntries <;> rfl

theorem Indexed.afterRead_zero (h : Indexed N s) (deleteEntries : Bool) :
    afterRead deleteEntries s 0 = s := by
  cases deleteEntries with
  | false => rfl
  | true => exact h.dropOldest_zero

theorem Indexed.afterRead (h : Indexed N s) (deleteEntries : Bool) {count : ℕ}
    (hcount : count ≤ s.m_currentDataSize) :
    Indexed N (CVRingBuffer.afterRead deleteEntries s count) := by
  cases deleteEntries with
  | false => exact h
  | true => exact h.dropOldest hcount

/-- Deleting the entry just copied, from a buffer that was not full. -/
theorem Indexed.erase_afterRead (h : Indexed N s) (hroom : s.m_currentDataSize < N) {count : ℕ}
    (hcount : count < s.m_currentDataSize) :
    ((CVRingBuffer.afterRead true s count).erase 1).2 =
      CVRingBuffer.afterRead true s (count + 1) := by
  have hsize : (s.dropOldest count).m_currentDataSize = s.m_currentDataSize - count := rfl
  simp only [CVRingBuffer.afterRead, if_true]
  rw [(h.dropOldest hcount.le).erase_eq, if_neg (by omega), if_pos rfl, if_neg (by omega),
    dropOldest_dropOldest]

theorem readPass_done {numEntriesToRead : ℕ} {deleteEntries : Bool} {l : ReadLoop T}
    (h : ¬ l.entriesRead < numEntriesToRead) :
    readPass numEntriesToRead deleteEntries l = .leave l.finish := by
  simp [readPass, h]

/-- A pass ends the loop where its index, wrapped, meets the write index. -/
theorem readPass_meet {numEntriesToRead : ℕ} {deleteEntries : Bool} {l : ReadLoop T}
    (h : (if l.buffer.m_bufferSize ≤ l.currentReadIdx then 0 else l.currentReadIdx) =
      l.buffer.m_writeIdx) :
    readPass numEntriesToRead deleteEntries l = .leave l.finish := by
  simp [readPass, h]

/-- A pass copies the entry that its index, wrapped, points to. -/
theorem readPass_copy [Zero T] {numEntriesToRead : ℕ} (deleteEntries : Bool) {l : ReadLoop T}
    {slot : ℕ} (hmore : l.entriesRead < numEntriesToRead)
    (hslot : (if l.buffer.m_bufferSize ≤ l.currentReadIdx then 0 else l.currentReadIdx) = slot)
    (hne : slot ≠ l.buffer.m_writeIdx) (hlt : slot < l.buffer.m_dataBuffer.length) :
    readPass numEntriesToRead deleteEntries l = .again
      { buffer := if deleteEntries then (l.buffer.erase 1).2 else l.buffer
        target := Function.update l.target l.entriesRead (l.buffer.m_dataBuffer.getD slot 0)
        currentReadIdx := toUnsigned (slot + 1)
        entriesRead := toUnsigned (l.entriesRead + 1) } := by
  simp only [readPass, if_pos hmore, hslot, if_neg hne]
  rw [List.getD_eq_getElem?_getD, List.getElem?_eq_getElem hlt]
  rfl

/-- A pass can only keep the buffer or delete one entry. -/
theorem readPass_buffer (numEntriesToRead : ℕ) (deleteEntries : Bool) (l : ReadLoop T) :
    match readPass numEntriesToRead deleteEntries l with
    | .again next => next.buffer = l.buffer ∨ next.buffer = (l.buffer.erase 1).2
    | .leave result => result.buffer = l.buffer := by
  by_cases hmore : l.entriesRead < numEntriesToRead
  · by_cases hmeet : (if l.buffer.m_bufferSize ≤ l.currentReadIdx then 0
        else l.currentReadIdx) = l.buffer.m_writeIdx
    · rw [readPass_meet hmeet]
      rfl
    · simp only [readPass, if_pos hmore, if_neg hmeet]
      cases l.buffer.m_dataBuffer[
          if l.buffer.m_bufferSize ≤ l.currentReadIdx then 0 else l.currentReadIdx]? with
      | none => rfl
      | some value =>
        cases deleteEntries with
        | false => exact .inl rfl
        | true => exact .inr rfl
  · rw [readPass_done hmore]
    rfl

/-- Whatever its arguments, a read that returns keeps the index invariant. -/
theorem Indexed.readEntries (h : Indexed N s) {fuel numEntriesToRead : ℕ} {target : ℕ → T}
    {deleteEntries : Bool} {result : ReadResult T}
    (hcall : s.readEntries fuel target numEntriesToRead deleteEntries = some result) :
    Indexed N result.buffer := by
  refine loop_invariant (fun l : ReadLoop T ↦ Indexed N l.buffer)
    (fun r : ReadResult T ↦ Indexed N r.buffer) ?_ ?_ h hcall
  · intro l next hl hpass
    have hbuffer := readPass_buffer numEntriesToRead deleteEntries l
    rw [hpass] at hbuffer
    rcases hbuffer with hsame | herase
    · rw [hsame]
      exact hl
    · rw [herase]
      exact hl.erase 1
  · intro l out hl hpass
    have hbuffer := readPass_buffer numEntriesToRead deleteEntries l
    rw [hpass] at hbuffer
    rw [hbuffer]
    exact hl

theorem Sized.readEntries (h : s.Sized) {fuel numEntriesToRead : ℕ} {target : ℕ → T}
    {deleteEntries : Bool} {result : ReadResult T}
    (hcall : s.readEntries fuel target numEntriesToRead deleteEntries = some result) :
    result.buffer.Sized ∧ result.buffer.m_bufferSize = s.m_bufferSize := by
  refine loop_invariant
    (fun l : ReadLoop T ↦ l.buffer.Sized ∧ l.buffer.m_bufferSize = s.m_bufferSize)
    (fun r : ReadResult T ↦ r.buffer.Sized ∧ r.buffer.m_bufferSize = s.m_bufferSize) ?_ ?_
    ⟨h, rfl⟩ hcall
  · rintro l next ⟨hl, hsize⟩ hpass
    have hbuffer := readPass_buffer numEntriesToRead deleteEntries l
    rw [hpass] at hbuffer
    rcases hbuffer with hsame | herase
    · rw [hsame]
      exact ⟨hl, hsize⟩
    · rw [herase, bufferSize_erase hl]
      exact ⟨hl.erase 1, hsize⟩
  · intro l out hl hpass
    have hbuffer := readPass_buffer numEntriesToRead deleteEntries l
    rw [hpass] at hbuffer
    rw [hbuffer]
    exact hl

/-! ### The whole loop -/

/-- The slots that the tests of a read of `numEntriesToRead` entries visit have 32-bit numbers. -/
def Addressable (N readIdx count numEntriesToRead : ℕ) : Prop :=
  ∀ offset < numEntriesToRead, offset ≤ count → (readIdx + offset) % N < 2 ^ 32

theorem addressable_of_le (hpos : 0 < N) (hN : N ≤ 2 ^ 32) (readIdx count numEntriesToRead : ℕ) :
    Addressable N readIdx count numEntriesToRead :=
  fun _ _ _ ↦ (Nat.mod_lt _ hpos).trans_le hN

/-- The 32-bit successor of a slot, wrapped, is the next slot if that has a 32-bit number. -/
theorem wrap_toUnsigned_succ {slot : ℕ} (hslot : slot < N) (hlow : slot < 2 ^ 32)
    (hnext : (slot + 1) % N < 2 ^ 32) :
    (if N ≤ toUnsigned (slot + 1) then 0 else toUnsigned (slot + 1)) = (slot + 1) % N := by
  rcases Nat.lt_or_ge (slot + 1) (2 ^ 32) with hsmall | hlarge
  · rw [toUnsigned_of_lt hsmall]
    exact succ_wrap hslot
  · have hword : slot + 1 = 2 ^ 32 := by omega
    have hN : N = 2 ^ 32 := by
      by_contra hne
      rw [Nat.mod_eq_of_lt (by omega)] at hnext
      omega
    rw [hword, hN]
    decide

/-- The wrapped index that the pass behind entry `count` starts with. -/
theorem Addressable.wrap_next {readIdx count size numEntriesToRead : ℕ} (hpos : 0 < N)
    (haddress : Addressable N readIdx size numEntriesToRead) (hbelow : count < size)
    (hmore : count + 1 < numEntriesToRead) :
    (if N ≤ toUnsigned ((readIdx + count) % N + 1) then 0
      else toUnsigned ((readIdx + count) % N + 1)) = (readIdx + (count + 1)) % N := by
  have hmod : ((readIdx + count) % N + 1) % N = (readIdx + (count + 1)) % N := by
    rw [Nat.mod_add_mod, Nat.add_assoc]
  have hnext := haddress (count + 1) hmore hbelow
  have hlow := haddress count (Nat.lt_of_succ_lt hmore) hbelow.le
  rw [← hmod] at hnext ⊢
  exact wrap_toUnsigned_succ (Nat.mod_lt _ hpos) hlow hnext

/-- A pass of the loop that delivers entry `count`, and removes it if it was told to. -/
theorem Indexed.readPass_again [Zero T] (h : Indexed N s) (hroom : s.m_currentDataSize < N)
    {numEntriesToRead count currentReadIdx : ℕ} (deleteEntries : Bool) (target : ℕ → T)
    (hmore : count < numEntriesToRead) (hbelow : count < s.m_currentDataSize)
    (hword : count + 1 < 2 ^ 32)
    (hidx : (if N ≤ currentReadIdx then 0 else currentReadIdx) = (s.m_readIdx + count) % N) :
    readPass numEntriesToRead deleteEntries
        ⟨CVRingBuffer.afterRead deleteEntries s count, target, currentReadIdx, count⟩ =
      .again ⟨CVRingBuffer.afterRead deleteEntries s (count + 1),
        Function.update target count (s.m_dataBuffer.getD ((s.m_readIdx + count) % N) 0),
        toUnsigned ((s.m_readIdx + count) % N + 1), count + 1⟩ := by
  have hslot : (s.m_readIdx + count) % N < N := Nat.mod_lt _ h.pos
  have hne : (s.m_readIdx + count) % N ≠ s.m_writeIdx := by
    rw [h.writeIdx_eq]
    exact slot_ne hbelow (by omega)
  have hpass := readPass_copy deleteEntries
    (l := ⟨CVRingBuffer.afterRead deleteEntries s count, target, currentReadIdx, count⟩) hmore
    (by simpa [h.bufferSize_eq] using hidx) (by simpa using hne)
    (by simpa [h.length_eq] using hslot)
  have hbuffer : (if deleteEntries then
      ((CVRingBuffer.afterRead deleteEntries s count).erase 1).2
        else CVRingBuffer.afterRead deleteEntries s count) =
      CVRingBuffer.afterRead deleteEntries s (count + 1) := by
    cases deleteEntries with
    | false => rfl
    | true => exact h.erase_afterRead hroom hbelow
  rw [toUnsigned_of_lt hword] at hpass
  simpa only [hbuffer, dataBuffer_afterRead] using hpass

/-- From a buffer that is not full, the loop delivers the entries that are left to read, as many as
there are, and has then removed all that it delivered if it was told to. -/
theorem Indexed.returns_read [Zero T] (h : Indexed N s) (hroom : s.m_currentDataSize < N)
    {numEntriesToRead : ℕ} (deleteEntries : Bool)
    (hword : min numEntriesToRead s.m_currentDataSize < 2 ^ 32)
    (haddress : Addressable N s.m_readIdx s.m_currentDataSize numEntriesToRead) (rest : ℕ) :
    ∀ (count : ℕ) (target : ℕ → T) (currentReadIdx : ℕ),
      count + rest = min numEntriesToRead s.m_currentDataSize →
      (count < numEntriesToRead →
        (if N ≤ currentReadIdx then 0 else currentReadIdx) = (s.m_readIdx + count) % N) →
      Returns (readPass numEntriesToRead deleteEntries)
        ⟨CVRingBuffer.afterRead deleteEntries s count, target, currentReadIdx, count⟩
        { value := toInt (min numEntriesToRead s.m_currentDataSize)
          target := some (deliver target count
            (window (fun slot ↦ s.m_dataBuffer.getD slot 0) N (s.m_readIdx + count) rest))
          buffer := CVRingBuffer.afterRead deleteEntries s
            (min numEntriesToRead s.m_currentDataSize) } := by
  induction rest with
  | zero =>
    intro count target currentReadIdx hcount hidx
    rw [← hcount, Nat.add_zero]
    refine .leave ?_
    by_cases hmore : count < numEntriesToRead
    · have hlast : count = s.m_currentDataSize := by omega
      refine readPass_meet ?_
      simp only [bufferSize_afterRead, writeIdx_afterRead]
      rw [h.bufferSize_eq, hidx hmore, hlast]
      exact h.writeIdx_eq.symm
    · exact readPass_done hmore
  | succ rest ih =>
    intro count target currentReadIdx hcount hidx
    have hmore : count < numEntriesToRead := by omega
    have hbelow : count < s.m_currentDataSize := by omega
    have hpass := h.readPass_again hroom deleteEntries target hmore hbelow (by omega) (hidx hmore)
    have hrest := ih (count + 1)
      (Function.update target count (s.m_dataBuffer.getD ((s.m_readIdx + count) % N) 0))
      (toUnsigned ((s.m_readIdx + count) % N + 1)) (by omega)
      (haddress.wrap_next h.pos hbelow)
    rw [window_eq_cons, window_mod, deliver]
    exact .again hpass hrest

/-- A read of a full buffer meets the write index at once. -/
theorem Indexed.returns_read_full (h : Indexed N s) (hfull : s.m_currentDataSize = N)
    (hlow : s.m_readIdx < 2 ^ 32) (numEntriesToRead : ℕ) (deleteEntries : Bool)
    (target : ℕ → T) :
    Returns (readPass numEntriesToRead deleteEntries) ⟨s, target, toUnsigned s.m_readIdx, 0⟩
      ⟨0, some target, s⟩ := by
  refine .leave (readPass_meet ?_)
  rw [toUnsigned_of_lt hlow, h.bufferSize_eq, if_neg (not_le.mpr h.readIdx_lt)]
  exact (h.writeIdx_eq_readIdx_iff.mpr (.inr hfull)).symm

end RdbLibs.Buffer.CVRingBuffer
