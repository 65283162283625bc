import RdbLibs.Buffer.CVRingBuffer.Invariant
import Mathlib.Tactic.Linarith

/-!
# The write loop of `CVRingBuffer`

Both `writeBlock` overloads run one loop over the source block. `writePass_cases` is all that a pass
can do without the permission to overwrite, from any state; under the index invariant a pass stores
behind the newest entry while there is room, and on a full buffer it refuses or replaces the oldest
entry. Hence the loop offers the block to the queue (`Indexed.returns_offer`) or overwrites with it
(`Indexed.returns_overwrite`). `refused_of_writeEntries` covers the states outside the invariant: a
negative result is the answer to a loop that stored nothing, or the over-flow `-5` after a prefix of
the block.
-/

set_option autoImplicit false
set_option relaxedAutoImplicit false

namespace RdbLibs.Buffer.CVRingBuffer

open MachineWord WhileLoop

variable {T : Type*} {N : ℕ} {s : CVRingBuffer T}

/-- The `count` entries that a source pointer addresses from `start` on. -/
def block (source : ℕ → T) (start count : ℕ) : List T :=
  (List.range count).map fun offset ↦ source (start + offset)

@[simp] theorem length_block (source : ℕ → T) (start count : ℕ) :
    (block source start count).length = count := by
  simp [block]

@[simp] theorem block_zero (source : ℕ → T) (start : ℕ) : block source start 0 = [] := rfl

theorem block_succ (source : ℕ → T) (start count : ℕ) :
    block source start (count + 1) = source start :: block source (start + 1) count := by
  simp only [block, List.range_succ_eq_map, List.map_cons, List.map_map, Function.comp_def,
    Nat.add_zero, Nat.succ_eq_add_one]
  congr 1
  refine List.map_congr_left fun offset _ ↦ ?_
  rw [Nat.add_comm offset 1, Nat.add_assoc]

theorem take_block (source : ℕ → T) (start : ℕ) (count keep : ℕ) :
    (block source start count).take keep = block source start (min keep count) := by
  simp only [block, ← List.map_take, List.take_range]

/-! ### One pass -/

theorem writePass_done {source : ℕ → T} {writeSize written : ℕ} {bOverwrite : Bool}
    (h : ¬ written < writeSize) :
    writePass source writeSize bOverwrite ⟨s, written⟩ = .leave (toInt written, s) := by
  simp [writePass, h]

/-- All that a pass can do when it may not overwrite: refuse, fail to address the slot, store one
entry, or (with more entries counted than there are slots) store one and leave. -/
theorem writePass_cases (source : ℕ → T) {writeSize written : ℕ}
    (hsized : s.Sized) (h : written < writeSize) :
    (s.m_writeIdx = s.m_readIdx ∧ 0 < s.m_currentDataSize ∧
      writePass source writeSize false ⟨s, written⟩ = .leave (-5, s)) ∨
    (¬ (s.m_writeIdx = s.m_readIdx ∧ 0 < s.m_currentDataSize) ∧ s.m_bufferSize ≤ s.m_writeIdx ∧
      writePass source writeSize false ⟨s, written⟩ = .leave (-6, s)) ∨
    (¬ (s.m_writeIdx = s.m_readIdx ∧ 0 < s.m_currentDataSize) ∧ s.m_writeIdx < s.m_bufferSize ∧
      s.m_currentDataSize < s.m_bufferSize ∧
      writePass source writeSize false ⟨s, written⟩ =
        .again ⟨s.storeNext (source written), toUnsigned (written + 1)⟩) ∨
    (s.m_bufferSize ≤ s.m_currentDataSize ∧ ∃ after,
      writePass source writeSize false ⟨s, written⟩ = .leave (toInt written, after)) := by
  by_cases hmeet : s.m_writeIdx = s.m_readIdx ∧ 0 < s.m_currentDataSize
  · refine .inl ⟨hmeet.1, hmeet.2, ?_⟩
    simp only [writePass, if_pos h, if_pos hmeet, if_true]
  refine .inr ?_
  have hlength : s.m_dataBuffer.length = s.m_bufferSize := hsized
  simp only [writePass, if_pos h, if_neg hmeet, writeSlot, hlength]
  by_cases hslot : s.m_writeIdx < s.m_bufferSize
  · refine .inr ?_
    by_cases hroom : s.m_currentDataSize < s.m_bufferSize
    · refine .inl ⟨hmeet, hslot, hroom, ?_⟩
      simp only [if_pos hslot, if_pos hroom, storeNext, CircularWindow.succ_wrap hslot]
    · exact .inr ⟨not_lt.mp hroom, { s with m_dataBuffer := s.m_dataBuffer.set _ _ },
        by simp only [if_pos hslot, if_neg hroom, if_true]; rfl⟩
  · exact .inl ⟨hmeet, not_lt.mp hslot, if_neg hslot⟩

namespace Indexed

variable {source : ℕ → T} {writeSize written : ℕ}

/-- While there is room, a pass stores behind the newest entry. -/
theorem writePass_room (h : Indexed N s) (source : ℕ → T) (bOverwrite : Bool)
    (hmore : written < writeSize) (hroom : s.m_currentDataSize < N) :
    writePass source writeSize bOverwrite ⟨s, written⟩ =
      .again ⟨s.storeNext (source written), toUnsigned (written + 1)⟩ := by
  have hmeet : ¬ (s.m_writeIdx = s.m_readIdx ∧ 0 < s.m_currentDataSize) := by
    rw [h.writeIdx_eq_readIdx_iff]
    omega
  have hslot := h.writeIdx_lt
  simp only [CVRingBuffer.writePass, if_pos hmore, if_neg hmeet, writeSlot, h.length_eq,
    h.bufferSize_eq, if_pos hslot, if_pos hroom, CVRingBuffer.storeNext,
    CircularWindow.succ_wrap hslot]

/-- A full buffer refuses. -/
theorem writePass_full_refuse (h : Indexed N s) (source : ℕ → T) (hmore : written < writeSize)
    (hfull : s.m_currentDataSize = N) :
    writePass source writeSize false ⟨s, written⟩ = .leave (-5, s) := by
  have hmeet : s.m_writeIdx = s.m_readIdx ∧ 0 < s.m_currentDataSize :=
    ⟨h.writeIdx_eq_readIdx_iff.mpr (.inr hfull), by rw [hfull]; exact h.pos⟩
  simp only [CVRingBuffer.writePass, if_pos hmore, if_pos hmeet, if_true]

/-- A full buffer gives the slot of its oldest entry to a write that may overwrite. -/
theorem writePass_full_overwrite (h : Indexed N s) (source : ℕ → T) (hmore : written < writeSize)
    (hfull : s.m_currentDataSize = N) :
    writePass source writeSize true ⟨s, written⟩ =
      .again ⟨s.replaceOldest (source written), toUnsigned (written + 1)⟩ := by
  have hmeet : s.m_writeIdx = s.m_readIdx ∧ 0 < s.m_currentDataSize :=
    ⟨h.writeIdx_eq_readIdx_iff.mpr (.inr hfull), by rw [hfull]; exact h.pos⟩
  simp only [CVRingBuffer.writePass, if_pos hmore]
  rw [if_pos hmeet]
  simp only [writeSlot, Bool.true_eq_false, if_false, h.length_eq, h.bufferSize_eq,
    if_pos h.writeIdx_lt, hfull, lt_irrefl, CVRingBuffer.replaceOldest,
    CircularWindow.succ_wrap h.readIdx_lt, CircularWindow.succ_wrap h.writeIdx_lt]

/-- Every pass of the write loop keeps the index invariant, in the state that it goes round with
and in the state that it leaves. -/
theorem writePass (h : Indexed N s) (source : ℕ → T) (writeSize : ℕ) (bOverwrite : Bool)
    (written : ℕ) :
    match CVRingBuffer.writePass source writeSize bOverwrite ⟨s, written⟩ with
    | .again next => Indexed N next.buffer
    | .leave result => Indexed N result.2 := by
  by_cases hmore : written < writeSize
  · rcases h.dataSize_le.lt_or_eq with hroom | hfull
    · rw [h.writePass_room source _ hmore hroom]
      exact h.storeNext hroom _
    · cases bOverwrite with
      | false =>
        rw [h.writePass_full_refuse source hmore hfull]
        exact h
      | true =>
        rw [h.writePass_full_overwrite source hmore hfull]
        exact h.replaceOldest hfull _
  · rw [writePass_done hmore]
    exact h

/-- Whatever its arguments, a write that returns keeps the index invariant. -/
theorem writeEntries (h : Indexed N s) {fuel : ℕ} {bOverwrite : Bool} {value : ℤ}
    {s' : CVRingBuffer T}
    (hcall : s.writeEntries fuel source writeSize bOverwrite = some (value, s')) :
    Indexed N s' := by
  refine loop_invariant (fun l ↦ Indexed N l.buffer) (fun r ↦ Indexed N r.2)
    ?_ ?_ h hcall
  · intro l next hl hpass
    have hkeep := hl.writePass source writeSize bOverwrite l.entriesWritten
    rw [hpass] at hkeep
    exact hkeep
  · intro l result hl hpass
    have hkeep := hl.writePass source writeSize bOverwrite l.entriesWritten
    rw [hpass] at hkeep
    exact hkeep

end Indexed

/-! ### The size of the vector -/

theorem Sized.writeSlot (h : s.Sized) (source : ℕ → T) (bOverwrite : Bool)
    (entriesWritten : ℕ) :
    match CVRingBuffer.writeSlot source bOverwrite s entriesWritten with
    | .again next => next.buffer.Sized
    | .leave result => result.2.Sized := by
  have hset : (s.m_dataBuffer.set s.m_writeIdx (source entriesWritten)).length =
      s.m_bufferSize := (List.length_set ..).trans h
  by_cases hslot : s.m_writeIdx < s.m_dataBuffer.length
  · by_cases hroom : s.m_currentDataSize < s.m_bufferSize
    · simp only [CVRingBuffer.writeSlot, if_pos hslot, if_pos hroom]
      exact hset
    · cases bOverwrite with
      | false =>
        simp only [CVRingBuffer.writeSlot, if_pos hslot, if_neg hroom, if_true]
        exact hset
      | true =>
        simp only [CVRingBuffer.writeSlot, if_pos hslot, if_neg hroom, Bool.true_eq_false,
          if_false]
        exact hset
  · simp only [CVRingBuffer.writeSlot, if_neg hslot]
    exact h

theorem Sized.writePass (h : s.Sized) (source : ℕ → T) (writeSize : ℕ) (bOverwrite : Bool)
    (entriesWritten : ℕ) :
    match CVRingBuffer.writePass source writeSize bOverwrite ⟨s, entriesWritten⟩ with
    | .again next => next.buffer.Sized
    | .leave result => result.2.Sized := by
  by_cases hmore : entriesWritten < writeSize
  · by_cases hmeet : s.m_writeIdx = s.m_readIdx ∧ 0 < s.m_currentDataSize
    · cases bOverwrite with
      | false =>
        simp only [CVRingBuffer.writePass, if_pos hmore, if_pos hmeet, if_true]
        exact h
      | true =>
        simp only [CVRingBuffer.writePass, if_pos hmore, if_pos hmeet, Bool.true_eq_false,
          if_false]
        exact Sized.writeSlot (s := { s with
          m_readIdx := if s.m_bufferSize ≤ s.m_readIdx + 1 then 0 else s.m_readIdx + 1 })
          h source true entriesWritten
    · simp only [CVRingBuffer.writePass, if_pos hmore, if_neg hmeet]
      exact h.writeSlot source bOverwrite entriesWritten
  · rw [writePass_done hmore]
    exact h

theorem Sized.writeEntries (h : s.Sized) {fuel : ℕ} {source : ℕ → T} {writeSize : ℕ}
    {bOverwrite : Bool} {result : ℤ × CVRingBuffer T}
    (hcall : s.writeEntries fuel source writeSize bOverwrite = some result) : result.2.Sized := by
  refine loop_invariant (fun l : WriteLoop T ↦ l.buffer.Sized)
    (fun r : ℤ × CVRingBuffer T ↦ r.2.Sized) ?_ ?_ h hcall
  · intro l next hl hpass
    have hkeep := hl.writePass source writeSize bOverwrite l.entriesWritten
    rw [hpass] at hkeep
    exact hkeep
  · intro l out hl hpass
    have hkeep := hl.writePass source writeSize bOverwrite l.entriesWritten
    rw [hpass] at hkeep
    exact hkeep

/-! ### The whole loop -/

/-- Without overwriting, the loop offers the rest of the block to the queue: it stores what there is
room for, and its result is the length of the block if that is all of it and `-5` if not. -/
theorem Indexed.returns_offer [Zero T] (source : ℕ → T) {writeSize : ℕ} (hsize : writeSize < 2 ^ 32)
    (rest : ℕ) : ∀ {s : CVRingBuffer T} (written : ℕ), Indexed N s → written + rest = writeSize →
      ∃ s', Returns (CVRingBuffer.writePass source writeSize false) ⟨s, written⟩
          (if rest ≤ N - s.m_currentDataSize then toInt writeSize else -5, s') ∧
        Indexed N s' ∧ s'.m_readIdx = s.m_readIdx ∧
        s'.stored = s.stored ++ block source written (min rest (N - s.m_currentDataSize)) := by
  induction rest with
  | zero =>
    intro s written h hrest
    have hdone : ¬ written < writeSize := by omega
    refine ⟨s, ?_, h, rfl, by simp⟩
    rw [if_pos (Nat.zero_le _), ← hrest]
    exact .leave (writePass_done (by omega))
  | succ rest ih =>
    intro s written h hrest
    have hmore : written < writeSize := by omega
    rcases h.dataSize_le.lt_or_eq with hroom | hfull
    · have hnext := h.storeNext hroom (source written)
      have hcount : (s.storeNext (source written)).m_currentDataSize = s.m_currentDataSize + 1 :=
        rfl
      obtain ⟨s', hreturns, hindexed, hread, hstored⟩ := ih (written + 1) hnext (by omega)
      have hpass := h.writePass_room source false hmore hroom
      rw [toUnsigned_of_lt (by omega)] at hpass
      have hvalue : (rest ≤ N - (s.m_currentDataSize + 1)) ↔
          rest + 1 ≤ N - s.m_currentDataSize := by omega
      have hmin : min (rest + 1) (N - s.m_currentDataSize) =
          min rest (N - (s.m_currentDataSize + 1)) + 1 := by omega
      simp only [hcount, hvalue] at hreturns
      refine ⟨s', .again hpass hreturns, hindexed, hread, ?_⟩
      rw [hstored, stored_storeNext h hroom, hcount, hmin, block_succ, List.append_assoc,
        List.singleton_append]
    · have hno : N - s.m_currentDataSize = 0 := by omega
      refine ⟨s, ?_, h, rfl, by simp [hno]⟩
      rw [if_neg (by omega)]
      exact .leave (h.writePass_full_refuse source hmore hfull)

/-- With overwriting, the loop overwrites the queue with the rest of the block. -/
theorem Indexed.returns_overwrite [Zero T] (source : ℕ → T) {writeSize : ℕ}
    (hsize : writeSize < 2 ^ 32) (rest : ℕ) : ∀ {s : CVRingBuffer T} (written : ℕ)
      (h : Indexed N s), written + rest = writeSize →
        ∃ (s' : CVRingBuffer T) (h' : Indexed N s'),
          Returns (CVRingBuffer.writePass source writeSize true) ⟨s, written⟩
            (toInt writeSize, s') ∧
          queue h' = (queue h).overwrite (block source written rest) := by
  induction rest with
  | zero =>
    intro s written h hrest
    refine ⟨s, h, ?_, (BoundedQueue.overwrite_nil _).symm⟩
    rw [← hrest]
    exact .leave (writePass_done (by omega))
  | succ rest ih =>
    intro s written h hrest
    have hmore : written < writeSize := by omega
    have hlength : (queue h).entries.length = s.m_currentDataSize := length_stored s
    -- both kinds of pass overwrite the queue with one entry
    have hone : ∃ (next : CVRingBuffer T) (hnext : Indexed N next),
        CVRingBuffer.writePass source writeSize true ⟨s, written⟩ = .again ⟨next, written + 1⟩ ∧
        queue hnext = (queue h).overwrite [source written] := by
      rw [← toUnsigned_of_lt (by omega : written + 1 < 2 ^ 32)]
      rcases h.dataSize_le.lt_or_eq with hroom | hfull
      · refine ⟨_, h.storeNext hroom _, h.writePass_room source _ hmore hroom, BoundedQueue.ext ?_⟩
        rw [BoundedQueue.entries_overwrite_of_le (by
          simp only [List.length_singleton, BoundedQueue.room]; omega)]
        exact stored_storeNext h hroom _
      · refine ⟨_, h.replaceOldest hfull _, h.writePass_full_overwrite source hmore hfull,
          BoundedQueue.ext ?_⟩
        rw [BoundedQueue.entries_overwrite_singleton_of_full _ h.pos (by omega)]
        exact stored_replaceOldest h hfull _
    obtain ⟨next, hnext, hpass, hqueue⟩ := hone
    obtain ⟨s', h', hreturns, hrestQueue⟩ := ih (written + 1) hnext (by omega)
    refine ⟨s', h', .again hpass hreturns, ?_⟩
    rw [hrestQueue, hqueue, ← BoundedQueue.overwrite_append, block_succ, List.singleton_append]

/-! ### Refusals from any state -/

/-- The buffer after a prefix of a block was stored. -/
def storeMany (s : CVRingBuffer T) (source : ℕ → T) : ℕ → CVRingBuffer T
  | 0 => s
  | count + 1 => (s.storeMany source count).storeNext (source count)

@[simp] theorem readIdx_storeMany (s : CVRingBuffer T) (source : ℕ → T) (count : ℕ) :
    (s.storeMany source count).m_readIdx = s.m_readIdx := by
  induction count with
  | zero => rfl
  | succ count ih => exact ih

@[simp] theorem dataSize_storeMany (s : CVRingBuffer T) (source : ℕ → T) (count : ℕ) :
    (s.storeMany source count).m_currentDataSize = s.m_currentDataSize + count := by
  induction count with
  | zero => rfl
  | succ count ih =>
    change (s.storeMany source count).m_currentDataSize + 1 = _
    rw [ih, Nat.add_assoc]

@[simp] theorem bufferSize_storeMany (s : CVRingBuffer T) (source : ℕ → T) (count : ℕ) :
    (s.storeMany source count).m_bufferSize = s.m_bufferSize := by
  induction count with
  | zero => rfl
  | succ count ih => exact ih

@[simp] theorem length_storeMany (s : CVRingBuffer T) (source : ℕ → T) (count : ℕ) :
    (s.storeMany source count).m_dataBuffer.length = s.m_dataBuffer.length := by
  induction count with
  | zero => rfl
  | succ count ih => exact (List.length_set ..).trans ih

theorem Sized.storeMany (h : s.Sized) (source : ℕ → T) (count : ℕ) :
    (s.storeMany source count).Sized := by
  rw [Sized, length_storeMany, bufferSize_storeMany]
  exact h

theorem Indexed.storeMany (h : Indexed N s) (source : ℕ → T) {count : ℕ}
    (hcount : s.m_currentDataSize + count ≤ N) : Indexed N (s.storeMany source count) := by
  induction count with
  | zero => exact h
  | succ count ih =>
    refine (ih (by omega)).storeNext ?_ _
    rw [dataSize_storeMany]
    omega

theorem Indexed.stored_storeMany [Zero T] (h : Indexed N s) (source : ℕ → T) {count : ℕ}
    (hcount : s.m_currentDataSize + count ≤ N) :
    (s.storeMany source count).stored = s.stored ++ block source 0 count := by
  induction count with
  | zero => simp [CVRingBuffer.storeMany]
  | succ count ih =>
    have hroom : (s.storeMany source count).m_currentDataSize < N := by
      rw [dataSize_storeMany]
      omega
    have hblock : block source 0 (count + 1) = block source 0 count ++ [source count] := by
      simp [block, List.range_succ]
    rw [CVRingBuffer.storeMany, stored_storeNext (h.storeMany source (by omega)) hroom,
      ih (by omega), hblock, List.append_assoc]

/-- A state of a write loop that may not overwrite: `count` entries of the block are stored, there
was room for them, and if there were any then the write index has wrapped into the array. -/
def StoredPrefix (s : CVRingBuffer T) (source : ℕ → T) (writeSize count : ℕ) : Prop :=
  count ≤ writeSize ∧ (0 < count → s.m_currentDataSize + count ≤ s.m_bufferSize ∧
    (s.storeMany source count).m_writeIdx < s.m_bufferSize)

/-- What the answer to a refused write means: nothing was stored, or the over-flow `-5` was met
where the write index is the read index, after a proper prefix of the block that there was room
for. -/
def Refused (s : CVRingBuffer T) (source : ℕ → T) (writeSize : ℕ) (value : ℤ)
    (s' : CVRingBuffer T) : Prop :=
  s' = s ∨ value = -5 ∧ ∃ count, count < writeSize ∧ s' = s.storeMany source count ∧
    s.m_currentDataSize + count ≤ s.m_bufferSize ∧ s'.m_writeIdx = s.m_readIdx

section Refusal

variable {source : ℕ → T} {writeSize count : ℕ}

theorem StoredPrefix.again (hsized : s.Sized)
    (hsize : writeSize < 2 ^ 31) (h : StoredPrefix s source writeSize count) {next : WriteLoop T}
    (hpass : writePass source writeSize false ⟨s.storeMany source count, count⟩ = .again next) :
    next = ⟨s.storeMany source (count + 1), count + 1⟩ ∧
      StoredPrefix s source writeSize (count + 1) := by
  have hle := h.1
  have hmore : count < writeSize := by
    by_contra hdone
    rw [writePass_done hdone] at hpass
    cases hpass
  rcases writePass_cases source (s := s.storeMany source count)
      (hsized.storeMany source count) hmore with
    ⟨_, _, hrefuse⟩ | ⟨_, _, hthrow⟩ | ⟨_, hslot, hroom, hstore⟩ | ⟨_, _, hsaturated⟩
  · rw [hrefuse] at hpass
    cases hpass
  · rw [hthrow] at hpass
    cases hpass
  · rw [hstore, toUnsigned_of_lt (by omega)] at hpass
    simp only [dataSize_storeMany, bufferSize_storeMany] at hroom hslot
    refine ⟨(Pass.again.inj hpass).symm, hmore, fun _ ↦ ⟨hroom, ?_⟩⟩
    change ((s.storeMany source count).m_writeIdx + 1) %
      (s.storeMany source count).m_bufferSize < s.m_bufferSize
    rw [bufferSize_storeMany]
    exact Nat.mod_lt _ (by omega)
  · rw [hsaturated] at hpass
    cases hpass

theorem StoredPrefix.leave (hsized : s.Sized)
    (hsize : writeSize < 2 ^ 31) (h : StoredPrefix s source writeSize count) {value : ℤ}
    {s' : CVRingBuffer T} (hneg : value < 0)
    (hpass : writePass source writeSize false ⟨s.storeMany source count, count⟩ =
      .leave (value, s')) : Refused s source writeSize value s' := by
  obtain ⟨hle, hfit⟩ := h
  have hnonneg : 0 ≤ toInt count := by
    rw [toInt_of_lt (by omega)]
    exact Int.natCast_nonneg count
  by_cases hmore : count < writeSize
  · rcases writePass_cases source (s := s.storeMany source count)
        (hsized.storeMany source count) hmore with
      ⟨hmeet, _, hrefuse⟩ | ⟨_, hbeyond, hthrow⟩ | ⟨_, _, _, hstore⟩ | ⟨_, _, hsaturated⟩
    · rw [hrefuse] at hpass
      obtain ⟨rfl, rfl⟩ := Prod.mk.inj (Pass.leave.inj hpass)
      rcases Nat.eq_zero_or_pos count with rfl | hpos
      · exact .inl rfl
      · exact .inr ⟨rfl, count, hmore, rfl, (hfit hpos).1, by simpa using hmeet⟩
    · rw [hthrow] at hpass
      obtain ⟨rfl, rfl⟩ := Prod.mk.inj (Pass.leave.inj hpass)
      rcases Nat.eq_zero_or_pos count with rfl | hpos
      · exact .inl rfl
      · have hslot := (hfit hpos).2
        rw [bufferSize_storeMany] at hbeyond
        exact absurd hslot (not_lt.mpr hbeyond)
    · rw [hstore] at hpass
      cases hpass
    · rw [hsaturated] at hpass
      obtain ⟨rfl, rfl⟩ := Prod.mk.inj (Pass.leave.inj hpass)
      exact absurd hneg (not_lt.mpr hnonneg)
  · rw [writePass_done hmore] at hpass
    obtain ⟨rfl, rfl⟩ := Prod.mk.inj (Pass.leave.inj hpass)
    exact absurd hneg (not_lt.mpr hnonneg)

/-- From any state, a loop over fewer than `2 ^ 31` entries that may not overwrite returns a
negative value only as `Refused` says. -/
theorem refused_of_writeEntries (hsized : s.Sized)
    (hsize : writeSize < 2 ^ 31) {fuel : ℕ} {value : ℤ} {s' : CVRingBuffer T}
    (hcall : s.writeEntries fuel source writeSize false = some (value, s')) (hneg : value < 0) :
    Refused s source writeSize value s' := by
  refine loop_invariant
    (fun l ↦ ∃ count, l = ⟨s.storeMany source count, count⟩ ∧
      StoredPrefix s source writeSize count)
    (fun r : ℤ × CVRingBuffer T ↦ r.1 < 0 → Refused s source writeSize r.1 r.2)
    ?_ ?_ ⟨0, rfl, Nat.zero_le _, fun h ↦ absurd h (lt_irrefl 0)⟩ hcall hneg
  · rintro l next ⟨count, rfl, hprefix⟩ hpass
    obtain ⟨hnext, hprefix'⟩ := hprefix.again hsized hsize hpass
    exact ⟨count + 1, hnext, hprefix'⟩
  · rintro l ⟨value, s'⟩ ⟨count, rfl, hprefix⟩ hpass hneg
    exact hprefix.leave hsized hsize hneg hpass

/-- Under the index invariant, a prefix that ends at the slot of the oldest entry fills the buffer.
-/
theorem Indexed.storeMany_fills [Zero T] (h : Indexed N s) (hpos : 0 < count)
    (hfit : s.m_currentDataSize + count ≤ s.m_bufferSize)
    (hmeet : (s.storeMany source count).m_writeIdx = s.m_readIdx) :
    count = N - s.m_currentDataSize ∧
      (s.storeMany source count).stored = s.stored ++ block source 0 count ∧
      (s.storeMany source count).m_currentDataSize = N := by
  rw [h.bufferSize_eq] at hfit
  have hfull : s.m_currentDataSize + count = N := by
    have hequal := (h.storeMany source hfit).writeIdx_eq_readIdx_iff.mp
      (by rw [hmeet, readIdx_storeMany])
    rw [dataSize_storeMany] at hequal
    omega
  refine ⟨by omega, h.stored_storeMany source hfit, ?_⟩
  rw [dataSize_storeMany]
  exact hfull

end Refusal

end RdbLibs.Buffer.CVRingBuffer
