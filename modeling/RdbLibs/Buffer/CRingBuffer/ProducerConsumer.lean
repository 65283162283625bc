import RdbLibs.Buffer.CRingBuffer.MemorySafety
import RdbLibs.Buffer.CRingBuffer.WriteOverloads
import RdbLibs.Buffer.CVRingBuffer.ProducerConsumer

/-!
# A producer and a consumer on one `CRingBuffer`

The producer writes without overwriting and the consumer reads with deleting, as on a
`CVRingBuffer`. What a call hands over is read off its arguments and its answer in the same way
(`viewed`). The reads and the writes of three arguments conserve the queue. The write of four
arguments does so only where there is room for its block: otherwise it answers that it has written
all of it, more than the buffer can hold. So a run is first-in-first-out at every point exactly when
each write of four arguments that is accepted meets room (`producer_consumer_iff`).
-/

set_option autoImplicit false
set_option relaxedAutoImplicit false

namespace RdbLibs.Buffer.CRingBuffer

open MachineWord WhileLoop CheckedMemory Runs
open CVRingBuffer (Indexed Op Reply readBy storedBy block)

variable {T : Type*} [Zero T] {N : ℕ} {s s' : CRingBuffer T} {v : CVRingBuffer T}

/-- A call with the cells and counters before it as those of a `CVRingBuffer`. -/
def viewed (call : Call (CRingBuffer T) (Op T) (Reply T)) :
    Call (CVRingBuffer T) (Op T) (Reply T) :=
  ⟨call.before.view, call.label, call.reply⟩

/-- The call is not a write of four arguments, or its sizes are refused, or there is room for its
block. -/
def MeetsRoom (call : Call (CRingBuffer T) (Op T) (Reply T)) : Prop :=
  ∀ source entriesPerBlock blockSize,
    call.label = .writeBlockEntriesPerBlock (some source) entriesPerBlock blockSize false →
      blockSize < call.before.m_bufferSize → 1 ≤ toSize (entriesPerBlock * blockSize) →
        toSize (entriesPerBlock * blockSize) < call.before.m_bufferSize →
          toSize (entriesPerBlock * blockSize) ≤
            call.before.m_bufferSize - call.before.m_currentDataSize

/-! ### Calls as those of a `CVRingBuffer` -/

/-- A call that is answered as a call of a `CVRingBuffer` is, and leaves the buffer so. -/
theorem step_iff_of_exec_ofVector {op op' : Op T}
    (hexec : ∀ fuel, (ofVector v).exec fuel op =
      (v.exec fuel op').map fun r ↦ .ok (r.1, ofVector r.2)) {reply : Reply T} :
    Step (ofVector v) op reply s' ↔ ∃ v', CVRingBuffer.Step v op' reply v' ∧ s' = ofVector v' := by
  constructor
  · rintro ⟨fuel, hfuel⟩
    rw [hexec] at hfuel
    obtain ⟨⟨reply', v'⟩, hcall, hout⟩ := Option.map_eq_some_iff.mp hfuel
    obtain ⟨rfl, rfl⟩ := Prod.mk.inj (Except.ok.inj hout)
    exact ⟨v', ⟨fuel, hcall⟩, rfl⟩
  · rintro ⟨v', ⟨fuel, hcall⟩, rfl⟩
    refine ⟨fuel, ?_⟩
    rw [hexec, hcall]
    rfl

/-- The tests of a read and its loop, for any number of entries. -/
theorem readTests_ofVector (h : Indexed N v) (fuel : ℕ) (target : ℕ → T)
    (blockSize numEntriesToRead : ℕ) (deleteEntries : Bool) :
    (if v.m_bufferSize < 1 ∨ v.m_bufferSize < blockSize then
        some (.ok (⟨-1, some target, ofVector v⟩ : ReadResult T))
      else if v.m_currentDataSize < 1 then some (.ok ⟨0, some target, ofVector v⟩)
      else (ofVector v).readEntries fuel target numEntriesToRead deleteEntries) =
    (if v.m_bufferSize < 1 ∨ v.m_bufferSize < blockSize then
        some (⟨-1, some target, v⟩ : CVRingBuffer.ReadResult T)
      else if v.m_currentDataSize < 1 then some ⟨0, some target, v⟩
      else v.readEntries fuel target numEntriesToRead deleteEntries).map ofReadResult := by
  split_ifs with hrefused hempty
  · rfl
  · rfl
  · exact readEntries_ofVector h.sized (by omega) fuel target numEntriesToRead deleteEntries

/-- A read is that of a `CVRingBuffer`. -/
theorem exec_read_ofVector (h : Indexed N v) {op : Op T} {deleteEntries : Bool}
    (hread : op.IsRead deleteEntries) (fuel : ℕ) :
    (ofVector v).exec fuel op = (v.exec fuel op).map fun r ↦ .ok (r.1, ofVector r.2) := by
  cases op with
  | readBlock pTargetBuff blockSize _ =>
    cases pTargetBuff with
    | none => rfl
    | some target =>
      have htests := readTests_ofVector h fuel target blockSize blockSize
      simp only [exec, CVRingBuffer.exec, readBlock, CVRingBuffer.readBlock, h.clampBufferSize_eq]
      refine (congrArg (Option.map (Except.map readReply)) (htests _)).trans ?_
      rw [Option.map_map, Option.map_map]
      rfl
  | readBlockEntriesPerBlock pTargetBuff entriesPerBlock blockSize _ =>
    cases pTargetBuff with
    | none => rfl
    | some target =>
      have htests := readTests_ofVector h fuel target blockSize
        (toSize (entriesPerBlock * blockSize))
      simp only [exec, CVRingBuffer.exec, readBlockEntriesPerBlock,
        CVRingBuffer.readBlockEntriesPerBlock, h.clampBufferSize_eq]
      refine (congrArg (Option.map (Except.map readReply)) (htests _)).trans ?_
      rw [Option.map_map, Option.map_map]
      rfl
  | _ => exact hread.elim

/-- A write of three arguments that is shorter than the buffer is that of a `CVRingBuffer`. -/
theorem exec_writeBlock_ofVector (h : Indexed N v) (source : ℕ → T) {blockSize : ℕ}
    (hlt : blockSize < N) (fuel : ℕ) :
    (ofVector v).exec fuel (.writeBlock (some source) blockSize false) =
      (v.exec fuel (.writeBlock (some source) blockSize false)).map
        fun r ↦ .ok (r.1, ofVector r.2) := by
  have hpos := h.pos
  have hsize := h.bufferSize_eq
  have hrefused : ¬ (v.m_bufferSize < 1 ∨ v.m_bufferSize ≤ blockSize) := by omega
  have haccepted : ¬ (v.m_bufferSize < 1 ∨ v.m_bufferSize < blockSize) := by omega
  simp only [CVRingBuffer.exec, CVRingBuffer.writeBlock, h.clampBufferSize_eq, if_neg haccepted]
  refine (congrArg (Option.map (Except.map countReply)) ((if_neg hrefused).trans
    (loop_writePass h source blockSize false fuel))).trans ?_
  rw [Option.map_map, Option.map_map]
  rfl

/-! ### What a call does to the queue -/

/-- The law for one call, with the entries that it takes and adds. -/
def Moves (N : ℕ) (call : Call (CRingBuffer T) (Op T) (Reply T)) (after : CRingBuffer T) : Prop :=
  readBy (viewed call) ++ after.stored = call.before.stored ++ storedBy N (viewed call)

/-- A call that changes nothing and answers with a negative count other than `-5`. -/
theorem moves_of_refused {op : Op T} {value : ℤ}
    (hexec : ∀ fuel, s.exec fuel op = some (.ok (.count value, s)))
    (hvalue : value < 0 ∧ value ≠ -5) {reply : Reply T} (hstep : Step s op reply s') :
    s' = s ∧ Moves N ⟨s, op, reply⟩ s' := by
  obtain ⟨rfl, rfl⟩ := (step_iff_of_exec_eq hexec reply).mp hstep
  refine ⟨rfl, ?_⟩
  have hnothing : storedBy N (viewed ⟨s', op, .count value⟩) = [] := by
    unfold storedBy
    split
    · rename_i heq
      obtain rfl := Reply.count.inj heq
      rw [if_neg (not_le.mpr hvalue.1), if_neg hvalue.2]
    · rfl
  rw [Moves, hnothing]
  exact (List.append_nil _).symm

omit [Zero T] in
/-- Storing an entry keeps the size, and the count below it. -/
theorem of_writeSlot_again {source : ℕ → T} {written : ℕ} {next : WriteLoop T}
    (hslot : writeSlot source s written = .again next)
    (hle : s.m_currentDataSize ≤ s.m_bufferSize) :
    next.buffer.m_bufferSize = s.m_bufferSize ∧
      next.buffer.m_currentDataSize ≤ s.m_bufferSize ∧
        next.entriesWritten = toUnsigned (written + 1) := by
  unfold writeSlot at hslot
  split at hslot
  · cases hslot
  · split at hslot
    · cases hslot
    · obtain rfl := Pass.again.inj hslot
      refine ⟨rfl, ?_, rfl⟩
      dsimp only
      split_ifs with hroom
      · exact hroom
      · exact hle

omit [Zero T] in
/-- The loop of four arguments answers with all of its block, and the buffer holds no more than its
size. -/
theorem of_loop_blocks {source : ℕ → T} {writeSize fuel : ℕ} {result : ℤ × CRingBuffer T}
    (hsmall : writeSize < 2 ^ 31) (hle : s.m_currentDataSize ≤ s.m_bufferSize)
    (hcall : loop (writePassEntriesPerBlock source writeSize false) fuel ⟨s, 0⟩ =
      some (.ok result)) :
    result.1 = (writeSize : ℤ) ∧ result.2.m_currentDataSize ≤ s.m_bufferSize := by
  refine loop_invariant
    (fun l : WriteLoop T ↦ l.buffer.m_bufferSize = s.m_bufferSize ∧
      l.buffer.m_currentDataSize ≤ s.m_bufferSize ∧ l.entriesWritten ≤ writeSize)
    (fun r ↦ ∀ result, r = .ok result →
      result.1 = (writeSize : ℤ) ∧ result.2.m_currentDataSize ≤ s.m_bufferSize)
    ?_ ?_ ⟨rfl, hle, Nat.zero_le _⟩ hcall result rfl
  · rintro l next ⟨hsize, hcount, hwritten⟩ hpass
    by_cases hmore : l.entriesWritten < writeSize
    · rw [writePassEntriesPerBlock_false source hmore] at hpass
      obtain ⟨hsize', hcount', hnext⟩ := of_writeSlot_again hpass (by omega)
      refine ⟨hsize'.trans hsize, hsize ▸ hcount', ?_⟩
      rw [hnext, toUnsigned_of_lt (by omega)]
      exact hmore
    · rw [(writePass_done hmore).2] at hpass
      cases hpass
  · rintro l out ⟨_, hcount, hwritten⟩ hpass result rfl
    by_cases hmore : l.entriesWritten < writeSize
    · rw [writePassEntriesPerBlock_false source hmore] at hpass
      exact absurd hpass (writeSlot_ne_ok l.buffer source l.entriesWritten result)
    · rw [(writePass_done hmore).2] at hpass
      obtain rfl := Except.ok.inj (Pass.leave.inj hpass)
      refine ⟨?_, hcount⟩
      have hall : l.entriesWritten = writeSize := by omega
      exact (congrArg toInt hall).trans (toInt_of_lt hsmall)

omit [Zero T] in
/-- The loop of four arguments returns. -/
theorem exists_loop_blocks (h : Indexed N v) {source : ℕ → T} {writeSize : ℕ}
    (hsmall : writeSize < 2 ^ 31) :
    ∃ fuel result, loop (writePassEntriesPerBlock source writeSize false) fuel ⟨ofVector v, 0⟩ =
      some (.ok result) := by
  have hagain : ∀ l next : WriteLoop T,
      (∃ v : CVRingBuffer T, v.Sized ∧ v.m_writeIdx < v.m_bufferSize ∧ l.buffer = ofVector v) →
        writePassEntriesPerBlock source writeSize false l = .again next →
          (∃ v : CVRingBuffer T, v.Sized ∧ v.m_writeIdx < v.m_bufferSize ∧
            next.buffer = ofVector v) ∧
              writeSize - next.entriesWritten < writeSize - l.entriesWritten := by
    rintro ⟨_, written⟩ next ⟨v, hv, hidx, rfl⟩ hpass
    by_cases hmore : written < writeSize
    · rw [writePassEntriesPerBlock_false source hmore] at hpass
      obtain ⟨v', hv', hidx', hagain⟩ := writeSlot_again hv hidx source written
      rw [hagain] at hpass
      obtain rfl := Pass.again.inj hpass
      refine ⟨⟨v', hv', hidx', rfl⟩, ?_⟩
      change writeSize - toUnsigned (written + 1) < writeSize - written
      rw [toUnsigned_of_lt (by omega)]
      omega
    · rw [(writePass_done hmore).2] at hpass
      cases hpass
  have hidx : v.m_writeIdx < v.m_bufferSize := h.bufferSize_eq.symm ▸ h.writeIdx_lt
  have hstart : ∃ v' : CVRingBuffer T, v'.Sized ∧ v'.m_writeIdx < v'.m_bufferSize ∧
      (⟨ofVector v, 0⟩ : WriteLoop T).buffer = ofVector v' := ⟨v, h.sized, hidx, rfl⟩
  obtain ⟨out, hloop⟩ := exists_loop_eq_some _ (fun l : WriteLoop T ↦ writeSize - l.entriesWritten)
    hagain hstart (Nat.lt_succ_self _)
  obtain ⟨result, rfl, _⟩ := loop_within h.sized hidx (.inr rfl) hloop
  exact ⟨_, result, hloop⟩

/-! ### Every call of a run -/

/-- The sizes of a write of four arguments are accepted. -/
def AcceptsBlocks (N entriesPerBlock blockSize : ℕ) : Prop :=
  blockSize < N ∧ 1 ≤ toSize (entriesPerBlock * blockSize) ∧
    toSize (entriesPerBlock * blockSize) < N

/-- A call that is answered as on a `CVRingBuffer` moves the queue as there. -/
theorem moves_of_exec_ofVector (h : Indexed N v) (hN : N < 2 ^ 31) {op : Op T}
    (htransfers : op.Transfers)
    (hexec : ∀ fuel, (ofVector v).exec fuel op =
      (v.exec fuel op).map fun r ↦ .ok (r.1, ofVector r.2)) {reply : Reply T}
    (hstep : Step (ofVector v) op reply s') :
    (∃ v', Indexed N v' ∧ s' = ofVector v') ∧ Moves N ⟨ofVector v, op, reply⟩ s' := by
  obtain ⟨v', hcall, rfl⟩ := (step_iff_of_exec_ofVector hexec).mp hstep
  refine ⟨⟨v', h.step (Op.newSize_of_not_resizes htransfers.not_resizes) hcall, rfl⟩, ?_⟩
  change readBy ⟨v, op, reply⟩ ++ v'.stored = v.stored ++ storedBy N ⟨v, op, reply⟩
  rcases htransfers with hwrite | hread
  · obtain ⟨hnothing, hstored⟩ := h.stored_write hN hwrite hcall
    rw [hnothing, List.nil_append, hstored]
  · obtain ⟨hreturned, hnothing⟩ := h.stored_read hN hread hcall
    rw [hnothing, List.append_nil, hreturned]

/-- A write of four arguments whose sizes are refused, with the sign of its answer. -/
theorem exec_blocks_refused (h : Indexed N v) (source : ℕ → T) {entriesPerBlock blockSize : ℕ}
    (hsizes : ¬ AcceptsBlocks N entriesPerBlock blockSize) :
    ∃ value : ℤ, (value < 0 ∧ value ≠ -5) ∧ ∀ fuel, (ofVector v).exec fuel
        (.writeBlockEntriesPerBlock (some source) entriesPerBlock blockSize false) =
      some (.ok (.count value, ofVector v)) := by
  have hpos := h.pos
  have hsize : (ofVector v).m_bufferSize = N := h.bufferSize_eq
  by_cases hblock : blockSize < N
  · have haccepted : ¬ ((ofVector v).m_bufferSize < 1 ∨
        (ofVector v).m_bufferSize ≤ blockSize) := by omega
    have hcount : toSize (entriesPerBlock * blockSize) < 1 ∨
        (ofVector v).m_bufferSize ≤ toSize (entriesPerBlock * blockSize) := by
      unfold AcceptsBlocks at hsizes
      omega
    exact ⟨-3, by decide, fun _ ↦ congrArg (Option.map (Except.map countReply))
      ((if_neg haccepted).trans (if_pos hcount))⟩
  · have hrefused : (ofVector v).m_bufferSize < 1 ∨ (ofVector v).m_bufferSize ≤ blockSize := by
      omega
    exact ⟨-2, by decide, fun _ ↦ congrArg (Option.map (Except.map countReply))
      (if_pos hrefused)⟩

/-- A call of the producer or the consumer that meets room moves the queue by the law. -/
theorem moves_of_meetsRoom (h : Indexed N v) (hN : N < 2 ^ 31) {op : Op T}
    (htransfers : op.Transfers) {reply : Reply T} (hstep : Step (ofVector v) op reply s')
    (hroom : MeetsRoom ⟨ofVector v, op, reply⟩) :
    (∃ v', Indexed N v' ∧ s' = ofVector v') ∧ Moves N ⟨ofVector v, op, reply⟩ s' := by
  have hsize : (ofVector v).m_bufferSize = N := h.bufferSize_eq
  have hrefused : ∀ {op : Op T} {reply : Reply T} {value : ℤ},
      (∀ fuel, (ofVector v).exec fuel op = some (.ok (.count value, ofVector v))) →
        (value < 0 ∧ value ≠ -5) → Step (ofVector v) op reply s' →
          (∃ v', Indexed N v' ∧ s' = ofVector v') ∧ Moves N ⟨ofVector v, op, reply⟩ s' := by
    intro op reply value hexec hvalue hstep
    obtain ⟨hsame, hmoves⟩ := moves_of_refused hexec hvalue hstep
    exact ⟨⟨v, h, hsame⟩, hmoves⟩
  by_cases hread : op.IsRead true
  · exact moves_of_exec_ofVector h hN htransfers (exec_read_ofVector h hread) hstep
  have hwrite : op.IsWrite false := htransfers.resolve_right hread
  cases op with
  | writeBlock pBuff blockSize bOverwrite =>
    obtain rfl : bOverwrite = false := hwrite
    cases pBuff with
    | none => exact hrefused (exec_write_null (.inl rfl) (.inl rfl)) (by decide) hstep
    | some source =>
      by_cases hlt : blockSize < N
      · exact moves_of_exec_ofVector h hN htransfers (exec_writeBlock_ofVector h source hlt) hstep
      · exact hrefused (exec_writeBlock_refused h source (not_lt.mp hlt)) (by decide) hstep
  | writeBlockEntriesPerBlock pBuff entriesPerBlock blockSize bOverwrite =>
    obtain rfl : bOverwrite = false := hwrite
    cases pBuff with
    | none =>
      exact hrefused (exec_write_null (.inl rfl) (.inr ⟨entriesPerBlock, rfl⟩)) (by decide) hstep
    | some source =>
      by_cases hsizes : AcceptsBlocks N entriesPerBlock blockSize
      · obtain ⟨hblock, hone, hlt⟩ := hsizes
        have hfits : toSize (entriesPerBlock * blockSize) ≤ N - v.m_currentDataSize := by
          have hmeets := hroom source entriesPerBlock blockSize rfl
          rw [hsize] at hmeets
          exact hmeets hblock hone hlt
        have hshort := (step_writeBlockEntriesPerBlock_iff h hblock hone hlt (by omega) hfits).mp
          hstep
        have hentries : (Op.writeBlock (some source) (toSize (entriesPerBlock * blockSize))
            false).Transfers := .inl rfl
        exact moves_of_exec_ofVector h hN hentries (exec_writeBlock_ofVector h source hlt) hshort
      · obtain ⟨value, hvalue, hexec⟩ := exec_blocks_refused h source hsizes
        exact hrefused hexec hvalue hstep
  | _ => exact hwrite.elim

/-- An accepted write of four arguments that moves the queue by the law has met room. -/
theorem meetsRoom_of_moves (h : Indexed N v) (hN : N < 2 ^ 31) {op : Op T} {reply : Reply T}
    (hstep : Step (ofVector v) op reply s') (hmoves : Moves N ⟨ofVector v, op, reply⟩ s') :
    MeetsRoom ⟨ofVector v, op, reply⟩ := by
  rintro source entriesPerBlock blockSize rfl hblock hone hlt
  have hsize : (ofVector v).m_bufferSize = N := h.bufferSize_eq
  have hle : (ofVector v).m_currentDataSize ≤ (ofVector v).m_bufferSize := by
    rw [hsize]
    exact h.dataSize_le
  change blockSize < (ofVector v).m_bufferSize at hblock
  change toSize (entriesPerBlock * blockSize) < (ofVector v).m_bufferSize at hlt
  obtain ⟨fuel, hfuel⟩ := hstep
  rw [exec_writeBlockEntriesPerBlock h (hsize ▸ hblock) hone (hsize ▸ hlt)] at hfuel
  obtain ⟨⟨value, after⟩, hcall, hout⟩ := of_map_eq_ok hfuel
  obtain ⟨hvalue, hcount⟩ := of_loop_blocks (by omega) hle hcall
  obtain ⟨rfl, rfl⟩ := Prod.mk.inj hout
  have hadded : storedBy N (viewed ⟨ofVector v, .writeBlockEntriesPerBlock (some source)
      entriesPerBlock blockSize false, .count value⟩) =
        block source 0 (toSize (entriesPerBlock * blockSize)) := by
    have hnonneg : 0 ≤ value := (Int.natCast_nonneg _).trans_eq hvalue.symm
    simp only [storedBy, viewed, Op.pSourceBuff, Op.writeSize, if_pos hnonneg]
  have hlength : 0 + after.stored.length = (ofVector v).stored.length +
      (storedBy N (viewed ⟨ofVector v, .writeBlockEntriesPerBlock (some source)
        entriesPerBlock blockSize false, .count value⟩)).length := by
    rw [← List.length_append, ← hmoves, List.length_append]
    rfl
  have hbefore : (ofVector v).stored.length = v.m_currentDataSize := CVRingBuffer.length_stored v
  have hafter : after.stored.length = after.m_currentDataSize :=
    CVRingBuffer.length_stored after.view
  rw [hadded, CVRingBuffer.length_block, hbefore, hafter] at hlength
  change toSize (entriesPerBlock * blockSize) ≤ (ofVector v).m_bufferSize - v.m_currentDataSize
  change after.m_currentDataSize ≤ (ofVector v).m_bufferSize at hcount
  omega

/-- Every call of the producer or the consumer returns. -/
theorem exists_step (h : Indexed N v) (hN : N < 2 ^ 31) {op : Op T} (htransfers : op.Transfers) :
    ∃ reply after, Step (ofVector v) op reply after := by
  have hvector : ∀ {op : Op T}, op.Transfers → (∀ fuel, (ofVector v).exec fuel op =
      (v.exec fuel op).map fun r ↦ .ok (r.1, ofVector r.2)) →
        ∃ reply after, Step (ofVector v) op reply after := by
    intro op htransfers hexec
    obtain ⟨reply, after, hcall⟩ := h.total hN htransfers.not_resizes
    exact ⟨reply, _, (step_iff_of_exec_ofVector hexec).mpr ⟨after, hcall, rfl⟩⟩
  by_cases hread : op.IsRead true
  · exact hvector htransfers (exec_read_ofVector h hread)
  have hwrite : op.IsWrite false := htransfers.resolve_right hread
  cases op with
  | writeBlock pBuff blockSize bOverwrite =>
    obtain rfl : bOverwrite = false := hwrite
    cases pBuff with
    | none => exact ⟨_, _, 0, exec_write_null (.inl rfl) (.inl rfl) 0⟩
    | some source =>
      by_cases hlt : blockSize < N
      · exact hvector htransfers (exec_writeBlock_ofVector h source hlt)
      · exact ⟨_, _, 0, exec_writeBlock_refused h source (not_lt.mp hlt) 0⟩
  | writeBlockEntriesPerBlock pBuff entriesPerBlock blockSize bOverwrite =>
    obtain rfl : bOverwrite = false := hwrite
    cases pBuff with
    | none => exact ⟨_, _, 0, exec_write_null (.inl rfl) (.inr ⟨entriesPerBlock, rfl⟩) 0⟩
    | some source =>
      by_cases hsizes : AcceptsBlocks N entriesPerBlock blockSize
      · obtain ⟨hblock, hone, hlt⟩ := hsizes
        have hsmall : toSize (entriesPerBlock * blockSize) < 2 ^ 31 := by omega
        obtain ⟨fuel, result, hloop⟩ : ∃ fuel result, loop (writePassEntriesPerBlock source
            (toSize (entriesPerBlock * blockSize)) false) fuel ⟨ofVector v, 0⟩ =
          some (.ok result) := exists_loop_blocks h hsmall
        refine ⟨(countReply result).1, (countReply result).2, fuel, ?_⟩
        rw [exec_writeBlockEntriesPerBlock h hblock hone hlt, hloop]
        rfl
      · obtain ⟨value, _, hexec⟩ := exec_blocks_refused h source hsizes
        exact ⟨_, _, 0, hexec 0⟩
  | _ => exact hwrite.elim

/-! ### Runs -/

/-- A constructed buffer whose memory was granted has the size that was asked for and is empty. -/
theorem Built.exists_vector {s₀ : CRingBuffer T} (hbuilt : Built N s₀)
    (hmemory : s₀.m_pDataBuffer ≠ none) :
    (∃ v, Indexed N v ∧ s₀ = ofVector v) ∧ s₀.stored = [] := by
  have hallocate : ∀ {entriesPerBlock numEntries : ℕ} {granted : Bool},
      ((unallocated entriesPerBlock : CRingBuffer T).allocateBuffer numEntries
        granted).2.m_pDataBuffer ≠ none →
      ((unallocated entriesPerBlock : CRingBuffer T).allocateBuffer numEntries
        granted).2.m_bufferSize = numEntries ∧
      ((unallocated entriesPerBlock : CRingBuffer T).allocateBuffer numEntries
        granted).2.m_currentDataSize = 0 := by
    intro entriesPerBlock numEntries granted hgranted
    rw [allocateBuffer_eq] at hgranted ⊢
    split_ifs at hgranted ⊢
    · exact ⟨rfl, rfl⟩
    · exact absurd rfl hgranted
  have hfields : s₀.m_bufferSize = N ∧ s₀.m_currentDataSize = 0 := by
    cases hbuilt with
    | entries granted =>
      unfold construct at hmemory ⊢
      split_ifs at hmemory ⊢
      · exact hallocate hmemory
      · exact absurd rfl hmemory
    | @blocks entriesPerBlock numBlocks granted hsize =>
      unfold constructBlocks at hmemory ⊢
      split_ifs at hmemory ⊢
      · rw [← hsize]
        exact hallocate hmemory
      · exact absurd rfl hmemory
  obtain ⟨v, hv, rfl⟩ := hbuilt.sound.exists_vector hmemory
  refine ⟨⟨v, ?_, rfl⟩, CVRingBuffer.stored_of_dataSize_eq_zero hfields.2⟩
  have hsize : v.m_bufferSize = N := hfields.1
  exact hsize ▸ hv

/-- Over a run of the calls of a producer and a consumer, from a constructed buffer whose memory was
granted: at every point, all data that the reads have returned followed by what is stored is all
that the writes have stored, exactly when every accepted write of four arguments meets room for its
block. From the end of such a run, every call returns. -/
theorem producer_consumer_iff (hN : N < 2 ^ 31) {s₀ : CRingBuffer T}
    (hbuilt : Built N s₀) (hmemory : s₀.m_pDataBuffer ≠ none)
    {trace : List (Call (CRingBuffer T) (Op T) (Reply T))} (hrun : Run Step s₀ trace s)
    (hops : ∀ call ∈ trace, call.label.Transfers) :
    ((∀ front rest middle, trace = front ++ rest → Run Step s₀ front middle →
        front.flatMap (fun call ↦ readBy (viewed call)) ++ middle.stored =
          front.flatMap fun call ↦ storedBy N (viewed call)) ↔
      ∀ call ∈ trace, MeetsRoom call) ∧
    ((∀ call ∈ trace, MeetsRoom call) → ∀ op : Op T, op.Transfers →
      ∃ reply after, Step s op reply after) := by
  obtain ⟨hstart, hempty⟩ := hbuilt.exists_vector hmemory
  have hmeets : ∀ (before : CRingBuffer T) (op : Op T) (reply : Reply T) (after : CRingBuffer T),
      op.Transfers → (∃ v, Indexed N v ∧ before = ofVector v) → Step before op reply after →
        MeetsRoom ⟨before, op, reply⟩ → (∃ v, Indexed N v ∧ after = ofVector v) ∧
          Moves N ⟨before, op, reply⟩ after := by
    rintro _ op reply after hop ⟨v, hv, rfl⟩ hstep hroom
    exact moves_of_meetsRoom hv hN hop hstep hroom
  have hfails : ∀ (before : CRingBuffer T) (op : Op T) (reply : Reply T) (after : CRingBuffer T),
      op.Transfers → (∃ v, Indexed N v ∧ before = ofVector v) → Step before op reply after →
        Moves N ⟨before, op, reply⟩ after → MeetsRoom ⟨before, op, reply⟩ := by
    rintro _ op reply after _ ⟨v, hv, rfl⟩ hstep hmoves
    exact meetsRoom_of_moves hv hN hstep hmoves
  constructor
  · have hlaw := hrun.conserves_iff _ _ stored (fun call ↦ readBy (viewed call))
      (fun call ↦ storedBy N (viewed call)) hmeets hfails hops hstart
    rw [hempty] at hlaw
    exact hlaw
  · intro hall op hop
    have hboth : ∀ call ∈ trace, call.label.Transfers ∧ MeetsRoom call :=
      fun call hcall ↦ ⟨hops call hcall, hall call hcall⟩
    obtain ⟨_, v, hv, rfl⟩ := @Run.forall_states _ _ _ Step
      (fun s : CRingBuffer T ↦ ∃ v, Indexed N v ∧ s = ofVector v)
      (fun call ↦ call.label.Transfers ∧ MeetsRoom call)
      (fun before op reply after hbefore hcall hstep ↦
        (hmeets before op reply after hcall.1 hbefore hstep hcall.2).1)
      _ _ _ hrun hboth hstart
    exact exists_step hv hN hop

/-- A buffer of two: a block of one entry, and then a block of one by the write of four
arguments. -/
theorem producer_consumer_iff_two :
    ((∀ front rest middle,
        ([⟨⟨some [0, 0], 2, 1, 0, 0, 0⟩, .writeBlock (some fun _ ↦ 7) 1 false, .count 1⟩,
          ⟨⟨some [7, 0], 2, 1, 1, 1, 0⟩, .writeBlockEntriesPerBlock (some fun _ ↦ 8) 1 1 false,
            .count 1⟩] : List (Call (CRingBuffer ℕ) (Op ℕ) (Reply ℕ))) = front ++ rest →
        Run Step ⟨some [0, 0], 2, 1, 0, 0, 0⟩ front middle →
          front.flatMap (fun call ↦ readBy (viewed call)) ++ middle.stored =
            front.flatMap fun call ↦ storedBy 2 (viewed call)) ↔
      ∀ call ∈ ([⟨⟨some [0, 0], 2, 1, 0, 0, 0⟩, .writeBlock (some fun _ ↦ 7) 1 false, .count 1⟩,
        ⟨⟨some [7, 0], 2, 1, 1, 1, 0⟩, .writeBlockEntriesPerBlock (some fun _ ↦ 8) 1 1 false,
          .count 1⟩] : List (Call (CRingBuffer ℕ) (Op ℕ) (Reply ℕ))), MeetsRoom call) := by
  have hbuilt : Built 2 (⟨some [0, 0], 2, 1, 0, 0, 0⟩ : CRingBuffer ℕ) := .entries true
  have hfirst : Step (⟨some [0, 0], 2, 1, 0, 0, 0⟩ : CRingBuffer ℕ)
      (.writeBlock (some fun _ ↦ 7) 1 false) (.count 1) ⟨some [7, 0], 2, 1, 1, 1, 0⟩ := ⟨2, rfl⟩
  have hsecond : Step (⟨some [7, 0], 2, 1, 1, 1, 0⟩ : CRingBuffer ℕ)
      (.writeBlockEntriesPerBlock (some fun _ ↦ 8) 1 1 false) (.count 1)
      ⟨some [7, 8], 2, 1, 2, 0, 0⟩ := ⟨2, rfl⟩
  refine (producer_consumer_iff (by decide) hbuilt (by simp)
    (.cons hfirst (.cons hsecond (.nil _))) ?_).1
  simp [Op.Transfers, Op.IsWrite]

end RdbLibs.Buffer.CRingBuffer
