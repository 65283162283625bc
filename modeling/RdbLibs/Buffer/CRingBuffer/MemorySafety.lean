import RdbLibs.Buffer.CRingBuffer.Reachable
import RdbLibs.Foundations.Runs

/-!
# Memory safety of `CRingBuffer`

The buffer checks no index before it stores an entry: the write index alone decides whether a write
stays inside the memory, since the read loop wraps its own index before each load. In every
reachable state the calls that leave the memory are known from the counters (`faults_iff`): a write
that stores an entry where the write index is not below the size, and a `flush` that clears memory
which is null. Only a resizing that meets a write index beyond the new size brings the first one
about (`memory_safety`). The write of four arguments, which breaks the queue, does not.
-/

set_option autoImplicit false
set_option relaxedAutoImplicit false

namespace RdbLibs.Buffer.CRingBuffer

open MachineWord WhileLoop CheckedMemory Runs
open CVRingBuffer (Op Reply)

variable {T : Type*} {s s' : CRingBuffer T} {v : CVRingBuffer T}

/-- The call ends in an access outside the memory of the buffer. -/
def Faults [Zero T] (s : CRingBuffer T) (op : Op T) : Prop :=
  ∃ fuel fault, s.exec fuel op = some (.error fault)

/-- The call is a write that stores an entry, wherever that is: its sizes are accepted, and the
over-flow test of its first pass lets it go on. -/
def StoresEntry (s : CRingBuffer T) : Op T → Prop
  | .writeBlock (some _) blockSize bOverwrite =>
    blockSize < s.m_bufferSize ∧ 0 < blockSize ∧
      (bOverwrite = false → ¬ (s.m_writeIdx = s.m_readIdx ∧ 0 < s.m_currentDataSize))
  | .writeBlockEntriesPerBlock (some _) entriesPerBlock blockSize _ =>
    blockSize < s.m_bufferSize ∧ 0 < toSize (entriesPerBlock * blockSize) ∧
      toSize (entriesPerBlock * blockSize) < s.m_bufferSize
  | _ => False

/-- The memory is null, or the write index is one of its slots. -/
def WritesWithin (s : CRingBuffer T) : Prop :=
  s.m_pDataBuffer ≠ none → s.m_writeIdx < s.m_bufferSize

/-- A resizing that succeeds installs a size above the write index that it finds. -/
def FitsWriteIdx (call : Call (CRingBuffer T) (Op T) (Reply T)) : Prop :=
  ∀ size, call.label.newSize = some size → call.before.m_writeIdx < size

/-! ### The write loops -/

/-- Storing an entry faults exactly where the write index is not below the size. -/
theorem writeSlot_fault (h : v.Sized) (hout : v.m_bufferSize ≤ v.m_writeIdx) (source : ℕ → T)
    (written : ℕ) : writeSlot source (ofVector v) written = .leave (.error .outOfBounds) := by
  have hlength : v.m_dataBuffer.length = v.m_bufferSize := h
  have hstore : store v.m_dataBuffer v.m_writeIdx (source written) = .error .outOfBounds :=
    if_neg (by omega)
  simp only [writeSlot, ofVector, hstore]

theorem writeSlot_again (h : v.Sized) (hin : v.m_writeIdx < v.m_bufferSize) (source : ℕ → T)
    (written : ℕ) : ∃ v' : CVRingBuffer T, v'.Sized ∧ v'.m_writeIdx < v'.m_bufferSize ∧
      writeSlot source (ofVector v) written =
        .again ⟨ofVector v', toUnsigned (written + 1)⟩ := by
  have hlength : v.m_dataBuffer.length = v.m_bufferSize := h
  rcases writeSlot_cases h source written with ⟨v', hv', hsize, hidx, hagain⟩ | ⟨fault, hleave⟩
  · refine ⟨v', hv', ?_, hagain⟩
    rw [hidx, hsize]
    split_ifs <;> omega
  · have hstore : store v.m_dataBuffer v.m_writeIdx (source written) =
        .ok (v.m_dataBuffer.set v.m_writeIdx (source written)) := store_of_lt (by omega) _
    simp only [writeSlot, ofVector, hstore] at hleave
    cases hleave

/-- A write loop that starts with the write index in the memory stays there. -/
theorem loop_within (h : v.Sized) (hin : v.m_writeIdx < v.m_bufferSize) {source : ℕ → T}
    {writeSize : ℕ} {bOverwrite : Bool}
    {pass : WriteLoop T → Pass (WriteLoop T) (Except Fault (ℤ × CRingBuffer T))}
    (hpass : pass = writePass source writeSize bOverwrite ∨
      pass = writePassEntriesPerBlock source writeSize bOverwrite) {fuel : ℕ}
    {out : Except Fault (ℤ × CRingBuffer T)} (hloop : loop pass fuel ⟨ofVector v, 0⟩ = some out) :
    ∃ result, out = .ok result ∧ result.2.m_writeIdx < result.2.m_bufferSize := by
  refine loop_invariant
    (fun l : WriteLoop T ↦ ∃ v : CVRingBuffer T, v.Sized ∧ v.m_writeIdx < v.m_bufferSize ∧
      l.buffer = ofVector v)
    (fun r ↦ ∃ result, r = .ok result ∧ result.2.m_writeIdx < result.2.m_bufferSize)
    ?_ ?_ ⟨v, h, hin, rfl⟩ hloop
  · rintro ⟨_, written⟩ next ⟨v, hv, hidx, rfl⟩ hagain
    rcases pass_cases hv source writeSize bOverwrite written hpass with
      ⟨value, hleave⟩ | ⟨v₁, hv₁, hsize₁, hidx₁, hslot⟩
    · rw [hleave] at hagain
      cases hagain
    · obtain ⟨v', hv', hidx', hstore⟩ := writeSlot_again hv₁ (by omega) source written
      rw [hslot, hstore] at hagain
      obtain rfl := Pass.again.inj hagain
      exact ⟨v', hv', hidx', rfl⟩
  · rintro ⟨_, written⟩ out ⟨v, hv, hidx, rfl⟩ hleave
    rcases pass_cases hv source writeSize bOverwrite written hpass with
      ⟨value, hdone⟩ | ⟨v₁, hv₁, hsize₁, hidx₁, hslot⟩
    · rw [hdone] at hleave
      obtain rfl := Pass.leave.inj hleave
      exact ⟨_, rfl, hidx⟩
    · obtain ⟨v', _, _, hstore⟩ := writeSlot_again hv₁ (by omega) source written
      rw [hslot, hstore] at hleave
      cases hleave

/-- Out of the memory, the first pass that does not leave faults. -/
theorem loop_faults_iff (h : v.Sized) {source : ℕ → T} {writeSize : ℕ} {bOverwrite : Bool}
    {pass : WriteLoop T → Pass (WriteLoop T) (Except Fault (ℤ × CRingBuffer T))}
    (hpass : pass = writePass source writeSize bOverwrite ∨
      pass = writePassEntriesPerBlock source writeSize bOverwrite) :
    (∃ fuel fault, loop pass fuel ⟨ofVector v, 0⟩ = some (.error fault)) ↔
      v.m_bufferSize ≤ v.m_writeIdx ∧ ∀ value, pass ⟨ofVector v, 0⟩ ≠ .leave (.ok value) := by
  constructor
  · rintro ⟨fuel, fault, hloop⟩
    constructor
    · by_contra hin
      obtain ⟨_, hok, _⟩ := loop_within h (by omega) hpass hloop
      cases hok
    · intro value hleave
      have hreturns := Returns.unique ⟨fuel, hloop⟩ (Returns.leave hleave)
      cases hreturns
  · rintro ⟨hout, hgoes⟩
    rcases pass_cases h source writeSize bOverwrite 0 hpass with
      ⟨value, hleave⟩ | ⟨v₁, hv₁, hsize₁, hidx₁, hslot⟩
    · exact absurd hleave (hgoes _)
    · obtain ⟨fuel, hloop⟩ := Returns.leave
        (hslot.trans (writeSlot_fault hv₁ (by omega) source 0))
      exact ⟨fuel, _, hloop⟩

theorem writeSlot_ne_ok (s : CRingBuffer T) (source : ℕ → T) (written : ℕ)
    (value : ℤ × CRingBuffer T) : writeSlot source s written ≠ .leave (.ok value) := by
  unfold writeSlot
  split
  · simp
  · split <;> simp

/-- The first pass of three arguments goes on to store an entry. -/
theorem writePass_stores_iff (s : CRingBuffer T) (source : ℕ → T) (blockSize : ℕ)
    (bOverwrite : Bool) :
    (∀ value, writePass source blockSize bOverwrite ⟨s, 0⟩ ≠ .leave (.ok value)) ↔
      0 < blockSize ∧
        (bOverwrite = false → ¬ (s.m_writeIdx = s.m_readIdx ∧ 0 < s.m_currentDataSize)) := by
  by_cases hmore : 0 < blockSize
  · by_cases hmeet : s.m_writeIdx = s.m_readIdx ∧ 0 < s.m_currentDataSize
    · cases bOverwrite with
      | false =>
        refine iff_of_false (fun hgoes ↦ hgoes (-5, s) ?_) fun hstores ↦ hstores.2 rfl hmeet
        simp only [writePass, if_pos hmore, if_pos hmeet, if_true]
      | true =>
        simp only [writePass, if_pos hmore, if_pos hmeet, Bool.true_eq_false, if_false]
        exact iff_of_true (writeSlot_ne_ok _ source 0) ⟨hmore, fun hno ↦ absurd hno (by simp)⟩
    · simp only [writePass, if_pos hmore, if_neg hmeet]
      exact iff_of_true (writeSlot_ne_ok s source 0) ⟨hmore, fun _ ↦ hmeet⟩
  · simp only [writePass, if_neg hmore]
    exact iff_of_false (fun hgoes ↦ hgoes _ rfl) fun hstores ↦ hmore hstores.1

/-- The first pass of four arguments goes on to store an entry of any block that is not empty. -/
theorem writePassEntriesPerBlock_stores_iff (s : CRingBuffer T) (source : ℕ → T) (writeSize : ℕ)
    (bOverwrite : Bool) :
    (∀ value, writePassEntriesPerBlock source writeSize bOverwrite ⟨s, 0⟩ ≠ .leave (.ok value)) ↔
      0 < writeSize := by
  by_cases hmore : 0 < writeSize
  · refine iff_of_true ?_ hmore
    simp only [writePassEntriesPerBlock, if_pos hmore]
    intro value
    split_ifs
    all_goals exact writeSlot_ne_ok _ source 0 value
  · simp only [writePassEntriesPerBlock, if_neg hmore]
    exact iff_of_false (fun hgoes ↦ hgoes _ rfl) hmore

/-! ### Calls -/

section Calls

variable [Zero T]

/-- A call that translates the outcome of a computation faults where the computation does. -/
theorem faults_iff_of_map {α : Type*} {op : Op T} {call : ℕ → Option (Except Fault α)}
    {translate : α → Reply T × CRingBuffer T}
    (hexec : ∀ fuel, s.exec fuel op = (call fuel).map (Except.map translate)) :
    s.Faults op ↔ ∃ fuel fault, call fuel = some (.error fault) := by
  constructor
  · rintro ⟨fuel, fault, hfault⟩
    rw [hexec] at hfault
    obtain ⟨outcome, hcall, hout⟩ := Option.map_eq_some_iff.mp hfault
    exact ⟨fuel, fault, hcall.trans (congrArg some (map_eq_error_iff.mp hout))⟩
  · rintro ⟨fuel, fault, hcall⟩
    refine ⟨fuel, fault, ?_⟩
    rw [hexec, hcall]
    rfl

theorem not_faults_of_ok {op : Op T} {reply : Reply T} {after : CRingBuffer T}
    (hexec : ∀ fuel, s.exec fuel op = some (.ok (reply, after))) : ¬ s.Faults op := by
  rintro ⟨fuel, fault, hfault⟩
  rw [hexec] at hfault
  cases hfault

/-- A write with nothing to write from or to answers `-1`. -/
theorem not_faults_write_null {pBuff : Option (ℕ → T)}
    (hnull : pBuff = none ∨ s.m_pDataBuffer = none) {op : Op T} {blockSize : ℕ} {bOverwrite : Bool}
    (hop : op = .writeBlock pBuff blockSize bOverwrite ∨ ∃ entriesPerBlock,
      op = .writeBlockEntriesPerBlock pBuff entriesPerBlock blockSize bOverwrite) :
    ¬ s.Faults op := by
  have hexec : ∀ fuel, s.exec fuel op = some (.ok (.count (-1), s)) := by
    intro fuel
    rcases hop with rfl | ⟨entriesPerBlock, rfl⟩
    · rcases hnull with rfl | hmemory
      · cases hmemory : s.m_pDataBuffer <;> simp only [exec, writeBlock, hmemory] <;> rfl
      · simp only [exec, writeBlock, hmemory]
        rfl
    · rcases hnull with rfl | hmemory
      · cases hmemory : s.m_pDataBuffer <;>
          simp only [exec, writeBlockEntriesPerBlock, hmemory] <;> rfl
      · simp only [exec, writeBlockEntriesPerBlock, hmemory]
        rfl
  exact not_faults_of_ok hexec

theorem faults_writeBlock_iff (h : v.Sized) (hpos : 0 < v.m_bufferSize) (source : ℕ → T)
    (blockSize : ℕ) (bOverwrite : Bool) :
    (ofVector v).Faults (.writeBlock (some source) blockSize bOverwrite) ↔
      v.m_bufferSize ≤ v.m_writeIdx ∧
        (ofVector v).StoresEntry (.writeBlock (some source) blockSize bOverwrite) := by
  by_cases hlt : blockSize < v.m_bufferSize
  · have haccepted : ¬ (v.m_bufferSize < 1 ∨ v.m_bufferSize ≤ blockSize) := by omega
    have hexec : ∀ fuel, (ofVector v).exec fuel (.writeBlock (some source) blockSize bOverwrite) =
        (loop (writePass source blockSize bOverwrite) fuel ⟨ofVector v, 0⟩).map
          (Except.map countReply) := by
      intro fuel
      exact congrArg (Option.map (Except.map countReply)) (if_neg haccepted)
    rw [faults_iff_of_map hexec, loop_faults_iff h (.inl rfl), writePass_stores_iff]
    exact and_congr_right fun _ ↦ ⟨fun hstores ↦ ⟨hlt, hstores⟩, fun hstores ↦ hstores.2⟩
  · have hrefused : v.m_bufferSize < 1 ∨ v.m_bufferSize ≤ blockSize := by omega
    have hexec : ∀ fuel, (ofVector v).exec fuel (.writeBlock (some source) blockSize bOverwrite) =
        some (.ok (.count (-2), ofVector v)) := by
      intro fuel
      exact congrArg (Option.map (Except.map countReply)) (if_pos hrefused)
    exact iff_of_false (not_faults_of_ok hexec) fun hstores ↦ hlt hstores.2.1

theorem faults_writeBlockEntriesPerBlock_iff (h : v.Sized) (hpos : 0 < v.m_bufferSize)
    (source : ℕ → T) (entriesPerBlock blockSize : ℕ) (bOverwrite : Bool) :
    (ofVector v).Faults
        (.writeBlockEntriesPerBlock (some source) entriesPerBlock blockSize bOverwrite) ↔
      v.m_bufferSize ≤ v.m_writeIdx ∧ (ofVector v).StoresEntry
        (.writeBlockEntriesPerBlock (some source) entriesPerBlock blockSize bOverwrite) := by
  generalize hop :
    (Op.writeBlockEntriesPerBlock (some source) entriesPerBlock blockSize bOverwrite) = op
  by_cases hlt : blockSize < v.m_bufferSize
  · have haccepted : ¬ (v.m_bufferSize < 1 ∨ v.m_bufferSize ≤ blockSize) := by omega
    by_cases hcount : 0 < toSize (entriesPerBlock * blockSize) ∧
        toSize (entriesPerBlock * blockSize) < v.m_bufferSize
    · have hexec : ∀ fuel, (ofVector v).exec fuel op =
          (loop (writePassEntriesPerBlock source (toSize (entriesPerBlock * blockSize)) bOverwrite)
            fuel ⟨ofVector v, 0⟩).map (Except.map countReply) := by
        intro fuel
        rw [← hop]
        exact congrArg (Option.map (Except.map countReply))
          ((if_neg haccepted).trans (if_neg (by change ¬ (_ ∨ v.m_bufferSize ≤ _); omega)))
      rw [faults_iff_of_map hexec, loop_faults_iff h (.inr rfl),
        writePassEntriesPerBlock_stores_iff, ← hop]
      exact and_congr_right fun _ ↦ ⟨fun _ ↦ ⟨hlt, hcount⟩, fun hstores ↦ hstores.2.1⟩
    · have hexec : ∀ fuel, (ofVector v).exec fuel op = some (.ok (.count (-3), ofVector v)) := by
        intro fuel
        rw [← hop]
        exact congrArg (Option.map (Except.map countReply))
          ((if_neg haccepted).trans (if_pos (by change _ ∨ v.m_bufferSize ≤ _; omega)))
      rw [← hop] at hexec ⊢
      exact iff_of_false (not_faults_of_ok hexec) fun hstores ↦ hcount hstores.2.2
  · have hrefused : v.m_bufferSize < 1 ∨ v.m_bufferSize ≤ blockSize := by omega
    have hexec : ∀ fuel, (ofVector v).exec fuel op = some (.ok (.count (-2), ofVector v)) := by
      intro fuel
      rw [← hop]
      exact congrArg (Option.map (Except.map countReply)) (if_pos hrefused)
    rw [← hop] at hexec ⊢
    exact iff_of_false (not_faults_of_ok hexec) fun hstores ↦ hlt hstores.2.1

/-- The read loop wraps its index before each load, so that no read faults. -/
theorem Sized.readEntries_ok (h : s.Sized) (hmemory : s.m_pDataBuffer ≠ none) {fuel : ℕ}
    {target : ℕ → T} {numEntriesToRead : ℕ} {deleteEntries : Bool} {fault : Fault} :
    s.readEntries fuel target numEntriesToRead deleteEntries ≠ some (.error fault) := by
  obtain ⟨v, hv, hpos, rfl⟩ := h.exists_vector hmemory
  rw [readEntries_ofVector hv hpos]
  intro hfault
  obtain ⟨result, _, hout⟩ := Option.map_eq_some_iff.mp hfault
  cases hout

theorem Sized.not_faults_read (h : s.Sized) {op : Op T} {pTargetBuff : Option (ℕ → T)}
    {blockSize : ℕ} {deleteEntries : Bool}
    (hop : op = .readBlock pTargetBuff blockSize deleteEntries ∨ ∃ entriesPerBlock,
      op = .readBlockEntriesPerBlock pTargetBuff entriesPerBlock blockSize deleteEntries) :
    ¬ s.Faults op := by
  rcases hop with rfl | ⟨entriesPerBlock, rfl⟩
  · rw [faults_iff_of_map fun _ ↦ rfl]
    rintro ⟨fuel, fault, hcall⟩
    unfold readBlock at hcall
    split at hcall
    · rename_i hmemory
      split_ifs at hcall
      · cases hcall
      · cases hcall
      · exact h.readEntries_ok (by rw [hmemory]; exact Option.some_ne_none _) hcall
    · cases hcall
  · rw [faults_iff_of_map fun _ ↦ rfl]
    rintro ⟨fuel, fault, hcall⟩
    unfold readBlockEntriesPerBlock at hcall
    split at hcall
    · rename_i hmemory
      split_ifs at hcall
      · cases hcall
      · cases hcall
      · exact h.readEntries_ok (by rw [hmemory]; exact Option.some_ne_none _) hcall
    · cases hcall

theorem Sized.faults_flush_iff (h : s.Sized) (bZeroOutBuffer : Bool) :
    s.Faults (.flush bZeroOutBuffer) ↔
      bZeroOutBuffer = true ∧ s.m_pDataBuffer = none ∧ 0 < s.m_bufferSize := by
  cases hmemory : s.m_pDataBuffer with
  | none =>
    have hnull : s.resetIndices.m_pDataBuffer = none := hmemory
    have hsize : s.resetIndices.m_bufferSize = s.m_bufferSize := rfl
    by_cases hclears : bZeroOutBuffer = true ∧ 0 < s.m_bufferSize
    · refine iff_of_true ⟨0, .nullPointer, ?_⟩ ⟨hclears.1, rfl, hclears.2⟩
      simp only [exec, flush, hclears.1, Bool.true_eq_false, if_false, hsize, if_pos hclears.2,
        hnull]
      rfl
    · refine iff_of_false ?_ fun hall ↦ hclears ⟨hall.1, hall.2.2⟩
      rintro ⟨fuel, fault, hfault⟩
      have hflush := map_eq_error_iff.mp (Option.some.inj hfault)
      simp only [flush] at hflush
      split_ifs at hflush with hkeeps hpos
      · exact hclears ⟨Bool.eq_true_of_not_eq_false hkeeps, hpos⟩
  | some cells =>
    obtain ⟨v, hv, _, rfl⟩ := h.exists_vector (by rw [hmemory]; exact Option.some_ne_none cells)
    obtain ⟨after, status, _, hflush⟩ := flush_ofVector hv bZeroOutBuffer
    have hexec : ∀ fuel, (ofVector v).exec fuel (.flush bZeroOutBuffer) =
        some (.ok (.status status, ofVector { v.resetIndices with m_dataBuffer := after })) := by
      intro fuel
      simp only [exec, hflush]
      rfl
    exact iff_of_false (not_faults_of_ok hexec) fun hall ↦ Option.some_ne_none cells hall.2.1

/-- Where the memory has the size that is counted with, the calls that leave it. -/
theorem Sized.faults_iff (h : s.Sized) (op : Op T) :
    s.Faults op ↔
      (op = .flush true ∧ s.m_pDataBuffer = none ∧ 0 < s.m_bufferSize) ∨
        s.m_pDataBuffer ≠ none ∧ s.m_bufferSize ≤ s.m_writeIdx ∧ s.StoresEntry op := by
  have hquiet : ¬ s.Faults op → ¬ op = .flush true → ¬ s.StoresEntry op →
      (s.Faults op ↔ (op = .flush true ∧ s.m_pDataBuffer = none ∧ 0 < s.m_bufferSize) ∨
        s.m_pDataBuffer ≠ none ∧ s.m_bufferSize ≤ s.m_writeIdx ∧ s.StoresEntry op) := by
    intro hnot hflush hstores
    simp only [hnot, hflush, hstores, false_and, and_false, or_self]
  cases op with
  | writeBlock pBuff blockSize bOverwrite =>
    by_cases hnull : pBuff = none ∨ s.m_pDataBuffer = none
    · refine iff_of_false (not_faults_write_null hnull (.inl rfl)) ?_
      rintro (⟨hflush, _⟩ | ⟨hmemory, _, hstores⟩)
      · cases hflush
      · exact hnull.elim (fun hnone ↦ by subst hnone; exact hstores) hmemory
    · obtain ⟨source, rfl⟩ : ∃ source, pBuff = some source :=
        Option.ne_none_iff_exists'.mp fun hnone ↦ hnull (.inl hnone)
      have hmemory : s.m_pDataBuffer ≠ none := fun hnone ↦ hnull (.inr hnone)
      obtain ⟨v, hv, hpos, rfl⟩ := h.exists_vector hmemory
      rw [faults_writeBlock_iff hv hpos]
      exact ⟨fun hfaults ↦ .inr ⟨hmemory, hfaults⟩, fun hor ↦ hor.elim (by simp) And.right⟩
  | writeBlockEntriesPerBlock pBuff entriesPerBlock blockSize bOverwrite =>
    by_cases hnull : pBuff = none ∨ s.m_pDataBuffer = none
    · refine iff_of_false (not_faults_write_null hnull (.inr ⟨entriesPerBlock, rfl⟩)) ?_
      rintro (⟨hflush, _⟩ | ⟨hmemory, _, hstores⟩)
      · cases hflush
      · exact hnull.elim (fun hnone ↦ by subst hnone; exact hstores) hmemory
    · obtain ⟨source, rfl⟩ : ∃ source, pBuff = some source :=
        Option.ne_none_iff_exists'.mp fun hnone ↦ hnull (.inl hnone)
      have hmemory : s.m_pDataBuffer ≠ none := fun hnone ↦ hnull (.inr hnone)
      obtain ⟨v, hv, hpos, rfl⟩ := h.exists_vector hmemory
      rw [faults_writeBlockEntriesPerBlock_iff hv hpos]
      exact ⟨fun hfaults ↦ .inr ⟨hmemory, hfaults⟩, fun hor ↦ hor.elim (by simp) And.right⟩
  | readBlock pTargetBuff blockSize deleteEntries =>
    exact hquiet (h.not_faults_read (.inl rfl)) (by simp) id
  | readBlockEntriesPerBlock pTargetBuff entriesPerBlock blockSize deleteEntries =>
    exact hquiet (h.not_faults_read (.inr ⟨entriesPerBlock, rfl⟩)) (by simp) id
  | flush bZeroOutBuffer =>
    rw [h.faults_flush_iff]
    simp [StoresEntry]
  | deleteEntry => exact hquiet (not_faults_of_ok fun _ ↦ rfl) (by simp) id
  | deleteBlock numEntries => exact hquiet (not_faults_of_ok fun _ ↦ rfl) (by simp) id
  | setMaxBufferSize numEntries granted =>
    exact hquiet (not_faults_of_ok fun _ ↦ rfl) (by simp) id
  | setMaxBufferSizeBlocks entriesPerBlock numBlocks granted =>
    exact hquiet (not_faults_of_ok fun _ ↦ rfl) (by simp) id

/-! ### Runs -/

omit [Zero T] in
theorem WritesWithin.of_null (hnull : s.m_pDataBuffer = none) : s.WritesWithin :=
  fun hmemory ↦ absurd hnull hmemory

omit [Zero T] in
/-- Deleting keeps the write index or resets it. -/
theorem writeIdx_erase (h : v.Sized) (hpos : 0 < v.m_bufferSize)
    (hin : v.m_writeIdx < v.m_bufferSize) (numEntries : ℕ) :
    (v.erase numEntries).2.m_writeIdx < (v.erase numEntries).2.m_bufferSize := by
  rw [CVRingBuffer.bufferSize_erase h]
  simp only [CVRingBuffer.erase, h.growBufferSize_eq]
  split_ifs <;> first | exact hin | exact hpos

omit [Zero T] in
theorem writeIdx_readEntries (h : v.Sized) (hin : v.m_writeIdx < v.m_bufferSize)
    {fuel numEntriesToRead : ℕ} {target : ℕ → T} {deleteEntries : Bool}
    {result : CVRingBuffer.ReadResult T}
    (hcall : v.readEntries fuel target numEntriesToRead deleteEntries = some result) :
    result.buffer.m_writeIdx < result.buffer.m_bufferSize := by
  refine loop_invariant
    (fun l : CVRingBuffer.ReadLoop T ↦ l.buffer.Sized ∧
      l.buffer.m_writeIdx < l.buffer.m_bufferSize)
    (fun r : CVRingBuffer.ReadResult T ↦ r.buffer.m_writeIdx < r.buffer.m_bufferSize) ?_ ?_
    ⟨h, hin⟩ hcall
  · rintro l next ⟨hl, hidx⟩ hpass
    have hbuffer := CVRingBuffer.readPass_buffer numEntriesToRead deleteEntries l
    rw [hpass] at hbuffer
    rcases hbuffer with hsame | herase
    · rw [hsame]
      exact ⟨hl, hidx⟩
    · rw [herase]
      exact ⟨hl.erase 1, writeIdx_erase hl (Nat.zero_lt_of_lt hidx) hidx 1⟩
  · rintro l out ⟨_, hidx⟩ hpass
    have hbuffer := CVRingBuffer.readPass_buffer numEntriesToRead deleteEntries l
    rw [hpass] at hbuffer
    rw [hbuffer]
    exact hidx

/-- One call keeps the write index in the memory, unless it installs a smaller one. -/
theorem WritesWithin.step (hsized : s.Sized) (h : s.WritesWithin) {op : Op T}
    {reply : Reply T}
    (hfits : FitsWriteIdx ⟨s, op, reply⟩) (hstep : Step s op reply s') : s'.WritesWithin := by
  cases hstep.effect with
  | nothing => exact h
  | writes hmemory hcall =>
    obtain ⟨v, hv, hpos, rfl⟩ := hsized.exists_vector hmemory
    obtain ⟨result, hok, hidx⟩ := loop_within hv (h hmemory) (.inl rfl) hcall
    obtain rfl := Except.ok.inj hok
    exact fun _ ↦ hidx
  | writesBlocks hmemory _ _ _ _ hcall =>
    obtain ⟨v, hv, hpos, rfl⟩ := hsized.exists_vector hmemory
    obtain ⟨result, hok, hidx⟩ := loop_within hv (h hmemory) (.inr rfl) hcall
    obtain rfl := Except.ok.inj hok
    exact fun _ ↦ hidx
  | reads hmemory hpos hcall =>
    obtain ⟨v, hv, hvpos, rfl⟩ := hsized.exists_vector hmemory
    rw [readEntries_ofVector hv hpos, Option.map_eq_some_iff] at hcall
    obtain ⟨result, hread, hout⟩ := hcall
    obtain rfl := Except.ok.inj hout
    exact fun _ ↦ writeIdx_readEntries hv (h hmemory) hread
  | erases numEntries =>
    rcases hsized with hnull | ⟨v, hv, hpos, rfl⟩
    · rw [erase_null hnull]
      exact h
    · rw [erase_ofVector hv]
      exact fun _ ↦ writeIdx_erase hv hpos (h (Option.some_ne_none _)) numEntries
  | @flushes bZeroOutBuffer status after hcall =>
    rcases hsized with hnull | ⟨v, hv, hpos, rfl⟩
    · exact .of_null (flush_null hnull hcall)
    · obtain ⟨cells, status', _, hflush⟩ := flush_ofVector hv bZeroOutBuffer
      rw [hflush] at hcall
      obtain ⟨_, rfl⟩ := Prod.mk.inj (Except.ok.inj hcall)
      exact fun _ ↦ hpos
  | frees => exact .of_null rfl
  | @resizes size entriesPerBlock hsize => exact fun _ ↦ hfits size hsize

theorem Built.writesWithin {N : ℕ} (h : Built N s) : s.WritesWithin := by
  intro hmemory
  obtain ⟨v, hv, rfl⟩ := h.sound.exists_vector hmemory
  exact hv.writeIdx_lt

/-- After any run from a constructed buffer, the calls that leave its memory are the writes that
store an entry at a write index beyond the size, and a `flush` that clears memory which is null. The
write index is beyond the size only where a resizing of the run met one that is not below the new
size. -/
theorem memory_safety {N : ℕ} {s₀ : CRingBuffer T} (hbuilt : Built N s₀)
    {trace : List (Call (CRingBuffer T) (Op T) (Reply T))} (hrun : Run Step s₀ trace s) :
    (∀ op, s.Faults op ↔
      (op = .flush true ∧ s.m_pDataBuffer = none ∧ 0 < s.m_bufferSize) ∨
        s.m_pDataBuffer ≠ none ∧ s.m_bufferSize ≤ s.m_writeIdx ∧ s.StoresEntry op) ∧
    ((∀ call ∈ trace, FitsWriteIdx call) →
      s.m_pDataBuffer ≠ none → s.m_writeIdx < s.m_bufferSize) := by
  have hsized : s.Sized := by
    refine hrun.invariant Sized (fun _ ↦ True) ?_ (fun _ _ ↦ trivial) hbuilt.sound.sized
    intro before op reply after _ hbefore hstep
    exact hbefore.step hstep
  refine ⟨hsized.faults_iff, fun hfits ↦ ?_⟩
  have hkeep : ∀ (before : CRingBuffer T) (op : Op T) (reply : Reply T) (after : CRingBuffer T),
      before.Sized ∧ before.WritesWithin → FitsWriteIdx ⟨before, op, reply⟩ →
        Step before op reply after → after.Sized ∧ after.WritesWithin := by
    rintro before op reply after ⟨hbefore, hidx⟩ hmeets hstep
    exact ⟨hbefore.step hstep, hidx.step hbefore hmeets hstep⟩
  obtain ⟨_, _, hwithin⟩ := hrun.forall_states (fun s ↦ s.Sized ∧ s.WritesWithin) hkeep hfits
    ⟨hbuilt.sound.sized, hbuilt.writesWithin⟩
  exact hwithin

/-- A buffer of two that holds one entry, before and after it is cut to one entry: the write index
stays at 1, and the next write leaves the memory. -/
theorem memory_safety_cut :
    (∀ op, (⟨some [0], 1, 1, 1, 1, 0⟩ : CRingBuffer ℕ).Faults op ↔
      (op = .flush true ∧ (⟨some [0], 1, 1, 1, 1, 0⟩ : CRingBuffer ℕ).m_pDataBuffer = none ∧
        0 < (⟨some [0], 1, 1, 1, 1, 0⟩ : CRingBuffer ℕ).m_bufferSize) ∨
      (⟨some [0], 1, 1, 1, 1, 0⟩ : CRingBuffer ℕ).m_pDataBuffer ≠ none ∧
        (⟨some [0], 1, 1, 1, 1, 0⟩ : CRingBuffer ℕ).m_bufferSize ≤
          (⟨some [0], 1, 1, 1, 1, 0⟩ : CRingBuffer ℕ).m_writeIdx ∧
        (⟨some [0], 1, 1, 1, 1, 0⟩ : CRingBuffer ℕ).StoresEntry op) ∧
    ((⟨some [7, 0], 2, 1, 1, 1, 0⟩ : CRingBuffer ℕ).m_pDataBuffer ≠ none →
      (⟨some [7, 0], 2, 1, 1, 1, 0⟩ : CRingBuffer ℕ).m_writeIdx <
        (⟨some [7, 0], 2, 1, 1, 1, 0⟩ : CRingBuffer ℕ).m_bufferSize) := by
  have hwrite : Step (⟨some [0, 0], 2, 1, 0, 0, 0⟩ : CRingBuffer ℕ)
      (.writeBlock (some fun _ ↦ 7) 1 false) (.count 1) ⟨some [7, 0], 2, 1, 1, 1, 0⟩ := ⟨2, rfl⟩
  have hcut : Step (⟨some [7, 0], 2, 1, 1, 1, 0⟩ : CRingBuffer ℕ) (.setMaxBufferSize 1 true)
      (.status true) ⟨some [0], 1, 1, 1, 1, 0⟩ := ⟨0, rfl⟩
  have hbuilt : Built 2 (⟨some [0, 0], 2, 1, 0, 0, 0⟩ : CRingBuffer ℕ) := .entries true
  refine ⟨(memory_safety hbuilt (.cons hwrite (.cons hcut (.nil _)))).1,
    (memory_safety hbuilt (.cons hwrite (.nil _))).2 ?_⟩
  intro call hcall size hsize
  rw [List.mem_singleton.mp hcall] at hsize
  cases hsize

end Calls

end RdbLibs.Buffer.CRingBuffer
