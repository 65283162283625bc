import RdbLibs.Buffer.CVRingBuffer.Read

/-!
# The calls of a `CVRingBuffer`

What every public method does from a state of the index invariant. The overloads of `writeBlock`
and `readBlock` differ in their checks only, so a call that passes them is an `AcceptedWrite` or an
`AcceptedRead` of some number of entries, and the results about the loops become results about
calls: an accepted write offers or overwrites, an accepted read delivers the oldest entries unless
the buffer is full, a resizing that succeeds installs a cleared vector and keeps the counters
(`exec_resize`). `Effect` lists all that a call can do to a buffer, so that an invariant is proved
by its cases. Calls are deterministic (`Step.unique`), and every call that does not resize keeps
the invariant (`Indexed.step`) and, below `2 ^ 31` entries of capacity, returns (`Indexed.total`).
-/

set_option autoImplicit false
set_option relaxedAutoImplicit false

namespace RdbLibs.Buffer.CVRingBuffer

open MachineWord WhileLoop

variable {T : Type*} [Zero T] {N : ℕ} {s s' : CVRingBuffer T}

/-! ### Determinism -/

/-- The answer of a call does not change with more fuel. -/
theorem exec_steady (s : CVRingBuffer T) (op : Op T) : Steady fun fuel ↦ s.exec fuel op := by
  cases op with
  | writeBlock p blockSize bOverwrite =>
    cases p with
    | none => exact .const _
    | some source => exact .map (.ite (.const _) (.loop _ _)) _
  | writeBlockEntriesPerBlock p entriesPerBlock blockSize bOverwrite =>
    cases p with
    | none => exact .const _
    | some source => exact .map (.ite (.const _) (.ite (.const _) (.loop _ _))) _
  | readBlock p blockSize deleteEntries =>
    cases p with
    | none => exact .const _
    | some target => exact .map (.ite (.const _) (.ite (.const _) (.loop _ _))) _
  | readBlockEntriesPerBlock p entriesPerBlock blockSize deleteEntries =>
    cases p with
    | none => exact .const _
    | some target => exact .map (.ite (.const _) (.ite (.const _) (.loop _ _))) _
  | _ => exact .const _

/-- A call has one answer and leaves one state. -/
theorem Step.unique {op : Op T} {reply reply' : Reply T} {after after' : CVRingBuffer T}
    (hfirst : Step s op reply after) (hsecond : Step s op reply' after') :
    reply = reply' ∧ after = after' := by
  obtain ⟨m, hm⟩ := hfirst
  obtain ⟨n, hn⟩ := hsecond
  have hm' := exec_steady s op (le_max_left m n) hm
  have hn' := exec_steady s op (le_max_right m n) hn
  exact Prod.mk.inj (Option.some.inj (hm'.symm.trans hn'))

/-! ### Accepted writes and reads -/

/-- The write calls that reach the loop of a buffer of capacity `N`, with their source, the number
of entries to write and their permission to overwrite. -/
inductive AcceptedWrite (N : ℕ) : Op T → (ℕ → T) → ℕ → Bool → Prop
  | entries {source : ℕ → T} {blockSize : ℕ} {bOverwrite : Bool} (hsize : blockSize ≤ N) :
      AcceptedWrite N (.writeBlock (some source) blockSize bOverwrite) source blockSize bOverwrite
  | blocks {source : ℕ → T} {entriesPerBlock blockSize : ℕ} {bOverwrite : Bool}
      (hsize : blockSize ≤ N) (hpos : 1 ≤ toSize (entriesPerBlock * blockSize))
      (hlt : toSize (entriesPerBlock * blockSize) < N) :
      AcceptedWrite N
        (.writeBlockEntriesPerBlock (some source) entriesPerBlock blockSize bOverwrite) source
        (toSize (entriesPerBlock * blockSize)) bOverwrite

/-- The read calls that reach the loop of a buffer of capacity `N` that is not empty, with their
target, the number of entries to read and whether they delete. -/
inductive AcceptedRead (N : ℕ) : Op T → (ℕ → T) → ℕ → Bool → Prop
  | entries {target : ℕ → T} {blockSize : ℕ} {deleteEntries : Bool} (hsize : blockSize ≤ N) :
      AcceptedRead N (.readBlock (some target) blockSize deleteEntries) target blockSize
        deleteEntries
  | blocks {target : ℕ → T} {entriesPerBlock blockSize : ℕ}
      {deleteEntries : Bool} (hsize : blockSize ≤ N) :
      AcceptedRead N
        (.readBlockEntriesPerBlock (some target) entriesPerBlock blockSize deleteEntries) target
        (toSize (entriesPerBlock * blockSize)) deleteEntries

omit [Zero T] in
theorem AcceptedWrite.size_le {op : Op T} {source : ℕ → T} {writeSize : ℕ} {bOverwrite : Bool}
    (h : AcceptedWrite N op source writeSize bOverwrite) : writeSize ≤ N := by
  cases h with
  | entries hsize => exact hsize
  | blocks _ _ hlt => exact hlt.le

theorem AcceptedWrite.exec_eq (h : Indexed N s) {op : Op T} {source : ℕ → T} {writeSize : ℕ}
    {bOverwrite : Bool} (haccepted : AcceptedWrite N op source writeSize bOverwrite) (fuel : ℕ) :
    s.exec fuel op = (s.writeEntries fuel source writeSize bOverwrite).map
      fun r ↦ (.count r.1, r.2) := by
  have hpos := h.pos
  cases haccepted with
  | entries hsize =>
    simp only [exec, writeBlock, h.clampBufferSize_eq, h.bufferSize_eq]
    rw [if_neg (by omega)]
  | blocks hsize hone hlt =>
    simp only [exec, writeBlockEntriesPerBlock, h.clampBufferSize_eq, h.bufferSize_eq]
    rw [if_neg (by omega), if_neg (by omega)]

theorem AcceptedRead.exec_eq (h : Indexed N s) {op : Op T} {target : ℕ → T}
    {numEntriesToRead : ℕ} {deleteEntries : Bool}
    (haccepted : AcceptedRead N op target numEntriesToRead deleteEntries) (fuel : ℕ) :
    s.exec fuel op = if s.m_currentDataSize = 0 then some (.read 0 (some target), s)
      else (s.readEntries fuel target numEntriesToRead deleteEntries).map
        fun r ↦ (.read r.value r.target, r.buffer) := by
  have hpos := h.pos
  cases haccepted with
  | entries hsize =>
    simp only [exec, readBlock, h.clampBufferSize_eq, h.bufferSize_eq]
    rw [if_neg (by omega)]
    by_cases hempty : s.m_currentDataSize = 0
    · rw [if_pos (by omega), if_pos hempty]
      rfl
    · rw [if_neg (by omega), if_neg hempty]
  | blocks hsize =>
    simp only [exec, readBlockEntriesPerBlock, h.clampBufferSize_eq, h.bufferSize_eq]
    rw [if_neg (by omega)]
    by_cases hempty : s.m_currentDataSize = 0
    · rw [if_pos (by omega), if_pos hempty]
      rfl
    · rw [if_neg (by omega), if_neg hempty]

/-- Whether a call is a write, with its permission to overwrite. -/
def Op.IsWrite : Op T → Bool → Prop
  | .writeBlock _ _ bOverwrite, permission => bOverwrite = permission
  | .writeBlockEntriesPerBlock _ _ _ bOverwrite, permission => bOverwrite = permission
  | _, _ => False

/-- Whether a call is a read, and whether it deletes. -/
def Op.IsRead : Op T → Bool → Prop
  | .readBlock _ _ deleteEntries, deletes => deleteEntries = deletes
  | .readBlockEntriesPerBlock _ _ _ deleteEntries, deletes => deleteEntries = deletes
  | _, _ => False

/-- A write is accepted, or it is answered `-1`, `-2` or `-3` and changes nothing. -/
theorem Op.IsWrite.accepted_or (h : Indexed N s) {op : Op T} {bOverwrite : Bool}
    (hwrite : op.IsWrite bOverwrite) :
    (∃ source writeSize, AcceptedWrite N op source writeSize bOverwrite) ∨
      ∃ value : ℤ, (value = -1 ∨ value = -2 ∨ value = -3) ∧
        ∀ fuel, s.exec fuel op = some (.count value, s) := by
  cases op with
  | writeBlock p blockSize permission =>
    obtain rfl : permission = bOverwrite := hwrite
    cases p with
    | none => exact .inr ⟨-1, .inl rfl, fun _ ↦ rfl⟩
    | some source =>
      by_cases hsize : blockSize ≤ N
      · exact .inl ⟨source, blockSize, .entries hsize⟩
      · refine .inr ⟨-2, .inr (.inl rfl), fun fuel ↦ ?_⟩
        simp only [exec, CVRingBuffer.writeBlock, h.clampBufferSize_eq, h.bufferSize_eq]
        rw [if_pos (.inr (not_le.mp hsize))]
        rfl
  | writeBlockEntriesPerBlock p entriesPerBlock blockSize permission =>
    obtain rfl : permission = bOverwrite := hwrite
    cases p with
    | none => exact .inr ⟨-1, .inl rfl, fun _ ↦ rfl⟩
    | some source =>
      have hpos := h.pos
      by_cases hsize : blockSize ≤ N
      · by_cases hfits : 1 ≤ toSize (entriesPerBlock * blockSize) ∧
            toSize (entriesPerBlock * blockSize) < N
        · exact .inl ⟨source, _, .blocks hsize hfits.1 hfits.2⟩
        · refine .inr ⟨-3, .inr (.inr rfl), fun fuel ↦ ?_⟩
          simp only [exec, CVRingBuffer.writeBlockEntriesPerBlock, h.clampBufferSize_eq,
            h.bufferSize_eq]
          rw [if_neg (by omega), if_pos (by omega)]
          rfl
      · refine .inr ⟨-2, .inr (.inl rfl), fun fuel ↦ ?_⟩
        simp only [exec, CVRingBuffer.writeBlockEntriesPerBlock, h.clampBufferSize_eq,
          h.bufferSize_eq]
        rw [if_pos (.inr (not_le.mp hsize))]
        rfl
  | _ => exact hwrite.elim

/-- A read is accepted, or it is answered `-1` and changes nothing. -/
theorem Op.IsRead.accepted_or (h : Indexed N s) {op : Op T} {deleteEntries : Bool}
    (hread : op.IsRead deleteEntries) :
    (∃ target numEntriesToRead, AcceptedRead N op target numEntriesToRead deleteEntries) ∨
      ∃ target, ∀ fuel, s.exec fuel op = some (.read (-1) target, s) := by
  cases op with
  | readBlock p blockSize permission =>
    obtain rfl : permission = deleteEntries := hread
    cases p with
    | none => exact .inr ⟨none, fun _ ↦ rfl⟩
    | some target =>
      by_cases hsize : blockSize ≤ N
      · exact .inl ⟨target, blockSize, .entries hsize⟩
      · refine .inr ⟨some target, fun fuel ↦ ?_⟩
        simp only [exec, CVRingBuffer.readBlock, h.clampBufferSize_eq, h.bufferSize_eq]
        rw [if_pos (.inr (not_le.mp hsize))]
        rfl
  | readBlockEntriesPerBlock p entriesPerBlock blockSize permission =>
    obtain rfl : permission = deleteEntries := hread
    cases p with
    | none => exact .inr ⟨none, fun _ ↦ rfl⟩
    | some target =>
      by_cases hsize : blockSize ≤ N
      · exact .inl ⟨target, _, .blocks hsize⟩
      · refine .inr ⟨some target, fun fuel ↦ ?_⟩
        simp only [exec, CVRingBuffer.readBlockEntriesPerBlock, h.clampBufferSize_eq,
          h.bufferSize_eq]
        rw [if_pos (.inr (not_le.mp hsize))]
        rfl
  | _ => exact hread.elim

/-- A call that returns what the write loop returns. -/
theorem AcceptedWrite.step (h : Indexed N s) {op : Op T} {source : ℕ → T} {writeSize : ℕ}
    {bOverwrite : Bool} (haccepted : AcceptedWrite N op source writeSize bOverwrite) {value : ℤ}
    (hreturns : Returns (writePass source writeSize bOverwrite) ⟨s, 0⟩ (value, s')) :
    Step s op (.count value) s' := by
  obtain ⟨fuel, hfuel⟩ := hreturns
  refine ⟨fuel, ?_⟩
  rw [haccepted.exec_eq h, writeEntries, hfuel]
  rfl

/-- A write that must not overwrite offers its block to the queue. -/
theorem Indexed.step_offer (h : Indexed N s) {op : Op T} {source : ℕ → T} {writeSize : ℕ}
    (hword : writeSize < 2 ^ 32) (haccepted : AcceptedWrite N op source writeSize false) :
    ∃ s', Step s op
        (.count (if writeSize ≤ N - s.m_currentDataSize then toInt writeSize else -5)) s' ∧
      ∃ h' : Indexed N s', queue h' = (queue h).offer (block source 0 writeSize) := by
  obtain ⟨s', hreturns, h', _, hstored⟩ :=
    h.returns_offer source hword writeSize 0 (Nat.zero_add writeSize)
  refine ⟨s', haccepted.step h hreturns, h', BoundedQueue.ext ?_⟩
  change s'.stored = s.stored ++ (block source 0 writeSize).take (N - s.stored.length)
  rw [hstored, length_stored, take_block, Nat.min_comm]

/-- A write that may overwrite does so, and returns the number of its entries. -/
theorem Indexed.step_overwrite (h : Indexed N s) {op : Op T} {source : ℕ → T} {writeSize : ℕ}
    (hword : writeSize < 2 ^ 32) (haccepted : AcceptedWrite N op source writeSize true) :
    ∃ s', Step s op (.count (toInt writeSize)) s' ∧
      ∃ h' : Indexed N s', queue h' = (queue h).overwrite (block source 0 writeSize) := by
  obtain ⟨s', h', hreturns, hqueue⟩ :=
    h.returns_overwrite source hword writeSize 0 (Nat.zero_add writeSize)
  exact ⟨s', haccepted.step h hreturns, h', hqueue⟩

/-- A read of a buffer that is not full delivers the oldest entries. -/
theorem Indexed.step_read (h : Indexed N s) (hroom : s.m_currentDataSize < N) {op : Op T}
    {target : ℕ → T} {numEntriesToRead : ℕ} {deleteEntries : Bool}
    (haccepted : AcceptedRead N op target numEntriesToRead deleteEntries)
    (hword : min numEntriesToRead s.m_currentDataSize < 2 ^ 32)
    (haddress : Addressable N s.m_readIdx s.m_currentDataSize numEntriesToRead) :
    Step s op (.read (toInt (min numEntriesToRead s.m_currentDataSize))
        (some (deliver target 0
          (s.stored.take (min numEntriesToRead s.m_currentDataSize)))))
      (CVRingBuffer.afterRead deleteEntries s (min numEntriesToRead s.m_currentDataSize)) := by
  by_cases hempty : s.m_currentDataSize = 0
  · refine ⟨0, ?_⟩
    rw [haccepted.exec_eq h, if_pos hempty, hempty, Nat.min_zero, h.afterRead_zero]
    rfl
  · have hstart : 0 < numEntriesToRead →
        (if N ≤ toUnsigned s.m_readIdx then 0 else toUnsigned s.m_readIdx) =
          (s.m_readIdx + 0) % N := by
      intro hmore
      have hlow := haddress 0 hmore (Nat.zero_le _)
      rw [Nat.add_zero, Nat.mod_eq_of_lt h.readIdx_lt] at hlow ⊢
      rw [toUnsigned_of_lt hlow, if_neg (not_le.mpr h.readIdx_lt)]
    have hreturns := h.returns_read hroom deleteEntries hword haddress
      (min numEntriesToRead s.m_currentDataSize) 0 target _ (Nat.zero_add _) hstart
    rw [h.afterRead_zero, Nat.add_zero] at hreturns
    obtain ⟨fuel, hfuel⟩ := hreturns
    refine ⟨fuel, ?_⟩
    rw [haccepted.exec_eq h, if_neg hempty, CVRingBuffer.readEntries, hfuel, stored,
      h.bufferSize_eq, CircularWindow.take_window _ _ _ (Nat.min_le_right _ _)]
    rfl

/-- A read of a full buffer delivers nothing. -/
theorem Indexed.step_read_full (h : Indexed N s) (hfull : s.m_currentDataSize = N)
    (hlow : s.m_readIdx < 2 ^ 32) {op : Op T} {target : ℕ → T} {numEntriesToRead : ℕ}
    {deleteEntries : Bool} (haccepted : AcceptedRead N op target numEntriesToRead deleteEntries) :
    Step s op (.read 0 (some target)) s := by
  have hpos := h.pos
  obtain ⟨fuel, hfuel⟩ := h.returns_read_full hfull hlow numEntriesToRead deleteEntries target
  refine ⟨fuel, ?_⟩
  rw [haccepted.exec_eq h, if_neg (by omega), CVRingBuffer.readEntries, hfuel]
  rfl

theorem step_deleteEntry (s : CVRingBuffer T) :
    Step s .deleteEntry (.status (s.erase 1).1) (s.erase 1).2 := ⟨0, rfl⟩

theorem step_deleteBlock (s : CVRingBuffer T) (numEntries : ℕ) :
    Step s (.deleteBlock numEntries) (.status (s.erase (toUnsigned numEntries)).1)
      (s.erase (toUnsigned numEntries)).2 := ⟨0, rfl⟩

theorem step_flush (s : CVRingBuffer T) (bZeroOutBuffer : Bool) :
    Step s (.flush bZeroOutBuffer) (.status (s.flush bZeroOutBuffer).1)
      (s.flush bZeroOutBuffer).2 := ⟨0, rfl⟩

/-! ### Resizing -/

/-- The buffer with a cleared vector of another size, and its counters as they were. -/
def resized (s : CVRingBuffer T) (size : ℕ) : CVRingBuffer T :=
  { s with m_dataBuffer := List.replicate size 0, m_bufferSize := size }

theorem length_resize (cells : List T) (size : ℕ) : (resize cells size).length = size := by
  simp only [resize, List.length_append, List.length_take, List.length_replicate]
  omega

theorem setBufferSize_eq (s : CVRingBuffer T) (numEntries : ℕ) (granted : Bool) :
    s.setBufferSize numEntries granted =
      if 0 < numEntries then
        if granted ∧ numEntries < 2 ^ 63 then some (true, s.resized numEntries) else none
      else some (false, s) := by
  have hmap : (resize s.m_dataBuffer numEntries).map (fun _ ↦ (0 : T)) =
      List.replicate numEntries 0 := by
    rw [List.map_const', length_resize]
  simp only [setBufferSize, length_resize, lt_irrefl, if_false, hmap, resized]

/-- The calls that resize. -/
def Op.Resizes : Op T → Prop
  | .setMaxBufferSize _ _ => True
  | .setMaxBufferSizeBlocks _ _ _ => True
  | _ => False

/-- The capacity that a resizing installs, if it succeeds. -/
def Op.newSize : Op T → Option ℕ
  | .setMaxBufferSize numEntries granted =>
    if granted ∧ 0 < numEntries ∧ numEntries < 2 ^ 63 then some numEntries else none
  | .setMaxBufferSizeBlocks entriesPerBlock numBlocks granted =>
    if granted ∧ 0 < toSize (entriesPerBlock * numBlocks) ∧
        toSize (entriesPerBlock * numBlocks) < 2 ^ 63 then
      some (toSize (entriesPerBlock * numBlocks))
    else none
  | _ => none

omit [Zero T] in
theorem Op.newSize_of_not_resizes {op : Op T} (h : ¬ op.Resizes) : op.newSize = none := by
  cases op with
  | setMaxBufferSize _ _ => exact absurd trivial h
  | setMaxBufferSizeBlocks _ _ _ => exact absurd trivial h
  | _ => rfl

omit [Zero T] in
theorem Op.pos_of_newSize {op : Op T} {size : ℕ} (h : op.newSize = some size) : 0 < size := by
  cases op with
  | setMaxBufferSize numEntries granted =>
    simp only [newSize, Option.ite_none_right_eq_some, Option.some.injEq] at h
    obtain ⟨⟨_, hpos, _⟩, rfl⟩ := h
    exact hpos
  | setMaxBufferSizeBlocks entriesPerBlock numBlocks granted =>
    simp only [newSize, Option.ite_none_right_eq_some, Option.some.injEq] at h
    obtain ⟨⟨_, hpos, _⟩, rfl⟩ := h
    exact hpos
  | _ => cases h

/-- A resizing that succeeds clears the vector and leaves the counters as they were. -/
theorem exec_resize {op : Op T} {size : ℕ} (hsize : op.newSize = some size) (fuel : ℕ) :
    ∃ entriesPerBlock, s.exec fuel op = some (.status true,
      { s.resized size with m_entriesPerBlock := entriesPerBlock }) := by
  cases op with
  | setMaxBufferSize numEntries granted =>
    simp only [Op.newSize, Option.ite_none_right_eq_some, Option.some.injEq] at hsize
    obtain ⟨⟨hgranted, hpos, hmax⟩, rfl⟩ := hsize
    refine ⟨s.m_entriesPerBlock, ?_⟩
    simp only [exec, setMaxBufferSize, setBufferSize_eq, if_pos hpos]
    rw [if_pos ⟨hgranted, hmax⟩]
    rfl
  | setMaxBufferSizeBlocks entriesPerBlock numBlocks granted =>
    simp only [Op.newSize, Option.ite_none_right_eq_some, Option.some.injEq] at hsize
    obtain ⟨⟨hgranted, hpos, hmax⟩, rfl⟩ := hsize
    have hfactors : 0 < entriesPerBlock ∧ 0 < numBlocks := by
      constructor
      · by_contra hzero
        simp [Nat.eq_zero_of_not_pos hzero, toSize] at hpos
      · by_contra hzero
        simp [Nat.eq_zero_of_not_pos hzero, toSize] at hpos
    refine ⟨entriesPerBlock, ?_⟩
    simp only [exec, setMaxBufferSizeBlocks, if_pos hfactors, setBufferSize_eq, if_pos hpos]
    rw [if_pos ⟨hgranted, hmax⟩]
    rfl
  | _ => simp [Op.newSize] at hsize

/-- A resizing that does not succeed leaves the buffer as it was. -/
theorem exec_resize_failed {op : Op T} (hresizes : op.Resizes) (hsize : op.newSize = none)
    (fuel : ℕ) : ∃ reply, reply ≠ .status true ∧ s.exec fuel op = some (reply, s) := by
  cases op with
  | setMaxBufferSize numEntries granted =>
    simp only [Op.newSize, ite_eq_right_iff, reduceCtorEq, imp_false] at hsize
    simp only [exec, setMaxBufferSize, setBufferSize_eq]
    by_cases hpos : 0 < numEntries
    · rw [if_pos hpos, if_neg (fun hall ↦ hsize ⟨hall.1, hpos, hall.2⟩)]
      exact ⟨.threw, by simp, rfl⟩
    · rw [if_neg hpos]
      exact ⟨.status false, by simp, rfl⟩
  | setMaxBufferSizeBlocks entriesPerBlock numBlocks granted =>
    simp only [Op.newSize, ite_eq_right_iff, reduceCtorEq, imp_false] at hsize
    simp only [exec, setMaxBufferSizeBlocks, setBufferSize_eq]
    by_cases hfactors : 0 < entriesPerBlock ∧ 0 < numBlocks
    · rw [if_pos hfactors]
      by_cases hpos : 0 < toSize (entriesPerBlock * numBlocks)
      · rw [if_pos hpos, if_neg (fun hall ↦ hsize ⟨hall.1, hpos, hall.2⟩)]
        exact ⟨.threw, by simp, rfl⟩
      · rw [if_neg hpos]
        exact ⟨.status false, by simp, rfl⟩
    · rw [if_neg hfactors]
      exact ⟨.status false, by simp, rfl⟩
  | _ => exact hresizes.elim

/-! ### The effects of calls -/

/-- All that a call can do to a buffer. -/
inductive Effect (s : CVRingBuffer T) (op : Op T) : CVRingBuffer T → Prop
  | nothing : Effect s op s
  | writes {fuel : ℕ} {source : ℕ → T} {writeSize : ℕ} {bOverwrite : Bool}
      {result : ℤ × CVRingBuffer T} (hpos : 0 < s.m_bufferSize)
      (hcall : s.writeEntries fuel source writeSize bOverwrite = some result) :
      Effect s op result.2
  | reads {fuel : ℕ} {target : ℕ → T} {numEntriesToRead : ℕ} {deleteEntries : Bool}
      {result : ReadResult T} (hpos : 0 < s.m_bufferSize)
      (hcall : s.readEntries fuel target numEntriesToRead deleteEntries = some result) :
      Effect s op result.buffer
  | erases (numEntries : ℕ) : Effect s op (s.erase numEntries).2
  | flushes (bZeroOutBuffer : Bool) : Effect s op (s.flush bZeroOutBuffer).2
  | resizes {size : ℕ} (entriesPerBlock : ℕ) (hsize : op.newSize = some size) :
      Effect s op { s.resized size with m_entriesPerBlock := entriesPerBlock }

theorem Effect.of_resizes {op : Op T} (hresizes : op.Resizes) {fuel : ℕ} {reply : Reply T}
    (h : s.exec fuel op = some (reply, s')) : Effect s op s' := by
  cases hsize : op.newSize with
  | none =>
    obtain ⟨_, _, hexec⟩ := exec_resize_failed (s := s) hresizes hsize fuel
    rw [hexec] at h
    obtain ⟨_, rfl⟩ := Prod.mk.inj (Option.some.inj h)
    exact .nothing
  | some size =>
    obtain ⟨entriesPerBlock, hexec⟩ := exec_resize (s := s) hsize fuel
    rw [hexec] at h
    obtain ⟨_, rfl⟩ := Prod.mk.inj (Option.some.inj h)
    exact .resizes entriesPerBlock hsize

theorem Step.of_newSize {op : Op T} {size : ℕ} (hsize : op.newSize = some size) {reply : Reply T}
    (hstep : Step s op reply s') : reply = .status true ∧
      ∃ entriesPerBlock, s' = { s.resized size with m_entriesPerBlock := entriesPerBlock } := by
  obtain ⟨fuel, hfuel⟩ := hstep
  obtain ⟨entriesPerBlock, hexec⟩ := exec_resize (s := s) hsize fuel
  rw [hexec] at hfuel
  obtain ⟨rfl, rfl⟩ := Prod.mk.inj (Option.some.inj hfuel)
  exact ⟨rfl, entriesPerBlock, rfl⟩

section BlockCalls

variable {op : Op T} {fuel : ℕ}

theorem Effect.of_writeBlock (h : s.Sized) {p : Option (ℕ → T)} {blockSize : ℕ}
    {bOverwrite : Bool} {result : ℤ × CVRingBuffer T}
    (hcall : s.writeBlock fuel p blockSize bOverwrite = some result) : Effect s op result.2 := by
  simp only [writeBlock, h.clampBufferSize_eq] at hcall
  cases p with
  | none => exact Option.some.inj hcall ▸ .nothing
  | some source =>
    simp only at hcall
    split_ifs at hcall with hrefused
    · exact Option.some.inj hcall ▸ .nothing
    · exact .writes (by omega) hcall

theorem Effect.of_writeBlockEntriesPerBlock (h : s.Sized) {p : Option (ℕ → T)}
    {entriesPerBlock blockSize : ℕ} {bOverwrite : Bool} {result : ℤ × CVRingBuffer T}
    (hcall : s.writeBlockEntriesPerBlock fuel p entriesPerBlock blockSize bOverwrite =
      some result) : Effect s op result.2 := by
  simp only [writeBlockEntriesPerBlock, h.clampBufferSize_eq] at hcall
  cases p with
  | none => exact Option.some.inj hcall ▸ .nothing
  | some source =>
    simp only at hcall
    split_ifs at hcall with hrefused hsize
    · exact Option.some.inj hcall ▸ .nothing
    · exact Option.some.inj hcall ▸ .nothing
    · exact .writes (by omega) hcall

theorem Effect.of_readBlock (h : s.Sized) {p : Option (ℕ → T)} {blockSize : ℕ}
    {deleteEntries : Bool} {result : ReadResult T}
    (hcall : s.readBlock fuel p blockSize deleteEntries = some result) :
    Effect s op result.buffer := by
  simp only [readBlock, h.clampBufferSize_eq] at hcall
  cases p with
  | none => exact Option.some.inj hcall ▸ .nothing
  | some target =>
    simp only at hcall
    split_ifs at hcall with hrefused hempty
    · exact Option.some.inj hcall ▸ .nothing
    · exact Option.some.inj hcall ▸ .nothing
    · exact .reads (by omega) hcall

theorem Effect.of_readBlockEntriesPerBlock (h : s.Sized) {p : Option (ℕ → T)}
    {entriesPerBlock blockSize : ℕ} {deleteEntries : Bool} {result : ReadResult T}
    (hcall : s.readBlockEntriesPerBlock fuel p entriesPerBlock blockSize deleteEntries =
      some result) : Effect s op result.buffer := by
  simp only [readBlockEntriesPerBlock, h.clampBufferSize_eq] at hcall
  cases p with
  | none => exact Option.some.inj hcall ▸ .nothing
  | some target =>
    simp only at hcall
    split_ifs at hcall with hrefused hempty
    · exact Option.some.inj hcall ▸ .nothing
    · exact Option.some.inj hcall ▸ .nothing
    · exact .reads (by omega) hcall

end BlockCalls

theorem Step.effect (h : s.Sized) {op : Op T} {reply : Reply T} (hstep : Step s op reply s') :
    Effect s op s' := by
  obtain ⟨fuel, hfuel⟩ := hstep
  cases op with
  | writeBlock p blockSize bOverwrite =>
    obtain ⟨result, hcall, hout⟩ := Option.map_eq_some_iff.mp hfuel
    obtain ⟨_, rfl⟩ := Prod.mk.inj hout
    exact .of_writeBlock h hcall
  | writeBlockEntriesPerBlock p entriesPerBlock blockSize bOverwrite =>
    obtain ⟨result, hcall, hout⟩ := Option.map_eq_some_iff.mp hfuel
    obtain ⟨_, rfl⟩ := Prod.mk.inj hout
    exact .of_writeBlockEntriesPerBlock h hcall
  | readBlock p blockSize deleteEntries =>
    obtain ⟨result, hcall, hout⟩ := Option.map_eq_some_iff.mp hfuel
    obtain ⟨_, rfl⟩ := Prod.mk.inj hout
    exact .of_readBlock h hcall
  | readBlockEntriesPerBlock p entriesPerBlock blockSize deleteEntries =>
    obtain ⟨result, hcall, hout⟩ := Option.map_eq_some_iff.mp hfuel
    obtain ⟨_, rfl⟩ := Prod.mk.inj hout
    exact .of_readBlockEntriesPerBlock h hcall
  | deleteEntry =>
    obtain ⟨_, rfl⟩ := Prod.mk.inj (Option.some.inj hfuel)
    exact .erases 1
  | deleteBlock numEntries =>
    obtain ⟨_, rfl⟩ := Prod.mk.inj (Option.some.inj hfuel)
    exact .erases (toUnsigned numEntries)
  | flush bZeroOutBuffer =>
    obtain ⟨_, rfl⟩ := Prod.mk.inj (Option.some.inj hfuel)
    exact .flushes bZeroOutBuffer
  | setMaxBufferSize _ _ => exact .of_resizes trivial hfuel
  | setMaxBufferSizeBlocks _ _ _ => exact .of_resizes trivial hfuel

/-! ### Every call keeps the invariant -/

/-- A flush empties a buffer whose vector has the size that it counts with, and keeps the size. -/
theorem Sized.flush_eq (h : s.Sized) (bZeroOutBuffer : Bool) :
    ∃ cells : List T, cells.length = s.m_bufferSize ∧
      s.flush bZeroOutBuffer = (true, { s.resetIndices with m_dataBuffer := cells }) := by
  have hclamp : s.resetIndices.clampBufferSize = s.resetIndices := by
    rw [clampBufferSize, if_neg]
    exact Eq.not_lt h
  cases bZeroOutBuffer with
  | false => exact ⟨s.m_dataBuffer, h, rfl⟩
  | true =>
    simp only [flush, hclamp, if_true]
    split_ifs
    · exact ⟨s.m_dataBuffer, h, rfl⟩
    · exact ⟨s.m_dataBuffer.map fun _ ↦ 0, by rw [List.length_map]; exact h, rfl⟩

theorem Indexed.flush (h : Indexed N s) (bZeroOutBuffer : Bool) :
    Indexed N (s.flush bZeroOutBuffer).2 := by
  obtain ⟨cells, hcells, hflush⟩ := h.sized.flush_eq bZeroOutBuffer
  rw [hflush]
  exact .resetIndices (s := { s with m_dataBuffer := cells }) (hcells.trans h.bufferSize_eq)
    h.bufferSize_eq h.pos

/-- Every call that does not resize the vector keeps the index invariant. -/
theorem Indexed.step (h : Indexed N s) {op : Op T} (hop : op.newSize = none) {reply : Reply T}
    (hstep : Step s op reply s') : Indexed N s' := by
  cases hstep.effect h.sized with
  | nothing => exact h
  | writes _ hcall => exact h.writeEntries hcall
  | reads _ hcall => exact h.readEntries hcall
  | erases numEntries => exact h.erase numEntries
  | flushes bZeroOutBuffer => exact h.flush bZeroOutBuffer
  | resizes _ hsize =>
    rw [hop] at hsize
    cases hsize

/-- Below `2 ^ 31` entries of capacity, every call that does not resize returns. -/
theorem Indexed.total (h : Indexed N s) (hN : N < 2 ^ 31) {op : Op T} (hop : ¬ op.Resizes) :
    ∃ reply s', Step s op reply s' := by
  have hsize := h.dataSize_le
  have hlow := h.readIdx_lt
  have hwrite : ∀ bOverwrite : Bool, op.IsWrite bOverwrite → ∃ reply s', Step s op reply s' := by
    intro bOverwrite hiswrite
    rcases hiswrite.accepted_or h with ⟨source, writeSize, haccepted⟩ | ⟨value, _, hsame⟩
    · have hle := haccepted.size_le
      cases bOverwrite with
      | false =>
        obtain ⟨s', hstep, _⟩ := h.step_offer (by omega) haccepted
        exact ⟨_, s', hstep⟩
      | true =>
        obtain ⟨s', hstep, _⟩ := h.step_overwrite (by omega) haccepted
        exact ⟨_, s', hstep⟩
    · exact ⟨_, s, 0, hsame 0⟩
  have hread : ∀ deleteEntries : Bool, op.IsRead deleteEntries →
      ∃ reply s', Step s op reply s' := by
    intro deleteEntries hisread
    rcases hisread.accepted_or h with ⟨target, numEntriesToRead, haccepted⟩ | ⟨target, hsame⟩
    · rcases hsize.lt_or_eq with hroom | hfull
      · exact ⟨_, _, h.step_read hroom haccepted (by omega)
          (addressable_of_le h.pos (by omega) _ _ _)⟩
      · exact ⟨_, _, h.step_read_full hfull (by omega) haccepted⟩
    · exact ⟨_, s, 0, hsame 0⟩
  cases op with
  | writeBlock _ _ bOverwrite => exact hwrite bOverwrite rfl
  | writeBlockEntriesPerBlock _ _ _ bOverwrite => exact hwrite bOverwrite rfl
  | readBlock _ _ deleteEntries => exact hread deleteEntries rfl
  | readBlockEntriesPerBlock _ _ _ deleteEntries =>
    exact hread deleteEntries rfl
  | deleteEntry => exact ⟨_, _, step_deleteEntry s⟩
  | deleteBlock numEntries => exact ⟨_, _, step_deleteBlock s numEntries⟩
  | flush bZeroOutBuffer => exact ⟨_, _, step_flush s bZeroOutBuffer⟩
  | setMaxBufferSize _ _ => exact absurd trivial hop
  | setMaxBufferSizeBlocks _ _ _ => exact absurd trivial hop

end RdbLibs.Buffer.CVRingBuffer
