import RdbLibs.Buffer.CRingBuffer.Reachable

/-!
# The two write overloads of `CRingBuffer`

The write of four arguments, without the permission to overwrite, should be the write of three
arguments with the product of its sizes, and neither should touch an entry that is stored. Both are
so while there is room for the block, and there only: past it the write of three arguments answers
`-5`, and the write of four arguments goes on over the oldest entries (`overloads_agree_iff`).
-/

set_option autoImplicit false
set_option relaxedAutoImplicit false

namespace RdbLibs.Buffer.CRingBuffer

open MachineWord WhileLoop CheckedMemory
open CVRingBuffer (Indexed Op Reply)

variable {T : Type*} [Zero T] {N : ℕ} {s s' : CRingBuffer T} {v : CVRingBuffer T}

/-- The entries from `m_readIdx` on, oldest first. -/
def stored (s : CRingBuffer T) : List T := s.view.stored

/-- The call changes no entry that was stored. -/
def KeepsStored (s : CRingBuffer T) (op : Op T) : Prop :=
  ∀ reply s', Step s op reply s' → s.stored <+: s'.stored

/-- The write of four arguments has the answer and the state of the write of three arguments, and
both keep what is stored. -/
def OverloadsAgree (s : CRingBuffer T) (pBuff : Option (ℕ → T)) (entriesPerBlock blockSize : ℕ) :
    Prop :=
  (∃ reply s',
    Step s (.writeBlockEntriesPerBlock pBuff entriesPerBlock blockSize false) reply s' ∧
    Step s (.writeBlock pBuff (toSize (entriesPerBlock * blockSize)) false) reply s') ∧
  KeepsStored s (.writeBlockEntriesPerBlock pBuff entriesPerBlock blockSize false) ∧
  KeepsStored s (.writeBlock pBuff (toSize (entriesPerBlock * blockSize)) false)

/-! ### The calls -/

/-- A call that has the same answer whatever the fuel and changes nothing. -/
theorem step_iff_of_exec_eq {op : Op T} {value : ℤ}
    (hexec : ∀ fuel, s.exec fuel op = some (.ok (.count value, s))) (reply : Reply T) :
    Step s op reply s' ↔ reply = .count value ∧ s' = s := by
  constructor
  · rintro ⟨fuel, hfuel⟩
    rw [hexec] at hfuel
    obtain ⟨rfl, rfl⟩ := Prod.mk.inj (Except.ok.inj (Option.some.inj hfuel))
    exact ⟨rfl, rfl⟩
  · rintro ⟨rfl, rfl⟩
    exact ⟨0, hexec 0⟩

theorem keepsStored_of_exec_eq {op : Op T} {value : ℤ}
    (hexec : ∀ fuel, s.exec fuel op = some (.ok (.count value, s))) : KeepsStored s op := by
  intro reply s' hstep
  obtain ⟨_, rfl⟩ := (step_iff_of_exec_eq hexec reply).mp hstep
  exact List.prefix_refl _

/-- A write without memory or without a source answers `-1`. -/
theorem exec_write_null {pBuff : Option (ℕ → T)} (hnull : pBuff = none ∨ s.m_pDataBuffer = none)
    {op : Op T} {blockSize : ℕ} (hop : op = .writeBlock pBuff blockSize false ∨
      ∃ entriesPerBlock, op = .writeBlockEntriesPerBlock pBuff entriesPerBlock blockSize false)
    (fuel : ℕ) : s.exec fuel op = some (.ok (.count (-1), s)) := by
  rcases hop with rfl | ⟨entriesPerBlock, rfl⟩
  · rcases hnull with rfl | hmemory
    · cases hmemory : s.m_pDataBuffer <;> simp only [exec, writeBlock, hmemory] <;> rfl
    · simp only [exec, writeBlock, hmemory]
      rfl
  · rcases hnull with rfl | hmemory
    · cases hmemory : s.m_pDataBuffer <;>
        simp only [exec, writeBlockEntriesPerBlock, hmemory] <;> rfl
    · simp only [exec, writeBlockEntriesPerBlock, hmemory]
      rfl

/-- A write of three arguments as long as the buffer or longer answers `-2`. -/
theorem exec_writeBlock_refused (h : Indexed N v) (source : ℕ → T) {blockSize : ℕ}
    (hle : N ≤ blockSize) (fuel : ℕ) :
    (ofVector v).exec fuel (.writeBlock (some source) blockSize false) =
      some (.ok (.count (-2), ofVector v)) := by
  have hsize : (ofVector v).m_bufferSize = N := h.bufferSize_eq
  have hrefused : (ofVector v).m_bufferSize < 1 ∨ (ofVector v).m_bufferSize ≤ blockSize :=
    .inr (hsize.trans_le hle)
  exact congrArg (Option.map (Except.map countReply)) (if_pos hrefused)

/-- A write of four arguments whose sizes are not accepted answers `-2` or `-3`. -/
theorem exec_writeBlockEntriesPerBlock_refused (h : Indexed N v) (source : ℕ → T)
    {entriesPerBlock blockSize : ℕ} (hsizes : ¬ (blockSize < N ∧
      1 ≤ toSize (entriesPerBlock * blockSize) ∧ toSize (entriesPerBlock * blockSize) < N)) :
    ∃ value : ℤ, ∀ fuel, (ofVector v).exec fuel
        (.writeBlockEntriesPerBlock (some source) entriesPerBlock blockSize false) =
      some (.ok (.count value, ofVector v)) := by
  have hpos := h.pos
  have hsize : (ofVector v).m_bufferSize = N := h.bufferSize_eq
  by_cases hblock : blockSize < N
  · have haccepted : ¬ ((ofVector v).m_bufferSize < 1 ∨
        (ofVector v).m_bufferSize ≤ blockSize) := by
      omega
    have hcount : toSize (entriesPerBlock * blockSize) < 1 ∨
        (ofVector v).m_bufferSize ≤ toSize (entriesPerBlock * blockSize) := by
      omega
    exact ⟨-3, fun _ ↦ congrArg (Option.map (Except.map countReply))
      ((if_neg haccepted).trans (if_pos hcount))⟩
  · have hrefused : (ofVector v).m_bufferSize < 1 ∨ (ofVector v).m_bufferSize ≤ blockSize := by
      omega
    exact ⟨-2, fun _ ↦ congrArg (Option.map (Except.map countReply)) (if_pos hrefused)⟩

/-- A call that answers as a write over a vector does has its answers and leaves its states. -/
theorem step_iff_of_exec_map {op : Op T} {write : ℕ → Option (ℤ × CVRingBuffer T)}
    (hexec : ∀ fuel, s.exec fuel op =
      ((write fuel).map ofWriteResult).map (Except.map countReply)) {reply : Reply T} :
    Step s op reply s' ↔ ∃ fuel value after, write fuel = some (value, after) ∧
      reply = .count value ∧ s' = ofVector after := by
  constructor
  · rintro ⟨fuel, hfuel⟩
    rw [hexec] at hfuel
    obtain ⟨result, hcall, hout⟩ := of_map_eq_ok hfuel
    obtain ⟨⟨value, after⟩, hwrite, hresult⟩ := Option.map_eq_some_iff.mp hcall
    obtain rfl := Except.ok.inj hresult
    obtain ⟨rfl, rfl⟩ := Prod.mk.inj hout
    exact ⟨fuel, value, after, hwrite, rfl, rfl⟩
  · rintro ⟨fuel, value, after, hwrite, rfl, rfl⟩
    refine ⟨fuel, ?_⟩
    rw [hexec, hwrite]
    rfl

/-- An accepted write of three arguments does what the write loop over a vector does. -/
theorem step_writeBlock_iff (h : Indexed N v) {source : ℕ → T} {blockSize : ℕ}
    (hlt : blockSize < N) {reply : Reply T} :
    Step (ofVector v) (.writeBlock (some source) blockSize false) reply s' ↔
      ∃ fuel value after, v.writeEntries fuel source blockSize false = some (value, after) ∧
        reply = .count value ∧ s' = ofVector after := by
  have hpos := h.pos
  have hsize : (ofVector v).m_bufferSize = N := h.bufferSize_eq
  have hrefused : ¬ ((ofVector v).m_bufferSize < 1 ∨ (ofVector v).m_bufferSize ≤ blockSize) := by
    omega
  refine step_iff_of_exec_map fun fuel ↦ ?_
  rw [← loop_writePass h]
  exact congrArg (Option.map (Except.map countReply)) (if_neg hrefused)

/-- An accepted write of four arguments runs its loop. -/
theorem exec_writeBlockEntriesPerBlock (h : Indexed N v) {source : ℕ → T}
    {entriesPerBlock blockSize : ℕ} (hblock : blockSize < N)
    (hone : 1 ≤ toSize (entriesPerBlock * blockSize))
    (hlt : toSize (entriesPerBlock * blockSize) < N) (fuel : ℕ) :
    (ofVector v).exec fuel
        (.writeBlockEntriesPerBlock (some source) entriesPerBlock blockSize false) =
      (loop (writePassEntriesPerBlock source (toSize (entriesPerBlock * blockSize)) false) fuel
        ⟨ofVector v, 0⟩).map (Except.map countReply) := by
  have hpos := h.pos
  have hsize : (ofVector v).m_bufferSize = N := h.bufferSize_eq
  have hrefused : ¬ ((ofVector v).m_bufferSize < 1 ∨ (ofVector v).m_bufferSize ≤ blockSize) := by
    omega
  have hcount : ¬ (toSize (entriesPerBlock * blockSize) < 1 ∨
      (ofVector v).m_bufferSize ≤ toSize (entriesPerBlock * blockSize)) := by
    omega
  exact congrArg (Option.map (Except.map countReply)) ((if_neg hrefused).trans (if_neg hcount))

/-- Where there is room for its block, so does an accepted write of four arguments. -/
theorem step_writeBlockEntriesPerBlock_iff (h : Indexed N v) {source : ℕ → T}
    {entriesPerBlock blockSize : ℕ} (hblock : blockSize < N)
    (hone : 1 ≤ toSize (entriesPerBlock * blockSize))
    (hlt : toSize (entriesPerBlock * blockSize) < N)
    (hword : toSize (entriesPerBlock * blockSize) < 2 ^ 32)
    (hfits : toSize (entriesPerBlock * blockSize) ≤ N - v.m_currentDataSize) {reply : Reply T} :
    Step (ofVector v) (.writeBlockEntriesPerBlock (some source) entriesPerBlock blockSize false)
        reply s' ↔
      Step (ofVector v) (.writeBlock (some source) (toSize (entriesPerBlock * blockSize)) false)
        reply s' := by
  rw [step_writeBlock_iff h hlt]
  refine step_iff_of_exec_map fun fuel ↦ ?_
  rw [exec_writeBlockEntriesPerBlock h hblock hone hlt,
    loop_writePassEntriesPerBlock h source hword hfits]

/-- Without the permission to overwrite, the write loop over a vector only appends. -/
theorem stored_prefix_of_writeEntries (h : Indexed N v) {source : ℕ → T} {writeSize fuel : ℕ}
    {value : ℤ} {after : CVRingBuffer T}
    (hwrite : v.writeEntries fuel source writeSize false = some (value, after)) :
    v.stored <+: after.stored := by
  refine loop_invariant
    (fun l : CVRingBuffer.WriteLoop T ↦ Indexed N l.buffer ∧ v.stored <+: l.buffer.stored)
    (fun r : ℤ × CVRingBuffer T ↦ v.stored <+: r.2.stored) ?_ ?_ ⟨h, List.prefix_refl _⟩ hwrite
  · rintro l next ⟨hl, hprefix⟩ hpass
    by_cases hmore : l.entriesWritten < writeSize
    · rcases hl.dataSize_le.lt_or_eq with hroom | hfull
      · rw [hl.writePass_room source false hmore hroom] at hpass
        obtain rfl := Pass.again.inj hpass
        refine ⟨hl.storeNext hroom _, ?_⟩
        change v.stored <+: (l.buffer.storeNext (source l.entriesWritten)).stored
        rw [CVRingBuffer.stored_storeNext hl hroom]
        exact hprefix.trans (List.prefix_append _ _)
      · rw [hl.writePass_full_refuse source hmore hfull] at hpass
        cases hpass
    · rw [CVRingBuffer.writePass_done hmore] at hpass
      cases hpass
  · rintro l out ⟨hl, hprefix⟩ hpass
    by_cases hmore : l.entriesWritten < writeSize
    · rcases hl.dataSize_le.lt_or_eq with hroom | hfull
      · rw [hl.writePass_room source false hmore hroom] at hpass
        cases hpass
      · rw [hl.writePass_full_refuse source hmore hfull] at hpass
        obtain rfl := Pass.leave.inj hpass
        exact hprefix
    · rw [CVRingBuffer.writePass_done hmore] at hpass
      obtain rfl := Pass.leave.inj hpass
      exact hprefix

/-! ### Agreement -/

/-- The write of three arguments keeps what is stored, whatever its size. -/
theorem keepsStored_writeBlock (h : Indexed N v) (source : ℕ → T) (blockSize : ℕ) :
    KeepsStored (ofVector v) (.writeBlock (some source) blockSize false) := by
  rcases Nat.lt_or_ge blockSize N with hlt | hle
  · intro reply s' hstep
    obtain ⟨fuel, value, after, hwrite, _, rfl⟩ := (step_writeBlock_iff h hlt).mp hstep
    exact stored_prefix_of_writeEntries h hwrite
  · exact keepsStored_of_exec_eq (exec_writeBlock_refused h source hle)

omit [Zero T] in
/-- The write of three arguments stops at the slot of the oldest entry where there is no room for
the block. That is not the slot behind the block, which is less than a whole round further. -/
theorem writeIdx_ne_of_full (h : Indexed N v) {v' : CVRingBuffer T} (hv' : Indexed N v')
    (hread : v'.m_readIdx = v.m_readIdx) (hfull : v'.m_currentDataSize = N) {count : ℕ}
    (hlt : count < N) (hfits : ¬count ≤ N - v.m_currentDataSize) :
    v'.m_writeIdx ≠ (v.m_writeIdx + count) % N := by
  have hsizes := h.dataSize_le
  have hmeet : v'.m_writeIdx = v.m_readIdx :=
    (hv'.writeIdx_eq_readIdx_iff.mpr (.inr hfull)).trans hread
  have hpast : (v.m_readIdx + N) % N ≠ (v.m_readIdx + (v.m_currentDataSize + count)) % N :=
    CircularWindow.slot_ne (by omega) (by omega)
  rw [hmeet, h.writeIdx_eq, Nat.mod_add_mod, Nat.add_assoc]
  rwa [Nat.add_mod_right, Nat.mod_eq_of_lt h.readIdx_lt] at hpast

/-- For sizes that both overloads accept, they agree and keep what is stored if and only if there is
room for the block, of fewer than `2 ^ 32` entries. -/
theorem Indexed.overloadsAgree_iff (h : Indexed N v) (source : ℕ → T)
    {entriesPerBlock blockSize : ℕ} (hblock : blockSize < N)
    (hone : 1 ≤ toSize (entriesPerBlock * blockSize))
    (hlt : toSize (entriesPerBlock * blockSize) < N) :
    OverloadsAgree (ofVector v) (some source) entriesPerBlock blockSize ↔
      toSize (entriesPerBlock * blockSize) ≤ N - v.m_currentDataSize ∧
        toSize (entriesPerBlock * blockSize) < 2 ^ 32 := by
  constructor
  · rintro ⟨⟨reply, s', hblocks, hentries⟩, _, _⟩
    obtain ⟨fuel, hfuel⟩ := hblocks
    rw [exec_writeBlockEntriesPerBlock h hblock hone hlt] at hfuel
    obtain ⟨result, hcall, hout⟩ := of_map_eq_ok hfuel
    obtain ⟨hword, hwriteIdx⟩ := of_loop_writePassEntriesPerBlock h hcall
    refine ⟨?_, hword⟩
    by_contra hfits
    obtain ⟨fuel', value, after, hwrite, _, rfl⟩ := (step_writeBlock_iff h hlt).mp hentries
    have hsame : result.2 = ofVector after := (Prod.mk.inj hout).2
    obtain ⟨v', hreturns, hv', hread, hstored⟩ :=
      h.returns_offer source hword _ 0 (Nat.zero_add _)
    obtain ⟨_, rfl⟩ := Prod.mk.inj (hreturns.unique ⟨fuel', hwrite⟩)
    have hfull : v'.m_currentDataSize = N := by
      have hsizes := h.dataSize_le
      rw [← CVRingBuffer.length_stored, hstored, List.length_append, CVRingBuffer.length_stored,
        CVRingBuffer.length_block]
      omega
    apply writeIdx_ne_of_full h hv' hread hfull hlt hfits
    rw [← hwriteIdx, hsame]
    rfl
  · rintro ⟨hfits, hword⟩
    obtain ⟨v', ⟨fuel, hwrite⟩, _⟩ := h.returns_offer source hword _ 0 (Nat.zero_add _)
    have hiff : ∀ {reply : Reply T} {s' : CRingBuffer T},
        Step (ofVector v) (.writeBlockEntriesPerBlock (some source) entriesPerBlock blockSize false)
          reply s' ↔ Step (ofVector v)
            (.writeBlock (some source) (toSize (entriesPerBlock * blockSize)) false) reply s' :=
      step_writeBlockEntriesPerBlock_iff h hblock hone hlt hword hfits
    have hentries := (step_writeBlock_iff h hlt).mpr ⟨fuel, _, v', hwrite, rfl, rfl⟩
    refine ⟨⟨_, _, hiff.mpr hentries, hentries⟩, ?_, keepsStored_writeBlock h source _⟩
    intro reply s' hstep
    exact keepsStored_writeBlock h source _ reply s' (hiff.mp hstep)

/-- In a settled state, the write of three arguments without the permission to overwrite keeps what
is stored, and so does the write of four arguments if its sizes are not accepted. If they are, the
two agree and keep what is stored if and only if there is nothing to write from or to, or there is
room for the block, of fewer than `2 ^ 32` entries. -/
theorem overloads_agree_iff (h : Settled s) (hsize : s.m_bufferSize = N)
    (pBuff : Option (ℕ → T)) :
    (∀ blockSize, KeepsStored s (.writeBlock pBuff blockSize false)) ∧
    ∀ entriesPerBlock blockSize,
      if blockSize < N ∧ 1 ≤ toSize (entriesPerBlock * blockSize) ∧
          toSize (entriesPerBlock * blockSize) < N then
        (OverloadsAgree s pBuff entriesPerBlock blockSize ↔
          (pBuff = none ∨ s.m_pDataBuffer = none) ∨
            toSize (entriesPerBlock * blockSize) ≤ N - s.m_currentDataSize ∧
              toSize (entriesPerBlock * blockSize) < 2 ^ 32)
      else KeepsStored s (.writeBlockEntriesPerBlock pBuff entriesPerBlock blockSize false) := by
  by_cases hnull : pBuff = none ∨ s.m_pDataBuffer = none
  · have hentries : ∀ blockSize fuel, s.exec fuel (.writeBlock pBuff blockSize false) =
        some (.ok (.count (-1), s)) := fun _ ↦ exec_write_null hnull (.inl rfl)
    have hblocks : ∀ entriesPerBlock blockSize fuel, s.exec fuel
        (.writeBlockEntriesPerBlock pBuff entriesPerBlock blockSize false) =
        some (.ok (.count (-1), s)) := fun entriesPerBlock _ ↦
      exec_write_null hnull (.inr ⟨entriesPerBlock, rfl⟩)
    refine ⟨fun blockSize ↦ keepsStored_of_exec_eq (hentries blockSize), ?_⟩
    intro entriesPerBlock blockSize
    have hkeeps := keepsStored_of_exec_eq (hblocks entriesPerBlock blockSize)
    split_ifs
    · refine iff_of_true ⟨⟨.count (-1), s, ⟨0, hblocks _ _ 0⟩, ⟨0, hentries _ 0⟩⟩, hkeeps, ?_⟩
        (.inl hnull)
      exact keepsStored_of_exec_eq (hentries _)
    · exact hkeeps
  · obtain ⟨source, rfl⟩ : ∃ source, pBuff = some source :=
      Option.ne_none_iff_exists'.mp fun hnone ↦ hnull (.inl hnone)
    obtain ⟨v, hv, rfl⟩ := h.sound.exists_vector fun hnone ↦ hnull (.inr hnone)
    have hindexed : Indexed N v := hsize ▸ hv
    refine ⟨keepsStored_writeBlock hindexed source, ?_⟩
    intro entriesPerBlock blockSize
    by_cases hsizes : blockSize < N ∧ 1 ≤ toSize (entriesPerBlock * blockSize) ∧
        toSize (entriesPerBlock * blockSize) < N
    · rw [if_pos hsizes, or_iff_right hnull]
      exact Indexed.overloadsAgree_iff hindexed source hsizes.1 hsizes.2.1 hsizes.2.2
    · rw [if_neg hsizes]
      obtain ⟨value, hexec⟩ := exec_writeBlockEntriesPerBlock_refused hindexed source hsizes
      exact keepsStored_of_exec_eq hexec

/-- One entry in a buffer of two. -/
theorem settled_one : Settled (⟨some [7, 0], 2, 1, 1, 1, 0⟩ : CRingBuffer ℕ) := by
  refine .step (.built (.entries true : Built 2 ⟨some [0, 0], 2, 1, 0, 0, 0⟩)) ⟨?_, ?_⟩
    (⟨2, rfl⟩ : Step _ (.writeBlock (some fun _ ↦ 7) 1 false) (.count 1) _)
  · intro size hsize
    cases hsize
  · intro source entriesPerBlock blockSize hop
    cases hop

/-- A buffer of two that holds one entry. -/
theorem overloads_agree_iff_one :
    (∀ blockSize, KeepsStored (⟨some [7, 0], 2, 1, 1, 1, 0⟩ : CRingBuffer ℕ)
      (.writeBlock (some fun _ ↦ 8) blockSize false)) ∧
    ∀ entriesPerBlock blockSize,
      if blockSize < 2 ∧ 1 ≤ toSize (entriesPerBlock * blockSize) ∧
          toSize (entriesPerBlock * blockSize) < 2 then
        (OverloadsAgree (⟨some [7, 0], 2, 1, 1, 1, 0⟩ : CRingBuffer ℕ) (some fun _ ↦ 8)
            entriesPerBlock blockSize ↔
          ((some fun _ ↦ 8 : Option (ℕ → ℕ)) = none ∨
            (⟨some [7, 0], 2, 1, 1, 1, 0⟩ : CRingBuffer ℕ).m_pDataBuffer = none) ∨
          toSize (entriesPerBlock * blockSize) ≤
              2 - (⟨some [7, 0], 2, 1, 1, 1, 0⟩ : CRingBuffer ℕ).m_currentDataSize ∧
            toSize (entriesPerBlock * blockSize) < 2 ^ 32)
      else KeepsStored (⟨some [7, 0], 2, 1, 1, 1, 0⟩ : CRingBuffer ℕ)
        (.writeBlockEntriesPerBlock (some fun _ ↦ 8) entriesPerBlock blockSize false) :=
  overloads_agree_iff settled_one rfl (some fun _ ↦ 8)

/-- A buffer of two that is full: the write of one entry answers `-5` in the overload of three
arguments, and in the overload of four it answers 1 and has replaced the oldest entry. -/
theorem full_buffer_overloads_differ :
    Reachable (⟨some [7, 8], 2, 1, 2, 0, 0⟩ : CRingBuffer ℕ) ∧
      Step (⟨some [7, 8], 2, 1, 2, 0, 0⟩ : CRingBuffer ℕ) (.writeBlock (some fun _ ↦ 9) 1 false)
        (.count (-5)) ⟨some [7, 8], 2, 1, 2, 0, 0⟩ ∧
      Step (⟨some [7, 8], 2, 1, 2, 0, 0⟩ : CRingBuffer ℕ)
        (.writeBlockEntriesPerBlock (some fun _ ↦ 9) 1 1 false) (.count 1)
        ⟨some [9, 8], 2, 1, 2, 1, 0⟩ ∧
      ¬ OverloadsAgree (⟨some [7, 8], 2, 1, 2, 0, 0⟩ : CRingBuffer ℕ) (some fun _ ↦ 9) 1 1 := by
  have hblocks : Step (⟨some [7, 8], 2, 1, 2, 0, 0⟩ : CRingBuffer ℕ)
      (.writeBlockEntriesPerBlock (some fun _ ↦ 9) 1 1 false) (.count 1)
      ⟨some [9, 8], 2, 1, 2, 1, 0⟩ := ⟨2, rfl⟩
  refine ⟨?_, ⟨1, rfl⟩, hblocks, ?_⟩
  · exact .step settled_one.reachable
      (⟨2, rfl⟩ : Step _ (.writeBlock (some fun _ ↦ 8) 1 false) (.count 1) _)
  · rintro ⟨_, hkeeps, _⟩
    exact absurd (hkeeps _ _ hblocks) (by decide)

end RdbLibs.Buffer.CRingBuffer
