import RdbLibs.Buffer.CVRingBuffer.Reachable

/-!
# Index safety of `CVRingBuffer`

Without resizing, no sequence of calls leads out of the index invariant, and every call of it
returns (`index_safety`). Resizing does lead out of it: `setMaxBufferSize` clears the vector but
not the counters, although the comment of `setBufferSize` says that it will flush the buffer. It
has the effect of a flush (`Flushed`) exactly when there was nothing to flush and the indices
already lie in the new vector (`resize_flushes_iff`).
-/

set_option autoImplicit false
set_option relaxedAutoImplicit false

namespace RdbLibs.Buffer.CVRingBuffer

open Runs

variable {T : Type*} [Zero T]

/-- Every finite sequence of calls that do not resize runs to its end from a constructed buffer, and
there the counters describe a queue. -/
theorem index_safety {N : ℕ} (hpos : 1 ≤ N) (hN : N < 2 ^ 31) {s₀ : CVRingBuffer T}
    (hbuilt : Built N s₀) (ops : List (Op T)) (hops : ∀ op ∈ ops, ¬ op.Resizes) :
    (∃ trace s, Run Step s₀ trace s ∧ trace.map Call.label = ops) ∧
      ∀ trace s, Run Step s₀ trace s → trace.map Call.label = ops →
        s.m_readIdx < N ∧ s.m_writeIdx < N ∧ s.m_currentDataSize ≤ N ∧
          s.m_writeIdx = (s.m_readIdx + s.m_currentDataSize) % N := by
  have hstart : Indexed N s₀ := (hbuilt.indexed hpos).1
  have htotal : ∀ (before : CVRingBuffer T) (op : Op T), ¬ op.Resizes → Indexed N before →
      ∃ reply after, Step before op reply after ∧ Indexed N after := by
    intro before op hop hbefore
    obtain ⟨reply, after, hstep⟩ := hbefore.total hN hop
    exact ⟨reply, after, hstep, hbefore.step (Op.newSize_of_not_resizes hop) hstep⟩
  constructor
  · obtain ⟨trace, s, hrun, hlabels, _⟩ :=
      Run.exists_of_total (Indexed N) (fun op ↦ ¬ op.Resizes) htotal ops s₀ hstart hops
    exact ⟨trace, s, hrun, hlabels⟩
  · intro trace s hrun hlabels
    have h : Indexed N s := by
      refine hrun.invariant (Indexed N) (fun op ↦ ¬ op.Resizes) ?_ ?_ hstart
      · intro before op reply after hop hbefore hstep
        exact hbefore.step (Op.newSize_of_not_resizes hop) hstep
      · intro call hcall
        exact hops call.label (hlabels ▸ List.mem_map_of_mem hcall)
    exact ⟨h.readIdx_lt, h.writeIdx_lt, h.dataSize_le, h.writeIdx_eq⟩

/-- A buffer of two entries that is filled, overwritten and emptied by one entry. -/
theorem index_safety_two :
    (∃ trace s, Run Step (ofCells [0, 0] 0 0 0) trace s ∧
      trace.map Call.label =
        [.writeBlock (some id) 2 true, .writeBlock (some id) 1 true, .deleteEntry]) ∧
      ∀ trace s, Run Step (ofCells [0, 0] 0 0 0) trace s →
        trace.map Call.label =
          [.writeBlock (some id) 2 true, .writeBlock (some id) 1 true, .deleteEntry] →
        s.m_readIdx < 2 ∧ s.m_writeIdx < 2 ∧ s.m_currentDataSize ≤ 2 ∧
          s.m_writeIdx = (s.m_readIdx + s.m_currentDataSize) % 2 :=
  index_safety (by decide) (by decide) built_ofCells_two _ (by simp [Op.Resizes])

/-! ### Resizing -/

/-- The counters from which a resizing to `size` entries is harmless: the buffer is empty, and its
two indices are one slot of the new vector. -/
def EmptyWithin (s : CVRingBuffer T) (size : ℕ) : Prop :=
  s.m_currentDataSize = 0 ∧ s.m_readIdx = s.m_writeIdx ∧ s.m_readIdx < size

/-- What a flushed buffer of capacity `size` is: empty for its count and for every read, with both
indices in the vector, and on the way to states of the index invariant only, as long as later
resizings meet a buffer that is empty within the size that they install. -/
structure Flushed (size : ℕ) (s : CVRingBuffer T) : Prop where
  dataSize_eq : s.m_currentDataSize = 0
  reads_nothing : ∀ {op : Op T} {target : ℕ → T} {numEntriesToRead : ℕ} {deleteEntries : Bool},
    AcceptedRead size op target numEntriesToRead deleteEntries →
      Step s op (.read 0 (some target)) s
  readIdx_lt : s.m_readIdx < size
  writeIdx_lt : s.m_writeIdx < size
  stays_indexed : ∀ {trace : List (Call (CVRingBuffer T) (Op T) (Reply T))} {s' : CVRingBuffer T},
    Run Step s trace s' →
      (∀ call ∈ trace, ∀ next, call.label.newSize = some next → call.before.EmptyWithin next) →
        Indexed s'.m_bufferSize s'

omit [Zero T] in
theorem EmptyWithin.fits {s : CVRingBuffer T} {size : ℕ} (h : s.EmptyWithin size) :
    s.Fits size := by
  obtain ⟨hempty, hindices, hlt⟩ := h
  refine ⟨hlt, hindices ▸ hlt, by omega, ?_⟩
  rw [hempty, Nat.add_zero, Nat.mod_eq_of_lt hlt, hindices]

/-- One call of a run whose resizings meet an empty buffer. -/
theorem Indexed.step_of_emptyWithin {s s' : CVRingBuffer T} (h : Indexed s.m_bufferSize s)
    {op : Op T} {reply : Reply T} (hstep : Step s op reply s')
    (hresize : ∀ next, op.newSize = some next → s.EmptyWithin next) :
    Indexed s'.m_bufferSize s' := by
  cases hsize : op.newSize with
  | none =>
    have hnext := h.step hsize hstep
    rw [hnext.bufferSize_eq]
    exact hnext
  | some next =>
    obtain ⟨_, entriesPerBlock, rfl⟩ := hstep.of_newSize hsize
    exact (indexed_resized_iff s next entriesPerBlock).mpr (hresize next hsize).fits

theorem Indexed.run_of_emptyWithin {s s' : CVRingBuffer T}
    {trace : List (Call (CVRingBuffer T) (Op T) (Reply T))} (hrun : Run Step s trace s') :
    Indexed s.m_bufferSize s →
      (∀ call ∈ trace, ∀ next, call.label.newSize = some next → call.before.EmptyWithin next) →
        Indexed s'.m_bufferSize s' := by
  induction hrun with
  | nil s => intro h _; exact h
  | cons hfirst _ ih =>
    intro h hresize
    refine ih (h.step_of_emptyWithin hfirst (hresize _ List.mem_cons_self)) ?_
    intro call hcall
    exact hresize call (List.mem_cons_of_mem _ hcall)

theorem Indexed.flushed {s : CVRingBuffer T} {size : ℕ} (h : Indexed size s)
    (hempty : s.m_currentDataSize = 0) : Flushed size s where
  dataSize_eq := hempty
  reads_nothing := by
    intro op target numEntriesToRead deleteEntries haccepted
    refine ⟨0, ?_⟩
    rw [haccepted.exec_eq h, if_pos hempty]
  readIdx_lt := h.readIdx_lt
  writeIdx_lt := h.writeIdx_lt
  stays_indexed := by
    intro trace s' hrun hresize
    refine Indexed.run_of_emptyWithin hrun ?_ hresize
    rw [h.bufferSize_eq]
    exact h

/-- A resizing that answers `true` has flushed the buffer if and only if the buffer was empty within
the size that it installs. -/
theorem resize_flushes_iff {s s' : CVRingBuffer T} {op : Op T} (hresizes : op.Resizes)
    (hstep : Step s op (.status true) s') :
    ∃ size, op.newSize = some size ∧ s'.m_bufferSize = size ∧
      (Flushed size s' ↔ s.EmptyWithin size) := by
  cases hsize : op.newSize with
  | none =>
    obtain ⟨fuel, hfuel⟩ := hstep
    obtain ⟨reply, hreply, hexec⟩ := exec_resize_failed (s := s) hresizes hsize fuel
    rw [hexec] at hfuel
    exact absurd (Prod.mk.inj (Option.some.inj hfuel)).1 hreply
  | some size =>
    obtain ⟨_, entriesPerBlock, rfl⟩ := hstep.of_newSize hsize
    refine ⟨size, rfl, rfl, ?_, ?_⟩
    · intro h
      have hindexed := (indexed_resized_iff s size entriesPerBlock).mp
        (h.stays_indexed (.nil _) (by simp))
      have hempty : s.m_currentDataSize = 0 := h.dataSize_eq
      have hread : s.m_readIdx < size := h.readIdx_lt
      have hwrite := hindexed.2.2.2
      rw [hempty, Nat.add_zero, Nat.mod_eq_of_lt hread] at hwrite
      exact ⟨hempty, hwrite.symm, hread⟩
    · intro h
      exact ((indexed_resized_iff s size entriesPerBlock).mpr h.fits).flushed h.1

/-- Resizing an empty buffer of two entries to three. -/
theorem resize_flushes_iff_empty :
    ∃ size, (Op.setMaxBufferSize 3 true : Op ℕ).newSize = some size ∧
      (ofCells [0, 0, 0] 0 0 0).m_bufferSize = size ∧
      (Flushed size (ofCells [0, 0, 0] 0 0 0) ↔ (ofCells [0, 0] 0 0 0).EmptyWithin size) :=
  resize_flushes_iff trivial ⟨0, rfl⟩

/-- A buffer of two entries that holds one still counts it after the resizing that has cleared the
vector. -/
theorem setMaxBufferSize_keeps_count :
    Reachable (ofCells [7, 0] 1 1 0) ∧
      Step (ofCells [7, 0] 1 1 0) (.setMaxBufferSize 3 true) (.status true)
        (ofCells [0, 0, 0] 1 1 0) ∧
      ¬ Flushed 3 (ofCells [0, 0, 0] 1 1 0) := by
  refine ⟨settled_one.reachable, ⟨0, rfl⟩, ?_⟩
  intro h
  exact absurd h.dataSize_eq (by decide)

end RdbLibs.Buffer.CVRingBuffer
