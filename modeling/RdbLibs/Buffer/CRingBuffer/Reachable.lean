import RdbLibs.Buffer.CRingBuffer.Vector
import RdbLibs.Buffer.CVRingBuffer.Reachable

/-!
# The states that a `CRingBuffer` reaches

In every reachable state the memory is null or has the size that is counted with
(`Reachable.sized`). Two calls lead out of the index invariant: a resizing that meets counters of
another capacity, as in `CVRingBuffer`, and the write of four arguments when it meets a full buffer
without the permission to overwrite. `Settled` holds of the states of the runs that avoid both, and
in these states the memory is null or the index invariant holds (`Settled.sound`).
-/

set_option autoImplicit false
set_option relaxedAutoImplicit false

namespace RdbLibs.Buffer.CRingBuffer

open MachineWord WhileLoop CheckedMemory
open CVRingBuffer (Indexed Op Reply)

variable {T : Type*} [Zero T] {N : ℕ} {s s' : CRingBuffer T} {v : CVRingBuffer T}

/-- The buffers that a constructor makes when it is asked for `N` entries. -/
inductive Built (N : ℕ) : CRingBuffer T → Prop
  | entries (granted : Bool) : Built N (construct N granted)
  | blocks {entriesPerBlock numBlocks : ℕ} (granted : Bool)
      (hsize : toSize (entriesPerBlock * numBlocks) = N) :
      Built N (constructBlocks entriesPerBlock numBlocks granted)

/-- The states that the public interface leads to. -/
inductive Reachable : CRingBuffer T → Prop
  | built {N : ℕ} {s : CRingBuffer T} : Built N s → Reachable s
  | step {s s' : CRingBuffer T} {op : Op T} {reply : Reply T} :
      Reachable s → Step s op reply s' → Reachable s'

/-- The cells and counters as those of a `CVRingBuffer`. -/
def view (s : CRingBuffer T) : CVRingBuffer T where
  m_dataBuffer := s.m_pDataBuffer.getD []
  m_bufferSize := s.m_bufferSize
  m_entriesPerBlock := s.m_entriesPerBlock
  m_currentDataSize := s.m_currentDataSize
  m_writeIdx := s.m_writeIdx
  m_readIdx := s.m_readIdx

/-- The memory is null or has the size that the buffer counts with, which is not 0. -/
def Sized (s : CRingBuffer T) : Prop :=
  s.m_pDataBuffer = none ∨ ∃ v : CVRingBuffer T, v.Sized ∧ 0 < v.m_bufferSize ∧ s = ofVector v

/-- The memory is null, or the counters describe a queue. -/
def Sound (s : CRingBuffer T) : Prop :=
  s.m_pDataBuffer = none ∨ ∃ v : CVRingBuffer T, Indexed v.m_bufferSize v ∧ s = ofVector v

omit [Zero T] in
theorem Sound.sized (h : s.Sound) : s.Sized := by
  rcases h with hnull | ⟨v, hv, rfl⟩
  · exact .inl hnull
  · exact .inr ⟨v, hv.sized, hv.pos, rfl⟩

/-! ### The effects of calls -/

/-- All that a call can do to a buffer. -/
inductive Effect (s : CRingBuffer T) (op : Op T) : CRingBuffer T → Prop
  | nothing : Effect s op s
  | writes {fuel : ℕ} {source : ℕ → T} {blockSize : ℕ} {bOverwrite : Bool}
      {result : ℤ × CRingBuffer T} (hmemory : s.m_pDataBuffer ≠ none)
      (hcall : loop (writePass source blockSize bOverwrite) fuel ⟨s, 0⟩ = some (.ok result)) :
      Effect s op result.2
  | writesBlocks {fuel : ℕ} {source : ℕ → T} {entriesPerBlock blockSize : ℕ} {bOverwrite : Bool}
      {result : ℤ × CRingBuffer T} (hmemory : s.m_pDataBuffer ≠ none)
      (hop : op = .writeBlockEntriesPerBlock (some source) entriesPerBlock blockSize bOverwrite)
      (hblock : blockSize < s.m_bufferSize) (hone : 1 ≤ toSize (entriesPerBlock * blockSize))
      (hlt : toSize (entriesPerBlock * blockSize) < s.m_bufferSize)
      (hcall : loop (writePassEntriesPerBlock source (toSize (entriesPerBlock * blockSize))
        bOverwrite) fuel ⟨s, 0⟩ = some (.ok result)) :
      Effect s op result.2
  | reads {fuel : ℕ} {target : ℕ → T} {numEntriesToRead : ℕ} {deleteEntries : Bool}
      {result : ReadResult T} (hmemory : s.m_pDataBuffer ≠ none) (hpos : 0 < s.m_bufferSize)
      (hcall : s.readEntries fuel target numEntriesToRead deleteEntries = some (.ok result)) :
      Effect s op result.buffer
  | erases (numEntries : ℕ) : Effect s op (s.erase numEntries).2
  | flushes {bZeroOutBuffer status : Bool} {s' : CRingBuffer T}
      (hcall : s.flush bZeroOutBuffer = .ok (status, s')) : Effect s op s'
  | frees : Effect s op s.free
  | resizes {size : ℕ} (entriesPerBlock : ℕ) (hsize : op.newSize = some size) :
      Effect s op (ofVector { s.view.resized size with m_entriesPerBlock := entriesPerBlock })

theorem allocateBuffer_eq (s : CRingBuffer T) (numEntries : ℕ) (granted : Bool) :
    s.allocateBuffer numEntries granted =
      if granted ∧ 0 < numEntries ∧ numEntries < 2 ^ 63 then
        (true, ofVector (s.view.resized numEntries))
      else (false, s.free) := by
  unfold allocateBuffer
  by_cases hpos : 0 < numEntries
  · by_cases hgranted : granted ∧ numEntries < 2 ^ 63
    · rw [if_pos hpos, if_pos hgranted, if_pos ⟨hgranted.1, hpos, hgranted.2⟩]
      rfl
    · rw [if_pos hpos, if_neg hgranted, if_neg (fun hall ↦ hgranted ⟨hall.1, hall.2.2⟩)]
  · rw [if_neg hpos, if_neg (fun hall ↦ hpos hall.2.1)]

theorem Step.flush_eq {bZeroOutBuffer : Bool} {reply : Reply T}
    (hstep : Step s (.flush bZeroOutBuffer) reply s') :
    ∃ status, s.flush bZeroOutBuffer = .ok (status, s') := by
  obtain ⟨fuel, hfuel⟩ := hstep
  have hflush := Option.some.inj hfuel
  cases hcall : s.flush bZeroOutBuffer with
  | error fault =>
    rw [hcall] at hflush
    cases hflush
  | ok result =>
    rw [hcall] at hflush
    obtain ⟨_, rfl⟩ := Prod.mk.inj (Except.ok.inj hflush)
    exact ⟨result.1, rfl⟩

section BlockCalls

variable {op : Op T} {fuel : ℕ}

theorem Effect.of_writeBlock {p : Option (ℕ → T)} {blockSize : ℕ} {bOverwrite : Bool}
    {result : ℤ × CRingBuffer T}
    (hcall : s.writeBlock fuel p blockSize bOverwrite = some (.ok result)) :
    Effect s op result.2 := by
  unfold writeBlock at hcall
  split at hcall
  · rename_i cells source hmemory
    split_ifs at hcall with hrefused
    · obtain rfl := Except.ok.inj (Option.some.inj hcall)
      exact .nothing
    · exact .writes (by rw [hmemory]; exact Option.some_ne_none cells) hcall
  · obtain rfl := Except.ok.inj (Option.some.inj hcall)
    exact .nothing

theorem Effect.of_writeBlockEntriesPerBlock {p : Option (ℕ → T)} {entriesPerBlock blockSize : ℕ}
    {bOverwrite : Bool} {result : ℤ × CRingBuffer T}
    (hcall : s.writeBlockEntriesPerBlock fuel p entriesPerBlock blockSize bOverwrite =
      some (.ok result)) :
    Effect s (.writeBlockEntriesPerBlock p entriesPerBlock blockSize bOverwrite) result.2 := by
  unfold writeBlockEntriesPerBlock at hcall
  split at hcall
  · rename_i cells source hmemory
    simp only at hcall
    split_ifs at hcall with hrefused hcount
    · obtain rfl := Except.ok.inj (Option.some.inj hcall)
      exact .nothing
    · obtain rfl := Except.ok.inj (Option.some.inj hcall)
      exact .nothing
    · exact .writesBlocks (by rw [hmemory]; exact Option.some_ne_none cells) rfl
        (by omega) (by omega) (by omega) hcall
  · obtain rfl := Except.ok.inj (Option.some.inj hcall)
    exact .nothing

theorem Effect.of_readBlock {p : Option (ℕ → T)} {blockSize : ℕ} {deleteEntries : Bool}
    {result : ReadResult T}
    (hcall : s.readBlock fuel p blockSize deleteEntries = some (.ok result)) :
    Effect s op result.buffer := by
  unfold readBlock at hcall
  split at hcall
  · rename_i cells target hmemory
    split_ifs at hcall with hrefused hempty
    · obtain rfl := Except.ok.inj (Option.some.inj hcall)
      exact .nothing
    · obtain rfl := Except.ok.inj (Option.some.inj hcall)
      exact .nothing
    · exact .reads (by rw [hmemory]; exact Option.some_ne_none cells) (by omega) hcall
  · obtain rfl := Except.ok.inj (Option.some.inj hcall)
    exact .nothing

theorem Effect.of_readBlockEntriesPerBlock {p : Option (ℕ → T)} {entriesPerBlock blockSize : ℕ}
    {deleteEntries : Bool} {result : ReadResult T}
    (hcall : s.readBlockEntriesPerBlock fuel p entriesPerBlock blockSize deleteEntries =
      some (.ok result)) :
    Effect s op result.buffer := by
  unfold readBlockEntriesPerBlock at hcall
  split at hcall
  · rename_i cells target hmemory
    split_ifs at hcall with hrefused hempty
    · obtain rfl := Except.ok.inj (Option.some.inj hcall)
      exact .nothing
    · obtain rfl := Except.ok.inj (Option.some.inj hcall)
      exact .nothing
    · exact .reads (by rw [hmemory]; exact Option.some_ne_none cells) (by omega) hcall
  · obtain rfl := Except.ok.inj (Option.some.inj hcall)
    exact .nothing

end BlockCalls

theorem effect_setMaxBufferSize (s : CRingBuffer T) (numEntries : ℕ) (granted : Bool) :
    Effect s (.setMaxBufferSize numEntries granted) (s.setMaxBufferSize numEntries granted).2 := by
  rw [setMaxBufferSize, allocateBuffer_eq]
  split_ifs with hgranted
  · exact .resizes s.m_entriesPerBlock (if_pos hgranted)
  · exact .frees

theorem effect_setMaxBufferSizeBlocks (s : CRingBuffer T) (entriesPerBlock numBlocks : ℕ)
    (granted : Bool) :
    Effect s (.setMaxBufferSizeBlocks entriesPerBlock numBlocks granted)
      (s.setMaxBufferSizeBlocks entriesPerBlock numBlocks granted).2 := by
  rw [setMaxBufferSizeBlocks]
  by_cases hfactors : 0 < entriesPerBlock ∧ 0 < numBlocks
  · simp only [if_pos hfactors, allocateBuffer_eq]
    by_cases hgranted : granted ∧ 0 < toSize (entriesPerBlock * numBlocks) ∧
        toSize (entriesPerBlock * numBlocks) < 2 ^ 63
    · simp only [if_pos hgranted, if_true]
      exact .resizes entriesPerBlock (if_pos hgranted)
    · simp only [if_neg hgranted, Bool.false_eq_true, if_false]
      exact .frees
  · rw [if_neg hfactors]
    exact .nothing

theorem Step.effect {op : Op T} {reply : Reply T} (hstep : Step s op reply s') :
    Effect s op s' := by
  obtain ⟨fuel, hfuel⟩ := hstep
  cases op with
  | writeBlock p blockSize bOverwrite =>
    obtain ⟨result, hcall, hout⟩ := of_map_eq_ok hfuel
    obtain ⟨_, rfl⟩ := Prod.mk.inj hout
    exact .of_writeBlock hcall
  | writeBlockEntriesPerBlock p entriesPerBlock blockSize bOverwrite =>
    obtain ⟨result, hcall, hout⟩ := of_map_eq_ok hfuel
    obtain ⟨_, rfl⟩ := Prod.mk.inj hout
    exact .of_writeBlockEntriesPerBlock hcall
  | readBlock p blockSize deleteEntries =>
    obtain ⟨result, hcall, hout⟩ := of_map_eq_ok hfuel
    obtain ⟨_, rfl⟩ := Prod.mk.inj hout
    exact .of_readBlock hcall
  | readBlockEntriesPerBlock p entriesPerBlock blockSize deleteEntries =>
    obtain ⟨result, hcall, hout⟩ := of_map_eq_ok hfuel
    obtain ⟨_, rfl⟩ := Prod.mk.inj hout
    exact .of_readBlockEntriesPerBlock hcall
  | deleteEntry =>
    obtain ⟨_, rfl⟩ := Prod.mk.inj (Except.ok.inj (Option.some.inj hfuel))
    exact .erases 1
  | deleteBlock numEntries =>
    obtain ⟨_, rfl⟩ := Prod.mk.inj (Except.ok.inj (Option.some.inj hfuel))
    exact .erases (toUnsigned numEntries)
  | flush bZeroOutBuffer =>
    obtain ⟨status, hcall⟩ := Step.flush_eq ⟨fuel, hfuel⟩
    exact .flushes hcall
  | setMaxBufferSize numEntries granted =>
    obtain ⟨_, rfl⟩ := Prod.mk.inj (Except.ok.inj (Option.some.inj hfuel))
    exact effect_setMaxBufferSize s numEntries granted
  | setMaxBufferSizeBlocks entriesPerBlock numBlocks granted =>
    obtain ⟨_, rfl⟩ := Prod.mk.inj (Except.ok.inj (Option.some.inj hfuel))
    exact effect_setMaxBufferSizeBlocks s entriesPerBlock numBlocks granted

/-! ### The size of the memory -/

omit [Zero T] in
theorem Sized.exists_vector (h : s.Sized) (hmemory : s.m_pDataBuffer ≠ none) :
    ∃ v : CVRingBuffer T, v.Sized ∧ 0 < v.m_bufferSize ∧ s = ofVector v := by
  rcases h with hnull | hvector
  · exact absurd hnull hmemory
  · exact hvector

omit [Zero T] in
theorem Sound.exists_vector (h : s.Sound) (hmemory : s.m_pDataBuffer ≠ none) :
    ∃ v : CVRingBuffer T, Indexed v.m_bufferSize v ∧ s = ofVector v := by
  rcases h with hnull | hvector
  · exact absurd hnull hmemory
  · exact hvector

omit [Zero T] in
/-- Storing an entry keeps the size of the memory and moves the write index, or faults. -/
theorem writeSlot_cases (h : v.Sized) (source : ℕ → T) (written : ℕ) :
    (∃ v' : CVRingBuffer T, v'.Sized ∧ v'.m_bufferSize = v.m_bufferSize ∧
      v'.m_writeIdx = (if v.m_bufferSize ≤ v.m_writeIdx + 1 then 0 else v.m_writeIdx + 1) ∧
      writeSlot source (ofVector v) written =
        .again ⟨ofVector v', toUnsigned (written + 1)⟩) ∨
    ∃ fault, writeSlot source (ofVector v) written = .leave (.error fault) := by
  cases hstore : store v.m_dataBuffer v.m_writeIdx (source written) with
  | error fault =>
    refine .inr ⟨fault, ?_⟩
    simp only [writeSlot, ofVector, hstore]
  | ok cells =>
    refine .inl ⟨{ v with
      m_dataBuffer := cells
      m_currentDataSize :=
        if v.m_currentDataSize < v.m_bufferSize then v.m_currentDataSize + 1
        else v.m_currentDataSize
      m_writeIdx := if v.m_bufferSize ≤ v.m_writeIdx + 1 then 0 else v.m_writeIdx + 1 },
      (length_of_store hstore).trans h, rfl, rfl, ?_⟩
    simp only [writeSlot, ofVector, hstore]
    rfl

omit [Zero T] in
/-- A pass of either overload leaves with the buffer as it is, or stores an entry. -/
theorem pass_cases (h : v.Sized) (source : ℕ → T) (writeSize : ℕ) (bOverwrite : Bool)
    (written : ℕ) {pass : WriteLoop T → Pass (WriteLoop T) (Except Fault (ℤ × CRingBuffer T))}
    (hpass : pass = writePass source writeSize bOverwrite ∨
      pass = writePassEntriesPerBlock source writeSize bOverwrite) :
    (∃ value, pass ⟨ofVector v, written⟩ = .leave (.ok (value, ofVector v))) ∨
      ∃ v₁ : CVRingBuffer T, v₁.Sized ∧ v₁.m_bufferSize = v.m_bufferSize ∧
        v₁.m_writeIdx = v.m_writeIdx ∧
          pass ⟨ofVector v, written⟩ = writeSlot source (ofVector v₁) written := by
  have hadvanced : ∃ v₁ : CVRingBuffer T, v₁.Sized ∧ v₁.m_bufferSize = v.m_bufferSize ∧
      v₁.m_writeIdx = v.m_writeIdx ∧ writeSlot source (ofVector v).advanceReadIdx written =
        writeSlot source (ofVector v₁) written :=
    ⟨{ v with m_readIdx := if v.m_bufferSize ≤ v.m_readIdx + 1 then 0 else v.m_readIdx + 1 },
      h, rfl, rfl, rfl⟩
  have hstays : ∃ v₁ : CVRingBuffer T, v₁.Sized ∧ v₁.m_bufferSize = v.m_bufferSize ∧
      v₁.m_writeIdx = v.m_writeIdx ∧
        writeSlot source (ofVector v) written = writeSlot source (ofVector v₁) written :=
    ⟨v, h, rfl, rfl, rfl⟩
  by_cases hmore : written < writeSize
  · by_cases hmeet : (ofVector v).m_writeIdx = (ofVector v).m_readIdx ∧
        0 < (ofVector v).m_currentDataSize
    · rcases hpass with rfl | rfl
      · cases bOverwrite with
        | false =>
          simp only [writePass, if_pos hmore, if_pos hmeet, if_true]
          exact .inl ⟨-5, rfl⟩
        | true =>
          simp only [writePass, if_pos hmore, if_pos hmeet, Bool.true_eq_false, if_false]
          exact .inr hadvanced
      · cases bOverwrite with
        | false =>
          simp only [writePassEntriesPerBlock, if_pos hmore, if_pos hmeet, if_true]
          exact .inr hstays
        | true =>
          simp only [writePassEntriesPerBlock, if_pos hmore, if_pos hmeet, Bool.true_eq_false,
            if_false]
          exact .inr hadvanced
    · rcases hpass with rfl | rfl
      · simp only [writePass, if_pos hmore, if_neg hmeet]
        exact .inr hstays
      · simp only [writePassEntriesPerBlock, if_pos hmore, if_neg hmeet]
        exact .inr hstays
  · rcases hpass with rfl | rfl
    · exact .inl ⟨_, (writePass_done hmore).1⟩
    · exact .inl ⟨_, (writePass_done hmore).2⟩

omit [Zero T] in
theorem Sized.writes (h : s.Sized) (hmemory : s.m_pDataBuffer ≠ none) {source : ℕ → T}
    {writeSize : ℕ} {bOverwrite : Bool}
    {pass : WriteLoop T → Pass (WriteLoop T) (Except Fault (ℤ × CRingBuffer T))}
    (hpass : pass = writePass source writeSize bOverwrite ∨
      pass = writePassEntriesPerBlock source writeSize bOverwrite) {fuel : ℕ}
    {result : ℤ × CRingBuffer T} (hcall : loop pass fuel ⟨s, 0⟩ = some (.ok result)) :
    result.2.Sized := by
  obtain ⟨v, hv, hpos, rfl⟩ := h.exists_vector hmemory
  refine loop_invariant
    (fun l : WriteLoop T ↦ ∃ v : CVRingBuffer T, v.Sized ∧ 0 < v.m_bufferSize ∧
      l.buffer = ofVector v)
    (fun r ↦ ∀ result, r = .ok result → result.2.Sized) ?_ ?_ ⟨v, hv, hpos, rfl⟩ hcall result rfl
  · rintro ⟨_, written⟩ next ⟨v, hv, hpos, rfl⟩ hagain
    rcases pass_cases hv source writeSize bOverwrite written hpass with
      ⟨value, hleave⟩ | ⟨v₁, hv₁, hsize₁, _, hslot⟩
    · rw [hleave] at hagain
      cases hagain
    · rw [hslot] at hagain
      rcases writeSlot_cases hv₁ source written with ⟨v', hv', hsize', _, hstore⟩ | ⟨fault, hfault⟩
      · rw [hstore] at hagain
        obtain rfl := Pass.again.inj hagain
        exact ⟨v', hv', by rw [hsize', hsize₁]; exact hpos, rfl⟩
      · rw [hfault] at hagain
        cases hagain
  · rintro ⟨_, written⟩ out ⟨v, hv, hpos, rfl⟩ hleave result rfl
    rcases pass_cases hv source writeSize bOverwrite written hpass with
      ⟨value, hdone⟩ | ⟨v₁, hv₁, _, _, hslot⟩
    · rw [hdone] at hleave
      obtain rfl := Except.ok.inj (Pass.leave.inj hleave)
      exact .inr ⟨v, hv, hpos, rfl⟩
    · rw [hslot] at hleave
      rcases writeSlot_cases hv₁ source written with ⟨v', _, _, _, hstore⟩ | ⟨fault, hfault⟩
      · rw [hstore] at hleave
        cases hleave
      · rw [hfault] at hleave
        cases hleave

/-- What a flush leaves of a buffer whose memory has the size that it counts with. -/
theorem flush_some {cells : List T} (hcells : s.m_pDataBuffer = some cells)
    (hlength : cells.length = s.m_bufferSize) (bZeroOutBuffer : Bool) :
    ∃ cells' status, cells'.length = s.m_bufferSize ∧ s.flush bZeroOutBuffer =
      .ok (status, { s.resetIndices with m_pDataBuffer := some cells' }) := by
  have hsame : { s.resetIndices with m_pDataBuffer := some cells } = s.resetIndices := by
    rw [← hcells]
    rfl
  cases bZeroOutBuffer with
  | false =>
    refine ⟨cells, true, hlength, ?_⟩
    rw [hsame]
    rfl
  | true =>
    have hbuffer : s.resetIndices.m_pDataBuffer = some cells := hcells
    have hsize : s.resetIndices.m_bufferSize = s.m_bufferSize := rfl
    by_cases hpos : 0 < s.m_bufferSize
    · refine ⟨List.replicate s.m_bufferSize 0, true, List.length_replicate, ?_⟩
      simp only [flush, Bool.true_eq_false, if_false, hsize, if_pos hpos, hbuffer,
        if_pos hlength.ge]
      rw [← hlength, List.drop_length, List.append_nil]
    · refine ⟨cells, false, hlength, ?_⟩
      simp only [flush, Bool.true_eq_false, if_false, hsize, if_neg hpos]
      exact congrArg (fun after ↦ Except.ok (false, after)) hsame.symm

theorem flush_ofVector (h : v.Sized) (bZeroOutBuffer : Bool) :
    ∃ cells status, cells.length = v.m_bufferSize ∧ (ofVector v).flush bZeroOutBuffer =
      .ok (status, ofVector { v.resetIndices with m_dataBuffer := cells }) :=
  flush_some (s := ofVector v) rfl h bZeroOutBuffer

/-- A flush of null memory leaves it null. -/
theorem flush_null (hnull : s.m_pDataBuffer = none) {bZeroOutBuffer status : Bool}
    (hcall : s.flush bZeroOutBuffer = .ok (status, s')) : s'.m_pDataBuffer = none := by
  simp only [flush, resetIndices, hnull] at hcall
  split_ifs at hcall
  · obtain ⟨_, rfl⟩ := Prod.mk.inj (Except.ok.inj hcall)
    rfl
  · obtain ⟨_, rfl⟩ := Prod.mk.inj (Except.ok.inj hcall)
    rfl

omit [Zero T] in
theorem erase_null (hnull : s.m_pDataBuffer = none) (numEntries : ℕ) :
    s.erase numEntries = (false, s) := by
  rw [erase, if_pos (.inl (by rw [hnull]; rfl))]

/-- A flush makes a buffer sound. -/
theorem Sized.flush_sound (h : s.Sized) {bZeroOutBuffer status : Bool}
    (hcall : s.flush bZeroOutBuffer = .ok (status, s')) : s'.Sound := by
  rcases h with hnull | ⟨v, hv, hpos, rfl⟩
  · exact .inl (flush_null hnull hcall)
  · obtain ⟨cells, status', hcells, hflush⟩ := flush_ofVector hv bZeroOutBuffer
    rw [hflush] at hcall
    obtain ⟨_, rfl⟩ := Prod.mk.inj (Except.ok.inj hcall)
    exact .inr ⟨{ v.resetIndices with m_dataBuffer := cells },
      .resetIndices (s := { v with m_dataBuffer := cells }) hcells rfl hpos, rfl⟩

theorem Sized.step (h : s.Sized) {op : Op T} {reply : Reply T} (hstep : Step s op reply s') :
    s'.Sized := by
  cases hstep.effect with
  | nothing => exact h
  | writes hmemory hcall => exact h.writes hmemory (.inl rfl) hcall
  | writesBlocks hmemory _ _ _ _ hcall => exact h.writes hmemory (.inr rfl) hcall
  | reads hmemory hpos hcall =>
    obtain ⟨v, hv, hvpos, rfl⟩ := h.exists_vector hmemory
    rw [readEntries_ofVector hv hpos, Option.map_eq_some_iff] at hcall
    obtain ⟨result, hread, hout⟩ := hcall
    obtain rfl := Except.ok.inj hout
    obtain ⟨hafter, hsize⟩ := hv.readEntries hread
    exact .inr ⟨result.buffer, hafter, by rw [hsize]; exact hvpos, rfl⟩
  | erases numEntries =>
    rcases h with hnull | ⟨v, hv, hpos, rfl⟩
    · rw [erase_null hnull]
      exact .inl hnull
    · rw [erase_ofVector hv]
      exact .inr ⟨_, hv.erase numEntries, by rw [CVRingBuffer.bufferSize_erase hv]; exact hpos, rfl⟩
  | flushes hcall => exact (h.flush_sound hcall).sized
  | frees => exact .inl rfl
  | @resizes size entriesPerBlock hsize =>
    exact .inr ⟨{ s.view.resized size with m_entriesPerBlock := entriesPerBlock },
      List.length_replicate, CVRingBuffer.Op.pos_of_newSize hsize, rfl⟩

theorem Built.sound (h : Built N s) : s.Sound := by
  have hallocate : ∀ (entriesPerBlock numEntries : ℕ) (granted : Bool),
      ((unallocated entriesPerBlock : CRingBuffer T).allocateBuffer numEntries
        granted).2.Sound := by
    intro entriesPerBlock numEntries granted
    rw [allocateBuffer_eq]
    split_ifs with hgranted
    · exact .inr ⟨_, (CVRingBuffer.indexed_resized_iff _ numEntries entriesPerBlock).mpr
        ((CVRingBuffer.blank_unsized entriesPerBlock).fits hgranted.2.1), rfl⟩
    · exact .inl rfl
  cases h with
  | entries granted =>
    unfold construct
    split_ifs
    · exact hallocate _ _ _
    · exact .inl rfl
  | blocks granted _ =>
    unfold constructBlocks
    split_ifs
    · exact hallocate _ _ _
    · exact .inl rfl

/-- In every reachable state the memory is null or has the size that the buffer counts with. -/
theorem Reachable.sized (h : Reachable s) : s.Sized := by
  induction h with
  | built hbuilt => exact hbuilt.sound.sized
  | step _ hstep ih => exact ih.step hstep

/-! ### The index invariant of settled states -/

/-- The calls that do not lead out of the index invariant: a resizing that succeeds meets counters
that describe a queue in the new capacity, and an accepted write of four arguments that may not
overwrite meets room for its block. -/
def Harmless (s : CRingBuffer T) (op : Op T) : Prop :=
  (∀ size, op.newSize = some size → s.view.Fits size) ∧
    ∀ source entriesPerBlock blockSize,
      op = .writeBlockEntriesPerBlock (some source) entriesPerBlock blockSize false →
        blockSize < s.m_bufferSize → toSize (entriesPerBlock * blockSize) < s.m_bufferSize →
          toSize (entriesPerBlock * blockSize) ≤ s.m_bufferSize - s.m_currentDataSize

/-- The states of the runs whose calls are harmless, or in which a flush repairs the counters. -/
inductive Settled : CRingBuffer T → Prop
  | built {N : ℕ} {s : CRingBuffer T} : Built N s → Settled s
  | step {s s' : CRingBuffer T} {op : Op T} {reply : Reply T} :
      Settled s → Harmless s op → Step s op reply s' → Settled s'
  | flush {s s' : CRingBuffer T} {bZeroOutBuffer : Bool} {reply : Reply T} :
      Reachable s → Step s (.flush bZeroOutBuffer) reply s' → Settled s'

theorem Settled.reachable (h : Settled s) : Reachable s := by
  induction h with
  | built hbuilt => exact .built hbuilt
  | step _ _ hstep ih => exact .step ih hstep
  | flush hreach hstep => exact .step hreach hstep

omit [Zero T] in
/-- Where the loop of four arguments returns without the permission to overwrite, the 32-bit counter
has reached the number of entries, and the write index has moved on by it. -/
theorem of_loop_writePassEntriesPerBlock (h : Indexed N v) {source : ℕ → T} {writeSize fuel : ℕ}
    {result : ℤ × CRingBuffer T}
    (hcall : loop (writePassEntriesPerBlock source writeSize false) fuel ⟨ofVector v, 0⟩ =
      some (.ok result)) :
    writeSize < 2 ^ 32 ∧ result.2.m_writeIdx = (v.m_writeIdx + writeSize) % N := by
  refine loop_invariant
    (fun l : WriteLoop T ↦ l.entriesWritten < 2 ^ 32 ∧ ∃ v' : CVRingBuffer T, v'.Sized ∧
      l.buffer = ofVector v' ∧ v'.m_bufferSize = N ∧ (writeSize < 2 ^ 32 →
        l.entriesWritten ≤ writeSize ∧ v'.m_writeIdx = (v.m_writeIdx + l.entriesWritten) % N))
    (fun r ↦ ∀ result, r = .ok result → writeSize < 2 ^ 32 ∧
      result.2.m_writeIdx = (v.m_writeIdx + writeSize) % N) ?_ ?_ ?_ hcall result rfl
  · rintro ⟨_, written⟩ next ⟨hword, v', hv', rfl, hsize, hprogress⟩ hagain
    by_cases hmore : written < writeSize
    · rw [writePassEntriesPerBlock_false source hmore] at hagain
      rcases writeSlot_cases hv' source written with
        ⟨after, hafter, hsize', hwriteIdx, hstore⟩ | ⟨fault, hfault⟩
      · rw [hstore] at hagain
        obtain rfl := Pass.again.inj hagain
        refine ⟨toUnsigned_lt _, after, hafter, rfl, hsize'.trans hsize, fun hsmall ↦ ?_⟩
        obtain ⟨_, heq⟩ := hprogress hsmall
        have hnext : toUnsigned (written + 1) = written + 1 := toUnsigned_of_lt (by omega)
        refine ⟨by rw [hnext]; exact hmore, ?_⟩
        change after.m_writeIdx = (v.m_writeIdx + toUnsigned (written + 1)) % N
        rw [hwriteIdx, hsize, heq, hnext, CircularWindow.succ_wrap (Nat.mod_lt _ h.pos),
          Nat.mod_add_mod, Nat.add_assoc]
      · rw [hfault] at hagain
        cases hagain
    · rw [(writePass_done hmore).2] at hagain
      cases hagain
  · rintro ⟨_, written⟩ out ⟨hword, v', hv', rfl, hsize, hprogress⟩ hleave result rfl
    by_cases hmore : written < writeSize
    · rw [writePassEntriesPerBlock_false source hmore] at hleave
      rcases writeSlot_cases hv' source written with ⟨after, _, _, _, hstore⟩ | ⟨fault, hfault⟩
      · rw [hstore] at hleave
        cases hleave
      · rw [hfault] at hleave
        cases hleave
    · rw [(writePass_done hmore).2] at hleave
      obtain rfl := Except.ok.inj (Pass.leave.inj hleave)
      have hsmall : writeSize < 2 ^ 32 := (not_lt.mp hmore).trans_lt hword
      obtain ⟨hle, heq⟩ := hprogress hsmall
      obtain rfl : written = writeSize := le_antisymm hle (not_lt.mp hmore)
      exact ⟨hsmall, heq⟩
  · refine ⟨by norm_num, v, h.sized, rfl, h.bufferSize_eq, fun _ ↦ ⟨Nat.zero_le _, ?_⟩⟩
    rw [Nat.add_zero, Nat.mod_eq_of_lt h.writeIdx_lt]

omit [Zero T] in
theorem Sound.writes (h : s.Sound) (hmemory : s.m_pDataBuffer ≠ none) {source : ℕ → T}
    {blockSize : ℕ} {bOverwrite : Bool} {fuel : ℕ} {result : ℤ × CRingBuffer T}
    (hcall : loop (writePass source blockSize bOverwrite) fuel ⟨s, 0⟩ = some (.ok result)) :
    result.2.Sound := by
  obtain ⟨v, hv, rfl⟩ := h.exists_vector hmemory
  rw [loop_writePass hv, Option.map_eq_some_iff] at hcall
  obtain ⟨⟨value, after⟩, hwrite, hout⟩ := hcall
  obtain rfl := Except.ok.inj hout
  have hafter := hv.writeEntries hwrite
  refine .inr ⟨after, ?_, rfl⟩
  rw [hafter.bufferSize_eq]
  exact hafter

theorem Sound.step (h : s.Sound) {op : Op T} (hop : s.Harmless op) {reply : Reply T}
    (hstep : Step s op reply s') : s'.Sound := by
  cases hstep.effect with
  | nothing => exact h
  | writes hmemory hcall => exact h.writes hmemory hcall
  | @writesBlocks fuel source entriesPerBlock blockSize bOverwrite result hmemory hcase hblock hone
      hlt hcall =>
    cases bOverwrite with
    | true =>
      rw [writePassEntriesPerBlock_true] at hcall
      exact h.writes hmemory hcall
    | false =>
      have hfits := hop.2 source entriesPerBlock blockSize hcase hblock hlt
      obtain ⟨v, hv, rfl⟩ := h.exists_vector hmemory
      have hword := (of_loop_writePassEntriesPerBlock hv hcall).1
      rw [loop_writePassEntriesPerBlock hv source hword hfits, ← loop_writePass hv] at hcall
      exact h.writes hmemory hcall
  | reads hmemory hpos hcall =>
    obtain ⟨v, hv, rfl⟩ := h.exists_vector hmemory
    rw [readEntries_ofVector hv.sized hpos, Option.map_eq_some_iff] at hcall
    obtain ⟨result, hread, hout⟩ := hcall
    obtain rfl := Except.ok.inj hout
    have hafter := hv.readEntries hread
    refine .inr ⟨result.buffer, ?_, rfl⟩
    rw [hafter.bufferSize_eq]
    exact hafter
  | erases numEntries =>
    rcases h with hnull | ⟨v, hv, rfl⟩
    · rw [erase_null hnull]
      exact .inl hnull
    · rw [erase_ofVector hv.sized]
      have hafter := hv.erase numEntries
      refine .inr ⟨_, ?_, rfl⟩
      rw [hafter.bufferSize_eq]
      exact hafter
  | flushes hcall => exact h.sized.flush_sound hcall
  | frees => exact .inl rfl
  | resizes entriesPerBlock hsize =>
    exact .inr ⟨_, (CVRingBuffer.indexed_resized_iff s.view _ entriesPerBlock).mpr
      (hop.1 _ hsize), rfl⟩

/-- In a settled state the memory is null or the counters describe a queue. -/
theorem Settled.sound (h : Settled s) : s.Sound := by
  induction h with
  | built hbuilt => exact hbuilt.sound
  | step _ hop hstep ih => exact ih.step hop hstep
  | flush hreach hstep =>
    obtain ⟨status, hcall⟩ := hstep.flush_eq
    exact hreach.sized.flush_sound hcall

end RdbLibs.Buffer.CRingBuffer
