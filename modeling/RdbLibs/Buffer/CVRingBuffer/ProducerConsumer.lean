import RdbLibs.Buffer.CVRingBuffer.Producer

/-!
# A producer and a consumer on one `CVRingBuffer`

The producer writes without overwriting and the consumer reads with deleting, each call atomic
under the mutex of the buffer. What a call hands over is read off its arguments and its answer
(`storedBy`, `readBy`), and every call conserves the queue: a write appends what it has stored, a
read takes what it returns from the front. So nothing is lost, duplicated or reordered in any
interleaving (`producer_consumer`).
-/

set_option autoImplicit false
set_option relaxedAutoImplicit false

namespace RdbLibs.Buffer.CVRingBuffer

open MachineWord Runs

variable {T : Type*} [Zero T] {N : ℕ} {s s' : CVRingBuffer T}

/-- What a write has stored, by its answer: all of its block if that is not negative, as much as
there was room for if it is `-5`, and nothing otherwise. -/
def storedBy (N : ℕ) (call : Call (CVRingBuffer T) (Op T) (Reply T)) : List T :=
  match call.label.pSourceBuff, call.reply with
  | some source, .count value =>
    if 0 ≤ value then block source 0 call.label.writeSize
    else if value = -5 then
      (block source 0 call.label.writeSize).take (N - call.before.m_currentDataSize)
    else []
  | _, _ => []

/-- The data that a read returns: as many entries of its target as its answer says. -/
def readBy (call : Call (CVRingBuffer T) (Op T) (Reply T)) : List T :=
  match call.reply with
  | .read value (some target) => block target 0 value.toNat
  | _ => []

/-- The calls of the producer and of the consumer. -/
def Op.Transfers (op : Op T) : Prop := op.IsWrite false ∨ op.IsRead true

omit [Zero T] in
theorem Op.Transfers.not_resizes {op : Op T} (h : op.Transfers) : ¬ op.Resizes := by
  cases op with
  | setMaxBufferSize _ _ => exact fun _ ↦ h.elim id id
  | setMaxBufferSizeBlocks _ _ _ => exact fun _ ↦ h.elim id id
  | _ => exact id

omit [Zero T] in
theorem AcceptedWrite.pSourceBuff_eq {op : Op T} {source : ℕ → T} {count : ℕ} {bOverwrite : Bool}
    (h : AcceptedWrite N op source count bOverwrite) : op.pSourceBuff = some source := by
  cases h <;> rfl

omit [Zero T] in
theorem AcceptedWrite.writeSize_eq {op : Op T} {source : ℕ → T} {count : ℕ} {bOverwrite : Bool}
    (h : AcceptedWrite N op source count bOverwrite) : op.writeSize = count := by
  cases h <;> rfl

omit [Zero T] in
theorem Op.IsRead.pSourceBuff_eq {op : Op T} {deleteEntries : Bool} (h : op.IsRead deleteEntries) :
    op.pSourceBuff = none := by
  cases op with
  | writeBlock _ _ _ => exact h.elim
  | writeBlockEntriesPerBlock _ _ _ _ => exact h.elim
  | _ => rfl

/-- A write appends to the queue what it has stored. -/
theorem Indexed.stored_write (h : Indexed N s) (hN : N < 2 ^ 31) {op : Op T}
    (hwrite : op.IsWrite false) {reply : Reply T} (hstep : Step s op reply s') :
    readBy ⟨s, op, reply⟩ = [] ∧ s'.stored = s.stored ++ storedBy N ⟨s, op, reply⟩ := by
  rcases hwrite.accepted_or h with ⟨source, writeSize, haccepted⟩ | ⟨value, hvalue, hsame⟩
  · have hle := haccepted.size_le
    obtain ⟨after, hoffered, _, hqueue⟩ := h.step_offer (by omega) haccepted
    obtain ⟨rfl, rfl⟩ := hstep.unique hoffered
    have hstored : s'.stored =
        s.stored ++ (block source 0 writeSize).take (N - s.m_currentDataSize) := by
      rw [← length_stored s]
      exact congrArg BoundedQueue.entries hqueue
    refine ⟨rfl, ?_⟩
    rw [hstored]
    simp only [storedBy, haccepted.pSourceBuff_eq, haccepted.writeSize_eq]
    by_cases hroom : writeSize ≤ N - s.m_currentDataSize
    · rw [if_pos hroom, toInt_of_lt (by omega), if_pos (Int.natCast_nonneg writeSize),
        List.take_of_length_le (by rw [length_block]; exact hroom)]
    · rw [if_neg hroom, if_neg (by decide), if_pos rfl]
  · obtain ⟨rfl, rfl⟩ := hstep.unique ⟨0, hsame 0⟩
    refine ⟨rfl, ?_⟩
    have hnothing : storedBy N ⟨s', op, .count value⟩ = [] := by
      unfold storedBy
      split
      · rename_i heq
        obtain rfl := Reply.count.inj heq
        rw [if_neg (by omega), if_neg (by omega)]
      · rfl
    rw [hnothing, List.append_nil]

/-- A read that deletes takes what it returns from the front of the queue. -/
theorem Indexed.stored_read (h : Indexed N s) (hN : N < 2 ^ 31) {op : Op T}
    (hread : op.IsRead true) {reply : Reply T} (hstep : Step s op reply s') :
    readBy ⟨s, op, reply⟩ ++ s'.stored = s.stored ∧ storedBy N ⟨s, op, reply⟩ = [] := by
  have hsize := h.dataSize_le
  have hlow := h.readIdx_lt
  have hnothing : storedBy N ⟨s, op, reply⟩ = [] := by
    simp only [storedBy, hread.pSourceBuff_eq]
  refine ⟨?_, hnothing⟩
  rcases hread.accepted_or h with ⟨target, numEntriesToRead, haccepted⟩ | ⟨target, hsame⟩
  · rcases hsize.lt_or_eq with hroom | hfull
    · obtain ⟨rfl, rfl⟩ := hstep.unique (h.step_read hroom haccepted (by omega)
        (addressable_of_le h.pos (by omega) _ _ _))
      have hcount : min numEntriesToRead s.m_currentDataSize ≤ s.m_currentDataSize :=
        Nat.min_le_right _ _
      have hlength : (s.stored.take (min numEntriesToRead s.m_currentDataSize)).length =
          min numEntriesToRead s.m_currentDataSize := by
        rw [List.length_take, length_stored, Nat.min_eq_left hcount]
      have hblock := block_deliver
        (s.stored.take (min numEntriesToRead s.m_currentDataSize)) target 0
      rw [hlength] at hblock
      simp only [readBy, toInt_of_lt (by omega :
        min numEntriesToRead s.m_currentDataSize < 2 ^ 31), Int.toNat_natCast, hblock]
      rw [CVRingBuffer.afterRead, if_pos rfl, stored_dropOldest hcount, List.take_append_drop]
    · obtain ⟨rfl, rfl⟩ := hstep.unique (h.step_read_full hfull (by omega) haccepted)
      rfl
  · obtain ⟨rfl, rfl⟩ := hstep.unique ⟨0, hsame 0⟩
    cases target <;> rfl

/-- Every interleaving of the producer's and the consumer's calls runs from a constructed buffer,
and in every run all data returned by the reads, followed by what is stored at the end, is all that
the writes have stored. -/
theorem producer_consumer (hpos : 1 ≤ N) (hN : N < 2 ^ 31) {s₀ : CVRingBuffer T}
    (hbuilt : Built N s₀) (ops : List (Op T)) (hops : ∀ op ∈ ops, op.Transfers) :
    (∃ trace s, Run Step s₀ trace s ∧ trace.map Call.label = ops) ∧
      ∀ trace s, Run Step s₀ trace s → trace.map Call.label = ops →
        trace.flatMap readBy ++ s.stored = trace.flatMap (storedBy N) := by
  obtain ⟨hstart, hempty⟩ := hbuilt.indexed hpos
  have htotal : ∀ (before : CVRingBuffer T) (op : Op T), op.Transfers → Indexed N before →
      ∃ reply after, Step before op reply after ∧ Indexed N after := by
    intro before op hop hbefore
    obtain ⟨reply, after, hstep⟩ := hbefore.total hN hop.not_resizes
    exact ⟨reply, after, hstep,
      hbefore.step (Op.newSize_of_not_resizes hop.not_resizes) hstep⟩
  have hconserves : ∀ (before : CVRingBuffer T) (op : Op T) (reply : Reply T)
      (after : CVRingBuffer T) (held : List T), op.Transfers →
        (Indexed N before ∧ before.stored = held) → Step before op reply after →
          ∃ held', (Indexed N after ∧ after.stored = held') ∧
            readBy ⟨before, op, reply⟩ ++ held' = held ++ storedBy N ⟨before, op, reply⟩ := by
    rintro before op reply after _ hop ⟨hbefore, rfl⟩ hstep
    refine ⟨after.stored,
      ⟨hbefore.step (Op.newSize_of_not_resizes hop.not_resizes) hstep, rfl⟩, ?_⟩
    rcases hop with hwrite | hread
    · obtain ⟨hnothing, hstored⟩ := hbefore.stored_write hN hwrite hstep
      rw [hnothing, List.nil_append, hstored]
    · obtain ⟨hreturned, hnothing⟩ := hbefore.stored_read hN hread hstep
      rw [hnothing, List.append_nil, hreturned]
  constructor
  · obtain ⟨trace, s, hrun, hlabels, _⟩ :=
      Run.exists_of_total (Indexed N) Op.Transfers htotal ops s₀ hstart hops
    exact ⟨trace, s, hrun, hlabels⟩
  · intro trace s hrun hlabels
    have hallowed : ∀ call ∈ trace, call.label.Transfers := by
      intro call hcall
      exact hops call.label (hlabels ▸ List.mem_map_of_mem hcall)
    obtain ⟨_, ⟨_, rfl⟩, hall⟩ := hrun.conserves (fun s held ↦ Indexed N s ∧ s.stored = held)
      Op.Transfers readBy (storedBy N) hconserves hallowed [] ⟨hstart, hempty⟩
    exact hall

/-- A block of two entries written to a buffer of two, and one of them read. -/
theorem producer_consumer_two :
    (∃ trace s, Run Step (ofCells [0, 0] 0 0 0) trace s ∧
      trace.map Call.label =
        [.writeBlock (some id) 2 false, .readBlock (some id) 1 true]) ∧
      ∀ trace s, Run Step (ofCells [0, 0] 0 0 0) trace s →
        trace.map Call.label =
          [.writeBlock (some id) 2 false, .readBlock (some id) 1 true] →
        trace.flatMap readBy ++ s.stored = trace.flatMap (storedBy 2) :=
  producer_consumer (by decide) (by decide) built_ofCells_two _
    (by simp [Op.Transfers, Op.IsWrite, Op.IsRead])

end RdbLibs.Buffer.CVRingBuffer
