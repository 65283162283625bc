import RdbLibs.Buffer.CVRingBuffer.Reachable

/-!
# What a write does to the queue of a `CVRingBuffer`

A write that may overwrite keeps the newest entries (`overwrite_keeps_newest`). A write that may not
overwrite is not all or nothing: its over-flow test is inside the copy loop, so a block that is too
long is stored as far as there is room, and the answer `-5` does not tell how far that was
(`refused_write`). A buffer that is full already is left as it was.
-/

set_option autoImplicit false
set_option relaxedAutoImplicit false

namespace RdbLibs.Buffer.CVRingBuffer

open MachineWord

variable {T : Type*} [Zero T] {N : ℕ} {s s' : CVRingBuffer T}

/-! ### Overwriting -/

/-- In a settled buffer, a write that may overwrite returns the number of its entries, and the
buffer then holds the newest entries of what it held followed by the block. -/
theorem overwrite_keeps_newest (h : Settled s) (hsize : s.m_bufferSize = N) (hpos : 1 ≤ N)
    (hN : N < 2 ^ 31) {op : Op T} {source : ℕ → T} {count : ℕ}
    (haccepted : AcceptedWrite N op source count true) :
    ∃ s', Step s op (.count count) s' ∧
      s'.stored =
        (s.stored ++ block source 0 count).rtake (min N (s.stored.length + count)) := by
  have hindexed := h.indexed hsize hpos
  have hle := haccepted.size_le
  obtain ⟨s', hstep, h', hqueue⟩ := hindexed.step_overwrite (by omega) haccepted
  rw [toInt_of_lt (by omega)] at hstep
  refine ⟨s', hstep, ?_⟩
  have hkeep : s'.stored = (s.stored ++ block source 0 count).rtake N :=
    congrArg BoundedQueue.entries hqueue
  have htotal : (s.stored ++ block source 0 count).length = s.stored.length + count := by
    rw [List.length_append, length_block]
  rw [hkeep]
  rcases Nat.le_total N (s.stored.length + count) with hmany | hfew
  · rw [Nat.min_eq_left hmany]
  · rw [Nat.min_eq_right hfew, BoundedQueue.rtake_of_length_le (htotal.le.trans hfew),
      BoundedQueue.rtake_of_length_le htotal.le]

/-- Overwriting a buffer of two entries, of which one is in use, by two entries. -/
theorem overwrite_keeps_newest_two :
    ∃ s', Step (ofCells [7, 0] 1 1 0)
        (.writeBlock (some fun offset ↦ 8 + offset) 2 true) (.count (2 : ℕ)) s' ∧
      s'.stored = ((ofCells [7, 0] 1 1 0).stored ++ block (fun offset ↦ 8 + offset) 0 2).rtake
        (min 2 ((ofCells [7, 0] 1 1 0).stored.length + 2)) :=
  overwrite_keeps_newest settled_one rfl (by decide) (by decide) (.entries (le_refl 2))

/-- A full buffer of two entries that was resized to four has equal indices and two entries. An
entry that overwrites is stored in front of them, where it is not one of the newest. -/
theorem overwrite_after_growth :
    Reachable (ofCells [0, 0, 0, 0] 2 0 0) ∧
      (ofCells [0, 0, 0, 0] 2 0 0).stored = [0, 0] ∧
      Step (ofCells [0, 0, 0, 0] 2 0 0) (.writeBlock (some fun _ ↦ 9) 1 true) (.count 1)
        (ofCells [9, 0, 0, 0] 3 1 1) ∧
      (ofCells [9, 0, 0, 0] 3 1 1).stored ≠ ([0, 0] ++ [9]).rtake (min 4 (2 + 1)) := by
  refine ⟨?_, rfl, ⟨2, rfl⟩, by decide⟩
  exact .step settled_two.reachable
    (⟨0, rfl⟩ : Step _ (.setMaxBufferSize 4 true) (.status true) _)

/-! ### Refused writes -/

/-- The source of a write. -/
def Op.pSourceBuff : Op T → Option (ℕ → T)
  | .writeBlock pSourceBuff _ _ => pSourceBuff
  | .writeBlockEntriesPerBlock pSourceBuff _ _ _ => pSourceBuff
  | _ => none

/-- The number of entries that a write is asked to store. -/
def Op.writeSize : Op T → ℕ
  | .writeBlock _ blockSize _ => blockSize
  | .writeBlockEntriesPerBlock _ entriesPerBlock blockSize _ =>
    toSize (entriesPerBlock * blockSize)
  | _ => 0

/-- A write from a sized buffer fails its checks and changes nothing, or runs its loop. -/
theorem Sized.exec_write (h : s.Sized) {op : Op T} {bOverwrite : Bool}
    (hwrite : op.IsWrite bOverwrite) {fuel : ℕ} {reply : Reply T}
    (hcall : s.exec fuel op = some (reply, s')) :
    s' = s ∨ ∃ source value, op.pSourceBuff = some source ∧ reply = .count value ∧
      s.writeEntries fuel source op.writeSize bOverwrite = some (value, s') := by
  cases op with
  | writeBlock p blockSize permission =>
    obtain rfl : permission = bOverwrite := hwrite
    simp only [exec, CVRingBuffer.writeBlock, h.clampBufferSize_eq,
      Option.map_eq_some_iff] at hcall
    obtain ⟨⟨value, after⟩, hr, hout⟩ := hcall
    obtain ⟨rfl, rfl⟩ := Prod.mk.inj hout
    cases p with
    | none => exact .inl (Prod.mk.inj (Option.some.inj hr)).2.symm
    | some source =>
      simp only at hr
      split_ifs at hr with hrefused
      · exact .inl (Prod.mk.inj (Option.some.inj hr)).2.symm
      · exact .inr ⟨source, value, rfl, rfl, hr⟩
  | writeBlockEntriesPerBlock p entriesPerBlock blockSize permission =>
    obtain rfl : permission = bOverwrite := hwrite
    simp only [exec, CVRingBuffer.writeBlockEntriesPerBlock, h.clampBufferSize_eq,
      Option.map_eq_some_iff] at hcall
    obtain ⟨⟨value, after⟩, hr, hout⟩ := hcall
    obtain ⟨rfl, rfl⟩ := Prod.mk.inj hout
    cases p with
    | none => exact .inl (Prod.mk.inj (Option.some.inj hr)).2.symm
    | some source =>
      simp only at hr
      split_ifs at hr with hrefused hcount
      · exact .inl (Prod.mk.inj (Option.some.inj hr)).2.symm
      · exact .inl (Prod.mk.inj (Option.some.inj hr)).2.symm
      · exact .inr ⟨source, value, rfl, rfl, hr⟩
  | _ => exact hwrite.elim

/-- A write of fewer than `2 ^ 31` entries that may not overwrite and returns a negative value has
changed nothing, or its value is `-5` and it has stored a proper prefix of its block, up to the slot
of the oldest entry. In a state of the index invariant this prefix is what there was room for, so
that a buffer that was full has not changed. -/
theorem refused_write (h : Reachable s) {op : Op T} (hwrite : op.IsWrite false)
    (hcount : op.writeSize < 2 ^ 31) {value : ℤ} (hneg : value < 0)
    (hstep : Step s op (.count value) s') :
    s' = s ∨
      value = -5 ∧ ∃ source count, op.pSourceBuff = some source ∧ count < op.writeSize ∧
        s' = s.storeMany source count ∧ s.m_currentDataSize + count ≤ s.m_bufferSize ∧
        s'.m_readIdx = s.m_readIdx ∧ s'.m_writeIdx = s.m_readIdx ∧
        (Indexed N s → count = N - s.m_currentDataSize ∧
          s'.stored = s.stored ++ block source 0 count ∧ s'.m_currentDataSize = N) := by
  obtain ⟨fuel, hfuel⟩ := hstep
  rcases h.sized.exec_write hwrite hfuel with hsame | ⟨source, value', hsource, hvalue, hcall⟩
  · exact .inl hsame
  obtain rfl : value = value' := by
    cases hvalue
    rfl
  have hrefused := refused_of_writeEntries h.sized hcount hcall hneg
  rcases hrefused with hsame | ⟨hvalue, count, hlt, rfl, hfit, hmeet⟩
  · exact .inl hsame
  rcases Nat.eq_zero_or_pos count with rfl | hpos
  · exact .inl rfl
  · exact .inr ⟨hvalue, source, count, hsource, hlt, rfl, hfit, readIdx_storeMany s source count,
      hmeet, fun hindexed ↦ hindexed.storeMany_fills hpos hfit hmeet⟩

/-- Two entries written to a buffer of two that holds one. -/
theorem refused_write_two :
    ofCells [7, 8] 2 0 0 = ofCells [7, 0] 1 1 0 ∨
      (-5 : ℤ) = -5 ∧ ∃ source count,
        (Op.writeBlock (some fun offset ↦ 8 + offset) 2 false).pSourceBuff = some source ∧
        count < (Op.writeBlock (some fun offset ↦ 8 + offset) 2 false).writeSize ∧
        ofCells [7, 8] 2 0 0 = (ofCells [7, 0] 1 1 0).storeMany source count ∧
        (ofCells [7, 0] 1 1 0).m_currentDataSize + count ≤ (ofCells [7, 0] 1 1 0).m_bufferSize ∧
        (ofCells [7, 8] 2 0 0).m_readIdx = (ofCells [7, 0] 1 1 0).m_readIdx ∧
        (ofCells [7, 8] 2 0 0).m_writeIdx = (ofCells [7, 0] 1 1 0).m_readIdx ∧
        (Indexed 2 (ofCells [7, 0] 1 1 0) →
          count = 2 - (ofCells [7, 0] 1 1 0).m_currentDataSize ∧
          (ofCells [7, 8] 2 0 0).stored = (ofCells [7, 0] 1 1 0).stored ++ block source 0 count ∧
          (ofCells [7, 8] 2 0 0).m_currentDataSize = 2) := by
  have hstep : Step (ofCells [7, 0] 1 1 0) (.writeBlock (some fun offset ↦ 8 + offset) 2 false)
      (.count (-5)) (ofCells [7, 8] 2 0 0) := ⟨2, rfl⟩
  refine refused_write settled_one.reachable ?_ ?_ (by decide) hstep
  · rfl
  · decide

theorem exists_built {size : ℕ} (hpos : 0 < size) (hmax : size < 2 ^ 63) :
    ∃ s : CVRingBuffer T, Built size s := by
  refine ⟨(unsized 1).resized size, .entries (show construct size true = _ from ?_)⟩
  rw [construct, if_pos hpos, setBufferSize_eq, if_pos hpos, if_pos ⟨rfl, hmax⟩]
  rfl

/-- Two negative answers of writes that have stored something: `-5` after one of two entries, for
which there was room, and the length of a block of `2 ^ 31` entries as an `int`. -/
theorem refused_write_stores :
    (Reachable (ofCells [7, 0] 1 1 0) ∧
      Step (ofCells [7, 0] 1 1 0) (.writeBlock (some fun offset ↦ 8 + offset) 2 false)
        (.count (-5)) (ofCells [7, 8] 2 0 0) ∧
      (ofCells [7, 8] 2 0 0).stored ≠ (ofCells [7, 0] 1 1 0).stored ∧
      (ofCells [7, 8] 2 0 0).m_currentDataSize ≠ (ofCells [7, 0] 1 1 0).m_currentDataSize) ∧
    ∃ s s' : CVRingBuffer ℕ, Reachable s ∧
      Step s (.writeBlock (some fun _ ↦ 7) (2 ^ 31) false) (.count (-2 ^ 31)) s' ∧
      s'.m_currentDataSize ≠ s.m_currentDataSize := by
  constructor
  · exact ⟨settled_one.reachable, ⟨2, rfl⟩, by decide, by decide⟩
  · obtain ⟨s, hbuilt⟩ : ∃ s : CVRingBuffer ℕ, Built (2 ^ 31) s :=
      exists_built (by norm_num) (by norm_num)
    obtain ⟨hindexed, hstored⟩ := hbuilt.indexed (by norm_num)
    have hempty : s.m_currentDataSize = 0 := by
      rw [← length_stored, hstored, List.length_nil]
    obtain ⟨s', hstep, h', hqueue⟩ := hindexed.step_offer (by norm_num)
      (show AcceptedWrite _ _ (fun _ ↦ 7) (2 ^ 31) false from .entries (le_refl _))
    rw [hempty, if_pos (Nat.sub_zero _).ge] at hstep
    refine ⟨s, s', .built hbuilt, hstep, ?_⟩
    have hoffer : s'.stored = s.stored ++ (block (fun _ ↦ 7) 0 (2 ^ 31)).take
        (2 ^ 31 - s.stored.length) := congrArg BoundedQueue.entries hqueue
    have hlength := congrArg List.length hoffer
    rw [hstored, List.nil_append, List.length_take, length_block, List.length_nil, Nat.sub_zero,
      Nat.min_self, length_stored] at hlength
    rw [hlength, hempty]
    norm_num

end RdbLibs.Buffer.CVRingBuffer
