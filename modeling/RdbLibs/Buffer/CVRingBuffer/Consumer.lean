import RdbLibs.Buffer.CVRingBuffer.Reachable

/-!
# What reads and deletions do to the queue of a `CVRingBuffer`

A consumer wants reads to deliver the oldest entries (`ReadsOldest`) and deletions to remove them
(`DeletesOldest`). Both rest on equal indices meaning an empty buffer, which they do not if the
buffer is full: a full buffer is read as if it were empty (`reads_oldest_iff`), and the deletion of
one entry empties it (`deletes_oldest_iff`). Reading with deletion and reading before deletion
agree in every settled state (`read_delete_eq_peek_delete`).
-/

set_option autoImplicit false
set_option relaxedAutoImplicit false

namespace RdbLibs.Buffer.CVRingBuffer

open MachineWord

variable {T : Type*} [Zero T] {N : ℕ} {s s' : CVRingBuffer T}

/-! ### Reading -/

/-- The read returns the number of entries that it was asked for, or of all that are stored if they
are fewer, and delivers that many of the oldest; it has removed exactly those if it was to. -/
def ReadsOldest (s : CVRingBuffer T) (op : Op T) (numEntriesToRead : ℕ) (deleteEntries : Bool) :
    Prop :=
  ∃ target s',
    Step s op (.read (min numEntriesToRead s.m_currentDataSize : ℕ) (some target)) s' ∧
    block target 0 (min numEntriesToRead s.m_currentDataSize) =
      s.stored.take (min numEntriesToRead s.m_currentDataSize) ∧
    s'.stored = if deleteEntries then s.stored.drop (min numEntriesToRead s.m_currentDataSize)
      else s.stored

/-- A settled buffer that is not empty has the index invariant, whatever its capacity. -/
theorem Settled.indexed_of_pos (h : Settled s) (hsize : s.m_bufferSize = N)
    (hpos : 0 < s.m_currentDataSize) : Indexed N s := by
  rcases h.sound with hblank | hindexed
  · exact absurd hblank.dataSize_eq hpos.ne'
  · rw [← hsize]
    exact hindexed

theorem Indexed.readsOldest (h : Indexed N s) {op : Op T} {target : ℕ → T} {numEntriesToRead : ℕ}
    {deleteEntries : Bool} (haccepted : AcceptedRead N op target numEntriesToRead deleteEntries)
    (hroom : s.m_currentDataSize < N)
    (hint : min numEntriesToRead s.m_currentDataSize < 2 ^ 31)
    (haddress : Addressable N s.m_readIdx s.m_currentDataSize numEntriesToRead) :
    ReadsOldest s op numEntriesToRead deleteEntries := by
  have hcount : min numEntriesToRead s.m_currentDataSize ≤ s.m_currentDataSize :=
    Nat.min_le_right _ _
  have hstep := h.step_read hroom haccepted (by omega) haddress
  rw [toInt_of_lt hint] at hstep
  refine ⟨_, _, hstep, ?_, ?_⟩
  · have hlength : (s.stored.take (min numEntriesToRead s.m_currentDataSize)).length =
        min numEntriesToRead s.m_currentDataSize := by
      rw [List.length_take, length_stored, Nat.min_eq_left hcount]
    have hblock := block_deliver
      (s.stored.take (min numEntriesToRead s.m_currentDataSize)) target 0
    rw [hlength] at hblock
    exact hblock
  · cases deleteEntries with
    | false => rfl
    | true => exact stored_dropOldest hcount

/-- In a settled buffer that is not empty, a read delivers the oldest entries if the buffer is not
full, the number fits an `int`, and the slots that the read visits have 32-bit numbers. In a buffer
of at most `2 ^ 32` entries, where they have, the first two conditions are necessary as well. -/
theorem reads_oldest_iff (h : Settled s) (hsize : s.m_bufferSize = N)
    (hpos : 0 < s.m_currentDataSize) {op : Op T} {target : ℕ → T} {numEntriesToRead : ℕ}
    {deleteEntries : Bool} (hmore : 1 ≤ numEntriesToRead)
    (haccepted : AcceptedRead N op target numEntriesToRead deleteEntries) :
    (s.m_currentDataSize < N → min numEntriesToRead s.m_currentDataSize < 2 ^ 31 →
      Addressable N s.m_readIdx s.m_currentDataSize numEntriesToRead →
        ReadsOldest s op numEntriesToRead deleteEntries) ∧
    (N ≤ 2 ^ 32 → (ReadsOldest s op numEntriesToRead deleteEntries ↔
      s.m_currentDataSize < N ∧ min numEntriesToRead s.m_currentDataSize < 2 ^ 31)) := by
  have hindexed : Indexed N s := h.indexed_of_pos hsize hpos
  refine ⟨fun hroom hint haddress ↦ hindexed.readsOldest haccepted hroom hint haddress, ?_⟩
  intro hN
  have haddress : Addressable N s.m_readIdx s.m_currentDataSize numEntriesToRead :=
    addressable_of_le hindexed.pos hN _ _ _
  have hlow : s.m_readIdx < 2 ^ 32 := hindexed.readIdx_lt.trans_le hN
  have hword : s.m_currentDataSize ≤ 2 ^ 32 := hindexed.dataSize_le.trans hN
  constructor
  · rintro ⟨target', s', hstep, _, _⟩
    have hroom : s.m_currentDataSize < N := by
      refine lt_of_le_of_ne hindexed.dataSize_le fun hfull ↦ ?_
      obtain ⟨hreply, _⟩ := hstep.unique (hindexed.step_read_full hfull hlow haccepted)
      have hvalue := (Reply.read.inj hreply).1
      omega
    refine ⟨hroom, ?_⟩
    obtain ⟨hreply, _⟩ := hstep.unique
      (hindexed.step_read hroom haccepted (by omega) haddress)
    exact (toInt_eq_self_iff (by omega)).mp (Reply.read.inj hreply).1.symm
  · rintro ⟨hroom, hint⟩
    exact hindexed.readsOldest haccepted hroom hint haddress

/-- Two entries read and deleted from a buffer of three that holds two. -/
theorem reads_oldest_iff_two :
    ReadsOldest (ofCells [7, 8, 0] 2 2 0) (.readBlock (some id) 3 true) 3 true :=
  ((reads_oldest_iff settled_two_of_three rfl (by decide) (by decide)
    (.entries (le_refl 3))).2 (by decide)).mpr ⟨by decide, by decide⟩

/-- A buffer of two that is full delivers nothing. -/
theorem full_buffer_reads_nothing :
    Reachable (ofCells [7, 8] 2 0 0) ∧ (ofCells [7, 8] 2 0 0).stored = [7, 8] ∧
      Step (ofCells [7, 8] 2 0 0) (.readBlock (some id) 2 true) (.read 0 (some id))
        (ofCells [7, 8] 2 0 0) ∧
      ¬ ReadsOldest (ofCells [7, 8] 2 0 0) (.readBlock (some id) 2 true) 2 true := by
  have hstep : Step (ofCells [7, 8] 2 0 0) (.readBlock (some id) 2 true) (.read 0 (some id))
      (ofCells [7, 8] 2 0 0) := ⟨1, rfl⟩
  refine ⟨settled_two.reachable, rfl, hstep, ?_⟩
  rintro ⟨target, s', hread, _, _⟩
  have hvalue := (Reply.read.inj (hread.unique hstep).1).1
  exact absurd hvalue (by decide)

/-! ### Deleting -/

/-- Nothing is left exactly when as many entries are removed as there are. -/
theorem drop_stored_eq_nil_iff {n : ℕ} (hn : n ≤ s.m_currentDataSize) :
    [] = s.stored.drop n ↔ n = s.m_currentDataSize := by
  rw [eq_comm, List.drop_eq_nil_iff, length_stored]
  omega

/-- The deletion of one entry. -/
theorem Indexed.deletesEntry_iff (h : Indexed N s) (hpos : 0 < s.m_currentDataSize) :
    (∃ s', Step s .deleteEntry (.status true) s' ∧ s'.stored = s.stored.drop 1) ↔
      s.m_currentDataSize < N ∨ N = 1 := by
  rcases h.dataSize_le.lt_or_eq with hroom | hfull
  · have hall : ¬ ErasesAll N s.m_currentDataSize 1 := by
      rw [ErasesAll]
      omega
    have herase := h.erase_of_not_erasesAll hpos hall hpos
    have hstep := step_deleteEntry s
    rw [herase] at hstep
    exact iff_of_true ⟨_, hstep, stored_dropOldest hpos⟩ (.inl hroom)
  · have hall : ErasesAll N s.m_currentDataSize 1 := .inl ⟨rfl, hfull⟩
    have hempty := h.stored_erase_of_erasesAll hpos hall
    constructor
    · rintro ⟨s', hstep, hstored⟩
      obtain ⟨_, rfl⟩ := hstep.unique (step_deleteEntry s)
      have hone := (drop_stored_eq_nil_iff hpos).mp (hempty ▸ hstored)
      omega
    · intro hone
      have hstatus : (s.erase 1).1 = true := by
        rw [h.erase_eq, if_neg hpos.ne', if_pos rfl, if_pos hfull]
      have hstep := step_deleteEntry s
      rw [hstatus] at hstep
      refine ⟨_, hstep, ?_⟩
      rw [hempty]
      exact (drop_stored_eq_nil_iff hpos).mpr (by omega)

/-- The deletion of some entries. -/
theorem Indexed.deletesBlock_iff (h : Indexed N s) (hpos : 0 < s.m_currentDataSize) {n : ℕ}
    (hn : n ≤ s.m_currentDataSize) :
    (∃ reply s', Step s (.deleteBlock n) reply s' ∧ s'.stored = s.stored.drop n) ↔
      if ErasesAll N s.m_currentDataSize (toUnsigned n) then n = s.m_currentDataSize
      else n < 2 ^ 32 := by
  have hlow : toUnsigned n ≤ n := Nat.mod_le _ _
  by_cases hall : ErasesAll N s.m_currentDataSize (toUnsigned n)
  · rw [if_pos hall, ← drop_stored_eq_nil_iff hn]
    have hempty := h.stored_erase_of_erasesAll hpos hall
    constructor
    · rintro ⟨reply, s', hstep, hstored⟩
      obtain ⟨_, rfl⟩ := hstep.unique (step_deleteBlock s n)
      rw [← hempty]
      exact hstored
    · intro hdrop
      exact ⟨_, _, step_deleteBlock s n, hempty.trans hdrop⟩
  · rw [if_neg hall]
    have herase := h.erase_of_not_erasesAll hpos hall (hlow.trans hn)
    constructor
    · rintro ⟨reply, s', hstep, hstored⟩
      obtain ⟨_, rfl⟩ := hstep.unique (step_deleteBlock s n)
      rw [herase, stored_dropOldest (hlow.trans hn)] at hstored
      have hlength := congrArg List.length hstored
      rw [List.length_drop, List.length_drop, length_stored] at hlength
      have heq : toUnsigned n = n := by omega
      rw [← heq]
      exact toUnsigned_lt n
    · intro hword
      refine ⟨_, _, step_deleteBlock s n, ?_⟩
      rw [herase, toUnsigned_of_lt hword]
      exact stored_dropOldest hn

/-- In a settled buffer that is not empty, the deletion of one entry answers `true` and removes the
oldest entry only, unless the buffer is full and has more than one slot. The deletion of `n` entries
removes the `n` oldest only, unless it empties the buffer or its number is taken modulo `2 ^ 32`. -/
theorem deletes_oldest_iff (h : Settled s) (hsize : s.m_bufferSize = N)
    (hpos : 0 < s.m_currentDataSize) :
    ((∃ s', Step s .deleteEntry (.status true) s' ∧ s'.stored = s.stored.drop 1) ↔
      s.m_currentDataSize < N ∨ N = 1) ∧
    ∀ n ≤ s.m_currentDataSize,
      ((∃ reply s', Step s (.deleteBlock n) reply s' ∧ s'.stored = s.stored.drop n) ↔
        if ErasesAll N s.m_currentDataSize (toUnsigned n) then n = s.m_currentDataSize
        else n < 2 ^ 32) := by
  have hindexed : Indexed N s := h.indexed_of_pos hsize hpos
  exact ⟨hindexed.deletesEntry_iff hpos, fun _ hn ↦ hindexed.deletesBlock_iff hpos hn⟩

/-- A buffer of three that holds two entries: the deletion of one leaves the other, and the deletion
of two leaves none. -/
theorem deletes_oldest_iff_two :
    (∃ s', Step (ofCells [7, 8, 0] 2 2 0) .deleteEntry (.status true) s' ∧ s'.stored = [8]) ∧
      ∃ reply s', Step (ofCells [7, 8, 0] 2 2 0) (.deleteBlock 2) reply s' ∧ s'.stored = [] := by
  have hiff := deletes_oldest_iff settled_two_of_three rfl (by decide)
  exact ⟨hiff.1.mpr (.inl (by decide)), (hiff.2 2 (le_refl 2)).mpr (by decide)⟩

/-- The deletion of one entry of a full buffer removes the other entry too. -/
theorem full_buffer_deletes_all :
    Reachable (ofCells [7, 8] 2 0 0) ∧ (ofCells [7, 8] 2 0 0).stored = [7, 8] ∧
      Step (ofCells [7, 8] 2 0 0) .deleteEntry (.status true) (ofCells [7, 8] 0 0 0) ∧
      Step (ofCells [7, 8] 2 0 0) (.deleteBlock 1) (.status true) (ofCells [7, 8] 0 0 0) ∧
      (ofCells [7, 8] 0 0 0).stored ≠ [8] :=
  ⟨settled_two.reachable, rfl, ⟨0, rfl⟩, ⟨0, rfl⟩, by decide⟩

/-! ### Reading and deleting -/

omit [Zero T] in
/-- Below `2 ^ 31` entries of capacity, `erase` removes the oldest entries, if it is not asked for
one entry of a full buffer. -/
theorem Indexed.erase_eq_dropOldest (h : Indexed N s) (hN : N < 2 ^ 31) {count : ℕ}
    (hle : count ≤ s.m_currentDataSize) (hfull : count ≠ 1 ∨ s.m_currentDataSize ≠ N) :
    (s.erase count).2 = s.dropOldest count := by
  rcases Nat.eq_zero_or_pos s.m_currentDataSize with hempty | hpos
  · obtain rfl : count = 0 := by omega
    rw [h.erase_eq, if_pos hempty, h.dropOldest_zero]
  · have hsize := h.dataSize_le
    rw [h.erase_of_not_erasesAll hpos (not_erasesAll_of_lt hN (by omega) hfull) hle]

/-- In a settled buffer below `2 ^ 31` entries of capacity, a read that deletes has the answer and
the target of the same read without deleting, and leaves the state that the deletion of as many
entries leaves after that. -/
theorem read_delete_eq_peek_delete (h : Settled s) (hsize : s.m_bufferSize = N) (hpos : 1 ≤ N)
    (hN : N < 2 ^ 31) {peek take : Op T} {target : ℕ → T} {numEntriesToRead : ℕ}
    (haccepted : AcceptedRead N peek target numEntriesToRead false)
    (hdeletes : AcceptedRead N take target numEntriesToRead true) {value : ℤ}
    {target' : Option (ℕ → T)} {peeked : CVRingBuffer T}
    (hpeek : Step s peek (.read value target') peeked) :
    0 ≤ value ∧ ∃ s' reply, Step s take (.read value target') s' ∧
      Step peeked (.deleteBlock value.toNat) reply s' := by
  have hindexed := h.indexed hsize hpos
  have hle := hindexed.dataSize_le
  have hlow := hindexed.readIdx_lt
  rcases hle.lt_or_eq with hroom | hfull
  · have hcount : min numEntriesToRead s.m_currentDataSize ≤ s.m_currentDataSize :=
      Nat.min_le_right _ _
    have haddress : Addressable N s.m_readIdx s.m_currentDataSize numEntriesToRead :=
      addressable_of_le hindexed.pos (by omega) _ _ _
    obtain ⟨hreply, rfl⟩ := hpeek.unique
      (hindexed.step_read hroom haccepted (by omega) haddress)
    obtain ⟨rfl, rfl⟩ := Reply.read.inj hreply
    have htake := hindexed.step_read hroom hdeletes (by omega) haddress
    rw [toInt_of_lt (by omega)] at htake ⊢
    have hdelete := step_deleteBlock peeked (min numEntriesToRead peeked.m_currentDataSize)
    rw [toUnsigned_of_lt (by omega),
      hindexed.erase_eq_dropOldest hN hcount (.inr hroom.ne)] at hdelete
    exact ⟨Int.natCast_nonneg _, _, _, htake, hdelete⟩
  · obtain ⟨hreply, rfl⟩ := hpeek.unique
      (hindexed.step_read_full hfull (by omega) haccepted)
    obtain ⟨rfl, rfl⟩ := Reply.read.inj hreply
    have htake := hindexed.step_read_full hfull (by omega) hdeletes
    have hdelete := step_deleteBlock peeked 0
    rw [toUnsigned_of_lt (by omega), hindexed.erase_eq_dropOldest hN (Nat.zero_le _)
      (.inl (by omega)), hindexed.dropOldest_zero] at hdelete
    exact ⟨le_refl 0, _, _, htake, hdelete⟩

/-- Three entries are asked of a buffer of three that holds two. -/
theorem read_delete_eq_peek_delete_two :
    (0 : ℤ) ≤ 2 ∧ ∃ s' reply,
      Step (ofCells [7, 8, 0] 2 2 0) (.readBlock (some fun _ ↦ 0) 3 true)
        (.read 2 (some (deliver (fun _ ↦ 0) 0 [7, 8]))) s' ∧
      Step (ofCells [7, 8, 0] 2 2 0) (.deleteBlock (2 : ℤ).toNat) reply s' :=
  read_delete_eq_peek_delete settled_two_of_three rfl (by decide) (by decide)
    (.entries (le_refl 3)) (.entries (le_refl 3))
    (⟨3, rfl⟩ : Step (ofCells [7, 8, 0] 2 2 0) (.readBlock (some fun _ ↦ 0) 3 false)
      (.read 2 (some (deliver (fun _ ↦ 0) 0 [7, 8]))) (ofCells [7, 8, 0] 2 2 0))

/-- A buffer of two that held one entry in its second slot and was resized to four. The read visits
three slots, while one entry is counted: reading with deletion moves the read index by one, and the
deletion of three entries resets it. -/
theorem peek_delete_after_growth :
    Reachable (ofCells [0, 0, 0, 0] 1 0 1) ∧
      Step (ofCells [0, 0, 0, 0] 1 0 1) (.readBlock (some id) 4 false)
        (.read 3 (some (deliver id 0 [0, 0, 0]))) (ofCells [0, 0, 0, 0] 1 0 1) ∧
      Step (ofCells [0, 0, 0, 0] 1 0 1) (.readBlock (some id) 4 true)
        (.read 3 (some (deliver id 0 [0, 0, 0]))) (ofCells [0, 0, 0, 0] 0 0 2) ∧
      Step (ofCells [0, 0, 0, 0] 1 0 1) (.deleteBlock 3) (.status true)
        (ofCells [0, 0, 0, 0] 0 0 0) ∧
      ofCells [0, 0, 0, 0] 0 0 2 ≠ ofCells [0, 0, 0, 0] 0 0 0 := by
  refine ⟨?_, ⟨4, rfl⟩, ⟨4, rfl⟩, ⟨0, rfl⟩, by decide⟩
  have hread : Reachable (ofCells [7, 0] 0 1 1) :=
    .step settled_one.reachable
      (⟨2, rfl⟩ : Step _ (.readBlock (some id) 1 true) (.read 1 (some (deliver id 0 [7]))) _)
  have hwritten : Reachable (ofCells [7, 7] 1 0 1) :=
    .step hread (⟨2, rfl⟩ : Step _ (.writeBlock (some fun _ ↦ 7) 1 false) (.count 1) _)
  exact .step hwritten (⟨0, rfl⟩ : Step _ (.setMaxBufferSize 4 true) (.status true) _)

end RdbLibs.Buffer.CVRingBuffer
