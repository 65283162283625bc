import RdbLibs.Foundations.MachineWord
import RdbLibs.Foundations.Runs
import RdbLibs.Foundations.SequenceEdits
import RdbLibs.Foundations.WhileLoop

/-!
# `CVectorBuffer`

The class of `Src/Buffer/CVectorBuffer.h`: a `std::vector` with a bound on the number of its
entries. Every function locks the mutex for its whole body, so that calls follow one another and the
mutex is left out, and so is `get`, whose body names a variable that is not declared. The loops of
`readBlock` and `writeBlock` count in an `unsigned int` up to a `size_t`: for `2 ^ 32` entries or
more the first never ends, and the second ends when `push_back` throws. `max_size` is that of the
vector, and `available` is the number of entries that a call of `writeBlock` finds memory for.

`setMaxBufferSize` does not look at the entries that are there, so that the bound holds in a run
exactly when no call sets it below their number, if no `writeBlock` is endless (`KeepsRoom`). The
checks of `erase` miss a `start` below `-1` (`deletesExactly_iff`).
-/

set_option autoImplicit false
set_option relaxedAutoImplicit false

namespace RdbLibs.Buffer

open CheckedMemory MachineWord Runs WhileLoop

/-- `CVectorBuffer`. -/
structure CVectorBuffer (T : Type*) where
  m_dataBuffer : List T
  m_maxSize : ℕ

namespace CVectorBuffer

universe u

variable {T : Type u}

/-- The constructor. -/
def new (buffSize : ℕ) : CVectorBuffer T := ⟨[], if 0 < buffSize then buffSize else 0⟩

/-- What a call answers: nothing, a `bool`, an `int`, or an exception. -/
inductive Answer
  | nothing
  | bool (out : Bool)
  | int (out : ℤ)
  | threw
deriving DecidableEq

/-- `CVectorBuffer::erase` of one entry. -/
def eraseEntry (b : CVectorBuffer T) (pos : ℤ) : Except Fault (Bool × CVectorBuffer T) := do
  let bufSize := b.m_dataBuffer.length
  if toInt bufSize ≤ pos then return (false, b)
  let pos := if pos = -1 then 0 else pos
  let m_dataBuffer ← eraseRange b.m_dataBuffer pos (pos + 1)
  if bufSize - 1 < m_dataBuffer.length then return (false, { b with m_dataBuffer })
  return (true, { b with m_dataBuffer })

/-- `CVectorBuffer::erase` of the entries from `start` to before `stop`. -/
def erase (b : CVectorBuffer T) (start stop : ℤ) : Except Fault (Bool × CVectorBuffer T) := do
  let bufSize := b.m_dataBuffer.length
  if toInt bufSize ≤ start then return (false, b)
  if toInt bufSize < stop then return (false, b)
  let start := if start = -1 then 0 else start
  let stop := if stop = -1 then toInt bufSize else stop
  if stop ≤ start then return (false, b)
  let m_dataBuffer ← eraseRange b.m_dataBuffer start stop
  if bufSize - intToSize (stop - start) < m_dataBuffer.length then
    return (false, { b with m_dataBuffer })
  return (true, { b with m_dataBuffer })

/-- `CVectorBuffer::clear`. -/
def clear (b : CVectorBuffer T) : CVectorBuffer T := { b with m_dataBuffer := [] }

/-- `CVectorBuffer::setMaxBufferSize`. -/
def setMaxBufferSize (max_size : ℕ) (b : CVectorBuffer T) (buffSize : ℕ) :
    Bool × CVectorBuffer T :=
  if 0 < buffSize then
    if max_size < buffSize then (false, b) else (true, { b with m_maxSize := buffSize })
  else (false, b)

/-- `CVectorBuffer::set`. `at` throws where there is no entry. -/
def set (b : CVectorBuffer T) (pos : ℕ) (val : T) : Answer × CVectorBuffer T :=
  if b.m_maxSize ≤ pos then (.bool false, b)
  else if pos < b.m_dataBuffer.length then
    (.bool true, { b with m_dataBuffer := b.m_dataBuffer.set pos val })
  else (.threw, b)

/-- One pass of the loop of `readBlock`, with its variable `x` and the memory of the caller. -/
def readPass (b : CVectorBuffer T) (readSize : ℕ) (state : ℕ × List T) :
    Pass (ℕ × List T) (Except Fault (List T)) :=
  if state.1 < readSize then
    match load b.m_dataBuffer state.1 >>= store state.2 state.1 with
    | .ok target => .again (toUnsigned (state.1 + 1), target)
    | .error fault => .leave (.error fault)
  else .leave (.ok state.2)

/-- `CVectorBuffer::readBlock`. The pointer is null or points to the entries given. -/
def readBlock (fuel : ℕ) (b : CVectorBuffer T) (pTargetBuff : Option (List T)) (blockSize : ℕ)
    (deleteEntries : Bool) : Option (Except Fault (ℤ × Option (List T) × CVectorBuffer T)) :=
  match pTargetBuff with
  | none => some (.ok (-1, none, b))
  | some target =>
    if b.m_maxSize < blockSize then some (.ok (-1, some target, b))
    else
      let numSamples := b.m_dataBuffer.length
      if numSamples < 1 then some (.ok (0, some target, b))
      else
        let readSize := if numSamples < blockSize then numSamples else blockSize
        (loop (readPass b readSize) fuel (0, target)).map fun read ↦ do
          let target ← read
          if deleteEntries = true then
            let (_, b) ← b.erase 0 (toInt readSize)
            if b.m_dataBuffer.length ≠ numSamples - readSize then return (-1, some target, b)
            return (toInt readSize, some target, b)
          return (toInt readSize, some target, b)

/-- The loop of `writeBlock`, from `x` on, with memory for `available` entries. The answer is
whether the loop ends without an exception. -/
def pushFrom (pBuff : List T) (blockSize : ℕ) : ℕ → ℕ → List T → Except Fault (Bool × List T)
  | 0, x, m_dataBuffer => do
    if x < blockSize then
      let _ ← load pBuff x
      return (false, m_dataBuffer)
    return (true, m_dataBuffer)
  | available + 1, x, m_dataBuffer => do
    if x < blockSize then
      let sampleValue ← load pBuff x
      return ← pushFrom pBuff blockSize available (toUnsigned (x + 1))
        (m_dataBuffer ++ [sampleValue])
    return (true, m_dataBuffer)

/-- `CVectorBuffer::writeBlock`. The vector has no more than `max_size` entries. -/
def writeBlock (max_size : ℕ) (b : CVectorBuffer T) (pBuff : List T) (blockSize available : ℕ) :
    Except Fault (Answer × CVectorBuffer T) := do
  let bufSize := b.m_dataBuffer.length
  if b.m_maxSize < toSize (bufSize + blockSize) then return (.bool false, b)
  let (ended, m_dataBuffer) ←
    pushFrom pBuff blockSize (min available (max_size - bufSize)) 0 b.m_dataBuffer
  return (if ended then .bool true else .threw, { b with m_dataBuffer })

/-- `CVectorBuffer::deleteEntry`. Its call of `erase` can mean either overload, and means this one
according to the comments. -/
def deleteEntry (b : CVectorBuffer T) (pos : ℤ) : Except Fault (Bool × CVectorBuffer T) :=
  b.eraseEntry pos

/-- `CVectorBuffer::deleteBlock`. -/
def deleteBlock (b : CVectorBuffer T) (start stop : ℤ) : Except Fault (Bool × CVectorBuffer T) :=
  b.erase start stop

/-- `CVectorBuffer::deleteBlockFromStart`. -/
def deleteBlockFromStart (b : CVectorBuffer T) (stop : ℤ) :
    Except Fault (Bool × CVectorBuffer T) :=
  b.erase 0 stop

/-! ### Deletions -/

variable {b : CVectorBuffer T} {start stop : ℤ}

/-- The checks of `erase` refuse the range. -/
def Refuses (b : CVectorBuffer T) (start stop : ℤ) : Prop :=
  toInt b.m_dataBuffer.length ≤ start ∨ toInt b.m_dataBuffer.length < stop ∨
    (if stop = -1 then toInt b.m_dataBuffer.length else stop) ≤ if start = -1 then 0 else start

/-- `deleteBlock` answers `false` and changes nothing, or answers `true` and removes the entries of
the range, where `-1` stands for the beginning and for the end. -/
def DeletesExactly (b : CVectorBuffer T) (start stop : ℤ) : Prop :=
  let s := if start = -1 then 0 else start
  let e := if stop = -1 then (b.m_dataBuffer.length : ℤ) else stop
  ∃ out b', b.deleteBlock start stop = .ok (out, b') ∧
    (out = false ∧ b' = b ∨
      out = true ∧ 0 ≤ s ∧ s < e ∧ e ≤ b.m_dataBuffer.length ∧
        b' = { b with
          m_dataBuffer := b.m_dataBuffer.take s.toNat ++ b.m_dataBuffer.drop e.toNat })

theorem erase_of_refuses (h : b.Refuses start stop) : b.erase start stop = .ok (false, b) := by
  unfold erase
  dsimp only
  by_cases hstart : toInt b.m_dataBuffer.length ≤ start
  · rw [if_pos hstart]
    rfl
  rw [if_neg hstart]
  by_cases hstop : toInt b.m_dataBuffer.length < stop
  · rw [if_pos hstop]
    rfl
  rw [if_neg hstop, if_pos ((h.resolve_left hstart).resolve_left hstop)]
  rfl

/-- What is not refused goes to the `erase` of the vector, with the bounds that the defaults stand
for. -/
theorem erase_of_not_refuses (h : ¬b.Refuses start stop) {s e : ℤ}
    (hs : s = if start = -1 then 0 else start)
    (he : e = if stop = -1 then toInt b.m_dataBuffer.length else stop) :
    b.erase start stop = eraseRange b.m_dataBuffer s e >>= fun m_dataBuffer ↦
      .ok (true, { b with m_dataBuffer }) := by
  have hle := toInt_le b.m_dataBuffer.length
  have hlt := toInt_lt b.m_dataBuffer.length
  obtain ⟨hstart, hrest⟩ := not_or.mp h
  obtain ⟨hstop, horder⟩ := not_or.mp hrest
  rw [← hs, ← he] at horder
  unfold erase
  dsimp only
  rw [if_neg hstart, if_neg hstop, ← hs, ← he, if_neg horder]
  cases hrange : eraseRange b.m_dataBuffer s e with
  | error fault => rfl
  | ok m_dataBuffer =>
    have hlength := length_of_eraseRange hrange
    have hsize : intToSize (e - s) = (e - s).toNat := by
      have hinside := inside_of_eraseRange hrange
      have hbelow : e < 2 ^ 31 := by
        rw [he]
        split_ifs <;> omega
      rw [intToSize]
      omega
    rw [ok_bind, ok_bind, hsize, if_neg (by omega)]
    rfl

/-- A range that is deleted as it should be does not start below `-1`, and a default for its end is
an `int`: one that is converted to another number leaves more entries. -/
theorem bounds_of_deletesExactly (h : ¬b.Refuses start stop)
    (hexact : b.DeletesExactly start stop) :
    -1 ≤ start ∧ (stop = -1 → b.m_dataBuffer.length < 2 ^ 31) := by
  have hlt := toInt_lt b.m_dataBuffer.length
  obtain ⟨out, b', hok, hcases⟩ := hexact
  rw [deleteBlock, erase_of_not_refuses h rfl rfl] at hok
  obtain ⟨entries, hrange, hresult⟩ := of_bind_eq_ok hok
  obtain ⟨rfl, rfl⟩ := Prod.mk.inj (Except.ok.inj hresult)
  have hinside := inside_of_eraseRange hrange
  have hlength := length_of_eraseRange hrange
  obtain ⟨-, -, -, -, hb'⟩ := hcases.resolve_left fun hfalse ↦ Bool.noConfusion hfalse.1
  have hclaimed := congrArg (fun b ↦ b.m_dataBuffer.length) hb'
  dsimp only at hclaimed
  rw [List.length_append, List.length_take, List.length_drop, hlength] at hclaimed
  constructor
  · have hstart := hinside.1
    split_ifs at hstart <;> omega
  · intro hdefault
    rw [if_pos hdefault] at hclaimed hinside
    rw [if_pos hdefault] at hclaimed
    by_contra hlong
    omega

/-- Conversely these bounds are those that `erase` of the vector asks for. -/
theorem deletesExactly_of_bounds (h : ¬b.Refuses start stop) (hstart : -1 ≤ start)
    (hshort : stop = -1 → b.m_dataBuffer.length < 2 ^ 31) : b.DeletesExactly start stop := by
  have hle := toInt_le b.m_dataBuffer.length
  have herase := erase_of_not_refuses h rfl rfl
  obtain ⟨-, hrest⟩ := not_or.mp h
  obtain ⟨hstop, horder⟩ := not_or.mp hrest
  have hpos : 0 ≤ if start = -1 then 0 else start := by
    split_ifs <;> omega
  have hend : (if stop = -1 then toInt b.m_dataBuffer.length else stop) =
      if stop = -1 then (b.m_dataBuffer.length : ℤ) else stop := by
    split_ifs with hdefault
    · exact toInt_of_lt (hshort hdefault)
    · rfl
  have hlast : (if stop = -1 then (b.m_dataBuffer.length : ℤ) else stop) ≤
      b.m_dataBuffer.length := by
    split_ifs
    · exact le_rfl
    · omega
  rw [hend] at herase horder
  have hbefore := Int.not_le.mp horder
  rw [eraseRange_of_inside hpos hbefore.le hlast] at herase
  exact ⟨true, _, herase, .inr ⟨rfl, hpos, hbefore, hlast, rfl⟩⟩

/-- A range that is not refused is deleted as it should be exactly when `start` is not below `-1`
and the end of the entries, where `stop` stands for it, is an `int`. -/
theorem deletesExactly_iff (b : CVectorBuffer T) (start stop : ℤ) :
    b.DeletesExactly start stop ↔ (¬b.Refuses start stop →
      -1 ≤ start ∧ (stop = -1 → b.m_dataBuffer.length < 2 ^ 31)) := by
  by_cases h : b.Refuses start stop
  · exact iff_of_true ⟨false, b, erase_of_refuses h, .inl ⟨rfl, rfl⟩⟩ fun hnot ↦ absurd h hnot
  rw [imp_iff_right h]
  exact ⟨bounds_of_deletesExactly h, fun hbounds ↦
    deletesExactly_of_bounds h hbounds.1 hbounds.2⟩

/-! ### Runs -/

/-- The calls, with their arguments and with what a call of `writeBlock` finds memory for. -/
inductive Operation (T : Type*)
  | setMaxBufferSize (buffSize : ℕ)
  | writeBlock (pBuff : List T) (blockSize available : ℕ)
  | readBlock (pTargetBuff : Option (List T)) (blockSize : ℕ) (deleteEntries : Bool)
  | set (pos : ℕ) (val : T)
  | clear
  | deleteEntry (pos : ℤ)
  | deleteBlock (start stop : ℤ)
  | deleteBlockFromStart (stop : ℤ)

/-- Performs a call. -/
def perform (max_size fuel : ℕ) (b : CVectorBuffer T) :
    Operation T → Option (Except Fault (Answer × CVectorBuffer T))
  | .setMaxBufferSize buffSize =>
    some (.ok (Prod.map .bool id (setMaxBufferSize max_size b buffSize)))
  | .writeBlock pBuff blockSize available => some (b.writeBlock max_size pBuff blockSize available)
  | .readBlock pTargetBuff blockSize deleteEntries =>
    (readBlock fuel b pTargetBuff blockSize deleteEntries).map
      (Except.map fun answer ↦ (.int answer.1, answer.2.2))
  | .set pos val => some (.ok (b.set pos val))
  | .clear => some (.ok (.nothing, b.clear))
  | .deleteEntry pos => some ((b.deleteEntry pos).map (Prod.map .bool id))
  | .deleteBlock start stop => some ((b.deleteBlock start stop).map (Prod.map .bool id))
  | .deleteBlockFromStart stop => some ((b.deleteBlockFromStart stop).map (Prod.map .bool id))

/-- A call that returns or throws. -/
def Step (max_size : ℕ) (before : CVectorBuffer T) (operation : Operation T) (answer : Answer)
    (after : CVectorBuffer T) : Prop :=
  ∃ fuel, perform max_size fuel before operation = some (.ok (answer, after))

/-- There are no more entries than the bound. -/
def Fits (b : CVectorBuffer T) : Prop := b.m_dataBuffer.length ≤ b.m_maxSize

/-- The bound is not set below the number of the entries, and a `writeBlock` that does not end finds
no memory for more than the bound. -/
def KeepsRoom (max_size : ℕ) (call : Call (CVectorBuffer T) (Operation T) Answer) : Prop :=
  match call.label with
  | .setMaxBufferSize buffSize =>
    0 < buffSize → buffSize ≤ max_size → call.before.m_dataBuffer.length ≤ buffSize
  | .writeBlock _ blockSize available =>
    toSize (call.before.m_dataBuffer.length + blockSize) ≤ call.before.m_maxSize →
      2 ^ 32 ≤ blockSize →
        min (call.before.m_dataBuffer.length + available) max_size ≤ call.before.m_maxSize
  | _ => True

/-- The loop of `writeBlock` adds no more entries than there is memory for. It adds no more than are
left of the block either, if its variable can count them, and otherwise fills the memory. -/
theorem length_of_pushFrom {pBuff : List T} {blockSize : ℕ} (available : ℕ) :
    ∀ {x : ℕ} {entries entries' : List T} {ended : Bool}, x < 2 ^ 32 →
      pushFrom pBuff blockSize available x entries = .ok (ended, entries') →
        entries'.length ≤ entries.length + available ∧
        (blockSize < 2 ^ 32 → entries'.length ≤ entries.length + (blockSize - x)) ∧
        (2 ^ 32 ≤ blockSize → entries'.length = entries.length + available) := by
  induction available with
  | zero =>
    intro x entries entries' ended hx hpush
    rw [pushFrom] at hpush
    have hsame : entries' = entries := by
      split_ifs at hpush with hmore
      · obtain ⟨value, -, hrest⟩ := of_bind_eq_ok hpush
        exact (Prod.mk.inj (Except.ok.inj hrest)).2.symm
      · exact (Prod.mk.inj (Except.ok.inj hpush)).2.symm
    rw [hsame]
    exact ⟨Nat.le_refl _, fun _ ↦ Nat.le_add_right _ _, fun _ ↦ rfl⟩
  | succ available ih =>
    intro x entries entries' ended hx hpush
    rw [pushFrom] at hpush
    split_ifs at hpush with hmore
    · obtain ⟨value, -, hrest⟩ := of_bind_eq_ok hpush
      obtain ⟨hmemory, hblock, hendless⟩ := ih (toUnsigned_lt (x + 1)) hrest
      rw [List.length_append, List.length_singleton] at hmemory hblock hendless
      refine ⟨by omega, fun hcount ↦ ?_, fun hlong ↦ ?_⟩
      · have hnext : toUnsigned (x + 1) = x + 1 := toUnsigned_of_lt (by omega)
        rw [hnext] at hblock
        have := hblock hcount
        omega
      · have := hendless hlong
        omega
    · obtain ⟨-, rfl⟩ := Prod.mk.inj (Except.ok.inj hpush)
      exact ⟨by omega, fun _ ↦ by omega, fun hlong ↦ by omega⟩

/-- No entry is added, and the bound is as it was. -/
def Shrinks (before after : CVectorBuffer T) : Prop :=
  after.m_dataBuffer.length ≤ before.m_dataBuffer.length ∧ after.m_maxSize = before.m_maxSize

theorem Shrinks.refl (b : CVectorBuffer T) : b.Shrinks b := ⟨Nat.le_refl _, rfl⟩

theorem Shrinks.fits {before after : CVectorBuffer T} (h : before.Shrinks after)
    (hfits : before.Fits) : after.Fits := by
  unfold Fits
  rw [h.2]
  exact h.1.trans hfits

theorem erase_shrinks {out : Bool} {b' : CVectorBuffer T} (h : b.erase start stop = .ok (out, b')) :
    b.Shrinks b' := by
  by_cases hrefuses : b.Refuses start stop
  · rw [erase_of_refuses hrefuses] at h
    obtain ⟨-, rfl⟩ := Prod.mk.inj (Except.ok.inj h)
    exact Shrinks.refl b
  · rw [erase_of_not_refuses hrefuses rfl rfl] at h
    obtain ⟨entries, hrange, hresult⟩ := of_bind_eq_ok h
    obtain ⟨-, rfl⟩ := Prod.mk.inj (Except.ok.inj hresult)
    refine ⟨?_, rfl⟩
    rw [length_of_eraseRange hrange]
    exact Nat.sub_le _ _

theorem eraseEntry_shrinks {pos : ℤ} {out : Bool} {b' : CVectorBuffer T}
    (h : b.eraseEntry pos = .ok (out, b')) : b.Shrinks b' := by
  unfold eraseEntry at h
  dsimp only at h
  split_ifs at h with hrefuses
  · obtain ⟨-, rfl⟩ := Prod.mk.inj (Except.ok.inj h)
    exact Shrinks.refl b
  all_goals
    obtain ⟨entries, hrange, hresult⟩ := of_bind_eq_ok h
    have hlength := length_of_eraseRange hrange
    split_ifs at hresult
    all_goals
      obtain ⟨-, rfl⟩ := Prod.mk.inj (Except.ok.inj hresult)
      exact ⟨hlength.trans_le (Nat.sub_le _ _), rfl⟩

theorem readBlock_shrinks {fuel blockSize : ℕ} {pTargetBuff : Option (List T)}
    {deleteEntries : Bool} {answer : ℤ × Option (List T) × CVectorBuffer T}
    (h : readBlock fuel b pTargetBuff blockSize deleteEntries = some (.ok answer)) :
    b.Shrinks answer.2.2 := by
  unfold readBlock at h
  cases pTargetBuff with
  | none =>
    rw [← Except.ok.inj (Option.some.inj h)]
    exact Shrinks.refl b
  | some target =>
    dsimp only at h
    by_cases hbound : b.m_maxSize < blockSize
    · rw [if_pos hbound] at h
      rw [← Except.ok.inj (Option.some.inj h)]
      exact Shrinks.refl b
    rw [if_neg hbound] at h
    by_cases hempty : b.m_dataBuffer.length < 1
    · rw [if_pos hempty] at h
      rw [← Except.ok.inj (Option.some.inj h)]
      exact Shrinks.refl b
    rw [if_neg hempty] at h
    obtain ⟨read, -, hread⟩ := Option.map_eq_some_iff.mp h
    obtain ⟨target', -, hrest⟩ := of_bind_eq_ok hread
    cases deleteEntries with
    | false =>
      rw [← Except.ok.inj hrest]
      exact Shrinks.refl b
    | true =>
      rw [if_pos rfl] at hrest
      obtain ⟨⟨out, b'⟩, herase, hresult⟩ := of_bind_eq_ok hrest
      dsimp only at hresult
      split_ifs at hresult
      all_goals
        rw [← Except.ok.inj hresult]
        exact erase_shrinks herase

theorem set_shrinks (b : CVectorBuffer T) (pos : ℕ) (val : T) : b.Shrinks (b.set pos val).2 := by
  unfold set
  split_ifs
  · exact Shrinks.refl b
  · exact ⟨Nat.le_of_eq (List.length_set ..), rfl⟩
  · exact Shrinks.refl b

/-- A call of any other function than `setMaxBufferSize` and `writeBlock`. -/
theorem step_shrinks {max_size : ℕ} {before after : CVectorBuffer T} {operation : Operation T}
    {answer : Answer} (hstep : Step max_size before operation answer after)
    (hset : ∀ buffSize, operation ≠ .setMaxBufferSize buffSize)
    (hwrite : ∀ pBuff blockSize available, operation ≠ .writeBlock pBuff blockSize available) :
    before.Shrinks after := by
  obtain ⟨fuel, hcall⟩ := hstep
  have hdeleted {call : Except Fault (Bool × CVectorBuffer T)}
      (hmap : some (call.map (Prod.map Answer.bool id)) = some (.ok (answer, after))) :
      ∃ out, call = .ok (out, after) := by
    obtain ⟨⟨out, b'⟩, hok, heq⟩ := of_except_map_eq_ok (Option.some.inj hmap)
    obtain ⟨-, rfl⟩ := Prod.mk.inj heq
    exact ⟨out, hok⟩
  cases operation with
  | setMaxBufferSize buffSize => exact absurd rfl (hset buffSize)
  | writeBlock pBuff blockSize available => exact absurd rfl (hwrite pBuff blockSize available)
  | readBlock pTargetBuff blockSize deleteEntries =>
    obtain ⟨result, hread, heq⟩ := of_map_eq_ok hcall
    obtain ⟨-, rfl⟩ := Prod.mk.inj heq
    exact readBlock_shrinks hread
  | set pos val =>
    have heq := Except.ok.inj (Option.some.inj hcall)
    have hshrinks := set_shrinks before pos val
    rwa [heq] at hshrinks
  | clear =>
    obtain ⟨-, rfl⟩ := Prod.mk.inj (Except.ok.inj (Option.some.inj hcall))
    exact ⟨Nat.zero_le _, rfl⟩
  | deleteEntry pos =>
    obtain ⟨out, hok⟩ := hdeleted hcall
    exact eraseEntry_shrinks hok
  | deleteBlock start stop =>
    obtain ⟨out, hok⟩ := hdeleted hcall
    exact erase_shrinks hok
  | deleteBlockFromStart stop =>
    obtain ⟨out, hok⟩ := hdeleted hcall
    exact erase_shrinks hok

section Steps

variable {max_size : ℕ} {before after : CVectorBuffer T} {answer : Answer}

/-- `writeBlock` adds nothing, or what its loop adds. -/
theorem writeBlock_cases {pBuff : List T} {blockSize available : ℕ}
    (hstep : Step max_size before (.writeBlock pBuff blockSize available) answer after) :
    before.m_maxSize < toSize (before.m_dataBuffer.length + blockSize) ∧ after = before ∨
      toSize (before.m_dataBuffer.length + blockSize) ≤ before.m_maxSize ∧
        after.m_maxSize = before.m_maxSize ∧
        ∃ ended, pushFrom pBuff blockSize (min available (max_size - before.m_dataBuffer.length)) 0
          before.m_dataBuffer = .ok (ended, after.m_dataBuffer) := by
  obtain ⟨fuel, hcall⟩ := hstep
  have hwrite : before.writeBlock max_size pBuff blockSize available = .ok (answer, after) :=
    Option.some.inj hcall
  unfold writeBlock at hwrite
  dsimp only at hwrite
  split_ifs at hwrite with hrefuses
  · exact .inl ⟨hrefuses, (Prod.mk.inj (Except.ok.inj hwrite)).2.symm⟩
  · obtain ⟨⟨ended, entries⟩, hpush, hresult⟩ := of_bind_eq_ok hwrite
    obtain ⟨-, rfl⟩ := Prod.mk.inj (Except.ok.inj hresult)
    exact .inr ⟨Nat.not_lt.mp hrefuses, rfl, ended, hpush⟩

/-- The vector never has more entries than it can have. -/
theorem stored_after {operation : Operation T} (hstored : before.m_dataBuffer.length ≤ max_size)
    (hstep : Step max_size before operation answer after) :
    after.m_dataBuffer.length ≤ max_size := by
  cases operation with
  | setMaxBufferSize buffSize =>
    obtain ⟨fuel, hcall⟩ := hstep
    obtain ⟨-, rfl⟩ := Prod.mk.inj (Except.ok.inj (Option.some.inj hcall))
    show (setMaxBufferSize max_size before buffSize).2.m_dataBuffer.length ≤ max_size
    unfold setMaxBufferSize
    split_ifs <;> exact hstored
  | writeBlock pBuff blockSize available =>
    rcases writeBlock_cases hstep with ⟨-, rfl⟩ | ⟨-, -, ended, hpush⟩
    · exact hstored
    · have hmemory := (length_of_pushFrom _ zero_lt_word hpush).1
      omega
  | _ => exact (step_shrinks hstep (fun _ ↦ nofun) fun _ _ _ ↦ nofun).1.trans hstored

theorem fits_after_setMaxBufferSize_iff {buffSize : ℕ} (hfits : before.Fits)
    (hstep : Step max_size before (.setMaxBufferSize buffSize) answer after) :
    after.Fits ↔ KeepsRoom max_size ⟨before, .setMaxBufferSize buffSize, answer⟩ := by
  obtain ⟨fuel, hcall⟩ := hstep
  obtain ⟨-, rfl⟩ := Prod.mk.inj (Except.ok.inj (Option.some.inj hcall))
  show (setMaxBufferSize max_size before buffSize).2.Fits ↔ _
  unfold setMaxBufferSize KeepsRoom
  split_ifs with hpos hlarge
  · exact iff_of_true hfits fun _ hsmall ↦ absurd hlarge (Nat.not_lt.mpr hsmall)
  · exact ⟨fun h _ _ ↦ h, fun h ↦ h hpos (Nat.not_lt.mp hlarge)⟩
  · exact iff_of_true hfits fun hsome ↦ absurd hsome hpos

/-- Assumes: no number of entries that a vector can have comes near the end of `size_t`, so that the
sum that `writeBlock` checks does not wrap around for a block that it can count. -/
theorem fits_after_writeBlock_iff {pBuff : List T} {blockSize available : ℕ}
    (hmax : max_size < 2 ^ 63) (hstored : before.m_dataBuffer.length ≤ max_size)
    (hfits : before.Fits)
    (hstep : Step max_size before (.writeBlock pBuff blockSize available) answer after) :
    after.Fits ↔ KeepsRoom max_size ⟨before, .writeBlock pBuff blockSize available, answer⟩ := by
  unfold Fits at hfits ⊢
  unfold KeepsRoom
  rcases writeBlock_cases hstep with ⟨hrefuses, rfl⟩ | ⟨hroom, hbound, ended, hpush⟩
  · exact iff_of_true hfits fun hroom ↦ absurd hrefuses (Nat.not_lt.mpr hroom)
  obtain ⟨-, hblock, hendless⟩ := length_of_pushFrom _ zero_lt_word hpush
  rw [hbound]
  rcases Nat.lt_or_ge blockSize (2 ^ 32) with hcount | hlong
  · have hadded := hblock hcount
    have hsum : toSize (before.m_dataBuffer.length + blockSize) =
        before.m_dataBuffer.length + blockSize := Nat.mod_eq_of_lt (by omega)
    rw [hsum] at hroom
    exact iff_of_true (by omega) fun _ hlong ↦ absurd hcount (Nat.not_lt.mpr hlong)
  · have hfull : after.m_dataBuffer.length =
        min (before.m_dataBuffer.length + available) max_size := by
      rw [hendless hlong]
      omega
    rw [hfull]
    exact ⟨fun h _ _ ↦ h, fun h ↦ h hroom hlong⟩

theorem fits_after_iff {operation : Operation T} (hmax : max_size < 2 ^ 63)
    (hstored : before.m_dataBuffer.length ≤ max_size) (hfits : before.Fits)
    (hstep : Step max_size before operation answer after) :
    after.Fits ↔ KeepsRoom max_size ⟨before, operation, answer⟩ := by
  cases operation with
  | setMaxBufferSize buffSize => exact fits_after_setMaxBufferSize_iff hfits hstep
  | writeBlock pBuff blockSize available =>
    exact fits_after_writeBlock_iff hmax hstored hfits hstep
  | _ =>
    have hshrinks := step_shrinks hstep (fun _ ↦ nofun) fun _ _ _ ↦ nofun
    exact iff_of_true (hshrinks.fits hfits) trivial

end Steps

/-! ### The bound and the deletions -/

/-- Assumes: a vector has fewer than `2 ^ 63` entries. All states of a run keep within the bound
exactly when every call keeps room, and a block is deleted as it should be exactly when the checks
refuse it, or `start` is not below `-1` and a default for the end is an `int`. -/
theorem bounded_and_deletesExactly_iff (T : Type u) (max_size : ℕ) (hmax : max_size < 2 ^ 63) :
    (∀ (buffSize : ℕ) (trace : List (Call (CVectorBuffer T) (Operation T) Answer))
        (final : CVectorBuffer T), Run (Step max_size) (new buffSize) trace final →
      ((∀ call ∈ trace, call.before.Fits) ∧ final.Fits ↔
        ∀ call ∈ trace, KeepsRoom max_size call)) ∧
    ∀ (b : CVectorBuffer T) (start stop : ℤ),
      b.DeletesExactly start stop ↔ (¬b.Refuses start stop →
        -1 ≤ start ∧ (stop = -1 → b.m_dataBuffer.length < 2 ^ 31)) := by
  refine ⟨fun buffSize trace final hrun ↦ ?_, deletesExactly_iff⟩
  refine hrun.good_iff (fun b ↦ b.m_dataBuffer.length ≤ max_size) Fits ?_ ?_ ?_ ?_
  · exact fun before operation answer after hstored hstep ↦ stored_after hstored hstep
  · exact fun before operation answer after hstored hfits hstep ↦
      fits_after_iff hmax hstored hfits hstep
  · exact Nat.zero_le _
  · exact Nat.zero_le _

/-- Three bytes are written, the bound is raised, and two bytes are deleted from the second on. -/
theorem bounded_and_deletesExactly_iff_bytes :
    (∃ (trace : List (Call (CVectorBuffer UInt8) (Operation UInt8) Answer))
      (final : CVectorBuffer UInt8), Run (Step (2 ^ 63 - 1)) (new 4) trace final ∧
        trace.map Call.label = [.writeBlock [1, 2, 3] 3 3, .setMaxBufferSize 5, .deleteBlock 1 3] ∧
        final.m_dataBuffer = [1] ∧ (∀ call ∈ trace, call.before.Fits) ∧ final.Fits) ∧
    DeletesExactly (⟨[1, 2, 3], 5⟩ : CVectorBuffer UInt8) 1 3 ∧
    DeletesExactly (⟨[1, 2, 3], 5⟩ : CVectorBuffer UInt8) (-1) (-1) := by
  have hiff := bounded_and_deletesExactly_iff UInt8 (2 ^ 63 - 1) (by norm_num)
  refine ⟨?_, (hiff.2 _ 1 3).mpr fun _ ↦ ⟨by decide, nofun⟩,
    (hiff.2 _ (-1) (-1)).mpr fun _ ↦ ⟨by decide, fun _ ↦ by decide⟩⟩
  have hrun : Run (Step (2 ^ 63 - 1)) (new 4)
      [⟨⟨[], 4⟩, .writeBlock [1, 2, 3] 3 3, .bool true⟩,
        ⟨⟨[1, 2, 3], 4⟩, .setMaxBufferSize 5, .bool true⟩,
        ⟨⟨[1, 2, 3], 5⟩, .deleteBlock 1 3, .bool true⟩] (⟨[1], 5⟩ : CVectorBuffer UInt8) :=
    .cons ⟨0, rfl⟩ (.cons ⟨0, rfl⟩ (.cons ⟨0, rfl⟩ (.nil _)))
  refine ⟨_, _, hrun, rfl, rfl, (hiff.1 4 _ _ hrun).mpr ?_⟩
  simp only [List.forall_mem_cons]
  exact ⟨fun _ hlong ↦ absurd hlong (by decide), fun _ _ ↦ by decide, trivial, nofun⟩

/-- Three entries are written under a bound of four, which then becomes one; and a deletion from the
position `-2` on starts before the first entry. -/
theorem bound_lowered_and_start_missed :
    (∃ (trace : List (Call (CVectorBuffer UInt8) (Operation UInt8) Answer))
      (final : CVectorBuffer UInt8), Run (Step (2 ^ 63 - 1)) (new 4) trace final ∧
        trace.map Call.label = [.writeBlock [1, 2, 3] 3 3, .setMaxBufferSize 1] ∧ ¬final.Fits) ∧
    ¬DeletesExactly (⟨[1, 2, 3], 4⟩ : CVectorBuffer UInt8) (-2) (-1) := by
  constructor
  · refine ⟨[⟨⟨[], 4⟩, .writeBlock [1, 2, 3] 3 3, .bool true⟩,
      ⟨⟨[1, 2, 3], 4⟩, .setMaxBufferSize 1, .bool true⟩], ⟨[1, 2, 3], 1⟩,
      .cons ⟨0, rfl⟩ (.cons ⟨0, rfl⟩ (.nil _)), rfl, ?_⟩
    exact Nat.not_le.mpr (by decide : 1 < 3)
  · rintro ⟨out, b', hdelete, -⟩
    have houtside : deleteBlock (⟨[1, 2, 3], 4⟩ : CVectorBuffer UInt8) (-2) (-1) =
        .error .outOfBounds := rfl
    rw [houtside] at hdelete
    cases hdelete

end CVectorBuffer

end RdbLibs.Buffer
