import Mathlib.Tactic.Common

/-!
# Memory accesses that may be undefined

A block of memory is the list of its cells. An access to a block checks that it stays inside, and
is a `Fault` if it does not: where the language leaves the behaviour of a program undefined, the
models here stop. `load` and `store` access one cell; `loadRange`, `storeRange` and `fillRange`
access a run of cells, as `memcpy` and `memset` do. The lemmas on ranges are about a block that is
written as three parts, the middle one being accessed, or about one that is full of one value.
-/

set_option autoImplicit false
set_option relaxedAutoImplicit false

namespace RdbLibs.CheckedMemory

universe u

variable {α : Type*}

/-- Why a model stops before its call returns: an undefined access to memory, an undefined use of a
mutex (locking it twice, unlocking it when it is free), or waiting for input that is not there. -/
inductive Fault
  | nullPointer
  | outOfBounds
  | alreadyLocked
  | notLocked
  | waiting
deriving DecidableEq

/-- Reads a cell. -/
def load (cells : List α) (index : ℕ) : Except Fault α :=
  match cells[index]? with
  | some value => .ok value
  | none => .error .outOfBounds

/-- Writes a cell. -/
def store (cells : List α) (index : ℕ) (value : α) : Except Fault (List α) :=
  if index < cells.length then .ok (cells.set index value) else .error .outOfBounds

/-- Reads `count` cells from `offset` on. -/
def loadRange (cells : List α) (offset count : ℕ) : Except Fault (List α) :=
  if offset + count ≤ cells.length then .ok ((cells.drop offset).take count)
  else .error .outOfBounds

/-- Writes `values` from `offset` on. -/
def storeRange (cells : List α) (offset : ℕ) (values : List α) : Except Fault (List α) :=
  if offset + values.length ≤ cells.length then
    .ok (cells.take offset ++ values ++ cells.drop (offset + values.length))
  else .error .outOfBounds

/-- Writes `value` into `count` cells from `offset` on. -/
def fillRange (cells : List α) (offset count : ℕ) (value : α) : Except Fault (List α) :=
  if offset + count ≤ cells.length then
    .ok (cells.take offset ++ List.replicate count value ++ cells.drop (offset + count))
  else .error .outOfBounds

/-- A computation that has a result goes on with it. -/
@[simp] theorem ok_bind {ε : Type*} {α β : Type u} (value : α) (next : α → Except ε β) :
    (Except.ok value >>= next) = next value := rfl

/-- A computation that has stopped does not go on. -/
@[simp] theorem error_bind {ε : Type*} {α β : Type u} (fault : ε) (next : α → Except ε β) :
    (Except.error fault >>= next) = .error fault := rfl

/-- A sequence that has a result: its first computation has one, and goes on to it. -/
theorem of_bind_eq_ok {ε : Type*} {α β : Type u} {first : Except ε α} {next : α → Except ε β}
    {result : β} (h : (first >>= next) = .ok result) :
    ∃ value, first = .ok value ∧ next value = .ok result := by
  cases first with
  | error fault => cases h
  | ok value => exact ⟨value, rfl, h⟩

/-- A translated result is that of a computation that has one. -/
theorem of_except_map_eq_ok {ε α β : Type*} {f : α → β} {computation : Except ε α} {result : β}
    (h : computation.map f = .ok result) : ∃ value, computation = .ok value ∧ f value = result := by
  cases computation with
  | error fault => cases h
  | ok value => exact ⟨value, rfl, Except.ok.inj h⟩

theorem load_of_lt {cells : List α} {index : ℕ} (h : index < cells.length) :
    load cells index = .ok cells[index] := by
  rw [load, List.getElem?_eq_getElem h]

theorem lt_of_load {cells : List α} {index : ℕ} {value : α} (h : load cells index = .ok value) :
    index < cells.length := by
  unfold load at h
  cases hvalue : cells[index]? with
  | none =>
    rw [hvalue] at h
    cases h
  | some other => exact (List.getElem?_eq_some_iff.mp hvalue).1

theorem store_of_lt {cells : List α} {index : ℕ} (h : index < cells.length) (value : α) :
    store cells index value = .ok (cells.set index value) := if_pos h

theorem length_of_store {cells cells' : List α} {index : ℕ} {value : α}
    (h : store cells index value = .ok cells') : cells'.length = cells.length := by
  unfold store at h
  split_ifs at h
  obtain rfl := Except.ok.inj h
  exact List.length_set ..

/-- Values that were written were written inside the block. -/
theorem exists_of_storeRange {cells cells' values : List α} {offset : ℕ}
    (h : storeRange cells offset values = .ok cells') :
    offset + values.length ≤ cells.length ∧
      cells' = cells.take offset ++ values ++ cells.drop (offset + values.length) := by
  unfold storeRange at h
  split_ifs at h with hinside
  exact ⟨hinside, (Except.ok.inj h).symm⟩

theorem length_of_storeRange {cells cells' values : List α} {offset : ℕ}
    (h : storeRange cells offset values = .ok cells') : cells'.length = cells.length := by
  obtain ⟨hinside, rfl⟩ := exists_of_storeRange h
  simp only [List.length_append, List.length_take, List.length_drop]
  omega

theorem length_of_fillRange {cells cells' : List α} {offset count : ℕ} {value : α}
    (h : fillRange cells offset count value = .ok cells') : cells'.length = cells.length := by
  unfold fillRange at h
  split_ifs at h with hinside
  obtain rfl := Except.ok.inj h
  simp only [List.length_append, List.length_take, List.length_replicate, List.length_drop]
  omega

/-- A fill leaves what is before it. -/
theorem getElem?_of_fillRange {cells cells' : List α} {offset count k : ℕ} {value : α}
    (h : fillRange cells offset count value = .ok cells') (hk : k < offset) :
    cells'[k]? = cells[k]? := by
  unfold fillRange at h
  split_ifs at h with hinside
  obtain rfl := Except.ok.inj h
  have hbefore : k < (cells.take offset).length := by
    rw [List.length_take]
    omega
  rw [List.append_assoc, List.getElem?_append_left hbefore, List.getElem?_take_of_lt hk]

section Ranges

variable {front middle : List α} {offset : ℕ} (back : List α)

theorem loadRange_middle (hoffset : front.length = offset) {count : ℕ}
    (hcount : middle.length = count) :
    loadRange (front ++ middle ++ back) offset count = .ok middle := by
  subst hoffset hcount
  rw [loadRange, if_pos (by simp only [List.length_append]; omega)]
  simp

theorem storeRange_middle (hoffset : front.length = offset) {values : List α}
    (hlength : middle.length = values.length) :
    storeRange (front ++ middle ++ back) offset values = .ok (front ++ values ++ back) := by
  subst hoffset
  rw [storeRange, if_pos (by simp only [List.length_append]; omega)]
  simp [← hlength]

theorem fillRange_middle (hoffset : front.length = offset) {count : ℕ}
    (hcount : middle.length = count) (value : α) :
    fillRange (front ++ middle ++ back) offset count value =
      .ok (front ++ List.replicate count value ++ back) := by
  subst hoffset hcount
  rw [fillRange, if_pos (by simp only [List.length_append]; omega)]
  simp

end Ranges

section Replicate

variable {value : α} {length offset count : ℕ}

theorem loadRange_replicate (h : offset + count ≤ length) :
    loadRange (List.replicate length value) offset count = .ok (List.replicate count value) := by
  have hlength : count ≤ length - offset := by omega
  rw [loadRange, if_pos (by rwa [List.length_replicate]), List.drop_replicate, List.take_replicate,
    Nat.min_eq_left hlength]

/-- Storing what a block is full of changes nothing. -/
theorem storeRange_replicate (h : offset + count ≤ length) :
    storeRange (List.replicate length value) offset (List.replicate count value) =
      .ok (List.replicate length value) := by
  have hsplit : min offset length + count + (length - (offset + count)) = length := by omega
  rw [storeRange, if_pos (by simpa only [List.length_replicate] using h), List.length_replicate,
    List.take_replicate, List.drop_replicate, List.replicate_append_replicate,
    List.replicate_append_replicate, hsplit]

theorem fillRange_replicate (h : offset + count ≤ length) :
    fillRange (List.replicate length value) offset count value =
      .ok (List.replicate length value) := by
  have hstore : storeRange (List.replicate length value) offset (List.replicate count value) =
      .ok (List.replicate length value) := storeRange_replicate h
  simp only [storeRange, List.length_replicate, if_pos h] at hstore
  rw [fillRange, if_pos (by rwa [List.length_replicate]), hstore]

end Replicate

/-! ### Computations that have a result -/

section Results

variable {β : Type*}

theorem isOk_iff {computation : Except Fault α} :
    computation.isOk = true ↔ ∃ result, computation = .ok result := by
  cases computation with
  | error fault => exact iff_of_false nofun nofun
  | ok value => exact iff_of_true rfl ⟨value, rfl⟩

@[simp] theorem isOk_map (f : α → β) (computation : Except Fault α) :
    (computation.map f).isOk = computation.isOk := by
  cases computation <;> rfl

theorem isOk_bind_iff {α β : Type u} {first : Except Fault α} {next : α → Except Fault β} :
    (first >>= next).isOk = true ↔ ∃ value, first = .ok value ∧ (next value).isOk = true := by
  cases first with
  | error fault => exact iff_of_false nofun nofun
  | ok value => exact ⟨fun h ↦ ⟨value, rfl, h⟩, fun ⟨_, hvalue, h⟩ ↦ Except.ok.inj hvalue ▸ h⟩

theorem isOk_loadRange {cells : List α} {offset count : ℕ} :
    (loadRange cells offset count).isOk = true ↔ offset + count ≤ cells.length := by
  unfold loadRange
  split_ifs with h
  · exact iff_of_true rfl h
  · exact iff_of_false nofun h

theorem isOk_storeRange {cells values : List α} {offset : ℕ} :
    (storeRange cells offset values).isOk = true ↔ offset + values.length ≤ cells.length := by
  unfold storeRange
  split_ifs with h
  · exact iff_of_true rfl h
  · exact iff_of_false nofun h

theorem isOk_fillRange {cells : List α} {offset count : ℕ} {value : α} :
    (fillRange cells offset count value).isOk = true ↔ offset + count ≤ cells.length := by
  unfold fillRange
  split_ifs with h
  · exact iff_of_true rfl h
  · exact iff_of_false nofun h

end Results

/-! ### Computations that have stopped -/

section Faults

variable {ε : Type*} {fault : ε}

theorem map_eq_error_iff {β : Type*} {call : Except ε α} {f : α → β} :
    call.map f = .error fault ↔ call = .error fault := by
  cases call with
  | error other =>
    exact ⟨fun h ↦ congrArg _ (Except.error.inj h), fun h ↦ congrArg _ (Except.error.inj h)⟩
  | ok value => exact iff_of_false nofun nofun

/-- A sequence whose second computation does not stop for a reason stops for it in the first. -/
theorem bind_eq_error_iff {α β : Type u} {first : Except ε α} {next : α → Except ε β}
    (hnext : ∀ value, next value ≠ .error fault) :
    (first >>= next) = .error fault ↔ first = .error fault := by
  cases first with
  | error other =>
    exact ⟨fun h ↦ congrArg _ (Except.error.inj h), fun h ↦ congrArg _ (Except.error.inj h)⟩
  | ok value => exact iff_of_false (hnext value) nofun

theorem bind_pure_eq_error_iff {α β : Type u} {first : Except ε α} {f : α → β} :
    (first >>= fun value ↦ pure (f value)) = .error fault ↔ first = .error fault :=
  bind_eq_error_iff fun _ ↦ nofun

/-- A call that is refused does not stop. -/
theorem ite_eq_error_iff {refused : Prop} [Decidable refused] {answer : α} {call : Except ε α} :
    (if refused then .ok answer else call) = .error fault ↔ ¬refused ∧ call = .error fault := by
  split_ifs with h
  · exact iff_of_false nofun fun hcall ↦ hcall.1 h
  · exact (and_iff_right h).symm

end Faults

/-- A call that was translated has returned what the call itself returned, translated. -/
theorem of_map_eq_ok {β : Type*} {translate : α → β} {call : Option (Except Fault α)} {result : β}
    (h : call.map (Except.map translate) = some (.ok result)) :
    ∃ value, call = some (.ok value) ∧ translate value = result := by
  cases call with
  | none => cases h
  | some outcome =>
    cases outcome with
    | error fault => cases h
    | ok value => exact ⟨value, rfl, Except.ok.inj (Option.some.inj h)⟩

end RdbLibs.CheckedMemory
