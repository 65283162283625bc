import RdbLibs.Foundations.CheckedMemory

/-!
# Loops over the cells of a block

A loop that reads or writes one cell after another is the list of the indices that it goes through.
It has a result exactly when all of them are in the block (`isOk_gather`, `isOk_scatter`). A loop
through consecutive indices reads or writes the run of cells between them (`gather_range'`,
`scatter_range'`).
-/

set_option autoImplicit false
set_option relaxedAutoImplicit false

namespace RdbLibs.CheckedMemory

variable {α : Type*}

/-- Reads the cells with the given indices, one after the other. -/
def gather (cells : List α) (indices : List ℕ) : Except Fault (List α) := indices.mapM (load cells)

/-- Writes values to the cells with the given indices, one after the other. -/
def scatter (cells : List α) (indices : List ℕ) (values : List α) : Except Fault (List α) :=
  (indices.zip values).foldlM (fun cells write ↦ store cells write.1 write.2) cells

theorem gather_cons (cells : List α) (index : ℕ) (indices : List ℕ) :
    gather cells (index :: indices) = (do
      let value ← load cells index
      let values ← gather cells indices
      return value :: values) := List.mapM_cons

theorem scatter_cons (cells : List α) (index : ℕ) (indices : List ℕ) (value : α)
    (values : List α) :
    scatter cells (index :: indices) (value :: values) = (do
      let cells ← store cells index value
      scatter cells indices values) := by
  rw [scatter, List.zip_cons_cons, List.foldlM_cons]
  rfl

theorem isOk_load {cells : List α} {index : ℕ} :
    (load cells index).isOk = true ↔ index < cells.length :=
  ⟨fun h ↦ (isOk_iff.mp h).elim fun _ hload ↦ lt_of_load hload,
    fun h ↦ isOk_iff.mpr ⟨_, load_of_lt h⟩⟩

theorem isOk_store {cells : List α} {index : ℕ} {value : α} :
    (store cells index value).isOk = true ↔ index < cells.length := by
  unfold store
  split_ifs with h
  · exact iff_of_true rfl h
  · exact iff_of_false nofun h

theorem isOk_gather {cells : List α} {indices : List ℕ} :
    (gather cells indices).isOk = true ↔ ∀ index ∈ indices, index < cells.length := by
  induction indices with
  | nil => exact iff_of_true rfl nofun
  | cons index indices ih =>
    rw [gather_cons, isOk_bind_iff, List.forall_mem_cons, ← ih, ← isOk_load]
    constructor
    · rintro ⟨value, hload, hrest⟩
      obtain ⟨values, hgather, -⟩ := isOk_bind_iff.mp hrest
      exact ⟨isOk_iff.mpr ⟨value, hload⟩, isOk_iff.mpr ⟨values, hgather⟩⟩
    · rintro ⟨hfirst, hrest⟩
      obtain ⟨value, hload⟩ := isOk_iff.mp hfirst
      obtain ⟨values, hgather⟩ := isOk_iff.mp hrest
      exact ⟨value, hload, isOk_bind_iff.mpr ⟨values, hgather, rfl⟩⟩

theorem isOk_scatter {cells : List α} {indices : List ℕ} {values : List α}
    (hlength : indices.length = values.length) :
    (scatter cells indices values).isOk = true ↔ ∀ index ∈ indices, index < cells.length := by
  induction indices generalizing cells values with
  | nil => exact iff_of_true rfl nofun
  | cons index indices ih =>
    cases values with
    | nil => cases hlength
    | cons value values =>
      rw [scatter_cons, isOk_bind_iff, List.forall_mem_cons]
      constructor
      · rintro ⟨cells', hstore, hrest⟩
        rw [ih (Nat.succ.inj hlength), length_of_store hstore] at hrest
        exact ⟨isOk_store.mp (isOk_iff.mpr ⟨cells', hstore⟩), hrest⟩
      · rintro ⟨hfirst, hrest⟩
        refine ⟨_, store_of_lt hfirst value, (ih (Nat.succ.inj hlength)).mpr ?_⟩
        rwa [List.length_set]

theorem length_of_scatter {cells cells' values : List α} {indices : List ℕ}
    (hscatter : scatter cells indices values = .ok cells') : cells'.length = cells.length := by
  induction indices generalizing cells values with
  | nil => exact congrArg List.length (Except.ok.inj hscatter).symm
  | cons index indices ih =>
    cases values with
    | nil => exact congrArg List.length (Except.ok.inj hscatter).symm
    | cons value values =>
      rw [scatter_cons] at hscatter
      obtain ⟨middle, hstore, hrest⟩ := of_bind_eq_ok hscatter
      exact (ih hrest).trans (length_of_store hstore)

/-- A loop through consecutive indices reads the cells between them. -/
theorem gather_range' {cells : List α} {start count : ℕ} (h : start + count ≤ cells.length) :
    gather cells (List.range' start count) = .ok ((cells.drop start).take count) := by
  induction count generalizing start with
  | zero => rfl
  | succ count ih =>
    have hlt : start < cells.length := by omega
    rw [List.range'_succ, gather_cons, load_of_lt hlt, ok_bind, ih (by omega), ok_bind,
      List.drop_eq_getElem_cons hlt, List.take_succ_cons]
    rfl

/-- A loop through consecutive indices writes the cells between them. -/
theorem scatter_range' {cells values : List α} {start : ℕ}
    (h : start + values.length ≤ cells.length) :
    scatter cells (List.range' start values.length) values =
      .ok (cells.take start ++ values ++ cells.drop (start + values.length)) := by
  induction values generalizing cells start with
  | nil =>
    rw [List.append_nil, List.length_nil, Nat.add_zero, List.take_append_drop]
    rfl
  | cons value values ih =>
    rw [List.length_cons] at h ⊢
    have hlt : start < cells.length := by omega
    have hlength : (cells.take start).length = start := List.length_take_of_le (Nat.le_of_lt hlt)
    have hfront : (cells.set start value).take (start + 1) = cells.take start ++ [value] := by
      rw [List.take_set, List.take_succ_eq_append_getElem hlt,
        List.set_append_right _ _ (Nat.le_of_eq hlength), hlength, Nat.sub_self]
      rfl
    have hback : (cells.set start value).drop (start + 1 + values.length) =
        cells.drop (start + (values.length + 1)) := by
      rw [List.drop_set_of_lt (by omega)]
      congr 1
      omega
    rw [List.range'_succ, scatter_cons, store_of_lt hlt, ok_bind,
      ih (by rw [List.length_set]; omega), hfront, hback, List.append_assoc _ [value],
      List.singleton_append]

end RdbLibs.CheckedMemory
