import Mathlib.Algebra.Order.Group.Nat
import Mathlib.Algebra.Order.Ring.Nat
import Mathlib.Tactic.Common

/-!
# Grids in a block

A grid of rows and columns is kept in a block of cells. A `Layout` says in which cell an entry is,
with the facts that the cell is in the block and that no two entries share one. `rowMajor` keeps the
entries of a row together, `columnMajor` those of a column. A block `Holds` a grid in a layout when
it has each entry in its cell; after an entry was stored it holds the updated grid (`Holds.set`), so
what a block holds after any stores does not depend on the layout.
-/

set_option autoImplicit false
set_option relaxedAutoImplicit false

namespace RdbLibs.GridLayout

variable {α : Type*}

/-- The cells of the entries of a grid. -/
structure Layout (rows columns : ℕ) where
  cell : ℕ → ℕ → ℕ
  cell_lt : ∀ {row column}, row < rows → column < columns → cell row column < rows * columns
  cell_inj : ∀ {row column row' column'}, row < rows → column < columns → row' < rows →
    column' < columns → cell row column = cell row' column' → row = row' ∧ column = column'

theorem mul_add_lt_mul {row rows column columns : ℕ} (hrow : row < rows)
    (hcolumn : column < columns) : row * columns + column < rows * columns :=
  calc row * columns + column < row * columns + columns := Nat.add_lt_add_left hcolumn _
    _ = (row + 1) * columns := (Nat.succ_mul row columns).symm
    _ ≤ rows * columns := Nat.mul_le_mul_right columns hrow

/-- All entries of a grid are in the first cells exactly when their number is not larger. -/
theorem forall_mul_add_lt_iff {rows columns count : ℕ} :
    (∀ row < rows, ∀ column < columns, row * columns + column < count) ↔
      rows * columns ≤ count := by
  constructor
  · intro h
    rcases rows.eq_zero_or_pos with rfl | hrows
    · exact (Nat.zero_mul columns).le.trans (Nat.zero_le count)
    rcases columns.eq_zero_or_pos with rfl | hcolumns
    · exact (Nat.mul_zero rows).le.trans (Nat.zero_le count)
    have hlast := h (rows - 1) (Nat.sub_lt hrows Nat.one_pos) (columns - 1)
      (Nat.sub_lt hcolumns Nat.one_pos)
    have hmul : rows * columns = (rows - 1) * columns + columns := by
      rw [← Nat.succ_mul, Nat.succ_eq_add_one, Nat.sub_add_cancel hrows]
    omega
  · intro h row hrow column hcolumn
    exact (mul_add_lt_mul hrow hcolumn).trans_le h

theorem mul_add_inj {row column row' column' columns : ℕ} (hcolumn : column < columns)
    (hcolumn' : column' < columns) (h : row * columns + column = row' * columns + column') :
    row = row' ∧ column = column' := by
  have hpos : 0 < columns := Nat.zero_lt_of_lt hcolumn
  have hrow : row = row' := by
    have hdiv := congrArg (· / columns) h
    simpa [Nat.mul_comm _ columns, Nat.mul_add_div hpos, Nat.div_eq_of_lt hcolumn,
      Nat.div_eq_of_lt hcolumn'] using hdiv
  subst hrow
  exact ⟨rfl, Nat.add_left_cancel h⟩

/-- The entries of a row are in consecutive cells. -/
def rowMajor (rows columns : ℕ) : Layout rows columns where
  cell row column := row * columns + column
  cell_lt := mul_add_lt_mul
  cell_inj _ hcolumn _ hcolumn' := mul_add_inj hcolumn hcolumn'

/-- The entries of a column are in consecutive cells. -/
def columnMajor (rows columns : ℕ) : Layout rows columns where
  cell row column := column * rows + row
  cell_lt hrow hcolumn := Nat.mul_comm rows columns ▸ mul_add_lt_mul hcolumn hrow
  cell_inj hrow _ hrow' _ h := (mul_add_inj hrow hrow' h).symm

/-- A grid with one entry changed. -/
def update (grid : ℕ → ℕ → α) (row column : ℕ) (value : α) : ℕ → ℕ → α :=
  fun row' column' ↦ if row' = row ∧ column' = column then value else grid row' column'

variable {rows columns : ℕ} {layout : Layout rows columns} {cells : List α} {grid : ℕ → ℕ → α}

/-- The block has the size of the grid and each entry in its cell. -/
structure Holds (layout : Layout rows columns) (cells : List α) (grid : ℕ → ℕ → α) : Prop where
  length : cells.length = rows * columns
  entry : ∀ {row column}, row < rows → column < columns →
    cells[layout.cell row column]? = some (grid row column)

theorem Holds.replicate (layout : Layout rows columns) (value : α) :
    Holds layout (List.replicate (rows * columns) value) fun _ _ ↦ value where
  length := List.length_replicate
  entry hrow hcolumn := by
    rw [List.getElem?_replicate, if_pos (layout.cell_lt hrow hcolumn)]

/-- After an entry was stored, the block holds the updated grid. -/
theorem Holds.set (h : Holds layout cells grid) {row column : ℕ} (hrow : row < rows)
    (hcolumn : column < columns) (value : α) :
    Holds layout (cells.set (layout.cell row column) value) (update grid row column value) where
  length := (List.length_set ..).trans h.length
  entry {row' column'} hrow' hcolumn' := by
    have hlt : layout.cell row column < cells.length :=
      (layout.cell_lt hrow hcolumn).trans_eq h.length.symm
    unfold update
    by_cases hcell : layout.cell row column = layout.cell row' column'
    · obtain ⟨rfl, rfl⟩ := layout.cell_inj hrow hcolumn hrow' hcolumn' hcell
      rw [List.getElem?_set_self hlt, if_pos ⟨rfl, rfl⟩]
    · have hne : ¬(row' = row ∧ column' = column) := by
        rintro ⟨rfl, rfl⟩
        exact hcell rfl
      rw [List.getElem?_set_ne hcell, if_neg hne]
      exact h.entry hrow' hcolumn'

/-- A block of the size of the grid holds what is in its cells. -/
theorem holds_getD (layout : Layout rows columns) (hlength : cells.length = rows * columns)
    (default : α) :
    Holds layout cells fun row column ↦ cells.getD (layout.cell row column) default where
  length := hlength
  entry {row column} hrow hcolumn := by
    have hlt : layout.cell row column < cells.length :=
      (layout.cell_lt hrow hcolumn).trans_eq hlength.symm
    rw [List.getD_eq_getElem?_getD, List.getElem?_eq_getElem hlt, Option.getD_some]

/-! ### Columns in column-major order -/

section Columns

variable (h : Holds (columnMajor rows columns) cells grid) {column : ℕ} (hcolumn : column < columns)
include h hcolumn

theorem Holds.column_end_le : column * rows + rows ≤ cells.length := by
  rw [h.length, ← Nat.succ_mul, Nat.mul_comm rows]
  exact Nat.mul_le_mul_right rows hcolumn

/-- A column is read as a whole. -/
theorem Holds.getElem?_column {row : ℕ} (hrow : row < rows) :
    ((cells.drop (column * rows)).take rows)[row]? = some (grid row column) := by
  rw [List.getElem?_take_of_lt hrow, List.getElem?_drop]
  exact h.entry hrow hcolumn

/-- A column is stored as a whole. -/
theorem Holds.setColumn {values : List α} (hvalues : values.length = rows) :
    Holds (columnMajor rows columns)
      (cells.take (column * rows) ++ values ++ cells.drop (column * rows + values.length))
      fun row column' ↦ if column' = column then values.getD row (grid row column')
        else grid row column' where
  length := by
    have hend := h.column_end_le hcolumn
    rw [← h.length]
    simp only [List.length_append, List.length_take, List.length_drop]
    omega
  entry {row column'} hrow hcolumn' := by
    have hend := h.column_end_le hcolumn
    have hfront : (cells.take (column * rows)).length = column * rows :=
      List.length_take_of_le (Nat.le_of_add_right_le hend)
    have hentry : cells[column' * rows + row]? = some (grid row column') :=
      h.entry hrow hcolumn'
    show (cells.take (column * rows) ++ values ++ cells.drop (column * rows + values.length))[
      column' * rows + row]? = _
    rcases Nat.lt_trichotomy column' column with hlt | rfl | hgt
    · have hbefore : column' * rows + row < column * rows := mul_add_lt_mul hlt hrow
      rw [if_neg hlt.ne, List.append_assoc, List.getElem?_append_left (by rwa [hfront]),
        List.getElem?_take_of_lt hbefore, hentry]
    · rw [if_pos rfl, List.append_assoc, List.getElem?_append_right (by rw [hfront]; omega),
        hfront, Nat.add_sub_cancel_left, List.getElem?_append_left (by rwa [hvalues]),
        List.getD_eq_getElem?_getD, List.getElem?_eq_getElem (by rwa [hvalues]), Option.getD_some]
    · have hbehind : column * rows + rows ≤ column' * rows :=
        (Nat.succ_mul column rows).symm.trans_le (Nat.mul_le_mul_right rows hgt)
      have hlength : (cells.take (column * rows) ++ values).length = column * rows + rows := by
        rw [List.length_append, hfront, hvalues]
      rw [if_neg hgt.ne', List.getElem?_append_right (by rw [hlength]; omega), hlength, hvalues,
        List.getElem?_drop, Nat.add_sub_cancel' (by omega), hentry]

end Columns

section ColumnOf

variable {column column' : ℕ}

/-- The cells of a column. -/
def columnOf (rows : ℕ) (cells : List α) (column : ℕ) : List α :=
  (cells.drop (column * rows)).take rows

theorem length_columnOf (hlength : cells.length = rows * columns) (hcolumn : column < columns) :
    (columnOf rows cells column).length = rows := by
  have hend : column * rows + rows ≤ cells.length := by
    rw [hlength, ← Nat.succ_mul, Nat.mul_comm rows]
    exact Nat.mul_le_mul_right rows hcolumn
  rw [columnOf, List.length_take, List.length_drop]
  omega

/-- A column of a part of the columns is a column of the grid. -/
theorem columnOf_columns {start count index : ℕ} (hindex : index < count) :
    columnOf rows ((cells.drop (start * rows)).take (count * rows)) index =
      columnOf rows cells (start + index) := by
  have hend : index * rows + rows ≤ count * rows :=
    (Nat.succ_mul index rows).symm.trans_le (Nat.mul_le_mul_right rows hindex)
  have hcount : rows ≤ count * rows - index * rows := by omega
  rw [columnOf, List.drop_take, List.drop_drop, List.take_take, Nat.min_eq_left hcount,
    ← Nat.add_mul, columnOf]

/-- After a column was stored, it has the values, and the other columns have what they had. -/
theorem columnOf_setColumn [Inhabited α] {values : List α}
    (hlength : cells.length = rows * columns) (hcolumn : column < columns)
    (hcolumn' : column' < columns) (hvalues : values.length = rows) :
    columnOf rows
      (cells.take (column * rows) ++ values ++ cells.drop (column * rows + values.length))
      column' =
      if column' = column then values else columnOf rows cells column' := by
  have hholds := holds_getD (columnMajor rows columns) hlength default
  have hset := hholds.setColumn hcolumn hvalues
  have hnew := length_columnOf hset.length hcolumn'
  have hold := length_columnOf hlength hcolumn'
  have hlength' : (if column' = column then values else columnOf rows cells column').length =
      rows := by
    split_ifs
    · exact hvalues
    · exact hold
  apply List.ext_getElem?
  intro row
  rcases Nat.lt_or_ge row rows with hrow | hrow
  · rw [columnOf, hset.getElem?_column hcolumn' hrow]
    split_ifs with hsame
    · rw [List.getD_eq_getElem?_getD, List.getElem?_eq_getElem (by rwa [hvalues]),
        Option.getD_some]
    · exact (hholds.getElem?_column hcolumn' hrow).symm
  · rw [List.getElem?_eq_none (hnew.trans_le hrow), List.getElem?_eq_none (hlength'.trans_le hrow)]

end ColumnOf

end RdbLibs.GridLayout
