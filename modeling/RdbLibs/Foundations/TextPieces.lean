import Mathlib.Data.List.Basic
import Mathlib.Tactic.Common

/-!
# Pieces of a memory

Values that are pieces of one memory, and may overlap. `mapCells` goes through some cells and puts
in the place of each what a function makes of it. Where that function makes nothing new of what it
has made, a cell that it has changed is never again what it was, whatever cells it is applied to
later (`Rewritten.trans`): so a piece in which it changes a cell is different from then on
(`read_ne_of_rewritten`).
-/

set_option autoImplicit false
set_option relaxedAutoImplicit false

namespace RdbLibs.TextPieces

variable {α : Type*}

/-- Some cells of a memory, from a position on. -/
structure Piece where
  start : ℕ
  size : ℕ
deriving DecidableEq

/-- What stands in a piece. -/
def Piece.read (piece : Piece) (cells : List α) : List α :=
  (cells.drop piece.start).take piece.size

/-- The loop that goes through `count` cells from `start` on. -/
def mapCells (f : α → α) (cells : List α) (start : ℕ) : ℕ → List α
  | 0 => cells
  | count + 1 => (mapCells f cells start count).modify (start + count) f

/-- Each cell is as it was, or what `f` makes of that. -/
def Rewritten (f : α → α) (old new : List α) : Prop :=
  ∀ index : ℕ, new[index]? = old[index]? ∨ new[index]? = old[index]?.map f

variable {f : α → α} {cells old middle new : List α} {piece : Piece} {start count index : ℕ}

theorem Piece.getElem?_read (h : index < piece.size) (cells : List α) :
    (piece.read cells)[index]? = cells[piece.start + index]? := by
  rw [read, List.getElem?_take_of_lt h, List.getElem?_drop]

theorem getElem?_mapCells (f : α → α) (cells : List α) (start count index : ℕ) :
    (mapCells f cells start count)[index]? =
      if start ≤ index ∧ index < start + count then cells[index]?.map f else cells[index]? := by
  induction count with
  | zero => rw [mapCells, if_neg (by omega)]
  | succ count ih =>
    rw [mapCells, List.getElem?_modify, ih]
    rcases Nat.lt_trichotomy index (start + count) with hbefore | rfl | hbehind
    · have hsame : (start ≤ index ∧ index < start + count) ↔
          (start ≤ index ∧ index < start + (count + 1)) := by omega
      have hother : start + count ≠ index := by omega
      simp [hother, hsame]
    · rw [if_neg (by omega), if_pos (by omega)]
      simp
    · rw [if_neg (by omega), if_neg (by omega)]
      simp [Nat.ne_of_lt hbehind]

/-- The first cells of a memory. -/
theorem mapCells_zero (f : α → α) (h : count ≤ cells.length) :
    mapCells f cells 0 count = (cells.take count).map f ++ cells.drop count := by
  have hlength : ((cells.take count).map f).length = count := by
    rw [List.length_map, List.length_take, Nat.min_eq_left h]
  refine List.ext_getElem? fun index ↦ ?_
  rw [getElem?_mapCells, List.getElem?_append, hlength]
  split_ifs with hmapped hindex hindex
  · rw [List.getElem?_map, List.getElem?_take_of_lt hindex]
  · omega
  · omega
  · rw [List.getElem?_drop, Nat.add_sub_cancel' (Nat.not_lt.mp hindex)]

theorem Rewritten.refl (f : α → α) (cells : List α) : Rewritten f cells cells := fun _ ↦ .inl rfl

theorem rewritten_mapCells (f : α → α) (cells : List α) (start count : ℕ) :
    Rewritten f cells (mapCells f cells start count) := by
  intro index
  rw [getElem?_mapCells]
  split_ifs
  · exact .inr rfl
  · exact .inl rfl

/-- Assumes: `f` makes nothing new of what it has made. -/
theorem Rewritten.trans (hf : ∀ cell, f (f cell) = f cell) (hfirst : Rewritten f old middle)
    (hsecond : Rewritten f middle new) : Rewritten f old new := by
  intro index
  have htwice : (old[index]?.map f).map f = old[index]?.map f := by
    rw [Option.map_map]
    exact congrArg (Option.map · old[index]?) (funext hf)
  rcases hsecond index with hnew | hnew <;> rcases hfirst index with hmiddle | hmiddle <;>
    rw [hnew, hmiddle]
  · exact .inl rfl
  · exact .inr rfl
  · exact .inr rfl
  · exact .inr htwice

/-- Cells that `f` does not change are left. -/
theorem mapCells_eq_self (h : ∀ cell ∈ (piece.read cells).take count, f cell = cell)
    (hcount : count ≤ piece.size) : mapCells f cells piece.start count = cells := by
  refine List.ext_getElem? fun index ↦ ?_
  rw [getElem?_mapCells]
  split_ifs with hinside
  · cases hcell : cells[index]? with
    | none => rfl
    | some cell =>
      have hread : ((piece.read cells).take count)[index - piece.start]? = some cell := by
        rw [List.getElem?_take_of_lt (by omega), piece.getElem?_read (by omega),
          Nat.add_sub_cancel' hinside.1, hcell]
      rw [Option.map_some, h cell (List.mem_of_getElem? hread)]
  · rfl

/-- A piece in which `f` changes a cell is different from then on. -/
theorem read_ne_of_rewritten (hf : ∀ cell, f (f cell) = f cell) {cell : α}
    (hcell : cell ∈ (piece.read cells).take count) (hchanged : f cell ≠ cell)
    (hcount : count ≤ piece.size)
    (hlater : Rewritten f (mapCells f cells piece.start count) new) :
    piece.read new ≠ piece.read cells := by
  intro hsame
  obtain ⟨index, hindex⟩ := List.getElem?_of_mem hcell
  have hlt : index < count := by
    by_contra hnot
    rw [List.getElem?_take_eq_none (by omega)] at hindex
    exact Option.some_ne_none cell hindex.symm
  rw [List.getElem?_take_of_lt hlt] at hindex
  have hnew : new[piece.start + index]? = some cell := by
    rw [← piece.getElem?_read (by omega), hsame, hindex]
  have hmapped : (mapCells f cells piece.start count)[piece.start + index]? = some (f cell) := by
    rw [getElem?_mapCells, if_pos (by omega), ← piece.getElem?_read (by omega), hindex,
      Option.map_some]
  rcases hlater (piece.start + index) with hkept | hkept
  · rw [hnew, hmapped] at hkept
    exact hchanged (Option.some.inj hkept).symm
  · rw [hnew, hmapped, Option.map_some, hf] at hkept
    exact hchanged (Option.some.inj hkept).symm

end RdbLibs.TextPieces
