import Mathlib.Tactic.Common
import Mathlib.Algebra.Group.Basic
import Mathlib.Algebra.Order.Group.Nat

/-!
# Files behind streams

A stream has the elements of its file and the offset at which it reads and writes next. `read` and
`write` transfer items of one size and count the items that they have transferred completely, as
`fread` and `fwrite` do when no device fails: reading stops at the end of the file, writing extends
it. At the end of the file a stream reads nothing (`read_atEnd`), and writing there appends
(`write_atEnd`).
-/

set_option autoImplicit false
set_option relaxedAutoImplicit false

namespace RdbLibs.FileStream

variable {α : Type*}

/-- An open file. A stream that appends writes at the end of the file, whatever its offset. -/
structure Stream (α : Type*) where
  content : List α
  offset : ℕ
  readable : Bool
  writable : Bool
  appends : Bool

namespace Stream

/-- The offset is behind the last element. -/
def AtEnd (s : Stream α) : Prop := s.offset = s.content.length

/-- Moves the offset. -/
def seek (s : Stream α) (offset : ℕ) : Stream α := { s with offset := offset }

/-- Moves the offset behind the last element. -/
def seekEnd (s : Stream α) : Stream α := s.seek s.content.length

/-- Reads `count` items of `size` elements: the number of items that are complete, the elements, and
the stream behind them. -/
def read (s : Stream α) (size count : ℕ) : ℕ × List α × Stream α :=
  if s.readable = false ∨ size = 0 then (0, [], s)
  else
    let elements := (s.content.drop s.offset).take (size * count)
    (elements.length / size, elements, s.seek (s.offset + elements.length))

/-- Writes items of `size` elements: the number of items, and the stream behind them. What lies
between the end of the file and the offset is filled with zeros. -/
def write [Zero α] (s : Stream α) (size : ℕ) (elements : List α) : ℕ × Stream α :=
  if s.writable = false ∨ size = 0 then (0, s)
  else
    let start := if s.appends then s.content.length else s.offset
    (elements.length / size, { s with
      content := s.content.take start ++ List.replicate (start - s.content.length) 0 ++ elements ++
        s.content.drop (start + elements.length)
      offset := start + elements.length })

/-- Writing changes the file and the offset only. -/
theorem exists_write [Zero α] (s : Stream α) (size : ℕ) (elements : List α) :
    ∃ content offset,
      (s.write size elements).2 = { s with content := content, offset := offset } := by
  by_cases hrefused : s.writable = false ∨ size = 0
  · rw [write, if_pos hrefused]
    exact ⟨s.content, s.offset, rfl⟩
  · rw [write, if_neg hrefused]
    exact ⟨_, _, rfl⟩

/-- All items are written. -/
theorem write_fst [Zero α] {s : Stream α} (hwritable : s.writable = true) {size : ℕ}
    (hsize : size ≠ 0) (elements : List α) :
    (s.write size elements).1 = elements.length / size := by
  rw [write, if_neg (by simp [hwritable, hsize])]

variable {s : Stream α}

/-- Nothing is left to read at the end of a file. -/
theorem read_atEnd (h : s.AtEnd) (size count : ℕ) : s.read size count = (0, [], s) := by
  rw [read]
  split_ifs with hrefused
  · rfl
  · have hnone : (s.content.drop s.offset).take (size * count) = [] := by
      rw [List.drop_eq_nil_of_le h.ge, List.take_nil]
    simp [hnone, seek]

/-- A stream that writes at the end of its file appends to it. -/
theorem write_atEnd [Zero α] (h : s.AtEnd) (hwritable : s.writable = true) {size : ℕ}
    (hsize : size ≠ 0) (elements : List α) :
    s.write size elements = (elements.length / size, { s with
      content := s.content ++ elements
      offset := (s.content ++ elements).length }) := by
  have hstart : (if s.appends then s.content.length else s.offset) = s.content.length := by
    rw [h, ite_self]
  rw [write, if_neg (by simp [hwritable, hsize]), hstart]
  simp

end Stream

end RdbLibs.FileStream
