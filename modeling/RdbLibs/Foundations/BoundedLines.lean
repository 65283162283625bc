import Mathlib.Data.List.Basic
import Mathlib.Tactic.Common

/-!
# Lines of bounded length

A reader of lines takes what a text has up to the first end of a line, and that too, but no more
than a limit (`firstLine`). Such lines come one after another: each but the last is `Full`, because
it has an end or meets the limit. A text is split in one way only (`Lines.unique`), and a list of
lines is the one of its text exactly when it is well formed (`lines_flatten_iff`).
-/

set_option autoImplicit false
set_option relaxedAutoImplicit false

namespace RdbLibs.BoundedLines

variable {α : Type*} {stop : α} {limit : ℕ} {line text rest : List α}

/-- A line that is not followed up: it meets the limit, or has an end. -/
def Full (stop : α) (limit : ℕ) (line : List α) : Prop := line.length = limit ∨ stop ∈ line

/-- A line has a `stop` at its end only, and is not longer than the limit. -/
structure IsLine (stop : α) (limit : ℕ) (line : List α) : Prop where
  ne_nil : line ≠ []
  length_le : line.length ≤ limit
  stop_last : stop ∉ line.dropLast

/-- The lines that a text is split into. -/
inductive Lines (stop : α) (limit : ℕ) : List α → List (List α) → Prop
  | nil : Lines stop limit [] []
  | cons {line rest : List α} {lines : List (List α)} : IsLine stop limit line →
      Full stop limit line ∨ rest = [] → Lines stop limit rest lines →
      Lines stop limit (line ++ rest) (line :: lines)

/-- Each line is one, and each but the last is full. -/
def WellFormed (stop : α) (limit : ℕ) : List (List α) → Prop
  | [] => True
  | line :: lines =>
    IsLine stop limit line ∧ (Full stop limit line ∨ lines = []) ∧ WellFormed stop limit lines

theorem Lines.flatten_eq {lines : List (List α)} (h : Lines stop limit text lines) :
    lines.flatten = text := by
  induction h with
  | nil => rfl
  | cons _ _ _ ih => rw [List.flatten_cons, ih]

theorem Lines.isLine {lines : List (List α)} (h : Lines stop limit text lines) :
    ∀ line ∈ lines, IsLine stop limit line := by
  induction h with
  | nil => exact fun _ hmem ↦ absurd hmem List.not_mem_nil
  | cons hline _ _ ih => exact List.forall_mem_cons.mpr ⟨hline, ih⟩

/-- A list of lines is the one that its text is split into exactly when it is well formed. -/
theorem lines_flatten_iff {lines : List (List α)} :
    Lines stop limit lines.flatten lines ↔ WellFormed stop limit lines := by
  induction lines with
  | nil => exact ⟨fun _ ↦ trivial, fun _ ↦ .nil⟩
  | cons line lines ih =>
    have hrest (hwell : WellFormed stop limit lines) : lines.flatten = [] ↔ lines = [] := by
      refine ⟨fun hnil ↦ ?_, fun hnil ↦ by rw [hnil, List.flatten_nil]⟩
      cases lines with
      | nil => rfl
      | cons next lines => exact absurd (List.append_eq_nil_iff.mp hnil).1 hwell.1.ne_nil
    constructor
    · intro h
      rw [List.flatten_cons] at h
      generalize htext : line ++ lines.flatten = text at h
      cases h with
      | @cons line rest lines hline hnext hlines =>
        obtain rfl := List.append_cancel_left htext
        have hwell := ih.mp hlines
        rw [hrest hwell] at hnext
        exact ⟨hline, hnext, hwell⟩
    · rintro ⟨hline, hnext, hwell⟩
      rw [← hrest hwell] at hnext
      rw [List.flatten_cons]
      exact .cons hline hnext (ih.mpr hwell)

/-! ### The first line -/

variable [DecidableEq α]

instance : DecidablePred (Full stop limit) := fun _ ↦ inferInstanceAs (Decidable (_ ∨ _))

/-- What a text has up to the first `stop`, and that too, but no more than `limit`. -/
def firstLine (stop : α) : ℕ → List α → List α
  | 0, _ => []
  | _ + 1, [] => []
  | limit + 1, a :: rest => if a = stop then [a] else a :: firstLine stop limit rest

theorem firstLine_nil (limit : ℕ) : firstLine stop limit [] = [] := by cases limit <;> rfl

theorem firstLine_prefix (stop : α) (limit : ℕ) (text : List α) :
    firstLine stop limit text <+: text := by
  induction limit generalizing text with
  | zero => exact List.nil_prefix
  | succ limit ih =>
    cases text with
    | nil => exact List.nil_prefix
    | cons a rest =>
      rw [firstLine]
      split_ifs
      · exact (List.prefix_cons_inj a).mpr List.nil_prefix
      · exact (List.prefix_cons_inj a).mpr (ih rest)

theorem length_firstLine_le (stop : α) (limit : ℕ) (text : List α) :
    (firstLine stop limit text).length ≤ limit := by
  induction limit generalizing text with
  | zero => exact Nat.le_refl 0
  | succ limit ih =>
    cases text with
    | nil => exact Nat.zero_le _
    | cons a rest =>
      rw [firstLine]
      split_ifs
      · exact Nat.succ_le_succ (Nat.zero_le limit)
      · exact Nat.succ_le_succ (ih rest)

theorem stop_notMem_dropLast (stop : α) (limit : ℕ) (text : List α) :
    stop ∉ (firstLine stop limit text).dropLast := by
  induction limit generalizing text with
  | zero => exact List.not_mem_nil
  | succ limit ih =>
    cases text with
    | nil => exact List.not_mem_nil
    | cons a rest =>
      rw [firstLine]
      split_ifs with hstop
      · exact List.not_mem_nil
      · cases hline : firstLine stop limit rest with
        | nil => exact List.not_mem_nil
        | cons b line =>
          rw [List.dropLast_cons_cons, ← hline, List.mem_cons, not_or]
          exact ⟨Ne.symm hstop, ih rest⟩

theorem isLine_firstLine (hlimit : limit ≠ 0) (htext : text ≠ []) :
    IsLine stop limit (firstLine stop limit text) := by
  refine ⟨?_, length_firstLine_le stop limit text, stop_notMem_dropLast stop limit text⟩
  obtain ⟨limit, rfl⟩ := Nat.exists_eq_succ_of_ne_zero hlimit
  obtain ⟨a, rest, rfl⟩ := List.exists_cons_of_ne_nil htext
  rw [firstLine]
  split_ifs
  · exact List.cons_ne_nil _ _
  · exact List.cons_ne_nil _ _

/-- A line that could be followed up is the last one. -/
theorem firstLine_eq_of_not_full (h : ¬Full stop limit (firstLine stop limit text)) :
    firstLine stop limit text = text := by
  induction limit generalizing text with
  | zero => exact absurd (.inl rfl) h
  | succ limit ih =>
    cases text with
    | nil => rfl
    | cons a rest =>
      rw [firstLine] at h ⊢
      split_ifs at h ⊢ with hstop
      · exact absurd (.inr (hstop ▸ List.mem_cons_self)) h
      · refine congrArg (a :: ·) (ih fun hfull ↦ h ?_)
        rcases hfull with hlength | hmem
        · exact .inl (congrArg (· + 1) hlength)
        · exact .inr (List.mem_cons_of_mem a hmem)

/-- A full line is the first one of every text that begins with it, and every line of itself. -/
theorem IsLine.firstLine_append (h : IsLine stop limit line)
    (hnext : Full stop limit line ∨ rest = []) : firstLine stop limit (line ++ rest) = line := by
  obtain ⟨-, hlength, hstop⟩ := h
  induction limit generalizing line with
  | zero =>
    rw [List.eq_nil_of_length_eq_zero (Nat.le_zero.mp hlength)]
    rfl
  | succ limit ih =>
    cases line with
    | nil =>
      rcases hnext with (hfull | hmem) | rfl
      · exact absurd hfull (Nat.zero_ne_add_one limit)
      · exact absurd hmem List.not_mem_nil
      · exact firstLine_nil _
    | cons a line =>
      rw [List.cons_append, firstLine]
      cases line with
      | nil =>
        split_ifs with ha
        · rfl
        · refine congrArg (a :: ·) (ih ?_ (Nat.zero_le limit) List.not_mem_nil)
          rcases hnext with (hfull | hmem) | hrest
          · exact .inl (.inl (Nat.succ.inj hfull))
          · exact absurd (List.mem_singleton.mp hmem).symm ha
          · exact .inr hrest
      | cons b line =>
        rw [List.dropLast_cons_cons, List.mem_cons, not_or] at hstop
        rw [if_neg (Ne.symm hstop.1)]
        refine congrArg (a :: ·) (ih ?_ (Nat.le_of_succ_le_succ hlength) hstop.2)
        rcases hnext with (hfull | hmem) | hrest
        · exact .inl (.inl (Nat.succ.inj hfull))
        · exact .inl (.inr ((List.mem_cons.mp hmem).resolve_left hstop.1))
        · exact .inr hrest

/-- Every text is split into lines. -/
theorem exists_lines (stop : α) (hlimit : limit ≠ 0) (text : List α) :
    ∃ lines, Lines stop limit text lines := by
  induction hlength : text.length using Nat.strongRecOn generalizing text with
  | _ length ih =>
    rcases eq_or_ne text [] with rfl | htext
    · exact ⟨[], .nil⟩
    · have hline : IsLine stop limit (firstLine stop limit text) := isLine_firstLine hlimit htext
      obtain ⟨rest, hrest⟩ := firstLine_prefix stop limit text
      have hsmaller : rest.length < length := by
        have hpos := List.length_pos_iff.mpr hline.ne_nil
        rw [← hlength, ← congrArg List.length hrest, List.length_append]
        omega
      obtain ⟨lines, hlines⟩ := ih rest.length hsmaller rest rfl
      have hnext : Full stop limit (firstLine stop limit text) ∨ rest = [] := by
        by_cases hfull : Full stop limit (firstLine stop limit text)
        · exact .inl hfull
        · rw [firstLine_eq_of_not_full hfull] at hrest
          exact .inr (List.append_right_eq_self.mp hrest)
      have hall := Lines.cons hline hnext hlines
      rw [hrest] at hall
      exact ⟨_, hall⟩

/-- A text is split in one way. -/
theorem Lines.unique {lines lines' : List (List α)} (h : Lines stop limit text lines)
    (h' : Lines stop limit text lines') : lines = lines' := by
  induction h generalizing lines' with
  | nil =>
    generalize htext : ([] : List α) = text at h'
    cases h' with
    | nil => rfl
    | cons hline _ _ => exact absurd (List.append_eq_nil_iff.mp htext.symm).1 hline.ne_nil
  | @cons line rest lines hline hnext _ ih =>
    generalize htext : line ++ rest = text at h'
    cases h' with
    | nil => exact absurd (List.append_eq_nil_iff.mp htext).1 hline.ne_nil
    | @cons line' rest' lines' hline' hnext' hlines' =>
      have hsame : line = line' := by
        rw [← hline.firstLine_append hnext, htext, hline'.firstLine_append hnext']
      subst hsame
      rw [← List.append_cancel_left htext] at hlines'
      rw [ih hlines']

end RdbLibs.BoundedLines
