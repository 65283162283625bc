import Mathlib.Data.List.Basic
import Mathlib.Data.List.Infix
import Mathlib.Data.Nat.Find

/-!
# Searching texts

A text is the list of its characters, of any type. `find` is the first position at which a pattern
stands (`find_eq_some_iff`). Where characters are left out of a text and of a pattern, a position of
the pattern moves to the front by the characters that were left out before it (`StandsAt.filter`),
so that a first position that is not moved is one of the text itself (`FirstAt.of_filter`). A
pattern that lacks some separator stands in a text with a separator exactly when it stands before it
or behind it (`infix_append_cons_iff`). A text of lines, each ended by the separator, is split into
these lines and an empty one behind them (`splitOn_lines`).
-/

set_option autoImplicit false
set_option relaxedAutoImplicit false

namespace RdbLibs.TextSearch

variable {α : Type*}

/-- A pattern without the separator does not reach over it. -/
theorem infix_append_cons_iff {separator : α} {pattern : List α} (h : separator ∉ pattern)
    (front back : List α) :
    pattern <:+: front ++ separator :: back ↔ pattern <:+: front ∨ pattern <:+: back := by
  constructor
  · rintro ⟨before, behind, heq⟩
    rw [List.append_assoc, List.append_eq_append_iff] at heq
    rcases heq with ⟨rest, rfl, hrest⟩ | ⟨rest, rfl, hrest⟩
    · rw [List.append_eq_append_iff] at hrest
      rcases hrest with ⟨more, rfl, -⟩ | ⟨more, rfl, hmore⟩
      · exact .inl ⟨before, more, by rw [List.append_assoc]⟩
      · cases more with
        | nil => exact .inl ⟨before, [], by simp⟩
        | cons first more =>
          obtain ⟨rfl, -⟩ := List.cons.inj hmore
          exact absurd (List.mem_append_right _ List.mem_cons_self) h
    · cases rest with
      | nil =>
        cases pattern with
        | nil => exact .inl List.nil_infix
        | cons first pattern =>
          obtain ⟨rfl, -⟩ := List.cons.inj hrest
          exact absurd List.mem_cons_self h
      | cons first rest =>
        have hback : back = rest ++ (pattern ++ behind) := (List.cons.inj hrest).2
        exact .inr ⟨rest, behind, by rw [hback, List.append_assoc]⟩
  · rintro (hfront | hback)
    · exact hfront.trans (List.prefix_append _ _).isInfix
    · exact hback.trans ((List.suffix_cons _ _).trans (List.suffix_append _ _)).isInfix

/-! ### Positions -/

/-- The pattern stands in the text at position `k`. -/
def StandsAt (text pattern : List α) (k : ℕ) : Prop :=
  k + pattern.length ≤ text.length ∧ (text.drop k).take pattern.length = pattern

/-- The first position at which the pattern stands in the text. -/
def FirstAt (text pattern : List α) (k : ℕ) : Prop :=
  StandsAt text pattern k ∧ ∀ j, StandsAt text pattern j → k ≤ j

variable {text pattern : List α} {k : ℕ}

theorem standsAt_iff :
    StandsAt text pattern k ↔ ∃ front back, text = front ++ pattern ++ back ∧ front.length = k := by
  constructor
  · rintro ⟨hinside, heq⟩
    refine ⟨text.take k, (text.drop k).drop pattern.length, ?_, List.length_take_of_le (by omega)⟩
    have hmiddle := List.take_append_drop pattern.length (text.drop k)
    rw [heq] at hmiddle
    rw [List.append_assoc, hmiddle, List.take_append_drop]
  · rintro ⟨front, back, rfl, rfl⟩
    refine ⟨?_, ?_⟩
    · rw [List.length_append, List.length_append]
      exact Nat.le_add_right _ _
    · rw [List.append_assoc, List.drop_left, List.take_left]

theorem FirstAt.unique {k' : ℕ} (h : FirstAt text pattern k) (h' : FirstAt text pattern k') :
    k = k' := Nat.le_antisymm (h.2 k' h'.1) (h'.2 k h.1)

section Filter

variable {p : α → Bool}

/-- Characters that are left out before a position move it to the front. -/
theorem StandsAt.filter (h : StandsAt text pattern k) :
    StandsAt (text.filter p) (pattern.filter p) ((text.take k).filter p).length := by
  obtain ⟨front, back, rfl, rfl⟩ := standsAt_iff.mp h
  refine standsAt_iff.mpr ⟨front.filter p, back.filter p, ?_, ?_⟩
  · rw [List.filter_append, List.filter_append]
  · rw [List.append_assoc, List.take_left]

/-- Where nothing is left out before a position, it does not move. -/
theorem StandsAt.filter_of_forall (h : StandsAt text pattern k)
    (hkept : ∀ item ∈ text.take k, p item = true) :
    StandsAt (text.filter p) (pattern.filter p) k := by
  have hmoved := h.filter (p := p)
  rwa [List.filter_eq_self.mpr hkept, List.length_take_of_le (by have := h.1; omega)] at hmoved

/-- So it is the first position of what is left, if there is none before it. -/
theorem StandsAt.firstAt_filter (h : StandsAt text pattern k)
    (hkept : ∀ item ∈ text.take k, p item = true)
    (hleast : ∀ j < k, ¬StandsAt (text.filter p) (pattern.filter p) j) :
    FirstAt (text.filter p) (pattern.filter p) k :=
  ⟨h.filter_of_forall hkept, fun j hj ↦ Nat.not_lt.mp fun hlt ↦ hleast j hlt hj⟩

/-- The pattern stands nowhere before the first position without what is left out. -/
theorem FirstAt.le_of_filter (h : FirstAt (text.filter p) (pattern.filter p) k) {j : ℕ}
    (hstands : StandsAt text pattern j) : k ≤ j := by
  have hmoved := h.2 _ (hstands.filter (p := p))
  have hle := (List.length_filter_le p (text.take j)).trans (List.length_take_le j text)
  exact hmoved.trans hle

/-- If the pattern itself stands at that position, it does so for the first time, and nothing was
left out before. -/
theorem FirstAt.of_filter (h : FirstAt (text.filter p) (pattern.filter p) k)
    (hstands : StandsAt text pattern k) :
    FirstAt text pattern k ∧ ∀ item ∈ text.take k, p item = true := by
  refine ⟨⟨hstands, fun j hj ↦ h.le_of_filter hj⟩, ?_⟩
  have hmoved := h.2 _ (hstands.filter (p := p))
  have hlength := List.length_take_le k text
  have hle := List.length_filter_le p (text.take k)
  exact List.length_filter_eq_length_iff.mp (by omega)

end Filter

section Find

variable [BEq α]

/-- The first position of a pattern in a text. -/
def find (text pattern : List α) : Option ℕ :=
  (text.dropInfix? pattern).map fun parts ↦ parts.1.length

variable [LawfulBEq α]

theorem find_eq_some_iff : find text pattern = some k ↔ FirstAt text pattern k := by
  have hfirst (front back : List α) : text.dropInfix? pattern = some (front, back) ↔
      text = front ++ pattern ++ back ∧ FirstAt text pattern front.length := by
    rw [List.dropInfix?_eq_some_iff]
    constructor
    · rintro ⟨⟨found, hfound, heq⟩, hleast⟩
      rw [eq_of_beq heq] at hfound
      refine ⟨hfound, standsAt_iff.mpr ⟨front, back, hfound, rfl⟩, fun j hj ↦ ?_⟩
      obtain ⟨before, behind, htext, rfl⟩ := standsAt_iff.mp hj
      exact hleast before pattern behind htext (beq_self_eq_true pattern)
    · rintro ⟨htext, -, hleast⟩
      refine ⟨⟨pattern, htext, beq_self_eq_true pattern⟩, fun before found behind hfound heq ↦ ?_⟩
      rw [eq_of_beq heq] at hfound
      exact hleast _ (standsAt_iff.mpr ⟨before, behind, hfound, rfl⟩)
  rw [find, Option.map_eq_some_iff]
  constructor
  · rintro ⟨⟨front, back⟩, hparts, rfl⟩
    exact ((hfirst front back).mp hparts).2
  · intro h
    obtain ⟨front, back, htext, rfl⟩ := standsAt_iff.mp h.1
    exact ⟨(front, back), (hfirst front back).mpr ⟨htext, h⟩, rfl⟩

theorem find_eq_none {text pattern : List α} (h : ¬pattern <:+: text) :
    find text pattern = none := by
  rw [find, Option.map_eq_none_iff, Option.eq_none_iff_forall_ne_some]
  rintro ⟨before, behind⟩ hparts
  obtain ⟨⟨found, rfl, hfound⟩, -⟩ := List.dropInfix?_eq_some_iff.mp hparts
  exact h ⟨before, behind, by rw [eq_of_beq hfound]⟩

/-- A pattern that is not found stands nowhere. -/
theorem not_standsAt_of_find (h : find text pattern = none) (j : ℕ) :
    ¬StandsAt text pattern j := by
  intro hstands
  have hfound : ∃ k, find text pattern = some k := by
    classical
    exact ⟨Nat.find ⟨j, hstands⟩, find_eq_some_iff.mpr
      ⟨Nat.find_spec ⟨j, hstands⟩, fun i hi ↦ Nat.find_min' ⟨j, hstands⟩ hi⟩⟩
  rw [h] at hfound
  exact hfound.elim nofun

/-- A pattern at the beginning of a text is found there. -/
theorem find_append (pattern behind : List α) : find (pattern ++ behind) pattern = some 0 := by
  have hparts : (pattern ++ behind).dropInfix? pattern = some ([], behind) := by
    rw [List.dropInfix?_eq_some_iff]
    exact ⟨⟨pattern, rfl, beq_self_eq_true pattern⟩, fun _ _ _ _ _ ↦ Nat.zero_le _⟩
  rw [find, hparts]
  rfl

/-- A pattern is found behind what has not its first character. -/
theorem find_append_append {c : α} {front : List α} (hfront : c ∉ front) (pattern back : List α) :
    find (front ++ c :: pattern ++ back) (c :: pattern) = some front.length := by
  refine find_eq_some_iff.mpr ⟨standsAt_iff.mpr ⟨front, back, rfl, rfl⟩, fun j hj ↦ ?_⟩
  obtain ⟨before, behind, htext, rfl⟩ := standsAt_iff.mp hj
  rw [List.append_assoc, List.append_assoc, List.append_eq_append_iff] at htext
  rcases htext with ⟨rest, rfl, -⟩ | ⟨rest, rfl, hrest⟩
  · rw [List.length_append]
    exact Nat.le_add_right _ _
  · cases rest with
    | nil => rw [List.append_nil]
    | cons first rest =>
      obtain ⟨rfl, -⟩ := List.cons.inj hrest
      exact absurd (List.mem_append_right _ List.mem_cons_self) hfront

theorem splitOn_lines {separator : α} {lines : List (List α)}
    (h : ∀ line ∈ lines, separator ∉ line) :
    (lines.flatMap fun line ↦ line ++ [separator]).splitOn separator = lines ++ [[]] := by
  induction lines with
  | nil => rfl
  | cons line lines ih =>
    rw [List.forall_mem_cons] at h
    rw [List.flatMap_cons, List.append_assoc, List.singleton_append,
      List.splitOn_append_cons_self_of_not_mem h.1, ih h.2, List.cons_append]

end Find

end RdbLibs.TextSearch
