import Mathlib.Data.List.DropRight
import Mathlib.Data.List.Induction
import Mathlib.Tactic.Common

/-!
# Trimming a list

`WithoutLeading p items rest` says that `rest` is what is left of a list without its longest prefix
of items with the property `p`, and `WithoutTrailing` the same of the longest suffix. There is one
such list (`withoutLeading_iff`, `withoutTrailing_iff`), and the two are mirror images of each
other. A loop that counts the items to remove, from one end, finds it by their number
(`drop_length_takeWhile`, `take_length_sub_takeWhile`).
-/

set_option autoImplicit false
set_option relaxedAutoImplicit false

namespace RdbLibs.Trimming

variable {α : Type*} (p : α → Bool) (items : List α)

/-- The list without its longest prefix of items with the property. -/
def WithoutLeading (rest : List α) : Prop :=
  ∃ removed, items = removed ++ rest ∧ (∀ item ∈ removed, p item = true) ∧
    ∀ other behind, items = other ++ behind → (∀ item ∈ other, p item = true) →
      other.length ≤ removed.length

/-- The list without its longest suffix of items with the property. -/
def WithoutTrailing (rest : List α) : Prop :=
  ∃ removed, items = rest ++ removed ∧ (∀ item ∈ removed, p item = true) ∧
    ∀ before other, items = before ++ other → (∀ item ∈ other, p item = true) →
      other.length ≤ removed.length

variable {p items} {rest : List α}

/-- No prefix of items with the property is longer than the items that a scan takes. -/
theorem length_le_takeWhile {front : List α} (hfront : ∀ item ∈ front, p item = true)
    (back : List α) :
    front.length ≤ ((front ++ back).takeWhile p).length := by
  rw [List.takeWhile_append_of_pos hfront, List.length_append]
  exact Nat.le_add_right _ _

theorem withoutLeading_iff : WithoutLeading p items rest ↔ rest = items.dropWhile p := by
  have htake : ∀ item ∈ items.takeWhile p, p item = true := fun item ↦ List.mem_takeWhile_imp
  have hsplit := (List.takeWhile_append_dropWhile (p := p) (l := items)).symm
  constructor
  · rintro ⟨removed, hitems, hremoved, hlongest⟩
    have hle := length_le_takeWhile hremoved rest
    rw [← hitems] at hle
    have hlength := Nat.le_antisymm hle (hlongest _ _ hsplit htake)
    exact (List.append_inj (hitems.symm.trans hsplit) hlength).2
  · rintro rfl
    refine ⟨items.takeWhile p, hsplit, htake, fun other behind hother hall ↦ ?_⟩
    have hle := length_le_takeWhile hall behind
    rwa [← hother] at hle

/-- A suffix of a list is a prefix of its mirror image. -/
theorem withoutTrailing_iff_reverse :
    WithoutTrailing p items rest ↔ WithoutLeading p items.reverse rest.reverse := by
  have hmirror {first second third : List α} :
      first = second ++ third ↔ first.reverse = third.reverse ++ second.reverse := by
    rw [← List.reverse_append, List.reverse_inj]
  have hlength (list : List α) : list.length = list.reverse.length := List.length_reverse.symm
  constructor
  · rintro ⟨removed, hitems, hremoved, hlongest⟩
    refine ⟨removed.reverse, hmirror.mp hitems, fun item hitem ↦ ?_,
      fun other behind hother hall ↦ ?_⟩
    · exact hremoved item (List.mem_reverse.mp hitem)
    · rw [List.length_reverse, hlength other]
      refine hlongest behind.reverse other.reverse ?_ fun item hitem ↦
        hall item (List.mem_reverse.mp hitem)
      rw [hmirror, List.reverse_reverse, List.reverse_reverse]
      exact hother
  · rintro ⟨removed, hitems, hremoved, hlongest⟩
    refine ⟨removed.reverse, ?_, fun item hitem ↦ ?_, fun before other hother hall ↦ ?_⟩
    · rw [hmirror, List.reverse_reverse]
      exact hitems
    · exact hremoved item (List.mem_reverse.mp hitem)
    · rw [List.length_reverse, hlength other]
      exact hlongest other.reverse before.reverse (hmirror.mp hother) fun item hitem ↦
        hall item (List.mem_reverse.mp hitem)

theorem withoutTrailing_iff : WithoutTrailing p items rest ↔ rest = items.rdropWhile p := by
  rw [withoutTrailing_iff_reverse, withoutLeading_iff, List.rdropWhile, List.reverse_eq_iff]

/-- A first item without the property stays. -/
theorem rdropWhile_cons_of_neg {first : α} (h : p first = false) (items : List α) :
    (first :: items).rdropWhile p = first :: items.rdropWhile p := by
  induction items using List.reverseRecOn with
  | nil =>
    rw [List.rdropWhile_singleton, if_neg (by rw [h]; exact Bool.false_ne_true),
      List.rdropWhile_nil]
  | append_singleton items last ih =>
    rw [← List.cons_append, List.rdropWhile_concat, List.rdropWhile_concat]
    split_ifs
    · exact ih
    · rfl

/-- What a list begins with when its leading items were removed. -/
theorem not_of_dropWhile_eq_cons {first : α} {rest : List α}
    (h : items.dropWhile p = first :: rest) : p first = false := by
  have hhead := List.head?_dropWhile_not p items
  rw [h] at hhead
  exact hhead

variable (p items)

/-- What is left behind the items that a scan from the beginning counts. -/
theorem drop_length_takeWhile : items.drop (items.takeWhile p).length = items.dropWhile p := by
  have hsplit := congrArg (List.drop (items.takeWhile p).length)
    (List.takeWhile_append_dropWhile (p := p) (l := items))
  rw [List.drop_left] at hsplit
  exact hsplit.symm

/-- What is left before the items that a scan from the end counts. -/
theorem take_length_sub_takeWhile :
    items.take (items.length - (items.reverse.takeWhile p).length) = items.rdropWhile p := by
  rw [List.rdropWhile, ← drop_length_takeWhile, List.drop_reverse, List.reverse_reverse]

/-! ### Both ends -/

section BothEnds

variable {q : α → Bool} {p items}

/-- A scan takes no more than what is before an item without the property. -/
theorem length_takeWhile_append_le {item : α} (hitem : p item = false) (front back : List α) :
    ((front ++ item :: back).takeWhile p).length ≤ front.length := by
  have hnot : (item :: back).takeWhile p = [] :=
    List.takeWhile_cons_of_neg (by rw [hitem]; exact Bool.false_ne_true)
  rw [List.takeWhile_append, hnot]
  split_ifs
  · rw [List.append_nil]
  · exact (List.takeWhile_prefix p).length_le

/-- A scan that meets an item without the property does not see what is behind. -/
theorem takeWhile_append_of_exists {front : List α} (h : ∃ item ∈ front, p item = false)
    (back : List α) : (front ++ back).takeWhile p = front.takeWhile p := by
  obtain ⟨item, hitem, hnot⟩ := h
  rw [List.takeWhile_append, if_neg]
  intro hlength
  have hall := List.takeWhile_eq_self_iff.mp ((List.takeWhile_prefix p).eq_of_length hlength)
  exact Bool.false_ne_true (hnot.symm.trans (hall item hitem))

/-- A scan ends inside the first part of a list exactly when it meets an item there that is without
the property. -/
theorem length_takeWhile_append_lt_iff (front back : List α) :
    ((front ++ back).takeWhile p).length < front.length ↔ ∃ item ∈ front, p item = false := by
  constructor
  · intro hlt
    by_contra hnone
    push Not at hnone
    have hall : ∀ item ∈ front, p item = true := fun item hitem ↦
      (Bool.not_eq_false _).mp (hnone item hitem)
    exact absurd (length_le_takeWhile hall back) (not_le.mpr hlt)
  · rintro ⟨item, hitem, hnot⟩
    obtain ⟨before, after, rfl⟩ := List.append_of_mem hitem
    rw [List.append_assoc, List.cons_append]
    refine (length_takeWhile_append_le hnot before _).trans_lt ?_
    rw [List.length_append, List.length_cons]
    omega

/-- Where an item has neither property, the scans from both ends do not meet, and what is between
them is the list without its leading items of one property and its trailing items of the other. -/
theorem trim_both (h : ∃ item ∈ items, p item = false ∧ q item = false) :
    (items.takeWhile p).length + (items.reverse.takeWhile q).length < items.length ∧
      (items.drop (items.takeWhile p).length).take (items.length -
        (items.reverse.takeWhile q).length - (items.takeWhile p).length) =
          (items.dropWhile p).rdropWhile q := by
  obtain ⟨item, hmem, hp, hq⟩ := h
  have hrest : item ∈ items.dropWhile p := by
    have hsplit := List.takeWhile_append_dropWhile (p := p) (l := items)
    rw [← hsplit, List.mem_append] at hmem
    refine hmem.resolve_left fun htake ↦ ?_
    have htrue : p item = true := List.mem_takeWhile_imp htake
    rw [htrue] at hp
    cases hp
  -- the scan from the end stops at an item behind those that the other one takes
  have hback : items.reverse.takeWhile q = (items.dropWhile p).reverse.takeWhile q := by
    have hstops : ((items.dropWhile p).reverse.takeWhile q).length ≠
        (items.dropWhile p).reverse.length := by
      intro hlength
      have hall := (List.takeWhile_prefix q).eq_of_length hlength
      have htrue : q item = true :=
        List.mem_takeWhile_imp (hall.symm ▸ List.mem_reverse.mpr hrest)
      rw [htrue] at hq
      cases hq
    have hsplit := congrArg List.reverse (List.takeWhile_append_dropWhile (p := p) (l := items))
    rw [List.reverse_append] at hsplit
    rw [← hsplit, List.takeWhile_append, if_neg hstops]
  have hlength : (items.takeWhile p).length + (items.dropWhile p).length = items.length := by
    rw [← List.length_append, List.takeWhile_append_dropWhile]
  have hshort : ((items.dropWhile p).reverse.takeWhile q).length < (items.dropWhile p).length := by
    obtain ⟨front, back, heq⟩ := List.append_of_mem (List.mem_reverse.mpr hrest)
    have hle := length_takeWhile_append_le hq front back
    have htotal := congrArg List.length heq
    rw [List.length_reverse, List.length_append, List.length_cons] at htotal
    rw [heq]
    omega
  rw [hback]
  refine ⟨by omega, ?_⟩
  rw [drop_length_takeWhile, ← take_length_sub_takeWhile q]
  congr 1
  omega

end BothEnds

end RdbLibs.Trimming
