import Mathlib.Order.Lattice
import Mathlib.Data.List.Basic
import Mathlib.Data.List.Infix

/-!
# Comparison by the first difference

`compareFirst` compares two lists by the first position at which they differ, and takes them for
equal when one of them ends before that. So it takes each list for equal to its prefixes
(`compareFirst_eq_iff`), and it is antisymmetric (`compareFirst_swap`). It is transitive but for
three lists the middle one of which is a prefix of both others (`compareFirst_trans`).
-/

set_option autoImplicit false
set_option relaxedAutoImplicit false

namespace RdbLibs.FirstDifference

variable {α : Type*} [LinearOrder α]

/-- Compares two lists by their first difference. -/
def compareFirst : List α → List α → Ordering
  | a :: as, b :: bs => if a < b then .lt else if b < a then .gt else compareFirst as bs
  | [], _ => .eq
  | _ :: _, [] => .eq

/-- At the first difference of two lists the first list has the larger item. -/
def Exceeds (first second : List α) : Prop :=
  ∃ front a b back back', first = front ++ a :: back ∧ second = front ++ b :: back' ∧ b < a

theorem compareFirst_nil (list : List α) : compareFirst list [] = .eq := by
  cases list <;> rfl

theorem compareFirst_cons_of_lt {a b : α} (h : a < b) (as bs : List α) :
    compareFirst (a :: as) (b :: bs) = .lt := if_pos h

theorem compareFirst_cons_of_gt {a b : α} (h : b < a) (as bs : List α) :
    compareFirst (a :: as) (b :: bs) = .gt := by
  rw [compareFirst, if_neg (lt_asymm h), if_pos h]

theorem compareFirst_cons_self (a : α) (as bs : List α) :
    compareFirst (a :: as) (a :: bs) = compareFirst as bs := by
  rw [compareFirst, if_neg (lt_irrefl a), if_neg (lt_irrefl a)]

theorem compareFirst_swap (first second : List α) :
    compareFirst second first = (compareFirst first second).swap := by
  induction first generalizing second with
  | nil => rw [compareFirst_nil]; rfl
  | cons a as ih =>
    cases second with
    | nil => rfl
    | cons b bs =>
      rcases lt_trichotomy a b with hlt | rfl | hgt
      · rw [compareFirst_cons_of_gt hlt, compareFirst_cons_of_lt hlt]
        rfl
      · rw [compareFirst_cons_self, compareFirst_cons_self, ih]
      · rw [compareFirst_cons_of_lt hgt, compareFirst_cons_of_gt hgt]
        rfl

/-- Two lists are taken for equal exactly when one is a prefix of the other. -/
theorem compareFirst_eq_iff {first second : List α} :
    compareFirst first second = .eq ↔ first <+: second ∨ second <+: first := by
  induction first generalizing second with
  | nil => exact iff_of_true rfl (.inl List.nil_prefix)
  | cons a as ih =>
    cases second with
    | nil => exact iff_of_true rfl (.inr List.nil_prefix)
    | cons b bs =>
      rw [List.cons_prefix_cons, List.cons_prefix_cons]
      rcases lt_trichotomy a b with hlt | rfl | hgt
      · rw [compareFirst_cons_of_lt hlt]
        exact iff_of_false nofun fun h ↦ h.elim (fun h ↦ hlt.ne h.1) fun h ↦ hlt.ne' h.1
      · rw [compareFirst_cons_self, ih, eq_self_iff_true, true_and, true_and]
      · rw [compareFirst_cons_of_gt hgt]
        exact iff_of_false nofun fun h ↦ h.elim (fun h ↦ hgt.ne' h.1) fun h ↦ hgt.ne h.1

theorem exceeds_cons_self {a : α} {as bs : List α} :
    Exceeds (a :: as) (a :: bs) ↔ Exceeds as bs := by
  constructor
  · rintro ⟨front, x, y, back, back', hfirst, hsecond, hlt⟩
    cases front with
    | nil =>
      obtain ⟨rfl, -⟩ := List.cons.inj hfirst
      obtain ⟨rfl, -⟩ := List.cons.inj hsecond
      exact absurd hlt (lt_irrefl _)
    | cons c front =>
      exact ⟨front, x, y, back, back', (List.cons.inj hfirst).2, (List.cons.inj hsecond).2, hlt⟩
  · rintro ⟨front, x, y, back, back', rfl, rfl, hlt⟩
    exact ⟨a :: front, x, y, back, back', rfl, rfl, hlt⟩

theorem compareFirst_gt_iff {first second : List α} :
    compareFirst first second = .gt ↔ Exceeds first second := by
  induction first generalizing second with
  | nil =>
    refine iff_of_false nofun ?_
    rintro ⟨front, a, b, back, back', hnil, -⟩
    cases front <;> cases hnil
  | cons a as ih =>
    cases second with
    | nil =>
      refine iff_of_false nofun ?_
      rintro ⟨front, a, b, back, back', -, hnil, -⟩
      cases front <;> cases hnil
    | cons b bs =>
      rcases lt_trichotomy a b with hlt | rfl | hgt
      · rw [compareFirst_cons_of_lt hlt]
        refine iff_of_false nofun ?_
        rintro ⟨front, x, y, back, back', hfirst, hsecond, hgt⟩
        cases front with
        | nil =>
          obtain ⟨rfl, -⟩ := List.cons.inj hfirst
          obtain ⟨rfl, -⟩ := List.cons.inj hsecond
          exact lt_asymm hlt hgt
        | cons c front =>
          obtain ⟨rfl, -⟩ := List.cons.inj hfirst
          obtain ⟨rfl, -⟩ := List.cons.inj hsecond
          exact lt_irrefl _ hlt
      · rw [compareFirst_cons_self, exceeds_cons_self, ih]
      · rw [compareFirst_cons_of_gt hgt]
        exact iff_of_true rfl ⟨[], a, b, as, bs, rfl, rfl, hgt⟩

/-- The comparison is transitive, but for a list in the middle that is a prefix of the two
others. -/
theorem compareFirst_trans {first second third : List α} (h : compareFirst first second ≠ .gt)
    (h' : compareFirst second third ≠ .gt) (hgt : compareFirst first third = .gt) :
    second <+: first ∧ second <+: third := by
  induction second generalizing first third with
  | nil => exact ⟨List.nil_prefix, List.nil_prefix⟩
  | cons b bs ih =>
    cases first with
    | nil => cases hgt
    | cons a as =>
      cases third with
      | nil => cases hgt
      | cons c cs =>
        have hab : a ≤ b := le_of_not_gt fun hlt ↦ h (compareFirst_cons_of_gt hlt as bs)
        have hbc : b ≤ c := le_of_not_gt fun hlt ↦ h' (compareFirst_cons_of_gt hlt bs cs)
        have hca : c ≤ a := le_of_not_gt fun hlt ↦ by
          rw [compareFirst_cons_of_lt hlt] at hgt
          cases hgt
        obtain rfl : a = b := le_antisymm hab (hbc.trans hca)
        obtain rfl : c = a := le_antisymm hca hbc
        rw [compareFirst_cons_self] at h h' hgt
        rw [List.cons_prefix_cons, List.cons_prefix_cons]
        exact ⟨⟨rfl, (ih h h' hgt).1⟩, rfl, (ih h h' hgt).2⟩

/-- Only as many items count as both lists have. -/
theorem compareFirst_take (first second : List α) :
    compareFirst (first.take (min first.length second.length))
      (second.take (min first.length second.length)) = compareFirst first second := by
  induction first generalizing second with
  | nil => rfl
  | cons a as ih =>
    cases second with
    | nil => rfl
    | cons b bs =>
      rw [List.length_cons, List.length_cons, Nat.succ_min_succ, List.take_succ_cons,
        List.take_succ_cons, compareFirst, compareFirst, ih]

end RdbLibs.FirstDifference
