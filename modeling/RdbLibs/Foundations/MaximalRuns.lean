import Mathlib.Data.List.Basic
import Mathlib.Tactic.Common

/-!
# Maximal runs

A maximal run of a property of positions is an interval that is not empty, all of whose positions
have the property, and that cannot be made longer: neither the position before it nor the one at
its end has the property. `RunsBefore` says of a list that it has all maximal runs that begin before
a position, in order. A scan of the positions starts with none (`RunsBefore.nil`), leaves the list
as it is where the property does not hold (`RunsBefore.skip`), and adds a run when it has come to
its end (`RunsBefore.push`). The positions of a list have the property of its items
(`HoldsAt`), and a part of a list is a maximal run where it is bounded on both sides
(`isMaximalRun_middle`).
-/

set_option autoImplicit false
set_option relaxedAutoImplicit false

namespace RdbLibs.MaximalRuns

/-- The positions from `run.1` to before `run.2` are a maximal run of `P`. -/
structure IsMaximalRun (P : ℕ → Prop) (run : ℕ × ℕ) : Prop where
  nonempty : run.1 < run.2
  holds : ∀ k, run.1 ≤ k → k < run.2 → P k
  starts : ∀ k, run.1 = k + 1 → ¬P k
  ends : ¬P run.2

/-- The maximal runs that begin before `n`, in order. -/
structure RunsBefore (P : ℕ → Prop) (n : ℕ) (runs : List (ℕ × ℕ)) : Prop where
  ordered : runs.Pairwise fun first second ↦ first.2 < second.1
  mem_iff : ∀ run, run ∈ runs ↔ IsMaximalRun P run ∧ run.1 < n

variable {P : ℕ → Prop} {n : ℕ} {runs : List (ℕ × ℕ)}

theorem RunsBefore.nil : RunsBefore P 0 [] where
  ordered := List.Pairwise.nil
  mem_iff _ := iff_of_false List.not_mem_nil fun h ↦ Nat.not_lt_zero _ h.2

/-- No run begins where the property does not hold. -/
theorem RunsBefore.skip (h : RunsBefore P n runs) (hstop : ¬P n) : RunsBefore P (n + 1) runs where
  ordered := h.ordered
  mem_iff run := by
    rw [h.mem_iff run]
    refine and_congr_right fun hrun ↦ ⟨fun hlt ↦ Nat.lt_succ_of_lt hlt, fun hle ↦ ?_⟩
    have hne : run.1 ≠ n := fun heq ↦ hstop (hrun.holds n (Nat.le_of_eq heq) (heq ▸ hrun.nonempty))
    omega

/-- A run that begins before another one ends before it, with a gap between them. -/
theorem IsMaximalRun.lt_of_lt {first second : ℕ × ℕ} (hfirst : IsMaximalRun P first)
    (hsecond : IsMaximalRun P second) (hlt : first.1 < second.1) : first.2 < second.1 := by
  obtain ⟨k, hk⟩ : ∃ k, second.1 = k + 1 := ⟨second.1 - 1, by omega⟩
  by_contra hle
  exact hsecond.starts k hk (hfirst.holds k (by omega) (by omega))

/-- Behind a run that begins at `n` the scan goes on from the position at its end. -/
theorem RunsBefore.push (h : RunsBefore P n runs) {last : ℕ} (hrun : IsMaximalRun P (n, last)) :
    RunsBefore P (last + 1) (runs ++ [(n, last)]) where
  ordered := by
    rw [List.pairwise_append]
    refine ⟨h.ordered, List.pairwise_singleton _ _, fun first hfirst second hsecond ↦ ?_⟩
    rw [List.mem_singleton.mp hsecond]
    obtain ⟨hmax, hlt⟩ := (h.mem_iff first).mp hfirst
    exact hmax.lt_of_lt hrun hlt
  mem_iff run := by
    have hpos : n < last := hrun.nonempty
    rw [List.mem_append, List.mem_singleton, h.mem_iff run]
    constructor
    · rintro (⟨hmax, hlt⟩ | rfl)
      · exact ⟨hmax, by omega⟩
      · exact ⟨hrun, Nat.lt_succ_of_lt hpos⟩
    · rintro ⟨hmax, hle⟩
      rcases Nat.lt_trichotomy run.1 n with hlt | heq | hgt
      · exact .inl ⟨hmax, hlt⟩
      · -- two runs from one position end at the same position
        refine .inr (Prod.ext heq (Nat.le_antisymm ?_ ?_))
        · exact Nat.not_lt.mp fun hlong ↦ hrun.ends (hmax.holds last (by omega) hlong)
        · exact Nat.not_lt.mp fun hshort ↦ hmax.ends (hrun.holds run.2 (by
            have hnonempty := hmax.nonempty
            show n ≤ run.2
            omega) hshort)
      · have hlater : last < run.1 := hrun.lt_of_lt hmax hgt
        omega

/-! ### Positions of a list -/

section Lists

variable {α : Type*} {p : α → Bool} {items : List α}

/-- The item at a position has the property. -/
def HoldsAt (p : α → Bool) (items : List α) (k : ℕ) : Prop := ∃ item ∈ items[k]?, p item = true

/-- The items of an interval of positions. -/
def slice (items : List α) (run : ℕ × ℕ) : List α := (items.drop run.1).take (run.2 - run.1)

theorem lt_length_of_holdsAt {k : ℕ} (h : HoldsAt p items k) : k < items.length := by
  obtain ⟨item, hitem, -⟩ := h
  exact (List.getElem?_eq_some_iff.mp hitem).1

theorem not_holdsAt_length : ¬HoldsAt p items items.length :=
  fun h ↦ Nat.lt_irrefl _ (lt_length_of_holdsAt h)

theorem holdsAt_middle {front back : List α} {item : α} :
    HoldsAt p (front ++ item :: back) front.length ↔ p item = true := by
  rw [HoldsAt, List.getElem?_append_right (Nat.le_refl _), Nat.sub_self, List.getElem?_cons_zero]
  exact ⟨fun ⟨_, heq, hp⟩ ↦ Option.some.inj heq ▸ hp, fun hp ↦ ⟨item, rfl, hp⟩⟩

theorem slice_middle (front middle back : List α) :
    slice (front ++ middle ++ back) (front.length, front.length + middle.length) = middle := by
  rw [slice, Nat.add_sub_cancel_left, List.append_assoc, List.drop_left, List.take_left]

/-- The items of a maximal run have the property, and there are some. -/
theorem IsMaximalRun.forall_mem_slice {run : ℕ × ℕ} (h : IsMaximalRun (HoldsAt p items) run) :
    ∀ item ∈ slice items run, p item = true := by
  intro item hitem
  obtain ⟨k, hk, rfl⟩ := List.mem_iff_getElem.mp hitem
  rw [slice, List.length_take, List.length_drop] at hk
  obtain ⟨other, hother, hp⟩ := h.holds (run.1 + k) (by omega) (by omega)
  obtain ⟨hlt, rfl⟩ := List.getElem?_eq_some_iff.mp hother
  simpa only [slice, List.getElem_take, List.getElem_drop] using hp

theorem IsMaximalRun.slice_ne_nil {run : ℕ × ℕ} (h : IsMaximalRun (HoldsAt p items) run) :
    slice items run ≠ [] := by
  have hpos := h.nonempty
  have hinside := lt_length_of_holdsAt (h.holds run.1 (Nat.le_refl _) hpos)
  intro hnil
  have hlength := congrArg List.length hnil
  rw [slice, List.length_take, List.length_drop, List.length_nil] at hlength
  omega

/-- A part of a list is a maximal run when its items have the property and it is bounded by the ends
of the list or by items without the property. -/
theorem isMaximalRun_middle {front middle : List α} (back : List α) (hmiddle : middle ≠ [])
    (hholds : ∀ item ∈ middle, p item = true)
    (hfront : ∀ k, front.length = k + 1 → ¬HoldsAt p (front ++ middle ++ back) k)
    (hback : ∀ item ∈ back.head?, p item = false) :
    IsMaximalRun (HoldsAt p (front ++ middle ++ back))
      (front.length, front.length + middle.length) where
  nonempty := Nat.lt_add_of_pos_right (List.length_pos_iff.mpr hmiddle)
  holds k hle hlt := by
    have hk : k - front.length < middle.length := by
      have hle' : front.length ≤ k := hle
      have hlt' : k < front.length + middle.length := hlt
      omega
    refine ⟨middle[k - front.length], ?_, hholds _ (List.getElem_mem hk)⟩
    rw [List.append_assoc, List.getElem?_append_right hle, List.getElem?_append_left hk,
      List.getElem?_eq_getElem hk]
    rfl
  starts := hfront
  ends := by
    rintro ⟨item, hitem, hp⟩
    rw [← List.length_append, List.getElem?_append_right (Nat.le_refl _), Nat.sub_self,
      ← List.head?_eq_getElem?] at hitem
    exact Bool.noConfusion ((hback item hitem).symm.trans hp)

end Lists

end RdbLibs.MaximalRuns
