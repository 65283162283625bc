import Mathlib.Tactic.Common

/-!
# Loops of checked steps

Programs that stop with an error, and the error among others that stands for a broken condition.
`Checks` says of a computation that it tests a condition: it has no result unless the condition
holds, and does not stop with that error if it does. A loop of steps that test one condition each
tests them all (`Checks.foldlM`, `Checks.forM`). A loop whose steps each append to what it has
emitted has emitted what they do, one behind the other (`exists_foldlM_emits`).
-/

set_option autoImplicit false
set_option relaxedAutoImplicit false

namespace RdbLibs.CheckedLoop

universe u

variable {ε α : Type*} {β γ : Type u} {bad : ε}

/-- A computation tests a condition, and leaves a result with a property. -/
structure Checks (bad : ε) (P : Prop) (Inv : β → Prop) (computation : Except ε β) : Prop where
  of_ok : ∀ result, computation = .ok result → P ∧ Inv result
  not_bad : P → computation ≠ .error bad

namespace Checks

variable {P Q : Prop} {Inv : β → Prop} {Post : γ → Prop}

theorem pure {result : β} (hinv : Inv result) : Checks bad True Inv (.ok result) :=
  ⟨fun _ h ↦ ⟨trivial, Except.ok.inj h ▸ hinv⟩, fun _ ↦ nofun⟩

theorem congr {computation : Except ε β} (h : Checks bad P Inv computation) (hiff : P ↔ Q) :
    Checks bad Q Inv computation :=
  ⟨fun result hresult ↦ (h.of_ok result hresult).imp_left hiff.mp, fun hq ↦ h.not_bad (hiff.mpr hq)⟩

/-- A result, where the condition is known to hold. -/
theorem ok {result : β} (hp : P) (hinv : Inv result) : Checks bad P Inv (.ok result) :=
  (pure hinv).congr (iff_of_true trivial hp)

/-- The bad error, where the condition is known to be broken. -/
theorem error (hp : ¬P) : Checks bad P Inv (.error bad : Except ε β) :=
  ⟨nofun, fun h ↦ absurd h hp⟩

/-- An error that is not the bad one tests nothing. -/
theorem of_ne {error : ε} (hne : error ≠ bad) : Checks bad P Inv (.error error : Except ε β) :=
  ⟨nofun, fun _ h ↦ hne (Except.error.inj h)⟩

/-- What a computation leaves is weakened. -/
theorem imp {computation : Except ε β} {Inv' : β → Prop} (h : Checks bad P Inv computation)
    (himp : ∀ result, Inv result → Inv' result) : Checks bad P Inv' computation :=
  ⟨fun result hresult ↦ (h.of_ok result hresult).imp_right (himp result), h.not_bad⟩

/-- Two computations, one after the other, test both their conditions. -/
theorem bind {first : Except ε β} {next : β → Except ε γ} (hfirst : Checks bad P Inv first)
    (hnext : ∀ result, Inv result → Checks bad Q Post (next result)) :
    Checks bad (P ∧ Q) Post (first >>= next) := by
  cases first with
  | error error =>
    refine ⟨nofun, fun h hbad ↦ hfirst.not_bad h.1 ?_⟩
    have hsame : (Except.error error : Except ε γ) = .error bad := hbad
    exact congrArg _ (Except.error.inj hsame)
  | ok result =>
    obtain ⟨hp, hinv⟩ := hfirst.of_ok result rfl
    obtain ⟨hok, hbad⟩ := hnext result hinv
    exact ⟨fun other h ↦ ⟨⟨hp, (hok other h).1⟩, (hok other h).2⟩, fun h ↦ hbad h.2⟩

theorem map {first : Except ε β} (hfirst : Checks bad P Inv first) {f : β → γ}
    (hf : ∀ result, Inv result → Post (f result)) : Checks bad P Post (f <$> first) := by
  have hbind : Checks bad (P ∧ True) Post (first >>= fun result ↦ .ok (f result)) :=
    hfirst.bind fun result hinv ↦ pure (hf result hinv)
  exact hbind.congr (and_iff_left trivial)

/-- Assumes: each step of a loop tests a condition of its own and keeps an invariant. So the loop
tests all of them. -/
theorem foldlM (Inv : β → Prop) {items : List α} {Item : α → Prop} {step : β → α → Except ε β}
    (hstep : ∀ item ∈ items, ∀ state, Inv state →
      Checks bad (Item item) Inv (step state item))
    {state : β} (hinv : Inv state) :
    Checks bad (∀ item ∈ items, Item item) Inv (items.foldlM step state) := by
  induction items generalizing state with
  | nil => exact (pure hinv).congr (by simp)
  | cons item items ih =>
    rw [List.forall_mem_cons] at hstep
    rw [List.foldlM_cons]
    exact ((hstep.1 state hinv).bind fun _ hnext ↦ ih hstep.2 hnext).congr (by simp)

/-- A loop without a state tests what its bodies test. -/
theorem forM {items : List α} {Item : α → Prop} {body : α → Except ε PUnit}
    (hbody : ∀ item ∈ items, Checks bad (Item item) (fun _ ↦ True) (body item)) :
    Checks bad (∀ item ∈ items, Item item) (fun _ ↦ True) (items.forM body) := by
  induction items with
  | nil => exact (pure trivial).congr (by simp)
  | cons item items ih =>
    rw [List.forall_mem_cons] at hbody
    exact (hbody.1.bind fun _ _ ↦ ih hbody.2).congr (by simp)

end Checks

/-- Assumes: each step of a loop appends to what the loop has emitted, as long as there is room. So
does the loop, if there is room for all. -/
theorem exists_foldlM_emits (Emitted : List γ → β → Prop) {items : List α} {emit : α → List γ}
    {step : β → α → Except ε β} {capacity : ℕ}
    (hstep : ∀ item ∈ items, ∀ front state, Emitted front state →
      front.length + (emit item).length ≤ capacity →
        ∃ next, step state item = .ok next ∧ Emitted (front ++ emit item) next)
    {front : List γ} {state : β} (hstate : Emitted front state)
    (hroom : front.length + (items.flatMap emit).length ≤ capacity) :
    ∃ final, items.foldlM step state = .ok final ∧ Emitted (front ++ items.flatMap emit) final := by
  induction items generalizing front state with
  | nil => exact ⟨state, rfl, by simpa using hstate⟩
  | cons item items ih =>
    rw [List.forall_mem_cons] at hstep
    rw [List.flatMap_cons, List.length_append] at hroom
    obtain ⟨next, hnext, hemitted⟩ := hstep.1 front state hstate (by omega)
    obtain ⟨final, hfinal, hall⟩ := ih hstep.2 hemitted (by rw [List.length_append]; omega)
    refine ⟨final, ?_, by rwa [List.flatMap_cons, ← List.append_assoc]⟩
    rw [List.foldlM_cons, hnext]
    exact hfinal

end RdbLibs.CheckedLoop
