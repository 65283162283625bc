import Mathlib.Order.Lattice
import Mathlib.Tactic.Common

/-!
# Loops that leave from the middle of their body

A `while` loop of the sources may leave its body by its condition, by a `break` or by a `return`,
and its counters are machine words that can wrap, so that it need not end at all. `Pass` is what
one pass through the body does, `loop` runs the passes under a bound on their number, and `Returns`
says that some bound is enough. The rules are the ones a proof about such a loop needs: more fuel
does not change a result (`loop_mono`), nor one of a computation that is made of loops (`Steady`),
hence the result is unique (`Returns.unique`); a loop is entered one pass at a time
(`Returns.again`, `Returns.leave`); what every pass preserves holds of every result
(`loop_invariant`); passes that make a measure smaller come to an end (`exists_loop_eq_some`); and a
loop whose passes are those of another loop, translated, has the translated results (`loop_map`).
-/

set_option autoImplicit false
set_option relaxedAutoImplicit false

namespace RdbLibs.WhileLoop

variable {σ ρ : Type*}

/-- What one pass does: go round again from a new loop state, or leave the loop with a result. -/
inductive Pass (σ ρ : Type*)
  | again (next : σ)
  | leave (result : ρ)

/-- Runs a loop for at most `fuel` passes; `none` when it has not left by then. -/
def loop (body : σ → Pass σ ρ) : ℕ → σ → Option ρ
  | 0, _ => none
  | fuel + 1, state =>
    match body state with
    | .again next => loop body fuel next
    | .leave result => some result

/-- The loop leaves with the given result after finitely many passes. -/
def Returns (body : σ → Pass σ ρ) (state : σ) (result : ρ) : Prop :=
  ∃ fuel, loop body fuel state = some result

theorem loop_succ_again {body : σ → Pass σ ρ} {state next : σ} (fuel : ℕ)
    (h : body state = .again next) : loop body (fuel + 1) state = loop body fuel next := by
  simp [loop, h]

theorem loop_succ_leave {body : σ → Pass σ ρ} {state : σ} {result : ρ} (fuel : ℕ)
    (h : body state = .leave result) : loop body (fuel + 1) state = some result := by
  simp [loop, h]

/-- A result that was reached is reached with more fuel as well. -/
theorem loop_mono {body : σ → Pass σ ρ} {result : ρ} {fuel more : ℕ} (hle : fuel ≤ more) :
    ∀ {state : σ}, loop body fuel state = some result → loop body more state = some result := by
  induction fuel generalizing more with
  | zero => intro state h; simp [loop] at h
  | succ fuel ih =>
    intro state h
    obtain ⟨extra, rfl⟩ : ∃ extra, more = extra + 1 := ⟨more - 1, by omega⟩
    cases hpass : body state with
    | again next =>
      rw [loop_succ_again fuel hpass] at h
      rw [loop_succ_again extra hpass]
      exact ih (by omega) h
    | leave out =>
      rw [loop_succ_leave fuel hpass] at h
      rw [loop_succ_leave extra hpass]
      exact h

/-- A computation whose results do not change with more fuel. -/
def Steady (computation : ℕ → Option ρ) : Prop :=
  ∀ ⦃fuel more : ℕ⦄ ⦃result : ρ⦄, fuel ≤ more → computation fuel = some result →
    computation more = some result

theorem Steady.const (result : Option ρ) : Steady fun _ ↦ result := fun _ _ _ _ ↦ id

theorem Steady.loop (body : σ → Pass σ ρ) (state : σ) :
    Steady fun fuel ↦ WhileLoop.loop body fuel state := fun _ _ _ hle ↦ loop_mono hle

theorem Steady.ite {condition : Prop} [Decidable condition] {first second : ℕ → Option ρ}
    (hfirst : Steady first) (hsecond : Steady second) :
    Steady fun fuel ↦ if condition then first fuel else second fuel := by
  split_ifs
  · exact hfirst
  · exact hsecond

theorem Steady.map {computation : ℕ → Option ρ} (h : Steady computation) {ρ' : Type*}
    (translate : ρ → ρ') : Steady fun fuel ↦ (computation fuel).map translate := by
  intro fuel more result hle hresult
  obtain ⟨inner, hinner, hout⟩ := Option.map_eq_some_iff.mp hresult
  exact Option.map_eq_some_iff.mpr ⟨inner, h hle hinner, hout⟩

theorem Returns.unique {body : σ → Pass σ ρ} {state : σ} {first second : ρ}
    (hfirst : Returns body state first) (hsecond : Returns body state second) :
    first = second := by
  obtain ⟨m, hm⟩ := hfirst
  obtain ⟨n, hn⟩ := hsecond
  have hm' := loop_mono (le_max_left m n) hm
  have hn' := loop_mono (le_max_right m n) hn
  exact Option.some.inj (hm'.symm.trans hn')

theorem Returns.leave {body : σ → Pass σ ρ} {state : σ} {result : ρ}
    (h : body state = .leave result) : Returns body state result :=
  ⟨1, loop_succ_leave 0 h⟩

theorem Returns.again {body : σ → Pass σ ρ} {state next : σ} {result : ρ}
    (h : body state = .again next) (hrest : Returns body next result) :
    Returns body state result := by
  obtain ⟨fuel, hfuel⟩ := hrest
  exact ⟨fuel + 1, by rw [loop_succ_again fuel h]; exact hfuel⟩

/-- The loop rule for partial correctness: an invariant of the passes holds when the loop leaves,
so that a property of every way to leave under the invariant is a property of the result. -/
theorem loop_invariant {body : σ → Pass σ ρ} (Inv : σ → Prop) (Post : ρ → Prop)
    (hagain : ∀ state next, Inv state → body state = .again next → Inv next)
    (hleave : ∀ state result, Inv state → body state = .leave result → Post result)
    {fuel : ℕ} : ∀ {state : σ} {result : ρ}, Inv state →
      loop body fuel state = some result → Post result := by
  induction fuel with
  | zero => intro state result _ h; simp [loop] at h
  | succ fuel ih =>
    intro state result hinv h
    cases hpass : body state with
    | again next =>
      rw [loop_succ_again fuel hpass] at h
      exact ih (hagain state next hinv hpass) h
    | leave out =>
      rw [loop_succ_leave fuel hpass] at h
      obtain rfl := Option.some.inj h
      exact hleave state out hinv hpass

/-- The loop rule for termination: a loop whose passes make a measure smaller, as long as they go
round again, leaves with any fuel above the measure. -/
theorem exists_loop_eq_some {body : σ → Pass σ ρ} (Inv : σ → Prop) (measure : σ → ℕ)
    (hagain : ∀ state next, Inv state → body state = .again next →
      Inv next ∧ measure next < measure state) {fuel : ℕ} :
    ∀ {state : σ}, Inv state → measure state < fuel →
      ∃ result, loop body fuel state = some result := by
  induction fuel with
  | zero => exact fun _ hlt ↦ absurd hlt (Nat.not_lt_zero _)
  | succ fuel ih =>
    intro state hinv hlt
    cases hpass : body state with
    | again next =>
      obtain ⟨hnext, hless⟩ := hagain state next hinv hpass
      rw [loop_succ_again fuel hpass]
      exact ih hnext (by omega)
    | leave result => exact ⟨result, loop_succ_leave fuel hpass⟩

/-- A pass that may stop with an error is one that may leave the loop with it. -/
def Pass.checked {ε : Type*} : Except ε (Pass σ ρ) → Pass σ (Except ε ρ)
  | .ok (.again next) => .again next
  | .ok (.leave result) => .leave (.ok result)
  | .error error => .leave (.error error)

theorem Pass.checked_eq_again_iff {ε : Type*} {pass : Except ε (Pass σ ρ)} {next : σ} :
    Pass.checked pass = .again next ↔ pass = .ok (.again next) := by
  rcases pass with error | (next' | result)
  · exact iff_of_false nofun nofun
  · rw [Pass.checked, Pass.again.injEq, Except.ok.injEq, Pass.again.injEq]
  · exact iff_of_false nofun nofun

/-- A pass of one loop as a pass of another, under a translation of its states and results. -/
def Pass.map {σ' ρ' : Type*} (onState : σ → σ') (onResult : ρ → ρ') : Pass σ ρ → Pass σ' ρ'
  | .again next => .again (onState next)
  | .leave result => .leave (onResult result)

theorem Pass.checked_map {ε σ' ρ' : Type*} (onState : σ → σ') (onResult : ρ → ρ')
    (pass : Except ε (Pass σ ρ)) :
    Pass.checked (pass.map (Pass.map onState onResult)) =
      (Pass.checked pass).map onState (Except.map onResult) := by
  rcases pass with error | (next | result) <;> rfl

/-- The simulation rule. Assumes: under an invariant of the first loop, the second loop's passes are
the translations of the first loop's passes. Then so are its results, with the same fuel. -/
theorem loop_map {σ' ρ' : Type*} {body : σ → Pass σ ρ} {body' : σ' → Pass σ' ρ'} (Inv : σ → Prop)
    (onState : σ → σ') (onResult : ρ → ρ')
    (hpass : ∀ state, Inv state → body' (onState state) = (body state).map onState onResult)
    (hagain : ∀ state next, Inv state → body state = .again next → Inv next) (fuel : ℕ) :
    ∀ state : σ, Inv state →
      loop body' fuel (onState state) = (loop body fuel state).map onResult := by
  induction fuel with
  | zero => intro state _; rfl
  | succ fuel ih =>
    intro state hinv
    have hsame := hpass state hinv
    cases hbody : body state with
    | again next =>
      rw [hbody] at hsame
      rw [loop_succ_again fuel hbody, loop_succ_again fuel hsame]
      exact ih next (hagain state next hinv hbody)
    | leave result =>
      rw [hbody] at hsame
      rw [loop_succ_leave fuel hbody, loop_succ_leave fuel hsame]
      rfl

end RdbLibs.WhileLoop
