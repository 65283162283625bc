import RdbLibs.Foundations.CheckedMemory

/-!
# Runs of calls that may fault

A component answers a call with its next state, or stops with a fault. A list of calls `Completes`
from a state when none faults, each has a property, and the state at the end is final. Where a call
may lose what no later call finds again, a list completes exactly when each call that it comes to,
and its end, meet a condition (`completes_iff`).
-/

set_option autoImplicit false
set_option relaxedAutoImplicit false

namespace RdbLibs.FallibleRuns

variable {σ ι ε : Type*}

/-- The calls have results, each with a property, and lead to a final state. -/
def Completes (step : σ → ι → Except ε σ) (Each : σ → ι → Prop) (Final : σ → Prop) :
    σ → List ι → Prop
  | state, [] => Final state
  | state, call :: rest =>
    Each state call ∧ ∃ after, step state call = .ok after ∧ Completes step Each Final after rest

/-- A condition on each call that the list comes to, and one on the state at its end. -/
def AllMeet (step : σ → ι → Except ε σ) (Meets : σ → ι → Prop) (FinalMeets : σ → Prop) :
    σ → List ι → Prop
  | state, [] => FinalMeets state
  | state, call :: rest =>
    Meets state call ∧
      ∀ after, step state call = .ok after → AllMeet step Meets FinalMeets after rest

variable {step : σ → ι → Except ε σ}

theorem allMeet_cons {Meets : σ → ι → Prop} {FinalMeets : σ → Prop} {state after : σ} {call : ι}
    (hstep : step state call = .ok after) (rest : List ι) :
    AllMeet step Meets FinalMeets state (call :: rest) ↔
      Meets state call ∧ AllMeet step Meets FinalMeets after rest := by
  rw [AllMeet, hstep]
  refine and_congr_right fun _ ↦ ⟨fun h ↦ h after rfl, fun h after' hafter' ↦ ?_⟩
  exact Except.ok.inj hafter' ▸ h

/-- What is lost stays lost, and is missing at the end. -/
theorem not_completes_of_lost {Legal : ι → Prop} {Each : σ → ι → Prop} {Final Lost : σ → Prop}
    (hstays : ∀ state call after, Legal call → Lost state → step state call = .ok after →
      Lost after)
    (hend : ∀ state, Lost state → ¬Final state) (calls : List ι) :
    ∀ state, (∀ call ∈ calls, Legal call) → Lost state →
      ¬Completes step Each Final state calls := by
  induction calls with
  | nil => exact fun state _ ↦ hend state
  | cons call rest ih =>
    rintro state hlegal hlost ⟨-, after, hstep, hrest⟩
    rw [List.forall_mem_cons] at hlegal
    exact ih after hlegal.2 (hstays state call after hlegal.1 hlost hstep) hrest

/-- Assumes: from a state of `Inv` a legal call that meets the condition has a result in `Inv`, and
the property; one that does not meet it faults, has not the property, or loses something; and a
state of `Inv` is final exactly when it meets the last condition. A list of legal calls completes
exactly when all its calls and its end meet the conditions. -/
theorem completes_iff (Inv Lost : σ → Prop) (Legal : ι → Prop) {Each Meets : σ → ι → Prop}
    {Final FinalMeets : σ → Prop}
    (hmeets : ∀ state call, Inv state → Legal call → Meets state call →
      Each state call ∧ ∃ after, step state call = .ok after ∧ Inv after)
    (hbreaks : ∀ state call after, Inv state → Legal call → ¬Meets state call → Each state call →
      step state call = .ok after → Lost after)
    (hfinal : ∀ state, Inv state → (Final state ↔ FinalMeets state))
    (hstays : ∀ state call after, Legal call → Lost state → step state call = .ok after →
      Lost after)
    (hend : ∀ state, Lost state → ¬Final state) (calls : List ι) :
    ∀ state, Inv state → (∀ call ∈ calls, Legal call) →
      (Completes step Each Final state calls ↔ AllMeet step Meets FinalMeets state calls) := by
  induction calls with
  | nil => exact fun state hinv _ ↦ hfinal state hinv
  | cons call rest ih =>
    intro state hinv hlegal
    rw [List.forall_mem_cons] at hlegal
    by_cases hmeet : Meets state call
    · obtain ⟨heach, after, hstep, hafter⟩ := hmeets state call hinv hlegal.1 hmeet
      rw [allMeet_cons hstep, and_iff_right hmeet, ← ih after hafter hlegal.2]
      constructor
      · rintro ⟨-, after', hstep', hrest⟩
        obtain rfl := Except.ok.inj (hstep.symm.trans hstep')
        exact hrest
      · exact fun hrest ↦ ⟨heach, after, hstep, hrest⟩
    · refine iff_of_false ?_ fun h ↦ hmeet h.1
      rintro ⟨heach, after, hstep, hrest⟩
      have hlost := hbreaks state call after hinv hlegal.1 hmeet heach hstep
      exact not_completes_of_lost hstays hend rest after hlegal.2 hlost hrest

end RdbLibs.FallibleRuns
