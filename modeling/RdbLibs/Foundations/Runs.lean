import Mathlib.Data.List.Induction
import Mathlib.Tactic.Common

/-!
# Runs of a component that answers calls

A component is a relation `step before label reply after`: a call with its arguments, the answer it
gives and the state it leaves. `Run` is any finite sequence of calls, with a trace that records for
every call the state it met, its arguments and its answer. The rules are for invariants. What every
step keeps holds after every run (`Run.invariant`), also together with what a monitor notes of the
calls (`Run.invariant_noted`), and gives every call of a run its properties (`Run.forall_calls`).
What the calls that meet a condition keep holds in all states of a run of such calls
(`Run.forall_states`). Where steps keep a property under a condition only, runs keep it exactly when
all their calls meet the condition (`Run.good_iff`, `Run.good_and_iff`), and so with what a history
keeps, which no later call repairs (`Run.safe_iff`). Where a state is given by the calls that led to
it, the same is said of all beginnings of a list of calls (`forall_isPrefix_iff`,
`forall_isPrefix_iff_of_inv`), and where a call may fail, of all calls before the first that does
(`throughout_iff`). A run obeys the rule of a monitor exactly when all its calls meet a condition,
if the others break the rule (`Run.obeys_iff_meets`) or leave a state that breaks it
(`Run.obeys_iff`). A potential accounts for the calls of a run that gain by those that cost
(`Run.account`). Where calls depend on a view of the state that others may change, the view and the
answers stay exactly when no call changes it (`Run.undisturbed_iff`). Where a step is determined by
its state and its call, a run is by its start and its calls (`Run.unique`). When every allowed call
is answered from every state of the invariant, every list of allowed calls has a run
(`Run.exists_of_total`). When every call moves entries through the component without loss, so does
every run (`Run.conserves`).
-/

set_option autoImplicit false
set_option relaxedAutoImplicit false

namespace RdbLibs.Runs

variable {σ ι ω : Type*}

/-- One answered call: the state it met, its arguments, its answer. -/
structure Call (σ ι ω : Type*) where
  before : σ
  label : ι
  reply : ω

/-- A finite run, with its calls from first to last. -/
inductive Run (step : σ → ι → ω → σ → Prop) : σ → List (Call σ ι ω) → σ → Prop
  | nil (start : σ) : Run step start [] start
  | cons {start middle final : σ} {label : ι} {reply : ω} {rest : List (Call σ ι ω)} :
      step start label reply middle → Run step middle rest final →
        Run step start (⟨start, label, reply⟩ :: rest) final

variable {step : σ → ι → ω → σ → Prop}

/-- One run after another. -/
theorem Run.append {start middle final : σ} {first second : List (Call σ ι ω)}
    (hfirst : Run step start first middle) (hsecond : Run step middle second final) :
    Run step start (first ++ second) final := by
  induction hfirst with
  | nil start => exact hsecond
  | cons hcall _ ih => exact .cons hcall (ih hsecond)

/-- Assumes: every step with an allowed label keeps `Inv`. So does every run of allowed calls. -/
theorem Run.invariant (Inv : σ → Prop) (Allowed : ι → Prop)
    (hstep : ∀ before label reply after, Allowed label → Inv before →
      step before label reply after → Inv after)
    {start final : σ} {trace : List (Call σ ι ω)} (hrun : Run step start trace final) :
    (∀ call ∈ trace, Allowed call.label) → Inv start → Inv final := by
  induction hrun with
  | nil start => intro _ hinv; exact hinv
  | cons hfirst _ ih =>
    intro hallowed hinv
    refine ih (fun call hcall ↦ hallowed call (List.mem_cons_of_mem _ hcall)) ?_
    exact hstep _ _ _ _ (hallowed _ List.mem_cons_self) hinv hfirst

/-- Assumes: every step keeps `Inv`, and from a state of `Inv` it has the property `P`. So has every
call of a run. -/
theorem Run.forall_calls {P : Call σ ι ω → Prop} (Inv : σ → Prop)
    (hkeep : ∀ before label reply after, Inv before → step before label reply after → Inv after)
    (hcall : ∀ before label reply after, Inv before → step before label reply after →
      P ⟨before, label, reply⟩)
    {start final : σ} {trace : List (Call σ ι ω)} (hrun : Run step start trace final) :
    Inv start → ∀ call ∈ trace, P call := by
  induction hrun with
  | nil start => intro _ call hcall; cases hcall
  | cons hfirst _ ih =>
    intro hinv
    exact List.forall_mem_cons.mpr
      ⟨hcall _ _ _ _ hinv hfirst, ih (hkeep _ _ _ _ hinv hfirst)⟩

/-- Assumes: every call that meets a condition keeps `Inv`. A run of such calls goes through states
of `Inv` only. -/
theorem Run.forall_states (Inv : σ → Prop) {Meets : Call σ ι ω → Prop}
    (hkeep : ∀ before label reply after, Inv before → Meets ⟨before, label, reply⟩ →
      step before label reply after → Inv after)
    {start final : σ} {trace : List (Call σ ι ω)} (hrun : Run step start trace final) :
    (∀ call ∈ trace, Meets call) → Inv start →
      (∀ call ∈ trace, Inv call.before) ∧ Inv final := by
  induction hrun with
  | nil start => exact fun _ hinv ↦ ⟨nofun, hinv⟩
  | cons hfirst _ ih =>
    intro hmeets hinv
    rw [List.forall_mem_cons] at hmeets
    obtain ⟨hbefore, hfinal⟩ := ih hmeets.2 (hkeep _ _ _ _ hinv hmeets.1 hfirst)
    exact ⟨List.forall_mem_cons.mpr ⟨hinv, hbefore⟩, hfinal⟩

/-- The amortised account of a run. Assumes: every step keeps `Inv`, and from a state of `Inv` a
step that gains has cost something, or takes it from the potential of the state. So a run has as
many calls that gain, with the potential that it leaves, as it has calls that cost, with the
potential that it found, at most. -/
theorem Run.account (Inv : σ → Prop) (potential : σ → ℕ) (gains costs : Call σ ι ω → Bool)
    (hkeep : ∀ before label reply after, Inv before → step before label reply after → Inv after)
    (hstep : ∀ before label reply after, Inv before → step before label reply after →
      (gains ⟨before, label, reply⟩).toNat + potential after ≤
        (costs ⟨before, label, reply⟩).toNat + potential before)
    {start final : σ} {trace : List (Call σ ι ω)} (hrun : Run step start trace final) :
    Inv start → trace.countP gains + potential final ≤ trace.countP costs + potential start := by
  have htoNat (b : Bool) : (if b = true then 1 else 0) = b.toNat := by cases b <;> rfl
  induction hrun with
  | nil start => intro _; simp
  | cons hfirst _ ih =>
    intro hinv
    have hcall := hstep _ _ _ _ hinv hfirst
    have hrest := ih (hkeep _ _ _ _ hinv hfirst)
    rw [List.countP_cons, List.countP_cons, htoNat, htoNat]
    omega

/-- Assumes: every step keeps `Inv`, and from a state of `Inv` that is good, it has the property
`Each` and leaves a good state exactly when it meets a condition. A run from a good state goes
through good states only, by calls that have the property, exactly when every call of it meets the
condition. -/
theorem Run.good_and_iff (Inv Good : σ → Prop) (Each : Call σ ι ω → Prop)
    {Meets : Call σ ι ω → Prop}
    (hkeep : ∀ before label reply after, Inv before → step before label reply after → Inv after)
    (hgood : ∀ before label reply after, Inv before → Good before → step before label reply after →
      (Each ⟨before, label, reply⟩ ∧ Good after ↔ Meets ⟨before, label, reply⟩))
    {start final : σ} {trace : List (Call σ ι ω)} (hrun : Run step start trace final) :
    Inv start → Good start → ((∀ call ∈ trace, Good call.before ∧ Each call) ∧ Good final ↔
      ∀ call ∈ trace, Meets call) := by
  induction hrun with
  | nil start => intro _ hstart; simp [hstart]
  | @cons start middle final label reply rest hfirst hrest ih =>
    intro hinv hstart
    have hmiddle := hgood start label reply middle hinv hstart hfirst
    have hkept := hkeep start label reply middle hinv hfirst
    rw [List.forall_mem_cons, List.forall_mem_cons, ← hmiddle]
    constructor
    · rintro ⟨⟨⟨-, heach⟩, hbefore⟩, hfinal⟩
      have hnext : Good middle := by
        cases hrest with
        | nil => exact hfinal
        | cons => exact (hbefore _ List.mem_cons_self).1
      exact ⟨⟨heach, hnext⟩, (ih hkept hnext).mp ⟨hbefore, hfinal⟩⟩
    · rintro ⟨⟨heach, hnext⟩, hmeets⟩
      obtain ⟨hbefore, hfinal⟩ := (ih hkept hnext).mpr hmeets
      exact ⟨⟨⟨hstart, heach⟩, hbefore⟩, hfinal⟩

/-- Assumes: every step keeps `Inv`, and from a state of `Inv` that is good, it leaves a good state
exactly when it meets a condition. A run from a good state goes through good states only, exactly
when every call of it meets the condition. -/
theorem Run.good_iff (Inv Good : σ → Prop) {Meets : Call σ ι ω → Prop}
    (hkeep : ∀ before label reply after, Inv before → step before label reply after → Inv after)
    (hgood : ∀ before label reply after, Inv before → Good before →
      step before label reply after → (Good after ↔ Meets ⟨before, label, reply⟩))
    {start final : σ} {trace : List (Call σ ι ω)} (hrun : Run step start trace final)
    (hinv : Inv start) (hstart : Good start) :
    (∀ call ∈ trace, Good call.before) ∧ Good final ↔ ∀ call ∈ trace, Meets call := by
  have hruns := hrun.good_and_iff Inv Good (fun _ ↦ True) hkeep
    (fun before label reply after hbefore hgood' hstep ↦
      (and_iff_right trivial).trans (hgood before label reply after hbefore hgood' hstep))
    hinv hstart
  simpa only [and_true] using hruns

/-- Assumes: from a state of `Inv`, which is safe, a step that meets a condition leads to `Inv`
again and has the property `Each`; a step that does not meet it leaves an unsafe state, or has not
that property; and what is unsafe stays so. A run ends in a safe state, and all its calls have the
property, exactly when they all meet the condition. -/
theorem Run.safe_iff (Inv Safe : σ → Prop) {Each Meets : Call σ ι ω → Prop}
    (hsafe : ∀ state, Inv state → Safe state)
    (hmeets : ∀ before label reply after, Inv before → step before label reply after →
      Meets ⟨before, label, reply⟩ → Inv after ∧ Each ⟨before, label, reply⟩)
    (hbreaks : ∀ before label reply after, Inv before → step before label reply after →
      ¬Meets ⟨before, label, reply⟩ → Safe after → ¬Each ⟨before, label, reply⟩)
    (hstays : ∀ before label reply after, step before label reply after → Safe after → Safe before)
    {start final : σ} {trace : List (Call σ ι ω)} (hrun : Run step start trace final) :
    Inv start → ((Safe final ∧ ∀ call ∈ trace, Each call) ↔ ∀ call ∈ trace, Meets call) := by
  have hback : ∀ {start final : σ} {trace : List (Call σ ι ω)}, Run step start trace final →
      Safe final → Safe start := by
    intro start final trace hrun
    induction hrun with
    | nil start => exact id
    | cons hfirst _ ih => exact hstays _ _ _ _ hfirst ∘ ih
  induction hrun with
  | nil start =>
    intro hinv
    exact iff_of_true ⟨hsafe start hinv, nofun⟩ nofun
  | @cons start middle final label reply rest hfirst hrest ih =>
    intro hinv
    rw [List.forall_mem_cons, List.forall_mem_cons]
    by_cases hmeet : Meets ⟨start, label, reply⟩
    · obtain ⟨hmiddle, heach⟩ := hmeets _ _ _ _ hinv hfirst hmeet
      rw [and_iff_right heach, and_iff_right hmeet]
      exact ih hmiddle
    · refine iff_of_false ?_ fun h ↦ hmeet h.1
      rintro ⟨hfinal, heach, -⟩
      exact hbreaks _ _ _ _ hinv hfirst hmeet (hback hrest hfinal) heach

/-- Assumes: one more call leads on within `Inv`, which is good, where the call meets a condition,
and otherwise to what is not good. All beginnings of a list are good exactly when all its calls
meet the condition. -/
theorem forall_isPrefix_iff_of_inv (Inv : List ι → Prop) {Good : List ι → Prop}
    {Meets : List ι → ι → Prop} (hnil : Inv []) (hgood : ∀ before, Inv before → Good before)
    (hmeets : ∀ before call, Inv before → Meets before call → Inv (before ++ [call]))
    (hbreaks : ∀ before call, Inv before → Good (before ++ [call]) → Meets before call)
    (calls : List ι) :
    (∀ before, before <+: calls → Good before) ↔
      ∀ before call, before ++ [call] <+: calls → Meets before call := by
  constructor
  · intro hall
    have hinv : ∀ before, before <+: calls → Inv before := by
      intro before
      induction before using List.reverseRecOn with
      | nil => exact fun _ ↦ hnil
      | append_singleton before call ih =>
        intro hprefix
        have hbefore := ih ((List.prefix_append before [call]).trans hprefix)
        exact hmeets before call hbefore (hbreaks before call hbefore (hall _ hprefix))
    intro before call hprefix
    have hbefore := hinv before ((List.prefix_append before [call]).trans hprefix)
    exact hbreaks before call hbefore (hall _ hprefix)
  · intro hall before hprefix
    refine hgood before ?_
    induction before using List.reverseRecOn with
    | nil => exact hnil
    | append_singleton before call ih =>
      have hbefore := ih ((List.prefix_append before [call]).trans hprefix)
      exact hmeets before call hbefore (hall before call hprefix)

/-- Assumes: a list of calls that is good is still good after one more exactly when the call meets a
condition. All beginnings of a list are good exactly when all its calls meet the condition. -/
theorem forall_isPrefix_iff {Good : List ι → Prop} {Meets : List ι → ι → Prop} (hnil : Good [])
    (hconcat : ∀ before call, Good before → (Good (before ++ [call]) ↔ Meets before call))
    (calls : List ι) :
    (∀ before, before <+: calls → Good before) ↔
      ∀ before call, before ++ [call] <+: calls → Meets before call :=
  forall_isPrefix_iff_of_inv Good hnil (fun _ hbefore ↦ hbefore)
    (fun before call hbefore ↦ (hconcat before call hbefore).mpr)
    (fun before call hbefore ↦ (hconcat before call hbefore).mp) calls

/-- A condition on states and calls, all through the calls of a list, where a call that fails has no
next state and ends the run. -/
def Throughout (step : σ → ι → Option σ) (P : σ → ι → Prop) : σ → List ι → Prop
  | _, [] => True
  | state, call :: rest =>
    P state call ∧ ∀ after, step state call = some after → Throughout step P after rest

theorem throughout_cons {step : σ → ι → Option σ} {P : σ → ι → Prop} {state after : σ} {call : ι}
    (hstep : step state call = some after) (rest : List ι) :
    Throughout step P state (call :: rest) ↔ P state call ∧ Throughout step P after rest := by
  rw [Throughout, hstep]
  refine and_congr_right fun _ ↦ ⟨fun hrest ↦ hrest after rfl, fun hrest after' hafter' ↦ ?_⟩
  exact Option.some.inj hafter' ▸ hrest

/-- Assumes: from a state of `Inv` a legal call is good exactly when it meets a condition, and then
keeps `Inv`. The calls of a list, which are legal, are all good exactly when they all meet the
condition. -/
theorem throughout_iff {step : σ → ι → Option σ} (Inv : σ → Prop) {Legal Good Meets : σ → ι → Prop}
    (hgood : ∀ state call, Inv state → Legal state call → (Good state call ↔ Meets state call))
    (hkeep : ∀ state call after, Inv state → Good state call → step state call = some after →
      Inv after) (calls : List ι) :
    ∀ state, Inv state → Throughout step Legal state calls →
      (Throughout step Good state calls ↔ Throughout step Meets state calls) := by
  induction calls with
  | nil => exact fun _ _ _ ↦ Iff.rfl
  | cons call rest ih =>
    rintro state hinv ⟨hlegal, hlater⟩
    rw [Throughout, Throughout, ← hgood state call hinv hlegal]
    refine and_congr_right fun hcall ↦ forall_congr' fun after ↦ forall_congr' fun hstep ↦ ?_
    exact ih after (hkeep state call after hinv hcall hstep) (hlater after hstep)

/-- Where the answer and the next state are determined by the state and the label, so is a run by
its start and its labels. -/
theorem Run.unique
    (hstep : ∀ before label reply after reply' after', step before label reply after →
      step before label reply' after' → reply = reply' ∧ after = after')
    {start final : σ} {trace : List (Call σ ι ω)} (hrun : Run step start trace final) :
    ∀ {trace' : List (Call σ ι ω)} {final' : σ}, Run step start trace' final' →
      trace'.map Call.label = trace.map Call.label → trace' = trace ∧ final' = final := by
  induction hrun with
  | nil start =>
    intro trace' final' hrun' hlabels
    cases hrun' with
    | nil => exact ⟨rfl, rfl⟩
    | cons hfirst hrest => cases hlabels
  | cons hfirst _ ih =>
    intro trace' final' hrun' hlabels
    cases hrun' with
    | nil => cases hlabels
    | cons hfirst' hrest' =>
      rw [List.map_cons, List.map_cons, List.cons.injEq] at hlabels
      obtain rfl := hlabels.1
      obtain ⟨rfl, rfl⟩ := hstep _ _ _ _ _ _ hfirst hfirst'
      obtain ⟨rfl, rfl⟩ := ih hrest' hlabels.2
      exact ⟨rfl, rfl⟩

/-- Assumes: what a call answers, and whether it meets a condition, depends on a view of the state
only; a call that meets the condition leaves the view, and one that does not changes it for good. A
run ends with the view that it began with, and all its calls were answered as at its start, exactly
when all its calls meet the condition there. -/
theorem Run.undisturbed_iff {β : Type*} (view : σ → β) {Meets : σ → ι → Prop}
    (hcongr : ∀ state state' label, view state = view state' →
      (Meets state label ↔ Meets state' label))
    (hreply : ∀ state state' label reply after, view state = view state' →
      step state label reply after → ∃ after', step state' label reply after')
    (hkeep : ∀ before label reply after, Meets before label → step before label reply after →
      view after = view before)
    (hlose : ∀ before label reply after final trace, ¬Meets before label →
      step before label reply after → Run step after trace final → view final ≠ view before)
    {start final : σ} {trace : List (Call σ ι ω)} (hrun : Run step start trace final) :
    (view final = view start ∧
        ∀ call ∈ trace, ∃ after, step start call.label call.reply after) ↔
      ∀ call ∈ trace, Meets start call.label := by
  induction hrun with
  | nil start => exact iff_of_true ⟨rfl, nofun⟩ nofun
  | @cons start middle final label reply rest hfirst hrest ih =>
    rw [List.forall_mem_cons, List.forall_mem_cons]
    by_cases hmeets : Meets start label
    · have hsame := hkeep start label reply middle hmeets hfirst
      have hcalls : (∀ call ∈ rest, Meets start call.label) ↔
          ∀ call ∈ rest, Meets middle call.label :=
        forall₂_congr fun call _ ↦ hcongr start middle call.label hsame.symm
      have hreplies : (∀ call ∈ rest, ∃ after, step start call.label call.reply after) ↔
          ∀ call ∈ rest, ∃ after, step middle call.label call.reply after :=
        forall₂_congr fun call _ ↦
          ⟨fun ⟨after, h⟩ ↦ hreply start middle _ _ after hsame.symm h,
            fun ⟨after, h⟩ ↦ hreply middle start _ _ after hsame h⟩
      rw [hcalls, hreplies, ← ih, hsame]
      constructor
      · rintro ⟨hfinal, -, hcalls⟩
        exact ⟨hmeets, hfinal, hcalls⟩
      · rintro ⟨-, hfinal, hcalls⟩
        exact ⟨hfinal, ⟨middle, hfirst⟩, hcalls⟩
    · refine iff_of_false ?_ fun h ↦ hmeets h.1
      rintro ⟨hfinal, -⟩
      exact hlose start label reply middle final rest hmeets hfirst hrest hfinal

/-- A run with a property of its trace, given one step at a time. -/
theorem Run.exists_cons {P : List (Call σ ι ω) → σ → Prop} {start middle : σ} {reply : ω}
    (label : ι) (hfirst : step start label reply middle)
    (hrest : ∃ trace final, Run step middle trace final ∧
      P (⟨start, label, reply⟩ :: trace) final) :
    ∃ trace final, Run step start trace final ∧ P trace final := by
  obtain ⟨trace, final, hrun, hproperty⟩ := hrest
  exact ⟨_, final, .cons hfirst hrun, hproperty⟩

section Monitors

variable {η : Type*} (note : η → Call σ ι ω → η) (Rule : η → Call σ ι ω → Prop)

/-- Every call of a trace obeys a rule, which may depend on what a monitor has noted of the calls
before it. -/
def Obeys : η → List (Call σ ι ω) → Prop
  | _, [] => True
  | noted, call :: rest => Rule noted call ∧ Obeys (note noted call) rest

variable {note Rule}

/-- A rule that every call obeys. -/
theorem Obeys.of_forall (hrule : ∀ noted call, Rule noted call) {trace : List (Call σ ι ω)} :
    ∀ noted, Obeys note Rule noted trace := by
  induction trace with
  | nil => intro noted; trivial
  | cons call rest ih => exact fun noted ↦ ⟨hrule noted call, ih _⟩

/-- A rule that depends on the call alone is obeyed when all calls obey it. -/
theorem obeys_iff_forall {Each : Call σ ι ω → Prop} {trace : List (Call σ ι ω)} :
    ∀ noted, Obeys note (fun _ ↦ Each) noted trace ↔ ∀ call ∈ trace, Each call := by
  induction trace with
  | nil => exact fun _ ↦ iff_of_true trivial nofun
  | cons call rest ih =>
    intro noted
    rw [Obeys, List.forall_mem_cons, ih]

/-- A rule that depends on the call alone can be added. -/
theorem Obeys.and {Each : Call σ ι ω → Prop} {trace : List (Call σ ι ω)} :
    ∀ noted, (∀ call ∈ trace, Each call) → Obeys note Rule noted trace →
      Obeys note (fun noted call ↦ Each call ∧ Rule noted call) noted trace := by
  induction trace with
  | nil => intro noted _ _; trivial
  | cons call rest ih =>
    intro noted heach hobeys
    rw [List.forall_mem_cons] at heach
    exact ⟨⟨heach.1, hobeys.1⟩, ih _ heach.2 hobeys.2⟩

/-- Assumes: every step that obeys the rule keeps `Inv`, which is about the state and about what the
monitor has noted. So does every run that obeys it. -/
theorem Run.invariant_noted (Inv : σ → η → Prop)
    (hstep : ∀ before label reply after noted, Rule noted ⟨before, label, reply⟩ →
      Inv before noted → step before label reply after →
      Inv after (note noted ⟨before, label, reply⟩))
    {start final : σ} {trace : List (Call σ ι ω)} (hrun : Run step start trace final) :
    ∀ noted, Obeys note Rule noted trace → Inv start noted →
      Inv final (trace.foldl note noted) := by
  induction hrun with
  | nil start => intro noted _ hinv; exact hinv
  | cons hfirst _ ih =>
    intro noted hobeys hinv
    exact ih _ hobeys.2 (hstep _ _ _ _ _ hobeys.1 hinv hfirst)

/-- Assumes: from a state of `Inv`, a call that meets a condition obeys the rule and keeps `Inv`,
and one that does not leaves a state that is not safe. Where the rule asks of each call that it
finds a safe state, a run obeys the rule and ends safely exactly when all its calls meet the
condition. -/
theorem Run.obeys_iff (Inv Safe : σ → η → Prop) {Meets : Call σ ι ω → Prop}
    (hsafe : ∀ state noted, Inv state noted → Safe state noted)
    (hrule : ∀ noted call, Rule noted call → Safe call.before noted)
    (hmeets : ∀ before label reply after noted, Inv before noted → step before label reply after →
      Meets ⟨before, label, reply⟩ → Rule noted ⟨before, label, reply⟩ ∧
        Inv after (note noted ⟨before, label, reply⟩))
    (hbreaks : ∀ before label reply after noted, Inv before noted → step before label reply after →
      ¬Meets ⟨before, label, reply⟩ → ¬Safe after (note noted ⟨before, label, reply⟩))
    {start final : σ} {trace : List (Call σ ι ω)} (hrun : Run step start trace final) :
    ∀ noted, Inv start noted → ((Obeys note Rule noted trace ∧
      Safe final (trace.foldl note noted)) ↔ ∀ call ∈ trace, Meets call) := by
  induction hrun with
  | nil start => exact fun noted hinv ↦ iff_of_true ⟨trivial, hsafe start noted hinv⟩ nofun
  | @cons start middle final label reply rest hfirst hrest ih =>
    intro noted hinv
    rw [List.forall_mem_cons, List.foldl_cons, Obeys, and_assoc]
    by_cases hmeet : Meets ⟨start, label, reply⟩
    · obtain ⟨hobeys, hmiddle⟩ := hmeets _ _ _ _ noted hinv hfirst hmeet
      rw [and_iff_right hobeys, and_iff_right hmeet]
      exact ih _ hmiddle
    · refine iff_of_false ?_ fun h ↦ hmeet h.1
      rintro ⟨-, hobeys, hfinal⟩
      apply hbreaks _ _ _ _ noted hinv hfirst hmeet
      cases hrest with
      | nil => exact hfinal
      | cons => exact hrule _ _ hobeys.1

/-- Assumes: from a state of `Inv`, a call obeys the rule exactly when it meets a condition, and
then it keeps `Inv`. A run obeys the rule exactly when all its calls meet the condition. -/
theorem Run.obeys_iff_meets (Inv : σ → η → Prop) {Meets : Call σ ι ω → Prop}
    (hrule : ∀ before label reply after noted, Inv before noted → step before label reply after →
      (Rule noted ⟨before, label, reply⟩ ↔ Meets ⟨before, label, reply⟩))
    (hkeep : ∀ before label reply after noted, Inv before noted → step before label reply after →
      Meets ⟨before, label, reply⟩ → Inv after (note noted ⟨before, label, reply⟩))
    {start final : σ} {trace : List (Call σ ι ω)} (hrun : Run step start trace final) :
    ∀ noted, Inv start noted → (Obeys note Rule noted trace ↔ ∀ call ∈ trace, Meets call) := by
  induction hrun with
  | nil start => exact fun noted _ ↦ iff_of_true trivial nofun
  | cons hfirst _ ih =>
    intro noted hinv
    rw [List.forall_mem_cons, Obeys, hrule _ _ _ _ noted hinv hfirst]
    exact and_congr_right fun hmeets ↦ ih _ (hkeep _ _ _ _ noted hinv hfirst hmeets)

end Monitors

/-- Assumes: from every state of `Inv` every allowed call is answered, in a state of `Inv`. Every
list of allowed calls then has a run, and it ends in `Inv`. -/
theorem Run.exists_of_total (Inv : σ → Prop) (Allowed : ι → Prop)
    (htotal : ∀ before label, Allowed label → Inv before →
      ∃ reply after, step before label reply after ∧ Inv after) (labels : List ι) :
    ∀ start : σ, Inv start → (∀ label ∈ labels, Allowed label) →
      ∃ trace final, Run step start trace final ∧ trace.map Call.label = labels ∧ Inv final := by
  induction labels with
  | nil => intro start hinv _; exact ⟨[], start, .nil start, rfl, hinv⟩
  | cons label labels ih =>
    intro start hinv hallowed
    obtain ⟨reply, middle, hfirst, hmiddle⟩ :=
      htotal start label (hallowed label List.mem_cons_self) hinv
    obtain ⟨trace, final, hrun, hlabels, hfinal⟩ :=
      ih middle hmiddle fun other hother ↦ hallowed other (List.mem_cons_of_mem _ hother)
    exact ⟨⟨start, label, reply⟩ :: trace, final, .cons hfirst hrun, by simp [hlabels], hfinal⟩

/-- The first-in-first-out law over whole runs. Assumes: a component that holds some entries takes
every allowed step so that what the call hands out, followed by what the component then holds, is
what it held, followed by what the call put in. Over a run of allowed calls, all that was handed
out followed by what is held at the end is what was held at the start followed by all that was put
in. -/
theorem Run.conserves {α : Type*} (Holds : σ → List α → Prop) (Allowed : ι → Prop)
    (taken added : Call σ ι ω → List α)
    (hstep : ∀ before label reply after held, Allowed label → Holds before held →
      step before label reply after → ∃ held', Holds after held' ∧
        taken ⟨before, label, reply⟩ ++ held' = held ++ added ⟨before, label, reply⟩)
    {start final : σ} {trace : List (Call σ ι ω)} (hrun : Run step start trace final) :
    (∀ call ∈ trace, Allowed call.label) → ∀ held, Holds start held →
      ∃ held', Holds final held' ∧
        trace.flatMap taken ++ held' = held ++ trace.flatMap added := by
  induction hrun with
  | nil start => intro _ held hheld; exact ⟨held, hheld, by simp⟩
  | @cons start middle final label reply rest hfirst _ ih =>
    intro hallowed held hheld
    obtain ⟨middleHeld, hmiddle, hmove⟩ :=
      hstep start label reply middle held (hallowed _ List.mem_cons_self) hheld hfirst
    obtain ⟨held', hfinal, hrest⟩ :=
      ih (fun call hcall ↦ hallowed call (List.mem_cons_of_mem _ hcall)) middleHeld hmiddle
    refine ⟨held', hfinal, ?_⟩
    calc (⟨start, label, reply⟩ :: rest).flatMap taken ++ held'
        = taken ⟨start, label, reply⟩ ++ (rest.flatMap taken ++ held') := by
          rw [List.flatMap_cons, List.append_assoc]
      _ = (taken ⟨start, label, reply⟩ ++ middleHeld) ++ rest.flatMap added := by
          rw [hrest, List.append_assoc]
      _ = held ++ (⟨start, label, reply⟩ :: rest).flatMap added := by
          rw [hmove, List.append_assoc, List.flatMap_cons]

/-- When the first-in-first-out law holds at every point of a run. Assumes: from a state of `Inv`,
an allowed call that meets a condition moves the held entries by the law and keeps `Inv`, and one
that does not meet it does not move them by the law. So the law holds after every part of a run of
allowed calls from its start exactly when every call meets the condition. -/
theorem Run.conserves_iff {α : Type*} (Inv : σ → Prop) (Allowed : ι → Prop) (held : σ → List α)
    (taken added : Call σ ι ω → List α) {Meets : Call σ ι ω → Prop}
    (hmeets : ∀ before label reply after, Allowed label → Inv before →
      step before label reply after → Meets ⟨before, label, reply⟩ → Inv after ∧
        taken ⟨before, label, reply⟩ ++ held after = held before ++ added ⟨before, label, reply⟩)
    (hfails : ∀ before label reply after, Allowed label → Inv before →
      step before label reply after →
        taken ⟨before, label, reply⟩ ++ held after = held before ++ added ⟨before, label, reply⟩ →
          Meets ⟨before, label, reply⟩)
    {start final : σ} {trace : List (Call σ ι ω)} (hrun : Run step start trace final) :
    (∀ call ∈ trace, Allowed call.label) → Inv start →
      ((∀ front rest middle, trace = front ++ rest → Run step start front middle →
        front.flatMap taken ++ held middle = held start ++ front.flatMap added) ↔
          ∀ call ∈ trace, Meets call) := by
  have hlaw : ∀ {start middle : σ} {front : List (Call σ ι ω)}, Run step start front middle →
      Inv start → (∀ call ∈ front, Allowed call.label ∧ Meets call) →
        front.flatMap taken ++ held middle = held start ++ front.flatMap added := by
    intro start middle front hfront
    induction hfront with
    | nil start => intro _ _; simp
    | cons hfirst _ ih =>
      intro hinv hall
      obtain ⟨hallowed, hmeet⟩ := hall _ List.mem_cons_self
      obtain ⟨hnext, hmove⟩ := hmeets _ _ _ _ hallowed hinv hfirst hmeet
      have hrest := ih hnext fun call hcall ↦ hall call (List.mem_cons_of_mem _ hcall)
      rw [List.flatMap_cons, List.flatMap_cons, List.append_assoc, hrest, ← List.append_assoc,
        hmove, List.append_assoc]
  intro hallowed hinv
  constructor
  · induction hrun with
    | nil start => intro _ call hcall; cases hcall
    | @cons start middle final label reply rest hfirst _ ih =>
      intro hall
      rw [List.forall_mem_cons] at hallowed
      have hone := hall [_] rest middle rfl (.cons hfirst (.nil middle))
      simp only [List.flatMap_cons, List.flatMap_nil, List.append_nil] at hone
      have hmeet := hfails _ _ _ _ hallowed.1 hinv hfirst hone
      have hnext := (hmeets _ _ _ _ hallowed.1 hinv hfirst hmeet).1
      refine List.forall_mem_cons.mpr ⟨hmeet, ih hallowed.2 hnext ?_⟩
      intro front rest' last hsplit hfront
      have hlonger := hall (_ :: front) rest' last (by rw [hsplit]; rfl) (.cons hfirst hfront)
      rw [List.flatMap_cons, List.flatMap_cons, List.append_assoc, ← List.append_assoc (held start),
        ← hone, List.append_assoc] at hlonger
      exact List.append_cancel_left hlonger
  · intro hall front rest middle hsplit hfront
    refine hlaw hfront hinv fun call hcall ↦ ?_
    have hmem : call ∈ trace := by
      rw [hsplit]
      exact List.mem_append_left rest hcall
    exact ⟨hallowed call hmem, hall call hmem⟩

end RdbLibs.Runs
