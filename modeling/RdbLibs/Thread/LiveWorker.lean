import RdbLibs.Thread.ThreadBase

/-!
# The live worker of a `CThreadBase`

An object should have one live worker at most, and should not lose the handle of a thread that was
not joined. `createThread` tests `m_running`, which the thread that it starts sets itself, so that
two calls can both find it false; `killThread` drops the handle of a thread that goes on. A run in
which neither happens, and in which `stopThread` does not come between the start of a thread and the
assignment of its handle, keeps the worker apart: it is in the handle, or about to be put there.
-/

set_option autoImplicit false
set_option relaxedAutoImplicit false

namespace RdbLibs.Thread.CThreadBase

open Runs

variable {ι : Type*}

/-- A thread was started and its `threadProc` has not returned. -/
def Live (s : CThreadBase ι) (thread : ℕ) : Prop :=
  s.threads thread = .starting ∨ s.threads thread = .running

/-- A thread was started and not joined. -/
def Unjoined (s : CThreadBase ι) (thread : ℕ) : Prop :=
  s.threads thread ≠ .unstarted ∧ s.threads thread ≠ .joined

/-- At most one thread is live, and no handle was overwritten while its thread was not joined. -/
def Safe (s : CThreadBase ι) : Prop :=
  (∀ first second, s.Live first → s.Live second → first = second) ∧ s.lost = []

/-- A test of `m_running` is careful: `createThread` does not find it false while a thread that was
started is about to set it, `stopThread` does not find it true while the handle of a thread that was
started is about to be assigned, and `killThread` does not find it true at all. -/
def IsCareful (call : Call (CThreadBase ι) (Turn ι) (Option Bool)) : Prop :=
  match call.label with
  | .createThread _ => call.before.creating = some .test → call.before.m_running = false →
      ∀ thread, call.before.threads thread ≠ .starting
  | .stopThread _ => call.before.stopping = some .test → call.before.m_running = true →
      ∀ thread, call.before.creating ≠ some (.assign thread)
  | .killThread caller => call.before.killing caller = .test → call.before.m_running = false
  | .newThread _ => True

/-- A call of `createThread` is about to start a thread, or to assign its handle. -/
def IsStarting (creating : Option CreatePhase) : Prop :=
  creating = some .start ∨ ∃ thread, creating = some (.assign thread)

/-- A call of `stopThread` has found `m_running`. -/
def IsStopping (stopping : Option StopPhase) : Prop :=
  match stopping with
  | none | some (.setExitFlag _) | some .test => False
  | _ => True

/-- What careful steps keep. A thread that was not joined is in the handle, or about to be put
there. -/
structure Guarded (s : CThreadBase ι) : Prop where
  owned : ∀ thread, s.Unjoined thread →
    s.m_threadHandle = some thread ∨ s.creating = some (.assign thread)
  held : ∀ thread, s.m_threadHandle = some thread →
    s.Unjoined thread ∨ s.threads thread = .joined ∧ s.stopping = some .clearHandle
  fresh : s.m_running = false → ∀ thread, s.Unjoined thread → s.threads thread = .starting
  start : s.creating = some .start → s.m_running = false ∧ ∀ thread, ¬s.Unjoined thread
  assign : ∀ thread, s.creating = some (.assign thread) → s.Unjoined thread
  empty : IsStarting s.creating → s.m_threadHandle = none
  apart : IsStopping s.stopping →
    s.m_running = true ∧ ¬IsStarting s.creating
  joining : ∀ thread, s.stopping = some (.joining thread) → s.m_threadHandle = some thread
  cleared : s.stopping = some .clearHandle ∨ s.stopping = some .clearRunning →
    ∀ thread, ¬s.Unjoined thread
  spared : ∀ caller, s.killing caller = .idle ∨ s.killing caller = .test
  kept : s.lost = []

theorem guarded_new : (new : CThreadBase ι).Guarded where
  owned thread h := absurd rfl h.1
  held _ := nofun
  fresh _ thread h := absurd rfl h.1
  start := nofun
  assign _ := nofun
  empty h := rfl
  apart h := h.elim
  joining _ := nofun
  cleared h := by simp [new] at h
  spared _ := .inl rfl
  kept := rfl

variable {s after : CThreadBase ι} {thread : ℕ}

theorem Live.unjoined (h : s.Live thread) : s.Unjoined thread := by
  obtain h | h := h <;> simp [Unjoined, h]

theorem isStopping_of_cleared {stopping : Option StopPhase}
    (h : stopping = some .clearHandle ∨ stopping = some .clearRunning) : IsStopping stopping := by
  rcases h with rfl | rfl <;> trivial

theorem unjoined_move_of_ne {other : ℕ} (hne : other ≠ thread) (phase : WorkerPhase) :
    (s.move thread phase).Unjoined other ↔ s.Unjoined other := by
  simp [Unjoined, move, Function.update_of_ne hne]

theorem unjoined_move_self (phase : WorkerPhase) :
    (s.move thread phase).Unjoined thread ↔ phase ≠ .unstarted ∧ phase ≠ .joined := by
  simp [Unjoined, move]

/-- A handle whose thread was joined is not lost. -/
theorem lost_setHandle (handle : Option ℕ)
    (h : ∀ thread, s.m_threadHandle = some thread → s.threads thread = .joined) :
    (s.setHandle handle).lost = s.lost := by
  simp only [setHandle]
  cases hhandle : s.m_threadHandle with
  | none => rfl
  | some thread => exact if_pos (h thread hhandle)

namespace Guarded

/-- Two threads that were not joined are the same: while a handle is about to be assigned, there is
none. -/
theorem safe (h : s.Guarded) : s.Safe := by
  refine ⟨fun first second hfirst hsecond ↦ ?_, h.kept⟩
  have hempty (thread : ℕ) (hassign : s.creating = some (.assign thread)) :
      s.m_threadHandle = none := h.empty (.inr ⟨thread, hassign⟩)
  obtain hfirst | hfirst := h.owned first hfirst.unjoined <;>
    obtain hsecond | hsecond := h.owned second hsecond.unjoined
  · exact Option.some.inj (hfirst.symm.trans hsecond)
  · exact absurd (hfirst.symm.trans (hempty second hsecond)) nofun
  · exact absurd (hsecond.symm.trans (hempty first hfirst)) nofun
  · simpa [hfirst] using hsecond

/-- `createThread` between its accesses: it does not come to the start of a thread, and does not
leave one without its handle. -/
theorem setCreating (h : s.Guarded) {creating : Option CreatePhase}
    (hbefore : ∀ thread, s.creating ≠ some (.assign thread)) (hafter : ¬IsStarting creating) :
    { s with creating := creating }.Guarded :=
  { h with
    owned := fun thread hthread ↦ .inl ((h.owned thread hthread).resolve_right (hbefore thread))
    start := fun hstart ↦ absurd (.inl hstart) hafter
    assign := fun thread hassign ↦ absurd (.inr ⟨thread, hassign⟩) hafter
    empty := fun hstarting ↦ absurd hstarting hafter
    apart := fun hstopping ↦ ⟨(h.apart hstopping).1, hafter⟩ }

/-- A careful call of `createThread` that finds `m_running` false. -/
theorem toStart (h : s.Guarded) (hrunning : s.m_running = false)
    (hcareful : ∀ thread, s.threads thread ≠ .starting) :
    { s with creating := some .start }.Guarded := by
  have hstopping : ¬IsStopping s.stopping := fun hstopping ↦
    Bool.noConfusion (hrunning.symm.trans (h.apart hstopping).1)
  have hnone (thread : ℕ) : ¬s.Unjoined thread := fun hthread ↦
    hcareful thread (h.fresh hrunning thread hthread)
  exact
    { h with
      owned := fun thread hthread ↦ absurd hthread (hnone thread)
      start := fun _ ↦ ⟨hrunning, hnone⟩
      assign := fun _ ↦ nofun
      empty := fun _ ↦ Option.eq_none_iff_forall_ne_some.mpr fun thread hhandle ↦
        (h.held thread hhandle).elim (hnone thread) fun hjoined ↦
          hstopping (by simp [hjoined.2, IsStopping])
      apart := fun hafter ↦ absurd hafter hstopping }

/-- The start of a thread. -/
theorem toAssign (h : s.Guarded) (hcreating : s.creating = some .start) :
    { s.move thread .starting with creating := some (.assign thread) }.Guarded := by
  obtain ⟨hrunning, hnone⟩ := h.start hcreating
  have hempty := h.empty (.inl hcreating)
  have hstopping : ¬IsStopping s.stopping := fun hstopping ↦ (h.apart hstopping).2 (.inl hcreating)
  have honly (other : ℕ) (hother : (s.move thread .starting).Unjoined other) : other = thread := by
    by_contra hne
    exact hnone other ((unjoined_move_of_ne hne _).mp hother)
  exact
    { owned := fun other hother ↦ .inr (by rw [honly other hother])
      held := fun other hother ↦ absurd (hempty.symm.trans hother) nofun
      fresh := fun _ other hother ↦ by simp [honly other hother, move]
      start := nofun
      assign := fun other hother ↦ by
        obtain rfl : thread = other := by simpa using hother
        exact (unjoined_move_self .starting).mpr (by decide)
      empty := fun _ ↦ hempty
      apart := fun hafter ↦ absurd hafter hstopping
      joining := h.joining
      cleared := fun hcleared ↦ absurd (isStopping_of_cleared hcleared) hstopping
      spared := h.spared
      kept := h.kept }

/-- The assignment of the handle. -/
theorem toCheck (h : s.Guarded) (hcreating : s.creating = some (.assign thread)) :
    { s.setHandle (some thread) with creating := some .check }.Guarded := by
  have hempty := h.empty (.inr ⟨thread, hcreating⟩)
  have hstopping : ¬IsStopping s.stopping := fun hstopping ↦
    (h.apart hstopping).2 (.inr ⟨thread, hcreating⟩)
  exact
    { owned := fun other hother ↦ .inl <| by
        simpa [hempty, hcreating, setHandle] using h.owned other hother
      held := fun other hother ↦ .inl <| by
        obtain rfl : thread = other := by simpa [setHandle] using hother
        exact h.assign thread hcreating
      fresh := h.fresh
      start := nofun
      assign := nofun
      empty := nofun
      apart := fun hafter ↦ absurd hafter hstopping
      joining := fun other hother ↦ absurd (by simp [show s.stopping = _ from hother, IsStopping])
        hstopping
      cleared := h.cleared
      spared := h.spared
      kept := (lost_setHandle (some thread) (by simp [hempty])).trans h.kept }

/-- `stopThread` between its accesses, as far as it does not join. -/
theorem setStopping (h : s.Guarded) {stopping : Option StopPhase} (m_bThreadExitFlag : Bool)
    (hbefore : s.stopping ≠ some .clearHandle)
    (hapart : IsStopping stopping → s.m_running = true ∧ ¬IsStarting s.creating)
    (hjoining : ∀ thread, stopping = some (.joining thread) → s.m_threadHandle = some thread)
    (hcleared : stopping = some .clearHandle ∨ stopping = some .clearRunning →
      ∀ thread, ¬s.Unjoined thread) :
    { s with m_bThreadExitFlag := m_bThreadExitFlag, stopping := stopping }.Guarded :=
  { h with
    held := fun thread hthread ↦ .inl
      ((h.held thread hthread).resolve_right fun hjoined ↦ hbefore hjoined.2)
    apart := hapart
    joining := hjoining
    cleared := hcleared }

/-- `stopThread` before it finds `m_running`. -/
theorem setStopping_of_not (h : s.Guarded) {stopping : Option StopPhase}
    (m_bThreadExitFlag : Bool) (hbefore : ¬IsStopping s.stopping) (hafter : ¬IsStopping stopping) :
    { s with m_bThreadExitFlag := m_bThreadExitFlag, stopping := stopping }.Guarded := by
  refine h.setStopping m_bThreadExitFlag ?_ (absurd · hafter) ?_
    (fun hcleared ↦ absurd (isStopping_of_cleared hcleared) hafter)
  · exact fun hclear ↦ hbefore (isStopping_of_cleared (.inl hclear))
  · rintro thread rfl
    exact absurd trivial hafter

/-- A careful call of `stopThread` that finds `m_running`. -/
theorem findRunning (h : s.Guarded) (hstopping : s.stopping = some .test)
    (hrunning : s.m_running = true) (hcareful : ∀ thread, s.creating ≠ some (.assign thread)) :
    { s with stopping := some .handle }.Guarded := by
  refine h.setStopping _ (by simp [hstopping]) (fun _ ↦ ⟨hrunning, ?_⟩) nofun (by simp)
  rintro (hstart | ⟨thread, hassign⟩)
  · exact Bool.noConfusion (hrunning.symm.trans (h.start hstart).1)
  · exact hcareful thread hassign

theorem findHandle (h : s.Guarded) (hstopping : s.stopping = some .handle) :
    { s with stopping := some .join }.Guarded :=
  h.setStopping _ (by simp [hstopping]) (fun _ ↦ h.apart (by simp [hstopping, IsStopping])) nofun
    (by simp)

theorem findNoHandle (h : s.Guarded) (hstopping : s.stopping = some .handle)
    (hhandle : s.m_threadHandle = none) :
    { s with stopping := some .clearRunning }.Guarded := by
  have hinside := h.apart (by simp [hstopping, IsStopping])
  refine h.setStopping _ (by simp [hstopping]) (fun _ ↦ hinside) nofun ?_
  intro _ thread hthread
  obtain hthread | hthread := h.owned thread hthread
  · simp [hhandle] at hthread
  · exact hinside.2 (.inr ⟨thread, hthread⟩)

/-- The handle is read for the join. -/
theorem toJoining (h : s.Guarded) (hstopping : s.stopping = some .join)
    (hhandle : s.m_threadHandle = some thread) :
    { s with stopping := some (.joining thread) }.Guarded := by
  have hinside := h.apart (by simp [hstopping, IsStopping])
  refine h.setStopping _ (by simp [hstopping]) (fun _ ↦ hinside) (fun other hother ↦ ?_) (by simp)
  obtain rfl : thread = other := by simpa using hother
  exact hhandle

/-- The join. -/
theorem toClearHandle (h : s.Guarded) (hstopping : s.stopping = some (.joining thread)) :
    { s.move thread .joined with stopping := some .clearHandle }.Guarded := by
  obtain ⟨hrunning, hstarting⟩ := h.apart (by simp [hstopping, IsStopping])
  have hhandle := h.joining thread hstopping
  have hnone (other : ℕ) : ¬(s.move thread .joined).Unjoined other := by
    intro hother
    rcases eq_or_ne other thread with rfl | hne
    · exact ((unjoined_move_self _).mp hother).2 rfl
    · obtain hother | hother := h.owned other ((unjoined_move_of_ne hne _).mp hother)
      · exact hne (Option.some.inj (hother.symm.trans hhandle))
      · exact hstarting (.inr ⟨other, hother⟩)
  exact
    { owned := fun other hother ↦ absurd hother (hnone other)
      held := fun other hother ↦ .inr <| by
        obtain rfl : thread = other := Option.some.inj (hhandle.symm.trans hother)
        exact ⟨Function.update_self .., rfl⟩
      fresh := fun hfalse ↦ Bool.noConfusion (hrunning.symm.trans hfalse)
      start := fun hstart ↦ absurd (.inl hstart) hstarting
      assign := fun other hother ↦ absurd (.inr ⟨other, hother⟩) hstarting
      empty := fun hstart ↦ absurd hstart hstarting
      apart := fun _ ↦ ⟨hrunning, hstarting⟩
      joining := nofun
      cleared := fun _ ↦ hnone
      spared := h.spared
      kept := h.kept }

/-- The handle of a thread that was joined is cleared. -/
theorem toClearRunning (h : s.Guarded) (hstopping : s.stopping = some .clearHandle) :
    { s.setHandle none with stopping := some .clearRunning }.Guarded := by
  obtain ⟨hrunning, hstarting⟩ := h.apart (by simp [hstopping, IsStopping])
  have hnone := h.cleared (.inl hstopping)
  have hjoined (other : ℕ) (hother : s.m_threadHandle = some other) : s.threads other = .joined :=
    ((h.held other hother).resolve_left (hnone other)).1
  exact
    { owned := fun other hother ↦ absurd hother (hnone other)
      held := nofun
      fresh := h.fresh
      start := h.start
      assign := h.assign
      empty := fun _ ↦ rfl
      apart := fun _ ↦ ⟨hrunning, hstarting⟩
      joining := nofun
      cleared := fun _ ↦ hnone
      spared := h.spared
      kept := (lost_setHandle none hjoined).trans h.kept }

/-- `stopThread` returns. -/
theorem stopped (h : s.Guarded) (hstopping : s.stopping = some .clearRunning) :
    { s with m_running := false, stopping := none }.Guarded := by
  have hnone := h.cleared (.inr hstopping)
  exact
    { h with
      held := fun other hother ↦ (h.held other hother).imp_right fun hjoined ↦ by
        simp [hstopping] at hjoined
      fresh := fun _ other hother ↦ absurd hother (hnone other)
      start := fun _ ↦ ⟨rfl, hnone⟩
      apart := fun hafter ↦ hafter.elim
      joining := nofun
      cleared := by simp }

/-- `killThread` up to a test that finds `m_running` false. -/
theorem moveKill [DecidableEq ι] (h : s.Guarded) (caller : ι) {phase : KillPhase}
    (hphase : phase = .idle ∨ phase = .test) : (s.moveKill caller phase).Guarded :=
  { h with
    spared := fun other ↦ by
      rcases eq_or_ne other caller with rfl | hne
      · simpa [CThreadBase.moveKill] using hphase
      · simpa [CThreadBase.moveKill, Function.update_of_ne hne] using h.spared other }

/-- A thread moves on, while `m_running` is set or with setting it. -/
theorem advance (h : s.Guarded) (hthread : s.Unjoined thread) {phase : WorkerPhase}
    (hphase : phase ≠ .unstarted ∧ phase ≠ .joined) :
    { s.move thread phase with m_running := true }.Guarded := by
  have hsame (other : ℕ) : (s.move thread phase).Unjoined other ↔ s.Unjoined other := by
    rcases eq_or_ne other thread with rfl | hne
    · exact iff_of_true ((unjoined_move_self phase).mpr hphase) hthread
    · exact unjoined_move_of_ne hne phase
  have hstart : s.creating ≠ some .start := fun hstart ↦ (h.start hstart).2 thread hthread
  exact
    { owned := fun other hother ↦ h.owned other ((hsame other).mp hother)
      held := fun other hother ↦ by
        refine (h.held other hother).imp (hsame other).mpr fun hjoined ↦ ⟨?_, hjoined.2⟩
        rcases eq_or_ne other thread with rfl | hne
        · exact absurd hjoined.1 hthread.2
        · exact (Function.update_of_ne hne ..).trans hjoined.1
      fresh := nofun
      start := fun hcreating ↦ absurd hcreating hstart
      assign := fun other hother ↦ (hsame other).mpr (h.assign other hother)
      empty := h.empty
      apart := fun hstopping ↦ ⟨rfl, (h.apart hstopping).2⟩
      joining := h.joining
      cleared := fun hcleared other hother ↦ h.cleared hcleared other ((hsame other).mp hother)
      spared := h.spared
      kept := h.kept }

/-- The steps of `newThread`. -/
theorem newThread (h : s.Guarded) (hstep : s.newThread thread = some after) : after.Guarded := by
  cases hthread : s.threads thread with
  | starting =>
    have hunjoined : s.Unjoined thread := by simp [Unjoined, hthread]
    simp only [CThreadBase.newThread, hthread, Option.some.injEq] at hstep
    exact hstep ▸ h.advance hunjoined (by decide)
  | running =>
    have hunjoined : s.Unjoined thread := by simp [Unjoined, hthread]
    have hrunning : s.m_running = true := by
      by_contra hfalse
      simpa [hthread] using h.fresh (by simpa using hfalse) thread hunjoined
    have hreturned : { s.move thread .returned with m_running := true }.Guarded :=
      h.advance hunjoined (by decide)
    simp only [CThreadBase.newThread, hthread, Option.some.injEq] at hstep
    rw [← hstep]
    simpa only [move, ← hrunning] using hreturned
  | unstarted | returned | joined => simp [CThreadBase.newThread, hthread] at hstep

/-- The steps of `createThread`. -/
theorem createThread {result : Option ℕ} {reply : Option Bool} (h : s.Guarded)
    (hcareful : IsCareful ⟨s, .createThread result, reply⟩)
    (hstep : s.createThread result = some (reply, after)) : after.Guarded := by
  cases hcreating : s.creating with
  | none =>
    simp only [CThreadBase.createThread, hcreating, Option.some.injEq, Prod.mk.injEq] at hstep
    exact hstep.2 ▸ h.setCreating (by simp [hcreating]) (by simp [IsStarting])
  | some phase =>
    cases phase with
    | test =>
      by_cases hrunning : s.m_running = true
      · simp only [CThreadBase.createThread, hcreating, if_pos hrunning, Option.some.injEq,
          Prod.mk.injEq] at hstep
        exact hstep.2 ▸ h.setCreating (by simp [hcreating]) (by simp [IsStarting])
      · simp only [CThreadBase.createThread, hcreating, if_neg hrunning, Option.some.injEq,
          Prod.mk.injEq] at hstep
        have hfalse : s.m_running = false := by simpa using hrunning
        exact hstep.2 ▸ h.toStart hfalse (hcareful hcreating hfalse)
    | start =>
      cases result with
      | none =>
        simp only [CThreadBase.createThread, hcreating, Option.some.injEq, Prod.mk.injEq] at hstep
        exact hstep.2 ▸ h.setCreating (by simp [hcreating]) (by simp [IsStarting])
      | some thread =>
        by_cases hnew : s.threads thread = .unstarted
        · simp only [CThreadBase.createThread, hcreating, hnew, if_true, Option.some.injEq,
            Prod.mk.injEq] at hstep
          exact hstep.2 ▸ h.toAssign hcreating
        · simp [CThreadBase.createThread, hcreating, hnew] at hstep
    | assign thread =>
      simp only [CThreadBase.createThread, hcreating, Option.some.injEq, Prod.mk.injEq] at hstep
      exact hstep.2 ▸ h.toCheck hcreating
    | check =>
      simp only [CThreadBase.createThread, hcreating, Option.some.injEq, Prod.mk.injEq] at hstep
      exact hstep.2 ▸ h.setCreating (by simp [hcreating]) (by simp [IsStarting])

/-- The steps of `stopThread`. -/
theorem stopThread {bSetExitFlag : Bool} {reply : Option Bool} (h : s.Guarded)
    (hcareful : IsCareful ⟨s, .stopThread bSetExitFlag, reply⟩)
    (hstep : s.stopThread bSetExitFlag = some after) : after.Guarded := by
  cases hstopping : s.stopping with
  | none =>
    simp only [CThreadBase.stopThread, hstopping, Option.some.injEq] at hstep
    exact hstep ▸ h.setStopping_of_not _ (by simp [hstopping, IsStopping]) (by simp [IsStopping])
  | some phase =>
    cases phase with
    | setExitFlag bSetExitFlag =>
      simp only [CThreadBase.stopThread, hstopping, Option.some.injEq] at hstep
      exact hstep ▸ h.setStopping_of_not _ (by simp [hstopping, IsStopping]) (by simp [IsStopping])
    | test =>
      by_cases hrunning : s.m_running = true
      · simp only [CThreadBase.stopThread, hstopping, if_pos hrunning, Option.some.injEq] at hstep
        exact hstep ▸ h.findRunning hstopping hrunning (hcareful hstopping hrunning)
      · simp only [CThreadBase.stopThread, hstopping, if_neg hrunning, Option.some.injEq] at hstep
        exact hstep ▸ h.setStopping_of_not _ (by simp [hstopping, IsStopping])
          (by simp [IsStopping])
    | handle =>
      by_cases hhandle : s.m_threadHandle ≠ none
      · simp only [CThreadBase.stopThread, hstopping, if_pos hhandle, Option.some.injEq] at hstep
        exact hstep ▸ h.findHandle hstopping
      · simp only [CThreadBase.stopThread, hstopping, if_neg hhandle, Option.some.injEq] at hstep
        exact hstep ▸ h.findNoHandle hstopping (by simpa using hhandle)
    | join =>
      simp only [CThreadBase.stopThread, hstopping, Option.map_eq_some_iff] at hstep
      obtain ⟨thread, hhandle, rfl⟩ := hstep
      exact h.toJoining hstopping hhandle
    | joining thread =>
      by_cases hreturned : s.threads thread = .returned
      · simp only [CThreadBase.stopThread, hstopping, if_pos hreturned, Option.some.injEq] at hstep
        exact hstep ▸ h.toClearHandle hstopping
      · simp [CThreadBase.stopThread, hstopping, hreturned] at hstep
    | clearHandle =>
      simp only [CThreadBase.stopThread, hstopping, Option.some.injEq] at hstep
      exact hstep ▸ h.toClearRunning hstopping
    | clearRunning =>
      simp only [CThreadBase.stopThread, hstopping, Option.some.injEq] at hstep
      exact hstep ▸ h.stopped hstopping

/-- The steps of `killThread`. -/
theorem killThread [DecidableEq ι] {caller : ι} {reply : Option Bool} (h : s.Guarded)
    (hcareful : IsCareful ⟨s, .killThread caller, reply⟩)
    (hstep : s.killThread caller = some after) : after.Guarded := by
  obtain hkilling | hkilling := h.spared caller
  · simp only [CThreadBase.killThread, hkilling, Option.some.injEq] at hstep
    exact hstep ▸ h.moveKill caller (.inr rfl)
  · have hrunning : s.m_running = false := hcareful hkilling
    simp only [CThreadBase.killThread, hkilling, hrunning, Bool.false_eq_true, if_false,
      Option.some.injEq] at hstep
    exact hstep ▸ h.moveKill caller (.inl rfl)

/-- Every careful step keeps the worker guarded. -/
theorem step [DecidableEq ι] {whose : Turn ι} {reply : Option Bool} (h : s.Guarded)
    (hcareful : IsCareful ⟨s, whose, reply⟩) (hstep : Step s whose reply after) :
    after.Guarded := by
  cases whose with
  | createThread result => exact h.createThread hcareful hstep
  | stopThread bSetExitFlag =>
    obtain ⟨_, hstep, hafter⟩ := Option.map_eq_some_iff.mp hstep
    exact (Prod.mk.injEq .. ▸ hafter).2 ▸ h.stopThread hcareful hstep
  | killThread caller =>
    obtain ⟨_, hstep, hafter⟩ := Option.map_eq_some_iff.mp hstep
    exact (Prod.mk.injEq .. ▸ hafter).2 ▸ h.killThread hcareful hstep
  | newThread thread =>
    obtain ⟨_, hstep, hafter⟩ := Option.map_eq_some_iff.mp hstep
    exact (Prod.mk.injEq .. ▸ hafter).2 ▸ h.newThread hstep

end Guarded

/-- Assumes: all tests of `m_running` in a run are careful. Then there is at most one live worker in
every state of the run, and no handle of a thread that was not joined is lost. -/
theorem safe_of_careful [DecidableEq ι]
    {trace : List (Call (CThreadBase ι) (Turn ι) (Option Bool))} {final : CThreadBase ι}
    (hrun : Run Step new trace final) (hcareful : ∀ call ∈ trace, IsCareful call) :
    (∀ call ∈ trace, call.before.Safe) ∧ final.Safe := by
  obtain ⟨hbefore, hfinal⟩ := hrun.forall_states Guarded
    (fun _ _ _ _ h hmeets hstep ↦ h.step hmeets hstep) hcareful guarded_new
  exact ⟨fun call hcall ↦ (hbefore call hcall).safe, hfinal.safe⟩

/-- A thread is created, runs and returns, and a call of `stopThread` joins it. -/
theorem safe_of_careful_one : ∃ trace final, Run (Step (ι := Unit)) new trace final ∧
    (∀ call ∈ trace, call.before.Safe) ∧ final.Safe := by
  have hcareful : ∃ trace final, Run (Step (ι := Unit)) new trace final ∧
      ∀ call ∈ trace, IsCareful call := by
    refine Run.exists_cons (.createThread none) rfl ?_
    refine Run.exists_cons (.createThread none) rfl ?_
    refine Run.exists_cons (.createThread (some 0)) rfl ?_
    refine Run.exists_cons (.createThread none) rfl ?_
    refine Run.exists_cons (.createThread none) rfl ?_
    refine Run.exists_cons (.newThread 0) rfl ?_
    refine Run.exists_cons (.newThread 0) rfl ?_
    refine Run.exists_cons (.stopThread true) rfl ?_
    refine Run.exists_cons (.stopThread true) rfl ?_
    refine Run.exists_cons (.stopThread true) rfl ?_
    refine Run.exists_cons (.stopThread true) rfl ?_
    refine Run.exists_cons (.stopThread true) rfl ?_
    refine Run.exists_cons (.stopThread true) rfl ?_
    refine ⟨[], _, .nil _, ?_⟩
    simp [IsCareful, new, setHandle, move]
  obtain ⟨trace, final, hrun, hcareful⟩ := hcareful
  exact ⟨trace, final, hrun, safe_of_careful hrun hcareful⟩

/-- `createThread` is called again before the thread that it started sets `m_running`. -/
theorem exists_unsafe : ∃ trace final, Run (Step (ι := Unit)) new trace final ∧ ¬final.Safe := by
  refine Run.exists_cons (.createThread none) rfl ?_
  refine Run.exists_cons (.createThread none) rfl ?_
  refine Run.exists_cons (.createThread (some 0)) rfl ?_
  refine Run.exists_cons (.createThread none) rfl ?_
  refine Run.exists_cons (.createThread none) rfl ?_
  refine Run.exists_cons (.createThread none) rfl ?_
  refine Run.exists_cons (.createThread none) rfl ?_
  refine Run.exists_cons (.createThread (some 1)) rfl ?_
  refine ⟨[], _, .nil _, fun hsafe ↦ ?_⟩
  exact absurd (hsafe.1 0 1 (.inl rfl) (.inl rfl)) (by decide)

end RdbLibs.Thread.CThreadBase
