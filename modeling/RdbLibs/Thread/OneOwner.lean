import RdbLibs.Thread.LiveWorker

/-!
# A `CThreadBase` with one owner

One owner calls `createThread` when there is no thread, and `stopThread` when the thread is active.
What the object is then is said here call by call: a call that goes on, and one that has returned.
`killThread` is not called.
-/

set_option autoImplicit false
set_option relaxedAutoImplicit false

namespace RdbLibs.Thread.CThreadBase

variable {ι : Type*} {s after : CThreadBase ι}

/-- What a call of `createThread` has made, that found no thread. Unless `quits` is set, a thread
that was started is live. -/
def Creating (s : CThreadBase ι) (quits : Bool) : Prop :=
  match s.creating with
  | some (.assign _) => quits = false → ∃ thread, s.Live thread
  | some .check => s.m_threadHandle ≠ none ∧ (quits = false → ∃ thread, s.Live thread)
  | _ => ∀ thread, ¬s.Unjoined thread

/-- A call of `createThread` that found no thread goes on, or answers true and has started one, or
has started none. -/
theorem Creating.createThread {quits : Bool} {thread : Option ℕ} {created : Option Bool}
    (h : s.Creating quits) (hstep : s.createThread thread = some (created, after)) :
    after.stopping = s.stopping ∧ (after.creating ≠ none → after.Creating quits) ∧
      (after.creating = none → created = some true → quits = false →
        ∃ thread, after.Live thread) ∧
      (after.creating = none → created ≠ some true → ∀ thread, ¬after.Unjoined thread) := by
  unfold Creating at h
  cases hcreating : s.creating with
  | none =>
    simp only [CThreadBase.createThread, hcreating, Option.some.injEq, Prod.mk.injEq] at hstep h
    obtain ⟨rfl, rfl⟩ := hstep
    exact ⟨rfl, fun _ ↦ h, by simp, by simp⟩
  | some phase =>
    cases phase with
    | test =>
      simp only [CThreadBase.createThread, hcreating] at hstep h
      split_ifs at hstep with hrunning <;> obtain ⟨rfl, rfl⟩ := Prod.mk.inj (Option.some.inj hstep)
      · exact ⟨rfl, fun hgoes ↦ absurd rfl hgoes, by simp, fun _ _ ↦ h⟩
      · exact ⟨rfl, fun _ ↦ h, by simp, by simp⟩
    | start =>
      simp only [CThreadBase.createThread, hcreating] at hstep h
      cases thread with
      | none =>
        obtain ⟨rfl, rfl⟩ := Prod.mk.inj (Option.some.inj hstep)
        exact ⟨rfl, fun hgoes ↦ absurd rfl hgoes, by simp, fun _ _ ↦ h⟩
      | some thread =>
        dsimp only at hstep
        split_ifs at hstep with hnew
        obtain ⟨rfl, rfl⟩ := Prod.mk.inj (Option.some.inj hstep)
        have hlive : (s.move thread .starting).Live thread := .inl (Function.update_self ..)
        exact ⟨rfl, fun _ _ ↦ ⟨thread, hlive⟩, by simp, by simp⟩
    | assign thread =>
      simp only [CThreadBase.createThread, hcreating] at hstep h
      obtain ⟨rfl, rfl⟩ := Prod.mk.inj (Option.some.inj hstep)
      exact ⟨rfl, fun _ ↦ ⟨by simp [setHandle], h⟩, by simp, by simp⟩
    | check =>
      simp only [CThreadBase.createThread, hcreating] at hstep h
      obtain ⟨rfl, rfl⟩ := Prod.mk.inj (Option.some.inj hstep)
      refine ⟨rfl, fun hgoes ↦ absurd rfl hgoes, fun _ _ ↦ h.2, fun _ hnone ↦ ?_⟩
      exact absurd (congrArg some (Option.isSome_iff_ne_none.mpr h.1)) hnone

/-- A call of `stopThread` on a thread that is active goes on, or has left no thread. -/
theorem Guarded.stopThread_active {bSetExitFlag : Bool} (h : s.Guarded)
    (hactive : ¬IsStopping s.stopping → s.m_running = true)
    (hstep : s.stopThread bSetExitFlag = some after) :
    after.creating = s.creating ∧
      (after.stopping ≠ none → ¬IsStopping after.stopping → after.m_running = true) ∧
      (after.stopping = none → ∀ thread, ¬after.Unjoined thread) := by
  cases hstopping : s.stopping with
  | none =>
    simp only [CThreadBase.stopThread, hstopping, Option.some.injEq] at hstep
    subst hstep
    exact ⟨rfl, fun _ _ ↦ hactive (by simp [hstopping, IsStopping]), by simp⟩
  | some phase =>
    have hrunning : phase = .test → s.m_running = true :=
      fun htest ↦ hactive (by simp [hstopping, htest, IsStopping])
    cases phase with
    | setExitFlag bSetExitFlag =>
      simp only [CThreadBase.stopThread, hstopping, Option.some.injEq] at hstep
      subst hstep
      exact ⟨rfl, fun _ _ ↦ hactive (by simp [hstopping, IsStopping]), by simp⟩
    | test =>
      simp only [CThreadBase.stopThread, hstopping, if_pos (hrunning rfl), Option.some.injEq]
        at hstep
      subst hstep
      exact ⟨rfl, fun _ hnot ↦ absurd trivial hnot, by simp⟩
    | handle =>
      simp only [CThreadBase.stopThread, hstopping, Option.some.injEq] at hstep
      subst hstep
      refine ⟨rfl, fun _ hnot ↦ absurd ?_ hnot, by simp⟩
      dsimp only
      split_ifs <;> trivial
    | join =>
      simp only [CThreadBase.stopThread, hstopping, Option.map_eq_some_iff] at hstep
      obtain ⟨thread, -, rfl⟩ := hstep
      exact ⟨rfl, fun _ hnot ↦ absurd trivial hnot, by simp⟩
    | joining thread =>
      simp only [CThreadBase.stopThread, hstopping] at hstep
      split_ifs at hstep
      obtain rfl := Option.some.inj hstep
      exact ⟨rfl, fun _ hnot ↦ absurd trivial hnot, by simp⟩
    | clearHandle =>
      simp only [CThreadBase.stopThread, hstopping, Option.some.injEq] at hstep
      subst hstep
      exact ⟨rfl, fun _ hnot ↦ absurd trivial hnot, by simp⟩
    | clearRunning =>
      simp only [CThreadBase.stopThread, hstopping, Option.some.injEq] at hstep
      subst hstep
      exact ⟨rfl, fun hgoes ↦ absurd rfl hgoes, fun _ ↦ h.cleared (.inr hstopping)⟩

/-- What the steps of `newThread` leave of what the owner meets. -/
structure Advances (s after : CThreadBase ι) : Prop where
  creating : after.creating = s.creating
  stopping : after.stopping = s.stopping
  handle : after.m_threadHandle = s.m_threadHandle
  running : s.m_running = true → after.m_running = true
  unjoined : ∀ thread, after.Unjoined thread → s.Unjoined thread

theorem Advances.refl (s : CThreadBase ι) : s.Advances s :=
  ⟨rfl, rfl, rfl, id, fun _ ↦ id⟩

theorem advances_newThread {thread : ℕ} (hstep : s.newThread thread = some after) :
    s.Advances after := by
  have hmoved (phase : WorkerPhase) (hstarted : s.Unjoined thread) (other : ℕ)
      (hother : (s.move thread phase).Unjoined other) : s.Unjoined other := by
    rcases eq_or_ne other thread with rfl | hne
    · exact hstarted
    · exact (unjoined_move_of_ne hne _).mp hother
  cases hthread : s.threads thread with
  | starting =>
    simp only [CThreadBase.newThread, hthread, Option.some.injEq] at hstep
    subst hstep
    exact ⟨rfl, rfl, rfl, fun _ ↦ rfl, hmoved .running (by simp [Unjoined, hthread])⟩
  | running =>
    simp only [CThreadBase.newThread, hthread, Option.some.injEq] at hstep
    subst hstep
    exact ⟨rfl, rfl, rfl, id, hmoved .returned (by simp [Unjoined, hthread])⟩
  | unstarted | returned | joined => simp [CThreadBase.newThread, hthread] at hstep

/-- A live thread stays live in a step of a thread that does not return. -/
theorem Live.newThread {thread other : ℕ} (hlive : s.Live other)
    (hstep : s.newThread thread = some after) (hnot : s.threads thread ≠ .running) :
    after.Live other := by
  cases hthread : s.threads thread with
  | starting =>
    simp only [CThreadBase.newThread, hthread, Option.some.injEq] at hstep
    subst hstep
    rcases eq_or_ne other thread with rfl | hne
    · exact .inr (Function.update_self ..)
    · simpa [Live, move, Function.update_of_ne hne] using hlive
  | running => exact absurd hthread hnot
  | unstarted | returned | joined => simp [CThreadBase.newThread, hthread] at hstep

end RdbLibs.Thread.CThreadBase
