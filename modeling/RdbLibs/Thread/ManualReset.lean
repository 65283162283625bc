import Mathlib.Data.Set.Finite.Basic
import Mathlib.Tactic.FinCases
import RdbLibs.Thread.Event

/-!
# Manual-reset events

A manual-reset event should release every waiter when it is set. `setEvent` signals its condition
variable and so unblocks one waiter; nothing unblocks the others while the event stays set. A state
in which all threads that are not blocked have come to rest, while the event is set and a thread is
blocked, is `Stranded`. The runs that lead to no such state are those whose calls of `setEvent` find
at most one thread blocked.
-/

set_option autoImplicit false
set_option relaxedAutoImplicit false

namespace RdbLibs.Thread

open Runs

variable {ι : Type*} [DecidableEq ι]

namespace EventCall

/-- The steps of `wait`, `setEvent` and `resetEvent`, without an unblocking for no reason. -/
def IsPlain : EventCall ι → Prop
  | .wait _ => True
  | .resume _ => True
  | .setEvent _ => True
  | .resetEvent _ => True
  | _ => False

/-- The steps of threads that were unblocked. -/
def IsResume : EventCall ι → Prop
  | .resume _ => True
  | _ => False

end EventCall

namespace Waiting

/-- The threads that are blocked. -/
def blocked (s : Waiting ι) : Set ι := {thread | (s.threads thread).IsBlocked}

/-- The event is set and a thread is blocked, and all others are idle. -/
def Stranded (s : Waiting ι) : Prop :=
  s.event.m_signaled = true ∧ s.blocked.Nonempty ∧
    ∀ thread, s.threads thread = .idle ∨ (s.threads thread).IsBlocked

/-- Whatever the unblocked threads do, no waiter is left behind a set event. -/
def Releases (s : Waiting ι) : Prop :=
  ∀ trace final, Run Step s trace final → (∀ call ∈ trace, call.label.IsResume) → ¬final.Stranded

/-- A step of `wait`, `setEvent` or `resetEvent`. -/
def PlainStep (s : Waiting ι) (call : EventCall ι) (reply : Option Bool) (after : Waiting ι) :
    Prop := call.IsPlain ∧ Step s call reply after

/-- A call of `setEvent` finds at most one thread blocked. -/
def SetsFew (call : Call (Waiting ι) (EventCall ι) (Option Bool)) : Prop :=
  ∀ thread, call.label = .setEvent thread → call.before.blocked.Subsingleton

/-- No thread is blocked while the event is set. -/
def Settled (s : Waiting ι) : Prop := s.event.m_signaled = true → s.blocked = ∅

/-- What every step keeps of a manual-reset event: a finite number of threads use it. -/
structure Bounded (s : Waiting ι) : Prop where
  manual : s.event.m_manualReset = true
  finite : {thread | s.threads thread ≠ .idle}.Finite

/-! ### Threads that move -/

section Move

variable {s : Waiting ι} {thread : ι}

@[simp] theorem event_move (phase : ThreadPhase) : (s.move thread phase).event = s.event := rfl

theorem threads_move_self (phase : ThreadPhase) : (s.move thread phase).threads thread = phase :=
  Function.update_self ..

theorem threads_move_of_ne {other : ι} (hne : other ≠ thread) (phase : ThreadPhase) :
    (s.move thread phase).threads other = s.threads other := Function.update_of_ne hne ..

theorem blocked_move_of_not {phase : ThreadPhase} (hphase : ¬phase.IsBlocked) :
    (s.move thread phase).blocked = s.blocked \ {thread} := by
  ext other
  by_cases hother : other = thread
  · simp [blocked, hother, threads_move_self, hphase]
  · simp [blocked, hother, threads_move_of_ne hother]

theorem finite_move (hfinite : {thread | s.threads thread ≠ .idle}.Finite) (phase : ThreadPhase) :
    {other | (s.move thread phase).threads other ≠ .idle}.Finite := by
  refine (hfinite.insert thread).subset fun other hother ↦ ?_
  by_cases hsame : other = thread
  · exact .inl hsame
  · rw [Set.mem_ofPred_eq, threads_move_of_ne hsame] at hother
    exact .inr hother

theorem not_isBlocked_idle : ¬ThreadPhase.idle.IsBlocked := nofun

theorem not_isBlocked_unblocked (timed : Bool) : ¬(ThreadPhase.unblocked timed).IsBlocked := nofun

end Move

/-! ### Steps -/

section Steps

variable {s : Waiting ι} {thread : ι} (hs : s.Bounded)
include hs

omit [DecidableEq ι] in
theorem Bounded.consume : s.event.consume = s.event := by
  rw [Event.consume, hs.manual]
  exact if_neg Bool.noConfusion

theorem Bounded.test (thread : ι) (timed : Bool) : (s.test thread timed).2.Bounded := by
  rw [Waiting.test]
  split_ifs
  · refine ⟨?_, finite_move hs.finite .idle⟩
    rw [hs.consume]
    exact hs.manual
  · exact ⟨hs.manual, finite_move hs.finite (.blocked timed)⟩

omit hs in
/-- A thread that tests the event is released where it is set, and blocked where it is not. -/
theorem settled_test (hsettled : s.Settled) (timed : Bool) :
    (s.test thread timed).2.Settled := by
  rw [Waiting.test]
  split_ifs with hsignaled
  · intro _
    show (s.move thread .idle).blocked = ∅
    rw [blocked_move_of_not not_isBlocked_idle, hsettled hsignaled, Set.empty_sdiff]
  · exact fun h ↦ absurd h hsignaled

theorem Bounded.step {call : EventCall ι} {reply : Option Bool} {after : Waiting ι}
    (hstep : PlainStep s call reply after) : after.Bounded := by
  obtain ⟨hplain, hstep⟩ := hstep
  cases hstep with
  | wait hidle => exact hs.test _ false
  | timedWait hidle => exact hplain.elim
  | resume hunblocked => exact hs.test _ _
  | timeOut htimed => exact hplain.elim
  | wake hblocked => exact hplain.elim
  | setEvent hidle hblocked => exact ⟨hs.manual, finite_move hs.finite _⟩
  | setEventAlone hidle hnone => exact ⟨hs.manual, hs.finite⟩
  | resetEvent hidle => exact ⟨hs.manual, hs.finite⟩

omit hs in
/-- Where no thread is blocked while the event is set, a step keeps it so exactly if it is no call
of `setEvent` that finds several threads blocked. -/
theorem settled_step_iff (hsettled : s.Settled) {call : EventCall ι} {reply : Option Bool}
    {after : Waiting ι} (hstep : PlainStep s call reply after) :
    after.Settled ↔ SetsFew ⟨s, call, reply⟩ := by
  obtain ⟨hplain, hstep⟩ := hstep
  cases hstep with
  | wait hidle => exact iff_of_true (settled_test hsettled false) nofun
  | timedWait hidle => exact hplain.elim
  | resume hunblocked => exact iff_of_true (settled_test hsettled _) nofun
  | timeOut htimed => exact hplain.elim
  | wake hblocked => exact hplain.elim
  | @setEvent thread other timed hidle hblocked =>
    have hother : other ∈ s.blocked := ⟨timed, hblocked⟩
    have hafter : (s.move other (.unblocked timed)).blocked = ∅ ↔ s.blocked.Subsingleton := by
      rw [blocked_move_of_not (not_isBlocked_unblocked timed), Set.sdiff_eq_empty]
      exact ⟨Set.subsingleton_singleton.anti, fun h waiter hwaiter ↦ h hwaiter hother⟩
    exact ⟨fun h _ _ ↦ hafter.mp (h rfl), fun h _ ↦ hafter.mpr (h thread rfl)⟩
  | setEventAlone hidle hnone =>
    have hempty : s.blocked = ∅ := Set.eq_empty_of_forall_notMem hnone
    exact iff_of_true (fun _ ↦ hempty) fun _ _ ↦ hempty ▸ Set.subsingleton_empty
  | resetEvent hidle => exact iff_of_true (fun h ↦ Bool.noConfusion h) nofun

omit hs in
/-- Threads that were unblocked strand no waiter of an event that is settled. -/
theorem Settled.releases (hsettled : s.Settled) : s.Releases := by
  intro trace final hrun hresume hstranded
  have hfinal : final.Settled := by
    refine hrun.invariant Settled EventCall.IsResume
      (fun before call reply after hcall h hstep ↦ ?_) hresume hsettled
    cases hstep with
    | resume hunblocked => exact settled_test h _
    | wait | timedWait | timeOut | wake | setEvent | setEventAlone | resetEvent => exact hcall.elim
  obtain ⟨hsignaled, hblocked, -⟩ := hstranded
  exact hblocked.ne_empty (hfinal hsignaled)

/-- What a released thread leaves. -/
theorem Bounded.test_signaled (hsignaled : s.event.m_signaled = true) (thread : ι) (timed : Bool) :
    s.test thread timed = (some true, s.move thread .idle) := by
  rw [Waiting.test, if_pos hsignaled, hs.consume]
  rfl

omit hs in
/-- A thread that is not at rest was unblocked. -/
theorem exists_unblocked {phase : ThreadPhase} (hmoves : ¬(phase = .idle ∨ phase.IsBlocked)) :
    ∃ timed, phase = .unblocked timed := by
  cases phase with
  | idle => exact absurd (.inl rfl) hmoves
  | blocked timed => exact absurd (.inr ⟨timed, rfl⟩) hmoves
  | unblocked timed => exact ⟨timed, rfl⟩

omit hs in
/-- The waiters are still blocked when an unblocked thread leaves. -/
theorem blocked_move_idle {thread : ι} {timed : Bool}
    (hphase : s.threads thread = .unblocked timed) (hblocked : s.blocked.Nonempty) :
    (s.move thread .idle).blocked.Nonempty := by
  obtain ⟨waiter, hwaiter⟩ := hblocked
  refine ⟨waiter, ?_⟩
  rw [blocked_move_of_not not_isBlocked_idle]
  refine ⟨hwaiter, ?_⟩
  rintro rfl
  obtain ⟨_, hwaits⟩ := hwaiter
  exact ThreadPhase.noConfusion (hphase.symm.trans hwaits)

omit hs in
/-- Assumes: the event is set while a thread is blocked, and all threads but some are idle or
blocked. When the others have come to rest, a waiter is stranded. -/
theorem Bounded.not_releases (moving : Finset ι) : ∀ {s : Waiting ι}, s.Bounded →
    s.event.m_signaled = true → s.blocked.Nonempty →
    (∀ thread, thread ∉ moving → s.threads thread = .idle ∨ (s.threads thread).IsBlocked) →
    ¬s.Releases := by
  induction moving using Finset.induction with
  | empty =>
    intro s hs hsignaled hblocked hrest hreleases
    have hstranded : s.Stranded :=
      ⟨hsignaled, hblocked, fun thread ↦ hrest thread (Finset.notMem_empty thread)⟩
    exact hreleases [] s (.nil s) nofun hstranded
  | insert thread moving hthread ih =>
    intro s hs hsignaled hblocked hrest hreleases
    by_cases hrests : s.threads thread = .idle ∨ (s.threads thread).IsBlocked
    · refine ih hs hsignaled hblocked (fun other hother ↦ ?_) hreleases
      by_cases hsame : other = thread
      · exact hsame ▸ hrests
      · exact hrest other (by simp [hsame, hother])
    · obtain ⟨timed, hphase⟩ := exists_unblocked hrests
      have hstep : Step s (.resume thread) (some true) (s.move thread .idle) := by
        have := Step.resume hphase
        rwa [hs.test_signaled hsignaled] at this
      have hafter : (s.move thread .idle).Bounded := ⟨hs.manual, finite_move hs.finite .idle⟩
      refine ih hafter hsignaled (blocked_move_idle hphase hblocked) (fun other hother ↦ ?_)
        fun trace final hrun hresume ↦
          hreleases _ final (.cons hstep hrun) (List.forall_mem_cons.mpr ⟨trivial, hresume⟩)
      by_cases hsame : other = thread
      · rw [hsame, threads_move_self]
        exact .inl rfl
      · rw [threads_move_of_ne hsame]
        exact hrest other (by simp [hsame, hother])

/-- An event is settled exactly where no waiter can be left behind. -/
theorem Bounded.settled_iff : s.Settled ↔ s.Releases := by
  refine ⟨Settled.releases, fun hreleases hsignaled ↦ ?_⟩
  by_contra hblocked
  refine Bounded.not_releases hs.finite.toFinset hs hsignaled
    (Set.nonempty_iff_ne_empty.mpr hblocked) (fun thread hthread ↦ .inl ?_) hreleases
  simpa using hthread

end Steps

/-- A manual-reset event leaves no waiter behind, in any state of a run or afterwards, exactly where
every call of `setEvent` finds at most one thread blocked. -/
theorem releases_iff {trace : List (Call (Waiting ι) (EventCall ι) (Option Bool))}
    {final : Waiting ι} (hrun : Run PlainStep (new true) trace final) :
    ((∀ call ∈ trace, call.before.Releases) ∧ final.Releases) ↔ ∀ call ∈ trace, SetsFew call := by
  have hnew : (new true : Waiting ι).Bounded := ⟨rfl, by simp [new]⟩
  have hbounded := hrun.forall_calls (P := fun call ↦ call.before.Bounded) Bounded
    (fun _ _ _ _ hs hstep ↦ hs.step hstep) (fun _ _ _ _ hs _ ↦ hs) hnew
  have hfinal := hrun.invariant Bounded (fun _ ↦ True)
    (fun _ _ _ _ _ hs hstep ↦ hs.step hstep) (fun _ _ ↦ trivial) hnew
  have hgood := hrun.good_iff Bounded Settled
    (fun _ _ _ _ hs hstep ↦ hs.step hstep)
    (fun _ _ _ _ _ hsettled hstep ↦ settled_step_iff hsettled hstep) hnew
    (fun h ↦ Bool.noConfusion h)
  rw [← hgood, ← hfinal.settled_iff]
  refine and_congr_left' ?_
  exact forall₂_congr fun call hcall ↦ (hbounded call hcall).settled_iff.symm

/-- One waiter, and an event that is set once. -/
theorem releases_iff_one : ∃ trace final, Run (PlainStep (ι := ℕ)) (new true) trace final ∧
    (((∀ call ∈ trace, call.before.Releases) ∧ final.Releases) ↔
      ∀ call ∈ trace, SetsFew call) := by
  have hwait : PlainStep (ι := ℕ) (new true) (.wait 0) none ((new true).move 0 (.blocked false)) :=
    ⟨trivial, .wait rfl⟩
  have hset : PlainStep (ι := ℕ) ((new true).move 0 (.blocked false)) (.setEvent 1) none _ :=
    ⟨trivial, @Step.setEvent ℕ _ _ 1 0 false rfl rfl⟩
  exact ⟨_, _, .cons hwait (.cons hset (.nil _)), releases_iff (.cons hwait (.cons hset (.nil _)))⟩

/-- Two threads wait, and the event is set once: one of them waits on. -/
theorem exists_stranded : ∃ trace final,
    Run (PlainStep (ι := Fin 3)) (new true) trace final ∧ final.Stranded := by
  refine Run.exists_cons (EventCall.wait 0) ⟨trivial, Step.wait rfl⟩ ?_
  refine Run.exists_cons (EventCall.wait 1) ⟨trivial, Step.wait rfl⟩ ?_
  refine Run.exists_cons (EventCall.setEvent 2)
    ⟨trivial, @Step.setEvent (Fin 3) _ _ 2 0 false rfl rfl⟩ ?_
  refine Run.exists_cons (EventCall.resume 0)
    ⟨trivial, @Step.resume (Fin 3) _ _ 0 false rfl⟩ ?_
  refine ⟨[], _, .nil _, rfl, ⟨1, false, rfl⟩, fun thread ↦ ?_⟩
  fin_cases thread
  · exact .inl rfl
  · exact .inr ⟨false, rfl⟩
  · exact .inl rfl

end Waiting

end RdbLibs.Thread
