import RdbLibs.Thread.Event

/-!
# Auto-reset events

An auto-reset event never releases more waiters than it was set. The signal is the potential of the
event: a wait that succeeds takes it away, and only `setEvent` puts it there.
-/

set_option autoImplicit false
set_option relaxedAutoImplicit false

namespace RdbLibs.Thread

open Runs

variable {ι : Type*} [DecidableEq ι]

/-- Whether a wait succeeds at a step. -/
def succeeds (call : Call (Waiting ι) (EventCall ι) (Option Bool)) : Bool :=
  call.reply == some true

/-- Whether a step is a call of `setEvent`. -/
def sets (call : Call (Waiting ι) (EventCall ι) (Option Bool)) : Bool :=
  match call.label with
  | .setEvent _ => true
  | _ => false

namespace Waiting

/-- The signal of an auto-reset event can be taken once. -/
def signal (s : Waiting ι) : ℕ := s.event.m_signaled.toNat

/-- A test of an auto-reset event takes the signal where it succeeds. -/
theorem account_test {s : Waiting ι} (hauto : s.event.m_manualReset = false) (thread : ι)
    (timed : Bool) :
    ((s.test thread timed).1 == some true).toNat + (s.test thread timed).2.signal = s.signal ∧
      (s.test thread timed).2.event.m_manualReset = false := by
  rw [test]
  cases hsignaled : s.event.m_signaled <;>
    simp [signal, move, Event.consume, hsignaled, hauto]

/-- So does a call of `timedWait`, with any timeout. -/
theorem account_timedWait {s : Waiting ι} (hauto : s.event.m_manualReset = false) (thread : ι)
    (milliseconds : ℤ) :
    ((s.timedWait thread milliseconds).1 == some true).toNat +
        (s.timedWait thread milliseconds).2.signal = s.signal ∧
      (s.timedWait thread milliseconds).2.event.m_manualReset = false := by
  rw [timedWait]
  split_ifs
  · exact account_test hauto thread false
  · cases hsignaled : s.event.m_signaled <;> simp [signal, Event.poll, hsignaled, hauto]
  · exact account_test hauto thread true

/-- A step takes the signal where it succeeds, and `setEvent` puts one there. -/
theorem account_step {s after : Waiting ι} {call : EventCall ι} {reply : Option Bool}
    (hauto : s.event.m_manualReset = false) (hstep : Step s call reply after) :
    (succeeds ⟨s, call, reply⟩).toNat + after.signal ≤ (sets ⟨s, call, reply⟩).toNat + s.signal ∧
      after.event.m_manualReset = false := by
  cases hstep with
  | wait hidle => simpa [succeeds, sets] using (account_test hauto _ _).imp_left Nat.le_of_eq
  | timedWait hidle =>
    simpa [succeeds, sets] using (account_timedWait hauto _ _).imp_left Nat.le_of_eq
  | resume hunblocked => simpa [succeeds, sets] using (account_test hauto _ _).imp_left Nat.le_of_eq
  | timeOut htimed => exact ⟨by simp [succeeds, sets, move, signal], hauto⟩
  | wake hblocked => exact ⟨by simp [succeeds, sets, move, signal], hauto⟩
  | setEvent hidle hblocked =>
    exact ⟨by simp [succeeds, sets, signal, Event.setEvent], hauto⟩
  | setEventAlone hidle hnone => exact ⟨by simp [succeeds, sets, signal, Event.setEvent], hauto⟩
  | resetEvent hidle => exact ⟨by simp [succeeds, sets, signal, Event.resetEvent], hauto⟩

/-- An auto-reset event that was created unsignaled: the waits that have succeeded, and the signal
if there is one, are at most the calls of `setEvent`. -/
theorem successes_le_setEvents
    {trace : List (Call (Waiting ι) (EventCall ι) (Option Bool))} {final : Waiting ι}
    (hrun : Run Step (new false) trace final) :
    trace.countP succeeds + (if final.event.m_signaled = true then 1 else 0) ≤
      trace.countP sets := by
  have haccount := hrun.account (fun s ↦ s.event.m_manualReset = false) signal succeeds sets
    (fun _ _ _ _ hauto hstep ↦ (account_step hauto hstep).2)
    (fun _ _ _ _ hauto hstep ↦ (account_step hauto hstep).1) rfl
  have hsignal : final.signal = if final.event.m_signaled = true then 1 else 0 := by
    rw [signal]
    cases final.event.m_signaled <;> rfl
  rwa [← hsignal]

/-- A thread waits, another one sets the event, the first is released, and waits again. -/
theorem successes_le_setEvents_two : ∃ trace final,
    Run (Step (ι := ℕ)) (new false) trace final ∧
    trace.map Call.reply = [none, none, some true, none] ∧
    trace.countP succeeds + (if final.event.m_signaled = true then 1 else 0) ≤
      trace.countP sets := by
  have hwait : Step (ι := ℕ) (new false) (.wait 0) none ((new false).move 0 (.blocked false)) :=
    .wait rfl
  have hset := @Step.setEvent ℕ _ ((new false).move 0 (.blocked false)) 1 0 false rfl rfl
  have hsucceed := @Step.resume ℕ _
    { ((new false).move 0 (.blocked false)).move 0 (.unblocked false) with
      event := ⟨false, true⟩ } 0 false rfl
  have hagain := @Step.wait ℕ _ (test (ι := ℕ)
    { ((new false).move 0 (.blocked false)).move 0 (.unblocked false) with
      event := ⟨false, true⟩ } 0 false).2 0 rfl
  have hrun := Run.cons hwait (.cons hset (.cons hsucceed (.cons hagain (.nil _))))
  exact ⟨_, _, hrun, rfl, successes_le_setEvents hrun⟩

end Waiting

end RdbLibs.Thread
