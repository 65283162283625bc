import Mathlib.Data.Int.Notation
import Mathlib.Logic.Function.Basic
import RdbLibs.Foundations.Runs

/-!
# `event`

The class of `Src/Thread/threadUtil.cpp` where `WIN32` is not defined, under the calls of any number
of threads. A section under `m_mutex` is one step. `conditionVariable::wait` ends a section: it
releases the mutex and blocks the thread. `conditionVariable::signal` unblocks one of the threads
that are blocked, if there are any, and an unblocked thread enters a section of its own, in which it
tests `m_signaled` again. A thread can also be unblocked for no reason (`wake`). A wait with a
timeout can end at any moment, by `ETIMEDOUT` or by an error, which is an exception; neither is a
success.

The reply of a step is what the call of the thread returns there: `some true` where a wait succeeds,
`some false` where it fails, and `none` where it goes on, or where there is nothing to return.
-/

set_option autoImplicit false
set_option relaxedAutoImplicit false

namespace RdbLibs.Thread

open Runs

/-- `INFINITE`. -/
def INFINITE : ℤ := -1

/-- `event`, without its mutex and its condition variable. -/
structure Event where
  m_manualReset : Bool
  m_signaled : Bool
deriving DecidableEq

namespace Event

/-- The constructor. -/
def new (manualReset : Bool) : Event := ⟨manualReset, false⟩

/-- What a wait that succeeds makes of the event. -/
def consume (e : Event) : Event :=
  if e.m_manualReset = false then { e with m_signaled := false } else e

/-- The section of `timedWait` without a timeout. -/
def poll (e : Event) : Bool × Event :=
  let result := e.m_signaled
  (result, if e.m_signaled = true ∧ e.m_manualReset = false then { e with m_signaled := false }
    else e)

/-- `event::setEvent`, without the signal. -/
def setEvent (e : Event) : Event := { e with m_signaled := true }

/-- `event::resetEvent`. -/
def resetEvent (e : Event) : Event := { e with m_signaled := false }

end Event

/-- Where a thread is. It waits in `wait`, or in `timedWait` with a timeout; when it is unblocked,
it still has to enter its section. -/
inductive ThreadPhase
  | idle
  | blocked (timed : Bool)
  | unblocked (timed : Bool)
deriving DecidableEq

/-- Whether a thread is blocked. -/
def ThreadPhase.IsBlocked (phase : ThreadPhase) : Prop := ∃ timed, phase = .blocked timed

/-- An event and the threads that use it. -/
structure Waiting (ι : Type*) where
  event : Event
  threads : ι → ThreadPhase

/-- What a thread does next. -/
inductive EventCall (ι : Type*)
  | wait (thread : ι)
  | timedWait (thread : ι) (milliseconds : ℤ)
  | resume (thread : ι)
  | timeOut (thread : ι)
  | wake (thread : ι)
  | setEvent (thread : ι)
  | resetEvent (thread : ι)

namespace Waiting

variable {ι : Type*} [DecidableEq ι]

/-- An event that was just created, and threads that do not use it yet. -/
def new (manualReset : Bool) : Waiting ι := ⟨.new manualReset, fun _ ↦ .idle⟩

/-- A thread that moves on. -/
def move (s : Waiting ι) (thread : ι) (phase : ThreadPhase) : Waiting ι :=
  { s with threads := Function.update s.threads thread phase }

/-- The loop of `wait` and of `timedWait`, from one test of `m_signaled` to the end of the section.
-/
def test (s : Waiting ι) (thread : ι) (timed : Bool) : Option Bool × Waiting ι :=
  if s.event.m_signaled = true then
    (some true, { s.move thread .idle with event := s.event.consume })
  else (none, s.move thread (.blocked timed))

/-- `event::timedWait`, up to the end of its first section. -/
def timedWait (s : Waiting ι) (thread : ι) (milliseconds : ℤ) : Option Bool × Waiting ι :=
  if milliseconds = INFINITE then s.test thread false
  else if milliseconds = 0 then (some s.event.poll.1, { s with event := s.event.poll.2 })
  else s.test thread true

/-- A step of a thread. -/
inductive Step : Waiting ι → EventCall ι → Option Bool → Waiting ι → Prop
  | wait {s : Waiting ι} {thread : ι} : s.threads thread = .idle →
      Step s (.wait thread) (s.test thread false).1 (s.test thread false).2
  | timedWait {s : Waiting ι} {thread : ι} {milliseconds : ℤ} : s.threads thread = .idle →
      Step s (.timedWait thread milliseconds) (s.timedWait thread milliseconds).1
        (s.timedWait thread milliseconds).2
  | resume {s : Waiting ι} {thread : ι} {timed : Bool} : s.threads thread = .unblocked timed →
      Step s (.resume thread) (s.test thread timed).1 (s.test thread timed).2
  | timeOut {s : Waiting ι} {thread : ι} :
      s.threads thread = .blocked true ∨ s.threads thread = .unblocked true →
      Step s (.timeOut thread) (some false) (s.move thread .idle)
  | wake {s : Waiting ι} {thread : ι} {timed : Bool} : s.threads thread = .blocked timed →
      Step s (.wake thread) none (s.move thread (.unblocked timed))
  | setEvent {s : Waiting ι} {thread other : ι} {timed : Bool} : s.threads thread = .idle →
      s.threads other = .blocked timed →
      Step s (.setEvent thread) none
        { s.move other (.unblocked timed) with event := s.event.setEvent }
  | setEventAlone {s : Waiting ι} {thread : ι} : s.threads thread = .idle →
      (∀ other, ¬(s.threads other).IsBlocked) →
      Step s (.setEvent thread) none { s with event := s.event.setEvent }
  | resetEvent {s : Waiting ι} {thread : ι} : s.threads thread = .idle →
      Step s (.resetEvent thread) none { s with event := s.event.resetEvent }

end Waiting

end RdbLibs.Thread
