import Mathlib.Logic.Function.Basic
import RdbLibs.Foundations.Runs

/-!
# `CThreadBase`

The class of `Src/Thread/ThreadBase.h` where `WINDOWS` is not defined, under the calls of any number
of callers, with the threads that it starts. A step is one access to a member. `createThread` holds
`m_startupMutex` and `stopThread` holds `m_exitMutex`, so that at most one call of each is inside
its body; `killThread` holds neither. `pthread_kill` sends the signal 0, which does nothing.

A step is a function of the state, of whose turn it is, and of what the system does. It is `none`
where it cannot be made: a join of a thread that has not returned, a dereference of a null handle.
Its reply is what a call of `createThread` returns there.
-/

set_option autoImplicit false
set_option relaxedAutoImplicit false

namespace RdbLibs.Thread

open Runs

/-- Where a thread of the object is. `newThread` first sets `m_running` and then runs `threadProc`.
-/
inductive WorkerPhase
  | unstarted
  | starting
  | running
  | returned
  | joined
deriving DecidableEq

/-- Where the call of `createThread` in the startup mutex is. -/
inductive CreatePhase
  | test
  | start
  | assign (thread : ℕ)
  | check
deriving DecidableEq

/-- Where the call of `stopThread` in the exit mutex is. -/
inductive StopPhase
  | setExitFlag (bSetExitFlag : Bool)
  | test
  | handle
  | join
  | joining (thread : ℕ)
  | clearHandle
  | clearRunning
deriving DecidableEq

/-- Where a call of `killThread` is. -/
inductive KillPhase
  | idle
  | test
  | setExitFlag
  | handle
  | native
  | clearHandle
  | clearRunning
deriving DecidableEq

/-- `CThreadBase`, its threads, and the calls that are in progress. `lost` are the threads that were
not joined when the handle was overwritten. -/
structure CThreadBase (ι : Type*) where
  m_threadHandle : Option ℕ
  m_running : Bool
  m_bThreadExitFlag : Bool
  threads : ℕ → WorkerPhase
  creating : Option CreatePhase
  stopping : Option StopPhase
  killing : ι → KillPhase
  lost : List ℕ

/-- Whose turn it is. For `createThread`, `thread` is what `new std::thread` starts, if it does not
throw. -/
inductive Turn (ι : Type*)
  | createThread (thread : Option ℕ)
  | stopThread (bSetExitFlag : Bool)
  | killThread (caller : ι)
  | newThread (thread : ℕ)

namespace CThreadBase

variable {ι : Type*} [DecidableEq ι]

/-- The constructor. -/
def new : CThreadBase ι where
  m_threadHandle := none
  m_running := false
  m_bThreadExitFlag := false
  threads _ := .unstarted
  creating := none
  stopping := none
  killing _ := .idle
  lost := []

/-- An assignment to `m_threadHandle`. -/
def setHandle (s : CThreadBase ι) (handle : Option ℕ) : CThreadBase ι :=
  { s with
    m_threadHandle := handle
    lost := match s.m_threadHandle with
      | some thread => if s.threads thread = .joined then s.lost else s.lost ++ [thread]
      | none => s.lost }

/-- A thread that moves on. -/
def move (s : CThreadBase ι) (thread : ℕ) (phase : WorkerPhase) : CThreadBase ι :=
  { s with threads := Function.update s.threads thread phase }

/-- `createThread`. -/
def createThread (s : CThreadBase ι) (thread : Option ℕ) :
    Option (Option Bool × CThreadBase ι) :=
  match s.creating with
  | none => some (none, { s with creating := some .test })
  | some .test =>
    if s.m_running = true then some (some false, { s with creating := none })
    else some (none, { s with creating := some .start })
  | some .start =>
    match thread with
    | some thread =>
      if s.threads thread = .unstarted then
        some (none, { s.move thread .starting with creating := some (.assign thread) })
      else none
    | none => some (none, { s with creating := none })
  | some (.assign thread) =>
    some (none, { s.setHandle (some thread) with creating := some .check })
  | some .check => some (some s.m_threadHandle.isSome, { s with creating := none })

/-- `stopThread`. -/
def stopThread (s : CThreadBase ι) (bSetExitFlag : Bool) : Option (CThreadBase ι) :=
  match s.stopping with
  | none => some { s with stopping := some (.setExitFlag bSetExitFlag) }
  | some (.setExitFlag bSetExitFlag) =>
    some { s with
      m_bThreadExitFlag := s.m_bThreadExitFlag || bSetExitFlag
      stopping := some .test }
  | some .test => some { s with stopping := if s.m_running = true then some .handle else none }
  | some .handle =>
    some { s with stopping := some (if s.m_threadHandle ≠ none then .join else .clearRunning) }
  | some .join => s.m_threadHandle.map fun thread ↦ { s with stopping := some (.joining thread) }
  | some (.joining thread) =>
    if s.threads thread = .returned then
      some { s.move thread .joined with stopping := some .clearHandle }
    else none
  | some .clearHandle => some { s.setHandle none with stopping := some .clearRunning }
  | some .clearRunning => some { s with m_running := false, stopping := none }

/-- A call of `killThread` that moves on. -/
def moveKill (s : CThreadBase ι) (caller : ι) (phase : KillPhase) : CThreadBase ι :=
  { s with killing := Function.update s.killing caller phase }

/-- `killThread`. -/
def killThread (s : CThreadBase ι) (caller : ι) : Option (CThreadBase ι) :=
  match s.killing caller with
  | .idle => some (s.moveKill caller .test)
  | .test => some (s.moveKill caller (if s.m_running = true then .setExitFlag else .idle))
  | .setExitFlag => some { s.moveKill caller .handle with m_bThreadExitFlag := true }
  | .handle =>
    some (s.moveKill caller (if s.m_threadHandle ≠ none then .native else .clearRunning))
  | .native => if s.m_threadHandle ≠ none then some (s.moveKill caller .clearHandle) else none
  | .clearHandle => some ((s.setHandle none).moveKill caller .clearRunning)
  | .clearRunning => some { s.moveKill caller .idle with m_running := false }

/-- `newThread`, in a thread of its own. -/
def newThread (s : CThreadBase ι) (thread : ℕ) : Option (CThreadBase ι) :=
  match s.threads thread with
  | .starting => some { s.move thread .running with m_running := true }
  | .running => some (s.move thread .returned)
  | _ => none

/-- A step, by whose turn it is. -/
def turn (s : CThreadBase ι) : Turn ι → Option (Option Bool × CThreadBase ι)
  | .createThread thread => s.createThread thread
  | .stopThread bSetExitFlag => (s.stopThread bSetExitFlag).map (none, ·)
  | .killThread caller => (s.killThread caller).map (none, ·)
  | .newThread thread => (s.newThread thread).map (none, ·)

/-- The steps of the object, its callers and its threads. -/
def Step (s : CThreadBase ι) (whose : Turn ι) (reply : Option Bool) (after : CThreadBase ι) :
    Prop := s.turn whose = some (reply, after)

end CThreadBase

end RdbLibs.Thread
