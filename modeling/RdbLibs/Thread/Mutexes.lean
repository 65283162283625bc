import RdbLibs.Thread.Event
import RdbLibs.Thread.SyncObjects

/-!
# `mutex`

The class of `Src/Thread/threadUtil.cpp` where `WIN32` is not defined, under the waits of any number
of threads: `WaitForSingleObject`, `WaitForMultipleObjects` and `ReleaseMutex`. A
`pthread_mutex_trylock` is one step, and so is a `pthread_mutex_lock`, which waits until the mutex
is free. Both find a mutex taken that their own thread has; no other error is met. A thread releases
only what it has.

A look of `WaitForMultipleObjects` is that of `SyncObjects.lean`, with nothing that happens before
it: the steps of other threads are steps of their own.
-/

set_option autoImplicit false
set_option relaxedAutoImplicit false

namespace RdbLibs.Thread

variable {ι τ : Type*} [DecidableEq ι] [DecidableEq τ]

namespace Mutex

/-- `mutex::timedLock` without a timeout. `owners` are the threads that have the mutexes. -/
def tryLock (thread : τ) (id : ι) (owners : ι → Option τ) : Bool × (ι → Option τ) :=
  if owners id = none then (true, Function.update owners id (some thread)) else (false, owners)

/-- A mutex, as an object that a thread waits for. -/
def syncObject (thread : τ) (id : ι) : Win32SyncObject (ι → Option τ) where
  syncObjectTimedWait owners :=
    let (result, owners) := tryLock thread id owners
    (some result, owners)

end Mutex

/-- The variables of `WaitForMultipleObjects` between two looks, with the rounds that are left. -/
structure MutexPolls (ι : Type*) where
  objs : List ι
  waitall : Bool
  rounds : ℕ
  oo : ℕ
  signaled : List Bool
  sig_count : ℕ

/-- Where a thread is: in `lock`, in the loop of `timedLock` with the intervals that are left, or
in `WaitForMultipleObjects`. -/
inductive MutexPhase (ι : Type*)
  | idle
  | locking (id : ι)
  | trying (id : ι) (intervals : ℕ)
  | polling (polls : MutexPolls ι)

/-- The mutexes, and the threads that wait for them. -/
structure Mutexes (ι τ : Type*) where
  owners : ι → Option τ
  threads : τ → MutexPhase ι

/-- What a thread does next. -/
inductive MutexTurn (ι : Type*)
  | waitSingle (id : ι) (milliseconds : ℤ)
  | waitMultiple (objs : List ι) (waitall : Bool) (milliseconds : ℤ)
  | release (id : ι)
  | goOn

/-- What a wait returns, with the number of mutexes that it has found. -/
structure WaitReply where
  result : ℤ
  sig_count : ℕ
deriving DecidableEq

namespace Mutexes

/-- Free mutexes. -/
def new : Mutexes ι τ := ⟨fun _ ↦ none, fun _ ↦ .idle⟩

/-- A thread that moves on. -/
def move (s : Mutexes ι τ) (thread : τ) (phase : MutexPhase ι) (owners : ι → Option τ) :
    Mutexes ι τ :=
  ⟨owners, Function.update s.threads thread phase⟩

/-- A wait that returns. -/
def returns (s : Mutexes ι τ) (thread : τ) (reply : WaitReply) (owners : ι → Option τ) :
    Option (Option WaitReply × Mutexes ι τ) :=
  some (some reply, s.move thread .idle owners)

/-- A wait that goes on. -/
def goesOn (s : Mutexes ι τ) (thread : τ) (phase : MutexPhase ι) (owners : ι → Option τ) :
    Option (Option WaitReply × Mutexes ι τ) :=
  some (none, s.move thread phase owners)

/-- The next look of `WaitForMultipleObjects`, or the start of its next round. -/
def poll (s : Mutexes ι τ) (thread : τ) (p : MutexPolls ι) :
    Option (Option WaitReply × Mutexes ι τ) :=
  if p.rounds = 0 then s.returns thread ⟨WAIT_TIMEOUT, p.sig_count⟩ s.owners
  else
    match p.objs[p.oo]? with
    | none => s.goesOn thread (.polling { p with rounds := p.rounds - 1, oo := 0 }) s.owners
    | some id =>
      let (found, q) := (⟨s.owners, p.signaled, p.sig_count, []⟩ : ObjectPolls (ι → Option τ)).look
        (fun owners ↦ owners) 0 p.oo (Mutex.syncObject thread id)
      if found = none then s.returns thread ⟨WAIT_ABANDONDED, q.sig_count⟩ q.state
      else if found = some true ∧ p.waitall = false then
        s.returns thread ⟨WAIT_OBJECT_0 + p.oo, q.sig_count⟩ q.state
      else if found = some true ∧ q.sig_count = p.objs.length then
        s.returns thread ⟨WAIT_OBJECT_0, q.sig_count⟩ q.state
      else
        s.goesOn thread
          (.polling { p with oo := p.oo + 1, signaled := q.signaled, sig_count := q.sig_count })
          q.state

/-- The next step of a wait. -/
def goOn (s : Mutexes ι τ) (thread : τ) : Option (Option WaitReply × Mutexes ι τ) :=
  match s.threads thread with
  | .idle => none
  | .locking id =>
    if s.owners id = none then
      s.returns thread ⟨WAIT_OBJECT_0, 1⟩ (Function.update s.owners id (some thread))
    else none
  | .trying id intervals =>
    match intervals with
    | 0 => s.returns thread ⟨WAIT_TIMEOUT, 0⟩ s.owners
    | intervals + 1 =>
      let (found, owners) := Mutex.tryLock thread id s.owners
      if found then s.returns thread ⟨WAIT_OBJECT_0, 1⟩ owners
      else s.goesOn thread (.trying id intervals) owners
  | .polling p => s.poll thread p

/-- Where `WaitForSingleObject` starts. A wait without a timeout tries once. -/
def single (id : ι) (milliseconds : ℤ) : MutexPhase ι :=
  if milliseconds = INFINITE then .locking id
  else if milliseconds = 0 then .trying id 1
  else .trying id (milliseconds.tdiv 100).toNat

/-- Where `WaitForMultipleObjects` starts. -/
def multiple (objs : List ι) (waitall : Bool) (milliseconds : ℤ) : MutexPhase ι :=
  .polling ⟨objs, waitall, milliseconds.toNat, 0, List.replicate objs.length false, 0⟩

/-- A step of a thread. -/
inductive Step : Mutexes ι τ → τ × MutexTurn ι → Option WaitReply → Mutexes ι τ → Prop
  | waitSingle {s : Mutexes ι τ} {thread : τ} {id : ι} {milliseconds : ℤ} :
      s.threads thread = .idle →
      Step s (thread, .waitSingle id milliseconds) none
        (s.move thread (single id milliseconds) s.owners)
  | waitMultiple {s : Mutexes ι τ} {thread : τ} {objs : List ι} {waitall : Bool}
      {milliseconds : ℤ} : s.threads thread = .idle →
      Step s (thread, .waitMultiple objs waitall milliseconds) none
        (s.move thread (multiple objs waitall milliseconds) s.owners)
  | release {s : Mutexes ι τ} {thread : τ} {id : ι} : s.threads thread = .idle →
      s.owners id = some thread →
      Step s (thread, .release id) none
        (s.move thread .idle (Function.update s.owners id none))
  | goOn {s after : Mutexes ι τ} {thread : τ} {reply : Option WaitReply} :
      s.goOn thread = some (reply, after) → Step s (thread, .goOn) reply after

end Mutexes

end RdbLibs.Thread
