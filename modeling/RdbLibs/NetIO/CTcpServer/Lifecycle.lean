import RdbLibs.Foundations.ObjectLifetimes
import RdbLibs.Foundations.Runs

/-!
# The life cycle of the class `CTcpServer`

`CTcpServer::start` and `CTcpServer::stop` of `Src/NetIO/CServerIO.cpp`, with the endpoint and the
acceptor that they own through two pointers. `stop` deletes the acceptor and leaves its pointer,
and `start` deletes what that pointer points to: a server that was stopped cannot be started again.
When the constructor of the acceptor throws, for a port that is taken, the handler of `start` looks
at the pointer that was not set, and leaves the endpoint.
-/

set_option autoImplicit false
set_option relaxedAutoImplicit false

namespace RdbLibs.NetIO.CTcpServer

open ObjectLifetimes Runs

/-- What `new` does. -/
inductive Construction
  | constructed
  | null
  | throws
deriving DecidableEq

/-- What `createThread` does. -/
inductive ThreadCreation
  | created
  | refused
  | throws
deriving DecidableEq

/-- What the functions do that `start` calls. The flags say which of them throw; the options
`keep_alive` and `no_delay` are set when `m_bTcpNoDelay` is. -/
structure StartOutcome where
  endpoint : Construction
  acceptor : Construction
  optionThrows : Bool
  m_bTcpNoDelay : Bool
  keepAliveThrows : Bool
  noDelayThrows : Bool
  acceptThrows : Bool
  thread : ThreadCreation

/-- The members that `start` and `stop` change, with the heap. -/
structure Lifecycle where
  m_bRunning : Bool
  m_pEndpoint : Option ℕ
  m_pAcceptor : Option ℕ
  heap : Heap

namespace Lifecycle

/-- The members as the constructor sets them. -/
def new : Lifecycle := ⟨false, none, none, .empty⟩

/-- Deletes the acceptor and leaves its pointer. -/
def deleteAcceptor (s : Lifecycle) : Lifecycle := { s with heap := s.heap.delete s.m_pAcceptor }

/-- Deletes the acceptor and the endpoint, and clears the pointers. -/
def release (s : Lifecycle) : Lifecycle :=
  { s with
    m_pEndpoint := none
    m_pAcceptor := none
    heap := (s.heap.delete s.m_pAcceptor).delete s.m_pEndpoint }

/-- The handler of exceptions of `start`. -/
def handleException (s : Lifecycle) : Lifecycle :=
  if s.m_pAcceptor.isSome then s.release else s

def newEndpoint (s : Lifecycle) : Lifecycle :=
  { s with m_pEndpoint := some s.heap.next, heap := s.heap.create }

def newAcceptor (s : Lifecycle) : Lifecycle :=
  { s with m_pAcceptor := some s.heap.next, heap := s.heap.create }

/-- The constructor of the acceptor reads the endpoint. -/
def useEndpoint (s : Lifecycle) : Lifecycle := { s with heap := s.heap.use s.m_pEndpoint }

def useAcceptor (s : Lifecycle) : Lifecycle := { s with heap := s.heap.use s.m_pAcceptor }

/-- Calls of functions of the acceptor, up to the first one that throws. -/
def callAcceptor (s : Lifecycle) : List Bool → Bool × Lifecycle
  | [] => (true, s)
  | throws :: rest =>
    if throws then (false, s.useAcceptor.handleException) else s.useAcceptor.callAcceptor rest

/-- The calls that `start` makes of functions of the acceptor: the options, and `async_accept`. -/
def acceptorCalls (o : StartOutcome) : List Bool :=
  o.optionThrows :: (if o.m_bTcpNoDelay then [o.keepAliveThrows, o.noDelayThrows] else []) ++
    [o.acceptThrows]

/-- The part of `start` behind the construction of the acceptor. -/
def finishStart (s : Lifecycle) (o : StartOutcome) : Bool × Lifecycle :=
  match s.callAcceptor (acceptorCalls o) with
  | (false, s) => (false, s)
  | (true, s) =>
    match o.thread with
    | .created => (true, { s with m_bRunning := true })
    | .refused => (false, s.release)
    | .throws => (false, s.handleException)

/-- `CTcpServer::start`. -/
def start (s : Lifecycle) (o : StartOutcome) : Bool × Lifecycle :=
  if s.m_bRunning then (false, s)
  else
    let s := if s.m_pAcceptor.isSome then s.deleteAcceptor else s
    match o.endpoint with
    | .throws => (false, s.handleException)
    | .null => (false, { s with m_pEndpoint := none })
    | .constructed =>
      let s := s.newEndpoint.useEndpoint
      match o.acceptor with
      | .throws => (false, s.handleException)
      | .null => (false, { s with
          m_pEndpoint := none, m_pAcceptor := none, heap := s.heap.delete s.m_pEndpoint })
      | .constructed => s.newAcceptor.finishStart o

/-- `CTcpServer::stop`. `throws` is whether the context or the thread throws an exception when it is
stopped. -/
def stop (s : Lifecycle) (throws : Bool) : Bool × Lifecycle :=
  if s.m_bRunning = false then (true, s)
  else if throws then (false, s)
  else
    let s := if s.m_pAcceptor.isSome then s.deleteAcceptor else s
    (true, { s with m_bRunning := false })

end Lifecycle

/-! ### Sequences of calls -/

inductive LifecycleCall
  | start (o : StartOutcome)
  | stop (throws : Bool)

/-- What a call answers, with the pointers that it leaves. -/
structure LifecycleReply where
  result : Bool
  m_pEndpoint : Option ℕ
  m_pAcceptor : Option ℕ

/-- What a server makes of a call. -/
def Lifecycle.answer (s : Lifecycle) : LifecycleCall → Bool × Lifecycle
  | .start o => s.start o
  | .stop throws => s.stop throws

def LifecycleStep (before : Lifecycle) (call : LifecycleCall) (reply : LifecycleReply)
    (after : Lifecycle) : Prop :=
  after = (before.answer call).2 ∧
    reply = ⟨(before.answer call).1, after.m_pEndpoint, after.m_pAcceptor⟩

/-- After a call of `start` that answers `false`, both pointers are null. -/
def ReleasesOnFailure (call : Call Lifecycle LifecycleCall LifecycleReply) : Prop :=
  ∀ o, call.label = .start o → call.reply.result = false →
    call.reply.m_pEndpoint = none ∧ call.reply.m_pAcceptor = none

/-- The condition on a call of `start`: the server is neither running nor has it been stopped, and
the constructor of the acceptor does not throw. -/
def StartsClean (s : Lifecycle) : LifecycleCall → Prop
  | .start o => s.m_bRunning = false ∧ s.m_pAcceptor = none ∧
      ¬(o.endpoint = .constructed ∧ o.acceptor = .throws)
  | .stop _ => True

namespace Lifecycle

variable {s : Lifecycle} {o : StartOutcome}

/-- Both objects are there, and no other pointer points to them. -/
structure Owns (s : Lifecycle) : Prop where
  sound : s.heap.Sound
  objects : ∃ acceptor endpoint, s.m_pAcceptor = some acceptor ∧ s.m_pEndpoint = some endpoint ∧
    acceptor ≠ endpoint ∧ s.heap.Live acceptor ∧ s.heap.Live endpoint

/-- There are no objects. -/
structure Idle (s : Lifecycle) : Prop where
  sound : s.heap.Sound
  stopped : s.m_bRunning = false
  acceptor : s.m_pAcceptor = none
  endpoint : s.m_pEndpoint = none

/-- The acceptor was deleted, and its pointer is still there. -/
structure Dangling (s : Lifecycle) : Prop where
  sound : s.heap.Sound
  stopped : s.m_bRunning = false
  acceptor : ∃ acceptor, s.m_pAcceptor = some acceptor ∧ Event.deleted acceptor ∈ s.heap.events

/-- What holds of a server as long as all calls meet the condition. -/
def Consistent (s : Lifecycle) : Prop := s.Idle ∨ (s.m_bRunning = true ∧ s.Owns) ∨ s.Dangling

theorem idle_new : Idle new := ⟨Heap.sound_empty, rfl, rfl, rfl⟩

theorem Consistent.safe (h : s.Consistent) : s.heap.Safe := by
  rcases h with h | ⟨-, h⟩ | h
  · exact h.sound.safe
  · exact h.sound.safe
  · exact h.sound.safe

/-! ### `start` -/

theorem Owns.useAcceptor (h : s.Owns) : s.useAcceptor.Owns := by
  obtain ⟨acceptor, endpoint, hacceptor, hendpoint, hne, hlive, hlive'⟩ := h.objects
  refine ⟨?_, acceptor, endpoint, hacceptor, hendpoint, hne, hlive.use _, hlive'.use _⟩
  unfold Lifecycle.useAcceptor
  rw [hacceptor]
  exact h.sound.use hlive

theorem Owns.release (h : s.Owns) (hstopped : s.m_bRunning = false) : s.release.Idle := by
  obtain ⟨acceptor, endpoint, hacceptor, hendpoint, hne, hlive, hlive'⟩ := h.objects
  refine ⟨?_, hstopped, rfl, rfl⟩
  unfold Lifecycle.release
  rw [hacceptor, hendpoint]
  exact (h.sound.delete hlive).delete (hlive'.delete hne.symm)

theorem Owns.handleException (h : s.Owns) (hstopped : s.m_bRunning = false) :
    s.handleException.Idle := by
  obtain ⟨acceptor, endpoint, hacceptor, -⟩ := h.objects
  rw [Lifecycle.handleException, hacceptor, Option.isSome_some, if_pos rfl]
  exact h.release hstopped

/-- The calls of functions of the acceptor leave both objects, or none when one of them throws. -/
theorem Owns.callAcceptor (calls : List Bool) : ∀ {s : Lifecycle}, s.Owns → s.m_bRunning = false →
    ((s.callAcceptor calls).1 = true ∧ (s.callAcceptor calls).2.Owns ∧
        (s.callAcceptor calls).2.m_bRunning = false) ∨
      ((s.callAcceptor calls).1 = false ∧ (s.callAcceptor calls).2.Idle) := by
  induction calls with
  | nil => exact fun h hstopped ↦ .inl ⟨rfl, h, hstopped⟩
  | cons throws calls ih =>
    intro s h hstopped
    rw [Lifecycle.callAcceptor]
    cases throws with
    | true => exact .inr ⟨rfl, h.useAcceptor.handleException hstopped⟩
    | false => exact ih h.useAcceptor hstopped

theorem Owns.finishStart (h : s.Owns) (hstopped : s.m_bRunning = false) (o : StartOutcome) :
    ((s.finishStart o).1 = true ∧ (s.finishStart o).2.m_bRunning = true ∧
        (s.finishStart o).2.Owns) ∨
      ((s.finishStart o).1 = false ∧ (s.finishStart o).2.Idle) := by
  unfold Lifecycle.finishStart
  rcases h.callAcceptor (acceptorCalls o) hstopped with ⟨hcalls, howns, hstopped'⟩ | ⟨hcalls, hidle⟩
  · generalize s.callAcceptor (acceptorCalls o) = called at hcalls howns hstopped' ⊢
    obtain ⟨result, after⟩ := called
    obtain rfl : result = true := hcalls
    dsimp only
    cases o.thread with
    | created => exact .inl ⟨rfl, rfl, howns.sound, howns.objects⟩
    | refused => exact .inr ⟨rfl, howns.release hstopped'⟩
    | throws => exact .inr ⟨rfl, howns.handleException hstopped'⟩
  · generalize s.callAcceptor (acceptorCalls o) = called at hcalls hidle ⊢
    obtain ⟨result, after⟩ := called
    obtain rfl : result = false := hcalls
    exact .inr ⟨rfl, hidle⟩

/-- A clean start leaves a running server with both objects, or no objects. -/
theorem Idle.start (h : s.Idle)
    (hconstructor : ¬(o.endpoint = .constructed ∧ o.acceptor = .throws)) :
    ((s.start o).1 = true ∧ (s.start o).2.m_bRunning = true ∧ (s.start o).2.Owns) ∨
      ((s.start o).1 = false ∧ (s.start o).2.Idle) := by
  have hsome : ¬s.m_pAcceptor.isSome = true := by
    rw [h.acceptor]
    exact Bool.false_ne_true
  unfold Lifecycle.start
  rw [h.stopped, if_neg Bool.false_ne_true, if_neg hsome]
  dsimp only
  cases hendpoint : o.endpoint with
  | throws =>
    rw [Lifecycle.handleException, if_neg hsome]
    exact .inr ⟨rfl, h⟩
  | null => exact .inr ⟨rfl, h.sound, h.stopped, h.acceptor, rfl⟩
  | constructed =>
    have hlive : (s.heap.create.use (some s.heap.next)).Live s.heap.next :=
      h.sound.live_create.use _
    have hsound : (s.heap.create.use (some s.heap.next)).Sound :=
      h.sound.create.use h.sound.live_create
    cases hacceptor : o.acceptor with
    | throws => exact absurd ⟨hendpoint, hacceptor⟩ hconstructor
    | null => exact .inr ⟨rfl, hsound.delete hlive, h.stopped, rfl, rfl⟩
    | constructed =>
      have howns : s.newEndpoint.useEndpoint.newAcceptor.Owns :=
        ⟨hsound.create, s.heap.next + 1, s.heap.next, rfl, rfl, Nat.succ_ne_self s.heap.next,
          hsound.live_create, hlive.create⟩
      exact howns.finishStart h.stopped o

/-! ### What is not undone -/

theorem prefix_release (s : Lifecycle) : s.heap.events <+: s.release.heap.events :=
  (Heap.prefix_delete ..).trans (Heap.prefix_delete ..)

theorem prefix_handleException (s : Lifecycle) :
    s.heap.events <+: s.handleException.heap.events := by
  unfold handleException
  split_ifs
  · exact s.prefix_release
  · exact List.prefix_rfl

theorem prefix_callAcceptor (calls : List Bool) : ∀ s : Lifecycle,
    s.heap.events <+: (s.callAcceptor calls).2.heap.events := by
  induction calls with
  | nil => exact fun s ↦ List.prefix_rfl
  | cons throws calls ih =>
    intro s
    have huse : s.heap.events <+: s.useAcceptor.heap.events := Heap.prefix_use ..
    rw [callAcceptor]
    cases throws with
    | true => exact huse.trans (prefix_handleException _)
    | false => exact huse.trans (ih _)

theorem prefix_finishStart (s : Lifecycle) (o : StartOutcome) :
    s.heap.events <+: (s.finishStart o).2.heap.events := by
  have hcalls := prefix_callAcceptor (acceptorCalls o) s
  unfold finishStart
  generalize s.callAcceptor (acceptorCalls o) = called at hcalls ⊢
  obtain ⟨result, after⟩ := called
  cases result with
  | false => exact hcalls
  | true =>
    dsimp only
    cases o.thread with
    | created => exact hcalls
    | refused => exact hcalls.trans (prefix_release _)
    | throws => exact hcalls.trans (prefix_handleException _)

theorem prefix_deleteAcceptor (s : Lifecycle) :
    s.heap.events <+:
      (if s.m_pAcceptor.isSome = true then s.deleteAcceptor else s).heap.events := by
  split_ifs
  · exact Heap.prefix_delete ..
  · exact List.prefix_rfl

/-- The history of `start` begins with what it does to the acceptor that is there. -/
theorem prefix_start_of_stopped (hstopped : s.m_bRunning = false) (o : StartOutcome) :
    (if s.m_pAcceptor.isSome = true then s.deleteAcceptor else s).heap.events <+:
      (s.start o).2.heap.events := by
  unfold start
  rw [hstopped, if_neg Bool.false_ne_true]
  generalize (if s.m_pAcceptor.isSome = true then s.deleteAcceptor else s) = s
  dsimp only
  cases o.endpoint with
  | throws => exact prefix_handleException s
  | null => exact List.prefix_rfl
  | constructed =>
    have hendpoint : s.heap.events <+: s.newEndpoint.useEndpoint.heap.events :=
      (Heap.prefix_create _).trans (Heap.prefix_use ..)
    cases o.acceptor with
    | throws => exact hendpoint.trans (prefix_handleException _)
    | null => exact hendpoint.trans (Heap.prefix_delete ..)
    | constructed =>
      have hacceptor : s.newEndpoint.useEndpoint.heap.events <+:
          s.newEndpoint.useEndpoint.newAcceptor.heap.events := Heap.prefix_create _
      exact hendpoint.trans (hacceptor.trans (prefix_finishStart _ o))

theorem prefix_answer (s : Lifecycle) (call : LifecycleCall) :
    s.heap.events <+: (s.answer call).2.heap.events := by
  cases call with
  | start o =>
    by_cases hstopped : s.m_bRunning = false
    · exact s.prefix_deleteAcceptor.trans (prefix_start_of_stopped hstopped o)
    · rw [answer, start, if_pos (Bool.not_eq_false _ ▸ hstopped)]
  | stop throws =>
    rw [answer, stop]
    by_cases hstopped : s.m_bRunning = false
    · rw [if_pos hstopped]
    rw [if_neg hstopped]
    cases throws with
    | true => exact List.prefix_rfl
    | false => exact s.prefix_deleteAcceptor

/-! ### One call -/

/-- A server that is not running, and whose acceptor is null, has no objects. -/
theorem Consistent.idle (h : s.Consistent) (hstopped : s.m_bRunning = false)
    (hnull : s.m_pAcceptor = none) : s.Idle := by
  rcases h with h | ⟨hrunning, -⟩ | h
  · exact h
  · rw [hrunning] at hstopped
    cases hstopped
  · obtain ⟨acceptor, hacceptor, -⟩ := h.acceptor
    rw [hacceptor] at hnull
    cases hnull

/-- A stop deletes the acceptor of a running server, unless closing it throws before. -/
theorem Consistent.stop (h : s.Consistent) (throws : Bool) : (s.stop throws).2.Consistent := by
  unfold Lifecycle.stop
  by_cases hstopped : s.m_bRunning = false
  · rw [if_pos hstopped]
    exact h
  rw [if_neg hstopped]
  cases throws with
  | true => exact h
  | false =>
    have howns : s.Owns := by
      rcases h with h | ⟨-, h⟩ | h
      · exact absurd h.stopped hstopped
      · exact h
      · exact absurd h.stopped hstopped
    obtain ⟨acceptor, endpoint, hacceptor, -, -, hlive, -⟩ := howns.objects
    have hsome : s.m_pAcceptor.isSome = true := by
      rw [hacceptor]
      rfl
    have hdeleted : s.deleteAcceptor.heap = s.heap.delete (some acceptor) := by
      rw [deleteAcceptor, hacceptor]
    rw [if_neg Bool.false_ne_true, if_pos hsome]
    refine .inr (.inr ⟨?_, rfl, acceptor, hacceptor, ?_⟩)
    · show s.deleteAcceptor.heap.Sound
      rw [hdeleted]
      exact howns.sound.delete hlive
    · show Event.deleted acceptor ∈ s.deleteAcceptor.heap.events
      rw [hdeleted]
      exact Heap.deleted_mem s.heap acceptor

/-- What a clean call keeps. -/
theorem Consistent.answer (h : s.Consistent) {call : LifecycleCall} (hclean : StartsClean s call) :
    (s.answer call).2.Consistent ∧ ReleasesOnFailure ⟨s, call, ⟨(s.answer call).1,
      (s.answer call).2.m_pEndpoint, (s.answer call).2.m_pAcceptor⟩⟩ := by
  cases call with
  | start o =>
    obtain ⟨hstopped, hnull, hconstructor⟩ := hclean
    have hidle := h.idle hstopped hnull
    rcases hidle.start hconstructor with ⟨hresult, hrunning, howns⟩ | ⟨hresult, hidle⟩
    · refine ⟨.inr (.inl ⟨hrunning, howns⟩), fun o' _ hfailed ↦ ?_⟩
      exact absurd (hresult.symm.trans hfailed) Bool.noConfusion
    · exact ⟨.inl hidle, fun _ _ _ ↦ ⟨hidle.endpoint, hidle.acceptor⟩⟩
  | stop throws => exact ⟨h.stop throws, nofun⟩

/-- What a call breaks that is not clean: it deletes the acceptor for a second time, or it fails and
leaves a pointer. -/
theorem Consistent.breaks (h : s.Consistent) {call : LifecycleCall} (hclean : ¬StartsClean s call)
    (hsafe : (s.answer call).2.heap.Safe) : ¬ReleasesOnFailure ⟨s, call, ⟨(s.answer call).1,
      (s.answer call).2.m_pEndpoint, (s.answer call).2.m_pAcceptor⟩⟩ := by
  cases call with
  | stop throws => exact absurd trivial hclean
  | start o =>
    intro hreleases
    have hreleases := hreleases o rfl
    rcases h with h | ⟨hrunning, h⟩ | h
    · have hconstructor : o.endpoint = .constructed ∧ o.acceptor = .throws := by
        by_contra hconstructor
        exact hclean ⟨h.stopped, h.acceptor, hconstructor⟩
      have hstart : s.start o = (false, s.newEndpoint.useEndpoint) := by
        rw [start, h.stopped, if_neg Bool.false_ne_true, h.acceptor, Option.isSome_none,
          if_neg Bool.false_ne_true, hconstructor.1, hconstructor.2]
        have hnone : ¬s.newEndpoint.useEndpoint.m_pAcceptor.isSome = true := by
          show ¬s.m_pAcceptor.isSome = true
          rw [h.acceptor]
          exact Bool.false_ne_true
        dsimp only
        rw [handleException, if_neg hnone]
      rw [Lifecycle.answer, hstart] at hreleases
      exact absurd (hreleases rfl).1 (Option.some_ne_none _)
    · have hstart : s.start o = (false, s) := by
        rw [start, if_pos hrunning]
      obtain ⟨acceptor, endpoint, hacceptor, -⟩ := h.objects
      rw [Lifecycle.answer, hstart, hacceptor] at hreleases
      exact absurd (hreleases rfl).2 (Option.some_ne_none _)
    · obtain ⟨acceptor, hacceptor, hdeleted⟩ := h.acceptor
      have hextends := prefix_start_of_stopped h.stopped o
      have hsome : s.m_pAcceptor.isSome = true := by
        rw [hacceptor]
        rfl
      have hagain : s.deleteAcceptor.heap = s.heap.delete (some acceptor) := by
        rw [deleteAcceptor, hacceptor]
      rw [if_pos hsome, hagain] at hextends
      exact Heap.not_safe_delete hdeleted (hsafe.of_prefix hextends)

end Lifecycle

/-! ### Runs -/

/-- Assumes: a run of calls of `start` and `stop` of a server from its constructor. Its objects are
deleted at most once and not used after that, and both pointers are null after every call of `start`
that fails, exactly when every call of `start` finds a server that is neither running nor has been
stopped, and the constructor of the acceptor does not throw. -/
theorem lifecycle_iff {final : Lifecycle}
    {trace : List (Call Lifecycle LifecycleCall LifecycleReply)}
    (hrun : Run LifecycleStep .new trace final) :
    (final.heap.Safe ∧ ∀ call ∈ trace, ReleasesOnFailure call) ↔
      ∀ call ∈ trace, StartsClean call.before call.label := by
  refine hrun.safe_iff Lifecycle.Consistent (fun s ↦ s.heap.Safe) (fun s h ↦ h.safe) ?_ ?_ ?_
    (.inl Lifecycle.idle_new)
  · rintro before call reply after h ⟨rfl, rfl⟩ hclean
    exact h.answer hclean
  · rintro before call reply after h ⟨rfl, rfl⟩ hclean hsafe
    exact h.breaks hclean hsafe
  · rintro before call reply after ⟨rfl, -⟩ hsafe
    exact hsafe.of_prefix (before.prefix_answer call)

/-- All that `start` calls succeeds. -/
def succeedingStart : StartOutcome where
  endpoint := .constructed
  acceptor := .constructed
  optionThrows := false
  m_bTcpNoDelay := false
  keepAliveThrows := false
  noDelayThrows := false
  acceptThrows := false
  thread := .created

theorem lifecycle_iff_once :
    ∃ trace final, Run LifecycleStep .new trace final ∧
      trace.map Call.label = [.start succeedingStart, .stop false] ∧
      final.heap.Safe ∧ ∀ call ∈ trace, ReleasesOnFailure call := by
  have hrun : ∃ trace final, Run LifecycleStep .new trace final ∧
      trace.map Call.label = [.start succeedingStart, .stop false] ∧
      ∀ call ∈ trace, StartsClean call.before call.label := by
    refine Run.exists_cons _ ⟨rfl, rfl⟩ <| Run.exists_cons _ ⟨rfl, rfl⟩ ⟨_, _, .nil _, rfl, ?_⟩
    rw [List.forall_mem_cons, List.forall_mem_singleton]
    exact ⟨⟨rfl, rfl, fun h ↦ nomatch h.2⟩, trivial⟩
  obtain ⟨trace, final, hrun, hlabels, hclean⟩ := hrun
  exact ⟨trace, final, hrun, hlabels, (lifecycle_iff hrun).mpr hclean⟩

/-- A server that is started, stopped and started again deletes its acceptor twice. A port that is
taken leaves the endpoint behind. -/
theorem restart_deletes_twice :
    (∃ trace final, Run LifecycleStep .new trace final ∧
      trace.map Call.label = [.start succeedingStart, .stop false, .start succeedingStart] ∧
      ¬final.heap.Safe) ∧
    ∃ trace final, Run LifecycleStep .new trace final ∧
      trace.map Call.label = [.start { succeedingStart with acceptor := .throws }] ∧
      ¬∀ call ∈ trace, ReleasesOnFailure call := by
  constructor
  · refine Run.exists_cons _ ⟨rfl, rfl⟩ <| Run.exists_cons _ ⟨rfl, rfl⟩ <|
      Run.exists_cons _ ⟨rfl, rfl⟩ ⟨_, _, .nil _, rfl, fun hsafe ↦ ?_⟩
    have hevents : [Event.deleted 1, .deleted 1].Pairwise fun first second ↦
        ∀ object, first = .deleted object → second ≠ .used object ∧ second ≠ .deleted object :=
      List.Pairwise.sublist (by decide) hsafe
    exact ((List.pairwise_cons.mp hevents).1 _ List.mem_cons_self 1 rfl).2 rfl
  · refine Run.exists_cons _ ⟨rfl, rfl⟩ ⟨_, _, .nil _, rfl, ?_⟩
    rw [List.forall_mem_singleton]
    exact fun hreleases ↦ absurd (hreleases _ rfl rfl).1 (Option.some_ne_none _)

end RdbLibs.NetIO.CTcpServer
