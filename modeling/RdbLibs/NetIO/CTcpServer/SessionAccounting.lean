import RdbLibs.NetIO.CTcpServer.Sessions

/-!
# The accounting of the sessions of `CTcpServer`

The handler of `CTcpServer::acceptConnection` counts a session in `m_activeSessions` and accepts the
next client, over any sequence of connections. It does both at its end, which an exception does not
reach: the count then stays, and no client is accepted any more.
-/

set_option autoImplicit false
set_option relaxedAutoImplicit false

namespace RdbLibs.NetIO.CTcpServer

open MachineWord Runs

/-- The members that the handler changes, and the number of calls of `async_accept` that wait. -/
structure ServerState where
  m_activeSessions : ℕ
  m_bExitSession : Bool
  m_heartBeatTimestamp : ℤ
  pendingAccepts : ℕ

/-- What the handler is called with: whether there is an error, the clock reading, whether the
socket is open, whether there is memory for a `CTcpSession`, and what happens in the passes of its
session until it ends. -/
structure AcceptedConnection where
  acceptError : Bool
  now : ℤ
  isOpen : Bool
  created : Bool
  passes : List Pass

/-- What the handler leaves: how often it has called `acceptConnection`, and `m_activeSessions`. -/
structure HandlerReply where
  accepts : ℕ
  m_activeSessions : ℕ

/-- The beginning of the handler. -/
def ServerState.enter (config : SessionConfig) (server : ServerState) (now : ℤ) : ServerState where
  m_activeSessions := toUnsigned (server.m_activeSessions + 1)
  m_bExitSession := server.m_bExitSession
  m_heartBeatTimestamp :=
    if 0 < config.m_heartBeatInterval then now else server.m_heartBeatTimestamp
  pendingAccepts := server.pendingAccepts - 1

/-- The end of the handler, after a client was accepted. -/
def ServerState.leave (server : ServerState) : ServerState :=
  { server with
    m_activeSessions := unsignedSub server.m_activeSessions 1
    pendingAccepts := server.pendingAccepts + 1 }

/-- The server after a session. -/
def ServerState.afterSession (server : ServerState) (s : Session) : ServerState :=
  { server with
    m_bExitSession := s.m_bExitSession, m_heartBeatTimestamp := s.m_heartBeatTimestamp }

/-- The variables of the session that the handler starts. -/
def ServerState.session (config : SessionConfig) (server : ServerState) (now : ℤ) : Session :=
  .start config server.m_bExitSession (server.enter config now).m_heartBeatTimestamp

/-- A session runs, and ends in the given variables. -/
def RunsSession (config : SessionConfig) (server : ServerState) (connection : AcceptedConnection)
    (s : Session) : Prop :=
  ∃ trace, Run (SessionStep config) (server.session config connection.now) trace s ∧
    trace.map Call.label = connection.passes

/-- The handler, with the way that it takes. -/
inductive Handles (config : SessionConfig) (server : ServerState)
    (connection : AcceptedConnection) : HandlerReply → ServerState → Prop
  | acceptError (hpending : 0 < server.pendingAccepts) (herror : connection.acceptError = true) :
      Handles config server connection ⟨1, server.m_activeSessions⟩ server
  | notOpen (hpending : 0 < server.pendingAccepts) (herror : connection.acceptError = false)
      (hopen : connection.isOpen = false) :
      Handles config server connection
        ⟨1, (server.enter config connection.now).leave.m_activeSessions⟩
        (server.enter config connection.now).leave
  | notCreated (hpending : 0 < server.pendingAccepts) (herror : connection.acceptError = false)
      (hopen : connection.isOpen = true) (hcreated : connection.created = false) :
      Handles config server connection
        ⟨1, (server.enter config connection.now).leave.m_activeSessions⟩
        (server.enter config connection.now).leave
  | finished (hpending : 0 < server.pendingAccepts) (herror : connection.acceptError = false)
      (hopen : connection.isOpen = true) (hcreated : connection.created = true) {s : Session}
      (hsession : RunsSession config server connection s) (hfinished : s.status = .finished) :
      Handles config server connection
        ⟨1, (server.enter config connection.now).leave.m_activeSessions⟩
        ((server.enter config connection.now).afterSession s).leave
  | threw (hpending : 0 < server.pendingAccepts) (herror : connection.acceptError = false)
      (hopen : connection.isOpen = true) (hcreated : connection.created = true) {s : Session}
      (hsession : RunsSession config server connection s) (hthrew : s.status = .threw) :
      Handles config server connection
        ⟨0, (server.enter config connection.now).m_activeSessions⟩
        ((server.enter config connection.now).afterSession s)

/-- The count is back to its value, and one client more is accepted. -/
def Accounted (call : Call ServerState AcceptedConnection HandlerReply) : Prop :=
  call.reply.m_activeSessions = call.before.m_activeSessions ∧ call.reply.accepts = 1

/-- The condition on a connection: no pass of its session that does not end it finds the peer gone.
-/
def PeerStays (config : SessionConfig) (server : ServerState) (connection : AcceptedConnection) :
    Prop :=
  connection.acceptError = false → connection.isOpen = true → connection.created = true →
    ∀ trace s, Run (SessionStep config) (server.session config connection.now) trace s →
      trace.map Call.label = connection.passes →
        ∀ call ∈ trace, ¬EndsSession config call.before call.label →
          call.label.remoteAddress ≠ none

variable {config : SessionConfig}

/-- A session is left by an exception exactly when one of its passes is. -/
theorem threw_iff_of_run {first s : Session} {trace : List (Call Session Pass Unit)}
    (hrun : Run (SessionStep config) first trace s) :
    first.status = .running → (s.status = .threw ↔
      ∃ call ∈ trace, ¬EndsSession config call.before call.label ∧
        call.label.remoteAddress = none) := by
  induction hrun with
  | nil first =>
    intro hrunning
    rw [hrunning]
    exact iff_of_false nofun fun ⟨call, hcall, _⟩ ↦ List.not_mem_nil hcall
  | @cons first middle final p reply rest hfirst hrest ih =>
    intro hrunning
    obtain ⟨-, rfl⟩ := hfirst
    simp only [List.mem_cons, exists_eq_or_imp]
    rw [← pass_threw_iff hrunning]
    cases hrest with
    | nil => exact ⟨.inl, fun h ↦ h.resolve_right fun ⟨call, hcall, _⟩ ↦ List.not_mem_nil hcall⟩
    | cons hsecond hrest =>
      rw [ih hsecond.1]
      refine ⟨.inr, fun h ↦ h.resolve_left fun hthrew ↦ ?_⟩
      rw [hsecond.1] at hthrew
      cases hthrew

/-- The condition on a connection with a session is that the session is not left by an exception. -/
theorem peerStays_iff {server : ServerState} {connection : AcceptedConnection} {s : Session}
    (herror : connection.acceptError = false) (hopen : connection.isOpen = true)
    (hcreated : connection.created = true) (hsession : RunsSession config server connection s) :
    PeerStays config server connection ↔ s.status ≠ .threw := by
  obtain ⟨trace, hrun, hlabels⟩ := hsession
  rw [Ne, threw_iff_of_run hrun rfl, not_exists]
  constructor
  · rintro hstays call ⟨hcall, hends, hnone⟩
    exact hstays herror hopen hcreated trace s hrun hlabels call hcall hends hnone
  · intro hnone _ _ _ trace' s' hrun' hlabels' call hcall hends hgone
    have hsame : trace' = trace := by
      refine (hrun.unique ?_ hrun' (hlabels'.trans hlabels.symm)).1
      rintro before label reply after reply' after' ⟨-, rfl⟩ ⟨-, rfl⟩
      exact ⟨rfl, rfl⟩
    exact hnone call ⟨hsame ▸ hcall, hends, hgone⟩

theorem leave_enter (config : SessionConfig) {server : ServerState}
    (hcount : server.m_activeSessions < 2 ^ 32) (now : ℤ) :
    (server.enter config now).leave.m_activeSessions = server.m_activeSessions := by
  unfold ServerState.leave ServerState.enter unsignedSub toUnsigned
  dsimp only
  omega

/-- The count of a server has 32 bits, in every state. -/
theorem count_lt_of_handles {server after : ServerState} {connection : AcceptedConnection}
    {reply : HandlerReply} (hcount : server.m_activeSessions < 2 ^ 32)
    (h : Handles config server connection reply after) : after.m_activeSessions < 2 ^ 32 := by
  cases h with
  | acceptError => exact hcount
  | notOpen => exact toUnsigned_lt _
  | notCreated => exact toUnsigned_lt _
  | finished => exact toUnsigned_lt _
  | threw => exact toUnsigned_lt _

/-- One connection is accounted for exactly under the condition. -/
theorem accounted_iff {server after : ServerState} {connection : AcceptedConnection}
    {reply : HandlerReply} (hcount : server.m_activeSessions < 2 ^ 32)
    (h : Handles config server connection reply after) :
    Accounted ⟨server, connection, reply⟩ ↔ PeerStays config server connection := by
  have hback := leave_enter config hcount connection.now
  cases h with
  | acceptError hpending herror =>
    refine iff_of_true ⟨rfl, rfl⟩ fun hnone ↦ ?_
    rw [herror] at hnone
    cases hnone
  | notOpen hpending herror hopen =>
    refine iff_of_true ⟨hback, rfl⟩ fun _ hisOpen ↦ ?_
    rw [hopen] at hisOpen
    cases hisOpen
  | notCreated hpending herror hopen hcreated =>
    refine iff_of_true ⟨hback, rfl⟩ fun _ _ hisCreated ↦ ?_
    rw [hcreated] at hisCreated
    cases hisCreated
  | finished hpending herror hopen hcreated hsession hfinished =>
    rw [peerStays_iff herror hopen hcreated hsession, hfinished]
    exact iff_of_true ⟨hback, rfl⟩ nofun
  | threw hpending herror hopen hcreated hsession hthrew =>
    rw [peerStays_iff herror hopen hcreated hsession, hthrew]
    exact iff_of_false (fun haccounted ↦ absurd haccounted.2 Nat.zero_ne_one) fun h ↦ h rfl

/-- Assumes: a run of the handler over some connections. After every one of them `m_activeSessions`
is back to its value and `acceptConnection` has been called once, exactly when no pass of a session
that does not end the session finds the peer gone. -/
theorem session_accounting_iff {start final : ServerState}
    {trace : List (Call ServerState AcceptedConnection HandlerReply)}
    (hrun : Run (Handles config) start trace final) (hcount : start.m_activeSessions < 2 ^ 32) :
    (∀ call ∈ trace, Accounted call) ↔
      ∀ call ∈ trace, PeerStays config call.before call.label := by
  refine forall₂_congr (hrun.forall_calls (fun server ↦ server.m_activeSessions < 2 ^ 32)
    ?_ ?_ hcount)
  · exact fun _ _ _ _ hcount h ↦ count_lt_of_handles hcount h
  · exact fun _ _ _ _ hcount h ↦ accounted_iff hcount h

/-- A pass in which a message is read and nothing fails. -/
def readingPass (remoteAddress : Option (List Char)) : Pass where
  available := some 24
  now := 0
  beatSent := false
  beatAnswered := false
  isAck := false
  read := true
  later := 0
  isExit := false
  processed := true
  updated := false
  written := false
  stillOpen := true
  stopped := false
  remoteAddress := remoteAddress

theorem session_accounting_iff_one :
    ∃ trace final, Run (Handles ⟨.input, false, 0⟩) ⟨0, false, 0, 1⟩ trace final ∧
      trace.map Call.label = [⟨false, 0, true, true, [readingPass (some ['1'])]⟩] ∧
      ∀ call ∈ trace, Accounted call := by
  have hrun : ∃ trace final, Run (Handles ⟨.input, false, 0⟩) ⟨0, false, 0, 1⟩ trace final ∧
      trace.map Call.label = [⟨false, 0, true, true, [readingPass (some ['1'])]⟩] ∧
      ∀ call ∈ trace, PeerStays ⟨.input, false, 0⟩ call.before call.label := by
    have hsession : RunsSession ⟨.input, false, 0⟩ ⟨0, false, 0, 1⟩
        ⟨false, 0, true, true, [readingPass (some ['1'])]⟩
        (pass ⟨.input, false, 0⟩ (.start ⟨.input, false, 0⟩ false 0) (readingPass (some ['1']))) :=
      ⟨[⟨_, _, ()⟩], .cons ⟨rfl, rfl⟩ (.nil _), rfl⟩
    refine Run.exists_cons _ (Handles.finished (by decide) rfl rfl rfl hsession rfl)
      ⟨_, _, .nil _, rfl, ?_⟩
    rw [List.forall_mem_singleton, peerStays_iff rfl rfl rfl hsession]
    decide
  obtain ⟨trace, final, hrun, hlabels, hstays⟩ := hrun
  exact ⟨trace, final, hrun, hlabels,
    (session_accounting_iff hrun (Nat.two_pow_pos 32)).mpr hstays⟩

/-- When the peer has gone after its message was read, the session stays counted, and no other
client is accepted. -/
theorem session_of_lost_peer :
    ∃ trace final, Run (Handles ⟨.input, false, 0⟩) ⟨0, false, 0, 1⟩ trace final ∧
      trace.map Call.label = [⟨false, 0, true, true, [readingPass none]⟩] ∧
      final.m_activeSessions = 1 ∧ final.pendingAccepts = 0 ∧ ¬∀ call ∈ trace, Accounted call := by
  have hsession : RunsSession ⟨.input, false, 0⟩ ⟨0, false, 0, 1⟩
      ⟨false, 0, true, true, [readingPass none]⟩
      (pass ⟨.input, false, 0⟩ (.start ⟨.input, false, 0⟩ false 0) (readingPass none)) :=
    ⟨[⟨_, _, ()⟩], .cons ⟨rfl, rfl⟩ (.nil _), rfl⟩
  refine Run.exists_cons _ (Handles.threw (by decide) rfl rfl rfl hsession rfl)
    ⟨_, _, .nil _, rfl, rfl, rfl, ?_⟩
  rw [List.forall_mem_singleton]
  exact fun haccounted ↦ absurd haccounted.2 Nat.zero_ne_one

end RdbLibs.NetIO.CTcpServer
