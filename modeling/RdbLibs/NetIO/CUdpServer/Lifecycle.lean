import RdbLibs.Thread.LiveWorker

/-!
# The life cycle of the class `CUdpServer`

`CUdpServer::start`, `stop`, `setPort` and `setRunning` of `Src/NetIO/CServerIO.cpp`, called by one
owner, with `CUdpProcessingContext::run` in the threads that the server starts. The thread of the
server is a `CThreadBase`, whose calls are those of `Thread/ThreadBase.lean`. A step is one access
to what the owner and the threads share.

Nothing closes a socket or deletes it, so that its port stays taken, and nothing takes back the
`m_bExit` that `stop` sets. `m_ioContext.run` has no work and returns at once; what a pass of
`ioMsgHandler` does with messages is left out, and it may take any time.
-/

set_option autoImplicit false
set_option relaxedAutoImplicit false

namespace RdbLibs.NetIO

open Thread

namespace CUdpServer

/-- Where a thread is in the loop of `CUdpProcessingContext::run`. -/
inductive RunPhase
  | test
  | handler
deriving DecidableEq

/-- The next step of the owner, in `start` or in `stop`. `clearRunning` is in `stop`, with what
`isActive` has answered. -/
inductive OwnerPhase
  | idle
  | testRunning
  | open
  | createThread
  | setRunning
  | testStop
  | isActive
  | stopContext
  | stopThread
  | clearRunning (active : Bool)
deriving DecidableEq

/-- Whose turn it is. `granted` is whether the system lets the server have its port, and `thread` is
what `new std::thread` starts, if it does not throw. -/
inductive Turn
  | setPort (nPort : ℕ)
  | setRunning (bVal : Bool)
  | start
  | stop
  | owner (granted : Bool) (thread : Option ℕ)
  | thread (thread : ℕ)
deriving DecidableEq

/-- What a call of the owner returns, or the port of the session that a thread handles messages
with. -/
inductive Reply
  | portSet (answer : Bool)
  | started (answer : Bool)
  | stopped (answer : Bool)
  | handles (port : Option ℕ)
deriving DecidableEq

end CUdpServer

/-- The members of `CUdpServer` that its life cycle changes, with the `m_bExit` of its processing
context, its threads in `run`, and its owner. `opened` are the ports of the sockets that it has
opened; `m_pSession` has the last one. -/
structure CUdpServer where
  m_port : ℕ
  m_bRunning : Bool
  m_bExit : Bool
  m_srvrThread : CThreadBase Empty
  run : ℕ → CUdpServer.RunPhase
  opened : List ℕ
  owner : CUdpServer.OwnerPhase

namespace CUdpServer

/-- The constructor. -/
def new (nPort : ℕ) : CUdpServer where
  m_port := nPort
  m_bRunning := false
  m_bExit := false
  m_srvrThread := .new
  run _ := .test
  opened := []
  owner := .idle

/-- A call that returns. -/
def returns (s : CUdpServer) (reply : Reply) : Option (Option Reply × CUdpServer) :=
  some (some reply, { s with owner := .idle })

/-- A call that goes on. -/
def goesOn (s : CUdpServer) (owner : OwnerPhase) : Option (Option Reply × CUdpServer) :=
  some (none, { s with owner })

/-- The next step of `start` or `stop`. -/
def ownerStep (s : CUdpServer) (granted : Bool) (thread : Option ℕ) :
    Option (Option Reply × CUdpServer) :=
  match s.owner with
  | .idle => none
  | .testRunning => if s.m_bRunning = true then s.returns (.started false) else s.goesOn .open
  | .open =>
    -- the constructor of the socket throws when the port is taken
    if granted = true ∧ s.m_port ∉ s.opened then
      { s with opened := s.opened ++ [s.m_port] }.goesOn .createThread
    else s.returns (.started false)
  | .createThread => do
    let (created, m_srvrThread) ← s.m_srvrThread.createThread thread
    let s := { s with m_srvrThread }
    if m_srvrThread.creating ≠ none then s.goesOn .createThread
    else if created = some true then s.goesOn .setRunning
    else s.returns (.started false)
  | .setRunning => { s with m_bRunning := true }.returns (.started true)
  | .testStop => if s.m_bRunning = false then s.returns (.stopped true) else s.goesOn .isActive
  | .isActive =>
    if s.m_srvrThread.m_running = true then s.goesOn .stopContext
    else s.goesOn (.clearRunning false)
  | .stopContext => { s with m_bExit := true }.goesOn .stopThread
  | .stopThread => do
    let m_srvrThread ← s.m_srvrThread.stopThread true
    { s with m_srvrThread }.goesOn
      (if m_srvrThread.stopping = none then .clearRunning true else .stopThread)
  | .clearRunning _ => { s with m_bRunning := false }.returns (.stopped true)

/-- The next step of a thread: of `newThread`, and of `run` within it. -/
def threadStep (s : CUdpServer) (thread : ℕ) : Option (Option Reply × CUdpServer) :=
  if s.m_srvrThread.threads thread = .running ∧ s.run thread = .handler then
    some (none, { s with run := Function.update s.run thread .test })
  else if s.m_srvrThread.threads thread = .running ∧ s.m_bExit = false then
    some (some (.handles s.opened.getLast?),
      { s with run := Function.update s.run thread .handler })
  else (s.m_srvrThread.newThread thread).map fun m_srvrThread ↦ (none, { s with m_srvrThread })

/-- A step, by whose turn it is. The owner makes a call when the last one has returned. -/
def turn (s : CUdpServer) : Turn → Option (Option Reply × CUdpServer)
  | .setPort nPort =>
    if s.owner ≠ .idle then none
    else if s.m_bRunning = true then s.returns (.portSet false)
    else { s with m_port := nPort }.returns (.portSet true)
  -- the argument is not used
  | .setRunning _ =>
    if s.owner ≠ .idle then none else some (none, { s with m_bRunning := false })
  | .start => if s.owner ≠ .idle then none else s.goesOn .testRunning
  | .stop => if s.owner ≠ .idle then none else s.goesOn .testStop
  | .owner granted thread => s.ownerStep granted thread
  | .thread thread => s.threadStep thread

/-- The steps of the server, its owner and its threads. -/
def Step (s : CUdpServer) (whose : Turn) (reply : Option Reply) (after : CUdpServer) : Prop :=
  s.turn whose = some (reply, after)

end CUdpServer

end RdbLibs.NetIO
