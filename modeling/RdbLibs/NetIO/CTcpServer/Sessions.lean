import RdbLibs.Foundations.MachineWord
import RdbLibs.Foundations.Runs

/-!
# The sessions of the class `CTcpServer`

The handler that `CTcpServer::acceptConnection` gives to `async_accept`, of
`Src/NetIO/CServerIO.cpp`, pass by pass of its session loop. What the clock, the network and the
other threads do in a pass is a `Pass`; the methods of `CTcpSession` are in it with what they
answer. `socket.remote_endpoint` throws when the peer is gone, and no `try` is around it.

Clock readings count nanoseconds. `m_heartBeatInterval` is an `unsigned long` of 64 bits, which the
milliseconds since `m_heartBeatTimestamp` are converted to. The handler clears `m_outputMsg`'s flag
in one of its branches, and other threads set it, so that a pass says what it reads of the flag.
-/

set_option autoImplicit false
set_option relaxedAutoImplicit false

namespace RdbLibs.NetIO.CTcpServer

open MachineWord Runs

/-- `eNetIoDirection`. -/
inductive NetIoDirection
  | unknown
  | input
  | output
  | io
deriving DecidableEq

/-- The members that the handler reads and does not change. -/
structure SessionConfig where
  m_eIoDirection : NetIoDirection
  m_bMultiMsgSession : Bool
  m_heartBeatInterval : ℕ

/-- What happens in a pass of the session loop. `available` is what the socket reports, or an
error, and `now` and `later` are clock readings, before and after a message was read. `read` is
whether `readMsgData` of a message of the client succeeds, and `isExit` whether it is `exit`. The
other fields are what the calls in the loop answer, in their order: of the beat whether it is sent,
whether it is answered and whether the answer is `ack`; whether `processInputMsg` succeeds; whether
`m_outputMsg` is updated and whether it is sent; whether the socket is open; whether another thread
has set `m_bExitSession`; and the address of the peer, unless `remote_endpoint` throws. -/
structure Pass where
  available : Option ℕ
  now : ℤ
  beatSent : Bool
  beatAnswered : Bool
  isAck : Bool
  read : Bool
  later : ℤ
  isExit : Bool
  processed : Bool
  updated : Bool
  written : Bool
  stillOpen : Bool
  stopped : Bool
  remoteAddress : Option (List Char)

/-- Whether the loop goes on, has ended, or was left by an exception. -/
inductive Status
  | running
  | finished
  | threw
deriving DecidableEq

/-- The variables of a session, and the clock readings at which it has sent a beat. -/
structure Session where
  status : Status
  bSessionLoop : Bool
  m_bExitSession : Bool
  bExitReceivedFromClient : Bool
  m_heartBeatTimestamp : ℤ
  beats : List ℤ

/-- The variables before the loop. `timestamp` is the clock reading when the client was accepted. -/
def Session.start (config : SessionConfig) (m_bExitSession : Bool) (timestamp : ℤ) : Session where
  status := .running
  bSessionLoop := config.m_bMultiMsgSession
  m_bExitSession := if config.m_bMultiMsgSession then false else m_bExitSession
  bExitReceivedFromClient := false
  m_heartBeatTimestamp := timestamp
  beats := []

/-- Ends the session. -/
def Session.exit (s : Session) : Session := { s with bSessionLoop := false, m_bExitSession := true }

/-- Ends the session after a message `exit`. -/
def Session.exitReceived (s : Session) : Session := { s.exit with bExitReceivedFromClient := true }

/-- The interval has passed since `m_heartBeatTimestamp`. -/
def Elapsed (config : SessionConfig) (m_heartBeatTimestamp now : ℤ) : Prop :=
  0 < config.m_heartBeatInterval ∧
    config.m_heartBeatInterval < intToSize ((now - m_heartBeatTimestamp).tdiv 1000000)

instance (config : SessionConfig) (m_heartBeatTimestamp now : ℤ) :
    Decidable (Elapsed config m_heartBeatTimestamp now) :=
  inferInstanceAs (Decidable (_ ∧ _))

/-- Updates the start of the interval. -/
def Session.refresh (config : SessionConfig) (s : Session) (now : ℤ) : Session :=
  if 0 < config.m_heartBeatInterval then { s with m_heartBeatTimestamp := now } else s

/-- The branch of the direction `input`. -/
def inputBranch (config : SessionConfig) (s : Session) (p : Pass) : Session :=
  if Elapsed config s.m_heartBeatTimestamp p.now then s.exit
  else if p.read then
    let s := s.refresh config p.later
    if p.isExit then s.exitReceived else s
  else s.exit

/-- The branch of the direction `output`, behind the beat. -/
def serveOutput (s : Session) (p : Pass) (bytesAvail : ℕ) : Session :=
  if 0 < bytesAvail ∧ p.read = true ∧ p.isExit = true then s.exitReceived
  else if p.updated = true ∧ p.written = false then s.exit
  else s

/-- The branch of the direction `output`. It leaves the start of the interval as it is. -/
def outputBranch (config : SessionConfig) (s : Session) (p : Pass) (bytesAvail : ℕ) : Session :=
  if Elapsed config s.m_heartBeatTimestamp p.now then
    if p.beatSent = false then s.exit
    else
      let s := { s with beats := s.beats ++ [p.now] }
      if p.beatAnswered = false then s.exit
      else if p.isAck = false then s.exit
      else serveOutput s p bytesAvail
  else serveOutput s p bytesAvail

/-- The branch of the direction `io`. -/
def ioBranch (config : SessionConfig) (s : Session) (p : Pass) : Session :=
  if Elapsed config s.m_heartBeatTimestamp p.now then s.exit
  else if p.read then
    let s := s.refresh config p.later
    if p.isExit then s.exitReceived
    else if p.processed = false then s.exit
    else if p.updated = true ∧ p.written = false then s.exit
    else s
  else s.exit

/-- The `switch` of the loop. -/
def switchDirection (config : SessionConfig) (s : Session) (p : Pass) (bytesAvail : ℕ) : Session :=
  match config.m_eIoDirection with
  | .input => inputBranch config s p
  | .output => outputBranch config s p bytesAvail
  | .io => ioBranch config s p
  | .unknown => s

/-- Whether the socket is still open, in a session of many messages, and whether another thread has
set the flag. -/
def checkSocket (config : SessionConfig) (s : Session) (p : Pass) : Session :=
  let s := if config.m_bMultiMsgSession = true ∧ p.stillOpen = false then s.exit else s
  if p.stopped then { s with m_bExitSession := true } else s

/-- The rest of a pass. The checks of the flag and of the address leave the loop, as its condition
does. -/
def checkSession (config : SessionConfig) (s : Session) (p : Pass) : Session :=
  let s := checkSocket config s p
  if s.m_bExitSession then { s with bSessionLoop := false, status := .finished }
  else
    match p.remoteAddress with
    | none => { s with status := .threw }
    | some [] => { s with bSessionLoop := false, status := .finished }
    | some _ => if s.bSessionLoop then s else { s with status := .finished }

/-- A pass of the session loop. -/
def pass (config : SessionConfig) (s : Session) (p : Pass) : Session :=
  match p.available with
  | none => { s.exit with status := .finished }
  | some bytesAvail => checkSession config (switchDirection config s p bytesAvail) p

/-- A pass of a session that goes on. -/
def SessionStep (config : SessionConfig) (before : Session) (p : Pass) (_ : Unit)
    (after : Session) : Prop :=
  before.status = .running ∧ after = pass config before p

/-- The condition under which a pass sets `m_bExitSession`, or finds it set. -/
def EndsSession (config : SessionConfig) (s : Session) (p : Pass) : Prop :=
  p.available = none ∨ s.m_bExitSession = true ∨ p.stopped = true ∨
    (config.m_bMultiMsgSession = true ∧ p.stillOpen = false) ∨
    match config.m_eIoDirection with
    | .input => Elapsed config s.m_heartBeatTimestamp p.now ∨ p.read = false ∨ p.isExit = true
    | .output =>
      (Elapsed config s.m_heartBeatTimestamp p.now ∧
          (p.beatSent = false ∨ p.beatAnswered = false ∨ p.isAck = false)) ∨
        (p.available ≠ some 0 ∧ p.read = true ∧ p.isExit = true) ∨
        (p.updated = true ∧ p.written = false)
    | .io => Elapsed config s.m_heartBeatTimestamp p.now ∨ p.read = false ∨ p.isExit = true ∨
        p.processed = false ∨ (p.updated = true ∧ p.written = false)
    | .unknown => False

/-! ### What a pass does -/

section Passes

variable {config : SessionConfig} {s : Session} {p : Pass}

@[simp] theorem exit_flag (s : Session) : s.exit.m_bExitSession = true := rfl

@[simp] theorem exitReceived_flag (s : Session) : s.exitReceived.m_bExitSession = true := rfl

@[simp] theorem refresh_flag (config : SessionConfig) (s : Session) (now : ℤ) :
    (s.refresh config now).m_bExitSession = s.m_bExitSession := by
  unfold Session.refresh
  split_ifs <;> rfl

theorem inputBranch_flag : (inputBranch config s p).m_bExitSession = true ↔
    s.m_bExitSession = true ∨ Elapsed config s.m_heartBeatTimestamp p.now ∨ p.read = false ∨
      p.isExit = true := by
  unfold inputBranch
  split_ifs with helapsed hread hexit
  · simp [helapsed]
  · simp [hexit]
  · simp [helapsed, hread, hexit]
  · simp [hread]

theorem serveOutput_flag {bytesAvail : ℕ} : (serveOutput s p bytesAvail).m_bExitSession = true ↔
    s.m_bExitSession = true ∨ (0 < bytesAvail ∧ p.read = true ∧ p.isExit = true) ∨
      (p.updated = true ∧ p.written = false) := by
  unfold serveOutput
  split_ifs with hexit hfailed
  · simp [hexit]
  · simp [hfailed]
  · simp [hexit, hfailed]

theorem outputBranch_flag {bytesAvail : ℕ} :
    (outputBranch config s p bytesAvail).m_bExitSession = true ↔
      s.m_bExitSession = true ∨ (Elapsed config s.m_heartBeatTimestamp p.now ∧
          (p.beatSent = false ∨ p.beatAnswered = false ∨ p.isAck = false)) ∨
        (0 < bytesAvail ∧ p.read = true ∧ p.isExit = true) ∨
        (p.updated = true ∧ p.written = false) := by
  unfold outputBranch
  dsimp only
  split_ifs with helapsed hsent hanswered hack
  · simp [helapsed, hsent]
  · simp [helapsed, hanswered]
  · simp [helapsed, hack]
  · rw [serveOutput_flag]
    simp [hsent, hanswered, hack]
  · rw [serveOutput_flag]
    simp [helapsed]

theorem ioBranch_flag : (ioBranch config s p).m_bExitSession = true ↔
    s.m_bExitSession = true ∨ Elapsed config s.m_heartBeatTimestamp p.now ∨ p.read = false ∨
      p.isExit = true ∨ p.processed = false ∨ (p.updated = true ∧ p.written = false) := by
  unfold ioBranch
  dsimp only
  split_ifs with helapsed hread hexit hprocessed hfailed
  · simp [helapsed]
  · simp [hexit]
  · simp [hprocessed]
  · simp [hfailed]
  · simp [helapsed, hread, hexit, hprocessed, hfailed]
  · simp [hread]

@[simp] theorem refresh_status (config : SessionConfig) (s : Session) (now : ℤ) :
    (s.refresh config now).status = s.status := by
  unfold Session.refresh
  split_ifs <;> rfl

theorem serveOutput_status (s : Session) (p : Pass) (bytesAvail : ℕ) :
    (serveOutput s p bytesAvail).status = s.status := by
  unfold serveOutput
  split_ifs <;> rfl

/-- The branches go on to the rest of the pass. -/
theorem switchDirection_status (config : SessionConfig) (s : Session) (p : Pass) (bytesAvail : ℕ) :
    (switchDirection config s p bytesAvail).status = s.status := by
  unfold switchDirection
  cases config.m_eIoDirection with
  | unknown => rfl
  | input =>
    dsimp only
    unfold inputBranch
    split_ifs <;> first | rfl | exact refresh_status config s p.later
  | output =>
    dsimp only
    unfold outputBranch
    split_ifs <;> first | rfl | exact serveOutput_status _ p bytesAvail
  | io =>
    dsimp only
    unfold ioBranch
    split_ifs <;> first | rfl | exact refresh_status config s p.later

theorem checkSocket_status (config : SessionConfig) (s : Session) (p : Pass) :
    (checkSocket config s p).status = s.status := by
  unfold checkSocket
  dsimp only
  split_ifs <;> rfl

theorem checkSocket_flag : (checkSocket config s p).m_bExitSession = true ↔
    s.m_bExitSession = true ∨ p.stopped = true ∨
      (config.m_bMultiMsgSession = true ∧ p.stillOpen = false) := by
  unfold checkSocket
  dsimp only
  by_cases hstopped : p.stopped = true
  · rw [if_pos hstopped]
    simp [hstopped]
  · rw [if_neg hstopped]
    split_ifs with hclosed
    · simp [hclosed]
    · simp [hstopped, hclosed]

/-- The flag that a pass checks is set exactly under the condition. -/
theorem checkedFlag_iff {bytesAvail : ℕ} (havail : p.available = some bytesAvail) :
    (checkSocket config (switchDirection config s p bytesAvail) p).m_bExitSession = true ↔
      EndsSession config s p := by
  have horder {flag branch stopped closed : Prop} :
      (flag ∨ branch) ∨ stopped ∨ closed ↔ flag ∨ stopped ∨ closed ∨ branch :=
    or_assoc.trans (or_congr_right (or_comm.trans or_assoc))
  rw [checkSocket_flag]
  unfold EndsSession switchDirection
  rw [havail]
  cases config.m_eIoDirection with
  | unknown => simp
  | input =>
    dsimp only
    rw [inputBranch_flag]
    simp only [reduceCtorEq, false_or]
    exact horder
  | output =>
    dsimp only
    rw [outputBranch_flag]
    have hpos : 0 < bytesAvail ↔ some bytesAvail ≠ some 0 := by
      simp [Nat.pos_iff_ne_zero]
    rw [hpos]
    simp only [reduceCtorEq, false_or]
    exact horder
  | io =>
    dsimp only
    rw [ioBranch_flag]
    simp only [reduceCtorEq, false_or]
    exact horder

/-- A pass that ends the session leaves the loop. -/
theorem pass_of_endsSession (h : EndsSession config s p) :
    (pass config s p).status = .finished := by
  unfold pass
  cases havail : p.available with
  | none => rfl
  | some bytesAvail =>
    dsimp only [checkSession]
    rw [if_pos ((checkedFlag_iff havail).mpr h)]

/-- A pass of a session that goes on is left by an exception exactly when it does not end the
session and the peer is gone. -/
theorem pass_threw_iff (hrunning : s.status = .running) :
    (pass config s p).status = .threw ↔ ¬EndsSession config s p ∧ p.remoteAddress = none := by
  by_cases hends : EndsSession config s p
  · rw [pass_of_endsSession hends]
    exact iff_of_false nofun fun h ↦ h.1 hends
  · unfold pass
    cases havail : p.available with
    | none => exact absurd (.inl havail) hends
    | some bytesAvail =>
      have hflag := (checkedFlag_iff havail).not.mpr hends
      have hstatus := (checkSocket_status config (switchDirection config s p bytesAvail) p).trans
        ((switchDirection_status ..).trans hrunning)
      dsimp only [checkSession]
      rw [if_neg hflag]
      cases p.remoteAddress with
      | none => exact iff_of_true rfl ⟨hends, rfl⟩
      | some address =>
        refine iff_of_false ?_ fun h ↦ absurd h.2 (Option.some_ne_none address)
        cases address with
        | nil => exact nofun
        | cons c address =>
          dsimp only
          split_ifs
          · rw [hstatus]
            exact nofun
          · exact nofun

end Passes

end RdbLibs.NetIO.CTcpServer
