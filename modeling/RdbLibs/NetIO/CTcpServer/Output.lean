import Mathlib.Logic.Function.Basic
import RdbLibs.Foundations.Runs
import RdbLibs.NetIO.AllocatedMessage
import RdbLibs.NetIO.CTcpSession

/-!
# The output of the class `CTcpServer`

`CTcpServer::writeOutputData`, `CTcpServer::sendOutput` and the output branch of
`CTcpServer::acceptConnection`, of `Src/NetIO/CServerIO.cpp`. Application threads call the first
two, and the session thread repeats the third, on the one message `m_outputMsg`. A section under
`m_dataLock` is one step, and so is an access to the flag or to a length outside such a section.

The session sends with `CTcpSession::sendMsgData` or with `CTcpSession::writeMsgData`, which differ
in the transfer alone. Transfers succeed: all bytes are put on the wire. What one transfer puts on
the wire is one entry of `wire`. The `getBodyLength` that the branch logs is left out.

A call that is not interrupted by another thread is the sequence of its steps: `run_writeOutputData`
and `run_transmit`.
-/

set_option autoImplicit false
set_option relaxedAutoImplicit false

namespace RdbLibs.NetIO.CTcpServer

open MachineWord CheckedMemory Runs

/-! ### The calls of an application -/

/-- The section of `writeOutputData` under the lock, in which the message is copied. It answers
whether there was a pointer to copy to. -/
def copyBody (m_outputMsg : CNetMessageData) (message : List UInt8) :
    Except Fault (Bool × CNetMessageData) := do
  let (pData, m_outputMsg) ← m_outputMsg.getBodyPtr
  match pData with
  | none => return (false, ← m_outputMsg.releasePtr)
  | some pData =>
    let m_outputMsg ← m_outputMsg.access fun cells ↦ storeRange cells pData message
    return (true, ← m_outputMsg.releasePtr)

/-- The part of `writeOutputData` that allocates a buffer when there is none. -/
def allocateMissing (m_outputMsg : CNetMessageData) (nLen : ℕ) (granted : Bool) :
    Except Fault CNetMessageData :=
  if m_outputMsg.isBufferAllocated = false then
    (m_outputMsg.allocBuffer nLen granted).map Prod.snd
  else .ok m_outputMsg

/-- The part of `writeOutputData` that allocates a larger buffer when there is one too small. -/
def growBuffer (m_outputMsg : CNetMessageData) (nCopyLen : ℕ) (granted : Bool) :
    Except Fault CNetMessageData :=
  if intToSize m_outputMsg.getMaxDataLen < nCopyLen then
    (m_outputMsg.allocBuffer nCopyLen granted).map Prod.snd
  else .ok m_outputMsg

/-- `CTcpServer::writeOutputData`, with the bytes that `pBuff` points to. A null pointer is refused
as a message without bytes is. `granted` and `regranted` are whether `malloc` serves the memory. -/
def writeOutputData (m_outputMsg : CNetMessageData) (message : List UInt8)
    (granted regranted : Bool) : Except Fault (ℤ × CNetMessageData) := do
  if message.length < 1 then return (-1, m_outputMsg)
  let m_outputMsg ← allocateMissing m_outputMsg message.length granted
  let m_outputMsg ← growBuffer m_outputMsg message.length regranted
  let (copied, m_outputMsg) ← copyBody m_outputMsg message
  if copied = false then return (0, m_outputMsg)
  return (toInt message.length, m_outputMsg.setBodyLength message.length)

/-- `CTcpServer::sendOutput`. -/
def sendOutput (m_outputMsg : CNetMessageData) : Bool × CNetMessageData :=
  (true, m_outputMsg.setUpdated true)

/-! ### Threads -/

/-- The next step of a thread in `writeOutputData`. -/
inductive WritePhase
  | isBufferAllocated
  | allocBuffer
  | getMaxDataLen
  | growBuffer
  | copyBody
  | setBodyLength
deriving DecidableEq

/-- Where an application thread is. It is `written` when its last call was a `writeOutputData`. -/
inductive AppPhase
  | idle
  | writing (message : List UInt8) (phase : WritePhase)
  | written (message : List UInt8)
deriving DecidableEq

/-- The next step of the session thread, with the length that it has read. -/
inductive SessionPhase
  | isUpdated
  | getCurDataLen
  | isBufferAllocated (nLen : ℤ)
  | encodeHeader (nLen : ℤ)
  | transfer (nLen : ℤ)
  | setUpdated
  | setUpdatedAgain
  | ended
deriving DecidableEq

/-- All threads of a server, and what they share. -/
structure Output where
  m_outputMsg : CNetMessageData
  apps : ℕ → AppPhase
  session : SessionPhase
  wire : List (List UInt8)

inductive Event
  | call (thread : ℕ) (message : List UInt8)
  | write (thread : ℕ) (granted : Bool)
  | sendOutput (thread : ℕ)
  | session
deriving DecidableEq

/-- A thread that is not in `writeOutputData`. -/
def AppPhase.BetweenCalls : AppPhase → Prop
  | .writing _ _ => False
  | _ => True

/-- One step of `writeOutputData`. -/
def WritePhase.step (m_outputMsg : CNetMessageData) (message : List UInt8) (granted : Bool) :
    WritePhase → Except Fault (CNetMessageData × AppPhase)
  | .isBufferAllocated =>
    if m_outputMsg.isBufferAllocated = false then .ok (m_outputMsg, .writing message .allocBuffer)
    else .ok (m_outputMsg, .writing message .getMaxDataLen)
  | .allocBuffer => do
    let m_outputMsg ← (m_outputMsg.allocBuffer message.length granted).map Prod.snd
    return (m_outputMsg, .writing message .getMaxDataLen)
  | .getMaxDataLen =>
    if intToSize m_outputMsg.getMaxDataLen < message.length then
      .ok (m_outputMsg, .writing message .growBuffer)
    else .ok (m_outputMsg, .writing message .copyBody)
  | .growBuffer => do
    let m_outputMsg ← (m_outputMsg.allocBuffer message.length granted).map Prod.snd
    return (m_outputMsg, .writing message .copyBody)
  | .copyBody => do
    let (copied, m_outputMsg) ← CTcpServer.copyBody m_outputMsg message
    if copied = false then return (m_outputMsg, .written message)
    return (m_outputMsg, .writing message .setBodyLength)
  | .setBodyLength => .ok (m_outputMsg.setBodyLength message.length, .written message)

/-- The section of `encodeMsgHeader` under the lock. -/
def encodeHeader (m_outputMsg : CNetMessageData) (sType : List UInt8) :
    Except Fault CNetMessageData := do
  let (_, m_outputMsg) ← m_outputMsg.getDataPtr
  let nLen := intToUnsigned m_outputMsg.getBodyLength
  let m_outputMsg ← m_outputMsg.access fun cells ↦
    NetworkDataHeaderInfo.initializeHeader cells (some sType) nLen
  m_outputMsg.releasePtr

/-- One step of the session thread, whose type of message is `sType`. -/
def sessionStep (sType : List UInt8) (o : Output) : Except Fault Output :=
  match o.session with
  | .isUpdated =>
    if o.m_outputMsg.isUpdated then .ok { o with session := .getCurDataLen } else .ok o
  | .getCurDataLen =>
    if o.m_outputMsg.getCurDataLen < 1 then .ok { o with session := .ended }
    else .ok { o with session := .isBufferAllocated o.m_outputMsg.getCurDataLen }
  | .isBufferAllocated nLen =>
    if o.m_outputMsg.isBufferAllocated = false then .ok { o with session := .transfer nLen }
    else .ok { o with session := .encodeHeader nLen }
  | .encodeHeader nLen => do
    return { o with m_outputMsg := ← encodeHeader o.m_outputMsg sType, session := .transfer nLen }
  | .transfer nLen => do
    let (pData, m_outputMsg) ← o.m_outputMsg.getDataPtr
    match pData with
    | none => return { o with m_outputMsg := ← m_outputMsg.releasePtr, session := .ended }
    | some pData =>
      let bytes ← loadRange (← m_outputMsg.cells) pData (intToSize nLen)
      return { o with
        m_outputMsg := ← m_outputMsg.releasePtr, session := .setUpdated, wire := o.wire ++ [bytes] }
  | .setUpdated =>
    .ok { o with m_outputMsg := o.m_outputMsg.setUpdated false, session := .setUpdatedAgain }
  | .setUpdatedAgain =>
    .ok { o with m_outputMsg := o.m_outputMsg.setUpdated false, session := .isUpdated }
  | .ended => .ok o

/-- What the step of an application thread makes of the message and of the thread. -/
def Output.move (o : Output) (thread : ℕ) (m_outputMsg : CNetMessageData) (next : AppPhase) :
    Output :=
  { o with m_outputMsg := m_outputMsg, apps := Function.update o.apps thread next }

/-- A step of any thread. The length of a message is an `unsigned int`. -/
inductive Step (sType : List UInt8) : Output → Event → Unit → Output → Prop
  | call {o : Output} {thread : ℕ} {message : List UInt8} : (o.apps thread).BetweenCalls →
      0 < message.length → message.length < 2 ^ 32 →
      Step sType o (.call thread message) ()
        (o.move thread o.m_outputMsg (.writing message .isBufferAllocated))
  | refusedCall {o : Output} {thread : ℕ} : (o.apps thread).BetweenCalls →
      Step sType o (.call thread []) () o
  | write {o : Output} {thread : ℕ} {granted : Bool} {message : List UInt8} {phase : WritePhase}
      {m_outputMsg : CNetMessageData} {next : AppPhase} : o.apps thread = .writing message phase →
      phase.step o.m_outputMsg message granted = .ok (m_outputMsg, next) →
      Step sType o (.write thread granted) () (o.move thread m_outputMsg next)
  | sendOutput {o : Output} {thread : ℕ} : (o.apps thread).BetweenCalls →
      Step sType o (.sendOutput thread) ()
        (o.move thread (CTcpServer.sendOutput o.m_outputMsg).2 .idle)
  | session {o o' : Output} : sessionStep sType o = .ok o' → Step sType o .session () o'

/-- A server whose message was allocated, before its threads have started. -/
structure Ready (o : Output) : Prop where
  allocated : ∃ payload, CNetMessageData.Allocated payload o.m_outputMsg
  apps : ∀ thread, o.apps thread = .idle
  session : o.session = .isUpdated
  wire : o.wire = []

/-- The server whose message has room for `payload` bytes. -/
def newServer (payload : ℕ) : Output where
  m_outputMsg := CNetMessageData.newMessage payload
  apps := fun _ ↦ .idle
  session := .isUpdated
  wire := []

theorem ready_newServer {payload : ℕ} (hpos : 0 < payload)
    (hfits : msgHeaderLen + payload < 2 ^ 32) : Ready (newServer payload) :=
  ⟨⟨payload, CNetMessageData.allocated_newMessage hpos hfits⟩, fun _ ↦ rfl, rfl, rfl⟩

/-! ### Calls that are not interrupted -/

section Uninterrupted

variable {sType : List UInt8} {o : Output} {thread : ℕ}

theorem Output.apps_move (o : Output) (thread : ℕ) (m_outputMsg : CNetMessageData)
    (next : AppPhase) : (o.move thread m_outputMsg next).apps thread = next :=
  Function.update_self ..

theorem Output.move_move (o : Output) (thread : ℕ) (first second : CNetMessageData)
    (next after : AppPhase) :
    (o.move thread first next).move thread second after = o.move thread second after := by
  unfold Output.move
  rw [Function.update_idem]

/-- The steps of a thread in `writeOutputData`, one after the other. -/
theorem Run.write {message : List UInt8} {granted : Bool} {phase : WritePhase}
    {before after : CNetMessageData} {next : AppPhase}
    (hstep : phase.step before message granted = .ok (after, next)) {final : Output}
    (hrest : ∃ trace, Run (Step sType) (o.move thread after next) trace final) :
    ∃ trace, Run (Step sType) (o.move thread before (.writing message phase)) trace final := by
  obtain ⟨trace, hrun⟩ := hrest
  have hfirst : Step sType (o.move thread before (.writing message phase)) (.write thread granted)
      () (o.move thread after next) := by
    rw [← o.move_move thread before after (.writing message phase) next]
    exact .write (o.apps_move ..) hstep
  exact ⟨_, .cons hfirst hrun⟩

section Write

variable {message : List UInt8} {final : Output}

/-- A buffer is allocated where there is none. -/
theorem run_allocateMissing {before allocated : CNetMessageData} {granted : Bool}
    (hallocated : allocateMissing before message.length granted = .ok allocated)
    (hrest : ∃ trace, Run (Step sType)
      (o.move thread allocated (.writing message .getMaxDataLen)) trace final) :
    ∃ trace, Run (Step sType) (o.move thread before (.writing message .isBufferAllocated)) trace
      final := by
  unfold allocateMissing at hallocated
  split_ifs at hallocated with hnone
  · have htest : WritePhase.isBufferAllocated.step before message false =
        .ok (before, .writing message .allocBuffer) := if_pos hnone
    have hstep : WritePhase.allocBuffer.step before message granted =
        .ok (allocated, .writing message .getMaxDataLen) := by
      rw [WritePhase.step, hallocated]
      rfl
    exact Run.write htest (Run.write hstep hrest)
  · obtain rfl := Except.ok.inj hallocated
    have htest : WritePhase.isBufferAllocated.step before message false =
        .ok (before, .writing message .getMaxDataLen) := if_neg hnone
    exact Run.write htest hrest

/-- A larger buffer is allocated where the message does not fit. -/
theorem run_growBuffer {allocated grown : CNetMessageData} {granted : Bool}
    (hgrown : growBuffer allocated message.length granted = .ok grown)
    (hrest : ∃ trace, Run (Step sType) (o.move thread grown (.writing message .copyBody)) trace
      final) :
    ∃ trace, Run (Step sType) (o.move thread allocated (.writing message .getMaxDataLen)) trace
      final := by
  unfold growBuffer at hgrown
  split_ifs at hgrown with hsmall
  · have htest : WritePhase.getMaxDataLen.step allocated message false =
        .ok (allocated, .writing message .growBuffer) := if_pos hsmall
    have hstep : WritePhase.growBuffer.step allocated message granted =
        .ok (grown, .writing message .copyBody) := by
      rw [WritePhase.step, hgrown]
      rfl
    exact Run.write htest (Run.write hstep hrest)
  · obtain rfl := Except.ok.inj hgrown
    have htest : WritePhase.getMaxDataLen.step allocated message false =
        .ok (allocated, .writing message .copyBody) := if_neg hsmall
    exact Run.write htest hrest

/-- The message is copied, and its length is set where there was a pointer to copy to. -/
theorem run_copyBody {grown written : CNetMessageData} {copied : Bool}
    (hcopy : copyBody grown message = .ok (copied, written)) :
    ∃ trace, Run (Step sType) (o.move thread grown (.writing message .copyBody)) trace
      (o.move thread (if copied = false then written else written.setBodyLength message.length)
        (.written message)) := by
  cases copied with
  | false =>
    have hstep : WritePhase.copyBody.step grown message false =
        .ok (written, .written message) := by
      rw [WritePhase.step, hcopy]
      rfl
    exact Run.write hstep ⟨[], .nil _⟩
  | true =>
    have hstep : WritePhase.copyBody.step grown message false =
        .ok (written, .writing message .setBodyLength) := by
      rw [WritePhase.step, hcopy]
      rfl
    have hlast : WritePhase.setBodyLength.step written message false =
        .ok (written.setBodyLength message.length, .written message) := rfl
    exact Run.write hstep (Run.write hlast ⟨[], .nil _⟩)

/-- A call of `writeOutputData` that no other thread interrupts is the sequence of its steps. -/
theorem run_writeOutputData (hbetween : (o.apps thread).BetweenCalls)
    (hpos : 0 < message.length) (hlength : message.length < 2 ^ 32) {granted regranted : Bool}
    {result : ℤ} {after : CNetMessageData}
    (hcall : writeOutputData o.m_outputMsg message granted regranted = .ok (result, after)) :
    ∃ trace, Run (Step sType) o trace (o.move thread after (.written message)) := by
  unfold writeOutputData at hcall
  rw [if_neg (not_lt.mpr hpos)] at hcall
  obtain ⟨allocated, hallocated, hcall⟩ := of_bind_eq_ok hcall
  obtain ⟨grown, hgrown, hcall⟩ := of_bind_eq_ok hcall
  obtain ⟨⟨copied, written⟩, hcopy, hcall⟩ := of_bind_eq_ok hcall
  have hafter : (if copied = false then written else written.setBodyLength message.length) =
      after := by
    cases copied with
    | false => exact (Prod.mk.inj (Except.ok.inj hcall)).2
    | true => exact (Prod.mk.inj (Except.ok.inj hcall)).2
  have hset : ∃ trace, Run (Step sType) (o.move thread grown (.writing message .copyBody)) trace
      (o.move thread after (.written message)) := by
    rw [← hafter]
    exact run_copyBody hcopy
  obtain ⟨trace, hrun⟩ := run_allocateMissing hallocated (run_growBuffer hgrown hset)
  exact ⟨_, .cons (.call hbetween hpos hlength) hrun⟩

end Write

/-- A transfer that puts its bytes on the wire. -/
def putOnWire (wire : List (List UInt8)) (bytes : List UInt8) :
    Option (Sent (List (List UInt8))) :=
  some ⟨bytes.length, .success, wire ++ [bytes]⟩

theorem encodeMsgHeader_eq (d : CNetMessageData) (sType : List UInt8) :
    d.encodeMsgHeader sType =
      if d.isBufferAllocated = false then .ok (false, d)
      else (encodeHeader d sType).map fun encoded ↦ (true, encoded) := by
  unfold CNetMessageData.encodeMsgHeader encodeHeader
  split_ifs with hallocated
  · rfl
  · cases d.getDataPtr with
    | error fault => rfl
    | ok pointer =>
      rw [ok_bind, ok_bind]
      dsimp only
      cases pointer.2.access _ with
      | error fault => rfl
      | ok written =>
        rw [ok_bind, ok_bind]
        cases written.releasePtr <;> rfl

/-- The steps of the session thread, one after the other. -/
theorem Run.session {before after final : Output} (hstep : sessionStep sType before = .ok after)
    (hrest : ∃ trace, Run (Step sType) after trace final) :
    ∃ trace, Run (Step sType) before trace final := by
  obtain ⟨trace, hrun⟩ := hrest
  exact ⟨_, .cons (.session hstep) hrun⟩

section Transmit

variable {d encoded locked released : CNetMessageData} {apps : ℕ → AppPhase}
  {wire : List (List UInt8)}

/-- The header is encoded where there is a buffer. -/
theorem run_encodeHeader {allocated : Bool} {final : Output}
    (hencode : d.encodeMsgHeader sType = .ok (allocated, encoded))
    (hrest : ∃ trace, Run (Step sType) ⟨encoded, apps, .transfer d.getCurDataLen, wire⟩ trace
      final) :
    ∃ trace, Run (Step sType) ⟨d, apps, .isBufferAllocated d.getCurDataLen, wire⟩ trace final := by
  rw [encodeMsgHeader_eq] at hencode
  split_ifs at hencode with hnone
  · obtain ⟨rfl, rfl⟩ := Prod.mk.inj (Except.ok.inj hencode)
    exact Run.session (if_pos hnone) hrest
  · have hstep : sessionStep sType ⟨d, apps, .encodeHeader d.getCurDataLen, wire⟩ =
        .ok ⟨encoded, apps, .transfer d.getCurDataLen, wire⟩ := by
      cases hlocked : encodeHeader d sType with
      | error fault =>
        rw [hlocked] at hencode
        cases hencode
      | ok written =>
        rw [hlocked] at hencode
        obtain ⟨-, rfl⟩ := Prod.mk.inj (Except.ok.inj hencode)
        unfold sessionStep
        dsimp only
        rw [hlocked]
        rfl
    exact Run.session (if_neg hnone) (Run.session hstep hrest)

/-- The transfer of a message without a buffer ends the session. -/
theorem sessionStep_transfer_none {nLen : ℤ} (hpointer : encoded.getDataPtr = .ok (none, locked))
    (hreleased : locked.releasePtr = .ok released) :
    sessionStep sType ⟨encoded, apps, .transfer nLen, wire⟩ =
      .ok ⟨released, apps, .ended, wire⟩ := by
  unfold sessionStep
  dsimp only
  rw [hpointer, ok_bind]
  dsimp only
  rw [hreleased]
  rfl

/-- The transfer of a message puts its bytes on the wire. -/
theorem sessionStep_transfer_some {nLen : ℤ} {pData : ℕ} {cells bytes : List UInt8}
    (hpointer : encoded.getDataPtr = .ok (some pData, locked))
    (hcells : locked.cells = .ok cells)
    (hbytes : loadRange cells pData (intToSize nLen) = .ok bytes)
    (hreleased : locked.releasePtr = .ok released) :
    sessionStep sType ⟨encoded, apps, .transfer nLen, wire⟩ =
      .ok ⟨released, apps, .setUpdated, wire ++ [bytes]⟩ := by
  unfold sessionStep
  dsimp only
  rw [hpointer, ok_bind]
  dsimp only
  rw [hcells, ok_bind, hbytes, ok_bind, hreleased]
  rfl

/-- A call of `sendMsgData` or of `writeMsgData` that no other thread interrupts is the sequence of
its steps. -/
theorem run_transmit {session : CTcpSession} (hsession : o.session = .getCurDataLen)
    {answer : Bool} {c : Connection (List (List UInt8))}
    (hcall : CTcpSession.transmit putOnWire ⟨session, o.m_outputMsg, o.wire⟩ = .ok (answer, c)) :
    ∃ trace, Run (Step session.m_sMsgType) o trace { o with
      m_outputMsg := c.msgData, wire := c.socket
      session := if answer then .setUpdatedAgain else .ended } := by
  obtain ⟨d, apps, phase, wire⟩ := o
  dsimp only at hsession hcall ⊢
  subst hsession
  unfold CTcpSession.transmit at hcall
  dsimp only at hcall
  by_cases hempty : d.getCurDataLen < 1
  · rw [if_pos hempty] at hcall
    obtain ⟨rfl, rfl⟩ := Prod.mk.inj (Except.ok.inj hcall)
    exact Run.session (if_pos hempty) ⟨[], .nil _⟩
  · rw [if_neg hempty] at hcall
    obtain ⟨⟨allocated, encoded⟩, hencode, hcall⟩ := of_bind_eq_ok hcall
    obtain ⟨⟨pointer, locked⟩, hpointer, hcall⟩ := of_bind_eq_ok hcall
    refine Run.session (if_neg hempty) (run_encodeHeader hencode ?_)
    cases pointer with
    | none =>
      obtain ⟨released, hreleased, hcall⟩ := of_bind_eq_ok hcall
      obtain ⟨rfl, rfl⟩ := Prod.mk.inj (Except.ok.inj hcall)
      exact Run.session (sessionStep_transfer_none hpointer hreleased) ⟨[], .nil _⟩
    | some pData =>
      obtain ⟨cells, hcells, hcall⟩ := of_bind_eq_ok hcall
      obtain ⟨bytes, hbytes, hcall⟩ := of_bind_eq_ok hcall
      obtain ⟨sent, hsent, hcall⟩ := of_bind_eq_ok hcall
      obtain rfl := Except.ok.inj hsent
      obtain ⟨released, hreleased, hcall⟩ := of_bind_eq_ok hcall
      have hcount : ¬bytes.length < intToSize d.getCurDataLen := by
        unfold loadRange at hbytes
        split_ifs at hbytes with hinside
        obtain rfl := Except.ok.inj hbytes
        rw [List.length_take, List.length_drop]
        omega
      dsimp only at hcall
      rw [if_neg hcount] at hcall
      obtain ⟨rfl, rfl⟩ := Prod.mk.inj (Except.ok.inj hcall)
      exact Run.session (sessionStep_transfer_some hpointer hcells hbytes hreleased)
        (Run.session rfl ⟨[], .nil _⟩)

end Transmit

end Uninterrupted

end RdbLibs.NetIO.CTcpServer
