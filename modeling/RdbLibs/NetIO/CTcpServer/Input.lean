import Mathlib.Logic.Function.Basic
import RdbLibs.Foundations.Runs
import RdbLibs.NetIO.CTcpSession

/-!
# The input of the class `CTcpServer`

`CTcpServer::readInputData` and the input branch of `CTcpServer::acceptConnection`, of
`Src/NetIO/CServerIO.cpp`. The session thread repeats the branch on the one message `m_inputMsg`:
`CTcpSession::readMsgData`, and the comparison with "exit", which ends the session. Application
threads call `readInputData` meanwhile. The timeouts of the branch are left out.

A section under `m_dataLock` is one step, except where the session waits for the network with the
lock held: there the lock is taken in one step, and the bytes arrive in the next. An access of an
application thread outside such a section is a step, and so is a write of the session. What the
session reads of the fields, which no other thread writes, it reads in the step that follows.

A call that is not interrupted by another thread is the sequence of its steps: `run_readInputData`
and `run_readMsgData`.
-/

set_option autoImplicit false
set_option relaxedAutoImplicit false

namespace RdbLibs.NetIO.CTcpServer

open MachineWord CheckedMemory Runs

/-! ### The calls of an application -/

/-- The number of bytes that `readInputData` copies. -/
def copyLength (m_inputMsg : CNetMessageData) (nMax : ℕ) : ℕ :=
  if intToSize m_inputMsg.getBodyLength < nMax then intToSize m_inputMsg.getBodyLength else nMax

/-- The section of `readInputData` under the lock, in which the message is copied. Without a pointer
to copy from, the lock stays taken. -/
def copyInput (m_inputMsg : CNetMessageData) (nCopyLen : ℕ) :
    Except Fault (Option (List UInt8) × CNetMessageData) := do
  let (pData, m_inputMsg) ← m_inputMsg.getBodyPtr
  match pData with
  | none => return (none, m_inputMsg)
  | some pData =>
    let bytes ← loadRange (← m_inputMsg.cells) pData nCopyLen
    return (some bytes, ← m_inputMsg.releasePtr)

/-- What a call of `readInputData` returns, and what it has put where `pBuff` points to. -/
structure InputReply where
  value : ℤ
  bytes : List UInt8
deriving DecidableEq

/-- `CTcpServer::readInputData`. A null `pBuff` is refused as one without room is. Without a pointer
to copy from, it is `m_outputMsg` that is released. -/
def readInputData (m_inputMsg m_outputMsg : CNetMessageData) (nMax : ℕ) :
    Except Fault (InputReply × CNetMessageData × CNetMessageData) := do
  if nMax < 1 then return (⟨-1, []⟩, m_inputMsg, m_outputMsg)
  let nCopyLen := copyLength m_inputMsg nMax
  let (bytes, m_inputMsg) ← copyInput m_inputMsg nCopyLen
  match bytes with
  | none => return (⟨-2, []⟩, m_inputMsg, ← m_outputMsg.releasePtr)
  | some bytes => return (⟨toInt nCopyLen, bytes⟩, m_inputMsg, m_outputMsg)

/-! ### Threads -/

/-- The next step of the session thread, with what it has read before. -/
inductive InputPhase
  | clearAll
  | getDataPtr
  | readHeader (nLen : ℤ) (pData : ℕ)
  | decodeMsgHeader
  | clearMsgBody
  | getBodyPtr (nLen : ℤ)
  | readBody (nLen : ℤ) (pData : ℕ)
  | setBodyLength (nLen : ℤ) (status : ℕ)
  | setUpdated
  | compareMsgData
  | ended
deriving DecidableEq

/-- All threads of a server, and what they share. An application thread in `readInputData` is about
to copy the number of bytes it has determined. -/
structure Input (σ : Type) where
  m_inputMsg : CNetMessageData
  m_outputMsg : CNetMessageData
  pSession : CTcpSession
  socket : σ
  session : InputPhase
  apps : ℕ → Option ℕ

inductive InputEvent
  | getBodyLength (thread nMax : ℕ)
  | copy (thread : ℕ)
  | session
deriving DecidableEq

variable {σ : Type}

/-- The session after a read that has not waited: it goes on where the read was complete. -/
def Input.arrived (i : Input σ) (m_inputMsg : CNetMessageData) (received : Received σ)
    (next : InputPhase) : Input σ :=
  { i with
    m_inputMsg := m_inputMsg
    pSession := i.pSession.noteError received.completion
    socket := received.after
    session := match received.completion with
      | .success => next
      | _ => .ended }

/-- What follows a header that was read. -/
def afterHeader (nLen : ℤ) (status : ℕ) : InputPhase :=
  if status < intToSize nLen then .ended
  else if msgHeaderLen ≤ status then .decodeMsgHeader
  else .clearMsgBody

/-- The message "exit". -/
def exitMsg : List UInt8 := [0x65, 0x78, 0x69, 0x74]

/-- One step of the session thread, which has not ended. -/
def inputStep (net : Network σ) (i : Input σ) : Except Fault (Input σ) :=
  match i.session with
  | .clearAll => do
    return { i with m_inputMsg := ← i.m_inputMsg.clearAll, session := .getDataPtr }
  | .getDataPtr => do
    let nLen := i.m_inputMsg.getHeaderLength
    if nLen < 1 then return { i with session := .ended }
    let (pData, m_inputMsg) ← i.m_inputMsg.getDataPtr
    match pData with
    | none => return { i with m_inputMsg := ← m_inputMsg.releasePtr, session := .ended }
    | some pData => return { i with m_inputMsg := m_inputMsg, session := .readHeader nLen pData }
  | .readHeader nLen pData => do
    let received ← awaited (net.read i.socket (intToSize nLen))
    let m_inputMsg ← CTcpSession.putReceived i.m_inputMsg pData received.bytes
    let m_inputMsg ← m_inputMsg.releasePtr
    return i.arrived m_inputMsg received (afterHeader nLen received.bytes.length)
  | .decodeMsgHeader => do
    let (_, m_inputMsg) ← i.m_inputMsg.decodeMsgHeader i.pSession.m_sMsgType
    return { i with m_inputMsg := m_inputMsg, session := .clearMsgBody }
  | .clearMsgBody => do
    let nLen := i.m_inputMsg.getBodyLength
    if nLen < 1 then return { i with session := .ended }
    return { i with m_inputMsg := ← i.m_inputMsg.clearMsgBody, session := .getBodyPtr nLen }
  | .getBodyPtr nLen => do
    let (pData, m_inputMsg) ← i.m_inputMsg.getBodyPtr
    match pData with
    | none => return { i with m_inputMsg := ← m_inputMsg.releasePtr, session := .ended }
    | some pData => return { i with m_inputMsg := m_inputMsg, session := .readBody nLen pData }
  | .readBody nLen pData => do
    let received ← awaited (net.read i.socket (intToSize nLen))
    let m_inputMsg ← CTcpSession.putReceived i.m_inputMsg pData received.bytes
    let m_inputMsg ← m_inputMsg.releasePtr
    return i.arrived m_inputMsg received (.setBodyLength nLen received.bytes.length)
  | .setBodyLength nLen status => .ok { i with
      m_inputMsg := i.m_inputMsg.setBodyLength status
      session := if status < intToSize nLen then .ended else .setUpdated }
  | .setUpdated => .ok { i with
      m_inputMsg := i.m_inputMsg.setUpdated true, session := .compareMsgData }
  | .compareMsgData => do
    let (exit, m_inputMsg) ← i.m_inputMsg.compareMsgData (some exitMsg) 4
    return { i with
      m_inputMsg := m_inputMsg, session := if exit then .ended else .clearAll }
  | .ended => .error .waiting

/-- A step of any thread. An application thread that copies is answered. One that would copy while
the lock is taken waits. -/
inductive InputStep (net : Network σ) :
    Input σ → InputEvent → Option InputReply → Input σ → Prop
  | refused {i : Input σ} {thread : ℕ} : i.apps thread = none →
      InputStep net i (.getBodyLength thread 0) (some ⟨-1, []⟩) i
  | getBodyLength {i : Input σ} {thread nMax : ℕ} : i.apps thread = none → 0 < nMax →
      InputStep net i (.getBodyLength thread nMax) none { i with
        apps := Function.update i.apps thread (some (copyLength i.m_inputMsg nMax)) }
  | copy {i : Input σ} {thread nCopyLen : ℕ} {bytes : List UInt8} {m_inputMsg : CNetMessageData} :
      i.apps thread = some nCopyLen →
      copyInput i.m_inputMsg nCopyLen = .ok (some bytes, m_inputMsg) →
      InputStep net i (.copy thread) (some ⟨toInt nCopyLen, bytes⟩) { i with
        m_inputMsg := m_inputMsg, apps := Function.update i.apps thread none }
  | noPointer {i : Input σ} {thread nCopyLen : ℕ} {m_inputMsg m_outputMsg : CNetMessageData} :
      i.apps thread = some nCopyLen →
      copyInput i.m_inputMsg nCopyLen = .ok (none, m_inputMsg) →
      i.m_outputMsg.releasePtr = .ok m_outputMsg →
      InputStep net i (.copy thread) (some ⟨-2, []⟩) { i with
        m_inputMsg := m_inputMsg, m_outputMsg := m_outputMsg
        apps := Function.update i.apps thread none }
  | session {i i' : Input σ} : inputStep net i = .ok i' → InputStep net i .session none i'

/-! ### Calls that are not interrupted -/

section Uninterrupted

variable {net : Network σ} {i : Input σ}

/-- A call of `readInputData` that no other thread interrupts is the sequence of its steps. -/
theorem run_readInputData {thread nMax : ℕ} {reply : InputReply} {input output : CNetMessageData}
    (hidle : i.apps thread = none)
    (hcall : readInputData i.m_inputMsg i.m_outputMsg nMax = .ok (reply, input, output)) :
    ∃ trace, Run (InputStep net) i trace { i with m_inputMsg := input, m_outputMsg := output } ∧
      trace.filterMap Call.reply = [reply] := by
  unfold readInputData at hcall
  split_ifs at hcall with hroom
  · obtain ⟨rfl, hrest⟩ := Prod.mk.inj (Except.ok.inj hcall)
    obtain ⟨rfl, rfl⟩ := Prod.mk.inj hrest
    obtain rfl : nMax = 0 := by omega
    exact ⟨_, .cons (.refused hidle) (.nil _), rfl⟩
  · let asked : Input σ := { i with
      apps := Function.update i.apps thread (some (copyLength i.m_inputMsg nMax)) }
    have hasked : InputStep net i (.getBodyLength thread nMax) none asked :=
      .getBodyLength hidle (by omega)
    have hreading : asked.apps thread = some (copyLength i.m_inputMsg nMax) :=
      Function.update_self ..
    have hreturned : Function.update asked.apps thread none = i.apps := by
      rw [Function.update_idem, ← hidle, Function.update_eq_self]
    obtain ⟨⟨bytes, copied⟩, hcopy, hcall⟩ := of_bind_eq_ok hcall
    cases bytes with
    | none =>
      obtain ⟨released, hrelease, hcall⟩ := of_bind_eq_ok hcall
      obtain ⟨rfl, hrest⟩ := Prod.mk.inj (Except.ok.inj hcall)
      obtain ⟨rfl, rfl⟩ := Prod.mk.inj hrest
      have hlast : InputStep net asked (.copy thread) (some ⟨-2, []⟩) { asked with
          m_inputMsg := copied, m_outputMsg := released
          apps := Function.update asked.apps thread none } :=
        .noPointer hreading hcopy hrelease
      rw [hreturned] at hlast
      exact ⟨_, .cons hasked (.cons hlast (.nil _)), rfl⟩
    | some bytes =>
      obtain ⟨rfl, hrest⟩ := Prod.mk.inj (Except.ok.inj hcall)
      obtain ⟨rfl, rfl⟩ := Prod.mk.inj hrest
      have hlast : InputStep net asked (.copy thread)
          (some ⟨toInt (copyLength i.m_inputMsg nMax), bytes⟩) { asked with
            m_inputMsg := copied, apps := Function.update asked.apps thread none } :=
        .copy hreading hcopy
      rw [hreturned] at hlast
      exact ⟨_, .cons hasked (.cons hlast (.nil _)), rfl⟩

/-- The steps of the session thread, one after the other. -/
theorem Run.input {before after final : Input σ} (hstep : inputStep net before = .ok after)
    (hrest : ∃ trace, Run (InputStep net) after trace final) :
    ∃ trace, Run (InputStep net) before trace final := by
  obtain ⟨trace, hrun⟩ := hrest
  exact ⟨_, .cons (.session hstep) hrun⟩

/-- The session thread at a call of `CTcpSession`, before the next step of it. -/
def Input.at (i : Input σ) (c : Connection σ) (phase : InputPhase) : Input σ :=
  { i with m_inputMsg := c.msgData, pSession := c.session, socket := c.socket, session := phase }

/-- A call of `readMsgHeader` that no other thread interrupts is the sequence of its steps. -/
theorem run_readMsgHeader {c c' : Connection σ} {answer : Bool}
    (hcall : CTcpSession.readMsgHeader net c = .ok (answer, c')) :
    ∃ trace, Run (InputStep net) (i.at c .clearAll) trace
      (i.at c' (if answer then .clearMsgBody else .ended)) := by
  unfold CTcpSession.readMsgHeader at hcall
  obtain ⟨cleared, hclear, hcall⟩ := of_bind_eq_ok hcall
  have hfirst : inputStep net (i.at c .clearAll) =
      .ok (i.at ⟨c.session, cleared, c.socket⟩ .getDataPtr) := by
    unfold inputStep
    dsimp only [Input.at]
    rw [hclear]
    rfl
  refine Run.input hfirst ?_
  dsimp only at hcall
  by_cases hnone : cleared.getHeaderLength < 1
  · rw [if_pos hnone] at hcall
    obtain ⟨rfl, rfl⟩ := Prod.mk.inj (Except.ok.inj hcall)
    exact Run.input (if_pos hnone) ⟨[], .nil _⟩
  · rw [if_neg hnone] at hcall
    obtain ⟨⟨pointer, locked⟩, hpointer, hcall⟩ := of_bind_eq_ok hcall
    cases pointer with
    | none =>
      obtain ⟨released, hrelease, hcall⟩ := of_bind_eq_ok hcall
      obtain ⟨rfl, rfl⟩ := Prod.mk.inj (Except.ok.inj hcall)
      have hstep : inputStep net (i.at ⟨c.session, cleared, c.socket⟩ .getDataPtr) =
          .ok (i.at ⟨c.session, released, c.socket⟩ .ended) := by
        unfold inputStep
        dsimp only [Input.at]
        rw [if_neg hnone, hpointer, ok_bind]
        dsimp only
        rw [hrelease]
        rfl
      exact Run.input hstep ⟨[], .nil _⟩
    | some pData =>
      obtain ⟨received, hreceived, hcall⟩ := of_bind_eq_ok hcall
      obtain ⟨put, hput, hcall⟩ := of_bind_eq_ok hcall
      obtain ⟨released, hrelease, hcall⟩ := of_bind_eq_ok hcall
      have hlock : inputStep net (i.at ⟨c.session, cleared, c.socket⟩ .getDataPtr) =
          .ok (i.at ⟨c.session, locked, c.socket⟩ (.readHeader cleared.getHeaderLength pData)) := by
        unfold inputStep
        dsimp only [Input.at]
        rw [if_neg hnone, hpointer, ok_bind]
        rfl
      have hread : inputStep net
          (i.at ⟨c.session, locked, c.socket⟩ (.readHeader cleared.getHeaderLength pData)) =
            .ok ((i.at ⟨c.session, locked, c.socket⟩ .getDataPtr).arrived released received
              (afterHeader cleared.getHeaderLength received.bytes.length)) := by
        unfold inputStep
        dsimp only [Input.at]
        rw [hreceived, ok_bind, hput, ok_bind, hrelease]
        rfl
      refine Run.input hlock (Run.input hread ?_)
      cases hcompletion : received.completion with
      | thrown =>
        rw [hcompletion] at hcall
        obtain ⟨rfl, rfl⟩ := Prod.mk.inj (Except.ok.inj hcall)
        unfold Input.arrived
        rw [hcompletion]
        exact ⟨[], .nil _⟩
      | failure message =>
        rw [hcompletion] at hcall
        obtain ⟨rfl, rfl⟩ := Prod.mk.inj (Except.ok.inj hcall)
        unfold Input.arrived
        rw [hcompletion]
        exact ⟨[], .nil _⟩
      | success =>
        rw [hcompletion] at hcall
        dsimp only at hcall
        unfold Input.arrived afterHeader
        rw [hcompletion]
        by_cases hshort : received.bytes.length < intToSize cleared.getHeaderLength
        · rw [if_pos hshort] at hcall ⊢
          obtain ⟨rfl, rfl⟩ := Prod.mk.inj (Except.ok.inj hcall)
          exact ⟨[], .nil _⟩
        · rw [if_neg hshort] at hcall ⊢
          by_cases hwhole : msgHeaderLen ≤ received.bytes.length
          · rw [if_pos hwhole] at hcall ⊢
            obtain ⟨⟨decoded, message⟩, hdecode, hcall⟩ := of_bind_eq_ok hcall
            obtain ⟨rfl, rfl⟩ := Prod.mk.inj (Except.ok.inj hcall)
            refine Run.input ?_ ⟨[], .nil _⟩
            unfold inputStep
            dsimp only [Input.at]
            rw [hdecode]
            rfl
          · rw [if_neg hwhole] at hcall ⊢
            obtain ⟨rfl, rfl⟩ := Prod.mk.inj (Except.ok.inj hcall)
            exact ⟨[], .nil _⟩

/-- A call of `readMsgBody` that no other thread interrupts is the sequence of its steps. -/
theorem run_readMsgBody {c c' : Connection σ} {answer : Bool}
    (hcall : CTcpSession.readMsgBody net c = .ok (answer, c')) :
    ∃ trace, Run (InputStep net) (i.at c .clearMsgBody) trace
      (i.at c' (if answer then .compareMsgData else .ended)) := by
  unfold CTcpSession.readMsgBody at hcall
  dsimp only at hcall
  by_cases hnone : c.msgData.getBodyLength < 1
  · rw [if_pos hnone] at hcall
    obtain ⟨rfl, rfl⟩ := Prod.mk.inj (Except.ok.inj hcall)
    exact Run.input (if_pos hnone) ⟨[], .nil _⟩
  · rw [if_neg hnone] at hcall
    obtain ⟨cleared, hclear, hcall⟩ := of_bind_eq_ok hcall
    obtain ⟨⟨pointer, locked⟩, hpointer, hcall⟩ := of_bind_eq_ok hcall
    have hfirst : inputStep net (i.at c .clearMsgBody) =
        .ok (i.at ⟨c.session, cleared, c.socket⟩ (.getBodyPtr c.msgData.getBodyLength)) := by
      unfold inputStep
      dsimp only [Input.at]
      rw [if_neg hnone, hclear]
      rfl
    refine Run.input hfirst ?_
    cases pointer with
    | none =>
      obtain ⟨released, hrelease, hcall⟩ := of_bind_eq_ok hcall
      obtain ⟨rfl, rfl⟩ := Prod.mk.inj (Except.ok.inj hcall)
      refine Run.input ?_ ⟨[], .nil _⟩
      unfold inputStep
      dsimp only [Input.at]
      rw [hpointer, ok_bind]
      dsimp only
      rw [hrelease]
      rfl
    | some pData =>
      obtain ⟨received, hreceived, hcall⟩ := of_bind_eq_ok hcall
      obtain ⟨put, hput, hcall⟩ := of_bind_eq_ok hcall
      obtain ⟨released, hrelease, hcall⟩ := of_bind_eq_ok hcall
      have hlock : inputStep net
          (i.at ⟨c.session, cleared, c.socket⟩ (.getBodyPtr c.msgData.getBodyLength)) =
            .ok (i.at ⟨c.session, locked, c.socket⟩
              (.readBody c.msgData.getBodyLength pData)) := by
        unfold inputStep
        dsimp only [Input.at]
        rw [hpointer, ok_bind]
        rfl
      have hread : inputStep net
          (i.at ⟨c.session, locked, c.socket⟩ (.readBody c.msgData.getBodyLength pData)) =
            .ok ((i.at ⟨c.session, locked, c.socket⟩ .getDataPtr).arrived released received
              (.setBodyLength c.msgData.getBodyLength received.bytes.length)) := by
        unfold inputStep
        dsimp only [Input.at]
        rw [hreceived, ok_bind, hput, ok_bind, hrelease]
        rfl
      refine Run.input hlock (Run.input hread ?_)
      unfold Input.arrived
      cases hcompletion : received.completion with
      | thrown =>
        rw [hcompletion] at hcall
        obtain ⟨rfl, rfl⟩ := Prod.mk.inj (Except.ok.inj hcall)
        exact ⟨[], .nil _⟩
      | failure message =>
        rw [hcompletion] at hcall
        obtain ⟨rfl, rfl⟩ := Prod.mk.inj (Except.ok.inj hcall)
        exact ⟨[], .nil _⟩
      | success =>
        rw [hcompletion] at hcall
        dsimp only at hcall
        refine Run.input rfl ?_
        dsimp only
        by_cases hshort : received.bytes.length < intToSize c.msgData.getBodyLength
        · rw [if_pos hshort] at hcall ⊢
          obtain ⟨rfl, rfl⟩ := Prod.mk.inj (Except.ok.inj hcall)
          exact ⟨[], .nil _⟩
        · rw [if_neg hshort] at hcall ⊢
          obtain ⟨rfl, rfl⟩ := Prod.mk.inj (Except.ok.inj hcall)
          exact Run.input rfl ⟨[], .nil _⟩

/-- A call of `readMsgData` that no other thread interrupts is the sequence of its steps. -/
theorem run_readMsgData {c c' : Connection σ} {answer : Bool}
    (hcall : CTcpSession.readMsgData net c = .ok (answer, c')) :
    ∃ trace, Run (InputStep net) (i.at c .clearAll) trace
      (i.at c' (if answer then .compareMsgData else .ended)) := by
  unfold CTcpSession.readMsgData at hcall
  obtain ⟨⟨bHeader, headed⟩, hheader, hcall⟩ := of_bind_eq_ok hcall
  obtain ⟨first, hfirst⟩ := run_readMsgHeader hheader
  cases bHeader with
  | false =>
    obtain ⟨rfl, rfl⟩ := Prod.mk.inj (Except.ok.inj hcall)
    exact ⟨first, hfirst⟩
  | true =>
    obtain ⟨⟨bBody, read⟩, hbody, hcall⟩ := of_bind_eq_ok hcall
    obtain ⟨second, hsecond⟩ := run_readMsgBody hbody
    have hboth : Run (InputStep net) (i.at c .clearAll) (first ++ second)
        (i.at read (if bBody then .compareMsgData else .ended)) := hfirst.append hsecond
    cases bBody with
    | false =>
      obtain ⟨rfl, rfl⟩ := Prod.mk.inj (Except.ok.inj hcall)
      exact ⟨_, hboth⟩
    | true =>
      obtain ⟨rfl, rfl⟩ := Prod.mk.inj (Except.ok.inj hcall)
      exact ⟨_, hboth⟩

end Uninterrupted

end RdbLibs.NetIO.CTcpServer
