import Mathlib.Data.List.Forall2
import RdbLibs.NetIO.CTcpServer.InputSession
import RdbLibs.NetIO.CTcpServer.Output

/-!
# A client and the request-reply session of a server

The session of a `CTcpServer` of the direction `IO`, with `m_bMultiMsgSession`: it reads a message
as the direction `input` does, lets the application process it, and sends the output message if that
was updated. When it ends without a message "exit" of the client, it sends one itself. The timeout
and the checks of the socket between two passes, which may end a session before that, are left out,
and memory is always served.

`CTcpServer::processInputMsg` is a placeholder, in whose place an application puts what it does with
a message. What it does is a parameter: it answers whether the message was processed, and may give
one message to the server before, with `writeOutputData` and `sendOutput`.

A session serves the messages of a client from first to last, each by the answer to it and nothing
else, up to one that is too long for the server, that starts with "exit", or that the application
does not process (`session_serves_iff`).
-/

set_option autoImplicit false
set_option relaxedAutoImplicit false

namespace RdbLibs.NetIO

open BlockAccess MachineWord CheckedMemory CNetMessageData NetworkDataHeaderInfo TcpFraming

variable {σ τ : Type}

/-! ### What a transfer does not change -/

namespace CTcpSession

variable {net : Network σ} {P : σ → Prop}

/-- What no read changes is as before a call of `readMsgHeader`. -/
theorem readMsgHeader_keeps
    (hread : ∀ socket size received, net.read socket size = some received → P socket →
      P received.after) {c : Connection σ} (hc : P c.socket) :
    Yields (fun _ ↦ True) (readMsgHeader net c) fun r ↦ P r.2.socket := by
  unfold readMsgHeader
  refine (yields_any _).bind fun cleared _ ↦ ?_
  refine .ite (fun _ ↦ .pure hc) fun _ ↦ ?_
  refine (yields_any _).bind fun pointer _ ↦ ?_
  obtain ⟨pData, locked⟩ := pointer
  cases pData with
  | none => exact (yields_any _).bind fun _ _ ↦ .pure hc
  | some pData =>
    cases hreceived : net.read c.socket (intToSize cleared.getHeaderLength) with
    | none => exact .error trivial
    | some received =>
      have hafter : P received.after := hread _ _ _ hreceived hc
      dsimp only
      rw [awaited_some, ok_bind]
      refine (yields_any _).bind fun written _ ↦ ?_
      refine (yields_any _).bind fun released _ ↦ ?_
      cases received.completion with
      | thrown => exact .pure hafter
      | failure message => exact .pure hafter
      | success =>
        refine .ite (fun _ ↦ .pure hafter) fun _ ↦ ?_
        refine .ite (fun _ ↦ ?_) fun _ ↦ .pure hafter
        exact (yields_any _).bind fun _ _ ↦ .pure hafter

theorem readMsgBody_keeps
    (hread : ∀ socket size received, net.read socket size = some received → P socket →
      P received.after) {c : Connection σ} (hc : P c.socket) :
    Yields (fun _ ↦ True) (readMsgBody net c) fun r ↦ P r.2.socket := by
  unfold readMsgBody
  refine .ite (fun _ ↦ .pure hc) fun _ ↦ ?_
  refine (yields_any _).bind fun cleared _ ↦ ?_
  refine (yields_any _).bind fun pointer _ ↦ ?_
  obtain ⟨pData, locked⟩ := pointer
  cases pData with
  | none => exact (yields_any _).bind fun _ _ ↦ .pure hc
  | some pData =>
    cases hreceived : net.read c.socket (intToSize c.msgData.getBodyLength) with
    | none => exact .error trivial
    | some received =>
      have hafter : P received.after := hread _ _ _ hreceived hc
      dsimp only
      rw [awaited_some, ok_bind]
      refine (yields_any _).bind fun written _ ↦ ?_
      refine (yields_any _).bind fun released _ ↦ ?_
      cases received.completion with
      | thrown => exact .pure hafter
      | failure message => exact .pure hafter
      | success => exact .ite (fun _ ↦ .pure hafter) fun _ ↦ .pure hafter

theorem readMsgData_keeps
    (hread : ∀ socket size received, net.read socket size = some received → P socket →
      P received.after) {c : Connection σ} (hc : P c.socket) :
    Yields (fun _ ↦ True) (readMsgData net c) fun r ↦ P r.2.socket := by
  unfold readMsgData
  refine (readMsgHeader_keeps hread hc).bind fun header hheader ↦ ?_
  refine .ite (fun _ ↦ ?_) fun _ ↦ .pure hheader
  refine (readMsgBody_keeps hread hheader).bind fun body hbody ↦ ?_
  exact .ite (fun _ ↦ .pure hbody) fun _ ↦ .pure hbody

/-- What a transfer does not change is as before a message is sent by it. -/
theorem transmit_keeps {transfer : σ → List UInt8 → Option (Sent σ)}
    (htransfer : ∀ socket bytes sent, transfer socket bytes = some sent → P socket → P sent.after)
    {c : Connection σ} (hc : P c.socket) :
    Yields (fun _ ↦ True) (transmit transfer c) fun r ↦ P r.2.socket := by
  unfold transmit
  refine .ite (fun _ ↦ .pure hc) fun _ ↦ ?_
  refine (yields_any _).bind fun encoded _ ↦ ?_
  refine (yields_any _).bind fun pointer _ ↦ ?_
  obtain ⟨pData, locked⟩ := pointer
  cases pData with
  | none => exact (yields_any _).bind fun _ _ ↦ .pure hc
  | some pData =>
    refine (yields_any _).bind fun cells _ ↦ ?_
    refine (yields_any _).bind fun bytes _ ↦ ?_
    cases hsent : transfer c.socket bytes with
    | none => exact .error trivial
    | some sent =>
      have hafter : P sent.after := htransfer _ _ _ hsent hc
      rw [awaited_some, ok_bind]
      refine (yields_any _).bind fun released _ ↦ ?_
      dsimp only
      cases sent.completion with
      | thrown => exact .pure hafter
      | failure message => exact .pure hafter
      | success => exact .ite (fun _ ↦ .pure hafter) fun _ ↦ .pure hafter

end CTcpSession

/-! ### The session -/

namespace CTcpServer

open CClientIO

/-- What an application makes of a message: what it gives to the server for an answer, whether it
has processed the message, and its state behind that. -/
structure Processed (τ : Type) where
  answer : Option (List UInt8)
  success : Bool
  after : τ

/-- What an application puts in the place of the placeholder. -/
abbrev Application (τ : Type) := τ → List UInt8 → Processed τ

/-- The variables of a session of the direction `IO`, with the state of the application. -/
structure Exchange (σ τ : Type) where
  session : CTcpSession
  m_inputMsg : CNetMessageData
  m_outputMsg : CNetMessageData
  socket : σ
  state : τ

/-- `CTcpServer::processInputMsg`, by an application. -/
def processInputMsg (application : Application τ) (e : Exchange σ τ) :
    Except Fault (Bool × Exchange σ τ) :=
  let processed := application e.state (bodyOf e.m_inputMsg)
  match processed.answer with
  | none => return (processed.success, { e with state := processed.after })
  | some answer => do
    let (_, m_outputMsg) ← writeOutputData e.m_outputMsg answer true true
    let (_, m_outputMsg) := sendOutput m_outputMsg
    return (processed.success, { e with m_outputMsg, state := processed.after })

/-- The part of a pass that sends the output message. It answers whether nothing has failed. -/
def sendUpdated (net : Network σ) (e : Exchange σ τ) : Except Fault (Bool × Exchange σ τ) :=
  if e.m_outputMsg.isUpdated then do
    let (sent, c) ← CTcpSession.sendMsgData net ⟨e.session, e.m_outputMsg, e.socket⟩
    return (sent, { e with session := c.session, m_outputMsg := c.msgData, socket := c.socket })
  else return (true, e)

/-- The part of a pass behind the reading, and how it ends the session, if it does. -/
def answerInput (application : Application τ) (net : Network σ) (e : Exchange σ τ) :
    Except Fault (Option InputEnding × Exchange σ τ) := do
  let (processed, e) ← processInputMsg application e
  if processed = false then return (some .failed, e)
  let (sent, e) ← sendUpdated net e
  return (if sent then none else some .failed, e)

/-- One pass of the loop of `acceptConnection` in the direction `IO`. The message is read and
compared as in the direction `input`. -/
def ioPass (application : Application τ) (net : Network σ) (e : Exchange σ τ) :
    Except Fault (Option InputEnding × Exchange σ τ) := do
  let (ending, c) ← inputPass net ⟨e.session, e.m_inputMsg, e.socket⟩
  let e := { e with session := c.session, m_inputMsg := c.msgData, socket := c.socket }
  if ending.isSome then return (ending, e)
  answerInput application net e

/-- The loop, as many passes as are allowed: the messages of the passes that go on, and how the
session has ended. -/
def ioSession (application : Application τ) (net : Network σ) : ℕ → Exchange σ τ →
    Except Fault ((List (List UInt8) × InputEnding) × Exchange σ τ)
  | 0, _ => .error .waiting
  | passes + 1, e => do
    let (ending, e) ← ioPass application net e
    match ending with
    | some ending => return (([], ending), e)
    | none =>
      let ((requests, ending), last) ← ioSession application net passes e
      return ((bodyOf e.m_inputMsg :: requests, ending), last)

/-- What follows the loop: the message "exit", unless the client has sent it. -/
def leaveSession (net : Network σ) (m_ctrlMsg : CNetMessageData) (ending : InputEnding)
    (e : Exchange σ τ) : Except Fault (Exchange σ τ) :=
  if ending = .exit then return e
  else do
    let (_, m_ctrlMsg) ← m_ctrlMsg.setMsgData (some exitMsg) 4
    let (_, c) ← CTcpSession.sendMsgData net ⟨e.session, m_ctrlMsg, e.socket⟩
    return { e with session := c.session, socket := c.socket }

/-- A whole session. -/
def serveClient (application : Application τ) (net : Network σ) (m_ctrlMsg : CNetMessageData)
    (passes : ℕ) (e : Exchange σ τ) :
    Except Fault ((List (List UInt8) × InputEnding) × Exchange σ τ) := do
  let (outcome, e) ← ioSession application net passes e
  return (outcome, ← leaveSession net m_ctrlMsg outcome.2 e)

/-! ### What is expected of a session -/

/-- The messages of a client, each with the state in which an application finds it. -/
def history (application : Application τ) : τ → List (List UInt8) → List (τ × List UInt8)
  | _, [] => []
  | state, message :: messages =>
    (state, message) :: history application (application state message).after messages

/-- The answers of an application, without those that it does not give. -/
def answersOf (application : Application τ) (requests : List (τ × List UInt8)) :
    List (List UInt8) :=
  requests.flatMap fun (state, message) ↦ (application state message).answer.toList

/-- How a message ends a session, if it does. -/
def endingOf (application : Application τ) (limit : ℕ) (state : τ) (message : List UInt8) :
    Option InputEnding :=
  if limit ≤ message.length then some .failed
  else if exitMsg <+: message then some .exit
  else if (application state message).success = false then some .failed
  else none

/-- The messages that a session serves, of some that are followed by "exit", and how it ends. -/
def served (application : Application τ) (limit : ℕ) :
    List (τ × List UInt8) → List (τ × List UInt8) × InputEnding
  | [] => ([], if exitMsg.length < limit then .exit else .failed)
  | (state, message) :: requests =>
    match endingOf application limit state message with
    | some ending => ([], ending)
    | none => ((state, message) :: (served application limit requests).1,
      (served application limit requests).2)

/-- What the client is sent: an answer for each message that is served, and "exit" if the session
ends without one of the client. -/
def replies (application : Application τ) (outcome : List (τ × List UInt8) × InputEnding) :
    List (List UInt8) :=
  answersOf application outcome.1 ++ if outcome.2 = .exit then [] else [exitMsg]

/-- Answers that the server can send: they are not empty, and the length of a frame is an `int`. -/
def Application.Sendable (application : Application τ) : Prop :=
  ∀ state message answer, (application state message).answer = some answer →
    0 < answer.length ∧ msgHeaderLen + answer.length < 2 ^ 31

/-- A socket whose two directions do not disturb each other: a read leaves what was sent, and what
is sent is put behind it, and leaves what has arrived. -/
structure Duplex (net : Network σ) (incoming outgoing : σ → List UInt8) : Prop where
  reads : EndsAfter net incoming
  read_outgoing : ∀ socket size received, net.read socket size = some received →
    outgoing received.after = outgoing socket
  sends : Appends outgoing net.send
  send_incoming : ∀ socket bytes sent, net.send socket bytes = some sent →
    incoming sent.after = incoming socket

theorem endingOf_eq_none_iff {application : Application τ} {limit : ℕ} {state : τ}
    {message : List UInt8} :
    endingOf application limit state message = none ↔ message.length < limit ∧
      ¬exitMsg <+: message ∧ (application state message).success = true := by
  unfold endingOf
  split_ifs with hlong hexit hfails
  · exact iff_of_false (by simp) fun h ↦ not_lt.mpr hlong h.1
  · exact iff_of_false (by simp) fun h ↦ h.2.1 hexit
  · exact iff_of_false (by simp) fun h ↦ Bool.false_ne_true (hfails.symm.trans h.2.2)
  · exact iff_of_true rfl ⟨not_le.mp hlong, hexit, Bool.eq_true_of_not_eq_false hfails⟩

/-- All messages are served, and the session ends with the message of `close`, exactly when all of
them fit, none starts with "exit", and the application processes each. -/
theorem served_all_iff (application : Application τ) (limit : ℕ)
    (requests : List (τ × List UInt8)) :
    served application limit requests = (requests, .exit) ↔
      exitMsg.length < limit ∧ ∀ request ∈ requests, request.2.length < limit ∧
        ¬exitMsg <+: request.2 ∧ (application request.1 request.2).success = true := by
  induction requests with
  | nil =>
    rw [served, Prod.mk.injEq, and_iff_right rfl]
    split_ifs with hroom <;> simp [hroom]
  | cons request requests ih =>
    obtain ⟨state, message⟩ := request
    rw [List.forall_mem_cons, ← endingOf_eq_none_iff, served]
    cases endingOf application limit state message with
    | some ending => simp
    | none =>
      have hrest : ((state, message) :: (served application limit requests).1,
          (served application limit requests).2) =
            ((state, message) :: requests, InputEnding.exit) ↔
          served application limit requests = (requests, .exit) := by
        rw [Prod.ext_iff, Prod.ext_iff, List.cons.injEq, and_iff_right rfl]
      rw [hrest, ih, and_iff_right rfl]

/-! ### The output message -/

section Answer

variable {d : CNetMessageData} {room : ℕ} {answer : List UInt8}

/-- A buffer that is too small for the answer is replaced by one that is not. -/
theorem exists_growBuffer (hd : Allocated room d) (hfits : msgHeaderLen + room < 2 ^ 32)
    (hpos : 0 < answer.length) (hshort : msgHeaderLen + answer.length < 2 ^ 31) :
    ∃ header area : List UInt8, header.length = msgHeaderLen ∧ answer.length ≤ area.length ∧
      msgHeaderLen + area.length < 2 ^ 32 ∧ growBuffer d answer.length true =
        .ok (laidOut header area d.m_nDataLength d.m_bUpdated false) := by
  obtain ⟨header, area, hheader, harea, hlaidOut⟩ := hd.exists_laidOut hfits
  have hroom : d.getMaxDataLen = toInt area.length := by
    rw [hlaidOut, getMaxDataLen_laidOut]
  by_cases hsmall : intToSize d.getMaxDataLen < answer.length
  · have hlock : d.lock = .ok { d with m_dataLock := true } := if_neg (by simp [hd.unlocked])
    refine ⟨List.replicate msgHeaderLen 0, List.replicate answer.length 0, List.length_replicate,
      List.length_replicate.ge, by rw [List.length_replicate]; omega, ?_⟩
    rw [growBuffer, if_pos hsmall, allocBuffer, hlock, ok_bind, if_neg (not_lt.mpr hpos),
      toUnsigned_of_lt (by omega)]
    simp [unlock, laidOut, pure, Except.pure, Except.map]
  · refine ⟨header, area, hheader, ?_, by omega, ?_⟩
    · rcases lt_or_ge area.length (2 ^ 31) with hint | hlong
      · rw [hroom, intToSize_toInt_of_lt hint] at hsmall
        omega
      · omega
    · rw [growBuffer, if_neg hsmall, ← hlaidOut]

/-- A call of `writeOutputData` and one of `sendOutput`, on an allocated message. -/
theorem exists_writeOutputData (hd : Allocated room d) (hfits : msgHeaderLen + room < 2 ^ 32)
    (hpos : 0 < answer.length) (hshort : msgHeaderLen + answer.length < 2 ^ 31) :
    ∃ header rest : List UInt8, header.length = msgHeaderLen ∧
      msgHeaderLen + (answer ++ rest).length < 2 ^ 32 ∧ writeOutputData d answer true true =
        .ok (toInt answer.length, laidOut header (answer ++ rest) (msgHeaderLen + answer.length)
          d.m_bUpdated false) := by
  obtain ⟨header, area, hheader, hroom, hsize, hgrow⟩ := exists_growBuffer hd hfits hpos hshort
  obtain ⟨cells, hcells, -⟩ := hd.data
  have hthere : allocateMissing d answer.length true = .ok d := by
    rw [allocateMissing, if_neg]
    simp [isBufferAllocated, hcells]
  have hcopy : copyBody (laidOut header area d.m_nDataLength d.m_bUpdated false) answer =
      .ok (true, laidOut header (answer ++ area.drop answer.length) d.m_nDataLength d.m_bUpdated
        false) := by
    rw [copyBody, getBodyPtr_laidOut, ok_bind]
    dsimp only
    rw [storeBody_laidOut hheader hroom, ok_bind, releasePtr_laidOut]
    rfl
  refine ⟨header, area.drop answer.length, hheader, ?_, ?_⟩
  · rw [List.length_append, List.length_drop]
    omega
  · rw [writeOutputData, if_neg (not_lt.mpr hpos), hthere, ok_bind, hgrow, ok_bind, hcopy, ok_bind]
    dsimp only
    rw [if_neg (Bool.true_eq_false.mp), setBodyLength_laidOut (by omega)]
    rfl

end Answer

/-! ### Passes -/

section Session

variable {net : Network σ} {incoming outgoing : σ → List UInt8} {limit : ℕ}
  {application : Application τ} {e : Exchange σ τ}

/-- The state of a session between two passes: both messages have memory, and no answer waits to be
sent. -/
structure Exchange.Ready (limit : ℕ) (e : Exchange σ τ) : Prop where
  input : Allocated limit e.m_inputMsg
  output : ∃ room, msgHeaderLen + room < 2 ^ 32 ∧ Allocated room e.m_outputMsg
  idle : e.m_outputMsg.m_bUpdated = false

/-- Reading leaves what was sent. -/
theorem inputPass_outgoing (hnet : Duplex net incoming outgoing) {c c' : Connection σ}
    {ending : Option InputEnding} (hpass : inputPass net c = .ok (ending, c')) :
    outgoing c'.socket = outgoing c.socket := by
  have hkeeps : Yields (fun _ ↦ True) (inputPass net c) fun r ↦
      outgoing r.2.socket = outgoing c.socket := by
    unfold inputPass
    refine (CTcpSession.readMsgData_keeps (P := fun socket ↦ outgoing socket = outgoing c.socket)
      (fun socket size received hread hsame ↦
        (hnet.read_outgoing socket size received hread).trans hsame) rfl).bind fun read hread ↦ ?_
    refine .ite (fun _ ↦ .pure hread) fun _ ↦ ?_
    exact (yields_any _).bind fun _ _ ↦ .pure hread
  exact hkeeps.of_ok hpass

/-- Between two states of a socket, some messages have gone out, each as one frame. -/
def Sends (outgoing : σ → List UInt8) (messages : List (List UInt8)) (before after : σ) : Prop :=
  ∃ frames, List.Forall₂ FrameOf messages frames ∧
    outgoing after = outgoing before ++ frames.flatten

theorem Sends.none {before after : σ} (hsame : outgoing after = outgoing before) :
    Sends outgoing [] before after :=
  ⟨[], .nil, hsame.trans (List.append_nil _).symm⟩

theorem Sends.append {messages later : List (List UInt8)} {before between after : σ}
    (h : Sends outgoing messages before between) (hlater : Sends outgoing later between after) :
    Sends outgoing (messages ++ later) before after := by
  obtain ⟨frames, hframes, hbetween⟩ := h
  obtain ⟨laterFrames, hlaterFrames, hafter⟩ := hlater
  refine ⟨frames ++ laterFrames, List.rel_append hframes hlaterFrames, ?_⟩
  rw [hafter, hbetween, List.flatten_append, List.append_assoc]

/-- A message that is given to an allocated `CNetMessageData` goes out as one frame, and what has
arrived stays. -/
theorem sendMsgData_frame (hnet : Duplex net incoming outgoing) (session : CTcpSession)
    (socket : σ) {header answer : List UInt8} (hheader : header.length = msgHeaderLen)
    (hpos : 0 < answer.length) (hshort : msgHeaderLen + answer.length < 2 ^ 31)
    (rest : List UInt8) :
    ∃ c header', CTcpSession.sendMsgData net ⟨session,
        laidOut header (answer ++ rest) (msgHeaderLen + answer.length) true false, socket⟩ =
          .ok (true, c) ∧
      c.msgData = laidOut header' (answer ++ rest) (msgHeaderLen + answer.length) false false ∧
      header'.length = msgHeaderLen ∧ Sends outgoing [answer] socket c.socket ∧
      incoming c.socket = incoming socket := by
  have hannounces := announces_encoded hheader (some session.m_sMsgType)
    (show answer.length < 2 ^ 32 by omega)
  obtain ⟨after, hafter, hsent⟩ : ∃ after, outgoing after = outgoing socket ++
        (encoded header (some session.m_sMsgType) answer.length ++ answer) ∧
      CTcpSession.sendMsgData net ⟨session,
          laidOut header (answer ++ rest) (msgHeaderLen + answer.length) true false, socket⟩ =
        .ok (true, ⟨session.noteError .success,
          laidOut (encoded header (some session.m_sMsgType) answer.length) (answer ++ rest)
            (msgHeaderLen + answer.length) false false, after⟩) :=
    CTcpSession.transmit_frame session true hnet.sends hheader hpos hshort
  have hkept : ∀ other bytes sent, net.send other bytes = some sent →
      incoming other = incoming socket → incoming sent.after = incoming socket :=
    fun other bytes sent hsend hsame ↦ (hnet.send_incoming other bytes sent hsend).trans hsame
  have hkeeps := (CTcpSession.transmit_keeps (P := fun other ↦ incoming other = incoming socket)
    hkept rfl).of_ok hsent
  refine ⟨_, _, hsent, rfl, hannounces.length, ⟨_, .cons ⟨_, hannounces, rfl⟩ .nil, ?_⟩, hkeeps⟩
  rw [List.flatten_singleton]
  exact hafter

theorem sendUpdated_of_updated (hupdated : e.m_outputMsg.isUpdated = true) {sent : Bool}
    {c : Connection σ}
    (hsend : CTcpSession.sendMsgData net ⟨e.session, e.m_outputMsg, e.socket⟩ = .ok (sent, c)) :
    sendUpdated net e = .ok (sent,
      { e with session := c.session, m_outputMsg := c.msgData, socket := c.socket }) := by
  rw [sendUpdated, if_pos hupdated, hsend]
  rfl

/-- What a pass does with a message that was read. If it is processed, its answer is sent, if there
is one, and the session goes on. -/
theorem exists_answerInput (hnet : Duplex net incoming outgoing) (happ : application.Sendable)
    (hready : e.Ready limit) {processed : Processed τ}
    (hprocessed : application e.state (bodyOf e.m_inputMsg) = processed) :
    ∃ e', answerInput application net e =
        .ok (if processed.success = false then some .failed else none, e') ∧
      incoming e'.socket = incoming e.socket ∧
      Sends outgoing (if processed.success = false then [] else processed.answer.toList) e.socket
        e'.socket ∧
      (processed.success = true → e'.Ready limit ∧ e'.m_inputMsg = e.m_inputMsg ∧
        e'.state = processed.after) := by
  obtain ⟨session, m_inputMsg, m_outputMsg, socket, state⟩ := e
  obtain ⟨hinput, ⟨room, hfits, houtput⟩, hidle⟩ := hready
  obtain ⟨answer, success, later⟩ := processed
  dsimp only at hinput houtput hidle hprocessed ⊢
  unfold answerInput processInputMsg
  dsimp only
  rw [hprocessed]
  cases answer with
  | none =>
    cases success with
    | false => exact ⟨_, rfl, rfl, .none rfl, by simp⟩
    | true =>
      refine ⟨⟨session, m_inputMsg, m_outputMsg, socket, later⟩, ?_, rfl, .none rfl,
        fun _ ↦ ⟨⟨hinput, ⟨room, hfits, houtput⟩, hidle⟩, rfl, rfl⟩⟩
      simp [sendUpdated, isUpdated, hidle, pure, Except.pure]
  | some answer =>
    obtain ⟨hpos, hshort⟩ := happ _ _ answer (congrArg Processed.answer hprocessed)
    obtain ⟨header, rest, hheader, hsize, hwrite⟩ :=
      exists_writeOutputData houtput hfits hpos hshort
    dsimp only
    rw [hwrite, ok_bind]
    cases success with
    | false => exact ⟨_, rfl, rfl, .none rfl, by simp⟩
    | true =>
      obtain ⟨c, header', hsend, hdata, hheader', hout, hin⟩ :=
        sendMsgData_frame hnet session socket hheader hpos hshort rest
      let given : Exchange σ τ := ⟨session, m_inputMsg,
        laidOut header (answer ++ rest) (msgHeaderLen + answer.length) true false, socket, later⟩
      refine ⟨⟨c.session, m_inputMsg, c.msgData, c.socket, later⟩, ?_, hin, hout,
        fun _ ↦ ⟨⟨hinput, ⟨_, hsize, ?_⟩, ?_⟩, rfl, rfl⟩⟩
      · show (sendUpdated net given >>= _) = _
        rw [sendUpdated_of_updated (e := given) rfl hsend]
        rfl
      · rw [hdata]
        exact allocated_laidOut hheader' (by rw [List.length_append]; omega) hsize _ _
      · rw [hdata]
        rfl

/-- A pass over a frame at the front of the stream. -/
theorem ioPass_frame (hnet : Duplex net incoming outgoing) (happ : application.Sendable)
    (hlimit : msgHeaderLen + limit < 2 ^ 31) (hready : e.Ready limit)
    {body frame rest : List UInt8} (hframe : FrameOf body frame) (hpos : 0 < body.length)
    (hstream : incoming e.socket = frame ++ rest) :
    ∃ e', ioPass application net e = .ok (endingOf application limit e.state body, e') ∧
      Sends outgoing (if (endingOf application limit e.state body).isSome then []
        else (application e.state body).answer.toList) e.socket e'.socket ∧
      (body.length < limit → incoming e'.socket = rest) ∧
      (endingOf application limit e.state body = none → e'.Ready limit ∧
        bodyOf e'.m_inputMsg = body ∧ e'.state = (application e.state body).after) := by
  obtain ⟨session, m_inputMsg, m_outputMsg, socket, state⟩ := e
  dsimp only at hstream ⊢
  obtain ⟨c', hinput, hpass, hread⟩ := inputPass_frame hnet.reads hlimit hready.input hframe hpos
    hstream (c := ⟨session, m_inputMsg, socket⟩)
  have hsame : outgoing c'.socket = outgoing socket := inputPass_outgoing hnet hpass
  unfold ioPass endingOf
  rw [hpass, ok_bind]
  by_cases hlong : limit ≤ body.length
  · rw [if_pos hlong, if_pos hlong]
    exact ⟨_, rfl, .none hsame, fun hshort ↦ absurd hshort (not_lt.mpr hlong), by simp⟩
  · obtain ⟨hrest, hbody⟩ := hread (not_le.mp hlong)
    rw [if_neg hlong, if_neg hlong]
    by_cases hexit : exitMsg <+: body
    · rw [if_pos hexit, if_pos hexit]
      exact ⟨_, rfl, .none hsame, fun _ ↦ hrest, by simp⟩
    · rw [if_neg hexit, if_neg hexit]
      dsimp only
      obtain ⟨e', hanswer, hin, hout, hgoes⟩ := exists_answerInput hnet happ
        (e := ⟨c'.session, c'.msgData, m_outputMsg, c'.socket, state⟩)
        ⟨hinput, hready.output, hready.idle⟩ (congrArg (application state) hbody)
      refine ⟨e', hanswer, ?_, fun _ ↦ hin.trans hrest, ?_⟩
      · obtain ⟨frames, hframes, hafter⟩ := hout
        refine ⟨frames, ?_, hafter.trans (congrArg (· ++ frames.flatten) hsame)⟩
        split_ifs at * <;> first | exact hframes | contradiction
      · intro hgoes'
        have hsuccess : (application state body).success = true := by
          by_contra hfails
          rw [if_pos (Bool.eq_false_of_not_eq_true hfails)] at hgoes'
          cases hgoes'
        obtain ⟨hready', hsame', hstate⟩ := hgoes hsuccess
        exact ⟨hready', (congrArg bodyOf hsame').trans hbody, hstate⟩

/-- What a session serves of the frames of some messages, and what it sends. -/
theorem ioSession_frames (hnet : Duplex net incoming outgoing) (happ : application.Sendable)
    (hlimit : msgHeaderLen + limit < 2 ^ 31) (messages : List (List UInt8)) :
    ∀ {e : Exchange σ τ} {frames : List (List UInt8)}, e.Ready limit →
      (∀ message ∈ messages ++ [exitMsg], 0 < message.length) →
      List.Forall₂ FrameOf (messages ++ [exitMsg]) frames → incoming e.socket = frames.flatten →
      ∃ e', ioSession application net (messages.length + 1) e = .ok
          (((served application limit (history application e.state messages)).1.map Prod.snd,
            (served application limit (history application e.state messages)).2), e') ∧
        Sends outgoing (answersOf application
          (served application limit (history application e.state messages)).1) e.socket e'.socket ∧
        (served application limit (history application e.state messages) =
          (history application e.state messages, .exit) → incoming e'.socket = []) := by
  induction messages with
  | nil =>
    intro e frames hready hpos hframes hstream
    obtain ⟨frame, rfl, hframe⟩ : ∃ frame, frames = [frame] ∧ FrameOf exitMsg frame := by
      cases hframes with
      | cons hframe hnone =>
        cases hnone with
        | nil => exact ⟨_, rfl, hframe⟩
    obtain ⟨e', hpass, hsends, hrest, -⟩ := ioPass_frame hnet happ hlimit hready hframe
      (hpos _ List.mem_cons_self) hstream
    rw [history, served]
    have hends : endingOf application limit e.state exitMsg =
        some (if exitMsg.length < limit then .exit else .failed) := by
      unfold endingOf
      by_cases hlong : limit ≤ exitMsg.length
      · rw [if_pos hlong, if_neg (not_lt.mpr hlong)]
      · rw [if_neg hlong, if_pos (List.prefix_refl _), if_pos (not_le.mp hlong)]
    rw [hends] at hpass hsends
    refine ⟨e', ?_, hsends, fun hall ↦ hrest ?_⟩
    · unfold ioSession
      rw [hpass, ok_bind]
      rfl
    · by_contra hlong
      simp [hlong] at hall
  | cons message messages ih =>
    intro e frames hready hpos hframes hstream
    rw [List.cons_append] at hpos hframes
    obtain ⟨frame, rest, rfl, hframe, hframes⟩ : ∃ frame rest, frames = frame :: rest ∧
        FrameOf message frame ∧ List.Forall₂ FrameOf (messages ++ [exitMsg]) rest := by
      cases hframes with
      | cons hframe hrest => exact ⟨_, _, rfl, hframe, hrest⟩
    rw [List.forall_mem_cons] at hpos
    obtain ⟨e', hpass, hsends, hrest, hgoes⟩ :=
      ioPass_frame hnet happ hlimit hready hframe hpos.1 hstream
    rw [history, served]
    unfold ioSession
    rw [hpass, ok_bind]
    cases hends : endingOf application limit e.state message with
    | some ending =>
      rw [hends] at hsends
      exact ⟨e', rfl, hsends, fun hall ↦ by simp at hall⟩
    | none =>
      rw [hends] at hsends
      obtain ⟨hready', hbody, hstate⟩ := hgoes hends
      have hshort := (endingOf_eq_none_iff.mp hends).1
      obtain ⟨last, hsession, hlater, hempty⟩ := ih hready' hpos.2 hframes (hrest hshort)
      rw [hstate] at hsession hlater hempty
      refine ⟨last, ?_, hsends.append hlater, fun hall ↦ hempty ?_⟩
      · dsimp only
        rw [List.length_cons, hsession, ok_bind, hbody]
        rfl
      · obtain ⟨hserved, hending⟩ := Prod.mk.inj hall
        exact Prod.ext (List.cons.inj hserved).2 hending

/-- What follows the loop sends "exit", unless the session has ended with one. -/
theorem exists_leaveSession (hnet : Duplex net incoming outgoing) {m_ctrlMsg : CNetMessageData}
    {room : ℕ} (hctrl : Allocated room m_ctrlMsg) (hroom : exitMsg.length ≤ room)
    (hfits : msgHeaderLen + room < 2 ^ 32) (ending : InputEnding) (e : Exchange σ τ) :
    ∃ e', leaveSession net m_ctrlMsg ending e = .ok e' ∧
      Sends outgoing (if ending = .exit then [] else [exitMsg]) e.socket e'.socket ∧
      incoming e'.socket = incoming e.socket := by
  unfold leaveSession
  by_cases hexit : ending = .exit
  · rw [if_pos hexit, if_pos hexit]
    exact ⟨e, rfl, .none rfl, rfl⟩
  · obtain ⟨header, area, hheader, rfl, hlaidOut⟩ := hctrl.exists_laidOut hfits
    obtain ⟨c, header', hsend, -, -, hout, hin⟩ := sendMsgData_frame hnet e.session e.socket
      hheader (by decide : 0 < exitMsg.length) (by decide) (area.drop exitMsg.length)
    rw [if_neg hexit, if_neg hexit, hlaidOut]
    refine ⟨{ e with session := c.session, socket := c.socket }, ?_, hout, hin⟩
    rw [show (4 : ℕ) = exitMsg.length from rfl,
      setMsgData_laidOut hheader hfits (by decide : 0 < exitMsg.length) hroom, ok_bind]
    dsimp only
    rw [hsend]
    rfl

end Session

/-- Assumes: a client whose buffer was allocated with a header, messages of 1 byte or more that fit
it, as "exit" does; a server whose messages were allocated, the input message with room for `limit`
bytes and the control message with room for "exit", without an answer that waits to be sent; answers
that can be sent; a connection that carries what the client sends, with its end, and all that the
server sends. The session ends. It serves the messages up to the first one that ends it, and the
client is sent the answers to these, in their order, and "exit" if its own was not read; all
messages are served, and the session ends with the message of `close` and nothing left, exactly when
all of them are shorter than the room of the server, none starts with "exit", and the application
processes each of them in the state in which it finds it. -/
theorem session_serves_iff {net : Network σ} {incoming outgoing : σ → List UInt8}
    (hnet : Duplex net incoming outgoing) {application : Application τ}
    (happ : application.Sendable) {limit : ℕ} (hlimit : msgHeaderLen + limit < 2 ^ 31)
    {e : Exchange σ τ} (hready : e.Ready limit) {m_ctrlMsg : CNetMessageData} {room : ℕ}
    (hctrl : Allocated room m_ctrlMsg) (hroom : exitMsg.length ≤ room)
    (hfits : msgHeaderLen + room < 2 ^ 32) {client : CTcpClient} {cells : List UInt8}
    (hclient : HasHeader client.buffer cells) {messages : List (List UInt8)}
    (hmessages : ∀ message ∈ messages ++ [exitText], 1 ≤ message.length ∧
      msgHeaderLen + message.length ≤ client.buffer.m_nBufferSize) (behind : List UInt8)
    (hstream : incoming e.socket = client.writeAll behind messages) :
    ∃ e', serveClient application net m_ctrlMsg (messages.length + 1) e = .ok
        (((served application limit (history application e.state messages)).1.map Prod.snd,
          (served application limit (history application e.state messages)).2), e') ∧
      Sends outgoing
        (replies application (served application limit (history application e.state messages)))
        e.socket e'.socket ∧
      (served application limit (history application e.state messages) =
          (history application e.state messages, .exit) ∧ incoming e'.socket = [] ↔
        exitMsg.length < limit ∧ ∀ request ∈ history application e.state messages,
          request.2.length < limit ∧ ¬exitMsg <+: request.2 ∧
            (application request.1 request.2).success = true) := by
  obtain ⟨frames, hframes, hwire⟩ := CTcpClient.exists_frames behind messages hclient hmessages
  obtain ⟨between, hsession, hanswers, hempty⟩ := ioSession_frames hnet happ hlimit messages hready
    (fun message hmem ↦ (hmessages message hmem).1) hframes (hstream.trans hwire)
  obtain ⟨e', hleave, hexit, hin⟩ := exists_leaveSession hnet hctrl hroom hfits
    (served application limit (history application e.state messages)).2 between
  refine ⟨e', ?_, hanswers.append hexit, ?_⟩
  · rw [serveClient, hsession, ok_bind]
    dsimp only
    rw [hleave]
    rfl
  · rw [← served_all_iff]
    exact ⟨fun h ↦ h.1, fun hall ↦ ⟨hall, hin.trans (hempty hall)⟩⟩

/-- A connection on which the bytes of a list arrive, and that keeps what is sent in another. -/
def twoStreams : Network (List UInt8 × List UInt8) where
  read socket size :=
    if size ≤ socket.1.length then
      some ⟨socket.1.take size, .success, (socket.1.drop size, socket.2)⟩
    else some ⟨socket.1, .failure [], ([], socket.2)⟩
  write socket bytes := some ⟨bytes.length, .success, (socket.1, socket.2 ++ bytes)⟩
  send socket bytes := some ⟨bytes.length, .success, (socket.1, socket.2 ++ bytes)⟩
  read_le := by
    intro socket size received hread
    split_ifs at hread with hsize
    · obtain rfl := Option.some.inj hread
      exact List.length_take_le ..
    · obtain rfl := Option.some.inj hread
      exact (not_le.mp hsize).le

theorem duplex_twoStreams : Duplex twoStreams Prod.fst Prod.snd where
  reads := {
    fills := fun socket size hsize ↦ ⟨(socket.1.drop size, socket.2), if_pos hsize, rfl⟩
    ends := fun socket _ hsize ↦
      ⟨⟨socket.1, .failure [], ([], socket.2)⟩, if_neg (not_le.mpr hsize), by simp⟩ }
  read_outgoing := by
    intro socket size received hread
    unfold twoStreams at hread
    dsimp only at hread
    split_ifs at hread <;> obtain rfl := Option.some.inj hread <;> rfl
  sends := fun socket bytes ↦ ⟨(socket.1, socket.2 ++ bytes), rfl, rfl⟩
  send_incoming := by
    intro socket bytes sent hsend
    obtain rfl := Option.some.inj hsend
    rfl

/-- An application that numbers the messages and answers those of one byte with the number. -/
def numbering : Application ℕ := fun number message ↦
  ⟨if message.length = 1 then some [UInt8.ofNat number] else none, true, number + 1⟩

theorem sendable_numbering : numbering.Sendable := by
  intro number message answer hanswer
  unfold numbering at hanswer
  dsimp only at hanswer
  split_ifs at hanswer
  obtain rfl := Option.some.inj hanswer
  rw [List.length_singleton]
  exact ⟨Nat.one_pos, by decide⟩

/-- Three messages, by a client with a buffer of 24 bytes, to a server with room for 8 bytes. The
second and the third are answered. -/
theorem session_serves_three :
    ∃ e', serveClient numbering twoStreams (newMessage 4) 4 ⟨⟨[], []⟩, newMessage 8, newMessage 8,
        ((CTcpClient.new.allocBuffer 24 true true).after.writeAll [] [[7, 8], [9], [6]], []), 0⟩ =
          .ok (([[7, 8], [9], [6]], .exit), e') ∧
      Sends Prod.snd [[1], [2]]
        ((CTcpClient.new.allocBuffer 24 true true).after.writeAll [] [[7, 8], [9], [6]], [])
        e'.socket ∧ e'.socket.1 = [] := by
  have hclient : HasHeader (CTcpClient.new.allocBuffer 24 true true).after.buffer _ :=
    hasHeader_allocBuffer (by decide : msgHeaderLen + 2 ≤ 24) (by decide) .new
  have hallocated : Allocated 8 (newMessage 8) := allocated_newMessage (by decide) (by decide)
  have hmessages : ∀ message ∈ [[7, 8], [9], [6]] ++ [exitText], 1 ≤ message.length ∧
      msgHeaderLen + message.length ≤
        (CTcpClient.new.allocBuffer 24 true true).after.buffer.m_nBufferSize := by
    decide
  obtain ⟨e', hserve, hsends, hall⟩ := session_serves_iff duplex_twoStreams sendable_numbering
    (by decide : msgHeaderLen + 8 < 2 ^ 31)
    (e := ⟨⟨[], []⟩, newMessage 8, newMessage 8, (_, []), 0⟩)
    ⟨hallocated, ⟨8, by decide, hallocated⟩, rfl⟩
    (allocated_newMessage (by decide : 0 < 4) (by decide)) (by decide) (by decide) hclient
    hmessages [] rfl
  exact ⟨e', hserve, hsends, (hall.mpr (by decide)).2⟩

end CTcpServer

end RdbLibs.NetIO
