import RdbLibs.NetIO.CTcpServer.RequestReply
import RdbLibs.NetIO.CTcpServer.Sessions
import RdbLibs.NetIO.UdpReceive

/-!
# The messages of the class `CUdpServer`

`CUdpServer::writeOutputData`, `sendOutput`, `processInputMsg` and `ioMsgHandler` of
`Src/NetIO/CServerIO.cpp`, with the functions of `CUdpSession` that `ioMsgHandler` calls. The socket
is open. `processInputMsg` is a placeholder, in whose place an application puts what it does with a
message, as for a `CTcpServer`.

`CUdpSession::readMsgData` takes one datagram and never has a body in the message
(`readMsgData_receives`), and `ioMsgHandler` does not look at what it answers.
-/

set_option autoImplicit false
set_option relaxedAutoImplicit false

namespace RdbLibs.NetIO

open MachineWord CheckedMemory CNetMessageData NetworkDataHeaderInfo
open CTcpServer (Application Processed NetIoDirection)
open TcpFraming (bodyOf bodyOf_laidOut)

variable {σ τ : Type}

/-! ### The server -/

namespace CUdpServer

/-- The members that `ioMsgHandler` uses, with the state of the application. -/
structure Messages (σ τ : Type) where
  session : CUdpSession
  m_inputMsg : CNetMessageData
  m_outputMsg : CNetMessageData
  socket : σ
  state : τ

/-- `CUdpServer::writeOutputData`. Its text is that of `CTcpServer::writeOutputData`. -/
def writeOutputData (m_outputMsg : CNetMessageData) (message : List UInt8)
    (granted regranted : Bool) : Except Fault (ℤ × CNetMessageData) :=
  CTcpServer.writeOutputData m_outputMsg message granted regranted

/-- `CUdpServer::sendOutput`. -/
def sendOutput (m_outputMsg : CNetMessageData) : Bool × CNetMessageData :=
  (true, m_outputMsg.setUpdated true)

/-- `CUdpServer::processInputMsg`, by an application. -/
def processInputMsg (application : Application τ) (e : Messages σ τ) :
    Except Fault (Bool × Messages σ τ) :=
  let processed := application e.state (bodyOf e.m_inputMsg)
  match processed.answer with
  | none => return (processed.success, { e with state := processed.after })
  | some answer => do
    let (_, m_outputMsg) ← writeOutputData e.m_outputMsg answer true true
    let (_, m_outputMsg) := sendOutput m_outputMsg
    return (processed.success, { e with m_outputMsg, state := processed.after })

/-- The part of `ioMsgHandler` that reads the input message. What `readMsgData` answers is ignored.
-/
def readInput (net : DatagramNetwork σ) (e : Messages σ τ) : Except Fault (Messages σ τ) := do
  let (_, c) ← e.session.readMsgData net ⟨e.m_inputMsg, e.socket⟩
  return { e with m_inputMsg := c.msgData, socket := c.socket }

/-- The part of `ioMsgHandler` that sends the output message. What `writeMsgData` answers is
ignored. -/
def writeOutput (net : DatagramNetwork σ) (e : Messages σ τ) : Except Fault (Messages σ τ) :=
  if e.m_outputMsg.isUpdated then do
    let (_, c) ← e.session.writeMsgData net ⟨e.m_outputMsg, e.socket⟩
    return { e with m_outputMsg := c.msgData, socket := c.socket }
  else return e

/-- `CUdpServer::ioMsgHandler`. -/
def ioMsgHandler (application : Application τ) (net : DatagramNetwork σ) (e : Messages σ τ) :
    NetIoDirection → Except Fault (Messages σ τ)
  | .input => readInput net e
  | .output => writeOutput net e
  | .io => do
    let e ← readInput net e
    let (processed, e) ← processInputMsg application e
    if processed = false then return e
    writeOutput net e
  | .unknown => return e

end CUdpServer

/-! ### The session -/

namespace CUdpSession

variable {net : DatagramNetwork σ} {header area : List UInt8} {updated : Bool}

/-- Bytes that do not fill the header are put in front of what it holds. -/
theorem putReceived_zeros {bytes : List UInt8} (hle : bytes.length ≤ msgHeaderLen) :
    CTcpSession.putReceived (laidOut (List.replicate msgHeaderLen 0) area 0 updated true) 0 bytes =
      .ok (laidOut (bytes ++ List.replicate (msgHeaderLen - bytes.length) 0) area 0 updated
        true) := by
  by_cases hpos : 0 < bytes.length
  · rw [CTcpSession.putReceived_of_pos _ _ hpos]
    refine access_laidOut ?_ rfl
    have hzeros : List.replicate msgHeaderLen (0 : UInt8) = [] ++
        List.replicate bytes.length 0 ++ List.replicate (msgHeaderLen - bytes.length) 0 := by
      rw [List.nil_append, List.replicate_append_replicate, Nat.add_sub_of_le hle]
    have hstore := storeRange_middle (List.replicate (msgHeaderLen - bytes.length) 0 ++ area)
      List.length_nil (List.length_replicate (n := bytes.length) (a := (0 : UInt8)))
    rwa [← List.append_assoc, ← List.append_assoc, ← hzeros, List.nil_append] at hstore
  · obtain rfl := List.eq_nil_of_length_eq_zero (Nat.eq_zero_of_not_pos hpos)
    rfl

/-- Whatever `receive_from` puts into the buffer, the header is any bytes after the call, and the
area is zero. -/
theorem readMsgHeader_receives (session : CUdpSession) (hheader : header.length = msgHeaderLen)
    (hfits : msgHeaderLen + area.length < 2 ^ 32) (dataLength : ℕ) {socket : σ}
    {arrived : Arrived σ} (hreceive : net.receiveFrom socket msgHeaderLen = some arrived) :
    ∃ answer header' length, header'.length = msgHeaderLen ∧ (answer = false → length = 0) ∧
      session.readMsgHeader net ⟨laidOut header area dataLength updated false, socket⟩ =
        .ok (answer, ⟨laidOut header' (List.replicate area.length 0) length updated false,
          arrived.after⟩) := by
  have hle : arrived.bytes.length ≤ msgHeaderLen := net.receiveFrom_le _ _ _ hreceive
  obtain ⟨header', hheader', hput⟩ : ∃ header', header'.length = msgHeaderLen ∧
      CTcpSession.putReceived (laidOut (List.replicate msgHeaderLen 0)
        (List.replicate area.length 0) 0 updated true) 0 arrived.bytes =
          .ok (laidOut header' (List.replicate area.length 0) 0 updated true) :=
    ⟨_, by simp [hle], putReceived_zeros hle⟩
  unfold readMsgHeader
  rw [clearAll_laidOut hheader, ok_bind, getHeaderLength_laidOut]
  dsimp only
  rw [if_neg (by decide), getDataPtr_laidOut, ok_bind]
  dsimp only
  rw [intToSize_of_lt (by decide), hreceive, awaited_some, ok_bind, hput, ok_bind,
    releasePtr_laidOut, ok_bind, ok_bind]
  split_ifs with hthrown hshort
  · exact ⟨false, header', 0, hheader', fun _ ↦ rfl, rfl⟩
  · exact ⟨false, header', 0, hheader', fun _ ↦ rfl, rfl⟩
  · have hsize : msgHeaderLen + (List.replicate area.length (0 : UInt8)).length < 2 ^ 32 := by
      rwa [List.length_replicate]
    rw [decodeMsgHeader_eq hheader' hsize]
    split_ifs with htakes
    · exact ⟨true, header', _, hheader', by simp, rfl⟩
    · exact ⟨true, header', _, hheader', by simp, rfl⟩

/-- No datagram, and no error, has a body in the message: the call answers false, with an empty
message. -/
theorem readMsgData_receives (session : CUdpSession) (hheader : header.length = msgHeaderLen)
    (hfits : msgHeaderLen + area.length < 2 ^ 32) (dataLength : ℕ) (updated : Bool) {socket : σ}
    {arrived : Arrived σ} (hreceive : net.receiveFrom socket msgHeaderLen = some arrived) :
    ∃ header', header'.length = msgHeaderLen ∧
      session.readMsgData net ⟨laidOut header area dataLength updated false, socket⟩ =
        .ok (false, ⟨laidOut header' (List.replicate area.length 0) 0 updated false,
          arrived.after⟩) := by
  obtain ⟨answer, header', length, hheader', hnone, hread⟩ :=
    session.readMsgHeader_receives hheader hfits dataLength hreceive
  refine ⟨header', hheader', ?_⟩
  cases answer with
  | false =>
    rw [readMsgData, hread, ok_bind, hnone rfl]
    rfl
  | true =>
    have hzeros : (List.replicate area.length (0 : UInt8)).length = area.length :=
      List.length_replicate
    have hbody := readMsgBody_laidOut net hheader' (hzeros.symm ▸ hfits) length updated
      arrived.after
    rw [hzeros] at hbody
    exact readMsgData_of_readMsgHeader hread hbody

/-- Assumes: a message whose frame has a length that is an `int`, and a `send_to` that throws or
takes all of it. The frame is one datagram, and the message stays updated if it was not sent. -/
theorem writeMsgData_frame (session : CUdpSession) (hheader : header.length = msgHeaderLen)
    {body : List UInt8} (rest : List UInt8) (updated : Bool) (hpos : 0 < body.length)
    (hshort : msgHeaderLen + body.length < 2 ^ 31) {socket : σ} {status : Dispatched σ}
    (hsend : net.sendTo socket (encoded header (some session.m_sMsgType) body.length ++ body) =
      some status)
    (hwhole : status.thrown = false → status.count = msgHeaderLen + body.length) :
    session.writeMsgData net
        ⟨laidOut header (body ++ rest) (msgHeaderLen + body.length) updated false, socket⟩ =
      .ok (!status.thrown, ⟨laidOut (encoded header (some session.m_sMsgType) body.length)
        (body ++ rest) (msgHeaderLen + body.length) (status.thrown && updated) false,
          status.after⟩) := by
  let frame := encoded header (some session.m_sMsgType) body.length ++ body
  have hframe : frame.length = msgHeaderLen + body.length := by
    rw [List.length_append, (announces_encoded hheader _ (by omega)).length]
  have hcur : (laidOut header (body ++ rest) (msgHeaderLen + body.length) updated
      false).getCurDataLen = (msgHeaderLen + body.length : ℕ) := toInt_of_lt hshort
  have hload : loadRange (encoded header (some session.m_sMsgType) body.length ++ (body ++ rest)) 0
      (msgHeaderLen + body.length) = .ok frame := by
    rw [← List.append_assoc]
    exact loadRange_middle rest List.length_nil hframe
  rw [writeMsgData, hcur]
  dsimp only
  rw [if_neg (by omega), encodeMsgHeader_laidOut hheader (by omega), ok_bind, getDataPtr_laidOut,
    ok_bind]
  dsimp only
  rw [cells_laidOut, ok_bind, intToSize_of_lt (by omega), hload, ok_bind, hsend, awaited_some,
    ok_bind, releasePtr_laidOut, ok_bind, ok_bind]
  cases hthrown : status.thrown with
  | true => rfl
  | false =>
    rw [if_neg Bool.false_ne_true, if_neg (not_lt.mpr (hwhole hthrown).ge)]
    rfl

end CUdpSession

/-! ### A pass of the handler -/

namespace CUdpServer

/-- A message with memory. -/
def HasRoom (d : CNetMessageData) : Prop :=
  ∃ room, msgHeaderLen + room < 2 ^ 32 ∧ Allocated room d

variable {net : DatagramNetwork σ} {application : Application τ} {e e' : Messages σ τ}

/-- Whatever arrives, the message has no body when it was read. -/
theorem readInput_receives (hinput : HasRoom e.m_inputMsg) {arrived : Arrived σ}
    (hreceive : net.receiveFrom e.socket msgHeaderLen = some arrived) :
    ∃ m_inputMsg, HasRoom m_inputMsg ∧ bodyOf m_inputMsg = [] ∧
      readInput net e = .ok { e with m_inputMsg, socket := arrived.after } := by
  obtain ⟨room, hfits, hallocated⟩ := hinput
  obtain ⟨header, area, hheader, rfl, hlaidOut⟩ := hallocated.exists_laidOut hfits
  obtain ⟨header', hheader', hread⟩ := e.session.readMsgData_receives hheader hfits
    e.m_inputMsg.m_nDataLength e.m_inputMsg.m_bUpdated hreceive
  rw [← hlaidOut] at hread
  have hzeros : (List.replicate area.length (0 : UInt8)).length = area.length :=
    List.length_replicate
  refine ⟨laidOut header' (List.replicate area.length 0) 0 e.m_inputMsg.m_bUpdated false,
    ⟨area.length, hfits, ?_⟩, rfl, ?_⟩
  · have hzeroed := allocated_laidOut hheader' (hzeros.symm ▸ hallocated.payload_pos)
      (hzeros.symm ▸ hfits) 0 e.m_inputMsg.m_bUpdated
    rwa [hzeros] at hzeroed
  · rw [readInput, hread]
    rfl

/-- An application does not change the message that it processes. -/
theorem processInputMsg_keeps (application : Application τ) (e : Messages σ τ) :
    Yields (fun _ ↦ True) (processInputMsg application e) fun r ↦
      r.2.m_inputMsg = e.m_inputMsg := by
  unfold processInputMsg
  dsimp only
  cases (application e.state (bodyOf e.m_inputMsg)).answer with
  | none => exact .pure rfl
  | some answer => exact (yields_any _).bind fun _ _ ↦ .pure rfl

theorem writeOutput_keeps (net : DatagramNetwork σ) (e : Messages σ τ) :
    Yields (fun _ ↦ True) (writeOutput net e) fun r ↦ r.m_inputMsg = e.m_inputMsg := by
  unfold writeOutput
  exact .ite (fun _ ↦ (yields_any _).bind fun _ _ ↦ .pure rfl) fun _ ↦ .pure rfl

/-- Whatever arrives, and whatever the application does, the message that it finds has no body. -/
theorem ioMsgHandler_finds (hinput : HasRoom e.m_inputMsg) {arrived : Arrived σ}
    (hreceive : net.receiveFrom e.socket msgHeaderLen = some arrived)
    (hhandler : ioMsgHandler application net e .io = .ok e') :
    HasRoom e'.m_inputMsg ∧ bodyOf e'.m_inputMsg = [] := by
  obtain ⟨m_inputMsg, hroom, hempty, hread⟩ := readInput_receives hinput hreceive
  have hkeeps : Yields (fun _ ↦ True) (ioMsgHandler application net e .io) fun r ↦
      r.m_inputMsg = m_inputMsg := by
    unfold ioMsgHandler
    rw [hread, ok_bind]
    refine (processInputMsg_keeps application _).bind fun processed hprocessed ↦ ?_
    refine .ite (fun _ ↦ .pure hprocessed) fun _ ↦ ?_
    exact (writeOutput_keeps net processed.2).mono fun written hwritten ↦ hwritten.trans hprocessed
  have hsame : e'.m_inputMsg = m_inputMsg := hkeeps.of_ok hhandler
  exact ⟨hsame.symm ▸ hroom, hsame.symm ▸ hempty⟩

/-- The answer to a message without a body is put in the output message. -/
theorem processInputMsg_answers (hempty : bodyOf e.m_inputMsg = [])
    (houtput : HasRoom e.m_outputMsg) (happ : application.Sendable) {answer : List UInt8}
    (hanswer : (application e.state []).answer = some answer) :
    ∃ header rest : List UInt8, header.length = msgHeaderLen ∧
      msgHeaderLen + (answer ++ rest).length < 2 ^ 32 ∧ processInputMsg application e =
        .ok ((application e.state []).success, { e with
          m_outputMsg := laidOut header (answer ++ rest) (msgHeaderLen + answer.length) true false,
          state := (application e.state []).after }) := by
  obtain ⟨room, hfits, hallocated⟩ := houtput
  obtain ⟨hpos, hshort⟩ := happ _ _ answer hanswer
  obtain ⟨header, rest, hheader, hsize, hwrite⟩ :=
    CTcpServer.exists_writeOutputData hallocated hfits hpos hshort
  refine ⟨header, rest, hheader, hsize, ?_⟩
  unfold processInputMsg writeOutputData
  dsimp only
  rw [hempty, hanswer]
  dsimp only
  rw [hwrite, ok_bind]
  rfl

section Passes

variable {arrived : Arrived σ} (hinput : HasRoom e.m_inputMsg)
  (hreceive : net.receiveFrom e.socket msgHeaderLen = some arrived)

include hinput hreceive

/-- Without an answer, and when none waits, nothing is sent. -/
theorem ioMsgHandler_silent (hidle : e.m_outputMsg.m_bUpdated = false)
    (hnone : (application e.state []).answer = none) :
    ∃ m_inputMsg, ioMsgHandler application net e .io = .ok { e with
      m_inputMsg, socket := arrived.after, state := (application e.state []).after } := by
  obtain ⟨m_inputMsg, hroom, hempty, hread⟩ := readInput_receives hinput hreceive
  have hprocess : processInputMsg application { e with m_inputMsg, socket := arrived.after } =
      .ok ((application e.state []).success, { e with
        m_inputMsg, socket := arrived.after, state := (application e.state []).after }) := by
    unfold processInputMsg
    dsimp only
    rw [hempty, hnone]
    rfl
  refine ⟨m_inputMsg, ?_⟩
  unfold ioMsgHandler
  rw [hread, ok_bind, hprocess, ok_bind]
  dsimp only
  split_ifs
  · rfl
  · exact if_neg (Bool.eq_false_iff.mp hidle)

/-- The answer of an application that fails waits in the output message. -/
theorem ioMsgHandler_fails (houtput : HasRoom e.m_outputMsg) (happ : application.Sendable)
    {answer : List UInt8} (hanswer : (application e.state []).answer = some answer)
    (hfails : (application e.state []).success = false) :
    ∃ m_inputMsg m_outputMsg, ioMsgHandler application net e .io = .ok { e with
      m_inputMsg, m_outputMsg, socket := arrived.after,
      state := (application e.state []).after } := by
  obtain ⟨m_inputMsg, hroom, hempty, hread⟩ := readInput_receives hinput hreceive
  obtain ⟨header, rest, hheader, hsize, hprocess⟩ := processInputMsg_answers
    (e := { e with m_inputMsg, socket := arrived.after }) hempty houtput happ hanswer
  refine ⟨m_inputMsg, laidOut header (answer ++ rest) (msgHeaderLen + answer.length) true false, ?_⟩
  unfold ioMsgHandler
  rw [hread, ok_bind, hprocess, ok_bind]
  exact if_pos hfails

/-- The answer of an application is sent in one datagram, if the socket takes it. -/
theorem ioMsgHandler_answers (houtput : HasRoom e.m_outputMsg) (happ : application.Sendable)
    {answer : List UInt8} (hanswer : (application e.state []).answer = some answer)
    (hsuccess : (application e.state []).success = true) :
    ∃ frame, FrameOf answer frame ∧ ∀ status, net.sendTo arrived.after frame = some status →
      (status.thrown = false → status.count = frame.length) →
        ∃ m_inputMsg m_outputMsg, HasRoom m_outputMsg ∧ m_outputMsg.m_bUpdated = status.thrown ∧
          ioMsgHandler application net e .io = .ok { e with
            m_inputMsg, m_outputMsg, socket := status.after,
            state := (application e.state []).after } := by
  obtain ⟨m_inputMsg, hroom, hempty, hread⟩ := readInput_receives hinput hreceive
  obtain ⟨header, rest, hheader, hsize, hprocess⟩ := processInputMsg_answers
    (e := { e with m_inputMsg, socket := arrived.after }) hempty houtput happ hanswer
  obtain ⟨hpos, hshort⟩ := happ _ _ answer hanswer
  let header' := encoded header (some e.session.m_sMsgType) answer.length
  have hannounces : Announces header' answer.length :=
    announces_encoded hheader (some e.session.m_sMsgType) (by omega)
  have hframe : FrameOf answer (header' ++ answer) := ⟨header', hannounces, rfl⟩
  refine ⟨header' ++ answer, hframe, fun status hsend hwhole ↦ ?_⟩
  rw [hframe.length] at hwhole
  have hwritten := e.session.writeMsgData_frame hheader rest true hpos hshort hsend hwhole
  refine ⟨m_inputMsg, laidOut header' (answer ++ rest) (msgHeaderLen + answer.length)
    (status.thrown && true) false, ⟨_, hsize, ?_⟩, Bool.and_true _, ?_⟩
  · exact allocated_laidOut hannounces.length (by rw [List.length_append]; omega) hsize _ _
  · unfold ioMsgHandler
    rw [hread, ok_bind, hprocess, ok_bind]
    dsimp only
    rw [hsuccess, if_neg Bool.true_eq_false.mp]
    unfold writeOutput
    dsimp only
    rw [if_pos (by rfl), hwritten]
    rfl

end Passes

end CUdpServer

end RdbLibs.NetIO
