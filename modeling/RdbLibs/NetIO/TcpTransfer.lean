import RdbLibs.NetIO.AllocatedMessage
import RdbLibs.NetIO.CTcpSession

/-!
# Transfers over a reliable stream

A network is `Reliable` when it carries a stream of bytes: writes append all their bytes to what is
in flight and reads take as many bytes as they ask for from its front, or wait. Over such a network
a session that sends a message puts one frame into the stream, a header that announces the length
of the body and then the body, as long as the length of the frame is an `int`. A session that reads
takes one frame from it. For that the reads need not wait: it is enough that they take what they ask
for from the front of a stream that has it (`Fills`).
-/

set_option autoImplicit false
set_option relaxedAutoImplicit false

namespace RdbLibs.NetIO

open MachineWord CheckedMemory CNetMessageData NetworkDataHeaderInfo

variable {σ : Type}

/-- A transfer that appends all its bytes to the stream, without an error. -/
def Appends (inFlight : σ → List UInt8) (transfer : σ → List UInt8 → Option (Sent σ)) : Prop :=
  ∀ socket bytes, ∃ after, transfer socket bytes = some ⟨bytes.length, .success, after⟩ ∧
    inFlight after = inFlight socket ++ bytes

/-- A network that carries a stream of bytes, of which `inFlight` is what has not been read. -/
structure Reliable (net : Network σ) (inFlight : σ → List UInt8) : Prop where
  write_all : Appends inFlight net.write
  send_all : Appends inFlight net.send
  read_all : ∀ socket size, size ≤ (inFlight socket).length →
    ∃ after, net.read socket size = some ⟨(inFlight socket).take size, .success, after⟩ ∧
      inFlight after = (inFlight socket).drop size
  read_waits : ∀ socket size, (inFlight socket).length < size → net.read socket size = none

/-- Reads that take as many bytes as they ask for from the front of a stream that has them. -/
def Fills (net : Network σ) (incoming : σ → List UInt8) : Prop :=
  ∀ socket size, size ≤ (incoming socket).length →
    ∃ after, net.read socket size = some ⟨(incoming socket).take size, .success, after⟩ ∧
      incoming after = (incoming socket).drop size

namespace CTcpSession

variable {net : Network σ} {inFlight : σ → List UInt8} {transfer : σ → List UInt8 → Option (Sent σ)}
  {header area : List UInt8} {socket : σ} (session : CTcpSession) (updated : Bool)

/-! ### Sending -/

/-- Assumes: a transfer that appends, and a message whose frame has a length that is an `int`. The
session puts the encoded header and the body into the stream. -/
theorem transmit_frame (htransfer : Appends inFlight transfer)
    (hheader : header.length = msgHeaderLen) {body rest : List UInt8} (hpos : 0 < body.length)
    (hshort : msgHeaderLen + body.length < 2 ^ 31) :
    ∃ after,
      inFlight after =
        inFlight socket ++ (encoded header (some session.m_sMsgType) body.length ++ body) ∧
      transmit transfer ⟨session,
          laidOut header (body ++ rest) (msgHeaderLen + body.length) updated false, socket⟩ =
        .ok (true, ⟨session.noteError .success,
          laidOut (encoded header (some session.m_sMsgType) body.length) (body ++ rest)
            (msgHeaderLen + body.length) false false, after⟩) := by
  let frame := encoded header (some session.m_sMsgType) body.length ++ body
  have hframe : frame.length = msgHeaderLen + body.length := by
    rw [List.length_append, (announces_encoded hheader _ (by omega)).length]
  have hcur : (laidOut header (body ++ rest) (msgHeaderLen + body.length) updated
      false).getCurDataLen = (msgHeaderLen + body.length : ℕ) := toInt_of_lt hshort
  have hload : loadRange (encoded header (some session.m_sMsgType) body.length ++ (body ++ rest)) 0
      (msgHeaderLen + body.length) = .ok frame := by
    rw [← List.append_assoc]
    exact loadRange_middle rest List.length_nil hframe
  obtain ⟨after, hsent, hafter⟩ := htransfer socket frame
  refine ⟨after, hafter, ?_⟩
  rw [transmit, hcur]
  dsimp only
  rw [if_neg (by omega), encodeMsgHeader_laidOut hheader (by omega), ok_bind, getDataPtr_laidOut,
    ok_bind]
  dsimp only
  rw [cells_laidOut, ok_bind, intToSize_of_lt (by omega), hload, ok_bind, hsent, awaited_some,
    ok_bind, releasePtr_laidOut, ok_bind]
  dsimp only
  rw [if_neg (not_lt.mpr hframe.ge)]
  rfl

/-- A message whose frame has a length that is negative as an `int` is not sent. -/
theorem transmit_refused (transfer : σ → List UInt8 → Option (Sent σ)) (socket : σ)
    (header area : List UInt8) {dataLength : ℕ} (hlow : 2 ^ 31 ≤ dataLength)
    (hhigh : dataLength < 2 ^ 32) :
    transmit transfer ⟨session, laidOut header area dataLength updated false, socket⟩ =
      .ok (false, ⟨session, laidOut header area dataLength updated false, socket⟩) := by
  have hnegative : (laidOut header area dataLength updated false).getCurDataLen < 1 :=
    lt_trans (toInt_neg hlow hhigh) Int.one_pos
  rw [transmit]
  exact if_pos hnegative

/-! ### Receiving -/

/-- Assumes: as many bytes at the front of the stream as a header has. They are read, and what
`decodeMsgHeader` makes of them is left, whatever it answers. -/
theorem readMsgHeader_arrived (hnet : Fills net inFlight) (hheader : header.length = msgHeaderLen)
    {arrived rest : List UInt8} (dataLength : ℕ) (harrived : arrived.length = msgHeaderLen)
    (hstream : inFlight socket = arrived ++ rest) {answer : Bool} {decoded : CNetMessageData}
    (hdecode : (laidOut arrived (List.replicate area.length 0) 0 updated false).decodeMsgHeader
      session.m_sMsgType = .ok (answer, decoded)) :
    ∃ after, inFlight after = rest ∧
      readMsgHeader net ⟨session, laidOut header area dataLength updated false, socket⟩ =
        .ok (true, ⟨session.noteError .success, decoded, after⟩) := by
  obtain ⟨after, hread, hafter⟩ := hnet socket msgHeaderLen (by simp [hstream, harrived])
  rw [hstream, List.take_left' harrived] at hread
  rw [hstream, List.drop_left' harrived] at hafter
  refine ⟨after, hafter, ?_⟩
  have hput : putReceived (laidOut (List.replicate msgHeaderLen 0) (List.replicate area.length 0) 0
      updated true) 0 arrived =
        .ok (laidOut arrived (List.replicate area.length 0) 0 updated true) := by
    rw [putReceived_of_pos _ _ (by rw [harrived]; decide)]
    exact storeHeader_laidOut List.length_replicate harrived
  have htype : (session.noteError .success).m_sMsgType = session.m_sMsgType := rfl
  rw [readMsgHeader, clearAll_laidOut hheader, ok_bind, getHeaderLength_laidOut]
  dsimp only
  rw [if_neg (by decide), getDataPtr_laidOut, ok_bind]
  dsimp only
  rw [intToSize_of_lt (by decide), hread, awaited_some, ok_bind, hput, ok_bind, releasePtr_laidOut,
    ok_bind]
  dsimp only
  rw [if_neg (not_lt.mpr harrived.ge), if_pos harrived.ge, htype, hdecode]
  rfl

/-- Assumes: a header at the front of the stream that announces a body shorter than the area. The
header is read and decoded. -/
theorem readMsgHeader_frame (hnet : Fills net inFlight) (hheader : header.length = msgHeaderLen)
    (hfits : msgHeaderLen + area.length < 2 ^ 32) {arrived rest : List UInt8} {bodyLength : ℕ}
    (dataLength : ℕ) (harrived : Announces arrived bodyLength) (hroom : bodyLength < area.length)
    (hstream : inFlight socket = arrived ++ rest) :
    ∃ after, inFlight after = rest ∧
      readMsgHeader net ⟨session, laidOut header area dataLength updated false, socket⟩ =
        .ok (true, ⟨session.noteError .success, laidOut arrived (List.replicate area.length 0)
          (msgHeaderLen + bodyLength) updated false, after⟩) :=
  readMsgHeader_arrived session updated hnet hheader dataLength harrived.length hstream
    (decodeMsgHeader_laidOut harrived (by simpa using hroom) (by simpa using hfits) _)

/-- Assumes: a message whose header was read, and a stream with its body at the front. The body is
read. -/
theorem readMsgBody_frame (hnet : Fills net inFlight) (hheader : header.length = msgHeaderLen)
    (hfits : msgHeaderLen + area.length < 2 ^ 32) {body rest : List UInt8} (hpos : 0 < body.length)
    (hroom : body.length ≤ area.length) (hshort : body.length < 2 ^ 31)
    (hstream : inFlight socket = body ++ rest) :
    ∃ after, inFlight after = rest ∧
      readMsgBody net
          ⟨session, laidOut header area (msgHeaderLen + body.length) updated false, socket⟩ =
        .ok (true, ⟨session.noteError .success, laidOut header
          (body ++ List.replicate (area.length - body.length) 0) (msgHeaderLen + body.length) true
          false, after⟩) := by
  obtain ⟨after, hread, hafter⟩ := hnet socket body.length (by simp [hstream])
  rw [hstream, List.take_left' rfl] at hread
  rw [hstream, List.drop_left' rfl] at hafter
  refine ⟨after, hafter, ?_⟩
  have hput : putReceived (laidOut header (List.replicate area.length 0) 0 updated true)
      msgHeaderLen body =
        .ok (laidOut header (body ++ List.replicate (area.length - body.length) 0) 0 updated
          true) := by
    rw [putReceived_of_pos _ _ hpos, ← List.drop_replicate]
    exact storeBody_laidOut hheader (by simpa using hroom)
  rw [readMsgBody, getBodyLength_laidOut, toInt_of_lt hshort]
  dsimp only
  rw [if_neg (by omega), clearMsgBody_laidOut hheader hfits, ok_bind, getBodyPtr_laidOut, ok_bind]
  dsimp only
  rw [intToSize_of_lt (by omega), hread, awaited_some, ok_bind, hput, ok_bind, releasePtr_laidOut,
    ok_bind]
  dsimp only
  rw [if_neg (lt_irrefl _), setBodyLength_laidOut (by omega)]
  rfl

/-- Assumes: a frame at the front of the stream whose body is shorter than the area. `readMsgData`
takes the frame, and only it, and the message has its body. -/
theorem readMsgData_frame (hnet : Fills net inFlight) (hheader : header.length = msgHeaderLen)
    (hfits : msgHeaderLen + area.length < 2 ^ 32) {arrived body rest : List UInt8} (dataLength : ℕ)
    (harrived : Announces arrived body.length) (hpos : 0 < body.length)
    (hroom : body.length < area.length) (hshort : body.length < 2 ^ 31)
    (hstream : inFlight socket = arrived ++ (body ++ rest)) :
    ∃ after, inFlight after = rest ∧
      readMsgData net ⟨session, laidOut header area dataLength updated false, socket⟩ =
        .ok (true, ⟨session.noteError .success, laidOut arrived
          (body ++ List.replicate (area.length - body.length) 0) (msgHeaderLen + body.length) true
          false, after⟩) := by
  obtain ⟨middle, hmiddle, hreadHeader⟩ :=
    readMsgHeader_frame session updated hnet hheader hfits dataLength harrived hroom hstream
  have hzeros : (List.replicate area.length (0 : UInt8)).length = area.length :=
    List.length_replicate
  obtain ⟨after, hafter, hreadBody⟩ := readMsgBody_frame (session.noteError .success) updated hnet
    harrived.length (hzeros.symm ▸ hfits) hpos (hzeros.symm ▸ hroom.le) hshort hmiddle
  refine ⟨after, hafter, ?_⟩
  rw [hzeros] at hreadBody
  rw [readMsgData, hreadHeader, ok_bind]
  dsimp only
  rw [if_pos rfl, hreadBody, ok_bind]
  rfl

/-- A call that reads from an empty stream waits. -/
theorem readMsgData_waits (hnet : Reliable net inFlight) {payload : ℕ} {d : CNetMessageData}
    (hd : Allocated payload d) (hstream : inFlight socket = []) :
    readMsgData net ⟨session, d, socket⟩ = .error .waiting := by
  have hwaits : net.read socket msgHeaderLen = none :=
    hnet.read_waits socket msgHeaderLen (by rw [hstream]; decide)
  obtain ⟨d', hclear, hd'⟩ := hd.clearAll
  obtain ⟨cells, hcells, -⟩ := hd'.data
  have hptr : d'.getDataPtr = .ok (some 0, { d' with m_dataLock := true }) := by
    simp [getDataPtr, lock, hd'.unlocked, hcells, pure, Except.pure]
  rw [readMsgData, readMsgHeader, hclear, ok_bind, hd'.getHeaderLength_eq]
  dsimp only
  rw [if_neg (by decide), hptr, ok_bind]
  dsimp only
  rw [intToSize_of_lt (by decide), hwaits, awaited_none, error_bind, error_bind]

end CTcpSession

end RdbLibs.NetIO
