import RdbLibs.NetIO.AllocatedMessage
import RdbLibs.NetIO.CUdpSession

/-!
# The reception of messages over UDP

A message comes in two datagrams, its header and its body. `CUdpSession::readMsgBody` begins with
`clearMsgBody`, which sets the length of the message to 0, and so the body length that it then asks
for is always 0. No message is received: `readMsgData` takes the datagram of the header, and answers
false without a look at the one of the body.
-/

set_option autoImplicit false
set_option relaxedAutoImplicit false

namespace RdbLibs.NetIO

open MachineWord CheckedMemory CNetMessageData NetworkDataHeaderInfo

variable {σ : Type}

/-- A network on which some datagrams are pending. `receive_from` takes the oldest, of which the
bytes that do not fit the buffer are lost. -/
def DeliversDatagrams (net : DatagramNetwork σ) (pending : σ → List (List UInt8)) : Prop :=
  ∀ socket datagram rest size, pending socket = datagram :: rest →
    ∃ after, net.receiveFrom socket size = some ⟨datagram.take size, false, after⟩ ∧
      pending after = rest

namespace CUdpSession

variable {net : DatagramNetwork σ}

/-- The body has been received: the answer is true, and the message has the length of the body, and
its bytes at the start of its area. -/
def Receives (session : CUdpSession) (net : DatagramNetwork σ) (c : Association σ)
    (body : List UInt8) : Prop :=
  ∃ c' header padding, session.readMsgData net c = .ok (true, c') ∧
    c'.msgData.getBodyLength = body.length ∧ header.length = msgHeaderLen ∧
    c'.msgData.m_pData = some (header ++ (body ++ padding))

/-- Whatever length was noted, `readMsgBody` finds the one that `clearMsgBody` has set. -/
theorem readMsgBody_laidOut (net : DatagramNetwork σ) {header area : List UInt8}
    (hheader : header.length = msgHeaderLen) (hfits : msgHeaderLen + area.length < 2 ^ 32)
    (dataLength : ℕ) (updated : Bool) (socket : σ) :
    readMsgBody net ⟨laidOut header area dataLength updated false, socket⟩ =
      .ok (false, ⟨laidOut header (List.replicate area.length 0) 0 updated false, socket⟩) := by
  unfold readMsgBody
  rw [clearMsgBody_laidOut hheader hfits, ok_bind]
  rfl

/-- Assumes: a header at the front of the pending datagrams that announces a body shorter than the
area. The header is read and decoded. -/
theorem readMsgHeader_laidOut (session : CUdpSession) {pending : σ → List (List UInt8)}
    (hnet : DeliversDatagrams net pending) {header area : List UInt8}
    (hheader : header.length = msgHeaderLen) (hfits : msgHeaderLen + area.length < 2 ^ 32)
    {arrived : List UInt8} {bodyLength : ℕ} (harrived : Announces arrived bodyLength)
    (hroom : bodyLength < area.length) {rest : List (List UInt8)} {socket : σ}
    (hpending : pending socket = arrived :: rest) (dataLength : ℕ) (updated : Bool) :
    ∃ after, pending after = rest ∧
      session.readMsgHeader net ⟨laidOut header area dataLength updated false, socket⟩ =
        .ok (true, ⟨laidOut arrived (List.replicate area.length 0) (msgHeaderLen + bodyLength)
          updated false, after⟩) := by
  have hlength : arrived.length = msgHeaderLen := harrived.length
  obtain ⟨after, hreceive, hafter⟩ := hnet socket arrived rest msgHeaderLen hpending
  rw [List.take_of_length_le hlength.le] at hreceive
  refine ⟨after, hafter, ?_⟩
  have hput : CTcpSession.putReceived (laidOut (List.replicate msgHeaderLen 0)
      (List.replicate area.length 0) 0 updated true) 0 arrived =
        .ok (laidOut arrived (List.replicate area.length 0) 0 updated true) := by
    rw [CTcpSession.putReceived_of_pos _ _ (by rw [hlength]; decide)]
    exact storeHeader_laidOut List.length_replicate hlength
  have hzeros : (List.replicate area.length (0 : UInt8)).length = area.length :=
    List.length_replicate
  unfold readMsgHeader
  rw [clearAll_laidOut hheader, ok_bind, getHeaderLength_laidOut]
  dsimp only
  rw [if_neg (by decide), getDataPtr_laidOut, ok_bind]
  dsimp only
  rw [intToSize_of_lt (by decide), hreceive, awaited_some, ok_bind, hput, ok_bind]
  dsimp only
  rw [if_neg Bool.false_ne_true, releasePtr_laidOut, ok_bind, if_neg (not_lt.mpr hlength.ge),
    decodeMsgHeader_laidOut harrived (hzeros.symm ▸ hroom) (hzeros.symm ▸ hfits)]
  rfl

/-- A call whose header was read answers what `readMsgBody` answers. -/
theorem readMsgData_of_readMsgHeader {session : CUdpSession} {c c' c'' : Association σ}
    {answer : Bool} (hheader : session.readMsgHeader net c = .ok (true, c'))
    (hbody : readMsgBody net c' = .ok (answer, c'')) :
    session.readMsgData net c = .ok (answer, c'') := by
  rw [readMsgData, hheader, ok_bind]
  dsimp only
  rw [if_pos rfl, hbody, ok_bind]
  cases answer <;> rfl

/-- Assumes: an allocated message, and a header at the front of the pending datagrams that announces
a body that fits it. The call takes the header, and answers false. -/
theorem readMsgData_of_announces (session : CUdpSession) {pending : σ → List (List UInt8)}
    (hnet : DeliversDatagrams net pending) {payload : ℕ} {d : CNetMessageData}
    (hd : Allocated payload d) (hfits : msgHeaderLen + payload < 2 ^ 32) {arrived : List UInt8}
    {bodyLength : ℕ} (harrived : Announces arrived bodyLength) (hroom : bodyLength < payload)
    {rest : List (List UInt8)} {socket : σ} (hpending : pending socket = arrived :: rest) :
    ∃ c, session.readMsgData net ⟨d, socket⟩ = .ok (false, c) ∧
      c.msgData.getBodyLength = 0 ∧ pending c.socket = rest := by
  obtain ⟨header, area, hheader, rfl, hlaidOut⟩ := hd.exists_laidOut hfits
  have hzeros : (List.replicate area.length (0 : UInt8)).length = area.length :=
    List.length_replicate
  obtain ⟨after, hafter, hreadHeader⟩ := session.readMsgHeader_laidOut hnet hheader hfits harrived
    hroom hpending d.m_nDataLength d.m_bUpdated
  have hreadBody := readMsgBody_laidOut net harrived.length (hzeros.symm ▸ hfits)
    (msgHeaderLen + bodyLength) d.m_bUpdated after
  rw [← hlaidOut] at hreadHeader
  exact ⟨_, readMsgData_of_readMsgHeader hreadHeader hreadBody, rfl, hafter⟩

/-- A call that answers false has not received a body. -/
theorem not_receives {session : CUdpSession} {c c' : Association σ}
    (hread : session.readMsgData net c = .ok (false, c')) (body : List UInt8) :
    ¬session.Receives net c body := by
  rintro ⟨c'', header, padding, hreceived, -⟩
  cases hread.symm.trans hreceived

/-- Assumes: an allocated message, and a header and a body pending that fit it. The body is not
received. The call answers false, it has left the body pending, and the message has no body. -/
theorem readMsgData_never_receives (session : CUdpSession) {pending : σ → List (List UInt8)}
    (hnet : DeliversDatagrams net pending) {payload : ℕ} {c : Association σ}
    (hd : Allocated payload c.msgData) {header body : List UInt8} {rest : List (List UInt8)}
    (hheader : Announces header body.length) (hpos : 0 < body.length)
    (hroom : (body.length : ℤ) < c.msgData.getMaxDataLen)
    (hpending : pending c.socket = header :: body :: rest) :
    ¬session.Receives net c body ∧ ∃ c', session.readMsgData net c = .ok (false, c') ∧
      c'.msgData.getBodyLength = 0 ∧ pending c'.socket = body :: rest := by
  obtain ⟨hfits, hlt⟩ := hd.lt_payload hpos hroom
  obtain ⟨c', hread, hempty, hpending'⟩ :=
    session.readMsgData_of_announces hnet hd hfits hheader hlt hpending
  exact ⟨not_receives hread body, c', hread, hempty, hpending'⟩

/-- The network that is a list of datagrams. -/
def datagrams : DatagramNetwork (List (List UInt8)) where
  receiveFrom socket size :=
    socket.head?.map fun datagram ↦ ⟨datagram.take size, false, socket.tail⟩
  sendTo socket bytes := some ⟨bytes.length, false, socket⟩
  receiveFrom_le := by
    intro socket size arrived harrived
    obtain ⟨datagram, -, rfl⟩ := Option.map_eq_some_iff.mp harrived
    exact List.length_take_le ..

theorem deliversDatagrams_datagrams : DeliversDatagrams datagrams id := by
  rintro socket datagram rest size hsocket
  refine ⟨rest, ?_, rfl⟩
  rw [show socket = datagram :: rest from hsocket]
  rfl

/-- A body of two bytes for a message with room for four stays pending. -/
theorem readMsgData_never_receives_two :
    ∃ c, (⟨[]⟩ : CUdpSession).readMsgData datagrams
        ⟨newMessage 4, [encoded (List.replicate 20 0) none 2, [7, 8]]⟩ = .ok (false, c) ∧
      c.msgData.getBodyLength = 0 ∧ c.socket = [[7, 8]] := by
  have hannounces : Announces (encoded (List.replicate 20 0) none 2) ([7, 8] : List UInt8).length :=
    announces_encoded rfl none (by decide)
  have hroom : (([7, 8] : List UInt8).length : ℤ) < (newMessage 4).getMaxDataLen := by
    rw [newMessage, getMaxDataLen_laidOut]
    decide
  exact (readMsgData_never_receives ⟨[]⟩ deliversDatagrams_datagrams
    (c := ⟨newMessage 4, [encoded (List.replicate 20 0) none 2, [7, 8]]⟩)
    (allocated_newMessage (by decide) (by decide)) hannounces (by decide) hroom rfl).2

/-- It fits the message, but it is not received. -/
theorem two_bytes_are_not_received :
    Announces (encoded (List.replicate 20 0) none 2) 2 ∧ (2 : ℤ) < (newMessage 4).getMaxDataLen ∧
      ¬(⟨[]⟩ : CUdpSession).Receives datagrams
        ⟨newMessage 4, [encoded (List.replicate 20 0) none 2, [7, 8]]⟩ [7, 8] := by
  have hannounces : Announces (encoded (List.replicate 20 0) none 2) 2 :=
    announces_encoded rfl none (by decide)
  refine ⟨hannounces, ?_, ?_⟩
  · rw [newMessage, getMaxDataLen_laidOut]
    decide
  · have hnew : Allocated 4 (newMessage 4) := allocated_newMessage (by decide) (by decide)
    obtain ⟨c, hread, -⟩ := (⟨[]⟩ : CUdpSession).readMsgData_of_announces
      deliversDatagrams_datagrams hnew (by decide) hannounces (by decide) rfl
    exact not_receives hread [7, 8]

end CUdpSession

end RdbLibs.NetIO
