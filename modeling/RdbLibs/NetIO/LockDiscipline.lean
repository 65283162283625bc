import RdbLibs.Foundations.Runs
import RdbLibs.NetIO.CUdpSession
import RdbLibs.NetIO.GuardedMessage

/-!
# The lock discipline of the sessions

Every method of a session takes a guarded message with a free mutex to another one, whatever the
network does, and so does any sequence of calls of any sessions on one message. Two readings of this
are put together in `lock_discipline`. With every fault excused that is not about the mutex, no call
locks a mutex that is locked or unlocks one that is free. With no fault excused, all calls return.
-/

set_option autoImplicit false
set_option relaxedAutoImplicit false

namespace RdbLibs.NetIO

open MachineWord CheckedMemory CNetMessageData Runs

variable {σ : Type} {Excused : Fault → Prop} {payload : ℕ}

/-- A transfer that does not wait, unless waiting is excused. -/
def Answered (Excused : Fault → Prop) {α : Type} (outcome : Option α) : Prop :=
  Excused .waiting ∨ outcome.isSome

theorem Answered.yields {α : Type} {outcome : Option α} (h : Answered Excused outcome) :
    Yields Excused (awaited outcome) fun value ↦ outcome = some value := by
  cases outcome with
  | none => exact .error (h.resolve_right Bool.false_ne_true)
  | some value => exact .ok rfl

namespace CNetMessageData

variable {d : CNetMessageData}

/-- A body length that is positive as an `int` is inside the block. -/
theorem Guarded.bodyLength_le {locked : Bool} (h : Guarded Excused payload locked d)
    (hpos : 0 < d.getBodyLength) :
    Excused .outOfBounds ∨ msgHeaderLen + intToSize d.getBodyLength ≤ blockSize payload := by
  refine h.fits.imp_right fun hfits ↦ ?_
  have hheader : d.m_nHeaderLength = msgHeaderLen := h.block.headerLength
  unfold getBodyLength at *
  split_ifs at * with hempty hshort
  · exact absurd hpos (lt_irrefl 0)
  · exact absurd hpos (lt_irrefl 0)
  · have hle := intToSize_toInt_le hpos
    have hlength := hfits.2
    omega

theorem Guarded.curDataLen_le {locked : Bool} (h : Guarded Excused payload locked d)
    (hpos : 0 < d.getCurDataLen) :
    Excused .outOfBounds ∨ intToSize d.getCurDataLen ≤ blockSize payload :=
  h.fits.imp_right fun hfits ↦ (intToSize_toInt_le hpos).trans hfits.2

/-- Bytes that have been received are put inside the block. -/
theorem Guarded.putReceived (h : Guarded Excused payload true d) {pData : ℕ} {bytes : List UInt8}
    (hroom : Excused .outOfBounds ∨ pData + bytes.length ≤ blockSize payload) :
    Yields Excused (CTcpSession.putReceived d pData bytes) (Guarded Excused payload true) := by
  unfold CTcpSession.putReceived
  refine .ite (fun _ ↦ .ok h) fun _ ↦ h.access fun cells hcells ↦ ?_
  rw [← hcells] at hroom
  exact .storeRange hroom

end CNetMessageData

/-! ### The methods of a TCP session -/

namespace CTcpSession

variable {net : Network σ} {c : Connection σ}

/-- A read that has put as many bytes as were asked for into the buffer, without an error. -/
def Filled (net : Network σ) (socket : σ) (size : ℕ) : Prop :=
  ∃ received, net.read socket size = some received ∧ received.completion = .success ∧
    size ≤ received.bytes.length

theorem readMsgHeader_guarded (h : Guarded Excused payload false c.msgData)
    (hnet : ∀ socket size, Answered Excused (net.read socket size)) :
    Yields Excused (readMsgHeader net c) fun r ↦
      Guarded Excused payload false r.2.msgData ∧
        (r.1 = true → Filled net c.socket msgHeaderLen) := by
  unfold readMsgHeader
  refine h.clearAll.bind fun cleared hcleared ↦ ?_
  have hsize : intToSize cleared.getHeaderLength = msgHeaderLen := by
    rw [hcleared.allocated.getHeaderLength_eq, intToSize_of_lt (by decide)]
  refine .ite (fun _ ↦ .pure ⟨hcleared, nofun⟩) fun _ ↦ ?_
  refine hcleared.getDataPtr.bind fun pointer hpointer ↦ ?_
  obtain ⟨pData, locked⟩ := pointer
  obtain ⟨rfl, hlocked⟩ := hpointer
  rw [hsize]
  refine (hnet c.socket msgHeaderLen).yields.bind fun received hreceived ↦ ?_
  have hroom : Excused .outOfBounds ∨ 0 + received.bytes.length ≤ blockSize payload :=
    hlocked.header_le.imp_right fun hle ↦
      (Nat.zero_add _).trans_le ((net.read_le _ _ _ hreceived).trans hle)
  refine (hlocked.putReceived hroom).bind fun written hwritten ↦ ?_
  refine hwritten.releasePtr.bind fun released hreleased ↦ ?_
  dsimp only
  match hcompletion : received.completion with
  | .thrown => exact .pure ⟨hreleased, nofun⟩
  | .failure _ => exact .pure ⟨hreleased, nofun⟩
  | .success =>
    refine .ite (fun _ ↦ .pure ⟨hreleased, nofun⟩) fun hfull ↦ ?_
    have hfilled : Filled net c.socket msgHeaderLen :=
      ⟨received, hreceived, hcompletion, not_lt.mp hfull⟩
    refine .ite (fun _ ↦ ?_) fun _ ↦ .pure ⟨hreleased, fun _ ↦ hfilled⟩
    exact (hreleased.decodeMsgHeader _).bind fun decoded hdecoded ↦
      .pure ⟨hdecoded, fun _ ↦ hfilled⟩

theorem readMsgBody_guarded (h : Guarded Excused payload false c.msgData)
    (hnet : ∀ socket size, Answered Excused (net.read socket size)) :
    Yields Excused (readMsgBody net c) fun r ↦
      Guarded Excused payload false r.2.msgData ∧
        (r.1 = true → Filled net c.socket (intToSize c.msgData.getBodyLength)) := by
  unfold readMsgBody
  refine .ite (fun _ ↦ .pure ⟨h, nofun⟩) fun hpos ↦ ?_
  have hbody := h.bodyLength_le (by omega)
  refine h.clearMsgBody.bind fun cleared hcleared ↦ ?_
  refine hcleared.getBodyPtr.bind fun pointer hpointer ↦ ?_
  obtain ⟨pData, locked⟩ := pointer
  obtain ⟨rfl, hlocked⟩ := hpointer
  refine (hnet c.socket _).yields.bind fun received hreceived ↦ ?_
  have hroom : Excused .outOfBounds ∨ msgHeaderLen + received.bytes.length ≤ blockSize payload :=
    hbody.imp_right fun hle ↦
      (Nat.add_le_add_left (net.read_le _ _ _ hreceived) msgHeaderLen).trans hle
  refine (hlocked.putReceived hroom).bind fun written hwritten ↦ ?_
  refine hwritten.releasePtr.bind fun released hreleased ↦ ?_
  dsimp only
  match hcompletion : received.completion with
  | .thrown => exact .pure ⟨hreleased, nofun⟩
  | .failure _ => exact .pure ⟨hreleased, nofun⟩
  | .success =>
    have hnoted := hreleased.setBodyLength hroom
    refine .ite (fun _ ↦ .pure ⟨hnoted, nofun⟩) fun hfull ↦ ?_
    have hfilled : Filled net c.socket (intToSize c.msgData.getBodyLength) :=
      ⟨received, hreceived, hcompletion, not_lt.mp hfull⟩
    exact .pure ⟨hnoted.setUpdated true, fun _ ↦ hfilled⟩

theorem readMsgData_guarded (h : Guarded Excused payload false c.msgData)
    (hnet : ∀ socket size, Answered Excused (net.read socket size)) :
    Yields Excused (readMsgData net c) fun r ↦ Guarded Excused payload false r.2.msgData := by
  unfold readMsgData
  refine (readMsgHeader_guarded h hnet).bind fun header hheader ↦ ?_
  refine .ite (fun _ ↦ ?_) fun _ ↦ .pure hheader.1
  refine (readMsgBody_guarded hheader.1 hnet).bind fun body hbody ↦ ?_
  exact .ite (fun _ ↦ .pure hbody.1) fun _ ↦ .pure hbody.1

theorem transmit_guarded {transfer : σ → List UInt8 → Option (Sent σ)}
    (h : Guarded Excused payload false c.msgData)
    (htransfer : ∀ socket bytes, Answered Excused (transfer socket bytes)) :
    Yields Excused (transmit transfer c) fun r ↦ Guarded Excused payload false r.2.msgData := by
  unfold transmit
  refine .ite (fun _ ↦ .pure h) fun hpos ↦ ?_
  have hlength := h.curDataLen_le (by omega)
  refine (h.encodeMsgHeader _).bind fun encoded hencoded ↦ ?_
  refine hencoded.getDataPtr.bind fun pointer hpointer ↦ ?_
  obtain ⟨pData, locked⟩ := pointer
  obtain ⟨rfl, hlocked⟩ := hpointer
  refine hlocked.cells.bind fun cells hcells ↦ ?_
  rw [← hcells, ← Nat.zero_add (intToSize _)] at hlength
  refine (Yields.loadRange hlength).bind fun bytes _ ↦ ?_
  refine (htransfer c.socket bytes).yields.bind fun sent _ ↦ ?_
  refine hlocked.releasePtr.bind fun released hreleased ↦ ?_
  dsimp only
  match sent.completion with
  | .thrown => exact .pure hreleased
  | .failure _ => exact .pure hreleased
  | .success => exact .ite (fun _ ↦ .pure hreleased) fun _ ↦ .pure (hreleased.setUpdated false)

end CTcpSession

/-! ### The methods of a UDP session -/

namespace CUdpSession

variable {net : DatagramNetwork σ} {session : CUdpSession} {c : Association σ}

theorem readMsgHeader_guarded (h : Guarded Excused payload false c.msgData)
    (hnet : ∀ socket size, Answered Excused (net.receiveFrom socket size)) :
    Yields Excused (session.readMsgHeader net c) fun r ↦
      Guarded Excused payload false r.2.msgData := by
  unfold readMsgHeader
  refine h.clearAll.bind fun cleared hcleared ↦ ?_
  have hsize : intToSize cleared.getHeaderLength = msgHeaderLen := by
    rw [hcleared.allocated.getHeaderLength_eq, intToSize_of_lt (by decide)]
  refine .ite (fun _ ↦ .pure hcleared) fun _ ↦ ?_
  refine hcleared.getDataPtr.bind fun pointer hpointer ↦ ?_
  obtain ⟨pData, locked⟩ := pointer
  obtain ⟨rfl, hlocked⟩ := hpointer
  rw [hsize]
  refine (hnet c.socket msgHeaderLen).yields.bind fun status hstatus ↦ ?_
  have hroom : Excused .outOfBounds ∨ 0 + status.bytes.length ≤ blockSize payload :=
    hlocked.header_le.imp_right fun hle ↦
      (Nat.zero_add _).trans_le ((net.receiveFrom_le _ _ _ hstatus).trans hle)
  refine (hlocked.putReceived hroom).bind fun written hwritten ↦ ?_
  refine .ite (fun _ ↦ ?_) fun _ ↦ ?_
  · exact hwritten.releasePtr.bind fun released hreleased ↦ .pure hreleased
  · refine hwritten.releasePtr.bind fun released hreleased ↦ ?_
    refine .ite (fun _ ↦ .pure hreleased) fun _ ↦ ?_
    exact (hreleased.decodeMsgHeader _).bind fun decoded hdecoded ↦ .pure hdecoded

theorem readMsgBody_guarded (h : Guarded Excused payload false c.msgData)
    (hnet : ∀ socket size, Answered Excused (net.receiveFrom socket size)) :
    Yields Excused (readMsgBody net c) fun r ↦ Guarded Excused payload false r.2.msgData := by
  unfold readMsgBody
  refine h.clearMsgBody.bind fun cleared hcleared ↦ ?_
  refine .ite (fun _ ↦ .pure hcleared) fun hpos ↦ ?_
  have hbody := hcleared.bodyLength_le (by omega)
  refine hcleared.getBodyPtr.bind fun pointer hpointer ↦ ?_
  obtain ⟨pData, locked⟩ := pointer
  obtain ⟨rfl, hlocked⟩ := hpointer
  refine (hnet c.socket _).yields.bind fun status hstatus ↦ ?_
  have hroom : Excused .outOfBounds ∨ msgHeaderLen + status.bytes.length ≤ blockSize payload :=
    hbody.imp_right fun hle ↦
      (Nat.add_le_add_left (net.receiveFrom_le _ _ _ hstatus) msgHeaderLen).trans hle
  refine (hlocked.putReceived hroom).bind fun written hwritten ↦ ?_
  refine .ite (fun _ ↦ ?_) fun _ ↦ ?_
  · exact hwritten.releasePtr.bind fun released hreleased ↦ .pure hreleased
  · refine hwritten.releasePtr.bind fun released hreleased ↦ ?_
    exact .ite (fun _ ↦ .pure hreleased) fun _ ↦ .pure (hreleased.setUpdated true)

theorem readMsgData_guarded (h : Guarded Excused payload false c.msgData)
    (hnet : ∀ socket size, Answered Excused (net.receiveFrom socket size)) :
    Yields Excused (session.readMsgData net c) fun r ↦
      Guarded Excused payload false r.2.msgData := by
  unfold readMsgData
  refine (readMsgHeader_guarded h hnet).bind fun header hheader ↦ ?_
  refine .ite (fun _ ↦ ?_) fun _ ↦ .pure hheader
  refine (readMsgBody_guarded hheader hnet).bind fun body hbody ↦ ?_
  exact .ite (fun _ ↦ .pure hbody) fun _ ↦ .pure hbody

theorem writeMsgData_guarded (h : Guarded Excused payload false c.msgData)
    (hnet : ∀ socket bytes, Answered Excused (net.sendTo socket bytes)) :
    Yields Excused (session.writeMsgData net c) fun r ↦
      Guarded Excused payload false r.2.msgData := by
  unfold writeMsgData
  refine .ite (fun _ ↦ .pure h) fun hpos ↦ ?_
  have hlength := h.curDataLen_le (by omega)
  refine (h.encodeMsgHeader _).bind fun encoded hencoded ↦ ?_
  refine hencoded.getDataPtr.bind fun pointer hpointer ↦ ?_
  obtain ⟨pData, locked⟩ := pointer
  obtain ⟨rfl, hlocked⟩ := hpointer
  refine hlocked.cells.bind fun cells hcells ↦ ?_
  rw [← hcells, ← Nat.zero_add (intToSize _)] at hlength
  refine (Yields.loadRange hlength).bind fun bytes _ ↦ ?_
  refine (hnet c.socket bytes).yields.bind fun status _ ↦ ?_
  refine .ite (fun _ ↦ ?_) fun _ ↦ ?_
  · exact hlocked.releasePtr.bind fun released hreleased ↦ .pure hreleased
  · refine hlocked.releasePtr.bind fun released hreleased ↦ ?_
    exact .ite (fun _ ↦ .pure hreleased) fun _ ↦ .pure (hreleased.setUpdated false)

end CUdpSession

/-! ### Sequences of calls -/

namespace LockDiscipline

/-- The calls of a TCP session. -/
inductive TcpMethod
  | readMsgData
  | writeMsgData
  | sendMsgData

/-- The calls of a UDP session. -/
inductive UdpMethod
  | readMsgData
  | writeMsgData

/-- A call of a session, with what the network behind its socket does. -/
inductive SessionCall : Type 1
  | tcp {σ : Type} (method : TcpMethod) (net : Network σ) (session : CTcpSession) (socket : σ)
  | udp {σ : Type} (method : UdpMethod) (net : DatagramNetwork σ) (session : CUdpSession)
      (socket : σ)

/-- The method that is called. -/
def TcpMethod.call (net : Network σ) : TcpMethod → Connection σ → Except Fault (Bool × Connection σ)
  | .readMsgData => CTcpSession.readMsgData net
  | .writeMsgData => CTcpSession.writeMsgData net
  | .sendMsgData => CTcpSession.sendMsgData net

/-- The method that is called. -/
def UdpMethod.call (net : DatagramNetwork σ) (session : CUdpSession) :
    UdpMethod → Association σ → Except Fault (Bool × Association σ)
  | .readMsgData => session.readMsgData net
  | .writeMsgData => session.writeMsgData net

/-- What a call answers, and what it makes of the message. -/
def SessionCall.perform (d : CNetMessageData) :
    SessionCall → Except Fault (Bool × CNetMessageData)
  | .tcp method net session socket => do
    let (answer, c) ← method.call net ⟨session, d, socket⟩
    return (answer, c.msgData)
  | .udp method net session socket => do
    let (answer, c) ← method.call net session ⟨d, socket⟩
    return (answer, c.msgData)

/-- A call that returns. -/
def Step (before : CNetMessageData) (call : SessionCall) (answer : Bool) (after : CNetMessageData) :
    Prop :=
  call.perform before = .ok (answer, after)

/-- A network with which the call does not wait, unless waiting is excused. -/
def SessionCall.Answers (Excused : Fault → Prop) : SessionCall → Prop
  | .tcp _ net _ _ => (∀ socket size, Answered Excused (net.read socket size)) ∧
      ∀ socket bytes, Answered Excused (net.write socket bytes) ∧
        Answered Excused (net.send socket bytes)
  | .udp _ net _ _ => (∀ socket size, Answered Excused (net.receiveFrom socket size)) ∧
      ∀ socket bytes, Answered Excused (net.sendTo socket bytes)

/-- The call has not locked the mutex while it was locked nor unlocked it while it was free, and if
it has returned, the mutex is free. -/
def KeepsLock : Except Fault (Bool × CNetMessageData) → Prop
  | .ok (_, after) => after.m_dataLock = false
  | .error fault => fault ≠ .alreadyLocked ∧ fault ≠ .notLocked

/-- Every fault that is not about the mutex. -/
def Unrelated (fault : Fault) : Prop := fault ≠ .alreadyLocked ∧ fault ≠ .notLocked

/-- What one call preserves. -/
theorem SessionCall.perform_guarded {d : CNetMessageData} (h : Guarded Excused payload false d)
    {call : SessionCall} (hcall : call.Answers Excused) :
    Yields Excused (call.perform d) fun r ↦ Guarded Excused payload false r.2 := by
  cases call with
  | tcp method net session socket =>
    have hmethod : Yields Excused (method.call net ⟨session, d, socket⟩) fun r ↦
        Guarded Excused payload false r.2.msgData := by
      cases method with
      | readMsgData => exact CTcpSession.readMsgData_guarded h hcall.1
      | writeMsgData =>
        exact CTcpSession.transmit_guarded h fun socket bytes ↦ (hcall.2 socket bytes).1
      | sendMsgData =>
        exact CTcpSession.transmit_guarded h fun socket bytes ↦ (hcall.2 socket bytes).2
    exact hmethod.bind fun r hr ↦ .pure hr
  | udp method net session socket =>
    have hmethod : Yields Excused (method.call net session ⟨d, socket⟩) fun r ↦
        Guarded Excused payload false r.2.msgData := by
      cases method with
      | readMsgData => exact CUdpSession.readMsgData_guarded h hcall.1
      | writeMsgData => exact CUdpSession.writeMsgData_guarded h hcall.2
    exact hmethod.bind fun r hr ↦ .pure hr

theorem SessionCall.answers_unrelated (call : SessionCall) : call.Answers Unrelated := by
  have hwaiting : Unrelated .waiting := ⟨by decide, by decide⟩
  cases call with
  | tcp => exact ⟨fun _ _ ↦ .inl hwaiting, fun _ _ ↦ ⟨.inl hwaiting, .inl hwaiting⟩⟩
  | udp => exact ⟨fun _ _ ↦ .inl hwaiting, fun _ _ ↦ .inl hwaiting⟩

theorem KeepsLock.of_yields {outcome : Except Fault (Bool × CNetMessageData)}
    (h : Yields Unrelated outcome fun r ↦ Guarded Unrelated payload false r.2) :
    KeepsLock outcome := by
  cases outcome with
  | ok r => exact h.lock_eq
  | error fault => exact h

/-- Assumes: an allocated message whose mutex is free. After any sequence of calls that have
returned the mutex is free, and no call that follows locks it while it is locked or unlocks it while
it is free. If moreover the length of the message is within its block, all calls return on a network
that does not wait. -/
theorem lock_discipline {d : CNetMessageData} (hd : Allocated payload d) :
    (∀ trace final, Run Step d trace final →
      final.m_dataLock = false ∧ ∀ call : SessionCall, KeepsLock (call.perform final)) ∧
    (msgHeaderLen + payload < 2 ^ 32 → d.m_nDataLength ≤ msgHeaderLen + payload →
      ∀ calls : List SessionCall, (∀ call ∈ calls, call.Answers fun _ ↦ False) →
        ∃ trace final, Run Step d trace final ∧ trace.map Call.label = calls ∧
          final.m_dataLock = false) := by
  constructor
  · intro trace final hrun
    have hstart : Guarded Unrelated payload false d :=
      hd.guarded (.inl ⟨by decide, by decide⟩)
    have hfinal : Guarded Unrelated payload false final := by
      refine hrun.invariant (Guarded Unrelated payload false) (fun _ ↦ True) ?_
        (fun _ _ ↦ trivial) hstart
      intro before call answer after _ hbefore hstep
      have hcall := SessionCall.perform_guarded hbefore call.answers_unrelated
      rw [Step] at hstep
      rwa [hstep] at hcall
    exact ⟨hfinal.lock_eq, fun call ↦
      .of_yields (SessionCall.perform_guarded hfinal call.answers_unrelated)⟩
  · intro hfits hlength calls hcalls
    have hstart : Guarded (fun _ ↦ False) payload false d := by
      refine hd.guarded (.inr ⟨hfits, ?_⟩)
      rwa [blockSize, toUnsigned_of_lt hfits]
    have htotal : ∀ before (call : SessionCall), call.Answers (fun _ ↦ False) →
        Guarded (fun _ ↦ False) payload false before →
        ∃ answer after, Step before call answer after ∧
          Guarded (fun _ ↦ False) payload false after := by
      intro before call hcall hbefore
      obtain ⟨r, hr, hafter⟩ := (SessionCall.perform_guarded hbefore hcall).exists_ok
      exact ⟨r.1, r.2, hr, hafter⟩
    obtain ⟨trace, final, hrun, hlabels, hfinal⟩ :=
      Run.exists_of_total _ _ htotal calls d hstart hcalls
    exact ⟨trace, final, hrun, hlabels, hfinal.lock_eq⟩

/-- A connection that is broken: a read fails with an error, and a write throws. -/
def broken : Network Unit where
  read _ _ := some ⟨[], .failure [], ()⟩
  write _ _ := some ⟨0, .thrown, ()⟩
  send _ _ := some ⟨0, .thrown, ()⟩
  read_le := by
    intro socket size received hread
    obtain rfl := Option.some.inj hread
    exact Nat.zero_le _

/-- A socket for datagrams on which every transfer throws. -/
def brokenDatagrams : DatagramNetwork Unit where
  receiveFrom _ _ := some ⟨[], true, ()⟩
  sendTo _ _ := some ⟨0, true, ()⟩
  receiveFrom_le := by
    intro socket size arrived hreceive
    obtain rfl := Option.some.inj hreceive
    exact Nat.zero_le _

/-- A read that fails and two transfers that throw, on a new message. -/
theorem lock_discipline_three :
    ∃ trace final, Run Step (newMessage 4) trace final ∧
      trace.map Call.label =
        [.tcp .readMsgData broken ⟨[], []⟩ (), .tcp .sendMsgData broken ⟨[], []⟩ (),
          .udp .readMsgData brokenDatagrams ⟨[]⟩ ()] ∧
      final.m_dataLock = false := by
  refine (lock_discipline (allocated_newMessage (by decide) (by decide))).2 (by decide)
    (Nat.zero_le _) _ ?_
  have hbroken : ∀ method session,
      (SessionCall.tcp method broken session ()).Answers fun _ ↦ False :=
    fun _ _ ↦ ⟨fun _ _ ↦ .inr rfl, fun _ _ ↦ ⟨.inr rfl, .inr rfl⟩⟩
  simp only [List.forall_mem_cons, List.not_mem_nil, false_imp_iff, implies_true, and_true]
  exact ⟨hbroken _ _, hbroken _ _, fun _ _ ↦ .inr rfl, fun _ _ ↦ .inr rfl⟩

end LockDiscipline

end RdbLibs.NetIO
