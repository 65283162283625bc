import RdbLibs.NetIO.CClientIO.DatagramReads
import RdbLibs.NetIO.CUdpServer.Messages

/-!
# A `CUdpServer` and its clients

Any number of `CUdpClient`s that write and read as they like, and a `CUdpServer` of the direction
`IO` whose thread calls `ioMsgHandler` again and again, in any order of the calls. A datagram that
is sent arrives once and unchanged, behind those that were sent to the same place before. A call
that receives may report an error instead, and a call that sends may be refused. The buffers of the
clients were allocated with a header.

What a client writes never comes to the application, which finds an empty message in every pass. It
can answer that, and the client that has sent the datagram of the pass then reads the answer. If the
application gives an answer but fails, if `send_to` is refused, or if no datagram was received, the
answer is lost, or goes to the client of another pass (`answers_reach_iff`).
-/

set_option autoImplicit false
set_option relaxedAutoImplicit false

namespace RdbLibs.NetIO.UdpService

open Runs CheckedMemory CNetMessageData NetworkDataHeaderInfo CClientIO CUdpClient CUdpServer
open CTcpServer (Application Processed)
open TcpFraming (bodyOf)

variable {A τ : Type}

/-! ### The socket of the server -/

/-- The socket in a pass: the endpoint that it has noted, what `receive_from` gives, which is an
error where there is no datagram, whether `send_to` succeeds, and what was sent. -/
structure Port (A : Type) where
  endpoint : A
  arrivals : List (Option (A × List UInt8))
  accepted : Bool
  sent : List (A × List UInt8)

/-- What `receive_from` makes of what arrives. -/
def Port.receive (socket : Port A) (size : ℕ) : Option (Arrived (Port A)) :=
  match socket.arrivals with
  | [] => none
  | none :: arrivals => some ⟨[], true, { socket with arrivals }⟩
  | some (sender, datagram) :: arrivals =>
    some ⟨datagram.take size, false, { socket with endpoint := sender, arrivals }⟩

/-- `receive_from` and `send_to`. -/
def port : DatagramNetwork (Port A) where
  receiveFrom := Port.receive
  sendTo socket bytes :=
    if socket.accepted then
      some ⟨bytes.length, false,
        { socket with sent := socket.sent ++ [(socket.endpoint, bytes)] }⟩
    else some ⟨0, true, socket⟩
  receiveFrom_le := by
    intro socket size arrived harrived
    unfold Port.receive at harrived
    split at harrived
    · cases harrived
    · obtain rfl := Option.some.inj harrived
      exact Nat.zero_le _
    · obtain rfl := Option.some.inj harrived
      exact List.length_take_le ..

/-- The server at the start of a pass. -/
def facing (e : Messages A τ) (arrival : Option (A × List UInt8)) (accepted : Bool) :
    Messages (Port A) τ :=
  ⟨e.session, e.m_inputMsg, e.m_outputMsg, ⟨e.socket, [arrival], accepted, []⟩, e.state⟩

/-- A pass of the loop in `CUdpProcessingContext::run`, with what it sends. Between two passes the
socket has noted an endpoint. -/
def pass (application : Application τ) (e : Messages A τ) (arrival : Option (A × List UInt8))
    (accepted : Bool) : Except Fault (Messages A τ × List (A × List UInt8)) := do
  let e ← ioMsgHandler application port (facing e arrival accepted) .io
  return (⟨e.session, e.m_inputMsg, e.m_outputMsg, e.socket.endpoint, e.state⟩, e.socket.sent)

/-! ### The system -/

/-- A server with its clients, the datagrams on the way to it, and those on the way to the clients.
-/
structure Service (A τ : Type) where
  server : Messages A τ
  pending : List (A × List UInt8)
  clients : A → CUdpClient
  inboxes : A → List (List UInt8)

/-- Whose turn it is. `arrives` is whether `receive_from` gives a datagram or an error, and `sent`
and `accepted` are whether `send_to` succeeds. -/
inductive Move (A : Type)
  | write (client : A) (source : Source) (behind : List UInt8) (sent : Bool)
  | read (client : A) (pTarget : Bool) (nLen : ℕ) (behind : List UInt8) (arrives : Bool)
  | pass (arrives accepted : Bool)

/-- What a client has read, if it is told a number of bytes, or the body that the application has
found in the message of a pass. -/
inductive Result
  | written
  | read (payload : Option (List UInt8))
  | found (body : List UInt8)

section System

variable [DecidableEq A]

/-- The datagrams of a pass on their way to the clients. -/
def deliver (inboxes : A → List (List UInt8)) (sent : List (A × List UInt8)) (client : A) :
    List (List UInt8) :=
  inboxes client ++ (sent.filter (·.1 = client)).map Prod.snd

/-- A step of the system. -/
inductive Step (application : Application τ) :
    Service A τ → Move A → Result → Service A τ → Prop
  | write {s : Service A τ} {client : A} {source : Source} {behind : List UInt8} {sent : Bool}
      {outcome : Outcome CUdpClient WriteAnswer} :
      (s.clients client).write source behind sent = outcome →
      Step application s (.write client source behind sent) .written { s with
        clients := Function.update s.clients client outcome.after
        pending := s.pending ++
          if 0 ≤ outcome.answer.result then [(client, outcome.answer.wire)] else [] }
  | readNothing {s : Service A τ} {client : A} {pTarget : Bool} {nLen : ℕ} {behind : List UInt8}
      {outcome : Outcome CUdpClient ReadAnswer} :
      (s.clients client).read pTarget nLen behind none = outcome →
      Step application s (.read client pTarget nLen behind false) (.read (payloadOf outcome))
        { s with clients := Function.update s.clients client outcome.after }
  | read {s : Service A τ} {client : A} {pTarget : Bool} {nLen : ℕ} {behind : List UInt8}
      {outcome : Outcome CUdpClient ReadAnswer} {datagram : List UInt8}
      {rest : List (List UInt8)} :
      (s.clients client).ComesToReceive pTarget nLen → s.inboxes client = datagram :: rest →
      (s.clients client).read pTarget nLen behind (some datagram) = outcome →
      Step application s (.read client pTarget nLen behind true) (.read (payloadOf outcome))
        { s with
          clients := Function.update s.clients client outcome.after
          inboxes := Function.update s.inboxes client rest }
  | passNothing {s : Service A τ} {accepted : Bool} {server : Messages A τ}
      {sent : List (A × List UInt8)} :
      pass application s.server none accepted = .ok (server, sent) →
      Step application s (.pass false accepted) (.found (bodyOf server.m_inputMsg))
        { s with server, inboxes := deliver s.inboxes sent }
  | pass {s : Service A τ} {accepted : Bool} {server : Messages A τ}
      {sent : List (A × List UInt8)} {arrival : A × List UInt8} {pending : List (A × List UInt8)} :
      s.pending = arrival :: pending →
      pass application s.server (some arrival) accepted = .ok (server, sent) →
      Step application s (.pass true accepted) (.found (bodyOf server.m_inputMsg))
        { s with server, pending, inboxes := deliver s.inboxes sent }

/-! ### What is expected of a service -/

/-- The answers that the application has given, by the client whose datagram was received in the
pass, and what the clients have read. -/
structure Accounts (A : Type) where
  given : Option A → List (List UInt8)
  read : A → List (List UInt8)

/-- The accounts when the application has given an answer in a pass for a client, or for nobody. -/
def Accounts.give (accounts : Accounts A) (client : Option A) (answer : Option (List UInt8)) :
    Accounts A :=
  { accounts with
    given := Function.update accounts.given client (accounts.given client ++ answer.toList) }

/-- The accounts when a client has read something. -/
def Accounts.get (accounts : Accounts A) (client : A) (payload : Option (List UInt8)) :
    Accounts A :=
  { accounts with
    read := Function.update accounts.read client (accounts.read client ++ payload.toList) }

/-- The client whose datagram is received in a pass. -/
def requester (s : Service A τ) (arrives : Bool) : Option A :=
  if arrives then s.pending.head?.map Prod.fst else none

/-- What a call adds to the accounts. -/
def note (application : Application τ) (accounts : Accounts A)
    (call : Call (Service A τ) (Move A) Result) : Accounts A :=
  match call.label, call.reply with
  | .pass arrives _, .found body =>
    accounts.give (requester call.before arrives) (application call.before.server.state body).answer
  | .read client _ _ _ _, .read payload => accounts.get client payload
  | _, _ => accounts

/-- Each client has read the answers to its own datagrams, in their order, but for those that are on
the way to it, and there is no other answer. -/
def Answered (inboxes : A → List (List UInt8)) (accounts : Accounts A) : Prop :=
  accounts.given none = [] ∧ ∀ client, accounts.read client ++
    (inboxes client).map (List.drop msgHeaderLen) = accounts.given (some client)

/-- An answer is given only in a pass that has received a datagram, that the application does not
fail, and whose answer is accepted by the socket; and a datagram is read only into a buffer that is
as long. -/
def Carries (application : Application τ) (call : Call (Service A τ) (Move A) Result) : Prop :=
  match call.label, call.reply with
  | .pass arrives accepted, .found body =>
    (application call.before.server.state body).answer = none ∨
      arrives = true ∧ accepted = true ∧
        (application call.before.server.state body).success = true
  | .read client _ _ _ arrives, _ => arrives = true →
    ∀ datagram ∈ (call.before.inboxes client).head?,
      datagram.length ≤ (call.before.clients client).buffer.m_nBufferSize
  | _, _ => True

end System

/-! ### A pass -/

section Passes

variable {application : Application τ} {e server : Messages A τ} {arrival : Option (A × List UInt8)}
  {accepted : Bool} {sent : List (A × List UInt8)}

/-- The memory of a server between two passes in which no answer was held back. -/
structure Ready (e : Messages A τ) : Prop where
  input : HasRoom e.m_inputMsg
  output : HasRoom e.m_outputMsg
  idle : e.m_outputMsg.m_bUpdated = false

/-- Where an answer goes that is sent in a pass: to the endpoint of the datagram that was received,
or to the one of an earlier pass. -/
def peer (e : Messages A τ) (arrival : Option (A × List UInt8)) : A :=
  (arrival.map Prod.fst).getD e.socket

/-- A pass receives a datagram or an error. -/
theorem exists_receive (e : Messages A τ) (arrival : Option (A × List UInt8)) (accepted : Bool)
    (size : ℕ) : ∃ bytes thrown, port.receiveFrom (facing e arrival accepted).socket size =
      some ⟨bytes, thrown, ⟨peer e arrival, [], accepted, []⟩⟩ := by
  cases arrival with
  | none => exact ⟨[], true, rfl⟩
  | some arrival => exact ⟨arrival.2.take size, false, rfl⟩

/-- What is known of a pass is known of the call of the handler. -/
theorem exists_handler (hpass : pass application e arrival accepted = .ok (server, sent)) :
    ∃ e', ioMsgHandler application port (facing e arrival accepted) .io = .ok e' ∧
      server = ⟨e'.session, e'.m_inputMsg, e'.m_outputMsg, e'.socket.endpoint, e'.state⟩ ∧
      sent = e'.socket.sent := by
  unfold pass at hpass
  cases hhandler : ioMsgHandler application port (facing e arrival accepted) .io with
  | error fault =>
    rw [hhandler] at hpass
    cases hpass
  | ok e' =>
    rw [hhandler, ok_bind] at hpass
    obtain ⟨hserver, hsent⟩ := Prod.mk.inj (Except.ok.inj hpass)
    exact ⟨e', rfl, hserver.symm, hsent.symm⟩

/-- The application finds a message without a body in every pass. -/
theorem pass_finds (hinput : HasRoom e.m_inputMsg)
    (hpass : pass application e arrival accepted = .ok (server, sent)) :
    HasRoom server.m_inputMsg ∧ bodyOf server.m_inputMsg = [] := by
  obtain ⟨e', hhandler, rfl, rfl⟩ := exists_handler hpass
  obtain ⟨bytes, thrown, hreceive⟩ := exists_receive e arrival accepted msgHeaderLen
  exact ioMsgHandler_finds (e := facing e arrival accepted) hinput hreceive hhandler

/-- What is sent in a pass. -/
theorem pass_cases (hready : Ready e) (happ : application.Sendable)
    (hpass : pass application e arrival accepted = .ok (server, sent)) :
    (application e.state []).answer = none ∧ sent = [] ∧ Ready server ∨
      ∃ answer, (application e.state []).answer = some answer ∧
        (accepted = true ∧ (application e.state []).success = true ∧ Ready server ∧
            (∃ frame, FrameOf answer frame ∧ sent = [(peer e arrival, frame)]) ∨
          ¬(accepted = true ∧ (application e.state []).success = true) ∧ sent = []) := by
  have hroom := (pass_finds hready.input hpass).1
  obtain ⟨e', hhandler, rfl, rfl⟩ := exists_handler hpass
  obtain ⟨bytes, thrown, hreceive⟩ := exists_receive e arrival accepted msgHeaderLen
  cases hanswer : (application e.state []).answer with
  | none =>
    obtain ⟨m_inputMsg, hsilent⟩ := ioMsgHandler_silent (e := facing e arrival accepted)
      hready.input hreceive hready.idle hanswer
    obtain rfl := Except.ok.inj (hhandler.symm.trans hsilent)
    exact .inl ⟨rfl, rfl, hroom, hready.output, hready.idle⟩
  | some answer =>
    refine .inr ⟨answer, rfl, ?_⟩
    cases hsuccess : (application e.state []).success with
    | false =>
      obtain ⟨m_inputMsg, m_outputMsg, hfails⟩ :=
        ioMsgHandler_fails (e := facing e arrival accepted) hready.input hreceive hready.output
          happ hanswer hsuccess
      obtain rfl := Except.ok.inj (hhandler.symm.trans hfails)
      exact .inr ⟨by simp, rfl⟩
    | true =>
      obtain ⟨frame, hframe, hsends⟩ :=
        ioMsgHandler_answers (e := facing e arrival accepted) hready.input hreceive hready.output
          happ hanswer hsuccess
      cases accepted with
      | false =>
        obtain ⟨m_inputMsg, m_outputMsg, -, -, hrefused⟩ :=
          hsends ⟨0, true, ⟨peer e arrival, [], false, []⟩⟩ rfl (by simp)
        obtain rfl := Except.ok.inj (hhandler.symm.trans hrefused)
        exact .inr ⟨by simp, rfl⟩
      | true =>
        obtain ⟨m_inputMsg, m_outputMsg, houtput, hidle, hsent⟩ :=
          hsends ⟨frame.length, false,
            ⟨peer e arrival, [], true, [(peer e arrival, frame)]⟩⟩ rfl fun _ ↦ rfl
        obtain rfl := Except.ok.inj (hhandler.symm.trans hsent)
        exact .inl ⟨rfl, rfl, ⟨hroom, houtput, hidle⟩, frame, hframe, rfl⟩

end Passes

/-! ### Steps -/

section Steps

variable [DecidableEq A] {application : Application τ} {size : A → ℕ} {s after : Service A τ}
  {inboxes : A → List (List UInt8)} {accounts : Accounts A} {label : Move A} {result : Result}

/-- The system when no answer has gone astray. -/
structure Carrying (size : A → ℕ) (s : Service A τ) (accounts : Accounts A) : Prop where
  ready : Ready s.server
  listening : ∀ client, Listening (size client) (s.clients client).buffer
  frames : ∀ client, ∀ datagram ∈ s.inboxes client,
    msgHeaderLen < datagram.length ∧ datagram.length < 2 ^ 31
  answered : Answered s.inboxes accounts

theorem drop_frame {message frame : List UInt8} (h : FrameOf message frame) :
    frame.drop msgHeaderLen = message := by
  obtain ⟨header, hannounces, rfl⟩ := h
  exact List.drop_left' hannounces.length

theorem deliver_nil (inboxes : A → List (List UInt8)) : deliver inboxes [] = inboxes :=
  funext fun _ ↦ List.append_nil _

theorem deliver_one (inboxes : A → List (List UInt8)) (client : A) (datagram : List UInt8) :
    deliver inboxes [(client, datagram)] =
      Function.update inboxes client (inboxes client ++ [datagram]) := by
  funext other
  unfold deliver
  rcases eq_or_ne client other with rfl | hne
  · simp
  · simp [hne, Function.update_of_ne hne.symm]

theorem mem_deliver {sent : List (A × List UInt8)} {client : A} {datagram : List UInt8}
    (hmem : datagram ∈ deliver inboxes sent client) :
    datagram ∈ inboxes client ∨ (client, datagram) ∈ sent := by
  obtain hwaits | hsent := List.mem_append.mp hmem
  · exact .inl hwaits
  · obtain ⟨posted, hposted, rfl⟩ := List.mem_map.mp hsent
    obtain ⟨hposted', hclient⟩ := List.mem_filter.mp hposted
    obtain rfl := of_decide_eq_true hclient
    exact .inr hposted'

/-- A client that has changed in a call keeps its buffer, and the others have theirs. -/
theorem listening_move (hlisten : ∀ client, Listening (size client) (s.clients client).buffer)
    {client : A} {moved : CUdpClient} (hmoved : Listening (size client) moved.buffer) (other : A) :
    Listening (size other) (Function.update s.clients client moved other).buffer := by
  rcases eq_or_ne other client with rfl | hne
  · rwa [Function.update_self]
  · rw [Function.update_of_ne hne]
    exact hlisten other

section Accounts

variable (client : A) (payload : Option (List UInt8)) (asked : Option A)
  (answer : Option (List UInt8))

@[simp] theorem read_give : (accounts.give asked answer).read = accounts.read := rfl

@[simp] theorem given_get : (accounts.get client payload).given = accounts.given := rfl

@[simp] theorem given_give_self :
    (accounts.give asked answer).given asked = accounts.given asked ++ answer.toList :=
  Function.update_self ..

@[simp] theorem read_get_self :
    (accounts.get client payload).read client = accounts.read client ++ payload.toList :=
  Function.update_self ..

variable {client asked}

theorem given_give_of_ne {other : Option A} (hother : other ≠ asked) :
    (accounts.give asked answer).given other = accounts.given other :=
  Function.update_of_ne hother ..

theorem read_get_of_ne {other : A} (hother : other ≠ client) :
    (accounts.get client payload).read other = accounts.read other :=
  Function.update_of_ne hother ..

variable (accounts)

theorem give_none : accounts.give asked none = accounts := by
  unfold Accounts.give
  rw [Option.toList_none, List.append_nil, Function.update_eq_self]

theorem get_none : accounts.get client none = accounts := by
  unfold Accounts.get
  rw [Option.toList_none, List.append_nil, Function.update_eq_self]

end Accounts

/-- A datagram that is read is taken from those on the way. -/
theorem answered_get_iff (hanswered : Answered inboxes accounts) {client : A}
    {datagram : List UInt8} {rest : List (List UInt8)} (hinbox : inboxes client = datagram :: rest)
    {payload : List UInt8} :
    Answered (Function.update inboxes client rest) (accounts.get client (some payload)) ↔
      payload = datagram.drop msgHeaderLen := by
  obtain ⟨hnobody, hclients⟩ := hanswered
  have hclient := hclients client
  rw [hinbox, List.map_cons] at hclient
  constructor
  · rintro ⟨-, hclients'⟩
    have hclient' := hclients' client
    rw [read_get_self, given_get, Function.update_self, ← hclient, List.append_assoc,
      List.append_cancel_left_eq] at hclient'
    exact (List.cons.inj hclient').1
  · rintro rfl
    refine ⟨hnobody, fun other ↦ ?_⟩
    rcases eq_or_ne other client with rfl | hne
    · rw [read_get_self, given_get, Function.update_self, ← hclient, List.append_assoc]
      rfl
    · rw [read_get_of_ne _ hne, Function.update_of_ne hne]
      exact hclients other

/-- The answer to a client is on the way to it. -/
theorem answered_give (hanswered : Answered inboxes accounts) (client : A)
    {answer frame : List UInt8} (hframe : FrameOf answer frame) :
    Answered (deliver inboxes [(client, frame)]) (accounts.give (some client) (some answer)) := by
  obtain ⟨hnobody, hclients⟩ := hanswered
  refine ⟨?_, fun other ↦ ?_⟩
  · rwa [given_give_of_ne _ (Option.some_ne_none client).symm]
  · rw [deliver_one, read_give]
    rcases eq_or_ne other client with rfl | hne
    · rw [Function.update_self, given_give_self, List.map_append, ← List.append_assoc,
        hclients other, List.map_singleton, drop_frame hframe]
      rfl
    · rw [Function.update_of_ne hne, given_give_of_ne _ fun h ↦ hne (Option.some.inj h)]
      exact hclients other

/-- An answer that is not sent is missing, and one to nobody is wrong. -/
theorem not_answered_give (hanswered : Answered inboxes accounts) {asked : Option A}
    (answer : List UInt8) {sent : List (A × List UInt8)} (hmissing : asked ≠ none → sent = []) :
    ¬Answered (deliver inboxes sent) (accounts.give asked (some answer)) := by
  obtain ⟨hnobody, hclients⟩ := hanswered
  rintro ⟨hnobody', hclients'⟩
  cases asked with
  | none => simp at hnobody'
  | some client =>
    have hclient' := hclients' client
    rw [hmissing (Option.some_ne_none client), deliver_nil, given_give_self, read_give,
      hclients client] at hclient'
    simp at hclient'

/-- One step keeps the system, if no answer goes astray in it. -/
theorem Step.carrying (happ : application.Sendable) (h : Carrying size s accounts)
    (hstep : Step application s label result after)
    (hcarries : Carries application ⟨s, label, result⟩) :
    Carrying size after (note application accounts ⟨s, label, result⟩) := by
  obtain ⟨hready, hlisten, hframes, hanswered⟩ := h
  cases hstep with
  | @write client source behind sent outcome hwrite =>
    subst hwrite
    exact ⟨hready, listening_move hlisten (listening_write (hlisten client) source behind sent),
      hframes, hanswered⟩
  | @readNothing client pTarget nLen behind outcome hread =>
    subst hread
    obtain ⟨hnone, hkeeps⟩ := read_none (hlisten client) pTarget nLen behind
    refine ⟨hready, listening_move hlisten hkeeps, hframes, ?_⟩
    unfold note
    dsimp only
    rw [hnone, get_none]
    exact hanswered
  | @read client pTarget nLen behind outcome datagram rest hreceives hinbox hread =>
    subst hread
    have hmem : ∀ other, other ∈ rest → other ∈ s.inboxes client := by
      intro other hother
      rw [hinbox]
      exact List.mem_cons_of_mem _ hother
    obtain ⟨hlong, hint⟩ := hframes client datagram (hinbox ▸ List.mem_cons_self)
    obtain ⟨hpayload, hkeeps⟩ :=
      payloadOf_read (hlisten client) hreceives behind hlong hint
    have hfits : datagram.length ≤ size client := by
      rw [← (hlisten client).size_eq]
      exact hcarries rfl datagram (by rw [hinbox]; rfl)
    refine ⟨hready, listening_move hlisten hkeeps, ?_, ?_⟩
    · intro other message hmessage
      dsimp only at hmessage
      rcases eq_or_ne other client with rfl | hne
      · rw [Function.update_self] at hmessage
        exact hframes other message (hmem message hmessage)
      · rw [Function.update_of_ne hne] at hmessage
        exact hframes other message hmessage
    · unfold note
      dsimp only
      rw [hpayload, List.take_of_length_le hfits]
      exact (answered_get_iff hanswered hinbox).mpr rfl
  | @passNothing accepted server sent hpass =>
    obtain ⟨-, hempty⟩ := pass_finds hready.input hpass
    obtain ⟨hnone, rfl, hready'⟩ | ⟨answer, hanswer, -⟩ := pass_cases hready happ hpass
    · refine ⟨hready', hlisten, ?_, ?_⟩
      · rwa [deliver_nil]
      · unfold note requester
        dsimp only
        rw [hempty, hnone, give_none, deliver_nil]
        exact hanswered
    · unfold Carries at hcarries
      dsimp only at hcarries
      rw [hempty, hanswer] at hcarries
      simp at hcarries
  | @pass accepted server sent arrival pending hpending hpass =>
    obtain ⟨-, hempty⟩ := pass_finds hready.input hpass
    obtain ⟨hnone, rfl, hready'⟩ | ⟨answer, hanswer, ⟨-, -, hready', frame, hframe, rfl⟩ |
      ⟨hlost, rfl⟩⟩ := pass_cases hready happ hpass
    · refine ⟨hready', hlisten, ?_, ?_⟩
      · rwa [deliver_nil]
      · unfold note
        dsimp only
        rw [hempty, hnone, give_none, deliver_nil]
        exact hanswered
    · obtain ⟨hpos, hshort⟩ := happ _ _ answer hanswer
      refine ⟨hready', hlisten, ?_, ?_⟩
      · intro client datagram hdatagram
        obtain hwaits | hsent := mem_deliver hdatagram
        · exact hframes client datagram hwaits
        · obtain rfl : datagram = frame := (Prod.mk.inj (List.mem_singleton.mp hsent)).2
          rw [hframe.length]
          omega
      · unfold note requester
        dsimp only
        rw [hempty, hanswer, if_pos rfl, hpending]
        exact answered_give hanswered arrival.1 hframe
    · unfold Carries at hcarries
      dsimp only at hcarries
      rw [hempty, hanswer] at hcarries
      exact absurd (hcarries.resolve_left (by simp)).2 hlost

/-- An answer that goes astray in a step is missing in the end, or wrong. -/
theorem Step.carries (happ : application.Sendable) (h : Carrying size s accounts)
    (hstep : Step application s label result after)
    (hafter : Answered after.inboxes (note application accounts ⟨s, label, result⟩)) :
    Carries application ⟨s, label, result⟩ := by
  obtain ⟨hready, hlisten, hframes, hanswered⟩ := h
  cases hstep with
  | write => trivial
  | readNothing => exact fun h ↦ absurd h Bool.false_ne_true
  | @read client pTarget nLen behind outcome datagram rest hreceives hinbox hread =>
    subst hread
    obtain ⟨hlong, hint⟩ := hframes client datagram (hinbox ▸ List.mem_cons_self)
    obtain ⟨hpayload, -⟩ := payloadOf_read (hlisten client) hreceives behind hlong hint
    unfold note at hafter
    dsimp only at hafter
    rw [hpayload, answered_get_iff hanswered hinbox] at hafter
    have hlength := congrArg List.length hafter
    rw [List.length_drop, List.length_drop, List.length_take] at hlength
    intro _ other hother
    obtain rfl : datagram = other := by
      rw [hinbox] at hother
      exact Option.some.inj hother
    rw [(hlisten client).size_eq]
    omega
  | @passNothing accepted server sent hpass =>
    obtain ⟨-, hempty⟩ := pass_finds hready.input hpass
    unfold Carries
    dsimp only
    rw [hempty]
    obtain ⟨hnone, -⟩ | ⟨answer, hanswer, -⟩ := pass_cases hready happ hpass
    · exact .inl hnone
    · unfold note requester at hafter
      dsimp only at hafter
      rw [hempty, hanswer] at hafter
      exact absurd hafter (not_answered_give hanswered answer fun h ↦ absurd rfl h)
  | @pass accepted server sent arrival pending hpending hpass =>
    obtain ⟨-, hempty⟩ := pass_finds hready.input hpass
    unfold Carries
    dsimp only
    rw [hempty]
    obtain ⟨hnone, -⟩ | ⟨answer, hanswer, ⟨haccepted, hsuccess, -⟩ | ⟨-, hlost⟩⟩ :=
      pass_cases hready happ hpass
    · exact .inl hnone
    · exact .inr ⟨rfl, haccepted, hsuccess⟩
    · unfold note at hafter
      dsimp only at hafter
      rw [hempty, hanswer] at hafter
      exact absurd hafter (not_answered_give hanswered answer fun _ ↦ hlost)

/-- A step keeps the memory of the input message, and what is found in it is empty. -/
theorem Step.finds (hinput : HasRoom s.server.m_inputMsg)
    (hstep : Step application s label result after) :
    HasRoom after.server.m_inputMsg ∧ ∀ body, result = .found body → body = [] := by
  cases hstep with
  | write | readNothing | read => exact ⟨hinput, by rintro body ⟨⟩⟩
  | passNothing hpass =>
    obtain ⟨hroom, hempty⟩ := pass_finds hinput hpass
    exact ⟨hroom, fun body hfound ↦ (Result.found.inj hfound).symm.trans hempty⟩
  | pass _ hpass =>
    obtain ⟨hroom, hempty⟩ := pass_finds hinput hpass
    exact ⟨hroom, fun body hfound ↦ (Result.found.inj hfound).symm.trans hempty⟩

end Steps

/-! ### Runs -/

/-- Accounts before anything is given or read. -/
def Accounts.none : Accounts A := ⟨fun _ ↦ [], fun _ ↦ []⟩

/-- Assumes: clients whose buffers were allocated with a header and more, a server whose messages
were allocated, no answer that waits to be sent, and none on the way; answers that can be sent. In
every run, the application finds no body in the message of any pass, whatever the clients write. In
all states each client has read or is on the way to read exactly the answers to its own datagrams,
in their order, exactly when an answer is given only in a pass that has received a datagram, that
the application does not fail, and whose answer the socket takes, and no client reads a datagram
that is longer than its buffer. -/
theorem answers_reach_iff [DecidableEq A] {application : Application τ}
    (happ : application.Sendable) {start final : Service A τ}
    {trace : List (Call (Service A τ) (Move A) Result)}
    (hrun : Run (Step application) start trace final) (hready : Ready start.server)
    {size : A → ℕ} (hlisten : ∀ client, Listening (size client) (start.clients client).buffer)
    (hinboxes : ∀ client, start.inboxes client = []) :
    (∀ call ∈ trace, ∀ body, call.reply = .found body → body = []) ∧
      (Obeys (note application) (fun accounts call ↦ Answered call.before.inboxes accounts)
          .none trace ∧ Answered final.inboxes (trace.foldl (note application) .none) ↔
        ∀ call ∈ trace, Carries application call) := by
  constructor
  · exact hrun.forall_calls (fun s ↦ HasRoom s.server.m_inputMsg)
      (fun _ _ _ _ hinput hstep ↦ (hstep.finds hinput).1)
      (fun _ _ _ _ hinput hstep ↦ (hstep.finds hinput).2) hready.input
  · exact hrun.obeys_iff (Carrying size) (fun s accounts ↦ Answered s.inboxes accounts)
      (fun _ _ h ↦ h.answered) (fun _ _ h ↦ h)
      (fun _ _ _ _ _ h hstep hcarries ↦ ⟨h.answered, hstep.carrying happ h hcarries⟩)
      (fun _ _ _ _ _ h hstep hastray hafter ↦ hastray (hstep.carries happ h hafter)) .none
      ⟨hready, hlisten, by simp [hinboxes], rfl, by simp [hinboxes, Accounts.none]⟩

/-- An application that answers with a number, and counts. -/
def counting : Application ℕ := fun number _ ↦ ⟨some [UInt8.ofNat number], true, number + 1⟩

theorem sendable_counting : counting.Sendable := by
  intro number message answer hanswer
  obtain rfl := Option.some.inj hanswer
  rw [List.length_singleton]
  exact ⟨Nat.one_pos, by decide⟩

/-- Two clients with buffers of 24 bytes, and a server with room for 8 bytes. -/
def newService : Service Bool ℕ where
  server := ⟨⟨[]⟩, newMessage 8, newMessage 8, false, 0⟩
  pending := []
  clients _ := (CUdpClient.new.allocBuffer 24 true true).after
  inboxes _ := []

/-- Both clients write, and the second one reads the answer to what it has written. -/
theorem answers_reach_iff_two : ∃ trace final, Run (Step counting) newService trace final ∧
    trace.map Call.label = [.write false (.bytes [7]) [] true, .write true (.bytes [8]) [] true,
      .pass true true, .pass true true, .read true false 0 [] true] ∧
    Obeys (note counting) (fun accounts call ↦ Answered call.before.inboxes accounts) .none trace ∧
      Answered final.inboxes (trace.foldl (note counting) .none) := by
  have hexists : ∃ trace final, Run (Step counting) newService trace final ∧
      trace.map Call.label = [.write false (.bytes [7]) [] true, .write true (.bytes [8]) [] true,
        .pass true true, .pass true true, .read true false 0 [] true] ∧
      ∀ call ∈ trace, Carries counting call := by
    refine Run.exists_cons _ (.write rfl) <| Run.exists_cons _ (.write rfl) <|
      Run.exists_cons _ (.pass rfl rfl) <| Run.exists_cons _ (.pass rfl rfl) <|
        Run.exists_cons _ (.read ?_ rfl rfl) ⟨_, _, .nil _, rfl, ?_⟩
    · exact ⟨by decide, by decide⟩
    · simp only [List.forall_mem_cons]
      refine ⟨trivial, trivial, .inr ⟨rfl, rfl, rfl⟩, .inr ⟨rfl, rfl, rfl⟩, ?_,
        List.forall_mem_nil _⟩
      intro _ datagram hdatagram
      obtain rfl := Option.some.inj hdatagram
      decide
  obtain ⟨trace, final, hrun, hlabels, hcarries⟩ := hexists
  have hclient : Listening 24 (CUdpClient.new.allocBuffer 24 true true).after.buffer :=
    ⟨⟨_, hasHeader_allocBuffer (by decide) (by decide) .new⟩, rfl, by decide⟩
  have hmessage : HasRoom (newMessage 8) :=
    ⟨8, by decide, allocated_newMessage (by decide) (by decide)⟩
  exact ⟨trace, final, hrun, hlabels, (answers_reach_iff sendable_counting hrun
    ⟨hmessage, hmessage, rfl⟩ (fun _ ↦ hclient) fun _ ↦ rfl).2.mpr hcarries⟩

end RdbLibs.NetIO.UdpService
