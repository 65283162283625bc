import RdbLibs.NetIO.TcpTransfer

/-!
# Message framing over TCP

A session sends messages to the session at the other end of the connection, which reads them into
one message, its inbox. Each message to be sent is given to an allocated `CNetMessageData` with
`setMsgData` and goes out by `writeMsgData` or `sendMsgData`.

What is in flight carries the deliveries that are still to be made, frame after frame (`Holds`). A
send appends one, unless the length of its frame is negative as an `int` (`perform_send`), and a
read takes the oldest (`perform_receive`), or waits when there is none (`perform_receive_empty`).
-/

set_option autoImplicit false
set_option relaxedAutoImplicit false

namespace RdbLibs.NetIO.TcpFraming

open MachineWord CheckedMemory CNetMessageData NetworkDataHeaderInfo CTcpSession

variable {σ : Type}

/-! ### The protocol -/

/-- The two ways of sending a message. -/
inductive Way
  | writeMsgData
  | sendMsgData

/-- A message to be sent: the `CNetMessageData` it is given to, its body, and how it is sent. -/
structure Message where
  msgData : CNetMessageData
  body : List UInt8
  way : Way

/-- Both ends of a connection, and the stream between them. -/
structure Link (σ : Type) where
  sender : CTcpSession
  receiver : CTcpSession
  inbox : CNetMessageData
  socket : σ

inductive Action
  | send (message : Message)
  | receive

/-- What a call of `readMsgData` delivers: its answer, and the length and the bytes of the body that
are then in the inbox. -/
structure Delivery where
  answer : Bool
  bodyLength : ℤ
  body : List UInt8

inductive Reply
  | sent (answer : Bool)
  | received (delivery : Delivery)

/-- The bytes of the body of a message, as a caller reads them at `getBodyPtr`. -/
def bodyOf (d : CNetMessageData) : List UInt8 :=
  ((d.m_pData.getD []).drop d.m_nHeaderLength).take d.getBodyLength.toNat

/-- The method that a message is sent by. -/
def Way.method (net : Network σ) : Way → Connection σ → Except Fault (Bool × Connection σ)
  | .writeMsgData => CTcpSession.writeMsgData net
  | .sendMsgData => CTcpSession.sendMsgData net

/-- One action: a message is set and sent, or the next message is read. -/
def perform (net : Network σ) (link : Link σ) : Action → Except Fault (Reply × Link σ)
  | .send message => do
    let (_, msgData) ← message.msgData.setMsgData (some message.body) message.body.length
    let (answer, c) ← message.way.method net ⟨link.sender, msgData, link.socket⟩
    return (.sent answer, { link with sender := c.session, socket := c.socket })
  | .receive => do
    let (answer, c) ← readMsgData net ⟨link.receiver, link.inbox, link.socket⟩
    return (.received ⟨answer, c.msgData.getBodyLength, bodyOf c.msgData⟩,
      { link with receiver := c.session, inbox := c.msgData, socket := c.socket })

/-- An action that is completed. -/
def Step (net : Network σ) (before : Link σ) (action : Action) (reply : Reply) (after : Link σ) :
    Prop :=
  perform net before action = .ok (reply, after)

/-- The delivery of a body. -/
def delivered (body : List UInt8) : Delivery := ⟨true, body.length, body⟩

/-- A message that `setMsgData` takes, in an allocated `CNetMessageData`. -/
def Message.Settable (message : Message) : Prop :=
  ∃ payload set, Allocated payload message.msgData ∧
    message.msgData.setMsgData (some message.body) message.body.length = .ok (true, set)

/-- A message that can be set has a body. -/
theorem Message.Settable.pos {message : Message} (h : message.Settable) :
    0 < message.body.length := by
  obtain ⟨size, set, hallocated, hset⟩ := h
  exact (hallocated.exists_laidOut_of_setMsgData hset).1

/-! ### What is in flight -/

/-- The stream is one frame for each delivery, all of them with bodies shorter than `limit`. -/
def Carries (limit : ℤ) : List UInt8 → List Delivery → Prop
  | stream, [] => stream = []
  | stream, delivery :: later => ∃ header body rest, Announces header body.length ∧
      0 < body.length ∧ (body.length : ℤ) < limit ∧ body.length < 2 ^ 31 ∧
      delivery = delivered body ∧ stream = header ++ (body ++ rest) ∧ Carries limit rest later

/-- The deliveries that are still to be made. -/
structure Holds (inFlight : σ → List UInt8) (payload : ℕ) (limit : ℤ) (link : Link σ)
    (held : List Delivery) : Prop where
  inbox : Allocated payload link.inbox
  limit_eq : link.inbox.getMaxDataLen = limit
  stream : Carries limit (inFlight link.socket) held

theorem Carries.append {limit : ℤ} {header body : List UInt8}
    (hheader : Announces header body.length) (hpos : 0 < body.length)
    (hlimit : (body.length : ℤ) < limit) (hshort : body.length < 2 ^ 31) (held : List Delivery) :
    ∀ stream, Carries limit stream held →
      Carries limit (stream ++ (header ++ body)) (held ++ [delivered body]) := by
  induction held with
  | nil =>
    intro stream hstream
    refine ⟨header, body, [], hheader, hpos, hlimit, hshort, rfl, ?_, rfl⟩
    rw [show stream = [] from hstream, List.nil_append, List.append_nil]
  | cons delivery later ih =>
    intro stream hstream
    obtain ⟨first, firstBody, rest, hfirst, hfirstPos, hfirstLimit, hfirstShort, hdelivery, hsplit,
      hrest⟩ := hstream
    refine ⟨first, firstBody, rest ++ (header ++ body), hfirst, hfirstPos, hfirstLimit, hfirstShort,
      hdelivery, ?_, ih rest hrest⟩
    rw [hsplit, List.append_assoc, List.append_assoc]

theorem bodyOf_laidOut {header body : List UInt8} (hheader : header.length = msgHeaderLen)
    (hshort : body.length < 2 ^ 31) (padding : List UInt8) (updated locked : Bool) :
    bodyOf (laidOut header (body ++ padding) (msgHeaderLen + body.length) updated locked) =
      body := by
  rw [bodyOf, getBodyLength_laidOut, toInt_of_lt hshort]
  show ((header ++ (body ++ padding)).drop msgHeaderLen).take body.length = body
  rw [List.drop_left' hheader]
  exact List.take_left

/-! ### What an action does -/

/-- The length of the frame of a message is an `int`. -/
def Message.Short (message : Message) : Prop := msgHeaderLen + message.body.length < 2 ^ 31

instance (message : Message) : Decidable message.Short := Nat.decLt ..

/-- The deliveries that a sent message adds to those that are to be made. -/
def announced (message : Message) : List Delivery :=
  if message.Short then [delivered message.body] else []

section Actions

variable {net : Network σ} {inFlight : σ → List UInt8} (hnet : Reliable net inFlight)
  {payload : ℕ} {limit : ℤ}

include hnet

/-- Both ways of sending append to the stream. -/
theorem Way.exists_transfer (way : Way) :
    ∃ transfer, Appends inFlight transfer ∧ way.method net = transmit transfer := by
  cases way with
  | writeMsgData => exact ⟨net.write, hnet.write_all, rfl⟩
  | sendMsgData => exact ⟨net.send, hnet.send_all, rfl⟩

/-- Assumes: a message that can be set, and the length of its frame is an `int`. Sending it appends
a frame to the stream. -/
theorem perform_send_short (before : Link σ) {message : Message} (hset : message.Settable)
    (hshort : message.Short) :
    ∃ session socket, perform net before (.send message) =
        .ok (.sent true, { before with sender := session, socket := socket }) ∧
      ∃ header, Announces header message.body.length ∧
        inFlight socket = inFlight before.socket ++ (header ++ message.body) := by
  obtain ⟨size, set, hallocated, hset⟩ := hset
  obtain ⟨hpos, hfits, header, rest, hheader, hsize, rfl⟩ :=
    hallocated.exists_laidOut_of_setMsgData hset
  obtain ⟨transfer, htransfer, hmethod⟩ := message.way.exists_transfer hnet
  obtain ⟨after, hafter, hsend⟩ := transmit_frame before.sender true htransfer hheader hpos hshort
  refine ⟨before.sender.noteError .success, after, ?_, _, announces_encoded hheader _ (by omega),
    hafter⟩
  rw [perform, hset, ok_bind]
  dsimp only
  rw [hmethod, hsend]
  rfl

/-- A message whose frame has a length that is not an `int` is not sent. -/
theorem perform_send_long (before : Link σ) {message : Message} (hset : message.Settable)
    (hlong : ¬message.Short) : perform net before (.send message) = .ok (.sent false, before) := by
  obtain ⟨size, set, hallocated, hset⟩ := hset
  obtain ⟨hpos, hfits, header, rest, hheader, hsize, rfl⟩ :=
    hallocated.exists_laidOut_of_setMsgData hset
  obtain ⟨transfer, htransfer, hmethod⟩ := message.way.exists_transfer hnet
  rw [perform, hset, ok_bind]
  dsimp only
  rw [hmethod, transmit_refused before.sender true transfer before.socket header _
    (not_lt.mp hlong) (by omega)]
  rfl

/-- Assumes: a message that can be set and whose body is shorter than the limit. Sending it appends
its delivery, unless the length of its frame is not an `int`. -/
theorem perform_send {before : Link σ} {held : List Delivery}
    (hheld : Holds inFlight payload limit before held) {message : Message}
    (hset : message.Settable) (hlimit : (message.body.length : ℤ) < limit) :
    ∃ answer after, perform net before (.send message) = .ok (.sent answer, after) ∧
      Holds inFlight payload limit after (held ++ announced message) := by
  by_cases hshort : message.Short
  · obtain ⟨session, socket, hperform, header, hannounces, hafter⟩ :=
      perform_send_short hnet before hset hshort
    refine ⟨true, _, hperform, hheld.inbox, hheld.limit_eq, ?_⟩
    rw [announced, if_pos hshort, hafter]
    exact Carries.append hannounces hset.pos hlimit (lt_of_le_of_lt (Nat.le_add_left ..) hshort)
      held _ hheld.stream
  · refine ⟨false, before, perform_send_long hnet before hset hshort, hheld.inbox, hheld.limit_eq,
      ?_⟩
    rw [announced, if_neg hshort, List.append_nil]
    exact hheld.stream

/-- Reading takes the oldest delivery. -/
theorem perform_receive {before : Link σ} {delivery : Delivery} {later : List Delivery}
    (hheld : Holds inFlight payload limit before (delivery :: later)) :
    ∃ after, perform net before .receive = .ok (.received delivery, after) ∧
      Holds inFlight payload limit after later := by
  obtain ⟨header, body, rest, hheader, hpos, hlimit, hshort, rfl, hstream, hrest⟩ := hheld.stream
  obtain ⟨hfits, hroom⟩ := hheld.inbox.lt_payload hpos (hheld.limit_eq.symm ▸ hlimit)
  obtain ⟨first, area, hfirst, rfl, hinbox⟩ := hheld.inbox.exists_laidOut hfits
  obtain ⟨after, hafter, hread⟩ := readMsgData_frame before.receiver before.inbox.m_bUpdated
    hnet.read_all hfirst hfits before.inbox.m_nDataLength hheader hpos hroom hshort hstream
  rw [← hinbox] at hread
  let inbox := laidOut header (body ++ List.replicate (area.length - body.length) 0)
    (msgHeaderLen + body.length) true false
  have harea : (body ++ List.replicate (area.length - body.length) (0 : UInt8)).length =
      area.length := by
    rw [List.length_append, List.length_replicate, Nat.add_sub_of_le hroom.le]
  have hallocated : Allocated area.length inbox := by
    rw [← harea]
    exact allocated_laidOut hheader.length (by omega) (by omega) _ _
  have hdelivery : (⟨true, inbox.getBodyLength, bodyOf inbox⟩ : Delivery) = delivered body := by
    rw [getBodyLength_laidOut, bodyOf_laidOut hheader.length hshort, toInt_of_lt hshort]
    rfl
  refine ⟨{ before with
    receiver := before.receiver.noteError .success, inbox := inbox, socket := after }, ?_,
    hallocated, ?_, hafter ▸ hrest⟩
  · rw [perform, hread, ok_bind, ← hdelivery]
    rfl
  · exact (hallocated.getMaxDataLen_eq hheld.inbox).trans hheld.limit_eq

/-- With nothing to be delivered, reading waits. -/
theorem perform_receive_empty {before : Link σ} (hheld : Holds inFlight payload limit before []) :
    perform net before .receive = .error .waiting := by
  rw [perform, readMsgData_waits before.receiver hnet hheld.inbox hheld.stream]
  rfl

end Actions

end RdbLibs.NetIO.TcpFraming
