import RdbLibs.NetIO.CNetMessageData

/-!
# The class `CTcpSession`

`CTcpSession` of `Src/NetIO/CServerIO.cpp`, on a network that is a parameter. A `Network` says what
`asio::read`, `asio::write` and the `send` of a socket do. A transfer may wait, and then the method
waits with it. If it does not, it has moved some bytes and has completed in one of three ways:
without an error, with an error code, whose message the session keeps, or by throwing. Of a read it
is known that it never moves more bytes than were asked for.

The session reads and writes the memory of the message through a pointer for which it holds
`m_dataLock`. It releases the pointer once after the transfer, or in one of the handlers when the
transfer throws. `m_mutex`, which each method holds from its first line to its last, is left out.
-/

set_option autoImplicit false
set_option relaxedAutoImplicit false

namespace RdbLibs.NetIO

open MachineWord CheckedMemory

/-- How a transfer ends when it does not wait. -/
inductive Completion
  | success
  | failure (message : List UInt8)
  | thrown

/-- The outcome of a read: the bytes that were put into the buffer. -/
structure Received (σ : Type) where
  bytes : List UInt8
  completion : Completion
  after : σ

/-- The outcome of a write: the number of bytes that were taken from the buffer. -/
structure Sent (σ : Type) where
  count : ℕ
  completion : Completion
  after : σ

/-- A connected socket with everything behind it. `none` means that the transfer waits. -/
structure Network (σ : Type) where
  read : σ → ℕ → Option (Received σ)
  write : σ → List UInt8 → Option (Sent σ)
  send : σ → List UInt8 → Option (Sent σ)
  read_le : ∀ socket size received, read socket size = some received →
    received.bytes.length ≤ size

/-- The outcome of a transfer that does not wait. -/
def awaited {α : Type} : Option α → Except Fault α
  | none => .error .waiting
  | some outcome => .ok outcome

@[simp] theorem awaited_some {α : Type} (outcome : α) : awaited (some outcome) = .ok outcome := rfl

@[simp] theorem awaited_none {α : Type} : awaited (none : Option α) = .error .waiting := rfl

/-- The fields of `CTcpSession`, without its socket and its mutex. -/
structure CTcpSession where
  m_sMsgType : List UInt8
  m_sLastError : List UInt8

/-- What a call of a session has made of the session, the message and the socket. -/
structure Connection (σ : Type) where
  session : CTcpSession
  msgData : CNetMessageData
  socket : σ

namespace CTcpSession

variable {σ : Type}

/-- The fields of the session after a transfer that has not thrown: the message of its error, or
none. -/
def noteError (session : CTcpSession) : Completion → CTcpSession
  | .success => { session with m_sLastError := [] }
  | .failure message => { session with m_sLastError := message }
  | .thrown => session

/-- Puts the bytes that a read has received where the pointer points to. -/
def putReceived (msgData : CNetMessageData) (pData : ℕ) (bytes : List UInt8) :
    Except Fault CNetMessageData :=
  if bytes.isEmpty then .ok msgData
  else msgData.access fun cells ↦ storeRange cells pData bytes

theorem putReceived_of_pos (msgData : CNetMessageData) (pData : ℕ) {bytes : List UInt8}
    (h : 0 < bytes.length) :
    putReceived msgData pData bytes = msgData.access fun cells ↦ storeRange cells pData bytes := by
  rw [putReceived, if_neg (by simpa using List.ne_nil_of_length_pos h)]

/-- `CTcpSession::readMsgHeader`. What `decodeMsgHeader` answers is ignored. -/
def readMsgHeader (net : Network σ) (c : Connection σ) : Except Fault (Bool × Connection σ) := do
  let msgData ← c.msgData.clearAll
  let nLen := msgData.getHeaderLength
  if nLen < 1 then return (false, { c with msgData })
  let (pData, msgData) ← msgData.getDataPtr
  match pData with
  | none => return (false, { c with msgData := ← msgData.releasePtr })
  | some pData =>
    let received ← awaited (net.read c.socket (intToSize nLen))
    let msgData ← (← putReceived msgData pData received.bytes).releasePtr
    let session := c.session.noteError received.completion
    let c : Connection σ := ⟨session, msgData, received.after⟩
    match received.completion with
    | .thrown => return (false, c)
    | .failure _ => return (false, c)
    | .success =>
      if received.bytes.length < intToSize nLen then return (false, c)
      if msgHeaderLen ≤ received.bytes.length then
        let (_, msgData) ← msgData.decodeMsgHeader session.m_sMsgType
        return (true, { c with msgData })
      return (true, c)

/-- `CTcpSession::readMsgBody`. -/
def readMsgBody (net : Network σ) (c : Connection σ) : Except Fault (Bool × Connection σ) := do
  let nLen := c.msgData.getBodyLength
  if nLen < 1 then return (false, c)
  let msgData ← c.msgData.clearMsgBody
  let (pData, msgData) ← msgData.getBodyPtr
  match pData with
  | none => return (false, { c with msgData := ← msgData.releasePtr })
  | some pData =>
    let received ← awaited (net.read c.socket (intToSize nLen))
    let msgData ← (← putReceived msgData pData received.bytes).releasePtr
    let c : Connection σ := ⟨c.session.noteError received.completion, msgData, received.after⟩
    match received.completion with
    | .thrown => return (false, c)
    | .failure _ => return (false, c)
    | .success =>
      let msgData := msgData.setBodyLength received.bytes.length
      if received.bytes.length < intToSize nLen then return (false, { c with msgData })
      return (true, { c with msgData := msgData.setUpdated true })

/-- `CTcpSession::readMsgData`. -/
def readMsgData (net : Network σ) (c : Connection σ) : Except Fault (Bool × Connection σ) := do
  let (bHeader, c) ← readMsgHeader net c
  if bHeader then
    let (bBody, c) ← readMsgBody net c
    if bBody = false then return (false, c)
    return (true, c)
  return (false, c)

/-- The method that `writeMsgData` and `sendMsgData` both are, up to the transfer they use. -/
def transmit (transfer : σ → List UInt8 → Option (Sent σ)) (c : Connection σ) :
    Except Fault (Bool × Connection σ) := do
  let nLen := c.msgData.getCurDataLen
  if nLen < 1 then return (false, c)
  let (_, msgData) ← c.msgData.encodeMsgHeader c.session.m_sMsgType
  let (pData, msgData) ← msgData.getDataPtr
  match pData with
  | none => return (false, { c with msgData := ← msgData.releasePtr })
  | some pData =>
    let bytes ← loadRange (← msgData.cells) pData (intToSize nLen)
    let sent ← awaited (transfer c.socket bytes)
    let msgData ← msgData.releasePtr
    let c : Connection σ := ⟨c.session.noteError sent.completion, msgData, sent.after⟩
    match sent.completion with
    | .thrown => return (false, c)
    | .failure _ => return (false, c)
    | .success =>
      if sent.count < intToSize nLen then return (false, c)
      return (true, { c with msgData := msgData.setUpdated false })

/-- `CTcpSession::writeMsgData`. -/
def writeMsgData (net : Network σ) (c : Connection σ) : Except Fault (Bool × Connection σ) :=
  transmit net.write c

/-- `CTcpSession::sendMsgData`. -/
def sendMsgData (net : Network σ) (c : Connection σ) : Except Fault (Bool × Connection σ) :=
  transmit net.send c

end CTcpSession

end RdbLibs.NetIO
