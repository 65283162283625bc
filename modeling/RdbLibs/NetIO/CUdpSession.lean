import RdbLibs.NetIO.CTcpSession

/-!
# The class `CUdpSession`

`CUdpSession` of `Src/NetIO/CServerIO.cpp`, on a network that is a parameter. It uses the overloads
of `receive_from` and `send_to` that throw, so a transfer that does not wait has moved some bytes
and has then returned or thrown. A receive never moves more bytes than were asked for. The endpoint
that `receive_from` notes and `send_to` uses is part of the socket.

`readMsgBody` clears the body of the message, and with it the length that `readMsgHeader` has noted,
before it asks for this length. `CTcpSession::readMsgBody` asks first.
-/

set_option autoImplicit false
set_option relaxedAutoImplicit false

namespace RdbLibs.NetIO

open MachineWord CheckedMemory

/-- The outcome of `receive_from`: the bytes that were put into the buffer. -/
structure Arrived (σ : Type) where
  bytes : List UInt8
  thrown : Bool
  after : σ

/-- The outcome of `send_to`: the number of bytes that were taken from the buffer. -/
structure Dispatched (σ : Type) where
  count : ℕ
  thrown : Bool
  after : σ

/-- A socket for datagrams with everything behind it. `none` means that the transfer waits. -/
structure DatagramNetwork (σ : Type) where
  receiveFrom : σ → ℕ → Option (Arrived σ)
  sendTo : σ → List UInt8 → Option (Dispatched σ)
  receiveFrom_le : ∀ socket size arrived, receiveFrom socket size = some arrived →
    arrived.bytes.length ≤ size

/-- The fields of `CUdpSession`, without its socket and its mutex. -/
structure CUdpSession where
  m_sMsgType : List UInt8

/-- What a call of a session has made of the message and the socket. -/
structure Association (σ : Type) where
  msgData : CNetMessageData
  socket : σ

namespace CUdpSession

variable {σ : Type}

/-- `CUdpSession::readMsgHeader`. What `decodeMsgHeader` answers is ignored. -/
def readMsgHeader (session : CUdpSession) (net : DatagramNetwork σ) (c : Association σ) :
    Except Fault (Bool × Association σ) := do
  let msgData ← c.msgData.clearAll
  let nLen := msgData.getHeaderLength
  if nLen < 1 then return (false, { c with msgData })
  let (pData, msgData) ← msgData.getDataPtr
  match pData with
  | none => return (false, { c with msgData := ← msgData.releasePtr })
  | some pData =>
    let status ← awaited (net.receiveFrom c.socket (intToSize nLen))
    let msgData ← CTcpSession.putReceived msgData pData status.bytes
    if status.thrown then return (false, ⟨← msgData.releasePtr, status.after⟩)
    let msgData ← msgData.releasePtr
    if status.bytes.length < intToSize nLen then return (false, ⟨msgData, status.after⟩)
    let (_, msgData) ← msgData.decodeMsgHeader session.m_sMsgType
    return (true, ⟨msgData, status.after⟩)

/-- `CUdpSession::readMsgBody`. -/
def readMsgBody (net : DatagramNetwork σ) (c : Association σ) :
    Except Fault (Bool × Association σ) := do
  let msgData ← c.msgData.clearMsgBody
  let nLen := msgData.getBodyLength
  if nLen < 1 then return (false, { c with msgData })
  let (pData, msgData) ← msgData.getBodyPtr
  match pData with
  | none => return (false, { c with msgData := ← msgData.releasePtr })
  | some pData =>
    let status ← awaited (net.receiveFrom c.socket (intToSize nLen))
    let msgData ← CTcpSession.putReceived msgData pData status.bytes
    if status.thrown then return (false, ⟨← msgData.releasePtr, status.after⟩)
    let msgData ← msgData.releasePtr
    if status.bytes.length < intToSize nLen then return (false, ⟨msgData, status.after⟩)
    return (true, ⟨msgData.setUpdated true, status.after⟩)

/-- `CUdpSession::readMsgData`. -/
def readMsgData (session : CUdpSession) (net : DatagramNetwork σ) (c : Association σ) :
    Except Fault (Bool × Association σ) := do
  let (bHeader, c) ← session.readMsgHeader net c
  if bHeader then
    let (bBody, c) ← readMsgBody net c
    if bBody = false then return (false, c)
    return (true, c)
  return (false, c)

/-- `CUdpSession::writeMsgData`. -/
def writeMsgData (session : CUdpSession) (net : DatagramNetwork σ) (c : Association σ) :
    Except Fault (Bool × Association σ) := do
  let nLen := c.msgData.getCurDataLen
  if nLen < 1 then return (false, c)
  let (_, msgData) ← c.msgData.encodeMsgHeader session.m_sMsgType
  let (pData, msgData) ← msgData.getDataPtr
  match pData with
  | none => return (false, { c with msgData := ← msgData.releasePtr })
  | some pData =>
    let bytes ← loadRange (← msgData.cells) pData (intToSize nLen)
    let status ← awaited (net.sendTo c.socket bytes)
    if status.thrown then return (false, ⟨← msgData.releasePtr, status.after⟩)
    let msgData ← msgData.releasePtr
    if status.count < intToSize nLen then return (false, ⟨msgData, status.after⟩)
    return (true, ⟨msgData.setUpdated false, status.after⟩)

end CUdpSession

end RdbLibs.NetIO
