import RdbLibs.NetIO.CClientIO.CTcpClient

/-!
# The class `CUdpClient`

`CUdpClient` of `Src/NetIO/CClientIO.cpp`: the functions on its buffer, `read` and `write`. Unlike
`CTcpClient`, it receives into the whole buffer, sends the bytes of a caller as they are, and writes
the length of a message through `m_pBufferHeader` without setting that pointer.
-/

set_option autoImplicit false
set_option relaxedAutoImplicit false

namespace RdbLibs.NetIO.CClientIO

open BlockAccess ByteCodec MachineWord

structure CUdpClient where
  buffer : ClientBuffer

namespace CUdpClient

/-- An object after its constructor. -/
def new : CUdpClient := ⟨.new⟩

/-- A call on the buffer of the client. -/
def onBuffer {α : Type} (outcome : Outcome ClientBuffer α) : Outcome CUdpClient α :=
  ⟨outcome.answer, outcome.accesses, ⟨outcome.after⟩⟩

/-- `CUdpClient::allocBuffer`. -/
def allocBuffer (client : CUdpClient) (nSize : ℕ) (bAllocBufHeader granted : Bool) :
    Outcome CUdpClient Bool :=
  onBuffer (client.buffer.allocBuffer nSize bAllocBufHeader granted)

/-- `CUdpClient::freeBuffer`. -/
def freeBuffer (client : CUdpClient) : Outcome CUdpClient Bool :=
  onBuffer client.buffer.freeBuffer

/-- `CUdpClient::clearBuffer`. -/
def clearBuffer (client : CUdpClient) : Outcome CUdpClient Bool :=
  onBuffer client.buffer.clearBuffer

/-- `CUdpClient::setBuffer`. -/
def setBuffer (client : CUdpClient) (source : Source) : Outcome CUdpClient Bool :=
  onBuffer (client.buffer.setBuffer source)

/-- `CUdpClient::appendBuffer`. -/
def appendBuffer (client : CUdpClient) (source : Source) : Outcome CUdpClient Bool :=
  onBuffer (client.buffer.appendBuffer source)

/-- `CUdpClient::getBuffer`. -/
def getBuffer (client : CUdpClient) (pTarget : Bool) (nLen nStartingAt : ℕ)
    (behind : List UInt8) : Outcome CUdpClient (Bool × List UInt8) :=
  onBuffer (client.buffer.getBuffer pTarget nLen nStartingAt behind)

/-- `CUdpClient::setDataSize`. -/
def setDataSize (client : CUdpClient) (nLen : ℕ) : Outcome CUdpClient Bool :=
  onBuffer (client.buffer.setDataSize nLen)

/-- What a client makes of a call on its buffer. -/
def answer (client : CUdpClient) : BufferCall → Outcome CUdpClient Bool
  | .allocBuffer nSize bAllocBufHeader granted => client.allocBuffer nSize bAllocBufHeader granted
  | .freeBuffer => client.freeBuffer
  | .clearBuffer => client.clearBuffer
  | .setBuffer source => client.setBuffer source
  | .appendBuffer source => client.appendBuffer source
  | .getBuffer pTarget nLen nStartingAt behind =>
    let outcome := client.getBuffer pTarget nLen nStartingAt behind
    ⟨outcome.answer.1, outcome.accesses, outcome.after⟩
  | .setDataSize nLen => client.setDataSize nLen

theorem answer_eq (client : CUdpClient) (call : BufferCall) :
    client.answer call = onBuffer (client.buffer.answer call) := by
  cases call <;> rfl

theorem actsOnBuffer : ActsOnBuffer buffer answer where
  accesses := by
    intro client call
    rw [answer_eq]
    rfl
  after := by
    intro client call
    rw [answer_eq]
    rfl

/-- `CUdpClient::read`. What `receive_from` gives is a datagram, or nothing when it reports an
error. Of a datagram that is longer than the buffer, the rest is dropped. -/
def read (client : CUdpClient) (pTarget : Bool) (nLen : ℕ) (behind : List UInt8)
    (arrival : Option (List UInt8)) : Outcome CUdpClient ReadAnswer :=
  if client.buffer.m_pDataBuffer = none ∧ (pTarget = false ∨ nLen < 1) then
    ⟨⟨-1, [], 0, none⟩, [], client⟩
  else if client.buffer.m_nBufferSize < nLen then ⟨⟨-2, [], 0, none⟩, [], client⟩
  else
    let ⟨_, accesses, client⟩ := client.clearBuffer
    let accesses := accesses ++ [⟨0, client.buffer.m_nBufferSize⟩]
    match arrival with
    | none => ⟨⟨-4, [], 0, none⟩, accesses, client⟩
    | some datagram =>
      let bytes := datagram.take client.buffer.m_nBufferSize
      let memory := overwrite (client.buffer.m_pDataBuffer.getD [] ++ behind) 0 bytes
      let buffer := client.buffer.update (overwrite · 0 bytes)
      let readSize := toInt bytes.length
      if readSize < 1 then
        ⟨⟨readSize, [], bytes.length, none⟩, accesses, ⟨{ buffer with m_nCurrDataLen := 0 }⟩⟩
      else
        let client : CUdpClient := ⟨{ buffer with m_nCurrDataLen := intToUnsigned readSize }⟩
        let header := client.buffer.m_nHeaderSize
        let nPayloadSize := toInt (unsignedSub (intToUnsigned readSize) header)
        match copyLength pTarget nLen nPayloadSize with
        | none => ⟨⟨nPayloadSize, [], bytes.length, none⟩, accesses, client⟩
        | some count =>
          ⟨⟨nPayloadSize, (memory.drop header).take count, bytes.length, none⟩,
            accesses ++ [⟨header, count⟩], client⟩

/-- The part of `write` that sends. The socket sends all bytes, or reports an error. -/
def finishWrite (client : CUdpClient) (sends : Option Access) (bytes : List UInt8) (dataSize : ℕ)
    (accesses : List Access) (sent : Bool) : Outcome CUdpClient WriteAnswer :=
  if sent = false then ⟨⟨-4, sends, []⟩, accesses, client⟩
  else ⟨⟨toInt dataSize, sends, bytes⟩, accesses, ⟨{ client.buffer with m_nCurrDataLen := 0 }⟩⟩

/-- The assignment to `m_pBufferHeader->m_nDataLen`. What it writes to a block that was freed is not
seen. -/
def setHeaderLength (client : CUdpClient) (nDataLen : ℕ) : CUdpClient :=
  match client.buffer.m_pBufferHeader with
  | .block => ⟨client.buffer.update (overwrite · 12 (littleEndian 4 nDataLen))⟩
  | _ => client

/-- `CUdpClient::write`. -/
def write (client : CUdpClient) (source : Source) (behind : List UInt8) (sent : Bool) :
    Outcome CUdpClient WriteAnswer :=
  match source with
  | .null nLen =>
    if client.buffer.m_pDataBuffer = none then ⟨⟨-1, none, []⟩, [], client⟩
    else if 0 < nLen then ⟨⟨-2, none, []⟩, [], client⟩
    else
      let dataSize := toUnsigned (client.buffer.m_nHeaderSize + client.buffer.m_nCurrDataLen)
      let accesses : List Access :=
        if client.buffer.m_nHeaderSize = msgHeaderLen ∧ client.buffer.m_pBufferHeader = .block then
          [⟨12, 4⟩]
        else []
      let client := if client.buffer.m_nHeaderSize = msgHeaderLen then
        client.setHeaderLength dataSize else client
      let bytes := (client.buffer.m_pDataBuffer.getD [] ++ behind).take dataSize
      client.finishWrite (some ⟨0, dataSize⟩) bytes dataSize (accesses ++ [⟨0, dataSize⟩]) sent
  | .bytes values =>
    if client.buffer.m_pDataBuffer = none ∧ values.length < 1 then ⟨⟨-1, none, []⟩, [], client⟩
    else if values.length < 1 then ⟨⟨-2, none, []⟩, [], client⟩
    else client.finishWrite none values values.length [] sent

end CUdpClient

end RdbLibs.NetIO.CClientIO
