import RdbLibs.NetIO.CClientIO.ClientBuffer

/-!
# The class `CTcpClient`

`CTcpClient` of `Src/NetIO/CClientIO.cpp`: the functions on its buffer, `read` and `write`. What the
socket does in a call is an argument of the call. The functions of the network library that report
errors by an error code do not throw, so the handlers of exceptions are left out, as are the texts
of the errors.
-/

set_option autoImplicit false
set_option relaxedAutoImplicit false

namespace RdbLibs.NetIO.CClientIO

open BlockAccess ByteCodec MachineWord

/-- `eStringCompareResult_def`. -/
inductive StringCompareResult
  | lower
  | equal
  | higher
deriving DecidableEq

/-- The loop of `StrUtils::strCompare`. The characters are signed. -/
def compareChars : ℕ → List UInt8 → List UInt8 → StringCompareResult
  | nCmpLen + 1, x :: sStr1, y :: sStr2 =>
    if x.toInt8 < y.toInt8 then .lower
    else if y.toInt8 < x.toInt8 then .higher
    else compareChars nCmpLen sStr1 sStr2
  | _, _, _ => .equal

/-- `StrUtils::strCompare`. -/
def strCompare (sStr1 sStr2 : List UInt8) (nLen : ℕ) : StringCompareResult :=
  let nCmpLen :=
    if 0 < nLen then
      if toUnsigned sStr1.length < nLen then toUnsigned sStr1.length else nLen
    else toUnsigned sStr1.length
  let nCmpLen := if toUnsigned sStr2.length < nCmpLen then toUnsigned sStr2.length else nCmpLen
  compareChars nCmpLen sStr1 sStr2

/-- The string `"exit"`. -/
def exitText : List UInt8 := [0x65, 0x78, 0x69, 0x74]

/-- The C string at the start of some memory. -/
def cString (memory : List UInt8) : List UInt8 := memory.takeWhile fun byte ↦ byte ≠ 0

structure CTcpClient where
  buffer : ClientBuffer
  m_sStreamType : List UInt8
  m_bConnected : Bool
  m_heartBeatInterval : ℕ

/-- What the socket does in a call of `read`. It is closed, or `available` reports an error, or it
reports some bytes. Of these `asio::read` receives the first `received`, with an error if there are
more. `elapsed` is the time since `m_heartBeatTimestamp`, in milliseconds. -/
inductive Arrival
  | closed
  | unavailable
  | available (bytes : List UInt8) (received elapsed : ℕ)

/-- The range that `read` reads to build the string `sTmp`, which it does from 4 bytes on: the C
string behind the header, with the byte that ends it. -/
def stringAccess (memory : List UInt8) (header : ℕ) (readSize : ℤ) : Option Access :=
  if 4 ≤ readSize then some ⟨header, (cString (memory.drop header)).length + 1⟩ else none

/-- What `read` answers, the bytes that it copies to `pTarget`, how many bytes it takes from the
socket, and the range of the block that it reads to build the string `sTmp`, if it does. -/
structure ReadAnswer where
  result : ℤ
  copied : List UInt8
  taken : ℕ
  sTmp : Option Access

/-- What `write` answers, the range of the block that it hands to the socket, and the bytes that the
socket sends. -/
structure WriteAnswer where
  result : ℤ
  sends : Option Access
  wire : List UInt8

/-- The number of bytes that `read` copies to its target. -/
def copyLength (pTarget : Bool) (nLen : ℕ) (nPayloadSize : ℤ) : Option ℕ :=
  if pTarget = true ∧ 0 < nLen then
    if nPayloadSize < toInt nLen then some (intToSize nPayloadSize) else some nLen
  else none

namespace CTcpClient

/-- An object after its constructor. -/
def new : CTcpClient := ⟨.new, [], false, 0⟩

/-- A call on the buffer of the client. -/
def onBuffer {α : Type} (client : CTcpClient) (outcome : Outcome ClientBuffer α) :
    Outcome CTcpClient α :=
  ⟨outcome.answer, outcome.accesses, { client with buffer := outcome.after }⟩

/-- `CTcpClient::allocBuffer`. -/
def allocBuffer (client : CTcpClient) (nSize : ℕ) (bAllocBufHeader granted : Bool) :
    Outcome CTcpClient Bool :=
  client.onBuffer (client.buffer.allocBuffer nSize bAllocBufHeader granted)

/-- `CTcpClient::freeBuffer`. -/
def freeBuffer (client : CTcpClient) : Outcome CTcpClient Bool :=
  client.onBuffer client.buffer.freeBuffer

/-- `CTcpClient::clearBuffer`. -/
def clearBuffer (client : CTcpClient) : Outcome CTcpClient Bool :=
  client.onBuffer client.buffer.clearBuffer

/-- `CTcpClient::setBuffer`. -/
def setBuffer (client : CTcpClient) (source : Source) : Outcome CTcpClient Bool :=
  client.onBuffer (client.buffer.setBuffer source)

/-- `CTcpClient::appendBuffer`. -/
def appendBuffer (client : CTcpClient) (source : Source) : Outcome CTcpClient Bool :=
  client.onBuffer (client.buffer.appendBuffer source)

/-- `CTcpClient::getBuffer`. -/
def getBuffer (client : CTcpClient) (pTarget : Bool) (nLen nStartingAt : ℕ)
    (behind : List UInt8) : Outcome CTcpClient (Bool × List UInt8) :=
  client.onBuffer (client.buffer.getBuffer pTarget nLen nStartingAt behind)

/-- `CTcpClient::setDataSize`. -/
def setDataSize (client : CTcpClient) (nLen : ℕ) : Outcome CTcpClient Bool :=
  client.onBuffer (client.buffer.setDataSize nLen)

/-- What a client makes of a call on its buffer. -/
def answer (client : CTcpClient) : BufferCall → Outcome CTcpClient Bool
  | .allocBuffer nSize bAllocBufHeader granted => client.allocBuffer nSize bAllocBufHeader granted
  | .freeBuffer => client.freeBuffer
  | .clearBuffer => client.clearBuffer
  | .setBuffer source => client.setBuffer source
  | .appendBuffer source => client.appendBuffer source
  | .getBuffer pTarget nLen nStartingAt behind =>
    let outcome := client.getBuffer pTarget nLen nStartingAt behind
    ⟨outcome.answer.1, outcome.accesses, outcome.after⟩
  | .setDataSize nLen => client.setDataSize nLen

theorem answer_eq (client : CTcpClient) (call : BufferCall) :
    client.answer call = client.onBuffer (client.buffer.answer call) := by
  cases call <;> rfl

theorem actsOnBuffer : ActsOnBuffer buffer answer where
  accesses := by
    intro client call
    rw [answer_eq]
    rfl
  after := by
    intro client call
    rw [answer_eq]
    rfl

/-- `CTcpClient::setStreamType`, on the block that the header starts. -/
def setStreamType (client : CTcpClient) (cells : List UInt8) : List UInt8 :=
  overwrite cells 2 (client.m_sStreamType.take (typeLength client.m_sStreamType))

/-- A call of `read` that ends the connection. -/
def disconnect (client : CTcpClient) (result : ℤ) (accesses : List Access) (taken : ℕ)
    (sTmp : Option Access) : Outcome CTcpClient ReadAnswer :=
  ⟨⟨result, [], taken, sTmp⟩, accesses, { client with m_bConnected := false }⟩

/-- The part of `read` after the bytes were received. `memory` is the block with what is behind, and
the string `sTmp` ends with the first zero byte of it, wherever that is. -/
def finishRead (client : CTcpClient) (pTarget : Bool) (nLen : ℕ) (memory : List UInt8)
    (accesses : List Access) (taken : ℕ) : Outcome CTcpClient ReadAnswer :=
  let readSize := toInt taken
  let header := client.buffer.m_nHeaderSize
  let sTmp := stringAccess memory header readSize
  if readSize < 1 then
    ⟨⟨readSize, [], taken, sTmp⟩, accesses,
      { client with buffer := { client.buffer with m_nCurrDataLen := 0 } }⟩
  else if 4 ≤ readSize ∧ strCompare exitText (cString (memory.drop header)) 4 = .equal then
    { client with buffer := { client.buffer with m_nCurrDataLen := 0 } }.disconnect (-30) accesses
      taken sTmp
  else
    let client :=
      { client with buffer := { client.buffer with m_nCurrDataLen := intToUnsigned readSize } }
    let nPayloadSize := toInt (unsignedSub (intToUnsigned readSize) header)
    match copyLength pTarget nLen nPayloadSize with
    | none => ⟨⟨nPayloadSize, [], taken, sTmp⟩, accesses, client⟩
    | some count =>
      ⟨⟨nPayloadSize, (memory.drop header).take count, taken, sTmp⟩,
        accesses ++ [⟨header, count⟩], client⟩

/-- `CTcpClient::read`. `pTarget` is whether the pointer is not null, and `behind` is what is in
memory behind the block. -/
def read (client : CTcpClient) (pTarget : Bool) (nLen : ℕ) (behind : List UInt8)
    (arrival : Arrival) : Outcome CTcpClient ReadAnswer :=
  if client.buffer.m_pDataBuffer = none ∧ (pTarget = false ∨ nLen < 1) then
    ⟨⟨-1, [], 0, none⟩, [], client⟩
  else if (if pTarget then nLen else client.buffer.m_nBufferSize) < 1 then
    ⟨⟨-2, [], 0, none⟩, [], client⟩
  else
    let ⟨_, accesses, client⟩ := client.clearBuffer
    match arrival with
    | .closed => client.disconnect (-20) accesses 0 none
    | .unavailable => client.disconnect (-20) accesses 0 none
    | .available bytes received elapsed =>
      if bytes.length < 8 then
        if 0 < client.m_heartBeatInterval ∧ client.m_heartBeatInterval < elapsed then
          client.disconnect (-10) accesses 0 none
        else ⟨⟨0, [], 0, none⟩, accesses, client⟩
      else
        let accesses := accesses ++ [⟨0, bytes.length⟩]
        let stored := bytes.take received
        let memory := overwrite (client.buffer.m_pDataBuffer.getD [] ++ behind) 0 stored
        let client := { client with buffer := client.buffer.update (overwrite · 0 stored) }
        if received < bytes.length then client.disconnect (-20) accesses stored.length none
        else client.finishRead pTarget nLen memory accesses stored.length

/-- The part of `write` that sends. The socket sends all bytes, or reports an error. -/
def finishWrite (client : CTcpClient) (dataSize : ℕ) (behind : List UInt8)
    (accesses : List Access) (sent : Bool) : Outcome CTcpClient WriteAnswer :=
  let accesses := accesses ++ [⟨0, dataSize⟩]
  if sent = false then ⟨⟨-20, some ⟨0, dataSize⟩, []⟩, accesses, client⟩
  else
    ⟨⟨toInt dataSize, some ⟨0, dataSize⟩,
        (client.buffer.m_pDataBuffer.getD [] ++ behind).take dataSize⟩, accesses,
      { client with buffer := { client.buffer with m_nCurrDataLen := 0 } }⟩

/-- `CTcpClient::write`. -/
def write (client : CTcpClient) (source : Source) (behind : List UInt8) (sent : Bool) :
    Outcome CTcpClient WriteAnswer :=
  match source with
  | .null nLen =>
    if client.buffer.m_pDataBuffer = none then ⟨⟨-1, none, []⟩, [], client⟩
    else if 0 < nLen then ⟨⟨-2, none, []⟩, [], client⟩
    else if client.buffer.m_nCurrDataLen < 1 then ⟨⟨-4, none, []⟩, [], client⟩
    else
      let dataSize := toUnsigned (client.buffer.m_nHeaderSize + client.buffer.m_nCurrDataLen)
      if client.buffer.m_nHeaderSize = msgHeaderLen then
        let nDataLen := littleEndian 4 client.buffer.m_nCurrDataLen
        let buffer := { client.buffer.update (overwrite · 12 nDataLen) with
          m_pBufferHeader := .block }
        { client with buffer := buffer }.finishWrite dataSize behind [⟨12, 4⟩] sent
      else client.finishWrite dataSize behind [] sent
  | .bytes values =>
    let nLen := values.length
    if client.buffer.m_pDataBuffer = none ∧ nLen < 1 then ⟨⟨-1, none, []⟩, [], client⟩
    else if nLen < 1 then ⟨⟨-2, none, []⟩, [], client⟩
    else if client.buffer.m_nBufferSize < nLen then ⟨⟨-3, none, []⟩, [], client⟩
    else
      let header := client.buffer.m_nHeaderSize
      let dataSize := toUnsigned (header + nLen)
      let copied (buffer : ClientBuffer) : CTcpClient := { client with buffer :=
        { buffer.update (overwrite · header values) with m_nCurrDataLen := nLen } }
      if header = msgHeaderLen then
        let buffer := client.buffer.update fun cells ↦
          overwrite (client.setStreamType (initializedHeader cells)) 12 (littleEndian 4 nLen)
        (copied { buffer with m_pBufferHeader := .block }).finishWrite dataSize behind
          (headerAccesses ++ [⟨2, typeLength client.m_sStreamType⟩, ⟨12, 4⟩, ⟨header, nLen⟩]) sent
      else (copied client.buffer).finishWrite dataSize behind [⟨header, nLen⟩] sent

/-! ### What `read` comes to -/

/-- `read` does not refuse its target: there is a pointer with room for a byte, or a buffer. -/
def HasTarget (client : CTcpClient) (pTarget : Bool) (nLen : ℕ) : Prop :=
  ¬(client.buffer.m_pDataBuffer = none ∧ (pTarget = false ∨ nLen < 1)) ∧
    ¬(if pTarget then nLen else client.buffer.m_nBufferSize) < 1

/-- The client when `read` has cleared the buffer and received some bytes. -/
def receive (client : CTcpClient) (bytes : List UInt8) : CTcpClient :=
  { client with buffer := client.buffer.clearBuffer.after.update (overwrite · 0 bytes) }

/-- What a call of `read` comes to. It refuses its target; it takes no bytes, and may end the
connection; it does not receive all bytes; or it receives them. -/
inductive ReadCase (client : CTcpClient) (pTarget : Bool) (nLen : ℕ) (behind : List UInt8) :
    Arrival → Outcome CTcpClient ReadAnswer → Prop
  | refuses (arrival : Arrival) (result : ℤ) (hresult : result ≤ 0)
      (htarget : ¬client.HasTarget pTarget nLen) :
      ReadCase client pTarget nLen behind arrival ⟨⟨result, [], 0, none⟩, [], client⟩
  | leaves (arrival : Arrival) (result : ℤ) (connected : Bool) (hresult : result ≤ 0)
      (htarget : client.HasTarget pTarget nLen)
      (hfew : ∀ bytes received elapsed, arrival = .available bytes received elapsed →
        bytes.length < 8) :
      ReadCase client pTarget nLen behind arrival
        ⟨⟨result, [], 0, none⟩, client.buffer.clearBuffer.accesses,
          { client with buffer := client.buffer.clearBuffer.after, m_bConnected := connected }⟩
  | fails (bytes : List UInt8) (received elapsed : ℕ) (htarget : client.HasTarget pTarget nLen)
      (hmany : 8 ≤ bytes.length) (hfailed : received < bytes.length) :
      ReadCase client pTarget nLen behind (.available bytes received elapsed)
        ((client.receive (bytes.take received)).disconnect (-20)
          (client.buffer.clearBuffer.accesses ++ [⟨0, bytes.length⟩]) (bytes.take received).length
          none)
  | finishes (bytes : List UInt8) (received elapsed : ℕ) (htarget : client.HasTarget pTarget nLen)
      (hmany : 8 ≤ bytes.length) (hreceived : bytes.length ≤ received) :
      ReadCase client pTarget nLen behind (.available bytes received elapsed)
        ((client.receive bytes).finishRead pTarget nLen
          (overwrite (client.buffer.clearBuffer.after.m_pDataBuffer.getD [] ++ behind) 0 bytes)
          (client.buffer.clearBuffer.accesses ++ [⟨0, bytes.length⟩]) bytes.length)

theorem readCase (client : CTcpClient) (pTarget : Bool) (nLen : ℕ) (behind : List UInt8)
    (arrival : Arrival) :
    ReadCase client pTarget nLen behind arrival (client.read pTarget nLen behind arrival) := by
  unfold read clearBuffer onBuffer
  dsimp only
  by_cases hnull : client.buffer.m_pDataBuffer = none ∧ (pTarget = false ∨ nLen < 1)
  · rw [if_pos hnull]
    exact .refuses arrival (-1) (by decide) fun h ↦ h.1 hnull
  by_cases hempty : (if pTarget then nLen else client.buffer.m_nBufferSize) < 1
  · rw [if_neg hnull, if_pos hempty]
    exact .refuses arrival (-2) (by decide) fun h ↦ h.2 hempty
  rw [if_neg hnull, if_neg hempty]
  have htarget : client.HasTarget pTarget nLen := ⟨hnull, hempty⟩
  cases arrival with
  | closed => exact .leaves .closed (-20) false (by decide) htarget nofun
  | unavailable => exact .leaves .unavailable (-20) false (by decide) htarget nofun
  | available bytes received elapsed =>
    dsimp only
    by_cases hfew : bytes.length < 8
    · rw [if_pos hfew]
      have harrival : ∀ bytes' received' elapsed',
          Arrival.available bytes received elapsed = .available bytes' received' elapsed' →
            bytes'.length < 8 := by
        rintro bytes' received' elapsed' ⟨⟩
        exact hfew
      split_ifs
      · exact .leaves _ (-10) false (by decide) htarget harrival
      · exact .leaves _ 0 client.m_bConnected le_rfl htarget harrival
    rw [if_neg hfew]
    by_cases hfailed : received < bytes.length
    · rw [if_pos hfailed]
      exact .fails bytes received elapsed htarget (not_lt.mp hfew) hfailed
    · rw [if_neg hfailed, List.take_of_length_le (not_lt.mp hfailed)]
      exact .finishes bytes received elapsed htarget (not_lt.mp hfew) (not_lt.mp hfailed)

end CTcpClient

end RdbLibs.NetIO.CClientIO
