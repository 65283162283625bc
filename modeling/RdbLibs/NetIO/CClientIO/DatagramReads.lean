import RdbLibs.NetIO.CClientIO.ClientFraming

/-!
# What a `CUdpClient` reads from a datagram

`CUdpClient::read` takes one datagram and answers with the number of the bytes behind the first 20.
As datagrams stay apart, it reads a message from each frame that is not longer than its buffer
(`payloadOf_read`). A client whose buffer was allocated with a header keeps it when it reads and
writes.
-/

set_option autoImplicit false
set_option relaxedAutoImplicit false

namespace RdbLibs.NetIO.CClientIO

open BlockAccess ByteCodec MachineWord NetworkDataHeaderInfo

variable {size : ℕ} {b : ClientBuffer}

theorem Listening.setLength (h : Listening size b) (nCurrDataLen : ℕ) :
    Listening size { b with m_nCurrDataLen := nCurrDataLen } := by
  obtain ⟨⟨cells, hheader⟩, hsize, hroom⟩ := h
  exact ⟨⟨cells, hheader.data, hheader.length, hheader.size_lt, hheader.headerSize,
    hheader.pointer⟩, hsize, hroom⟩

theorem Listening.update (h : Listening size b) {write : List UInt8 → List UInt8}
    (hwrite : ∀ cells, (write cells).length = cells.length) : Listening size (b.update write) := by
  obtain ⟨⟨cells, hheader⟩, hsize, hroom⟩ := h
  refine ⟨⟨write cells, ?_, (hwrite cells).trans hheader.length, hheader.size_lt,
    hheader.headerSize, hheader.pointer⟩, hsize, hroom⟩
  rw [ClientBuffer.update, hheader.data]
  rfl

namespace CUdpClient

variable {client : CUdpClient}

/-- The call of `read` comes to `receive_from`. -/
def ComesToReceive (client : CUdpClient) (pTarget : Bool) (nLen : ℕ) : Prop :=
  ¬(client.buffer.m_pDataBuffer = none ∧ (pTarget = false ∨ nLen < 1)) ∧
    nLen ≤ client.buffer.m_nBufferSize

/-- What is in the buffer of a client when `read` has answered with a number of bytes. -/
def payloadOf (outcome : Outcome CUdpClient ReadAnswer) : Option (List UInt8) :=
  if 0 < outcome.answer.result then
    some (((outcome.after.buffer.m_pDataBuffer.getD []).drop
      outcome.after.buffer.m_nHeaderSize).take outcome.answer.result.toNat)
  else none

/-! ### Writing -/

theorem listening_setHeaderLength (h : Listening size client.buffer) (nDataLen : ℕ) :
    Listening size (client.setHeaderLength nDataLen).buffer := by
  unfold setHeaderLength
  cases client.buffer.m_pBufferHeader with
  | block => exact h.update fun cells ↦ length_overwrite ..
  | null => exact h
  | freed => exact h

theorem listening_finishWrite (h : Listening size client.buffer) (sends : Option Access)
    (bytes : List UInt8) (dataSize : ℕ) (accesses : List Access) (sent : Bool) :
    Listening size (client.finishWrite sends bytes dataSize accesses sent).after.buffer := by
  unfold finishWrite
  split_ifs
  · exact h
  · exact h.setLength 0

/-- A client keeps its buffer when it writes. -/
theorem listening_write (h : Listening size client.buffer) (source : Source)
    (behind : List UInt8) (sent : Bool) :
    Listening size (client.write source behind sent).after.buffer := by
  unfold write
  cases source with
  | null nLen =>
    dsimp only
    by_cases hnull : client.buffer.m_pDataBuffer = none
    · rw [if_pos hnull]
      exact h
    · by_cases hlong : 0 < nLen
      · rw [if_neg hnull, if_pos hlong]
        exact h
      · rw [if_neg hnull, if_neg hlong]
        refine listening_finishWrite ?_ ..
        by_cases hheader : client.buffer.m_nHeaderSize = msgHeaderLen
        · rw [if_pos hheader]
          exact listening_setHeaderLength h _
        · rw [if_neg hheader]
          exact h
  | bytes values =>
    dsimp only
    split_ifs
    · exact h
    · exact h
    · exact listening_finishWrite h ..

/-! ### Reading -/

/-- An error, and a call that is refused, answer no number of bytes, and the client keeps its
buffer. -/
theorem read_none (h : Listening size client.buffer) (pTarget : Bool) (nLen : ℕ)
    (behind : List UInt8) :
    payloadOf (client.read pTarget nLen behind none) = none ∧
      Listening size (client.read pTarget nLen behind none).after.buffer := by
  unfold read
  split_ifs
  · exact ⟨rfl, h⟩
  · exact ⟨rfl, h⟩
  · exact ⟨rfl, h.clearBuffer⟩

theorem payloadOf_block {outcome : Outcome CUdpClient ReadAnswer} {cells : List UInt8} {n : ℕ}
    (hresult : outcome.answer.result = n) (hpos : 0 < n)
    (hdata : outcome.after.buffer.m_pDataBuffer = some cells)
    (hheader : outcome.after.buffer.m_nHeaderSize = msgHeaderLen) :
    payloadOf outcome = some ((cells.drop msgHeaderLen).take n) := by
  rw [payloadOf, hresult, hdata, hheader, if_pos (Int.natCast_pos.mpr hpos), Int.toNat_natCast]
  rfl

/-- A datagram with more bytes than a header is read as a message, as far as it fits the buffer. -/
theorem payloadOf_read (h : Listening size client.buffer) {pTarget : Bool} {nLen : ℕ}
    (hreceives : client.ComesToReceive pTarget nLen) (behind : List UInt8) {datagram : List UInt8}
    (hlong : msgHeaderLen < datagram.length) (hint : datagram.length < 2 ^ 31) :
    payloadOf (client.read pTarget nLen behind (some datagram)) =
        some ((datagram.take size).drop msgHeaderLen) ∧
      Listening size (client.read pTarget nLen behind (some datagram)).after.buffer := by
  obtain ⟨cells, hheader⟩ := h.header
  have hsize : client.buffer.m_nBufferSize = size := h.size_eq
  have hlength : cells.length = size := hheader.length.trans hsize
  have hcleared : (cleared cells).length = size :=
    (length_cleared (h.room.le.trans_eq hlength.symm)).trans hlength
  let bytes := datagram.take size
  have hbytes : bytes.length = min size datagram.length := List.length_take
  have hread : toInt bytes.length = bytes.length := toInt_of_lt (by omega)
  have hmany : msgHeaderLen < bytes.length := hbytes ▸ lt_min h.room hlong
  have hpayload : toInt (unsignedSub (intToUnsigned bytes.length) msgHeaderLen) =
      (bytes.length - msgHeaderLen : ℕ) := by
    rw [payloadSize_eq (by omega) (by omega), Nat.cast_sub hmany.le]
  have hblock : ((overwrite (cleared cells) 0 bytes).drop msgHeaderLen).take
      (bytes.length - msgHeaderLen) = bytes.drop msgHeaderLen := by
    have hfront : ((overwrite (cleared cells) 0 bytes).drop 0).take bytes.length = bytes :=
      read_overwrite (by omega)
    rw [← List.drop_take]
    exact congrArg (List.drop msgHeaderLen) hfront
  have hkeeps (nCurrDataLen : ℕ) := h.setBlock ((length_overwrite _ 0 bytes).trans hcleared)
    nCurrDataLen
  simp only [hheader.headerSize, hsize] at hkeeps
  unfold read clearBuffer onBuffer
  rw [if_neg hreceives.1, if_neg (not_lt.mpr hreceives.2)]
  dsimp only
  rw [hheader.clearBuffer (h.room.le.trans_eq hsize.symm)]
  unfold ClientBuffer.update
  dsimp only
  rw [hsize, hread, if_neg (by omega), hheader.headerSize, hpayload, ← hblock]
  cases copyLength pTarget nLen _ with
  | none => exact ⟨payloadOf_block rfl (Nat.sub_pos_of_lt hmany) rfl rfl, hkeeps _⟩
  | some count => exact ⟨payloadOf_block rfl (Nat.sub_pos_of_lt hmany) rfl rfl, hkeeps _⟩

end CUdpClient

end RdbLibs.NetIO.CClientIO
