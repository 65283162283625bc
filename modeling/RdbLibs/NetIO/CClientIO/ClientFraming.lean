import Mathlib.Data.List.Forall2
import RdbLibs.Foundations.Trimming
import RdbLibs.NetIO.CClientIO.ClientFrames
import RdbLibs.NetIO.CClientIO.TransferBounds
import RdbLibs.NetIO.TcpLossless

/-!
# Messages that a client reads from a stream

`CTcpClient::read` takes all bytes that `available` reports, and answers with one message: the bytes
behind the first 20. It does not look at the length in the header. A session that sends messages
puts their frames on the stream (`frames_of_sends`), and the answers are these messages exactly when
each call that takes bytes is offered one frame (`read_messages_iff`). To look for the text of an
exit message it builds a string, which ends in the block only if the payload has a zero byte or does
not fill the block.

A call that delivers a payload of `n` bytes has taken `20 + n` bytes or more (`ReadStep.le_amount`),
so what was delivered is no longer than the stream (`messageBytes_le`), which has no more bytes than
its frames. When all payloads are delivered, no call can have taken more than one frame, nor taken
bytes without an answer.
-/

set_option autoImplicit false
set_option relaxedAutoImplicit false

namespace RdbLibs.NetIO.CClientIO

open BlockAccess ByteCodec MachineWord Runs NetworkDataHeaderInfo

/-- A client, with the bytes that are on the way to it. -/
structure Receiver where
  client : CTcpClient
  stream : List UInt8

/-- The arguments of a call of `read`, what is in memory behind the block, the number of bytes that
`available` reports, and the time since `m_heartBeatTimestamp`. -/
structure ReadCall where
  pTarget : Bool
  nLen : ℕ
  behind : List UInt8
  amount : ℕ
  elapsed : ℕ

/-- One call of `read`. `available` reports any number of the bytes that are on the way. -/
def ReadStep (before : Receiver) (call : ReadCall) (reply : Outcome CTcpClient ReadAnswer)
    (after : Receiver) : Prop :=
  call.nLen < 2 ^ 32 ∧ call.amount ≤ before.stream.length ∧
    reply = before.client.read call.pTarget call.nLen call.behind
      (.available (before.stream.take call.amount) call.amount call.elapsed) ∧
    after = ⟨reply.after, before.stream.drop reply.answer.taken⟩

/-- A call of `read` with what it answered. -/
abbrev AnsweredRead := Call Receiver ReadCall (Outcome CTcpClient ReadAnswer)

/-- The answer is a number of bytes. -/
def Positive (call : AnsweredRead) : Prop := 0 < call.reply.answer.result

instance : DecidablePred Positive := fun call ↦ Int.decLt 0 call.reply.answer.result

/-- Enough bytes are available for `read` to take them, and a target has room for a byte. -/
def Takes (call : AnsweredRead) : Prop :=
  8 ≤ call.label.amount ∧ (call.label.pTarget = true → 1 ≤ call.label.nLen)

instance : DecidablePred Takes := fun _ ↦ instDecidableAnd

/-- All that a call of `read` accesses, with the string that it builds, is inside a block of `size`
bytes. -/
def ReadsInside (size : ℕ) (outcome : Outcome CTcpClient ReadAnswer) : Prop :=
  ∀ access ∈ outcome.accesses ++ outcome.answer.sTmp.toList, access.Inside size

instance (size : ℕ) (outcome : Outcome CTcpClient ReadAnswer) :
    Decidable (ReadsInside size outcome) :=
  inferInstanceAs (Decidable (∀ access ∈ _, _))

/-- The call answers with the length of the payload, which is then in the buffer behind the header,
and at the target as far as it has room. -/
structure Delivers (call : AnsweredRead) (payload : List UInt8) : Prop where
  result : call.reply.answer.result = payload.length
  data : ∃ cells, call.reply.after.buffer.m_pDataBuffer = some cells ∧
    (cells.drop msgHeaderLen).take payload.length = payload
  copied : call.label.pTarget = true →
    call.reply.answer.copied.take payload.length = payload.take call.label.nLen

theorem Delivers.positive {call : AnsweredRead} {payload : List UInt8} (h : Delivers call payload)
    (hpos : 1 ≤ payload.length) : Positive call := by
  unfold Positive
  rw [h.result]
  exact Int.natCast_pos.mpr hpos

/-- `read` takes the payload for an exit message. -/
def ReadsAsExit (payload : List UInt8) : Prop := strCompare exitText (cString payload) 4 = .equal

instance (payload : List UInt8) : Decidable (ReadsAsExit payload) :=
  inferInstanceAs (Decidable (_ = _))

/-- The C string at the start of the payload ends in a block of `size` bytes. -/
def Terminated (size : ℕ) (payload : List UInt8) : Prop :=
  0 ∈ payload ∨ msgHeaderLen + payload.length < size

instance (size : ℕ) (payload : List UInt8) : Decidable (Terminated size payload) :=
  inferInstanceAs (Decidable (_ ∨ _))

/-- `read` copies bytes of a block of `size` bytes only. From 2^31 on the length of the target is a
negative `int`, and as many bytes are copied. -/
def CopiesInside (size : ℕ) (pTarget : Bool) (nLen : ℕ) : Prop :=
  pTarget = true → nLen < 2 ^ 31 ∨ msgHeaderLen + nLen ≤ size

instance (size : ℕ) (pTarget : Bool) (nLen : ℕ) : Decidable (CopiesInside size pTarget nLen) :=
  inferInstanceAs (Decidable (_ → _))

/-- `available` reports as many bytes as the frame of the payload has. That is an `int`, the C
string of the payload ends in the block and is not taken for an exit message, and no more bytes are
copied than there are behind the header. -/
structure TakesMessage (size : ℕ) (call : AnsweredRead) (payload : List UInt8) : Prop where
  amount : call.label.amount = msgHeaderLen + payload.length
  isInt : msgHeaderLen + payload.length < 2 ^ 31
  terminated : Terminated size payload
  noExit : ¬ReadsAsExit payload
  copies : CopiesInside size call.label.pTarget call.label.nLen

/-- A client with a buffer of `size` bytes that was allocated with a header. -/
structure Listening (size : ℕ) (b : ClientBuffer) : Prop where
  header : ∃ cells, HasHeader b cells
  size_eq : b.m_nBufferSize = size
  room : msgHeaderLen < size

/-! ### One call -/

variable {b : ClientBuffer} {cells : List UInt8}

/-- The block of a buffer that was allocated with a header, after `clearBuffer`. -/
def cleared (cells : List UInt8) : List UInt8 :=
  cells.take msgHeaderLen ++ List.replicate (cells.length - msgHeaderLen) 0

theorem HasHeader.clearBuffer (h : HasHeader b cells) (hroom : msgHeaderLen ≤ b.m_nBufferSize) :
    b.clearBuffer.after =
      { b with m_pDataBuffer := some (cleared cells), m_nCurrDataLen := 0 } := by
  have hlength : (cells.take msgHeaderLen).length = msgHeaderLen :=
    List.length_take_of_le (hroom.trans_eq h.length.symm)
  have hfill : fill cells msgHeaderLen (cells.length - msgHeaderLen) 0 = cleared cells := by
    have hmiddle := fill_middle [] hlength
      (show (cells.drop msgHeaderLen).length = cells.length - msgHeaderLen by
        rw [List.length_drop]) 0
    rwa [List.append_nil, List.append_nil, List.take_append_drop] at hmiddle
  unfold ClientBuffer.clearBuffer
  rw [h.data, h.headerSize, unsignedSub_of_le hroom h.size_lt, ← h.length, ← hfill]

/-- What is received is written over the cleared block. -/
theorem overwrite_cleared {header payload : List UInt8} (hheader : header.length = msgHeaderLen)
    (hroom : msgHeaderLen + payload.length ≤ cells.length) :
    overwrite (cleared cells) 0 (header ++ payload) =
      header ++ (payload ++ List.replicate (cells.length - (msgHeaderLen + payload.length)) 0) := by
  have hlength : (header ++ payload).length = msgHeaderLen + payload.length := by
    rw [List.length_append, hheader]
  have hstart : (cells.take msgHeaderLen).length = msgHeaderLen :=
    List.length_take_of_le (by omega)
  have hinside : 0 + (header ++ payload).length ≤ (cleared cells).length := by
    rw [hlength, cleared, List.length_append, List.length_replicate, hstart]
    omega
  have hrest : (cleared cells).drop (msgHeaderLen + payload.length) =
      List.replicate (cells.length - (msgHeaderLen + payload.length)) 0 := by
    rw [cleared, ← List.drop_drop, List.drop_left' hstart, List.drop_replicate, Nat.sub_sub]
  rw [overwrite_eq hinside, zero_add, hlength, hrest, List.take_zero, List.nil_append,
    List.append_assoc]

/-- The client in a call that takes bytes, when they are in the block. -/
def CTcpClient.received (client : CTcpClient) (cells bytes : List UInt8) : CTcpClient :=
  { client with buffer := { client.buffer with
    m_pDataBuffer := some (overwrite (cleared cells) 0 bytes), m_nCurrDataLen := 0 } }

theorem HasHeader.hasTarget {client : CTcpClient} (h : HasHeader client.buffer cells)
    (hroom : msgHeaderLen < client.buffer.m_nBufferSize) {pTarget : Bool} {nLen : ℕ}
    (htarget : pTarget = true → 1 ≤ nLen) : client.HasTarget pTarget nLen := by
  refine ⟨fun hnull ↦ ?_, not_lt.mpr ?_⟩
  · rw [h.data] at hnull
    exact Option.some_ne_none cells hnull.1
  · split_ifs with hpointer
    · exact htarget hpointer
    · exact Nat.one_le_iff_ne_zero.mpr (Nat.ne_zero_of_lt hroom)

/-- The accesses of a call that takes bytes, before it looks at them. -/
def receivingAccesses (size amount : ℕ) : List Access :=
  [⟨msgHeaderLen, size - msgHeaderLen⟩, ⟨0, amount⟩]

/-- What is received is inside the block. -/
theorem receivingAccesses_inside {size amount : ℕ} (hheader : msgHeaderLen ≤ size)
    (hroom : amount ≤ size) : ∀ access ∈ receivingAccesses size amount, access.Inside size := by
  simp only [receivingAccesses, List.forall_mem_cons, Access.Inside]
  exact ⟨by omega, by omega, List.forall_mem_nil _⟩

theorem HasHeader.accesses_clearBuffer (h : HasHeader b cells)
    (hroom : msgHeaderLen ≤ b.m_nBufferSize) :
    b.clearBuffer.accesses = [⟨msgHeaderLen, b.m_nBufferSize - msgHeaderLen⟩] := by
  unfold ClientBuffer.clearBuffer
  rw [h.data, h.headerSize, unsignedSub_of_le hroom h.size_lt]

/-- A call that takes bytes. -/
theorem CTcpClient.read_available {client : CTcpClient} (h : HasHeader client.buffer cells)
    (hroom : msgHeaderLen < client.buffer.m_nBufferSize) {pTarget : Bool} {nLen : ℕ}
    (htarget : pTarget = true → 1 ≤ nLen) {bytes : List UInt8} {amount : ℕ}
    (hamount : bytes.length = amount) (hmany : 8 ≤ amount) (behind : List UInt8) (elapsed : ℕ) :
    client.read pTarget nLen behind (.available bytes amount elapsed) =
      (client.received cells bytes).finishRead pTarget nLen
        (overwrite (cleared cells ++ behind) 0 bytes)
        (receivingAccesses client.buffer.m_nBufferSize amount) amount := by
  subst hamount
  have hcase := client.readCase pTarget nLen behind (.available bytes bytes.length elapsed)
  generalize client.read pTarget nLen behind (.available bytes bytes.length elapsed) = outcome
    at hcase ⊢
  cases hcase with
  | refuses _ result _ hrefuses => exact absurd (h.hasTarget hroom htarget) hrefuses
  | leaves _ result connected _ _ hfew =>
    exact absurd (hfew bytes bytes.length elapsed rfl) (not_lt.mpr hmany)
  | fails _ _ _ _ _ hfailed => exact absurd hfailed (lt_irrefl _)
  | finishes =>
    rw [receive, h.accesses_clearBuffer hroom.le, h.clearBuffer hroom.le]
    rfl

/-- A call that takes no bytes does not answer with a number of bytes. -/
theorem CTcpClient.read_leaves (client : CTcpClient) {pTarget : Bool} {nLen : ℕ}
    {bytes : List UInt8} {amount : ℕ} (hamount : bytes.length = amount)
    (hleaves : ¬(8 ≤ amount ∧ (pTarget = true → 1 ≤ nLen))) (behind : List UInt8) (elapsed : ℕ) :
    ∃ result accesses, ∃ client' : CTcpClient, result ≤ 0 ∧
      client.read pTarget nLen behind (.available bytes amount elapsed) =
        ⟨⟨result, [], 0, none⟩, accesses, client'⟩ ∧
      ((accesses = [] ∧ client'.buffer = client.buffer) ∨
        (accesses = client.buffer.clearBuffer.accesses ∧
          client'.buffer = client.buffer.clearBuffer.after)) := by
  subst hamount
  have hcase := client.readCase pTarget nLen behind (.available bytes bytes.length elapsed)
  generalize client.read pTarget nLen behind (.available bytes bytes.length elapsed) = outcome
    at hcase ⊢
  cases hcase with
  | refuses _ result hresult _ => exact ⟨result, _, _, hresult, rfl, .inl ⟨rfl, rfl⟩⟩
  | leaves _ result connected hresult _ _ => exact ⟨result, _, _, hresult, rfl, .inr ⟨rfl, rfl⟩⟩
  | fails _ _ _ _ _ hfailed => exact absurd hfailed (lt_irrefl _)
  | finishes _ _ _ htarget hmany _ =>
    refine absurd ⟨hmany, fun hpointer ↦ ?_⟩ hleaves
    have hpos := htarget.2
    rw [if_pos hpointer] at hpos
    exact not_lt.mp hpos

/-- The size of a payload is the number of bytes behind the header, also when it is negative. -/
theorem payloadSize_eq {readSize : ℤ} (hpos : 1 ≤ readSize) (hlt : readSize < 2 ^ 31) :
    toInt (unsignedSub (intToUnsigned readSize) msgHeaderLen) = readSize - msgHeaderLen := by
  unfold toInt unsignedSub toUnsigned intToUnsigned msgHeaderLen
  split_ifs <;> omega

/-- The text of an exit message is behind the header. -/
def ExitText (memory : List UInt8) : Prop :=
  strCompare exitText (cString (memory.drop msgHeaderLen)) 4 = .equal

section FinishRead

variable {client : CTcpClient} (hheader : client.buffer.m_nHeaderSize = msgHeaderLen)
  (pTarget : Bool) (nLen : ℕ) (memory : List UInt8) (accesses : List Access) (taken : ℕ)

theorem CTcpClient.taken_finishRead :
    (client.finishRead pTarget nLen memory accesses taken).answer.taken = taken := by
  unfold finishRead
  dsimp only
  split_ifs
  · rfl
  · rfl
  · cases copyLength pTarget nLen _ with
    | none => rfl
    | some count => rfl

theorem CTcpClient.sTmp_finishRead :
    (client.finishRead pTarget nLen memory accesses taken).answer.sTmp =
      stringAccess memory client.buffer.m_nHeaderSize (toInt taken) := by
  unfold finishRead
  dsimp only
  split_ifs
  · rfl
  · rfl
  · cases copyLength pTarget nLen _ with
    | none => rfl
    | some count => rfl

theorem CTcpClient.exists_after_finishRead :
    ∃ nCurrDataLen, (client.finishRead pTarget nLen memory accesses taken).after.buffer =
      { client.buffer with m_nCurrDataLen := nCurrDataLen } := by
  unfold finishRead
  dsimp only
  split_ifs
  · exact ⟨_, rfl⟩
  · exact ⟨_, rfl⟩
  · cases copyLength pTarget nLen _ with
    | none => exact ⟨_, rfl⟩
    | some count => exact ⟨_, rfl⟩

include hheader

/-- What was received is answered but for the header, unless it is an exit message. -/
theorem CTcpClient.answer_finishRead (hlarge : msgHeaderLen < toInt taken)
    (hexit : ¬ExitText memory) :
    (client.finishRead pTarget nLen memory accesses taken).answer =
      ⟨toInt taken - msgHeaderLen, ((copyLength pTarget nLen (toInt taken - msgHeaderLen)).map
        fun count ↦ (memory.drop msgHeaderLen).take count).getD [], taken,
        stringAccess memory msgHeaderLen (toInt taken)⟩ := by
  have hpos : 1 ≤ toInt taken := (Int.natCast_nonneg msgHeaderLen).trans_lt hlarge
  unfold finishRead
  dsimp only
  rw [hheader, payloadSize_eq hpos (toInt_lt taken), if_neg (not_lt.mpr hpos),
    if_neg fun htext ↦ hexit htext.2]
  cases copyLength pTarget nLen _ with
  | none => rfl
  | some count => rfl

/-- What `read` copies of it to the target. -/
theorem CTcpClient.accesses_finishRead_of_payload (hlarge : msgHeaderLen < toInt taken)
    (hexit : ¬ExitText memory) :
    (client.finishRead pTarget nLen memory accesses taken).accesses = accesses ++
      ((copyLength pTarget nLen (toInt taken - msgHeaderLen)).map fun count ↦
        ⟨msgHeaderLen, count⟩).toList := by
  have hpos : 1 ≤ toInt taken := (Int.natCast_nonneg msgHeaderLen).trans_lt hlarge
  obtain ⟨-, hkeeps, -⟩ := client.accesses_finishRead pTarget nLen memory accesses taken
  rw [hheader, payloadSize_eq hpos (toInt_lt taken)] at hkeeps
  exact hkeeps ⟨not_lt.mpr hpos, fun htext ↦ hexit htext.2⟩

/-- Otherwise the answer is not a number of bytes. -/
theorem CTcpClient.result_finishRead_le
    (hnothing : ¬(msgHeaderLen < toInt taken ∧ ¬ExitText memory)) :
    (client.finishRead pTarget nLen memory accesses taken).answer.result ≤ 0 := by
  unfold finishRead
  dsimp only
  split_ifs with hshort hexit
  · show toInt taken ≤ 0
    omega
  · show (-30 : ℤ) ≤ 0
    decide
  · rw [hheader] at hexit ⊢
    rw [payloadSize_eq (not_lt.mp hshort) (toInt_lt taken)]
    have hle : toInt taken - msgHeaderLen ≤ 0 := by
      by_contra hlarge
      refine hnothing ⟨by omega, fun htext ↦ hexit ⟨?_, htext⟩⟩
      unfold msgHeaderLen at hlarge
      omega
    cases copyLength pTarget nLen _ with
    | none => exact hle
    | some count => exact hle

theorem CTcpClient.result_finishRead_pos_iff :
    0 < (client.finishRead pTarget nLen memory accesses taken).answer.result ↔
      msgHeaderLen < toInt taken ∧ ¬ExitText memory := by
  constructor
  · intro hpos
    by_contra hnothing
    exact not_le.mpr hpos
      (result_finishRead_le hheader pTarget nLen memory accesses taken hnothing)
  · rintro ⟨hlarge, hexit⟩
    rw [answer_finishRead hheader pTarget nLen memory accesses taken hlarge hexit]
    exact sub_pos.mpr hlarge

end FinishRead

/-! ### One call on the stream -/

variable {size : ℕ} {before after : Receiver} {call : ReadCall}
  {reply : Outcome CTcpClient ReadAnswer}

theorem Listening.setBlock (h : Listening size b) {cells' : List UInt8}
    (hlength : cells'.length = size) (nCurrDataLen : ℕ) :
    Listening size { b with m_pDataBuffer := some cells', m_nCurrDataLen := nCurrDataLen } := by
  obtain ⟨⟨cells, hheader⟩, hsize, hroom⟩ := h
  exact ⟨⟨cells', rfl, hlength.trans hsize.symm, hheader.size_lt, hheader.headerSize,
    hheader.pointer⟩, hsize, hroom⟩

theorem length_cleared (hroom : msgHeaderLen ≤ cells.length) :
    (cleared cells).length = cells.length := by
  rw [cleared, List.length_append, List.length_replicate, List.length_take_of_le hroom,
    Nat.add_sub_of_le hroom]

theorem Listening.headerSize (h : Listening size b) : b.m_nHeaderSize = msgHeaderLen := by
  obtain ⟨cells, hheader⟩ := h.header
  exact hheader.headerSize

theorem Listening.size_lt (h : Listening size b) : size < 2 ^ 32 := by
  obtain ⟨cells, hheader⟩ := h.header
  exact h.size_eq ▸ hheader.size_lt

theorem Listening.clearBuffer (h : Listening size b) : Listening size b.clearBuffer.after := by
  obtain ⟨cells, hheader⟩ := h.header
  have hroom : msgHeaderLen ≤ b.m_nBufferSize := (h.size_eq ▸ h.room).le
  rw [hheader.clearBuffer hroom]
  exact h.setBlock ((length_cleared (hroom.trans_eq hheader.length.symm)).trans
    (hheader.length.trans h.size_eq)) 0

/-- A call that takes no bytes. -/
theorem ReadStep.leaves (hlisten : Listening size before.client.buffer)
    (hstep : ReadStep before call reply after) (hleaves : ¬Takes ⟨before, call, reply⟩) :
    (¬Positive ⟨before, call, reply⟩ ∧ ReadsInside size reply) ∧ after.stream = before.stream ∧
      Listening size after.client.buffer := by
  obtain ⟨-, hamount, hreply, rfl⟩ := hstep
  obtain ⟨result, accesses, client, hresult, hread, hbuffer⟩ := before.client.read_leaves
    (List.length_take_of_le hamount) hleaves call.behind call.elapsed
  rw [hread] at hreply
  subst hreply
  obtain ⟨cells, hheader⟩ := hlisten.header
  have hroom : msgHeaderLen ≤ before.client.buffer.m_nBufferSize :=
    (hlisten.size_eq ▸ hlisten.room).le
  unfold ReadsInside
  dsimp only [Option.toList]
  rw [List.append_nil]
  rcases hbuffer with ⟨rfl, hsame⟩ | ⟨rfl, hclear⟩
  · exact ⟨⟨not_lt.mpr hresult, nofun⟩, rfl, hsame ▸ hlisten⟩
  · refine ⟨⟨not_lt.mpr hresult, ?_⟩, rfl, hclear ▸ hlisten.clearBuffer⟩
    rw [hheader.accesses_clearBuffer hroom, List.forall_mem_singleton, hlisten.size_eq]
    exact (Nat.add_sub_of_le hlisten.room.le).le

/-- A call that takes bytes takes all that are available. -/
theorem ReadStep.exists_reply (hlisten : Listening size before.client.buffer)
    (hstep : ReadStep before call reply after) (htakes : Takes ⟨before, call, reply⟩) :
    ∃ cells, cells.length = size ∧
      reply = (before.client.received cells (before.stream.take call.amount)).finishRead
        call.pTarget call.nLen
        (overwrite (cleared cells ++ call.behind) 0 (before.stream.take call.amount))
        (receivingAccesses size call.amount) call.amount := by
  obtain ⟨-, hamount, hreply, -⟩ := hstep
  obtain ⟨cells, hheader⟩ := hlisten.header
  have hroom : msgHeaderLen < before.client.buffer.m_nBufferSize :=
    hlisten.room.trans_eq hlisten.size_eq.symm
  have hread := CTcpClient.read_available hheader hroom htakes.2
    (List.length_take_of_le hamount) htakes.1 call.behind call.elapsed
  rw [hlisten.size_eq] at hread
  exact ⟨cells, hheader.length.trans hlisten.size_eq, hreply.trans hread⟩

theorem ReadStep.stream_of_takes (hlisten : Listening size before.client.buffer)
    (hstep : ReadStep before call reply after) (htakes : Takes ⟨before, call, reply⟩) :
    after.stream = before.stream.drop call.amount := by
  obtain ⟨cells, -, hreply⟩ := hstep.exists_reply hlisten htakes
  obtain ⟨-, -, -, rfl⟩ := hstep
  rw [hreply, CTcpClient.taken_finishRead]

/-- Every call leaves the client with the same room. -/
theorem ReadStep.listening (hlisten : Listening size before.client.buffer)
    (hstep : ReadStep before call reply after) : Listening size after.client.buffer := by
  by_cases htakes : Takes ⟨before, call, reply⟩
  · obtain ⟨cells, hlength, hreply⟩ := hstep.exists_reply hlisten htakes
    obtain ⟨-, -, -, rfl⟩ := hstep
    subst hreply
    obtain ⟨nCurrDataLen, hafter⟩ := CTcpClient.exists_after_finishRead _ _ _ _ _
    have hblock : (overwrite (cleared cells) 0 (before.stream.take call.amount)).length = size := by
      rw [length_overwrite, length_cleared (hlength ▸ hlisten.room.le), hlength]
    rw [hafter]
    exact hlisten.setBlock hblock nCurrDataLen
  · exact (hstep.leaves hlisten htakes).2.2

/-- A number of bytes that is answered is what was taken, but for the header. -/
theorem ReadStep.result_eq (hlisten : Listening size before.client.buffer)
    (hstep : ReadStep before call reply after) (hpos : Positive ⟨before, call, reply⟩) :
    Takes ⟨before, call, reply⟩ ∧ msgHeaderLen + reply.answer.result = toInt call.amount := by
  have htakes : Takes ⟨before, call, reply⟩ := by
    by_contra hleaves
    exact (hstep.leaves hlisten hleaves).1.1 hpos
  refine ⟨htakes, ?_⟩
  obtain ⟨cells, -, hreply⟩ := hstep.exists_reply hlisten htakes
  unfold Positive at hpos
  dsimp only at hpos
  subst hreply
  have hheader : (before.client.received cells
    (before.stream.take call.amount)).buffer.m_nHeaderSize = msgHeaderLen := hlisten.headerSize
  obtain ⟨hlarge, hexit⟩ := (CTcpClient.result_finishRead_pos_iff hheader ..).mp hpos
  rw [CTcpClient.answer_finishRead hheader _ _ _ _ _ hlarge hexit]
  exact add_sub_cancel ..

/-- Zeros behind some bytes do not change the C string at their start. -/
theorem cString_append_replicate (bytes : List UInt8) (count : ℕ) :
    cString (bytes ++ List.replicate count 0) = cString bytes := by
  have hzeros : (List.replicate count (0 : UInt8)).takeWhile (fun byte ↦ byte ≠ 0) = [] := by
    cases count with
    | zero => rfl
    | succ count => rw [List.replicate_succ, List.takeWhile_cons_of_neg (by decide)]
  unfold cString
  rw [List.takeWhile_append, hzeros, List.append_nil]
  split_ifs with hall
  · exact ((List.takeWhile_prefix _).eq_of_length hall).symm
  · rfl

section Frames

variable {header payload : List UInt8} (hheader : header.length = msgHeaderLen)
  (hroom : msgHeaderLen + payload.length ≤ cells.length)

include hheader hroom

/-- What is in memory behind the header, when a frame was received. -/
theorem drop_overwrite_cleared (behind : List UInt8) :
    (overwrite (cleared cells ++ behind) 0 (header ++ payload)).drop msgHeaderLen =
      payload ++ List.replicate (cells.length - (msgHeaderLen + payload.length)) 0 ++ behind := by
  have hinside : 0 + (header ++ payload).length ≤ (cleared cells).length := by
    rw [length_cleared (Nat.le_of_add_right_le hroom), zero_add, List.length_append, hheader]
    exact hroom
  rw [overwrite_append hinside, overwrite_cleared hheader hroom, List.append_assoc header,
    List.drop_left' hheader]

/-- The C string behind the header ends in the block, or somewhere behind it. -/
theorem length_cString_lt_iff (behind : List UInt8) :
    msgHeaderLen + ((cString ((overwrite (cleared cells ++ behind) 0
        (header ++ payload)).drop msgHeaderLen)).length + 1) ≤ cells.length ↔
      Terminated cells.length payload := by
  have hfront : (payload ++ List.replicate (cells.length - (msgHeaderLen + payload.length))
      (0 : UInt8)).length = cells.length - msgHeaderLen := by
    rw [List.length_append, List.length_replicate]
    omega
  have hlt := Trimming.length_takeWhile_append_lt_iff (p := fun byte : UInt8 ↦ byte ≠ 0)
    (payload ++ List.replicate (cells.length - (msgHeaderLen + payload.length)) 0) behind
  rw [hfront] at hlt
  have hzero : (∃ byte ∈ payload ++ List.replicate (cells.length - (msgHeaderLen + payload.length))
      (0 : UInt8), decide (byte ≠ 0) = false) ↔ Terminated cells.length payload := by
    simp only [decide_eq_false_iff_not, not_not, exists_eq_right, List.mem_append,
      List.mem_replicate, and_true, Terminated]
    exact or_congr_right (by omega)
  rw [drop_overwrite_cleared hheader hroom, cString, ← hzero, ← hlt]
  omega

/-- Where the C string ends in the block, it is the one of the payload. -/
theorem exitText_iff (hterminated : Terminated cells.length payload) (behind : List UInt8) :
    ExitText (overwrite (cleared cells ++ behind) 0 (header ++ payload)) ↔
      ReadsAsExit payload := by
  have hzero : ∃ byte ∈ payload ++ List.replicate
      (cells.length - (msgHeaderLen + payload.length)) (0 : UInt8), decide (byte ≠ 0) = false := by
    refine ⟨0, List.mem_append.mpr (hterminated.imp_right fun hlt ↦ ?_), rfl⟩
    exact List.mem_replicate.mpr ⟨Nat.sub_ne_zero_of_lt hlt, rfl⟩
  rw [ExitText, drop_overwrite_cleared hheader hroom, cString,
    Trimming.takeWhile_append_of_exists hzero, ← cString, cString_append_replicate, ReadsAsExit]

end Frames

/-- As many bytes are copied as the target has room for. -/
theorem copied_of_copyLength {payload rest : List UInt8} (hshort : payload.length < 2 ^ 31)
    {nLen : ℕ} (hpos : 1 ≤ nLen) :
    (((copyLength true nLen payload.length).map fun count ↦ (payload ++ rest).take count).getD
      []).take payload.length = payload.take nLen := by
  have htarget : true = true ∧ 0 < nLen := ⟨rfl, hpos⟩
  rw [copyLength, if_pos htarget]
  by_cases hroom : (payload.length : ℤ) < toInt nLen
  · have hle : payload.length ≤ nLen := by
      have := toInt_le nLen
      omega
    rw [if_pos hroom, intToSize_of_lt (by omega)]
    show ((payload ++ rest).take payload.length).take payload.length = payload.take nLen
    rw [List.take_left' rfl, List.take_length, List.take_of_length_le hle]
  · rw [if_neg hroom]
    show ((payload ++ rest).take nLen).take payload.length = payload.take nLen
    rw [List.take_take, min_comm, ← List.take_take, List.take_left' rfl]

/-- Assumes: a payload that fits the block. What is copied of it is in the block exactly under the
condition on the target. -/
theorem copyLength_inside_iff {n nLen size : ℕ} (hroom : msgHeaderLen + n ≤ size)
    (hlegal : nLen < 2 ^ 32) {pTarget : Bool} (htarget : pTarget = true → 1 ≤ nLen) :
    (∀ count ∈ copyLength pTarget nLen n, msgHeaderLen + count ≤ size) ↔
      CopiesInside size pTarget nLen := by
  unfold CopiesInside copyLength
  cases pTarget with
  | false =>
    rw [if_neg fun h ↦ Bool.noConfusion h.1]
    exact iff_of_true nofun nofun
  | true =>
    have hsome : true = true ∧ 0 < nLen := ⟨rfl, htarget rfl⟩
    rw [if_pos hsome, forall_prop_of_true rfl]
    by_cases hsmall : nLen < 2 ^ 31
    · rw [toInt_of_lt hsmall]
      refine iff_of_true ?_ (.inl hsmall)
      split_ifs with hshort
      · rw [intToSize_of_lt (by omega)]
        rintro count ⟨⟩
        exact hroom
      · rintro count ⟨⟩
        omega
    · have hneg := toInt_neg (not_lt.mp hsmall) hlegal
      rw [if_neg (by omega), or_iff_right hsmall]
      exact ⟨fun hinside ↦ hinside nLen rfl, by rintro hinside count ⟨⟩; exact hinside⟩

section Frame

variable {client : CTcpClient} {header payload : List UInt8} (behind : List UInt8)
  (hsize : client.buffer.m_nHeaderSize = msgHeaderLen) (hheader : header.length = msgHeaderLen)
  (hpos : 1 ≤ payload.length) (hroom : msgHeaderLen + payload.length ≤ cells.length)
  (hint : msgHeaderLen + payload.length < 2 ^ 31) (pTarget : Bool) (nLen : ℕ)

/-- The end of a call that has received a frame. -/
def CTcpClient.finishFrame (client : CTcpClient) (cells header payload behind : List UInt8)
    (pTarget : Bool) (nLen : ℕ) : Outcome CTcpClient ReadAnswer :=
  (client.received cells (header ++ payload)).finishRead pTarget nLen
    (overwrite (cleared cells ++ behind) 0 (header ++ payload))
    (receivingAccesses cells.length (msgHeaderLen + payload.length))
    (msgHeaderLen + payload.length)

include hsize hheader hroom hint

/-- Where the string that is built is inside the block, the payload ends it there. -/
theorem CTcpClient.terminated_of_readsInside
    (hinside : ReadsInside cells.length
      (client.finishFrame cells header payload behind pTarget nLen)) :
    Terminated cells.length payload := by
  have hreceived : (client.received cells (header ++ payload)).buffer.m_nHeaderSize =
    msgHeaderLen := hsize
  have hlarge : 4 ≤ toInt (msgHeaderLen + payload.length) := by
    rw [toInt_of_lt hint]
    unfold msgHeaderLen
    omega
  have hstring := (client.received cells (header ++ payload)).sTmp_finishRead pTarget nLen
    (overwrite (cleared cells ++ behind) 0 (header ++ payload))
    (receivingAccesses cells.length (msgHeaderLen + payload.length))
    (msgHeaderLen + payload.length)
  rw [hreceived, stringAccess, if_pos hlarge] at hstring
  refine (length_cString_lt_iff hheader hroom behind).mp ?_
  refine hinside ⟨msgHeaderLen, _⟩ (List.mem_append_right _ ?_)
  rw [finishFrame, hstring]
  exact List.mem_singleton_self _

variable (hterminated : Terminated cells.length payload) (hexit : ¬ReadsAsExit payload)

include hpos hterminated hexit

/-- Assumes: the frame has a length that is an `int`, its C string ends in the block and is not
taken for an exit message. Then its payload is answered. -/
theorem CTcpClient.answer_finishFrame :
    (client.finishFrame cells header payload behind pTarget nLen).answer =
      ⟨payload.length, ((copyLength pTarget nLen payload.length).map fun count ↦
        (payload ++ (List.replicate (cells.length - (msgHeaderLen + payload.length)) 0 ++
          behind)).take count).getD [], msgHeaderLen + payload.length,
        stringAccess (overwrite (cleared cells ++ behind) 0 (header ++ payload)) msgHeaderLen
          (toInt (msgHeaderLen + payload.length))⟩ := by
  have htaken : toInt (msgHeaderLen + payload.length) - msgHeaderLen = payload.length := by
    rw [toInt_of_lt hint, Nat.cast_add, add_sub_cancel_left]
  have hlarge : (msgHeaderLen : ℤ) < toInt (msgHeaderLen + payload.length) := by omega
  have hreceived : (client.received cells (header ++ payload)).buffer.m_nHeaderSize =
    msgHeaderLen := hsize
  have hanswer := answer_finishRead hreceived pTarget nLen _
    (receivingAccesses cells.length (msgHeaderLen + payload.length)) _ hlarge
    ((not_congr (exitText_iff hheader hroom hterminated behind)).mpr hexit)
  rwa [htaken, drop_overwrite_cleared hheader hroom, List.append_assoc] at hanswer

/-- All that is accessed is inside the block exactly when no more is copied than there is. -/
theorem CTcpClient.readsInside_finishFrame_iff (hlegal : nLen < 2 ^ 32)
    (htarget : pTarget = true → 1 ≤ nLen) :
    ReadsInside cells.length (client.finishFrame cells header payload behind pTarget nLen) ↔
      CopiesInside cells.length pTarget nLen := by
  have htaken : toInt (msgHeaderLen + payload.length) - msgHeaderLen = payload.length := by
    rw [toInt_of_lt hint, Nat.cast_add, add_sub_cancel_left]
  have hlarge : (msgHeaderLen : ℤ) < toInt (msgHeaderLen + payload.length) := by omega
  have hreceived : (client.received cells (header ++ payload)).buffer.m_nHeaderSize =
    msgHeaderLen := hsize
  have haccesses := accesses_finishRead_of_payload hreceived pTarget nLen _
    (receivingAccesses cells.length (msgHeaderLen + payload.length)) _ hlarge
    ((not_congr (exitText_iff hheader hroom hterminated behind)).mpr hexit)
  have hanswer := answer_finishFrame behind hsize hheader hpos hroom hint pTarget nLen
    hterminated hexit
  have hstring : ∀ access ∈ (stringAccess (overwrite (cleared cells ++ behind) 0
      (header ++ payload)) msgHeaderLen (toInt (msgHeaderLen + payload.length))).toList,
      access.Inside cells.length := by
    rw [stringAccess, if_pos (by unfold msgHeaderLen at hlarge ⊢; omega), Option.toList_some,
      List.forall_mem_singleton]
    exact (length_cString_lt_iff hheader hroom behind).mpr hterminated
  have hreceiving : ∀ access ∈ receivingAccesses cells.length (msgHeaderLen + payload.length),
      access.Inside cells.length :=
    receivingAccesses_inside (Nat.le_of_add_right_le hroom) hroom
  rw [htaken] at haccesses
  rw [ReadsInside, List.forall_mem_append, hanswer, and_iff_left hstring, finishFrame, haccesses,
    List.forall_mem_append, and_iff_right hreceiving,
    ← copyLength_inside_iff hroom hlegal htarget]
  cases copyLength pTarget nLen payload.length with
  | none => exact iff_of_true (List.forall_mem_nil _) (by simp)
  | some count =>
    rw [Option.map_some, Option.toList_some, List.forall_mem_singleton]
    exact ⟨by rintro hend _ ⟨⟩; exact hend, fun hend ↦ hend count rfl⟩

/-- The payload is in the block and at the target. -/
theorem CTcpClient.finishFrame_payload (htarget : pTarget = true → 1 ≤ nLen) :
    let outcome := client.finishFrame cells header payload behind pTarget nLen
    outcome.answer.result = payload.length ∧
      (∃ cells', outcome.after.buffer.m_pDataBuffer = some cells' ∧
        (cells'.drop msgHeaderLen).take payload.length = payload) ∧
      (pTarget = true →
        outcome.answer.copied.take payload.length = payload.take nLen) := by
  intro outcome
  have hanswer : outcome.answer = _ :=
    answer_finishFrame behind hsize hheader hpos hroom hint pTarget nLen hterminated hexit
  have hafter : ∃ nCurrDataLen, outcome.after.buffer =
      { (client.received cells (header ++ payload)).buffer with m_nCurrDataLen := nCurrDataLen } :=
    exists_after_finishRead pTarget nLen _ _ _
  obtain ⟨nCurrDataLen, hafter⟩ := hafter
  refine ⟨congrArg ReadAnswer.result hanswer, ⟨overwrite (cleared cells) 0 (header ++ payload),
    congrArg ClientBuffer.m_pDataBuffer hafter, ?_⟩, fun hpointer ↦ ?_⟩
  · rw [overwrite_cleared hheader hroom, List.drop_left' hheader, List.take_left' rfl]
  · have hcopied := congrArg ReadAnswer.copied hanswer
    dsimp only at hcopied
    rw [hcopied, hpointer]
    exact copied_of_copyLength (by omega) (htarget hpointer)

end Frame

/-- A call that is offered a frame. It accesses the block only and answers with the payload exactly
when the frame is one that it can take. -/
theorem ReadStep.delivers_iff (hlisten : Listening size before.client.buffer)
    (hstep : ReadStep before call reply after) (htakes : Takes ⟨before, call, reply⟩)
    {payload frame : List UInt8} (hframe : FrameOf payload frame) (hpos : 1 ≤ payload.length)
    (hroom : msgHeaderLen + payload.length ≤ size)
    (hamount : call.amount = msgHeaderLen + payload.length)
    (hoffered : before.stream.take call.amount = frame) :
    ReadsInside size reply ∧ Delivers ⟨before, call, reply⟩ payload ↔
      TakesMessage size ⟨before, call, reply⟩ payload := by
  obtain ⟨header, hannounces, rfl⟩ := hframe
  obtain ⟨cells, rfl, hreply⟩ := hstep.exists_reply hlisten htakes
  have hsize : before.client.buffer.m_nHeaderSize = msgHeaderLen := hlisten.headerSize
  have hfinish : reply = before.client.finishFrame cells header payload call.behind call.pTarget
      call.nLen := by
    rw [hreply, hoffered, hamount]
    rfl
  constructor
  · rintro ⟨hinside, hdelivers⟩
    have hresult : reply.answer.result = payload.length := hdelivers.result
    have hanswered : Positive ⟨before, call, reply⟩ := hdelivers.positive hpos
    have htaken := (hstep.result_eq hlisten hanswered).2
    rw [hresult, hamount, ← Nat.cast_add] at htaken
    have hint := (toInt_eq_self_iff (hroom.trans_lt hlisten.size_lt)).mp htaken.symm
    rw [hfinish] at hinside
    have hterminated := CTcpClient.terminated_of_readsInside call.behind hsize hannounces.length
      hroom hint call.pTarget call.nLen hinside
    have hreceived : (before.client.received cells (header ++ payload)).buffer.m_nHeaderSize =
      msgHeaderLen := hsize
    have hpositive : 0 < reply.answer.result := hanswered
    rw [hfinish, CTcpClient.finishFrame,
      CTcpClient.result_finishRead_pos_iff hreceived call.pTarget call.nLen] at hpositive
    have hexit : ¬ReadsAsExit payload := fun htext ↦ hpositive.2
      ((exitText_iff hannounces.length hroom hterminated call.behind).mpr htext)
    exact ⟨hamount, hint, hterminated, hexit, (CTcpClient.readsInside_finishFrame_iff call.behind
      hsize hannounces.length hpos hroom hint call.pTarget call.nLen hterminated hexit hstep.1
      htakes.2).mp hinside⟩
  · rintro ⟨-, hint, hterminated, hexit, hcopies⟩
    have hinside := (CTcpClient.readsInside_finishFrame_iff call.behind hsize hannounces.length
      hpos hroom hint call.pTarget call.nLen hterminated hexit hstep.1 htakes.2).mpr hcopies
    obtain ⟨hresult, hdata, hcopied⟩ := CTcpClient.finishFrame_payload call.behind hsize
      hannounces.length hpos hroom hint call.pTarget call.nLen hterminated hexit htakes.2
    rw [← hfinish] at hinside hresult hdata hcopied
    exact ⟨hinside, hresult, hdata, hcopied⟩

/-- A payload that is delivered was taken, with its header. -/
theorem ReadStep.le_amount (hlisten : Listening size before.client.buffer)
    (hstep : ReadStep before call reply after) (hpos : Positive ⟨before, call, reply⟩)
    {payload : List UInt8} (hdelivers : Delivers ⟨before, call, reply⟩ payload) :
    msgHeaderLen + payload.length ≤ call.amount := by
  have hresult := (hstep.result_eq hlisten hpos).2
  have hpayload : reply.answer.result = payload.length := hdelivers.result
  have hint := toInt_le call.amount
  omega

/-! ### Runs -/

/-- The number of bytes in the frames of some payloads. -/
def messageBytes (payloads : List (List UInt8)) : ℕ :=
  (payloads.map fun payload ↦ msgHeaderLen + payload.length).sum

theorem length_flatten_frames {payloads frames : List (List UInt8)}
    (h : List.Forall₂ FrameOf payloads frames) : frames.flatten.length = messageBytes payloads := by
  induction h with
  | nil => rfl
  | @cons payload frame payloads frames hframe _ ih =>
    rw [List.flatten_cons, List.length_append, hframe.length, ih]
    rfl

/-- The first frame of a stream, and the others. -/
theorem take_drop_flatten {payload frame stream : List UInt8} {frames : List (List UInt8)}
    (hframe : FrameOf payload frame) {amount : ℕ} (hamount : amount = msgHeaderLen + payload.length)
    (hstream : stream = (frame :: frames).flatten) :
    stream.take amount = frame ∧ stream.drop amount = frames.flatten := by
  have hlength : frame.length = amount := hframe.length.trans hamount.symm
  rw [hstream, List.flatten_cons]
  exact ⟨List.take_left' hlength, List.drop_left' hlength⟩

section Runs

variable {start final : Receiver} {trace : List AnsweredRead}

/-- Payloads that were delivered were taken, with their headers. -/
theorem messageBytes_le (hrun : Run ReadStep start trace final) :
    ∀ {payloads}, Listening size start.client.buffer →
      List.Forall₂ Delivers (trace.filter Positive) payloads →
      messageBytes payloads ≤ start.stream.length := by
  induction hrun with
  | nil start =>
    intro payloads _ hdelivers
    cases hdelivers
    exact Nat.zero_le _
  | @cons start middle final call reply rest hfirst _ ih =>
    intro payloads hlisten hdelivers
    have hmiddle := hfirst.listening hlisten
    by_cases hpos : Positive ⟨start, call, reply⟩
    · rw [List.filter_cons_of_pos (by exact decide_eq_true hpos)] at hdelivers
      obtain ⟨payload, payloads, hpayload, hrest, rfl⟩ := List.forall₂_cons_left_iff.mp hdelivers
      have hle := ih hmiddle hrest
      have htakes := (hfirst.result_eq hlisten hpos).1
      have hamount := hfirst.le_amount hlisten hpos hpayload
      have havailable := hfirst.2.1
      rw [hfirst.stream_of_takes hlisten htakes, List.length_drop] at hle
      show msgHeaderLen + payload.length + messageBytes payloads ≤ start.stream.length
      omega
    · rw [List.filter_cons_of_neg (by simpa using hpos)] at hdelivers
      refine (ih hmiddle hdelivers).trans ?_
      by_cases htakes : Takes ⟨start, call, reply⟩
      · rw [hfirst.stream_of_takes hlisten htakes, List.length_drop]
        exact Nat.sub_le ..
      · rw [(hfirst.leaves hlisten htakes).2.1]

/-- Assumes: the stream is the frames of the payloads, all calls access the block only, and the
answers deliver the payloads. Then every call that takes bytes is offered the frame of one payload.
-/
theorem takes_of_delivers (hrun : Run ReadStep start trace final) :
    ∀ {payloads frames}, Listening size start.client.buffer →
      List.Forall₂ FrameOf payloads frames → start.stream = frames.flatten →
      (∀ payload ∈ payloads, 1 ≤ payload.length ∧ msgHeaderLen + payload.length ≤ size) →
      (∀ call ∈ trace, ReadsInside size call.reply) →
      List.Forall₂ Delivers (trace.filter Positive) payloads →
      List.Forall₂ (TakesMessage size) (trace.filter Takes) payloads := by
  induction hrun with
  | nil start =>
    intro payloads frames _ _ _ _ _ hdelivers
    cases hdelivers
    exact .nil
  | @cons start middle final call reply rest hfirst hrest ih =>
    intro payloads frames hlisten hframes hstream hfits hinside hdelivers
    obtain ⟨hfirstInside, hrestInside⟩ := List.forall_mem_cons.mp hinside
    have hmiddle := hfirst.listening hlisten
    have hlength := length_flatten_frames hframes
    rw [← hstream] at hlength
    by_cases htakes : Takes ⟨start, call, reply⟩
    · have hmany : 8 ≤ call.amount := htakes.1
      have havailable := hfirst.2.1
      have hafter := hfirst.stream_of_takes hlisten htakes
      have hbytes := congrArg List.length hafter
      rw [List.length_drop] at hbytes
      rw [List.filter_cons_of_pos (by exact decide_eq_true htakes)]
      by_cases hpos : Positive ⟨start, call, reply⟩
      · rw [List.filter_cons_of_pos (by exact decide_eq_true hpos)] at hdelivers
        obtain ⟨payload, payloads, hpayload, hothers, rfl⟩ :=
          List.forall₂_cons_left_iff.mp hdelivers
        obtain ⟨frame, frames, hframe, hlaterFrames, rfl⟩ := List.forall₂_cons_left_iff.mp hframes
        obtain ⟨hfit, hothersFit⟩ := List.forall_mem_cons.mp hfits
        have hlater := messageBytes_le hrest hmiddle hothers
        have hamount : call.amount = msgHeaderLen + payload.length := by
          have hle := hfirst.le_amount hlisten hpos hpayload
          have hsum : messageBytes (payload :: payloads) =
            msgHeaderLen + payload.length + messageBytes payloads := rfl
          omega
        obtain ⟨hoffered, hleft⟩ := take_drop_flatten hframe hamount hstream
        exact .cons ((hfirst.delivers_iff hlisten htakes hframe hfit.1 hfit.2 hamount hoffered).mp
          ⟨hfirstInside, hpayload⟩)
          (ih hmiddle hlaterFrames (hafter.trans hleft) hothersFit hrestInside hothers)
      · rw [List.filter_cons_of_neg (by simpa using hpos)] at hdelivers
        have hlater := messageBytes_le hrest hmiddle hdelivers
        omega
    · obtain ⟨⟨hnone, -⟩, hsame, -⟩ := hfirst.leaves hlisten htakes
      rw [List.filter_cons_of_neg (by simpa using hnone)] at hdelivers
      rw [List.filter_cons_of_neg (by simpa using htakes)]
      exact ih hmiddle hframes (hsame.trans hstream) hfits hrestInside hdelivers

/-- Assumes: the stream is the frames of the payloads, and every call that takes bytes is offered
the frame of one payload. Then all calls access the block only, and the answers deliver the
payloads. -/
theorem delivers_of_takes (hrun : Run ReadStep start trace final) :
    ∀ {payloads frames}, Listening size start.client.buffer →
      List.Forall₂ FrameOf payloads frames → start.stream = frames.flatten →
      (∀ payload ∈ payloads, 1 ≤ payload.length ∧ msgHeaderLen + payload.length ≤ size) →
      List.Forall₂ (TakesMessage size) (trace.filter Takes) payloads →
      (∀ call ∈ trace, ReadsInside size call.reply) ∧
        List.Forall₂ Delivers (trace.filter Positive) payloads := by
  induction hrun with
  | nil start =>
    intro payloads frames _ _ _ _ htaken
    cases htaken
    exact ⟨nofun, .nil⟩
  | @cons start middle final call reply rest hfirst hrest ih =>
    intro payloads frames hlisten hframes hstream hfits htaken
    have hmiddle := hfirst.listening hlisten
    by_cases htakes : Takes ⟨start, call, reply⟩
    · rw [List.filter_cons_of_pos (by exact decide_eq_true htakes)] at htaken
      obtain ⟨payload, payloads, hpayload, hothers, rfl⟩ := List.forall₂_cons_left_iff.mp htaken
      obtain ⟨frame, frames, hframe, hlaterFrames, rfl⟩ := List.forall₂_cons_left_iff.mp hframes
      obtain ⟨hfit, hothersFit⟩ := List.forall_mem_cons.mp hfits
      have hamount : call.amount = msgHeaderLen + payload.length := hpayload.amount
      obtain ⟨hoffered, hleft⟩ := take_drop_flatten hframe hamount hstream
      have hafter := hfirst.stream_of_takes hlisten htakes
      obtain ⟨hinside, hdelivers⟩ :=
        (hfirst.delivers_iff hlisten htakes hframe hfit.1 hfit.2 hamount hoffered).mpr hpayload
      obtain ⟨hrestInside, hlater⟩ :=
        ih hmiddle hlaterFrames (hafter.trans hleft) hothersFit hothers
      rw [List.filter_cons_of_pos (by exact decide_eq_true (hdelivers.positive hfit.1))]
      exact ⟨List.forall_mem_cons.mpr ⟨hinside, hrestInside⟩, .cons hdelivers hlater⟩
    · obtain ⟨⟨hnone, hinside⟩, hsame, -⟩ := hfirst.leaves hlisten htakes
      rw [List.filter_cons_of_neg (by simpa using htakes)] at htaken
      rw [List.filter_cons_of_neg (by simpa using hnone)]
      obtain ⟨hrestInside, hdelivers⟩ := ih hmiddle hframes (hsame.trans hstream) hfits htaken
      exact ⟨List.forall_mem_cons.mpr ⟨hinside, hrestInside⟩, hdelivers⟩

end Runs

/-! ### The stream of a session -/

open TcpFraming in
/-- Assumes: a reliable network, and messages that can be set, whose frames have lengths that are
`int`s. A run of a session that sends them puts their frames on the stream. -/
theorem frames_of_sends {σ : Type} {net : Network σ} {inFlight : σ → List UInt8}
    (hnet : Reliable net inFlight) {start final : Link σ}
    {trace : List (Call (Link σ) Action Reply)} (hrun : Run (Step net) start trace final) :
    ∀ {messages : List Message}, trace.map Call.label = messages.map Action.send →
      (∀ message ∈ messages, message.Settable ∧ message.Short) →
      ∃ frames, List.Forall₂ FrameOf (messages.map Message.body) frames ∧
        inFlight final.socket = inFlight start.socket ++ frames.flatten := by
  induction hrun with
  | nil start =>
    intro messages hsends _
    obtain rfl := List.map_eq_nil_iff.mp hsends.symm
    exact ⟨[], .nil, (List.append_nil _).symm⟩
  | @cons start middle final action reply rest hfirst _ ih =>
    intro messages hsends hmessages
    obtain ⟨message, messages, rfl, rfl, hlater⟩ := List.map_eq_cons_iff.mp hsends.symm
    obtain ⟨hmessage, hothers⟩ := List.forall_mem_cons.mp hmessages
    obtain ⟨session, socket, hperform, header, hannounces, hsocket⟩ :=
      perform_send_short hnet start hmessage.1 hmessage.2
    obtain ⟨-, rfl⟩ := Prod.mk.inj (Except.ok.inj (hperform.symm.trans hfirst))
    obtain ⟨frames, hframes, hfinal⟩ := ih hlater.symm hothers
    refine ⟨(header ++ message.body) :: frames, .cons ⟨header, hannounces, rfl⟩ hframes, ?_⟩
    rw [hfinal, hsocket, List.flatten_cons, List.append_assoc]

/-- Assumes: a client with a buffer that was allocated with a header, and a stream that is the
frames of payloads of 1 byte or more that fit the buffer. In every run of calls of `read`, whatever
`available` reports, all accesses are inside the block and the positive answers deliver the payloads
in order exactly when the calls that take bytes are offered one frame each, in order, whose length
is an `int` and whose payload ends its C string in the block and is not taken for an exit message,
and the targets are such that no more is copied than there is. -/
theorem read_messages_iff {start final : Receiver} {trace : List AnsweredRead}
    (hrun : Run ReadStep start trace final) {size : ℕ}
    (hlisten : Listening size start.client.buffer) {payloads frames : List (List UInt8)}
    (hframes : List.Forall₂ FrameOf payloads frames) (hstream : start.stream = frames.flatten)
    (hfits : ∀ payload ∈ payloads,
      1 ≤ payload.length ∧ msgHeaderLen + payload.length ≤ size) :
    ((∀ call ∈ trace, ReadsInside size call.reply) ∧
        List.Forall₂ Delivers (trace.filter Positive) payloads) ↔
      List.Forall₂ (TakesMessage size) (trace.filter Takes) payloads :=
  ⟨fun h ↦ takes_of_delivers hrun hlisten hframes hstream hfits h.1 h.2,
    delivers_of_takes hrun hlisten hframes hstream hfits⟩

/-- A client with a new buffer of 64 bytes. -/
def newClient : CTcpClient := newTcpClient 64

theorem listening_newClient : Listening 64 newClient.buffer :=
  ⟨⟨_, hasHeader_newTcpClient 64 (by decide) (by decide)⟩, rfl, by decide⟩

/-- The frame of a message in a new header, from a session without a type. -/
def newFrame (body : List UInt8) : List UInt8 :=
  encoded (List.replicate msgHeaderLen 0) (some []) body.length ++ body

theorem frameOf_newFrame {body : List UInt8} (hlt : body.length < 2 ^ 32) :
    FrameOf body (newFrame body) :=
  ⟨_, announces_encoded List.length_replicate _ hlt, rfl⟩

theorem frames_newFrame : List.Forall₂ FrameOf [[7], [8]] [newFrame [7], newFrame [8]] :=
  .cons (frameOf_newFrame (by decide)) (.cons (frameOf_newFrame (by decide)) .nil)

/-- A call of `read` without a target. -/
def plainRead (amount : ℕ) : ReadCall := ⟨false, 0, [], amount, 0⟩

/-- A message of one byte that is no exit message. -/
theorem takesMessage_plainRead {before : Receiver} {reply : Outcome CTcpClient ReadAnswer}
    {byte : UInt8} (hnoExit : ¬ReadsAsExit [byte]) :
    TakesMessage 64 ⟨before, plainRead 21, reply⟩ [byte] :=
  ⟨rfl, (by decide : 21 < 2 ^ 31), .inr (by decide : 21 < 64), hnoExit, nofun⟩

theorem read_messages_iff_two :
    ∃ trace final, Run ReadStep ⟨newClient, newFrame [7] ++ newFrame [8]⟩ trace final ∧
      trace.map Call.label = [plainRead 21, plainRead 5, plainRead 21] ∧
      (∀ call ∈ trace, ReadsInside 64 call.reply) ∧
      List.Forall₂ Delivers (trace.filter Positive) [[7], [8]] := by
  have hexists : ∃ trace final, Run ReadStep ⟨newClient, newFrame [7] ++ newFrame [8]⟩ trace final ∧
      trace.map Call.label = [plainRead 21, plainRead 5, plainRead 21] ∧
      List.Forall₂ (TakesMessage 64) (trace.filter Takes) [[7], [8]] := by
    refine Run.exists_cons _ ⟨by decide, by decide, rfl, rfl⟩ <|
      Run.exists_cons _ ⟨by decide, by decide, rfl, rfl⟩ <|
      Run.exists_cons _ ⟨by decide, by decide, rfl, rfl⟩ ⟨_, _, .nil _, rfl, ?_⟩
    rw [List.filter_cons_of_pos (by decide), List.filter_cons_of_neg (by decide),
      List.filter_cons_of_pos (by decide)]
    exact .cons (takesMessage_plainRead (by decide))
      (.cons (takesMessage_plainRead (by decide)) .nil)
  obtain ⟨trace, final, hrun, hlabels, htaken⟩ := hexists
  exact ⟨trace, final, hrun, hlabels,
    (read_messages_iff hrun listening_newClient frames_newFrame rfl (by decide)).mpr htaken⟩

/-- Both frames are available when `read` is called, and it answers with one message of 22 bytes. -/
theorem coalesced_messages_are_one :
    List.Forall₂ FrameOf [[7], [8]] [newFrame [7], newFrame [8]] ∧
      ∃ trace final, Run ReadStep ⟨newClient, newFrame [7] ++ newFrame [8]⟩ trace final ∧
        trace.map Call.label = [plainRead 42] ∧
        trace.map (fun call ↦ call.reply.answer.result) = [22] ∧
        (∀ call ∈ trace, ReadsInside 64 call.reply) ∧ final.stream = [] ∧
        ¬List.Forall₂ Delivers (trace.filter Positive) [[7], [8]] := by
  refine ⟨frames_newFrame, ?_⟩
  refine Run.exists_cons _ ⟨by decide, by decide, rfl, rfl⟩
    ⟨_, _, .nil _, rfl, by decide, ?_, by decide, fun hdelivers ↦ ?_⟩
  · rw [List.forall_mem_singleton]
    decide
  · exact absurd (hdelivers.length_eq.symm.trans_le (List.length_filter_le ..))
      (show ¬2 ≤ 1 by decide)

end RdbLibs.NetIO.CClientIO
