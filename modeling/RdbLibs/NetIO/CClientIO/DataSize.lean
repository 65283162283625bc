import RdbLibs.NetIO.CClientIO.BufferBounds

/-!
# The size of the data of a client

When the header and the data fit the buffer, in all states of a client. `m_nCurrDataLen` is the
length of the data without the header for `setBuffer`, `appendBuffer` and `write`, and with it for
`setDataSize` and `read`; and a buffer that is allocated without a header keeps the header size of
the one before.
-/

set_option autoImplicit false
set_option relaxedAutoImplicit false

namespace RdbLibs.NetIO.CClientIO

open BlockAccess ByteCodec MachineWord Runs

/-- The header and the data fit the buffer. -/
def DataFits (b : ClientBuffer) : Prop := b.m_nHeaderSize + b.m_nCurrDataLen ≤ b.m_nBufferSize

/-! ### Calls on the buffer -/

/-- The condition on a call on the buffer under which the header and the data still fit. -/
def KeepsFit (b : ClientBuffer) : BufferCall → Prop
  | .allocBuffer nSize false true => 2 ≤ nSize → b.m_nHeaderSize ≤ nSize
  | .setBuffer (.bytes values) => PassesCheck b values.length b.m_nHeaderSize →
      b.m_nHeaderSize + values.length < 2 ^ 32
  | .appendBuffer (.bytes values) =>
      PassesCheck b values.length (toUnsigned (b.m_nHeaderSize + b.m_nCurrDataLen)) →
        b.m_nHeaderSize + b.m_nCurrDataLen + values.length < 2 ^ 32 ∨
          2 ^ 32 ≤ b.m_nCurrDataLen + values.length
  | .setDataSize nLen => nLen ≤ unsignedSub b.m_nBufferSize b.m_nHeaderSize →
      b.m_nHeaderSize + (b.m_nHeaderSize + nLen) ≤ b.m_nBufferSize
  | _ => True

variable {b : ClientBuffer}

theorem dataFits_allocBuffer (hfits : DataFits b) (nSize : ℕ) (bAllocBufHeader granted : Bool) :
    DataFits (b.allocBuffer nSize bAllocBufHeader granted).after ↔
      KeepsFit b (.allocBuffer nSize bAllocBufHeader granted) := by
  unfold ClientBuffer.allocBuffer
  by_cases hsmall : nSize < (if bAllocBufHeader then msgHeaderLen + 2 else 2)
  · rw [if_pos hsmall]
    refine iff_of_true hfits ?_
    cases bAllocBufHeader with
    | true => trivial
    | false =>
      cases granted with
      | false => trivial
      | true => exact fun hlarge ↦ absurd hlarge (not_le.mpr hsmall)
  · rw [if_neg hsmall]
    cases granted with
    | false => exact iff_of_true hfits (by cases bAllocBufHeader <;> trivial)
    | true =>
      cases bAllocBufHeader with
      | false =>
        show b.m_nHeaderSize + 0 ≤ nSize ↔ (2 ≤ nSize → b.m_nHeaderSize ≤ nSize)
        exact ⟨fun hle _ ↦ hle, fun hcondition ↦ hcondition (not_lt.mp hsmall)⟩
      | true =>
        refine iff_of_true ?_ trivial
        exact (Nat.le_add_right msgHeaderLen 2).trans (not_lt.mp hsmall)

theorem dataFits_freeBuffer (hfits : DataFits b) : DataFits b.freeBuffer.after := by
  unfold ClientBuffer.freeBuffer
  cases b.m_pDataBuffer with
  | none =>
    show 0 + b.m_nCurrDataLen ≤ b.m_nBufferSize
    unfold DataFits at hfits
    omega
  | some cells => exact le_rfl

theorem dataFits_clearBuffer (hfits : DataFits b) : DataFits b.clearBuffer.after := by
  unfold ClientBuffer.clearBuffer
  cases b.m_pDataBuffer with
  | none => exact hfits
  | some cells => exact (Nat.le_add_right ..).trans hfits

theorem dataFits_setBuffer (hwell : b.WellFormed) (hfits : DataFits b) (values : List UInt8) :
    DataFits (b.setBuffer (.bytes values)).after ↔ KeepsFit b (.setBuffer (.bytes values)) := by
  have hsize := hwell.size_lt
  unfold KeepsFit PassesCheck ClientBuffer.setBuffer
  dsimp only
  by_cases hempty : values.length < 1
  · rw [if_pos hempty]
    exact iff_of_true hfits fun hpass ↦ absurd hpass.1 (not_le.mpr hempty)
  · rw [if_neg hempty]
    by_cases hlarge : b.m_nBufferSize < toUnsigned (values.length + b.m_nHeaderSize)
    · rw [if_pos hlarge]
      exact iff_of_true hfits fun hpass ↦ absurd hpass.2 (not_le.mpr hlarge)
    · rw [if_neg hlarge]
      have hstored : b.m_nHeaderSize + values.length ≤ b.m_nBufferSize ↔
          (1 ≤ values.length ∧ toUnsigned (values.length + b.m_nHeaderSize) ≤ b.m_nBufferSize →
            b.m_nHeaderSize + values.length < 2 ^ 32) := by
        refine ⟨fun hle _ ↦ hle.trans_lt hsize, fun hcondition ↦ ?_⟩
        have hwrap := hcondition ⟨not_lt.mp hempty, not_lt.mp hlarge⟩
        rw [toUnsigned_of_lt (by omega)] at hlarge
        omega
      split_ifs
      · exact hstored
      · exact hstored

theorem dataFits_appendBuffer (hwell : b.WellFormed) (hfits : DataFits b) {values : List UInt8}
    (hlegal : values.length < 2 ^ 32) :
    DataFits (b.appendBuffer (.bytes values)).after ↔
      KeepsFit b (.appendBuffer (.bytes values)) := by
  have hsize := hwell.size_lt
  have hbefore : b.m_nHeaderSize + b.m_nCurrDataLen ≤ b.m_nBufferSize := hfits
  unfold KeepsFit PassesCheck ClientBuffer.appendBuffer
  dsimp only
  rw [toUnsigned_of_lt (hbefore.trans_lt hsize)]
  by_cases hempty : values.length < 1
  · rw [if_pos hempty]
    exact iff_of_true hfits fun hpass ↦ absurd hpass.1 (not_le.mpr hempty)
  · rw [if_neg hempty]
    by_cases hlarge : b.m_nBufferSize <
        toUnsigned (values.length + (b.m_nHeaderSize + b.m_nCurrDataLen))
    · rw [if_pos hlarge]
      exact iff_of_true hfits fun hpass ↦ absurd hpass.2 (not_le.mpr hlarge)
    · rw [if_neg hlarge]
      show b.m_nHeaderSize + toUnsigned (b.m_nCurrDataLen + values.length) ≤ b.m_nBufferSize ↔ _
      have hcheck := not_lt.mp hlarge
      constructor
      · intro hafter _
        by_contra hcondition
        rw [not_or, not_lt, not_le] at hcondition
        rw [toUnsigned_of_lt hcondition.2] at hafter
        omega
      · intro hcondition
        unfold toUnsigned at hcheck ⊢
        rcases hcondition ⟨not_lt.mp hempty, hcheck⟩ with hsum | hsum
        · omega
        · omega

theorem dataFits_setDataSize (hwell : b.WellFormed) (hfits : DataFits b) (nLen : ℕ) :
    DataFits (b.setDataSize nLen).after ↔ KeepsFit b (.setDataSize nLen) := by
  have hsize := hwell.size_lt
  have hheader : b.m_nHeaderSize ≤ b.m_nBufferSize := (Nat.le_add_right ..).trans hfits
  unfold KeepsFit ClientBuffer.setDataSize
  dsimp only
  by_cases hlarge : unsignedSub b.m_nBufferSize b.m_nHeaderSize < nLen
  · rw [if_pos hlarge]
    exact iff_of_true hfits fun hle ↦ absurd hle (not_le.mpr hlarge)
  · rw [if_neg hlarge]
    show b.m_nHeaderSize + toUnsigned (b.m_nHeaderSize + nLen) ≤ b.m_nBufferSize ↔ _
    rw [unsignedSub_of_le hheader hsize] at hlarge ⊢
    rw [toUnsigned_of_lt (by omega)]
    exact ⟨fun hafter _ ↦ hafter, fun hcondition ↦ hcondition (not_lt.mp hlarge)⟩

/-- After a call on the buffer the header and the data fit exactly when the call meets the
condition. -/
theorem dataFits_answer_iff (hwell : b.WellFormed) (hfits : DataFits b) {call : BufferCall}
    (hlegal : call.Legal) : DataFits (b.answer call).after ↔ KeepsFit b call := by
  cases call with
  | allocBuffer nSize bAllocBufHeader granted =>
    exact dataFits_allocBuffer hfits nSize bAllocBufHeader granted
  | freeBuffer => exact iff_of_true (dataFits_freeBuffer hfits) trivial
  | clearBuffer => exact iff_of_true (dataFits_clearBuffer hfits) trivial
  | setBuffer source =>
    cases source with
    | null nLen => exact iff_of_true hfits trivial
    | bytes values => exact dataFits_setBuffer hwell hfits values
  | appendBuffer source =>
    cases source with
    | null nLen => exact iff_of_true hfits trivial
    | bytes values => exact dataFits_appendBuffer hwell hfits hlegal
  | getBuffer pTarget nLen nStartingAt behind =>
    exact iff_of_true ((b.after_getBuffer pTarget nLen nStartingAt behind).symm ▸ hfits) trivial
  | setDataSize nLen => exact dataFits_setDataSize hwell hfits nLen

/-! ### `read` and `write` -/

/-- A call that leaves the header size, the buffer size and the block, but for its bytes. -/
structure SameRoom (b b' : ClientBuffer) : Prop where
  header : b'.m_nHeaderSize = b.m_nHeaderSize
  size : b'.m_nBufferSize = b.m_nBufferSize
  block : ∀ cells', b'.m_pDataBuffer = some cells' →
    ∃ cells, b.m_pDataBuffer = some cells ∧ cells'.length = cells.length

theorem SameRoom.refl (b : ClientBuffer) : SameRoom b b := ⟨rfl, rfl, fun cells h ↦ ⟨cells, h, rfl⟩⟩

theorem SameRoom.trans {b₁ b₂ b₃ : ClientBuffer} (h : SameRoom b₁ b₂) (h' : SameRoom b₂ b₃) :
    SameRoom b₁ b₃ where
  header := h'.header.trans h.header
  size := h'.size.trans h.size
  block := by
    intro cells hcells
    obtain ⟨middle, hmiddle, hlength⟩ := h'.block cells hcells
    obtain ⟨first, hfirst, hlength'⟩ := h.block middle hmiddle
    exact ⟨first, hfirst, hlength.trans hlength'⟩

theorem SameRoom.update (b : ClientBuffer) {write : List UInt8 → List UInt8}
    (hwrite : ∀ cells, (write cells).length = cells.length) : SameRoom b (b.update write) where
  header := rfl
  size := rfl
  block := by
    intro cells hcells
    obtain ⟨old, hold, rfl⟩ := Option.map_eq_some_iff.mp hcells
    exact ⟨old, hold, hwrite old⟩

theorem SameRoom.clearBuffer (b : ClientBuffer) : SameRoom b b.clearBuffer.after := by
  unfold ClientBuffer.clearBuffer
  cases hdata : b.m_pDataBuffer with
  | none => exact .refl b
  | some cells =>
    refine ⟨rfl, rfl, fun cells' hcells' ↦ ⟨cells, hdata, ?_⟩⟩
    rw [← Option.some.inj hcells']
    exact length_fill ..

/-- The pointer to the header and the length of the data are not room. -/
theorem SameRoom.setFields {b' : ClientBuffer} (h : SameRoom b b') (pointer : HeaderPointer)
    (nLen : ℕ) : SameRoom b { b' with m_pBufferHeader := pointer, m_nCurrDataLen := nLen } :=
  ⟨h.header, h.size, h.block⟩

theorem SameRoom.wellFormed {b' : ClientBuffer} (h : SameRoom b b') (hwell : b.WellFormed)
    (hlen : b'.m_nCurrDataLen < 2 ^ 32) : b'.WellFormed where
  header := by
    rw [h.header]
    exact hwell.header
  block := by
    intro cells hcells
    obtain ⟨old, hold, hlength⟩ := h.block cells hcells
    rw [h.size, hlength]
    exact hwell.block old hold
  size_lt := by
    rw [h.size]
    exact hwell.size_lt
  length_lt := hlen

/-- A call that stores a length under a condition, and else leaves the length or sets it to zero. -/
structure StoresLength (b b' : ClientBuffer) (condition : Prop) (nLen : ℕ) : Prop where
  room : SameRoom b b'
  stores : condition → b'.m_nCurrDataLen = nLen
  leaves : ¬condition → b'.m_nCurrDataLen ≤ b.m_nCurrDataLen

theorem StoresLength.of_leaves {b' : ClientBuffer} {condition : Prop} {nLen : ℕ}
    (hroom : SameRoom b b') (hcondition : ¬condition)
    (hleaves : b'.m_nCurrDataLen ≤ b.m_nCurrDataLen) : StoresLength b b' condition nLen :=
  ⟨hroom, fun h ↦ absurd h hcondition, fun _ ↦ hleaves⟩

theorem StoresLength.of_stores {b' : ClientBuffer} {condition : Prop} {nLen : ℕ}
    (hroom : SameRoom b b') (hcondition : condition) (hstores : b'.m_nCurrDataLen = nLen) :
    StoresLength b b' condition nLen :=
  ⟨hroom, fun _ ↦ hstores, fun h ↦ absurd hcondition h⟩

theorem StoresLength.wellFormed {b' : ClientBuffer} {condition : Prop} {nLen : ℕ}
    (h : StoresLength b b' condition nLen) (hwell : b.WellFormed) (hlen : nLen < 2 ^ 32) :
    b'.WellFormed := by
  refine h.room.wellFormed hwell ?_
  by_cases hcondition : condition
  · rw [h.stores hcondition]
    exact hlen
  · exact (h.leaves hcondition).trans_lt hwell.length_lt

/-- After such a call the header and the data fit exactly when they do with a length that is
stored. -/
theorem StoresLength.dataFits_iff {b' : ClientBuffer} {condition : Prop} {nLen : ℕ}
    (h : StoresLength b b' condition nLen) (hfits : DataFits b) :
    DataFits b' ↔ (condition → b.m_nHeaderSize + nLen ≤ b.m_nBufferSize) := by
  unfold DataFits at hfits ⊢
  rw [h.room.header, h.room.size]
  by_cases hcondition : condition
  · rw [h.stores hcondition]
    exact ⟨fun hle _ ↦ hle, fun hle ↦ hle hcondition⟩
  · have hle := h.leaves hcondition
    exact iff_of_true (by omega) fun hpos ↦ absurd hpos hcondition

theorem length_clearBuffer_le (b : ClientBuffer) :
    b.clearBuffer.after.m_nCurrDataLen ≤ b.m_nCurrDataLen := by
  unfold ClientBuffer.clearBuffer
  cases b.m_pDataBuffer with
  | none => exact le_rfl
  | some cells => exact Nat.zero_le _

/-- The memory in which `read` looks for the text of an exit message: the cleared buffer and what is
behind it, with the bytes that were received. -/
def receivedMemory (b : ClientBuffer) (behind bytes : List UInt8) : List UInt8 :=
  overwrite (b.clearBuffer.after.m_pDataBuffer.getD [] ++ behind) 0 bytes

/-- `CTcpClient::read` receives bytes that it does not take for an exit message. -/
def CTcpClient.Receives (b : ClientBuffer) (pTarget : Bool) (nLen : ℕ) (behind : List UInt8) :
    Arrival → Prop
  | .available bytes received _ =>
    ¬(b.m_pDataBuffer = none ∧ (pTarget = false ∨ nLen < 1)) ∧
      ¬(if pTarget then nLen else b.m_nBufferSize) < 1 ∧ ¬bytes.length < 8 ∧
      ¬received < bytes.length ∧ ¬toInt bytes.length < 1 ∧
      ¬(4 ≤ toInt bytes.length ∧ strCompare exitText
        (cString ((receivedMemory b behind bytes).drop b.m_nHeaderSize)) 4 = .equal)
  | _ => False

/-- The number of bytes that `available` reports, as an `int` and back. -/
def CTcpClient.receivedLength : Arrival → ℕ
  | .available bytes _ _ => intToUnsigned (toInt bytes.length)
  | _ => 0

theorem CTcpClient.storesLength_finishRead (client : CTcpClient) (pTarget : Bool) (nLen : ℕ)
    (memory : List UInt8) (accesses : List Access) (taken : ℕ) :
    StoresLength client.buffer
      (client.finishRead pTarget nLen memory accesses taken).after.buffer
      (¬toInt taken < 1 ∧ ¬(4 ≤ toInt taken ∧
        strCompare exitText (cString (memory.drop client.buffer.m_nHeaderSize)) 4 = .equal))
      (intToUnsigned (toInt taken)) := by
  have hroom (nLen : ℕ) : SameRoom client.buffer { client.buffer with m_nCurrDataLen := nLen } :=
    (SameRoom.refl client.buffer).setFields _ nLen
  unfold CTcpClient.finishRead
  dsimp only
  split_ifs with hshort hexit
  · exact .of_leaves (hroom 0) (fun h ↦ h.1 hshort) (Nat.zero_le _)
  · exact .of_leaves (hroom 0) (fun h ↦ h.2 hexit) (Nat.zero_le _)
  · cases copyLength pTarget nLen _ with
    | none => exact .of_stores (hroom _) ⟨hshort, hexit⟩ rfl
    | some count => exact .of_stores (hroom _) ⟨hshort, hexit⟩ rfl

theorem CTcpClient.hasTarget_of_receives {client : CTcpClient} {pTarget : Bool} {nLen : ℕ}
    {behind : List UInt8} {arrival : Arrival}
    (h : CTcpClient.Receives client.buffer pTarget nLen behind arrival) :
    client.HasTarget pTarget nLen := by
  cases arrival with
  | available bytes received elapsed => exact ⟨h.1, h.2.1⟩
  | _ => exact h.elim

theorem CTcpClient.not_receives_of_few {pTarget : Bool} {nLen : ℕ} {behind : List UInt8}
    {arrival : Arrival} (hfew : ∀ bytes received elapsed,
      arrival = .available bytes received elapsed → bytes.length < 8) :
    ¬CTcpClient.Receives b pTarget nLen behind arrival := by
  cases arrival with
  | available bytes received elapsed => exact fun h ↦ h.2.2.1 (hfew bytes received elapsed rfl)
  | _ => exact id

theorem SameRoom.receive (client : CTcpClient) (bytes : List UInt8) :
    SameRoom client.buffer (client.receive bytes).buffer :=
  (SameRoom.clearBuffer client.buffer).trans (.update _ (length_overwrite · 0 bytes))

theorem CTcpClient.storesLength_read (client : CTcpClient) (pTarget : Bool) (nLen : ℕ)
    (behind : List UInt8) (arrival : Arrival) :
    StoresLength client.buffer (client.read pTarget nLen behind arrival).after.buffer
      (CTcpClient.Receives client.buffer pTarget nLen behind arrival)
      (CTcpClient.receivedLength arrival) := by
  have hlength := length_clearBuffer_le client.buffer
  have hcase := client.readCase pTarget nLen behind arrival
  generalize client.read pTarget nLen behind arrival = outcome at hcase ⊢
  cases hcase with
  | refuses _ result _ htarget =>
    exact .of_leaves (.refl _) (fun h ↦ htarget (hasTarget_of_receives h)) le_rfl
  | leaves _ result connected _ _ hfew =>
    exact .of_leaves (SameRoom.clearBuffer client.buffer) (not_receives_of_few hfew) hlength
  | fails bytes received elapsed _ _ hfailed =>
    exact .of_leaves (.receive client _) (fun h ↦ h.2.2.2.1 hfailed) hlength
  | finishes bytes received elapsed htarget hmany hreceived =>
    have hfinish := (client.receive bytes).storesLength_finishRead pTarget nLen
      (receivedMemory client.buffer behind bytes)
      (client.buffer.clearBuffer.accesses ++ [⟨0, bytes.length⟩]) bytes.length
    rw [(SameRoom.receive client bytes).header] at hfinish
    refine ⟨(SameRoom.receive client bytes).trans hfinish.room,
      fun h ↦ hfinish.stores h.2.2.2.2, fun h ↦ ?_⟩
    refine (hfinish.leaves fun hrest ↦ h ?_).trans hlength
    exact ⟨htarget.1, htarget.2, not_lt.mpr hmany, not_lt.mpr hreceived, hrest⟩

/-- `CUdpClient::read` receives a datagram. -/
def CUdpClient.Receives (b : ClientBuffer) (pTarget : Bool) (nLen : ℕ) :
    Option (List UInt8) → Prop
  | some datagram =>
    ¬(b.m_pDataBuffer = none ∧ (pTarget = false ∨ nLen < 1)) ∧ ¬b.m_nBufferSize < nLen ∧
      ¬toInt (min b.m_nBufferSize datagram.length) < 1
  | none => False

/-- The number of bytes of a datagram that fit the buffer, as an `int` and back. -/
def CUdpClient.receivedLength (b : ClientBuffer) : Option (List UInt8) → ℕ
  | some datagram => intToUnsigned (toInt (min b.m_nBufferSize datagram.length))
  | none => 0

theorem CUdpClient.storesLength_read (client : CUdpClient) (pTarget : Bool) (nLen : ℕ)
    (behind : List UInt8) (arrival : Option (List UInt8)) :
    StoresLength client.buffer (client.read pTarget nLen behind arrival).after.buffer
      (CUdpClient.Receives client.buffer pTarget nLen arrival)
      (CUdpClient.receivedLength client.buffer arrival) := by
  have hclear := SameRoom.clearBuffer client.buffer
  have hlength := length_clearBuffer_le client.buffer
  unfold CUdpClient.read CUdpClient.clearBuffer CUdpClient.onBuffer
  dsimp only
  by_cases hnull : client.buffer.m_pDataBuffer = none ∧ (pTarget = false ∨ nLen < 1)
  · rw [if_pos hnull]
    refine .of_leaves (.refl _) (fun h ↦ ?_) le_rfl
    cases arrival with
    | none => exact h
    | some datagram => exact h.1 hnull
  rw [if_neg hnull]
  by_cases hlarge : client.buffer.m_nBufferSize < nLen
  · rw [if_pos hlarge]
    refine .of_leaves (.refl _) (fun h ↦ ?_) le_rfl
    cases arrival with
    | none => exact h
    | some datagram => exact h.2.1 hlarge
  rw [if_neg hlarge]
  cases arrival with
  | none => exact .of_leaves hclear id hlength
  | some datagram =>
    dsimp only
    rw [List.length_take, hclear.size]
    have hroom (nLen : ℕ) := (hclear.trans (.update client.buffer.clearBuffer.after
      (length_overwrite · 0 (datagram.take client.buffer.m_nBufferSize)))).setFields
        client.buffer.clearBuffer.after.m_pBufferHeader nLen
    by_cases hshort : toInt (min client.buffer.m_nBufferSize datagram.length) < 1
    · rw [if_pos hshort]
      exact .of_leaves (hroom 0) (fun h ↦ h.2.2 hshort) (Nat.zero_le _)
    rw [if_neg hshort]
    cases copyLength pTarget nLen _ with
    | none => exact .of_stores (hroom _) ⟨hnull, hlarge, hshort⟩ rfl
    | some count => exact .of_stores (hroom _) ⟨hnull, hlarge, hshort⟩ rfl

/-- `CTcpClient::write` of the bytes of a caller does not send them. -/
def CTcpClient.FailsToSend (b : ClientBuffer) (sent : Bool) : Source → Prop
  | .bytes values => ¬values.length < 1 ∧ ¬b.m_nBufferSize < values.length ∧ sent = false
  | .null _ => False

theorem CTcpClient.finishWrite_cases (client : CTcpClient) (dataSize : ℕ) (behind : List UInt8)
    (accesses : List Access) (sent : Bool) :
    (client.finishWrite dataSize behind accesses sent).answer.sends = some ⟨0, dataSize⟩ ∧
      (client.finishWrite dataSize behind accesses sent).after.buffer =
        if sent = false then client.buffer else { client.buffer with m_nCurrDataLen := 0 } := by
  cases sent with
  | false => exact ⟨rfl, rfl⟩
  | true => exact ⟨rfl, rfl⟩

/-- A write without bytes sends what is in the buffer. -/
theorem CTcpClient.storesLength_write_null (client : CTcpClient) (nLen : ℕ)
    (behind : List UInt8) (sent : Bool) :
    StoresLength client.buffer (client.write (.null nLen) behind sent).after.buffer False nLen := by
  unfold CTcpClient.write
  dsimp only
  split_ifs
  · exact .of_leaves (.refl _) id le_rfl
  · exact .of_leaves (.refl _) id le_rfl
  · exact .of_leaves (.refl _) id le_rfl
  · rw [(finishWrite_cases ..).2]
    have hroom (nLen : ℕ) := (SameRoom.update client.buffer (length_overwrite · 12
      (littleEndian 4 client.buffer.m_nCurrDataLen))).setFields .block nLen
    split_ifs
    · exact .of_leaves (hroom _) id le_rfl
    · exact .of_leaves (hroom 0) id (Nat.zero_le _)
  · rw [(finishWrite_cases ..).2]
    split_ifs
    · exact .of_leaves (.refl _) id le_rfl
    · exact .of_leaves ((SameRoom.refl client.buffer).setFields _ 0) id (Nat.zero_le _)

/-- The end of a write that has copied the bytes of its caller into the buffer. -/
theorem CTcpClient.storesLength_copied (client : CTcpClient) {values : List UInt8}
    (hsome : ¬values.length < 1) (hfits : ¬client.buffer.m_nBufferSize < values.length)
    {buffer : ClientBuffer} (hroom : SameRoom client.buffer buffer) (dataSize : ℕ)
    (behind : List UInt8) (accesses : List Access) (sent : Bool) :
    StoresLength client.buffer (CTcpClient.finishWrite { client with buffer :=
        { buffer.update (overwrite · client.buffer.m_nHeaderSize values) with
          m_nCurrDataLen := values.length } } dataSize behind accesses sent).after.buffer
      (CTcpClient.FailsToSend client.buffer sent (.bytes values)) values.length := by
  have hcopied (nLen : ℕ) := (hroom.trans (.update buffer
    (length_overwrite · client.buffer.m_nHeaderSize values))).setFields
      buffer.m_pBufferHeader nLen
  rw [(finishWrite_cases ..).2]
  by_cases hfailed : sent = false
  · rw [if_pos hfailed]
    exact .of_stores (hcopied _) ⟨hsome, hfits, hfailed⟩ rfl
  · rw [if_neg hfailed]
    exact .of_leaves (hcopied 0) (fun h ↦ hfailed h.2.2) (Nat.zero_le _)

theorem CTcpClient.storesLength_write (client : CTcpClient) (source : Source)
    (behind : List UInt8) (sent : Bool) :
    StoresLength client.buffer (client.write source behind sent).after.buffer
      (CTcpClient.FailsToSend client.buffer sent source) source.nLen := by
  cases source with
  | null nLen => exact client.storesLength_write_null nLen behind sent
  | bytes values =>
    unfold CTcpClient.write
    dsimp only
    by_cases hempty : values.length < 1
    · split_ifs
      · exact .of_leaves (.refl _) (fun h ↦ h.1 hempty) le_rfl
      · exact .of_leaves (.refl _) (fun h ↦ h.1 hempty) le_rfl
    rw [if_neg (fun h ↦ hempty h.2), if_neg hempty]
    by_cases hlarge : client.buffer.m_nBufferSize < values.length
    · rw [if_pos hlarge]
      exact .of_leaves (.refl _) (fun h ↦ h.2.1 hlarge) le_rfl
    rw [if_neg hlarge]
    have hheader := (SameRoom.update client.buffer fun cells ↦
      (length_overwrite (client.setStreamType (initializedHeader cells)) 12
        (littleEndian 4 values.length)).trans
          ((length_overwrite ..).trans (ClientBuffer.length_initializedHeader cells))).setFields
            .block client.buffer.m_nCurrDataLen
    split_ifs
    · exact client.storesLength_copied hempty hlarge hheader _ _ _ _
    · exact client.storesLength_copied hempty hlarge (.refl _) _ _ _ _

theorem CUdpClient.sameRoom_setHeaderLength (client : CUdpClient) (nDataLen : ℕ) :
    SameRoom client.buffer (client.setHeaderLength nDataLen).buffer := by
  unfold CUdpClient.setHeaderLength
  cases client.buffer.m_pBufferHeader with
  | block => exact .update client.buffer (length_overwrite · 12 (littleEndian 4 nDataLen))
  | null => exact .refl _
  | freed => exact .refl _

theorem CUdpClient.length_setHeaderLength (client : CUdpClient) (nDataLen : ℕ) :
    (client.setHeaderLength nDataLen).buffer.m_nCurrDataLen = client.buffer.m_nCurrDataLen := by
  unfold CUdpClient.setHeaderLength
  cases client.buffer.m_pBufferHeader <;> rfl

theorem CUdpClient.storesLength_write (client : CUdpClient) (source : Source)
    (behind : List UInt8) (sent : Bool) :
    StoresLength client.buffer (client.write source behind sent).after.buffer False 0 := by
  have hfinish {client' : CUdpClient} (hroom : SameRoom client.buffer client'.buffer)
      (hlength : client'.buffer.m_nCurrDataLen = client.buffer.m_nCurrDataLen)
      (sends : Option Access) (bytes : List UInt8) (dataSize : ℕ) (accesses : List Access) :
      StoresLength client.buffer
        (client'.finishWrite sends bytes dataSize accesses sent).after.buffer False 0 := by
    cases sent with
    | false => exact .of_leaves hroom id hlength.le
    | true => exact .of_leaves (hroom.setFields _ 0) id (Nat.zero_le _)
  unfold CUdpClient.write
  cases source with
  | null nLen =>
    dsimp only
    by_cases hnone : client.buffer.m_pDataBuffer = none
    · rw [if_pos hnone]
      exact .of_leaves (.refl _) id le_rfl
    rw [if_neg hnone]
    by_cases hlong : 0 < nLen
    · rw [if_pos hlong]
      exact .of_leaves (.refl _) id le_rfl
    rw [if_neg hlong]
    by_cases hheader : client.buffer.m_nHeaderSize = msgHeaderLen
    · rw [if_pos hheader]
      exact hfinish (client.sameRoom_setHeaderLength _) (client.length_setHeaderLength _) _ _ _ _
    · rw [if_neg hheader]
      exact hfinish (.refl _) rfl _ _ _ _
  | bytes values =>
    dsimp only
    split_ifs
    · exact .of_leaves (.refl _) id le_rfl
    · exact .of_leaves (.refl _) id le_rfl
    · exact hfinish (.refl _) rfl _ _ _ _

/-! ### Runs -/

/-- A call of a client. `α` is what the socket does in a call of `read`. -/
inductive ClientCall (α : Type)
  | buffer (call : BufferCall)
  | read (pTarget : Bool) (nLen : ℕ) (behind : List UInt8) (arrival : α)
  | write (source : Source) (behind : List UInt8) (sent : Bool)

def ClientCall.Legal {α : Type} : ClientCall α → Prop
  | .buffer call => call.Legal
  | .read _ nLen _ _ => nLen < 2 ^ 32
  | .write source _ _ => source.nLen < 2 ^ 32

instance {α : Type} (call : ClientCall α) : Decidable call.Legal :=
  match call with
  | .buffer call => inferInstanceAs (Decidable call.Legal)
  | .read _ _ _ _ => inferInstanceAs (Decidable (_ < _))
  | .write _ _ _ => inferInstanceAs (Decidable (_ < _))

/-- What a `CTcpClient` makes of a call: the object that it leaves, and the range of the buffer that
it sends. -/
def CTcpClient.call (client : CTcpClient) : ClientCall Arrival → CTcpClient × Option Access
  | .buffer call => ((client.answer call).after, none)
  | .read pTarget nLen behind arrival => ((client.read pTarget nLen behind arrival).after, none)
  | .write source behind sent =>
    ((client.write source behind sent).after, (client.write source behind sent).answer.sends)

/-- What a `CUdpClient` makes of a call. -/
def CUdpClient.call (client : CUdpClient) :
    ClientCall (Option (List UInt8)) → CUdpClient × Option Access
  | .buffer call => ((client.answer call).after, none)
  | .read pTarget nLen behind arrival => ((client.read pTarget nLen behind arrival).after, none)
  | .write source behind sent =>
    ((client.write source behind sent).after, (client.write source behind sent).answer.sends)

/-- The condition on a call of a `CTcpClient` under which the header and the data still fit. -/
def CTcpClient.KeepsFit (b : ClientBuffer) : ClientCall Arrival → Prop
  | .buffer call => CClientIO.KeepsFit b call
  | .read pTarget nLen behind arrival => CTcpClient.Receives b pTarget nLen behind arrival →
      b.m_nHeaderSize + CTcpClient.receivedLength arrival ≤ b.m_nBufferSize
  | .write source _ sent => CTcpClient.FailsToSend b sent source →
      b.m_nHeaderSize + source.nLen ≤ b.m_nBufferSize

/-- The condition on a call of a `CUdpClient` under which the header and the data still fit. -/
def CUdpClient.KeepsFit (b : ClientBuffer) : ClientCall (Option (List UInt8)) → Prop
  | .buffer call => CClientIO.KeepsFit b call
  | .read pTarget nLen _ arrival => CUdpClient.Receives b pTarget nLen arrival →
      b.m_nHeaderSize + CUdpClient.receivedLength b arrival ≤ b.m_nBufferSize
  | .write _ _ _ => True

/-- The call `write(nullptr, 0)` sends bytes of the buffer only. -/
def SendsInside {α σ : Type} (buffer : σ → ClientBuffer)
    (call : Call σ (ClientCall α) (Option Access)) : Prop :=
  ∀ behind sent access, call.label = .write (.null 0) behind sent → call.reply = some access →
    access.Inside (buffer call.before).m_nBufferSize

/-- A step of a client. -/
def ClientStep {α σ : Type} (answer : σ → ClientCall α → σ × Option Access) (before : σ)
    (call : ClientCall α) (reply : Option Access) (after : σ) : Prop :=
  call.Legal ∧ answer before call = (after, reply)

theorem CTcpClient.sends_of_write_null {client : CTcpClient} {behind : List UInt8} {sent : Bool}
    {access : Access} (h : (client.write (.null 0) behind sent).answer.sends = some access) :
    access = ⟨0, toUnsigned (client.buffer.m_nHeaderSize + client.buffer.m_nCurrDataLen)⟩ := by
  unfold CTcpClient.write at h
  dsimp only at h
  split_ifs at h
  · exact Option.some.inj (h.symm.trans (finishWrite_cases ..).1)
  · exact Option.some.inj (h.symm.trans (finishWrite_cases ..).1)

theorem CUdpClient.sends_of_write_null {client : CUdpClient} {behind : List UInt8} {sent : Bool}
    {access : Access} (h : (client.write (.null 0) behind sent).answer.sends = some access) :
    access = ⟨0, toUnsigned (client.buffer.m_nHeaderSize + client.buffer.m_nCurrDataLen)⟩ := by
  unfold CUdpClient.write at h
  dsimp only at h
  by_cases hnone : client.buffer.m_pDataBuffer = none
  · rw [if_pos hnone] at h
    cases h
  · rw [if_neg hnone, if_neg (lt_irrefl 0)] at h
    cases sent with
    | false => exact (Option.some.inj h).symm
    | true => exact (Option.some.inj h).symm

section Clients

variable {α σ : Type} (buffer : σ → ClientBuffer) (answer : σ → ClientCall α → σ × Option Access)
  (Keeps : ClientBuffer → ClientCall α → Prop)

/-- The calls of a class keep the members well-formed, and keep the fit exactly under the condition.
The call `write(nullptr, 0)` sends the header and the data. -/
structure KeepsExactly : Prop where
  wellFormed : ∀ client call, call.Legal → (buffer client).WellFormed →
    (buffer (answer client call).1).WellFormed
  dataFits : ∀ client call, call.Legal → (buffer client).WellFormed → DataFits (buffer client) →
    (DataFits (buffer (answer client call).1) ↔ Keeps (buffer client) call)
  sends : ∀ client behind sent access,
    (answer client (.write (.null 0) behind sent)).2 = some access → access =
      ⟨0, toUnsigned ((buffer client).m_nHeaderSize + (buffer client).m_nCurrDataLen)⟩

variable {buffer answer Keeps}

/-- What is sent is in the buffer while the header and the data fit. -/
theorem KeepsExactly.sendsInside (h : KeepsExactly buffer answer Keeps) {before after : σ}
    {call : ClientCall α} {reply : Option Access} (hfits : DataFits (buffer before))
    (hstep : ClientStep answer before call reply after) :
    SendsInside buffer ⟨before, call, reply⟩ := by
  rintro behind sent access rfl hreply
  obtain rfl := h.sends before behind sent access ((congrArg Prod.snd hstep.2).trans hreply)
  show 0 + toUnsigned _ ≤ _
  rw [Nat.zero_add]
  exact (Nat.mod_le _ _).trans hfits

theorem KeepsExactly.run_iff (h : KeepsExactly buffer answer Keeps) {start final : σ}
    {trace : List (Call σ (ClientCall α) (Option Access))}
    (hrun : Run (ClientStep answer) start trace final) (hwell : (buffer start).WellFormed)
    (hfits : DataFits (buffer start)) :
    ((∀ call ∈ trace, DataFits (buffer call.before)) ∧ DataFits (buffer final)) ∧
        (∀ call ∈ trace, SendsInside buffer call) ↔
      ∀ call ∈ trace, Keeps (buffer call.before) call.label := by
  have hkeep (before : σ) (label : ClientCall α) (reply : Option Access) (after : σ)
      (hbefore : (buffer before).WellFormed) (hstep : ClientStep answer before label reply after) :
      (buffer after).WellFormed := by
    obtain ⟨hlegal, hanswer⟩ := hstep
    obtain rfl : (answer before label).1 = after := congrArg Prod.fst hanswer
    exact h.wellFormed before label hlegal hbefore
  have hgood : (∀ call ∈ trace, DataFits (buffer call.before)) ∧ DataFits (buffer final) ↔
      ∀ call ∈ trace, Keeps (buffer call.before) call.label := by
    refine hrun.good_iff (fun client ↦ (buffer client).WellFormed)
      (fun client ↦ DataFits (buffer client)) hkeep ?_ hwell hfits
    rintro before label reply after hbefore hfit ⟨hlegal, hanswer⟩
    obtain rfl : (answer before label).1 = after := congrArg Prod.fst hanswer
    exact h.dataFits before label hlegal hbefore hfit
  have hsends : ∀ call ∈ trace, DataFits (buffer call.before) → SendsInside buffer call := by
    refine hrun.forall_calls (fun _ ↦ True) (fun _ _ _ _ _ _ ↦ trivial) ?_ trivial
    exact fun before label reply after _ hstep hfit ↦ h.sendsInside hfit hstep
  rw [← hgood, and_iff_left_iff_imp]
  exact fun hall call hcall ↦ hsends call hcall (hall.1 call hcall)

end Clients

theorem CTcpClient.keepsExactly :
    KeepsExactly CTcpClient.buffer CTcpClient.call CTcpClient.KeepsFit where
  wellFormed := by
    intro client call hlegal hwell
    cases call with
    | buffer call => exact CTcpClient.actsOnBuffer.after client call ▸ hwell.answer hlegal
    | read pTarget nLen behind arrival =>
      refine (client.storesLength_read pTarget nLen behind arrival).wellFormed hwell ?_
      cases arrival with
      | available bytes received elapsed => exact intToUnsigned_lt _
      | _ => exact Nat.two_pow_pos 32
    | write source behind sent =>
      exact (client.storesLength_write source behind sent).wellFormed hwell hlegal
  dataFits := by
    intro client call hlegal hwell hfits
    cases call with
    | buffer call =>
      exact CTcpClient.actsOnBuffer.after client call ▸ dataFits_answer_iff hwell hfits hlegal
    | read pTarget nLen behind arrival =>
      exact (client.storesLength_read pTarget nLen behind arrival).dataFits_iff hfits
    | write source behind sent =>
      exact (client.storesLength_write source behind sent).dataFits_iff hfits
  sends := fun _ _ _ _ h ↦ sends_of_write_null h

theorem CUdpClient.keepsExactly :
    KeepsExactly CUdpClient.buffer CUdpClient.call CUdpClient.KeepsFit where
  wellFormed := by
    intro client call hlegal hwell
    cases call with
    | buffer call => exact CUdpClient.actsOnBuffer.after client call ▸ hwell.answer hlegal
    | read pTarget nLen behind arrival =>
      refine (client.storesLength_read pTarget nLen behind arrival).wellFormed hwell ?_
      cases arrival with
      | some datagram => exact intToUnsigned_lt _
      | none => exact Nat.two_pow_pos 32
    | write source behind sent =>
      exact (client.storesLength_write source behind sent).wellFormed hwell (Nat.two_pow_pos 32)
  dataFits := by
    intro client call hlegal hwell hfits
    cases call with
    | buffer call =>
      exact CUdpClient.actsOnBuffer.after client call ▸ dataFits_answer_iff hwell hfits hlegal
    | read pTarget nLen behind arrival =>
      exact (client.storesLength_read pTarget nLen behind arrival).dataFits_iff hfits
    | write source behind sent =>
      refine ((client.storesLength_write source behind sent).dataFits_iff hfits).trans ?_
      exact iff_of_true False.elim trivial
  sends := fun _ _ _ _ h ↦ sends_of_write_null h

/-- Assumes: a run of a `CTcpClient` from its constructor, and one of a `CUdpClient`. In all states
of a run the header and the data fit the buffer, and `write(nullptr, 0)` sends bytes of the buffer
only, exactly when all its calls meet the condition. -/
theorem data_fits_iff {tcp : CTcpClient} {udp : CUdpClient}
    {tcpTrace : List (Call CTcpClient (ClientCall Arrival) (Option Access))}
    {udpTrace : List (Call CUdpClient (ClientCall (Option (List UInt8))) (Option Access))}
    (htcp : Run (ClientStep CTcpClient.call) .new tcpTrace tcp)
    (hudp : Run (ClientStep CUdpClient.call) .new udpTrace udp) :
    (((∀ call ∈ tcpTrace, DataFits call.before.buffer) ∧ DataFits tcp.buffer) ∧
          (∀ call ∈ tcpTrace, SendsInside CTcpClient.buffer call) ↔
        ∀ call ∈ tcpTrace, CTcpClient.KeepsFit call.before.buffer call.label) ∧
      (((∀ call ∈ udpTrace, DataFits call.before.buffer) ∧ DataFits udp.buffer) ∧
          (∀ call ∈ udpTrace, SendsInside CUdpClient.buffer call) ↔
        ∀ call ∈ udpTrace, CUdpClient.KeepsFit call.before.buffer call.label) :=
  ⟨CTcpClient.keepsExactly.run_iff htcp ClientBuffer.wellFormed_new le_rfl,
    CUdpClient.keepsExactly.run_iff hudp ClientBuffer.wellFormed_new le_rfl⟩

theorem data_fits_iff_two :
    (∃ trace final, Run (ClientStep CTcpClient.call) .new trace final ∧
      trace.map Call.label = [.buffer (.allocBuffer 44 true true), .buffer (.setDataSize 4),
        .write (.null 0) [] true] ∧
      ∀ call ∈ trace, SendsInside CTcpClient.buffer call) ∧
    ∃ trace final, Run (ClientStep CUdpClient.call) .new trace final ∧
      trace.map Call.label = [.buffer (.allocBuffer 44 true true), .buffer (.setDataSize 4),
        .write (.null 0) [] true] ∧
      ∀ call ∈ trace, SendsInside CUdpClient.buffer call := by
  have htcp : ∃ trace final, Run (ClientStep CTcpClient.call) .new trace final ∧
      trace.map Call.label = [.buffer (.allocBuffer 44 true true), .buffer (.setDataSize 4),
        .write (.null 0) [] true] ∧
      ∀ call ∈ trace, CTcpClient.KeepsFit call.before.buffer call.label := by
    refine Run.exists_cons _ ⟨by decide, rfl⟩ <| Run.exists_cons _ ⟨by decide, rfl⟩ <|
      Run.exists_cons _ ⟨by decide, rfl⟩ ⟨_, _, .nil _, rfl, ?_⟩
    rw [List.forall_mem_cons, List.forall_mem_cons, List.forall_mem_singleton]
    exact ⟨trivial, fun _ ↦ by decide, False.elim⟩
  have hudp : ∃ trace final, Run (ClientStep CUdpClient.call) .new trace final ∧
      trace.map Call.label = [.buffer (.allocBuffer 44 true true), .buffer (.setDataSize 4),
        .write (.null 0) [] true] ∧
      ∀ call ∈ trace, CUdpClient.KeepsFit call.before.buffer call.label := by
    refine Run.exists_cons _ ⟨by decide, rfl⟩ <| Run.exists_cons _ ⟨by decide, rfl⟩ <|
      Run.exists_cons _ ⟨by decide, rfl⟩ ⟨_, _, .nil _, rfl, ?_⟩
    rw [List.forall_mem_cons, List.forall_mem_cons, List.forall_mem_singleton]
    exact ⟨trivial, fun _ ↦ by decide, trivial⟩
  obtain ⟨tcpTrace, tcp, htcp, htcpLabels, htcpKeeps⟩ := htcp
  obtain ⟨udpTrace, udp, hudp, hudpLabels, hudpKeeps⟩ := hudp
  have hboth := data_fits_iff htcp hudp
  exact ⟨⟨tcpTrace, tcp, htcp, htcpLabels, (hboth.1.mpr htcpKeeps).2⟩,
    udpTrace, udp, hudp, hudpLabels, (hboth.2.mpr hudpKeeps).2⟩

/-- After `setDataSize` of 2 bytes, `write` sends 42 bytes of a buffer of 22. -/
theorem write_leaves_the_buffer :
    (∃ trace final, Run (ClientStep CTcpClient.call) .new trace final ∧
      trace.map Call.label = [.buffer (.allocBuffer 22 true true), .buffer (.setDataSize 2),
        .write (.null 0) [] true] ∧
      (¬∀ call ∈ trace, DataFits call.before.buffer) ∧
      ¬∀ call ∈ trace, SendsInside CTcpClient.buffer call) ∧
    ∃ trace final, Run (ClientStep CUdpClient.call) .new trace final ∧
      trace.map Call.label = [.buffer (.allocBuffer 22 true true), .buffer (.setDataSize 2),
        .write (.null 0) [] true] ∧
      (¬∀ call ∈ trace, DataFits call.before.buffer) ∧
      ¬∀ call ∈ trace, SendsInside CUdpClient.buffer call := by
  constructor
  · refine Run.exists_cons _ ⟨by decide, rfl⟩ <| Run.exists_cons _ ⟨by decide, rfl⟩ <|
      Run.exists_cons _ ⟨by decide, rfl⟩ ⟨_, _, .nil _, rfl, fun hfits ↦ ?_, fun hsends ↦ ?_⟩
    · rw [List.forall_mem_cons, List.forall_mem_cons, List.forall_mem_singleton] at hfits
      exact absurd hfits.2.2 (show ¬20 + 22 ≤ 22 by decide)
    · rw [List.forall_mem_cons, List.forall_mem_cons, List.forall_mem_singleton] at hsends
      exact absurd (hsends.2.2 [] true ⟨0, 42⟩ rfl rfl) (show ¬0 + 42 ≤ 22 by decide)
  · refine Run.exists_cons _ ⟨by decide, rfl⟩ <| Run.exists_cons _ ⟨by decide, rfl⟩ <|
      Run.exists_cons _ ⟨by decide, rfl⟩ ⟨_, _, .nil _, rfl, fun hfits ↦ ?_, fun hsends ↦ ?_⟩
    · rw [List.forall_mem_cons, List.forall_mem_cons, List.forall_mem_singleton] at hfits
      exact absurd hfits.2.2 (show ¬20 + 22 ≤ 22 by decide)
    · rw [List.forall_mem_cons, List.forall_mem_cons, List.forall_mem_singleton] at hsends
      exact absurd (hsends.2.2 [] true ⟨0, 42⟩ rfl rfl) (show ¬0 + 42 ≤ 22 by decide)

end RdbLibs.NetIO.CClientIO
