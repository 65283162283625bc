import RdbLibs.NetIO.CClientIO.CUdpClient

/-!
# The accesses of the buffer functions

When the ranges that the buffer functions copy, fill and clear lie inside the buffer. `setBuffer`
fills from behind the header and the data, but as many bytes as the buffer has without the data,
and so leaves a buffer with a header. `appendBuffer` and `setBuffer` accept lengths that wrap
around, and `getBuffer` does not look at the offset.
-/

set_option autoImplicit false
set_option relaxedAutoImplicit false

namespace RdbLibs.NetIO.CClientIO

open BlockAccess MachineWord Runs

/-- The accesses lie inside the allocated buffer. -/
def InBounds (accesses : List Access) (b : ClientBuffer) : Prop :=
  ∀ access ∈ accesses, b.m_pDataBuffer.isSome ∧ access.Inside b.m_nBufferSize

/-- The length passes the check of `setBuffer` and of `appendBuffer`, which copy to `start`. -/
def PassesCheck (b : ClientBuffer) (nLen start : ℕ) : Prop :=
  1 ≤ nLen ∧ toUnsigned (nLen + start) ≤ b.m_nBufferSize

/-- The condition on a call under which it stays inside the buffer. -/
def StaysInside (b : ClientBuffer) : BufferCall → Prop
  | .clearBuffer => b.m_pDataBuffer = none ∨ b.m_nHeaderSize ≤ b.m_nBufferSize
  | .setBuffer (.bytes values) => PassesCheck b values.length b.m_nHeaderSize →
      b.m_pDataBuffer.isSome ∧ b.m_nHeaderSize + values.length < 2 ^ 32 ∧
        (b.m_nHeaderSize = 0 ∨ 2 ^ 31 ≤ b.m_nBufferSize - values.length)
  | .appendBuffer (.bytes values) =>
      let start := toUnsigned (b.m_nHeaderSize + b.m_nCurrDataLen)
      PassesCheck b values.length start →
        b.m_pDataBuffer.isSome ∧ start + values.length < 2 ^ 32
  | .getBuffer true nLen nStartingAt _ =>
      1 ≤ nLen → nLen ≤ unsignedSub b.m_nBufferSize b.m_nHeaderSize →
        b.m_pDataBuffer.isSome ∧
          toUnsigned (b.m_nHeaderSize + nStartingAt) + nLen ≤ b.m_nBufferSize
  | _ => True

variable {b : ClientBuffer}

theorem inBounds_nil (b : ClientBuffer) : InBounds [] b := nofun

theorem inBounds_singleton {access : Access} :
    InBounds [access] b ↔ b.m_pDataBuffer.isSome ∧ access.Inside b.m_nBufferSize :=
  List.forall_mem_singleton

theorem inBounds_cons {access : Access} {accesses : List Access} :
    InBounds (access :: accesses) b ↔
      (b.m_pDataBuffer.isSome ∧ access.Inside b.m_nBufferSize) ∧ InBounds accesses b :=
  List.forall_mem_cons

theorem inBounds_allocBuffer (nSize : ℕ) (bAllocBufHeader granted : Bool) :
    InBounds (b.allocBuffer nSize bAllocBufHeader granted).accesses
      (b.allocBuffer nSize bAllocBufHeader granted).after := by
  unfold ClientBuffer.allocBuffer
  by_cases hsmall : nSize < (if bAllocBufHeader then msgHeaderLen + 2 else 2)
  · rw [if_pos hsmall]
    exact inBounds_nil b
  · rw [if_neg hsmall]
    cases granted with
    | false => exact inBounds_nil _
    | true =>
      cases bAllocBufHeader with
      | false => exact inBounds_nil _
      | true =>
        have hsize : msgHeaderLen + 2 ≤ nSize := not_lt.mp hsmall
        intro access haccess
        refine ⟨rfl, ?_⟩
        show access.offset + access.count ≤ nSize
        have hheader : ∀ access ∈ headerAccesses, access.offset + access.count ≤ 16 := by decide
        have hend := hheader access haccess
        unfold msgHeaderLen at hsize
        omega

theorem inBounds_freeBuffer : InBounds b.freeBuffer.accesses b.freeBuffer.after := by
  unfold ClientBuffer.freeBuffer
  cases b.m_pDataBuffer with
  | none => exact inBounds_nil _
  | some cells => exact inBounds_nil _

theorem inBounds_clearBuffer (h : b.WellFormed) :
    InBounds b.clearBuffer.accesses b.clearBuffer.after ↔
      b.m_pDataBuffer = none ∨ b.m_nHeaderSize ≤ b.m_nBufferSize := by
  have hsize := h.size_lt
  unfold ClientBuffer.clearBuffer
  cases hdata : b.m_pDataBuffer with
  | none => exact iff_of_true (inBounds_nil b) (.inl rfl)
  | some cells =>
    rw [inBounds_singleton]
    dsimp only [Access.Inside]
    by_cases hfits : b.m_nHeaderSize ≤ b.m_nBufferSize
    · rw [unsignedSub_of_le hfits hsize]
      exact iff_of_true ⟨rfl, by omega⟩ (.inr hfits)
    · rw [unsignedSub_of_lt (not_le.mp hfits)]
      constructor
      · rintro ⟨-, hinside⟩
        omega
      · rintro (hnone | hle)
        · cases hnone
        · exact absurd hle hfits

/-- A write to the block does not change what lies inside. -/
theorem inBounds_update (accesses : List Access) (write : List UInt8 → List UInt8) (nLen : ℕ) :
    InBounds accesses { b.update write with m_nCurrDataLen := nLen } ↔ InBounds accesses b := by
  have hblock : (b.m_pDataBuffer.map write).isSome = b.m_pDataBuffer.isSome := Option.isSome_map ..
  unfold InBounds ClientBuffer.update
  rw [hblock]

/-- What lies inside a buffer lies inside it after `setBuffer`. -/
theorem inBounds_after_setBuffer (accesses : List Access) (source : Source) :
    InBounds accesses (b.setBuffer source).after ↔ InBounds accesses b := by
  cases source with
  | null nLen => exact Iff.rfl
  | bytes values =>
    unfold ClientBuffer.setBuffer
    dsimp only
    split_ifs
    · exact Iff.rfl
    · exact Iff.rfl
    · exact (inBounds_update accesses _ values.length).trans
        (inBounds_update accesses _ values.length)
    · exact inBounds_update accesses _ values.length

section SetBuffer

variable {values : List UInt8} (hpass : PassesCheck b values.length b.m_nHeaderSize)
include hpass

/-- A length that wraps around with the header does not lie inside. -/
theorem not_inBounds_setBuffer (h : b.WellFormed)
    (hwrap : 2 ^ 32 ≤ b.m_nHeaderSize + values.length) :
    ¬InBounds (b.setBuffer (.bytes values)).accesses (b.setBuffer (.bytes values)).after := by
  have hsize := h.size_lt
  have hout : ¬b.m_nHeaderSize + values.length ≤ b.m_nBufferSize := by omega
  unfold ClientBuffer.setBuffer
  dsimp only
  rw [if_neg (not_lt.mpr hpass.1), if_neg (not_lt.mpr hpass.2)]
  split_ifs
  · rw [inBounds_cons]
    exact fun hinside ↦ hout hinside.1.2
  · rw [inBounds_singleton]
    exact fun hinside ↦ hout hinside.2

/-- As many bytes are filled behind the copy as the buffer has without the data, if the number of
them is not negative as an `int`. -/
theorem inBounds_setBuffer_iff (hsize : b.m_nBufferSize < 2 ^ 32)
    (hwrap : b.m_nHeaderSize + values.length < 2 ^ 32) :
    InBounds (b.setBuffer (.bytes values)).accesses (b.setBuffer (.bytes values)).after ↔
      b.m_pDataBuffer.isSome ∧
        (b.m_nHeaderSize = 0 ∨ 2 ^ 31 ≤ b.m_nBufferSize - values.length) := by
  have hcheck := hpass.2
  rw [toUnsigned_of_lt (by omega)] at hcheck
  unfold ClientBuffer.setBuffer
  dsimp only
  rw [if_neg (not_lt.mpr hpass.1), if_neg (not_lt.mpr hpass.2),
    unsignedSub_of_le (by omega) hsize, toUnsigned_of_lt hwrap]
  by_cases hfill : b.m_nBufferSize - values.length < 2 ^ 31
  · rw [toInt_of_lt hfill, intToSize_of_lt (by omega)]
    by_cases hnone : b.m_nBufferSize - values.length = 0
    · rw [if_neg (by omega), inBounds_update, inBounds_singleton]
      show _ ∧ b.m_nHeaderSize + values.length ≤ b.m_nBufferSize ↔ _
      exact and_congr_right fun _ ↦ iff_of_true (by omega) (.inl (by omega))
    · rw [if_pos (by omega)]
      refine (inBounds_update _ _ values.length).trans
        ((inBounds_update _ _ values.length).trans ?_)
      rw [inBounds_cons, inBounds_singleton]
      show (_ ∧ b.m_nHeaderSize + values.length ≤ b.m_nBufferSize) ∧
        _ ∧ b.m_nHeaderSize + values.length + (b.m_nBufferSize - values.length) ≤
          b.m_nBufferSize ↔ _
      constructor
      · rintro ⟨⟨hblock, -⟩, -, hend⟩
        exact ⟨hblock, .inl (by omega)⟩
      · rintro ⟨hblock, hheader⟩
        exact ⟨⟨hblock, by omega⟩, hblock, by omega⟩
  · rw [if_neg (not_lt.mpr (toInt_neg (not_lt.mp hfill) (by omega)).le), inBounds_update,
      inBounds_singleton]
    show _ ∧ b.m_nHeaderSize + values.length ≤ b.m_nBufferSize ↔ _
    exact and_congr_right fun _ ↦ iff_of_true (by omega) (.inr (not_lt.mp hfill))

end SetBuffer

theorem inBounds_setBuffer (h : b.WellFormed) (values : List UInt8) :
    InBounds (b.setBuffer (.bytes values)).accesses (b.setBuffer (.bytes values)).after ↔
      StaysInside b (.setBuffer (.bytes values)) := by
  unfold StaysInside
  dsimp only
  by_cases hpass : PassesCheck b values.length b.m_nHeaderSize
  · rw [forall_prop_of_true hpass]
    rcases lt_or_ge (b.m_nHeaderSize + values.length) (2 ^ 32) with hwrap | hwrap
    · rw [inBounds_setBuffer_iff hpass h.size_lt hwrap, and_iff_right hwrap]
    · exact iff_of_false (not_inBounds_setBuffer hpass h hwrap) fun hcondition ↦
        not_lt.mpr hwrap hcondition.2.1
  · refine iff_of_true ?_ fun hpass' ↦ absurd hpass' hpass
    unfold ClientBuffer.setBuffer
    dsimp only
    by_cases hempty : values.length < 1
    · rw [if_pos hempty]
      exact inBounds_nil b
    · have hlarge : b.m_nBufferSize < toUnsigned (values.length + b.m_nHeaderSize) := by
        by_contra hlarge
        exact hpass ⟨not_lt.mp hempty, not_lt.mp hlarge⟩
      rw [if_neg hempty, if_pos hlarge]
      exact inBounds_nil b

theorem inBounds_appendBuffer (h : b.WellFormed) (values : List UInt8) :
    InBounds (b.appendBuffer (.bytes values)).accesses (b.appendBuffer (.bytes values)).after ↔
      StaysInside b (.appendBuffer (.bytes values)) := by
  have hsize := h.size_lt
  unfold StaysInside PassesCheck ClientBuffer.appendBuffer
  dsimp only
  generalize toUnsigned (b.m_nHeaderSize + b.m_nCurrDataLen) = start
  by_cases hempty : values.length < 1
  · rw [if_pos hempty]
    exact iff_of_true (inBounds_nil b) fun hpass ↦ absurd hpass.1 (not_le.mpr hempty)
  · rw [if_neg hempty]
    by_cases hlarge : b.m_nBufferSize < toUnsigned (values.length + start)
    · rw [if_pos hlarge]
      exact iff_of_true (inBounds_nil b) fun hpass ↦ absurd hpass.2 (not_le.mpr hlarge)
    · rw [if_neg hlarge, inBounds_update, inBounds_singleton]
      show _ ∧ start + values.length ≤ b.m_nBufferSize ↔ _
      constructor
      · rintro ⟨hblock, hinside⟩ -
        exact ⟨hblock, by omega⟩
      · intro hcondition
        obtain ⟨hblock, hwrap⟩ := hcondition ⟨not_lt.mp hempty, not_lt.mp hlarge⟩
        rw [toUnsigned_of_lt (by omega)] at hlarge
        exact ⟨hblock, by omega⟩

theorem inBounds_getBuffer (pTarget : Bool) (nLen nStartingAt : ℕ) (behind : List UInt8) :
    InBounds (b.getBuffer pTarget nLen nStartingAt behind).accesses
        (b.getBuffer pTarget nLen nStartingAt behind).after ↔
      StaysInside b (.getBuffer pTarget nLen nStartingAt behind) := by
  unfold ClientBuffer.getBuffer
  cases pTarget with
  | false =>
    rw [if_pos (.inl rfl)]
    exact iff_of_true (inBounds_nil b) trivial
  | true =>
    unfold StaysInside
    dsimp only
    by_cases hempty : nLen < 1
    · rw [if_pos (.inr hempty)]
      exact iff_of_true (inBounds_nil b) fun hpos ↦ absurd hpos (not_le.mpr hempty)
    · rw [if_neg (fun hrefused ↦ hrefused.elim Bool.noConfusion hempty)]
      by_cases hlarge : unsignedSub b.m_nBufferSize b.m_nHeaderSize < nLen
      · rw [if_pos hlarge]
        exact iff_of_true (inBounds_nil b) fun _ hle ↦ absurd hle (not_le.mpr hlarge)
      · rw [if_neg hlarge, inBounds_singleton]
        exact ⟨fun hinside _ _ ↦ hinside,
          fun hcondition ↦ hcondition (not_lt.mp hempty) (not_lt.mp hlarge)⟩

/-- A call stays inside the buffer exactly when it meets the condition. -/
theorem inBounds_answer_iff (h : b.WellFormed) (call : BufferCall) :
    InBounds (b.answer call).accesses (b.answer call).after ↔ StaysInside b call := by
  cases call with
  | allocBuffer nSize bAllocBufHeader granted =>
    exact iff_of_true (inBounds_allocBuffer nSize bAllocBufHeader granted) trivial
  | freeBuffer => exact iff_of_true inBounds_freeBuffer trivial
  | clearBuffer => exact inBounds_clearBuffer h
  | setBuffer source =>
    cases source with
    | null nLen => exact iff_of_true (inBounds_nil b) trivial
    | bytes values => exact inBounds_setBuffer h values
  | appendBuffer source =>
    cases source with
    | null nLen => exact iff_of_true (inBounds_nil b) trivial
    | bytes values => exact inBounds_appendBuffer h values
  | getBuffer pTarget nLen nStartingAt behind =>
    exact inBounds_getBuffer pTarget nLen nStartingAt behind
  | setDataSize nLen =>
    refine iff_of_true ?_ trivial
    unfold ClientBuffer.answer ClientBuffer.setDataSize
    dsimp only
    split_ifs
    · exact inBounds_nil b
    · exact inBounds_nil _

/-! ### Runs -/

theorem ActsOnBuffer.inBounds_iff_of_run {σ : Type} {buffer : σ → ClientBuffer}
    {answer : σ → BufferCall → Outcome σ Bool} (hacts : ActsOnBuffer buffer answer)
    {start final : σ} {trace : List (Call σ BufferCall (Outcome σ Bool))}
    (hrun : Run (BufferStep answer) start trace final) (hstart : (buffer start).WellFormed) :
    (∀ call ∈ trace, InBounds call.reply.accesses (buffer call.reply.after)) ↔
      ∀ call ∈ trace, StaysInside (buffer call.before) call.label := by
  refine forall₂_congr (hrun.forall_calls (fun client ↦ (buffer client).WellFormed) ?_ ?_ hstart)
  · exact fun _ _ _ _ h hstep ↦ hacts.wellFormed_step h hstep
  · rintro before label reply after h ⟨-, rfl, -⟩
    dsimp only
    rw [hacts.accesses, hacts.after]
    exact inBounds_answer_iff h label

/-- Assumes: a run of the functions on the buffer of a `CTcpClient`, from its constructor, and one
of a `CUdpClient`. All ranges that a run copies, fills and clears lie inside the allocated buffer
exactly when all its calls meet the condition. -/
theorem buffer_in_bounds_iff {tcp : CTcpClient} {udp : CUdpClient}
    {tcpTrace : List (Call CTcpClient BufferCall (Outcome CTcpClient Bool))}
    {udpTrace : List (Call CUdpClient BufferCall (Outcome CUdpClient Bool))}
    (htcp : Run (BufferStep CTcpClient.answer) .new tcpTrace tcp)
    (hudp : Run (BufferStep CUdpClient.answer) .new udpTrace udp) :
    ((∀ call ∈ tcpTrace, InBounds call.reply.accesses call.reply.after.buffer) ↔
        ∀ call ∈ tcpTrace, StaysInside call.before.buffer call.label) ∧
      ((∀ call ∈ udpTrace, InBounds call.reply.accesses call.reply.after.buffer) ↔
        ∀ call ∈ udpTrace, StaysInside call.before.buffer call.label) :=
  ⟨CTcpClient.actsOnBuffer.inBounds_iff_of_run htcp ClientBuffer.wellFormed_new,
    CUdpClient.actsOnBuffer.inBounds_iff_of_run hudp ClientBuffer.wellFormed_new⟩

theorem buffer_in_bounds_iff_two :
    (∃ trace final, Run (BufferStep CTcpClient.answer) .new trace final ∧
      trace.map Call.label = [.allocBuffer 23 true true, .appendBuffer (.bytes [7])] ∧
      ∀ call ∈ trace, InBounds call.reply.accesses call.reply.after.buffer) ∧
    ∃ trace final, Run (BufferStep CUdpClient.answer) .new trace final ∧
      trace.map Call.label = [.allocBuffer 23 true true, .appendBuffer (.bytes [7])] ∧
      ∀ call ∈ trace, InBounds call.reply.accesses call.reply.after.buffer := by
  have htcp : ∃ trace final, Run (BufferStep CTcpClient.answer) .new trace final ∧
      trace.map Call.label = [.allocBuffer 23 true true, .appendBuffer (.bytes [7])] ∧
      ∀ call ∈ trace, StaysInside call.before.buffer call.label := by
    refine Run.exists_cons _ ⟨by decide, rfl, rfl⟩ <| Run.exists_cons _ ⟨by decide, rfl, rfl⟩
      ⟨_, _, .nil _, rfl, ?_⟩
    rw [List.forall_mem_cons, List.forall_mem_singleton]
    exact ⟨trivial, fun _ ↦ ⟨rfl, by decide⟩⟩
  have hudp : ∃ trace final, Run (BufferStep CUdpClient.answer) .new trace final ∧
      trace.map Call.label = [.allocBuffer 23 true true, .appendBuffer (.bytes [7])] ∧
      ∀ call ∈ trace, StaysInside call.before.buffer call.label := by
    refine Run.exists_cons _ ⟨by decide, rfl, rfl⟩ <| Run.exists_cons _ ⟨by decide, rfl, rfl⟩
      ⟨_, _, .nil _, rfl, ?_⟩
    rw [List.forall_mem_cons, List.forall_mem_singleton]
    exact ⟨trivial, fun _ ↦ ⟨rfl, by decide⟩⟩
  obtain ⟨tcpTrace, tcp, htcp, htcpLabels, htcpStays⟩ := htcp
  obtain ⟨udpTrace, udp, hudp, hudpLabels, hudpStays⟩ := hudp
  have hboth := buffer_in_bounds_iff htcp hudp
  exact ⟨⟨tcpTrace, tcp, htcp, htcpLabels, hboth.1.mpr htcpStays⟩,
    udpTrace, udp, hudp, hudpLabels, hboth.2.mpr hudpStays⟩

/-- `setBuffer` fills 22 bytes from the offset 21 on, in a buffer of 23 bytes. -/
theorem setBuffer_leaves_the_buffer :
    (∃ trace final, Run (BufferStep CTcpClient.answer) .new trace final ∧
      trace.map Call.label = [.allocBuffer 23 true true, .setBuffer (.bytes [7])] ∧
      ¬∀ call ∈ trace, InBounds call.reply.accesses call.reply.after.buffer) ∧
    ∃ trace final, Run (BufferStep CUdpClient.answer) .new trace final ∧
      trace.map Call.label = [.allocBuffer 23 true true, .setBuffer (.bytes [7])] ∧
      ¬∀ call ∈ trace, InBounds call.reply.accesses call.reply.after.buffer := by
  have hcondition : ¬(20 = 0 ∨ 2 ^ 31 ≤ 23 - 1) := by decide
  constructor
  · have hrun : ∃ trace final, Run (BufferStep CTcpClient.answer) .new trace final ∧
        trace.map Call.label = [.allocBuffer 23 true true, .setBuffer (.bytes [7])] ∧
        ¬∀ call ∈ trace, StaysInside call.before.buffer call.label := by
      refine Run.exists_cons _ ⟨by decide, rfl, rfl⟩ <| Run.exists_cons _ ⟨by decide, rfl, rfl⟩
        ⟨_, _, .nil _, rfl, fun hstays ↦ ?_⟩
      rw [List.forall_mem_cons, List.forall_mem_singleton] at hstays
      exact hcondition (hstays.2 ⟨le_rfl, by decide⟩).2.2
    obtain ⟨trace, final, hrun, hlabels, hstays⟩ := hrun
    exact ⟨trace, final, hrun, hlabels, fun hinside ↦ hstays
      ((CTcpClient.actsOnBuffer.inBounds_iff_of_run hrun ClientBuffer.wellFormed_new).mp hinside)⟩
  · have hrun : ∃ trace final, Run (BufferStep CUdpClient.answer) .new trace final ∧
        trace.map Call.label = [.allocBuffer 23 true true, .setBuffer (.bytes [7])] ∧
        ¬∀ call ∈ trace, StaysInside call.before.buffer call.label := by
      refine Run.exists_cons _ ⟨by decide, rfl, rfl⟩ <| Run.exists_cons _ ⟨by decide, rfl, rfl⟩
        ⟨_, _, .nil _, rfl, fun hstays ↦ ?_⟩
      rw [List.forall_mem_cons, List.forall_mem_singleton] at hstays
      exact hcondition (hstays.2 ⟨le_rfl, by decide⟩).2.2
    obtain ⟨trace, final, hrun, hlabels, hstays⟩ := hrun
    exact ⟨trace, final, hrun, hlabels, fun hinside ↦ hstays
      ((CUdpClient.actsOnBuffer.inBounds_iff_of_run hrun ClientBuffer.wellFormed_new).mp hinside)⟩

end RdbLibs.NetIO.CClientIO
