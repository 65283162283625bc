import RdbLibs.NetIO.CClientIO.DataSize

/-!
# The transfers of `CTcpClient`

Where `read` receives, where `write` copies, and how many bytes `read` hands to `memcpy`. `write`
compares the length of the data with the size of the buffer, and copies behind the header. `read`
receives whatever `available` reports, compares it with nothing, and subtracts the size of the
header from it as an `int`.
-/

set_option autoImplicit false
set_option relaxedAutoImplicit false

namespace RdbLibs.NetIO.CClientIO.CTcpClient

open BlockAccess ByteCodec MachineWord Runs

/-- The ranges that a call of `write` copies into. The last of its accesses is the range that the
socket reads. -/
def copies (outcome : Outcome CTcpClient WriteAnswer) : List Access := outcome.accesses.dropLast

/-- The accesses of a call of `read` after the buffer was cleared: the range that it receives into,
and the range that it copies to its target. -/
def transfers (client : CTcpClient) (outcome : Outcome CTcpClient ReadAnswer) : List Access :=
  outcome.accesses.drop client.buffer.clearBuffer.accesses.length

/-- The ranges of the header that `write` sets before it copies the data. -/
def headerCopies (client : CTcpClient) : List Access :=
  if client.buffer.m_nHeaderSize = msgHeaderLen then
    headerAccesses ++ [⟨2, typeLength client.m_sStreamType⟩, ⟨12, 4⟩]
  else []

/-- The condition on a source under which `write` copies into the buffer only. -/
def CopiesFit (b : ClientBuffer) : Source → Prop
  | .null nLen => nLen = 0 → 1 ≤ b.m_nCurrDataLen → b.m_nHeaderSize = msgHeaderLen →
      16 ≤ b.m_nBufferSize
  | .bytes values => 1 ≤ values.length → values.length ≤ b.m_nBufferSize →
      b.m_nHeaderSize + values.length ≤ b.m_nBufferSize

/-- The condition on what arrives under which `read` receives into the buffer only. -/
def ReceptionFits (b : ClientBuffer) (pTarget : Bool) (nLen : ℕ) : Arrival → Prop
  | .available bytes _ _ => 1 ≤ (if pTarget then nLen else b.m_nBufferSize) → 8 ≤ bytes.length →
      bytes.length ≤ b.m_nBufferSize
  | _ => True

/-- The header is in the `received` bytes. A length from `2 ^ 31` on is a negative `int`, which the
bytes without the header reach when the `received` bytes have wrapped around. -/
def LengthFits (header nLen received : ℕ) : Prop :=
  if nLen < 2 ^ 31 then (header : ℤ) ≤ toInt received
  else 2 ^ 32 ≤ received ∧ toInt nLen ≤ toInt received - header

/-- The condition on what arrives under which `read` hands a length to `memcpy` that is not negative
and at most both lengths. -/
def CopyFits (b : ClientBuffer) (pTarget : Bool) (nLen : ℕ) (behind : List UInt8) :
    Arrival → Prop
  | .available bytes received elapsed =>
    Receives b pTarget nLen behind (.available bytes received elapsed) → pTarget = true →
      LengthFits b.m_nHeaderSize nLen bytes.length
  | _ => True

/-! ### `write` -/

@[simp] theorem accesses_finishWrite (client : CTcpClient) (dataSize : ℕ) (behind : List UInt8)
    (accesses : List Access) (sent : Bool) :
    (client.finishWrite dataSize behind accesses sent).accesses = accesses ++ [⟨0, dataSize⟩] := by
  cases sent <;> rfl

theorem copies_finishWrite (client : CTcpClient) (dataSize : ℕ) (behind : List UInt8)
    (accesses : List Access) (sent : Bool) :
    copies (client.finishWrite dataSize behind accesses sent) = accesses := by
  rw [copies, accesses_finishWrite, List.dropLast_concat]

theorem copies_write_null {client : CTcpClient} (hblock : client.buffer.m_pDataBuffer ≠ none)
    (nLen : ℕ) (behind : List UInt8) (sent : Bool) :
    copies (client.write (.null nLen) behind sent) =
      if nLen = 0 ∧ 1 ≤ client.buffer.m_nCurrDataLen ∧ client.buffer.m_nHeaderSize = msgHeaderLen
      then [⟨12, 4⟩] else [] := by
  unfold CTcpClient.write
  dsimp only
  rw [if_neg hblock]
  by_cases hlen : 0 < nLen
  · rw [if_pos hlen, if_neg fun h ↦ hlen.ne' h.1]
    rfl
  rw [if_neg hlen]
  by_cases hempty : client.buffer.m_nCurrDataLen < 1
  · rw [if_pos hempty, if_neg fun h ↦ not_le.mpr hempty h.2.1]
    rfl
  rw [if_neg hempty]
  by_cases hheader : client.buffer.m_nHeaderSize = msgHeaderLen
  · rw [if_pos hheader, copies_finishWrite,
      if_pos ⟨Nat.eq_zero_of_not_pos hlen, not_lt.mp hempty, hheader⟩]
  · rw [if_neg hheader, copies_finishWrite, if_neg fun h ↦ hheader h.2.2]

theorem copies_write_bytes (client : CTcpClient) (values behind : List UInt8) (sent : Bool) :
    copies (client.write (.bytes values) behind sent) =
      if 1 ≤ values.length ∧ values.length ≤ client.buffer.m_nBufferSize then
        client.headerCopies ++ [⟨client.buffer.m_nHeaderSize, values.length⟩]
      else [] := by
  unfold CTcpClient.write headerCopies
  dsimp only
  by_cases haccepted : 1 ≤ values.length ∧ values.length ≤ client.buffer.m_nBufferSize
  · have hempty : ¬values.length < 1 := not_lt.mpr haccepted.1
    have hnull : ¬(client.buffer.m_pDataBuffer = none ∧ values.length < 1) := fun h ↦ hempty h.2
    rw [if_pos haccepted, if_neg hnull, if_neg hempty, if_neg (not_lt.mpr haccepted.2)]
    by_cases hheader : client.buffer.m_nHeaderSize = msgHeaderLen
    · rw [if_pos hheader, if_pos hheader, copies_finishWrite]
      rfl
    · rw [if_neg hheader, if_neg hheader, copies_finishWrite]
      rfl
  · rw [if_neg haccepted]
    split_ifs with hnull hempty hlarge hheader
    · rfl
    · rfl
    · rfl
    · exact absurd ⟨not_lt.mp hempty, not_lt.mp hlarge⟩ haccepted
    · exact absurd ⟨not_lt.mp hempty, not_lt.mp hlarge⟩ haccepted

/-- Assumes: a buffer is allocated. A call of `write` copies into it only, exactly when its source
meets the condition. -/
theorem copies_inside_iff {client : CTcpClient} (hblock : client.buffer.m_pDataBuffer ≠ none)
    (source : Source) (behind : List UInt8) (sent : Bool) :
    (∀ access ∈ copies (client.write source behind sent),
        access.Inside client.buffer.m_nBufferSize) ↔ CopiesFit client.buffer source := by
  cases source with
  | null nLen =>
    rw [copies_write_null hblock]
    unfold CopiesFit
    split_ifs with haccepted
    · rw [List.forall_mem_singleton]
      exact ⟨fun hinside _ _ _ ↦ hinside,
        fun hfits ↦ hfits haccepted.1 haccepted.2.1 haccepted.2.2⟩
    · exact iff_of_true nofun fun hlen hdata hheader ↦ absurd ⟨hlen, hdata, hheader⟩ haccepted
  | bytes values =>
    rw [copies_write_bytes]
    unfold CopiesFit
    by_cases haccepted : 1 ≤ values.length ∧ values.length ≤ client.buffer.m_nBufferSize
    · rw [if_pos haccepted, List.forall_mem_append, List.forall_mem_singleton]
      have hdata : (Access.mk client.buffer.m_nHeaderSize values.length).Inside
          client.buffer.m_nBufferSize ↔
            client.buffer.m_nHeaderSize + values.length ≤ client.buffer.m_nBufferSize := .rfl
      rw [hdata]
      constructor
      · exact fun hinside _ _ ↦ hinside.2
      · intro hfits
        have hend := hfits haccepted.1 haccepted.2
        refine ⟨?_, hend⟩
        unfold headerCopies
        split_ifs with hheader
        · have hfields : ∀ access ∈
              headerAccesses ++ [⟨2, typeLength client.m_sStreamType⟩, ⟨12, 4⟩],
              access.offset + access.count ≤ 16 := by
            have htype : typeLength client.m_sStreamType ≤ 10 := Nat.min_le_left _ _
            simp only [headerAccesses, netStreamTypeLen, List.cons_append, List.nil_append,
              List.forall_mem_cons]
            refine ⟨by decide, by decide, by decide, ?_, by decide, nofun⟩
            omega
          intro access haccess
          have hfield := hfields access haccess
          rw [hheader] at hend
          unfold msgHeaderLen at hend
          unfold Access.Inside
          omega
        · exact nofun
    · rw [if_neg haccepted]
      exact iff_of_true nofun fun hpos hle ↦ absurd ⟨hpos, hle⟩ haccepted

/-! ### `read` -/

/-- What is left of the received bytes without the header, as an `int`. -/
theorem payload_eq {header received : ℕ} (hpos : 1 ≤ toInt received) (hheader : header < 2 ^ 31) :
    toInt (unsignedSub (intToUnsigned (toInt received)) header) = toInt received - header := by
  have hlt := toInt_lt received
  unfold unsignedSub toUnsigned intToUnsigned
  generalize toInt received = value at hpos hlt ⊢
  unfold toInt
  split_ifs <;> omega

/-- Assumes: at least one byte was received. The length that `read` hands to `memcpy` is at most
both lengths exactly under the condition. -/
theorem copyLength_le_iff {header nLen received count : ℕ} (hpos : 1 ≤ toInt received)
    (hheader : header < 2 ^ 31) (hlegal : nLen < 2 ^ 32)
    (hcount : copyLength true nLen
      (toInt (unsignedSub (intToUnsigned (toInt received)) header)) = some count) :
    count ≤ min nLen received ↔ LengthFits header nLen received := by
  have hlt := toInt_lt received
  have hle := toInt_le received
  rw [payload_eq hpos hheader] at hcount
  unfold copyLength at hcount
  unfold LengthFits
  split_ifs at hcount with hnLen hshort
  · obtain rfl := Option.some.inj hcount
    by_cases hsmall : nLen < 2 ^ 31
    · rw [if_pos hsmall]
      rw [toInt_of_lt hsmall] at hshort
      unfold intToSize
      omega
    · rw [if_neg hsmall]
      have hneg := toInt_neg (not_lt.mp hsmall) hlegal
      unfold intToSize
      omega
  · obtain rfl := Option.some.inj hcount
    by_cases hsmall : nLen < 2 ^ 31
    · rw [if_pos hsmall]
      rw [toInt_of_lt hsmall] at hshort
      omega
    · rw [if_neg hsmall]
      have hmod : received < 2 ^ 32 → received < 2 ^ 31 := by
        intro hword
        by_contra hlarge
        have hneg := toInt_neg (not_lt.mp hlarge) hword
        omega
      omega

theorem transfers_append {client : CTcpClient} {outcome : Outcome CTcpClient ReadAnswer}
    {accesses : List Access}
    (h : outcome.accesses = client.buffer.clearBuffer.accesses ++ accesses) :
    client.transfers outcome = accesses := by
  rw [transfers, h]
  exact List.drop_left

/-- The part of `read` after the bytes were received copies the data to the target, or nothing. -/
theorem accesses_finishRead (client : CTcpClient) (pTarget : Bool) (nLen : ℕ)
    (memory : List UInt8) (accesses : List Access) (taken : ℕ) :
    let outcome := client.finishRead pTarget nLen memory accesses taken
    let count := copyLength pTarget nLen
      (toInt (unsignedSub (intToUnsigned (toInt taken)) client.buffer.m_nHeaderSize))
    let keeps := ¬toInt taken < 1 ∧ ¬(4 ≤ toInt taken ∧
      strCompare exitText (cString (memory.drop client.buffer.m_nHeaderSize)) 4 = .equal)
    outcome.answer.taken = taken ∧
      (keeps → outcome.accesses = accesses ++
        (count.map fun count ↦ ⟨client.buffer.m_nHeaderSize, count⟩).toList) ∧
      (¬keeps → outcome.accesses = accesses) := by
  unfold CTcpClient.finishRead
  dsimp only
  split_ifs with hshort hexit
  · exact ⟨rfl, fun h ↦ absurd hshort h.1, fun _ ↦ rfl⟩
  · exact ⟨rfl, fun h ↦ absurd hexit h.2, fun _ ↦ rfl⟩
  · cases copyLength pTarget nLen _ with
    | none => exact ⟨rfl, fun _ ↦ (List.append_nil _).symm, fun _ ↦ rfl⟩
    | some count => exact ⟨rfl, fun _ ↦ rfl, fun h ↦ absurd ⟨hshort, hexit⟩ h⟩

theorem transfers_of_nil {client : CTcpClient} {outcome : Outcome CTcpClient ReadAnswer}
    (h : outcome.accesses = []) : client.transfers outcome = [] := by
  rw [transfers, h, List.drop_nil]

/-- Of the bytes that `read` receives to the end it copies some to the target, or none. -/
theorem transfers_finishRead {client : CTcpClient} {pTarget : Bool} {nLen : ℕ}
    (htarget : client.HasTarget pTarget nLen) (behind : List UInt8) {bytes : List UInt8}
    (hmany : 8 ≤ bytes.length) {received : ℕ} (hreceived : bytes.length ≤ received)
    (elapsed : ℕ) :
    let outcome := (client.receive bytes).finishRead pTarget nLen
      (receivedMemory client.buffer behind bytes)
      (client.buffer.clearBuffer.accesses ++ [⟨0, bytes.length⟩]) bytes.length
    let receives := Receives client.buffer pTarget nLen behind (.available bytes received elapsed)
    let count := copyLength pTarget nLen
      (toInt (unsignedSub (intToUnsigned (toInt bytes.length)) client.buffer.m_nHeaderSize))
    outcome.answer.taken = bytes.length ∧
      (receives → client.transfers outcome = ⟨0, bytes.length⟩ ::
        (count.map fun count ↦ ⟨client.buffer.m_nHeaderSize, count⟩).toList) ∧
      (¬receives → client.transfers outcome = [⟨0, bytes.length⟩]) := by
  obtain ⟨htaken, hcopies, hstays⟩ := (client.receive bytes).accesses_finishRead pTarget nLen
    (receivedMemory client.buffer behind bytes)
    (client.buffer.clearBuffer.accesses ++ [⟨0, bytes.length⟩]) bytes.length
  rw [(SameRoom.receive client bytes).header] at hcopies hstays
  refine ⟨htaken, fun hreceives ↦ transfers_append ?_, fun hrefused ↦ transfers_append ?_⟩
  · exact (hcopies hreceives.2.2.2.2).trans (List.append_assoc ..)
  · refine hstays fun hkeeps ↦ hrefused ?_
    exact ⟨htarget.1, htarget.2, not_lt.mpr hmany, not_lt.mpr hreceived, hkeeps⟩

/-- What `read` receives is in the buffer when it is no longer than the buffer. -/
theorem first_inside_iff {client : CTcpClient} {pTarget : Bool} {nLen : ℕ}
    (htarget : client.HasTarget pTarget nLen) {bytes : List UInt8} (hmany : 8 ≤ bytes.length)
    (received elapsed : ℕ) (rest : List Access) :
    (∀ access ∈ (⟨0, bytes.length⟩ :: rest).take 1,
        access.Inside client.buffer.m_nBufferSize) ↔
      ReceptionFits client.buffer pTarget nLen (.available bytes received elapsed) := by
  rw [List.take_succ_cons, List.take_zero, List.forall_mem_singleton]
  show 0 + bytes.length ≤ _ ↔ _
  rw [Nat.zero_add]
  exact ⟨fun hinside _ _ ↦ hinside, fun hfits ↦ hfits (not_lt.mp htarget.2) hmany⟩

/-- Assumes: a buffer is allocated. A call of `read` receives into it only, exactly when what
arrives meets the condition. -/
theorem reception_inside_iff {client : CTcpClient} (hblock : client.buffer.m_pDataBuffer ≠ none)
    (pTarget : Bool) (nLen : ℕ) (behind : List UInt8) (arrival : Arrival) :
    (∀ access ∈ (client.transfers (client.read pTarget nLen behind arrival)).take 1,
        access.Inside client.buffer.m_nBufferSize) ↔
      ReceptionFits client.buffer pTarget nLen arrival := by
  have hcase := client.readCase pTarget nLen behind arrival
  generalize client.read pTarget nLen behind arrival = outcome at hcase ⊢
  cases hcase with
  | refuses _ result _ htarget =>
    rw [transfers_of_nil rfl]
    refine iff_of_true nofun ?_
    cases arrival with
    | available bytes received elapsed =>
      exact fun hpos _ ↦ absurd ⟨fun h ↦ hblock h.1, not_lt.mpr hpos⟩ htarget
    | _ => trivial
  | leaves _ result connected _ _ hfew =>
    rw [transfers_append (List.append_nil _).symm]
    refine iff_of_true nofun ?_
    cases arrival with
    | available bytes received elapsed =>
      exact fun _ hmany ↦ absurd (hfew bytes received elapsed rfl) (not_lt.mpr hmany)
    | _ => trivial
  | fails bytes received elapsed htarget hmany _ =>
    rw [transfers_append rfl]
    exact first_inside_iff htarget hmany received elapsed []
  | finishes bytes received elapsed htarget hmany hreceived =>
    obtain ⟨-, hcopies, hstays⟩ :=
      transfers_finishRead htarget behind hmany hreceived elapsed
    by_cases hreceives :
        Receives client.buffer pTarget nLen behind (.available bytes received elapsed)
    · rw [← receivedMemory, hcopies hreceives]
      exact first_inside_iff htarget hmany received elapsed _
    · rw [← receivedMemory, hstays hreceives]
      exact first_inside_iff htarget hmany received elapsed []

theorem copyFits_of_not_receives {b : ClientBuffer} {pTarget : Bool} {nLen : ℕ}
    {behind : List UInt8} {arrival : Arrival} (h : ¬Receives b pTarget nLen behind arrival) :
    CopyFits b pTarget nLen behind arrival := by
  cases arrival with
  | available bytes received elapsed => exact fun hreceives ↦ absurd hreceives h
  | _ => trivial

theorem exists_copyLength {nLen : ℕ} (hpos : 1 ≤ nLen) (nPayloadSize : ℤ) :
    ∃ count, copyLength true nLen nPayloadSize = some count := by
  rw [copyLength, if_pos ⟨rfl, hpos⟩]
  split_ifs
  · exact ⟨_, rfl⟩
  · exact ⟨_, rfl⟩

/-- Assumes: a well-formed buffer, and a length of 32 bits. The length that `read` hands to `memcpy`
is at most `nLen` and at most the number of bytes received, exactly when what arrives meets the
condition. A negative length is larger than both as a `size_t`. -/
theorem copy_bounded_iff {client : CTcpClient} (hwell : client.buffer.WellFormed) (pTarget : Bool)
    {nLen : ℕ} (hlegal : nLen < 2 ^ 32) (behind : List UInt8) (arrival : Arrival) :
    (∀ access ∈ (client.transfers (client.read pTarget nLen behind arrival)).drop 1,
        access.count ≤ min nLen (client.read pTarget nLen behind arrival).answer.taken) ↔
      CopyFits client.buffer pTarget nLen behind arrival := by
  have hheader : client.buffer.m_nHeaderSize < 2 ^ 31 := by
    rcases hwell.header with hheader | hheader
    · rw [hheader]
      decide
    · rw [hheader]
      decide
  have hcase := client.readCase pTarget nLen behind arrival
  generalize client.read pTarget nLen behind arrival = outcome at hcase ⊢
  cases hcase with
  | refuses _ result _ htarget =>
    rw [transfers_of_nil rfl]
    exact iff_of_true nofun
      (copyFits_of_not_receives fun h ↦ htarget (hasTarget_of_receives h))
  | leaves _ result connected _ _ hfew =>
    rw [transfers_append (List.append_nil _).symm]
    exact iff_of_true nofun (copyFits_of_not_receives (not_receives_of_few hfew))
  | fails bytes received elapsed htarget hmany hfailed =>
    rw [transfers_append rfl]
    exact iff_of_true nofun (copyFits_of_not_receives fun h ↦ h.2.2.2.1 hfailed)
  | finishes bytes received elapsed htarget hmany hreceived =>
    obtain ⟨htaken, hcopies, hstays⟩ :=
      transfers_finishRead htarget behind hmany hreceived elapsed
    by_cases hreceives :
        Receives client.buffer pTarget nLen behind (.available bytes received elapsed)
    · rw [← receivedMemory, hcopies hreceives, htaken, List.drop_one, List.tail_cons]
      unfold CopyFits
      cases pTarget with
      | false =>
        rw [copyLength, if_neg fun h ↦ Bool.noConfusion h.1]
        exact iff_of_true nofun fun _ h ↦ absurd h Bool.noConfusion
      | true =>
        have hpos : 1 ≤ nLen := not_lt.mp hreceives.2.1
        obtain ⟨count, hcount⟩ := exists_copyLength hpos
          (toInt (unsignedSub (intToUnsigned (toInt bytes.length)) client.buffer.m_nHeaderSize))
        rw [hcount]
        show (∀ access ∈ [Access.mk client.buffer.m_nHeaderSize count], _) ↔ _
        rw [List.forall_mem_singleton]
        have hiff := copyLength_le_iff (not_lt.mp hreceives.2.2.2.2.1) hheader hlegal hcount
        exact hiff.trans ⟨fun hfits _ _ ↦ hfits, fun hfits ↦ hfits hreceives rfl⟩
    · rw [← receivedMemory, hstays hreceives]
      exact iff_of_true nofun (copyFits_of_not_receives hreceives)

/-! ### Runs -/

theorem wellFormed_of_run {client : CTcpClient}
    {trace : List (Call CTcpClient (ClientCall Arrival) (Option Access))}
    (hrun : Run (ClientStep CTcpClient.call) .new trace client) : client.buffer.WellFormed := by
  refine hrun.invariant (fun client ↦ client.buffer.WellFormed) (fun _ ↦ True) ?_
    (fun _ _ ↦ trivial) ClientBuffer.wellFormed_new
  rintro before label reply after - hbefore ⟨hlegal, hanswer⟩
  obtain rfl : (before.call label).1 = after := congrArg Prod.fst hanswer
  exact keepsExactly.wellFormed before label hlegal hbefore

/-- Assumes: a run of a `CTcpClient` from its constructor, which leaves a buffer. For every source,
`write` copies into the buffer only, exactly when the source meets the condition. For every length
and whatever arrives, `read` receives into the buffer only, and hands a length to `memcpy` that is
between zero and both lengths, exactly when what arrives meets the condition on each. -/
theorem transfers_bounded_iff {client : CTcpClient}
    {trace : List (Call CTcpClient (ClientCall Arrival) (Option Access))}
    (hrun : Run (ClientStep CTcpClient.call) .new trace client)
    (hblock : client.buffer.m_pDataBuffer ≠ none) :
    (∀ source behind sent, (∀ access ∈ copies (client.write source behind sent),
        access.Inside client.buffer.m_nBufferSize) ↔ CopiesFit client.buffer source) ∧
      ∀ pTarget nLen behind arrival, nLen < 2 ^ 32 →
        ((∀ access ∈ (client.transfers (client.read pTarget nLen behind arrival)).take 1,
            access.Inside client.buffer.m_nBufferSize) ↔
          ReceptionFits client.buffer pTarget nLen arrival) ∧
        ((∀ access ∈ (client.transfers (client.read pTarget nLen behind arrival)).drop 1,
            access.count ≤ min nLen (client.read pTarget nLen behind arrival).answer.taken) ↔
          CopyFits client.buffer pTarget nLen behind arrival) := by
  refine ⟨copies_inside_iff hblock, fun pTarget nLen behind arrival hlegal ↦ ⟨?_, ?_⟩⟩
  · exact reception_inside_iff hblock pTarget nLen behind arrival
  · exact copy_bounded_iff (wellFormed_of_run hrun) pTarget hlegal behind arrival

theorem transfers_bounded_iff_header :
    ∃ trace client, Run (ClientStep CTcpClient.call) .new trace client ∧
      trace.map Call.label = [.buffer (.allocBuffer 44 true true)] ∧
      (∀ access ∈ copies (client.write (.bytes [7]) [] true),
        access.Inside client.buffer.m_nBufferSize) ∧
      (∀ access ∈ (client.transfers (client.read true 4 []
        (.available (List.replicate 24 7) 24 0))).take 1,
          access.Inside client.buffer.m_nBufferSize) ∧
      ∀ access ∈ (client.transfers (client.read true 4 []
        (.available (List.replicate 24 7) 24 0))).drop 1,
          access.count ≤ min 4 (client.read true 4 []
            (.available (List.replicate 24 7) 24 0)).answer.taken := by
  have halloc : ∃ trace client, Run (ClientStep CTcpClient.call) .new trace client ∧
      trace.map Call.label = [.buffer (.allocBuffer 44 true true)] ∧
      client.buffer.m_pDataBuffer ≠ none ∧ client.buffer.m_nHeaderSize = 20 ∧
      client.buffer.m_nBufferSize = 44 :=
    Run.exists_cons _ ⟨by decide, rfl⟩
      ⟨_, _, .nil _, rfl, Option.some_ne_none _, rfl, rfl⟩
  obtain ⟨trace, client, hrun, hlabels, hblock, hheader, hsize⟩ := halloc
  obtain ⟨hwrite, hread⟩ := transfers_bounded_iff hrun hblock
  obtain ⟨hreceive, hcopy⟩ :=
    hread true 4 [] (.available (List.replicate 24 7) 24 0) (by decide)
  refine ⟨trace, client, hrun, hlabels, (hwrite ..).mpr ?_, hreceive.mpr ?_, hcopy.mpr ?_⟩
  · show 1 ≤ 1 → 1 ≤ client.buffer.m_nBufferSize →
      client.buffer.m_nHeaderSize + 1 ≤ client.buffer.m_nBufferSize
    rw [hheader, hsize]
    decide
  · unfold ReceptionFits
    rw [hsize]
    decide
  · unfold CopyFits
    rw [hheader]
    exact fun _ _ ↦ (if_pos (by decide : 4 < 2 ^ 31)).mpr (by decide)

/-- In a buffer of 24 bytes with a header, `write` of 24 bytes copies 20 bytes too far, and `read`
receives 25 bytes. In a buffer of 20 bytes that keeps the header size of the one before, `read`
receives 8 bytes and hands `memcpy` the length `8 - 20`. -/
theorem transfers_leave_the_buffer :
    (∃ trace client, Run (ClientStep CTcpClient.call) .new trace client ∧
      trace.map Call.label = [.buffer (.allocBuffer 24 true true)] ∧
      (¬∀ access ∈ copies (client.write (.bytes (List.replicate 24 7)) [] true),
        access.Inside client.buffer.m_nBufferSize) ∧
      ¬∀ access ∈ (client.transfers (client.read true 4 []
        (.available (List.replicate 25 7) 25 0))).take 1,
          access.Inside client.buffer.m_nBufferSize) ∧
    ∃ trace client, Run (ClientStep CTcpClient.call) .new trace client ∧
      trace.map Call.label = [.buffer (.allocBuffer 22 true true),
        .buffer (.allocBuffer 20 false true)] ∧
      ¬∀ access ∈ (client.transfers (client.read true 4 [7, 7, 7, 7]
        (.available (List.replicate 8 7) 8 0))).drop 1,
          access.count ≤ min 4 (client.read true 4 [7, 7, 7, 7]
            (.available (List.replicate 8 7) 8 0)).answer.taken := by
  constructor
  · refine Run.exists_cons _ ⟨by decide, rfl⟩ ⟨_, _, .nil _, rfl, ?_, ?_⟩
    · rw [copies_inside_iff (Option.some_ne_none _)]
      exact fun hfits ↦ absurd (hfits (by decide) (by decide)) (by decide)
    · rw [reception_inside_iff (Option.some_ne_none _)]
      exact fun hfits ↦ absurd (hfits (by decide) (by decide)) (by decide)
  · refine Run.exists_cons _ ⟨by decide, rfl⟩ <| Run.exists_cons _ ⟨by decide, rfl⟩
      ⟨_, _, .nil _, rfl, ?_⟩
    decide

end RdbLibs.NetIO.CClientIO.CTcpClient
