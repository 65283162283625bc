import RdbLibs.NetIO.CTcpServer.Output
import RdbLibs.NetIO.GuardedMessage

/-!
# The message that the threads share

What the steps of the threads do to `m_outputMsg`. Between steps its mutex is free and its header
has 20 bytes (`Usable`). A message is `Copied` when its bytes are at the start of the area, and
`Complete` when moreover the length is the one of its frame. The step of the session that encodes
the header leaves what was copied, and the one that transfers leaves the whole message. What any
step of the session can do is said once (`sessionMove`).
-/

set_option autoImplicit false
set_option relaxedAutoImplicit false

namespace RdbLibs.NetIO.CTcpServer

open MachineWord CheckedMemory CNetMessageData NetworkDataHeaderInfo

/-- What holds of the shared message between any two steps. -/
structure Usable (d : CNetMessageData) : Prop where
  unlocked : d.m_dataLock = false
  headerLength : d.m_nHeaderLength = msgHeaderLen
  block_lt : ∀ cells, d.m_pData = some cells → cells.length < 2 ^ 32

/-- The block starts with the header, which the message follows. -/
def InBlock (header message : List UInt8) (d : CNetMessageData) : Prop :=
  header.length = msgHeaderLen ∧ ∃ rest, d.m_pData = some (header ++ (message ++ rest))

/-- The bytes of the message are at the start of the area. -/
def Copied (message : List UInt8) (d : CNetMessageData) : Prop := ∃ header, InBlock header message d

/-- The bytes of the message are at the start of the area, and the length is that of its frame. -/
structure Complete (message : List UInt8) (d : CNetMessageData) : Prop where
  copied : Copied message d
  length_eq : d.m_nDataLength = msgHeaderLen + message.length

variable {d d' : CNetMessageData} {message : List UInt8}

theorem usable_of_allocated {payload : ℕ} (h : Allocated payload d) : Usable d where
  unlocked := h.unlocked
  headerLength := h.headerLength
  block_lt := by
    intro cells hcells
    obtain ⟨cells', hcells', hlength⟩ := h.data
    obtain rfl := Option.some.inj (hcells.symm.trans hcells')
    rw [hlength, h.maxDataSize]
    exact toUnsigned_lt _

theorem Usable.lock (h : Usable d) : d.lock = .ok { d with m_dataLock := true } := by
  rw [CNetMessageData.lock, h.unlocked]
  rfl

/-- Unlocking what was locked before. -/
theorem Usable.unlock (h : Usable d) :
    { d with m_dataLock := true }.unlock = .ok d := by
  obtain ⟨data, header, size, length, updated, locked⟩ := d
  obtain rfl : locked = false := h.unlocked
  rfl

theorem exists_of_access {write : List UInt8 → Except Fault (List UInt8)}
    (h : d.access write = .ok d') :
    ∃ cells cells', d.m_pData = some cells ∧ write cells = .ok cells' ∧
      d' = { d with m_pData := some cells' } := by
  obtain ⟨cells, hcells, h⟩ := of_bind_eq_ok h
  obtain ⟨cells', hwrite, hpure⟩ := of_bind_eq_ok h
  refine ⟨cells, cells', ?_, hwrite, (Except.ok.inj hpure).symm⟩
  unfold CNetMessageData.cells at hcells
  cases hdata : d.m_pData with
  | none =>
    rw [hdata] at hcells
    cases hcells
  | some block =>
    rw [hdata] at hcells
    rw [Except.ok.inj hcells]

/-! ### Steps of the applications -/

theorem Usable.allocBuffer (h : Usable d) {nLen : ℕ} {granted : Bool}
    (halloc : (d.allocBuffer nLen granted).map Prod.snd = .ok d') : Usable d' := by
  rw [CNetMessageData.allocBuffer, h.lock, ok_bind] at halloc
  by_cases hempty : nLen < 1
  · rw [if_pos hempty, h.unlock] at halloc
    exact Except.ok.inj halloc ▸ h
  · rw [if_neg hempty] at halloc
    cases granted with
    | false =>
      obtain rfl := Except.ok.inj halloc
      exact ⟨rfl, rfl, by simp⟩
    | true =>
      obtain rfl := Except.ok.inj halloc
      refine ⟨rfl, rfl, fun cells hcells ↦ ?_⟩
      rw [← Option.some.inj hcells, List.length_replicate]
      exact toUnsigned_lt _

theorem Usable.copyBody (h : Usable d) {copied : Bool}
    (hcopy : CTcpServer.copyBody d message = .ok (copied, d')) :
    copied = true ∧ Usable d' ∧ Copied message d' := by
  have hpointer : d.getBodyPtr = .ok (some msgHeaderLen, { d with m_dataLock := true }) := by
    rw [getBodyPtr, h.lock, ok_bind, if_neg, h.headerLength]
    · rfl
    · rw [h.headerLength]
      exact fun hzero ↦ absurd hzero.2 (by decide)
  rw [CTcpServer.copyBody, hpointer, ok_bind] at hcopy
  obtain ⟨written, hwritten, hcopy⟩ := of_bind_eq_ok hcopy
  obtain ⟨cells, cells', hcells, hstore, rfl⟩ := exists_of_access hwritten
  obtain ⟨hlength, rfl⟩ := exists_of_storeRange hstore
  obtain ⟨rfl, rfl⟩ := Prod.mk.inj (Except.ok.inj hcopy)
  have hheader : (cells.take msgHeaderLen).length = msgHeaderLen :=
    List.length_take_of_le ((Nat.le_add_right ..).trans hlength)
  refine ⟨rfl, ⟨rfl, h.headerLength, fun block hblock ↦ ?_⟩, cells.take msgHeaderLen, hheader,
    cells.drop (msgHeaderLen + message.length), ?_⟩
  · have hlt := h.block_lt cells hcells
    rw [← Option.some.inj hblock, List.length_append, List.length_append, List.length_drop, hheader]
    omega
  · rw [List.append_assoc]

theorem Usable.setBodyLength (h : Usable d) (nLen : ℕ) : Usable (d.setBodyLength nLen) :=
  ⟨h.unlocked, h.headerLength, h.block_lt⟩

theorem Usable.setUpdated (h : Usable d) (val : Bool) : Usable (d.setUpdated val) :=
  ⟨h.unlocked, h.headerLength, h.block_lt⟩

theorem Complete.setUpdated (h : Complete message d) (val : Bool) :
    Complete message (d.setUpdated val) := ⟨h.copied, h.length_eq⟩

/-- The frame of a message that is in the block has a length that does not wrap around. -/
theorem Copied.length_lt (hcopied : Copied message d) (h : Usable d) :
    msgHeaderLen + message.length < 2 ^ 32 := by
  obtain ⟨header, hheader, rest, hdata⟩ := hcopied
  have hlt := h.block_lt _ hdata
  rw [List.length_append, List.length_append, hheader] at hlt
  omega

/-- The last step of `writeOutputData` completes what was copied. -/
theorem Copied.complete (hcopied : Copied message d) (h : Usable d) :
    Complete message (d.setBodyLength message.length) where
  copied := hcopied
  length_eq := by
    rw [CNetMessageData.setBodyLength, h.headerLength]
    exact toUnsigned_of_lt (hcopied.length_lt h)

/-- What a step of `writeOutputData` can do. -/
inductive WriteEffect (message : List UInt8) (d : CNetMessageData) :
    WritePhase → CNetMessageData → AppPhase → Prop
  | test {phase next : WritePhase} :
      phase = .isBufferAllocated ∨ phase = .getMaxDataLen → next ≠ .setBodyLength →
      WriteEffect message d phase d (.writing message next)
  | allocate {phase next : WritePhase} {d' : CNetMessageData} :
      phase = .allocBuffer ∨ phase = .growBuffer → Usable d' → next ≠ .setBodyLength →
      WriteEffect message d phase d' (.writing message next)
  | copy {d' : CNetMessageData} : Usable d' → Copied message d' →
      WriteEffect message d .copyBody d' (.writing message .setBodyLength)
  | setLength : WriteEffect message d .setBodyLength (d.setBodyLength message.length)
      (.written message)

theorem WritePhase.effect (h : Usable d) {granted : Bool} {phase : WritePhase} {next : AppPhase}
    (hstep : phase.step d message granted = .ok (d', next)) :
    WriteEffect message d phase d' next := by
  cases phase with
  | isBufferAllocated =>
    change (if d.isBufferAllocated = false then _ else _) = _ at hstep
    split_ifs at hstep
    · obtain ⟨rfl, rfl⟩ := Prod.mk.inj (Except.ok.inj hstep)
      exact .test (.inl rfl) nofun
    · obtain ⟨rfl, rfl⟩ := Prod.mk.inj (Except.ok.inj hstep)
      exact .test (.inl rfl) nofun
  | allocBuffer =>
    obtain ⟨allocated, hallocated, hstep⟩ := of_bind_eq_ok hstep
    obtain ⟨rfl, rfl⟩ := Prod.mk.inj (Except.ok.inj hstep)
    exact .allocate (.inl rfl) (h.allocBuffer hallocated) nofun
  | getMaxDataLen =>
    change (if intToSize d.getMaxDataLen < message.length then _ else _) = _ at hstep
    split_ifs at hstep
    · obtain ⟨rfl, rfl⟩ := Prod.mk.inj (Except.ok.inj hstep)
      exact .test (.inr rfl) nofun
    · obtain ⟨rfl, rfl⟩ := Prod.mk.inj (Except.ok.inj hstep)
      exact .test (.inr rfl) nofun
  | growBuffer =>
    obtain ⟨grown, hgrown, hstep⟩ := of_bind_eq_ok hstep
    obtain ⟨rfl, rfl⟩ := Prod.mk.inj (Except.ok.inj hstep)
    exact .allocate (.inr rfl) (h.allocBuffer hgrown) nofun
  | copyBody =>
    obtain ⟨⟨copied, written⟩, hcopy, hstep⟩ := of_bind_eq_ok hstep
    obtain ⟨rfl, husable, hcopied⟩ := h.copyBody hcopy
    obtain ⟨rfl, rfl⟩ := Prod.mk.inj (Except.ok.inj hstep)
    exact .copy husable hcopied
  | setBodyLength =>
    obtain ⟨rfl, rfl⟩ := Prod.mk.inj (Except.ok.inj hstep)
    exact .setLength

/-! ### Steps of the session -/

/-- The length that the session reads of a complete message. -/
theorem Complete.getCurDataLen_eq (hcomplete : Complete message d) :
    d.getCurDataLen = toInt (msgHeaderLen + message.length) := by
  rw [getCurDataLen, hcomplete.length_eq]

theorem Copied.isBufferAllocated (hcopied : Copied message d) : d.isBufferAllocated = true := by
  obtain ⟨header, -, rest, hdata⟩ := hcopied
  rw [CNetMessageData.isBufferAllocated, hdata]
  exact if_neg (by simp)

theorem exists_of_encodeHeader (h : Usable d) {sType : List UInt8}
    (hencode : encodeHeader d sType = .ok d') :
    ∃ cells cells', d.m_pData = some cells ∧
      initializeHeader cells (some sType) (intToUnsigned d.getBodyLength) = .ok cells' ∧
      d' = { d with m_pData := some cells' } := by
  obtain ⟨data, headerLength, size, length, updated, locked⟩ := d
  obtain rfl : locked = false := h.unlocked
  obtain ⟨pointer, hpointer, hencode⟩ := of_bind_eq_ok hencode
  obtain rfl := Except.ok.inj hpointer
  obtain ⟨written, hwritten, hencode⟩ := of_bind_eq_ok hencode
  obtain ⟨cells, cells', hcells, hwrite, rfl⟩ := exists_of_access hwritten
  exact ⟨cells, cells', hcells, hwrite, (Except.ok.inj hencode).symm⟩

/-- Encoding the header keeps what was copied. The header announces the body length. -/
theorem Copied.encodeHeader (hcopied : Copied message d) (h : Usable d) {sType : List UInt8}
    (hencode : CTcpServer.encodeHeader d sType = .ok d') :
    ∃ header, Announces header (intToUnsigned d.getBodyLength) ∧ InBlock header message d' := by
  obtain ⟨header, hheader, rest, hdata⟩ := hcopied
  obtain ⟨cells, cells', hcells, hwrite, rfl⟩ := exists_of_encodeHeader h hencode
  obtain rfl := Option.some.inj (hdata.symm.trans hcells)
  rw [initializeHeader_eq hheader] at hwrite
  obtain rfl := Except.ok.inj hwrite
  have hannounces : Announces (encoded header (some sType) (intToUnsigned d.getBodyLength))
      (intToUnsigned d.getBodyLength) := announces_encoded hheader _ (intToUnsigned_lt _)
  exact ⟨_, hannounces, hannounces.length, rest, rfl⟩

theorem Usable.encodeHeader (h : Usable d) {sType : List UInt8}
    (hencode : CTcpServer.encodeHeader d sType = .ok d') :
    Usable d' ∧ d'.m_nDataLength = d.m_nDataLength ∧ d'.m_bUpdated = d.m_bUpdated := by
  obtain ⟨cells, cells', hcells, hwrite, rfl⟩ := exists_of_encodeHeader h hencode
  refine ⟨⟨h.unlocked, h.headerLength, fun block hblock ↦ ?_⟩, rfl, rfl⟩
  have hyields : Yields (fun _ ↦ True) (initializeHeader cells (some sType)
      (intToUnsigned d.getBodyLength)) fun written ↦ written.length = cells.length :=
    initializeHeader_yields (.inl trivial) _ _
  rw [hwrite] at hyields
  obtain rfl := Option.some.inj hblock
  exact lt_of_eq_of_lt hyields (h.block_lt cells hcells)

/-- The header that is encoded of a complete message announces its length. -/
theorem Complete.encodeHeader (hcomplete : Complete message d) (h : Usable d) {sType : List UInt8}
    (hencode : CTcpServer.encodeHeader d sType = .ok d') :
    Complete message d' ∧
      ∃ header, Announces header message.length ∧ InBlock header message d' := by
  have hlength : intToUnsigned d.getBodyLength = message.length := by
    have hlt := hcomplete.copied.length_lt h
    rw [getBodyLength, hcomplete.length_eq, h.headerLength, if_neg (by unfold msgHeaderLen; omega),
      if_neg (by omega), Nat.add_sub_cancel_left, intToUnsigned_toInt (by omega)]
  obtain ⟨header, hannounces, hblock⟩ := hcomplete.copied.encodeHeader h hencode
  rw [hlength] at hannounces
  have hkept := (h.encodeHeader hencode).2.1
  exact ⟨⟨⟨header, hblock⟩, hkept.trans hcomplete.length_eq⟩, header, hannounces, hblock⟩

/-- What one step of the session thread does. A transfer is left to `transfer_cases`. -/
inductive SessionMove (sType : List UInt8) (o : Output) : Output → Prop
  | waits : o.session = .isUpdated → SessionMove sType o o
  | starts : o.session = .isUpdated → o.m_outputMsg.isUpdated = true →
      SessionMove sType o { o with session := .getCurDataLen }
  | givesUp : o.session = .getCurDataLen → SessionMove sType o { o with session := .ended }
  | readsLength : o.session = .getCurDataLen → 0 < o.m_outputMsg.getCurDataLen →
      SessionMove sType o { o with session := .isBufferAllocated o.m_outputMsg.getCurDataLen }
  | testsBuffer {nLen : ℤ} {next : SessionPhase} : o.session = .isBufferAllocated nLen →
      next = .transfer nLen ∨ next = .encodeHeader nLen →
      SessionMove sType o { o with session := next }
  | encodes {nLen : ℤ} {d : CNetMessageData} : o.session = .encodeHeader nLen →
      encodeHeader o.m_outputMsg sType = .ok d →
      SessionMove sType o { o with m_outputMsg := d, session := .transfer nLen }
  | transfers {nLen : ℤ} {o' : Output} : o.session = .transfer nLen → SessionMove sType o o'
  | clears : o.session = .setUpdated → SessionMove sType o
      { o with m_outputMsg := o.m_outputMsg.setUpdated false, session := .setUpdatedAgain }
  | clearsAgain : o.session = .setUpdatedAgain → SessionMove sType o
      { o with m_outputMsg := o.m_outputMsg.setUpdated false, session := .isUpdated }
  | rests : o.session = .ended → SessionMove sType o o

theorem sessionMove {sType : List UInt8} {o o' : Output} (hstep : sessionStep sType o = .ok o') :
    SessionMove sType o o' := by
  unfold sessionStep at hstep
  cases hsession : o.session with
  | isUpdated =>
    rw [hsession] at hstep
    dsimp only at hstep
    split_ifs at hstep with hflag
    · exact Except.ok.inj hstep ▸ .starts hsession hflag
    · exact Except.ok.inj hstep ▸ .waits hsession
  | getCurDataLen =>
    rw [hsession] at hstep
    dsimp only at hstep
    split_ifs at hstep with hempty
    · exact Except.ok.inj hstep ▸ .givesUp hsession
    · exact Except.ok.inj hstep ▸ .readsLength hsession (not_lt.mp hempty)
  | isBufferAllocated nLen =>
    rw [hsession] at hstep
    dsimp only at hstep
    split_ifs at hstep
    · exact Except.ok.inj hstep ▸ .testsBuffer hsession (.inl rfl)
    · exact Except.ok.inj hstep ▸ .testsBuffer hsession (.inr rfl)
  | encodeHeader nLen =>
    rw [hsession] at hstep
    obtain ⟨d, hencode, hstep⟩ := of_bind_eq_ok hstep
    exact Except.ok.inj hstep ▸ .encodes hsession hencode
  | transfer nLen => exact .transfers hsession
  | setUpdated =>
    rw [hsession] at hstep
    exact Except.ok.inj hstep ▸ .clears hsession
  | setUpdatedAgain =>
    rw [hsession] at hstep
    exact Except.ok.inj hstep ▸ .clearsAgain hsession
  | ended =>
    rw [hsession] at hstep
    exact Except.ok.inj hstep ▸ .rests hsession

/-- What the transfer of the session does. It leaves the message. -/
theorem transfer_cases {sType : List UInt8} {o o' : Output} {nLen : ℤ}
    (hsession : o.session = .transfer nLen) (h : Usable o.m_outputMsg)
    (hstep : sessionStep sType o = .ok o') :
    o.m_outputMsg.m_pData = none ∧ o' = { o with session := .ended } ∨
      ∃ cells bytes, o.m_outputMsg.m_pData = some cells ∧
        loadRange cells 0 (intToSize nLen) = .ok bytes ∧
        o' = { o with session := .setUpdated, wire := o.wire ++ [bytes] } := by
  obtain ⟨⟨data, headerLength, size, length, updated, locked⟩, apps, phase, wire⟩ := o
  obtain rfl : locked = false := h.unlocked
  obtain rfl : phase = .transfer nLen := hsession
  cases data with
  | none => exact .inl ⟨rfl, (Except.ok.inj hstep).symm⟩
  | some cells =>
    obtain ⟨pointer, hpointer, hstep⟩ := of_bind_eq_ok hstep
    obtain rfl := Except.ok.inj hpointer
    obtain ⟨block, hblock, hstep⟩ := of_bind_eq_ok hstep
    obtain rfl := Except.ok.inj hblock
    obtain ⟨bytes, hbytes, hstep⟩ := of_bind_eq_ok hstep
    exact .inr ⟨cells, bytes, rfl, hbytes, (Except.ok.inj hstep).symm⟩

/-- Of a message in the block the transfer puts the header and the message on the wire. -/
theorem transfer_frame {sType : List UInt8} {o o' : Output} {nLen : ℤ}
    (hsession : o.session = .transfer nLen) (h : Usable o.m_outputMsg) {header : List UInt8}
    (hblock : InBlock header message o.m_outputMsg)
    (hnLen : nLen = toInt (msgHeaderLen + message.length)) (hpos : 0 < nLen)
    (hstep : sessionStep sType o = .ok o') :
    o' = { o with session := .setUpdated, wire := o.wire ++ [header ++ message] } := by
  obtain ⟨hheader, rest, hdata⟩ := hblock
  have hsize : intToSize nLen = (header ++ message).length := by
    have hlt := Copied.length_lt ⟨header, hheader, rest, hdata⟩ h
    have hint : msgHeaderLen + message.length < 2 ^ 31 := by
      by_contra hlarge
      exact absurd (hnLen ▸ toInt_neg (not_lt.mp hlarge) hlt) (not_lt.mpr hpos.le)
    rw [hnLen, intToSize_toInt_of_lt hint, List.length_append, hheader]
  rcases transfer_cases hsession h hstep with ⟨hnone, -⟩ | ⟨cells, bytes, hcells, hbytes, rfl⟩
  · cases hdata.symm.trans hnone
  · obtain rfl := Option.some.inj (hdata.symm.trans hcells)
    have hload : loadRange (header ++ (message ++ rest)) 0 (intToSize nLen) =
        .ok (header ++ message) := by
      have hmiddle := loadRange_middle rest List.length_nil hsize.symm
      rwa [List.nil_append, List.append_assoc] at hmiddle
    obtain rfl := Except.ok.inj (hload.symm.trans hbytes)
    rfl

end RdbLibs.NetIO.CTcpServer
