import RdbLibs.NetIO.CNetMessageData

/-!
# Messages with memory

`Allocated payload d` is what a successful `allocBuffer` establishes. Unless the size of the block
wrapped around, the message is then `laidOut`: a header of 20 bytes, an area of `payload` bytes for
the body, and sizes that agree with them. There is one lemma for each method, which says what the
method makes of a message that is laid out.
-/

set_option autoImplicit false
set_option relaxedAutoImplicit false

namespace RdbLibs.NetIO

open MachineWord CheckedMemory ByteCodec

namespace CNetMessageData

/-- A message whose memory was allocated with room for `payload` bytes, and whose mutex is free. The
size of the block is an `unsigned int`. -/
structure Allocated (payload : ℕ) (d : CNetMessageData) : Prop where
  data : ∃ cells, d.m_pData = some cells ∧ cells.length = d.m_nMaxDataSize
  headerLength : d.m_nHeaderLength = msgHeaderLen
  maxDataSize : d.m_nMaxDataSize = toUnsigned (msgHeaderLen + payload)
  payload_pos : 0 < payload
  payload_lt : payload < 2 ^ 32
  unlocked : d.m_dataLock = false

theorem Allocated.getHeaderLength_eq {payload : ℕ} {d : CNetMessageData} (h : Allocated payload d) :
    d.getHeaderLength = (msgHeaderLen : ℕ) := by
  rw [getHeaderLength, h.headerLength]
  exact toInt_of_lt (by decide)

/-- A message in a block that holds `header` and, behind it, `area`. -/
def laidOut (header area : List UInt8) (dataLength : ℕ) (updated locked : Bool) :
    CNetMessageData where
  m_pData := some (header ++ area)
  m_nHeaderLength := msgHeaderLen
  m_nMaxDataSize := msgHeaderLen + area.length
  m_nDataLength := dataLength
  m_bUpdated := updated
  m_dataLock := locked

/-- The message that `allocBuffer` makes of a new one. -/
def newMessage (payload : ℕ) : CNetMessageData :=
  laidOut (List.replicate msgHeaderLen 0) (List.replicate payload 0) 0 false false

theorem allocBuffer_construct (nHeaderLength : ℕ) {payload : ℕ} (hpos : 0 < payload)
    (hfits : msgHeaderLen + payload < 2 ^ 32) :
    (construct nHeaderLength).allocBuffer payload true = .ok (true, newMessage payload) := by
  have hpositive : ¬payload < 1 := by omega
  simp [allocBuffer, construct, lock, unlock, newMessage, laidOut, toUnsigned_of_lt hfits,
    hpositive]

/-- A successful `allocBuffer` gives an allocated message. -/
theorem allocated_of_allocBuffer {d d' : CNetMessageData} {payload : ℕ} {granted : Bool}
    (hpayload : payload < 2 ^ 32) (h : d.allocBuffer payload granted = .ok (true, d')) :
    Allocated payload d' := by
  unfold allocBuffer lock unlock at h
  by_cases hlocked : d.m_dataLock
  · simp [hlocked] at h
  · by_cases hpos : payload < 1
    · simp [hlocked, hpos] at h
    · cases granted with
      | false => simp [hlocked, hpos] at h
      | true =>
        simp only [hlocked, hpos, Bool.false_eq_true, Bool.true_eq_false, ↓reduceIte,
          bind_pure_comp, ok_bind, Except.map_ok, Except.ok.injEq, Prod.mk.injEq, true_and] at h
        subst h
        exact ⟨⟨_, rfl, List.length_replicate⟩, rfl, rfl, by omega, hpayload, rfl⟩

/-- A message is allocated without a wrap exactly when it is laid out. -/
theorem Allocated.exists_laidOut {payload : ℕ} {d : CNetMessageData} (h : Allocated payload d)
    (hfits : msgHeaderLen + payload < 2 ^ 32) :
    ∃ header area : List UInt8, header.length = msgHeaderLen ∧ area.length = payload ∧
      d = laidOut header area d.m_nDataLength d.m_bUpdated false := by
  obtain ⟨cells, hcells, hlength⟩ := h.data
  have hsize : d.m_nMaxDataSize = msgHeaderLen + payload :=
    h.maxDataSize.trans (toUnsigned_of_lt hfits)
  have harea : (cells.drop msgHeaderLen).length = payload := by
    rw [List.length_drop, hlength, hsize, Nat.add_sub_cancel_left]
  refine ⟨cells.take msgHeaderLen, cells.drop msgHeaderLen, ?_, harea, ?_⟩
  · rw [List.length_take, hlength, hsize]
    exact Nat.min_eq_left (Nat.le_add_right ..)
  · rw [laidOut, List.take_append_drop, harea, ← hcells, ← hsize, ← h.headerLength, ← h.unlocked]

theorem allocated_laidOut {header area : List UInt8} (hheader : header.length = msgHeaderLen)
    (harea : 0 < area.length) (hfits : msgHeaderLen + area.length < 2 ^ 32) (dataLength : ℕ)
    (updated : Bool) : Allocated area.length (laidOut header area dataLength updated false) where
  data := ⟨header ++ area, rfl, by rw [List.length_append, hheader]; rfl⟩
  headerLength := rfl
  maxDataSize := (toUnsigned_of_lt hfits).symm
  payload_pos := harea
  payload_lt := lt_of_le_of_lt (Nat.le_add_left ..) hfits
  unlocked := rfl

theorem allocated_newMessage {payload : ℕ} (hpos : 0 < payload)
    (hfits : msgHeaderLen + payload < 2 ^ 32) : Allocated payload (newMessage payload) :=
  allocated_of_allocBuffer (lt_of_le_of_lt (Nat.le_add_left ..) hfits)
    (allocBuffer_construct msgHeaderLen hpos hfits)

/-- Assumes: a body of 1 byte or more is shorter than what `getMaxDataLen` says. Then the size of
the block has not wrapped around, and the body is shorter than the area. -/
theorem Allocated.lt_payload {payload : ℕ} {d : CNetMessageData} (h : Allocated payload d)
    {bodyLength : ℕ} (hpos : 0 < bodyLength) (hroom : (bodyLength : ℤ) < d.getMaxDataLen) :
    msgHeaderLen + payload < 2 ^ 32 ∧ bodyLength < payload := by
  have hlt := h.payload_lt
  rw [getMaxDataLen, h.maxDataSize, h.headerLength] at hroom
  unfold toUnsigned toInt msgHeaderLen at *
  split_ifs at hroom <;> omega

/-- The answer of `getMaxDataLen` depends on the allocation alone. -/
theorem Allocated.getMaxDataLen_eq {payload : ℕ} {d d' : CNetMessageData} (h : Allocated payload d)
    (h' : Allocated payload d') : d.getMaxDataLen = d'.getMaxDataLen := by
  unfold getMaxDataLen
  rw [h.maxDataSize, h.headerLength, h'.maxDataSize, h'.headerLength]

/-- `clearAll` needs no more than memory of the size that the message has noted. -/
theorem Allocated.clearAll {payload : ℕ} {d : CNetMessageData} (h : Allocated payload d) :
    ∃ d', d.clearAll = .ok d' ∧ Allocated payload d' := by
  obtain ⟨cells, hcells, hlength⟩ := h.data
  have hfill : fillRange cells 0 d.m_nMaxDataSize 0 =
      .ok (List.replicate d.m_nMaxDataSize 0) := by
    simpa using fillRange_middle [] List.length_nil hlength 0
  refine ⟨{ d with m_pData := some (List.replicate d.m_nMaxDataSize 0), m_nDataLength := 0 }, ?_,
    ⟨⟨_, rfl, List.length_replicate⟩, h.headerLength, h.maxDataSize, h.payload_pos, h.payload_lt,
      h.unlocked⟩⟩
  simp [CNetMessageData.clearAll, lock, unlock, access, CNetMessageData.cells, h.unlocked, hcells,
    hfill]

section Methods

variable {header area : List UInt8} {dataLength : ℕ} {updated locked : Bool}

theorem getMaxDataLen_laidOut :
    (laidOut header area dataLength updated locked).getMaxDataLen = toInt area.length := by
  simp [getMaxDataLen, laidOut, msgHeaderLen]

theorem getHeaderLength_laidOut :
    (laidOut header area dataLength updated locked).getHeaderLength = msgHeaderLen :=
  toInt_of_lt (n := msgHeaderLen) (by decide)

theorem setBodyLength_laidOut {nLen : ℕ} (h : msgHeaderLen + nLen < 2 ^ 32) :
    (laidOut header area dataLength updated locked).setBodyLength nLen =
      laidOut header area (msgHeaderLen + nLen) updated locked := by
  rw [setBodyLength, laidOut, toUnsigned_of_lt h]
  rfl

theorem getBodyLength_laidOut (bodyLength : ℕ) :
    (laidOut header area (msgHeaderLen + bodyLength) updated locked).getBodyLength =
      toInt bodyLength := by
  simp [getBodyLength, laidOut, msgHeaderLen]

theorem payloadLimit_laidOut (hfits : msgHeaderLen + area.length < 2 ^ 32) :
    (laidOut header area dataLength updated locked).payloadLimit = area.length := by
  show toUnsigned (msgHeaderLen + area.length + 2 ^ 32 - msgHeaderLen) = area.length
  unfold toUnsigned
  omega

theorem bodySize_laidOut (hfits : msgHeaderLen + area.length < 2 ^ 32) :
    (laidOut header area dataLength updated locked).bodySize = area.length := by
  show toSize (msgHeaderLen + area.length + 2 ^ 64 - msgHeaderLen) = area.length
  unfold toSize
  omega

theorem lock_laidOut :
    (laidOut header area dataLength updated false).lock =
      .ok (laidOut header area dataLength updated true) := rfl

theorem cells_laidOut :
    (laidOut header area dataLength updated locked).cells = .ok (header ++ area) := rfl

theorem getDataPtr_laidOut :
    (laidOut header area dataLength updated false).getDataPtr =
      .ok (some 0, laidOut header area dataLength updated true) := rfl

theorem getBodyPtr_laidOut :
    (laidOut header area dataLength updated false).getBodyPtr =
      .ok (some msgHeaderLen, laidOut header area dataLength updated true) := rfl

theorem releasePtr_laidOut :
    (laidOut header area dataLength updated true).releasePtr =
      .ok (laidOut header area dataLength updated false) := rfl

/-- A write through the pointer acts on the header and the area together. -/
theorem access_laidOut {write : List UInt8 → Except Fault (List UInt8)} {header' area' : List UInt8}
    (hwrite : write (header ++ area) = .ok (header' ++ area'))
    (hlength : area'.length = area.length) :
    (laidOut header area dataLength updated locked).access write =
      .ok (laidOut header' area' dataLength updated locked) := by
  show (write (header ++ area) >>= fun cells ↦ _) = _
  rw [hwrite, ok_bind]
  simp [laidOut, hlength, pure, Except.pure]

theorem clearAll_laidOut (hheader : header.length = msgHeaderLen) :
    (laidOut header area dataLength updated false).clearAll =
      .ok (laidOut (List.replicate msgHeaderLen 0) (List.replicate area.length 0) 0 updated
        false) := by
  have hfill : fillRange (header ++ area) 0 (msgHeaderLen + area.length) 0 =
      .ok (List.replicate msgHeaderLen 0 ++ List.replicate area.length 0) := by
    have hlength : (header ++ area).length = msgHeaderLen + area.length :=
      List.length_append.trans (congrArg (· + area.length) hheader)
    have hmiddle := fillRange_middle [] List.length_nil hlength 0
    rwa [List.nil_append, List.append_nil, List.append_nil, List.nil_append,
      ← List.replicate_append_replicate] at hmiddle
  rw [clearAll, lock_laidOut, ok_bind]
  exact congrArg (· >>= unlock) (access_laidOut hfill List.length_replicate)

theorem clearMsgBody_laidOut (hheader : header.length = msgHeaderLen)
    (hfits : msgHeaderLen + area.length < 2 ^ 32) :
    (laidOut header area dataLength updated false).clearMsgBody =
      .ok (laidOut header (List.replicate area.length 0) 0 updated false) := by
  have hfill : fillRange (header ++ area) msgHeaderLen
      (laidOut header area 0 updated true).bodySize 0 =
        .ok (header ++ List.replicate area.length 0) := by
    rw [bodySize_laidOut hfits]
    simpa using fillRange_middle [] hheader rfl 0
  have hclear : (laidOut header area 0 updated true).access (fun cells ↦
      fillRange cells msgHeaderLen (laidOut header area 0 updated true).bodySize 0) =
        .ok (laidOut header (List.replicate area.length 0) 0 updated true) :=
    access_laidOut hfill List.length_replicate
  rw [clearMsgBody, lock_laidOut, ok_bind]
  show ((laidOut header area 0 updated true).access (fun cells ↦
    fillRange cells msgHeaderLen (laidOut header area 0 updated true).bodySize 0) >>= unlock) = _
  rw [hclear]
  rfl

/-- Bytes that are put at the start of the block, as many as a header has, are its new header. -/
theorem storeHeader_laidOut (hheader : header.length = msgHeaderLen) {arrived : List UInt8}
    (harrived : arrived.length = msgHeaderLen) :
    (laidOut header area dataLength updated locked).access
        (fun cells ↦ storeRange cells 0 arrived) =
      .ok (laidOut arrived area dataLength updated locked) :=
  access_laidOut (storeRange_middle area List.length_nil (hheader.trans harrived.symm)) rfl

/-- Bytes that are put at the start of the area leave the rest of it. -/
theorem storeBody_laidOut (hheader : header.length = msgHeaderLen) {body : List UInt8}
    (hroom : body.length ≤ area.length) :
    (laidOut header area dataLength updated locked).access
        (fun cells ↦ storeRange cells msgHeaderLen body) =
      .ok (laidOut header (body ++ area.drop body.length) dataLength updated locked) := by
  have hstore := storeRange_middle (area.drop body.length) hheader (List.length_take_of_le hroom)
  rw [List.append_assoc, List.take_append_drop, List.append_assoc] at hstore
  exact access_laidOut hstore (by simp; omega)

/-- `setMsgData` takes a body of 1 byte or more that fits the area. -/
theorem setMsgData_laidOut (hheader : header.length = msgHeaderLen)
    (hfits : msgHeaderLen + area.length < 2 ^ 32) {body : List UInt8} (hpos : 0 < body.length)
    (hroom : body.length ≤ area.length) :
    (laidOut header area dataLength updated false).setMsgData (some body) body.length =
      .ok (true, laidOut header (body ++ area.drop body.length) (msgHeaderLen + body.length) true
        false) := by
  have hload : loadRange body 0 body.length = .ok body := by
    simpa using loadRange_middle [] List.length_nil rfl
  have hstore : (laidOut header area dataLength updated true).access
      (fun cells ↦ storeRange cells msgHeaderLen body) =
        .ok (laidOut header (body ++ area.drop body.length) dataLength updated true) :=
    storeBody_laidOut hheader hroom
  have hwrap : toUnsigned (msgHeaderLen + body.length) = msgHeaderLen + body.length :=
    toUnsigned_of_lt (by omega)
  rw [setMsgData, if_neg (by omega), payloadLimit_laidOut hfits, if_neg (by omega), lock_laidOut,
    ok_bind, hload, ok_bind]
  show ((laidOut header area dataLength updated true).access (fun cells ↦
    storeRange cells msgHeaderLen body) >>= _) = _
  rw [hstore, ok_bind]
  show Except.ok (true, laidOut header (body ++ area.drop body.length)
    (toUnsigned (msgHeaderLen + body.length)) true false) = _
  rw [hwrap]

/-- A message that `setMsgData` has taken the body of is laid out, with the body at the start of its
area. -/
theorem Allocated.exists_laidOut_of_setMsgData {payload : ℕ} {d d' : CNetMessageData}
    (h : Allocated payload d) {body : List UInt8}
    (hset : d.setMsgData (some body) body.length = .ok (true, d')) :
    0 < body.length ∧ msgHeaderLen + payload < 2 ^ 32 ∧ ∃ header rest : List UInt8,
      header.length = msgHeaderLen ∧ body.length + rest.length = payload ∧
        d' = laidOut header (body ++ rest) (msgHeaderLen + body.length) true false := by
  have hpos : 0 < body.length := by
    by_contra hempty
    rw [setMsgData, if_pos (by omega)] at hset
    cases hset
  have hlimit : body.length ≤ d.payloadLimit := by
    by_contra hlong
    rw [setMsgData, if_neg (by omega), if_pos (by omega)] at hset
    cases hset
  have hload : loadRange body 0 body.length = .ok body := by
    simpa using loadRange_middle [] List.length_nil rfl
  have hfits : msgHeaderLen + payload < 2 ^ 32 := by
    by_contra hwrap
    obtain ⟨cells, hcells, hlength⟩ := h.data
    have hsmall : cells.length < msgHeaderLen := by
      have hlt := h.payload_lt
      rw [hlength, h.maxDataSize]
      unfold toUnsigned msgHeaderLen at *
      omega
    have hstore : storeRange cells d.m_nHeaderLength body = .error .outOfBounds := by
      rw [storeRange, h.headerLength, if_neg (by omega)]
    rw [setMsgData, if_neg (by omega), if_neg (by omega)] at hset
    simp [lock, access, CNetMessageData.cells, h.unlocked, hcells, hload, hstore] at hset
  obtain ⟨header, area, hheader, harea, hd⟩ := h.exists_laidOut hfits
  rw [hd, payloadLimit_laidOut (by omega)] at hlimit
  rw [hd, setMsgData_laidOut hheader (by omega) hpos hlimit] at hset
  refine ⟨hpos, hfits, header, area.drop body.length, hheader, ?_, ?_⟩
  · rw [List.length_drop, Nat.add_sub_of_le hlimit, harea]
  · exact (congrArg Prod.snd (Except.ok.inj hset)).symm

/-- What `decodeMsgHeader` answers depends on the marker and on the length field. If it takes the
header, it notes the length. -/
theorem decodeMsgHeader_eq (hheader : header.length = msgHeaderLen)
    (hfits : msgHeaderLen + area.length < 2 ^ 32) (sType : List UInt8) :
    (laidOut header area dataLength updated false).decodeMsgHeader sType =
      if ofLittleEndian (header.take 2) = 0xFFFF ∧
          ofLittleEndian ((header.drop 12).take 4) < area.length then
        .ok (true, laidOut header area
          (msgHeaderLen + ofLittleEndian ((header.drop 12).take 4)) updated false)
      else .ok (false, laidOut header area msgHeaderLen updated false) := by
  have hsize : header.length = 20 := hheader
  have hblock : msgHeaderLen ≤ (header ++ area).length := by
    rw [List.length_append, hheader]
    exact Nat.le_add_right ..
  have hmarker : NetworkDataHeaderInfo.headerMarker (header ++ area) =
      .ok (ofLittleEndian (header.take 2)) := by
    rw [NetworkDataHeaderInfo.headerMarker_eq hblock, List.take_append_of_le_length (by omega)]
  have hdataLen : NetworkDataHeaderInfo.dataLen (header ++ area) =
      .ok (ofLittleEndian ((header.drop 12).take 4)) := by
    rw [NetworkDataHeaderInfo.dataLen_eq hblock, List.drop_append_of_le_length (by omega),
      List.take_append_of_le_length (by rw [List.length_drop]; omega)]
  have hlimit : intToUnsigned (laidOut header area (msgHeaderLen + 0) updated true).getMaxDataLen =
      area.length := by
    rw [getMaxDataLen_laidOut, intToUnsigned_toInt (by omega)]
  have hallocated : (laidOut header area (msgHeaderLen + 0) updated false).isBufferAllocated :=
    rfl
  rw [decodeMsgHeader, setBodyLength_laidOut (by unfold msgHeaderLen; omega), hallocated,
    if_neg (by decide), getDataPtr_laidOut, ok_bind]
  dsimp only
  rw [cells_laidOut, ok_bind, hmarker, ok_bind]
  by_cases hframe : ofLittleEndian (header.take 2) = 0xFFFF
  · rw [if_neg (not_not.mpr hframe), hdataLen, ok_bind, hlimit]
    by_cases hroom : ofLittleEndian ((header.drop 12).take 4) < area.length
    · rw [if_neg (not_le.mpr hroom), setBodyLength_laidOut (by omega), releasePtr_laidOut,
        if_pos ⟨hframe, hroom⟩]
      rfl
    · rw [if_pos (not_lt.mp hroom), releasePtr_laidOut, if_neg fun h ↦ hroom h.2]
      rfl
  · rw [if_pos hframe, releasePtr_laidOut, if_neg fun h ↦ hframe h.1]
    rfl

/-- `decodeMsgHeader` takes a header that announces a body shorter than the area. -/
theorem decodeMsgHeader_laidOut {bodyLength : ℕ}
    (hheader : NetworkDataHeaderInfo.Announces header bodyLength) (hroom : bodyLength < area.length)
    (hfits : msgHeaderLen + area.length < 2 ^ 32) (sType : List UInt8) :
    (laidOut header area dataLength updated false).decodeMsgHeader sType =
      .ok (true, laidOut header area (msgHeaderLen + bodyLength) updated false) := by
  rw [decodeMsgHeader_eq hheader.length hfits, hheader.marker, hheader.dataLen,
    if_pos ⟨rfl, hroom⟩]

/-- It refuses every other header, and notes a message without a body. -/
theorem decodeMsgHeader_laidOut_refused (hheader : header.length = msgHeaderLen)
    (hrefused : ∀ bodyLength < area.length, ¬NetworkDataHeaderInfo.Announces header bodyLength)
    (hfits : msgHeaderLen + area.length < 2 ^ 32) (sType : List UInt8) :
    (laidOut header area dataLength updated false).decodeMsgHeader sType =
      .ok (false, laidOut header area msgHeaderLen updated false) := by
  rw [decodeMsgHeader_eq hheader hfits, if_neg]
  rintro ⟨hmarker, hroom⟩
  exact hrefused _ hroom ⟨hheader, hmarker, rfl⟩

/-- `encodeMsgHeader` announces the body length of the message. -/
theorem encodeMsgHeader_laidOut (hheader : header.length = msgHeaderLen) {bodyLength : ℕ}
    (hlength : bodyLength < 2 ^ 32) (sType : List UInt8) :
    (laidOut header area (msgHeaderLen + bodyLength) updated false).encodeMsgHeader sType =
      .ok (true, laidOut (NetworkDataHeaderInfo.encoded header (some sType) bodyLength) area
        (msgHeaderLen + bodyLength) updated false) := by
  have hwrite : (laidOut header area (msgHeaderLen + bodyLength) updated true).access (fun cells ↦
      NetworkDataHeaderInfo.initializeHeader cells (some sType) bodyLength) =
        .ok (laidOut (NetworkDataHeaderInfo.encoded header (some sType) bodyLength) area
          (msgHeaderLen + bodyLength) updated true) :=
    access_laidOut (NetworkDataHeaderInfo.initializeHeader_eq hheader area (some sType) bodyLength)
      rfl
  rw [encodeMsgHeader, if_neg (by simp [isBufferAllocated, laidOut]), getDataPtr_laidOut, ok_bind]
  dsimp only
  rw [getBodyLength_laidOut, intToUnsigned_toInt hlength, hwrite, ok_bind, releasePtr_laidOut]
  rfl

end Methods

end CNetMessageData

end RdbLibs.NetIO
