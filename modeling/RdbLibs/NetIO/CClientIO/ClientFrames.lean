import RdbLibs.NetIO.AllocatedMessage
import RdbLibs.NetIO.CClientIO.BufferBounds

/-!
# The frames that clients send

A client whose buffer was allocated with a header sends a payload with `write`, or with `setBuffer`
and then `write` without arguments. `CTcpClient` puts a frame on the wire both ways, the second way
with the marker that is in the buffer; but `setBuffer` fills 20 bytes behind the block, unless the
number of bytes that it fills is negative as an `int`. `CUdpClient` sends the payload without a
header, or with a header whose length counts the header itself.
-/

set_option autoImplicit false
set_option relaxedAutoImplicit false

namespace RdbLibs.NetIO.CClientIO

open BlockAccess ByteCodec MachineWord CheckedMemory CNetMessageData NetworkDataHeaderInfo

/-- A buffer that was allocated with a header, with the bytes of its block. -/
structure HasHeader (b : ClientBuffer) (cells : List UInt8) : Prop where
  data : b.m_pDataBuffer = some cells
  length : cells.length = b.m_nBufferSize
  size_lt : b.m_nBufferSize < 2 ^ 32
  headerSize : b.m_nHeaderSize = msgHeaderLen
  pointer : b.m_pBufferHeader = .block

/-- The size of a server's buffer is large enough for a body of `n` bytes. -/
def LargeEnough (payload n : ℕ) : Prop := n < payload ∧ msgHeaderLen + payload < 2 ^ 32

/-- A server's message with a buffer large enough decodes the length `n` from a header that was
received from the wire. -/
def DecodesTo (wire : List UInt8) (n : ℕ) : Prop :=
  (∃ payload, LargeEnough payload n) ∧
    ∀ payload d sType, LargeEnough payload n → Allocated payload d →
      ∃ received decoded,
        d.access (fun cells ↦ storeRange cells 0 (wire.take msgHeaderLen)) = .ok received ∧
          received.decodeMsgHeader sType = .ok (true, decoded) ∧ decoded.getBodyLength = n

/-- What is on the wire is a frame of the payload, and a server decodes its length. -/
def ServerDecodes (payload wire : List UInt8) : Prop :=
  FrameOf payload wire ∧ DecodesTo wire payload.length

/-- What a client puts on the wire, and the accesses to its block that it makes to send it. -/
structure Sending where
  wire : List UInt8
  accesses : List Access

/-- All accesses are inside the buffer, and what is on the wire is a frame of the payload, whose
length a server decodes. -/
structure SendsFrame (b : ClientBuffer) (payload : List UInt8) (sending : Sending) : Prop where
  inBounds : InBounds sending.accesses b
  decodes : ServerDecodes payload sending.wire

/-- `write(p, n)` of a `CTcpClient`. -/
def CTcpClient.sendDirectly (client : CTcpClient) (payload behind : List UInt8) : Sending :=
  let written := client.write (.bytes payload) behind true
  ⟨written.answer.wire, written.accesses⟩

/-- `setBuffer(p, n)` and then `write(nullptr, 0)` of a `CTcpClient`. -/
def CTcpClient.sendBuffered (client : CTcpClient) (payload behind : List UInt8) : Sending :=
  let set := client.setBuffer (.bytes payload)
  let written := set.after.write (.null 0) behind true
  ⟨written.answer.wire, set.accesses ++ written.accesses⟩

/-- `write(p, n)` of a `CUdpClient`. -/
def CUdpClient.sendDirectly (client : CUdpClient) (payload behind : List UInt8) : Sending :=
  let written := client.write (.bytes payload) behind true
  ⟨written.answer.wire, written.accesses⟩

/-- `setBuffer(p, n)` and then `write(nullptr, 0)` of a `CUdpClient`. -/
def CUdpClient.sendBuffered (client : CUdpClient) (payload behind : List UInt8) : Sending :=
  let set := client.setBuffer (.bytes payload)
  let written := set.after.write (.null 0) behind true
  ⟨written.answer.wire, set.accesses ++ written.accesses⟩

/-! ### What a server decodes -/

variable {b : ClientBuffer} {cells payload behind : List UInt8}

/-- Of a frame, a server's message with a buffer large enough decodes the length as an `int`. -/
theorem decodes_frame {wire : List UInt8} (hframe : FrameOf payload wire) {size : ℕ}
    (hsize : LargeEnough size payload.length) {d : CNetMessageData} (hd : Allocated size d)
    (sType : List UInt8) :
    ∃ received decoded,
      d.access (fun cells ↦ storeRange cells 0 (wire.take msgHeaderLen)) = .ok received ∧
        received.decodeMsgHeader sType = .ok (true, decoded) ∧
          decoded.getBodyLength = toInt payload.length := by
  obtain ⟨header, hannounces, rfl⟩ := hframe
  obtain ⟨header', area, hheader', rfl, hlaidOut⟩ := hd.exists_laidOut hsize.2
  have hreceived : (header ++ payload).take msgHeaderLen = header :=
    List.take_left' hannounces.length
  rw [hlaidOut, hreceived]
  exact ⟨_, _, storeHeader_laidOut hheader' hannounces.length,
    decodeMsgHeader_laidOut hannounces hsize.1 hsize.2 sType, getBodyLength_laidOut _⟩

/-- Of a frame a server decodes the length exactly when it is an `int`. -/
theorem serverDecodes_iff {wire : List UInt8} (hframe : FrameOf payload wire) :
    ServerDecodes payload wire ↔ payload.length < 2 ^ 31 := by
  constructor
  · rintro ⟨-, ⟨size, hsize⟩, hdecodes⟩
    have hnew : Allocated size (newMessage size) :=
      allocated_newMessage (Nat.zero_lt_of_lt hsize.1) hsize.2
    obtain ⟨received, decoded, hreceived, hdecoded, hlength⟩ := hdecodes size _ [] hsize hnew
    obtain ⟨received', decoded', hreceived', hdecoded', hlength'⟩ :=
      decodes_frame hframe hsize hnew []
    obtain rfl := Except.ok.inj (hreceived.symm.trans hreceived')
    obtain ⟨-, rfl⟩ := Prod.mk.inj (Except.ok.inj (hdecoded.symm.trans hdecoded'))
    have hlt : payload.length < 2 ^ 32 := by
      have hroom := hsize.1
      have hfits := hsize.2
      omega
    exact (toInt_eq_self_iff hlt).mp (hlength'.symm.trans hlength)
  · intro hint
    have hlarge : LargeEnough (payload.length + 1) payload.length :=
      ⟨Nat.lt_succ_self _, by unfold msgHeaderLen; omega⟩
    refine ⟨hframe, ⟨_, hlarge⟩, fun size d sType hsize hd ↦ ?_⟩
    have hdecodes := decodes_frame hframe hsize hd sType
    rwa [toInt_of_lt hint] at hdecodes

/-! ### What the clients send -/

/-- The bytes of a header that was set up: those of the marker, and a length. -/
structure HeaderFields (header : List UInt8) (marker : List UInt8) (nDataLen : ℕ) : Prop where
  length : header.length = msgHeaderLen
  marker : header.take 2 = marker
  dataLen : (header.drop 12).take 4 = littleEndian 4 nDataLen

theorem HeaderFields.announces_iff {header marker : List UInt8} {nDataLen n : ℕ}
    (h : HeaderFields header marker nDataLen) (hlen : nDataLen < 2 ^ 32) :
    Announces header n ↔ ofLittleEndian marker = 0xFFFF ∧ nDataLen = n := by
  have hdataLen : ofLittleEndian ((header.drop 12).take 4) = nDataLen := by
    rw [h.dataLen, ofLittleEndian_littleEndian]
    exact Nat.mod_eq_of_lt hlen
  constructor
  · intro hannounces
    exact ⟨h.marker ▸ hannounces.marker, hdataLen.symm.trans hannounces.dataLen⟩
  · rintro ⟨hmarker, rfl⟩
    exact ⟨h.length, (congrArg ofLittleEndian h.marker).trans hmarker, hdataLen⟩

/-- A header with a length set in it, behind which is the payload. -/
theorem frameOf_iff {header marker : List UInt8} {nDataLen : ℕ}
    (h : HeaderFields header marker nDataLen) (hlen : nDataLen < 2 ^ 32) :
    FrameOf payload (header ++ payload) ↔
      ofLittleEndian marker = 0xFFFF ∧ nDataLen = payload.length := by
  rw [← h.announces_iff hlen]
  constructor
  · rintro ⟨header', hannounces, hframe⟩
    exact List.append_cancel_right hframe ▸ hannounces
  · exact fun hannounces ↦ ⟨header, hannounces, rfl⟩

/-- Setting the length in the header that a block starts with. -/
theorem headerFields_overwrite (h : msgHeaderLen ≤ cells.length) (nDataLen : ℕ) :
    HeaderFields ((overwrite cells 12 (littleEndian 4 nDataLen)).take msgHeaderLen)
      (cells.take 2) nDataLen := by
  have hinside : 12 + (littleEndian 4 nDataLen).length ≤ cells.length :=
    (Nat.add_le_add_left (length_littleEndian 4 nDataLen).le 12).trans
      ((by decide : 16 ≤ msgHeaderLen).trans h)
  constructor
  · rw [List.length_take_of_le]
    exact h.trans_eq (length_overwrite ..).symm
  · rw [List.take_take]
    exact take_overwrite (by decide) (by omega) _
  · have hread := read_overwrite hinside
    rw [length_littleEndian] at hread
    rw [List.drop_take, List.take_take]
    exact hread

/-- The marker that is written to a header. -/
theorem take_initializedHeader (h : msgHeaderLen ≤ cells.length) :
    (initializedHeader cells).take 2 = littleEndian 2 0xFFFF := by
  have hsize : 12 ≤ cells.length := (by decide : 12 ≤ msgHeaderLen).trans h
  have hmarker : (overwrite cells 0 (littleEndian 2 0xFFFF)).take 2 = littleEndian 2 0xFFFF :=
    read_overwrite (show 0 + (littleEndian 2 0xFFFF).length ≤ cells.length by
      rw [length_littleEndian]
      omega)
  unfold initializedHeader
  dsimp only
  rw [take_overwrite (by decide) (by rw [length_fill, length_overwrite]; exact hsize),
    take_fill le_rfl (by rw [length_overwrite]; omega), hmarker]

/-- A payload that is copied behind a header, as far as a message of its length goes. -/
theorem take_payload (h : msgHeaderLen + payload.length ≤ cells.length) (behind : List UInt8) :
    (overwrite cells msgHeaderLen payload ++ behind).take (msgHeaderLen + payload.length) =
      cells.take msgHeaderLen ++ payload := by
  rw [List.take_append_of_le_length (h.trans_eq (length_overwrite ..).symm)]
  exact take_overwrite_end h

/-- A block that starts with the header of another, with the payload behind it. -/
theorem exists_rest {cells' : List UInt8}
    (h : cells'.take (msgHeaderLen + payload.length) = cells.take msgHeaderLen ++ payload) :
    ∃ rest, cells' = cells.take msgHeaderLen ++ (payload ++ rest) := by
  refine ⟨cells'.drop (msgHeaderLen + payload.length), ?_⟩
  rw [← List.append_assoc, ← h, List.take_append_drop]

/-- The length of a message that fits into the buffer does not wrap around. -/
theorem HasHeader.frameLength_eq (h : HasHeader b cells)
    (hroom : msgHeaderLen + payload.length ≤ b.m_nBufferSize) :
    toUnsigned (msgHeaderLen + payload.length) = msgHeaderLen + payload.length :=
  toUnsigned_of_lt (hroom.trans_lt h.size_lt)

/-- `setBuffer` puts the payload behind the header. -/
theorem HasHeader.setBuffer (h : HasHeader b cells) (hpos : 1 ≤ payload.length)
    (hroom : msgHeaderLen + payload.length ≤ b.m_nBufferSize) :
    (b.setBuffer (.bytes payload)).after.m_nCurrDataLen = payload.length ∧
      ∃ rest, HasHeader (b.setBuffer (.bytes payload)).after
        (cells.take msgHeaderLen ++ (payload ++ rest)) := by
  have hwrap := h.frameLength_eq hroom
  obtain ⟨hdata, hlength, hsize, hheaderSize, hpointer⟩ := h
  have hinside : msgHeaderLen + payload.length ≤ cells.length := hroom.trans_eq hlength.symm
  have hcopied : (overwrite cells msgHeaderLen payload).take (msgHeaderLen + payload.length) =
      cells.take msgHeaderLen ++ payload := take_overwrite_end hinside
  unfold ClientBuffer.setBuffer ClientBuffer.update
  dsimp only
  rw [if_neg (not_lt.mpr hpos), hheaderSize, add_comm payload.length, hwrap,
    if_neg (not_lt.mpr hroom), hdata]
  split_ifs
  · generalize intToSize (toInt (unsignedSub b.m_nBufferSize payload.length)) = count
    have hfilled : (fill (overwrite cells msgHeaderLen payload) (msgHeaderLen + payload.length)
        count 0).take (msgHeaderLen + payload.length) = cells.take msgHeaderLen ++ payload :=
      (take_fill le_rfl (hinside.trans_eq (length_overwrite ..).symm) ..).trans hcopied
    obtain ⟨rest, hrest⟩ := exists_rest hfilled
    refine ⟨rfl, rest, congrArg some hrest, ?_, hsize, rfl, hpointer⟩
    rw [← hrest, length_fill, length_overwrite]
    exact hlength
  · obtain ⟨rest, hrest⟩ := exists_rest hcopied
    refine ⟨rfl, rest, congrArg some hrest, ?_, hsize, rfl, hpointer⟩
    rw [← hrest, length_overwrite]
    exact hlength

theorem CTcpClient.exists_sendDirectly {client : CTcpClient} (h : HasHeader client.buffer cells)
    (hpos : 1 ≤ payload.length)
    (hroom : msgHeaderLen + payload.length ≤ client.buffer.m_nBufferSize) (behind : List UInt8) :
    ∃ header, HeaderFields header (littleEndian 2 0xFFFF) payload.length ∧
      (client.sendDirectly payload behind).wire = header ++ payload := by
  have hinside : msgHeaderLen + payload.length ≤ cells.length := hroom.trans_eq h.length.symm
  have hheader : msgHeaderLen ≤ cells.length := Nat.le_of_add_right_le hinside
  have htyped : (client.setStreamType (initializedHeader cells)).length = cells.length :=
    (length_overwrite ..).trans (ClientBuffer.length_initializedHeader cells)
  have hmarker : (client.setStreamType (initializedHeader cells)).take 2 =
      littleEndian 2 0xFFFF := by
    rw [← take_initializedHeader hheader]
    refine take_overwrite le_rfl ?_ _
    rw [ClientBuffer.length_initializedHeader]
    exact (by decide : 2 ≤ msgHeaderLen).trans hheader
  have hfields := headerFields_overwrite (hheader.trans_eq htyped.symm) payload.length
  rw [hmarker] at hfields
  refine ⟨_, hfields, ?_⟩
  rw [← take_payload (by rw [length_overwrite, htyped]; exact hinside) behind]
  unfold CTcpClient.sendDirectly CTcpClient.write
  dsimp only
  rw [h.headerSize, h.frameLength_eq hroom, if_neg (fun hempty ↦ not_lt.mpr hpos hempty.2),
    if_neg (not_lt.mpr hpos), if_neg (not_lt.mpr (Nat.le_of_add_left_le hroom)), if_pos rfl]
  unfold CTcpClient.finishWrite ClientBuffer.update
  dsimp only
  rw [h.data]
  rfl

/-- What is sent of a buffer, when the header is as long as the payload says. -/
theorem take_frame {header : List UInt8} (hheader : header.length = msgHeaderLen)
    (rest behind : List UInt8) :
    (header ++ (payload ++ rest) ++ behind).take (msgHeaderLen + payload.length) =
      header ++ payload := by
  rw [← List.append_assoc, List.append_assoc (header ++ payload)]
  exact List.take_left' (by rw [List.length_append, hheader])

/-- Setting the length in the header of a buffer. -/
theorem exists_header_overwrite (hheader : msgHeaderLen ≤ cells.length) (rest : List UInt8)
    (nDataLen : ℕ) :
    ∃ header, HeaderFields header (cells.take 2) nDataLen ∧
      overwrite (cells.take msgHeaderLen ++ rest) 12 (littleEndian 4 nDataLen) =
        header ++ rest := by
  have hlength : (cells.take msgHeaderLen).length = msgHeaderLen := List.length_take_of_le hheader
  have hfields := headerFields_overwrite hlength.ge nDataLen
  rw [List.take_of_length_le (((length_overwrite ..).trans hlength).le), List.take_take] at hfields
  exact ⟨_, hfields, overwrite_append (by rw [length_littleEndian, hlength]; decide) rest⟩

/-- After `setBuffer`, with a length set in the header, the first bytes of the buffer are the header
and the payload. -/
theorem HasHeader.exists_frame (h : HasHeader b cells) (hpos : 1 ≤ payload.length)
    (hroom : msgHeaderLen + payload.length ≤ b.m_nBufferSize) (behind : List UInt8)
    (nDataLen : ℕ) :
    (b.setBuffer (.bytes payload)).after.m_nCurrDataLen = payload.length ∧
      ∃ block header, HasHeader (b.setBuffer (.bytes payload)).after block ∧
        HeaderFields header (cells.take 2) nDataLen ∧
        (overwrite block 12 (littleEndian 4 nDataLen) ++ behind).take
          (msgHeaderLen + payload.length) = header ++ payload := by
  have hheader : msgHeaderLen ≤ cells.length :=
    (Nat.le_of_add_right_le hroom).trans_eq h.length.symm
  obtain ⟨hlen, rest, hset⟩ := h.setBuffer hpos hroom
  obtain ⟨header, hfields, hblock⟩ := exists_header_overwrite hheader (payload ++ rest) nDataLen
  refine ⟨hlen, _, header, hset, hfields, ?_⟩
  rw [hblock, take_frame hfields.length]

theorem CTcpClient.exists_sendBuffered {client : CTcpClient} (h : HasHeader client.buffer cells)
    (hpos : 1 ≤ payload.length)
    (hroom : msgHeaderLen + payload.length ≤ client.buffer.m_nBufferSize) (behind : List UInt8) :
    ∃ header, HeaderFields header (cells.take 2) payload.length ∧
      (client.sendBuffered payload behind).wire = header ++ payload := by
  have hwrap := h.frameLength_eq hroom
  obtain ⟨hlen, block, header, hset, hfields, hframe⟩ :=
    h.exists_frame hpos hroom behind payload.length
  refine ⟨header, hfields, ?_⟩
  rw [← hframe]
  unfold CTcpClient.sendBuffered CTcpClient.setBuffer CTcpClient.onBuffer CTcpClient.write
  dsimp only
  rw [hset.data, hset.headerSize, hlen, hwrap, if_neg (by exact nofun), if_neg (lt_irrefl 0),
    if_neg (not_lt.mpr hpos), if_pos rfl]
  unfold CTcpClient.finishWrite ClientBuffer.update
  dsimp only
  rw [hset.data]
  rfl

theorem CUdpClient.exists_sendBuffered {client : CUdpClient} (h : HasHeader client.buffer cells)
    (hpos : 1 ≤ payload.length)
    (hroom : msgHeaderLen + payload.length ≤ client.buffer.m_nBufferSize) (behind : List UInt8) :
    ∃ header, HeaderFields header (cells.take 2) (msgHeaderLen + payload.length) ∧
      (client.sendBuffered payload behind).wire = header ++ payload := by
  have hwrap := h.frameLength_eq hroom
  obtain ⟨hlen, block, header, hset, hfields, hframe⟩ :=
    h.exists_frame hpos hroom behind (msgHeaderLen + payload.length)
  refine ⟨header, hfields, ?_⟩
  rw [← hframe]
  unfold CUdpClient.sendBuffered CUdpClient.setBuffer CUdpClient.onBuffer CUdpClient.write
  dsimp only
  rw [hset.data, hset.headerSize, hlen, hwrap, if_neg (by exact nofun), if_neg (lt_irrefl 0),
    if_pos rfl]
  unfold CUdpClient.finishWrite CUdpClient.setHeaderLength ClientBuffer.update
  dsimp only
  rw [hset.pointer]
  dsimp only
  rw [hset.data]
  rfl

theorem CUdpClient.sendDirectly_eq {client : CUdpClient} (hpos : 1 ≤ payload.length)
    (behind : List UInt8) : (client.sendDirectly payload behind).wire = payload := by
  unfold CUdpClient.sendDirectly CUdpClient.write
  dsimp only
  rw [if_neg (fun hempty ↦ not_lt.mpr hpos hempty.2), if_neg (not_lt.mpr hpos)]
  rfl

/-! ### What a server makes of it -/

theorem CTcpClient.serverDecodes_sendDirectly_iff {client : CTcpClient}
    (h : HasHeader client.buffer cells) (hpos : 1 ≤ payload.length)
    (hroom : msgHeaderLen + payload.length ≤ client.buffer.m_nBufferSize) (behind : List UInt8) :
    ServerDecodes payload (client.sendDirectly payload behind).wire ↔ payload.length < 2 ^ 31 := by
  have hlt : payload.length < 2 ^ 32 := (Nat.le_of_add_left_le hroom).trans_lt h.size_lt
  obtain ⟨header, hfields, hwire⟩ := CTcpClient.exists_sendDirectly h hpos hroom behind
  rw [hwire]
  exact serverDecodes_iff ((frameOf_iff hfields hlt).mpr ⟨by decide, rfl⟩)

theorem CTcpClient.serverDecodes_sendBuffered_iff {client : CTcpClient}
    (h : HasHeader client.buffer cells) (hpos : 1 ≤ payload.length)
    (hroom : msgHeaderLen + payload.length ≤ client.buffer.m_nBufferSize) (behind : List UInt8) :
    ServerDecodes payload (client.sendBuffered payload behind).wire ↔
      ofLittleEndian (cells.take 2) = 0xFFFF ∧ payload.length < 2 ^ 31 := by
  have hlt : payload.length < 2 ^ 32 := (Nat.le_of_add_left_le hroom).trans_lt h.size_lt
  obtain ⟨header, hfields, hwire⟩ := CTcpClient.exists_sendBuffered h hpos hroom behind
  rw [hwire]
  constructor
  · intro hdecodes
    exact ⟨((frameOf_iff hfields hlt).mp hdecodes.1).1,
      (serverDecodes_iff hdecodes.1).mp hdecodes⟩
  · rintro ⟨hmarker, hint⟩
    exact (serverDecodes_iff ((frameOf_iff hfields hlt).mpr ⟨hmarker, rfl⟩)).mpr hint

/-- Without a header, or with one that counts itself, there is no frame. -/
theorem CUdpClient.not_serverDecodes {client : CUdpClient} (h : HasHeader client.buffer cells)
    (hpos : 1 ≤ payload.length)
    (hroom : msgHeaderLen + payload.length ≤ client.buffer.m_nBufferSize) (behind : List UInt8) :
    ¬ServerDecodes payload (client.sendDirectly payload behind).wire ∧
      ¬ServerDecodes payload (client.sendBuffered payload behind).wire := by
  constructor
  · rintro ⟨⟨header, hannounces, hframe⟩, -⟩
    rw [CUdpClient.sendDirectly_eq hpos] at hframe
    have hlength := congrArg List.length hframe
    rw [List.length_append, hannounces.length] at hlength
    unfold msgHeaderLen at hlength
    omega
  · rintro ⟨hframe, -⟩
    obtain ⟨header, hfields, hwire⟩ := CUdpClient.exists_sendBuffered h hpos hroom behind
    rw [hwire] at hframe
    have hlength := ((frameOf_iff hfields (hroom.trans_lt h.size_lt)).mp hframe).2
    unfold msgHeaderLen at hlength
    omega

/-! ### The accesses to the block -/

/-- Where there is a block, only the ends of the accesses count. -/
theorem HasHeader.inBounds_iff (h : HasHeader b cells) {accesses : List Access} :
    InBounds accesses b ↔ ∀ access ∈ accesses, access.Inside b.m_nBufferSize := by
  have hblock : b.m_pDataBuffer.isSome := Option.isSome_iff_exists.mpr ⟨cells, h.data⟩
  exact forall₂_congr fun _ _ ↦ and_iff_right hblock

/-- `setBuffer` fills as many bytes behind the payload as the buffer has without it, 20 too many,
unless their number is negative as an `int`. -/
theorem HasHeader.inBounds_setBuffer_iff (h : HasHeader b cells) (hpos : 1 ≤ payload.length)
    (hroom : msgHeaderLen + payload.length ≤ b.m_nBufferSize) :
    InBounds (b.setBuffer (.bytes payload)).accesses b ↔
      payload.length + 2 ^ 31 ≤ b.m_nBufferSize := by
  have hpass : PassesCheck b payload.length b.m_nHeaderSize := by
    refine ⟨hpos, ?_⟩
    rw [h.headerSize, add_comm, h.frameLength_eq hroom]
    exact hroom
  have hwrap : b.m_nHeaderSize + payload.length < 2 ^ 32 :=
    h.headerSize.symm ▸ hroom.trans_lt h.size_lt
  have hblock : b.m_pDataBuffer.isSome := Option.isSome_iff_exists.mpr ⟨cells, h.data⟩
  rw [← inBounds_after_setBuffer, CClientIO.inBounds_setBuffer_iff hpass h.size_lt hwrap,
    h.headerSize, and_iff_right hblock, or_iff_right (by decide)]
  exact Nat.le_sub_iff_add_le' (Nat.le_of_add_left_le hroom)

/-- `write` of a payload that fits accesses the header and the payload. -/
theorem CTcpClient.inBounds_sendDirectly {client : CTcpClient} (h : HasHeader client.buffer cells)
    (hpos : 1 ≤ payload.length)
    (hroom : msgHeaderLen + payload.length ≤ client.buffer.m_nBufferSize) (behind : List UInt8) :
    InBounds (client.sendDirectly payload behind).accesses client.buffer := by
  have haccesses : (client.sendDirectly payload behind).accesses =
      headerAccesses ++ [⟨2, typeLength client.m_sStreamType⟩, ⟨12, 4⟩,
        ⟨msgHeaderLen, payload.length⟩] ++ [⟨0, msgHeaderLen + payload.length⟩] := by
    unfold CTcpClient.sendDirectly CTcpClient.write
    dsimp only
    rw [h.headerSize, h.frameLength_eq hroom, if_neg (fun hempty ↦ not_lt.mpr hpos hempty.2),
      if_neg (not_lt.mpr hpos), if_neg (not_lt.mpr (Nat.le_of_add_left_le hroom)), if_pos rfl]
    rfl
  have htype : typeLength client.m_sStreamType ≤ netStreamTypeLen := Nat.min_le_left _ _
  unfold netStreamTypeLen at htype
  rw [h.inBounds_iff, haccesses]
  simp only [headerAccesses, netStreamTypeLen, List.cons_append, List.nil_append,
    List.forall_mem_cons, Access.Inside]
  unfold msgHeaderLen at hroom ⊢
  refine ⟨?_, ?_, ?_, ?_, ?_, ?_, ?_, List.forall_mem_nil _⟩ <;> omega

theorem CTcpClient.accesses_sendBuffered {client : CTcpClient} (h : HasHeader client.buffer cells)
    (hpos : 1 ≤ payload.length)
    (hroom : msgHeaderLen + payload.length ≤ client.buffer.m_nBufferSize) (behind : List UInt8) :
    (client.sendBuffered payload behind).accesses =
      (client.buffer.setBuffer (.bytes payload)).accesses ++
        [⟨12, 4⟩, ⟨0, msgHeaderLen + payload.length⟩] := by
  obtain ⟨hlen, rest, hset⟩ := h.setBuffer hpos hroom
  unfold CTcpClient.sendBuffered CTcpClient.setBuffer CTcpClient.onBuffer CTcpClient.write
  dsimp only
  rw [hset.data, hset.headerSize, hlen, h.frameLength_eq hroom, if_neg (by exact nofun),
    if_neg (lt_irrefl 0), if_neg (not_lt.mpr hpos), if_pos rfl]
  rfl

theorem CTcpClient.inBounds_sendBuffered_iff {client : CTcpClient}
    (h : HasHeader client.buffer cells) (hpos : 1 ≤ payload.length)
    (hroom : msgHeaderLen + payload.length ≤ client.buffer.m_nBufferSize) (behind : List UInt8) :
    InBounds (client.sendBuffered payload behind).accesses client.buffer ↔
      payload.length + 2 ^ 31 ≤ client.buffer.m_nBufferSize := by
  have hsent : InBounds [⟨12, 4⟩, ⟨0, msgHeaderLen + payload.length⟩] client.buffer := by
    rw [h.inBounds_iff]
    simp only [List.forall_mem_cons, Access.Inside]
    unfold msgHeaderLen at hroom ⊢
    exact ⟨by omega, by omega, List.forall_mem_nil _⟩
  rw [accesses_sendBuffered h hpos hroom, ← h.inBounds_setBuffer_iff hpos hroom]
  exact List.forall_mem_append.trans (and_iff_left hsent)

/-! ### Both clients, both ways -/

theorem CTcpClient.sendsFrame_sendDirectly_iff {client : CTcpClient}
    (h : HasHeader client.buffer cells) (hpos : 1 ≤ payload.length)
    (hroom : msgHeaderLen + payload.length ≤ client.buffer.m_nBufferSize) (behind : List UInt8) :
    SendsFrame client.buffer payload (client.sendDirectly payload behind) ↔
      payload.length < 2 ^ 31 := by
  rw [← serverDecodes_sendDirectly_iff h hpos hroom behind]
  exact ⟨SendsFrame.decodes, fun hdecodes ↦
    ⟨inBounds_sendDirectly h hpos hroom behind, hdecodes⟩⟩

theorem CTcpClient.sendsFrame_sendBuffered_iff {client : CTcpClient}
    (h : HasHeader client.buffer cells) (hpos : 1 ≤ payload.length)
    (hroom : msgHeaderLen + payload.length ≤ client.buffer.m_nBufferSize) (behind : List UInt8) :
    SendsFrame client.buffer payload (client.sendBuffered payload behind) ↔
      ofLittleEndian (cells.take 2) = 0xFFFF ∧
        payload.length + 2 ^ 31 ≤ client.buffer.m_nBufferSize := by
  have hbounds := inBounds_sendBuffered_iff h hpos hroom behind
  have hdecodes := serverDecodes_sendBuffered_iff h hpos hroom behind
  constructor
  · intro hsends
    exact ⟨(hdecodes.mp hsends.decodes).1, hbounds.mp hsends.inBounds⟩
  · rintro ⟨hmarker, hlarge⟩
    have hsize := h.size_lt
    exact ⟨hbounds.mpr hlarge, hdecodes.mpr ⟨hmarker, by omega⟩⟩

/-- Assumes: a `CTcpClient` and a `CUdpClient` whose buffers were allocated with a header, and a
payload of 1 byte or more that fits both. `write` of a `CTcpClient` accesses its buffer only and
sends a frame of the payload, whose length a server decodes, exactly when the length is an `int`.
`setBuffer` and then `write` do exactly when the buffer still starts with the marker and has 2^31
bytes more than the payload. The `CUdpClient` never does. -/
theorem client_frames_iff {tcp : CTcpClient} {udp : CUdpClient} {cells cells' payload : List UInt8}
    (htcp : HasHeader tcp.buffer cells) (hudp : HasHeader udp.buffer cells')
    (hpos : 1 ≤ payload.length)
    (htcpRoom : msgHeaderLen + payload.length ≤ tcp.buffer.m_nBufferSize)
    (hudpRoom : msgHeaderLen + payload.length ≤ udp.buffer.m_nBufferSize) (behind : List UInt8) :
    ((SendsFrame tcp.buffer payload (tcp.sendDirectly payload behind) ↔
          payload.length < 2 ^ 31) ∧
        (SendsFrame tcp.buffer payload (tcp.sendBuffered payload behind) ↔
          ofLittleEndian (cells.take 2) = 0xFFFF ∧
            payload.length + 2 ^ 31 ≤ tcp.buffer.m_nBufferSize)) ∧
      ¬SendsFrame udp.buffer payload (udp.sendDirectly payload behind) ∧
        ¬SendsFrame udp.buffer payload (udp.sendBuffered payload behind) := by
  obtain ⟨hdirectly, hbuffered⟩ := CUdpClient.not_serverDecodes hudp hpos hudpRoom behind
  exact ⟨⟨CTcpClient.sendsFrame_sendDirectly_iff htcp hpos htcpRoom behind,
      CTcpClient.sendsFrame_sendBuffered_iff htcp hpos htcpRoom behind⟩,
    fun hsends ↦ hdirectly hsends.decodes, fun hsends ↦ hbuffered hsends.decodes⟩

/-- A new buffer with a header. -/
theorem hasHeader_allocBuffer {nSize : ℕ} (hsmall : msgHeaderLen + 2 ≤ nSize)
    (hsize : nSize < 2 ^ 32) (b : ClientBuffer) :
    HasHeader (b.allocBuffer nSize true true).after
      (initializedHeader (List.replicate nSize 0)) := by
  have hlarge : ¬nSize < if true = true then msgHeaderLen + 2 else 2 := not_lt.mpr hsmall
  unfold ClientBuffer.allocBuffer
  rw [if_neg hlarge]
  refine ⟨rfl, ?_, hsize, rfl, rfl⟩
  exact (ClientBuffer.length_initializedHeader _).trans List.length_replicate

/-- A client with a new buffer of some bytes. -/
def newTcpClient (nSize : ℕ) : CTcpClient := (CTcpClient.new.allocBuffer nSize true true).after

/-- A client for datagrams with a new buffer of some bytes. -/
def newUdpClient (nSize : ℕ) : CUdpClient := (CUdpClient.new.allocBuffer nSize true true).after

theorem hasHeader_newTcpClient (nSize : ℕ) (hsmall : msgHeaderLen + 2 ≤ nSize)
    (hsize : nSize < 2 ^ 32) :
    HasHeader (newTcpClient nSize).buffer (initializedHeader (List.replicate nSize 0)) :=
  hasHeader_allocBuffer hsmall hsize .new

theorem hasHeader_newUdpClient (nSize : ℕ) (hsmall : msgHeaderLen + 2 ≤ nSize)
    (hsize : nSize < 2 ^ 32) :
    HasHeader (newUdpClient nSize).buffer (initializedHeader (List.replicate nSize 0)) :=
  hasHeader_allocBuffer hsmall hsize .new

/-- Two bytes are sent from a buffer of 24 bytes, and from one of 2^31 + 22 bytes. -/
theorem client_frames_iff_two :
    SendsFrame (newTcpClient 24).buffer [7, 8] ((newTcpClient 24).sendDirectly [7, 8] []) ∧
      SendsFrame (newTcpClient (2 ^ 31 + 22)).buffer [7, 8]
        ((newTcpClient (2 ^ 31 + 22)).sendBuffered [7, 8] []) := by
  have hlarge : msgHeaderLen + 2 ≤ 2 ^ 31 + 22 := by decide
  have hudp := hasHeader_newUdpClient 24 (by decide) (by decide)
  obtain ⟨⟨hdirectly, -⟩, -⟩ := client_frames_iff
    (hasHeader_newTcpClient 24 (by decide) (by decide)) hudp
    (by decide : 1 ≤ [(7 : UInt8), 8].length) (by decide) (by decide) []
  obtain ⟨⟨-, hbuffered⟩, -⟩ := client_frames_iff (hasHeader_newTcpClient _ hlarge (by decide)) hudp
    (by decide : 1 ≤ [(7 : UInt8), 8].length) hlarge (by decide) []
  refine ⟨hdirectly.mpr (by decide), hbuffered.mpr ⟨?_, by decide⟩⟩
  have hroom : msgHeaderLen ≤ (List.replicate (2 ^ 31 + 22) (0 : UInt8)).length := by
    rw [List.length_replicate]
    decide
  rw [take_initializedHeader hroom]
  decide

/-- One byte, sent by a client for datagrams with a buffer of 24 bytes; and by a `CTcpClient` with
such a buffer, whose `setBuffer` fills 20 bytes behind it. -/
theorem byte_is_no_frame :
    ¬SendsFrame (newUdpClient 24).buffer [7] ((newUdpClient 24).sendDirectly [7] []) ∧
      ¬SendsFrame (newUdpClient 24).buffer [7] ((newUdpClient 24).sendBuffered [7] []) ∧
      ¬SendsFrame (newTcpClient 24).buffer [7] ((newTcpClient 24).sendBuffered [7] []) := by
  have hudp := hasHeader_newUdpClient 24 (by decide) (by decide)
  have htcp := hasHeader_newTcpClient 24 (by decide) (by decide)
  obtain ⟨hdirectly, hbuffered⟩ :=
    CUdpClient.not_serverDecodes hudp (le_refl [(7 : UInt8)].length) (by decide) []
  refine ⟨fun hsends ↦ hdirectly hsends.decodes, fun hsends ↦ hbuffered hsends.decodes,
    fun hsends ↦ ?_⟩
  have hbounds :=
    CTcpClient.inBounds_sendBuffered_iff htcp (le_refl [(7 : UInt8)].length) (by decide) []
  exact absurd (hbounds.mp hsends.inBounds) (by decide)

end RdbLibs.NetIO.CClientIO
