import RdbLibs.NetIO.CClientIO.ClientFrames

/-!
# The type of the stream in the header of a client

`setDataType`, `getDataType` and `isDataType` of `CUdpClient` and of `CTcpClient`, which have the
same text, of `Src/NetIO/CClientIO.cpp`. `setDataType` overwrites as many characters of the field as
the type has, and does not clear the others, as `NetworkDataHeaderInfo_def::initialize` does. So the
field holds at each position the character of the latest type that reached it (`exists_storeTypes`),
and a type is shown as it was set exactly if there was nothing behind it before
(`setDataType_shows_iff`).
-/

set_option autoImplicit false
set_option relaxedAutoImplicit false

namespace RdbLibs.NetIO.CClientIO

open BlockAccess CheckedMemory MachineWord

namespace ClientBuffer

/-- The bytes that `m_pBufferHeader` points to. A block that was freed has none. -/
def headerCells (b : ClientBuffer) : Except Fault (List UInt8) :=
  match b.m_pBufferHeader with
  | .null => .error .nullPointer
  | .block => .ok (b.m_pDataBuffer.getD [])
  | .freed => .ok []

/-- The loop of `setDataType`. -/
def storeType (b : ClientBuffer) (sType : List UInt8) : Except Fault ClientBuffer :=
  if typeLength sType = 0 then .ok b
  else do
    let cells ← b.headerCells
    let cells ← storeRange cells 2 (sType.take (typeLength sType))
    return { b with m_pDataBuffer := some cells }

/-- `getDataType`. -/
def getDataType (b : ClientBuffer) : Except Fault (List UInt8) := do
  let cells ← b.headerCells
  loadRange cells 2 netStreamTypeLen

/-- `isDataType`. -/
def isDataType (b : ClientBuffer) (sType : List UInt8) : Except Fault Bool :=
  if sType.length < 1 then .ok false
  else if netStreamTypeLen < sType.length then .ok false
  else do
    let cells ← b.headerCells
    let chars ← loadRange cells 2 sType.length
    return chars == sType

end ClientBuffer

/-- `CUdpClient::setDataType`. -/
def CUdpClient.setDataType (client : CUdpClient) (sType : List UInt8) :
    Except Fault CUdpClient := do
  let buffer ← client.buffer.storeType sType
  return ⟨buffer⟩

/-- `CUdpClient::getDataType`. -/
def CUdpClient.getDataType (client : CUdpClient) : Except Fault (List UInt8) :=
  client.buffer.getDataType

/-- `CUdpClient::isDataType`. -/
def CUdpClient.isDataType (client : CUdpClient) (sType : List UInt8) : Except Fault Bool :=
  client.buffer.isDataType sType

/-- `CTcpClient::setDataType`. -/
def CTcpClient.setDataType (client : CTcpClient) (sType : List UInt8) :
    Except Fault CTcpClient := do
  let client := { client with m_sStreamType := sType }
  let buffer ← client.buffer.storeType client.m_sStreamType
  return { client with buffer := buffer }

/-- `CTcpClient::getDataType`. -/
def CTcpClient.getDataType (client : CTcpClient) : Except Fault (List UInt8) :=
  client.buffer.getDataType

/-- `CTcpClient::isDataType`. -/
def CTcpClient.isDataType (client : CTcpClient) (sType : List UInt8) : Except Fault Bool :=
  client.buffer.isDataType sType

/-- The field `m_StreamType` of a header. -/
def streamTypeField (cells : List UInt8) : List UInt8 := (cells.drop 2).take netStreamTypeLen

/-- A type, cut or padded with zero bytes to the length of the field. -/
def paddedType (sType : List UInt8) : List UInt8 :=
  (sType ++ List.replicate netStreamTypeLen 0).take netStreamTypeLen

/-- What a sequence of types leaves at a position of the field: the character of the latest type
that reaches it, and what was there before if there is none. -/
def latestChar (field : List UInt8) (types : List (List UInt8)) (x : ℕ) : Option UInt8 :=
  match types.reverse.find? fun sType ↦ x < typeLength sType with
  | some sType => sType[x]?
  | none => field[x]?

/-- The types before leave what a type is padded with wherever it does not reach. -/
def NothingBehind (field : List UInt8) (earlier : List (List UInt8)) (sType : List UInt8) : Prop :=
  ∀ x < netStreamTypeLen, typeLength sType ≤ x →
    latestChar field earlier x = (paddedType sType)[x]?

instance (field : List UInt8) (earlier : List (List UInt8)) (sType : List UInt8) :
    Decidable (NothingBehind field earlier sType) :=
  inferInstanceAs (Decidable (∀ x < netStreamTypeLen, typeLength sType ≤ x →
    latestChar field earlier x = (paddedType sType)[x]?))

/-- A client shows a type: `getDataType` returns it, cut or padded, and `isDataType` answers whether
what it is asked for is a beginning of that. -/
def ShowsType (getDataType : Except Fault (List UInt8))
    (isDataType : List UInt8 → Except Fault Bool) (sType : List UInt8) : Prop :=
  getDataType = .ok (paddedType sType) ∧
    ∀ asked : List UInt8, 1 ≤ asked.length → asked.length ≤ netStreamTypeLen → 0 ∉ asked →
      isDataType asked = .ok (decide (asked <+: paddedType sType))

variable {b : ClientBuffer} {cells : List UInt8}

theorem typeLength_le (sType : List UInt8) : typeLength sType ≤ netStreamTypeLen :=
  Nat.min_le_left _ _

theorem length_take_typeLength (sType : List UInt8) :
    (sType.take (typeLength sType)).length = typeLength sType := by
  refine List.length_take_of_le ((Nat.min_le_right _ _).trans ?_)
  exact Nat.mod_le _ _

theorem length_paddedType (sType : List UInt8) : (paddedType sType).length = netStreamTypeLen := by
  refine List.length_take_of_le ?_
  rw [List.length_append, List.length_replicate]
  exact Nat.le_add_left _ _

/-- The characters that a type writes are its own. -/
theorem getElem?_paddedType {sType : List UInt8} {x : ℕ} (h : x < typeLength sType) :
    (paddedType sType)[x]? = sType[x]? := by
  have hlength : typeLength sType ≤ sType.length :=
    (Nat.min_le_right _ _).trans (Nat.mod_le _ _)
  have hfield := typeLength_le sType
  rw [paddedType, List.getElem?_take_of_lt (by omega), List.getElem?_append_left (by omega)]

theorem getElem?_streamTypeField (cells : List UInt8) {x : ℕ} (hx : x < netStreamTypeLen) :
    (streamTypeField cells)[x]? = cells[2 + x]? := by
  rw [streamTypeField, List.getElem?_take_of_lt hx, List.getElem?_drop]

theorem latestChar_append (field : List UInt8) (earlier : List (List UInt8)) (sType : List UInt8)
    (x : ℕ) :
    latestChar field (earlier ++ [sType]) x =
      if x < typeLength sType then sType[x]? else latestChar field earlier x := by
  unfold latestChar
  rw [List.reverse_append, List.reverse_singleton, List.singleton_append, List.find?_cons]
  by_cases h : x < typeLength sType
  · rw [decide_eq_true h, if_pos h]
  · rw [decide_eq_false h, if_neg h]

/-- A buffer with a header has the cells of its block. -/
theorem HasHeader.headerCells (h : HasHeader b cells) : b.headerCells = .ok cells := by
  rw [ClientBuffer.headerCells, h.pointer, h.data]
  rfl

/-- Writing a type to the header. -/
theorem HasHeader.storeType (h : HasHeader b cells) (hroom : msgHeaderLen ≤ b.m_nBufferSize)
    (sType : List UInt8) :
    ∃ b' cells', b.storeType sType = .ok b' ∧ HasHeader b' cells' ∧
      b'.m_nBufferSize = b.m_nBufferSize ∧ ∀ x < netStreamTypeLen,
        (streamTypeField cells')[x]? =
          if x < typeLength sType then sType[x]? else (streamTypeField cells)[x]? := by
  unfold ClientBuffer.storeType
  split_ifs with hnone
  · refine ⟨b, cells, rfl, h, rfl, fun x _ ↦ ?_⟩
    rw [if_neg (by omega)]
  · have hle := typeLength_le sType
    have hlength := length_take_typeLength sType
    have hinside : 2 + (sType.take (typeLength sType)).length ≤ cells.length := by
      rw [h.length, hlength]
      unfold netStreamTypeLen at hle
      unfold msgHeaderLen at hroom
      omega
    have hstore : storeRange cells 2 (sType.take (typeLength sType)) =
        .ok (overwrite cells 2 (sType.take (typeLength sType))) := by
      rw [overwrite_eq hinside]
      exact if_pos hinside
    rw [h.headerCells, ok_bind, hstore, ok_bind]
    refine ⟨_, _, rfl, ⟨rfl, (length_overwrite ..).trans h.length, h.size_lt, h.headerSize,
      h.pointer⟩, rfl, fun x hx ↦ ?_⟩
    rw [getElem?_streamTypeField _ hx, getElem?_streamTypeField _ hx, getElem?_overwrite hinside,
      hlength]
    split_ifs with hreached
    · exact List.getElem?_take_of_lt hreached
    · rfl

/-- A sequence of types leaves the latest character at each position of the field. -/
theorem exists_storeTypes (h : HasHeader b cells) (hroom : msgHeaderLen ≤ b.m_nBufferSize)
    (types : List (List UInt8)) :
    ∃ b' cells', types.foldlM ClientBuffer.storeType b = .ok b' ∧ HasHeader b' cells' ∧
      b'.m_nBufferSize = b.m_nBufferSize ∧ ∀ x < netStreamTypeLen,
        (streamTypeField cells')[x]? = latestChar (streamTypeField cells) types x := by
  induction types using List.reverseRecOn with
  | nil => exact ⟨b, cells, rfl, h, rfl, fun _ _ ↦ rfl⟩
  | append_singleton earlier sType ih =>
    obtain ⟨middle, middleCells, hmiddle, hheader, hsize, hfield⟩ := ih
    obtain ⟨b', cells', hlast, hheader', hsize', hfield'⟩ :=
      hheader.storeType (hroom.trans_eq hsize.symm) sType
    refine ⟨b', cells', ?_, hheader', hsize'.trans hsize, fun x hx ↦ ?_⟩
    · rw [List.foldlM_append, hmiddle, ok_bind, List.foldlM_cons, hlast, ok_bind, List.foldlM_nil]
      rfl
    · rw [hfield' x hx, hfield x hx, latestChar_append]

/-- A buffer shows a type exactly if its field is the type, cut or padded. -/
theorem HasHeader.showsType_iff (h : HasHeader b cells) (hroom : msgHeaderLen ≤ b.m_nBufferSize)
    (sType : List UInt8) :
    ShowsType b.getDataType b.isDataType sType ↔ streamTypeField cells = paddedType sType := by
  have hinside : 2 + netStreamTypeLen ≤ cells.length := by
    rw [h.length]
    exact (by decide : 2 + netStreamTypeLen ≤ msgHeaderLen).trans hroom
  have hget : b.getDataType = .ok (streamTypeField cells) := by
    rw [ClientBuffer.getDataType, h.headerCells, ok_bind]
    exact if_pos hinside
  constructor
  · rintro ⟨hshown, -⟩
    exact Except.ok.inj (hget.symm.trans hshown)
  · intro hfield
    refine ⟨hget.trans (congrArg Except.ok hfield), fun asked hpos hle _ ↦ ?_⟩
    have hload : loadRange cells 2 asked.length =
        .ok ((streamTypeField cells).take asked.length) := by
      rw [streamTypeField, List.take_take, Nat.min_eq_left hle]
      exact if_pos (by omega)
    rw [ClientBuffer.isDataType, if_neg (by omega), if_neg (by omega), h.headerCells, ok_bind,
      hload, ok_bind, hfield]
    refine congrArg Except.ok ?_
    rw [Bool.eq_iff_iff, beq_iff_eq, decide_eq_true_iff, List.prefix_iff_eq_take, eq_comm]

/-- What a field holds is a type, cut or padded, exactly if it is that behind what the type has
written. -/
theorem field_eq_iff {field field' : List UInt8} {earlier : List (List UInt8)} {sType : List UInt8}
    (hlength : field'.length = netStreamTypeLen)
    (hfield : ∀ x < netStreamTypeLen, field'[x]? = latestChar field (earlier ++ [sType]) x) :
    field' = paddedType sType ↔ NothingBehind field earlier sType := by
  constructor
  · rintro rfl x hx hbehind
    rw [hfield x hx, latestChar_append, if_neg (by omega)]
  · intro hnothing
    refine List.ext_getElem? fun x ↦ ?_
    by_cases hx : x < netStreamTypeLen
    · rw [hfield x hx, latestChar_append]
      split_ifs with hreached
      · exact (getElem?_paddedType hreached).symm
      · exact hnothing x hx (by omega)
    · rw [List.getElem?_eq_none (by omega),
        List.getElem?_eq_none (by rw [length_paddedType]; omega)]

/-- What holds of a sequence of types on the buffer of a client holds of the client. -/
theorem showsType_client_iff {σ : Type} {buffer : σ → ClientBuffer}
    {setType : σ → List UInt8 → Except Fault σ}
    (hset : ∀ client sType b', (buffer client).storeType sType = .ok b' →
      ∃ client', setType client sType = .ok client' ∧ buffer client' = b')
    {client : σ} (h : HasHeader (buffer client) cells)
    (hroom : msgHeaderLen ≤ (buffer client).m_nBufferSize) (earlier : List (List UInt8))
    (sType : List UInt8) :
    (∃ client', (earlier ++ [sType]).foldlM setType client = .ok client' ∧
      ShowsType (buffer client').getDataType (buffer client').isDataType sType) ↔
      NothingBehind (streamTypeField cells) earlier sType := by
  have hruns : ∀ (types : List (List UInt8)) (client : σ) (b' : ClientBuffer),
      types.foldlM ClientBuffer.storeType (buffer client) = .ok b' →
        ∃ client', types.foldlM setType client = .ok client' ∧ buffer client' = b' := by
    intro types
    induction types with
    | nil => exact fun client b' h ↦ ⟨client, rfl, Except.ok.inj h⟩
    | cons sType types ih =>
      intro client b' hrun
      rw [List.foldlM_cons] at hrun
      obtain ⟨middle, hfirst, hrest⟩ := of_bind_eq_ok hrun
      obtain ⟨client', hclient, rfl⟩ := hset client sType middle hfirst
      rw [List.foldlM_cons, hclient]
      exact ih client' b' hrest
  obtain ⟨b', cells', hrun, hheader, hsize, hfield⟩ :=
    exists_storeTypes h hroom (earlier ++ [sType])
  obtain ⟨client', hclient, rfl⟩ := hruns _ client b' hrun
  have hlength : (streamTypeField cells').length = netStreamTypeLen := by
    refine List.length_take_of_le ?_
    rw [List.length_drop, hheader.length, hsize]
    exact Nat.le_sub_of_add_le ((by decide : netStreamTypeLen + 2 ≤ msgHeaderLen).trans hroom)
  rw [← field_eq_iff hlength hfield, ← hheader.showsType_iff (hroom.trans_eq hsize.symm)]
  constructor
  · rintro ⟨client'', hclient', hshows⟩
    obtain rfl := Except.ok.inj (hclient.symm.trans hclient')
    exact hshows
  · exact fun hshows ↦ ⟨client', hclient, hshows⟩

/-- Assumes: clients of both classes with a buffer that was allocated with a header. After a
sequence of calls of `setDataType`, a client shows the last type exactly if the calls before have
left nothing else behind it in the field. -/
theorem setDataType_shows_iff {udp : CUdpClient} {tcp : CTcpClient} {udpCells tcpCells : List UInt8}
    (hudp : HasHeader udp.buffer udpCells) (hudpRoom : msgHeaderLen ≤ udp.buffer.m_nBufferSize)
    (htcp : HasHeader tcp.buffer tcpCells) (htcpRoom : msgHeaderLen ≤ tcp.buffer.m_nBufferSize)
    (earlier : List (List UInt8)) (sType : List UInt8) :
    ((∃ client, (earlier ++ [sType]).foldlM CUdpClient.setDataType udp = .ok client ∧
        ShowsType client.getDataType client.isDataType sType) ↔
      NothingBehind (streamTypeField udpCells) earlier sType) ∧
    ((∃ client, (earlier ++ [sType]).foldlM CTcpClient.setDataType tcp = .ok client ∧
        ShowsType client.getDataType client.isDataType sType) ↔
      NothingBehind (streamTypeField tcpCells) earlier sType) := by
  constructor
  · refine showsType_client_iff (fun client sType b' h ↦ ⟨⟨b'⟩, ?_, rfl⟩) hudp hudpRoom earlier
      sType
    rw [CUdpClient.setDataType, h]
    rfl
  · refine showsType_client_iff (fun client sType b' h ↦ ⟨⟨b', sType, client.m_bConnected,
      client.m_heartBeatInterval⟩, ?_, rfl⟩) htcp htcpRoom earlier sType
    rw [CTcpClient.setDataType, h]
    rfl

/-- The types `"video"` and `"au"`. -/
def videoType : List UInt8 := [0x76, 0x69, 0x64, 0x65, 0x6F]

def auType : List UInt8 := [0x61, 0x75]

theorem setDataType_shows_iff_longer :
    (∃ client, [auType, videoType].foldlM CUdpClient.setDataType (newUdpClient 24) = .ok client ∧
      ShowsType client.getDataType client.isDataType videoType) ∧
    ∃ client, [auType, videoType].foldlM CTcpClient.setDataType (newTcpClient 24) = .ok client ∧
      ShowsType client.getDataType client.isDataType videoType := by
  obtain ⟨hudp, htcp⟩ := setDataType_shows_iff
    (hasHeader_newUdpClient 24 (by decide) (by decide)) (by decide)
    (hasHeader_newTcpClient 24 (by decide) (by decide)) (by decide) [auType] videoType
  exact ⟨hudp.mpr (by decide), htcp.mpr (by decide)⟩

/-- After the types `"video"` and `"au"`, the type is `"audeo"`. -/
theorem stream_type_is_left :
    ([videoType, auType].foldlM CUdpClient.setDataType (newUdpClient 24)).bind
          CUdpClient.getDataType =
        .ok [0x61, 0x75, 0x64, 0x65, 0x6F, 0, 0, 0, 0, 0] ∧
      ([videoType, auType].foldlM CTcpClient.setDataType (newTcpClient 24)).bind
          CTcpClient.getDataType =
        .ok [0x61, 0x75, 0x64, 0x65, 0x6F, 0, 0, 0, 0, 0] ∧
      ¬∀ (udp : CUdpClient) (cells : List UInt8) (earlier : List (List UInt8))
        (sType : List UInt8), HasHeader udp.buffer cells →
          msgHeaderLen ≤ udp.buffer.m_nBufferSize →
          ∃ client, (earlier ++ [sType]).foldlM CUdpClient.setDataType udp = .ok client ∧
            ShowsType client.getDataType client.isDataType sType := by
  have hudp : ([videoType, auType].foldlM CUdpClient.setDataType (newUdpClient 24)).bind
      CUdpClient.getDataType = .ok [0x61, 0x75, 0x64, 0x65, 0x6F, 0, 0, 0, 0, 0] := by decide
  refine ⟨hudp, by decide, fun h ↦ ?_⟩
  obtain ⟨client, hrun, hshown, -⟩ :=
    h (newUdpClient 24) _ [videoType] auType (hasHeader_newUdpClient 24 (by decide) (by decide))
      (by decide)
  have hboth := (congrArg (Except.bind · CUdpClient.getDataType) hrun).symm.trans hudp
  exact absurd (hshown.symm.trans hboth) (by decide)

end RdbLibs.NetIO.CClientIO
