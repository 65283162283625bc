import RdbLibs.Foundations.ByteCodec
import RdbLibs.Foundations.CheckedMemory

/-!
# The message header

`NetworkDataHeaderInfo_def` of `Src/NetIO/CNetworkIO.h`, packed into 20 bytes: a marker of two
bytes, ten bytes for the type of the stream, the length of the body in four bytes, and the
direction in four bytes. A header is accessed through a pointer to the start of a block of memory.
`initializeHeader` leaves the direction as it is. A header `Announces` the body length that a
reader finds in it, and a frame is a header with the body that it announces (`FrameOf`).
-/

set_option autoImplicit false
set_option relaxedAutoImplicit false

namespace RdbLibs.NetIO

open ByteCodec CheckedMemory

/-- `NET_STREAM_TYPE_LEN`. -/
def netStreamTypeLen : ℕ := 10

/-- `MsgHeaderLen_def`, the size of the packed header. -/
def msgHeaderLen : ℕ := 20

namespace NetworkDataHeaderInfo

/-- The bytes that `initializeHeader` copies from the C string of a type: those before the first
zero byte, and not more than there is room for. -/
def streamType (type : List UInt8) : List UInt8 :=
  (type.takeWhile fun byte ↦ byte ≠ 0).take netStreamTypeLen

/-- The loop that copies the type, when there is one. -/
def copyType (cells : List UInt8) : Option (List UInt8) → Except Fault (List UInt8)
  | none => .ok cells
  | some type => storeRange cells 2 (streamType type)

/-- `NetworkDataHeaderInfo_def::initialize`, on the block that the header starts. -/
def initializeHeader (cells : List UInt8) (pType : Option (List UInt8)) (nLen : ℕ) :
    Except Fault (List UInt8) := do
  let cells ← storeRange cells 0 (littleEndian 2 0xFFFF)
  let cells ← fillRange cells 2 netStreamTypeLen 0
  let cells ← copyType cells pType
  storeRange cells 12 (littleEndian 4 nLen)

/-- Reads `m_headerMarker`. -/
def headerMarker (cells : List UInt8) : Except Fault ℕ :=
  (loadRange cells 0 2).map ofLittleEndian

/-- Reads `m_nDataLen`. -/
def dataLen (cells : List UInt8) : Except Fault ℕ :=
  (loadRange cells 12 4).map ofLittleEndian

/-- What `initializeHeader` leaves in the type field. -/
def typeField : Option (List UInt8) → List UInt8
  | none => List.replicate netStreamTypeLen 0
  | some type =>
    streamType type ++ List.replicate (netStreamTypeLen - (streamType type).length) 0

/-- What `initializeHeader` makes of the bytes of a header. -/
def encoded (header : List UInt8) (pType : Option (List UInt8)) (nLen : ℕ) : List UInt8 :=
  littleEndian 2 0xFFFF ++ typeField pType ++ littleEndian 4 nLen ++ header.drop 16

/-- A header of the right size and with the right marker, whose length field is `bodyLength`. -/
structure Announces (header : List UInt8) (bodyLength : ℕ) : Prop where
  length : header.length = msgHeaderLen
  marker : ofLittleEndian (header.take 2) = 0xFFFF
  dataLen : ofLittleEndian ((header.drop 12).take 4) = bodyLength

/-- A frame that carries the message. -/
def FrameOf (message frame : List UInt8) : Prop :=
  ∃ header, Announces header message.length ∧ frame = header ++ message

theorem FrameOf.length {message frame : List UInt8} (h : FrameOf message frame) :
    frame.length = msgHeaderLen + message.length := by
  obtain ⟨header, hannounces, rfl⟩ := h
  rw [List.length_append, hannounces.length]

/-- A header announces one length. -/
theorem Announces.unique {header : List UInt8} {n m : ℕ} (hn : Announces header n)
    (hm : Announces header m) : n = m := hn.dataLen.symm.trans hm.dataLen

theorem length_streamType_le (type : List UInt8) : (streamType type).length ≤ netStreamTypeLen :=
  List.length_take_le ..

/-- The bytes of a block of at least 16 bytes that hold the marker. -/
theorem headerMarker_eq {cells : List UInt8} (h : msgHeaderLen ≤ cells.length) :
    headerMarker cells = .ok (ofLittleEndian (cells.take 2)) := by
  unfold msgHeaderLen at h
  rw [headerMarker, loadRange, if_pos (by omega)]
  rfl

theorem dataLen_eq {cells : List UInt8} (h : msgHeaderLen ≤ cells.length) :
    dataLen cells = .ok (ofLittleEndian ((cells.drop 12).take 4)) := by
  unfold msgHeaderLen at h
  rw [dataLen, loadRange, if_pos (by omega)]
  rfl

@[simp] theorem length_typeField (pType : Option (List UInt8)) :
    (typeField pType).length = netStreamTypeLen := by
  cases pType with
  | none => exact List.length_replicate
  | some type =>
    rw [typeField, List.length_append, List.length_replicate]
    exact Nat.add_sub_of_le (length_streamType_le type)

/-- The type field is cleared, and the text of the type is then copied to its start. -/
theorem copyType_eq {front : List UInt8} (hfront : front.length = 2) (back : List UInt8)
    (pType : Option (List UInt8)) :
    copyType (front ++ List.replicate netStreamTypeLen 0 ++ back) pType =
      .ok (front ++ typeField pType ++ back) := by
  cases pType with
  | none => rfl
  | some type =>
    let room := netStreamTypeLen - (streamType type).length
    have hsplit : List.replicate netStreamTypeLen (0 : UInt8) =
        List.replicate (streamType type).length 0 ++ List.replicate room 0 := by
      rw [List.replicate_append_replicate, Nat.add_sub_of_le (length_streamType_le type)]
    calc storeRange (front ++ List.replicate netStreamTypeLen 0 ++ back) 2 (streamType type)
        = storeRange (front ++ List.replicate (streamType type).length 0 ++
            (List.replicate room 0 ++ back)) 2 (streamType type) := by
          rw [hsplit, List.append_assoc, List.append_assoc, List.append_assoc]
      _ = .ok (front ++ streamType type ++ (List.replicate room 0 ++ back)) :=
          storeRange_middle _ hfront List.length_replicate
      _ = .ok (front ++ typeField (some type) ++ back) := by
          rw [typeField, List.append_assoc, List.append_assoc, List.append_assoc]

/-- A header is its four fields. -/
theorem exists_fields {header : List UInt8} (hheader : header.length = msgHeaderLen) :
    ∃ marker type length direction : List UInt8,
      header = marker ++ type ++ length ++ direction ∧ marker.length = 2 ∧
        type.length = netStreamTypeLen ∧ length.length = 4 := by
  unfold msgHeaderLen at hheader
  refine ⟨header.take 2, (header.drop 2).take 10, (header.drop 12).take 4, header.drop 16, ?_, ?_⟩
  · calc header
        = header.take 2 ++ ((header.drop 2).take 10 ++ (header.drop 2).drop 10) := by
          rw [List.take_append_drop, List.take_append_drop]
      _ = header.take 2 ++ ((header.drop 2).take 10 ++ header.drop 12) := by rw [List.drop_drop]
      _ = header.take 2 ++ ((header.drop 2).take 10 ++
            ((header.drop 12).take 4 ++ (header.drop 12).drop 4)) := by
          rw [List.take_append_drop 4]
      _ = header.take 2 ++ (header.drop 2).take 10 ++ (header.drop 12).take 4 ++
            header.drop 16 := by
          rw [List.drop_drop, List.append_assoc, List.append_assoc]
  · simp [hheader, netStreamTypeLen]

/-- `initializeHeader` writes the header alone. -/
theorem initializeHeader_eq {header : List UInt8} (hheader : header.length = msgHeaderLen)
    (area : List UInt8) (pType : Option (List UInt8)) (nLen : ℕ) :
    initializeHeader (header ++ area) pType nLen = .ok (encoded header pType nLen ++ area) := by
  obtain ⟨marker, type, length, direction, rfl, hmarker, htype, hlength⟩ := exists_fields hheader
  have hstoreMarker : storeRange (marker ++ type ++ length ++ direction ++ area) 0
      (littleEndian 2 0xFFFF) =
        .ok (littleEndian 2 0xFFFF ++ type ++ (length ++ direction ++ area)) := by
    have hmiddle := storeRange_middle (type ++ length ++ direction ++ area) List.length_nil
      (hmarker.trans (length_littleEndian 2 0xFFFF).symm)
    simpa only [List.nil_append, List.append_assoc] using hmiddle
  have hclearType := fillRange_middle (length ++ direction ++ area)
    (length_littleEndian 2 0xFFFF) htype 0
  have hcopyType := copyType_eq (length_littleEndian 2 0xFFFF) (length ++ direction ++ area) pType
  have hfront : (littleEndian 2 0xFFFF ++ typeField pType).length = 12 := by
    rw [List.length_append, length_littleEndian, length_typeField, netStreamTypeLen]
  have hstoreLength := storeRange_middle (direction ++ area) hfront
    (hlength.trans (length_littleEndian 4 nLen).symm)
  have hdirection : (marker ++ type ++ length ++ direction).drop 16 = direction :=
    List.drop_left' (by simp [hmarker, htype, hlength, netStreamTypeLen])
  rw [initializeHeader, hstoreMarker, ok_bind, hclearType, ok_bind, hcopyType, ok_bind, encoded,
    hdirection]
  simpa only [List.append_assoc] using hstoreLength

/-- The header that `initializeHeader` writes announces the length it was given. -/
theorem announces_encoded {header : List UInt8} (hheader : header.length = msgHeaderLen)
    (pType : Option (List UInt8)) {nLen : ℕ} (hlen : nLen < 2 ^ 32) :
    Announces (encoded header pType nLen) nLen where
  length := by simp [encoded, hheader, netStreamTypeLen, msgHeaderLen]
  marker := by simp [encoded, littleEndian, ofLittleEndian]
  dataLen := by
    have hfield : ((encoded header pType nLen).drop 12).take 4 = littleEndian 4 nLen := by
      rw [encoded, List.append_assoc, List.drop_left' (by simp [netStreamTypeLen])]
      exact List.take_left' (length_littleEndian 4 nLen)
    rw [hfield, ofLittleEndian_littleEndian]
    exact Nat.mod_eq_of_lt hlen

end NetworkDataHeaderInfo

end RdbLibs.NetIO
