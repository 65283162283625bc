import RdbLibs.Foundations.Runs
import RdbLibs.NetIO.GuardedMessage

/-!
# The memory of a message

Which calls of `CNetMessageData` stay inside the block of the message, over runs from the
constructor. `isBufferAllocated` takes a message for allocated that has never had a block, and the
lengths of a message are compared with a difference that wraps around when there is no block, or one
that is shorter than a header. A block is that short when the size that `allocBuffer` asks for wraps
around.
-/

set_option autoImplicit false
set_option relaxedAutoImplicit false

namespace RdbLibs.NetIO.CNetMessageData

open MachineWord CheckedMemory ByteCodec NetworkDataHeaderInfo Runs

/-- A call of a method that accesses the memory, with its arguments. -/
inductive MemoryCall
  | allocBuffer (nMaxDataSize : ℕ) (granted : Bool)
  | clearAll
  | clearMsgBody
  | setMsgData (pData : Option (List UInt8)) (nLen : ℕ)
  | compareMsgData (pData : Option (List UInt8)) (nLen : ℕ)
  | encodeMsgHeader (sType : List UInt8)
  | decodeMsgHeader (sType : List UInt8)

/-- Lengths have 32 bits, and a pointer that is not null points to as many bytes as are announced.
-/
def MemoryCall.Legal : MemoryCall → Prop
  | .allocBuffer nMaxDataSize _ => nMaxDataSize < 2 ^ 32
  | .setMsgData pData nLen => nLen < 2 ^ 32 ∧ ∀ source ∈ pData, nLen ≤ source.length
  | .compareMsgData pData nLen => nLen < 2 ^ 32 ∧ ∀ source ∈ pData, nLen ≤ source.length
  | _ => True

/-- What a message makes of a call. The methods that answer nothing answer `none` here. -/
def answer (d : CNetMessageData) : MemoryCall → Except Fault (Option Bool × CNetMessageData)
  | .allocBuffer nMaxDataSize granted => (d.allocBuffer nMaxDataSize granted).map (.map some id)
  | .clearAll => d.clearAll.map (none, ·)
  | .clearMsgBody => d.clearMsgBody.map (none, ·)
  | .setMsgData pData nLen => (d.setMsgData pData nLen).map (.map some id)
  | .compareMsgData pData nLen => (d.compareMsgData pData nLen).map (.map some id)
  | .encodeMsgHeader sType => (d.encodeMsgHeader sType).map (.map some id)
  | .decodeMsgHeader sType => (d.decodeMsgHeader sType).map (.map some id)

/-- The condition on a call under which it accesses nothing but the block of the message. -/
def StaysInBlock (d : CNetMessageData) : MemoryCall → Prop
  | .clearMsgBody => d.m_pData = none ∨ msgHeaderLen ≤ d.m_nMaxDataSize
  | .setMsgData (some _) nLen => 1 ≤ nLen → nLen ≤ d.payloadLimit →
      d.m_pData ≠ none ∧ msgHeaderLen ≤ d.m_nMaxDataSize
  | .compareMsgData (some _) nLen => 1 ≤ nLen → nLen ≤ d.payloadLimit →
      d.m_pData ≠ none ∧ msgHeaderLen ≤ d.m_nMaxDataSize
  | .encodeMsgHeader _ => d.isBufferAllocated = true → d.m_pData ≠ none ∧ 16 ≤ d.m_nMaxDataSize
  | .decodeMsgHeader _ => d.isBufferAllocated = true → ∃ cells, d.m_pData = some cells ∧
      2 ≤ cells.length ∧ (ofLittleEndian (cells.take 2) = 0xFFFF → 16 ≤ cells.length)
  | _ => True

/-- What holds of a message between any two calls. -/
structure Sound (d : CNetMessageData) : Prop where
  unlocked : d.m_dataLock = false
  block : ∀ cells, d.m_pData = some cells →
    cells.length = d.m_nMaxDataSize ∧ d.m_nHeaderLength = msgHeaderLen
  size_lt : d.m_nMaxDataSize < 2 ^ 32

variable {d : CNetMessageData} {Excused : Fault → Prop}

theorem sound_construct (nHeaderLength : ℕ) : Sound (construct nHeaderLength) :=
  ⟨rfl, nofun, Nat.two_pow_pos 32⟩

/-! ### The accesses of a method -/

theorem lock_of_unlocked (h : d.m_dataLock = false) :
    d.lock = .ok { d with m_dataLock := true } := by
  rw [lock, h]
  rfl

/-- A method that uses the block returns where there is one, and its use of it does. -/
theorem isOk_cells_bind_iff {α : Type} {next : List UInt8 → Except Fault α} :
    (d.cells >>= next).isOk = true ↔
      ∃ cells, d.m_pData = some cells ∧ (next cells).isOk = true := by
  cases hdata : d.m_pData with
  | none =>
    rw [cells, hdata]
    exact iff_of_false Bool.false_ne_true (by simp)
  | some cells =>
    rw [CNetMessageData.cells, hdata, ok_bind]
    simp only [Option.some.injEq, exists_eq_left']

theorem isOk_access_iff {write : List UInt8 → Except Fault (List UInt8)} :
    (d.access write).isOk = true ↔
      ∃ cells, d.m_pData = some cells ∧ (write cells).isOk = true := by
  unfold access
  rw [isOk_cells_bind_iff]
  refine exists_congr fun cells ↦ and_congr_right fun _ ↦ ?_
  rw [isOk_bind_iff]
  constructor
  · rintro ⟨cells', hwrite, -⟩
    exact isOk_iff.mpr ⟨cells', hwrite⟩
  · intro hwrite
    obtain ⟨cells', hwrite⟩ := isOk_iff.mp hwrite
    exact ⟨cells', hwrite, rfl⟩

theorem some_of_cells {cells : List UInt8} (h : d.cells = .ok cells) : d.m_pData = some cells := by
  unfold CNetMessageData.cells at h
  cases hdata : d.m_pData with
  | none =>
    rw [hdata] at h
    cases h
  | some block =>
    rw [hdata] at h
    exact congrArg some (Except.ok.inj h)

/-- A method that holds the mutex accesses the block, and then releases the mutex. -/
theorem isOk_access_bind {write : List UInt8 → Except Fault (List UInt8)} {α : Type}
    {next : CNetMessageData → Except Fault α}
    (hnext : ∀ cells, (next { d with m_pData := some cells }).isOk = true) :
    (d.access write >>= next).isOk = true ↔
      ∃ cells, d.m_pData = some cells ∧ (write cells).isOk = true := by
  rw [← isOk_access_iff, isOk_bind_iff]
  constructor
  · rintro ⟨d', haccess, -⟩
    exact isOk_iff.mpr ⟨d', haccess⟩
  · intro haccess
    obtain ⟨d', haccess⟩ := isOk_iff.mp haccess
    refine ⟨d', haccess, ?_⟩
    obtain ⟨cells, hcells, haccess⟩ := of_bind_eq_ok haccess
    obtain ⟨cells', hwrite, haccess⟩ := of_bind_eq_ok haccess
    obtain rfl := Except.ok.inj haccess
    exact hnext cells'

/-! ### One lemma a method -/

theorem isOk_allocBuffer (h : d.Sound) (nMaxDataSize : ℕ) (granted : Bool) :
    (d.allocBuffer nMaxDataSize granted).isOk = true := by
  rw [allocBuffer, lock_of_unlocked h.unlocked, ok_bind]
  split_ifs
  · rfl
  · rfl
  · rfl

theorem isOk_clearAll (h : d.Sound) : d.clearAll.isOk = true := by
  rw [clearAll, lock_of_unlocked h.unlocked, ok_bind]
  dsimp only
  cases hdata : d.m_pData with
  | none => rfl
  | some cells =>
    rw [Option.isNone_some, if_neg Bool.false_ne_true, isOk_access_bind fun _ ↦ rfl]
    refine ⟨cells, rfl, isOk_fillRange.mpr ?_⟩
    rw [Nat.zero_add]
    exact (h.block cells hdata).1.ge

theorem isOk_clearMsgBody_iff (h : d.Sound) :
    d.clearMsgBody.isOk = true ↔ d.m_pData = none ∨ msgHeaderLen ≤ d.m_nMaxDataSize := by
  rw [clearMsgBody, lock_of_unlocked h.unlocked, ok_bind]
  dsimp only
  cases hdata : d.m_pData with
  | none => exact iff_of_true rfl (.inl rfl)
  | some cells =>
    have hlength := (h.block cells hdata).1
    have hsize := h.size_lt
    rw [Option.isNone_some, if_neg Bool.false_ne_true, isOk_access_bind fun _ ↦ rfl]
    constructor
    · rintro ⟨other, hother, hfill⟩
      obtain rfl := Option.some.inj hother
      rw [isOk_fillRange, bodySize] at hfill
      dsimp only at hfill
      unfold toSize msgHeaderLen at *
      omega
    · intro hlarge
      refine ⟨cells, rfl, isOk_fillRange.mpr ?_⟩
      have hheader := hlarge.resolve_left (Option.some_ne_none cells)
      rw [bodySize]
      dsimp only
      unfold toSize msgHeaderLen at *
      omega

/-- Of the lengths that pass the check, those lie in the block that has room for a header. -/
theorem room_iff_of_payloadLimit (h : d.Sound) {nLen : ℕ} (hpos : 1 ≤ nLen)
    (hlimit : nLen ≤ d.payloadLimit) {cells : List UInt8} (hcells : d.m_pData = some cells)
    {count : ℕ} (hcount : 1 ≤ count) (hle : count ≤ nLen) :
    d.m_nHeaderLength + count ≤ cells.length ↔ msgHeaderLen ≤ d.m_nMaxDataSize := by
  have hsize := h.size_lt
  obtain ⟨hlength, hheader⟩ := h.block cells hcells
  rw [payloadLimit, hheader] at hlimit
  rw [hheader, hlength]
  unfold toUnsigned at hlimit
  unfold msgHeaderLen at *
  omega

/-- A method checks a length before it goes on. -/
theorem isOk_checked_iff {α : Type} {nLen limit : ℕ} {refused : α} {rest : Except Fault α} :
    (if nLen < 1 then .ok refused
      else if limit < nLen then .ok refused else rest : Except Fault α).isOk = true ↔
      (1 ≤ nLen → nLen ≤ limit → rest.isOk = true) := by
  split_ifs with hempty hlong
  · exact iff_of_true rfl fun hpos ↦ absurd hempty (not_lt.mpr hpos)
  · exact iff_of_true rfl fun _ hlimit ↦ absurd hlong (not_lt.mpr hlimit)
  · rw [imp_iff_right (not_lt.mp hempty), imp_iff_right (not_lt.mp hlong)]

theorem isOk_setMsgData_iff (h : d.Sound) {source : List UInt8} {nLen : ℕ}
    (hlegal : nLen ≤ source.length) :
    (d.setMsgData (some source) nLen).isOk = true ↔
      (1 ≤ nLen → nLen ≤ d.payloadLimit → d.m_pData ≠ none ∧ msgHeaderLen ≤ d.m_nMaxDataSize) := by
  refine isOk_checked_iff.trans <| forall₂_congr fun hpos hlimit ↦ ?_
  have hload : loadRange source 0 nLen = .ok (source.take nLen) := by
    rw [loadRange, if_pos (by omega), List.drop_zero]
  have htake : (source.take nLen).length = nLen := List.length_take_of_le hlegal
  rw [lock_of_unlocked h.unlocked, ok_bind, hload, ok_bind, isOk_access_bind fun _ ↦ rfl]
  have hroom (cells : List UInt8) (hcells : d.m_pData = some cells) :=
    room_iff_of_payloadLimit h hpos hlimit hcells hpos le_rfl
  constructor
  · rintro ⟨cells, hcells, hstore⟩
    rw [isOk_storeRange, htake] at hstore
    exact ⟨hcells.symm ▸ Option.some_ne_none cells, (hroom cells hcells).mp hstore⟩
  · rintro ⟨hsome, hheader⟩
    obtain ⟨cells, hcells⟩ := Option.ne_none_iff_exists'.mp hsome
    refine ⟨cells, hcells, isOk_storeRange.mpr ?_⟩
    rw [htake]
    exact (hroom cells hcells).mpr hheader

/-- The loop of `compareMsgData` stays inside a block that has room for all bytes. -/
theorem isOk_compareFrom (source : List UInt8) {cells : List UInt8}
    (hcells : d.m_pData = some cells) (remaining : ℕ) : ∀ x, x + remaining ≤ source.length →
      d.m_nHeaderLength + (x + remaining) ≤ cells.length →
        (d.compareFrom source remaining x).isOk = true := by
  induction remaining with
  | zero => intro x _ _; rfl
  | succ remaining ih =>
    intro x hsource hroom
    have hblock : d.cells = .ok cells := by rw [CNetMessageData.cells, hcells]
    rw [compareFrom, load_of_lt (show x < source.length by omega), ok_bind, hblock, ok_bind,
      load_of_lt (show d.m_nHeaderLength + x < cells.length by omega), ok_bind]
    split_ifs
    · rfl
    · exact ih (x + 1) (by omega) (by omega)

theorem isOk_compareMsgData_iff (h : d.Sound) {source : List UInt8} {nLen : ℕ}
    (hlegal : nLen ≤ source.length) :
    (d.compareMsgData (some source) nLen).isOk = true ↔
      (1 ≤ nLen → nLen ≤ d.payloadLimit → d.m_pData ≠ none ∧ msgHeaderLen ≤ d.m_nMaxDataSize) := by
  refine isOk_checked_iff.trans <| forall₂_congr fun hpos hlimit ↦ ?_
  rw [lock_of_unlocked h.unlocked, ok_bind]
  have hroom (cells : List UInt8) (hcells : d.m_pData = some cells) {count : ℕ} :=
    @room_iff_of_payloadLimit d h nLen hpos hlimit cells hcells count
  constructor
  · intro hcompare
    obtain ⟨same, hsame, -⟩ := isOk_bind_iff.mp hcompare
    obtain ⟨remaining, rfl⟩ : ∃ remaining, nLen = remaining + 1 := ⟨nLen - 1, by omega⟩
    rw [compareFrom] at hsame
    obtain ⟨expected, -, hsame⟩ := of_bind_eq_ok hsame
    obtain ⟨cells, hcells, hsame⟩ := of_bind_eq_ok hsame
    obtain ⟨found, hfound, -⟩ := of_bind_eq_ok hsame
    have hblock : d.m_pData = some cells := some_of_cells hcells
    refine ⟨hblock.symm ▸ Option.some_ne_none cells, (hroom cells hblock le_rfl (by omega)).mp ?_⟩
    exact lt_of_load hfound
  · rintro ⟨hsome, hheader⟩
    obtain ⟨cells, hcells⟩ := Option.ne_none_iff_exists'.mp hsome
    rw [isOk_bind_iff]
    have hinside : d.m_nHeaderLength + (0 + nLen) ≤ cells.length := by
      rw [Nat.zero_add]
      exact (hroom cells hcells hpos le_rfl).mpr hheader
    have hlocked : { d with m_dataLock := true }.m_pData = some cells := hcells
    obtain ⟨same, hsame⟩ := isOk_iff.mp (isOk_compareFrom source hlocked nLen 0 (by omega) hinside)
    exact ⟨same, hsame, rfl⟩

/-- `initializeHeader` writes the first 16 bytes of a block. -/
theorem isOk_initializeHeader_iff {cells : List UInt8} (pType : Option (List UInt8)) (nLen : ℕ) :
    (initializeHeader cells pType nLen).isOk = true ↔ 16 ≤ cells.length := by
  constructor
  · intro hinitialize
    obtain ⟨cells', hcells'⟩ := isOk_iff.mp hinitialize
    obtain ⟨marked, hmarked, hcells'⟩ := of_bind_eq_ok hcells'
    obtain ⟨cleared, hcleared, hcells'⟩ := of_bind_eq_ok hcells'
    obtain ⟨typed, htyped, hcells'⟩ := of_bind_eq_ok hcells'
    have hinside := (exists_of_storeRange hcells').1
    have hcopied : Yields (fun _ ↦ True) (copyType cleared pType) _ :=
      copyType_yields (.inl trivial) pType
    have hlength : typed.length = cells.length := (hcopied.of_ok htyped).trans
      ((length_of_fillRange hcleared).trans (length_of_storeRange hmarked))
    rw [length_littleEndian, hlength] at hinside
    exact hinside
  · intro hlarge
    have hwritten : Yields (fun _ ↦ False) (initializeHeader cells pType nLen) _ :=
      initializeHeader_yields (.inr hlarge) pType nLen
    obtain ⟨cells', hcells', -⟩ := hwritten.exists_ok
    exact isOk_iff.mpr ⟨cells', hcells'⟩

theorem isOk_encodeMsgHeader_iff (h : d.Sound) (sType : List UInt8) :
    (d.encodeMsgHeader sType).isOk = true ↔
      (d.isBufferAllocated = true → d.m_pData ≠ none ∧ 16 ≤ d.m_nMaxDataSize) := by
  unfold encodeMsgHeader getDataPtr
  by_cases hallocated : d.isBufferAllocated = false
  · rw [if_pos hallocated, hallocated]
    exact iff_of_true rfl nofun
  rw [if_neg hallocated, lock_of_unlocked h.unlocked, ok_bind]
  show (access _ _ >>= _).isOk = true ↔ _
  rw [isOk_access_bind fun _ ↦ rfl]
  simp only [isOk_initializeHeader_iff]
  constructor
  · rintro ⟨cells, hcells, hlarge⟩ -
    have hdata : d.m_pData = some cells := hcells
    exact ⟨hdata.symm ▸ Option.some_ne_none cells, (h.block cells hdata).1 ▸ hlarge⟩
  · intro hcondition
    obtain ⟨hsome, hlarge⟩ := hcondition (Bool.not_eq_false _ ▸ hallocated)
    obtain ⟨cells, hcells⟩ := Option.ne_none_iff_exists'.mp hsome
    exact ⟨cells, hcells, (h.block cells hcells).1 ▸ hlarge⟩

theorem isOk_dataLen_iff {cells : List UInt8} :
    (dataLen cells).isOk = true ↔ 16 ≤ cells.length := by
  rw [dataLen, isOk_map]
  exact isOk_loadRange

theorem headerMarker_of_le {cells : List UInt8} (h : 2 ≤ cells.length) :
    headerMarker cells = .ok (ofLittleEndian (cells.take 2)) := by
  rw [headerMarker, loadRange, if_pos h]
  rfl

theorem isOk_headerMarker_iff {cells : List UInt8} :
    (headerMarker cells).isOk = true ↔ 2 ≤ cells.length := by
  rw [headerMarker, isOk_map]
  exact isOk_loadRange

/-- What `decodeMsgHeader` reads of a block: its first bytes, and the length behind a marker. -/
theorem isOk_readHeader_iff {α : Type} {cells : List UInt8} {refused : Except Fault α}
    {answer : ℕ → Except Fault α} (hrefused : refused.isOk = true)
    (hanswer : ∀ nDataLen, (answer nDataLen).isOk = true) :
    (do
      let marker ← headerMarker cells
      if marker ≠ 0xFFFF then refused
      else do
        let nDataLen ← dataLen cells
        answer nDataLen).isOk = true ↔
      2 ≤ cells.length ∧ (ofLittleEndian (cells.take 2) = 0xFFFF → 16 ≤ cells.length) := by
  by_cases htwo : 2 ≤ cells.length
  · rw [headerMarker_of_le htwo, ok_bind, and_iff_right htwo]
    by_cases hmarker : ofLittleEndian (cells.take 2) = 0xFFFF
    · rw [if_neg (not_not.mpr hmarker), forall_prop_of_true hmarker, isOk_bind_iff,
        ← isOk_dataLen_iff, isOk_iff]
      simp only [hanswer, and_true]
    · rw [if_pos hmarker]
      exact iff_of_true hrefused fun hframe ↦ absurd hframe hmarker
  · refine iff_of_false (fun hreads ↦ ?_) fun h ↦ htwo h.1
    obtain ⟨marker, hread, -⟩ := isOk_bind_iff.mp hreads
    exact htwo (isOk_headerMarker_iff.mp (isOk_iff.mpr ⟨marker, hread⟩))

theorem isOk_decodeMsgHeader_iff (h : d.Sound) (sType : List UInt8) :
    (d.decodeMsgHeader sType).isOk = true ↔
      (d.isBufferAllocated = true → ∃ cells, d.m_pData = some cells ∧ 2 ≤ cells.length ∧
        (ofLittleEndian (cells.take 2) = 0xFFFF → 16 ≤ cells.length)) := by
  have hsame : (d.setBodyLength 0).isBufferAllocated = d.isBufferAllocated := rfl
  have hlock := lock_of_unlocked (show (d.setBodyLength 0).m_dataLock = false from h.unlocked)
  unfold decodeMsgHeader getDataPtr
  dsimp only
  rw [hsame]
  by_cases hallocated : d.isBufferAllocated = false
  · rw [if_pos hallocated, hallocated]
    exact iff_of_true rfl fun hno ↦ absurd hno Bool.false_ne_true
  rw [if_neg hallocated, hlock, ok_bind]
  show (d.cells >>= _).isOk = true ↔ _
  rw [forall_prop_of_true (Bool.not_eq_false _ ▸ hallocated), isOk_cells_bind_iff]
  refine exists_congr fun cells ↦ and_congr_right fun _ ↦ isOk_readHeader_iff rfl fun nDataLen ↦ ?_
  split_ifs
  · rfl
  · rfl

/-- A call returns exactly when it meets the condition. -/
theorem isOk_answer_iff (h : d.Sound) {call : MemoryCall} (hlegal : call.Legal) :
    (d.answer call).isOk = true ↔ StaysInBlock d call := by
  cases call with
  | allocBuffer nMaxDataSize granted =>
    rw [answer, isOk_map]
    exact iff_of_true (isOk_allocBuffer h nMaxDataSize granted) trivial
  | clearAll =>
    rw [answer, isOk_map]
    exact iff_of_true (isOk_clearAll h) trivial
  | clearMsgBody =>
    rw [answer, isOk_map]
    exact isOk_clearMsgBody_iff h
  | setMsgData pData nLen =>
    rw [answer, isOk_map]
    cases pData with
    | none => exact iff_of_true rfl trivial
    | some source => exact isOk_setMsgData_iff h (hlegal.2 source rfl)
  | compareMsgData pData nLen =>
    rw [answer, isOk_map]
    cases pData with
    | none => exact iff_of_true rfl trivial
    | some source => exact isOk_compareMsgData_iff h (hlegal.2 source rfl)
  | encodeMsgHeader sType =>
    rw [answer, isOk_map]
    exact isOk_encodeMsgHeader_iff h sType
  | decodeMsgHeader sType =>
    rw [answer, isOk_map]
    exact isOk_decodeMsgHeader_iff h sType

/-! ### What the calls keep -/

/-- Whether the message has a block, and the size that `malloc` has last served, as a call changes
them. -/
def noteAllocation (noted : Bool × ℕ) : MemoryCall → Bool × ℕ
  | .allocBuffer nMaxDataSize granted =>
    if nMaxDataSize < 1 then noted
    else if granted = false then (false, noted.2)
    else (true, toUnsigned (msgHeaderLen + nMaxDataSize))
  | _ => noted

/-- A sound message with the block, or without one, that was noted. -/
structure Noted (d : CNetMessageData) (noted : Bool × ℕ) : Prop extends Sound d where
  data : d.m_pData.isSome = noted.1
  size : d.m_nMaxDataSize = noted.2

/-- What a method that does not allocate makes of a message `d`, up to any of its steps: a message
with a block of the same size, or without one, whose mutex is as stated. -/
structure SameBlock (d : CNetMessageData) (locked : Bool) (e : CNetMessageData) : Prop where
  lock_eq : e.m_dataLock = locked
  data : e.m_pData.map List.length = d.m_pData.map List.length
  header : e.m_nHeaderLength = d.m_nHeaderLength
  size : e.m_nMaxDataSize = d.m_nMaxDataSize

theorem SameBlock.noted {e : CNetMessageData} (h : SameBlock d false e) {noted : Bool × ℕ}
    (hnoted : Noted d noted) : Noted e noted where
  unlocked := h.lock_eq
  block := by
    intro cells hcells
    have hdata := h.data
    rw [hcells, Option.map_some] at hdata
    obtain ⟨old, hold, hlength⟩ := Option.map_eq_some_iff.mp hdata.symm
    obtain ⟨hsize, hheader⟩ := hnoted.block old hold
    rw [h.size, h.header, ← hlength]
    exact ⟨hsize, hheader⟩
  size_lt := by
    rw [h.size]
    exact hnoted.size_lt
  data := by
    rw [← hnoted.data, ← Option.isSome_map (f := List.length), h.data, Option.isSome_map]
  size := h.size.trans hnoted.size

section Steps

variable {locked : Bool} {e : CNetMessageData}

/-- The length of the data and the flag are not the block. -/
theorem SameBlock.setFields (h : SameBlock d locked e) (nDataLength : ℕ) (updated : Bool) :
    SameBlock d locked { e with m_nDataLength := nDataLength, m_bUpdated := updated } :=
  ⟨h.lock_eq, h.data, h.header, h.size⟩

theorem SameBlock.lock (h : SameBlock d false e) : Yields Excused e.lock (SameBlock d true) := by
  rw [lock_of_unlocked h.lock_eq]
  exact .ok ⟨rfl, h.data, h.header, h.size⟩

theorem SameBlock.unlock (h : SameBlock d true e) :
    Yields Excused e.unlock (SameBlock d false) := by
  rw [CNetMessageData.unlock, h.lock_eq]
  exact .ok ⟨rfl, h.data, h.header, h.size⟩

theorem SameBlock.access (h : SameBlock d locked e)
    {write : List UInt8 → Except Fault (List UInt8)}
    (hwrite : ∀ cells, Yields (fun _ ↦ True) (write cells) fun cells' ↦
      cells'.length = cells.length) :
    Yields (fun _ ↦ True) (e.access write) (SameBlock d locked) := by
  unfold CNetMessageData.access CNetMessageData.cells
  cases hdata : e.m_pData with
  | none => exact .error trivial
  | some cells =>
    refine (hwrite cells).bind fun cells' hcells' ↦ .pure ⟨h.lock_eq, ?_, h.header, h.size⟩
    rw [← h.data, hdata]
    exact congrArg some hcells'

theorem SameBlock.getDataPtr (h : SameBlock d false e) :
    Yields Excused e.getDataPtr fun r ↦ SameBlock d true r.2 :=
  h.lock.bind fun _ he ↦ .pure he

theorem SameBlock.pair {α : Type} (h : SameBlock d true e) (value : α) :
    Yields Excused (e.unlock >>= fun e ↦ pure (value, e)) fun r ↦ SameBlock d false r.2 :=
  h.unlock.bind fun _ he ↦ .pure he

end Steps

/-- What a call keeps that does not allocate. -/
theorem sameBlock_answer (h : d.m_dataLock = false) {call : MemoryCall}
    (hcall : ∀ nMaxDataSize granted, call ≠ .allocBuffer nMaxDataSize granted) :
    Yields (fun _ ↦ True) (d.answer call) fun r ↦ SameBlock d false r.2 := by
  have hstart : SameBlock d false d := ⟨h, rfl, rfl, rfl⟩
  cases call with
  | allocBuffer nMaxDataSize granted => exact absurd rfl (hcall nMaxDataSize granted)
  | clearAll =>
    refine .map (hstart.lock.bind fun e he ↦ ?_)
    have hcleared := he.setFields 0 e.m_bUpdated
    refine .ite (fun _ ↦ hcleared.unlock) fun _ ↦ ?_
    exact (hcleared.access fun cells ↦ .fillRange (.inl trivial) 0).bind fun _ hd ↦ hd.unlock
  | clearMsgBody =>
    refine .map (hstart.lock.bind fun e he ↦ ?_)
    have hcleared := he.setFields 0 e.m_bUpdated
    refine .ite (fun _ ↦ hcleared.unlock) fun _ ↦ ?_
    exact (hcleared.access fun cells ↦ .fillRange (.inl trivial) 0).bind fun _ hd ↦ hd.unlock
  | setMsgData pData nLen =>
    refine .map ?_
    cases pData with
    | none => exact .pure hstart
    | some source =>
      refine .ite (fun _ ↦ .pure hstart) fun _ ↦ .ite (fun _ ↦ .pure hstart) fun _ ↦ ?_
      refine hstart.lock.bind fun e he ↦ ?_
      refine (Yields.loadRange (.inl trivial)).bind fun bytes _ ↦ ?_
      refine (he.access fun cells ↦ .storeRange (.inl trivial)).bind fun d' hd' ↦ ?_
      exact (hd'.setFields _ true).pair true
  | compareMsgData pData nLen =>
    refine .map ?_
    cases pData with
    | none => exact .pure hstart
    | some source =>
      refine .ite (fun _ ↦ .pure hstart) fun _ ↦ .ite (fun _ ↦ .pure hstart) fun _ ↦ ?_
      refine hstart.lock.bind fun e he ↦ ?_
      exact (yields_any (e.compareFrom source nLen 0)).bind fun same _ ↦ he.pair same
  | encodeMsgHeader sType =>
    refine .map (.ite (fun _ ↦ .pure hstart) fun _ ↦ ?_)
    refine hstart.getDataPtr.bind fun r hr ↦ ?_
    refine (hr.access fun cells ↦ initializeHeader_yields (.inl trivial) _ _).bind fun d' hd' ↦ ?_
    exact hd'.pair true
  | decodeMsgHeader sType =>
    refine .map ?_
    have hcleared := hstart.setFields (toUnsigned (d.m_nHeaderLength + 0)) d.m_bUpdated
    refine .ite (fun _ ↦ .pure hcleared) fun _ ↦ ?_
    refine hcleared.getDataPtr.bind fun r hr ↦ ?_
    refine (yields_any r.2.cells).bind fun header _ ↦ ?_
    refine (headerMarker_yields (.inl trivial)).bind fun marker _ ↦ ?_
    refine .ite (fun _ ↦ hr.pair false) fun _ ↦ ?_
    refine (dataLen_yields (.inl trivial)).bind fun nDataLen _ ↦ ?_
    refine .ite (fun _ ↦ hr.pair false) fun _ ↦ ?_
    exact (hr.setFields _ r.2.m_bUpdated).pair true

theorem noted_allocBuffer {noted : Bool × ℕ} (h : Noted d noted) {nMaxDataSize : ℕ}
    {granted : Bool} {r : Bool × CNetMessageData}
    (hcall : d.allocBuffer nMaxDataSize granted = .ok r) :
    Noted r.2 (noteAllocation noted (.allocBuffer nMaxDataSize granted)) := by
  rw [allocBuffer, lock_of_unlocked h.unlocked, ok_bind] at hcall
  unfold noteAllocation
  dsimp only at hcall ⊢
  split_ifs at hcall with hempty hdenied
  · obtain rfl := Except.ok.inj hcall
    rw [if_pos hempty]
    exact ⟨⟨rfl, h.block, h.size_lt⟩, h.data, h.size⟩
  · obtain rfl := Except.ok.inj hcall
    rw [if_neg hempty, if_pos hdenied]
    exact ⟨⟨rfl, by simp, h.size_lt⟩, rfl, h.size⟩
  · obtain rfl := Except.ok.inj hcall
    rw [if_neg hempty, if_neg hdenied]
    refine ⟨⟨rfl, fun cells hcells ↦ ?_, toUnsigned_lt _⟩, rfl, rfl⟩
    obtain rfl := Option.some.inj hcells
    exact ⟨List.length_replicate, rfl⟩

theorem noted_answer {noted : Bool × ℕ} (h : Noted d noted) (call : MemoryCall)
    {r : Option Bool × CNetMessageData} (hcall : d.answer call = .ok r) :
    Noted r.2 (noteAllocation noted call) := by
  by_cases hallocates : ∃ nMaxDataSize granted, call = .allocBuffer nMaxDataSize granted
  · obtain ⟨nMaxDataSize, granted, rfl⟩ := hallocates
    rw [answer] at hcall
    cases houtcome : d.allocBuffer nMaxDataSize granted with
    | error fault =>
      rw [houtcome] at hcall
      cases hcall
    | ok outcome =>
      rw [houtcome] at hcall
      obtain rfl := Except.ok.inj hcall
      exact noted_allocBuffer h houtcome
  · have hsame : SameBlock d false r.2 := by
      refine (sameBlock_answer h.unlocked fun nMaxDataSize granted hcall ↦ ?_).of_ok hcall
      exact hallocates ⟨nMaxDataSize, granted, hcall⟩
    have hnote : noteAllocation noted call = noted := by
      unfold noteAllocation
      split
      · exact absurd ⟨_, _, rfl⟩ hallocates
      · rfl
    rw [hnote]
    exact hsame.noted h

/-! ### Runs -/

/-- A call, up to the first access that leaves the block. -/
def MemoryStep (before : Except Fault CNetMessageData) (call : MemoryCall)
    (reply : Except Fault (Option Bool)) (after : Except Fault CNetMessageData) : Prop :=
  call.Legal ∧ ∃ d, before = .ok d ∧ reply = (d.answer call).map Prod.fst ∧
    after = (d.answer call).map Prod.snd

/-- The history of allocations of a run. -/
def allocations (trace : List (Call (Except Fault CNetMessageData) MemoryCall
    (Except Fault (Option Bool)))) : Bool × ℕ :=
  trace.foldl (fun noted call ↦ noteAllocation noted call.label) (false, 0)

theorem noted_step {before after : Except Fault CNetMessageData} {call : MemoryCall}
    {reply : Except Fault (Option Bool)} (hstep : MemoryStep before call reply after)
    {noted : Bool × ℕ} (hbefore : ∀ d, before = .ok d → Noted d noted) :
    ∀ d, after = .ok d → Noted d (noteAllocation noted call) := by
  obtain ⟨-, d, rfl, -, rfl⟩ := hstep
  intro d' hd'
  cases hanswer : d.answer call with
  | error fault =>
    rw [hanswer] at hd'
    cases hd'
  | ok r =>
    rw [hanswer] at hd'
    obtain rfl := Except.ok.inj hd'
    exact noted_answer (hbefore d rfl) call hanswer

/-- Assumes: a run of the methods of a message from its constructor, up to the first access that
leaves the block of the message. No access leaves it exactly when all calls meet the condition. And
in the state that it reaches, `isBufferAllocated` is right exactly when the message has a block, or
`malloc` has served it a block before that was not empty. -/
theorem message_memory_iff {nHeaderLength : ℕ} {final : Except Fault CNetMessageData}
    {trace : List (Call (Except Fault CNetMessageData) MemoryCall (Except Fault (Option Bool)))}
    (hrun : Run MemoryStep (.ok (construct nHeaderLength)) trace final) :
    ((∀ call ∈ trace, call.before.isOk = true) ∧ final.isOk = true ↔
        ∀ call ∈ trace, ∀ d, call.before = .ok d → StaysInBlock d call.label) ∧
      ∀ d, final = .ok d → ((d.isBufferAllocated = true ↔ d.m_pData ≠ none) ↔
        (allocations trace).1 = true ∨ 0 < (allocations trace).2) := by
  have hstart : ∀ d, Except.ok (construct nHeaderLength) = (.ok d : Except Fault _) →
      Noted d (false, 0) := by
    intro d hd
    obtain rfl := Except.ok.inj hd
    exact ⟨sound_construct nHeaderLength, rfl, rfl⟩
  constructor
  · refine hrun.good_iff (fun state ↦ ∀ d, state = .ok d → ∃ noted, Noted d noted)
      (fun state ↦ state.isOk = true) ?_ ?_ (fun d hd ↦ ⟨_, hstart d hd⟩) rfl
    · intro before call reply after hbefore hstep d hd
      obtain ⟨d', rfl, -⟩ := hstep.2
      obtain ⟨noted, hnoted⟩ := hbefore d' rfl
      refine ⟨noteAllocation noted call, noted_step hstep (fun other hother ↦ ?_) d hd⟩
      exact Except.ok.inj hother ▸ hnoted
    · rintro before call reply after hbefore - ⟨hlegal, d, rfl, -, rfl⟩
      obtain ⟨noted, hnoted⟩ := hbefore d rfl
      rw [isOk_map, isOk_answer_iff hnoted.toSound hlegal]
      exact ⟨fun hstays other hother ↦ Except.ok.inj hother ▸ hstays, fun hstays ↦ hstays d rfl⟩
  · intro d hfinal
    have hnoted : Noted d (allocations trace) := by
      refine hrun.invariant_noted (fun state noted ↦ ∀ d, state = .ok d → Noted d noted) ?_ _
        (.of_forall (fun _ _ ↦ trivial) _) hstart d hfinal
      exact fun _ _ _ _ _ _ hbefore hstep ↦ noted_step hstep hbefore
    rw [← hnoted.data, ← hnoted.size, isBufferAllocated]
    cases d.m_pData with
    | none => simp [Nat.pos_iff_ne_zero]
    | some cells => simp

theorem message_memory_iff_two :
    ∃ trace final, Run MemoryStep (.ok (construct 20)) trace final ∧
      trace.map Call.label = [.allocBuffer 4 true, .setMsgData (some [7]) 1] ∧
      ((∀ call ∈ trace, call.before.isOk = true) ∧ final.isOk = true) ∧
      ∀ d, final = .ok d → (d.isBufferAllocated = true ↔ d.m_pData ≠ none) := by
  have hrun : ∃ trace final, Run MemoryStep (.ok (construct 20)) trace final ∧
      trace.map Call.label = [.allocBuffer 4 true, .setMsgData (some [7]) 1] ∧
      (∀ call ∈ trace, ∀ d, call.before = .ok d → StaysInBlock d call.label) ∧
      (allocations trace).1 = true := by
    refine Run.exists_cons (.allocBuffer 4 true)
      ⟨show 4 < 2 ^ 32 by decide, _, rfl, rfl, rfl⟩ <|
      Run.exists_cons (.setMsgData (some [7]) 1)
        ⟨⟨by decide, fun _ h ↦ Option.some.inj h ▸ le_rfl⟩, _, rfl, rfl, rfl⟩
        ⟨_, _, .nil _, rfl, ?_, rfl⟩
    rw [List.forall_mem_cons, List.forall_mem_singleton]
    refine ⟨fun _ _ ↦ trivial, fun d hd ↦ ?_⟩
    obtain rfl := Except.ok.inj hd
    exact fun _ _ ↦ ⟨Option.some_ne_none _, by decide⟩
  obtain ⟨trace, final, hrun, hlabels, hstays, hallocated⟩ := hrun
  obtain ⟨haccesses, hflag⟩ := message_memory_iff hrun
  exact ⟨trace, final, hrun, hlabels, haccesses.mpr hstays,
    fun d hd ↦ (hflag d hd).mpr (.inl hallocated)⟩

/-- A message that was only constructed takes its memory for allocated, and `setMsgData` writes a
byte through the null pointer. -/
theorem message_without_memory :
    ∃ trace final, Run MemoryStep (.ok (construct 20)) trace final ∧
      trace.map Call.label = [.setMsgData (some [7]) 1] ∧
      (construct 20).isBufferAllocated = true ∧ (construct 20).m_pData = none ∧
      final = .error .nullPointer := by
  have hanswer : (construct 20).answer (.setMsgData (some [7]) 1) = .error .nullPointer := by
    simp [answer, setMsgData, construct, payloadLimit, toUnsigned, lock, loadRange, access, cells,
      Except.map]
  refine Run.exists_cons (.setMsgData (some [7]) 1)
    ⟨⟨by decide, fun _ h ↦ Option.some.inj h ▸ le_rfl⟩, _, rfl, rfl, rfl⟩
    ⟨_, _, .nil _, rfl, rfl, rfl, ?_⟩
  rw [hanswer]
  rfl

end RdbLibs.NetIO.CNetMessageData
