import RdbLibs.NetIO.CClientIO.ClientFraming

/-!
# Exit messages

`CTcpClient::read` compares the text `"exit"` with the C string at the start of the payload, and
`strCompare` takes a string for equal to each of its beginnings. So a payload that begins with a
zero byte is taken for an exit message, as are `"e"`, `"ex"` and `"exi"` before a zero byte
(`strCompare_exit_iff`). The string is built from the block, and a payload that fills the block
without a zero byte does not end it there. `read_frame_iff` says for which payloads a frame is
answered as it should be.
-/

set_option autoImplicit false
set_option relaxedAutoImplicit false

namespace RdbLibs.NetIO.CClientIO

open BlockAccess MachineWord

/-- What `read` answers when it receives a frame: that the server exits, exactly if the payload
begins with the text; otherwise the length of the payload, which is then in the buffer, and at the
target as far as it has room, and the client stays connected. Only the block is accessed. -/
structure AnswersFrame (client : CTcpClient) (pTarget : Bool) (nLen : ℕ) (payload : List UInt8)
    (outcome : Outcome CTcpClient ReadAnswer) : Prop where
  inside : ReadsInside client.buffer.m_nBufferSize outcome
  exit : outcome.answer.result = -30 ↔ exitText <+: payload
  result : ¬exitText <+: payload → outcome.answer.result = payload.length
  connected : ¬exitText <+: payload → outcome.after.m_bConnected = client.m_bConnected
  data : ¬exitText <+: payload → ∃ cells, outcome.after.buffer.m_pDataBuffer = some cells ∧
    (cells.drop msgHeaderLen).take payload.length = payload
  copied : ¬exitText <+: payload → pTarget = true →
    outcome.answer.copied.take payload.length = payload.take nLen

/-- The part of a C string that is compared with the text. -/
def comparedText (sTmp : List UInt8) : List UInt8 := sTmp.take (min 4 (toUnsigned sTmp.length))

/-- The condition on a payload and a target under which the frame is answered as it should be. A
frame whose length is no `int` is answered with that length less 2^32. -/
def FrameReadable (size : ℕ) (pTarget : Bool) (nLen : ℕ) (payload : List UInt8) : Prop :=
  if exitText <+: payload then
    (msgHeaderLen + payload.length < 2 ^ 31 ∧ Terminated size payload) ∨
      msgHeaderLen + payload.length = 2 ^ 32 - 30
  else
    msgHeaderLen + payload.length < 2 ^ 31 ∧ Terminated size payload ∧
      ¬comparedText (cString payload) <+: exitText ∧ CopiesInside size pTarget nLen

instance (size : ℕ) (pTarget : Bool) (nLen : ℕ) (payload : List UInt8) :
    Decidable (FrameReadable size pTarget nLen payload) :=
  inferInstanceAs (Decidable (if exitText <+: payload then
    (msgHeaderLen + payload.length < 2 ^ 31 ∧ Terminated size payload) ∨
      msgHeaderLen + payload.length = 2 ^ 32 - 30
  else msgHeaderLen + payload.length < 2 ^ 31 ∧ Terminated size payload ∧
    ¬comparedText (cString payload) <+: exitText ∧ CopiesInside size pTarget nLen))

section Exits

variable {size : ℕ} {payload : List UInt8} {client : CTcpClient} {pTarget : Bool} {nLen : ℕ}
  {outcome : Outcome CTcpClient ReadAnswer}

/-- Of a payload that begins with the text, all that is asked is the answer. -/
theorem answersFrame_iff_of_exit (hexit : exitText <+: payload) :
    AnswersFrame client pTarget nLen payload outcome ↔
      ReadsInside client.buffer.m_nBufferSize outcome ∧ outcome.answer.result = -30 :=
  ⟨fun hanswers ↦ ⟨hanswers.inside, hanswers.exit.mpr hexit⟩, fun ⟨hinside, hresult⟩ ↦
    ⟨hinside, iff_of_true hresult hexit, (absurd hexit ·), (absurd hexit ·), (absurd hexit ·),
      (absurd hexit ·)⟩⟩

theorem frameReadable_of_exit (hexit : exitText <+: payload) :
    FrameReadable size pTarget nLen payload ↔
      (msgHeaderLen + payload.length < 2 ^ 31 ∧ Terminated size payload) ∨
        msgHeaderLen + payload.length = 2 ^ 32 - 30 := by
  rw [FrameReadable, if_pos hexit]

theorem frameReadable_of_other (hother : ¬exitText <+: payload) :
    FrameReadable size pTarget nLen payload ↔
      msgHeaderLen + payload.length < 2 ^ 31 ∧ Terminated size payload ∧
        ¬comparedText (cString payload) <+: exitText ∧ CopiesInside size pTarget nLen := by
  rw [FrameReadable, if_neg hother]

/-- A payload whose C string does not end in the block. -/
theorem not_frameReadable (hint : msgHeaderLen + payload.length < 2 ^ 31)
    (hnoEnd : ¬Terminated size payload) : ¬FrameReadable size pTarget nLen payload := by
  by_cases hexit : exitText <+: payload
  · rw [frameReadable_of_exit hexit]
    rintro (⟨-, hend⟩ | hlarge)
    · exact hnoEnd hend
    · omega
  · rw [frameReadable_of_other hexit]
    exact fun hreadable ↦ hnoEnd hreadable.2.1

/-- A payload that is taken for an exit message. -/
theorem answersFrame_iff_of_taken (hint : msgHeaderLen + payload.length < 2 ^ 31)
    (hterminated : Terminated size payload)
    (hstring : comparedText (cString payload) <+: exitText)
    (hinside : ReadsInside client.buffer.m_nBufferSize outcome)
    (hresult : outcome.answer.result = -30) :
    AnswersFrame client pTarget nLen payload outcome ↔
      FrameReadable size pTarget nLen payload := by
  by_cases hexit : exitText <+: payload
  · rw [answersFrame_iff_of_exit hexit, frameReadable_of_exit hexit]
    exact iff_of_true ⟨hinside, hresult⟩ (.inl ⟨hint, hterminated⟩)
  · rw [frameReadable_of_other hexit]
    exact iff_of_false (fun hanswers ↦ hexit (hanswers.exit.mp hresult))
      fun hreadable ↦ hreadable.2.2.1 hstring

/-- A frame whose length is no `int`. -/
theorem answersFrame_iff_of_negative (hint : ¬msgHeaderLen + payload.length < 2 ^ 31)
    (hinside : ReadsInside client.buffer.m_nBufferSize outcome)
    (hresult : outcome.answer.result = ((msgHeaderLen + payload.length : ℕ) : ℤ) - 2 ^ 32) :
    AnswersFrame client pTarget nLen payload outcome ↔
      FrameReadable size pTarget nLen payload := by
  by_cases hexit : exitText <+: payload
  · rw [answersFrame_iff_of_exit hexit, frameReadable_of_exit hexit,
      or_iff_right fun hshort ↦ hint hshort.1, and_iff_right hinside, hresult]
    omega
  · rw [frameReadable_of_other hexit]
    refine iff_of_false (fun hanswers ↦ ?_) fun hreadable ↦ hint hreadable.1
    have hpayload := hresult.symm.trans (hanswers.result hexit)
    unfold msgHeaderLen at hpayload
    omega

end Exits

/-- Bytes neither of which is below the other, as characters, are equal. -/
theorem toInt8_eq_of_not_lt {x y : UInt8} (hlow : ¬x.toInt8 < y.toInt8)
    (hhigh : ¬y.toInt8 < x.toInt8) : x = y := by
  have hle : x.toInt8 = y.toInt8 :=
    Int8.le_antisymm (Int8.not_lt.mp hhigh) (Int8.not_lt.mp hlow)
  rw [← UInt8.toUInt8_toInt8 x, hle, UInt8.toUInt8_toInt8]

theorem compareChars_equal_iff {n : ℕ} {sStr1 sStr2 : List UInt8} (hfirst : n ≤ sStr1.length)
    (hsecond : n ≤ sStr2.length) :
    compareChars n sStr1 sStr2 = .equal ↔ sStr1.take n = sStr2.take n := by
  induction n generalizing sStr1 sStr2 with
  | zero => exact iff_of_true rfl rfl
  | succ n ih =>
    obtain ⟨x, sStr1, rfl⟩ := List.exists_cons_of_length_pos (Nat.zero_lt_of_lt hfirst)
    obtain ⟨y, sStr2, rfl⟩ := List.exists_cons_of_length_pos (Nat.zero_lt_of_lt hsecond)
    rw [compareChars, List.take_succ_cons, List.take_succ_cons, List.cons.injEq]
    split_ifs with hlow hhigh
    · refine iff_of_false nofun ?_
      rintro ⟨rfl, -⟩
      exact Int8.lt_irrefl hlow
    · refine iff_of_false nofun ?_
      rintro ⟨rfl, -⟩
      exact Int8.lt_irrefl hhigh
    · obtain rfl := toInt8_eq_of_not_lt hlow hhigh
      rw [ih (Nat.le_of_succ_le_succ hfirst) (Nat.le_of_succ_le_succ hsecond),
        eq_self_iff_true, true_and]

/-- A string is taken for the text of an exit message exactly when the part of it that is compared
is a beginning of the text. -/
theorem strCompare_exit_iff (sTmp : List UInt8) :
    strCompare exitText sTmp 4 = .equal ↔ comparedText sTmp <+: exitText := by
  have hcount : toUnsigned sTmp.length ≤ sTmp.length := Nat.mod_le _ _
  have hlength : strCompare exitText sTmp 4 =
      compareChars (min 4 (toUnsigned sTmp.length)) exitText sTmp := by
    unfold strCompare
    rw [min_comm, min_def_lt]
    rfl
  have hpart : (comparedText sTmp).length = min 4 (toUnsigned sTmp.length) :=
    List.length_take_of_le (by omega)
  have hfour : min 4 (toUnsigned sTmp.length) ≤ exitText.length := Nat.min_le_left _ _
  rw [hlength, compareChars_equal_iff hfour (by omega), List.prefix_iff_eq_take, hpart,
    comparedText, eq_comm]

/-- Where the payload begins with the text, the C string does. -/
theorem comparedText_of_exit {payload : List UInt8} (h : exitText <+: payload) :
    comparedText (cString payload) <+: exitText := by
  obtain ⟨rest, rfl⟩ := h
  have hstring : cString (exitText ++ rest) = exitText ++ cString rest :=
    List.takeWhile_append_of_pos (by simp [exitText])
  have hfour : min 4 (toUnsigned (exitText ++ cString rest).length) ≤ exitText.length :=
    Nat.min_le_left _ _
  rw [hstring, comparedText, List.take_append_of_le_length hfour]
  exact List.take_prefix _ _

theorem readsAsExit_iff (payload : List UInt8) :
    ReadsAsExit payload ↔ comparedText (cString payload) <+: exitText :=
  strCompare_exit_iff _

section FinishRead

variable {client : CTcpClient} (hheader : client.buffer.m_nHeaderSize = msgHeaderLen)
  (pTarget : Bool) (nLen : ℕ) {memory : List UInt8} (accesses : List Access) (taken : ℕ)

include hheader

/-- After a call that is not ended by an exit message, the client is connected as before. -/
theorem CTcpClient.connected_finishRead (hexit : ¬ExitText memory) :
    (client.finishRead pTarget nLen memory accesses taken).after.m_bConnected =
      client.m_bConnected := by
  unfold finishRead
  dsimp only
  rw [hheader]
  split_ifs with hshort htext
  · rfl
  · exact absurd htext.2 hexit
  · cases copyLength pTarget nLen _ with
    | none => rfl
    | some count => rfl

/-- An exit message that is long enough is answered as one, and nothing is copied. -/
theorem CTcpClient.finishRead_exit (hexit : ExitText memory) (hlarge : 4 ≤ toInt taken) :
    (client.finishRead pTarget nLen memory accesses taken).answer.result = -30 ∧
      (client.finishRead pTarget nLen memory accesses taken).accesses = accesses := by
  unfold finishRead
  dsimp only
  rw [hheader, if_neg (by omega), if_pos ⟨hlarge, hexit⟩]
  exact ⟨rfl, rfl⟩

end FinishRead

/-- A number of bytes that is no `int` is answered as it is taken, and no string is built. -/
theorem CTcpClient.finishRead_negative (client : CTcpClient) (pTarget : Bool) (nLen : ℕ)
    (memory : List UInt8) (accesses : List Access) {taken : ℕ} (hneg : toInt taken < 1) :
    client.finishRead pTarget nLen memory accesses taken =
      ⟨⟨toInt taken, [], taken, none⟩, accesses,
        { client with buffer := { client.buffer with m_nCurrDataLen := 0 } }⟩ := by
  unfold finishRead
  dsimp only
  rw [if_pos hneg, stringAccess, if_neg (by omega)]

section Frame

variable {client : CTcpClient} {cells header payload : List UInt8} (behind : List UInt8)
  (hsize : client.buffer.m_nHeaderSize = msgHeaderLen) (hheader : header.length = msgHeaderLen)
  (hpos : 1 ≤ payload.length) (hroom : msgHeaderLen + payload.length ≤ cells.length)
  (hbuffer : cells.length = client.buffer.m_nBufferSize)
  (hint : msgHeaderLen + payload.length < 2 ^ 31) (pTarget : Bool) {nLen : ℕ}

include hsize hheader hroom hint

/-- A frame that is taken for an exit message accesses the block only, when its C string ends
there. -/
theorem CTcpClient.finishFrame_exit (nLen : ℕ) (hterminated : Terminated cells.length payload)
    (hexit : ReadsAsExit payload) :
    (client.finishFrame cells header payload behind pTarget nLen).answer.result = -30 ∧
      ReadsInside cells.length
        (client.finishFrame cells header payload behind pTarget nLen) := by
  have hreceived : (client.received cells (header ++ payload)).buffer.m_nHeaderSize =
    msgHeaderLen := hsize
  have hlarge : 4 ≤ toInt (msgHeaderLen + payload.length) := by
    rw [toInt_of_lt hint]
    unfold msgHeaderLen
    omega
  have hstring := (client.received cells (header ++ payload)).sTmp_finishRead pTarget nLen
    (overwrite (cleared cells ++ behind) 0 (header ++ payload))
    (receivingAccesses cells.length (msgHeaderLen + payload.length))
    (msgHeaderLen + payload.length)
  rw [hreceived, stringAccess, if_pos hlarge] at hstring
  obtain ⟨hresult, haccesses⟩ := finishRead_exit hreceived pTarget nLen
    (receivingAccesses cells.length (msgHeaderLen + payload.length))
    (msgHeaderLen + payload.length) ((exitText_iff hheader hroom hterminated behind).mpr hexit)
    hlarge
  refine ⟨hresult, ?_⟩
  rw [ReadsInside, finishFrame, haccesses, hstring, List.forall_mem_append, Option.toList_some,
    List.forall_mem_singleton]
  exact ⟨receivingAccesses_inside (Nat.le_of_add_right_le hroom) hroom,
    (length_cString_lt_iff hheader hroom behind).mpr hterminated⟩

include hpos hbuffer

/-- A frame whose length is an `int`. -/
theorem CTcpClient.answersFrame_iff_of_int (hlegal : nLen < 2 ^ 32)
    (htarget : pTarget = true → 1 ≤ nLen) :
    AnswersFrame client pTarget nLen payload
        (client.finishFrame cells header payload behind pTarget nLen) ↔
      FrameReadable client.buffer.m_nBufferSize pTarget nLen payload := by
  by_cases hterminated : Terminated cells.length payload
  · by_cases hexit : ReadsAsExit payload
    · obtain ⟨hresult, hinside⟩ := finishFrame_exit behind hsize hheader hroom hint pTarget nLen
        hterminated hexit
      rw [hbuffer] at hinside hterminated
      exact answersFrame_iff_of_taken hint hterminated ((readsAsExit_iff payload).mp hexit) hinside
        hresult
    · have hother : ¬exitText <+: payload := fun hprefix ↦
        hexit ((readsAsExit_iff payload).mpr (comparedText_of_exit hprefix))
      have hreceived : (client.received cells (header ++ payload)).buffer.m_nHeaderSize =
        msgHeaderLen := hsize
      have hinside := readsInside_finishFrame_iff behind hsize hheader hpos hroom hint pTarget nLen
        hterminated hexit hlegal htarget
      obtain ⟨hresult, hdata, hcopied⟩ := finishFrame_payload behind hsize hheader hpos hroom hint
        pTarget nLen hterminated hexit htarget
      have hconnected := connected_finishRead hreceived pTarget nLen
        (receivingAccesses cells.length (msgHeaderLen + payload.length))
        (msgHeaderLen + payload.length)
        ((not_congr (exitText_iff hheader hroom hterminated behind)).mpr hexit)
      rw [hbuffer] at hinside hterminated
      rw [frameReadable_of_other hother, ← readsAsExit_iff]
      constructor
      · exact fun hanswers ↦ ⟨hint, hterminated, hexit, hinside.mp hanswers.inside⟩
      · rintro ⟨-, -, -, hcopies⟩
        refine ⟨hinside.mpr hcopies, iff_of_false ?_ hother, fun _ ↦ hresult, fun _ ↦ hconnected,
          fun _ ↦ hdata, fun _ ↦ hcopied⟩
        rw [hresult]
        omega
  · refine iff_of_false (fun hanswers ↦ hterminated ?_) ?_
    · exact terminated_of_readsInside behind hsize hheader hroom hint pTarget nLen
        (hbuffer ▸ hanswers.inside)
    · exact not_frameReadable hint (hbuffer ▸ hterminated)

end Frame

variable {client : CTcpClient} {cells header payload : List UInt8}

/-- Assumes: a client with a buffer that was allocated with a header, and a frame of a header of 20
bytes and a payload of 1 byte or more that fits the buffer. `read` accesses the block only and
answers as it should exactly in one of three cases. The payload begins with the text of an exit
message, the length of the frame is an `int`, and the C string of the payload ends in the block. Or
it begins with the text, and the length is 2^32 - 30. Or it does not begin with the text, the length
is an `int`, the C string of the payload ends in the block and, cut to four characters, is no
beginning of the text, and no more is copied to the target than there is. -/
theorem read_frame_iff (h : HasHeader client.buffer cells) (hheader : header.length = msgHeaderLen)
    (hpos : 1 ≤ payload.length)
    (hroom : msgHeaderLen + payload.length ≤ client.buffer.m_nBufferSize) {pTarget : Bool}
    {nLen : ℕ} (hlegal : nLen < 2 ^ 32) (htarget : pTarget = true → 1 ≤ nLen)
    (behind : List UInt8) (elapsed : ℕ) :
    AnswersFrame client pTarget nLen payload (client.read pTarget nLen behind
      (.available (header ++ payload) (msgHeaderLen + payload.length) elapsed)) ↔
      FrameReadable client.buffer.m_nBufferSize pTarget nLen payload := by
  have hlength : (header ++ payload).length = msgHeaderLen + payload.length := by
    rw [List.length_append, hheader]
  have hcells : msgHeaderLen + payload.length ≤ cells.length := hroom.trans_eq h.length.symm
  have hread : client.read pTarget nLen behind
      (.available (header ++ payload) (msgHeaderLen + payload.length) elapsed) =
      client.finishFrame cells header payload behind pTarget nLen := by
    rw [CTcpClient.read_available h (by omega) htarget hlength (by unfold msgHeaderLen; omega)
      behind elapsed, ← h.length]
    rfl
  rw [hread]
  by_cases hint : msgHeaderLen + payload.length < 2 ^ 31
  · exact CTcpClient.answersFrame_iff_of_int behind h.headerSize hheader hpos hcells h.length hint
      pTarget hlegal htarget
  · have htaken : toInt (msgHeaderLen + payload.length) =
        ((msgHeaderLen + payload.length : ℕ) : ℤ) - 2 ^ 32 := by
      rw [toInt, Nat.mod_eq_of_lt (hroom.trans_lt h.size_lt), if_neg hint]
    have hneg : toInt (msgHeaderLen + payload.length) < 1 := by
      have := h.size_lt
      omega
    have hfinish := (client.received cells (header ++ payload)).finishRead_negative pTarget nLen
      (overwrite (cleared cells ++ behind) 0 (header ++ payload))
      (receivingAccesses cells.length (msgHeaderLen + payload.length)) hneg
    refine answersFrame_iff_of_negative hint ?_ ?_
    · rw [CTcpClient.finishFrame, hfinish, ReadsInside, Option.toList_none, List.append_nil,
        ← h.length]
      exact receivingAccesses_inside (Nat.le_of_add_right_le hcells) hcells
    · rw [CTcpClient.finishFrame, hfinish]
      exact htaken

theorem hasHeader_newClient :
    HasHeader newClient.buffer (initializedHeader (List.replicate 64 0)) :=
  hasHeader_newTcpClient 64 (by decide) (by decide)

/-- A payload of two bytes for a target of one byte, and an exit message. -/
theorem read_frame_iff_two :
    AnswersFrame newClient true 1 [0x61, 0x62] (newClient.read true 1 []
        (.available (List.replicate 20 0 ++ [0x61, 0x62]) 22 0)) ∧
      AnswersFrame newClient false 0 exitText (newClient.read false 0 []
        (.available (List.replicate 20 0 ++ exitText) 24 0)) := by
  constructor
  · refine (read_frame_iff hasHeader_newClient ?_ ?_ ?_ ?_ ?_ [] 0).mpr ?_ <;> decide
  · refine (read_frame_iff hasHeader_newClient ?_ ?_ ?_ ?_ ?_ [] 0).mpr ?_ <;> decide

/-- A payload of one zero byte is answered as an exit message. -/
theorem zero_byte_is_exit :
    (newClient.read false 0 [] (.available (List.replicate 20 0 ++ [0]) 21 0)).answer.result =
        -30 ∧
      ¬∀ (client : CTcpClient) (cells header payload : List UInt8) (pTarget : Bool) (nLen : ℕ)
        (behind : List UInt8) (elapsed : ℕ), HasHeader client.buffer cells →
          header.length = msgHeaderLen → 1 ≤ payload.length →
          msgHeaderLen + payload.length ≤ client.buffer.m_nBufferSize →
          (pTarget = true → 1 ≤ nLen) →
          AnswersFrame client pTarget nLen payload (client.read pTarget nLen behind
            (.available (header ++ payload) (msgHeaderLen + payload.length) elapsed)) := by
  have hresult : (newClient.read false 0 []
      (.available (List.replicate 20 0 ++ [0]) 21 0)).answer.result = -30 := by decide
  refine ⟨hresult, fun h ↦ ?_⟩
  have hanswers := h newClient _ (List.replicate 20 0) [0] false 0 [] 0 hasHeader_newClient
    (by decide) (by decide) (by decide) nofun
  exact absurd (hanswers.exit.mp hresult) (by decide)

end RdbLibs.NetIO.CClientIO
