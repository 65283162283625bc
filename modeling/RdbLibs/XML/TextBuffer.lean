import RdbLibs.XML.XmlObject

/-!
# The text buffer

`Holds` says that an object has a text of some length in its buffer, with the two zeros behind it
that `AllocXmlBuffer` leaves there, and that the length that the object has noted is not beyond the
text. From there `Parse` and `DumpXmlBuffer` have results (`parse_eq`, `exists_dumpXmlBuffer`), and
so has `LoadXmlBuffer` from any object (`exists_loadXmlBuffer`).
-/

set_option autoImplicit false
set_option relaxedAutoImplicit false

namespace RdbLibs.XML

open CheckedMemory FileIO

/-- What `LoadXmlBuffer` is given: where there are characters, there are `nLen` of them. -/
structure Text where
  pBuffer : Option (List UInt8)
  nLen : ℤ
  covered : ∀ chars, pBuffer = some chars → nLen ≤ chars.length

/-! ### The loops -/

theorem blank_ne_zero (chr : UInt8) : blank chr ≠ 0 := by
  rw [blank]
  split_ifs with hcontrol
  · decide
  · rintro rfl
    exact hcontrol rfl

theorem blankAt_append (front back : List UInt8) (chr : UInt8) :
    blankAt (front ++ chr :: back) front.length = some (front ++ blank chr :: back) := by
  have hinside : front.length < (front ++ chr :: back).length := by simp
  rw [blankAt, load_of_lt hinside, store_of_lt hinside, blank]
  simp only [List.getElem_append_right le_rfl, Nat.sub_self, List.getElem_cons_zero,
    List.set_append_right _ _ le_rfl, List.set_cons_zero, Except.toOption, Option.bind_eq_bind,
    Option.bind_some]
  split_ifs <;> rfl

/-- The loop of `Parse` replaces the characters of a text. -/
theorem blankText_append (front text back : List UInt8) :
    blankText (front ++ text ++ back) front.length text.length =
      some (front ++ text.map blank ++ back) := by
  induction text generalizing front with
  | nil => simp [blankText]
  | cons chr text ih =>
    have hnext := ih (front ++ [blank chr])
    rw [List.length_append, List.length_singleton] at hnext
    rw [List.length_cons, blankText, List.append_assoc, List.cons_append, blankAt_append]
    simpa using hnext

/-- The loop of `DumpXmlBuffer` has a result inside of both blocks. -/
theorem exists_copyText {cells : List UInt8} (pTemp : List UInt8) {x count : ℕ}
    (hcells : x + count ≤ cells.length) (hTemp : x + count ≤ pTemp.length) :
    ∃ result, copyText cells pTemp x count = some result ∧ result.length = pTemp.length := by
  induction count generalizing pTemp x with
  | zero => exact ⟨pTemp, rfl, rfl⟩
  | succ count ih =>
    have hx : x < cells.length := by omega
    have hxTemp : x < pTemp.length := by omega
    have hrest : x + 1 + count ≤ (pTemp.set x (blank cells[x])).length := by
      rw [List.length_set]
      omega
    obtain ⟨result, hresult, hlength⟩ := ih (pTemp.set x (blank cells[x])) (by omega) hrest
    refine ⟨result, ?_, by rw [hlength, List.length_set]⟩
    simp only [copyText, load_of_lt hx, store_of_lt hxTemp, Except.toOption, Option.bind_eq_bind,
      Option.bind_some]
    exact hresult

/-! ### The calls -/

namespace XmlObject

/-- The object has a text in its buffer, and has noted a length that is not beyond the text. -/
structure Holds (s : XmlObject) (text : List UInt8) : Prop where
  buffer : s.m_pXmlBuffer = some (text ++ [0, 0])
  length : s.m_lXmlBufLen ≤ text.length

variable {s : XmlObject} {text : List UInt8}

/-- The text that `Parse` hands to the parser. -/
def blanked (s : XmlObject) (text : List UInt8) : List UInt8 :=
  (text.take s.m_lXmlBufLen).map blank ++ text.drop s.m_lXmlBufLen

theorem Holds.blankText (h : s.Holds text) :
    XML.blankText (text ++ [0, 0]) 0 s.m_lXmlBufLen = some (s.blanked text ++ [0, 0]) := by
  have hloop := blankText_append [] (text.take s.m_lXmlBufLen)
    (text.drop s.m_lXmlBufLen ++ [0, 0])
  rw [List.length_take_of_le h.length] at hloop
  simpa [blanked, ← List.append_assoc] using hloop

theorem length_blanked (s : XmlObject) (text : List UInt8) :
    (s.blanked text).length = text.length := by
  simp only [blanked, List.length_append, List.length_map, List.length_take, List.length_drop]
  omega

/-- `Parse` reads a string inside of the text, and leaves the zeros behind the text. -/
theorem Holds.parse (h : s.Holds text) (parse : (text : List UInt8) → Parsed text)
    (hparser : s.m_pXmlParser ≠ none) :
    ∃ string left, cString (s.blanked text ++ [0, 0]) = some string ∧ left.length = text.length ∧
      s.Parse parse = some ((parse string).accepted, { s with
        m_pXmlParser := some (parse string).document
        m_pXmlBuffer := some (left ++ [0, 0]) }) := by
  obtain ⟨document, hdocument⟩ := Option.ne_none_iff_exists'.mp hparser
  have hzero : (s.blanked text ++ [0, 0])[text.length]? = some 0 := by
    rw [← length_blanked s text, List.getElem?_append_right le_rfl, Nat.sub_self]
    rfl
  obtain ⟨string, hstring⟩ : ∃ string, cString (s.blanked text ++ [0, 0]) = some string :=
    ⟨_, if_pos (List.mem_of_getElem? hzero)⟩
  have hlength := length_le_of_cString hstring hzero
  have hdrop : (parse string).rewritten ++ (s.blanked text ++ [0, 0]).drop string.length =
      (parse string).rewritten ++ (s.blanked text).drop string.length ++ [0, 0] := by
    rw [List.drop_append_of_le_length (by rwa [length_blanked]), List.append_assoc]
  refine ⟨string, (parse string).rewritten ++ (s.blanked text).drop string.length, hstring, ?_, ?_⟩
  · rw [List.length_append, (parse string).length_rewritten, List.length_drop, length_blanked]
    omega
  · simp only [Parse, hdocument, h.buffer, Option.bind_eq_bind, Option.bind_some, h.blankText,
      hstring, hdrop]

/-- A block has what `writeBlock` asks for. -/
theorem exists_writeBlock (cFileManager : CFileIO) {pData : List UInt8} {count : ℕ}
    (hcount : count ≤ pData.length) :
    ∃ result, cFileManager.writeBlock pData count 1 = some result := by
  unfold CFileIO.writeBlock
  cases cFileManager.m_pFileHandle with
  | none => exact ⟨_, rfl⟩
  | some stream =>
    rw [loadRange, if_pos (by omega)]
    exact ⟨_, rfl⟩

theorem Holds.writeDump (h : s.Holds text) (copied bSpaceFill : Bool) (cFileManager : CFileIO) :
    ∃ result, s.writeDump (text ++ [0, 0]) copied bSpaceFill cFileManager = some result := by
  have hlength : 0 + s.m_lXmlBufLen ≤ (text ++ [0, 0]).length := by
    have := h.length
    rw [List.length_append]
    omega
  rw [XmlObject.writeDump]
  split_ifs with hcopy
  · obtain ⟨pTemp, hTemp, hlengthTemp⟩ := exists_copyText
      (List.replicate (s.m_lXmlBufLen + 2) 0) hlength (by rw [List.length_replicate]; omega)
    rw [List.length_replicate] at hlengthTemp
    rw [hTemp]
    exact exists_writeBlock cFileManager (by omega)
  · exact exists_writeBlock cFileManager (by omega)

theorem Holds.dumpLength (h : s.Holds text) :
    ∃ length, length ≤ text.length ∧ s.dumpLength (text ++ [0, 0]) = some length := by
  rw [XmlObject.dumpLength]
  split_ifs
  · have hzero : (text ++ [0, 0])[text.length]? = some 0 := by simp
    obtain ⟨string, hstring⟩ : ∃ string, cString (text ++ [0, 0]) = some string :=
      ⟨_, if_pos (List.mem_of_getElem? hzero)⟩
    exact ⟨string.length, length_le_of_cString hstring hzero, by rw [hstring, Option.map_some]⟩
  · exact ⟨s.m_lXmlBufLen, h.length, rfl⟩

theorem Holds.dumpTo (h : s.Holds text) (disk : Disk) (system : System) (sFilePath : List Char)
    (bSpaceFill : Bool) :
    ∃ status left, s.dumpTo (text ++ [0, 0]) disk system sFilePath bSpaceFill =
      some (status, s, left) := by
  rw [XmlObject.dumpTo]
  dsimp only
  split_ifs
  · exact ⟨false, disk, rfl⟩
  · obtain ⟨⟨status, cFileManager⟩, hwritten⟩ := h.writeDump system.copied bSpaceFill
      (openFile disk system sFilePath .output).2
    rw [hwritten]
    exact ⟨status, closeFile disk sFilePath cFileManager, rfl⟩

/-- `DumpXmlBuffer` notes a length that is not beyond the text. -/
theorem Holds.dumpXmlBuffer (h : s.Holds text) (disk : Disk) (system : System)
    (pFolder pFileName : Option (List Char)) (bSpaceFill : Bool) :
    ∃ status length left, length ≤ text.length ∧
      s.DumpXmlBuffer disk system pFolder pFileName bSpaceFill =
        some (status, { s with m_lXmlBufLen := length }, left) := by
  obtain ⟨length, hlength, hnoted⟩ := h.dumpLength
  have hnext : Holds { s with m_lXmlBufLen := length } text := ⟨h.buffer, hlength⟩
  obtain ⟨status, left, hdumped⟩ := hnext.dumpTo disk system
    (filePath (pFolder.getD []) (pFileName.getD s.m_sXmlDumpFile))
    (bSpaceFill && decide (1 ≤ s.m_lXmlBufLen))
  unfold DumpXmlBuffer
  split
  · next hnone => exact absurd (h.buffer.symm.trans hnone) nofun
  · next pXmlBuffer hbuffer =>
    obtain rfl := Option.some.inj (h.buffer.symm.trans hbuffer)
    rw [hnoted, Option.bind_eq_bind, Option.bind_some]
    split_ifs
    · exact ⟨false, s.m_lXmlBufLen, disk, h.length, rfl⟩
    · exact ⟨status, length, left, hlength, hdumped⟩

/-! ### Loading a text -/

/-- `AllocXmlBuffer` gets no memory for less than three characters, or more than an `int` counts. -/
def Allocates (nLen : ℤ) (allocated : Bool) : Prop :=
  3 ≤ nLen ∧ allocated = true ∧ nLen + 2 < 2 ^ 31

theorem allocXmlBuffer_of_allocates {nLen : ℤ} {allocated : Bool} (h : Allocates nLen allocated) :
    s.AllocXmlBuffer nLen allocated =
      (true, { s with m_pXmlBuffer := some (List.replicate nLen.toNat 0 ++ [0, 0]) }) := by
  obtain ⟨hthree, hallocated, hint⟩ := h
  have hlength : (nLen + 2).toNat = nLen.toNat + 2 := by omega
  have hcells : List.replicate (nLen + 2).toNat (0 : UInt8) =
      List.replicate nLen.toNat 0 ++ [0, 0] := by
    rw [hlength, ← List.replicate_append_replicate]
    rfl
  rw [AllocXmlBuffer, if_neg (by omega), if_pos ⟨hallocated, hint⟩, hcells]
  split_ifs <;> rfl

theorem allocXmlBuffer_of_not {nLen : ℤ} {allocated : Bool} (h : ¬Allocates nLen allocated) :
    ∃ buffer, (buffer = s.m_pXmlBuffer ∨ buffer = none) ∧
      s.AllocXmlBuffer nLen allocated = (false, { s with m_pXmlBuffer := buffer }) := by
  rw [AllocXmlBuffer]
  by_cases hthree : nLen < 3
  · exact ⟨s.m_pXmlBuffer, .inl rfl, by rw [if_pos hthree]⟩
  · have hnone : ¬(allocated = true ∧ nLen + 2 < 2 ^ 31) :=
      fun hsome ↦ h ⟨by omega, hsome⟩
    rw [if_neg hthree, if_neg hnone]
    refine ⟨none, .inr rfl, ?_⟩
    split_ifs <;> rfl

section LoadXmlBuffer

variable (parse : (text : List UInt8) → Parsed text) (disk : Disk) (system : System)
  {chars : List UInt8} {nLen : ℤ}

/-- `LoadXmlBuffer` refuses what it gets no memory for. -/
theorem loadXmlBuffer_of_not (pBuffer : Option (List UInt8))
    (h : ¬Allocates nLen system.allocated) :
    ∃ buffer, (buffer = s.m_pXmlBuffer ∨ buffer = none) ∧
      s.LoadXmlBuffer parse disk system pBuffer nLen =
        some (false, { s with m_pXmlBuffer := buffer }, disk) := by
  unfold LoadXmlBuffer
  split
  · exact ⟨s.m_pXmlBuffer, .inl rfl, rfl⟩
  · exact ⟨s.m_pXmlBuffer, .inl rfl, rfl⟩
  · split_ifs
    · exact ⟨s.m_pXmlBuffer, .inl rfl, rfl⟩
    · obtain ⟨buffer, hbuffer, halloc⟩ := s.allocXmlBuffer_of_not h
      rw [halloc]
      exact ⟨buffer, hbuffer, rfl⟩

/-- Where all characters are replaced, the text for the parser is all there is. -/
theorem Holds.parseOrDump (h : s.Holds text) (hlength : s.m_lXmlBufLen = text.length)
    (hparser : s.m_pXmlParser ≠ none) (pFileName : Option (List Char)) (bSpaceFill : Bool) :
    ∃ left length disk', left.length = text.length ∧ length ≤ text.length ∧
      s.parseOrDump parse disk system pFileName bSpaceFill =
        some ((parse (text.map blank)).accepted, { s with
          m_pXmlParser := some (parse (text.map blank)).document
          m_pXmlBuffer := some (left ++ [0, 0])
          m_lXmlBufLen := length }, disk') := by
  obtain ⟨string, left, hstring, hleft, hparsed⟩ := h.parse parse hparser
  have hnonzero : 0 ∉ text.map blank := by
    simpa using fun chr _ ↦ blank_ne_zero chr
  have hblanked : s.blanked text = text.map blank := by simp [blanked, hlength]
  rw [hblanked, cString_append_zero hnonzero] at hstring
  obtain rfl := Option.some.inj hstring
  have hnext : Holds { s with
      m_pXmlParser := some (parse (text.map blank)).document
      m_pXmlBuffer := some (left ++ [0, 0]) } left := ⟨rfl, (h.length.trans hleft.ge)⟩
  rw [XmlObject.parseOrDump, hparsed, Option.bind_eq_bind, Option.bind_some]
  dsimp only
  split_ifs
  · obtain ⟨status, length, disk', hnoted, hdumped⟩ :=
      hnext.dumpXmlBuffer disk system none pFileName bSpaceFill
    rw [hdumped]
    exact ⟨left, length, disk', hleft, hnoted.trans hleft.le, rfl⟩
  · exact ⟨left, s.m_lXmlBufLen, disk, hleft, h.length, rfl⟩

/-- `LoadXmlBuffer` has the characters parsed, if it gets memory for them. -/
theorem loadXmlBuffer_of_allocates (hparser : s.m_pXmlParser ≠ none)
    (hcovered : nLen ≤ chars.length) (h : Allocates nLen system.allocated) :
    ∃ left length disk', left.length = nLen.toNat ∧ length ≤ nLen.toNat ∧
      s.LoadXmlBuffer parse disk system (some chars) nLen =
        some ((parse ((chars.take nLen.toNat).map blank)).accepted, { s with
          m_pXmlParser := some (parse ((chars.take nLen.toNat).map blank)).document
          m_pXmlBuffer := some (left ++ [0, 0])
          m_lXmlBufLen := length }, disk') := by
  have hthree : 3 ≤ nLen := h.1
  have hlength : (chars.take nLen.toNat).length = nLen.toNat := by
    rw [List.length_take]
    omega
  have hload : loadRange chars 0 nLen.toNat = .ok (chars.take nLen.toNat) := by
    rw [loadRange, if_pos (by omega), List.drop_zero]
  have hstore : storeRange (List.replicate nLen.toNat (0 : UInt8) ++ [0, 0]) 0
      (chars.take nLen.toNat) = .ok (chars.take nLen.toNat ++ [0, 0]) := by
    have hmiddle := @storeRange_middle _ [] (List.replicate nLen.toNat (0 : UInt8)) 0 [0, 0] rfl
      (chars.take nLen.toNat) (by rw [List.length_replicate, hlength])
    simpa using hmiddle
  have hholds : Holds { s with
      m_pXmlBuffer := some (chars.take nLen.toNat ++ [0, 0])
      m_lXmlBufLen := nLen.toNat } (chars.take nLen.toNat) := ⟨rfl, hlength.ge⟩
  obtain ⟨left, length, disk', hleft, hnoted, hloaded⟩ :=
    hholds.parseOrDump parse disk system hlength.symm hparser none false
  rw [hlength] at hleft hnoted
  refine ⟨left, length, disk', hleft, hnoted, ?_⟩
  unfold LoadXmlBuffer
  split
  · next hnone => exact absurd hnone hparser
  · next hnone _ => cases hnone
  · next pBuffer _ hsome =>
    obtain rfl := Option.some.inj hsome
    rw [if_neg (by omega), allocXmlBuffer_of_allocates h]
    dsimp only
    rw [if_neg Bool.true_eq_false.mp, hload]
    simp only [Except.toOption, Option.bind_eq_bind, Option.bind_some, hstore]
    exact hloaded

end LoadXmlBuffer

end XmlObject

end RdbLibs.XML
