import RdbLibs.XML.CXmlHandler

/-!
# The words of `LoadXmlParamBool`

`LoadXmlParamBool` compares a value with each of four words, and no more characters than the value
has. So it takes a beginning of a word for the word, and it does not see what is behind a `NUL`. As
the length is an `int`, of a value of `2 ^ 32` characters or more only some are compared.
`loadXmlParamBool_iff` says on which values it is right.
-/

set_option autoImplicit false
set_option relaxedAutoImplicit false

namespace RdbLibs.XML

open MachineWord TextPieces

/-- The words for a `bool`. -/
def booleanWords : List (List UInt8) := [trueText, oneText, falseText, zeroText]

/-- What a word says. -/
def boolOfWord (word : List UInt8) : Option Bool :=
  if word = trueText ∨ word = oneText then some true
  else if word = falseText ∨ word = zeroText then some false
  else none

/-- The characters of a value that are compared, in lower case. -/
def comparedText (value : List UInt8) : List UInt8 :=
  (value.take (toInt value.length).toNat).map tolower

/-- A value that is taken for a word: what is compared is a word though there is more of the value,
or a proper beginning of a word, or has a `NUL` behind a word. -/
def TakenForWord (value : List UInt8) : Prop :=
  comparedText value ∈ booleanWords ∧ (comparedText value).length ≠ value.length ∨
    ∃ word ∈ booleanWords,
      comparedText value ≠ [] ∧ comparedText value <+: word ∧ comparedText value ≠ word ∨
        word ++ [0] <+: comparedText value

variable {text word value : List UInt8}

/-! ### Comparing as many characters as a text has -/

/-- Only the characters that are compared count. -/
theorem strncmpEqual_append (back : List UInt8) :
    strncmpEqual (text ++ back) word text.length = strncmpEqual text word text.length := by
  simp only [strncmpEqual, List.take_takeWhile, List.take_left, List.take_length]

/-- A text and a word are the same up to the length of the text, if the text is a beginning of the
word, or goes on with a `NUL` where the word ends. -/
theorem strncmpEqual_iff (hword : 0 ∉ word) :
    strncmpEqual text word text.length = true ↔ text <+: word ∨ word ++ [0] <+: text := by
  have hfront : text.takeWhile (· ≠ 0) <+: text := List.takeWhile_prefix _
  have hequal : strncmpEqual text word text.length = true ↔
      text.takeWhile (· ≠ 0) = word.take text.length := by
    rw [strncmpEqual, decide_eq_true_iff, List.take_takeWhile, List.take_length,
      takeWhile_eq_self_of_notMem hword]
  rw [hequal]
  constructor
  · intro hsame
    by_cases hlength : text.length ≤ word.length
    · have htext : text.takeWhile (· ≠ 0) = text := by
        refine hfront.eq_of_length ?_
        rw [hsame, List.length_take, Nat.min_eq_left hlength]
      exact .inl (htext ▸ hsame ▸ List.take_prefix _ _)
    · rw [List.take_of_length_le (by omega)] at hsame
      have hsplit := List.takeWhile_append_dropWhile (p := (· ≠ 0)) (l := text)
      cases hrest : text.dropWhile (· ≠ 0) with
      | nil =>
        rw [hrest, List.append_nil, hsame] at hsplit
        exact absurd (congrArg List.length hsplit) (by omega)
      | cons chr back =>
        have hstop := List.head?_dropWhile_not (· ≠ 0) text
        rw [hrest] at hstop
        have hzero : chr = 0 := by simpa using hstop
        refine .inr ⟨back, ?_⟩
        rw [hrest, hsame, hzero] at hsplit
        rw [List.append_assoc, List.singleton_append, hsplit]
  · rintro (hbegins | ⟨back, rfl⟩)
    · obtain ⟨back, rfl⟩ := hbegins
      rw [List.take_left]
      exact takeWhile_eq_self_of_notMem fun hmem ↦ hword (List.mem_append_left _ hmem)
    · have hword' : ∀ chr ∈ word, decide (chr ≠ 0) = true := fun chr hchr ↦
        decide_eq_true (ne_of_mem_of_not_mem hchr hword)
      rw [List.append_assoc, List.takeWhile_append_of_pos hword', List.singleton_append,
        List.takeWhile_cons_of_neg (by simp), List.append_nil, List.take_of_length_le (by simp)]

theorem zero_notMem_of_mem_booleanWords (h : word ∈ booleanWords) : 0 ∉ word := by
  simp only [booleanWords, List.mem_cons, List.not_mem_nil, or_false] at h
  rcases h with rfl | rfl | rfl | rfl <;> decide

/-- The text of a value agrees with a word, as far as `LoadXmlParamBool` looks at it. -/
def AgreesWith (text word : List UInt8) : Prop := text <+: word ∨ word ++ [0] <+: text

theorem readBool_eq_none_iff (back : List UInt8) :
    LoadedObject.readBool (text ++ back) text.length = none ↔
      ∀ word ∈ booleanWords, ¬AgreesWith text word := by
  have hagrees : (∀ word ∈ booleanWords, ¬AgreesWith text word) ↔
      ∀ word ∈ booleanWords, ¬strncmpEqual (text ++ back) word text.length = true := by
    refine forall₂_congr fun word hword ↦ not_congr ?_
    rw [strncmpEqual_append, strncmpEqual_iff (zero_notMem_of_mem_booleanWords hword)]
    rfl
  rw [hagrees, LoadedObject.readBool]
  simp only [booleanWords, List.forall_mem_cons, List.not_mem_nil, false_imp_iff, implies_true,
    and_true, Bool.or_eq_true]
  split_ifs with htrue hfalse
  · exact iff_of_false id fun h ↦ htrue.elim h.1 h.2.1
  · exact iff_of_false id fun h ↦ hfalse.elim h.2.2.1 h.2.2.2
  · exact iff_of_true rfl ⟨(not_or.mp htrue).1, (not_or.mp htrue).2, not_or.mp hfalse⟩

/-! ### The values on which the words are right -/

/-- What `LoadXmlParamBool` reads of a value. -/
def readValue (value : List UInt8) : Option Bool :=
  if 0 < toInt value.length then
    LoadedObject.readBool (mapCells tolower value 0 (toInt value.length).toNat)
      (toInt value.length).toNat
  else none

theorem length_comparedText (value : List UInt8) :
    (comparedText value).length = (toInt value.length).toNat := by
  rw [comparedText, List.length_map, List.length_take, Nat.min_eq_left (toNat_toInt_le _)]

theorem readValue_eq (value : List UInt8) : readValue value =
    if comparedText value = [] then none
    else LoadedObject.readBool (comparedText value ++ value.drop (comparedText value).length)
      (comparedText value).length := by
  have hempty : comparedText value = [] ↔ ¬0 < toInt value.length := by
    rw [← List.length_eq_zero_iff, length_comparedText]
    omega
  have hfront : (value.take (comparedText value).length).map tolower = comparedText value := by
    rw [length_comparedText, comparedText]
  rw [readValue, mapCells_zero _ (toNat_toInt_le _), ← length_comparedText, hfront]
  simp only [hempty, ite_not]

theorem boolOfWord_eq_none_iff : boolOfWord word = none ↔ word ∉ booleanWords := by
  simp only [booleanWords, List.mem_cons, List.not_mem_nil, or_false, boolOfWord]
  split_ifs with htrue hfalse <;> grind

/-- A word is read as what it says. -/
theorem readValue_of_word (h : value.map tolower ∈ booleanWords) :
    readValue value = boolOfWord (value.map tolower) ∧ ¬TakenForWord value := by
  have hshort : ∀ word ∈ booleanWords, word.length ≤ 5 := by
    simp only [booleanWords, List.forall_mem_cons]
    decide
  have hlength : value.length ≤ 5 := by
    rw [← List.length_map (f := tolower)]
    exact hshort _ h
  have hcompared : comparedText value = value.map tolower := by
    rw [comparedText, toInt_of_lt (by omega), Int.toNat_natCast, List.take_length]
  rw [readValue_eq, TakenForWord, hcompared, List.length_map, List.drop_length, List.append_nil,
    ← List.length_map (f := tolower)]
  generalize value.map tolower = word at h
  simp only [booleanWords, List.mem_cons, List.not_mem_nil, or_false] at h
  rcases h with rfl | rfl | rfl | rfl <;> decide

theorem agreesWith_iff (h : text ≠ []) : AgreesWith text word ↔
    text = word ∨ (text ≠ [] ∧ text <+: word ∧ text ≠ word ∨ word ++ [0] <+: text) := by
  unfold AgreesWith
  constructor
  · rintro (hbegins | hbehind)
    · by_cases hsame : text = word
      · exact .inl hsame
      · exact .inr (.inl ⟨h, hbegins, hsame⟩)
    · exact .inr (.inr hbehind)
  · rintro (rfl | ⟨-, hbegins, -⟩ | hbehind)
    · exact .inl (List.prefix_refl _)
    · exact .inl hbegins
    · exact .inr hbehind

theorem takenForWord_iff (h : value.map tolower ∉ booleanWords) :
    TakenForWord value ↔ readValue value ≠ none := by
  rw [readValue_eq]
  by_cases hempty : comparedText value = []
  · rw [if_pos hempty, TakenForWord, hempty]
    refine iff_of_false ?_ fun hnone ↦ hnone rfl
    rintro (⟨hmem, -⟩ | ⟨word, -, ⟨hne, -⟩ | hbehind⟩)
    · exact absurd hmem (by decide)
    · exact hne rfl
    · simp at hbehind
  · rw [if_neg hempty, ne_eq, readBool_eq_none_iff]
    constructor
    · rintro (⟨hmem, -⟩ | ⟨word, hword, htaken⟩) hnone
      · exact hnone _ hmem (.inl (List.prefix_refl _))
      · exact hnone word hword ((agreesWith_iff hempty).mpr (.inr htaken))
    · intro hsome
      obtain ⟨word, hword, hagrees⟩ :
          ∃ word ∈ booleanWords, AgreesWith (comparedText value) word := by
        simpa using hsome
      rcases (agreesWith_iff hempty).mp hagrees with hsame | htaken
      · refine .inl ⟨hsame ▸ hword, fun hlength ↦ h ?_⟩
        have hall : comparedText value = value.map tolower := by
          rw [comparedText, ← length_comparedText, hlength, List.take_length]
        exact hall ▸ hsame ▸ hword
      · exact .inr ⟨word, hword, htaken⟩

/-- A value is read as what it says, exactly if it is not taken for a word. -/
theorem readValue_eq_iff (value : List UInt8) :
    readValue value = boolOfWord (value.map tolower) ↔ ¬TakenForWord value := by
  by_cases hword : value.map tolower ∈ booleanWords
  · exact iff_of_true (readValue_of_word hword).1 (readValue_of_word hword).2
  · rw [boolOfWord_eq_none_iff.mpr hword, takenForWord_iff hword, not_not]

/-! ### The function -/

section Answer

variable {s : LoadedObject} {document node : xml_node} {pNode path : Path} {pParam : List UInt8}
  {bFirst : Bool}

theorem findParam_eq (hfind : findNode document pNode pParam bFirst = some path)
    (hnode : document.node? path = some node) : findParam document pNode pParam bFirst =
      if toInt node.value.length > 0 then
        some (path, node.value, (toInt node.value.length).toNat)
      else none := by
  rw [findParam, hfind, Option.bind_eq_bind, Option.bind_some, hnode]
  rfl

/-- What `LoadXmlParamBool` answers, and what it leaves in the `bool`. -/
theorem loadXmlParamBool_eq (hparser : s.object.m_pXmlParser = some document)
    (hfind : findNode document pNode pParam bFirst = some path)
    (hnode : document.node? path = some node) (bTarget bUseDef bDefVal : Bool) :
    ∃ after, s.LoadXmlParamBool (some pNode) pParam bTarget bUseDef bDefVal bFirst =
      ((readValue node.value).isSome,
        (readValue node.value).getD (if bUseDef then bDefVal else bTarget), after) := by
  simp only [LoadedObject.LoadXmlParamBool, hparser, findParam_eq hfind hnode, readValue]
  by_cases hlength : 0 < toInt node.value.length
  · rw [if_pos hlength, if_pos hlength]
    dsimp only
    cases LoadedObject.readBool (mapCells tolower node.value 0 (toInt node.value.length).toNat)
      (toInt node.value.length).toNat with
    | none => exact ⟨_, rfl⟩
    | some value => exact ⟨_, rfl⟩
  · rw [if_neg hlength, if_neg hlength]
    exact ⟨s, rfl⟩

/-- `LoadXmlParamBool` takes a value for a `bool` exactly if it is one of the words, in letters of
either case, as long as it takes nothing else for a word. -/
theorem loadXmlParamBool_iff (hparser : s.object.m_pXmlParser = some document)
    (hfind : findNode document pNode pParam bFirst = some path)
    (hnode : document.node? path = some node) (bTarget bUseDef bDefVal : Bool) :
    (∃ after, s.LoadXmlParamBool (some pNode) pParam bTarget bUseDef bDefVal bFirst =
      (decide (node.value.map tolower ∈ booleanWords),
        (boolOfWord (node.value.map tolower)).getD (if bUseDef then bDefVal else bTarget),
        after)) ↔ ¬TakenForWord node.value := by
  have hsome : decide (node.value.map tolower ∈ booleanWords) =
      (boolOfWord (node.value.map tolower)).isSome := by
    rw [Bool.eq_iff_iff, decide_eq_true_iff, Option.isSome_iff_ne_none, ne_eq,
      boolOfWord_eq_none_iff, not_not]
  obtain ⟨after, hanswer⟩ :=
    loadXmlParamBool_eq hparser hfind hnode bTarget bUseDef bDefVal
  rw [hsome, hanswer, ← readValue_eq_iff]
  constructor
  · rintro ⟨after', hsame⟩
    obtain ⟨hfound, htarget⟩ := Prod.mk.inj hsame
    cases hread : readValue node.value <;> cases hsays : boolOfWord (node.value.map tolower) <;>
      simp_all
  · intro hsame
    exact ⟨after, by rw [hsame]⟩

end Answer

/-- A document with one element `a`, and its text `value`. -/
def elementText (value : List UInt8) : LoadedObject :=
  .ofText (.mk ⟨0, 0⟩ ⟨0, 0⟩ [.mk ⟨0, 1⟩ ⟨2, value.length⟩ []]) (97 :: 0 :: (value ++ [0]))

theorem loadXmlParamBool_iff_no :
    (∃ after, (elementText [110, 111]).LoadXmlParamBool (some []) [97] true true false true =
      (decide ([110, 111] ∈ booleanWords), (boolOfWord [110, 111]).getD false, after)) ↔
      ¬TakenForWord [110, 111] :=
  @loadXmlParamBool_iff _ _ (.mk [97] [110, 111] []) [] [0] [97] true rfl rfl rfl true true false

/-- The value `t` is taken for `true`. -/
theorem beginning_is_taken_for_word :
    ((elementText [116]).LoadXmlParamBool (some []) [97] false false false true).1 = true ∧
      ((elementText [116]).LoadXmlParamBool (some []) [97] false false false true).2.1 = true ∧
      [116].map tolower ∉ booleanWords := by
  decide

end RdbLibs.XML
