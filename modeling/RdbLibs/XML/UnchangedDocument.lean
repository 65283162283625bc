import RdbLibs.Foundations.Runs
import RdbLibs.XML.CXmlHandler

/-!
# Lookups and the document

Any sequence of the lookups of `CXmlHandler` on a document. All of them leave the nodes, and only
`LoadXmlParamBool` writes to the text: so the names and values stay exactly if it finds no value
with a capital letter (`lookups_keep_document_iff`). A letter that is written in lower case is never
a capital again, so that no later lookup restores a value.
-/

set_option autoImplicit false
set_option relaxedAutoImplicit false

namespace RdbLibs.XML

open MachineWord Runs TextPieces

/-- A lookup with its arguments. -/
inductive HandlerCall
  | FindXmlParamGroup (pNode : Option Path) (pParam : List UInt8) (bFirst : Bool)
  | LoadXmlParamBuf (pNode : Option Path) (pParam pTarget : List UInt8) (nLen : ℤ)
      (pDefault : Option (List UInt8)) (bFirst : Bool)
  | LoadXmlParamString (pNode : Option Path) (pParam sTarget : List UInt8)
      (pDefault : Option (List UInt8)) (bFirst : Bool)
  | LoadXmlParamBool (pNode : Option Path) (pParam : List UInt8)
      (bTarget bUseDef bDefVal bFirst : Bool)
  | LoadXmlParamInt (pNode : Option Path) (pParam : List UInt8) (nTarget : ℤ) (bUseDef : Bool)
      (nDefVal : ℤ) (bFirst : Bool)

/-- What a lookup answers, and leaves in its target. -/
inductive HandlerReply
  | group (bRet : Bool)
  | bytes (bRet : Bool) (target : List UInt8)
  | bool (bRet target : Bool)
  | int (bRet : Bool) (target : ℤ)
deriving DecidableEq

/-! ### What a lookup leaves -/

/-- The document and the text are the same. -/
def SameDocument (before after : XmlObject) : Prop :=
  after.m_pXmlParser = before.m_pXmlParser ∧ after.m_pXmlBuffer = before.m_pXmlBuffer

variable {s : XmlObject} {pNode : Option Path} {pParam : List UInt8} {bFirst : Bool}

theorem SameDocument.refl (s : XmlObject) : SameDocument s s := ⟨rfl, rfl⟩

theorem sameDocument_findXmlParamGroup (s : XmlObject) (pNode : Option Path)
    (pParam : List UInt8) (bFirst : Bool) :
    SameDocument s (s.FindXmlParamGroup pNode pParam bFirst).2 := by
  unfold XmlObject.FindXmlParamGroup
  split
  · exact .refl s
  · exact .refl s
  · split <;> exact ⟨rfl, rfl⟩

theorem sameDocument_loadXmlParamString (s : XmlObject) (pNode : Option Path)
    (pParam sTarget : List UInt8) (pDefault : Option (List UInt8)) (bFirst : Bool) :
    SameDocument s
      (s.LoadXmlParamString CXmlHandler.toLength pNode pParam sTarget pDefault bFirst).2.2 := by
  unfold XmlObject.LoadXmlParamString
  split
  · exact .refl s
  · exact .refl s
  · split <;> exact ⟨rfl, rfl⟩

theorem sameDocument_loadXmlParamInt (s : XmlObject) (pNode : Option Path) (pParam : List UInt8)
    (nTarget : ℤ) (bUseDef : Bool) (nDefVal : ℤ) (bFirst : Bool) :
    SameDocument s (s.LoadXmlParamInt pNode pParam nTarget bUseDef nDefVal bFirst).2.2 := by
  unfold XmlObject.LoadXmlParamInt
  split
  · exact .refl s
  · exact .refl s
  · split <;> exact ⟨rfl, rfl⟩

theorem SameDocument.of_answer {bRet bRet' : Bool} {target target' : List UInt8}
    {object after : XmlObject} (h : some (bRet', target', object) = some (bRet, target, after))
    (hsame : SameDocument s object) : SameDocument s after := by
  obtain rfl := (Prod.mk.inj (Prod.mk.inj (Option.some.inj h)).2).2
  exact hsame

theorem sameDocument_loadBuf {xmlSearch : Path} {pParamValue pTarget written : List UInt8}
    {nLen : ℤ} {pDefault : Option (List UInt8)} {bRet : Bool} {after : XmlObject}
    (h : s.loadBuf xmlSearch pParamValue pTarget nLen pDefault = some (bRet, written, after)) :
    SameDocument s after := by
  unfold XmlObject.loadBuf at h
  dsimp only at h
  by_cases hvalue : toInt pParamValue.length > 0
  · rw [if_pos hvalue] at h
    obtain ⟨copied, -, hanswer⟩ := Option.bind_eq_some_iff.mp h
    exact .of_answer hanswer ⟨rfl, rfl⟩
  · rw [if_neg hvalue] at h
    cases pDefault with
    | none => exact .of_answer h (.refl s)
    | some text =>
      dsimp only at h
      by_cases hdefault : toInt text.length > 0
      · rw [if_pos hdefault] at h
        obtain ⟨copied, -, hanswer⟩ := Option.bind_eq_some_iff.mp h
        exact .of_answer hanswer (.refl s)
      · rw [if_neg hdefault] at h
        exact .of_answer h (.refl s)

theorem sameDocument_loadXmlParamBuf {pTarget written : List UInt8} {nLen : ℤ}
    {pDefault : Option (List UInt8)} {bRet : Bool} {after : XmlObject}
    (h : s.LoadXmlParamBuf pNode pParam pTarget nLen pDefault bFirst =
      some (bRet, written, after)) : SameDocument s after := by
  unfold XmlObject.LoadXmlParamBuf at h
  split at h
  · exact .of_answer h (.refl s)
  · exact .of_answer h (.refl s)
  · split_ifs at h
    · exact .of_answer h ⟨rfl, rfl⟩
    · split at h
      · exact .of_answer h (.refl s)
      · obtain ⟨node, -, hbuf⟩ := Option.bind_eq_some_iff.mp h
        exact sameDocument_loadBuf hbuf

/-! ### The calls -/

namespace LoadedObject

/-- The object after a lookup that leaves its document. -/
def withObject (s : LoadedObject) (object : XmlObject) (h : SameDocument s.object object) :
    LoadedObject where
  object := object
  nodes := s.nodes
  parser_eq := by
    rw [XmlObject.text, h.1, h.2]
    exact s.parser_eq

/-- A lookup, with its reply. -/
def answer (s : LoadedObject) : HandlerCall → Option (HandlerReply × LoadedObject)
  | .FindXmlParamGroup pNode pParam bFirst =>
    some (.group (s.object.FindXmlParamGroup pNode pParam bFirst).1,
      s.withObject _ (sameDocument_findXmlParamGroup s.object pNode pParam bFirst))
  | .LoadXmlParamBuf pNode pParam pTarget nLen pDefault bFirst =>
    match h : s.object.LoadXmlParamBuf pNode pParam pTarget nLen pDefault bFirst with
    | none => none
    | some (bRet, written, after) =>
      some (.bytes bRet written, s.withObject after (sameDocument_loadXmlParamBuf h))
  | .LoadXmlParamString pNode pParam sTarget pDefault bFirst =>
    let reply :=
      s.object.LoadXmlParamString CXmlHandler.toLength pNode pParam sTarget pDefault bFirst
    some (.bytes reply.1 reply.2.1, s.withObject _
      (sameDocument_loadXmlParamString s.object pNode pParam sTarget pDefault bFirst))
  | .LoadXmlParamBool pNode pParam bTarget bUseDef bDefVal bFirst =>
    let (bRet, bTarget, after) := s.LoadXmlParamBool pNode pParam bTarget bUseDef bDefVal bFirst
    some (.bool bRet bTarget, after)
  | .LoadXmlParamInt pNode pParam nTarget bUseDef nDefVal bFirst =>
    let reply := s.object.LoadXmlParamInt pNode pParam nTarget bUseDef nDefVal bFirst
    some (.int reply.1 reply.2.1, s.withObject _
      (sameDocument_loadXmlParamInt s.object pNode pParam nTarget bUseDef nDefVal bFirst))

/-- A lookup finds no value with a capital letter, if it is one that writes. -/
def LeavesCase (s : LoadedObject) : HandlerCall → Prop
  | .LoadXmlParamBool (some pNode) pParam _ _ _ bFirst => ∀ document xmlSearch value nParamLen,
    s.object.m_pXmlParser = some document →
      findParam document pNode pParam bFirst = some (xmlSearch, value, nParamLen) →
        ∀ chr ∈ value.take nParamLen, ¬(65 ≤ chr ∧ chr ≤ 90)
  | _ => True

variable {s after : LoadedObject} {call : HandlerCall} {reply : HandlerReply}

/-! ### What a lookup answers -/

theorem loadBuf_congr (s s' : XmlObject) (xmlSearch : Path) (pParamValue pTarget : List UInt8)
    (nLen : ℤ) (pDefault : Option (List UInt8)) :
    (s.loadBuf xmlSearch pParamValue pTarget nLen pDefault).map (Prod.map id Prod.fst) =
      (s'.loadBuf xmlSearch pParamValue pTarget nLen pDefault).map (Prod.map id Prod.fst) := by
  unfold XmlObject.loadBuf
  dsimp only
  by_cases hvalue : toInt pParamValue.length > 0
  · rw [if_pos hvalue, if_pos hvalue]
    cases strncpy pTarget pParamValue _ <;> rfl
  · rw [if_neg hvalue, if_neg hvalue]
    cases pDefault with
    | none => rfl
    | some text =>
      dsimp only
      by_cases hdefault : toInt text.length > 0
      · rw [if_pos hdefault, if_pos hdefault]
        cases strncpy pTarget pParamValue _ <;> rfl
      · rw [if_neg hdefault, if_neg hdefault]
        rfl

section Replies

variable {s s' : XmlObject} (h : s.m_pXmlParser = s'.m_pXmlParser) (pNode : Option Path)
  (pParam : List UInt8) (pDefault : Option (List UInt8)) (bFirst : Bool)
include h

theorem findXmlParamGroup_congr : (s.FindXmlParamGroup pNode pParam bFirst).1 =
    (s'.FindXmlParamGroup pNode pParam bFirst).1 := by
  unfold XmlObject.FindXmlParamGroup
  rw [h]
  split <;> [rfl; rfl; skip]
  split <;> rfl

theorem loadXmlParamString_congr (sTarget : List UInt8) :
    (s.LoadXmlParamString CXmlHandler.toLength pNode pParam sTarget pDefault bFirst).map id
        Prod.fst =
      (s'.LoadXmlParamString CXmlHandler.toLength pNode pParam sTarget pDefault bFirst).map id
        Prod.fst := by
  unfold XmlObject.LoadXmlParamString
  rw [h]
  split <;> [rfl; rfl; skip]
  split <;> rfl

theorem loadXmlParamInt_congr (nTarget : ℤ) (bUseDef : Bool) (nDefVal : ℤ) :
    (s.LoadXmlParamInt pNode pParam nTarget bUseDef nDefVal bFirst).map id Prod.fst =
      (s'.LoadXmlParamInt pNode pParam nTarget bUseDef nDefVal bFirst).map id Prod.fst := by
  unfold XmlObject.LoadXmlParamInt
  rw [h]
  split <;> [rfl; rfl; skip]
  split <;> rfl

theorem loadXmlParamBuf_congr (pTarget : List UInt8) (nLen : ℤ) :
    (s.LoadXmlParamBuf pNode pParam pTarget nLen pDefault bFirst).map (Prod.map id Prod.fst) =
      (s'.LoadXmlParamBuf pNode pParam pTarget nLen pDefault bFirst).map
        (Prod.map id Prod.fst) := by
  unfold XmlObject.LoadXmlParamBuf
  rw [h]
  split
  · rfl
  · rfl
  · split_ifs
    · rfl
    · split
      · rfl
      · rename_i document _ _ _ _ xmlSearch _
        cases document.node? xmlSearch with
        | none => rfl
        | some node => exact loadBuf_congr s s' xmlSearch node.value pTarget nLen pDefault

end Replies

theorem loadXmlParamBool_congr {s s' : LoadedObject}
    (h : s.object.m_pXmlParser = s'.object.m_pXmlParser) (pNode : Option Path)
    (pParam : List UInt8) (bTarget bUseDef bDefVal bFirst : Bool) :
    (s.LoadXmlParamBool pNode pParam bTarget bUseDef bDefVal bFirst).map id Prod.fst =
      (s'.LoadXmlParamBool pNode pParam bTarget bUseDef bDefVal bFirst).map id Prod.fst := by
  unfold LoadXmlParamBool
  rw [h]
  split
  · rfl
  · rfl
  · split
    · rfl
    · dsimp only
      split <;> rfl

theorem reply_bytes (s : LoadedObject) (pNode : Option Path) (pParam pTarget : List UInt8)
    (nLen : ℤ) (pDefault : Option (List UInt8)) (bFirst : Bool) :
    (s.answer (.LoadXmlParamBuf pNode pParam pTarget nLen pDefault bFirst)).map Prod.fst =
      (s.object.LoadXmlParamBuf pNode pParam pTarget nLen pDefault bFirst).map
        fun reply ↦ .bytes reply.1 reply.2.1 := by
  rw [answer]
  split
  · rename_i hnone
    rw [hnone]
    rfl
  · rename_i hsome
    exact (congrArg (Option.map fun reply ↦ HandlerReply.bytes reply.1 reply.2.1) hsome).symm

/-- What a lookup answers depends on the document only. -/
theorem reply_congr {s s' : LoadedObject}
    (h : s.object.m_pXmlParser = s'.object.m_pXmlParser) (call : HandlerCall) :
    (s.answer call).map Prod.fst = (s'.answer call).map Prod.fst := by
  cases call with
  | FindXmlParamGroup pNode pParam bFirst =>
    simp only [answer, Option.map_some, findXmlParamGroup_congr h]
  | LoadXmlParamBuf pNode pParam pTarget nLen pDefault bFirst =>
    have hreply := congrArg (Option.map fun reply : Bool × List UInt8 ↦
      HandlerReply.bytes reply.1 reply.2) (loadXmlParamBuf_congr h pNode pParam pDefault bFirst
        pTarget nLen)
    rw [Option.map_map, Option.map_map] at hreply
    rw [reply_bytes, reply_bytes]
    exact hreply
  | LoadXmlParamString pNode pParam sTarget pDefault bFirst =>
    have hreply := loadXmlParamString_congr h pNode pParam pDefault bFirst sTarget
    obtain ⟨hanswer, htarget⟩ := Prod.mk.inj hreply
    exact congrArg some (congrArg₂ HandlerReply.bytes hanswer htarget)
  | LoadXmlParamBool pNode pParam bTarget bUseDef bDefVal bFirst =>
    have hreply := loadXmlParamBool_congr h pNode pParam bTarget bUseDef bDefVal bFirst
    obtain ⟨hanswer, htarget⟩ := Prod.mk.inj hreply
    exact congrArg some (congrArg₂ HandlerReply.bool hanswer htarget)
  | LoadXmlParamInt pNode pParam nTarget bUseDef nDefVal bFirst =>
    have hreply := loadXmlParamInt_congr h pNode pParam bFirst nTarget bUseDef nDefVal
    obtain ⟨hanswer, htarget⟩ := Prod.mk.inj hreply
    exact congrArg some (congrArg₂ HandlerReply.int hanswer htarget)

/-! ### Values in lower case -/

theorem tolower_eq_self {chr : UInt8} (h : ¬(65 ≤ chr ∧ chr ≤ 90)) : tolower chr = chr := if_neg h

theorem not_capital_tolower (chr : UInt8) : ¬(65 ≤ tolower chr ∧ tolower chr ≤ 90) := by
  unfold tolower
  split_ifs with hcapital
  · rintro ⟨-, hle⟩
    simp only [UInt8.le_iff_toNat_le, UInt8.toNat_add, UInt8.reduceToNat] at hcapital hle
    omega
  · exact hcapital

theorem tolower_tolower (chr : UInt8) : tolower (tolower chr) = tolower chr :=
  tolower_eq_self (not_capital_tolower chr)

theorem exists_of_findParam {document : xml_node} {pNode xmlSearch : Path}
    {pParam value : List UInt8} {bFirst : Bool} {nParamLen : ℕ}
    (h : findParam document pNode pParam bFirst = some (xmlSearch, value, nParamLen)) :
    nParamLen ≤ value.length ∧
      ∃ node, document.node? xmlSearch = some node ∧ node.value = value := by
  obtain ⟨path, -, hpath⟩ := Option.bind_eq_some_iff.mp h
  obtain ⟨node, hnode, hlength⟩ := Option.bind_eq_some_iff.mp hpath
  dsimp only at hlength
  split_ifs at hlength
  obtain ⟨rfl, rfl, rfl⟩ : path = xmlSearch ∧ node.value = value ∧ _ = nParamLen := by
    simpa using hlength
  exact ⟨toNat_toInt_le _, node, hnode, rfl⟩

variable {s after : LoadedObject} {xmlSearch : Path} {node : text_node} {nParamLen : ℕ}

theorem mapCells_nil {α : Type*} (f : α → α) (start count : ℕ) :
    mapCells f [] start count = [] := by
  induction count with
  | zero => rfl
  | succ count ih => rw [mapCells, ih, List.modify_nil]

/-- What the conversion of a value makes of the text and of the document. -/
theorem lowerValue_eq (hnode : s.nodes.node? xmlSearch = some node) (nParamLen : ℕ) :
    (s.lowerValue xmlSearch nParamLen).object.text =
        mapCells tolower s.object.text node.value.start nParamLen ∧
      (s.lowerValue xmlSearch nParamLen).object.m_pXmlParser =
        s.object.m_pXmlParser.map fun _ ↦
          s.nodes.view (mapCells tolower s.object.text node.value.start nParamLen) := by
  have htext : (s.object.m_pXmlBuffer.map fun text ↦
      mapCells tolower text node.value.start nParamLen).getD [] =
        mapCells tolower s.object.text node.value.start nParamLen := by
    rw [XmlObject.text]
    cases s.object.m_pXmlBuffer with
    | none => exact (mapCells_nil _ _ _).symm
    | some text => rfl
  simp only [lowerValue, hnode, XmlObject.text] at htext ⊢
  exact ⟨htext, by rw [htext]⟩

/-- A step of a run of lookups. -/
def Step (before : LoadedObject) (call : HandlerCall) (reply : HandlerReply)
    (after : LoadedObject) : Prop := before.answer call = some (reply, after)

/-- A lookup that writes has found a value, and converts it. -/
structure Converts (before : LoadedObject) (document : xml_node) (call : HandlerCall)
    (xmlSearch : Path) (value : List UInt8) (nParamLen : ℕ) (after : LoadedObject) : Prop where
  parser : before.object.m_pXmlParser = some document
  nodes : after.nodes = before.nodes
  count : nParamLen ≤ value.length
  found : ∃ node, document.node? xmlSearch = some node ∧ node.value = value
  object : SameDocument (before.lowerValue xmlSearch nParamLen).object after.object
  leavesCase : before.LeavesCase call ↔
    ∀ chr ∈ value.take nParamLen, ¬(65 ≤ chr ∧ chr ≤ 90)

theorem loadXmlParamBool_found {document : xml_node} {pNode xmlSearch : Path}
    {pParam value : List UInt8} {bFirst : Bool} {nParamLen : ℕ}
    (hparser : s.object.m_pXmlParser = some document)
    (hfound : findParam document pNode pParam bFirst = some (xmlSearch, value, nParamLen))
    (bTarget bUseDef bDefVal : Bool) :
    (s.LoadXmlParamBool (some pNode) pParam bTarget bUseDef bDefVal bFirst).2.2 =
      (s.lowerValue xmlSearch nParamLen).withLastNode xmlSearch := by
  simp only [LoadXmlParamBool, hparser, hfound]
  split <;> rfl

/-- A value that is found is converted. -/
theorem converts_of_found {document : xml_node} {pNode xmlSearch : Path}
    {pParam value : List UInt8} {bFirst : Bool} {nParamLen : ℕ}
    (hparser : s.object.m_pXmlParser = some document)
    (hfound : findParam document pNode pParam bFirst = some (xmlSearch, value, nParamLen))
    (bTarget bUseDef bDefVal : Bool) :
    Converts s document (.LoadXmlParamBool (some pNode) pParam bTarget bUseDef bDefVal bFirst)
      xmlSearch value nParamLen
      (s.LoadXmlParamBool (some pNode) pParam bTarget bUseDef bDefVal bFirst).2.2 := by
  obtain ⟨hcount, hnode⟩ := exists_of_findParam hfound
  rw [loadXmlParamBool_found hparser hfound]
  refine ⟨hparser, ?_, hcount, hnode, ⟨rfl, rfl⟩, ?_, ?_⟩
  · unfold lowerValue
    split <;> rfl
  · intro hcase
    exact hcase document xmlSearch value nParamLen hparser hfound
  · intro hcase document' xmlSearch' value' nParamLen' hdocument hfound'
    obtain rfl := Option.some.inj (hparser.symm.trans hdocument)
    obtain ⟨rfl, rfl, rfl⟩ : xmlSearch = xmlSearch' ∧ value = value' ∧ nParamLen = nParamLen' := by
      simpa using hfound.symm.trans hfound'
    exact hcase

/-- `LoadXmlParamBool` does nothing, or it converts the value that it finds. -/
theorem loadXmlParamBool_cases (s : LoadedObject) (pNode : Option Path) (pParam : List UInt8)
    (bTarget bUseDef bDefVal bFirst : Bool) :
    ((s.LoadXmlParamBool pNode pParam bTarget bUseDef bDefVal bFirst).2.2 = s ∧
        s.LeavesCase (.LoadXmlParamBool pNode pParam bTarget bUseDef bDefVal bFirst)) ∨
      ∃ document xmlSearch value nParamLen,
        Converts s document (.LoadXmlParamBool pNode pParam bTarget bUseDef bDefVal bFirst)
          xmlSearch value nParamLen
          (s.LoadXmlParamBool pNode pParam bTarget bUseDef bDefVal bFirst).2.2 := by
  cases pNode with
  | none =>
    refine .inl ⟨?_, trivial⟩
    unfold LoadXmlParamBool
    cases s.object.m_pXmlParser <;> rfl
  | some pNode =>
    cases hparser : s.object.m_pXmlParser with
    | none =>
      refine .inl ⟨by simp only [LoadXmlParamBool, hparser], fun document _ _ _ hdocument ↦ ?_⟩
      exact absurd (hparser.symm.trans hdocument) (Option.some_ne_none document).symm
    | some document =>
      cases hfound : findParam document pNode pParam bFirst with
      | none =>
        refine .inl ⟨by simp only [LoadXmlParamBool, hparser, hfound], ?_⟩
        intro document' _ _ _ hdocument hsome
        obtain rfl := Option.some.inj (hparser.symm.trans hdocument)
        exact absurd (hfound.symm.trans hsome) (Option.some_ne_none _).symm
      | some result =>
        exact .inr ⟨document, _, _, _, converts_of_found hparser hfound bTarget bUseDef bDefVal⟩

/-- What a lookup does: nothing to the text, or it converts a value. -/
theorem step_cases {before : LoadedObject} {call : HandlerCall} {reply : HandlerReply}
    (h : Step before call reply after) :
    (after.nodes = before.nodes ∧ SameDocument before.object after.object ∧
        before.LeavesCase call) ∨
      ∃ document xmlSearch value nParamLen,
        Converts before document call xmlSearch value nParamLen after := by
  cases call with
  | FindXmlParamGroup pNode pParam bFirst =>
    obtain rfl := (Prod.mk.inj (Option.some.inj h)).2
    exact .inl ⟨rfl, sameDocument_findXmlParamGroup _ _ _ _, trivial⟩
  | LoadXmlParamBuf pNode pParam pTarget nLen pDefault bFirst =>
    rw [Step, answer] at h
    split at h
    · cases h
    · rename_i hbuf
      obtain rfl := (Prod.mk.inj (Option.some.inj h)).2
      exact .inl ⟨rfl, sameDocument_loadXmlParamBuf hbuf, trivial⟩
  | LoadXmlParamString pNode pParam sTarget pDefault bFirst =>
    obtain rfl := (Prod.mk.inj (Option.some.inj h)).2
    exact .inl ⟨rfl, sameDocument_loadXmlParamString _ _ _ _ _ _, trivial⟩
  | LoadXmlParamInt pNode pParam nTarget bUseDef nDefVal bFirst =>
    obtain rfl := (Prod.mk.inj (Option.some.inj h)).2
    exact .inl ⟨rfl, sameDocument_loadXmlParamInt _ _ _ _ _ _ _, trivial⟩
  | LoadXmlParamBool pNode pParam bTarget bUseDef bDefVal bFirst =>
    obtain rfl := (Prod.mk.inj (Option.some.inj h)).2
    refine (before.loadXmlParamBool_cases pNode pParam bTarget bUseDef bDefVal bFirst).imp_left ?_
    rintro ⟨hsame, hcase⟩
    exact ⟨congrArg nodes hsame, hsame.symm ▸ .refl _, hcase⟩

/-- The piece of the text that is converted. -/
theorem Converts.exists_piece {before : LoadedObject} {document : xml_node} {call : HandlerCall}
    {value : List UInt8} (h : Converts before document call xmlSearch value nParamLen after) :
    ∃ node, before.nodes.node? xmlSearch = some node ∧
      node.value.read before.object.text = value ∧ nParamLen ≤ node.value.size ∧
      after.object.text = mapCells tolower before.object.text node.value.start nParamLen ∧
      after.object.m_pXmlParser = some (before.nodes.view after.object.text) := by
  obtain ⟨xmlNode, hxmlNode, hvalue⟩ := h.found
  rw [before.parser_eq document h.parser, text_node.node?_view, Option.map_eq_some_iff] at hxmlNode
  obtain ⟨node, hnode, rfl⟩ := hxmlNode
  rw [text_node.value_view] at hvalue
  obtain ⟨htext, hparser⟩ := lowerValue_eq hnode nParamLen
  have hafter : after.object.text =
      mapCells tolower before.object.text node.value.start nParamLen := by
    rw [← htext, XmlObject.text, XmlObject.text, h.object.2]
  refine ⟨node, hnode, hvalue, ?_, hafter, ?_⟩
  · refine h.count.trans ?_
    rw [← hvalue, Piece.read, List.length_take]
    exact Nat.min_le_left _ _
  · rw [h.object.1, hparser, h.parser, hafter]
    rfl

/-- A lookup leaves the nodes, and a text in which some letters are in lower case. -/
theorem step_leaves {before : LoadedObject} {call : HandlerCall} {reply : HandlerReply}
    (h : Step before call reply after) :
    after.nodes = before.nodes ∧ Rewritten tolower before.object.text after.object.text := by
  rcases step_cases h with ⟨hnodes, hsame, -⟩ | ⟨_, _, _, nParamLen, hconverts⟩
  · refine ⟨hnodes, ?_⟩
    rw [XmlObject.text, XmlObject.text, hsame.2]
    exact .refl tolower _
  · obtain ⟨node, -, -, -, htext, -⟩ := hconverts.exists_piece
    exact ⟨hconverts.nodes, htext ▸ rewritten_mapCells tolower _ _ _⟩

theorem run_leaves {start final : LoadedObject} {trace : List (Call _ HandlerCall HandlerReply)}
    (hrun : Run Step start trace final) :
    final.nodes = start.nodes ∧ Rewritten tolower start.object.text final.object.text := by
  refine hrun.invariant (fun s ↦ s.nodes = start.nodes ∧
    Rewritten tolower start.object.text s.object.text) (fun _ ↦ True) ?_ (fun _ _ ↦ trivial)
    ⟨rfl, .refl tolower _⟩
  rintro before label reply after - ⟨hnodes, htext⟩ hstep
  obtain ⟨hnodes', htext'⟩ := step_leaves hstep
  exact ⟨hnodes'.trans hnodes, htext.trans tolower_tolower htext'⟩

/-- A lookup that finds no capital letter leaves the document. -/
theorem step_keeps {before : LoadedObject} {call : HandlerCall} {reply : HandlerReply}
    (hcase : before.LeavesCase call) (h : Step before call reply after) :
    after.object.m_pXmlParser = before.object.m_pXmlParser := by
  rcases step_cases h with ⟨-, hsame, -⟩ | ⟨document, _, value, nParamLen, hconverts⟩
  · exact hsame.1
  · obtain ⟨node, -, hvalue, hcount, htext, hparser⟩ := hconverts.exists_piece
    have hlower : ∀ chr ∈ (node.value.read before.object.text).take nParamLen,
        tolower chr = chr := by
      rw [hvalue]
      exact fun chr hchr ↦ tolower_eq_self (hconverts.leavesCase.mp hcase chr hchr)
    rw [hparser, htext, mapCells_eq_self hlower hcount, hconverts.parser,
      before.parser_eq document hconverts.parser]

/-- No later lookup restores a value with a capital letter. -/
theorem step_loses {before final : LoadedObject} {call : HandlerCall} {reply : HandlerReply}
    {trace : List (Call _ HandlerCall HandlerReply)} (hcase : ¬before.LeavesCase call)
    (h : Step before call reply after) (hrun : Run Step after trace final) :
    final.object.m_pXmlParser ≠ before.object.m_pXmlParser := by
  rcases step_cases h with ⟨-, -, hkept⟩ | ⟨document, xmlSearch, value, nParamLen, hconverts⟩
  · exact absurd hkept hcase
  · intro hsame
    obtain ⟨node, hnode, hvalue, hcount, htext, -⟩ := hconverts.exists_piece
    obtain ⟨hnodes, hlater⟩ := run_leaves hrun
    rw [hconverts.leavesCase] at hcase
    push Not at hcase
    obtain ⟨chr, hchr, hcapital⟩ := hcase
    have hchanged : tolower chr ≠ chr := fun hkept ↦
      not_capital_tolower chr (hkept.symm ▸ hcapital)
    rw [htext] at hlater
    rw [← hvalue] at hchr
    refine read_ne_of_rewritten tolower_tolower hchr hchanged hcount hlater ?_
    have hfinal := final.parser_eq document (hsame.trans hconverts.parser)
    have hviews := hfinal.symm.trans (before.parser_eq document hconverts.parser)
    rw [hnodes, hconverts.nodes] at hviews
    have hvalues := congrArg (fun document ↦ (document.node? xmlSearch).map xml_node.value) hviews
    simpa only [text_node.node?_view, hnode, Option.map_some, text_node.value_view,
      Option.some_inj] using hvalues

/-- The names and values of a document are the same after some lookups as before, and every one of
them was answered as if it were the first, exactly if those that write found no value with a capital
letter in the document. -/
theorem lookups_keep_document_iff {start final : LoadedObject}
    {trace : List (Call _ HandlerCall HandlerReply)} (hrun : Run Step start trace final) :
    (final.object.m_pXmlParser = start.object.m_pXmlParser ∧
        ∀ call ∈ trace, ∃ after, Step start call.label call.reply after) ↔
      ∀ call ∈ trace, start.LeavesCase call.label := by
  refine hrun.undisturbed_iff (fun s ↦ s.object.m_pXmlParser) ?_ ?_ ?_ ?_
  · intro state state' label hsame
    cases label with
    | LoadXmlParamBool pNode pParam bTarget bUseDef bDefVal bFirst =>
      cases pNode with
      | none => exact Iff.rfl
      | some pNode => simp only [LeavesCase, hsame]
    | _ => exact Iff.rfl
  · intro state state' label reply after hsame hstep
    have hreply := reply_congr hsame label
    rw [hstep, Option.map_some] at hreply
    obtain ⟨⟨reply', after'⟩, hanswer, rfl⟩ := Option.map_eq_some_iff.mp hreply.symm
    exact ⟨after', hanswer⟩
  · intro before label reply after hcase hstep
    exact step_keeps hcase hstep
  · intro before label reply after final trace hcase hstep hrun
    exact step_loses hcase hstep hrun

/-- A document with one element `a`, and the text `True` in it. -/
def capitalText : LoadedObject :=
  .ofText (.mk ⟨0, 0⟩ ⟨0, 0⟩ [.mk ⟨0, 1⟩ ⟨2, 4⟩ []]) [97, 0, 84, 114, 117, 101, 0]

/-- A document with the elements `a` and `b`, and the texts `true` and `True` in them. -/
def mixedText : LoadedObject :=
  .ofText (.mk ⟨0, 0⟩ ⟨0, 0⟩ [.mk ⟨0, 1⟩ ⟨2, 4⟩ [], .mk ⟨7, 1⟩ ⟨9, 4⟩ []])
    [97, 0, 116, 114, 117, 101, 0, 98, 0, 84, 114, 117, 101, 0]

/-- The value in lower case is read as a `bool`, and then the other as a text. -/
theorem lookups_keep_document_iff_two :
    ∃ final trace, trace.map Call.reply = [.bool true true, .bytes true [84, 114, 117, 101]] ∧
      Run Step mixedText trace final ∧
      final.object.m_pXmlParser = mixedText.object.m_pXmlParser ∧
      ∀ call ∈ trace, ∃ after, Step mixedText call.label call.reply after := by
  obtain ⟨middle, final, hbool, hstring⟩ : ∃ middle final,
      Step mixedText (.LoadXmlParamBool (some []) [97] false false false true) (.bool true true)
        middle ∧
      Step middle (.LoadXmlParamString (some []) [98] [] none true)
        (.bytes true [84, 114, 117, 101]) final := ⟨_, _, rfl, rfl⟩
  have hcase : mixedText.LeavesCase (.LoadXmlParamBool (some []) [97] false false false true) := by
    intro document xmlSearch value nParamLen hdocument hfind
    have hfound : findParam document [] [97] true = some ([0], [116, 114, 117, 101], 4) := by
      obtain rfl := Option.some.inj hdocument
      decide
    obtain ⟨-, hvalue⟩ := Prod.mk.inj (Option.some.inj (hfound.symm.trans hfind))
    obtain ⟨rfl, rfl⟩ := Prod.mk.inj hvalue
    simp
  have hrun := Run.cons hbool (.cons hstring (.nil _))
  refine ⟨final, _, rfl, hrun, (lookups_keep_document_iff hrun).mpr ?_⟩
  intro call hcall
  rcases List.mem_cons.mp hcall with rfl | hrest
  · exact hcase
  · obtain rfl := List.mem_singleton.mp hrest
    trivial

/-- Once it was read as a `bool`, the value `True` is `true`. -/
theorem value_is_converted :
    (capitalText.object.LoadXmlParamString CXmlHandler.toLength (some []) [97] [] none true).2.1 =
        [84, 114, 117, 101] ∧
      ((capitalText.LoadXmlParamBool (some []) [97] false false false
        true).2.2.object.LoadXmlParamString CXmlHandler.toLength (some []) [97] [] none true).2.1 =
          [116, 114, 117, 101] := by
  decide

end LoadedObject

end RdbLibs.XML
