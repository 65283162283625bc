import RdbLibs.XML.Lookups
import RdbLibs.XML.TextBuffer

/-!
# The two classes beside each other

A session constructs an object, loads a text, gets the base node and looks up parameters, from nodes
that the object has handed out before. `session_eq_iff` says when the two classes answer alike. As
`XmlParserUtil` never has a parser, it refuses every text and finds nothing; so does `CXmlHandler`
only where it has no parser either, gets no memory for the text, or where the parser does not accept
the text and leaves no base node.
-/

set_option autoImplicit false
set_option relaxedAutoImplicit false

namespace RdbLibs.XML

/-- A lookup. It starts at one of the pointers that the object has handed out: the base node is the
first of them, and each lookup hands out the last node behind it. -/
inductive Lookup
  | FindXmlParamGroup (start : ℕ) (pParam : List UInt8) (bFirst : Bool)
  | LoadXmlParamString (start : ℕ) (pParam sTarget : List UInt8) (pDefault : Option (List UInt8))
      (bFirst : Bool)

/-- What a session answers: whether the text was loaded, the base node, and for each lookup the
answer and the string. -/
structure Answers where
  loaded : Bool
  base : Option Path
  found : List (Bool × List UInt8)

namespace XmlObject

/-- A lookup, with its answer and its string. -/
def lookup (toLength : ℕ → ℤ) (s : XmlObject) (handed : List (Option Path)) :
    Lookup → (Bool × List UInt8) × XmlObject
  | .FindXmlParamGroup start pParam bFirst =>
    let (bRet, s) := s.FindXmlParamGroup (handed.getD start none) pParam bFirst
    ((bRet, []), s)
  | .LoadXmlParamString start pParam sTarget pDefault bFirst =>
    let (bRet, sTarget, s) :=
      s.LoadXmlParamString toLength (handed.getD start none) pParam sTarget pDefault bFirst
    ((bRet, sTarget), s)

/-- The answers to some lookups. -/
def lookups (toLength : ℕ → ℤ) : XmlObject → List (Option Path) → List Lookup →
    List (Bool × List UInt8)
  | _, _, [] => []
  | s, handed, call :: calls =>
    let (answer, s) := s.lookup toLength handed call
    answer :: s.lookups toLength (handed ++ [s.m_pLastNode]) calls

/-- A session of an object. -/
def session (parse : (text : List UInt8) → Parsed text) (toLength : ℕ → ℤ) (s : XmlObject)
    (disk : Disk) (system : System) (text : Text) (pBase : Option (List UInt8))
    (calls : List Lookup) : Option Answers := do
  let (loaded, s, _) ← s.LoadXmlBuffer parse disk system text.pBuffer text.nLen
  let (base, s) := s.GetXmlBaseNode pBase
  some ⟨loaded, base, s.lookups toLength [base] calls⟩

/-- The answer to a lookup that has nowhere to start. -/
def refusal : Lookup → Bool × List UInt8
  | .FindXmlParamGroup .. => (false, [])
  | .LoadXmlParamString _ _ sTarget _ _ => (false, sTarget)

variable {s : XmlObject}

/-- A lookup finds nothing where only null pointers were handed out. -/
theorem lookup_refused (toLength : ℕ → ℤ) {handed : List (Option Path)}
    (h : ∀ pNode ∈ handed, pNode = none) (call : Lookup) :
    s.lookup toLength handed call = (refusal call, s) := by
  have hstart (start : ℕ) : handed.getD start none = none := by
    rw [List.getD_eq_getElem?_getD]
    cases hpointer : handed[start]? with
    | none => rfl
    | some pNode => exact h pNode (List.mem_of_getElem? hpointer)
  cases call with
  | FindXmlParamGroup start pParam bFirst =>
    rw [lookup, hstart, findXmlParamGroup_null]
    rfl
  | LoadXmlParamString start pParam sTarget pDefault bFirst =>
    rw [lookup, hstart, loadXmlParamString_null]
    rfl

theorem lookups_refused (toLength : ℕ → ℤ) (calls : List Lookup) {handed : List (Option Path)}
    (h : (∀ pNode ∈ handed, pNode = none) ∧ s.m_pLastNode = none) :
    s.lookups toLength handed calls = calls.map refusal := by
  induction calls generalizing handed with
  | nil => rfl
  | cons call calls ih =>
    have hnext : ∀ pNode ∈ handed ++ [s.m_pLastNode], pNode = none := by
      intro pNode hmem
      obtain hbefore | hlastNode := List.mem_append.mp hmem
      · exact h.1 pNode hbefore
      · rw [List.mem_singleton.mp hlastNode, h.2]
    rw [lookups, lookup_refused toLength h.1, List.map_cons, ← ih ⟨hnext, h.2⟩]

/-- Without a base node, no node is handed out. -/
theorem getXmlBaseNode_refused {pBase : Option (List UInt8)}
    (hbase : ∀ document, s.m_pXmlParser = some document → document.first_node pBase = none)
    (hlast : s.m_pLastNode = none) :
    ∃ after, s.GetXmlBaseNode pBase = (none, after) ∧ after.m_pLastNode = none := by
  cases hparser : s.m_pXmlParser with
  | none => exact ⟨s, by simp only [GetXmlBaseNode, hparser], hlast⟩
  | some document =>
    refine ⟨{ s with m_pBaseNode := none }, ?_, hlast⟩
    simp [GetXmlBaseNode, hparser, hbase document hparser]

/-- Where an object refuses a text, and has no base node, a session finds nothing. -/
theorem session_refused {parse : (text : List UInt8) → Parsed text} (toLength : ℕ → ℤ)
    {disk disk' : Disk} {system : System} {text : Text} {pBase : Option (List UInt8)}
    {after : XmlObject}
    (hloaded : s.LoadXmlBuffer parse disk system text.pBuffer text.nLen =
      some (false, after, disk'))
    (hbase : ∀ document, after.m_pXmlParser = some document → document.first_node pBase = none)
    (hlast : after.m_pLastNode = none) (calls : List Lookup) :
    s.session parse toLength disk system text pBase calls =
      some ⟨false, none, calls.map refusal⟩ := by
  obtain ⟨left, hnone, hleft⟩ := getXmlBaseNode_refused hbase hlast
  rw [session, hloaded, Option.bind_eq_bind, Option.bind_some]
  dsimp only
  rw [hnone]
  dsimp only
  rw [lookups_refused toLength calls ⟨by simp, hleft⟩]

/-- A session answers whether the text was loaded, and with the base node of its document. -/
theorem session_loaded {parse : (text : List UInt8) → Parsed text} (toLength : ℕ → ℤ)
    {disk disk' : Disk} {system : System} {text : Text} (pBase : Option (List UInt8))
    {loaded : Bool} {after : XmlObject} {document : xml_node}
    (hloaded : s.LoadXmlBuffer parse disk system text.pBuffer text.nLen =
      some (loaded, after, disk'))
    (hparser : after.m_pXmlParser = some document) (calls : List Lookup) :
    ∃ found, s.session parse toLength disk system text pBase calls =
      some ⟨loaded, (document.first_node pBase).map fun index ↦ [index], found⟩ := by
  rw [session, hloaded, Option.bind_eq_bind, Option.bind_some]
  dsimp only
  rw [GetXmlBaseNode, hparser]
  exact ⟨_, rfl⟩

end XmlObject

open XmlObject

variable (parse : (text : List UInt8) → Parsed text) (disk : Disk) (system : System) (text : Text)
  (pBase : Option (List UInt8)) (calls : List Lookup) (bDumpOnError : Bool)
  (pDumpFile : Option (List Char))

/-- An object of `XmlParserUtil` refuses everything. -/
theorem XmlParserUtil.session_eq :
    (XmlParserUtil.new bDumpOnError pDumpFile).session parse XmlParserUtil.toLength disk system text
      pBase calls = some ⟨false, none, calls.map refusal⟩ := by
  refine session_refused XmlParserUtil.toLength rfl ?_ rfl calls
  rintro document ⟨⟩

/-- The two classes answer alike exactly where `CXmlHandler` has no parser, gets no memory for the
text, or where the parser does not accept the text and leaves no base node. -/
theorem session_eq_iff (created : Bool) :
    (XmlParserUtil.new bDumpOnError pDumpFile).session parse XmlParserUtil.toLength disk system text
        pBase calls =
      (CXmlHandler.new bDumpOnError pDumpFile created).session parse CXmlHandler.toLength disk
        system text pBase calls ↔
      (created = true → ∀ chars, text.pBuffer = some chars →
        Allocates text.nLen system.allocated →
          (parse ((chars.take text.nLen.toNat).map blank)).accepted = false ∧
            (parse ((chars.take text.nLen.toNat).map blank)).document.first_node pBase = none) := by
  rw [XmlParserUtil.session_eq]
  cases created with
  | false =>
    refine iff_of_true ?_ nofun
    refine (session_refused CXmlHandler.toLength rfl ?_ rfl calls).symm
    rintro document ⟨⟩
  | true =>
    rw [forall_prop_of_true rfl]
    cases hbuffer : text.pBuffer with
    | none =>
      refine iff_of_true ?_ nofun
      refine (session_refused CXmlHandler.toLength (by rw [hbuffer]; rfl) ?_ rfl calls).symm
      rintro document ⟨⟩
      cases pBase <;> rfl
    | some chars =>
      have hcovered := text.covered chars hbuffer
      have hall {P : List UInt8 → Prop} : (∀ other, some chars = some other → P other) ↔ P chars :=
        ⟨fun h ↦ h chars rfl, fun h other hsame ↦ Option.some.inj hsame ▸ h⟩
      rw [hall]
      by_cases hallocates : Allocates text.nLen system.allocated
      · rw [forall_prop_of_true hallocates]
        obtain ⟨left, length, disk', -, -, hloaded⟩ := loadXmlBuffer_of_allocates parse disk system
          (s := CXmlHandler.new bDumpOnError pDumpFile true) nofun hcovered hallocates
        rw [← hbuffer] at hloaded
        constructor
        · intro hsame
          obtain ⟨found, hanswers⟩ :=
            session_loaded CXmlHandler.toLength pBase hloaded rfl calls
          rw [hanswers, Option.some_inj, Answers.mk.injEq] at hsame
          exact ⟨hsame.1.symm, by simpa using hsame.2.1⟩
        · rintro ⟨hrefused, hbase⟩
          rw [hrefused] at hloaded
          refine (session_refused CXmlHandler.toLength hloaded ?_ rfl calls).symm
          rintro document ⟨⟩
          exact hbase
      · refine iff_of_true ?_ fun h ↦ absurd h hallocates
        obtain ⟨buffer, -, hloaded⟩ := loadXmlBuffer_of_not parse disk system
          (s := CXmlHandler.new bDumpOnError pDumpFile true) text.pBuffer hallocates
        refine (session_refused CXmlHandler.toLength hloaded ?_ rfl calls).symm
        rintro document ⟨⟩
        cases pBase <;> rfl

/-- The parser on the text `<a>b</a>`: it ends the name and the value in place. -/
def parseElement (text : List UInt8) : Parsed text :=
  if htext : text = [60, 97, 62, 98, 60, 47, 97, 62] then
    ⟨[60, 97, 0, 98, 0, 47, 97, 62], htext ▸ rfl, true,
      .mk [] [] [.mk [97] [98] [.mk [] [98] []]]⟩
  else ⟨text, rfl, false, xml_document⟩

/-- `CXmlHandler` loads the text `<a>b</a>`, which `XmlParserUtil` refuses. -/
theorem session_ne_element :
    (XmlParserUtil.new false none).session parseElement XmlParserUtil.toLength (fun _ ↦ none)
        ⟨fun _ ↦ true, true, true⟩ ⟨some [60, 97, 62, 98, 60, 47, 97, 62], 8, by decide⟩ none [] ≠
      (CXmlHandler.new false none true).session parseElement CXmlHandler.toLength (fun _ ↦ none)
        ⟨fun _ ↦ true, true, true⟩ ⟨some [60, 97, 62, 98, 60, 47, 97, 62], 8, by decide⟩ none
        [] := by
  intro h
  have hloaded := congrArg (Option.map Answers.loaded) h
  exact absurd hloaded (by decide)

end RdbLibs.XML
