import RdbLibs.XML.XmlObject

/-!
# Lookups

`GetXmlBaseNode`, `FindXmlParamGroup` and `LoadXmlParamString` of the classes of `Src/XML`. The two
classes differ in the type of a length: `XmlParserUtil` has a `long` where `CXmlHandler` has an
`int`. A lookup starts at a pointer that it is given, and no lookup takes one from a null pointer.
-/

set_option autoImplicit false
set_option relaxedAutoImplicit false

namespace RdbLibs.XML

open MachineWord

namespace XmlObject

/-- `GetXmlBaseNode`. -/
def GetXmlBaseNode (s : XmlObject) (pParam : Option (List UInt8)) : Option Path × XmlObject :=
  match s.m_pXmlParser with
  | none => (none, s)
  | some document =>
    let m_pBaseNode := (document.first_node pParam).map fun index ↦ [index]
    (m_pBaseNode, { s with
      m_pBaseNode := m_pBaseNode
      m_pLastNode := if m_pBaseNode ≠ none then m_pBaseNode else s.m_pLastNode })

/-- `FindXmlParamGroup`. -/
def FindXmlParamGroup (s : XmlObject) (pNode : Option Path) (pParam : List UInt8)
    (bFirst : Bool) : Bool × XmlObject :=
  match s.m_pXmlParser, pNode with
  | none, _ | _, none => (false, s)
  | some document, some pNode =>
    match findNode document pNode pParam bFirst with
    | none => (false, s)
    | some xmlSearch => (true, { s with m_pLastNode := some xmlSearch })

/-- The value that `LoadXmlParamString` finds. -/
def findValue (toLength : ℕ → ℤ) (document : xml_node) (pNode : Path) (pParam : List UInt8)
    (bFirst : Bool) : Option (Path × List UInt8) := do
  let xmlSearch ← findNode document pNode pParam bFirst
  let node ← document.node? xmlSearch
  let nParamLen := toLength node.value.length
  if nParamLen > 0 then some (xmlSearch, node.value.take nParamLen.toNat) else none

/-- What `LoadXmlParamString` assigns if it finds no value. -/
def assignDefault (toLength : ℕ → ℤ) (sTarget : List UInt8) (pDefault : Option (List UInt8)) :
    List UInt8 :=
  match pDefault with
  | none => sTarget
  | some pDefault =>
    let nLen := toLength pDefault.length
    if nLen > 0 then pDefault.take nLen.toNat else sTarget

/-- `LoadXmlParamString`. The answer is followed by `sTarget`. -/
def LoadXmlParamString (toLength : ℕ → ℤ) (s : XmlObject) (pNode : Option Path)
    (pParam sTarget : List UInt8) (pDefault : Option (List UInt8)) (bFirst : Bool) :
    Bool × List UInt8 × XmlObject :=
  match s.m_pXmlParser, pNode with
  | none, _ | _, none => (false, sTarget, s)
  | some document, some pNode =>
    match findValue toLength document pNode pParam bFirst with
    | none => (false, assignDefault toLength sTarget pDefault, s)
    | some (xmlSearch, value) => (true, value, { s with m_pLastNode := some xmlSearch })

section Null

variable (s : XmlObject) (pParam : List UInt8) (bFirst : Bool)

/-- No lookup starts at a null pointer. -/
@[simp] theorem findXmlParamGroup_null :
    s.FindXmlParamGroup none pParam bFirst = (false, s) := by
  unfold FindXmlParamGroup
  cases s.m_pXmlParser <;> rfl

@[simp] theorem loadXmlParamString_null (toLength : ℕ → ℤ) (sTarget : List UInt8)
    (pDefault : Option (List UInt8)) :
    s.LoadXmlParamString toLength none pParam sTarget pDefault bFirst = (false, sTarget, s) := by
  unfold LoadXmlParamString
  cases s.m_pXmlParser <;> rfl

end Null

end XmlObject

/-- A length in `XmlParserUtil`. -/
def XmlParserUtil.toLength (size : ℕ) : ℤ := size

/-- A length in `CXmlHandler`. -/
def CXmlHandler.toLength (size : ℕ) : ℤ := toInt size

end RdbLibs.XML
