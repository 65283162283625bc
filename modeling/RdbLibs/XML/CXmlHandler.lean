import RdbLibs.Foundations.TextPieces
import RdbLibs.Other.PrivateProfile.Model
import RdbLibs.XML.Lookups

/-!
# The lookups of `CXmlHandler`

`LoadXmlParamBuf`, `LoadXmlParamInt` and `LoadXmlParamBool` of `Src/XML/xmlHandler`. The names and
values of nodes are pieces of the text in the buffer of the object, and each value ends with a `NUL`
there. Only `LoadXmlParamBool` writes to the text: it converts the value to lower case where it
stands. A `LoadedObject` is an object with the nodes that its parser made of the text.

`LoadXmlParamBuf` has no result where it writes behind the end of the memory of the caller.
-/

set_option autoImplicit false
set_option relaxedAutoImplicit false

namespace RdbLibs.XML

open CheckedMemory MachineWord TextPieces

/-- What `strncpy` copies of a value: the characters in front of the first `NUL`, and `NUL`s. -/
def copiedText (source : List UInt8) (count : ℕ) : List UInt8 :=
  let text := source.takeWhile (· ≠ 0)
  text.take count ++ List.replicate (count - text.length) 0

/-- `strncpy` to the start of a memory. -/
def strncpy (pTarget source : List UInt8) (count : ℕ) : Option (List UInt8) :=
  (storeRange pTarget 0 (copiedText source count)).toOption

/-- Whether `strncmp` finds no difference. -/
def strncmpEqual (first second : List UInt8) (count : ℕ) : Bool :=
  (first.takeWhile (· ≠ 0)).take count = (second.takeWhile (· ≠ 0)).take count

theorem takeWhile_eq_self_of_notMem {text : List UInt8} (h : 0 ∉ text) :
    text.takeWhile (· ≠ 0) = text := by
  refine List.takeWhile_eq_self_iff.mpr fun chr hchr ↦ ?_
  simpa using ne_of_mem_of_not_mem hchr h

/-- `tolower`. -/
def tolower (chr : UInt8) : UInt8 := if 65 ≤ chr ∧ chr ≤ 90 then chr + 32 else chr

/-- `atoi` of a value. -/
def atoi (value : List UInt8) : ℤ :=
  Other.atoi (Other.c_str (value.map fun chr ↦ Char.ofNat chr.toNat))

/-- `"true"`. -/
def trueText : List UInt8 := [116, 114, 117, 101]

/-- `"1"`. -/
def oneText : List UInt8 := [49]

/-- `"false"`. -/
def falseText : List UInt8 := [102, 97, 108, 115, 101]

/-- `"0"`. -/
def zeroText : List UInt8 := [48]

/-- The node that a lookup finds, with its value and the length of that, if this is positive. -/
def findParam (document : xml_node) (pNode : Path) (pParam : List UInt8) (bFirst : Bool) :
    Option (Path × List UInt8 × ℕ) := do
  let xmlSearch ← findNode document pNode pParam bFirst
  let node ← document.node? xmlSearch
  let nParamLen := toInt node.value.length
  if nParamLen > 0 then some (xmlSearch, node.value, nParamLen.toNat) else none

namespace XmlObject

/-- The end of `LoadXmlParamBuf`, where a child has the name, and the value `pParamValue`. -/
def loadBuf (s : XmlObject) (xmlSearch : Path) (pParamValue pTarget : List UInt8) (nLen : ℤ)
    (pDefault : Option (List UInt8)) : Option (Bool × List UInt8 × XmlObject) := do
  let nParamLen := toInt pParamValue.length
  if nParamLen > 0 then
    let pTarget ←
      strncpy pTarget pParamValue (intToSize (if nParamLen > nLen then nLen else nParamLen))
    some (true, pTarget, { s with m_pLastNode := some xmlSearch })
  else
    match pDefault with
    | none => some (false, pTarget, s)
    | some pDefault =>
      let nDefLen := toInt pDefault.length
      if nDefLen > 0 then
        let pTarget ←
          strncpy pTarget pParamValue (intToSize (if nDefLen > nLen then nLen else nDefLen))
        some (false, pTarget, s)
      else some (false, pTarget, s)

/-- `LoadXmlParamBuf`. The answer is followed by the memory at `pTarget`. -/
def LoadXmlParamBuf (s : XmlObject) (pNode : Option Path) (pParam pTarget : List UInt8)
    (nLen : ℤ) (pDefault : Option (List UInt8)) (bFirst : Bool) :
    Option (Bool × List UInt8 × XmlObject) :=
  match s.m_pXmlParser, pNode with
  | none, _ | _, none => some (false, pTarget, s)
  | some document, some pNode =>
    if (document.node? pNode).map xml_node.name = some pParam then
      some (true, pTarget, { s with m_pLastNode := some pNode })
    else
      match findNode document pNode pParam bFirst with
      | none => some (false, pTarget, s)
      | some xmlSearch => do
        let node ← document.node? xmlSearch
        s.loadBuf xmlSearch node.value pTarget nLen pDefault

/-- `LoadXmlParamInt`. The answer is followed by the `int` at `nTarget`. -/
def LoadXmlParamInt (s : XmlObject) (pNode : Option Path) (pParam : List UInt8) (nTarget : ℤ)
    (bUseDef : Bool) (nDefVal : ℤ) (bFirst : Bool) : Bool × ℤ × XmlObject :=
  match s.m_pXmlParser, pNode with
  | none, _ | _, none => (false, nTarget, s)
  | some document, some pNode =>
    match findParam document pNode pParam bFirst with
    | none => (false, if bUseDef then nDefVal else nTarget, s)
    | some (xmlSearch, pParamValue, _) =>
      (true, atoi pParamValue, { s with m_pLastNode := some xmlSearch })

/-- The text that the names and values point to. -/
def text (s : XmlObject) : List UInt8 := s.m_pXmlBuffer.getD []

end XmlObject

/-- A node whose name and value are pieces of a text. -/
inductive text_node
  | mk (name value : Piece) (children : List text_node)

namespace text_node

/-- The piece that is the value. -/
def value : text_node → Piece
  | mk _ value _ => value

/-- The children. -/
def children : text_node → List text_node
  | mk _ _ children => children

mutual

/-- The node, with what stands in the text. -/
def view (text : List UInt8) : text_node → xml_node
  | mk name value children => .mk (name.read text) (value.read text) (viewAll text children)

/-- Some nodes, with what stands in the text. -/
def viewAll (text : List UInt8) : List text_node → List xml_node
  | [] => []
  | node :: nodes => view text node :: viewAll text nodes

end

/-- The node at a path. -/
def node? (node : text_node) : Path → Option text_node
  | [] => some node
  | index :: path => node.children[index]?.bind fun child ↦ child.node? path

theorem viewAll_eq_map (text : List UInt8) (nodes : List text_node) :
    viewAll text nodes = nodes.map (view text) := by
  induction nodes with
  | nil => rfl
  | cons node nodes ih => rw [viewAll, ih, List.map_cons]

theorem children_view (text : List UInt8) (node : text_node) :
    (node.view text).children = node.children.map (view text) := by
  cases node with
  | mk name value children => exact viewAll_eq_map text children

theorem value_view (text : List UInt8) (node : text_node) :
    (node.view text).value = node.value.read text := by
  cases node with
  | mk name value children => rfl

/-- A pointer leads to the same node, whatever stands in the text. -/
theorem node?_view (text : List UInt8) (node : text_node) (path : Path) :
    (node.view text).node? path = (node.node? path).map (view text) := by
  induction path generalizing node with
  | nil => rfl
  | cons index path ih =>
    rw [xml_node.node?, node?, children_view, List.getElem?_map]
    cases node.children[index]? with
    | none => rfl
    | some child => exact ih child

end text_node

/-- An object, with the nodes that its parser made of the text in its buffer. -/
structure LoadedObject where
  object : XmlObject
  nodes : text_node
  parser_eq : ∀ document, object.m_pXmlParser = some document → document = nodes.view object.text

namespace LoadedObject

/-- A new object that has been given a text and its nodes. -/
def ofText (nodes : text_node) (text : List UInt8) : LoadedObject where
  object := { XmlObject.init (some (nodes.view text)) with
    m_pXmlBuffer := some text
    m_lXmlBufLen := text.length }
  nodes := nodes
  parser_eq := fun _ hdocument ↦ (Option.some.inj hdocument).symm

/-- What `LoadXmlParamBool` makes of the value of a node. The other names and values that are pieces
of the same text change with it. -/
def lowerValue (s : LoadedObject) (xmlSearch : Path) (nParamLen : ℕ) : LoadedObject :=
  match s.nodes.node? xmlSearch with
  | none => s
  | some node =>
    let m_pXmlBuffer := s.object.m_pXmlBuffer.map fun text ↦
      mapCells tolower text node.value.start nParamLen
    { object := { s.object with
        m_pXmlBuffer := m_pXmlBuffer
        m_pXmlParser := s.object.m_pXmlParser.map fun _ ↦ s.nodes.view (m_pXmlBuffer.getD []) }
      nodes := s.nodes
      parser_eq := by
        intro document hdocument
        obtain ⟨-, -, rfl⟩ := Option.map_eq_some_iff.mp hdocument
        rfl }

/-- The lookup has found a node. -/
def withLastNode (s : LoadedObject) (xmlSearch : Path) : LoadedObject where
  object := { s.object with m_pLastNode := some xmlSearch }
  nodes := s.nodes
  parser_eq := s.parser_eq

/-- What `LoadXmlParamBool` reads of a value in lower case. -/
def readBool (pParamValue : List UInt8) (nParamLen : ℕ) : Option Bool :=
  if strncmpEqual pParamValue trueText nParamLen || strncmpEqual pParamValue oneText nParamLen then
    some true
  else if strncmpEqual pParamValue falseText nParamLen ||
      strncmpEqual pParamValue zeroText nParamLen then
    some false
  else none

/-- `LoadXmlParamBool`. The answer is followed by the `bool` at `bTarget`. -/
def LoadXmlParamBool (s : LoadedObject) (pNode : Option Path) (pParam : List UInt8)
    (bTarget bUseDef bDefVal bFirst : Bool) : Bool × Bool × LoadedObject :=
  match s.object.m_pXmlParser, pNode with
  | none, _ | _, none => (false, bTarget, s)
  | some document, some pNode =>
    match findParam document pNode pParam bFirst with
    | none => (false, if bUseDef then bDefVal else bTarget, s)
    | some (xmlSearch, pParamValue, nParamLen) =>
      let s := (s.lowerValue xmlSearch nParamLen).withLastNode xmlSearch
      match readBool (mapCells tolower pParamValue 0 nParamLen) nParamLen with
      | none => (false, if bUseDef then bDefVal else bTarget, s)
      | some value => (true, value, s)

end LoadedObject

end RdbLibs.XML
