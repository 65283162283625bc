import RdbLibs.FileIO.FileUtils
import RdbLibs.XML.BooleanWords
import RdbLibs.XML.BufferLookups

/-!
# Building a document

The functions of `CXmlHandler` that make nodes: `AllocStringNode`, `AllocIntNode` and
`AllocBoolNode` make a node, `AppendNode` makes it the last child of a parent, and the functions
`New…Node` do both. The parent is a pointer of the caller or, in the overloads without one,
`m_pBaseNode`; a null pointer stands for the document. `NewLongNode` calls `AllocIntNode`, which
takes an `int`. The two lookups that only these values reach, `LoadXmlParamLong` and
`LoadXmlParamBool` where the value has memory of its own, are here as well.

A parent of the caller is a node of the document. Between the two halves of `New…Node` the node has
no place in the document, and no function that is modelled looks at it then. `pooled` is whether the
pool of the parser has memory for the node; if not, an exception is caught and nothing is done.
-/

set_option autoImplicit false
set_option relaxedAutoImplicit false

namespace RdbLibs.XML

open MachineWord TextPieces
open FileIO (tos)

namespace xml_node

/-- The node with another last child. -/
def withChild (child node : xml_node) : xml_node :=
  mk node.name node.value (node.children ++ [child])

/-- The document with the node at a path changed. -/
def modify (change : xml_node → xml_node) : Path → xml_node → xml_node
  | [], node => change node
  | index :: path, node =>
    mk node.name node.value (node.children.modify index fun child ↦ modify change path child)

/-- `append_node`, for the node at a path. -/
def append_node (document : xml_node) (pNode : Path) (child : xml_node) : xml_node :=
  modify (withChild child) pNode document

/-- The path to the child that is appended next to the node at a path. -/
def nextChild (document : xml_node) (pNode : Path) : Path :=
  pNode ++ [((document.node? pNode).map fun node ↦ node.children.length).getD 0]

end xml_node

/-- The characters of a number. -/
def tosText (value : ℤ) : List UInt8 := (tos value).map fun chr ↦ UInt8.ofNat chr.toNat

/-- `atol` of a value: the number that `atoi` converts to `int`. -/
def atol (value : List UInt8) : ℤ :=
  let text := (Other.c_str (value.map fun chr ↦ Char.ofNat chr.toNat)).chars.dropWhile
    Other.isspace
  let digits := if text.head? = some '-' ∨ text.head? = some '+' then text.drop 1 else text
  let magnitude : ℕ :=
    (digits.takeWhile Char.isDigit).foldl (fun n c ↦ 10 * n + (c.toNat - '0'.toNat)) 0
  if text.head? = some '-' then max (-magnitude) (-2 ^ 63) else min magnitude (2 ^ 63 - 1)

/-- Conversion of a `long` to `int`. -/
def longToInt (value : ℤ) : ℤ := toInt (intToUnsigned value)

namespace XmlObject

/-! ### Making nodes -/

/-- `AllocStringNode`. -/
def AllocStringNode (s : XmlObject) (name value : Option (List UInt8)) (pooled : Bool) :
    Option xml_node :=
  match s.m_pXmlParser, name with
  | some _, some name => if pooled then some (.mk name (value.getD []) []) else none
  | _, _ => none

/-- `AllocIntNode`. -/
def AllocIntNode (s : XmlObject) (name : Option (List UInt8)) (value : ℤ) (pooled : Bool) :
    Option xml_node :=
  match s.m_pXmlParser, name with
  | some _, some name => if pooled then some (.mk name (tosText value) []) else none
  | _, _ => none

/-- `AllocBoolNode`. -/
def AllocBoolNode (s : XmlObject) (name : Option (List UInt8)) (value pooled : Bool) :
    Option xml_node :=
  match s.m_pXmlParser, name with
  | some _, some name =>
    if pooled then some (.mk name (if value then trueText else falseText) []) else none
  | _, _ => none

/-- `AppendNode`, with the pointer to the child that has got its place. -/
def AppendNode (s : XmlObject) (parent : Option Path) (child : xml_node) :
    Option Path × XmlObject :=
  match s.m_pXmlParser with
  | none => (none, s)
  | some document =>
    let pNode := parent.getD []
    (some (document.nextChild pNode), { s with
      m_pXmlParser := some (document.append_node pNode child)
      m_pLastNode := some (document.nextChild pNode) })

/-- The end of every function `New…Node`. -/
def newNode (s : XmlObject) (parent : Option Path) : Option xml_node → Option Path × XmlObject
  | none => (none, s)
  | some child => s.AppendNode parent child

/-- `NewStringNode`. -/
def NewStringNode (s : XmlObject) (parent : Option Path) (name value : Option (List UInt8))
    (pooled : Bool) : Option Path × XmlObject :=
  s.newNode parent (s.AllocStringNode name value pooled)

/-- `NewIntNode`. -/
def NewIntNode (s : XmlObject) (parent : Option Path) (name : Option (List UInt8)) (value : ℤ)
    (pooled : Bool) : Option Path × XmlObject :=
  s.newNode parent (s.AllocIntNode name value pooled)

/-- `NewLongNode`. -/
def NewLongNode (s : XmlObject) (parent : Option Path) (name : Option (List UInt8)) (value : ℤ)
    (pooled : Bool) : Option Path × XmlObject :=
  s.newNode parent (s.AllocIntNode name (longToInt value) pooled)

/-- `NewBoolNode`. -/
def NewBoolNode (s : XmlObject) (parent : Option Path) (name : Option (List UInt8))
    (value pooled : Bool) : Option Path × XmlObject :=
  s.newNode parent (s.AllocBoolNode name value pooled)

/-- `Create(pName)`. -/
def Create (s : XmlObject) (pName : List UInt8) (pooled : Bool) : Option Path × XmlObject :=
  s.newNode none (s.AllocStringNode (some pName) none pooled)

/-! ### Looking them up -/

/-- `LoadXmlParamLong`. The answer is followed by the `long` at `lTarget`. -/
def LoadXmlParamLong (s : XmlObject) (pNode : Option Path) (pParam : List UInt8) (lTarget : ℤ)
    (bUseDef : Bool) (lDefVal : ℤ) (bFirst : Bool) : Bool × ℤ × XmlObject :=
  match s.m_pXmlParser, pNode with
  | none, _ | _, none => (false, lTarget, s)
  | some document, some pNode =>
    match findParam document pNode pParam bFirst with
    | none => (false, if bUseDef then lDefVal else lTarget, s)
    | some (xmlSearch, pParamValue, _) =>
      (true, atol pParamValue, { s with m_pLastNode := some xmlSearch })

/-- `LoadXmlParamBool`, where each value has memory of its own. The answer is followed by the `bool`
at `bTarget`. -/
def LoadXmlParamBool (s : XmlObject) (pNode : Option Path) (pParam : List UInt8)
    (bTarget bUseDef bDefVal bFirst : Bool) : Bool × Bool × XmlObject :=
  match s.m_pXmlParser, pNode with
  | none, _ | _, none => (false, bTarget, s)
  | some document, some pNode =>
    match findParam document pNode pParam bFirst with
    | none => (false, if bUseDef then bDefVal else bTarget, s)
    | some (xmlSearch, pParamValue, nParamLen) =>
      let pParamValue := mapCells tolower pParamValue 0 nParamLen
      let s := { s with
        m_pXmlParser := some (xml_node.modify (fun node ↦ .mk node.name pParamValue node.children)
          xmlSearch document)
        m_pLastNode := some xmlSearch }
      match LoadedObject.readBool pParamValue nParamLen with
      | none => (false, if bUseDef then bDefVal else bTarget, s)
      | some value => (true, value, s)

/-! ### Runs -/

/-- Which parent a call names. -/
inductive Parent
  | base
  | node (pNode : Option Path)

/-- The pointer to the parent. -/
def Parent.pointer (s : XmlObject) : Parent → Option Path
  | base => s.m_pBaseNode
  | node pNode => pNode

/-- The calls that build a document. -/
inductive BuildCall
  | NewStringNode (parent : Parent) (name value : Option (List UInt8)) (pooled : Bool)
  | NewIntNode (parent : Parent) (name : Option (List UInt8)) (value : ℤ) (pooled : Bool)
  | NewLongNode (parent : Parent) (name : Option (List UInt8)) (value : ℤ) (pooled : Bool)
  | NewBoolNode (parent : Parent) (name : Option (List UInt8)) (value pooled : Bool)
  | Create (pName : List UInt8) (pooled : Bool)

/-- The parent that a call names. -/
def BuildCall.parent : BuildCall → Parent
  | NewStringNode parent _ _ _ | NewIntNode parent _ _ _ | NewLongNode parent _ _ _
  | NewBoolNode parent _ _ _ => parent
  | Create _ _ => .node none

/-- Carries out a call, with the pointer that it returns. -/
def build (s : XmlObject) : BuildCall → Option Path × XmlObject
  | .NewStringNode parent name value pooled =>
    s.NewStringNode (parent.pointer s) name value pooled
  | .NewIntNode parent name value pooled => s.NewIntNode (parent.pointer s) name value pooled
  | .NewLongNode parent name value pooled => s.NewLongNode (parent.pointer s) name value pooled
  | .NewBoolNode parent name value pooled => s.NewBoolNode (parent.pointer s) name value pooled
  | .Create pName pooled => s.Create pName pooled

/-- The path of the parent of a call. -/
def parentPath (s : XmlObject) (call : BuildCall) : Path := (call.parent.pointer s).getD []

/-- A call whose parent is in the document: the object before it, the pointer that it returns, and
the object after it. -/
def BuildStep (s : XmlObject) (call : BuildCall) (pNew : Option Path) (s' : XmlObject) : Prop :=
  (∀ document, s.m_pXmlParser = some document → document.node? (s.parentPath call) ≠ none) ∧
    s.build call = (pNew, s')

end XmlObject

end RdbLibs.XML
