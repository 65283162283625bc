import Mathlib.Data.List.TakeWhile
import RdbLibs.Foundations.CheckedMemory

/-!
# XML documents

The tree that the parser of `rapidxml` makes of a text, as far as the classes of `Src/XML` look at
it. A node has a name, a value and children; the text between the tags is in nodes without a name.
A pointer to a node is the path to it from the document. `searchFrom` is the loop of all lookups,
which goes from sibling to sibling, and `findNode` is the search for a parameter that they share.

The parser itself is a parameter of the models. It reads the string at its argument, up to the first
`NUL`, and works in place: it leaves a text of the same length there. Where it does not accept a
text, it leaves what it has read as the document.
-/

set_option autoImplicit false
set_option relaxedAutoImplicit false

namespace RdbLibs.XML

/-- `xml_node`. -/
inductive xml_node
  | mk (name value : List UInt8) (children : List xml_node)

/-- A pointer to a node: the number of a child of the document, of a child of that, and so on. -/
abbrev Path := List ℕ

namespace xml_node

/-- `name`. -/
def name : xml_node → List UInt8
  | mk name _ _ => name

/-- `value`. -/
def value : xml_node → List UInt8
  | mk _ value _ => value

/-- The children, from `first_node` on. -/
def children : xml_node → List xml_node
  | mk _ _ children => children

/-- The node at a path. -/
def node? (node : xml_node) : Path → Option xml_node
  | [] => some node
  | index :: path => node.children[index]?.bind fun child ↦ child.node? path

/-- `first_node`. Without a name, this is the first child. -/
def first_node (node : xml_node) : Option (List UInt8) → Option ℕ
  | none => if node.children = [] then none else some 0
  | some pName => node.children.findIdx? fun child ↦ decide (child.name = pName)

end xml_node

/-- A new document, and the document of an empty text. -/
def xml_document : xml_node := .mk [] [] []

/-- The loop that goes on to the next sibling until it finds the name. `index` is the number of the
first of the siblings. -/
def searchFrom (pParam : List UInt8) : List xml_node → ℕ → Option ℕ
  | [], _ => none
  | node :: siblings, index =>
    if node.name = pParam then some index else searchFrom pParam siblings (index + 1)

/-- The search for a parameter: the node itself, or one of its children. -/
def findNode (document : xml_node) (pNode : Path) (pParam : List UInt8) (bFirst : Bool) :
    Option Path := do
  let node ← document.node? pNode
  if node.name = pParam then some pNode
  else
    let first ← node.first_node (if bFirst then none else some pParam)
    let index ← searchFrom pParam (node.children.drop first) first
    some (pNode ++ [index])

/-- What the parser makes of a text. -/
structure Parsed (text : List UInt8) where
  rewritten : List UInt8
  length_rewritten : rewritten.length = text.length
  accepted : Bool
  document : xml_node

/-- The string at the start of a block, if it ends inside. -/
def cString (cells : List UInt8) : Option (List UInt8) :=
  if 0 ∈ cells then some (cells.takeWhile (· ≠ 0)) else none

theorem cString_append_zero {text : List UInt8} (hnonzero : 0 ∉ text) (back : List UInt8) :
    cString (text ++ 0 :: back) = some text := by
  have htext : ∀ chr ∈ text, decide (chr ≠ 0) = true := by
    intro chr hchr
    exact decide_eq_true fun hzero ↦ hnonzero (hzero ▸ hchr)
  rw [cString, if_pos (List.mem_append_right _ List.mem_cons_self),
    List.takeWhile_append_of_pos htext, List.takeWhile_cons_of_neg (by simp), List.append_nil]

/-- The string ends in front of every `NUL`. -/
theorem length_le_of_cString {cells text : List UInt8} (h : cString cells = some text) {index : ℕ}
    (hzero : cells[index]? = some 0) : text.length ≤ index := by
  unfold cString at h
  split_ifs at h
  obtain rfl := Option.some.inj h
  by_contra! hbehind
  have hsplit : cells = cells.takeWhile (· ≠ 0) ++ cells.dropWhile (· ≠ 0) :=
    List.takeWhile_append_dropWhile.symm
  rw [hsplit, List.getElem?_append_left hbehind] at hzero
  have hnonzero := List.mem_takeWhile_imp (List.mem_of_getElem? hzero)
  exact of_decide_eq_true hnonzero rfl

end RdbLibs.XML
