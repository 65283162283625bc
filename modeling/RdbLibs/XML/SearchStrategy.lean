import RdbLibs.XML.CXmlHandler

/-!
# Both ways of a search

A search goes to the first child, or to the first child with the name, and from there from sibling
to sibling. What it finds is the first child with the name both times (`findNode_eq`), so that the
lookups answer alike (`lookups_eq_of_bFirst`).
-/

set_option autoImplicit false
set_option relaxedAutoImplicit false

namespace RdbLibs.XML

variable (document : xml_node) (pNode : Path) (pParam : List UInt8) (bFirst : Bool)

theorem searchFrom_eq (nodes : List xml_node) (index : ℕ) :
    searchFrom pParam nodes index =
      (nodes.findIdx? fun child ↦ decide (child.name = pParam)).map (index + ·) := by
  induction nodes generalizing index with
  | nil => rfl
  | cons node nodes ih =>
    rw [searchFrom, List.findIdx?_cons]
    by_cases hname : node.name = pParam
    · simp [hname]
    · have hshift : ((index + ·) ∘ (· + 1) : ℕ → ℕ) = (index + 1 + ·) := by
        funext k
        simp only [Function.comp_apply]
        omega
      simp [hname, ih, hshift]

/-- From the first child with the name on, the search stops at once. -/
theorem searchFrom_drop {nodes : List xml_node} {first : ℕ}
    (hfirst : nodes.findIdx? (fun child ↦ decide (child.name = pParam)) = some first) :
    searchFrom pParam (nodes.drop first) first = some first := by
  obtain ⟨hlt, hname, -⟩ := List.findIdx?_eq_some_iff_getElem.mp hfirst
  rw [List.drop_eq_getElem_cons hlt, searchFrom, if_pos (of_decide_eq_true hname)]

/-- A search finds the node itself, or its first child with the name. -/
theorem findNode_eq : findNode document pNode pParam bFirst = (document.node? pNode).bind fun node ↦
    if node.name = pParam then some pNode
    else (node.children.findIdx? fun child ↦ decide (child.name = pParam)).map
      fun index ↦ pNode ++ [index] := by
  unfold findNode
  refine congrArg (Option.bind (document.node? pNode)) (funext fun node ↦ ?_)
  by_cases hname : node.name = pParam
  · rw [if_pos hname, if_pos hname]
  · rw [if_neg hname, if_neg hname]
    cases bFirst with
    | true =>
      rw [if_pos rfl, xml_node.first_node]
      by_cases hchildren : node.children = []
      · rw [if_pos hchildren, hchildren]
        rfl
      · rw [if_neg hchildren, Option.bind_eq_bind, Option.bind_some, List.drop_zero,
          searchFrom_eq]
        cases node.children.findIdx? fun child ↦ decide (child.name = pParam) with
        | none => rfl
        | some index => simp
    | false =>
      rw [if_neg Bool.false_ne_true, xml_node.first_node]
      cases hfirst : node.children.findIdx? fun child ↦ decide (child.name = pParam) with
      | none => rfl
      | some first =>
        rw [Option.bind_eq_bind, Option.bind_some, searchFrom_drop pParam hfirst]
        rfl

theorem findNode_bFirst : findNode document pNode pParam true =
    findNode document pNode pParam false := by
  rw [findNode_eq, findNode_eq]

theorem findParam_bFirst : findParam document pNode pParam true =
    findParam document pNode pParam false := by
  rw [findParam, findParam, findNode_bFirst]

/-- The way of a search does not matter to the answer, to the target or to the object. -/
theorem lookups_eq_of_bFirst (s : LoadedObject) (pNode : Option Path) (sTarget : List UInt8)
    (pDefault : Option (List UInt8)) (bTarget bUseDef bDefVal : Bool) (nTarget nDefVal : ℤ) :
    s.object.FindXmlParamGroup pNode pParam true = s.object.FindXmlParamGroup pNode pParam false ∧
      s.object.LoadXmlParamString CXmlHandler.toLength pNode pParam sTarget pDefault true =
        s.object.LoadXmlParamString CXmlHandler.toLength pNode pParam sTarget pDefault false ∧
      s.LoadXmlParamBool pNode pParam bTarget bUseDef bDefVal true =
        s.LoadXmlParamBool pNode pParam bTarget bUseDef bDefVal false ∧
      s.object.LoadXmlParamInt pNode pParam nTarget bUseDef nDefVal true =
        s.object.LoadXmlParamInt pNode pParam nTarget bUseDef nDefVal false := by
  refine ⟨?_, ?_, ?_, ?_⟩
  · simp only [XmlObject.FindXmlParamGroup, findNode_bFirst]
  · simp only [XmlObject.LoadXmlParamString, XmlObject.findValue, findNode_bFirst]
  · simp only [LoadedObject.LoadXmlParamBool, findParam_bFirst]
  · simp only [XmlObject.LoadXmlParamInt, findParam_bFirst]

end RdbLibs.XML
