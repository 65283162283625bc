import RdbLibs.Foundations.BlockAccess
import RdbLibs.XML.SearchStrategy

/-!
# `LoadXmlParamBuf` beside `LoadXmlParamString`

Both lookups are given by the node that they start from: `assignedText` is what
`LoadXmlParamString` answers and assigns, and `copiedBytes` what `LoadXmlParamBuf` answers and
copies. The two differ where the node itself has the name, where no child has it and there is a
default, and where a child has it without a value: there `LoadXmlParamBuf` copies characters of the
value, where it should copy those of the default. `loadXmlParamBuf_agrees_iff` says when they agree.
-/

set_option autoImplicit false
set_option relaxedAutoImplicit false

namespace RdbLibs.XML

open BlockAccess MachineWord

/-- The default that is assigned where no value is found, if there is one. -/
def usedDefault (pDefault : Option (List UInt8)) : Option (List UInt8) := do
  let pDefault ← pDefault
  if 0 < toInt pDefault.length then some (pDefault.take (toInt pDefault.length).toNat) else none

/-- The first child with a name. -/
def xml_node.childNamed (node : xml_node) (pParam : List UInt8) : Option xml_node :=
  node.children.find? fun child ↦ decide (child.name = pParam)

/-- The node itself, if it has the name, or else its first child with it. -/
def xml_node.named (node : xml_node) (pParam : List UInt8) : Option xml_node :=
  if node.name = pParam then some node else node.childNamed pParam

/-- What `LoadXmlParamString` answers, and what it assigns, if it assigns something. -/
def assignedText (node : xml_node) (pParam : List UInt8) (pDefault : Option (List UInt8)) :
    Bool × Option (List UInt8) :=
  match node.named pParam with
  | none => (false, usedDefault pDefault)
  | some found =>
    if 0 < toInt found.value.length then
      (true, some (found.value.take (toInt found.value.length).toNat))
    else (false, usedDefault pDefault)

/-- What `LoadXmlParamBuf` answers, and what it copies to a memory of `nLen` characters. -/
def copiedBytes (node : xml_node) (pParam : List UInt8) (nLen : ℕ)
    (pDefault : Option (List UInt8)) : Bool × List UInt8 :=
  if node.name = pParam then (true, [])
  else
    match node.childNamed pParam with
    | none => (false, [])
    | some found =>
      if 0 < toInt found.value.length then
        (true, copiedText found.value (min (toInt found.value.length).toNat nLen))
      else
        match usedDefault pDefault with
        | none => (false, [])
        | some text => (false, copiedText found.value (min text.length nLen))

/-- Behind the first `NUL` of a text there are `NUL`s only. -/
def NulsAtEnd (text : List UInt8) : Prop :=
  ∃ front count, 0 ∉ front ∧ text = front ++ List.replicate count 0

variable {document node : xml_node} {pNode : Path} {pParam source text : List UInt8} {count : ℕ}

/-! ### Copies of a value -/

@[simp] theorem length_copiedText (source : List UInt8) (count : ℕ) :
    (copiedText source count).length = count := by
  rw [copiedText, List.length_append, List.length_take, List.length_replicate]
  omega

theorem strncpy_eq {pTarget : List UInt8} (h : count ≤ pTarget.length) (source : List UInt8) :
    strncpy pTarget source count = some (overwrite pTarget 0 (copiedText source count)) := by
  have hinside : 0 + (copiedText source count).length ≤ pTarget.length := by
    rwa [length_copiedText, Nat.zero_add]
  rw [strncpy, overwrite_eq hinside, CheckedMemory.storeRange, if_pos hinside]
  rfl

theorem copiedText_eq (source : List UInt8) (count : ℕ) :
    copiedText source count = (source.take count).takeWhile (· ≠ 0) ++
      List.replicate (count - ((source.take count).takeWhile (· ≠ 0)).length) 0 := by
  rw [copiedText, ← List.take_takeWhile, List.length_take]
  congr 2
  omega

theorem takeWhile_append_replicate {front : List UInt8} (hfront : 0 ∉ front) (count : ℕ) :
    (front ++ List.replicate count 0).takeWhile (· ≠ 0) = front := by
  have hnone : (List.replicate count (0 : UInt8)).takeWhile (· ≠ 0) = [] := by
    cases count with
    | zero => rfl
    | succ count => rw [List.replicate_succ, List.takeWhile_cons_of_neg (by simp)]
  have hfront' : ∀ chr ∈ front, decide (chr ≠ 0) = true := fun chr hchr ↦
    decide_eq_true (ne_of_mem_of_not_mem hchr hfront)
  rw [List.takeWhile_append_of_pos hfront', hnone, List.append_nil]

/-- Characters are copied as they are, if there are only `NUL`s behind a `NUL`. -/
theorem copiedText_eq_take_iff (h : count ≤ source.length) :
    copiedText source count = source.take count ↔ NulsAtEnd (source.take count) := by
  rw [copiedText_eq]
  constructor
  · intro hsame
    exact ⟨_, _, fun hmem ↦ by simpa using List.mem_takeWhile_imp hmem, hsame.symm⟩
  · rintro ⟨front, zeros, hfront, hsplit⟩
    have hlength := congrArg List.length hsplit
    rw [List.length_take_of_le h, List.length_append, List.length_replicate] at hlength
    rw [hsplit, takeWhile_append_replicate hfront, hlength, Nat.add_sub_cancel_left]

/-- A text without a `NUL` is copied, if it is there. -/
theorem copiedText_eq_iff (htext : 0 ∉ text) :
    copiedText source text.length = text ↔ source.take text.length = text := by
  rw [copiedText_eq]
  constructor
  · intro hsame
    have hnone : text.length - ((source.take text.length).takeWhile (· ≠ 0)).length = 0 := by
      by_contra hsome
      refine htext (hsame ▸ List.mem_append_right _ ?_)
      exact List.mem_replicate.mpr ⟨hsome, rfl⟩
    rw [hnone, List.replicate_zero, List.append_nil] at hsame
    have hall : (source.take text.length).takeWhile (· ≠ 0) = source.take text.length := by
      refine (List.takeWhile_prefix _).eq_of_length_le ?_
      rw [hsame, List.length_take]
      exact Nat.min_le_left _ _
    exact hall.symm.trans hsame
  · intro hsame
    rw [hsame, takeWhile_eq_self_of_notMem htext, Nat.sub_self, List.replicate_zero,
      List.append_nil]

/-! ### The node that is found -/

theorem node?_append_singleton (document : xml_node) (pNode : Path) (index : ℕ) :
    document.node? (pNode ++ [index]) =
      (document.node? pNode).bind fun node ↦ node.children[index]? := by
  induction pNode generalizing document with
  | nil =>
    rw [List.nil_append, xml_node.node?, xml_node.node?, Option.bind_some]
    cases document.children[index]? <;> rfl
  | cons first rest ih =>
    rw [List.cons_append, xml_node.node?, xml_node.node?]
    cases document.children[first]? with
    | none => rfl
    | some child => exact ih child

variable {bFirst : Bool}

theorem findNode_eq_none (hnode : document.node? pNode = some node)
    (hnone : node.named pParam = none) : findNode document pNode pParam bFirst = none := by
  rw [findNode_eq, hnode, Option.bind_some]
  unfold xml_node.named at hnone
  split_ifs at hnone ⊢ with hname
  rw [xml_node.childNamed, List.find?_eq_bind_findIdx?_getElem?] at hnone
  cases hindex : node.children.findIdx? fun child ↦ decide (child.name = pParam) with
  | none => rfl
  | some index =>
    rw [hindex, Option.bind_some] at hnone
    have hlt := (List.findIdx?_eq_some_iff_getElem.mp hindex).1
    rw [List.getElem?_eq_getElem hlt] at hnone
    cases hnone

theorem exists_findNode (bFirst : Bool) (hnode : document.node? pNode = some node)
    {found : xml_node} (hfound : node.named pParam = some found) :
    ∃ path, findNode document pNode pParam bFirst = some path ∧
      document.node? path = some found := by
  rw [findNode_eq, hnode, Option.bind_some]
  unfold xml_node.named at hfound
  split_ifs at hfound ⊢ with hname
  · obtain rfl := Option.some.inj hfound
    exact ⟨pNode, rfl, hnode⟩
  · rw [xml_node.childNamed, List.find?_eq_bind_findIdx?_getElem?, Option.bind_eq_some_iff]
      at hfound
    obtain ⟨index, hindex, hchild⟩ := hfound
    refine ⟨pNode ++ [index], by rw [hindex]; rfl, ?_⟩
    rw [node?_append_singleton, hnode, Option.bind_some, hchild]

/-! ### The two functions -/

variable {s : XmlObject} {pDefault : Option (List UInt8)} {nLen : ℤ}

theorem usedDefault_none : usedDefault none = none := rfl

theorem usedDefault_some (text : List UInt8) : usedDefault (some text) =
    if 0 < toInt text.length then some (text.take (toInt text.length).toNat) else none := rfl

theorem assignDefault_eq (sTarget : List UInt8) (pDefault : Option (List UInt8)) :
    XmlObject.assignDefault CXmlHandler.toLength sTarget pDefault =
      (usedDefault pDefault).getD sTarget := by
  cases pDefault with
  | none => rfl
  | some text =>
    simp only [usedDefault_some, XmlObject.assignDefault, CXmlHandler.toLength, gt_iff_lt]
    split_ifs <;> rfl

/-- What `LoadXmlParamString` answers and assigns. -/
theorem loadXmlParamString_eq (pParam : List UInt8) (pDefault : Option (List UInt8)) (bFirst : Bool)
    (hparser : s.m_pXmlParser = some document)
    (hnode : document.node? pNode = some node) (sTarget : List UInt8) :
    ∃ after, s.LoadXmlParamString CXmlHandler.toLength (some pNode) pParam sTarget pDefault bFirst =
      ((assignedText node pParam pDefault).1,
        (assignedText node pParam pDefault).2.getD sTarget, after) := by
  simp only [XmlObject.LoadXmlParamString, hparser, XmlObject.findValue, assignedText]
  cases hnamed : node.named pParam with
  | none =>
    rw [findNode_eq_none hnode hnamed]
    exact ⟨s, by rw [assignDefault_eq]; rfl⟩
  | some found =>
    obtain ⟨path, hfind, hpath⟩ := exists_findNode bFirst hnode hnamed
    simp only [hfind, hpath, Option.bind_eq_bind, Option.bind_some, CXmlHandler.toLength,
      gt_iff_lt]
    by_cases hpos : 0 < toInt found.value.length
    · simp only [if_pos hpos]
      exact ⟨_, rfl⟩
    · simp only [if_neg hpos, assignDefault_eq]
      exact ⟨s, rfl⟩

/-- As many characters are copied as there are, and fit. -/
theorem strncpy_smaller (value : List UInt8) (hlen : 0 ≤ nLen) {pTarget : List UInt8}
    (hroom : nLen.toNat ≤ pTarget.length) {length : ℤ} (hpos : 0 < length)
    (hlt : length < 2 ^ 31) :
    strncpy pTarget value (intToSize (if length > nLen then nLen else length)) =
      some (overwrite pTarget 0 (copiedText value (min length.toNat nLen.toNat))) := by
  have hcount : intToSize (if length > nLen then nLen else length) =
      min length.toNat nLen.toNat := by
    unfold intToSize
    split_ifs <;> omega
  rw [hcount, strncpy_eq (by omega)]

/-- What `LoadXmlParamBuf` copies where a child has the name. -/
theorem loadBuf_eq (s : XmlObject) (pDefault : Option (List UInt8)) (path : Path)
    (value : List UInt8) (hlen : 0 ≤ nLen)
    {pTarget : List UInt8} (hroom : nLen.toNat ≤ pTarget.length) :
    ∃ after, s.loadBuf path value pTarget nLen pDefault =
      some (decide (0 < toInt value.length), overwrite pTarget 0
        (if 0 < toInt value.length then
          copiedText value (min (toInt value.length).toNat nLen.toNat)
        else
          match usedDefault pDefault with
          | none => []
          | some text => copiedText value (min text.length nLen.toNat)), after) := by
  have hkept : overwrite pTarget 0 [] = pTarget := by simp [overwrite]
  unfold XmlObject.loadBuf
  dsimp only
  by_cases hpos : 0 < toInt value.length
  · rw [if_pos hpos, if_pos hpos, strncpy_smaller value hlen hroom hpos (toInt_lt _),
      decide_eq_true hpos]
    exact ⟨_, rfl⟩
  · rw [if_neg hpos, if_neg hpos, decide_eq_false hpos]
    cases pDefault with
    | none =>
      rw [usedDefault_none]
      dsimp only
      exact ⟨s, by rw [hkept]⟩
    | some text =>
      rw [usedDefault_some]
      dsimp only
      by_cases hdefault : 0 < toInt text.length
      · have hle := toInt_le text.length
        rw [if_pos hdefault, if_pos hdefault,
          strncpy_smaller value hlen hroom hdefault (toInt_lt _)]
        dsimp only
        rw [List.length_take_of_le (by omega)]
        exact ⟨s, rfl⟩
      · rw [if_neg hdefault, if_neg hdefault]
        exact ⟨s, by rw [hkept]⟩

/-- What `LoadXmlParamBuf` answers and copies. -/
theorem loadXmlParamBuf_eq (pParam : List UInt8) (pDefault : Option (List UInt8)) (bFirst : Bool)
    (hparser : s.m_pXmlParser = some document)
    (hnode : document.node? pNode = some node) (hlen : 0 ≤ nLen) {pTarget : List UInt8}
    (hroom : nLen.toNat ≤ pTarget.length) :
    ∃ after, s.LoadXmlParamBuf (some pNode) pParam pTarget nLen pDefault bFirst =
      some ((copiedBytes node pParam nLen.toNat pDefault).1,
        overwrite pTarget 0 (copiedBytes node pParam nLen.toNat pDefault).2, after) := by
  have hkept : overwrite pTarget 0 [] = pTarget := by simp [overwrite]
  simp only [XmlObject.LoadXmlParamBuf, hparser, hnode, Option.map_some, Option.some_inj,
    copiedBytes]
  by_cases hname : node.name = pParam
  · simp only [if_pos hname, hkept]
    exact ⟨_, rfl⟩
  · simp only [if_neg hname]
    cases hnamed : node.childNamed pParam with
    | none =>
      rw [findNode_eq_none hnode ((if_neg hname).trans hnamed)]
      exact ⟨s, by rw [hkept]⟩
    | some found =>
      obtain ⟨path, hfind, hpath⟩ :=
        exists_findNode bFirst hnode ((if_neg hname).trans hnamed)
      obtain ⟨after, hbuf⟩ := loadBuf_eq s pDefault path found.value hlen hroom
      simp only [hfind, hpath, Option.bind_eq_bind, Option.bind_some, hbuf]
      refine ⟨after, ?_⟩
      split_ifs with hpos
      · rw [decide_eq_true hpos]
      · rw [decide_eq_false hpos]
        cases usedDefault pDefault <;> rfl

/-! ### Agreement -/

/-- `LoadXmlParamBuf` answers as `LoadXmlParamString`, and where that sets the string, whatever it
was before, it sets the memory of the caller to as many characters of the string as there is room
for. -/
def BufAgrees (s : XmlObject) (pNode : Path) (pParam : List UInt8) (nLen : ℤ)
    (pDefault : Option (List UInt8)) (bFirst : Bool) : Prop :=
  ∀ pTarget sTarget, nLen.toNat ≤ pTarget.length → ∃ written after,
    s.LoadXmlParamBuf (some pNode) pParam pTarget nLen pDefault bFirst =
        some ((s.LoadXmlParamString CXmlHandler.toLength (some pNode) pParam sTarget pDefault
          bFirst).1, written, after) ∧
      ∀ text, (∀ sTarget, (s.LoadXmlParamString CXmlHandler.toLength (some pNode) pParam sTarget
        pDefault bFirst).2.1 = text) → written = overwrite pTarget 0 (text.take nLen.toNat)

/-- Where the two functions agree: no lookup of a node by itself; where a child is found with a
value, only `NUL`s behind a `NUL` in what is copied; and otherwise no default, unless the value has
it. -/
def AgreesAt (node : xml_node) (pParam : List UInt8) (nLen : ℕ)
    (pDefault : Option (List UInt8)) : Prop :=
  node.name ≠ pParam ∧
    match node.childNamed pParam with
    | none => usedDefault pDefault = none
    | some found =>
      if 0 < toInt found.value.length then
        NulsAtEnd (found.value.take (min (toInt found.value.length).toNat nLen))
      else ∀ text, usedDefault pDefault = some text → text.take nLen <+: found.value

theorem length_copiedBytes_le (node : xml_node) (pParam : List UInt8) (nLen : ℕ)
    (pDefault : Option (List UInt8)) :
    (copiedBytes node pParam nLen pDefault).2.length ≤ nLen := by
  unfold copiedBytes
  split_ifs
  · exact Nat.zero_le _
  · cases node.childNamed pParam with
    | none => exact Nat.zero_le _
    | some found =>
      dsimp only
      split_ifs
      · rw [length_copiedText]
        exact Nat.min_le_right _ _
      · cases usedDefault pDefault with
        | none => exact Nat.zero_le _
        | some text =>
          rw [length_copiedText]
          exact Nat.min_le_right _ _

/-- A string is set exactly where what it was before does not matter. -/
theorem forall_getD_eq_iff {assigned : Option (List UInt8)} :
    (∀ sTarget, assigned.getD sTarget = text) ↔ assigned = some text := by
  constructor
  · intro h
    cases assigned with
    | none =>
      have hempty := h []
      have hother := h [0]
      rw [Option.getD_none] at hempty hother
      exact absurd (hempty.trans hother.symm) (List.cons_ne_nil _ _).symm
    | some value => rw [← h [], Option.getD_some]
  · rintro rfl sTarget
    exact Option.getD_some

theorem bufAgrees_iff_answers (hparser : s.m_pXmlParser = some document)
    (hnode : document.node? pNode = some node) (hlen : 0 ≤ nLen) :
    BufAgrees s pNode pParam nLen pDefault bFirst ↔
      (copiedBytes node pParam nLen.toNat pDefault).1 = (assignedText node pParam pDefault).1 ∧
        ∀ text, (assignedText node pParam pDefault).2 = some text →
          (copiedBytes node pParam nLen.toNat pDefault).2 = text.take nLen.toNat := by
  have hset : ∀ text, (∀ sTarget, (s.LoadXmlParamString CXmlHandler.toLength (some pNode) pParam
      sTarget pDefault bFirst).2.1 = text) ↔ (assignedText node pParam pDefault).2 = some text := by
    intro text
    rw [← forall_getD_eq_iff]
    refine forall_congr' fun sTarget ↦ ?_
    obtain ⟨after, hstring⟩ := loadXmlParamString_eq pParam pDefault bFirst hparser hnode sTarget
    rw [hstring]
  have : Nontrivial UInt8 := ⟨0, 1, by decide⟩
  constructor
  · intro h
    have hroom : nLen.toNat ≤ (List.replicate nLen.toNat (0 : UInt8)).length :=
      Nat.le_of_eq List.length_replicate.symm
    constructor
    · obtain ⟨written, after, hbuf, -⟩ := h _ [] hroom
      obtain ⟨after', hstring⟩ := loadXmlParamString_eq pParam pDefault bFirst hparser hnode []
      obtain ⟨after'', hcopied⟩ :=
        loadXmlParamBuf_eq pParam pDefault bFirst hparser hnode hlen hroom
      rw [hcopied, hstring] at hbuf
      exact (Prod.mk.inj (Option.some.inj hbuf)).1
    · intro text htext
      refine overwrite_injective (length_copiedBytes_le node pParam _ pDefault)
        (List.length_take_le _ _) fun pTarget hpTarget ↦ ?_
      obtain ⟨written, after, hbuf, hwritten⟩ := h pTarget [] hpTarget
      obtain ⟨after', hcopied⟩ :=
        loadXmlParamBuf_eq pParam pDefault bFirst hparser hnode hlen hpTarget
      rw [← hwritten text ((hset text).mpr htext)]
      rw [hcopied] at hbuf
      exact (Prod.mk.inj (Prod.mk.inj (Option.some.inj hbuf)).2).1
  · rintro ⟨hanswer, hbytes⟩ pTarget sTarget hroom
    obtain ⟨after, hcopied⟩ := loadXmlParamBuf_eq pParam pDefault bFirst hparser hnode hlen hroom
    obtain ⟨after', hstring⟩ := loadXmlParamString_eq pParam pDefault bFirst hparser hnode sTarget
    refine ⟨overwrite pTarget 0 (copiedBytes node pParam nLen.toNat pDefault).2, after, ?_,
      fun text htext ↦ ?_⟩
    · rw [hcopied, hstring, hanswer]
    · rw [hbytes text ((hset text).mp htext)]

/-- A default that is used has characters, and none of them is a `NUL`. -/
theorem of_usedDefault (hdefault : ∀ text ∈ pDefault, 0 ∉ text)
    (h : usedDefault pDefault = some text) : text ≠ [] ∧ 0 ∉ text := by
  cases pDefault with
  | none => cases h
  | some all =>
    rw [usedDefault_some] at h
    split_ifs at h with hpos
    obtain rfl := Option.some.inj h
    have hle := toInt_le all.length
    refine ⟨fun hempty ↦ ?_, fun hmem ↦ hdefault all rfl (List.mem_of_mem_take hmem)⟩
    have hlength := congrArg List.length hempty
    rw [List.length_take_of_le (by omega), List.length_nil] at hlength
    omega

/-- Nothing was copied of a text of which something should be. -/
theorem nil_ne_take (htext : text ≠ []) (hlen : 1 ≤ nLen) : [] ≠ text.take nLen.toNat := by
  intro hempty
  rcases List.take_eq_nil_iff.mp hempty.symm with hzero | hnil
  · omega
  · exact htext hnil

/-- `LoadXmlParamBuf` agrees with `LoadXmlParamString` exactly where it is right. -/
theorem loadXmlParamBuf_agrees_iff (hparser : s.m_pXmlParser = some document)
    (hnode : document.node? pNode = some node) (hlen : 1 ≤ nLen)
    (hdefault : ∀ text ∈ pDefault, 0 ∉ text) :
    BufAgrees s pNode pParam nLen pDefault bFirst ↔
      AgreesAt node pParam nLen.toNat pDefault := by
  rw [bufAgrees_iff_answers hparser hnode (by omega)]
  unfold copiedBytes assignedText xml_node.named AgreesAt
  by_cases hname : node.name = pParam
  · have hnot : ¬(node.name ≠ pParam) := fun hne ↦ hne hname
    simp only [if_pos hname, hnot, false_and, iff_false]
    by_cases hpos : 0 < toInt node.value.length
    · rw [if_pos hpos]
      rintro ⟨-, hbytes⟩
      refine nil_ne_take (fun hempty ↦ ?_) hlen (hbytes _ rfl)
      have hlength := congrArg List.length hempty
      rw [List.length_take_of_le (toNat_toInt_le _), List.length_nil] at hlength
      omega
    · rw [if_neg hpos]
      rintro ⟨hanswer, -⟩
      cases hanswer
  · simp only [ne_eq, hname, not_false_eq_true, true_and, if_false]
    cases node.childNamed pParam with
    | none =>
      constructor
      · rintro ⟨-, hbytes⟩
        by_contra hsome
        obtain ⟨text, htext⟩ := Option.ne_none_iff_exists'.mp hsome
        exact nil_ne_take (of_usedDefault hdefault htext).1 hlen (hbytes text htext)
      · intro hnone
        exact ⟨rfl, fun text htext ↦ absurd (hnone.symm.trans htext) (Option.some_ne_none _).symm⟩
    | some found =>
      by_cases hpos : 0 < toInt found.value.length
      · have hle := toNat_toInt_le found.value.length
        simp only [if_pos hpos, true_and, Option.some_inj, forall_eq', List.take_take]
        rw [Nat.min_comm nLen.toNat, copiedText_eq_take_iff (by omega)]
      · simp only [if_neg hpos]
        cases hused : usedDefault pDefault with
        | none => exact iff_of_true ⟨rfl, nofun⟩ nofun
        | some text =>
          have hzero : 0 ∉ text.take nLen.toNat := fun hmem ↦
            (of_usedDefault hdefault hused).2 (List.mem_of_mem_take hmem)
          have hlength : min text.length nLen.toNat = (text.take nLen.toNat).length := by
            rw [List.length_take, Nat.min_comm]
          simp only [Option.some_inj, forall_eq', true_and]
          rw [hlength, copiedText_eq_iff hzero, List.prefix_iff_eq_take, eq_comm]

/-- The second child has the name, and a value that fits. -/
theorem loadXmlParamBuf_agrees_iff_child :
    BufAgrees (.init (some (.mk [] [] [.mk [98] [120] [], .mk [97] [104, 105] []]))) [] [97] 5
      (some [110]) true := by
  have hnode : xml_node.node? (.mk [] [] [.mk [98] [120] [], .mk [97] [104, 105] []]) [] =
      some (.mk [] [] [.mk [98] [120] [], .mk [97] [104, 105] []]) := rfl
  have hzero : NulsAtEnd [104, 105] := ⟨[104, 105], 0, by decide, rfl⟩
  exact (loadXmlParamBuf_agrees_iff rfl hnode (by decide) (by simp)).mpr ⟨nofun, hzero⟩

/-- A node that is looked up by itself gives `LoadXmlParamString` its value, and `LoadXmlParamBuf`
nothing; and where no node has the name, only the string is set to the default. -/
theorem own_value_and_default_are_not_copied :
    ((XmlObject.init (some (.mk [97] [104] []))).LoadXmlParamBuf (some []) [97] [0] 1 none true).map
        (fun answer ↦ (answer.1, answer.2.1)) = some (true, [0]) ∧
      ((XmlObject.init (some (.mk [97] [104] []))).LoadXmlParamString CXmlHandler.toLength (some [])
        [97] [] none true).2.1 = [104] ∧
      ((XmlObject.init (some (.mk [] [] []))).LoadXmlParamBuf (some []) [97] [0] 1 (some [100])
        true).map (fun answer ↦ (answer.1, answer.2.1)) = some (false, [0]) ∧
      ((XmlObject.init (some (.mk [] [] []))).LoadXmlParamString CXmlHandler.toLength (some [])
        [97] [] (some [100]) true).2.1 = [100] := by
  decide

end RdbLibs.XML
