import RdbLibs.Other.RefPtr.Release

/-!
# `operator=`

The left `refPtr` keeps its pointer while its object is released. That is what releasing makes of a
heap where it was set to `NULL` before, as long as the object that has the left `refPtr` as a member
is not deleted (`release_write`); if it is deleted, the pointer of the left `refPtr` is released
again (`release_write_of_deleted`). So `operator=` has a result exactly when no object that has the
left or the right `refPtr` as a member falls with the object that is released, and when the count of
the other object fits into an `int` (`Exact.assign_iff`).
-/

set_option autoImplicit false
set_option relaxedAutoImplicit false

namespace RdbLibs.Other.RefPtr

/-- The object that has a `refPtr` as a member. -/
def Place.owner : Place → Option ℕ
  | .root _ => none
  | .member owner _ => some owner

namespace Heap

variable {h : Heap} {place : Place} {pointer old : Pointer} {o : ℕ} {stack : List Pointer}

/-! ### Writing a pointer -/

theorem exists_of_m_object_member {index : ℕ}
    (hplace : h.m_object (.member o index) = some old) :
    ∃ object, h.object? o = some object ∧ object.members[index]? = some old := by
  rw [m_object] at hplace
  cases hobject : h.object? o with
  | none =>
    rw [members_of_none hobject] at hplace
    cases hplace
  | some object =>
    rw [members_of_object? hobject] at hplace
    exact ⟨object, rfl, hplace⟩

theorem write_member (index : ℕ) {object : refCountBase} (hobject : h.object? o = some object) :
    h.write (.member o index) pointer =
      h.put o (some { object with members := object.members.set index pointer }) := by
  rw [write, hobject]

theorem write_of_deleted (index : ℕ) (hdead : h.object? o = none) :
    h.write (.member o index) pointer = h := by
  rw [write, hdead]

/-- Pointers are written without a change of counts, and the other way round. -/
theorem write_put (place : Place) (pointer : Pointer) {object : refCountBase}
    (hobject : h.object? o = some object) :
    ∃ members, (h.write place pointer).object? o = some ⟨object.m_refCount, members⟩ ∧
      ∀ count, (h.write place pointer).put o (some ⟨count, members⟩) =
        (h.put o (some ⟨count, object.members⟩)).write place pointer := by
  cases place with
  | root index => exact ⟨object.members, hobject, fun _ ↦ rfl⟩
  | member owner index =>
    have hlength := lt_length_of_object? hobject
    by_cases hsame : o = owner
    · subst hsame
      rw [write_member index hobject]
      refine ⟨object.members.set index pointer, h.object?_put_self _ hlength, fun count ↦ ?_⟩
      rw [write_member index (h.object?_put_self _ hlength)]
      simp only [put, List.set_set]
    · refine ⟨object.members, ?_, fun count ↦ ?_⟩
      · cases howner : h.object? owner with
        | none => rw [write_of_deleted index howner, hobject]
        | some other => rw [write_member index howner, h.object?_put_of_ne _ hsame, hobject]
      · have hkeep := h.object?_put_of_ne (some ⟨count, object.members⟩) (Ne.symm hsame)
        cases howner : h.object? owner with
        | none => rw [write_of_deleted index howner, write_of_deleted index (hkeep.trans howner)]
        | some other =>
          rw [write_member index howner, write_member index (hkeep.trans howner)]
          simp only [put, List.set_comm _ _ (Ne.symm hsame)]

theorem object?_write_eq_none : (h.write place pointer).object? o = none ↔ h.object? o = none := by
  constructor
  · intro hdead
    by_contra hlive
    obtain ⟨object, hobject⟩ := Option.ne_none_iff_exists'.mp hlive
    obtain ⟨members, hwrite, -⟩ := write_put place pointer hobject
    rw [hwrite] at hdead
    cases hdead
  · intro hdead
    cases place with
    | root index => exact hdead
    | member owner index =>
      cases howner : h.object? owner with
      | none => rwa [write_of_deleted index howner]
      | some other =>
        have hne := ne_of_object? hdead howner
        rw [write_member index howner, h.object?_put_of_ne _ hne, hdead]

@[simp] theorem length_objects_write :
    (h.write place pointer).objects.length = h.objects.length := by
  cases place with
  | root index => rfl
  | member owner index =>
    cases howner : h.object? owner with
    | none => rw [write_of_deleted index howner]
    | some other => rw [write_member index howner, length_objects_put]

@[simp] theorem deletions_write : (h.write place pointer).deletions = h.deletions := by
  cases place with
  | root index => rfl
  | member owner index =>
    cases howner : h.object? owner with
    | none => rw [write_of_deleted index howner]
    | some other => rw [write_member index howner, deletions_put]

/-- An object is deleted, if the pointer that is written is not a member of it. -/
theorem write_delete (pointer : Pointer) (hne : place.owner ≠ some o) :
    (h.write place pointer).object? o = h.object? o ∧
      (h.write place pointer).delete o = (h.delete o).write place pointer := by
  cases place with
  | root index => exact ⟨rfl, rfl⟩
  | member owner index =>
    have hsame : owner ≠ o := fun heq ↦ hne (congrArg some heq)
    have hkeep := h.object?_delete_of_ne hsame
    cases howner : h.object? owner with
    | none =>
      rw [write_of_deleted index howner, write_of_deleted index (hkeep.trans howner)]
      exact ⟨rfl, rfl⟩
    | some other =>
      rw [write_member index howner, write_member index (hkeep.trans howner)]
      refine ⟨h.object?_put_of_ne _ hsame.symm, ?_⟩
      simp only [delete, put, List.set_comm _ _ hsame]

theorem count_set {α : Type*} [BEq α] {list : List α} {index : ℕ} {before : α} (after a : α)
    (hbefore : list[index]? = some before) :
    (list.set index after).count a + [before].count a = list.count a + [after].count a := by
  induction list generalizing index with
  | nil => cases hbefore
  | cons first rest ih =>
    have hcons (b : α) (bs : List α) : (b :: bs).count a = [b].count a + bs.count a := by
      rw [← List.count_append, List.singleton_append]
    cases index with
    | zero =>
      obtain rfl := Option.some.inj hbefore
      rw [List.set_cons_zero, hcons after rest, hcons first rest]
      omega
    | succ index =>
      have hrest := ih (List.getElem?_cons_succ.symm.trans hbefore)
      rw [List.set_cons_succ, hcons first (rest.set index after), hcons first rest]
      omega

theorem count_some_some (pointer : Pointer) (o : ℕ) :
    [some pointer].count (some (some o)) = [pointer].count (some o) :=
  List.count_map_of_injective [pointer] some (Option.some_injective _) (some o)

/-- The pointer that is written is one reference more, and the one that was there one less. -/
theorem references_write (pointer : Pointer) (hplace : h.m_object place = some old) :
    (h.write place pointer).references o + [old].count (some o) =
      h.references o + [pointer].count (some o) := by
  cases place with
  | root index =>
    have hset := count_set (some pointer) (some (some o)) (Option.join_eq_some_iff.mp hplace)
    rw [count_some_some, count_some_some] at hset
    have hreferences : (h.write (.root index) pointer).references o =
        (h.roots.set index (some pointer)).count (some (some o)) +
          ∑ owner ∈ Finset.range h.objects.length, (h.members owner).count (some o) := rfl
    rw [hreferences, references]
    omega
  | member owner index =>
    obtain ⟨object, hobject, hmember⟩ := exists_of_m_object_member hplace
    have hput := references_put (o := o)
      (some { object with members := object.members.set index pointer })
      (lt_length_of_object? hobject)
    rw [members_of_object? hobject] at hput
    have hset := count_set pointer (some o) hmember
    rw [write_member index hobject]
    change _ = h.references o + (object.members.set index pointer).count (some o) at hput
    omega

/-- A pointer that is to be released takes the place of another, which is to be released then. -/
theorem Accounts.exchange (hacc : h.Accounts (pointer :: stack))
    (hplace : h.m_object place = some old) :
    (h.write place pointer).Accounts (old :: stack) := by
  have hcons (p : Pointer) (o : ℕ) :
      (p :: stack).count (some o) = [p].count (some o) + stack.count (some o) := by
    rw [← List.count_append, List.singleton_append]
  refine hacc.transfer (fun o object' hobject' ↦ ?_) (fun o ↦ object?_write_eq_none)
    length_objects_write deletions_write fun o ↦ ?_
  · cases hobject : h.object? o with
    | none =>
      rw [object?_write_eq_none.mpr hobject] at hobject'
      cases hobject'
    | some object =>
      obtain ⟨members, hwrite, -⟩ := write_put place pointer hobject
      obtain rfl := Option.some.inj (hwrite.symm.trans hobject')
      exact ⟨object, rfl, rfl⟩
  · have := references_write (o := o) pointer hplace
    rw [hcons, hcons]
    omega

/-! ### Releasing beside a pointer -/

/-- Releasing and writing a pointer commute, if the object that has it as a member is left. -/
theorem release_write (place : Place) (pointer : Pointer) {after : Heap}
    (hrelease : h.release stack = some after)
    (houtlives : ∀ owner, place.owner = some owner → after.object? owner ≠ none) :
    (h.write place pointer).release stack = some (after.write place pointer) := by
  induction h, stack using release.induct with
  | case1 h =>
    obtain rfl := Option.some.inj (h.release_nil.symm.trans hrelease)
    exact release_nil _
  | case2 h stack ih =>
    rw [release_null] at hrelease ⊢
    exact ih hrelease
  | case3 h o stack hdead =>
    rw [release_deleted stack hdead] at hrelease
    cases hrelease
  | case4 h o stack object hobject hcount ih =>
    rw [release_last stack hobject hcount] at hrelease
    have hne : place.owner ≠ some o := fun howner ↦ houtlives o howner
      (release_keeps_deleted (h.object?_delete_self (lt_length_of_object? hobject)) hrelease)
    obtain ⟨hkeep, hdelete⟩ := write_delete pointer hne
    rw [release_last stack (hkeep.trans hobject) hcount, hdelete]
    exact ih hrelease
  | case5 h o stack object hobject hcount ih =>
    rw [release_held stack hobject hcount] at hrelease
    obtain ⟨members, hwrite, hput⟩ := write_put place pointer hobject
    rw [release_held stack hwrite hcount, hput]
    exact ih hrelease

/-- Where the object is deleted that has the pointer as a member, the pointer is released too, which
has no result if its own object is deleted then. -/
theorem release_write_of_deleted {owner index : ℕ} {after : Heap}
    (hrelease : h.release stack = some after) (hindex : index < (h.members owner).length)
    (hdead : after.object? owner = none) (hgone : h.object? o = none ∨ o = owner) :
    (h.write (.member owner index) (some o)).release stack = none := by
  induction h, stack using release.induct with
  | case1 h =>
    obtain rfl := Option.some.inj (h.release_nil.symm.trans hrelease)
    rw [members_of_none hdead] at hindex
    cases hindex
  | case2 h stack ih =>
    rw [release_null] at hrelease ⊢
    exact ih hrelease hindex hgone
  | case3 h other stack hother =>
    rw [release_deleted stack hother] at hrelease
    cases hrelease
  | case4 h other stack object hobject hcount ih =>
    have hlength := lt_length_of_object? hobject
    rw [release_last stack hobject hcount] at hrelease
    by_cases hsame : other = owner
    · subst hsame
      rw [members_of_object? hobject] at hindex
      have hwrite := h.object?_put_self
        (some { object with members := object.members.set index (some o) }) hlength
      rw [write_member index hobject, release_last stack hwrite hcount]
      have hmem : some o ∈ object.members.set index (some o) := List.mem_set hindex _
      refine release_of_deleted (o := o) ?_ (List.mem_append_left _ (List.mem_reverse.mpr hmem))
      by_cases heq : o = other
      · subst heq
        exact object?_delete_self _ (by rwa [length_objects_put])
      · rw [object?_delete_of_ne _ heq, h.object?_put_of_ne _ heq]
        exact hgone.resolve_right heq
    · have hne : (Place.member owner index).owner ≠ some other :=
        fun heq ↦ hsame (Option.some.inj heq).symm
      obtain ⟨hkeep, hdelete⟩ := write_delete (some o) hne
      rw [release_last stack (hkeep.trans hobject) hcount, hdelete]
      refine ih hrelease ?_ (hgone.imp_left fun hgone ↦ ?_)
      · exact (h.members_put_of_ne none (Ne.symm hsame)).symm ▸ hindex
      · by_cases heq : o = other
        · subst heq
          exact h.object?_delete_self hlength
        · rw [h.object?_delete_of_ne heq, hgone]
  | case5 h other stack object hobject hcount ih =>
    rw [release_held stack hobject hcount] at hrelease
    obtain ⟨members, hwrite, hput⟩ := write_put (.member owner index) (some o) hobject
    rw [release_held stack hwrite hcount, hput]
    refine ih hrelease ?_ (hgone.imp_left fun hgone ↦ ?_)
    · rwa [members_put_count _ hobject]
    · have hne := ne_of_object? hgone hobject
      rw [h.object?_put_of_ne _ hne, hgone]

/-! ### The pointers of a heap that was written or released -/

theorem write_write (hplace : h.m_object place = some old) (first second : Pointer) :
    (h.write place first).write place second = h.write place second := by
  cases place with
  | root index => simp only [write, List.set_set]
  | member owner index =>
    obtain ⟨object, hobject, -⟩ := exists_of_m_object_member hplace
    have hlength := lt_length_of_object? hobject
    rw [write_member index hobject, write_member index hobject,
      write_member index (h.object?_put_self _ hlength)]
    simp only [put, List.set_set]

theorem write_m_object (hplace : h.m_object place = some old) : h.write place old = h := by
  cases place with
  | root index =>
    have hroot : h.roots[index]? = some (some old) := Option.join_eq_some_iff.mp hplace
    obtain ⟨hlt, hget⟩ := List.getElem?_eq_some_iff.mp hroot
    rw [write, ← hget, List.set_getElem_self]
  | member owner index =>
    obtain ⟨object, hobject, hmember⟩ := exists_of_m_object_member hplace
    have hentry : h.objects[owner]? = some (some object) := Option.join_eq_some_iff.mp hobject
    obtain ⟨hlt, hget⟩ := List.getElem?_eq_some_iff.mp hentry
    obtain ⟨hindex, hvalue⟩ := List.getElem?_eq_some_iff.mp hmember
    have hsame : object.members.set index old = object.members := by
      rw [← hvalue, List.set_getElem_self]
    rw [write_member index hobject, hsame, put, ← hget, List.set_getElem_self]

theorem m_object_write_self (hplace : h.m_object place = some old) :
    (h.write place pointer).m_object place = some pointer := by
  cases place with
  | root index =>
    obtain ⟨hlt, -⟩ := List.getElem?_eq_some_iff.mp (Option.join_eq_some_iff.mp hplace)
    simp [m_object, write, hlt]
  | member owner index =>
    obtain ⟨object, hobject, hmember⟩ := exists_of_m_object_member hplace
    obtain ⟨hindex, -⟩ := List.getElem?_eq_some_iff.mp hmember
    rw [write_member index hobject, m_object,
      h.members_put_self _ (lt_length_of_object? hobject)]
    simp [hindex]

theorem m_object_write_of_ne {other : Place} (hne : other ≠ place) :
    (h.write place pointer).m_object other = h.m_object other := by
  cases place with
  | root index =>
    cases other with
    | root position =>
      have hindex : index ≠ position := fun heq ↦ hne (heq ▸ rfl)
      simp [m_object, write, hindex]
    | member owner position => rfl
  | member owner index =>
    cases hobject : h.object? owner with
    | none => rw [write_of_deleted index hobject]
    | some object =>
      rw [write_member index hobject]
      cases other with
      | root position => rfl
      | member owner' position =>
        rw [m_object, m_object]
        by_cases hsame : owner' = owner
        · subst hsame
          have hindex : index ≠ position := fun heq ↦ hne (heq ▸ rfl)
          rw [h.members_put_self _ (lt_length_of_object? hobject), members_of_object? hobject]
          simp [hindex]
        · rw [h.members_put_of_ne _ hsame]

/-- A `refPtr` is there after a release exactly if no object that has it as a member was deleted. -/
theorem Accounts.m_object_release {after : Heap} (hacc : h.Accounts stack)
    (hrelease : h.release stack = some after) :
    after.m_object place =
      if ∃ owner, place.owner = some owner ∧ after.object? owner = none then none
      else h.m_object place := by
  cases place with
  | root index =>
    rw [if_neg (by rintro ⟨owner, howner, -⟩; cases howner), m_object, m_object,
      (hacc.reached hrelease).roots]
  | member owner index =>
    rw [m_object, m_object, hacc.members_release hrelease]
    by_cases hdead : after.object? owner = none
    · rw [if_pos hdead, if_pos ⟨owner, rfl, hdead⟩, List.getElem?_nil]
    · rw [if_neg hdead, if_neg]
      rintro ⟨owner', howner, hdead'⟩
      obtain rfl := Option.some.inj howner
      exact hdead hdead'

/-- Counting and writing a pointer commute. -/
theorem refIncrement_write (place : Place) (pointer counted : Pointer) :
    (h.write place pointer).RefIncrement counted =
      (h.RefIncrement counted).map (·.write place pointer) := by
  cases counted with
  | none => rfl
  | some o =>
    rw [RefIncrement, RefIncrement]
    cases hobject : h.object? o with
    | none => rw [object?_write_eq_none.mpr hobject]; rfl
    | some object =>
      obtain ⟨members, hwrite, hput⟩ := write_put place pointer hobject
      rw [hwrite]
      show (if object.m_refCount < 2 ^ 31 - 1 then
          some ((h.write place pointer).put o (some ⟨object.m_refCount + 1, members⟩)) else none) =
        (if object.m_refCount < 2 ^ 31 - 1 then
          some (h.put o (some ⟨object.m_refCount + 1, object.members⟩)) else none).map
            (·.write place pointer)
      rw [hput]
      split <;> rfl

/-! ### The assignment -/

/-- A `refPtr` is still there when the pointers are released. -/
def Outlives (h : Heap) (stack : List Pointer) (place : Place) : Prop :=
  ∀ owner, place.owner = some owner → ¬h.Falls stack owner

open Classical in
/-- The number of the `refPtr`s to an object that are still there when the pointers are released. -/
noncomputable def survivors (h : Heap) (stack : List Pointer) (o : ℕ) : ℕ :=
  h.roots.count (some (some o)) + ∑ owner ∈ Finset.range h.objects.length,
    if h.Falls stack owner then 0 else (h.members owner).count (some o)

theorem Accounts.references_release {after : Heap} (hacc : h.Accounts stack)
    (hrelease : h.release stack = some after) (o : ℕ) :
    after.references o = h.survivors stack o := by
  have hreached := hacc.reached hrelease
  rw [references, survivors, hreached.roots, hreached.length]
  refine congrArg _ (Finset.sum_congr rfl fun owner _ ↦ ?_)
  rw [hacc.members_release hrelease]
  by_cases hlive : h.object? owner = none
  · rw [members_of_none hlive, ite_self, List.count_nil, ite_self]
  · by_cases hdead : after.object? owner = none
    · rw [if_pos hdead, if_pos ((hacc.deleted_iff_falls hrelease hlive).mp hdead), List.count_nil]
    · rw [if_neg hdead, if_neg ((hacc.deleted_iff_falls hrelease hlive).not.mp hdead)]

theorem Accounts.outlives_iff {after : Heap} (hacc : h.Accounts stack)
    (hrelease : h.release stack = some after) (hplace : h.m_object place = some pointer) :
    h.Outlives stack place ↔ after.m_object place = some pointer := by
  rw [hacc.m_object_release hrelease]
  cases place with
  | root index =>
    refine iff_of_true nofun ?_
    rw [if_neg (by rintro ⟨owner, howner, -⟩; cases howner), hplace]
  | member owner index =>
    obtain ⟨object, hobject, -⟩ := exists_of_m_object_member hplace
    have hlive : h.object? owner ≠ none := hobject ▸ Option.some_ne_none object
    have hfalls := hacc.deleted_iff_falls hrelease hlive
    constructor
    · intro houtlives
      rw [if_neg, hplace]
      rintro ⟨owner', howner, hdead⟩
      obtain rfl := Option.some.inj howner
      exact houtlives owner rfl (hfalls.mp hdead)
    · rintro hleft owner' howner hfallen
      obtain rfl := Option.some.inj howner
      rw [if_pos ⟨owner, rfl, hfalls.mpr hfallen⟩] at hleft
      cases hleft

section Assigning

variable {lhs rhs : Place} {object other : Pointer} {after : Heap} (hacc : h.Accounts [])
  (hlhs : h.m_object lhs = some object)
  (hrelease : (h.write lhs none).release [object] = some after)

include hacc hlhs in
theorem Accounts.write_null : (h.write lhs none).Accounts [object] :=
  (accounts_null.mpr hacc).exchange hlhs

include hlhs hrelease in
theorem release_object (hleft : after.m_object lhs = some none) :
    h.release [object] = some (after.write lhs object) := by
  have hwrite := release_write lhs object hrelease fun owner howner ↦ ?_
  · rwa [write_write hlhs, write_m_object hlhs] at hwrite
  · cases lhs with
    | root index => cases howner
    | member owner' index =>
      obtain rfl := Option.some.inj howner
      obtain ⟨left, hobject, -⟩ := exists_of_m_object_member hleft
      rw [hobject]
      exact Option.some_ne_none left

include hacc hlhs hrelease in
/-- The object of the left `refPtr` is deleted first, if any is, and so it is deleted already when
the left `refPtr` is destroyed. -/
theorem release_object_of_falls (hfalls : ¬(h.write lhs none).Outlives [object] lhs) :
    h.release [object] = none := by
  cases lhs with
  | root index => exact absurd nofun hfalls
  | member owner index =>
    have hempty : (h.write (.member owner index) none).m_object (.member owner index) = some none :=
      m_object_write_self hlhs
    have hback := write_write hlhs none object
    rw [write_m_object hlhs] at hback
    have hdead : after.object? owner = none := by
      by_contra hlive
      refine hfalls (((hacc.write_null hlhs).outlives_iff hrelease hempty).mpr ?_)
      rw [(hacc.write_null hlhs).m_object_release hrelease, if_neg, hempty]
      rintro ⟨owner', howner, hdead⟩
      obtain rfl := Option.some.inj howner
      exact hlive hdead
    obtain ⟨left, hleft, hmember⟩ := exists_of_m_object_member hempty
    have hindex : index < ((h.write (.member owner index) none).members owner).length := by
      rw [members_of_object? hleft]
      exact (List.getElem?_eq_some_iff.mp hmember).1
    generalize h.write (.member owner index) none = start at hrelease hleft hindex hback
    subst hback
    cases object with
    | none =>
      rw [release_null, release_nil, Option.some_inj] at hrelease
      rw [hrelease, hdead] at hleft
      cases hleft
    | some o =>
      by_cases hself : o = owner
      · exact release_write_of_deleted hrelease hindex hdead (.inr hself)
      · cases hobject : start.object? o with
        | none =>
          rw [release_deleted [] hobject] at hrelease
          cases hrelease
        | some released =>
          by_cases hcount : released.m_refCount - 1 = 0
          · rw [release_last [] hobject hcount] at hrelease
            have hne : (Place.member owner index).owner ≠ some o :=
              fun heq ↦ hself (Option.some.inj heq).symm
            obtain ⟨hkeep, hdelete⟩ := write_delete (some o) hne
            rw [release_last [] (hkeep.trans hobject) hcount, hdelete]
            refine release_write_of_deleted hrelease ?_ hdead (.inl ?_)
            · exact (start.members_put_of_ne none (Ne.symm hself)).symm ▸ hindex
            · exact start.object?_delete_self (lt_length_of_object? hobject)
          · rw [release_held [] hobject hcount, release_nil, Option.some_inj] at hrelease
            subst hrelease
            rw [start.object?_put_of_ne _ (Ne.symm hself), hleft] at hdead
            cases hdead

theorem place_ne (hlhs : h.m_object lhs = some object) (hrhs : h.m_object rhs = some other)
    (hne : object ≠ other) : rhs ≠ lhs := by
  rintro rfl
  exact hne (Option.some.inj (hlhs.symm.trans hrhs))

theorem assign_of_ne (hlhs : h.m_object lhs = some object) (hrhs : h.m_object rhs = some other)
    (hne : object ≠ other) :
    h.assign lhs rhs = (h.release [object]).bind fun released ↦
      (released.m_object rhs).bind fun pointer ↦
        (released.store lhs pointer).bind (·.RefIncrement pointer) := by
  rw [assign, hlhs, hrhs]
  exact if_pos hne

include hacc hlhs hrelease in
/-- `operator=` does with the left `refPtr` what it would do if that were `NULL` from the start. -/
theorem assign_eq (hrhs : h.m_object rhs = some other) (hne : object ≠ other)
    (hlast : (h.write lhs none).Outlives [object] lhs)
    (hkeeps : (h.write lhs none).Outlives [object] rhs) :
    h.assign lhs rhs = (after.RefIncrement other).map (·.write lhs other) := by
  have hnull := hacc.write_null hlhs
  have hplaces := place_ne hlhs hrhs hne
  have hleft := (hnull.outlives_iff hrelease (m_object_write_self hlhs)).mp hlast
  have hright := (hnull.outlives_iff hrelease ((m_object_write_of_ne hplaces).trans hrhs)).mp hkeeps
  rw [assign_of_ne hlhs hrhs hne, release_object hlhs hrelease hleft, Option.bind_some,
    m_object_write_of_ne hplaces, hright, Option.bind_some, store, m_object_write_self hleft,
    Option.map_some, Option.bind_some, write_write hleft, refIncrement_write]

include hacc hlhs hrelease in
theorem assign_of_falls (hrhs : h.m_object rhs = some other) (hne : object ≠ other)
    (hfalls : ¬((h.write lhs none).Outlives [object] lhs ∧
      (h.write lhs none).Outlives [object] rhs)) : h.assign lhs rhs = none := by
  have hnull := hacc.write_null hlhs
  have hplaces := place_ne hlhs hrhs hne
  rw [assign_of_ne hlhs hrhs hne]
  by_cases hlast : (h.write lhs none).Outlives [object] lhs
  · have hleft := (hnull.outlives_iff hrelease (m_object_write_self hlhs)).mp hlast
    have hgone := fun hkeeps ↦ hfalls ⟨hlast, hkeeps⟩
    have hplace : (h.write lhs none).m_object rhs = some other :=
      (m_object_write_of_ne hplaces).trans hrhs
    have hnone : after.m_object rhs = none := by
      have hright : after.m_object rhs = if _ then none else _ := hnull.m_object_release hrelease
      rw [hnull.outlives_iff hrelease hplace, hright] at hgone
      split at hgone
      · next hdead => rw [hright, if_pos hdead]
      · exact absurd hplace hgone
    rw [release_object hlhs hrelease hleft, Option.bind_some, m_object_write_of_ne hplaces, hnone]
    rfl
  · rw [release_object_of_falls hacc hlhs hrelease hlast]
    rfl

include hacc hlhs hrelease in
/-- Where `operator=` has a result, it is exact. -/
theorem countsExactly_of_refIncrement (hleft : after.m_object lhs = some none)
    (hright : after.m_object rhs = some other) {counted : Heap}
    (hincrement : after.RefIncrement other = some counted) :
    h.CountsExactly (some (counted.write lhs other)) := by
  have hnull := hacc.write_null hlhs
  have hcounted := (hnull.release hrelease).refIncrement hincrement
  have hplace := (m_object_refIncrement hincrement lhs).trans hleft
  refine ⟨_, rfl, accounts_null.mp (hcounted.exchange hplace), fun o hlive ↦ ?_⟩
  have hdeletes := hnull.deletes_iff hrelease (object?_write_eq_none.not.mpr hlive)
  have hbefore := references_write (o := o) none hlhs
  have hafter := references_write (o := o) other hplace
  rw [count_null, List.count_nil] at hbefore hafter
  rw [references_refIncrement hincrement] at hafter
  rw [object?_write_eq_none, object?_refIncrement hincrement, hdeletes]
  by_cases hother : other = some o
  · have hpos := references_pos_of_m_object (hright.trans (congrArg some hother))
    omega
  · rw [List.count_singleton, if_neg (by simpa using hother)] at hafter
    omega

end Assigning

/-- What `operator=` with two different objects asks for: neither of the objects that have the two
`refPtr`s as members falls with the left object, and one more pointer to the right object can be
counted. -/
def Assignable (h : Heap) (lhs rhs : Place) : Prop :=
  ∀ object other, h.m_object lhs = some object → h.m_object rhs = some other → object ≠ other →
    ((h.write lhs none).Outlives [object] lhs ∧ (h.write lhs none).Outlives [object] rhs) ∧
      ∀ o, other = some o → (h.write lhs none).survivors [object] o < 2 ^ 31 - 1

theorem survivors_le_references (h : Heap) (stack : List Pointer) (o : ℕ) :
    h.survivors stack o ≤ h.references o := by
  refine Nat.add_le_add_left (Finset.sum_le_sum fun owner _ ↦ ?_) _
  split_ifs
  · exact Nat.zero_le _
  · exact le_rfl

/-- Variables are members of no object, so nothing but the count stands against an assignment of
one to another. -/
theorem assignable_root (left right : ℕ)
    (hfits : ∀ o, h.m_object (.root right) = some (some o) →
      (h.write (.root left) none).references o < 2 ^ 31 - 1) :
    h.Assignable (.root left) (.root right) := by
  intro object other hlhs hrhs hne
  refine ⟨⟨nofun, nofun⟩, fun o ho ↦ ?_⟩
  exact (survivors_le_references _ _ o).trans_lt (hfits o (ho ▸ hrhs))

theorem assignable_iff (hexact : h.Exact) {lhs rhs : Place} {object other : Pointer} {after : Heap}
    (hlhs : h.m_object lhs = some object) (hrhs : h.m_object rhs = some other)
    (hne : object ≠ other) (hrelease : (h.write lhs none).release [object] = some after) :
    h.Assignable lhs rhs ↔
      ((h.write lhs none).Outlives [object] lhs ∧ (h.write lhs none).Outlives [object] rhs) ∧
        ∀ o, other = some o → after.references o < 2 ^ 31 - 1 := by
  have hsurvivors := (Accounts.write_null hexact hlhs).references_release hrelease
  constructor
  · intro hassignable
    obtain ⟨houtlive, hfits⟩ := hassignable object other hlhs hrhs hne
    exact ⟨houtlive, fun o ho ↦ (hsurvivors o).symm ▸ hfits o ho⟩
  · rintro ⟨houtlive, hfits⟩ object' other' hobject hother -
    obtain rfl := Option.some.inj (hlhs.symm.trans hobject)
    obtain rfl := Option.some.inj (hrhs.symm.trans hother)
    exact ⟨houtlive, fun o ho ↦ hsurvivors o ▸ hfits o ho⟩

/-- An operation that changes nothing is exact. -/
theorem Exact.refl (hexact : h.Exact) : h.CountsExactly (some h) :=
  ⟨h, rfl, hexact, fun _ hlive ↦ iff_of_false hlive (by omega)⟩

theorem not_countsExactly_none : ¬h.CountsExactly none :=
  fun ⟨_, hsome, _⟩ ↦ nomatch hsome

/-- `operator=` is exact precisely when it has what it asks for. -/
theorem Exact.assign_iff (hexact : h.Exact) {lhs rhs : Place} {object other : Pointer}
    (hlhs : h.m_object lhs = some object) (hrhs : h.m_object rhs = some other) :
    h.CountsExactly (h.assign lhs rhs) ↔ h.Assignable lhs rhs := by
  by_cases hne : object = other
  · have hassign : h.assign lhs rhs = some h := by
      rw [assign, hlhs, hrhs]
      exact if_neg (not_not_intro hne)
    rw [hassign]
    refine iff_of_true hexact.refl fun object' other' hobject hother hne' ↦ ?_
    rw [hlhs, Option.some_inj] at hobject
    rw [hrhs, Option.some_inj] at hother
    exact absurd (hobject ▸ hother ▸ hne) hne'
  · have hnull := Accounts.write_null hexact hlhs
    have hplaces := place_ne hlhs hrhs hne
    obtain ⟨after, hrelease, hafter, -⟩ := hnull.exists_release _ _ hnull (.refl _ _)
    rw [assignable_iff hexact hlhs hrhs hne hrelease]
    by_cases houtlive :
        (h.write lhs none).Outlives [object] lhs ∧ (h.write lhs none).Outlives [object] rhs
    · obtain ⟨hlast, hkeeps⟩ := houtlive
      have hleft := (hnull.outlives_iff hrelease (m_object_write_self hlhs)).mp hlast
      have hright :=
        (hnull.outlives_iff hrelease ((m_object_write_of_ne hplaces).trans hrhs)).mp hkeeps
      have hlive (o : ℕ) (ho : other = some o) : after.object? o ≠ none :=
        hafter.live o (Nat.add_pos_left (references_pos_of_m_object (ho ▸ hright)) _)
      rw [and_iff_right ⟨hlast, hkeeps⟩, ← hafter.refIncrement_isSome_iff hlive,
        assign_eq hexact hlhs hrelease hrhs hne hlast hkeeps]
      cases hincrement : after.RefIncrement other with
      | none => exact iff_of_false not_countsExactly_none nofun
      | some counted =>
        exact iff_of_true
          (countsExactly_of_refIncrement hexact hlhs hrelease hleft hright hincrement) rfl
    · rw [assign_of_falls hexact hlhs hrelease hrhs hne houtlive]
      exact iff_of_false not_countsExactly_none fun hall ↦ houtlive hall.1

end Heap

end RdbLibs.Other.RefPtr
