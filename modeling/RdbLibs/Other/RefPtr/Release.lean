import RdbLibs.Other.RefPtr.Model

/-!
# Releasing objects

`Accounts` says that every count is the number of the pointers to the object, those that are still
to be released among them, and that no pointer is to a deleted object. From there `release` always
has a result, and what it leaves is accounted for (`Accounts.exists_release`). What it deletes are
the objects that `Falls` with the pointers to release: those that are pointed to, but only by such
pointers and by members of objects that fall.
-/

set_option autoImplicit false
set_option relaxedAutoImplicit false

namespace RdbLibs.Other.RefPtr

namespace Heap

/-- The number of the `refPtr`s to an object. -/
def references (h : Heap) (o : ℕ) : ℕ :=
  h.roots.count (some (some o)) +
    ∑ owner ∈ Finset.range h.objects.length, (h.members owner).count (some o)

/-- Every count is the number of pointers to the object, and every pointer is to an object. What is
deleted was deleted once. -/
structure Accounts (h : Heap) (stack : List Pointer) : Prop where
  count : ∀ o object, h.object? o = some object →
    object.m_refCount = h.references o + stack.count (some o)
  live : ∀ o, 0 < h.references o + stack.count (some o) → h.object? o ≠ none
  deleted : ∀ o, o ∈ h.deletions ↔ o < h.objects.length ∧ h.object? o = none
  once : h.deletions.Nodup

/-- No pointer is left to be released. -/
def Exact (h : Heap) : Prop := h.Accounts []

/-- What is deleted is what was pointed to and is pointed to no more. -/
def DeletesExactly (before after : Heap) : Prop :=
  ∀ o, before.object? o ≠ none →
    (after.object? o = none ↔ 0 < before.references o ∧ after.references o = 0)

/-- A result that is exact again, where what was deleted is what is pointed to no more. -/
def CountsExactly (before : Heap) (result : Option Heap) : Prop :=
  ∃ after, result = some after ∧ after.Exact ∧ before.DeletesExactly after

/-- The objects that fall with the pointers to release. -/
inductive Falls (h : Heap) (stack : List Pointer) : ℕ → Prop
  | intro (o : ℕ) (hheld : 0 < h.references o + stack.count (some o))
      (hroots : some (some o) ∉ h.roots)
      (hmembers : ∀ owner, some o ∈ h.members owner → Falls h stack owner) : Falls h stack o

/-! ### References -/

variable {h : Heap} {o owner : ℕ} {stack : List Pointer}

theorem references_put (object : Option refCountBase) (howner : owner < h.objects.length) :
    (h.put owner object).references o + (h.members owner).count (some o) =
      h.references o + ((object.map refCountBase.members).getD []).count (some o) := by
  have hsum := sum_members_put object (List.count (some o)) howner
  rw [references, references, length_objects_put, roots_put]
  omega

/-- A change of counts changes no references. -/
theorem references_put_members {object : refCountBase} (other : refCountBase)
    (hobject : h.object? owner = some object) (hmembers : other.members = object.members) :
    (h.put owner (some other)).references o = h.references o := by
  have hput := references_put (o := o) (some other) (lt_length_of_object? hobject)
  rw [members_of_object? hobject, Option.map_some, Option.getD_some, hmembers] at hput
  exact Nat.add_right_cancel hput

theorem references_delete {object : refCountBase} (hobject : h.object? owner = some object) :
    (h.delete owner).references o + object.members.count (some o) = h.references o := by
  have hput := references_put (o := o) none (lt_length_of_object? hobject)
  rw [members_of_object? hobject] at hput
  exact hput

theorem references_pos_of_root (hroot : some (some o) ∈ h.roots) : 0 < h.references o :=
  Nat.lt_of_lt_of_le (List.count_pos_iff.mpr hroot) (Nat.le_add_right _ _)

theorem references_pos_of_member (hmember : some o ∈ h.members owner) : 0 < h.references o := by
  have howner : owner ∈ Finset.range h.objects.length := by
    rw [Finset.mem_range]
    by_contra hlength
    have hnone : h.object? owner = none := by
      cases hobject : h.object? owner with
      | none => rfl
      | some object => exact absurd (lt_length_of_object? hobject) hlength
    rw [members_of_none hnone] at hmember
    cases hmember
  have hle := Finset.single_le_sum (f := fun owner ↦ (h.members owner).count (some o))
    (fun _ _ ↦ Nat.zero_le _) howner
  have hpos : 0 < (h.members owner).count (some o) := List.count_pos_iff.mpr hmember
  exact Nat.lt_of_lt_of_le hpos (hle.trans (Nat.le_add_left _ _))

theorem references_pos_of_m_object {place : Place} (hplace : h.m_object place = some (some o)) :
    0 < h.references o := by
  cases place with
  | root index =>
    exact references_pos_of_root (List.mem_of_getElem? (Option.join_eq_some_iff.mp hplace))
  | member owner index => exact references_pos_of_member (List.mem_of_getElem? hplace)

/-- A reference is a root, or a member of an object. -/
theorem exists_of_references_pos (hpos : 0 < h.references o) :
    some (some o) ∈ h.roots ∨ ∃ owner, some o ∈ h.members owner := by
  by_contra! hnone
  have hroots : h.roots.count (some (some o)) = 0 := List.count_eq_zero.mpr hnone.1
  have hmembers : ∑ owner ∈ Finset.range h.objects.length, (h.members owner).count (some o) = 0 :=
    Finset.sum_eq_zero fun owner _ ↦ List.count_eq_zero.mpr (hnone.2 owner)
  rw [references] at hpos
  omega

/-! ### One release -/

theorem object?_delete_self (h : Heap) (ho : o < h.objects.length) :
    (h.delete o).object? o = none := h.object?_put_self none ho

theorem object?_delete_of_ne (h : Heap) {other : ℕ} (hne : other ≠ o) :
    (h.delete o).object? other = h.object? other := h.object?_put_of_ne none hne

/-- Pointers that move between a heap and the stack stay accounted for. -/
theorem Accounts.transfer (hacc : h.Accounts stack) {after : Heap} {stack' : List Pointer}
    (hcounts : ∀ o object', after.object? o = some object' →
      ∃ object, h.object? o = some object ∧ object'.m_refCount = object.m_refCount)
    (hlive : ∀ o, after.object? o = none ↔ h.object? o = none)
    (hlength : after.objects.length = h.objects.length) (hdeletions : after.deletions = h.deletions)
    (htotal : ∀ o, after.references o + stack'.count (some o) =
      h.references o + stack.count (some o)) : after.Accounts stack' := by
  refine ⟨fun o object' hobject' ↦ ?_, fun o hpos ↦ ?_, fun o ↦ ?_, hdeletions ▸ hacc.once⟩
  · obtain ⟨object, hobject, hsame⟩ := hcounts o object' hobject'
    have hcount := hacc.count o object hobject
    have := htotal o
    omega
  · exact (hlive o).not.mpr (hacc.live o (htotal o ▸ hpos))
  · rw [hdeletions, hacc.deleted, hlength, hlive]

/-- A count changes with the number of pointers that are to be released. -/
theorem Accounts.recount {object : refCountBase} (hacc : h.Accounts stack)
    (hobject : h.object? o = some object) (count : ℤ) {stack' : List Pointer}
    (hself : count + stack.count (some o) = object.m_refCount + stack'.count (some o))
    (hothers : ∀ other, other ≠ o → stack'.count (some other) = stack.count (some other)) :
    (h.put o (some { object with m_refCount := count })).Accounts stack' := by
  have hlength := lt_length_of_object? hobject
  have hreferences (other : ℕ) :=
    references_put_members (o := other) { object with m_refCount := count } hobject rfl
  refine ⟨fun other object' hother ↦ ?_, fun other hpos ↦ ?_, fun other ↦ ?_, hacc.once⟩
  · rw [hreferences]
    by_cases hsame : other = o
    · subst hsame
      rw [h.object?_put_self _ hlength, Option.some_inj] at hother
      have hcount := hacc.count other object hobject
      rw [← hother]
      show count = _
      omega
    · rw [h.object?_put_of_ne _ hsame] at hother
      rw [hothers other hsame]
      exact hacc.count other object' hother
  · refine (object?_put_eq_none _ hobject other).not.mpr ?_
    by_cases hsame : other = o
    · rw [hsame, hobject]
      exact Option.some_ne_none object
    · rw [hreferences, hothers other hsame] at hpos
      exact hacc.live other hpos
  · rw [deletions_put, hacc.deleted, length_objects_put, object?_put_eq_none _ hobject]

theorem count_null (stack : List Pointer) (o : ℕ) :
    (none :: stack).count (some o) = stack.count (some o) :=
  List.count_cons_of_ne (Option.some_ne_none o).symm

theorem count_of_ne (stack : List Pointer) {other : ℕ} (hne : other ≠ o) :
    (some o :: stack).count (some other) = stack.count (some other) :=
  List.count_cons_of_ne fun heq ↦ hne (Option.some.inj heq).symm

/-- A null pointer releases nothing. -/
theorem accounts_null : h.Accounts (none :: stack) ↔ h.Accounts stack := by
  have htotal (o : ℕ) := congrArg (h.references o + ·) (count_null stack o)
  exact ⟨fun hacc ↦ hacc.transfer (fun _ object hobject ↦ ⟨object, hobject, rfl⟩)
      (fun _ ↦ Iff.rfl) rfl rfl fun o ↦ (htotal o).symm,
    fun hacc ↦ hacc.transfer (fun _ object hobject ↦ ⟨object, hobject, rfl⟩)
      (fun _ ↦ Iff.rfl) rfl rfl htotal⟩

/-- A count that is incremented has one pointer more. -/
theorem Accounts.increment {object : refCountBase} (hacc : h.Accounts stack)
    (hobject : h.object? o = some object) :
    (h.put o (some { object with m_refCount := object.m_refCount + 1 })).Accounts
      (some o :: stack) := by
  refine hacc.recount hobject _ ?_ fun other hne ↦ count_of_ne stack hne
  rw [List.count_cons_self]
  omega

section One

variable {object : refCountBase} (hacc : h.Accounts (some o :: stack))
  (hobject : h.object? o = some object)
include hacc hobject

/-- A released object that is still pointed to has one pointer less. -/
theorem Accounts.decrement :
    (h.put o (some { object with m_refCount := object.m_refCount - 1 })).Accounts stack := by
  refine hacc.recount hobject _ ?_ fun other hne ↦ (count_of_ne stack hne).symm
  rw [List.count_cons_self]
  omega

/-- No pointer is left to an object with the count one, but the one that releases it. -/
theorem Accounts.count_one (hone : object.m_refCount = 1) :
    h.references o = 0 ∧ stack.count (some o) = 0 := by
  have hcount := hacc.count o object hobject
  rw [List.count_cons_self] at hcount
  omega

/-- A released object that is pointed to no more is deleted, and its members are released next. -/
theorem Accounts.delete (hone : object.m_refCount = 1) :
    (h.delete o).Accounts (object.members.reverse ++ stack) := by
  have hlength := lt_length_of_object? hobject
  obtain ⟨hnone, hstack⟩ := hacc.count_one hobject hone
  have hmembers : object.members.count (some o) = 0 := by
    have := references_delete (o := o) hobject
    omega
  have hreferences (other : ℕ) := references_delete (o := other) hobject
  have hpending (other : ℕ) : (object.members.reverse ++ stack).count (some other) =
      object.members.count (some other) + stack.count (some other) := by
    rw [List.count_append, List.count_reverse]
  refine ⟨fun other object' hother ↦ ?_, fun other hpos ↦ ?_, fun other ↦ ?_, ?_⟩
  · have hne : other ≠ o := (ne_of_object? (h.object?_delete_self hlength) hother).symm
    rw [h.object?_delete_of_ne hne] at hother
    have hcount := hacc.count other object' hother
    rw [count_of_ne stack hne] at hcount
    have := hreferences other
    rw [hpending]
    omega
  · have := hreferences other
    rw [hpending] at hpos
    have hne : other ≠ o := by
      rintro rfl
      omega
    rw [h.object?_delete_of_ne hne]
    refine hacc.live other ?_
    rw [count_of_ne stack hne]
    omega
  · show other ∈ h.deletions ++ [o] ↔ other < (h.put o none).objects.length ∧ _
    rw [List.mem_append, hacc.deleted, List.mem_singleton, length_objects_put]
    by_cases hsame : other = o
    · subst hsame
      simp [h.object?_delete_self hlength, hlength]
    · simp [h.object?_delete_of_ne hsame, hsame]
  · refine List.nodup_append.mpr ⟨hacc.once, List.nodup_singleton o, ?_⟩
    rintro other hother _ hsingle rfl
    obtain rfl := List.mem_singleton.mp hsingle
    rw [((hacc.deleted other).mp hother).2] at hobject
    cases hobject

end One

/-! ### The whole release -/

/-- What releasing some pointers has made of a heap: the variables are the same, an object that is
left has its members, and a count only if it had one, and what is deleted falls. -/
structure Reached (start : Heap) (stack : List Pointer) (h : Heap) : Prop where
  roots : h.roots = start.roots
  length : h.objects.length = start.objects.length
  kept : ∀ o object, h.object? o = some object → ∃ old, start.object? o = some old ∧
    object.members = old.members ∧ object.m_refCount ≤ old.m_refCount ∧
    (0 < old.m_refCount → 0 < object.m_refCount)
  fallen : ∀ o, start.object? o ≠ none → h.object? o = none → start.Falls stack o

theorem Reached.refl (h : Heap) (stack : List Pointer) : h.Reached stack h :=
  ⟨rfl, rfl, fun _ object hobject ↦ ⟨object, hobject, rfl, le_rfl, id⟩,
    fun _ hlive hdead ↦ absurd hdead hlive⟩

section Reaching

variable {start : Heap} {released : List Pointer} {object : refCountBase}
  (hreached : start.Reached released h) (hobject : h.object? o = some object)
include hreached hobject

theorem Reached.decrement (hcount : object.m_refCount - 1 ≠ 0) :
    start.Reached released
      (h.put o (some { object with m_refCount := object.m_refCount - 1 })) := by
  have hlength := lt_length_of_object? hobject
  refine ⟨hreached.roots, (length_objects_put h _).trans hreached.length,
    fun other object' hother ↦ ?_, fun other hlive hdead ↦ ?_⟩
  · by_cases hsame : other = o
    · subst hsame
      rw [h.object?_put_self _ hlength, Option.some_inj] at hother
      subst hother
      obtain ⟨old, hold, hmembers, hle, hpos⟩ := hreached.kept other object hobject
      refine ⟨old, hold, hmembers, ?_, fun h ↦ ?_⟩
      · show object.m_refCount - 1 ≤ old.m_refCount
        omega
      · have := hpos h
        show 0 < object.m_refCount - 1
        omega
    · rw [h.object?_put_of_ne _ hsame] at hother
      exact hreached.kept other object' hother
  · exact hreached.fallen other hlive ((object?_put_eq_none _ hobject other).mp hdead)

/-- An object that is deleted has no root, and every object that had it as a member was deleted
before. -/
theorem Reached.falls (hstart : start.Accounts released) (hone : object.m_refCount = 1)
    (hnone : h.references o = 0) : start.Falls released o := by
  obtain ⟨old, hold, -, hle, -⟩ := hreached.kept o object hobject
  refine .intro o ?_ (fun hroot ↦ ?_) fun owner howner ↦ ?_
  · have := hstart.count o old hold
    omega
  · rw [← hreached.roots] at hroot
    have := references_pos_of_root hroot
    omega
  · refine hreached.fallen owner (fun hdead ↦ ?_) ?_
    · rw [members_of_none hdead] at howner
      cases howner
    · by_contra hlive
      obtain ⟨object', hobject'⟩ := Option.ne_none_iff_exists'.mp hlive
      obtain ⟨old', hold', hmembers, -⟩ := hreached.kept owner object' hobject'
      rw [members_of_object? hold', ← hmembers, ← members_of_object? hobject'] at howner
      have := references_pos_of_member howner
      omega

theorem Reached.delete (hfalls : start.Falls released o) : start.Reached released (h.delete o) := by
  have hlength := lt_length_of_object? hobject
  refine ⟨hreached.roots, (length_objects_put h _).trans hreached.length,
    fun other object' hother ↦ ?_, fun other hlive hdead ↦ ?_⟩
  · have hne : other ≠ o := (ne_of_object? (h.object?_delete_self hlength) hother).symm
    rw [h.object?_delete_of_ne hne] at hother
    exact hreached.kept other object' hother
  · by_cases hsame : other = o
    · exact hsame ▸ hfalls
    · rw [h.object?_delete_of_ne hsame] at hdead
      exact hreached.fallen other hlive hdead

end Reaching

/-- Assumes: all pointers are accounted for. Releasing some of them has a result, where all the
others are. -/
theorem Accounts.exists_release {start : Heap} {released : List Pointer}
    (hstart : start.Accounts released) :
    ∀ (h : Heap) (stack : List Pointer), h.Accounts stack → start.Reached released h →
      ∃ after, h.release stack = some after ∧ after.Accounts [] ∧ start.Reached released after := by
  intro h stack
  induction h, stack using release.induct with
  | case1 h =>
    intro hacc hreached
    exact ⟨h, h.release_nil, hacc, hreached⟩
  | case2 h stack ih =>
    intro hacc hreached
    rw [release_null]
    exact ih (accounts_null.mp hacc) hreached
  | case3 h o stack hdead =>
    intro hacc _
    refine absurd hdead (hacc.live o ?_)
    rw [List.count_cons_self]
    omega
  | case4 h o stack object hobject hcount ih =>
    intro hacc hreached
    have hone : object.m_refCount = 1 := by omega
    have hfalls := hreached.falls hobject hstart hone (hacc.count_one hobject hone).1
    obtain ⟨after, hafter, hend⟩ :=
      ih (hacc.delete hobject hone) (hreached.delete hobject hfalls)
    exact ⟨after, (release_last stack hobject hcount).trans hafter, hend⟩
  | case5 h o stack object hobject hcount ih =>
    intro hacc hreached
    obtain ⟨after, hafter, hend⟩ :=
      ih (hacc.decrement hobject) (hreached.decrement hobject hcount)
    exact ⟨after, (release_held stack hobject hcount).trans hafter, hend⟩

section After

variable {after : Heap} (hacc : h.Accounts stack) (hrelease : h.release stack = some after)
include hacc hrelease

theorem Accounts.release : after.Accounts [] := by
  obtain ⟨after', hafter', hend, -⟩ := hacc.exists_release h stack hacc (.refl h stack)
  rw [hrelease, Option.some_inj] at hafter'
  exact hafter' ▸ hend

theorem Accounts.reached : h.Reached stack after := by
  obtain ⟨after', hafter', -, hreached⟩ := hacc.exists_release h stack hacc (.refl h stack)
  rw [hrelease, Option.some_inj] at hafter'
  exact hafter' ▸ hreached

theorem Accounts.members_release (owner : ℕ) :
    after.members owner = if after.object? owner = none then [] else h.members owner := by
  split
  · next hdead => exact members_of_none hdead
  · next hlive =>
    obtain ⟨object, hobject⟩ := Option.ne_none_iff_exists'.mp hlive
    obtain ⟨old, hold, hmembers, -⟩ := (hacc.reached hrelease).kept owner object hobject
    rw [members_of_object? hobject, hmembers, members_of_object? hold]

/-- What is pointed to no more, of what was pointed to, is deleted, and nothing else is. -/
theorem Accounts.deletes_iff (hlive : h.object? o ≠ none) :
    after.object? o = none ↔
      0 < h.references o + stack.count (some o) ∧ after.references o = 0 := by
  obtain ⟨old, hold⟩ := Option.ne_none_iff_exists'.mp hlive
  constructor
  · intro hdead
    constructor
    · cases (hacc.reached hrelease).fallen o hlive hdead with
      | intro _ hheld _ _ => exact hheld
    · by_contra hreferences
      exact (hacc.release hrelease).live o (Nat.add_pos_left (Nat.pos_of_ne_zero hreferences) _)
        hdead
  · rintro ⟨hheld, hreferences⟩
    by_contra hleft
    obtain ⟨object, hobject⟩ := Option.ne_none_iff_exists'.mp hleft
    obtain ⟨old', hold', -, -, hpos⟩ := (hacc.reached hrelease).kept o object hobject
    obtain rfl : old = old' := Option.some.inj (hold.symm.trans hold')
    have hold := hacc.count o old hold
    have hcount := (hacc.release hrelease).count o object hobject
    rw [List.count_nil] at hcount
    omega

/-- What falls is deleted: by induction on why it falls, no pointer to it is left. -/
theorem Accounts.deleted_of_falls (hfalls : h.Falls stack o) : after.object? o = none := by
  induction hfalls with
  | intro o hheld hroots _ ih =>
    refine (hacc.deletes_iff hrelease (hacc.live o hheld)).mpr ⟨hheld, ?_⟩
    by_contra hreferences
    obtain hroot | ⟨owner, hmember⟩ :=
      exists_of_references_pos (Nat.pos_of_ne_zero hreferences)
    · exact hroots ((hacc.reached hrelease).roots ▸ hroot)
    · rw [hacc.members_release hrelease] at hmember
      split at hmember
      · cases hmember
      · next hlive => exact hlive (ih owner hmember)

theorem Accounts.deleted_iff_falls (hlive : h.object? o ≠ none) :
    after.object? o = none ↔ h.Falls stack o :=
  ⟨(hacc.reached hrelease).fallen o hlive, hacc.deleted_of_falls hrelease⟩

end After

/-- What is deleted stays so. -/
theorem release_keeps_deleted (hdead : h.object? o = none) {after : Heap}
    (hrelease : h.release stack = some after) : after.object? o = none := by
  induction h, stack using release.induct with
  | case1 h =>
    obtain rfl := Option.some.inj (h.release_nil.symm.trans hrelease)
    exact hdead
  | case2 h stack ih => exact ih hdead (by rwa [release_null] at hrelease)
  | case3 h other stack hother =>
    rw [release_deleted stack hother] at hrelease
    cases hrelease
  | case4 h other stack object hobject hcount ih =>
    rw [release_last stack hobject hcount] at hrelease
    have hne := ne_of_object? hdead hobject
    exact ih ((h.object?_delete_of_ne hne).trans hdead) hrelease
  | case5 h other stack object hobject hcount ih =>
    rw [release_held stack hobject hcount] at hrelease
    have hne := ne_of_object? hdead hobject
    exact ih ((h.object?_put_of_ne _ hne).trans hdead) hrelease

/-- A pointer to a deleted object is never released. -/
theorem release_of_deleted (hdead : h.object? o = none) (hmem : some o ∈ stack) :
    h.release stack = none := by
  induction h, stack using release.induct with
  | case1 h => cases hmem
  | case2 h stack ih =>
    rw [release_null]
    exact ih hdead ((List.mem_cons.mp hmem).resolve_left (Option.some_ne_none o))
  | case3 h other stack hother => exact release_deleted stack hother
  | case4 h other stack object hobject hcount ih =>
    rw [release_last stack hobject hcount]
    have hne := ne_of_object? hdead hobject
    refine ih ((h.object?_delete_of_ne hne).trans hdead) (List.mem_append_right _ ?_)
    exact (List.mem_cons.mp hmem).resolve_left fun heq ↦ hne (Option.some.inj heq)
  | case5 h other stack object hobject hcount ih =>
    rw [release_held stack hobject hcount]
    have hne := ne_of_object? hdead hobject
    refine ih ((h.object?_put_of_ne _ hne).trans hdead) ?_
    exact (List.mem_cons.mp hmem).resolve_left fun heq ↦ hne (Option.some.inj heq)

/-! ### Counting a pointer -/

section Increment

variable {pointer : Pointer} {after : Heap}

/-- What `RefIncrement` does: nothing to `NULL`, and to an object, that its count is incremented. -/
theorem refIncrement_cases (hincrement : h.RefIncrement pointer = some after) :
    (pointer = none ∧ after = h) ∨ ∃ o object, pointer = some o ∧ h.object? o = some object ∧
      after = h.put o (some { object with m_refCount := object.m_refCount + 1 }) := by
  cases pointer with
  | none => exact .inl ⟨rfl, (Option.some.inj hincrement).symm⟩
  | some o =>
    obtain ⟨object, hobject, hresult⟩ := Option.bind_eq_some_iff.mp hincrement
    split at hresult
    · exact .inr ⟨o, object, rfl, hobject, (Option.some.inj hresult).symm⟩
    · cases hresult

theorem Accounts.refIncrement (hacc : h.Accounts stack)
    (hincrement : h.RefIncrement pointer = some after) : after.Accounts (pointer :: stack) := by
  obtain ⟨rfl, rfl⟩ | ⟨o, object, rfl, hobject, rfl⟩ := refIncrement_cases hincrement
  · exact accounts_null.mpr hacc
  · exact hacc.increment hobject

theorem references_refIncrement (hincrement : h.RefIncrement pointer = some after) (o : ℕ) :
    after.references o = h.references o := by
  obtain ⟨rfl, rfl⟩ | ⟨counted, object, rfl, hobject, rfl⟩ := refIncrement_cases hincrement
  · rfl
  · exact references_put_members _ hobject rfl

theorem m_object_refIncrement (hincrement : h.RefIncrement pointer = some after) (place : Place) :
    after.m_object place = h.m_object place := by
  obtain ⟨rfl, rfl⟩ | ⟨o, object, rfl, hobject, rfl⟩ := refIncrement_cases hincrement
  · rfl
  · cases place with
    | root index => rfl
    | member owner index => rw [m_object, m_object, members_put_count _ hobject]

theorem object?_refIncrement (hincrement : h.RefIncrement pointer = some after) (o : ℕ) :
    after.object? o = none ↔ h.object? o = none := by
  obtain ⟨rfl, rfl⟩ | ⟨counted, object, rfl, hobject, rfl⟩ := refIncrement_cases hincrement
  · rfl
  · exact object?_put_eq_none _ hobject o

/-- A count that fits is incremented. -/
theorem Accounts.refIncrement_isSome_iff (hacc : h.Accounts [])
    (hlive : ∀ o, pointer = some o → h.object? o ≠ none) :
    (h.RefIncrement pointer).isSome ↔ ∀ o, pointer = some o → h.references o < 2 ^ 31 - 1 := by
  cases pointer with
  | none => exact iff_of_true rfl nofun
  | some o =>
    obtain ⟨object, hobject⟩ := Option.ne_none_iff_exists'.mp (hlive o rfl)
    have hcount := hacc.count o object hobject
    rw [List.count_nil] at hcount
    have hresult : h.RefIncrement (some o) = if object.m_refCount < 2 ^ 31 - 1 then
        some (h.put o (some { object with m_refCount := object.m_refCount + 1 })) else none := by
      rw [RefIncrement, hobject]
      rfl
    rw [hresult]
    constructor
    · intro hsome other hother
      obtain rfl := Option.some.inj hother
      split at hsome
      · omega
      · cases hsome
    · intro hfits
      have := hfits o rfl
      rw [if_pos (by omega)]
      rfl

end Increment

end Heap

end RdbLibs.Other.RefPtr
