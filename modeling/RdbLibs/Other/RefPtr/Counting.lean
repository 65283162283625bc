import RdbLibs.Foundations.Runs
import RdbLibs.Other.RefPtr.Assignment

/-!
# Reference counting

Whether a program's counts are exact: after every operation each count is the number of the
`refPtr`s to the object, what is deleted is what is pointed to no more, and it was deleted once.
The constructors and the destructor are, from every heap that is exact, as long as a count fits
into an `int`. `operator=` releases the object on its left before it reads the pointer on its
right, so it is exact only if the object that has that `refPtr` as a member is still there
(`counting_exact_iff`).
-/

set_option autoImplicit false
set_option relaxedAutoImplicit false

namespace RdbLibs.Other.RefPtr

open Runs

namespace Heap

variable {h : Heap} {pointer : Pointer} {stack : List Pointer} {o : ℕ}

theorem deletesExactly_of_le {after : Heap}
    (hlive : ∀ o, h.object? o ≠ none → after.object? o ≠ none)
    (hreferences : ∀ o, h.references o ≤ after.references o) : h.DeletesExactly after := by
  intro o ho
  refine iff_of_false (hlive o ho) ?_
  have := hreferences o
  omega

/-! ### Objects that are created -/

theorem object?_create_self (h : Heap) (members : ℕ) :
    (h.create members).object? h.objects.length = some ⟨0, List.replicate members none⟩ := by
  simp [object?, create]

theorem object?_create_of_ne (h : Heap) (members : ℕ) (hne : o ≠ h.objects.length) :
    (h.create members).object? o = h.object? o := by
  rw [object?, object?, create, List.getElem?_append]
  split
  · rfl
  · next hlength =>
    rw [List.getElem?_eq_none (by simp; omega), List.getElem?_eq_none (by omega)]

theorem object?_length (h : Heap) : h.object? h.objects.length = none := by
  rw [object?, List.getElem?_eq_none le_rfl]
  rfl

theorem references_create (h : Heap) (members : ℕ) (o : ℕ) :
    (h.create members).references o = h.references o := by
  have hlength : (h.create members).objects.length = h.objects.length + 1 := List.length_append
  have hself : ((h.create members).members h.objects.length).count (some o) = 0 := by
    rw [members_of_object? (h.object?_create_self members)]
    exact List.count_eq_zero.mpr fun hmem ↦ nomatch List.eq_of_mem_replicate hmem
  rw [references, references, hlength, Finset.sum_range_succ, hself,
    Nat.add_zero]
  refine congrArg _ (Finset.sum_congr rfl fun owner howner ↦ ?_)
  have hne : owner ≠ h.objects.length := (Finset.mem_range.mp howner).ne
  rw [Heap.members, h.object?_create_of_ne members hne, Heap.members]

theorem Exact.create (hexact : h.Exact) (members : ℕ) : (h.create members).Exact := by
  have hnew : h.references h.objects.length = 0 := by
    by_contra hreferences
    exact hexact.live _ (Nat.add_pos_left (Nat.pos_of_ne_zero hreferences) _) h.object?_length
  have hlength : (h.create members).objects.length = h.objects.length + 1 := List.length_append
  refine ⟨fun o object hobject ↦ ?_, fun o hpos ↦ ?_, fun o ↦ ?_, hexact.once⟩
  · rw [references_create]
    by_cases hsame : o = h.objects.length
    · subst hsame
      rw [h.object?_create_self, Option.some_inj] at hobject
      rw [← hobject, hnew]
      rfl
    · rw [h.object?_create_of_ne members hsame] at hobject
      exact hexact.count o object hobject
  · rw [references_create] at hpos
    have hne : o ≠ h.objects.length := by
      rintro rfl
      rw [hnew] at hpos
      exact absurd hpos (Nat.lt_irrefl 0)
    rw [h.object?_create_of_ne members hne]
    exact hexact.live o hpos
  · have hdeleted := hexact.deleted o
    rw [hlength]
    by_cases hsame : o = h.objects.length
    · subst hsame
      rw [h.object?_create_self]
      exact iff_of_false (fun hmem ↦ (hdeleted.mp hmem).1.ne rfl) nofun
    · rw [h.object?_create_of_ne members hsame]
      refine hdeleted.trans (and_congr_left fun _ ↦ ?_)
      omega

/-! ### Variables -/

theorem references_addRoot (h : Heap) (pointer : Pointer) (o : ℕ) :
    (h.addRoot pointer).references o = h.references o + [pointer].count (some o) := by
  have hroots : (h.addRoot pointer).references o =
      (h.roots ++ [some pointer]).count (some (some o)) +
        ∑ owner ∈ Finset.range h.objects.length, (h.members owner).count (some o) := rfl
  rw [hroots, List.count_append, count_some_some, references]
  omega

theorem references_endRoot {index : ℕ} (hroot : h.m_object (.root index) = some pointer) (o : ℕ) :
    (h.endRoot index).references o + [pointer].count (some o) = h.references o := by
  have hset := count_set none (some (some o)) (Option.join_eq_some_iff.mp hroot)
  rw [count_some_some] at hset
  have hroots : (h.endRoot index).references o = (h.roots.set index none).count (some (some o)) +
      ∑ owner ∈ Finset.range h.objects.length, (h.members owner).count (some o) := rfl
  have hnone : [(none : Option Pointer)].count (some (some o)) = 0 := rfl
  rw [hroots, references]
  omega

theorem Accounts.addRoot (hacc : h.Accounts (pointer :: stack)) :
    (h.addRoot pointer).Accounts stack := by
  refine hacc.transfer (fun _ object hobject ↦ ⟨object, hobject, rfl⟩) (fun _ ↦ Iff.rfl) rfl rfl
    fun o ↦ ?_
  rw [references_addRoot, Nat.add_assoc, ← List.count_append, List.singleton_append]

theorem Accounts.endRoot {index : ℕ} (hacc : h.Accounts stack)
    (hroot : h.m_object (.root index) = some pointer) :
    (h.endRoot index).Accounts (pointer :: stack) := by
  refine hacc.transfer (fun _ object hobject ↦ ⟨object, hobject, rfl⟩) (fun _ ↦ Iff.rfl) rfl rfl
    fun o ↦ ?_
  rw [← references_endRoot hroot o, Nat.add_assoc, ← List.count_append, List.singleton_append]

theorem refIncrement_addRoot (h : Heap) (pointer : Pointer) :
    (h.addRoot pointer).RefIncrement pointer =
      (h.RefIncrement pointer).map (·.addRoot pointer) := by
  cases pointer with
  | none => rfl
  | some o =>
    rw [RefIncrement, RefIncrement]
    cases hobject : h.object? o with
    | none =>
      have hsame : (h.addRoot (some o)).object? o = none := hobject
      rw [hsame]
      rfl
    | some object =>
      have hsame : (h.addRoot (some o)).object? o = some object := hobject
      rw [hsame]
      show (if _ then some _ else none) = Option.map _ (if _ then some _ else none)
      split <;> rfl

/-- A constructor that sets the pointer is exact precisely when the count fits. -/
theorem Exact.construct_iff (hexact : h.Exact)
    (hlive : ∀ o, pointer = some o → h.object? o ≠ none) :
    h.CountsExactly ((h.addRoot pointer).RefIncrement pointer) ↔
      ∀ o, pointer = some o → h.references o < 2 ^ 31 - 1 := by
  rw [refIncrement_addRoot, ← Accounts.refIncrement_isSome_iff hexact hlive]
  cases hincrement : h.RefIncrement pointer with
  | none => exact iff_of_false not_countsExactly_none nofun
  | some counted =>
    refine iff_of_true ⟨_, rfl, (Accounts.refIncrement hexact hincrement).addRoot, ?_⟩ rfl
    refine deletesExactly_of_le
      (fun o ho ↦ (object?_refIncrement hincrement o).not.mpr ho) fun o ↦ ?_
    rw [references_addRoot, references_refIncrement hincrement]
    exact Nat.le_add_right _ _

/-- The destructor is exact. -/
theorem Exact.destroy (hexact : h.Exact) {index : ℕ}
    (hroot : h.m_object (.root index) = some pointer) :
    h.CountsExactly ((h.endRoot index).release [pointer]) := by
  have hend := Accounts.endRoot hexact hroot
  obtain ⟨after, hrelease, hafter, -⟩ := hend.exists_release _ _ hend (.refl _ _)
  refine ⟨after, hrelease, hafter, fun o hlive ↦ ?_⟩
  rw [hend.deletes_iff hrelease hlive, references_endRoot hroot]

/-! ### Programs -/

/-- The objects and the `refPtr`s that an operation names are there. -/
def Legal (h : Heap) : Operation → Prop
  | .create _ | .construct => True
  | .constructFrom object => ∀ o, object = some o → h.object? o ≠ none
  | .copy rhs => h.m_object rhs ≠ none
  | .assign lhs rhs => h.m_object lhs ≠ none ∧ h.m_object rhs ≠ none
  | .destroy index => h.m_object (.root index) ≠ none

/-- What an operation asks for: that one more pointer can be counted, and for `operator=`, that the
two `refPtr`s outlive the object that it releases. -/
def Keeps (h : Heap) : Operation → Prop
  | .create _ | .construct | .destroy _ => True
  | .constructFrom object => ∀ o, object = some o → h.references o < 2 ^ 31 - 1
  | .copy rhs => ∀ o, h.m_object rhs = some (some o) → h.references o < 2 ^ 31 - 1
  | .assign lhs rhs => h.Assignable lhs rhs

theorem exact_empty : empty.Exact := by
  have hnone (o : ℕ) : empty.object? o = none := rfl
  refine ⟨fun o object hobject ↦ ?_, fun o hpos ↦ ?_, fun o ↦ ?_, List.nodup_nil⟩
  · rw [hnone] at hobject
    cases hobject
  · exact absurd hpos (Nat.lt_irrefl 0)
  · exact iff_of_false List.not_mem_nil fun hdead ↦ Nat.not_lt_zero o hdead.1

theorem Exact.step_iff (hexact : h.Exact) {operation : Operation} (hlegal : h.Legal operation) :
    h.CountsExactly (h.step operation) ↔ h.Keeps operation := by
  cases operation with
  | create members =>
    refine iff_of_true ⟨_, rfl, hexact.create members, ?_⟩ trivial
    refine deletesExactly_of_le (fun o ho ↦ ?_) fun o ↦ (references_create h members o).ge
    have hne : o ≠ h.objects.length := by
      rintro rfl
      exact ho h.object?_length
    rwa [h.object?_create_of_ne members hne]
  | construct =>
    have hnull : h.CountsExactly ((h.addRoot none).RefIncrement none) :=
      (hexact.construct_iff (by nofun)).mpr (by nofun)
    exact iff_of_true hnull trivial
  | constructFrom object => exact hexact.construct_iff hlegal
  | copy rhs =>
    obtain ⟨pointer, hrhs⟩ := Option.ne_none_iff_exists'.mp hlegal
    have hlive (o : ℕ) (ho : pointer = some o) : h.object? o ≠ none :=
      Accounts.live hexact o (Nat.add_pos_left (references_pos_of_m_object (ho ▸ hrhs)) _)
    have hstep : h.step (.copy rhs) = (h.addRoot pointer).RefIncrement pointer := by
      rw [step, hrhs]
      rfl
    rw [hstep, hexact.construct_iff hlive, Keeps, hrhs]
    simp only [Option.some_inj]
  | assign lhs rhs =>
    obtain ⟨object, hlhs⟩ := Option.ne_none_iff_exists'.mp hlegal.1
    obtain ⟨other, hrhs⟩ := Option.ne_none_iff_exists'.mp hlegal.2
    exact hexact.assign_iff hlhs hrhs
  | destroy index =>
    obtain ⟨pointer, hroot⟩ := Option.ne_none_iff_exists'.mp hlegal
    have hstep : h.step (.destroy index) = (h.endRoot index).release [pointer] := by
      rw [step, hroot]
      rfl
    rw [hstep]
    exact iff_of_true (hexact.destroy hroot) trivial

/-- A program that starts with an exact heap, and names what is there, counts exactly all through
it, exactly when every operation has what it asks for. -/
theorem counting_exact_iff (h : Heap) (program : List Operation) (hexact : h.Exact)
    (hlegal : Throughout step Legal h program) :
    Throughout step (fun h operation ↦ h.CountsExactly (h.step operation)) h program ↔
      Throughout step Keeps h program := by
  refine throughout_iff Exact (fun _ _ hexact hlegal ↦ hexact.step_iff hlegal) ?_ program h hexact
    hlegal
  rintro before operation after - ⟨after', hafter', hexact', -⟩ hafter
  exact Option.some.inj (hafter'.symm.trans hafter) ▸ hexact'

/-- Two objects are created, a variable is constructed with each, and the first variable is copied.
The second variable is assigned to the first, which leaves the first object to the copy, and then to
the copy, which deletes it. -/
theorem counting_exact_iff_assign :
    Throughout step (fun h operation ↦ h.CountsExactly (h.step operation)) empty
      [.create 0, .create 0, .constructFrom (some 0), .constructFrom (some 1), .copy (.root 0),
        .assign (.root 0) (.root 1), .assign (.root 2) (.root 1), .destroy 0] := by
  have hcreate : step empty (.create 0) = some ⟨[some ⟨0, []⟩], [], []⟩ := rfl
  have hcreated : step ⟨[some ⟨0, []⟩], [], []⟩ (.create 0) =
      some ⟨[some ⟨0, []⟩, some ⟨0, []⟩], [], []⟩ := rfl
  have hfirst : step ⟨[some ⟨0, []⟩, some ⟨0, []⟩], [], []⟩ (.constructFrom (some 0)) =
      some ⟨[some ⟨1, []⟩, some ⟨0, []⟩], [some (some 0)], []⟩ := rfl
  have hsecond : step ⟨[some ⟨1, []⟩, some ⟨0, []⟩], [some (some 0)], []⟩
      (.constructFrom (some 1)) =
        some ⟨[some ⟨1, []⟩, some ⟨1, []⟩], [some (some 0), some (some 1)], []⟩ := rfl
  have hcopy : step ⟨[some ⟨1, []⟩, some ⟨1, []⟩], [some (some 0), some (some 1)], []⟩
      (.copy (.root 0)) =
        some ⟨[some ⟨2, []⟩, some ⟨1, []⟩], [some (some 0), some (some 1), some (some 0)], []⟩ :=
    rfl
  have hassign : step
      ⟨[some ⟨2, []⟩, some ⟨1, []⟩], [some (some 0), some (some 1), some (some 0)], []⟩
      (.assign (.root 0) (.root 1)) =
        some ⟨[some ⟨1, []⟩, some ⟨2, []⟩], [some (some 1), some (some 1), some (some 0)], []⟩ := by
    refine (assign_of_ne rfl rfl (by decide)).trans ?_
    rw [release_held [] rfl (by decide), release_nil]
    rfl
  have hdelete : step
      ⟨[some ⟨1, []⟩, some ⟨2, []⟩], [some (some 1), some (some 1), some (some 0)], []⟩
      (.assign (.root 2) (.root 1)) =
        some ⟨[none, some ⟨3, []⟩], [some (some 1), some (some 1), some (some 1)], [0]⟩ := by
    refine (assign_of_ne rfl rfl (by decide)).trans ?_
    rw [release_last [] rfl rfl]
    exact (congrArg (Option.bind · _) (release_nil _)).trans rfl
  refine (counting_exact_iff empty _ exact_empty ?_).mpr ?_
  · rw [throughout_cons hcreate, throughout_cons hcreated, throughout_cons hfirst,
      throughout_cons hsecond, throughout_cons hcopy, throughout_cons hassign,
      throughout_cons hdelete]
    refine ⟨trivial, trivial, fun o ho ↦ ?_, fun o ho ↦ ?_, nofun, ⟨nofun, nofun⟩, ⟨nofun, nofun⟩,
      nofun, fun _ _ ↦ trivial⟩
    · obtain rfl := Option.some.inj ho
      nofun
    · obtain rfl := Option.some.inj ho
      nofun
  · rw [throughout_cons hcreate, throughout_cons hcreated, throughout_cons hfirst,
      throughout_cons hsecond, throughout_cons hcopy, throughout_cons hassign,
      throughout_cons hdelete]
    refine ⟨trivial, trivial, fun o ho ↦ ?_, fun o ho ↦ ?_, fun o ho ↦ ?_,
      assignable_root 0 1 fun o ho ↦ ?_, assignable_root 2 1 fun o ho ↦ ?_, trivial,
      fun _ _ ↦ trivial⟩
    · obtain rfl := Option.some.inj ho
      decide
    · obtain rfl := Option.some.inj ho
      decide
    · obtain rfl := Option.some.inj (Option.some.inj ho)
      decide
    · obtain rfl := Option.some.inj (Option.some.inj ho)
      decide
    · obtain rfl := Option.some.inj (Option.some.inj ho)
      decide

/-- The left `refPtr` has the only pointer to an object whose member the right `refPtr` is: the
right `refPtr` is destroyed when `operator=` reads it. -/
theorem not_countsExactly_next :
    empty.Exact ∧
      Throughout step Legal empty
        [.create 1, .create 0, .constructFrom (some 0), .constructFrom (some 1),
          .assign (.member 0 0) (.root 1), .assign (.root 0) (.member 0 0)] ∧
      ¬Throughout step (fun h operation ↦ h.CountsExactly (h.step operation)) empty
        [.create 1, .create 0, .constructFrom (some 0), .constructFrom (some 1),
          .assign (.member 0 0) (.root 1), .assign (.root 0) (.member 0 0)] := by
  have hfirst : step empty (.create 1) = some ⟨[some ⟨0, [none]⟩], [], []⟩ := rfl
  have hsecond : step ⟨[some ⟨0, [none]⟩], [], []⟩ (.create 0) =
      some ⟨[some ⟨0, [none]⟩, some ⟨0, []⟩], [], []⟩ := rfl
  have hleft : step ⟨[some ⟨0, [none]⟩, some ⟨0, []⟩], [], []⟩ (.constructFrom (some 0)) =
      some ⟨[some ⟨1, [none]⟩, some ⟨0, []⟩], [some (some 0)], []⟩ := rfl
  have hright : step ⟨[some ⟨1, [none]⟩, some ⟨0, []⟩], [some (some 0)], []⟩
      (.constructFrom (some 1)) =
        some ⟨[some ⟨1, [none]⟩, some ⟨1, []⟩], [some (some 0), some (some 1)], []⟩ := rfl
  have hlink : step ⟨[some ⟨1, [none]⟩, some ⟨1, []⟩], [some (some 0), some (some 1)], []⟩
      (.assign (.member 0 0) (.root 1)) =
        some ⟨[some ⟨1, [some 1]⟩, some ⟨2, []⟩], [some (some 0), some (some 1)], []⟩ := by
    have hempty : (none : Pointer) ≠ some 1 := nofun
    refine (assign_of_ne rfl rfl hempty).trans ?_
    rw [release_null, release_nil]
    rfl
  have hnext : step ⟨[some ⟨1, [some 1]⟩, some ⟨2, []⟩], [some (some 0), some (some 1)], []⟩
      (.assign (.root 0) (.member 0 0)) = none := by
    have hother : some 0 ≠ some 1 := by decide
    have hmember : (delete ⟨[some ⟨1, [some 1]⟩, some ⟨2, []⟩], [some (some 0), some (some 1)], []⟩
        0).release [some 1] = some ⟨[none, some ⟨1, []⟩], [some (some 0), some (some 1)], [0]⟩ :=
      (release_held [] rfl (by decide)).trans (release_nil _)
    refine (assign_of_ne rfl rfl hother).trans ?_
    rw [release_last [] rfl rfl]
    exact (congrArg (Option.bind · _) hmember).trans rfl
  refine ⟨exact_empty, ?_, ?_⟩
  · rw [throughout_cons hfirst, throughout_cons hsecond, throughout_cons hleft,
      throughout_cons hright, throughout_cons hlink]
    refine ⟨trivial, trivial, fun o ho ↦ ?_, fun o ho ↦ ?_, ⟨nofun, nofun⟩, ⟨nofun, nofun⟩, ?_⟩
    · obtain rfl := Option.some.inj ho
      nofun
    · obtain rfl := Option.some.inj ho
      nofun
    · exact fun _ _ ↦ trivial
  · rw [throughout_cons hfirst, throughout_cons hsecond, throughout_cons hleft,
      throughout_cons hright, throughout_cons hlink]
    rintro ⟨-, -, -, -, -, hlast, -⟩
    exact not_countsExactly_none (hnext ▸ hlast)

end Heap

end RdbLibs.Other.RefPtr
