import Mathlib.Data.Set.Insert
import RdbLibs.Thread.Mutexes

/-!
# Who has a mutex

A thread knows from the answers of its waits which mutexes it has: the one that it has waited for,
the one whose place a wait for any of several has answered, or all of them. It has these, and no
others, whatever the other threads do, until a `WaitForMultipleObjects` for all times out that has
found some of its mutexes: it keeps them, and does not say so (`honest_iff`). As a mutex that occurs
twice in a list is not found a second time, a wait for all of such a list always ends in this way,
if it finds the first one.
-/

set_option autoImplicit false
set_option relaxedAutoImplicit false

namespace RdbLibs.Thread

open Runs

variable {ι τ : Type*}

namespace MutexPolls

variable {p : MutexPolls ι} {id : ι}

/-- The mutexes that a wait has found. -/
def found (p : MutexPolls ι) : Set ι :=
  {id | ∃ k : ℕ, p.objs[k]? = some id ∧ p.signaled[k]? = some true}

/-- What the variables of a wait keep. -/
structure Sound (p : MutexPolls ι) : Prop where
  length : p.signaled.length = p.objs.length
  count : p.sig_count = p.signaled.count true
  any : p.waitall = false → p.sig_count = 0

/-- The variables when the wait has found the mutex that it looks at. -/
def find (p : MutexPolls ι) : MutexPolls ι :=
  { p with oo := p.oo + 1, signaled := p.signaled.set p.oo true, sig_count := p.sig_count + 1 }

theorem Sound.found_eq_empty_iff (h : p.Sound) : p.found = ∅ ↔ p.sig_count = 0 := by
  rw [h.count, List.count_eq_zero, Set.eq_empty_iff_forall_notMem]
  constructor
  · intro hnone hmem
    obtain ⟨k, hk⟩ := List.mem_iff_getElem?.mp hmem
    obtain ⟨hinside, -⟩ := List.getElem?_eq_some_iff.mp hk
    exact hnone _ ⟨k, List.getElem?_eq_getElem (h.length ▸ hinside), hk⟩
  · rintro hnone id ⟨k, -, hk⟩
    exact hnone (List.mem_of_getElem? hk)

/-- A wait that has found as many mutexes as there are has found all of them. -/
theorem Sound.found_eq_objs (h : p.Sound) (hall : p.sig_count = p.objs.length) :
    p.found = {id | id ∈ p.objs} := by
  have hsignaled : ∀ slot ∈ p.signaled, true = slot :=
    List.count_eq_length.mp (h.count.symm.trans (hall.trans h.length.symm))
  ext id
  constructor
  · rintro ⟨k, hk, -⟩
    exact List.mem_of_getElem? hk
  · intro hmem
    obtain ⟨k, hk⟩ := List.mem_iff_getElem?.mp hmem
    obtain ⟨hinside, -⟩ := List.getElem?_eq_some_iff.mp hk
    have hslot : k < p.signaled.length := h.length.symm ▸ hinside
    refine ⟨k, hk, ?_⟩
    rw [List.getElem?_eq_getElem hslot, ← hsignaled _ (List.getElem_mem hslot)]

theorem found_find (hid : p.objs[p.oo]? = some id) (hpending : p.signaled[p.oo]? = some false) :
    p.find.found = insert id p.found := by
  obtain ⟨hinside, -⟩ := List.getElem?_eq_some_iff.mp hpending
  ext other
  constructor
  · rintro ⟨k, hk, hslot⟩
    rcases eq_or_ne p.oo k with rfl | hne
    · exact .inl (Option.some.inj (hk.symm.trans hid))
    · rw [find, List.getElem?_set_ne hne] at hslot
      exact .inr ⟨k, hk, hslot⟩
  · rintro (rfl | ⟨k, hk, hslot⟩)
    · exact ⟨p.oo, hid, by simp [find, hinside]⟩
    · have hne : p.oo ≠ k := by
        rintro rfl
        rw [hpending] at hslot
        cases hslot
      exact ⟨k, hk, by rw [find, List.getElem?_set_ne hne, hslot]⟩

theorem Sound.find (h : p.Sound) (hpending : p.signaled[p.oo]? = some false)
    (hall : p.waitall = true) : p.find.Sound where
  length := by simp [MutexPolls.find, h.length]
  count := by
    obtain ⟨hinside, hslot⟩ := List.getElem?_eq_some_iff.mp hpending
    simp [MutexPolls.find, h.count, List.count_set, hinside, hslot]
  any hany := absurd (hall.symm.trans hany) (by simp)

end MutexPolls

namespace Mutexes

/-- The mutexes that a thread has. -/
def owned (s : Mutexes ι τ) (thread : τ) : Set ι := {id | s.owners id = some thread}

/-- A thread that does not wait has what it was told, and nothing else. -/
def Honest (s : Mutexes ι τ) (told : τ → Set ι) : Prop :=
  ∀ thread, s.threads thread = .idle → s.owned thread = told thread

/-- What a wait that returns tells its thread that it has. -/
def granted (phase : MutexPhase ι) (reply : WaitReply) : Set ι :=
  match phase with
  | .idle => ∅
  | .locking id | .trying id _ => {other | reply.result = WAIT_OBJECT_0 ∧ other = id}
  | .polling p =>
    if reply.result = WAIT_TIMEOUT then ∅
    else if p.waitall = true then {id | id ∈ p.objs}
    else {id | p.objs[(reply.result - WAIT_OBJECT_0).toNat]? = some id}

variable [DecidableEq ι] [DecidableEq τ]

/-- What the threads were told that they have, less what they have released. -/
def note (told : τ → Set ι) (call : Call (Mutexes ι τ) (τ × MutexTurn ι) (Option WaitReply)) :
    τ → Set ι :=
  let (thread, turn) := call.label
  match turn, call.reply with
  | .release id, _ => Function.update told thread (told thread \ {id})
  | _, none => told
  | _, some reply =>
    Function.update told thread (told thread ∪ granted (call.before.threads thread) reply)

omit [DecidableEq ι] [DecidableEq τ] in
/-- A wait that times out has found nothing. -/
def KeepsNothing (call : Call (Mutexes ι τ) (τ × MutexTurn ι) (Option WaitReply)) : Prop :=
  ∀ sig_count, call.reply = some ⟨WAIT_TIMEOUT, sig_count⟩ → sig_count = 0

/-- What a thread has while it is where it is, by what it was told. -/
def Accounts (phase : MutexPhase ι) (owned told : Set ι) : Prop :=
  match phase with
  | .polling p => p.Sound ∧ owned = told ∪ p.found ∧ ∀ id ∈ p.found, id ∉ told
  | _ => owned = told

/-! ### One step -/

section Steps

variable {p : MutexPolls ι} {s after : Mutexes ι τ} {thread : τ} {id : ι}
  {reply : Option WaitReply} {told : Set ι}

/-- A step of a wait for several, by what it finds. -/
theorem poll_cases (hstep : s.poll thread p = some (reply, after)) :
    (reply = some ⟨WAIT_TIMEOUT, p.sig_count⟩ ∧ after = s.move thread .idle s.owners) ∨
    (∃ rounds oo, reply = none ∧
      after = s.move thread (.polling { p with rounds, oo }) s.owners) ∨
    ∃ id, p.objs[p.oo]? = some id ∧ s.owners id = none ∧ p.signaled[p.oo]? = some false ∧
      (reply = some ⟨WAIT_OBJECT_0 + p.oo, p.find.sig_count⟩ ∧ p.waitall = false ∧
          after = s.move thread .idle (Function.update s.owners id (some thread)) ∨
        reply = some ⟨WAIT_OBJECT_0, p.find.sig_count⟩ ∧ p.waitall = true ∧
          p.find.sig_count = p.objs.length ∧
          after = s.move thread .idle (Function.update s.owners id (some thread)) ∨
        reply = none ∧ p.waitall = true ∧
          after = s.move thread (.polling p.find)
            (Function.update s.owners id (some thread))) := by
  unfold poll returns goesOn at hstep
  split_ifs at hstep with hrounds
  · obtain ⟨rfl, rfl⟩ := Prod.mk.inj (Option.some.inj hstep)
    exact .inl ⟨rfl, rfl⟩
  · cases hid : p.objs[p.oo]? with
    | none =>
      rw [hid] at hstep
      obtain ⟨rfl, rfl⟩ := Prod.mk.inj (Option.some.inj hstep)
      exact .inr (.inl ⟨_, _, rfl, rfl⟩)
    | some id =>
      rw [hid] at hstep
      dsimp only [ObjectPolls.look, Mutex.syncObject, Mutex.tryLock] at hstep
      by_cases hpending : p.signaled[p.oo]? = some false
      · rw [if_pos hpending] at hstep
        by_cases hfree : s.owners id = none
        · refine .inr (.inr ⟨id, rfl, hfree, hpending, ?_⟩)
          simp only [hfree, if_true, reduceCtorEq, if_false, true_and] at hstep
          cases hwaitall : p.waitall with
          | false =>
            rw [if_pos hwaitall] at hstep
            obtain ⟨rfl, rfl⟩ := Prod.mk.inj (Option.some.inj hstep)
            exact .inl ⟨rfl, rfl, rfl⟩
          | true =>
            rw [if_neg (by simp [hwaitall])] at hstep
            split_ifs at hstep with hall <;>
              obtain ⟨rfl, rfl⟩ := Prod.mk.inj (Option.some.inj hstep)
            · exact .inr (.inl ⟨rfl, rfl, hall, rfl⟩)
            · exact .inr (.inr ⟨rfl, rfl, by rw [MutexPolls.find, ← hwaitall]⟩)
        · simp only [hfree, if_false, Option.some.injEq, reduceCtorEq, false_and] at hstep
          obtain ⟨rfl, rfl⟩ := Prod.mk.inj hstep
          exact .inr (.inl ⟨_, _, rfl, rfl⟩)
      · rw [if_neg hpending] at hstep
        simp only [Option.some.injEq, reduceCtorEq, Bool.false_eq_true, false_and, if_false]
          at hstep
        obtain ⟨rfl, rfl⟩ := Prod.mk.inj hstep
        exact .inr (.inl ⟨_, _, rfl, rfl⟩)

/-- A thread that takes a free mutex has it besides those that it has. -/
theorem owned_take (hfree : s.owners id = none) (phase : MutexPhase ι) :
    (s.move thread phase (Function.update s.owners id (some thread))).owned thread =
      insert id (s.owned thread) := by
  ext other
  rcases eq_or_ne other id with rfl | hne
  · simp [owned, move]
  · simp [owned, move, hne]

/-- Taking a free mutex takes nothing from another thread. -/
theorem owned_take_of_ne (hfree : s.owners id = none) {other : τ} (hother : other ≠ thread)
    (phase : MutexPhase ι) :
    (s.move thread phase (Function.update s.owners id (some thread))).owned other =
      s.owned other := by
  ext mutex
  rcases eq_or_ne mutex id with rfl | hne
  · simp [owned, move, hfree, hother.symm]
  · simp [owned, move, Function.update_of_ne hne]

/-- A thread that releases a mutex has the others that it has. -/
theorem owned_release :
    (s.move thread .idle (Function.update s.owners id none)).owned thread =
      s.owned thread \ {id} := by
  ext other
  rcases eq_or_ne other id with rfl | hne
  · simp [owned, move]
  · simp [owned, move, hne]

theorem owned_release_of_ne (howner : s.owners id = some thread) {other : τ}
    (hother : other ≠ thread) :
    (s.move thread .idle (Function.update s.owners id none)).owned other = s.owned other := by
  ext mutex
  rcases eq_or_ne mutex id with rfl | hne
  · simp [owned, move, howner, hother.symm]
  · simp [owned, move, hne]

omit [DecidableEq ι] [DecidableEq τ] in
/-- A wait for several has found nothing before its first look. -/
theorem accounts_multiple (h : s.owned thread = told) (objs : List ι) (waitall : Bool)
    (milliseconds : ℤ) : Accounts (multiple objs waitall milliseconds) (s.owned thread) told := by
  have hsound : (⟨objs, waitall, milliseconds.toNat, 0, List.replicate objs.length false, 0⟩ :
      MutexPolls ι).Sound :=
    ⟨List.length_replicate, by simp [List.count_replicate], fun _ ↦ rfl⟩
  have hnone := hsound.found_eq_empty_iff.mpr rfl
  refine ⟨hsound, ?_, ?_⟩
  · rw [hnone, Set.union_empty]
    exact h
  · rw [hnone]
    exact fun id hid ↦ absurd hid (Set.notMem_empty id)

/-- A step of a wait for several keeps the account, unless it times out and keeps something. -/
theorem Accounts.poll (h : Accounts (.polling p) (s.owned thread) told)
    (hstep : s.poll thread p = some (reply, after))
    (hmeets : ∀ sig_count, reply = some ⟨WAIT_TIMEOUT, sig_count⟩ → sig_count = 0) :
    Accounts (after.threads thread) (after.owned thread)
      (told ∪ reply.elim ∅ (granted (.polling p))) := by
  obtain ⟨hsound, howned, hdisjoint⟩ := h
  obtain ⟨rfl, rfl⟩ | ⟨rounds, oo, rfl, rfl⟩ | ⟨id, hid, hfree, hpending, hfound⟩ :=
    poll_cases hstep
  · have hnone : p.found = ∅ := hsound.found_eq_empty_iff.mpr (hmeets _ rfl)
    rw [hnone, Set.union_empty] at howned
    simp only [move, Function.update_self, Accounts, Option.elim, granted, if_true,
      Set.union_empty]
    exact howned
  · simp only [move, Function.update_self, Accounts, Option.elim, Set.union_empty]
    exact ⟨⟨hsound.length, hsound.count, hsound.any⟩, howned, hdisjoint⟩
  · have hnew : id ∉ told ∪ p.found := by
      rw [← howned]
      exact fun hmem ↦ by simp [owned, hfree] at hmem
    have hinsert : insert id (s.owned thread) = told ∪ p.find.found := by
      rw [MutexPolls.found_find hid hpending, howned, Set.union_insert]
    obtain ⟨rfl, hany, rfl⟩ | ⟨rfl, hall, hcount, rfl⟩ | ⟨rfl, hall, rfl⟩ := hfound
    · have hnone : p.found = ∅ := hsound.found_eq_empty_iff.mpr (hsound.any hany)
      rw [owned_take hfree, howned, hnone, Set.union_empty]
      simp only [move, Function.update_self, Accounts, Option.elim, granted]
      have hplace : (WAIT_OBJECT_0 + (p.oo : ℤ) - WAIT_OBJECT_0).toNat = p.oo := by omega
      rw [if_neg (by simp only [WAIT_OBJECT_0, WAIT_TIMEOUT]; omega), if_neg (by simp [hany]),
        hplace, Set.insert_eq, Set.union_comm]
      refine congrArg (told ∪ ·) (Set.ext fun other ↦ ?_)
      rw [hid, Set.mem_singleton_iff, Set.mem_ofPred_eq, Option.some.injEq, eq_comm]
    · have hobjs : p.find.found = {id | id ∈ p.objs} :=
        (hsound.find hpending hall).found_eq_objs hcount
      rw [owned_take hfree, hinsert, hobjs]
      simp only [move, Function.update_self, Accounts, Option.elim, granted]
      rw [if_neg (by decide), if_pos hall]
    · rw [owned_take hfree, hinsert]
      simp only [move, Function.update_self, Accounts, Option.elim, Set.union_empty]
      refine ⟨hsound.find hpending hall, trivial, ?_⟩
      rw [MutexPolls.found_find hid hpending, Set.forall_mem_insert]
      exact ⟨fun hmem ↦ hnew (.inl hmem), hdisjoint⟩

/-- The same, for every step of a wait. -/
theorem Accounts.goOn (h : Accounts (s.threads thread) (s.owned thread) told)
    (hstep : s.goOn thread = some (reply, after))
    (hmeets : ∀ sig_count, reply = some ⟨WAIT_TIMEOUT, sig_count⟩ → sig_count = 0) :
    Accounts (after.threads thread) (after.owned thread)
      (told ∪ reply.elim ∅ (granted (s.threads thread))) := by
  unfold Mutexes.goOn at hstep
  cases hphase : s.threads thread with
  | idle =>
    rw [hphase] at hstep
    cases hstep
  | locking id =>
    rw [hphase] at hstep h
    dsimp only [returns] at hstep
    split_ifs at hstep with hfree
    obtain ⟨rfl, rfl⟩ := Prod.mk.inj (Option.some.inj hstep)
    rw [owned_take hfree, show s.owned thread = told from h]
    simp [move, Accounts, granted]
  | trying id intervals =>
    rw [hphase] at hstep h
    cases intervals with
    | zero =>
      obtain ⟨rfl, rfl⟩ := Prod.mk.inj (Option.some.inj hstep)
      simpa [move, Accounts, granted, owned, WAIT_OBJECT_0, WAIT_TIMEOUT] using h
    | succ intervals =>
      dsimp only [Mutex.tryLock, returns, goesOn] at hstep
      by_cases hfree : s.owners id = none
      · simp only [hfree, if_true] at hstep
        obtain ⟨rfl, rfl⟩ := Prod.mk.inj (Option.some.inj hstep)
        rw [owned_take hfree, show s.owned thread = told from h]
        simp [move, Accounts, granted]
      · simp only [hfree, if_false, Bool.false_eq_true] at hstep
        obtain ⟨rfl, rfl⟩ := Prod.mk.inj (Option.some.inj hstep)
        simpa [move, Accounts, owned] using h
  | polling p =>
    rw [hphase] at hstep h
    exact h.poll hstep hmeets

/-- A step of a wait moves its thread on, which takes a free mutex at most. -/
theorem goOn_cases (hstep : s.goOn thread = some (reply, after)) :
    ∃ phase, after = s.move thread phase s.owners ∨ ∃ id, s.owners id = none ∧
      after = s.move thread phase (Function.update s.owners id (some thread)) := by
  unfold Mutexes.goOn at hstep
  cases hphase : s.threads thread with
  | idle =>
    rw [hphase] at hstep
    cases hstep
  | locking id =>
    rw [hphase] at hstep
    dsimp only [returns] at hstep
    split_ifs at hstep with hfree
    obtain ⟨-, rfl⟩ := Prod.mk.inj (Option.some.inj hstep)
    exact ⟨_, .inr ⟨id, hfree, rfl⟩⟩
  | trying id intervals =>
    rw [hphase] at hstep
    cases intervals with
    | zero =>
      obtain ⟨-, rfl⟩ := Prod.mk.inj (Option.some.inj hstep)
      exact ⟨_, .inl rfl⟩
    | succ intervals =>
      dsimp only [Mutex.tryLock, returns, goesOn] at hstep
      by_cases hfree : s.owners id = none
      · simp only [hfree, if_true] at hstep
        obtain ⟨-, rfl⟩ := Prod.mk.inj (Option.some.inj hstep)
        exact ⟨_, .inr ⟨id, hfree, rfl⟩⟩
      · simp only [hfree, if_false, Bool.false_eq_true] at hstep
        obtain ⟨-, rfl⟩ := Prod.mk.inj (Option.some.inj hstep)
        exact ⟨_, .inl rfl⟩
  | polling p =>
    rw [hphase] at hstep
    obtain ⟨-, rfl⟩ | ⟨rounds, oo, -, rfl⟩ |
      ⟨id, -, hfree, -, ⟨-, -, rfl⟩ | ⟨-, -, -, rfl⟩ | ⟨-, -, rfl⟩⟩ := poll_cases hstep
    · exact ⟨_, .inl rfl⟩
    · exact ⟨_, .inl rfl⟩
    · exact ⟨_, .inr ⟨id, hfree, rfl⟩⟩
    · exact ⟨_, .inr ⟨id, hfree, rfl⟩⟩
    · exact ⟨_, .inr ⟨id, hfree, rfl⟩⟩

omit [DecidableEq ι] in
theorem threads_move_of_ne {other : τ} (hother : other ≠ thread) (phase : MutexPhase ι)
    (owners : ι → Option τ) : (s.move thread phase owners).threads other = s.threads other :=
  Function.update_of_ne hother ..

/-- A step changes nothing of what is said of another thread. -/
theorem Step.frame (told : τ → Set ι) {turn : MutexTurn ι}
    (hstep : Step s (thread, turn) reply after) {other : τ} (hother : other ≠ thread) :
    after.threads other = s.threads other ∧ after.owned other = s.owned other ∧
      note told ⟨s, (thread, turn), reply⟩ other = told other := by
  refine ⟨?_, ?_, ?_⟩
  · cases hstep with
    | waitSingle | waitMultiple | release => exact threads_move_of_ne hother ..
    | goOn hstep =>
      obtain ⟨phase, rfl | ⟨id, -, rfl⟩⟩ := goOn_cases hstep <;>
        exact threads_move_of_ne hother ..
  · cases hstep with
    | waitSingle | waitMultiple => rfl
    | release _ howner => exact owned_release_of_ne howner hother
    | goOn hstep =>
      obtain ⟨phase, rfl | ⟨id, hfree, rfl⟩⟩ := goOn_cases hstep
      · rfl
      · exact owned_take_of_ne hfree hother phase
  · unfold note
    cases turn <;> cases reply <;> first | rfl | exact Function.update_of_ne hother ..

/-- A step keeps the accounts of all threads, unless its wait times out and keeps something. -/
theorem Step.accounts {told : τ → Set ι} {whose : τ × MutexTurn ι}
    (h : ∀ thread, Accounts (s.threads thread) (s.owned thread) (told thread))
    (hstep : Step s whose reply after) (hmeets : KeepsNothing ⟨s, whose, reply⟩) (thread : τ) :
    Accounts (after.threads thread) (after.owned thread)
      (note told ⟨s, whose, reply⟩ thread) := by
  obtain ⟨mover, turn⟩ := whose
  rcases eq_or_ne thread mover with rfl | hne
  · cases hstep with
    | waitSingle hidle =>
      have hthread := h thread
      rw [hidle] at hthread
      simp only [move, Function.update_self, note, single]
      split_ifs <;> exact hthread
    | waitMultiple hidle =>
      have hthread := h thread
      rw [hidle] at hthread
      simp only [move, Function.update_self, note]
      exact accounts_multiple hthread ..
    | release hidle howner =>
      have hthread : s.owned thread = told thread := by
        have hbefore := h thread
        rwa [hidle] at hbefore
      simp only [note, Function.update_self]
      rw [owned_release, hthread, show (s.move thread _ _).threads thread = .idle from
        Function.update_self ..]
      exact rfl
    | goOn hstep =>
      have hafter := (h thread).goOn hstep hmeets
      cases reply with
      | none => rwa [Option.elim, Set.union_empty] at hafter
      | some reply =>
        simp only [note, Function.update_self]
        exact hafter
  · obtain ⟨hthreads, howned, htold⟩ := hstep.frame told hne
    rw [hthreads, howned, htold]
    exact h thread

/-- Only a wait for several can have found something when it times out. -/
theorem timeout_cases {sig_count : ℕ}
    (hstep : s.goOn thread = some (some ⟨WAIT_TIMEOUT, sig_count⟩, after)) :
    sig_count = 0 ∨ ∃ p, s.threads thread = .polling p ∧ p.sig_count = sig_count ∧
      after = s.move thread .idle s.owners := by
  unfold Mutexes.goOn at hstep
  cases hphase : s.threads thread with
  | idle =>
    rw [hphase] at hstep
    cases hstep
  | locking id =>
    rw [hphase] at hstep
    dsimp only [returns] at hstep
    split_ifs at hstep
    simp [WAIT_OBJECT_0, WAIT_TIMEOUT] at hstep
  | trying id intervals =>
    rw [hphase] at hstep
    cases intervals with
    | zero =>
      simp only [returns, Option.some.injEq, Prod.mk.injEq, WaitReply.mk.injEq, true_and] at hstep
      exact .inl hstep.1.symm
    | succ intervals =>
      dsimp only [Mutex.tryLock, returns, goesOn] at hstep
      by_cases hfree : s.owners id = none <;>
        simp [hfree, WAIT_OBJECT_0, WAIT_TIMEOUT] at hstep
  | polling p =>
    rw [hphase] at hstep
    obtain ⟨hreply, rfl⟩ | ⟨rounds, oo, hreply, -⟩ |
      ⟨id, -, -, -, ⟨hreply, -, -⟩ | ⟨hreply, -, -, -⟩ | ⟨hreply, -, -⟩⟩ := poll_cases hstep
    · simp only [Option.some.injEq, WaitReply.mk.injEq, true_and] at hreply
      exact .inr ⟨p, rfl, hreply.symm, rfl⟩
    · cases hreply
    · simp only [WAIT_TIMEOUT, WAIT_OBJECT_0, Option.some.injEq, WaitReply.mk.injEq] at hreply
      omega
    · simp [WAIT_OBJECT_0, WAIT_TIMEOUT] at hreply
    · cases hreply

omit [DecidableEq ι] [DecidableEq τ] in
theorem honest_of_accounts {told : τ → Set ι}
    (h : ∀ thread, Accounts (s.threads thread) (s.owned thread) (told thread)) :
    s.Honest told := by
  intro thread hidle
  have hthread := h thread
  rwa [hidle] at hthread

/-- A wait that times out and has found something leaves its thread with more than it was told. -/
theorem Step.keepsNothing {told : τ → Set ι} {whose : τ × MutexTurn ι}
    (h : ∀ thread, Accounts (s.threads thread) (s.owned thread) (told thread))
    (hstep : Step s whose reply after) (hhonest : after.Honest (note told ⟨s, whose, reply⟩)) :
    KeepsNothing ⟨s, whose, reply⟩ := by
  intro sig_count hreply
  obtain rfl : reply = some ⟨WAIT_TIMEOUT, sig_count⟩ := hreply
  cases hstep with
  | @goOn _ thread _ hstep =>
    obtain hzero | ⟨p, hphase, rfl, rfl⟩ := timeout_cases hstep
    · exact hzero
    · obtain ⟨hsound, howned, hdisjoint⟩ :
          p.Sound ∧ s.owned thread = told thread ∪ p.found ∧
            ∀ id ∈ p.found, id ∉ told thread := by
        have hthread := h thread
        rwa [hphase] at hthread
      have hsame : s.owned thread = told thread := by
        have hidle := hhonest thread (Function.update_self ..)
        simp only [note, Function.update_self, hphase, granted, if_true, Set.union_empty] at hidle
        exact hidle
      have hinside : p.found ⊆ told thread := by
        rw [← hsame, howned]
        exact Set.subset_union_right
      exact hsound.found_eq_empty_iff.mp
        (Set.eq_empty_of_forall_notMem fun id hid ↦ hdisjoint id hid (hinside hid))

end Steps

/-- Assumes: any number of threads that wait for any mutexes, all of them free at the start. In all
states of a run, each thread that does not wait has exactly the mutexes that it was told it has and
has not released, exactly when no wait of the run times out that has found some. -/
theorem honest_iff {trace : List (Call (Mutexes ι τ) (τ × MutexTurn ι) (Option WaitReply))}
    {final : Mutexes ι τ} (hrun : Run Step new trace final) :
    (Obeys note (fun told call ↦ call.before.Honest told) (fun _ ↦ ∅) trace ∧
      final.Honest (trace.foldl note fun _ ↦ ∅)) ↔ ∀ call ∈ trace, KeepsNothing call := by
  refine hrun.obeys_iff
    (fun s told ↦ ∀ thread, Accounts (s.threads thread) (s.owned thread) (told thread))
    Honest (fun _ _ ↦ honest_of_accounts) (fun _ _ h ↦ h)
    (fun _ _ _ _ _ h hstep hmeets ↦ ⟨honest_of_accounts h, hstep.accounts h hmeets⟩)
    (fun _ _ _ _ _ h hstep hkeeps hhonest ↦ hkeeps (hstep.keepsNothing h hhonest)) (fun _ ↦ ∅)
    fun thread ↦ ?_
  simp [Accounts, new, owned]

/-- One thread waits for two mutexes and gets both, another one does not get one of them, and the
first one releases it. -/
theorem exists_keepsNothing : ∃ trace final,
    Run Step (new : Mutexes ℕ Bool) trace final ∧ ∀ call ∈ trace, KeepsNothing call := by
  refine Run.exists_cons (false, .waitMultiple [0, 1] true 1) (.waitMultiple rfl) ?_
  refine Run.exists_cons (true, .waitSingle 1 0) (.waitSingle rfl) ?_
  refine Run.exists_cons (false, .goOn) (.goOn rfl) ?_
  refine Run.exists_cons (false, .goOn) (.goOn rfl) ?_
  refine Run.exists_cons (true, .goOn) (.goOn rfl) ?_
  refine Run.exists_cons (true, .goOn) (.goOn rfl) ?_
  refine Run.exists_cons (false, .release 1) (.release rfl rfl) ?_
  refine ⟨[], _, .nil _, ?_⟩
  simp [KeepsNothing, WAIT_OBJECT_0, WAIT_TIMEOUT]

theorem honest_iff_two : ∃ trace final, Run Step (new : Mutexes ℕ Bool) trace final ∧
    Obeys note (fun told call ↦ call.before.Honest told) (fun _ ↦ ∅) trace ∧
      final.Honest (trace.foldl note fun _ ↦ ∅) := by
  obtain ⟨trace, final, hrun, hnothing⟩ := exists_keepsNothing
  exact ⟨trace, final, hrun, (honest_iff hrun).mpr hnothing⟩

end Mutexes

end RdbLibs.Thread
