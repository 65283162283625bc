import RdbLibs.Thread.WaitForMultipleObjects

/-!
# `Win32SyncObject`

`WaitForMultipleObjects` of `Src/Thread/threadUtil.cpp` for any objects, in any state of a program.
A poll of an object succeeds, fails or throws, and before each look, other threads may have changed
the state in any way. For events that others only set, the call is the one of
`WaitForMultipleObjects.lean` (`WaitForMultipleObjects_eq`).

The function passes over its objects once for each millisecond, so that it does not look at them at
all for a timeout of 0, or for `INFINITE`, which is negative. `event::timedWait` treats both.
-/

set_option autoImplicit false
set_option relaxedAutoImplicit false

namespace RdbLibs.Thread

/-- `WAIT_ABANDONDED`. -/
def WAIT_ABANDONDED : ℤ := -1

/-- An object in a program with states `σ`: what `syncObjectTimedWait` does without a timeout. It
throws where there is no answer. -/
structure Win32SyncObject (σ : Type*) where
  syncObjectTimedWait : σ → Option Bool × σ

/-- An event, as an object. -/
def Event.syncObject {ι : Type*} [DecidableEq ι] (id : ι) : Win32SyncObject (ι → Event) where
  syncObjectTimedWait events :=
    let (result, event) := (events id).poll
    (some result, Function.update events id event)

/-- An answer of an object, with its round and its place in the list. -/
structure Answer where
  round : ℕ
  object : ℕ
  result : Bool
deriving DecidableEq

/-- The state of the program, the variables of the call, and the answers that it has got. -/
structure ObjectPolls (σ : Type*) where
  state : σ
  signaled : List Bool
  sig_count : ℕ
  answers : List Answer

namespace ObjectPolls

variable {σ : Type*}

/-- The call before its first round. -/
def new (state : σ) (count : ℕ) : ObjectPolls σ := ⟨state, List.replicate count false, 0, []⟩

/-- The body of the inner loop, up to the tests of what is found. -/
def look (p : ObjectPolls σ) (others : σ → σ) (x oo : ℕ) (obj : Win32SyncObject σ) :
    Option Bool × ObjectPolls σ :=
  let p := { p with state := others p.state }
  if p.signaled[oo]? = some false then
    match obj.syncObjectTimedWait p.state with
    | (none, state) => (none, { p with state })
    | (some true, state) =>
      (some true, ⟨state, p.signaled.set oo true, p.sig_count + 1, p.answers ++ [⟨x, oo, true⟩]⟩)
    | (some false, state) =>
      (some false, { p with state, answers := p.answers ++ [⟨x, oo, false⟩] })
  else (some false, p)

/-- The inner loop, from an object on. An exception ends the call. -/
def pass (others : ℕ → σ → σ) (waitall : Bool) (count x : ℕ) :
    ℕ → List (Win32SyncObject σ) → ObjectPolls σ → Option ℤ × ObjectPolls σ
  | _, [], p => (none, p)
  | oo, obj :: rest, p =>
    match p.look (others oo) x oo obj with
    | (none, p) => (some WAIT_ABANDONDED, p)
    | (some found, p) =>
      if found = true ∧ waitall = false then (some (WAIT_OBJECT_0 + oo), p)
      else if found = true ∧ p.sig_count = count then (some WAIT_OBJECT_0, p)
      else pass others waitall count x (oo + 1) rest p

/-- The outer loop, for some more rounds. -/
def rounds (others : ℕ → ℕ → σ → σ) (waitall : Bool) (objs : List (Win32SyncObject σ)) :
    ℕ → ℕ → ObjectPolls σ → ℤ × ObjectPolls σ
  | 0, _, p => (WAIT_TIMEOUT, p)
  | more + 1, x, p =>
    match p.pass (others x) waitall objs.length x 0 objs with
    | (some result, p) => (result, p)
    | (none, p) => rounds others waitall objs more (x + 1) p

end ObjectPolls

/-- `WaitForMultipleObjects`. `others x oo` is what other threads do before round `x` comes to
object `oo`, and behind the look before. -/
def Win32SyncObject.WaitForMultipleObjects {σ : Type*} (objs : List (Win32SyncObject σ))
    (waitall : Bool) (milliseconds : ℤ) (state : σ) (others : ℕ → ℕ → σ → σ) :
    ℤ × ObjectPolls σ :=
  (ObjectPolls.new state objs.length).rounds others waitall objs milliseconds.toNat 0

/-! ### Events that others set -/

/-- Two calls that have come equally far. -/
structure SameCall (p : Polls) (q : ObjectPolls (ℕ → Event)) : Prop where
  events : q.state = p.events
  signaled : q.signaled = p.signaled
  sig_count : q.sig_count = p.sig_count

namespace SameCall

variable {p : Polls} {q : ObjectPolls (ℕ → Event)}

theorem look (h : SameCall p q) (sets : List ℕ) (x oo id : ℕ) :
    (q.look (fun events ↦ setEvents events sets) x oo (Event.syncObject id)).1 =
        some (p.look sets oo id).1 ∧
      SameCall (p.look sets oo id).2
        (q.look (fun events ↦ setEvents events sets) x oo (Event.syncObject id)).2 := by
  obtain ⟨hevents, hsignaled, hcount⟩ := h
  simp only [ObjectPolls.look, Polls.look, Event.syncObject, Polls.poll, Event.poll, hevents,
    hsignaled]
  by_cases hpending : p.signaled[oo]? = some false
  · rw [if_pos hpending, if_pos hpending]
    cases (setEvents p.events sets id).m_signaled with
    | false => exact ⟨rfl, rfl, rfl, hcount⟩
    | true => exact ⟨rfl, rfl, rfl, congrArg (· + 1) hcount⟩
  · rw [if_neg hpending, if_neg hpending]
    exact ⟨rfl, rfl, rfl, hcount⟩

theorem pass (others : ℕ → List ℕ) (waitall : Bool) (count x : ℕ) (rest : List ℕ) :
    ∀ (oo : ℕ) {p : Polls} {q : ObjectPolls (ℕ → Event)}, SameCall p q →
      (q.pass (fun oo events ↦ setEvents events (others oo)) waitall count x oo
          (rest.map Event.syncObject)).1 = (p.pass others waitall count oo rest).1 ∧
        SameCall (p.pass others waitall count oo rest).2
          (q.pass (fun oo events ↦ setEvents events (others oo)) waitall count x oo
            (rest.map Event.syncObject)).2 := by
  induction rest with
  | nil => exact fun _ _ _ h ↦ ⟨rfl, h⟩
  | cons id rest ih =>
    intro oo p q h
    obtain ⟨hfound, hlook⟩ := h.look (others oo) x oo id
    rw [List.map_cons, ObjectPolls.pass, Polls.pass]
    generalize q.look (fun events ↦ setEvents events (others oo)) x oo (Event.syncObject id) =
      result at *
    generalize p.look (others oo) oo id = result' at *
    obtain ⟨answer, after⟩ := result
    obtain ⟨found, after'⟩ := result'
    subst hfound
    dsimp only at hlook ⊢
    rw [hlook.sig_count]
    split_ifs with hany hall
    · exact ⟨rfl, hlook⟩
    · exact ⟨rfl, hlook⟩
    · exact ih (oo + 1) hlook

theorem rounds (others : ℕ → ℕ → List ℕ) (waitall : Bool) (objs : List ℕ) (more : ℕ) :
    ∀ {x : ℕ} {p : Polls} {q : ObjectPolls (ℕ → Event)}, SameCall p q →
      (q.rounds (fun x oo events ↦ setEvents events (others x oo)) waitall
          (objs.map Event.syncObject) more x).1 = (p.rounds others waitall objs more x).1 ∧
        SameCall (p.rounds others waitall objs more x).2
          (q.rounds (fun x oo events ↦ setEvents events (others x oo)) waitall
            (objs.map Event.syncObject) more x).2 := by
  induction more with
  | zero => exact fun h ↦ ⟨rfl, h⟩
  | succ more ih =>
    intro x p q h
    obtain ⟨hresult, hpass⟩ := pass (others x) waitall objs.length x objs 0 h
    rw [ObjectPolls.rounds, Polls.rounds, List.length_map]
    generalize q.pass (fun oo events ↦ setEvents events (others x oo)) waitall objs.length x 0
      (objs.map Event.syncObject) = outcome at *
    generalize p.pass (others x) waitall objs.length 0 objs = outcome' at *
    obtain ⟨answer, after⟩ := outcome
    obtain ⟨result, after'⟩ := outcome'
    subst hresult
    cases answer with
    | none => exact ih hpass
    | some result => exact ⟨rfl, hpass⟩

end SameCall

/-- For events, the call returns the same, and leaves the same events, as the call for objects. -/
theorem WaitForMultipleObjects_eq (objs : List ℕ) (waitall : Bool) (milliseconds : ℤ)
    (events : ℕ → Event) (others : ℕ → ℕ → List ℕ) :
    (Win32SyncObject.WaitForMultipleObjects (objs.map Event.syncObject) waitall milliseconds events
        fun x oo events ↦ setEvents events (others x oo)).1 =
        (WaitForMultipleObjects objs waitall milliseconds events others).1 ∧
      SameCall (WaitForMultipleObjects objs waitall milliseconds events others).2
        (Win32SyncObject.WaitForMultipleObjects (objs.map Event.syncObject) waitall milliseconds
          events fun x oo events ↦ setEvents events (others x oo)).2 := by
  rw [Win32SyncObject.WaitForMultipleObjects, List.length_map]
  exact SameCall.rounds others waitall objs milliseconds.toNat ⟨rfl, rfl, rfl⟩

/-! ### What a call has found -/

/-- In states that an invariant holds of, the object is signaled, and a poll keeps the invariant. -/
def Win32SyncObject.StaysSignaled {σ : Type*} (obj : Win32SyncObject σ) (I : σ → Prop) : Prop :=
  ∀ s, I s → (obj.syncObjectTimedWait s).1 = some true ∧ I (obj.syncObjectTimedWait s).2

namespace ObjectPolls

variable {σ : Type*} {p : ObjectPolls σ} {others : σ → σ} {count x oo : ℕ} {obj : Win32SyncObject σ}

/-- An object that was found unsignaled in some round, and signaled in none. -/
def Missed (p : ObjectPolls σ) (k : ℕ) : Prop :=
  (∃ round, ⟨round, k, false⟩ ∈ p.answers) ∧ ∀ round, ⟨round, k, true⟩ ∉ p.answers

/-- All that a look can do: it passes over an object that was found before, or gets an answer, or
none. -/
theorem look_cases (p : ObjectPolls σ) (others : σ → σ) (x oo : ℕ) (obj : Win32SyncObject σ) :
    (p.signaled[oo]? ≠ some false ∧
      p.look others x oo obj = (some false, { p with state := others p.state })) ∨
    ∃ state, p.signaled[oo]? = some false ∧
      (obj.syncObjectTimedWait (others p.state) = (none, state) ∧
        p.look others x oo obj = (none, { p with state }) ∨
      obj.syncObjectTimedWait (others p.state) = (some true, state) ∧
        p.look others x oo obj = (some true, ⟨state, p.signaled.set oo true, p.sig_count + 1,
          p.answers ++ [⟨x, oo, true⟩]⟩) ∨
      obj.syncObjectTimedWait (others p.state) = (some false, state) ∧
        p.look others x oo obj =
          (some false, { p with state, answers := p.answers ++ [⟨x, oo, false⟩] })) := by
  unfold look
  dsimp only
  by_cases hpending : p.signaled[oo]? = some false
  · rw [if_pos hpending]
    refine .inr ⟨(obj.syncObjectTimedWait (others p.state)).2, hpending, ?_⟩
    obtain ⟨answer, state⟩ := obj.syncObjectTimedWait (others p.state)
    match answer with
    | none => exact .inl ⟨rfl, rfl⟩
    | some true => exact .inr (.inl ⟨rfl, rfl⟩)
    | some false => exact .inr (.inr ⟨rfl, rfl⟩)
  · exact .inl ⟨hpending, if_neg hpending⟩

/-- A look passes over a signaled object, or finds it. -/
theorem look_of_success (p : ObjectPolls σ) (x oo : ℕ)
    (hanswer : (obj.syncObjectTimedWait (others p.state)).1 = some true) :
    (p.signaled[oo]? ≠ some false ∧
      p.look others x oo obj = (some false, { p with state := others p.state })) ∨
    p.look others x oo obj = (some true, ⟨(obj.syncObjectTimedWait (others p.state)).2,
      p.signaled.set oo true, p.sig_count + 1, p.answers ++ [⟨x, oo, true⟩]⟩) := by
  obtain hbefore | ⟨state, -, ⟨hpoll, -⟩ | ⟨hpoll, hlook⟩ | ⟨hpoll, -⟩⟩ :=
    p.look_cases others x oo obj
  · exact .inl hbefore
  · exact nomatch (congrArg Prod.fst hpoll).symm.trans hanswer
  · rw [hpoll]
    exact .inr hlook
  · exact nomatch (congrArg Prod.fst hpoll).symm.trans hanswer

/-- What a call knows in round `x` when object `oo` is the next. An object that it has not found
signaled was found unsignaled, once the call has looked at it. -/
structure Knows (count x oo : ℕ) (p : ObjectPolls σ) : Prop where
  length : p.signaled.length = count
  count : p.sig_count = p.signaled.count true
  looked : ∀ k, p.signaled[k]? = some false → 0 < x ∨ k < oo →
    ∃ round, ⟨round, k, false⟩ ∈ p.answers
  unfound : ∀ k round, p.signaled[k]? = some false → ⟨round, k, true⟩ ∉ p.answers

namespace Knows

theorem new (state : σ) (count : ℕ) : Knows count 0 0 (.new state count) where
  length := List.length_replicate
  count := by simp [ObjectPolls.new, List.count_replicate]
  looked k _ hbefore := by omega
  unfound _ _ _ := List.not_mem_nil

/-- A look at an object that was found before. -/
theorem passedOver (h : Knows count x oo p) (hbefore : p.signaled[oo]? ≠ some false) (state : σ) :
    Knows count x (oo + 1) { p with state } where
  length := h.length
  count := h.count
  looked k hk hlt := by
    have hne : k ≠ oo := fun heq ↦ hbefore (heq ▸ hk)
    exact h.looked k hk (by omega)
  unfound := h.unfound

/-- A look that finds an object. -/
theorem found (h : Knows count x oo p) (hpending : p.signaled[oo]? = some false) (state : σ) :
    Knows count x (oo + 1)
      ⟨state, p.signaled.set oo true, p.sig_count + 1, p.answers ++ [⟨x, oo, true⟩]⟩ := by
  obtain ⟨hinside, hslot⟩ := List.getElem?_eq_some_iff.mp hpending
  have hstill : ∀ k, (p.signaled.set oo true)[k]? = some false →
      k ≠ oo ∧ p.signaled[k]? = some false := by
    intro k hk
    rcases eq_or_ne oo k with rfl | hne
    · simp [hinside] at hk
    · exact ⟨hne.symm, by rwa [List.getElem?_set_ne hne] at hk⟩
  refine ⟨?_, ?_, fun k hk hlt ↦ ?_, fun k round hk hmem ↦ ?_⟩
  · simp [h.length]
  · simp [h.count, List.count_set, hinside, hslot]
  · obtain ⟨hne, hk⟩ := hstill k hk
    obtain ⟨round, hround⟩ := h.looked k hk (by omega)
    exact ⟨round, List.mem_append_left _ hround⟩
  · obtain ⟨hne, hk⟩ := hstill k hk
    obtain hmem | hmem := List.mem_append.mp hmem
    · exact h.unfound k round hk hmem
    · exact hne (congrArg Answer.object (List.mem_singleton.mp hmem))

/-- A look that finds an object unsignaled. -/
theorem missed (h : Knows count x oo p) (state : σ) :
    Knows count x (oo + 1) { p with state, answers := p.answers ++ [⟨x, oo, false⟩] } where
  length := h.length
  count := h.count
  looked k hk hlt := by
    rcases eq_or_ne k oo with rfl | hne
    · exact ⟨x, List.mem_append_right _ List.mem_cons_self⟩
    · obtain ⟨round, hround⟩ := h.looked k hk (by omega)
      exact ⟨round, List.mem_append_left _ hround⟩
  unfound k round hk hmem := by
    obtain hmem | hmem := List.mem_append.mp hmem
    · exact h.unfound k round hk hmem
    · exact nomatch congrArg Answer.result (List.mem_singleton.mp hmem)

/-- A look that goes on. -/
theorem look (h : Knows count x oo p) (others : σ → σ) (obj : Win32SyncObject σ) (found : Bool)
    (hfound : (p.look others x oo obj).1 = some found) :
    Knows count x (oo + 1) (p.look others x oo obj).2 ∧
      (found = false → (p.look others x oo obj).2.sig_count = p.sig_count) := by
  obtain ⟨hbefore, hlook⟩ | ⟨state, hpending, ⟨-, hlook⟩ | ⟨-, hlook⟩ | ⟨-, hlook⟩⟩ :=
    p.look_cases others x oo obj
  · rw [hlook]
    exact ⟨h.passedOver hbefore _, fun _ ↦ rfl⟩
  · rw [hlook] at hfound
    exact nomatch hfound
  · rw [hlook] at hfound ⊢
    exact ⟨h.found hpending state, fun hno ↦ nomatch hfound.trans (congrArg some hno)⟩
  · rw [hlook]
    exact ⟨h.missed state, fun _ ↦ rfl⟩

theorem next (h : Knows count x count p) : Knows count (x + 1) 0 p where
  length := h.length
  count := h.count
  looked k hk _ := by
    obtain ⟨hinside, -⟩ := List.getElem?_eq_some_iff.mp hk
    exact h.looked k hk (.inr (h.length ▸ hinside))
  unfound := h.unfound

/-- A pass that goes on has not found all objects, and one that returns does not time out. -/
theorem pass (others : ℕ → σ → σ) (waitall : Bool) (rest : List (Win32SyncObject σ)) :
    ∀ {oo : ℕ} {p : ObjectPolls σ}, oo + rest.length = count → Knows count x oo p →
      p.sig_count ≠ count →
      ((p.pass others waitall count x oo rest).1 = none →
        Knows count x count (p.pass others waitall count x oo rest).2 ∧
          (p.pass others waitall count x oo rest).2.sig_count ≠ count) ∧
      (p.pass others waitall count x oo rest).1 ≠ some WAIT_TIMEOUT := by
  induction rest with
  | nil =>
    rintro oo p rfl h hmissing
    exact ⟨fun _ ↦ ⟨h, hmissing⟩, nofun⟩
  | cons obj rest ih =>
    intro oo p hlength h hmissing
    have hlook := h.look (others oo) obj
    rw [ObjectPolls.pass]
    generalize p.look (others oo) x oo obj = result at *
    obtain ⟨answer, after⟩ := result
    cases answer with
    | none => exact ⟨nofun, by simp [WAIT_ABANDONDED, WAIT_TIMEOUT]⟩
    | some found =>
      obtain ⟨hafter, hsame⟩ := hlook found rfl
      dsimp only
      split_ifs with hany hall
      · refine ⟨nofun, ?_⟩
        simp only [WAIT_OBJECT_0, WAIT_TIMEOUT, ne_eq, Option.some.injEq]
        omega
      · exact ⟨nofun, by simp [WAIT_OBJECT_0, WAIT_TIMEOUT]⟩
      · refine ih (by rw [← hlength, List.length_cons]; omega) hafter fun hcount ↦ ?_
        cases found with
        | false => exact hmissing ((hsame rfl).symm.trans hcount)
        | true => exact hall ⟨rfl, hcount⟩

/-- A call times out only when it has come through all rounds, and has not found all objects. -/
theorem rounds {others : ℕ → ℕ → σ → σ} {waitall : Bool} {objs : List (Win32SyncObject σ)}
    (more : ℕ) : ∀ {x : ℕ} {p : ObjectPolls σ}, Knows objs.length x 0 p →
      p.sig_count ≠ objs.length → (p.rounds others waitall objs more x).1 = WAIT_TIMEOUT →
      Knows objs.length (x + more) 0 (p.rounds others waitall objs more x).2 ∧
        (p.rounds others waitall objs more x).2.sig_count ≠ objs.length := by
  induction more with
  | zero => exact fun h hmissing _ ↦ ⟨h, hmissing⟩
  | succ more ih =>
    intro x p h hmissing htimeout
    obtain ⟨hgoesOn, hreturns⟩ :=
      pass (others x) waitall objs (Nat.zero_add _) h hmissing
    rw [ObjectPolls.rounds] at htimeout ⊢
    generalize p.pass (others x) waitall objs.length x 0 objs = outcome at *
    obtain ⟨result, after⟩ := outcome
    cases result with
    | some result => exact absurd (congrArg some htimeout) hreturns
    | none =>
      obtain ⟨hafter, hstill⟩ := hgoesOn rfl
      have hrounds : x + (more + 1) = x + 1 + more := by omega
      rw [hrounds]
      exact ih hafter.next hstill htimeout

/-- When not all objects are found, one was missed. -/
theorem exists_missed (h : Knows count x oo p) (hlooked : 0 < x) (hmissing : p.sig_count ≠ count) :
    ∃ k < count, p.Missed k := by
  have hpending : false ∈ p.signaled := by
    by_contra hnone
    have hall : ∀ slot ∈ p.signaled, true = slot := by
      intro slot hslot
      cases slot with
      | true => rfl
      | false => exact absurd hslot hnone
    exact hmissing (h.count.trans ((List.count_eq_length.mpr hall).trans h.length))
  obtain ⟨k, hk⟩ := List.mem_iff_getElem?.mp hpending
  refine ⟨k, h.length ▸ (List.getElem?_eq_some_iff.mp hk).1, h.looked k hk (.inl hlooked), ?_⟩
  exact fun round ↦ h.unfound k round hk

end Knows

section Always

variable {I : σ → Prop}

/-- Every answer so far was a success, and the invariant holds. -/
structure Always (I : σ → Prop) (p : ObjectPolls σ) : Prop where
  state : I p.state
  answers : ∀ answer ∈ p.answers, answer.result = true

theorem Always.look (h : Always I p) (x oo : ℕ) (hothers : ∀ s, I s → I (others s))
    (hobj : obj.StaysSignaled I) :
    ∃ found, (p.look others x oo obj).1 = some found ∧ Always I (p.look others x oo obj).2 := by
  have hstate := hothers p.state h.state
  obtain ⟨hanswer, hafter⟩ := hobj _ hstate
  obtain ⟨-, hlook⟩ | hlook := p.look_of_success x oo hanswer
  · rw [hlook]
    exact ⟨false, rfl, hstate, h.answers⟩
  · rw [hlook]
    refine ⟨true, rfl, hafter, fun answer hmem ↦ ?_⟩
    obtain hmem | hmem := List.mem_append.mp hmem
    · exact h.answers answer hmem
    · rw [List.mem_singleton.mp hmem]

theorem Always.pass (count x : ℕ) {others : ℕ → σ → σ} (hothers : ∀ oo s, I s → I (others oo s))
    (rest : List (Win32SyncObject σ)) (hrest : ∀ obj ∈ rest, obj.StaysSignaled I) :
    ∀ (oo : ℕ) {p : ObjectPolls σ}, Always I p →
      Always I (p.pass others true count x oo rest).2 ∧
        ∀ result, (p.pass others true count x oo rest).1 = some result →
          result = WAIT_OBJECT_0 := by
  induction rest with
  | nil => exact fun _ _ h ↦ ⟨h, nofun⟩
  | cons obj rest ih =>
    intro oo p h
    rw [List.forall_mem_cons] at hrest
    obtain ⟨found, hfound, hafter⟩ := h.look x oo (hothers oo) hrest.1
    rw [ObjectPolls.pass]
    generalize p.look (others oo) x oo obj = result at *
    obtain ⟨answer, after⟩ := result
    subst hfound
    simp only [Bool.true_eq_false, and_false, if_false]
    split_ifs with hall
    · exact ⟨hafter, fun result hresult ↦ (Option.some.inj hresult).symm⟩
    · exact ih hrest.2 (oo + 1) hafter

theorem Always.rounds {others : ℕ → ℕ → σ → σ} (hothers : ∀ x oo s, I s → I (others x oo s))
    {objs : List (Win32SyncObject σ)} (hobjs : ∀ obj ∈ objs, obj.StaysSignaled I) (more : ℕ) :
    ∀ {x : ℕ} {p : ObjectPolls σ}, Always I p →
      Always I (p.rounds others true objs more x).2 ∧
        ((p.rounds others true objs more x).1 = WAIT_TIMEOUT ∨
          (p.rounds others true objs more x).1 = WAIT_OBJECT_0) := by
  induction more with
  | zero => exact fun h ↦ ⟨h, .inl rfl⟩
  | succ more ih =>
    intro x p h
    obtain ⟨hafter, hreturns⟩ := Always.pass objs.length x (hothers x) objs hobjs 0 h
    rw [ObjectPolls.rounds]
    generalize p.pass (others x) true objs.length x 0 objs = outcome at *
    obtain ⟨result, after⟩ := outcome
    cases result with
    | none => exact ih hafter
    | some result => exact ⟨hafter, .inr (hreturns result rfl)⟩

end Always

end ObjectPolls

/-! ### Signaled objects -/

namespace Win32SyncObject

section Calls

variable {σ : Type*} (objs : List (Win32SyncObject σ)) (waitall : Bool) (milliseconds : ℤ)
  (state : σ) (others : ℕ → ℕ → σ → σ)

/-- A call that times out has missed an object. -/
def TimesOutOnMissed : Prop :=
  (WaitForMultipleObjects objs waitall milliseconds state others).1 = WAIT_TIMEOUT →
    ∃ k < objs.length,
      (WaitForMultipleObjects objs waitall milliseconds state others).2.Missed k

variable {milliseconds}

/-- Without a round, nothing is looked at. -/
theorem WaitForMultipleObjects_of_nonpos (hms : milliseconds ≤ 0) :
    WaitForMultipleObjects objs waitall milliseconds state others =
      (WAIT_TIMEOUT, .new state objs.length) := by
  rw [WaitForMultipleObjects, Int.toNat_of_nonpos hms]
  rfl

variable {objs waitall state others}

theorem rounds_nil (more : ℕ) : ∀ (x : ℕ) (p : ObjectPolls σ),
    p.rounds others waitall [] more x = (WAIT_TIMEOUT, p) := by
  induction more with
  | zero => exact fun _ _ ↦ rfl
  | succ more ih => exact fun x p ↦ ih (x + 1) p

theorem timesOutOnMissed_of_pos (hms : 0 < milliseconds) (hne : objs ≠ []) :
    TimesOutOnMissed objs waitall milliseconds state others := by
  intro htimeout
  have hmissing : (ObjectPolls.new state objs.length).sig_count ≠ objs.length :=
    fun hnone ↦ hne (List.eq_nil_of_length_eq_zero hnone.symm)
  obtain ⟨hends, hstill⟩ := (ObjectPolls.Knows.new state objs.length).rounds milliseconds.toNat
    hmissing htimeout
  exact hends.exists_missed (by omega) hstill

theorem timesOutOnMissed_iff :
    TimesOutOnMissed objs waitall milliseconds state others ↔ 0 < milliseconds ∧ objs ≠ [] := by
  refine ⟨fun h ↦ ?_, fun ⟨hms, hne⟩ ↦ timesOutOnMissed_of_pos hms hne⟩
  constructor
  · by_contra hms
    have hnone := WaitForMultipleObjects_of_nonpos objs waitall state others (Int.not_lt.mp hms)
    obtain ⟨k, -, ⟨round, hround⟩, -⟩ := h (congrArg Prod.fst hnone)
    rw [hnone] at hround
    exact List.not_mem_nil hround
  · rintro rfl
    obtain ⟨k, hk, -⟩ := h (congrArg Prod.fst (rounds_nil _ _ _))
    exact absurd hk (Nat.not_lt_zero k)

/-- Objects that stay signaled are seen. -/
theorem WaitForMultipleObjects_of_staysSignaled {I : σ → Prop} (waitall : Bool)
    (hms : 0 < milliseconds) (hne : objs ≠ []) (hstate : I state)
    (hothers : ∀ x oo s, I s → I (others x oo s))
    (hobjs : ∀ obj ∈ objs, obj.StaysSignaled I) :
    (WaitForMultipleObjects objs waitall milliseconds state others).1 = WAIT_OBJECT_0 := by
  cases waitall with
  | true =>
    have halways : ObjectPolls.Always I (.new state objs.length) := ⟨hstate, nofun⟩
    obtain ⟨hends, htimeout | hfound⟩ := halways.rounds hothers hobjs milliseconds.toNat (x := 0)
    · obtain ⟨k, -, ⟨round, hround⟩, -⟩ := timesOutOnMissed_of_pos hms hne htimeout
      exact nomatch hends.answers _ hround
    · exact hfound
  | false =>
    obtain ⟨obj, rest, rfl⟩ := List.exists_cons_of_ne_nil hne
    obtain ⟨more, hmore⟩ := Nat.exists_eq_add_one.mpr (Int.pos_iff_toNat_pos.mp hms)
    have hanswer := (hobjs obj List.mem_cons_self _ (hothers 0 0 state hstate)).1
    have hfirst : ((ObjectPolls.new state (obj :: rest).length).look (others 0 0) 0 0 obj).1 =
        some true := by
      obtain ⟨hbefore, -⟩ | hlook :=
        (ObjectPolls.new state (obj :: rest).length).look_of_success 0 0 hanswer
      · exact absurd rfl hbefore
      · rw [hlook]
    rw [WaitForMultipleObjects, hmore, ObjectPolls.rounds, ObjectPolls.pass]
    generalize ObjectPolls.look _ _ 0 0 obj = result at *
    obtain ⟨answer, after⟩ := result
    subst hfirst
    rfl

end Calls

end Win32SyncObject

section Events

variable {ι : Type*} [DecidableEq ι] {ids : List ι}

/-- The events of a list are signaled, and are reset by nothing but a call. -/
def AllSignaled (ids : List ι) (events : ι → Event) : Prop :=
  ∀ id ∈ ids, (events id).m_manualReset = true ∧ (events id).m_signaled = true

theorem Event.poll_manualReset {e : Event} (hmanual : e.m_manualReset = true)
    (hsignaled : e.m_signaled = true) : e.poll = (true, e) := by
  simp [Event.poll, hmanual, hsignaled]

theorem Event.syncObject_staysSignaled {id : ι} (hid : id ∈ ids) :
    (Event.syncObject id).StaysSignaled (AllSignaled ids) := by
  intro events hall
  obtain ⟨hmanual, hsignaled⟩ := hall id hid
  change some (events id).poll.1 = some true ∧
    AllSignaled ids (Function.update events id (events id).poll.2)
  rw [Event.poll_manualReset hmanual hsignaled, Function.update_eq_self]
  exact ⟨rfl, hall⟩

variable {σ : Type*}

/-- Assumes: manual-reset events that are signaled, and other threads that leave them signaled. The
call sees them, and does not time out, exactly when its timeout is positive. Whatever its objects
are, a call that times out has missed one of them exactly when its timeout is positive, and there
are objects. -/
theorem WaitForMultipleObjects_sees_iff (hne : ids ≠ []) {events : ι → Event}
    (hsignaled : AllSignaled ids events) {others : ℕ → ℕ → (ι → Event) → ι → Event}
    (hothers : ∀ x oo events, AllSignaled ids events → AllSignaled ids (others x oo events))
    (objs : List (Win32SyncObject σ)) (state : σ) (changes : ℕ → ℕ → σ → σ) (waitall : Bool)
    (milliseconds : ℤ) :
    ((Win32SyncObject.WaitForMultipleObjects (ids.map Event.syncObject) waitall milliseconds events
          others).1 = WAIT_OBJECT_0 ∧
        (Win32SyncObject.WaitForMultipleObjects (ids.map Event.syncObject) waitall milliseconds
          events others).1 ≠ WAIT_TIMEOUT ↔ 0 < milliseconds) ∧
      (Win32SyncObject.TimesOutOnMissed objs waitall milliseconds state changes ↔
        0 < milliseconds ∧ objs ≠ []) := by
  refine ⟨⟨fun ⟨_, htimeout⟩ ↦ ?_, fun hms ↦ ?_⟩, Win32SyncObject.timesOutOnMissed_iff⟩
  · by_contra hms
    rw [Win32SyncObject.WaitForMultipleObjects_of_nonpos _ _ _ _ (Int.not_lt.mp hms)] at htimeout
    exact htimeout rfl
  · have hobjs : ∀ obj ∈ ids.map Event.syncObject, obj.StaysSignaled (AllSignaled ids) := by
      intro obj hobj
      obtain ⟨id, hid, rfl⟩ := List.mem_map.mp hobj
      exact Event.syncObject_staysSignaled hid
    have hsees := Win32SyncObject.WaitForMultipleObjects_of_staysSignaled waitall hms
      (mt List.map_eq_nil_iff.mp hne) hsignaled hothers hobjs
    rw [hsees]
    exact ⟨rfl, by decide⟩

/-- Two events that are signaled, while other threads set a third. -/
theorem WaitForMultipleObjects_sees_two :
    (Win32SyncObject.WaitForMultipleObjects [Event.syncObject 0, Event.syncObject 1] true 5
        (fun _ : ℕ ↦ ⟨true, true⟩)
        fun _ _ events ↦ Function.update events 2 ⟨true, true⟩).1 = WAIT_OBJECT_0 ∧
      Win32SyncObject.TimesOutOnMissed [Event.syncObject 0, Event.syncObject 1] true 5
        (fun _ : ℕ ↦ ⟨true, false⟩) fun _ oo events ↦ Function.update events oo ⟨true, true⟩ := by
  have hothers (x oo : ℕ) (events : ℕ → Event) (hsignaled : AllSignaled [0, 1] events) :
      AllSignaled [0, 1] (Function.update events 2 ⟨true, true⟩) := by
    intro id hid
    have hother : id ≠ 2 := fun htwo ↦ absurd (htwo ▸ hid) (by decide)
    rw [Function.update_of_ne hother]
    exact hsignaled id hid
  have hiff := WaitForMultipleObjects_sees_iff (List.cons_ne_nil 0 [1])
    (fun _ _ ↦ ⟨rfl, rfl⟩ : AllSignaled [0, 1] fun _ ↦ ⟨true, true⟩) hothers
    [Event.syncObject 0, Event.syncObject 1] (fun _ ↦ ⟨true, false⟩)
    (fun _ oo events ↦ Function.update events oo ⟨true, true⟩) true 5
  exact ⟨(hiff.1.mpr (by decide)).1, hiff.2.mpr ⟨by decide, List.cons_ne_nil _ _⟩⟩

/-- A call with the timeout `INFINITE` does not see an event that is signaled. -/
theorem infinite_wait_times_out :
    ¬∀ (ids : List ℕ) (events : ℕ → Event) (others : ℕ → ℕ → (ℕ → Event) → ℕ → Event)
        (waitall : Bool) (milliseconds : ℤ), ids ≠ [] → AllSignaled ids events →
      (∀ x oo events, AllSignaled ids events → AllSignaled ids (others x oo events)) →
      milliseconds = INFINITE ∨ 0 ≤ milliseconds →
      (Win32SyncObject.WaitForMultipleObjects (ids.map Event.syncObject) waitall milliseconds events
          others).1 = WAIT_OBJECT_0 ∧
        (Win32SyncObject.WaitForMultipleObjects (ids.map Event.syncObject) waitall milliseconds
          events others).1 ≠ WAIT_TIMEOUT := by
  intro h
  have hcall := h [0] (fun _ ↦ ⟨true, true⟩) (fun _ _ events ↦ events) false INFINITE
    (List.cons_ne_nil 0 []) (fun _ _ ↦ ⟨rfl, rfl⟩) (fun _ _ _ hall ↦ hall) (.inl rfl)
  exact hcall.2 rfl

end Events

end RdbLibs.Thread
