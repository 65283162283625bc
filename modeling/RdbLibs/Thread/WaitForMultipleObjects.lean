import Mathlib.Data.List.Count
import RdbLibs.Thread.Event

/-!
# `WaitForMultipleObjects`

The function of `Src/Thread/threadUtil.cpp` where `WIN32` is not defined, for objects that are
events. It looks at the objects in turn, once in each of `milliseconds` rounds, and polls those that
it has not found signaled yet. Before each look, other threads may have called `setEvent` on any
events. An object is named by a number, and a list may name one more than once.

With `waitall`, the call should take all signals or none. It takes each signal that it finds, and
does not give it back when it runs out of rounds.
-/

set_option autoImplicit false
set_option relaxedAutoImplicit false

namespace RdbLibs.Thread

/-- `WAIT_TIMEOUT`. -/
def WAIT_TIMEOUT : ℤ := 0

/-- `WAIT_OBJECT_0`. -/
def WAIT_OBJECT_0 : ℤ := 1

/-- The events, and the variables of the call. `taken` are the events whose signal it has consumed.
-/
structure Polls where
  events : ℕ → Event
  signaled : List Bool
  sig_count : ℕ
  taken : List ℕ

/-- Calls of `setEvent` for some events. -/
def setEvents (events : ℕ → Event) (ids : List ℕ) : ℕ → Event :=
  fun id ↦ if id ∈ ids then (events id).setEvent else events id

namespace Polls

/-- The call before its first round. -/
def new (events : ℕ → Event) (count : ℕ) : Polls := ⟨events, List.replicate count false, 0, []⟩

/-- `syncObjectTimedWait` of an event, without a timeout. -/
def poll (p : Polls) (id : ℕ) : Bool × Polls :=
  let (result, event) := (p.events id).poll
  (result, { p with
    events := Function.update p.events id event
    taken := if (p.events id).m_signaled = true ∧ event.m_signaled = false then p.taken ++ [id]
      else p.taken })

/-- The body of the inner loop, up to the tests of what is found. -/
def look (p : Polls) (sets : List ℕ) (oo id : ℕ) : Bool × Polls :=
  let p := { p with events := setEvents p.events sets }
  if p.signaled[oo]? = some false then
    let (result, p) := p.poll id
    if result = true then
      (true, { p with signaled := p.signaled.set oo true, sig_count := p.sig_count + 1 })
    else (false, p)
  else (false, p)

/-- The inner loop, from an object on. -/
def pass (others : ℕ → List ℕ) (waitall : Bool) (count : ℕ) :
    ℕ → List ℕ → Polls → Option ℤ × Polls
  | _, [], p => (none, p)
  | oo, id :: rest, p =>
    let (found, p) := p.look (others oo) oo id
    if found = true ∧ waitall = false then (some (WAIT_OBJECT_0 + oo), p)
    else if found = true ∧ p.sig_count = count then (some WAIT_OBJECT_0, p)
    else pass others waitall count (oo + 1) rest p

/-- The outer loop, for some more rounds. -/
def rounds (others : ℕ → ℕ → List ℕ) (waitall : Bool) (objs : List ℕ) :
    ℕ → ℕ → Polls → ℤ × Polls
  | 0, _, p => (WAIT_TIMEOUT, p)
  | more + 1, x, p =>
    match p.pass (others x) waitall objs.length 0 objs with
    | (some result, p) => (result, p)
    | (none, p) => rounds others waitall objs more (x + 1) p

end Polls

/-- `WaitForMultipleObjects`. `others x oo` are the events that other threads set before round `x`
comes to object `oo`, and behind the look before. -/
def WaitForMultipleObjects (objs : List ℕ) (waitall : Bool) (milliseconds : ℤ)
    (events : ℕ → Event) (others : ℕ → ℕ → List ℕ) : ℤ × Polls :=
  (Polls.new events objs.length).rounds others waitall objs milliseconds.toNat 0

/-! ### Arrivals -/

section Arrivals

variable (objs : List ℕ) (events : ℕ → Event) (others : ℕ → ℕ → List ℕ)

/-- An event was signaled at first, or was set before round `x` has passed object `oo`. -/
def Arrived (x oo id : ℕ) : Prop :=
  (events id).m_signaled = true ∨ (∃ earlier < x, ∃ k < objs.length, id ∈ others earlier k) ∨
    ∃ k < oo, id ∈ others x k

/-- An entry of the list is signaled when the call looks at it for the last time. -/
def ArrivesInTime (milliseconds : ℤ) (k : ℕ) : Prop :=
  ∃ id, objs[k]? = some id ∧ Arrived objs events others (milliseconds.toNat - 1) (k + 1) id

/-- A call with `waitall` that times out has consumed no signal. -/
def AllOrNothing (milliseconds : ℤ) : Prop :=
  (WaitForMultipleObjects objs true milliseconds events others).1 = WAIT_TIMEOUT →
    (WaitForMultipleObjects objs true milliseconds events others).2.taken = []

variable {objs events others} {x oo id : ℕ}

theorem arrived_succ :
    Arrived objs events others x (oo + 1) id ↔
      Arrived objs events others x oo id ∨ id ∈ others x oo := by
  simp only [Arrived, Nat.lt_succ_iff_lt_or_eq, or_and_right, exists_or, exists_eq_left, or_assoc]

theorem arrived_next :
    Arrived objs events others (x + 1) 0 id ↔ Arrived objs events others x objs.length id := by
  simp only [Arrived, Nat.lt_succ_iff_lt_or_eq, or_and_right, exists_or, exists_eq_left,
    Nat.not_lt_zero, false_and, exists_false, or_false]

theorem Arrived.mono {later : ℕ} (hx : x ≤ later) (hinside : oo ≤ objs.length)
    (h : Arrived objs events others x oo id) : Arrived objs events others later oo id := by
  obtain h | ⟨earlier, hlt, hset⟩ | ⟨k, hk, hset⟩ := h
  · exact .inl h
  · exact .inr (.inl ⟨earlier, Nat.lt_of_lt_of_le hlt hx, hset⟩)
  · obtain rfl | hlt := Nat.eq_or_lt_of_le hx
    · exact .inr (.inr ⟨k, hk, hset⟩)
    · exact .inr (.inl ⟨x, hlt, k, Nat.lt_of_lt_of_le hk hinside, hset⟩)

end Arrivals

/-! ### What a call has done -/

namespace Polls

variable {p : Polls} {sets : List ℕ} {oo id : ℕ}

@[simp] theorem m_manualReset_setEvents (events : ℕ → Event) (ids : List ℕ) (id : ℕ) :
    (setEvents events ids id).m_manualReset = (events id).m_manualReset := by
  rw [setEvents]
  split_ifs <;> rfl

theorem m_signaled_setEvents (events : ℕ → Event) (ids : List ℕ) (id : ℕ) :
    (setEvents events ids id).m_signaled = true ↔ (events id).m_signaled = true ∨ id ∈ ids := by
  rw [setEvents]
  split_ifs with h <;> simp [h, Event.setEvent]

/-- A look at an object that was found before, or whose event is not signaled, takes nothing. -/
theorem look_of_not
    (hnot : p.signaled[oo]? = some false → (setEvents p.events sets id).m_signaled = false) :
    p.look sets oo id = (false, { p with events := setEvents p.events sets }) := by
  simp only [look, poll, Event.poll]
  split_ifs with h <;> simp_all

/-- A look at the signal of an auto-reset event takes it. -/
theorem look_of_signaled (hpending : p.signaled[oo]? = some false)
    (hsignaled : (setEvents p.events sets id).m_signaled = true)
    (hauto : (p.events id).m_manualReset = false) :
    p.look sets oo id = (true,
      { events := Function.update (setEvents p.events sets) id
          { setEvents p.events sets id with m_signaled := false }
        signaled := p.signaled.set oo true
        sig_count := p.sig_count + 1
        taken := p.taken ++ [id] }) := by
  simp [look, poll, Event.poll, hpending, hsignaled, hauto]

end Polls

section Progress

variable (objs : List ℕ) (events : ℕ → Event) (others : ℕ → ℕ → List ℕ)

/-- What a call with `waitall` for auto-reset events knows in round `x` of its rounds up to `last`,
when object `oo` is the next. An event that it has not taken was not signaled at any look. -/
structure Progress (last x oo : ℕ) (p : Polls) : Prop where
  length : p.signaled.length = objs.length
  count : p.sig_count = p.signaled.count true
  auto : ∀ id ∈ objs, (p.events id).m_manualReset = false
  kept : ∀ id, id ∉ p.taken → Arrived objs events others x oo id → (p.events id).m_signaled = true
  arrived : ∀ id, (p.events id).m_signaled = true → Arrived objs events others x oo id
  looked : ∀ round k id : ℕ, round < x ∨ round = x ∧ k < oo → objs[k]? = some id → id ∉ p.taken →
    ¬Arrived objs events others round (k + 1) id
  found : ∀ k id : ℕ, p.signaled[k]? = some true → objs[k]? = some id →
    Arrived objs events others last (k + 1) id
  took : ∀ id : ℕ, id ∈ p.taken ↔ ∃ k : ℕ, objs[k]? = some id ∧ p.signaled[k]? = some true

variable {objs events others} {last x oo id other : ℕ} {p : Polls}

theorem Progress.new (hauto : ∀ id ∈ objs, (events id).m_manualReset = false) :
    Progress objs events others last 0 0 (.new events objs.length) where
  length := List.length_replicate
  count := by simp [Polls.new, List.count_replicate]
  auto := hauto
  kept id _ harrived := by simpa [Arrived, Polls.new] using harrived
  arrived id hsignaled := .inl hsignaled
  looked round k id hbefore := by omega
  found k id hfound := by simp [Polls.new, List.getElem?_replicate] at hfound
  took id := by simp [Polls.new, List.getElem?_replicate]

namespace Progress

theorem kept_setEvents (h : Progress objs events others last x oo p) (hother : other ∉ p.taken)
    (harrived : Arrived objs events others x (oo + 1) other) :
    (setEvents p.events (others x oo) other).m_signaled = true :=
  (Polls.m_signaled_setEvents ..).mpr ((arrived_succ.mp harrived).imp_left (h.kept other hother))

theorem arrived_setEvents (h : Progress objs events others last x oo p)
    (hsignaled : (setEvents p.events (others x oo) other).m_signaled = true) :
    Arrived objs events others x (oo + 1) other :=
  arrived_succ.mpr (((Polls.m_signaled_setEvents ..).mp hsignaled).imp_left (h.arrived other))

/-- A look that finds nothing. -/
theorem look_of_not (h : Progress objs events others last x oo p) (hid : objs[oo]? = some id)
    (hnot : p.signaled[oo]? = some false →
      (setEvents p.events (others x oo) id).m_signaled = false) :
    Progress objs events others last x (oo + 1)
      { p with events := setEvents p.events (others x oo) } where
  length := h.length
  count := h.count
  auto other hother := by simpa using h.auto other hother
  kept other hother harrived := h.kept_setEvents hother harrived
  arrived other hsignaled := h.arrived_setEvents hsignaled
  looked round k other hbefore hk hother harrived := by
    obtain hearlier | ⟨rfl, rfl⟩ : (round < x ∨ round = x ∧ k < oo) ∨ round = x ∧ k = oo := by
      omega
    · exact h.looked round k other hearlier hk hother harrived
    · have hsignaled := h.kept_setEvents hother harrived
      obtain rfl : id = other := by simpa [hid] using hk
      have hinside : k < p.signaled.length := h.length ▸ (List.getElem?_eq_some_iff.mp hid).1
      cases hslot : p.signaled[k] with
      | false => simp [hnot (by simp [hslot, hinside])] at hsignaled
      | true => exact hother ((h.took _).mpr ⟨k, hid, by simp [hslot, hinside]⟩)
  found := h.found
  took := h.took

/-- The objects that are found once another one is. -/
theorem getElem?_set_true {flags : List Bool} {k : ℕ} (hinside : oo < flags.length) :
    (flags.set oo true)[k]? = some true ↔ k = oo ∨ flags[k]? = some true := by
  rcases eq_or_ne oo k with rfl | hne
  · simp [hinside]
  · simp [List.getElem?_set_ne hne, hne.symm]

/-- The events whose signals a look leaves as they are. -/
theorem m_signaled_update (hne : other ≠ id) {event : Event} {current : ℕ → Event} :
    (Function.update current id event other).m_signaled = (current other).m_signaled := by
  rw [Function.update_of_ne hne]

/-- A look that finds the signal. -/
theorem look_of_signaled (h : Progress objs events others last x oo p) (hlast : x ≤ last)
    (hid : objs[oo]? = some id) (hpending : p.signaled[oo]? = some false)
    (hsignaled : (setEvents p.events (others x oo) id).m_signaled = true) :
    Progress objs events others last x (oo + 1)
      { events := Function.update (setEvents p.events (others x oo)) id
          { setEvents p.events (others x oo) id with m_signaled := false }
        signaled := p.signaled.set oo true
        sig_count := p.sig_count + 1
        taken := p.taken ++ [id] } := by
  obtain ⟨hinside, hslot⟩ := List.getElem?_eq_some_iff.mp hpending
  have hfirst := h.arrived_setEvents hsignaled
  refine ⟨?_, ?_, ?_, ?_, ?_, ?_, ?_, ?_⟩
  · simp [h.length]
  · simp [h.count, List.count_set, hinside, hslot]
  · intro other hother
    rcases eq_or_ne other id with rfl | hne
    · simpa using h.auto other hother
    · simpa [Function.update_of_ne hne] using h.auto other hother
  · intro other hother harrived
    simp only [List.mem_append, List.mem_singleton, not_or] at hother
    rw [m_signaled_update hother.2]
    exact h.kept_setEvents hother.1 harrived
  · intro other hset
    rcases eq_or_ne other id with rfl | hne
    · exact hfirst
    · exact h.arrived_setEvents (m_signaled_update hne ▸ hset)
  · intro round k other hbefore hk hother
    simp only [List.mem_append, List.mem_singleton, not_or] at hother
    have hne : k ≠ oo := by
      rintro rfl
      exact hother.2 (by simpa [hid] using hk.symm)
    exact h.looked round k other (by omega) hk hother.1
  · intro k other hfound hk
    obtain rfl | hfound := (getElem?_set_true hinside).mp hfound
    · obtain rfl : id = other := by simpa [hid] using hk
      exact hfirst.mono hlast (Nat.succ_le_of_lt (List.getElem?_eq_some_iff.mp hid).1)
    · exact h.found k other hfound hk
  · intro other
    simp only [List.mem_append, List.mem_singleton, h.took other, getElem?_set_true hinside,
      and_or_left, exists_or, exists_eq_right, hid, Option.some.injEq]
    rw [or_comm, eq_comm]

/-- A look, whether it finds the signal or not. -/
theorem look (h : Progress objs events others last x oo p) (hlast : x ≤ last)
    (hid : objs[oo]? = some id) :
    Progress objs events others last x (oo + 1) (p.look (others x oo) oo id).2 ∧
      ((p.look (others x oo) oo id).1 = false →
        (p.look (others x oo) oo id).2.sig_count = p.sig_count) := by
  by_cases hfinds : p.signaled[oo]? = some false ∧
      (setEvents p.events (others x oo) id).m_signaled = true
  · rw [Polls.look_of_signaled hfinds.1 hfinds.2 (h.auto id (List.mem_of_getElem? hid))]
    exact ⟨h.look_of_signaled hlast hid hfinds.1 hfinds.2, by simp⟩
  · have hnot : p.signaled[oo]? = some false →
        (setEvents p.events (others x oo) id).m_signaled = false := by simpa using hfinds
    rw [Polls.look_of_not hnot]
    exact ⟨h.look_of_not hid hnot, fun _ ↦ rfl⟩

/-- The next round. -/
theorem next (h : Progress objs events others last x objs.length p) :
    Progress objs events others last (x + 1) 0 p where
  length := h.length
  count := h.count
  auto := h.auto
  kept id hid harrived := h.kept id hid (arrived_next.mp harrived)
  arrived id hsignaled := arrived_next.mpr (h.arrived id hsignaled)
  looked round k id hbefore hk := by
    obtain ⟨hinside, -⟩ := List.getElem?_eq_some_iff.mp hk
    exact h.looked round k id (by omega) hk
  found := h.found
  took := h.took

/-- When all signals are found, every entry was signaled in time. -/
theorem all_found (h : Progress objs events others last x oo p) (hcount : p.sig_count = objs.length)
    {k : ℕ} (hid : objs[k]? = some id) : Arrived objs events others last (k + 1) id := by
  have hall : ∀ slot ∈ p.signaled, true = slot :=
    List.count_eq_length.mp (h.count.symm.trans (hcount.trans h.length.symm))
  obtain ⟨hinside, -⟩ := List.getElem?_eq_some_iff.mp hid
  have hslot : k < p.signaled.length := h.length.symm ▸ hinside
  refine h.found k id ?_ hid
  rw [List.getElem?_eq_getElem hslot, ← hall _ (List.getElem_mem hslot)]

/-- When not all signals are found, one is still looked for. -/
theorem exists_pending (h : Progress objs events others last x oo p)
    (hcount : p.sig_count ≠ objs.length) :
    ∃ k id : ℕ, objs[k]? = some id ∧ p.signaled[k]? = some false := by
  have hpending : ¬∀ slot ∈ p.signaled, true = slot := fun hall ↦
    hcount (h.count.trans ((List.count_eq_length.mpr hall).trans h.length))
  push Not at hpending
  obtain ⟨slot, hmem, hslot⟩ := hpending
  obtain ⟨k, hk⟩ := List.mem_iff_getElem?.mp hmem
  obtain ⟨hinside, -⟩ := List.getElem?_eq_some_iff.mp hk
  have hobject : k < objs.length := h.length ▸ hinside
  exact ⟨k, objs[k], List.getElem?_eq_getElem hobject, by simpa [hk] using hslot.symm⟩

/-- A pass either finds the last signal, or comes to its end with one missing. -/
theorem pass (hlast : x ≤ last) {rest : List ℕ} (hrest : objs.drop oo = rest)
    (hoo : oo ≤ objs.length) (h : Progress objs events others last x oo p)
    (hcount : objs ≠ [] → p.sig_count ≠ objs.length) :
    ((p.pass (others x) true objs.length oo rest).1 = none →
      Progress objs events others last x objs.length
        (p.pass (others x) true objs.length oo rest).2 ∧
      (objs ≠ [] → (p.pass (others x) true objs.length oo rest).2.sig_count ≠ objs.length)) ∧
    ∀ result, (p.pass (others x) true objs.length oo rest).1 = some result →
      result = WAIT_OBJECT_0 ∧
        ∀ k id : ℕ, objs[k]? = some id → Arrived objs events others last (k + 1) id := by
  induction rest generalizing oo p with
  | nil =>
    obtain rfl : oo = objs.length := Nat.le_antisymm hoo (List.drop_eq_nil_iff.mp hrest)
    exact ⟨fun _ ↦ ⟨h, hcount⟩, nofun⟩
  | cons id rest ih =>
    have hid : objs[oo]? = some id := by
      rw [← List.head?_drop, hrest, List.head?_cons]
    have hnext : objs.drop (oo + 1) = rest := by
      rw [← List.tail_drop, hrest, List.tail_cons]
    obtain ⟨hlook, hsame⟩ := h.look hlast hid
    rw [Polls.pass]
    simp only [Bool.true_eq_false, and_false, if_false]
    split_ifs with hdone
    · refine ⟨nofun, fun result hresult ↦ ⟨by simpa using hresult.symm, fun k id hk ↦ ?_⟩⟩
      exact hlook.all_found hdone.2 hk
    · refine ih hnext (List.getElem?_eq_some_iff.mp hid).1 hlook fun hne ↦ ?_
      cases hfound : (p.look (others x oo) oo id).1 with
      | false => exact hsame hfound ▸ hcount hne
      | true => exact fun hall ↦ hdone ⟨hfound, hall⟩

/-- Rounds up to the last either find the last signal, or run out with one missing. -/
theorem rounds {more : ℕ} (hmore : x + more = last + 1)
    (h : Progress objs events others last x 0 p)
    (hcount : objs ≠ [] → p.sig_count ≠ objs.length) :
    (p.rounds others true objs more x).1 = WAIT_TIMEOUT ∧
        Progress objs events others last (last + 1) 0 (p.rounds others true objs more x).2 ∧
        (objs ≠ [] → (p.rounds others true objs more x).2.sig_count ≠ objs.length) ∨
      (p.rounds others true objs more x).1 = WAIT_OBJECT_0 ∧
        ∀ k id : ℕ, objs[k]? = some id → Arrived objs events others last (k + 1) id := by
  induction more generalizing x p with
  | zero =>
    obtain rfl : x = last + 1 := hmore
    exact .inl ⟨rfl, h, hcount⟩
  | succ more ih =>
    obtain ⟨hgoesOn, hreturns⟩ := h.pass (by omega) rfl (Nat.zero_le _) hcount
    simp only [List.drop_zero] at hgoesOn hreturns
    rw [Polls.rounds]
    generalize p.pass (others x) true objs.length 0 objs = result at *
    obtain ⟨status, after⟩ := result
    cases status with
    | none =>
      obtain ⟨hafter, hmissing⟩ := hgoesOn rfl
      exact ih (by omega) hafter.next hmissing
    | some status => exact .inr (hreturns status rfl)

end Progress

end Progress

/-! ### All signals or none -/

section AllOrNothing

variable {objs : List ℕ} {milliseconds : ℤ} {events : ℕ → Event} {others : ℕ → ℕ → List ℕ}

/-- Without a round, nothing is taken. -/
theorem AllOrNothing.of_lt (hms : milliseconds < 1) :
    AllOrNothing objs events others milliseconds := by
  intro _
  have hnone : milliseconds.toNat = 0 := by omega
  rw [WaitForMultipleObjects, hnone]
  rfl

/-- How a call with a round ends. -/
theorem waitAll_returns (others : ℕ → ℕ → List ℕ)
    (hauto : ∀ id ∈ objs, (events id).m_manualReset = false) (hms : 1 ≤ milliseconds) :
    (WaitForMultipleObjects objs true milliseconds events others).1 = WAIT_TIMEOUT ∧
        Progress objs events others (milliseconds.toNat - 1) milliseconds.toNat 0
          (WaitForMultipleObjects objs true milliseconds events others).2 ∧
        (objs ≠ [] →
          (WaitForMultipleObjects objs true milliseconds events others).2.sig_count ≠ objs.length) ∨
      (WaitForMultipleObjects objs true milliseconds events others).1 = WAIT_OBJECT_0 ∧
        ∀ k < objs.length, ArrivesInTime objs events others milliseconds k := by
  have hlast : milliseconds.toNat - 1 + 1 = milliseconds.toNat := by omega
  have hnew : objs ≠ [] → (Polls.new events objs.length).sig_count ≠ objs.length :=
    fun hne h ↦ hne (List.eq_nil_of_length_eq_zero h.symm)
  have hstart : Progress objs events others (milliseconds.toNat - 1) 0 0
      (.new events objs.length) := .new hauto
  have hends := hstart.rounds ((Nat.zero_add milliseconds.toNat).trans hlast.symm) hnew
  rw [hlast] at hends
  refine hends.imp_right fun ⟨hresult, hall⟩ ↦ ⟨hresult, fun k hk ↦ ?_⟩
  exact ⟨objs[k], List.getElem?_eq_getElem hk, hall k _ (List.getElem?_eq_getElem hk)⟩

/-- If no event of the list is signaled at any look, nothing is taken. -/
theorem AllOrNothing.of_none (hauto : ∀ id ∈ objs, (events id).m_manualReset = false)
    (hnone : ∀ k, ¬ArrivesInTime objs events others milliseconds k) :
    AllOrNothing objs events others milliseconds := by
  rcases Int.lt_or_le milliseconds 1 with hms | hms
  · exact .of_lt hms
  · intro htimeout
    obtain ⟨-, hprogress, -⟩ | ⟨hresult, -⟩ := waitAll_returns others hauto hms
    · refine List.eq_nil_iff_forall_not_mem.mpr fun id hid ↦ ?_
      obtain ⟨k, hk, hfound⟩ := (hprogress.took id).mp hid
      exact hnone k ⟨id, hk, hprogress.found k id hfound hk⟩
    · exact absurd (htimeout.symm.trans hresult) (by decide)

/-- If the list names no event twice and each event is signaled in time, all signals are found. -/
theorem AllOrNothing.of_all (hauto : ∀ id ∈ objs, (events id).m_manualReset = false)
    (hnodup : objs.Nodup)
    (hall : ∀ k < objs.length, ArrivesInTime objs events others milliseconds k) :
    AllOrNothing objs events others milliseconds := by
  rcases Int.lt_or_le milliseconds 1 with hms | hms
  · exact .of_lt hms
  · intro htimeout
    obtain ⟨-, hprogress, hmissing⟩ | ⟨hresult, -⟩ := waitAll_returns others hauto hms
    · rcases eq_or_ne objs [] with rfl | hne
      · refine List.eq_nil_iff_forall_not_mem.mpr fun id hid ↦ ?_
        obtain ⟨k, hk, -⟩ := (hprogress.took id).mp hid
        simp at hk
      · obtain ⟨k, id, hk, hpending⟩ := hprogress.exists_pending (hmissing hne)
        obtain ⟨hinside, -⟩ := List.getElem?_eq_some_iff.mp hk
        obtain ⟨named, hnamed, harrived⟩ := hall k hinside
        obtain rfl : id = named := by simpa [hk] using hnamed
        refine absurd harrived (hprogress.looked _ k id (by omega) hk fun htaken ↦ ?_)
        obtain ⟨slot, hslot, hfound⟩ := (hprogress.took id).mp htaken
        obtain rfl : slot = k := (List.getElem?_inj
          (List.getElem?_eq_some_iff.mp hslot).1 hnodup).mp (hslot.trans hk.symm)
        simp [hpending] at hfound
    · exact absurd (htimeout.symm.trans hresult) (by decide)

/-- If an event of the list is signaled in time and another one is not, the call takes a signal and
times out. -/
theorem AllOrNothing.cases (hauto : ∀ id ∈ objs, (events id).m_manualReset = false)
    (hms : 1 ≤ milliseconds) (h : AllOrNothing objs events others milliseconds) :
    (∀ k, ¬ArrivesInTime objs events others milliseconds k) ∨
      ∀ k < objs.length, ArrivesInTime objs events others milliseconds k := by
  obtain ⟨htimeout, hprogress, -⟩ | ⟨-, hall⟩ := waitAll_returns others hauto hms
  · refine .inl fun k ⟨id, hk, harrived⟩ ↦ ?_
    exact hprogress.looked _ k id (by omega) hk (by simp [h htimeout]) harrived
  · exact .inr hall

end AllOrNothing

/-- A call with `waitall` for auto-reset events takes all signals or none, if and only if it makes
no round, or no event of the list is signaled at its last look, or each of them is. In this, the
list names no event twice. One that does can also have too few signals for its entries, so that the
last of the three cases is not enough. -/
theorem allOrNothing_iff (objs : List ℕ) (milliseconds : ℤ) (events : ℕ → Event)
    (others : ℕ → ℕ → List ℕ) (hauto : ∀ id ∈ objs, (events id).m_manualReset = false) :
    (objs.Nodup →
      (AllOrNothing objs events others milliseconds ↔
        milliseconds < 1 ∨ (∀ k, ¬ArrivesInTime objs events others milliseconds k) ∨
          ∀ k < objs.length, ArrivesInTime objs events others milliseconds k)) ∧
    (AllOrNothing objs events others milliseconds →
      milliseconds < 1 ∨ (∀ k, ¬ArrivesInTime objs events others milliseconds k) ∨
        ∀ k < objs.length, ArrivesInTime objs events others milliseconds k) ∧
    (milliseconds < 1 ∨ (∀ k, ¬ArrivesInTime objs events others milliseconds k) →
      AllOrNothing objs events others milliseconds) := by
  have hnecessary : AllOrNothing objs events others milliseconds →
      milliseconds < 1 ∨ (∀ k, ¬ArrivesInTime objs events others milliseconds k) ∨
        ∀ k < objs.length, ArrivesInTime objs events others milliseconds k := fun h ↦
    (Int.lt_or_le milliseconds 1).imp_right (h.cases hauto)
  refine ⟨fun hnodup ↦ ⟨hnecessary, ?_⟩, hnecessary, ?_⟩
  · rintro (hms | hnone | hall)
    · exact .of_lt hms
    · exact .of_none hauto hnone
    · exact .of_all hauto hnodup hall
  · rintro (hms | hnone)
    · exact .of_lt hms
    · exact .of_none hauto hnone

/-- Each of two auto-reset events is set in a round of its own. -/
theorem allOrNothing_two :
    AllOrNothing [0, 1] (fun _ ↦ .new false) (fun x oo ↦ if x = oo then [oo] else []) 2 := by
  have hfirst : ArrivesInTime [0, 1] (fun _ ↦ .new false)
      (fun x oo ↦ if x = oo then [oo] else []) 2 0 :=
    ⟨0, rfl, .inr (.inl ⟨0, by decide, 0, by decide, by decide⟩)⟩
  have hsecond : ArrivesInTime [0, 1] (fun _ ↦ .new false)
      (fun x oo ↦ if x = oo then [oo] else []) 2 1 :=
    ⟨1, rfl, .inr (.inr ⟨1, by decide, by decide⟩)⟩
  refine ((allOrNothing_iff [0, 1] 2 (fun _ ↦ .new false) _ (by simp [Event.new])).1
    (by simp)).mpr (.inr (.inr fun k hk ↦ ?_))
  match k, hk with
  | 0, _ => exact hfirst
  | 1, _ => exact hsecond

/-- Of two auto-reset events, the first is signaled and the second is not. -/
theorem not_allOrNothing_two : ¬∀ objs milliseconds events others,
    (∀ id ∈ objs, (events id).m_manualReset = false) →
      AllOrNothing objs events others milliseconds := by
  intro h
  have htaken := h [0, 1] 1 (fun id ↦ if id = 0 then (Event.new false).setEvent else .new false)
    (fun _ _ ↦ []) (by decide) (by decide)
  revert htaken
  decide

end RdbLibs.Thread
