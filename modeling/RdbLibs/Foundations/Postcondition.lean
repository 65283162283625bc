import RdbLibs.Foundations.CheckedMemory

/-!
# Postconditions of computations that may stop

`Yields Excused computation Post` says that a computation ends in a result with the property `Post`,
or stops for a reason in `Excused`. With no excuse it says that there is a result
(`Yields.exists_ok`). There is one rule for each way to build a computation, and they are applied
from the first step of a function to its last. An access to a range of a block stays inside the
block, or leaving it is excused.
-/

set_option autoImplicit false
set_option relaxedAutoImplicit false

namespace RdbLibs.CheckedMemory

universe u

variable {α β : Type u} {Excused : Fault → Prop}

/-- The computation has a result with the property `Post`, or stops for an excused reason. -/
def Yields (Excused : Fault → Prop) (computation : Except Fault α) (Post : α → Prop) : Prop :=
  match computation with
  | .ok value => Post value
  | .error fault => Excused fault

theorem Yields.ok {Post : α → Prop} {value : α} (h : Post value) :
    Yields Excused (.ok value) Post := h

theorem Yields.pure {Post : α → Prop} {value : α} (h : Post value) :
    Yields Excused (Pure.pure value) Post := h

theorem Yields.error {Post : α → Prop} {fault : Fault} (h : Excused fault) :
    Yields Excused (.error fault) Post := h

/-- With every reason excused, nothing need be known of a computation. -/
theorem yields_any (computation : Except Fault α) :
    Yields (fun _ ↦ True) computation fun _ ↦ True := by
  cases computation <;> trivial

/-- The rule for a sequence. -/
theorem Yields.bind {first : Except Fault α} {next : α → Except Fault β} {Middle : α → Prop}
    {Post : β → Prop} (hfirst : Yields Excused first Middle)
    (hnext : ∀ value, Middle value → Yields Excused (next value) Post) :
    Yields Excused (first >>= next) Post := by
  cases first with
  | ok value => exact hnext value hfirst
  | error fault => exact hfirst

theorem Yields.mono {computation : Except Fault α} {Post Post' : α → Prop}
    (h : Yields Excused computation Post) (hmono : ∀ value, Post value → Post' value) :
    Yields Excused computation Post' := by
  cases computation with
  | ok value => exact hmono value h
  | error fault => exact h

/-- The rule for a function that is applied to a result. -/
theorem Yields.map {computation : Except Fault α} {f : α → β} {Post : β → Prop}
    (h : Yields Excused computation fun value ↦ Post (f value)) :
    Yields Excused (computation.map f) Post := by
  cases computation with
  | ok value => exact h
  | error fault => exact h

/-- The rule for a choice. -/
theorem Yields.ite {condition : Prop} [Decidable condition] {first second : Except Fault α}
    {Post : α → Prop} (hfirst : condition → Yields Excused first Post)
    (hsecond : ¬condition → Yields Excused second Post) :
    Yields Excused (if condition then first else second) Post := by
  split_ifs with h
  · exact hfirst h
  · exact hsecond h

/-! ### Accesses to a range -/

section Ranges

variable {γ : Type u} {cells : List γ} {offset : ℕ}

theorem Yields.loadRange {count : ℕ} (h : Excused .outOfBounds ∨ offset + count ≤ cells.length) :
    Yields Excused (loadRange cells offset count) fun values ↦ values.length = count := by
  unfold CheckedMemory.loadRange
  refine .ite (fun hinside ↦ .ok ?_) (fun houtside ↦ .error (h.resolve_right houtside))
  rw [List.length_take, List.length_drop]
  omega

theorem Yields.storeRange {values : List γ}
    (h : Excused .outOfBounds ∨ offset + values.length ≤ cells.length) :
    Yields Excused (storeRange cells offset values) fun cells' ↦ cells'.length = cells.length := by
  unfold CheckedMemory.storeRange
  refine .ite (fun hinside ↦ .ok ?_) (fun houtside ↦ .error (h.resolve_right houtside))
  simp only [List.length_append, List.length_take, List.length_drop]
  omega

theorem Yields.fillRange {count : ℕ} (h : Excused .outOfBounds ∨ offset + count ≤ cells.length)
    (value : γ) :
    Yields Excused (fillRange cells offset count value) fun cells' ↦
      cells'.length = cells.length := by
  unfold CheckedMemory.fillRange
  refine .ite (fun hinside ↦ .ok ?_) (fun houtside ↦ .error (h.resolve_right houtside))
  simp only [List.length_append, List.length_take, List.length_drop, List.length_replicate]
  omega

end Ranges

/-- What a computation yields is a property of the result that it has. -/
theorem Yields.of_ok {computation : Except Fault α} {Post : α → Prop}
    (h : Yields Excused computation Post) {value : α} (hvalue : computation = .ok value) :
    Post value := by
  rw [hvalue] at h
  exact h

/-- A computation that stops for no reason has a result. -/
theorem Yields.exists_ok {computation : Except Fault α} {Post : α → Prop}
    (h : Yields (fun _ ↦ False) computation Post) :
    ∃ value, computation = .ok value ∧ Post value := by
  cases computation with
  | ok value => exact ⟨value, rfl, h⟩
  | error fault => exact absurd h not_false

/-! ### Properties of results

Where it is left open why a computation stops, `Ensures` says that a result, if there is one, has a
property. -/

section Results

variable {ε : Type*}

/-- A result of the computation has the property `Post`. -/
def Ensures {α : Type*} (computation : Except ε α) (Post : α → Prop) : Prop :=
  ∀ value, computation = .ok value → Post value

theorem Ensures.ok {α : Type*} {Post : α → Prop} {value : α} (h : Post value) :
    Ensures (.ok value : Except ε α) Post := fun _ hvalue ↦ Except.ok.inj hvalue ▸ h

theorem Ensures.bind {first : Except ε α} {next : α → Except ε β} {Middle : α → Prop}
    {Post : β → Prop} (hfirst : Ensures first Middle)
    (hnext : ∀ value, Middle value → Ensures (next value) Post) :
    Ensures (first >>= next) Post := by
  intro result hresult
  obtain ⟨value, hvalue, hrest⟩ := of_bind_eq_ok hresult
  exact hnext value (hfirst value hvalue) result hrest

theorem Ensures.map {α β : Type*} {computation : Except ε α} {f : α → β} {Post : β → Prop}
    (h : Ensures computation fun value ↦ Post (f value)) : Ensures (computation.map f) Post := by
  intro result hresult
  obtain ⟨value, hvalue, rfl⟩ := of_except_map_eq_ok hresult
  exact h value hvalue

theorem Ensures.mapError {ε' α : Type*} {computation : Except ε α} {f : ε → ε'} {Post : α → Prop}
    (h : Ensures computation Post) : Ensures (computation.mapError f) Post := by
  intro result hresult
  cases computation with
  | error fault => cases hresult
  | ok value =>
    obtain rfl := Except.ok.inj hresult
    exact h value rfl

theorem Ensures.ite {α : Type*} {condition : Prop} [Decidable condition]
    {first second : Except ε α} {Post : α → Prop} (hfirst : condition → Ensures first Post)
    (hsecond : ¬condition → Ensures second Post) :
    Ensures (if condition then first else second) Post := by
  split_ifs with h
  · exact hfirst h
  · exact hsecond h

theorem Ensures.mono {α : Type*} {computation : Except ε α} {Post Post' : α → Prop}
    (h : Ensures computation Post) (hmono : ∀ value, Post value → Post' value) :
    Ensures computation Post' := fun value hvalue ↦ hmono value (h value hvalue)

end Results

end RdbLibs.CheckedMemory
