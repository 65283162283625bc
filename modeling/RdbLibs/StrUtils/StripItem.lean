import RdbLibs.Foundations.Trimming

/-!
# `stripItem`

The two overloads of `stripItem` of `Src/String/StrUtils.h`, for strings of any type of characters.
An iterator is the number of characters before it, and a reverse iterator the number of those behind
it. The overloads have the same body but for what they return where `leftit` is behind the last
character that is kept, which never happens (`stripWith_eq`). Both return the string itself where
nothing is left of it.
-/

set_option autoImplicit false
set_option relaxedAutoImplicit false

namespace RdbLibs.StrUtils

open Trimming

variable {α : Type*}

/-- The loop that moves an iterator, over the characters from the iterator on. -/
def advance (func : α → Bool) : List α → ℕ → ℕ
  | [], it => it
  | ch :: rest, it => if func ch then advance func rest (it + 1) else it

/-- The body of both overloads. `crossed` is returned where `leftit` is behind `endpnt`. -/
def stripWith (crossed s : List α) (func : α → Bool) (stripLeading stripTrailing : Bool) :
    List α :=
  if s.length < 1 then s
  else
    let leftit := if stripLeading then advance func s 0 else 0
    if leftit = s.length then s
    else
      let rightit := if stripTrailing then advance func s.reverse 0 else 0
      if rightit = s.length then s
      else
        let endpnt := s.length - (rightit + 1)
        if endpnt < leftit then crossed
        else (s.drop leftit).take (endpnt - leftit + 1)

/-- `StrUtils::stripItem` of a `std::string`. -/
def stripItemString (s : List α) (func : α → Bool) (stripLeading stripTrailing : Bool) : List α :=
  stripWith [] s func stripLeading stripTrailing

/-- `StrUtils::stripItem`, the template of the string type. -/
def stripItem (s : List α) (func : α → Bool) (stripLeading stripTrailing : Bool) : List α :=
  stripWith s s func stripLeading stripTrailing

/-- The string without its longest prefix and without the longest suffix of what remains, as far as
each is to be stripped. -/
def IsStripped (s : List α) (func : α → Bool) (stripLeading stripTrailing : Bool) (out : List α) :
    Prop :=
  ∃ remaining,
    (if stripLeading then WithoutLeading func s remaining else remaining = s) ∧
    if stripTrailing then WithoutTrailing func remaining out else out = remaining

/-- Both overloads strip the string as they should, and agree. -/
def StripsExactly (s : List α) (func : α → Bool) (stripLeading stripTrailing : Bool) : Prop :=
  IsStripped s func stripLeading stripTrailing
      (stripItemString s func stripLeading stripTrailing) ∧
    IsStripped s func stripLeading stripTrailing (stripItem s func stripLeading stripTrailing) ∧
    stripItemString s func stripLeading stripTrailing = stripItem s func stripLeading stripTrailing

/-- What a flag lets be stripped. -/
def stripped (flag : Bool) (func : α → Bool) (ch : α) : Bool := flag && func ch

variable {s out : List α} {func : α → Bool} {stripLeading stripTrailing : Bool}

theorem advance_eq (func : α → Bool) (rest : List α) : ∀ it : ℕ,
    advance func rest it = it + (rest.takeWhile func).length := by
  induction rest with
  | nil => exact fun it ↦ rfl
  | cons ch rest ih =>
    intro it
    rw [advance]
    cases hch : func ch with
    | true =>
      rw [if_pos rfl, ih, List.takeWhile_cons_of_pos hch, List.length_cons]
      omega
    | false =>
      have htake : (ch :: rest).takeWhile func = [] :=
        List.takeWhile_cons_of_neg (by rw [hch]; exact Bool.false_ne_true)
      rw [if_neg Bool.false_ne_true, htake]
      rfl

theorem stripped_true (func : α → Bool) : stripped true func = func := rfl

/-- Nothing is taken where a flag is not set. -/
theorem takeWhile_stripped_false (s : List α) : s.takeWhile (stripped false func) = [] := by
  cases s with
  | nil => rfl
  | cons ch rest => exact List.takeWhile_cons_of_neg Bool.false_ne_true

theorem dropWhile_stripped_false (s : List α) : s.dropWhile (stripped false func) = s := by
  rw [← drop_length_takeWhile, takeWhile_stripped_false]
  rfl

theorem rdropWhile_stripped_false (s : List α) : s.rdropWhile (stripped false func) = s := by
  rw [List.rdropWhile, dropWhile_stripped_false, List.reverse_reverse]

theorem isStripped_iff : IsStripped s func stripLeading stripTrailing out ↔
    out = (s.dropWhile (stripped stripLeading func)).rdropWhile (stripped stripTrailing func) := by
  have hleading (remaining : List α) :
      (if stripLeading then WithoutLeading func s remaining else remaining = s) ↔
        remaining = s.dropWhile (stripped stripLeading func) := by
    cases stripLeading with
    | true => exact withoutLeading_iff
    | false => rw [dropWhile_stripped_false]; rfl
  have htrailing (remaining : List α) :
      (if stripTrailing then WithoutTrailing func remaining out else out = remaining) ↔
        out = remaining.rdropWhile (stripped stripTrailing func) := by
    cases stripTrailing with
    | true => exact withoutTrailing_iff
    | false => rw [rdropWhile_stripped_false]; rfl
  unfold IsStripped
  simp only [hleading, htrailing, exists_eq_left]

/-- Both iterators of the body, by the characters that they pass. -/
theorem stripWith_iterators (crossed : List α) (hsome : s ≠ []) {leftit rightit : ℕ}
    (hleft : leftit = (s.takeWhile (stripped stripLeading func)).length)
    (hright : rightit = (s.reverse.takeWhile (stripped stripTrailing func)).length) :
    stripWith crossed s func stripLeading stripTrailing =
      if leftit = s.length then s
      else if rightit = s.length then s
      else if s.length - (rightit + 1) < leftit then crossed
      else (s.drop leftit).take (s.length - (rightit + 1) - leftit + 1) := by
  have hleftit : (if stripLeading then advance func s 0 else 0) = leftit := by
    rw [hleft]
    cases stripLeading with
    | true => rw [if_pos rfl, advance_eq, Nat.zero_add, stripped_true]
    | false => rw [takeWhile_stripped_false]; rfl
  have hrightit : (if stripTrailing then advance func s.reverse 0 else 0) = rightit := by
    rw [hright]
    cases stripTrailing with
    | true => rw [if_pos rfl, advance_eq, Nat.zero_add, stripped_true]
    | false => rw [takeWhile_stripped_false]; rfl
  have hlength : ¬s.length < 1 := by
    have := List.length_pos_iff.mpr hsome
    omega
  rw [stripWith, if_neg hlength]
  dsimp only
  rw [hleftit, hrightit]

/-- Where a character is kept whatever the flags, the body strips the ends, and the iterators have
not crossed. -/
theorem stripWith_eq (crossed : List α)
    (h : ∃ ch ∈ s, stripped stripLeading func ch = false ∧ stripped stripTrailing func ch = false) :
    stripWith crossed s func stripLeading stripTrailing =
      (s.dropWhile (stripped stripLeading func)).rdropWhile (stripped stripTrailing func) := by
  obtain ⟨hapart, hbetween⟩ := trim_both h
  have hsome : s ≠ [] := by
    rintro rfl
    exact Nat.not_lt_zero _ hapart
  rw [stripWith_iterators crossed hsome rfl rfl, if_neg (by omega), if_neg (by omega),
    if_neg (by omega), ← hbetween]
  congr 1
  omega

/-- Where no character is to be kept at an end that is stripped, the body returns the string. -/
theorem stripWith_all (crossed : List α) (hsome : s ≠ []) (hall : ∀ ch ∈ s, func ch = true)
    (hflag : stripLeading = true ∨ stripTrailing = true) :
    stripWith crossed s func stripLeading stripTrailing = s := by
  rw [stripWith_iterators crossed hsome rfl rfl]
  by_cases hleading : stripLeading = true
  · rw [hleading, stripped_true, List.takeWhile_eq_self_iff.mpr hall, if_pos rfl]
  · rw [hflag.resolve_left hleading, stripped_true,
      List.takeWhile_eq_self_iff.mpr fun ch hch ↦ hall ch (List.mem_reverse.mp hch),
      List.length_reverse, if_pos rfl, ite_self]

/-- Nothing is left of a string that is an end to be stripped. -/
theorem strip_all (hall : ∀ ch ∈ s, func ch = true)
    (hflag : stripLeading = true ∨ stripTrailing = true) :
    (s.dropWhile (stripped stripLeading func)).rdropWhile (stripped stripTrailing func) = [] := by
  by_cases hleading : stripLeading = true
  · rw [hleading, stripped_true, List.dropWhile_eq_nil_iff.mpr hall, List.rdropWhile_nil]
  · rw [hflag.resolve_left hleading, stripped_true, List.rdropWhile_eq_nil_iff]
    exact fun ch hch ↦ hall ch ((List.dropWhile_suffix _).subset hch)

/-- The overloads strip a string as they should exactly when an end that is to be stripped is not
the whole string. -/
theorem stripsExactly_iff (s : List α) (func : α → Bool) (stripLeading stripTrailing : Bool) :
    StripsExactly s func stripLeading stripTrailing ↔
      ¬(s ≠ [] ∧ (∀ ch ∈ s, func ch = true) ∧ (stripLeading = true ∨ stripTrailing = true)) := by
  unfold StripsExactly stripItemString stripItem
  rw [isStripped_iff, isStripped_iff]
  by_cases hsome : s = []
  · subst hsome
    exact iff_of_true ⟨rfl, rfl, rfl⟩ fun h ↦ h.1 rfl
  by_cases hkept :
      ∃ ch ∈ s, stripped stripLeading func ch = false ∧ stripped stripTrailing func ch = false
  · refine iff_of_true ⟨stripWith_eq _ hkept, stripWith_eq _ hkept, ?_⟩ ?_
    · rw [stripWith_eq _ hkept, stripWith_eq _ hkept]
    · rintro ⟨-, hall, hflag⟩
      obtain ⟨ch, hch, hleading, htrailing⟩ := hkept
      rw [stripped, hall ch hch, Bool.and_true] at hleading htrailing
      rw [hleading, htrailing] at hflag
      exact hflag.elim Bool.false_ne_true Bool.false_ne_true
  · have hend (ch : α) (hch : ch ∈ s) :
        func ch = true ∧ (stripLeading = true ∨ stripTrailing = true) := by
      by_contra hnot
      refine hkept ⟨ch, hch, ?_⟩
      unfold stripped
      revert hnot
      cases func ch <;> cases stripLeading <;> cases stripTrailing <;> simp
    have hall (ch : α) (hch : ch ∈ s) : func ch = true := (hend ch hch).1
    obtain ⟨first, hfirst⟩ := List.exists_mem_of_ne_nil s hsome
    have hflag := (hend first hfirst).2
    refine iff_of_false ?_ fun h ↦ h ⟨hsome, hall, hflag⟩
    rw [stripWith_all _ hsome hall hflag, strip_all hall hflag]
    exact fun h ↦ hsome h.1

/-- Of a text of spaces nothing should be left, and both overloads return the text. -/
theorem spaces_are_not_stripped :
    stripItemString [' ', ' '] (· == ' ') true true = [' ', ' '] ∧
      stripItem [' ', ' '] (· == ' ') true true = [' ', ' '] ∧
      ¬StripsExactly [' ', ' '] (· == ' ') true true := by
  refine ⟨rfl, rfl, ?_⟩
  rintro ⟨hstripped, -⟩
  exact absurd (isStripped_iff.mp hstripped) (by decide)

end RdbLibs.StrUtils
