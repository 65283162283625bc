import Mathlib.Data.Char
import RdbLibs.Foundations.CheckedMemory
import RdbLibs.Foundations.FirstDifference
import RdbLibs.Foundations.MachineWord

/-!
# `strCompare`

`strCompare` of `Src/String/StrUtils.h`, for strings over any ordered type of characters. It
compares as many characters as both strings and the limit have, their lengths being taken as
`unsigned int`, and answers that the strings are equal when these characters are. So a string is
equal to its prefixes, and one that both others begin with can stand between two strings that are
the other way round (`strCompare_compares_iff`).
-/

set_option autoImplicit false
set_option relaxedAutoImplicit false

namespace RdbLibs.StrUtils

open CheckedMemory FirstDifference MachineWord

variable {α : Type}

/-- The values of `eStringCompareResult`. -/
def eStringCompareResult : Ordering → ℤ
  | .lt => -1
  | .eq => 0
  | .gt => 1

/-- The first `n` characters of a string, or all of them where `n` is zero. -/
def firstPart (n : ℕ) (s : List α) : List α := if n = 0 then s else s.take n

/-- The characters of a string that `strCompare` can come to: its first part, as far as an
`unsigned int` counts its characters. -/
def countedPart (n : ℕ) (s : List α) : List α := (firstPart n s).take (toUnsigned s.length)

theorem isPrefix_firstPart (n : ℕ) (s : List α) : firstPart n s <+: s := by
  unfold firstPart
  split_ifs
  · exact List.prefix_rfl
  · exact List.take_prefix n s

theorem isPrefix_countedPart (n : ℕ) (s : List α) : countedPart n s <+: firstPart n s :=
  List.take_prefix _ _

theorem length_countedPart (n : ℕ) (s : List α) : (countedPart n s).length =
    if 0 < n then min n (toUnsigned s.length) else toUnsigned s.length := by
  have hle : toUnsigned s.length ≤ s.length := Nat.mod_le _ _
  unfold countedPart firstPart
  split_ifs with hzero hpos <;> simp only [List.length_take] <;> omega

/-- What counts of a string is the beginning of it. -/
theorem take_countedPart {n k : ℕ} {s : List α} (h : k ≤ (countedPart n s).length) :
    (countedPart n s).take k = s.take k := by
  have hbegins := (isPrefix_countedPart n s).trans (isPrefix_firstPart n s)
  rw [List.prefix_iff_eq_take.mp hbegins, List.take_take, Nat.min_eq_left h]

variable [LinearOrder α]

/-- The loop of `strCompare`, from `x` on. -/
def strCompareFrom (sStr1 sStr2 : List α) : ℕ → ℕ → Except Fault ℤ
  | 0, _ => return eStringCompareResult .eq
  | passes + 1, x => do
    let first ← load sStr1 x
    let second ← load sStr2 x
    if first < second then return eStringCompareResult .lt
    if second < first then return eStringCompareResult .gt
    strCompareFrom sStr1 sStr2 passes (x + 1)

/-- `StrUtils::strCompare`. -/
def strCompare (sStr1 sStr2 : List α) (nLen : ℕ) : Except Fault ℤ :=
  let nCmpLen :=
    if 0 < nLen then if toUnsigned sStr1.length < nLen then toUnsigned sStr1.length else nLen
    else toUnsigned sStr1.length
  let nCmpLen := if toUnsigned sStr2.length < nCmpLen then toUnsigned sStr2.length else nCmpLen
  strCompareFrom sStr1 sStr2 nCmpLen 0

/-- `strCompare` answers zero for two strings exactly when their first parts are equal, the opposite
when they change places, and never that the first of three strings is larger than the third when
neither the first is larger than the second nor the second than the third. -/
def Compares (a b c : List α) (n : ℕ) : Prop :=
  ∃ ab ba bc ac, strCompare a b n = .ok ab ∧ strCompare b a n = .ok ba ∧
    strCompare b c n = .ok bc ∧ strCompare a c n = .ok ac ∧
    (ab = 0 ↔ firstPart n a = firstPart n b) ∧ ba = -ab ∧ (ab ≤ 0 → bc ≤ 0 → ac ≤ 0)

/-! ### The loop -/

theorem strCompareFrom_eq {sStr1 sStr2 : List α} (passes : ℕ) : ∀ x : ℕ,
    x + passes ≤ sStr1.length → x + passes ≤ sStr2.length →
      strCompareFrom sStr1 sStr2 passes x = .ok (eStringCompareResult
        (compareFirst ((sStr1.drop x).take passes) ((sStr2.drop x).take passes))) := by
  induction passes with
  | zero =>
    intro x _ _
    rw [List.take_zero, List.take_zero]
    rfl
  | succ passes ih =>
    intro x hfirst hsecond
    have hlt : x < sStr1.length := by omega
    have hlt' : x < sStr2.length := by omega
    rw [strCompareFrom, load_of_lt hlt, load_of_lt hlt', ok_bind, ok_bind,
      List.drop_eq_getElem_cons hlt, List.drop_eq_getElem_cons hlt', List.take_succ_cons,
      List.take_succ_cons, ih (x + 1) (by omega) (by omega), compareFirst]
    split_ifs <;> rfl

/-- `strCompare` compares what counts of both strings. -/
theorem strCompare_eq (a b : List α) (n : ℕ) : strCompare a b n =
    .ok (eStringCompareResult (compareFirst (countedPart n a) (countedPart n b))) := by
  have hlength := length_countedPart n a
  have hlength' := length_countedPart n b
  have hle : toUnsigned a.length ≤ a.length := Nat.mod_le _ _
  have hle' : toUnsigned b.length ≤ b.length := Nat.mod_le _ _
  have hcount : (if toUnsigned b.length < (if 0 < n then
        if toUnsigned a.length < n then toUnsigned a.length else n
      else toUnsigned a.length) then toUnsigned b.length
      else (if 0 < n then if toUnsigned a.length < n then toUnsigned a.length else n
        else toUnsigned a.length)) =
      min (countedPart n a).length (countedPart n b).length := by
    rw [hlength, hlength']
    split_ifs <;> omega
  have hinside : min (countedPart n a).length (countedPart n b).length ≤ a.length ∧
      min (countedPart n a).length (countedPart n b).length ≤ b.length := by
    rw [hlength, hlength']
    split_ifs <;> omega
  rw [strCompare, hcount, strCompareFrom_eq _ 0 (by omega) (by omega), List.drop_zero,
    List.drop_zero, ← take_countedPart (Nat.min_le_left _ _),
    ← take_countedPart (Nat.min_le_right _ _), compareFirst_take]

/-! ### The order of strings -/

theorem eStringCompareResult_eq_zero_iff {order : Ordering} :
    eStringCompareResult order = 0 ↔ order = .eq := by
  cases order <;> decide

theorem eStringCompareResult_nonpos_iff {order : Ordering} :
    eStringCompareResult order ≤ 0 ↔ order ≠ .gt := by
  cases order <;> decide

theorem eStringCompareResult_swap (order : Ordering) :
    eStringCompareResult order.swap = -eStringCompareResult order := by
  cases order <;> rfl

/-- `strCompare` compares three strings as it should exactly when the first two are not taken for
equal, one for its being a prefix of the other, without being so, and the second is not a prefix of
two others the first of which is the larger one. -/
theorem strCompare_compares_iff (a b c : List α) (n : ℕ) :
    Compares a b c n ↔
      (countedPart n a <+: countedPart n b ∨ countedPart n b <+: countedPart n a →
        firstPart n a = firstPart n b) ∧
      ¬(countedPart n b <+: countedPart n a ∧ countedPart n b <+: countedPart n c ∧
        Exceeds (countedPart n a) (countedPart n c)) := by
  have hequal : firstPart n a = firstPart n b →
      countedPart n a <+: countedPart n b ∨ countedPart n b <+: countedPart n a := by
    intro heq
    have ha := isPrefix_countedPart n a
    rw [heq] at ha
    exact List.prefix_or_prefix_of_prefix ha (isPrefix_countedPart n b)
  unfold Compares
  simp only [strCompare_eq]
  constructor
  · rintro ⟨ab, ba, bc, ac, hab, -, hbc, hac, hzero, -, htrans⟩
    obtain rfl := Except.ok.inj hab
    obtain rfl := Except.ok.inj hbc
    obtain rfl := Except.ok.inj hac
    rw [eStringCompareResult_eq_zero_iff, compareFirst_eq_iff] at hzero
    rw [eStringCompareResult_nonpos_iff, eStringCompareResult_nonpos_iff,
      eStringCompareResult_nonpos_iff] at htrans
    refine ⟨hzero.mp, fun ⟨hba, hbc, hexceeds⟩ ↦ ?_⟩
    have hfirst := compareFirst_eq_iff.mpr (.inr hba)
    have hsecond := compareFirst_eq_iff.mpr (.inl hbc)
    exact htrans (by rw [hfirst]; decide) (by rw [hsecond]; decide)
      (compareFirst_gt_iff.mpr hexceeds)
  · rintro ⟨hbegins, hbetween⟩
    refine ⟨_, _, _, _, rfl, rfl, rfl, rfl, ?_, ?_, ?_⟩
    · rw [eStringCompareResult_eq_zero_iff, compareFirst_eq_iff]
      exact ⟨hbegins, hequal⟩
    · rw [compareFirst_swap, eStringCompareResult_swap]
    · rw [eStringCompareResult_nonpos_iff, eStringCompareResult_nonpos_iff,
        eStringCompareResult_nonpos_iff]
      intro hab hbc hac
      obtain ⟨hba, hbc⟩ := compareFirst_trans hab hbc hac
      exact hbetween ⟨hba, hbc, compareFirst_gt_iff.mp hac⟩

/-- The empty string is equal to `abc`, and stands between `b` and `a`. -/
theorem empty_string_is_equal :
    strCompare [] ['a', 'b', 'c'] 0 = .ok 0 ∧ ¬Compares [] ['a', 'b', 'c'] [] 0 ∧
      strCompare ['b'] [] 0 = .ok 0 ∧ strCompare [] ['a'] 0 = .ok 0 ∧
      strCompare ['b'] ['a'] 0 = .ok 1 ∧ ¬Compares ['b'] [] ['a'] 0 := by
  refine ⟨rfl, ?_, rfl, rfl, rfl, ?_⟩
  · rintro ⟨ab, ba, bc, ac, hab, -, -, -, hzero, -⟩
    obtain rfl := Except.ok.inj hab
    exact absurd (hzero.mp rfl) (by decide)
  · rintro ⟨ab, ba, bc, ac, hab, -, hbc, hac, -, -, htrans⟩
    obtain rfl := Except.ok.inj hab
    obtain rfl := Except.ok.inj hbc
    obtain rfl := Except.ok.inj hac
    exact absurd (htrans le_rfl le_rfl) (by decide)

end RdbLibs.StrUtils
