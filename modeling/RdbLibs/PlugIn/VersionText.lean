import RdbLibs.FileIO.FileUtils
import RdbLibs.Foundations.CheckedMemory
import RdbLibs.PlugIn.CVersionNumber

/-!
# Versions as texts

What `strToVersionNum` reads of a text with one, two or three numbers, and what `getString` makes of
a version. A text with three numbers is read as its third one, its second one and zero
(`strToVersionNum_three`): the sub version number is stored as the major one, and is not stored
itself. `getString` is the text of the sub version number alone (`getString_eq`). So a text with
three numbers is read as what it says only for a first and a third number of zero
(`versionTexts_iff`), and a version comes back from its own text only if all its numbers are zero
(`getString_roundTrip_iff`).
-/

set_option autoImplicit false
set_option relaxedAutoImplicit false

namespace RdbLibs.PlugIn

open CheckedMemory MachineWord TextPositions
open FileIO (isDigit_of_mem_digits)

/-- The decimal texts of some numbers, with a dot between each two. -/
def dotted (parts : List ℕ) : List Char := ['.'].intercalate (parts.map (Nat.toDigits 10))

/-- The version with some numbers. -/
def CVersionNumber.ofNumbers (a b c : ℕ) : CVersionNumber :=
  ⟨UInt32.ofNat a, UInt32.ofNat b, UInt32.ofNat c⟩

/-! ### The numbers in a text -/

variable {a b c n : ℕ} {d : Char}

theorem ne_of_mem_digits (hmem : d ∈ Nat.toDigits 10 n) {other : Char}
    (hother : other.isDigit = false) : d ≠ other := by
  rintro rfl
  exact Bool.false_ne_true (hother.symm.trans (isDigit_of_mem_digits hmem))

theorem dot_notMem_digits (n : ℕ) : '.' ∉ Nat.toDigits 10 n := fun hmem ↦
  ne_of_mem_digits hmem (by decide) rfl

theorem isspace_of_isDigit (hdigit : d.isDigit) : Other.isspace d = false := by
  have hbounds : 48 ≤ d.toNat ∧ d.toNat ≤ 57 := by
    simpa [Char.isDigit, UInt32.le_iff_toNat_le] using hdigit
  have hspace : d ≠ ' ' := by
    rintro rfl
    exact absurd hbounds.1 (by decide)
  simp only [Other.isspace, hspace, false_or, decide_eq_false_iff_not]
  omega

/-- `atoi` reads the digits of a number as the number. -/
theorem atoi_digits (h : n < 2 ^ 31) : Other.atoi (Other.c_str (Nat.toDigits 10 n)) = n := by
  have hchars : (Other.c_str (Nat.toDigits 10 n)).chars = Nat.toDigits 10 n := by
    refine List.takeWhile_eq_self_iff.mpr fun d hmem ↦ ?_
    simpa using ne_of_mem_digits hmem (by decide)
  have htext : (Nat.toDigits 10 n).dropWhile Other.isspace = Nat.toDigits 10 n := by
    refine List.dropWhile_eq_self_iff.mpr fun hpos ↦ ?_
    rw [isspace_of_isDigit (isDigit_of_mem_digits (List.getElem_mem hpos))]
    exact Bool.false_ne_true
  have hhead (sign : Char) (hsign : sign.isDigit = false) :
      (Nat.toDigits 10 n).head? ≠ some sign := fun heq ↦
    ne_of_mem_digits (List.mem_of_mem_head? heq) hsign rfl
  have hminus := hhead '-' (by decide)
  have hplus := hhead '+' (by decide)
  have hdigits : (Nat.toDigits 10 n).takeWhile Char.isDigit = Nat.toDigits 10 n :=
    List.takeWhile_eq_self_iff.mpr fun d hmem ↦ isDigit_of_mem_digits hmem
  have hmagnitude : (Nat.toDigits 10 n).foldl
      (fun number d ↦ 10 * number + (d.toNat - '0'.toNat)) 0 = n :=
    Nat.ofDigitChars_ten_toDigits
  have hvalue : min (n : ℤ) (2 ^ 63 - 1) = n := min_eq_left (by omega)
  unfold Other.atoi
  dsimp only
  rw [hchars, htext, if_neg (not_or.mpr ⟨hminus, hplus⟩), if_neg hminus, hdigits, hmagnitude,
    hvalue]
  rw [intToUnsigned_of_lt (by omega), toInt_of_lt h]

theorem versionPart_digits (h : n < 2 ^ 31) :
    versionPart (Nat.toDigits 10 n) = UInt32.ofNat n := by
  rw [versionPart, atoi_digits h, intToUnsigned_of_lt (by omega)]

/-! ### What is read of a text -/

/-- The first dot of a text that begins with a number. -/
theorem findFrom_digits (n : ℕ) (back : List Char) :
    findFrom (Nat.toDigits 10 n ++ '.' :: back) '.' 1 = some (Nat.toDigits 10 n).length := by
  have hdot := dot_notMem_digits n
  cases hdigits : Nat.toDigits 10 n with
  | nil => exact absurd hdigits Nat.toDigits_ne_nil
  | cons first rest =>
    rw [hdigits] at hdot
    have hone : [first].length = 1 := rfl
    have hfound := findFrom_append_cons hone (List.not_mem_of_not_mem_cons hdot) back
    rw [List.cons_append, List.length_cons, Nat.add_comm rest.length]
    exact hfound

theorem findFrom_digits_eq_none (n : ℕ) : findFrom (Nat.toDigits 10 n) '.' 1 = none :=
  findFrom_eq_none_iff.mpr fun hmem ↦ dot_notMem_digits n (List.mem_of_mem_drop hmem)

theorem substr_digits (n : ℕ) (back : List Char) :
    substr (Nat.toDigits 10 n ++ '.' :: back) 0 (Nat.toDigits 10 n).length =
      .ok (Nat.toDigits 10 n) := by
  rw [substr_eq (Nat.zero_le _), List.drop_zero, List.take_left]

theorem substrFrom_digits (n : ℕ) (back : List Char) :
    substrFrom (Nat.toDigits 10 n ++ '.' :: back) ((Nat.toDigits 10 n).length + 1) = .ok back := by
  have hlength : (Nat.toDigits 10 n).length + 1 ≤ (Nat.toDigits 10 n ++ '.' :: back).length := by
    rw [List.length_append, List.length_cons]
    omega
  have hsplit : Nat.toDigits 10 n ++ '.' :: back = Nat.toDigits 10 n ++ ['.'] ++ back := by
    rw [List.append_assoc, List.singleton_append]
  rw [substrFrom_eq hlength, hsplit, List.drop_left' (by simp)]

namespace CVersionNumber

theorem strToVersionNum_one (ha : a < 2 ^ 31) :
    strToVersionNum (dotted [a]) = .ok (ofNumbers a 0 0) := by
  have htext : dotted [a] = Nat.toDigits 10 a := by simp [dotted]
  rw [htext, strToVersionNum, findFrom_digits_eq_none, versionPart_digits ha]
  rfl

theorem strToVersionNum_two (ha : a < 2 ^ 31) (hb : b < 2 ^ 31) :
    strToVersionNum (dotted [a, b]) = .ok (ofNumbers a b 0) := by
  have htext : dotted [a, b] = Nat.toDigits 10 a ++ '.' :: Nat.toDigits 10 b := by
    simp [dotted, List.intercalate_cons_cons]
  rw [htext, strToVersionNum, findFrom_digits]
  dsimp only
  rw [substr_digits, substrFrom_digits, ok_bind, ok_bind, findFrom_digits_eq_none,
    versionPart_digits ha, versionPart_digits hb]
  rfl

/-- The third number of a text is stored as the major version number, and the sub version number
is zero. -/
theorem strToVersionNum_three (a : ℕ) (hb : b < 2 ^ 31) (hc : c < 2 ^ 31) :
    strToVersionNum (dotted [a, b, c]) = .ok (ofNumbers c b 0) := by
  have htext : dotted [a, b, c] =
      Nat.toDigits 10 a ++ '.' :: (Nat.toDigits 10 b ++ '.' :: Nat.toDigits 10 c) := by
    simp [dotted, List.intercalate_cons_cons]
  rw [htext, strToVersionNum, findFrom_digits]
  dsimp only
  rw [substr_digits, substrFrom_digits, ok_bind, ok_bind, findFrom_digits]
  dsimp only
  rw [substr_digits, substrFrom_digits, ok_bind, ok_bind, versionPart_digits hb,
    versionPart_digits hc]
  rfl

theorem ofNumbers_inj {a' b' c' : ℕ} (ha : a < 2 ^ 31) (hb : b < 2 ^ 31) (hc : c < 2 ^ 31)
    (ha' : a' < 2 ^ 31) (hb' : b' < 2 ^ 31) (hc' : c' < 2 ^ 31) :
    ofNumbers a b c = ofNumbers a' b' c' ↔ a = a' ∧ b = b' ∧ c = c' := by
  have hinj : ∀ {n m : ℕ}, n < 2 ^ 31 → m < 2 ^ 31 → (UInt32.ofNat n = UInt32.ofNat m ↔ n = m) := by
    intro n m hn hm
    rw [← UInt32.toNat_inj, UInt32.toNat_ofNat_of_lt' (hn.trans (by decide)),
      UInt32.toNat_ofNat_of_lt' (hm.trans (by decide))]
  rw [ofNumbers, ofNumbers, CVersionNumber.mk.injEq, hinj ha ha', hinj hb hb', hinj hc hc']

/-! ### Texts of versions, and versions of texts -/

/-- Every text is read as some version: a piece that is cut begins in the text. -/
theorem exists_strToVersionNum (sVerNum : List Char) :
    ∃ version, strToVersionNum sVerNum = .ok version := by
  unfold strToVersionNum
  cases hdot : findFrom sVerNum '.' 1 with
  | none => exact ⟨_, rfl⟩
  | some dotPos =>
    have hlt := (findFrom_bounds hdot).2
    dsimp only
    rw [substr_eq (Nat.zero_le _), ok_bind, substrFrom_eq hlt, ok_bind]
    cases hsecond : findFrom (sVerNum.drop (dotPos + 1)) '.' 1 with
    | none => exact ⟨_, rfl⟩
    | some secondPos =>
      dsimp only
      rw [substr_eq (Nat.zero_le _), ok_bind, substrFrom_eq (findFrom_bounds hsecond).2]
      exact ⟨_, rfl⟩

/-- Texts with one and with two numbers are read as what they say, and a text with three numbers
is, exactly when the first and the third of these are zero. -/
theorem versionTexts_iff (ha : a < 2 ^ 31) (hb : b < 2 ^ 31) (hc : c < 2 ^ 31)
    (v : CVersionNumber) :
    (v.compareText (dotted [a, b, c]) =
        .ok (v.compareNumbers (UInt32.ofNat a) (UInt32.ofNat b) (UInt32.ofNat c)) ∧
      ofText (dotted [a, b, c]) = .ok (ofNumbers a b c) ∧
      ofText (dotted [a, b]) = .ok (ofNumbers a b 0) ∧
      ofText (dotted [a]) = .ok (ofNumbers a 0 0)) ↔ a = 0 ∧ c = 0 := by
  have hread : ofText (dotted [a, b, c]) = .ok (ofNumbers a b c) ↔ a = 0 ∧ c = 0 := by
    rw [ofText, strToVersionNum_three a hb hc, Except.ok.injEq,
      ofNumbers_inj hc hb (by decide) ha hb hc]
    omega
  constructor
  · rintro ⟨-, hthree, -, -⟩
    exact hread.mp hthree
  · intro hzero
    have hthree : strToVersionNum (dotted [a, b, c]) = .ok (ofNumbers a b c) := hread.mpr hzero
    refine ⟨?_, hthree, strToVersionNum_two ha hb, strToVersionNum_one ha⟩
    rw [compareText, hthree]
    rfl

theorem versionTexts_iff_zero :
    (⟨0, 3, 9⟩ : CVersionNumber).compareText (dotted [0, 4, 0]) =
        .ok ((⟨0, 3, 9⟩ : CVersionNumber).compareNumbers 0 4 0) ∧
      ofText (dotted [0, 4, 0]) = .ok (ofNumbers 0 4 0) ∧
      ofText (dotted [0, 4]) = .ok (ofNumbers 0 4 0) ∧
      ofText (dotted [0]) = .ok (ofNumbers 0 0 0) :=
  (versionTexts_iff (by decide) (by decide) (by decide) _).mpr ⟨rfl, rfl⟩

/-- The third number of a text is taken for the major version number. -/
theorem third_number_is_major :
    ofText ['1', '.', '2', '.', '3'] = .ok ⟨3, 2, 0⟩ ∧
      (⟨1, 2, 3⟩ : CVersionNumber).compareText ['1', '.', '2', '.', '3'] = .ok .greaterThan ∧
      ¬∀ (a b c : ℕ) (v : CVersionNumber), a < 2 ^ 31 → b < 2 ^ 31 → c < 2 ^ 31 →
        v.compareText (dotted [a, b, c]) =
            .ok (v.compareNumbers (UInt32.ofNat a) (UInt32.ofNat b) (UInt32.ofNat c)) ∧
          ofText (dotted [a, b, c]) = .ok (ofNumbers a b c) := by
  refine ⟨by decide, by decide, fun h ↦ ?_⟩
  have htext := (h 1 2 3 new (by decide) (by decide) (by decide)).2
  exact absurd htext (by decide)

/-! ### The text of a version -/

/-- Each number is assigned to the text where it should be appended to it. -/
theorem getString_eq (s : CVersionNumber) : s.getString = to_string s.m_nSubVersionNum := rfl

theorem to_string_injective : Function.Injective to_string := by
  intro first second h
  have hvalue := congrArg (fun text ↦ Nat.ofDigitChars 10 text 0) h
  simp only [to_string, Nat.ofDigitChars_ten_toDigits] at hvalue
  exact UInt32.toNat_inj.mp hvalue

theorem getString_eq_iff {u v : CVersionNumber} :
    u.getString = v.getString ↔ u.m_nSubVersionNum = v.m_nSubVersionNum := by
  rw [getString_eq, getString_eq, to_string_injective.eq_iff]

/-- What a version is set to from the text of another one. -/
theorem setText_getString (other : CVersionNumber) {u : CVersionNumber}
    (hu : u.m_nSubVersionNum.toNat < 2 ^ 31) :
    other.setText u.getString = .ok ⟨u.m_nSubVersionNum, 0, 0⟩ := by
  have htext : u.getString = dotted [u.m_nSubVersionNum.toNat] := by
    simp [getString_eq, to_string, dotted]
  rw [setText, htext, strToVersionNum_one hu, ofNumbers, UInt32.ofNat_toNat]
  rfl

/-- A version comes back from its text exactly when its numbers are zero, and the texts of two
versions distinguish them exactly when these are one version or differ in their sub version
numbers. -/
theorem getString_roundTrip_iff (other u v : CVersionNumber)
    (hu : u.m_nSubVersionNum.toNat < 2 ^ 31) :
    ((∃ back, other.setText u.getString = .ok back ∧ back.compare u = .equalTo) ↔ u = new) ∧
      ((u.getString = v.getString → u = v) ↔
        u = v ∨ u.m_nSubVersionNum ≠ v.m_nSubVersionNum) := by
  rw [setText_getString other hu, getString_eq_iff]
  constructor
  · constructor
    · rintro ⟨back, hback, hequal⟩
      have hsame := (Except.ok.inj hback).trans (compare_eq_equalTo_iff.mp hequal)
      obtain ⟨hmajor, hminor, hsub⟩ := CVersionNumber.ext_iff.mp hsame
      exact CVersionNumber.ext (hmajor.symm.trans hsub.symm) hminor.symm hsub.symm
    · rintro rfl
      exact ⟨_, rfl, compare_self new⟩
  · rw [imp_iff_not_or, or_comm]

/-- The version `0.0.0` comes back, and its text is not that of `1.2.3`. -/
theorem getString_roundTrip_iff_new :
    (∃ back, (⟨1, 2, 3⟩ : CVersionNumber).setText new.getString = .ok back ∧
        back.compare new = .equalTo) ∧
      (new.getString = getString ⟨1, 2, 3⟩ → new = ⟨1, 2, 3⟩) := by
  have hiff := getString_roundTrip_iff ⟨1, 2, 3⟩ new ⟨1, 2, 3⟩ (by decide)
  exact ⟨hiff.1.mpr rfl, hiff.2.mpr (.inr (by decide))⟩

/-- The text of a version says its sub version number only. -/
theorem text_of_version_is_sub_version :
    getString ⟨1, 2, 3⟩ = ['3'] ∧ getString ⟨4, 5, 3⟩ = ['3'] ∧
      new.setText (getString ⟨1, 2, 3⟩) = .ok ⟨3, 0, 0⟩ ∧
      (⟨3, 0, 0⟩ : CVersionNumber).compare ⟨1, 2, 3⟩ = .lessThan := by
  decide

end CVersionNumber

end RdbLibs.PlugIn
