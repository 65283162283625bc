import Mathlib.Data.Prod.Lex
import RdbLibs.Foundations.TextPositions
import RdbLibs.Other.PrivateProfile.Model

/-!
# `CVersionNumber`

The version numbers of `Src/PlugIn/PluginDefs.h`, with the functions that read, compare and render
them. `strToVersionNum` stores the third part of a text as the major version number, and
`getString` assigns to its result where it should append to it. A version is what its three numbers
are, and versions are ordered by these from the first one on (`CVersionNumber.key`). `compare` says
how its argument stands to the object in this order, so that both copies of it answer what a linear
order answers (`compare_totalOrder`).
-/

set_option autoImplicit false
set_option relaxedAutoImplicit false

namespace RdbLibs.PlugIn

open MachineWord TextPositions

/-- `eCompareResult`. -/
inductive eCompareResult
  | lessThan
  | equalTo
  | greaterThan
  | error
deriving DecidableEq

/-- `CVersionNumber`. -/
@[ext]
structure CVersionNumber where
  m_nMajorVersionNum : UInt32
  m_nMinorVersionNum : UInt32
  m_nSubVersionNum : UInt32
deriving DecidableEq

/-- The number at the start of a text, as `atoi` reads it, converted to `unsigned int`. -/
def versionPart (sText : List Char) : UInt32 :=
  UInt32.ofNat (intToUnsigned (Other.atoi (Other.c_str sText)))

/-- `std::to_string` of an `unsigned int`. -/
def to_string (value : UInt32) : List Char := Nat.toDigits 10 value.toNat

namespace CVersionNumber

/-- The constructor without arguments. -/
def new : CVersionNumber := ⟨0, 0, 0⟩

/-- `strToVersionNum`. -/
def strToVersionNum (sVerNum : List Char) : Except RangeFault CVersionNumber := do
  let out := new
  match findFrom sVerNum '.' 1 with
  | none => return { out with m_nMajorVersionNum := versionPart sVerNum }
  | some dotPos =>
    let sTmp1 ← substr sVerNum 0 dotPos
    let out := { out with m_nMajorVersionNum := versionPart sTmp1 }
    let sTmp2 ← substrFrom sVerNum (dotPos + 1)
    match findFrom sTmp2 '.' 1 with
    | none => return { out with m_nMinorVersionNum := versionPart sTmp2 }
    | some dotPos =>
      let sTmp1 ← substr sTmp2 0 dotPos
      let out := { out with m_nMinorVersionNum := versionPart sTmp1 }
      let sTmp1 ← substrFrom sTmp2 (dotPos + 1)
      return { out with m_nMajorVersionNum := versionPart sTmp1 }

/-- The constructor of a text. -/
def ofText (sVer : List Char) : Except RangeFault CVersionNumber := strToVersionNum sVer

/-- `set`, of a text. The object is assigned as a whole. -/
def setText (_ : CVersionNumber) (sVer : List Char) : Except RangeFault CVersionNumber :=
  strToVersionNum sVer

/-- `compare`, of three numbers. -/
def compareNumbers (s : CVersionNumber) (nMajorVer nMinorVer nSubVer : UInt32) :
    eCompareResult :=
  if nMajorVer > s.m_nMajorVersionNum then .greaterThan
  else if nMajorVer < s.m_nMajorVersionNum then .lessThan
  else if nMinorVer > s.m_nMinorVersionNum then .greaterThan
  else if nMinorVer < s.m_nMinorVersionNum then .lessThan
  else if nSubVer > s.m_nSubVersionNum then .greaterThan
  else if nSubVer < s.m_nSubVersionNum then .lessThan
  else .equalTo

/-- `compare`, of another object. -/
def compare (s ref : CVersionNumber) : eCompareResult :=
  if ref.m_nMajorVersionNum > s.m_nMajorVersionNum then .greaterThan
  else if ref.m_nMajorVersionNum < s.m_nMajorVersionNum then .lessThan
  else if ref.m_nMinorVersionNum > s.m_nMinorVersionNum then .greaterThan
  else if ref.m_nMinorVersionNum < s.m_nMinorVersionNum then .lessThan
  else if ref.m_nSubVersionNum > s.m_nSubVersionNum then .greaterThan
  else if ref.m_nSubVersionNum < s.m_nSubVersionNum then .lessThan
  else .equalTo

/-- `compare`, of a text. -/
def compareText (s : CVersionNumber) (sVer : List Char) : Except RangeFault eCompareResult := do
  let tmp ← strToVersionNum sVer
  return s.compare tmp

/-- `getString`. -/
def getString (s : CVersionNumber) : List Char := Id.run do
  let mut sOut := to_string s.m_nMajorVersionNum
  sOut := sOut ++ ['.']
  sOut := to_string s.m_nMinorVersionNum
  sOut := sOut ++ ['.']
  sOut := to_string s.m_nSubVersionNum
  return sOut

/-- The three numbers of a version, in the order in which they count. -/
def key (s : CVersionNumber) : ℕ ×ₗ ℕ ×ₗ ℕ :=
  toLex (s.m_nMajorVersionNum.toNat, toLex (s.m_nMinorVersionNum.toNat, s.m_nSubVersionNum.toNat))

theorem key_injective : Function.Injective key := by
  intro u v h
  obtain ⟨hmajor, hrest⟩ := Prod.mk.inj (toLex.injective h)
  obtain ⟨hminor, hsub⟩ := Prod.mk.inj (toLex.injective hrest)
  exact CVersionNumber.ext (UInt32.toNat_inj.mp hmajor) (UInt32.toNat_inj.mp hminor)
    (UInt32.toNat_inj.mp hsub)

/-- Versions are ordered by their numbers, from the first one on. -/
instance : LinearOrder CVersionNumber := LinearOrder.lift' key key_injective

variable {u v : CVersionNumber}

theorem lt_iff : u < v ↔ u.m_nMajorVersionNum < v.m_nMajorVersionNum ∨
    u.m_nMajorVersionNum = v.m_nMajorVersionNum ∧
      (u.m_nMinorVersionNum < v.m_nMinorVersionNum ∨
        u.m_nMinorVersionNum = v.m_nMinorVersionNum ∧
          u.m_nSubVersionNum < v.m_nSubVersionNum) := by
  have hkey : u < v ↔ u.key < v.key := Iff.rfl
  simp only [hkey, key, Prod.Lex.toLex_lt_toLex, UInt32.lt_iff_toNat_lt, UInt32.toNat_inj]

/-- The answer of `compare`, by how the argument stands to the object. -/
def answer : Ordering → eCompareResult
  | .lt => .lessThan
  | .eq => .equalTo
  | .gt => .greaterThan

theorem answer_injective : Function.Injective answer := by
  intro first second h
  cases first <;> cases second <;> first | rfl | cases h

theorem compare_of_lt (h : u < v) : u.compare v = .greaterThan := by
  rw [lt_iff] at h
  unfold compare
  split_ifs <;> first | rfl | grind

theorem compare_of_gt (h : v < u) : u.compare v = .lessThan := by
  rw [lt_iff] at h
  unfold compare
  split_ifs <;> first | rfl | grind

theorem compare_self (u : CVersionNumber) : u.compare u = .equalTo := by
  unfold compare
  simp

theorem compare_eq_answer (u v : CVersionNumber) : u.compare v = answer (cmp v u) := by
  rcases lt_trichotomy u v with hless | rfl | hgreater
  · rw [compare_of_lt hless, (cmp_eq_gt_iff v u).mpr hless]
    rfl
  · rw [compare_self, cmp_self_eq_eq]
    rfl
  · rw [compare_of_gt hgreater, (cmp_eq_lt_iff v u).mpr hgreater]
    rfl

theorem compare_eq_greaterThan_iff : u.compare v = .greaterThan ↔ u < v := by
  rw [compare_eq_answer, ← cmp_eq_gt_iff v u]
  exact answer_injective.eq_iff' rfl

theorem compare_eq_lessThan_iff : u.compare v = .lessThan ↔ v < u := by
  rw [compare_eq_answer, ← cmp_eq_lt_iff v u]
  exact answer_injective.eq_iff' rfl

theorem compare_eq_equalTo_iff : u.compare v = .equalTo ↔ u = v := by
  rw [compare_eq_answer, eq_comm (a := u), ← cmp_eq_eq_iff v u]
  exact answer_injective.eq_iff' rfl

/-- Both forms of `compare` are the comparison of a linear order, the one in which the major
version number counts first, and the sub version number last. -/
theorem compare_totalOrder (u v w : CVersionNumber) :
    u.compare v =
        u.compareNumbers v.m_nMajorVersionNum v.m_nMinorVersionNum v.m_nSubVersionNum ∧
      (u.compare v = .equalTo ↔ u.m_nMajorVersionNum = v.m_nMajorVersionNum ∧
        u.m_nMinorVersionNum = v.m_nMinorVersionNum ∧
        u.m_nSubVersionNum = v.m_nSubVersionNum) ∧
      (u.compare v = .greaterThan ↔ v.compare u = .lessThan) ∧
      (u.compare v = .greaterThan ↔ u.key < v.key) ∧
      (u.compare v = .greaterThan ∨ u.compare v = .equalTo ∨ u.compare v = .lessThan) ∧
      (u.compare v ≠ .lessThan → v.compare w ≠ .lessThan → u.compare w ≠ .lessThan) ∧
      ∀ result, u.compare v = result → v.compare w = result → u.compare w = result := by
  refine ⟨rfl, ?_, ?_, ?_, ?_, ?_, ?_⟩
  · rw [compare_eq_equalTo_iff, CVersionNumber.ext_iff]
  · rw [compare_eq_greaterThan_iff, compare_eq_lessThan_iff]
  · rw [compare_eq_greaterThan_iff]
    exact Iff.rfl
  · rw [compare_eq_greaterThan_iff, compare_eq_equalTo_iff, compare_eq_lessThan_iff]
    exact lt_trichotomy u v
  · simp only [ne_eq, compare_eq_lessThan_iff, not_lt]
    exact le_trans
  · intro result hfirst hsecond
    rcases lt_trichotomy u v with hless | rfl | hgreater
    · rw [compare_of_lt hless] at hfirst
      subst hfirst
      exact compare_of_lt (hless.trans (compare_eq_greaterThan_iff.mp hsecond))
    · exact hsecond
    · rw [compare_of_gt hgreater] at hfirst
      subst hfirst
      exact compare_of_gt ((compare_eq_lessThan_iff.mp hsecond).trans hgreater)

end CVersionNumber

end RdbLibs.PlugIn
