import Mathlib.Data.Int.Basic
import Mathlib.Tactic.NormNum

/-!
# Machine words

The integer types of the C++ sources on the 64-bit targets: `size_t` has 64 bits, `unsigned int`
and `int` have 32. A value is kept as a natural number (an integer for `int`), and the functions
here are the conversions that the sources make, implicitly or by a cast: reduction modulo the
width, reading an unsigned word as two's complement, and the sign-extending conversion of an `int`
operand that is compared with a `size_t`.
-/

set_option autoImplicit false
set_option relaxedAutoImplicit false

namespace RdbLibs.MachineWord

/-- Conversion to `size_t`. -/
def toSize (n : ℕ) : ℕ := n % 2 ^ 64

/-- Conversion to `unsigned int`. -/
def toUnsigned (n : ℕ) : ℕ := n % 2 ^ 32

/-- The difference of two words of type `unsigned int`. -/
def unsignedSub (n m : ℕ) : ℕ := toUnsigned (n + 2 ^ 32 - m)

/-- Conversion of an unsigned word to `int`: the low 32 bits read as two's complement. -/
def toInt (n : ℕ) : ℤ :=
  if n % 2 ^ 32 < 2 ^ 31 then ((n % 2 ^ 32 : ℕ) : ℤ) else ((n % 2 ^ 32 : ℕ) : ℤ) - 2 ^ 32

/-- The signed number whose two's complement is a word of some bytes. -/
def toSigned (bytes n : ℕ) : ℤ :=
  if n % 256 ^ bytes < 256 ^ bytes / 2 then ((n % 256 ^ bytes : ℕ) : ℤ)
  else ((n % 256 ^ bytes : ℕ) : ℤ) - 256 ^ bytes

/-- Conversion of an `int` to `size_t`: sign extension to 64 bits. -/
def intToSize (value : ℤ) : ℕ := (value % 2 ^ 64).toNat

/-- Conversion of an `int` to `unsigned int`. -/
def intToUnsigned (value : ℤ) : ℕ := (value % 2 ^ 32).toNat

theorem toUnsigned_of_lt {n : ℕ} (h : n < 2 ^ 32) : toUnsigned n = n := Nat.mod_eq_of_lt h

theorem zero_lt_word : 0 < 2 ^ 32 := by norm_num

theorem toUnsigned_lt (n : ℕ) : toUnsigned n < 2 ^ 32 := Nat.mod_lt n (by norm_num)

theorem unsignedSub_of_le {n m : ℕ} (h : m ≤ n) (hn : n < 2 ^ 32) : unsignedSub n m = n - m := by
  rw [unsignedSub, toUnsigned]
  omega

/-- A difference that is negative wraps around. -/
theorem unsignedSub_of_lt {n m : ℕ} (h : n < m) : unsignedSub n m = n + 2 ^ 32 - m := by
  rw [unsignedSub, toUnsigned]
  omega

theorem toInt_of_lt {n : ℕ} (h : n < 2 ^ 31) : toInt n = n := by
  have hmod : n % 2 ^ 32 = n := Nat.mod_eq_of_lt (by omega)
  rw [toInt, hmod, if_pos h]

/-- A word from `2 ^ 31` on reads as a negative `int`. -/
theorem toInt_neg {n : ℕ} (hlow : 2 ^ 31 ≤ n) (hhigh : n < 2 ^ 32) : toInt n < 0 := by
  have hmod : n % 2 ^ 32 = n := Nat.mod_eq_of_lt hhigh
  rw [toInt, hmod, if_neg (by omega)]
  omega

theorem toInt_lt (n : ℕ) : toInt n < 2 ^ 31 := by
  unfold toInt
  split_ifs <;> omega

theorem toInt_le (n : ℕ) : toInt n ≤ n := by
  unfold toInt
  split_ifs <;> omega

theorem toNat_toInt_le (n : ℕ) : (toInt n).toNat ≤ n := by
  have hle := toInt_le n
  omega

/-- Up to `2 ^ 32`, a word is its own `int` value exactly below `2 ^ 31`. -/
theorem toInt_eq_self_iff {n : ℕ} (h : n < 2 ^ 32) : toInt n = n ↔ n < 2 ^ 31 := by
  constructor
  · intro heq
    by_contra hlarge
    have hneg := toInt_neg (not_lt.mp hlarge) h
    omega
  · exact toInt_of_lt

theorem intToSize_of_lt {n : ℕ} (h : n < 2 ^ 64) : intToSize (n : ℤ) = n := by
  rw [intToSize]
  omega

theorem intToSize_toInt_of_lt {n : ℕ} (h : n < 2 ^ 31) : intToSize (toInt n) = n := by
  rw [toInt_of_lt h, intToSize_of_lt (by omega)]

/-- A positive `int` is the low half of the word it was converted from. -/
theorem intToSize_toInt_le {n : ℕ} (h : 0 < toInt n) : intToSize (toInt n) ≤ n := by
  unfold toInt at *
  unfold intToSize
  split_ifs at * <;> omega

theorem intToUnsigned_lt (value : ℤ) : intToUnsigned value < 2 ^ 32 := by
  rw [intToUnsigned]
  omega

theorem intToUnsigned_of_lt {n : ℕ} (h : n < 2 ^ 32) : intToUnsigned (n : ℤ) = n := by
  rw [intToUnsigned]
  omega

theorem intToUnsigned_toInt_le (n : ℕ) : intToUnsigned (toInt n) ≤ n := by
  rw [toInt, intToUnsigned]
  split_ifs <;> omega

/-- An unsigned word is not changed by a conversion to `int` and back. -/
theorem intToUnsigned_toInt {n : ℕ} (h : n < 2 ^ 32) : intToUnsigned (toInt n) = n := by
  rw [toInt, intToUnsigned, Nat.mod_eq_of_lt h]
  split_ifs <;> omega

end RdbLibs.MachineWord
