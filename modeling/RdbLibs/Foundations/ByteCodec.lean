import Mathlib.Data.Nat.Init
import Mathlib.Algebra.Group.Nat.Defs
import Mathlib.Algebra.Order.Ring.Nat
import Mathlib.Tactic.Ring

/-!
# Words in memory

A word of `width` bytes is stored with its least significant byte first. `littleEndian` gives the
bytes of a number, reduced modulo `256 ^ width`, and `ofLittleEndian` reads them back.
-/

set_option autoImplicit false
set_option relaxedAutoImplicit false

namespace RdbLibs.ByteCodec

/-- The bytes of a word, the least significant byte first. -/
def littleEndian : ℕ → ℕ → List UInt8
  | 0, _ => []
  | width + 1, value => UInt8.ofNat value :: littleEndian width (value / 256)

/-- The word that is stored in some bytes. -/
def ofLittleEndian : List UInt8 → ℕ
  | [] => 0
  | byte :: bytes => byte.toNat + 256 * ofLittleEndian bytes

@[simp] theorem length_littleEndian (width value : ℕ) :
    (littleEndian width value).length = width := by
  induction width generalizing value with
  | zero => rfl
  | succ width ih => simp [littleEndian, ih]

/-- Storing a word and reading it back reduces it to the width of the word. -/
theorem ofLittleEndian_littleEndian (width value : ℕ) :
    ofLittleEndian (littleEndian width value) = value % 256 ^ width := by
  induction width generalizing value with
  | zero => simp [littleEndian, ofLittleEndian, Nat.mod_one]
  | succ width ih =>
    calc ofLittleEndian (littleEndian (width + 1) value)
        = value % 256 + 256 * (value / 256 % 256 ^ width) := by
          rw [littleEndian, ofLittleEndian, ih, UInt8.toNat_ofNat']
      _ = value % 256 ^ (width + 1) := by rw [pow_succ', Nat.mod_mul]

end RdbLibs.ByteCodec
