import Mathlib.Data.List.Basic
import Mathlib.Data.Nat.Bits

/-! # Words as sets of bits

A word of 64 bits is the set of its positions that are one, and the operations on words
are described by what they do to a position.
-/

namespace Mlvpn.Library.Word

variable {v w : UInt64} {i : Nat}

/-- A position of a word. -/
def bit (v : UInt64) (i : Nat) : Bool := v.toNat.testBit i

@[simp] theorem bit_or (v w : UInt64) (i : Nat) : bit (v ||| w) i = (bit v i || bit w i) := by
  simp [bit]

theorem bit_shiftLeft (v n : UInt64) (i : Nat) :
    bit (v <<< n) i = (decide (i < 64) && (decide (n.toNat % 64 ≤ i) && bit v (i - n.toNat % 64))) := by
  simp only [bit, UInt64.toNat_shiftLeft, Nat.testBit_mod_two_pow, Nat.testBit_shiftLeft, ge_iff_le]

@[simp] theorem bit_one (i : Nat) : bit 1 i = decide (i = 0) := by
  cases i with
  | zero => rfl
  | succ i => simp [bit, Nat.testBit_add_one]

@[simp] theorem bit_ones (i : Nat) : bit 0xFFFFFFFFFFFFFFFF i = decide (i < 64) :=
  Nat.testBit_two_pow_sub_one 64 i

theorem bit_one_shiftLeft {n : UInt64} (small : n.toNat < 64) (i : Nat) :
    bit (1 <<< n) i = decide (i = n.toNat) := by
  simp only [bit_shiftLeft, Nat.mod_eq_of_lt small, bit_one, ← Bool.decide_and, decide_eq_decide]
  omega

/-- A position is tested by shifting it to the end of the word. -/
theorem and_shiftRight_eq_zero (v : UInt64) (inside : i < 64) :
    1 &&& (v >>> UInt64.ofNat i) = 0 ↔ bit v i = false := by
  have shift : (UInt64.ofNat i).toNat % 64 = i := by
    rw [UInt64.toNat_ofNat']
    omega
  rw [← UInt64.toNat_inj]
  simp only [UInt64.toNat_and, UInt64.toNat_shiftRight, shift, bit, Nat.testBit, UInt64.toNat_one,
    UInt64.toNat_zero, bne_eq_false_iff_eq]

end Mlvpn.Library.Word
