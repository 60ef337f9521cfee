import Mathlib.Data.Nat.Bitwise

/-!
# Flags and fields of a 32-bit word

A word is read through masks.  Setting and clearing the flags of one mask shows there and
does not show through a mask that shares no bit with it.
-/

namespace Bits

variable {x a m : UInt32} {n : Nat}

/-- A flag that was set is set. -/
theorem or_and_self (x m : UInt32) : (x ||| m) &&& m = m := by
  apply UInt32.toNat_inj.1
  rw [UInt32.toNat_and, UInt32.toNat_or]
  apply Nat.eq_of_testBit_eq
  intro i
  rw [Nat.testBit_and, Nat.testBit_or]
  cases m.toNat.testBit i <;> simp

/-- A flag that was cleared is clear. -/
theorem and_not_and (x m : UInt32) : (x &&& ~~~m) &&& m = 0 := by
  rw [UInt32.and_assoc, UInt32.and_comm (~~~m) m, UInt32.and_not_self, UInt32.and_zero]

theorem or_and_of_disjoint (h : a &&& m = 0) (x : UInt32) : (x ||| a) &&& m = x &&& m := by
  have h' := congrArg UInt32.toNat h
  apply UInt32.toNat_inj.1
  rw [UInt32.toNat_and, UInt32.toNat_zero] at h'
  rw [UInt32.toNat_and, UInt32.toNat_or, Nat.and_or_distrib_right, h', Nat.or_zero, UInt32.toNat_and]

/-- A number below `2 ^ n` has none of the bits from `n` on. -/
theorem and_eq_zero_of_lt (h : x.toNat < 2 ^ n) (hm : m.toNat % 2 ^ n = 0) : x &&& m = 0 := by
  apply UInt32.toNat_inj.1
  rw [UInt32.toNat_and]
  apply Nat.eq_of_testBit_eq
  intro i
  rw [Nat.testBit_and, UInt32.toNat_zero, Nat.zero_testBit]
  rcases Nat.lt_or_ge i n with hi | hi
  · have hbit := Nat.testBit_mod_two_pow m.toNat n i
    rw [hm, Nat.zero_testBit, decide_eq_true hi, Bool.true_and] at hbit
    rw [← hbit, Bool.and_false]
  · rw [Nat.testBit_lt_two_pow (Nat.lt_of_lt_of_le h (Nat.pow_le_pow_right (by decide) hi)), Bool.false_and]

/-- A number below `2 ^ n` is all in the low `n` bits. -/
theorem and_eq_self_of_lt (h : x.toNat < 2 ^ n) (hm : m.toNat = 2 ^ n - 1) : x &&& m = x := by
  apply UInt32.toNat_inj.1
  rw [UInt32.toNat_and, hm, Nat.and_two_pow_sub_one_of_lt_two_pow h]

end Bits
