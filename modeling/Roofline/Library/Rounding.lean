import Mathlib.Algebra.Ring.Nat
import Mathlib.Tactic.Common
import Mathlib.Tactic.Ring

/-!
# Library - Rounding to significant bits

A natural number is rounded to the nearest one with a given number of significant bits; of two
that are equally near it becomes the one whose last bit is zero.

Main results:

- Theorem {lit}`roundTo_eq_self_iff`: which numbers are not changed.
- Theorems {lit}`roundTo_le` and {lit}`le_roundTo`: the relative error is at most half a bit.
-/

namespace Roofline
namespace Rounding

/-- The value of the last significant bit. -/
def unit (bits n : Nat) : Nat :=
  2 ^ (n.log2 + 1 - bits)

/-- A number rounded to some binary digits, ties to even. -/
def roundTo (bits n : Nat) : Nat :=
  if 2 * (n % unit bits n) < unit bits n ∨
      2 * (n % unit bits n) = unit bits n ∧ n / unit bits n % 2 = 0 then
    n / unit bits n * unit bits n
  else
    (n / unit bits n + 1) * unit bits n

variable {bits n : Nat}

/-- The unit of the last digit is positive. -/
theorem unit_pos (bits n : Nat) : 0 < unit bits n :=
  Nat.two_pow_pos _

/-- A rounded number is a multiple of the unit. -/
theorem unit_dvd_roundTo (bits n : Nat) : unit bits n ∣ roundTo bits n := by
  unfold roundTo
  split
  · exact Nat.dvd_mul_left _ _
  · exact Nat.dvd_mul_left _ _

/-- A number is not changed exactly if the bits after the last significant one are zero. -/
theorem roundTo_eq_self_iff : roundTo bits n = n ↔ unit bits n ∣ n := by
  constructor
  · intro h
    rw [← h]
    have hdvd := unit_dvd_roundTo bits n
    rwa [h] at hdvd ⊢
  · intro hdvd
    unfold roundTo
    rw [Nat.mod_eq_zero_of_dvd hdvd, if_pos (Or.inl (unit_pos bits n)), Nat.div_mul_cancel hdvd]

/-- The error is at most half of the last significant bit. -/
theorem roundTo_near (bits n : Nat) :
    2 * roundTo bits n ≤ 2 * n + unit bits n ∧ 2 * n ≤ 2 * roundTo bits n + unit bits n := by
  have hsplit := Nat.div_add_mod n (unit bits n)
  have hmod := Nat.mod_lt n (unit_pos bits n)
  rw [Nat.mul_comm] at hsplit
  unfold roundTo
  split
  · omega
  · rw [Nat.add_mul, Nat.one_mul]
    omega

/-- Where the last significant bit is not one, it is small compared with the number. -/
theorem unit_mul_le (hbits : 0 < bits) (h : unit bits n ≠ 1) : unit bits n * 2 ^ bits ≤ 2 * n := by
  have hlog : bits ≤ n.log2 := by
    by_contra hlt
    apply h
    rw [unit, Nat.sub_eq_zero_of_le (by omega), Nat.pow_zero]
  have hne : n ≠ 0 := by
    rintro rfl
    simp at hlog
    omega
  calc
    unit bits n * 2 ^ bits = 2 ^ (n.log2 + 1) := by
      rw [unit, ← Nat.pow_add, Nat.sub_add_cancel (by omega)]
    _ = 2 * 2 ^ n.log2 := by rw [Nat.pow_succ, Nat.mul_comm]
    _ ≤ 2 * n := Nat.mul_le_mul_left 2 (Nat.log2_self_le hne)

/-- Rounding up adds at most half a unit. -/
theorem roundTo_le (hbits : 0 < bits) : 2 ^ bits * roundTo bits n ≤ 2 ^ bits * n + n := by
  by_cases hone : unit bits n = 1
  · rw [roundTo_eq_self_iff.mpr (by rw [hone]; exact Nat.one_dvd n)]
    exact Nat.le_add_right _ _
  · have hnear := Nat.mul_le_mul_left (2 ^ bits) (roundTo_near bits n).1
    have hunit := unit_mul_le hbits hone
    have hdouble : 2 ^ bits * (2 * roundTo bits n) = 2 * (2 ^ bits * roundTo bits n) := by ring
    have hsum : 2 ^ bits * (2 * n + unit bits n) =
        2 * (2 ^ bits * n) + unit bits n * 2 ^ bits := by ring
    omega

/-- Rounding down takes away at most half a unit. -/
theorem le_roundTo (hbits : 0 < bits) : 2 ^ bits * n ≤ 2 ^ bits * roundTo bits n + n := by
  by_cases hone : unit bits n = 1
  · rw [roundTo_eq_self_iff.mpr (by rw [hone]; exact Nat.one_dvd n)]
    exact Nat.le_add_right _ _
  · have hnear := Nat.mul_le_mul_left (2 ^ bits) (roundTo_near bits n).2
    have hunit := unit_mul_le hbits hone
    have hdouble : 2 ^ bits * (2 * n) = 2 * (2 ^ bits * n) := by ring
    have hsum : 2 ^ bits * (2 * roundTo bits n + unit bits n) =
        2 * (2 ^ bits * roundTo bits n) + unit bits n * 2 ^ bits := by ring
    omega

end Rounding
end Roofline
