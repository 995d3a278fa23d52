import Mathlib.Algebra.Ring.Int.Defs
import Mathlib.Algebra.Ring.Nat
import Mathlib.Data.Int.Basic
import Mathlib.Tactic.Common

/-!
# Library - Machine integers

Signed integers of a fixed number of bits, and the two ways in which a number that may
be out of range becomes one.

Main results:

- Theorem {lit}`Signed.ofInt?_val`: the check of the range accepts what is in range.
- Theorem {lit}`Signed.wrap_val`: wrapping around changes nothing in range.
- Theorem {lit}`Signed.wrap_add`: a sum may wrap around after each number that is added.
-/

namespace Roofline
namespace Integers

/-- A signed integer of this many bits. -/
def Signed (bits : Nat) :=
  { i : Int // -2 ^ (bits - 1) ≤ i ∧ i < 2 ^ (bits - 1) }

/-- Integers of a width are compared by their values. -/
instance (bits : Nat) : DecidableEq (Signed bits) :=
  inferInstanceAs (DecidableEq { i : Int // -2 ^ (bits - 1) ≤ i ∧ i < 2 ^ (bits - 1) })

namespace Signed

variable {bits : Nat}

/-- The integer, if it is in range. -/
def ofInt? (bits : Nat) (i : Int) : Option (Signed bits) :=
  if h : -2 ^ (bits - 1) ≤ i ∧ i < 2 ^ (bits - 1) then some ⟨i, h⟩ else none

/-- The next power of two, as an integer. -/
theorem pow_succ_bits (bits : Nat) : ((2 ^ (bits + 1) : Nat) : Int) = 2 * 2 ^ bits := by
  rw [Nat.pow_succ]
  push_cast
  omega

/-- The balanced remainder lies in the range of the type. -/
theorem bmod_mem (bits : Nat) (i : Int) :
    -2 ^ (bits - 1) ≤ i.bmod (2 ^ bits) ∧ i.bmod (2 ^ bits) < 2 ^ (bits - 1) := by
  cases bits with
  | zero => simp [Int.bmod_one]
  | succ bits =>
      have hpos : 0 < 2 ^ (bits + 1) := Nat.two_pow_pos _
      have hlow := Int.le_bmod (x := i) hpos
      have hhigh := Int.bmod_lt (x := i) hpos
      have hhalf := pow_succ_bits bits
      rw [hhalf] at hlow hhigh
      rw [Nat.add_sub_cancel]
      omega

/-- The lowest bits of the integer. -/
def wrap (bits : Nat) (i : Int) : Signed bits :=
  ⟨i.bmod (2 ^ bits), bmod_mem bits i⟩

/-- The check of the range accepts what is in range. -/
theorem ofInt?_val (i : Signed bits) : ofInt? bits i.val = some i := by
  rw [ofInt?, dif_pos i.property]
  rfl

/-- Wrapping around changes nothing in range. -/
theorem wrap_val (hbits : 0 < bits) (i : Signed bits) : wrap bits i.val = i := by
  obtain ⟨bits, rfl⟩ : ∃ n, bits = n + 1 := ⟨bits - 1, by omega⟩
  rcases i with ⟨i, hlow, hhigh⟩
  rw [Nat.add_sub_cancel] at hlow hhigh
  have hhalf := pow_succ_bits bits
  apply Subtype.ext
  change i.bmod (2 ^ (bits + 1)) = i
  apply Int.bmod_eq_of_le
  · rw [hhalf]
    omega
  · rw [hhalf]
    omega

/-- Numbers in the range of the type are not wrapped. -/
theorem wrap_of_mem {i : Int} (hlow : -2 ^ (bits - 1) ≤ i) (hhigh : i < 2 ^ (bits - 1))
    (hbits : 0 < bits) : (wrap bits i).val = i :=
  congrArg Subtype.val (wrap_val hbits ⟨i, hlow, hhigh⟩)

/-- A number that is not negative does not grow. -/
theorem wrap_le {i : Int} (hi : 0 ≤ i) : (wrap bits i).val ≤ i := by
  have hpos : 0 < 2 ^ bits := Nat.two_pow_pos bits
  have hquotient := Int.mul_nonneg (Int.natCast_nonneg (2 ^ bits))
    (Int.ediv_nonneg hi (Int.natCast_nonneg (2 ^ bits)))
  have hsplit := Int.mul_ediv_add_emod i (2 ^ bits : Nat)
  have hmod : i % (2 ^ bits : Nat) ≤ i := by omega
  change i.bmod (2 ^ bits) ≤ i
  unfold Int.bmod
  dsimp only
  split
  · exact hmod
  · omega

/-- What is added to a sum that has wrapped around is added to the sum. -/
theorem wrap_add (i j : Int) : wrap bits ((wrap bits i).val + j) = wrap bits (i + j) :=
  Subtype.ext Int.bmod_add_bmod

end Signed

/-- The nearest integer of 64 bits. -/
def saturate (i : Int) : Int :=
  max (-2 ^ 63) (min i (2 ^ 63 - 1))

/-- Numbers in the range of 64 bits are not saturated. -/
theorem saturate_of_mem {i : Int} (hlow : -2 ^ 63 ≤ i) (hhigh : i < 2 ^ 63) : saturate i = i := by
  unfold saturate
  omega

end Integers
end Roofline
