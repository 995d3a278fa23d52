import Mathlib.Logic.Relation
import Mathlib.Tactic.Common

/-!
# Library - Positions on a circle

The positions of a list are closed to a circle: the first one comes after the last one.

Main results:

- Theorem {lit}`adjacent_iff`: the positions next to a position are the ones before and after it.
- Theorem {lit}`reaches`: all positions are reached by steps to adjacent ones.
-/

namespace Roofline
namespace Circles

/-- The position after this one. -/
def next (n i : Nat) : Nat :=
  if n ≤ i + 1 then 0 else i + 1

/-- The position before this one. -/
def prev (n i : Nat) : Nat :=
  if i = 0 then n - 1 else i - 1

/-- One of the positions comes after the other, going around. -/
def Adjacent (n i j : Nat) : Prop :=
  (i + 1) % n = j ∨ (j + 1) % n = i

/-- Adjacency is symmetric. -/
theorem Adjacent.symm {n i j : Nat} (h : Adjacent n i j) : Adjacent n j i :=
  Or.symm h

/-- A step to an adjacent position. -/
structure Step (n i j : Nat) : Prop where
  left : i < n
  right : j < n
  adjacent : Adjacent n i j

/-- The step along the circle can be made in both directions. -/
instance (n : Nat) : Std.Symm (Step n) :=
  ⟨fun _ _ h => ⟨h.right, h.left, h.adjacent.symm⟩⟩

variable {n i j : Nat} (hi : i < n)

include hi

/-- The next place is on the circle. -/
theorem next_lt : next n i < n := by
  unfold next
  split
  · omega
  · omega

/-- The previous place is on the circle. -/
theorem prev_lt : prev n i < n := by
  unfold prev
  split
  · omega
  · omega

/-- The next place is the successor modulo the length. -/
theorem mod_eq_next : (i + 1) % n = next n i := by
  unfold next
  split
  · have hlast : i + 1 = n := by omega
    rw [hlast, Nat.mod_self]
  · rw [Nat.mod_eq_of_lt (by omega)]

/-- The next place after the previous one is the place itself. -/
theorem next_prev : next n (prev n i) = i := by
  unfold next prev
  split
  · split
    · omega
    · omega
  · split
    · omega
    · omega

/-- So is the previous place of the next one. -/
theorem prev_next : prev n (next n i) = i := by
  unfold next prev
  split
  · split
    · omega
    · omega
  · split
    · omega
    · omega

/-- The positions next to a position are the ones before and after it. -/
theorem adjacent_iff (hj : j < n) : Adjacent n i j ↔ j = prev n i ∨ j = next n i := by
  rw [Adjacent, mod_eq_next hi, mod_eq_next hj]
  constructor
  · rintro (rfl | rfl)
    · exact .inr rfl
    · exact .inl (prev_next hj).symm
  · rintro (rfl | rfl)
    · exact .inr (next_prev hi)
    · exact .inl rfl

/-- All positions are reached by steps to adjacent ones. -/
theorem reaches (hj : j < n) : Relation.ReflTransGen (Step n) i j := by
  have hup : ∀ k < n, Relation.ReflTransGen (Step n) 0 k := by
    intro k hk
    induction k with
    | zero => exact .refl
    | succ k ih => exact (ih (by omega)).tail ⟨by omega, hk, .inl (Nat.mod_eq_of_lt hk)⟩
  have hdown : Relation.ReflTransGen (Step n) i 0 := Std.Symm.symm 0 i (hup i hi)
  exact hdown.trans (hup j hj)

end Circles
end Roofline
