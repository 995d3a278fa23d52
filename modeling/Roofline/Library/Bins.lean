import Mathlib.Algebra.BigOperators.Group.List.Basic
import Mathlib.Algebra.Order.Field.Basic
import Mathlib.Algebra.Order.Floor.Ring
import Mathlib.Data.Int.Cast.Lemmas
import Mathlib.Tactic.FieldSimp
import Mathlib.Tactic.Linarith
import Mathlib.Tactic.Ring

/-!
# Library - Bins

An interval is divided into bins of equal width, and values are counted by the bin that they
fall into.

Main results:

- Theorem {lit}`position_eq_iff`: a value is in the bin between whose edges it is.
- Theorem {lit}`getElem?_tally`: what is counted in a bin.
- Theorem {lit}`sum_tally`: each value that is in a bin is counted once.
-/

namespace Roofline
namespace Bins

/-! ## Edges -/

section Edges

variable {K : Type} [Field K]

/-- The lower edge of a bin, which is the upper edge of the one before. -/
def edge (n : Nat) (low high : K) (i : Int) : K :=
  low + (high - low) * i / n

/-- The first edge is the lower bound. -/
theorem edge_zero {n : Nat} {low high : K} : edge n low high 0 = low := by
  simp [edge]

variable [LinearOrder K]

/-- The bin of a value. -/
def position [FloorRing K] (n : Nat) (low high x : K) : Int :=
  ⌊(x - low) / (high - low) * n⌋

variable {n : Nat} {low high : K} [IsStrictOrderedRing K] (hn : 0 < n)

include hn

/-- The last edge is the upper bound. -/
theorem edge_last : edge n low high n = high := by
  have hne : (n : K) ≠ 0 := by exact_mod_cast hn.ne'
  rw [edge, Int.cast_natCast, mul_div_assoc, div_self hne]
  ring

/-- An edge is half a width below the center of its bin. -/
theorem edge_center (i : Int) :
    edge n low high i = low + (high - low) * (1 / 2 + i) / n - (high - low) / n / 2 := by
  have hne : (n : K) ≠ 0 := by exact_mod_cast hn.ne'
  rw [edge]
  field_simp
  ring

/-- The next edge is half a width above it. -/
theorem edge_succ (i : Int) :
    edge n low high (i + 1) = low + (high - low) * (1 / 2 + i) / n + (high - low) / n / 2 := by
  rw [edge_center hn]
  push_cast
  ring

variable (h : low < high)

include h

/-- An edge is below a value exactly if it is in the scaled positions. -/
theorem edge_le_iff {i : Int} {x : K} :
    edge n low high i ≤ x ↔ (i : K) ≤ (x - low) / (high - low) * n := by
  have hpos : (0 : K) < n := by exact_mod_cast hn
  have hspan : 0 < high - low := sub_pos.mpr h
  rw [edge, ← le_sub_iff_add_le', div_le_iff₀ hpos, div_mul_eq_mul_div, le_div_iff₀ hspan,
    mul_comm (i : K)]

/-- The edges are in the order of the bins. -/
theorem edge_lt_iff {i j : Int} : edge n low high i < edge n low high j ↔ i < j := by
  have hpos : (0 : K) < n := by exact_mod_cast hn
  have hspan : 0 < high - low := sub_pos.mpr h
  rw [edge, edge, add_lt_add_iff_left, div_lt_div_iff_of_pos_right hpos,
    mul_lt_mul_iff_right₀ hspan, Int.cast_lt]

variable [FloorRing K]

/-- A position is at least a number exactly if the value is not below its edge. -/
theorem le_position_iff {i : Int} {x : K} : i ≤ position n low high x ↔ edge n low high i ≤ x := by
  rw [position, Int.le_floor, edge_le_iff hn h]

/-- A value is in the bin between whose edges it is. -/
theorem position_eq_iff {i : Int} {x : K} :
    position n low high x = i ↔ edge n low high i ≤ x ∧ x < edge n low high (i + 1) := by
  rw [← le_position_iff hn h, ← not_le, ← le_position_iff hn h]
  omega

/-- Positions are not negative above the lower bound. -/
theorem position_nonneg_iff {x : K} : 0 ≤ position n low high x ↔ low ≤ x := by
  rw [le_position_iff hn h, edge_zero]

/-- Positions are below the number of bins below the upper bound. -/
theorem position_lt_iff {x : K} : position n low high x < n ↔ x < high := by
  rw [← not_le, le_position_iff hn h, edge_last hn, not_le]

end Edges

/-! ## Counting -/

section Counting

variable {α : Type}

/-- One more in this bin. -/
def increment (counts : List Nat) (i : Nat) : List Nat :=
  counts.modify i (· + 1)

/-- The values, each counted in its bin. -/
def tally (bin : α → Option Nat) (counts : List Nat) (xs : List α) : List Nat :=
  xs.foldl (fun counts x => (bin x).elim counts (increment counts)) counts

variable (bin : α → Option Nat)

/-- Incrementing a count keeps the number of counts. -/
@[simp] theorem length_increment (counts : List Nat) (i : Nat) :
    (increment counts i).length = counts.length := by
  simp [increment]

/-- So does a value, whether it has a bin or not. -/
theorem length_visit (counts : List Nat) (x : α) :
    ((bin x).elim counts (increment counts)).length = counts.length := by
  cases bin x <;> simp

/-- So do all values. -/
@[simp] theorem length_tally (counts : List Nat) (xs : List α) :
    (tally bin counts xs).length = counts.length := by
  induction xs generalizing counts with
  | nil => rfl
  | cons x xs ih => exact (ih _).trans (length_visit bin counts x)

/-- One of the counts is one higher. -/
theorem getElem?_increment (counts : List Nat) (i j : Nat) :
    (increment counts i)[j]? = counts[j]?.map fun count => if i = j then count + 1 else count := by
  rw [increment, List.getElem?_modify]
  split <;> simp [*]

/-- What is counted in a bin. -/
theorem getElem?_tally (counts : List Nat) (xs : List α) (j : Nat) :
    (tally bin counts xs)[j]? = counts[j]?.map (· + xs.countP fun x => bin x = some j) := by
  induction xs generalizing counts with
  | nil => simp [tally]
  | cons x xs ih =>
      change (tally bin ((bin x).elim counts (increment counts)) xs)[j]? = _
      rw [ih, List.countP_cons]
      cases hx : bin x with
      | none => simp
      | some i =>
          rw [Option.elim_some, getElem?_increment, Option.map_map]
          by_cases hij : i = j
          · simp only [hij, if_true, Function.comp_def, decide_true, Nat.add_assoc, Nat.add_comm 1]
          · simp [hij, Function.comp_def]

/-- The sum of the counts is one higher. -/
theorem sum_increment {counts : List Nat} {i : Nat} (hi : i < counts.length) :
    (increment counts i).sum = counts.sum + 1 := by
  induction counts generalizing i with
  | nil => cases hi
  | cons count counts ih =>
      cases i with
      | zero =>
          rw [increment, List.modify_zero_cons, List.sum_cons, List.sum_cons]
          omega
      | succ i =>
          have hrest := ih (Nat.lt_of_succ_lt_succ hi)
          rw [increment] at hrest
          rw [increment, List.modify_succ_cons, List.sum_cons, List.sum_cons, hrest]
          omega

/-- Each value that is in a bin is counted once. -/
theorem sum_tally {counts : List Nat} (hbin : ∀ x, ∀ i ∈ bin x, i < counts.length)
    (xs : List α) :
    (tally bin counts xs).sum = counts.sum + xs.countP fun x => (bin x).isSome := by
  induction xs generalizing counts with
  | nil => simp [tally]
  | cons x xs ih =>
      change (tally bin ((bin x).elim counts (increment counts)) xs).sum = _
      rw [ih (by simpa only [length_visit] using hbin), List.countP_cons]
      cases hx : bin x with
      | none => simp
      | some i =>
          rw [Option.elim_some, sum_increment (hbin x i hx)]
          simp
          omega

end Counting

end Bins
end Roofline
