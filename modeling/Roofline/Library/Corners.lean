import Mathlib.Algebra.Order.Field.Basic
import Mathlib.Order.Interval.Set.Basic
import Mathlib.Tactic.Common
import Mathlib.Tactic.Linarith

/-!
# Library - Functions on boxes

A function of two numbers that moves between its values at the ends of an interval, in each of its
arguments, has its bounds on a box at corners of the box.

Main results:

- Theorem {lit}`corners_enclose`: the values in a box are between those at the corners.
- Theorems {lit}`cornerMin_attained` and {lit}`cornerMax_attained`: the bounds are values in the
  box.
- Theorems {lit}`monotoneBetween_mul` and {lit}`monotoneBetween_inv`: products and inverses.
-/

namespace Roofline
namespace Corners

open Set

variable {K : Type} [LinearOrder K]

/-- A number between two others, in whichever order these are. -/
def Between (first second x : K) : Prop :=
  min first second ≤ x ∧ x ≤ max first second

/-- The smallest of the values at the corners. -/
def cornerMin (f : K → K → K) (a a' b b' : K) : K :=
  min (min (f a b) (f a' b)) (min (f a b') (f a' b'))

/-- The largest of the values at the corners. -/
def cornerMax (f : K → K → K) (a a' b b' : K) : K :=
  max (max (f a b) (f a' b)) (max (f a b') (f a' b'))

variable {f : K → K → K} {a a' b b' : K}

/-- The values in a box are between those at the corners. -/
theorem corners_enclose {x y : K} (hx : Between (f a y) (f a' y) (f x y))
    (hlower : Between (f a b) (f a b') (f a y)) (hupper : Between (f a' b) (f a' b') (f a' y)) :
    f x y ∈ Icc (cornerMin f a a' b b') (cornerMax f a a' b b') := by
  constructor
  · calc
      cornerMin f a a' b b' = min (min (f a b) (f a b')) (min (f a' b) (f a' b')) :=
        min_min_min_comm _ _ _ _
      _ ≤ min (f a y) (f a' y) := min_le_min hlower.1 hupper.1
      _ ≤ f x y := hx.1
  · calc
      f x y ≤ max (f a y) (f a' y) := hx.2
      _ ≤ max (max (f a b) (f a b')) (max (f a' b) (f a' b')) := max_le_max hlower.2 hupper.2
      _ = cornerMax f a a' b b' := max_max_max_comm _ _ _ _

/-- The lower bound is below the upper one. -/
theorem cornerMin_le_cornerMax : cornerMin f a a' b b' ≤ cornerMax f a a' b b' :=
  calc
    cornerMin f a a' b b' ≤ f a b := (min_le_left _ _).trans (min_le_left _ _)
    _ ≤ cornerMax f a a' b b' := (le_max_left _ _).trans (le_max_left _ _)

/-- The lower bound is a value at a corner. -/
theorem cornerMin_attained (ha : a ≤ a') (hb : b ≤ b') :
    ∃ x ∈ Icc a a', ∃ y ∈ Icc b b', f x y = cornerMin f a a' b b' := by
  have hleft := left_mem_Icc.mpr ha
  have hright := right_mem_Icc.mpr ha
  have hlow := left_mem_Icc.mpr hb
  have hhigh := right_mem_Icc.mpr hb
  unfold cornerMin
  rcases min_choice (min (f a b) (f a' b)) (min (f a b') (f a' b')) with h | h
  · rw [h]
    rcases min_choice (f a b) (f a' b) with h | h
    · exact ⟨a, hleft, b, hlow, h.symm⟩
    · exact ⟨a', hright, b, hlow, h.symm⟩
  · rw [h]
    rcases min_choice (f a b') (f a' b') with h | h
    · exact ⟨a, hleft, b', hhigh, h.symm⟩
    · exact ⟨a', hright, b', hhigh, h.symm⟩

/-- The upper bound is a value at a corner. -/
theorem cornerMax_attained (ha : a ≤ a') (hb : b ≤ b') :
    ∃ x ∈ Icc a a', ∃ y ∈ Icc b b', f x y = cornerMax f a a' b b' := by
  have hleft := left_mem_Icc.mpr ha
  have hright := right_mem_Icc.mpr ha
  have hlow := left_mem_Icc.mpr hb
  have hhigh := right_mem_Icc.mpr hb
  unfold cornerMax
  rcases max_choice (max (f a b) (f a' b)) (max (f a b') (f a' b')) with h | h
  · rw [h]
    rcases max_choice (f a b) (f a' b) with h | h
    · exact ⟨a, hleft, b, hlow, h.symm⟩
    · exact ⟨a', hright, b, hlow, h.symm⟩
  · rw [h]
    rcases max_choice (f a b') (f a' b') with h | h
    · exact ⟨a, hleft, b', hhigh, h.symm⟩
    · exact ⟨a', hright, b', hhigh, h.symm⟩

/-! ## Functions of one number -/

/-- On the interval the function moves between its values at the ends. -/
def MonotoneBetween (g : K → K) (a a' : K) : Prop :=
  ∀ x ∈ Icc a a', Between (g a) (g a') (g x)

/-- A function that increases on the interval stays between its ends. -/
theorem monotoneBetween_of_monotoneOn {g : K → K} (h : MonotoneOn g (Icc a a')) :
    MonotoneBetween g a a' := by
  intro x hx
  have hle := hx.1.trans hx.2
  exact ⟨(min_le_left _ _).trans (h (left_mem_Icc.mpr hle) hx hx.1),
    (h hx (right_mem_Icc.mpr hle) hx.2).trans (le_max_right _ _)⟩

/-- So does a function that decreases. -/
theorem monotoneBetween_of_antitoneOn {g : K → K} (h : AntitoneOn g (Icc a a')) :
    MonotoneBetween g a a' := by
  intro x hx
  have hle := hx.1.trans hx.2
  exact ⟨(min_le_right _ _).trans (h hx (right_mem_Icc.mpr hle) hx.2),
    (h (left_mem_Icc.mpr hle) hx hx.1).trans (le_max_left _ _)⟩

/-- So does the identity. -/
theorem monotoneBetween_id : MonotoneBetween (fun x : K => x) a a' :=
  monotoneBetween_of_monotoneOn fun _ _ _ _ hle => hle

section Field

variable {K : Type} [Field K] [LinearOrder K] [IsStrictOrderedRing K] {a a' : K}

/-- A number between two others stays there if all are multiplied. -/
theorem Between.mul {first second x : K} (h : Between first second x) (c : K) :
    Between (c * first) (c * second) (c * x) := by
  rcases le_total 0 c with hc | hc
  · refine ⟨?_, ?_⟩
    · rw [← mul_min_of_nonneg _ _ hc]
      exact mul_le_mul_of_nonneg_left h.1 hc
    · rw [← mul_max_of_nonneg _ _ hc]
      exact mul_le_mul_of_nonneg_left h.2 hc
  · rcases le_total first second with hle | hle
    · rw [Between, min_eq_left hle, max_eq_right hle] at h
      have hproduct : c * second ≤ c * first := mul_le_mul_of_nonpos_left hle hc
      rw [Between, min_eq_right hproduct, max_eq_left hproduct]
      exact ⟨mul_le_mul_of_nonpos_left h.2 hc, mul_le_mul_of_nonpos_left h.1 hc⟩
    · rw [Between, min_eq_right hle, max_eq_left hle] at h
      have hproduct : c * first ≤ c * second := mul_le_mul_of_nonpos_left hle hc
      rw [Between, min_eq_left hproduct, max_eq_right hproduct]
      exact ⟨mul_le_mul_of_nonpos_left h.2 hc, mul_le_mul_of_nonpos_left h.1 hc⟩

/-- The product with a number. -/
theorem monotoneBetween_mul (c : K) : MonotoneBetween (fun x => c * x) a a' :=
  fun x hx => (monotoneBetween_id x hx).mul c

/-- The inverse, on an interval without zero. -/
theorem monotoneBetween_inv (h : (0 : K) ∉ Icc a a') : MonotoneBetween (fun x => x⁻¹) a a' := by
  apply monotoneBetween_of_antitoneOn
  intro x hx y hy hle
  rcases lt_or_ge 0 a with hpos | hnonpos
  · exact inv_anti₀ (hpos.trans_le hx.1) hle
  · have hneg : a' < 0 := by
      by_contra hnot
      exact h ⟨hnonpos, not_lt.mp hnot⟩
    exact (inv_le_inv_of_neg (hy.2.trans_lt hneg) (hx.2.trans_lt hneg)).mpr hle

end Field

end Corners
end Roofline
