import Mathlib.Algebra.BigOperators.Group.List.Basic
import Mathlib.Analysis.Real.Sqrt
import Mathlib.Tactic.Linarith
import Mathlib.Tactic.Positivity
import Mathlib.Tactic.Ring
import Roofline.Statistics.UncertainValue

/-!
# Propagation of the standard deviation

The variances of independent values add up in sums and differences of them.  The method
{lit}`SumDev` weights each deviation with the nominal value, so each variance in the result is
multiplied by the squares of all the nominal values on the way to the result.

Main results:

- Theorem {lit}`stdev_sq_eval`: the variance that the code computes.
- Theorem {lit}`isPropagated_iff`: when it is the sum of the variances.
- Theorem {lit}`isPropagated_all_iff`: when it is the sum whatever the deviations are.
-/

namespace Roofline
namespace Statistics

/-- A sum or difference of operands. -/
inductive SumExpression (Operand : Type) where
  | operand (x : Operand)
  | plus (left right : SumExpression Operand)
  | minus (left right : SumExpression Operand)

namespace SumExpression

variable {Operand : Type}

/-- The operands, once for each time they are used. -/
def operands : SumExpression Operand → List Operand
  | operand x => [x]
  | plus left right => left.operands ++ right.operands
  | minus left right => left.operands ++ right.operands

/-- The result of the code. -/
noncomputable def eval (values : Operand → UncertainValue ℝ) :
    SumExpression Operand → UncertainValue ℝ
  | operand x => values x
  | plus left right => UncertainValue.plus Real.sqrt (left.eval values) (right.eval values)
  | minus left right => UncertainValue.minus Real.sqrt (left.eval values) (right.eval values)

/-- The nominal value of an expression. -/
def nominal (values : Operand → ℝ) : SumExpression Operand → ℝ
  | operand x => values x
  | plus left right => left.nominal values + right.nominal values
  | minus left right => left.nominal values - right.nominal values

/-- Weights that are multiplied by the square of a number. -/
def scale (c : ℝ) (weights : List (ℝ × Operand)) : List (ℝ × Operand) :=
  weights.map fun weight => (c ^ 2 * weight.1, weight.2)

/-- The operands with their weights: the product of the squares of the nominal values of the
operand and of the partial results that contain it, without the whole expression. -/
def weights (values : Operand → ℝ) : SumExpression Operand → List (ℝ × Operand)
  | operand x => [(1, x)]
  | plus left right =>
      scale (left.nominal values) (left.weights values) ++
        scale (right.nominal values) (right.weights values)
  | minus left right =>
      scale (left.nominal values) (left.weights values) ++
        scale (right.nominal values) (right.weights values)

/-- The variance of the result is the sum of the variances of the operands. -/
def IsPropagated (expression : SumExpression Operand)
    (values : Operand → UncertainValue ℝ) : Prop :=
  (expression.eval values).stdev ^ 2 =
    (expression.operands.map fun x => (values x).stdev ^ 2).sum

end SumExpression

open SumExpression

section Propagation

variable {Operand : Type}

/-- The variance that is calculated weights those of the operands with the squares of their
values. -/
theorem stdev_sq_sumDev (u v : UncertainValue ℝ) :
    UncertainValue.sumDev Real.sqrt u v ^ 2 =
      u.value ^ 2 * u.stdev ^ 2 + v.value ^ 2 * v.stdev ^ 2 := by
  rw [UncertainValue.sumDev, Real.sq_sqrt (by positivity), mul_pow, mul_pow]

/-- Scaling changes no operand. -/
theorem map_snd_scale (c : ℝ) (list : List (ℝ × Operand)) :
    (scale c list).map Prod.snd = list.map Prod.snd := by
  simp [scale]

/-- The operands that have a weight are those of the expression. -/
theorem map_snd_weights (values : Operand → ℝ) (expression : SumExpression Operand) :
    (expression.weights values).map Prod.snd = expression.operands := by
  induction expression with
  | operand x => rfl
  | plus left right ihleft ihright =>
      simp [weights, operands, map_snd_scale, ihleft, ihright]
  | minus left right ihleft ihright =>
      simp [weights, operands, map_snd_scale, ihleft, ihright]

/-- Scaling the weights scales the sum by the square. -/
theorem sum_scale (c : ℝ) (list : List (ℝ × Operand)) (variance : Operand → ℝ) :
    ((scale c list).map fun weight => weight.1 * variance weight.2).sum =
      c ^ 2 * (list.map fun weight => weight.1 * variance weight.2).sum := by
  induction list with
  | nil => simp [scale]
  | cons weight list ih =>
      simp only [scale, List.map_cons, List.sum_cons] at ih ⊢
      rw [ih]
      ring

/-- The value is that of the expression. -/
theorem value_eval (values : Operand → UncertainValue ℝ) (expression : SumExpression Operand) :
    (expression.eval values).value = expression.nominal fun x => (values x).value := by
  induction expression with
  | operand x => rfl
  | plus left right ihleft ihright =>
      rw [nominal, ← ihleft, ← ihright]
      rfl
  | minus left right ihleft ihright =>
      rw [nominal, ← ihleft, ← ihright]
      rfl

/-- The weights of a sum or difference are those of its sides, multiplied. -/
theorem sumDev_sq_eval {values : Operand → UncertainValue ℝ} {left right : SumExpression Operand}
    (hleft : (left.eval values).stdev ^ 2 = ((left.weights fun x => (values x).value).map
      fun weight => weight.1 * (values weight.2).stdev ^ 2).sum)
    (hright : (right.eval values).stdev ^ 2 = ((right.weights fun x => (values x).value).map
      fun weight => weight.1 * (values weight.2).stdev ^ 2).sum) :
    UncertainValue.sumDev Real.sqrt (left.eval values) (right.eval values) ^ 2 =
      (((plus left right).weights fun x => (values x).value).map
        fun weight => weight.1 * (values weight.2).stdev ^ 2).sum := by
  rw [stdev_sq_sumDev, hleft, hright, value_eval, value_eval, weights, List.map_append,
    List.sum_append, sum_scale _ _ fun x => (values x).stdev ^ 2,
    sum_scale _ _ fun x => (values x).stdev ^ 2]

/-- The variance that the code computes. -/
theorem stdev_sq_eval (values : Operand → UncertainValue ℝ)
    (expression : SumExpression Operand) :
    (expression.eval values).stdev ^ 2 =
      ((expression.weights fun x => (values x).value).map
        fun weight => weight.1 * (values weight.2).stdev ^ 2).sum := by
  induction expression with
  | operand x => simp [eval, weights]
  | plus left right ihleft ihright => exact sumDev_sq_eval ihleft ihright
  | minus left right ihleft ihright => exact sumDev_sq_eval ihleft ihright

/-- The sum with all weights reduced by one. -/
theorem sum_sub_one (list : List (ℝ × Operand)) (variance : Operand → ℝ) :
    (list.map fun weight => (weight.1 - 1) * variance weight.2).sum =
      (list.map fun weight => weight.1 * variance weight.2).sum -
        ((list.map Prod.snd).map variance).sum := by
  induction list with
  | nil => simp
  | cons weight list ih =>
      simp only [List.map_cons, List.sum_cons] at ih ⊢
      rw [ih]
      ring

/-- When the variance is the sum of the variances. -/
theorem isPropagated_iff (values : Operand → UncertainValue ℝ)
    (expression : SumExpression Operand) :
    expression.IsPropagated values ↔
      ((expression.weights fun x => (values x).value).map
        fun weight => (weight.1 - 1) * (values weight.2).stdev ^ 2).sum = 0 := by
  rw [IsPropagated, stdev_sq_eval, sum_sub_one _ fun x => (values x).stdev ^ 2, map_snd_weights,
    sub_eq_zero]

/-- The same values with other deviations. -/
def withStdev (values : Operand → UncertainValue ℝ) (stdev : Operand → ℝ) :
    Operand → UncertainValue ℝ :=
  fun x => { values x with stdev := stdev x }

/-- If only one operand deviates, the sum is the one term for it. -/
theorem sum_single [DecidableEq Operand] {list : List (ℝ × Operand)}
    (hnodup : (list.map Prod.snd).Nodup) {weight : ℝ × Operand} (hweight : weight ∈ list) :
    (list.map fun other => (other.1 - 1) * (if other.2 = weight.2 then 1 else 0) ^ 2).sum =
      weight.1 - 1 := by
  induction list with
  | nil => cases hweight
  | cons first list ih =>
      rw [List.map_cons, List.nodup_cons] at hnodup
      rw [List.map_cons, List.sum_cons]
      rcases List.mem_cons.mp hweight with rfl | hmem
      · have hrest : (list.map fun other =>
            (other.1 - 1) * (if other.2 = weight.2 then (1 : ℝ) else 0) ^ 2).sum = 0 := by
          apply List.sum_eq_zero
          intro term hterm
          obtain ⟨other, hother, rfl⟩ := List.mem_map.mp hterm
          have hne : other.2 ≠ weight.2 := by
            intro heq
            exact hnodup.1 (List.mem_map.mpr ⟨other, hother, heq⟩)
          simp [hne]
        rw [hrest]
        simp
      · have hne : first.2 ≠ weight.2 := by
          intro heq
          exact hnodup.1 (List.mem_map.mpr ⟨weight, hmem, heq.symm⟩)
        rw [ih hnodup.2 hmem]
        simp [hne]

/-- When it is the sum whatever the deviations are. -/
theorem isPropagated_all_iff (values : Operand → UncertainValue ℝ)
    {expression : SumExpression Operand} (hnodup : expression.operands.Nodup) :
    (∀ stdev : Operand → ℝ, (∀ x, 0 ≤ stdev x) →
        expression.IsPropagated (withStdev values stdev)) ↔
      ∀ weight ∈ expression.weights fun x => (values x).value, weight.1 = 1 := by
  classical
  simp only [isPropagated_iff, withStdev]
  constructor
  · intro h weight hweight
    -- only this operand is uncertain
    have hsum := h (fun x => if x = weight.2 then 1 else 0) fun x => by split <;> norm_num
    rw [← map_snd_weights fun x => (values x).value] at hnodup
    rw [sum_single hnodup hweight] at hsum
    linarith
  · intro h stdev _
    apply List.sum_eq_zero
    intro term hterm
    obtain ⟨weight, hweight, rfl⟩ := List.mem_map.mp hterm
    rw [h weight hweight]
    ring

/-- The variances of the operands add up exactly when their weights compensate each other.  For
independent operands they add up for all deviations exactly when all the weights are one. -/
theorem propagated_iff_weights (expression : SumExpression Operand)
    (values : Operand → UncertainValue ℝ) :
    (expression.IsPropagated values ↔
      ((expression.weights fun x => (values x).value).map
        fun weight => (weight.1 - 1) * (values weight.2).stdev ^ 2).sum = 0) ∧
    (expression.operands.Nodup →
      ((∀ stdev : Operand → ℝ, (∀ x, 0 ≤ stdev x) →
          expression.IsPropagated (withStdev values stdev)) ↔
        ∀ weight ∈ expression.weights fun x => (values x).value, weight.1 = 1)) :=
  ⟨isPropagated_iff values expression, fun hnodup => isPropagated_all_iff values hnodup⟩

end Propagation

/-- A difference of two values of size one, whose deviations are not weighted. -/
theorem propagated_iff_weights_unit :
    ∀ stdev : Bool → ℝ, (∀ x, 0 ≤ stdev x) →
      (SumExpression.minus (.operand false) (.operand true)).IsPropagated
        (withStdev (fun x => ⟨if x then -1 else 1, 0, 0, 0⟩) stdev) := by
  refine ((propagated_iff_weights _ _).2 (by decide)).mpr ?_
  intro weight hweight
  simp only [weights, scale, nominal, List.map_cons, List.map_nil, List.cons_append,
    List.nil_append, List.mem_cons, List.not_mem_nil, or_false] at hweight
  obtain rfl | rfl := hweight <;> norm_num

/-- The sum of two and three with deviations of one: its variance is thirteen and not two. -/
theorem sum_two_three_not_propagated :
    ¬ (SumExpression.plus (.operand false) (.operand true)).IsPropagated
      fun x : Bool => ⟨if x then 3 else 2, 1, if x then 2 else 1, if x then 4 else 3⟩ := by
  rw [isPropagated_iff]
  simp only [weights, scale, nominal, List.map_cons, List.map_nil, List.cons_append,
    List.nil_append, List.sum_cons, List.sum_nil]
  norm_num

end Statistics
end Roofline
