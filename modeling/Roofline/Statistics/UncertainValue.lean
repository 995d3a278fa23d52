import Roofline.Library.Corners

/-!
# Uncertain values

A measured value with its standard deviation and the bounds that it is known to be in.  The
operations combine the bounds at their four corners.  Numbers are exact.

Main results:

- Theorem {lit}`mem_apply`: a result is in the bounds of the result.
- Theorem {lit}`mem_eval`: so is the result of an expression.
- Theorem {lit}`operations_enclose`: the bounds enclose all results and are attained.
-/

namespace Roofline
namespace Statistics

open Roofline.Corners Set

/-- The fields of {lit}`UncertainValue`, over any numbers. -/
structure UncertainValue (K : Type) where
  value : K
  stdev : K
  min : K
  max : K

namespace UncertainValue

variable {K : Type} [Field K] [LinearOrder K]

section Methods

variable (sqrt : K → K) (this other : UncertainValue K)

/-- The deviation of a sum or difference. -/
def sumDev : K :=
  sqrt ((this.value * this.stdev) ^ 2 + (other.value * other.stdev) ^ 2)

/-- The deviation of a product or quotient with the new value. -/
def mulDev (newValue : K) : K :=
  |newValue| * sqrt ((this.stdev / this.value) ^ 2 + (other.stdev / other.value) ^ 2)

/-- The difference. -/
def minus : UncertainValue K where
  value := this.value - other.value
  stdev := sumDev sqrt this other
  min := cornerMin (fun a b => a - b) this.min this.max other.min other.max
  max := cornerMax (fun a b => a - b) this.min this.max other.min other.max

/-- The sum. -/
def plus : UncertainValue K where
  value := this.value + other.value
  stdev := sumDev sqrt this other
  min := cornerMin (fun a b => a + b) this.min this.max other.min other.max
  max := cornerMax (fun a b => a + b) this.min this.max other.min other.max

/-- The product. -/
def multiply : UncertainValue K where
  value := this.value * other.value
  stdev := mulDev sqrt this other (this.value * other.value)
  min := cornerMin (fun a b => a * b) this.min this.max other.min other.max
  max := cornerMax (fun a b => a * b) this.min this.max other.min other.max

/-- The quotient. -/
def divide : UncertainValue K where
  value := this.value / other.value
  stdev := mulDev sqrt this other (this.value / other.value)
  min := cornerMin (fun a b => a / b) this.min this.max other.min other.max
  max := cornerMax (fun a b => a / b) this.min this.max other.min other.max

end Methods

/-- The numbers within the bounds. -/
def interval (u : UncertainValue K) : Set K :=
  Icc u.min u.max

end UncertainValue

/-! ## Operations -/

/-- The four operations. -/
inductive Operation where
  | plus
  | minus
  | multiply
  | divide
deriving DecidableEq

namespace Operation

variable {K : Type} [Field K]

/-- The operation on numbers. -/
def onNumbers : Operation → K → K → K
  | plus, a, b => a + b
  | minus, a, b => a - b
  | multiply, a, b => a * b
  | divide, a, b => a / b

variable [LinearOrder K]

/-- The operation on uncertain values. -/
def apply (sqrt : K → K) : Operation → UncertainValue K → UncertainValue K → UncertainValue K
  | plus => UncertainValue.plus sqrt
  | minus => UncertainValue.minus sqrt
  | multiply => UncertainValue.multiply sqrt
  | divide => UncertainValue.divide sqrt

/-- Only a division is not defined everywhere. -/
def Defined (operation : Operation) (divisor : UncertainValue K) : Prop :=
  operation = divide → (0 : K) ∉ divisor.interval

end Operation

/-! ## A single operation -/

section Enclosure

variable {K : Type} [Field K] [LinearOrder K] (sqrt : K → K) (operation : Operation)
  (u v : UncertainValue K)

/-- The bounds of a result are those at the corners. -/
theorem interval_apply :
    (operation.apply sqrt u v).interval =
      Icc (cornerMin operation.onNumbers u.min u.max v.min v.max)
        (cornerMax operation.onNumbers u.min u.max v.min v.max) := by
  cases operation with
  | plus => rfl
  | minus => rfl
  | multiply => rfl
  | divide => rfl

variable [IsStrictOrderedRing K]

/-- In its first argument an operation moves between its values at the ends. -/
theorem monotoneBetween_left (y : K) (a a' : K) :
    MonotoneBetween (fun x => operation.onNumbers x y) a a' := by
  cases operation with
  | plus => exact monotoneBetween_of_monotoneOn fun _ _ _ _ hle => by simpa [Operation.onNumbers]
  | minus => exact monotoneBetween_of_monotoneOn fun _ _ _ _ hle => by simpa [Operation.onNumbers]
  | multiply =>
      have hproduct : MonotoneBetween (fun x => y * x) a a' := monotoneBetween_mul y
      simpa only [Operation.onNumbers, mul_comm y] using hproduct
  | divide =>
      have hproduct : MonotoneBetween (fun x => y⁻¹ * x) a a' := monotoneBetween_mul y⁻¹
      simpa only [Operation.onNumbers, mul_comm y⁻¹, ← div_eq_mul_inv] using hproduct

variable {v}

/-- In its second argument an operation that is defined does so as well. -/
theorem monotoneBetween_right (h : operation.Defined v) (x : K) :
    MonotoneBetween (fun y => operation.onNumbers x y) v.min v.max := by
  cases operation with
  | plus => exact monotoneBetween_of_monotoneOn fun _ _ _ _ hle => by simpa [Operation.onNumbers]
  | minus => exact monotoneBetween_of_antitoneOn fun _ _ _ _ hle => sub_le_sub_left hle x
  | multiply => exact monotoneBetween_mul x
  | divide =>
      intro y hy
      have hinverse := (monotoneBetween_inv (h rfl) y hy).mul x
      simpa only [Operation.onNumbers, div_eq_mul_inv] using hinverse

variable {u}

/-- A result is in the bounds of the result. -/
theorem mem_apply (h : operation.Defined v) {a b : K} (ha : a ∈ u.interval)
    (hb : b ∈ v.interval) : operation.onNumbers a b ∈ (operation.apply sqrt u v).interval := by
  rw [interval_apply]
  exact corners_enclose (monotoneBetween_left operation b u.min u.max a ha)
    (monotoneBetween_right operation h u.min b hb) (monotoneBetween_right operation h u.max b hb)

end Enclosure

/-! ## Expressions -/

/-- An expression over variables. -/
inductive Expression (Variable : Type) where
  | operand (x : Variable)
  | compute (operation : Operation) (left right : Expression Variable)

namespace Expression

variable {Variable K : Type} [Field K]

/-- The value of an expression for numbers. -/
def value (numbers : Variable → K) : Expression Variable → K
  | .operand x => numbers x
  | .compute operation left right =>
      operation.onNumbers (left.value numbers) (right.value numbers)

variable [LinearOrder K]

/-- The value of an expression for uncertain values. -/
def eval (sqrt : K → K) (values : Variable → UncertainValue K) :
    Expression Variable → UncertainValue K
  | .operand x => values x
  | .compute operation left right =>
      operation.apply sqrt (left.eval sqrt values) (right.eval sqrt values)

/-- No divisor may be zero. -/
def Defined (sqrt : K → K) (values : Variable → UncertainValue K) : Expression Variable → Prop
  | .operand _ => True
  | .compute operation left right =>
      left.Defined sqrt values ∧ right.Defined sqrt values ∧
        operation.Defined (right.eval sqrt values)

variable [IsStrictOrderedRing K]

/-- The result of an expression is in the bounds of the result. -/
theorem mem_eval (sqrt : K → K) {values : Variable → UncertainValue K} {numbers : Variable → K}
    (h : ∀ x, numbers x ∈ (values x).interval) {expression : Expression Variable}
    (hdefined : expression.Defined sqrt values) :
    expression.value numbers ∈ (expression.eval sqrt values).interval := by
  induction expression with
  | operand x => exact h x
  | compute operation left right ihleft ihright =>
      obtain ⟨hleft, hright, hoperation⟩ := hdefined
      exact mem_apply sqrt operation hoperation (ihleft hleft) (ihright hright)

end Expression

/-! ## The bounds of results -/

section Bounds

variable {K : Type} [Field K] [LinearOrder K] [IsStrictOrderedRing K]

/-- For ordered bounds and a divisor that cannot be zero, the bounds of a result contain the results
for all numbers within the bounds, they are attained, and they are ordered.  So the bounds of an
expression contain its results. -/
theorem operations_enclose (sqrt : K → K) :
    (∀ (operation : Operation) (u v : UncertainValue K), u.min ≤ u.max → v.min ≤ v.max →
      operation.Defined v →
        (∀ a ∈ u.interval, ∀ b ∈ v.interval,
          operation.onNumbers a b ∈ (operation.apply sqrt u v).interval) ∧
        (∃ a ∈ u.interval, ∃ b ∈ v.interval,
          operation.onNumbers a b = (operation.apply sqrt u v).min) ∧
        (∃ a ∈ u.interval, ∃ b ∈ v.interval,
          operation.onNumbers a b = (operation.apply sqrt u v).max) ∧
        (operation.apply sqrt u v).min ≤ (operation.apply sqrt u v).max) ∧
    ∀ (Variable : Type) (values : Variable → UncertainValue K) (numbers : Variable → K)
      (expression : Expression Variable), (∀ x, numbers x ∈ (values x).interval) →
        expression.Defined sqrt values →
          expression.value numbers ∈ (expression.eval sqrt values).interval := by
  refine ⟨?_, fun _ _ _ _ hnumbers hdefined => Expression.mem_eval sqrt hnumbers hdefined⟩
  intro operation u v hu hv hdefined
  have hmin : (operation.apply sqrt u v).min =
      cornerMin operation.onNumbers u.min u.max v.min v.max := by
    cases operation <;> rfl
  have hmax : (operation.apply sqrt u v).max =
      cornerMax operation.onNumbers u.min u.max v.min v.max := by
    cases operation <;> rfl
  refine ⟨fun a ha b hb => mem_apply sqrt operation hdefined ha hb, ?_, ?_, ?_⟩
  · rw [hmin]
    exact cornerMin_attained hu hv
  · rw [hmax]
    exact cornerMax_attained hu hv
  · rw [hmin, hmax]
    exact cornerMin_le_cornerMax

end Bounds

/-- The product of values of both signs, whose bounds are not those of the ends. -/
theorem operations_enclose_product :
    let u : UncertainValue ℚ := ⟨1, 0, -1, 2⟩
    let v : UncertainValue ℚ := ⟨-1, 0, -3, 1⟩
    let product := Operation.multiply.apply (fun x => x) u v
    (∃ a ∈ u.interval, ∃ b ∈ v.interval, a * b = product.min) ∧ product.min = -6 ∧
      product.max = 3 := by
  intro u v product
  have hmin : product.min = -6 := by decide +kernel
  have hmax : product.max = 3 := by decide +kernel
  have hdefined : Operation.multiply.Defined v := fun h => by cases h
  exact ⟨((operations_enclose (K := ℚ) fun x => x).1 .multiply u v (by decide +kernel)
    (by decide +kernel) hdefined).2.1, hmin, hmax⟩

end Statistics
end Roofline
