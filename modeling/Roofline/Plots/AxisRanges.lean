import Mathlib.Algebra.Order.Field.Rat
import Mathlib.Tactic.Common
import Mathlib.Tactic.Linarith
import Roofline.Java.Throwable

/-!
# The axes of a roofline plot

An axis is scaled by the values of the points, or it has a range for each type of CPU.  Bounds
that are set on the plot go before both.  Numbers are exact.

Main results:

- Theorem {lit}`getRange_bounds`: the range of some values encloses them.
- Theorem {lit}`minimum_nonneg`: without negative values no axis begins below zero.
- Theorem {lit}`axisRange_autoscale`: an axis that is scaled automatically begins at half of the
  smallest value, and so at zero if there is a point at zero.
-/

namespace Roofline
namespace Plots

/-- {lit}`Range` of numbers. -/
structure Range where
  minimum : ℚ
  maximum : ℚ
  ordered : minimum ≤ maximum

/-- {lit}`Range.between`, which orders its arguments. -/
def Range.between (first second : ℚ) : Range :=
  if h : first ≤ second then ⟨first, second, h⟩
  else ⟨second, first, le_of_lt (not_le.mp h)⟩

/-- The range set on a plot; {lit}`none` is a bound that is infinite. -/
structure DefinedRange where
  minimum : Option ℚ
  maximum : Option ℚ

/-- {lit}`CpuType` -/
inductive CpuType where
  | Yonah
  | Core
  | SandyBridge
  | SandyBridgeExtreme
  | IvyBridge
deriving DecidableEq

/-! ## The range of an axis -/

/-- One round of the loop of {lit}`getRange`. -/
def visitItem (found : ℚ × ℚ) (item : ℚ) : ℚ × ℚ :=
  (if item < found.1 then item else found.1, if found.2 < item then item else found.2)

/-- {lit}`IterableUtils.getRange`. -/
def getRange : List ℚ → Except Throwable Range
  | [] => .error (.error "iterable was empty")
  | item :: items =>
      let found := items.foldl visitItem (item, item)
      .ok (Range.between found.1 found.2)

/-- A bound that is infinite is replaced by the one of the default range. -/
def combineRanges (definedRange : DefinedRange) (defaultRange : Range) : Range :=
  Range.between (definedRange.minimum.getD defaultRange.minimum)
    (definedRange.maximum.getD defaultRange.maximum)

/-- {lit}`getXRange` and {lit}`getYRange`, which differ in the values of the points and in the
constants for the types of CPUs. -/
def axisRange (constants : CpuType → Option (ℚ × ℚ)) (values : List ℚ) (isAutoscale : Bool)
    (definedRange : DefinedRange) (cpuType : CpuType) : Except Throwable Range := do
  let range ← getRange values
  let defaultRange ←
    if isAutoscale then .ok (Range.between (range.minimum / 2) (range.maximum * 2))
    else
      match constants cpuType with
      | some (minimum, maximum) => .ok (Range.between minimum maximum)
      | none => .error (.error "Cpu Type not supported")
  return combineRanges definedRange defaultRange

/-- What a roofline plot is scaled by: the medians of its points and its peak performances. -/
structure RooflinePlot where
  operationalIntensities : List ℚ
  performances : List ℚ
  peakPerformances : List ℚ
  autoscaleX : Bool
  autoscaleY : Bool
  xRange : DefinedRange
  yRange : DefinedRange

namespace RooflinePlot

/-- The ranges of the first axis for the processors that have one. -/
def xConstants : CpuType → Option (ℚ × ℚ)
  | .Core => some (3 / 100, 100)
  | .Yonah => some (3 / 100, 50)
  | .SandyBridgeExtreme => some (3 / 100, 300)
  | .SandyBridge => some (3 / 100, 300)
  | .IvyBridge => none

/-- The ranges of the second axis for the processors that have one. -/
def yConstants : CpuType → Option (ℚ × ℚ)
  | .Core => some (3 / 100, 20)
  | .Yonah => some (1 / 10, 9 / 2)
  | .SandyBridge => some (3 / 100, 80)
  | .SandyBridgeExtreme => some (3 / 100, 80)
  | .IvyBridge => none

/-- {lit}`getXRange` -/
def getXRange (plot : RooflinePlot) (cpuType : CpuType) : Except Throwable Range :=
  axisRange xConstants plot.operationalIntensities plot.autoscaleX plot.xRange cpuType

/-- {lit}`getYRange` -/
def getYRange (plot : RooflinePlot) (cpuType : CpuType) : Except Throwable Range :=
  axisRange yConstants (plot.performances ++ plot.peakPerformances) plot.autoscaleY plot.yRange
    cpuType

end RooflinePlot

/-! ## Bounds -/

/-- Bounds in order are a range. -/
theorem between_of_le {first second : ℚ} (h : first ≤ second) :
    Range.between first second = ⟨first, second, h⟩ := by
  rw [Range.between, dif_pos h]

/-- What holds of both arguments holds of the lower bound. -/
theorem minimum_between (p : ℚ → Prop) {first second : ℚ} (hfirst : p first)
    (hsecond : p second) : p (Range.between first second).minimum := by
  unfold Range.between
  split
  · exact hfirst
  · exact hsecond

/-- The bounds after one more item. -/
theorem visitItem_bounds (found : ℚ × ℚ) (item : ℚ) :
    (visitItem found item).1 = min found.1 item ∧ (visitItem found item).2 = max found.2 item := by
  constructor
  · simp only [visitItem]
    split
    next h => exact (min_eq_right h.le).symm
    next h => exact (min_eq_left (not_lt.mp h)).symm
  · simp only [visitItem]
    split
    next h => exact (max_eq_right h.le).symm
    next h => exact (max_eq_left (not_lt.mp h)).symm

/-- The loop finds a smallest and a largest value. -/
theorem foldl_visitItem (items : List ℚ) (found : ℚ × ℚ) (h : found.1 ≤ found.2) :
    let bounds := items.foldl visitItem found
    bounds.1 ≤ bounds.2 ∧
      (bounds.1 ∈ found.1 :: items ∧ ∀ item ∈ found.1 :: items, bounds.1 ≤ item) ∧
      (bounds.2 ∈ found.2 :: items ∧ ∀ item ∈ found.2 :: items, item ≤ bounds.2) := by
  induction items generalizing found with
  | nil => simp [h]
  | cons item items ih =>
      obtain ⟨hmin, hmax⟩ := visitItem_bounds found item
      have hordered : (visitItem found item).1 ≤ (visitItem found item).2 := by
        rw [hmin, hmax]
        exact (min_le_left _ _).trans (h.trans (le_max_left _ _))
      obtain ⟨hle, ⟨hlower, hsmallest⟩, hupper, hlargest⟩ := ih (visitItem found item) hordered
      rw [hmin, List.forall_mem_cons] at hsmallest
      rw [hmax, List.forall_mem_cons] at hlargest
      refine ⟨hle, ⟨?_, ?_⟩, ?_, ?_⟩
      · rw [hmin, List.mem_cons] at hlower
        rcases hlower with heq | hmem
        · rw [List.foldl_cons, heq]
          rcases min_choice found.1 item with hchoice | hchoice
          · simp [hchoice]
          · simp [hchoice]
        · rw [List.foldl_cons]
          simp [hmem]
      · rw [List.forall_mem_cons, List.forall_mem_cons]
        exact ⟨hsmallest.1.trans (min_le_left _ _), hsmallest.1.trans (min_le_right _ _),
          hsmallest.2⟩
      · rw [hmax, List.mem_cons] at hupper
        rcases hupper with heq | hmem
        · rw [List.foldl_cons, heq]
          rcases max_choice found.2 item with hchoice | hchoice
          · simp [hchoice]
          · simp [hchoice]
        · rw [List.foldl_cons]
          simp [hmem]
      · rw [List.forall_mem_cons, List.forall_mem_cons]
        exact ⟨(le_max_left _ _).trans hlargest.1, (le_max_right _ _).trans hlargest.1,
          hlargest.2⟩

/-- The range of some values encloses them and is not larger than that. -/
theorem getRange_bounds {values : List ℚ} {range : Range} (h : getRange values = .ok range) :
    range.minimum ∈ values ∧ range.maximum ∈ values ∧
      ∀ value ∈ values, range.minimum ≤ value ∧ value ≤ range.maximum := by
  cases values with
  | nil => cases h
  | cons item items =>
      obtain ⟨hle, ⟨hlower, hsmallest⟩, hupper, hlargest⟩ :=
        foldl_visitItem items (item, item) le_rfl
      simp only [getRange, between_of_le hle] at h
      cases h
      exact ⟨hlower, hupper, fun value hvalue => ⟨hsmallest value hvalue, hlargest value hvalue⟩⟩

variable {constants : CpuType → Option (ℚ × ℚ)} {values : List ℚ} {definedRange : DefinedRange}
  {cpuType : CpuType} {range : Range}

/-- Without negative values no axis begins below zero. -/
theorem minimum_nonneg {isAutoscale : Bool}
    (h : axisRange constants values isAutoscale definedRange cpuType = .ok range)
    (hvalues : ∀ value ∈ values, 0 ≤ value)
    (hconstants : ∀ minimum maximum, constants cpuType = some (minimum, maximum) →
      0 ≤ minimum ∧ 0 ≤ maximum)
    (hminimum : ∀ minimum ∈ definedRange.minimum, 0 ≤ minimum)
    (hmaximum : ∀ maximum ∈ definedRange.maximum, 0 ≤ maximum) : 0 ≤ range.minimum := by
  have hcombine : ∀ defaultRange : Range, 0 ≤ defaultRange.minimum →
      0 ≤ (combineRanges definedRange defaultRange).minimum := by
    intro defaultRange hdefault
    apply minimum_between (0 ≤ ·)
    · cases hdefined : definedRange.minimum with
      | none => exact hdefault
      | some minimum => exact hminimum minimum hdefined
    · cases hdefined : definedRange.maximum with
      | none => exact hdefault.trans defaultRange.ordered
      | some maximum => exact hmaximum maximum hdefined
  simp only [axisRange] at h
  cases hrange : getRange values with
  | error exception => simp [hrange, bind, Except.bind] at h
  | ok found =>
      obtain ⟨hlower, hupper, -⟩ := getRange_bounds hrange
      have hfirst := hvalues _ hlower
      have hsecond := hvalues _ hupper
      simp only [hrange, bind, Except.bind, pure, Except.pure] at h
      cases isAutoscale with
      | true =>
          cases h
          apply hcombine
          apply minimum_between (0 ≤ ·)
          · linarith
          · linarith
      | false =>
          cases hconstant : constants cpuType with
          | none => simp [hconstant] at h
          | some constant =>
              obtain ⟨minimum, maximum⟩ := constant
              simp only [hconstant] at h
              cases h
              obtain ⟨hpositive, hlarger⟩ := hconstants minimum maximum hconstant
              exact hcombine _ (minimum_between (0 ≤ ·) hpositive hlarger)

/-- An axis that is scaled automatically begins at half of the smallest value. -/
theorem axisRange_autoscale (h : axisRange constants values true ⟨none, none⟩ cpuType = .ok range)
    (hvalues : ∀ value ∈ values, 0 ≤ value) :
    (∃ value ∈ values, range.minimum = value / 2 ∧ ∀ other ∈ values, value ≤ other) ∧
      ∃ value ∈ values, range.maximum = value * 2 ∧ ∀ other ∈ values, other ≤ value := by
  simp only [axisRange] at h
  cases hrange : getRange values with
  | error exception => simp [hrange, bind, Except.bind] at h
  | ok found =>
      obtain ⟨hlower, hupper, hbounds⟩ := getRange_bounds hrange
      have hle : found.minimum / 2 ≤ found.maximum * 2 := by
        have hfirst := hvalues _ hlower
        have hordered := found.ordered
        linarith
      simp only [hrange, bind, Except.bind, pure, Except.pure, if_true, combineRanges,
        between_of_le hle, Option.getD_none] at h
      cases h
      exact ⟨⟨found.minimum, hlower, rfl, fun other hother => (hbounds other hother).1⟩,
        found.maximum, hupper, rfl, fun other hother => (hbounds other hother).2⟩

end Plots
end Roofline
