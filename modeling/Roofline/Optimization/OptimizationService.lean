import Mathlib.Order.Basic
import Roofline.Java.Random
import Roofline.Library.Programs
import Roofline.Library.Selection
import Roofline.Optimization.ParameterSpace

/-!
# Searching the optimum of a parameter space

A kernel is initialized at points of the space and measured there.  The full search tries all
points; the fast search starts at a few points and moves to better neighbors.

Main results:

- Theorem {lit}`Kernel.initializeAt_initializeAt`: of two initializations at points with the same
  axes the second one counts.
- Theorem {lit}`isOptimum_of_optimizeFull`: no point is better than the one the full search
  returns.
- Theorem {lit}`noneBetter_of_optimizeFast`: no starting point is better than the one the fast
  search returns.
-/

namespace Roofline
namespace Optimization

open Programs Selection

/-! ## Kernels -/

/-- {lit}`Axes.optimizationAxis` -/
def optimizationAxis : Axis := ⟨"c24ed880-fa37-4b82-81ac-690e2b63c560"⟩

/-- {lit}`Axes.warmCodeAxis` -/
def warmCodeAxis : Axis := ⟨"f34ff279-faa1-46ac-b284-868ac0e62843"⟩

/-- {lit}`Axes.warmDataAxis` -/
def warmDataAxis : Axis := ⟨"fc1fc977-5ab4-4ac5-8a04-991fbd8554ac"⟩

/-- {lit}`Axes.numThreadsAxis` -/
def numThreadsAxis : Axis := ⟨"a4a46f4b-6a0d-468a-98a2-bdf4edad2ff3"⟩

variable {Value Quantity Hash : Type}

/-- The fields and macro definitions of a kernel of the given class. -/
structure Kernel (Value : Type) where
  className : String
  settings : String → Option Value

namespace Kernel

/-- A setting of the kernel is set. -/
def set (kernel : Kernel Value) (name : String) (value : Value) : Kernel Value :=
  { kernel with settings := Function.update kernel.settings name (some value) }

/-- One setting is set if its axis is part of the coordinate. -/
def initializeSetting (coordinate : Coordinate Value) (kernel : Kernel Value)
    (entry : Axis × String) : Kernel Value :=
  match coordinate entry.1 with
  | some value => kernel.set entry.2 value
  | none => kernel

/-- The settings that {lit}`KernelBase` initializes. -/
def baseSettings : List (Axis × String) :=
  [(optimizationAxis, "optimization"), (warmCodeAxis, "warmCode"), (warmDataAxis, "warmData"),
    (numThreadsAxis, "numThreads")]

/-- {lit}`initialize`; the class of the kernel adds settings of its own. -/
def initializeAt (ownSettings : String → List (Axis × String)) (kernel : Kernel Value)
    (coordinate : Coordinate Value) : Kernel Value :=
  (baseSettings ++ ownSettings kernel.className).foldl (initializeSetting coordinate) kernel

/-- The setting is initialized at the coordinate. -/
def Sets (coordinate : Coordinate Value) (entries : List (Axis × String)) (name : String) : Prop :=
  ∃ entry ∈ entries, entry.2 = name ∧ coordinate.contains entry.1

/-- Setting one setting keeps the class. -/
theorem initializeSetting_className (coordinate : Coordinate Value) (kernel : Kernel Value)
    (entry : Axis × String) :
    (initializeSetting coordinate kernel entry).className = kernel.className := by
  unfold initializeSetting
  split <;> rfl

/-- So does setting several. -/
theorem foldl_className (coordinate : Coordinate Value) (entries : List (Axis × String))
    (kernel : Kernel Value) :
    (entries.foldl (initializeSetting coordinate) kernel).className = kernel.className := by
  induction entries generalizing kernel with
  | nil => rfl
  | cons entry entries ih =>
      rw [List.foldl_cons, ih, initializeSetting_className]

/-- A setting that is not initialized keeps its value. -/
theorem foldl_settings_of_not_sets {coordinate : Coordinate Value}
    {entries : List (Axis × String)} {name : String} (h : ¬Sets coordinate entries name)
    (kernel : Kernel Value) :
    (entries.foldl (initializeSetting coordinate) kernel).settings name =
      kernel.settings name := by
  induction entries generalizing kernel with
  | nil => rfl
  | cons entry entries ih =>
      have htail : ¬Sets coordinate entries name := by
        rintro ⟨other, hother, hsets⟩
        exact h ⟨other, List.mem_cons_of_mem _ hother, hsets⟩
      rw [List.foldl_cons, ih htail]
      unfold initializeSetting
      split
      case h_1 value hvalue =>
        have hname : name ≠ entry.2 := by
          rintro rfl
          exact h ⟨entry, List.mem_cons_self, rfl, by simp [Coordinate.contains, hvalue]⟩
        simp [set, hname]
      case h_2 => rfl

/-- Kernels that differ only in settings which are initialized become the same. -/
theorem foldl_congr {coordinate : Coordinate Value} {entries : List (Axis × String)}
    {kernel other : Kernel Value} (hclass : kernel.className = other.className)
    (h : ∀ name, ¬Sets coordinate entries name → kernel.settings name = other.settings name) :
    entries.foldl (initializeSetting coordinate) kernel =
      entries.foldl (initializeSetting coordinate) other := by
  induction entries generalizing kernel other with
  | nil =>
      rcases kernel with ⟨className, settings⟩
      rcases other with ⟨otherName, otherSettings⟩
      obtain rfl : className = otherName := hclass
      obtain rfl : settings = otherSettings := by
        funext name
        exact h name (by simp [Sets])
      rfl
  | cons entry entries ih =>
      rw [List.foldl_cons, List.foldl_cons]
      refine ih (by simp only [initializeSetting_className, hclass]) fun name hname => ?_
      cases hvalue : coordinate entry.1 with
      | none =>
          simp only [initializeSetting, hvalue]
          apply h name
          rintro ⟨set, hset, hsets⟩
          rcases List.mem_cons.mp hset with rfl | hset
          · simp [Coordinate.contains, hvalue] at hsets
          · exact hname ⟨set, hset, hsets⟩
      | some value =>
          simp only [initializeSetting, hvalue, set]
          by_cases hentry : name = entry.2
          · simp [hentry]
          · rw [Function.update_of_ne hentry, Function.update_of_ne hentry]
            apply h name
            rintro ⟨set, hset, hsets⟩
            rcases List.mem_cons.mp hset with rfl | hset
            · exact hentry hsets.1.symm
            · exact hname ⟨set, hset, hsets⟩

/-- So does {lit}`initialize`. -/
@[simp] theorem initializeAt_className (ownSettings : String → List (Axis × String))
    (kernel : Kernel Value) (coordinate : Coordinate Value) :
    (kernel.initializeAt ownSettings coordinate).className = kernel.className :=
  foldl_className coordinate _ kernel

/-- Of two initializations at points with the same axes the second one counts. -/
theorem initializeAt_initializeAt (ownSettings : String → List (Axis × String))
    (kernel : Kernel Value) {coordinate other : Coordinate Value}
    (h : ∀ axis, coordinate.contains axis = other.contains axis) :
    (kernel.initializeAt ownSettings coordinate).initializeAt ownSettings other =
      kernel.initializeAt ownSettings other := by
  unfold initializeAt
  rw [foldl_className]
  refine foldl_congr (foldl_className _ _ _) fun name hname => ?_
  refine foldl_settings_of_not_sets ?_ kernel
  rintro ⟨entry, hentry, hsets, hcontains⟩
  exact hname ⟨entry, hentry, hsets, by rwa [← h]⟩

end Kernel

/-! ## Searches -/

/-- Whether smaller or larger values are better. -/
inductive Comparison where
  | lessThan
  | moreThan
deriving DecidableEq

/-- {lit}`Quantity.lessThanUntyped` and {lit}`Quantity.moreThanUntyped`. -/
def Comparison.betterThan [LT Quantity] : Comparison → Quantity → Quantity → Prop
  | .lessThan, a, b => a < b
  | .moreThan, a, b => b < a

/-- Whether a value is better can be decided. -/
instance [LT Quantity] [DecidableLT Quantity] (comparison : Comparison) :
    DecidableRel (comparison.betterThan : Quantity → Quantity → Prop) :=
  fun a b =>
    match comparison with
    | .lessThan => inferInstanceAs (Decidable (a < b))
    | .moreThan => inferInstanceAs (Decidable (b < a))

/-- No value is better than itself. -/
instance [Preorder Quantity] (comparison : Comparison) :
    Std.Irrefl (comparison.betterThan : Quantity → Quantity → Prop) where
  irrefl a := by
    cases comparison with
    | lessThan => exact lt_irrefl a
    | moreThan => exact lt_irrefl a

/-- Being better is transitive. -/
instance [Preorder Quantity] (comparison : Comparison) :
    IsTrans Quantity comparison.betterThan where
  trans a b c hab hbc := by
    cases comparison with
    | lessThan => exact lt_trans hab hbc
    | moreThan => exact lt_trans hbc hab

/-- {lit}`OptimizationParameters` -/
structure OptimizationParameters (Value : Type) where
  kernel : Kernel Value
  optimizationSpace : ParameterSpace Value
  measurementPoint : Coordinate Value
  comparison : Comparison

/-- What the search relies on: the names of the axes, the settings that the kernel classes
initialize, the measurement of a kernel and the hash of the parameters. -/
structure Services (Value Quantity Hash : Type) where
  getName : Axis → String
  ownSettings : String → List (Axis × String)
  measure : Kernel Value → Coordinate Value → Except Throwable Quantity
  hash : OptimizationParameters Value → Hash

section Search

variable (services : Services Value Quantity Hash) (parameters : OptimizationParameters Value)

/-- The kernel stays initialized at the coordinate. -/
def measureAt (coordinate : Coordinate Value) : Program Throwable (Kernel Value) Quantity :=
  primitive fun kernel =>
    let kernel := kernel.initializeAt services.ownSettings coordinate
    (services.measure kernel parameters.measurementPoint, kernel)

variable [LT Quantity] [DecidableLT Quantity]

/-- The first of the best points, with its value. -/
def bestOf : List (Coordinate Value) → Option (Coordinate Value × Quantity) →
    Program Throwable (Kernel Value) (Option (Coordinate Value × Quantity))
  | [], best => pure best
  | point :: points, best => do
      let value ← measureAt services parameters point
      bestOf points (keepBetter parameters.comparison.betterThan best (point, value))

/-- {lit}`optimizeFull` -/
def optimizeFull : Program Throwable (Kernel Value) (Option (Coordinate Value)) := do
  let best ← bestOf services parameters parameters.optimizationSpace.getAllPoints none
  return best.map Prod.fst

variable [DecidableEq Value]

/-- The given number of steps, each to the best neighbor, as long as it is better. -/
def climb : Nat → Coordinate Value × Quantity →
    Program Throwable (Kernel Value) (Coordinate Value × Quantity)
  | 0, current => pure current
  | steps + 1, current => do
      let neighbors ← primitive fun kernel =>
        (parameters.optimizationSpace.getNeighbors services.getName current.1, kernel)
      match ← bestOf services parameters neighbors none with
      | none => throw .nullPointerException
      | some bestNeighbor =>
          if parameters.comparison.betterThan bestNeighbor.2 current.2 then
            climb steps bestNeighbor
          else
            return current

/-- Climbs from each of the starting points. -/
def bestClimb : List (Coordinate Value) → Option (Coordinate Value × Quantity) →
    Program Throwable (Kernel Value) (Option (Coordinate Value × Quantity))
  | [], best => pure best
  | point :: points, best => do
      let value ← measureAt services parameters point
      let reached ← climb services parameters 2 (point, value)
      bestClimb points (keepBetter parameters.comparison.betterThan best reached)

/-- The length of the longest side is read but not used; a space without axes has none. -/
def optimizeFast : Program Throwable (Kernel Value) (Option (Coordinate Value)) := do
  let points := Random.shuffle 0 parameters.optimizationSpace.getAllPoints
  match parameters.optimizationSpace.getLongestAxis with
  | none => throw .nullPointerException
  | some _ =>
      let best ← bestClimb services parameters (points.take 5) none
      return best.map Prod.fst

/-- The search selected by {lit}`optimize.fast`, for the kernel of the parameters. -/
def computeOptimum (fast : Bool) : Except Throwable (Option (Coordinate Value)) :=
  (outcome (if fast then optimizeFast services parameters else optimizeFull services parameters)
    parameters.kernel).1

end Search

/-! ## The full search -/

section FullSearch

variable (services : Services Value Quantity Hash) (parameters : OptimizationParameters Value)

/-- What is measured at a point, starting from the kernel of the parameters. -/
def valueAt (point : Coordinate Value) : Except Throwable Quantity :=
  services.measure (parameters.kernel.initializeAt services.ownSettings point)
    parameters.measurementPoint

/-- A point of the space, if there are points to compare it with, and none of these has a
better value. -/
def NoneBetter [LT Quantity] (points : List (Coordinate Value))
    (best : Option (Coordinate Value)) : Prop :=
  match best with
  | none => points = []
  | some best =>
      best ∈ parameters.optimizationSpace.getAllPoints ∧
        ∃ bestValue, valueAt services parameters best = .ok bestValue ∧
          ∀ point ∈ points, ∃ value, valueAt services parameters point = .ok value ∧
            ¬parameters.comparison.betterThan value bestValue

/-- No point of the space has a better value. -/
def IsOptimum [LT Quantity] (best : Option (Coordinate Value)) : Prop :=
  NoneBetter services parameters parameters.optimizationSpace.getAllPoints best

/-- A kernel that the points of the space initialize as they do the kernel of the parameters. -/
def Reinitializes (kernel : Kernel Value) : Prop :=
  ∀ point ∈ parameters.optimizationSpace.getAllPoints,
    kernel.initializeAt services.ownSettings point =
      parameters.kernel.initializeAt services.ownSettings point

/-- The points have been measured, and the best of them is kept. -/
def Searched [LT Quantity] (points : List (Coordinate Value))
    (best : Option (Coordinate Value × Quantity)) : Prop :=
  ∃ tried : List (Coordinate Value × Quantity), tried.map Prod.fst = points ∧
    (∀ candidate ∈ tried, valueAt services parameters candidate.1 = .ok candidate.2) ∧
    IsBest parameters.comparison.betterThan best tried

variable {services parameters}

/-- After {lit}`initialize`, all points can be set again. -/
theorem Reinitializes.initializeAt {kernel : Kernel Value}
    (h : Reinitializes services parameters kernel) {point : Coordinate Value}
    (hpoint : point ∈ parameters.optimizationSpace.getAllPoints) :
    Reinitializes services parameters (kernel.initializeAt services.ownSettings point) := by
  intro other hother
  rw [Kernel.initializeAt_initializeAt _ _ (contains_iff_of_mem_getAllPoints hpoint hother)]
  exact h other hother

/-- Measuring at a point gives the value of the point. -/
theorem ensures_measureAt {point : Coordinate Value}
    (hpoint : point ∈ parameters.optimizationSpace.getAllPoints) :
    Ensures (Reinitializes services parameters) (measureAt services parameters point)
      (fun value kernel => Reinitializes services parameters kernel ∧
        valueAt services parameters point = .ok value)
      (fun _ _ => True) := by
  intro kernel hkernel
  have hvalue : services.measure (kernel.initializeAt services.ownSettings point)
      parameters.measurementPoint = valueAt services parameters point := by
    rw [hkernel point hpoint, valueAt]
  simp only [measureAt, outcome_primitive, hvalue]
  cases hmeasured : valueAt services parameters point with
  | error e => trivial
  | ok value => exact ⟨hkernel.initializeAt hpoint, rfl⟩

variable [Preorder Quantity]

/-- Without points nothing is found. -/
theorem searched_nil :
    Searched services parameters [] (none : Option (Coordinate Value × Quantity)) :=
  ⟨[], rfl, by simp, isBest_nil⟩

/-- What was found is one of the points, with its value. -/
theorem Searched.mem {points : List (Coordinate Value)} {best : Coordinate Value × Quantity}
    (h : Searched services parameters points (some best)) :
    best.1 ∈ points ∧ valueAt services parameters best.1 = .ok best.2 := by
  rcases h with ⟨tried, rfl, hmeasured, hmem, -⟩
  exact ⟨List.mem_map_of_mem hmem, hmeasured best hmem⟩

/-- What was found among all points is an optimum. -/
theorem Searched.isOptimum {best : Option (Coordinate Value × Quantity)}
    (h : Searched services parameters parameters.optimizationSpace.getAllPoints best) :
    IsOptimum services parameters (best.map Prod.fst) := by
  rcases h with ⟨tried, htried, hmeasured, hbest⟩
  cases best with
  | none =>
      obtain rfl : tried = [] := hbest
      exact htried.symm
  | some best =>
      rcases hbest with ⟨hmem, hnone⟩
      refine ⟨?_, best.2, hmeasured best hmem, fun point hpoint => ?_⟩
      · rw [← htried]
        exact List.mem_map_of_mem hmem
      · rw [← htried] at hpoint
        rcases List.mem_map.mp hpoint with ⟨candidate, hcandidate, rfl⟩
        exact ⟨candidate.2, hmeasured candidate hcandidate, hnone candidate hcandidate⟩

variable [DecidableLT Quantity]

/-- One more point was searched. -/
theorem Searched.keepBetter {points : List (Coordinate Value)}
    {best : Option (Coordinate Value × Quantity)} (h : Searched services parameters points best)
    {point : Coordinate Value} {value : Quantity}
    (hvalue : valueAt services parameters point = .ok value) :
    Searched services parameters (points ++ [point])
      (keepBetter parameters.comparison.betterThan best (point, value)) := by
  rcases h with ⟨tried, rfl, hmeasured, hbest⟩
  refine ⟨tried ++ [(point, value)], by simp, fun candidate hcandidate => ?_,
    hbest.keepBetter (point, value)⟩
  rcases List.mem_append.mp hcandidate with hcandidate | hcandidate
  · exact hmeasured candidate hcandidate
  · rcases List.mem_singleton.mp hcandidate with rfl
    exact hvalue

/-- The loop over the points: those before it have been searched. -/
theorem ensures_bestOf {seen points : List (Coordinate Value)}
    {best : Option (Coordinate Value × Quantity)} (hseen : Searched services parameters seen best)
    (hpoints : ∀ point ∈ points, point ∈ parameters.optimizationSpace.getAllPoints) :
    Ensures (Reinitializes services parameters) (bestOf services parameters points best)
      (fun best kernel => Reinitializes services parameters kernel ∧
        Searched services parameters (seen ++ points) best)
      (fun _ _ => True) := by
  induction points generalizing seen best with
  | nil =>
      refine Ensures.pure fun _ hkernel => ⟨hkernel, ?_⟩
      rwa [List.append_nil]
  | cons point points ih =>
      refine (ensures_measureAt (hpoints point List.mem_cons_self)).bind fun value => ?_
      intro kernel hkernel
      have hnext := ih (hseen.keepBetter hkernel.2) fun other hother =>
        hpoints other (List.mem_cons_of_mem _ hother)
      rw [List.append_assoc, List.singleton_append] at hnext
      exact hnext kernel hkernel.1

/-- No point is better than the one the full search returns. -/
theorem isOptimum_of_optimizeFull [DecidableEq Value] {best : Option (Coordinate Value)}
    (h : computeOptimum services parameters false = .ok best) :
    IsOptimum services parameters best := by
  have hsearch : Ensures (Reinitializes services parameters) (optimizeFull services parameters)
      (fun best _ => IsOptimum services parameters best) (fun _ _ => True) := by
    refine (ensures_bestOf searched_nil fun _ hpoint => hpoint).bind fun best => ?_
    refine Ensures.pure fun _ hsearched => ?_
    rw [List.nil_append] at hsearched
    exact hsearched.2.isOptimum
  exact hsearch.returned (fun _ _ => rfl) h

end FullSearch

/-! ## The fast search -/

section FastSearch

variable (services : Services Value Quantity Hash) (parameters : OptimizationParameters Value)

/-- A measured point of the space that is not worse than the value: it beats what the value
beats. -/
structure Reached [LT Quantity] (value : Quantity) (reached : Coordinate Value × Quantity) :
    Prop where
  mem : reached.1 ∈ parameters.optimizationSpace.getAllPoints
  measured : valueAt services parameters reached.1 = .ok reached.2
  notWorse : ∀ other, parameters.comparison.betterThan value other →
    parameters.comparison.betterThan reached.2 other

/-- A point has been reached from each of the starting points, and the best of them is kept. -/
structure Climbed [LT Quantity] (starts : List (Coordinate Value))
    (best : Option (Coordinate Value × Quantity)) (tried : List (Coordinate Value × Quantity)) :
    Prop where
  best : IsBest parameters.comparison.betterThan best tried
  points : ∀ candidate ∈ tried, candidate.1 ∈ parameters.optimizationSpace.getAllPoints ∧
    valueAt services parameters candidate.1 = .ok candidate.2
  starts : ∀ start ∈ starts, ∃ value, valueAt services parameters start = .ok value ∧
    ∃ candidate ∈ tried, Reached services parameters value candidate

variable {services parameters}

/-- Getting the neighbors changes nothing. -/
theorem ensures_getNeighbors [DecidableEq Value] {point : Coordinate Value}
    (hpoint : point ∈ parameters.optimizationSpace.getAllPoints) :
    Ensures (Reinitializes services parameters)
      (primitive fun kernel =>
        (parameters.optimizationSpace.getNeighbors services.getName point, kernel))
      (fun neighbors kernel => Reinitializes services parameters kernel ∧
        ∀ neighbor ∈ neighbors, neighbor ∈ parameters.optimizationSpace.getAllPoints)
      (fun _ _ => True) := by
  intro kernel hkernel
  rw [outcome_primitive]
  cases hneighbors : parameters.optimizationSpace.getNeighbors services.getName point with
  | error e => trivial
  | ok neighbors =>
      exact ⟨hkernel, fun _ hneighbor =>
        mem_getAllPoints_of_mem_getNeighbors hpoint hneighbors hneighbor⟩

variable [Preorder Quantity]

/-- Without starts nothing is reached. -/
theorem climbed_nil :
    Climbed services parameters [] (none : Option (Coordinate Value × Quantity)) [] :=
  ⟨isBest_nil, by simp, by simp⟩

/-- What is better than the end of a climb is better than its start. -/
theorem Climbed.noneBetter {starts : List (Coordinate Value)}
    {best : Option (Coordinate Value × Quantity)} {tried : List (Coordinate Value × Quantity)}
    (h : Climbed services parameters starts best tried) :
    NoneBetter services parameters starts (best.map Prod.fst) := by
  have hbest := h.best
  cases best with
  | none =>
      obtain rfl : tried = [] := hbest
      refine List.eq_nil_iff_forall_not_mem.mpr fun start hstart => ?_
      rcases h.starts start hstart with ⟨_, _, candidate, hcandidate, _⟩
      simp at hcandidate
  | some best =>
      rcases hbest with ⟨hmem, hnone⟩
      rcases h.points best hmem with ⟨hpoint, hmeasured⟩
      refine ⟨hpoint, best.2, hmeasured, fun start hstart => ?_⟩
      rcases h.starts start hstart with ⟨value, hvalue, candidate, hcandidate, hreached⟩
      exact ⟨value, hvalue, fun hbetter =>
        hnone candidate hcandidate (hreached.notWorse best.2 hbetter)⟩

variable [DecidableLT Quantity]

/-- One more start was climbed from. -/
theorem Climbed.keepBetter {starts : List (Coordinate Value)}
    {best : Option (Coordinate Value × Quantity)} {tried : List (Coordinate Value × Quantity)}
    (h : Climbed services parameters starts best tried) {start : Coordinate Value}
    {value : Quantity} (hvalue : valueAt services parameters start = .ok value)
    {reached : Coordinate Value × Quantity} (hreached : Reached services parameters value reached) :
    Climbed services parameters (starts ++ [start])
      (keepBetter parameters.comparison.betterThan best reached) (tried ++ [reached]) := by
  constructor
  case best => exact h.best.keepBetter reached
  case points =>
    intro candidate hcandidate
    rcases List.mem_append.mp hcandidate with hcandidate | hcandidate
    · exact h.points candidate hcandidate
    · rcases List.mem_singleton.mp hcandidate with rfl
      exact ⟨hreached.mem, hreached.measured⟩
  case starts =>
    intro other hother
    rcases List.mem_append.mp hother with hother | hother
    · rcases h.starts other hother with ⟨otherValue, hotherValue, candidate, hcandidate, hfrom⟩
      exact ⟨otherValue, hotherValue, candidate, List.mem_append_left _ hcandidate, hfrom⟩
    · rcases List.mem_singleton.mp hother with rfl
      exact ⟨value, hvalue, reached, by simp, hreached⟩

variable [DecidableEq Value]

/-- Each step leads to a better point of the space. -/
theorem ensures_climb (steps : Nat) {current : Coordinate Value × Quantity}
    (hcurrent : Reached services parameters current.2 current) :
    Ensures (Reinitializes services parameters) (climb services parameters steps current)
      (fun reached kernel => Reinitializes services parameters kernel ∧
        Reached services parameters current.2 reached)
      (fun _ _ => True) := by
  induction steps generalizing current with
  | zero => exact Ensures.pure fun _ hkernel => ⟨hkernel, hcurrent⟩
  | succ steps ih =>
      refine (ensures_getNeighbors hcurrent.mem).bind fun neighbors => ?_
      intro kernel hkernel
      refine Ensures.bind (ensures_bestOf searched_nil hkernel.2) (fun best => ?_) kernel hkernel.1
      cases best with
      | none => exact Ensures.throw fun _ _ => trivial
      | some bestNeighbor =>
          refine Ensures.ite (fun hbetter => ?_) fun _ => Ensures.pure fun _ hleft => ?_
          · intro left hleft
            rcases hleft.2.mem with ⟨hmem, hmeasured⟩
            have hneighbor : Reached services parameters bestNeighbor.2 bestNeighbor :=
              ⟨hkernel.2 _ hmem, hmeasured, fun _ h => h⟩
            refine (ih hneighbor).weaken (fun _ h => h) (fun reached _ hreached => ?_)
              (fun _ _ h => h) left hleft.1
            refine ⟨hreached.1, hreached.2.mem, hreached.2.measured, fun other hother => ?_⟩
            exact hreached.2.notWorse other (IsTrans.trans _ _ _ hbetter hother)
          · exact ⟨hleft.1, hcurrent⟩

/-- The loop over the starting points: those before it have been climbed from. -/
theorem ensures_bestClimb {seen points : List (Coordinate Value)}
    {best : Option (Coordinate Value × Quantity)} {tried : List (Coordinate Value × Quantity)}
    (hseen : Climbed services parameters seen best tried)
    (hpoints : ∀ point ∈ points, point ∈ parameters.optimizationSpace.getAllPoints) :
    Ensures (Reinitializes services parameters) (bestClimb services parameters points best)
      (fun best _ => ∃ tried, Climbed services parameters (seen ++ points) best tried)
      (fun _ _ => True) := by
  induction points generalizing seen best tried with
  | nil =>
      refine Ensures.pure fun _ _ => ⟨tried, ?_⟩
      rwa [List.append_nil]
  | cons point points ih =>
      have hpoint := hpoints point List.mem_cons_self
      refine (ensures_measureAt hpoint).bind fun value => ?_
      intro kernel hkernel
      have hstart : Reached services parameters value (point, value) :=
        ⟨hpoint, hkernel.2, fun _ h => h⟩
      refine Ensures.bind (ensures_climb 2 hstart) (fun reached => ?_) kernel hkernel.1
      intro left hleft
      have hnext := ih (hseen.keepBetter hkernel.2 hleft.2) fun other hother =>
        hpoints other (List.mem_cons_of_mem _ hother)
      rw [List.append_assoc, List.singleton_append] at hnext
      exact hnext left hleft.1

/-- The fast search returns a point of the space, and none of its starting points is better. -/
theorem noneBetter_of_optimizeFast {best : Option (Coordinate Value)}
    (h : computeOptimum services parameters true = .ok best) :
    NoneBetter services parameters
      ((Random.shuffle 0 parameters.optimizationSpace.getAllPoints).take 5) best := by
  have hpoints : ∀ point ∈ (Random.shuffle 0 parameters.optimizationSpace.getAllPoints).take 5,
      point ∈ parameters.optimizationSpace.getAllPoints := fun point hpoint =>
    (Random.shuffle_perm 0 _).mem_iff.mp (List.mem_of_mem_take hpoint)
  have hsearch : Ensures (Reinitializes services parameters) (optimizeFast services parameters)
      (fun best _ => NoneBetter services parameters
        ((Random.shuffle 0 parameters.optimizationSpace.getAllPoints).take 5) best)
      (fun _ _ => True) := by
    unfold optimizeFast
    cases parameters.optimizationSpace.getLongestAxis with
    | none => exact Ensures.throw fun _ _ => trivial
    | some longest =>
        refine (ensures_bestClimb climbed_nil hpoints).bind fun best => ?_
        refine Ensures.pure fun _ hclimbed => ?_
        rcases hclimbed with ⟨tried, hclimbed⟩
        exact hclimbed.noneBetter
  exact hsearch.returned (fun _ _ => rfl) h

end FastSearch

end Optimization
end Roofline
