import Mathlib.Order.Lattice
import Roofline.Optimization.OptimizationService

/-!
# What the searches have measured

The searches are given here for any way to measure, so that one of them can keep a record of
the points that are measured.

Main results:

- Theorem {lit}`Measuring.optimizeFast_eq`: the fast search measures the points in a shuffled
  order.
- Theorem {lit}`ensures_recorded_climb`: a climb measures all neighbors of the points it stands
  on and comes to the best of what it has measured.
- Theorem {lit}`optimum_isBestMeasured`: whatever the order, the fast search returns the best of
  the points it has measured, and the full search the best of all points.
-/

namespace Roofline
namespace Optimization

open Programs Selection

variable {Value Quantity Hash : Type}

/-! ## Values in a total order -/

/-- The first value is better, or they are the same. -/
def Comparison.atLeastAsGood [LE Quantity] : Comparison → Quantity → Quantity → Prop
  | .lessThan, a, b => a ≤ b
  | .moreThan, a, b => b ≤ a

/-- What is not worse is at least as good. -/
theorem Comparison.not_betterThan_iff [LinearOrder Quantity] {comparison : Comparison}
    {a b : Quantity} : ¬comparison.betterThan b a ↔ comparison.atLeastAsGood a b := by
  cases comparison with
  | lessThan => exact not_lt
  | moreThan => exact not_lt

/-- Any two values are better, worse or the same. -/
instance [LinearOrder Quantity] (comparison : Comparison) :
    Std.Trichotomous (comparison.betterThan : Quantity → Quantity → Prop) where
  trichotomous a b hab hba := by
    cases comparison with
    | lessThan => exact le_antisymm (not_lt.mp hba) (not_lt.mp hab)
    | moreThan => exact le_antisymm (not_lt.mp hab) (not_lt.mp hba)

/-! ## Searches for any way to measure -/

namespace Measuring

section Searches

variable {σ : Type} (betterThan : Quantity → Quantity → Prop) [DecidableRel betterThan]
variable (measure : Coordinate Value → Program Throwable σ Quantity)

/-- The loop that keeps the best of some points, over any measurement. -/
def bestOf : List (Coordinate Value) → Option (Coordinate Value × Quantity) →
    Program Throwable σ (Option (Coordinate Value × Quantity))
  | [], best => pure best
  | point :: points, best => do
      let value ← measure point
      bestOf points (keepBetter betterThan best (point, value))

variable (getNeighbors : Coordinate Value → Except Throwable (List (Coordinate Value)))

/-- The loop that goes to the best neighbor, over any measurement. -/
def climb : Nat → Coordinate Value × Quantity →
    Program Throwable σ (Coordinate Value × Quantity)
  | 0, current => pure current
  | steps + 1, current => do
      let neighbors ← primitive fun s => (getNeighbors current.1, s)
      match ← bestOf betterThan measure neighbors none with
      | none => throw .nullPointerException
      | some bestNeighbor =>
          if betterThan bestNeighbor.2 current.2 then
            climb steps bestNeighbor
          else
            return current

/-- The loop over the starts, over any measurement. -/
def bestClimb : List (Coordinate Value) → Option (Coordinate Value × Quantity) →
    Program Throwable σ (Option (Coordinate Value × Quantity))
  | [], best => pure best
  | point :: points, best => do
      let value ← measure point
      let reached ← climb betterThan measure getNeighbors 2 (point, value)
      bestClimb points (keepBetter betterThan best reached)

/-- The search with the points in the given order. -/
def optimizeFast (space : ParameterSpace Value) (points : List (Coordinate Value)) :
    Program Throwable σ (Option (Coordinate Value)) := do
  match space.getLongestAxis with
  | none => throw .nullPointerException
  | some _ =>
      let best ← bestClimb betterThan measure getNeighbors (points.take 5) none
      return best.map Prod.fst

end Searches

/-! ## The searches of a kernel -/

section Kernels

variable (services : Services Value Quantity Hash) (parameters : OptimizationParameters Value)
variable [LT Quantity] [DecidableLT Quantity]

/-- With the measurement of the service it is the loop of the service. -/
theorem bestOf_measureAt (points : List (Coordinate Value))
    (best : Option (Coordinate Value × Quantity)) :
    bestOf parameters.comparison.betterThan (measureAt services parameters) points best =
      Optimization.bestOf services parameters points best := by
  induction points generalizing best with
  | nil => rfl
  | cons point points ih => simp only [bestOf, Optimization.bestOf, ih]

variable [DecidableEq Value]

/-- So is the loop that goes to the best neighbor. -/
theorem climb_measureAt (steps : Nat) (current : Coordinate Value × Quantity) :
    climb parameters.comparison.betterThan (measureAt services parameters)
      (parameters.optimizationSpace.getNeighbors services.getName) steps current =
      Optimization.climb services parameters steps current := by
  induction steps generalizing current with
  | zero => rfl
  | succ steps ih =>
      unfold climb Optimization.climb
      refine congrArg (primitive _ >>= ·) (funext fun neighbors => ?_)
      rw [bestOf_measureAt]
      refine congrArg (Optimization.bestOf _ _ _ _ >>= ·) (funext fun best => ?_)
      cases best with
      | none => rfl
      | some bestNeighbor => simp only [ih]

/-- So is the loop over the starts. -/
theorem bestClimb_measureAt (points : List (Coordinate Value))
    (best : Option (Coordinate Value × Quantity)) :
    bestClimb parameters.comparison.betterThan (measureAt services parameters)
      (parameters.optimizationSpace.getNeighbors services.getName) points best =
      Optimization.bestClimb services parameters points best := by
  induction points generalizing best with
  | nil => rfl
  | cons point points ih => simp only [bestClimb, Optimization.bestClimb, climb_measureAt, ih]

/-- The fast search of a kernel shuffles the points. -/
theorem optimizeFast_eq :
    optimizeFast parameters.comparison.betterThan (measureAt services parameters)
      (parameters.optimizationSpace.getNeighbors services.getName) parameters.optimizationSpace
      (Random.shuffle 0 parameters.optimizationSpace.getAllPoints) =
      Optimization.optimizeFast services parameters := by
  unfold optimizeFast Optimization.optimizeFast
  cases parameters.optimizationSpace.getLongestAxis with
  | none => rfl
  | some longest => simp only [bestClimb_measureAt]

end Kernels

/-! ## Records of what is measured -/

section Records

variable {σ : Type} (betterThan : Quantity → Quantity → Prop) [DecidableRel betterThan]
variable (measure : Coordinate Value → Program Throwable σ Quantity)
variable (getNeighbors : Coordinate Value → Except Throwable (List (Coordinate Value)))

/-- The loop over points does not depend on the record. -/
theorem erases_bestOf (points : List (Coordinate Value))
    (best : Option (Coordinate Value × Quantity)) :
    Erases (bestOf betterThan (recording measure) points best)
      (bestOf betterThan measure points best) := by
  induction points generalizing best with
  | nil => exact .pure best
  | cons point points ih =>
      exact (erases_recording measure point).bind fun value => ih _

/-- Nor does the loop that goes to the best neighbor. -/
theorem erases_climb (steps : Nat) (current : Coordinate Value × Quantity) :
    Erases (climb betterThan (recording measure) getNeighbors steps current)
      (climb betterThan measure getNeighbors steps current) := by
  induction steps generalizing current with
  | zero => exact .pure current
  | succ steps ih =>
      refine (Erases.constant (getNeighbors current.1)).bind fun neighbors => ?_
      refine (erases_bestOf betterThan measure neighbors none).bind fun best => ?_
      cases best with
      | none => exact .throw _
      | some bestNeighbor => exact (ih bestNeighbor).ite (.pure current)

/-- Nor does the loop over the starts. -/
theorem erases_bestClimb (points : List (Coordinate Value))
    (best : Option (Coordinate Value × Quantity)) :
    Erases (bestClimb betterThan (recording measure) getNeighbors points best)
      (bestClimb betterThan measure getNeighbors points best) := by
  induction points generalizing best with
  | nil => exact .pure best
  | cons point points ih =>
      refine (erases_recording measure point).bind fun value => ?_
      exact (erases_climb betterThan measure getNeighbors 2 (point, value)).bind fun reached => ih _

/-- Nor does the fast search. -/
theorem erases_optimizeFast (space : ParameterSpace Value) (points : List (Coordinate Value)) :
    Erases (optimizeFast betterThan (recording measure) getNeighbors space points)
      (optimizeFast betterThan measure getNeighbors space points) := by
  unfold optimizeFast
  cases space.getLongestAxis with
  | none => exact .throw _
  | some longest =>
      refine (erases_bestClimb betterThan measure getNeighbors (points.take 5) none).bind ?_
      exact fun best => .pure (best.map Prod.fst)

end Records

end Measuring

/-! ## The best of what is measured -/

section BestMeasured

variable (services : Services Value Quantity Hash) (parameters : OptimizationParameters Value)

/-- The kernel can be initialized for the next measurement, and these points of the space have
been measured. -/
structure HasMeasured (measured : List (Coordinate Value))
    (s : Kernel Value × List (Coordinate Value)) : Prop where
  kernel : Reinitializes services parameters s.1
  record : s.2 = measured
  points : ∀ point ∈ measured, point ∈ parameters.optimizationSpace.getAllPoints

/-- Every point of the space can be measured, and gives this value. -/
def HasValues (value : Coordinate Value → Quantity) : Prop :=
  ∀ point ∈ parameters.optimizationSpace.getAllPoints,
    valueAt services parameters point = .ok (value point)

/-- The best of the points, with its value. -/
abbrev IsBestPoint [LT Quantity] (value : Coordinate Value → Quantity)
    (best : Option (Coordinate Value × Quantity)) (points : List (Coordinate Value)) : Prop :=
  IsBest parameters.comparison.betterThan best (points.map fun point => (point, value point))

/-- The first of the best neighbors, with its value. -/
def bestNeighbor [LT Quantity] [DecidableLT Quantity] (value : Coordinate Value → Quantity)
    (neighbors : List (Coordinate Value)) : Option (Coordinate Value × Quantity) :=
  (neighbors.map fun point => (point, value point)).foldl
    (keepBetter parameters.comparison.betterThan) none

/-- With the given number of steps left, a climb that is at the first point comes to look at the
neighbors of the second one: it moves to the best neighbor as long as that is better. -/
inductive StandsOn [LT Quantity] [DecidableLT Quantity] [DecidableEq Value]
    (value : Coordinate Value → Quantity) : Nat → Coordinate Value → Coordinate Value → Prop where
  | here (steps : Nat) (point : Coordinate Value) : StandsOn value (steps + 1) point point
  | move {steps : Nat} {point next stood : Coordinate Value} {neighbors : List (Coordinate Value)}
      (hneighbors : parameters.optimizationSpace.getNeighbors services.getName point =
        .ok neighbors)
      (hnext : bestNeighbor parameters value neighbors = some (next, value next))
      (hbetter : parameters.comparison.betterThan (value next) (value point))
      (hstood : StandsOn value steps next stood) : StandsOn value (steps + 1) point stood

/-- All neighbors of the points a climb stands on have been measured. -/
def NeighborsMeasured [LT Quantity] [DecidableLT Quantity] [DecidableEq Value]
    (value : Coordinate Value → Quantity) (steps : Nat) (start : Coordinate Value)
    (measured : List (Coordinate Value)) : Prop :=
  ∀ point, StandsOn services parameters value steps start point →
    ∃ neighbors, parameters.optimizationSpace.getNeighbors services.getName point = .ok neighbors ∧
      ∀ neighbor ∈ neighbors, neighbor ∈ measured

variable {services parameters} {value : Coordinate Value → Quantity}
variable {measured : List (Coordinate Value)}

/-- A measurement is recorded and has the value of its point. -/
theorem ensures_recording (hvalue : HasValues services parameters value)
    {point : Coordinate Value} (hpoint : point ∈ parameters.optimizationSpace.getAllPoints) :
    Ensures (HasMeasured services parameters measured)
      (recording (measureAt services parameters) point)
      (fun found s => found = value point ∧
        HasMeasured services parameters (measured ++ [point]) s)
      (fun _ _ => False) := by
  rintro ⟨kernel, record⟩ ⟨hkernel, rfl, hpoints⟩
  have hmeasure : services.measure (kernel.initializeAt services.ownSettings point)
      parameters.measurementPoint = .ok (value point) := by
    rw [hkernel point hpoint]
    exact hvalue point hpoint
  have hrun : outcome (recording (measureAt services parameters) point) (kernel, record) =
      (.ok (value point), kernel.initializeAt services.ownSettings point, record ++ [point]) := by
    rw [recording, outcome_primitive]
    simp only [measureAt, outcome_primitive, hmeasure]
  rw [hrun]
  refine ⟨rfl, hkernel.initializeAt hpoint, rfl, fun other hother => ?_⟩
  rcases List.mem_append.mp hother with hother | hother
  · exact hpoints other hother
  · rcases List.mem_singleton.mp hother with rfl
    exact hpoint

/-- Nothing has been measured at first. -/
theorem hasMeasured_nil : HasMeasured services parameters [] (parameters.kernel, []) :=
  ⟨fun _ _ => rfl, rfl, by simp⟩

variable [LinearOrder Quantity]

/-- Nothing in the record is better than the best point, which is in the record itself. -/
theorem HasMeasured.atLeastAsGood {s : Kernel Value × List (Coordinate Value)}
    (hs : HasMeasured services parameters measured s)
    {best : Option (Coordinate Value × Quantity)}
    (hbest : IsBestPoint parameters value best measured)
    (hsome : measured ≠ []) :
    ∃ point ∈ parameters.optimizationSpace.getAllPoints, best.map Prod.fst = some point ∧
      ∀ other ∈ measured, parameters.comparison.atLeastAsGood (value point) (value other) := by
  cases best with
  | none => exact absurd (List.map_eq_nil_iff.mp hbest) hsome
  | some best =>
      rcases hbest with ⟨hmem, hnone⟩
      rcases List.mem_map.mp hmem with ⟨point, hpoint, rfl⟩
      refine ⟨point, hs.points point hpoint, rfl, fun other hother => ?_⟩
      exact Comparison.not_betterThan_iff.mp
        (hnone (other, value other) (List.mem_map_of_mem hother))

/-- The loop over the points: {lit}`seen` are those before it. -/
theorem ensures_recorded_bestOf (hvalue : HasValues services parameters value)
    {seen points : List (Coordinate Value)} {best : Option (Coordinate Value × Quantity)}
    (hseen : IsBestPoint parameters value best seen)
    (hpoints : ∀ point ∈ points, point ∈ parameters.optimizationSpace.getAllPoints) :
    Ensures (HasMeasured services parameters measured)
      (Measuring.bestOf parameters.comparison.betterThan
        (recording (measureAt services parameters)) points best)
      (fun kept s => IsBestPoint parameters value kept (seen ++ points) ∧
        kept = (points.map fun point => (point, value point)).foldl
          (keepBetter parameters.comparison.betterThan) best ∧
        HasMeasured services parameters (measured ++ points) s)
      (fun _ _ => False) := by
  induction points generalizing seen best measured with
  | nil =>
      refine Ensures.pure fun s hs => ?_
      rw [List.append_nil, List.append_nil]
      exact ⟨hseen, rfl, hs⟩
  | cons point points ih =>
      rw [List.forall_mem_cons] at hpoints
      refine (ensures_recording hvalue hpoints.1).bind fun found => ?_
      rintro s ⟨rfl, hs⟩
      have hbest : IsBestPoint parameters value
          (keepBetter parameters.comparison.betterThan best (point, value point))
          (seen ++ [point]) := by
        rw [IsBestPoint, List.map_append]
        exact hseen.keepBetter (point, value point)
      have hnext : Ensures (HasMeasured services parameters (measured ++ [point])) _ _ _ :=
        ih hbest hpoints.2
      simp only [List.append_assoc, List.singleton_append] at hnext
      exact hnext s hs

/-- The full search returns the best of all points. -/
theorem exists_optimizeFull (haxes : parameters.optimizationSpace.axisValueSets ≠ [])
    (hvalues : ∀ set ∈ parameters.optimizationSpace.axisValueSets, set.2 ≠ [])
    (hvalue : HasValues services parameters value) :
    ∃ best ∈ parameters.optimizationSpace.getAllPoints,
      (outcome (optimizeFull services parameters) parameters.kernel).1 = .ok (some best) ∧
      ∀ point ∈ parameters.optimizationSpace.getAllPoints,
        parameters.comparison.atLeastAsGood (value best) (value point) := by
  have hnone : IsBestPoint parameters value none [] := isBest_nil
  rcases (ensures_recorded_bestOf hvalue hnone fun _ h => h).returns hasMeasured_nil with
    ⟨best, s, hrun, hbest, -, hs⟩
  rw [List.nil_append] at hbest hs
  rcases hs.atLeastAsGood hbest (getAllPoints_ne_nil haxes hvalues) with
    ⟨point, hpoint, hsome, hleast⟩
  refine ⟨point, hpoint, ?_, hleast⟩
  have herased := Measuring.erases_bestOf parameters.comparison.betterThan
    (measureAt services parameters) parameters.optimizationSpace.getAllPoints none
    parameters.kernel []
  rw [hrun, Measuring.bestOf_measureAt] at herased
  rw [optimizeFull, outcome_bind, ← herased]
  simp only [outcome_pure, hsome]

variable [DecidableEq Value]

omit [LinearOrder Quantity] in
/-- What has been measured before stays in the record. -/
theorem NeighborsMeasured.mono [LT Quantity] [DecidableLT Quantity] {steps : Nat}
    {start : Coordinate Value} {others : List (Coordinate Value)}
    (h : NeighborsMeasured services parameters value steps start measured)
    (hsub : measured ⊆ others) :
    NeighborsMeasured services parameters value steps start others := by
  intro point hstood
  rcases h point hstood with ⟨neighbors, hneighbors, hmeasured⟩
  exact ⟨neighbors, hneighbors, fun neighbor hneighbor => hsub (hmeasured neighbor hneighbor)⟩

omit [LinearOrder Quantity] in
/-- A climb that goes on to the best neighbor has measured the neighbors of its start. -/
theorem NeighborsMeasured.move [LT Quantity] [DecidableLT Quantity] {steps : Nat}
    {start : Coordinate Value} {neighbors visited : List (Coordinate Value)}
    {found : Coordinate Value × Quantity}
    (hneighbors : parameters.optimizationSpace.getNeighbors services.getName start = .ok neighbors)
    (hfound : bestNeighbor parameters value neighbors = some found)
    (h : NeighborsMeasured services parameters value steps found.1 visited) :
    NeighborsMeasured services parameters value (steps + 1) start (neighbors ++ visited) := by
  intro point hstood
  cases hstood with
  | here => exact ⟨neighbors, hneighbors, fun _ => List.mem_append_left _⟩
  | move hothers hbest _ hstood =>
      obtain rfl := Except.ok.inj (hneighbors.symm.trans hothers)
      obtain rfl := Option.some.inj (hfound.symm.trans hbest)
      exact h.mono (List.subset_append_right _ _) point hstood

omit [LinearOrder Quantity] in
/-- A climb whose best neighbor is not better ends where it is. -/
theorem neighborsMeasured_stop [LT Quantity] [DecidableLT Quantity] {steps : Nat}
    {start : Coordinate Value} {neighbors : List (Coordinate Value)}
    {found : Coordinate Value × Quantity}
    (hneighbors : parameters.optimizationSpace.getNeighbors services.getName start = .ok neighbors)
    (hfound : bestNeighbor parameters value neighbors = some found)
    (hstop : ¬parameters.comparison.betterThan found.2 (value start)) :
    NeighborsMeasured services parameters value (steps + 1) start neighbors := by
  intro point hstood
  cases hstood with
  | here => exact ⟨neighbors, hneighbors, fun _ h => h⟩
  | move hothers hbest hmoves _ =>
      obtain rfl := Except.ok.inj (hneighbors.symm.trans hothers)
      obtain rfl := Option.some.inj (hfound.symm.trans hbest)
      exact absurd hmoves hstop

/-- A climb comes to the best of the points it has measured, among which are all neighbors of the
points it has stood on. -/
theorem ensures_recorded_climb (hvalue : HasValues services parameters value)
    (haxes : parameters.optimizationSpace.axisValueSets ≠ [])
    (hvalues : ∀ set ∈ parameters.optimizationSpace.axisValueSets, set.2 ≠ [])
    (steps : Nat) {seen : List (Coordinate Value)} {current : Coordinate Value × Quantity}
    (hcurrent : IsBestPoint parameters value (some current) seen) :
    Ensures (HasMeasured services parameters (measured ++ seen))
      (Measuring.climb parameters.comparison.betterThan
        (recording (measureAt services parameters))
        (parameters.optimizationSpace.getNeighbors services.getName) steps current)
      (fun reached s => ∃ visited, IsBestPoint parameters value (some reached) (seen ++ visited) ∧
        HasMeasured services parameters (measured ++ (seen ++ visited)) s ∧
        NeighborsMeasured services parameters value steps current.1 visited)
      (fun _ _ => False) := by
  induction steps generalizing seen current with
  | zero =>
      refine Ensures.pure fun s hs => ⟨[], ?_⟩
      rw [List.append_nil]
      refine ⟨hcurrent, hs, fun point hstood => ?_⟩
      cases hstood
  | succ steps ih =>
      intro s hs
      rcases List.mem_map.mp hcurrent.1 with ⟨start, hstart, rfl⟩
      have hpoint : start ∈ parameters.optimizationSpace.getAllPoints :=
        hs.points start (List.mem_append_right _ hstart)
      dsimp only
      rcases exists_getNeighbors services.getName haxes hvalues hpoint with
        ⟨neighbors, hneighbors, hsome⟩
      have hmem : ∀ neighbor ∈ neighbors,
          neighbor ∈ parameters.optimizationSpace.getAllPoints := fun neighbor =>
        mem_getAllPoints_of_mem_getNeighbors hpoint hneighbors
      rw [Measuring.climb, outcome_bind, outcome_primitive, hneighbors]
      have hnone : IsBestPoint parameters value none [] := isBest_nil
      refine Ensures.bind (ensures_recorded_bestOf hvalue hnone hmem) (fun best => ?_) s hs
      cases best with
      | none =>
          rintro s ⟨hempty, -⟩
          exact absurd (List.map_eq_nil_iff.mp hempty) hsome
      | some found =>
          rintro s ⟨hbest, hfound, hs⟩
          -- the better one of the two is best among all that the climb has measured
          have hboth := hcurrent.append hbest
          rw [List.nil_append, ← List.map_append] at hboth
          rw [List.append_assoc] at hs
          unfold keepBetter at hboth
          dsimp only at hboth ⊢
          by_cases hbetter : parameters.comparison.betterThan found.2 (value start)
          · rw [if_pos hbetter] at hboth ⊢
            refine (ih hboth).weaken (fun _ h => h) (fun reached s h => ?_) (fun _ _ h => h) s hs
            rcases h with ⟨visited, hreached, hs, hclimbed⟩
            rw [List.append_assoc] at hreached hs
            exact ⟨neighbors ++ visited, hreached, hs, hclimbed.move hneighbors hfound.symm⟩
          · rw [if_neg hbetter] at hboth ⊢
            exact ⟨neighbors, hboth, hs, neighborsMeasured_stop hneighbors hfound.symm hbetter⟩

/-- The loop over the starting points: all that has been measured is in the record. -/
theorem ensures_recorded_bestClimb (hvalue : HasValues services parameters value)
    (haxes : parameters.optimizationSpace.axisValueSets ≠ [])
    (hvalues : ∀ set ∈ parameters.optimizationSpace.axisValueSets, set.2 ≠ [])
    {points : List (Coordinate Value)} {best : Option (Coordinate Value × Quantity)}
    (hbest : IsBestPoint parameters value best measured)
    (hpoints : ∀ point ∈ points, point ∈ parameters.optimizationSpace.getAllPoints) :
    Ensures (HasMeasured services parameters measured)
      (Measuring.bestClimb parameters.comparison.betterThan
        (recording (measureAt services parameters))
        (parameters.optimizationSpace.getNeighbors services.getName) points best)
      (fun best s => ∃ visited, IsBestPoint parameters value best (measured ++ visited) ∧
        HasMeasured services parameters (measured ++ visited) s ∧
        ∀ point ∈ points, point ∈ visited ∧
          NeighborsMeasured services parameters value 2 point visited)
      (fun _ _ => False) := by
  induction points generalizing best measured with
  | nil =>
      refine Ensures.pure fun s hs => ⟨[], ?_⟩
      rw [List.append_nil]
      exact ⟨hbest, hs, by simp⟩
  | cons point points ih =>
      rw [List.forall_mem_cons] at hpoints
      refine (ensures_recording hvalue hpoints.1).bind fun found => ?_
      rintro s ⟨rfl, hs⟩
      have hstart : IsBestPoint parameters value (some (point, value point)) [point] :=
        ⟨by simp, by simp [Std.Irrefl.irrefl]⟩
      refine Ensures.bind (ensures_recorded_climb hvalue haxes hvalues 2 hstart)
        (fun reached => ?_) s hs
      rintro s ⟨climbed, hreached, hs, hclimbed⟩
      have hboth := hbest.append hreached
      rw [← List.map_append] at hboth
      refine (ih hboth hpoints.2).weaken (fun _ h => h) (fun best s h => ?_) (fun _ _ h => h) s hs
      rcases h with ⟨visited, hvisited, hs, hstarts⟩
      refine ⟨[point] ++ climbed ++ visited, ?_, ?_, ?_⟩
      · rwa [← List.append_assoc]
      · rwa [← List.append_assoc]
      · intro other hother
        rcases List.mem_cons.mp hother with rfl | hother
        · refine ⟨by simp, hclimbed.mono fun neighbor hneighbor => ?_⟩
          simp [hneighbor]
        · rcases hstarts other hother with ⟨hmem, hmeasured⟩
          exact ⟨List.mem_append_right _ hmem, hmeasured.mono (List.subset_append_right _ _)⟩

/-- The fast search that starts with these points returns the coordinate after having measured
the points of the record.  Its starting points and the neighbors of all points that its climbs
have stood on are among these, and none of them is better. -/
structure FastSearched (services : Services Value Quantity Hash)
    (parameters : OptimizationParameters Value) (value : Coordinate Value → Quantity)
    (points : List (Coordinate Value)) (best : Coordinate Value)
    (measured : List (Coordinate Value)) : Prop where
  mem : best ∈ parameters.optimizationSpace.getAllPoints
  returned : ∃ kernel,
    outcome (Measuring.optimizeFast parameters.comparison.betterThan
      (measureAt services parameters)
      (parameters.optimizationSpace.getNeighbors services.getName)
      parameters.optimizationSpace points) parameters.kernel = (.ok (some best), kernel) ∧
    outcome (Measuring.optimizeFast parameters.comparison.betterThan
      (recording (measureAt services parameters))
      (parameters.optimizationSpace.getNeighbors services.getName)
      parameters.optimizationSpace points) (parameters.kernel, []) =
      (.ok (some best), kernel, measured)
  starts : ∀ start ∈ points.take 5, start ∈ measured
  neighbors : ∀ start ∈ points.take 5,
    NeighborsMeasured services parameters value 2 start measured
  best : ∀ point ∈ measured, parameters.comparison.atLeastAsGood (value best) (value point)

/-- The fast search returns the best of the points it has measured. -/
theorem exists_fastSearched (haxes : parameters.optimizationSpace.axisValueSets ≠ [])
    (hvalues : ∀ set ∈ parameters.optimizationSpace.axisValueSets, set.2 ≠ [])
    (hvalue : HasValues services parameters value) {points : List (Coordinate Value)}
    (hpoints : points.Perm parameters.optimizationSpace.getAllPoints) :
    ∃ best measured, FastSearched services parameters value points best measured := by
  have hnone : IsBestPoint parameters value none [] := isBest_nil
  have hstarts : ∀ start ∈ points.take 5, start ∈ parameters.optimizationSpace.getAllPoints :=
    fun start hstart => hpoints.mem_iff.mp (List.mem_of_mem_take hstart)
  rcases (ensures_recorded_bestClimb hvalue haxes hvalues hnone hstarts).returns
    hasMeasured_nil with ⟨best, ⟨kernel, record⟩, hrun, visited, hbest, hs, hvisited⟩
  rw [List.nil_append] at hbest hs
  obtain rfl : record = visited := hs.record
  have hsome : record ≠ [] := by
    rintro rfl
    have hempty : points.take 5 = [] := List.eq_nil_iff_forall_not_mem.mpr fun start hstart =>
      List.not_mem_nil (hvisited start hstart).1
    rcases List.take_eq_nil_iff.mp hempty with hzero | rfl
    · exact absurd hzero (by decide)
    · exact getAllPoints_ne_nil haxes hvalues hpoints.symm.eq_nil
  rcases hs.atLeastAsGood hbest hsome with ⟨point, hpoint, hfirst, hleast⟩
  rcases exists_getLongestAxis haxes with ⟨longest, hlongest⟩
  have hrecorded : outcome (Measuring.optimizeFast parameters.comparison.betterThan
      (recording (measureAt services parameters))
      (parameters.optimizationSpace.getNeighbors services.getName)
      parameters.optimizationSpace points) (parameters.kernel, []) =
      (.ok (some point), kernel, record) := by
    rw [Measuring.optimizeFast, hlongest]
    dsimp only
    rw [outcome_bind, hrun]
    simp only [outcome_pure, hfirst]
  have herased := Measuring.erases_optimizeFast parameters.comparison.betterThan
    (measureAt services parameters)
    (parameters.optimizationSpace.getNeighbors services.getName) parameters.optimizationSpace
    points parameters.kernel []
  rw [hrecorded] at herased
  exact ⟨point, record, hpoint, ⟨kernel, herased.symm, hrecorded⟩,
    fun start hstart => (hvisited start hstart).1, fun start hstart => (hvisited start hstart).2,
    hleast⟩

/-- The search for the parameters starts with the points in the order of the shuffle. -/
theorem FastSearched.computeOptimum {best : Coordinate Value}
    (h : FastSearched services parameters value
      (Random.shuffle 0 parameters.optimizationSpace.getAllPoints) best measured) :
    computeOptimum services parameters true = .ok (some best) := by
  rcases h.returned with ⟨kernel, hreturned, -⟩
  rw [Measuring.optimizeFast_eq] at hreturned
  rw [Optimization.computeOptimum, if_pos rfl, hreturned]

/-- Whatever the order of the points, the fast search returns the best of those it has measured:
the points it starts at and all neighbors of those its climbs have stood on.  So does the search
that {lit}`optimize.fast` selects.  The full search returns the best of all points. -/
theorem optimum_isBestMeasured (services : Services Value Quantity Hash)
    (parameters : OptimizationParameters Value)
    (haxes : parameters.optimizationSpace.axisValueSets ≠ [])
    (hvalues : ∀ set ∈ parameters.optimizationSpace.axisValueSets, set.2 ≠ [])
    (hvalue : HasValues services parameters value) :
    (∀ points : List (Coordinate Value), points.Perm parameters.optimizationSpace.getAllPoints →
      ∃ best measured, FastSearched services parameters value points best measured) ∧
    (∃ best measured, computeOptimum services parameters true = .ok (some best) ∧
      FastSearched services parameters value
        (Random.shuffle 0 parameters.optimizationSpace.getAllPoints) best measured) ∧
    ∃ best ∈ parameters.optimizationSpace.getAllPoints,
      computeOptimum services parameters false = .ok (some best) ∧
      ∀ point ∈ parameters.optimizationSpace.getAllPoints,
        parameters.comparison.atLeastAsGood (value best) (value point) := by
  refine ⟨fun points hpoints => exists_fastSearched haxes hvalues hvalue hpoints, ?_,
    exists_optimizeFull haxes hvalues hvalue⟩
  rcases exists_fastSearched haxes hvalues hvalue (Random.shuffle_perm 0 _) with
    ⟨best, measured, hsearched⟩
  exact ⟨best, measured, hsearched.computeOptimum, hsearched⟩

/-- A kernel is as slow as its optimization says. -/
def optimizationIsValue : Services Nat Nat Unit where
  getName := Axis.uid
  ownSettings _ := []
  measure kernel _ := .ok ((kernel.settings "optimization").getD 0)
  hash _ := ()

/-- The lowest of three optimizations is to be found. -/
def threeOptimizations : OptimizationParameters Nat where
  kernel := ⟨"", fun _ => none⟩
  optimizationSpace := ⟨[(optimizationAxis, [3, 1, 2])], by decide⟩
  measurementPoint := Coordinate.empty
  comparison := .lessThan

/-- Both searches find the lowest of three. -/
theorem optimum_isBestMeasured_threeOptimizations :
    (∃ best ∈ threeOptimizations.optimizationSpace.getAllPoints,
      computeOptimum optimizationIsValue threeOptimizations true = .ok (some best) ∧
      ∀ point ∈ threeOptimizations.optimizationSpace.getAllPoints,
        (best optimizationAxis).getD 0 ≤ (point optimizationAxis).getD 0) ∧
    ∃ best ∈ threeOptimizations.optimizationSpace.getAllPoints,
      computeOptimum optimizationIsValue threeOptimizations false = .ok (some best) ∧
      ∀ point ∈ threeOptimizations.optimizationSpace.getAllPoints,
        (best optimizationAxis).getD 0 ≤ (point optimizationAxis).getD 0 := by
  have hvalue : HasValues optimizationIsValue threeOptimizations fun point =>
      (point optimizationAxis).getD 0 := by
    intro point hpoint
    change point ∈ [3, 1, 2].map (Coordinate.empty.getExtendedPoint optimizationAxis) at hpoint
    rcases List.mem_map.mp hpoint with ⟨optimization, -, rfl⟩
    rfl
  rcases optimum_isBestMeasured optimizationIsValue threeOptimizations (by decide) (by decide)
    hvalue with ⟨-, ⟨best, measured, hcomputed, hsearched⟩, hfull⟩
  refine ⟨⟨best, hsearched.mem, hcomputed, fun point hpoint => hsearched.best point ?_⟩, hfull⟩
  -- there are fewer points than the search starts at
  have hperm := Random.shuffle_perm 0 threeOptimizations.optimizationSpace.getAllPoints
  apply hsearched.starts
  rw [List.take_of_length_le (by rw [hperm.length_eq]; decide)]
  exact hperm.mem_iff.mpr hpoint

end BestMeasured

end Optimization
end Roofline
