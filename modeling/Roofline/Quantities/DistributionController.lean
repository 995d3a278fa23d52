import Roofline.Library.Programs
import Roofline.Optimization.ParameterSpace
import Roofline.Quantities.OwnOutputs

/-!
# Distributions over several CPUs

A controller measures a kernel on each of the given CPUs at the same time, and reports the
distribution of the values of each CPU.

Main results:

- Theorem {lit}`isPositions_of_builds`: what the CPUs must be for the workloads to be right.
- Theorem {lit}`usesRightCpus_iff`: each CPU gets its own kernel, measurers and value exactly if
  the number of each CPU is its position in the list.
-/

namespace Roofline
namespace Quantities
namespace DistributionController

open Optimization (getAt mem_of_getAt)
open Programs (bind_eq_ok mapM_eq_ok mapM_eq_mapIdx_iff)

/-! ## The controller -/

/-- The keys of the measurer sets: that of the whole measurement, and the numbers of the CPUs. -/
inductive SetKey where
  | execTime
  | cpu (number : Int)
deriving DecidableEq

/-- A workload with its kernel, measurer set and CPU. -/
structure Workload (Kernel Uid : Type) where
  kernel : Kernel
  measurerSet : Option (MeasurerSet Uid)
  cpu : Int

/-- At the start of the kernel of the workload, its thread waits at the barrier. -/
structure StartRule (Kernel Uid : Type) where
  workload : Workload Kernel Uid
  threshold : Nat
  pressure : Nat

/-- The measurement that is built. -/
structure Measurement (Kernel Uid : Type) where
  overallMeasurerSet : Option (MeasurerSet Uid)
  workloads : List (Workload Kernel Uid)
  rules : List (StartRule Kernel Uid)

/-- What is added to the plots for a CPU. -/
structure Distribution (Uid Value X : Type) where
  kernelName : String
  expected : X
  histogramName : Option String
  outputs : Option (List (List (MeasurerOutput Uid Value)))
  calculator : QuantityCalculator Uid

/-- The methods of the class of the controller, for a coordinate and a problem size.  Each call of
{lit}`createKernel` creates a kernel of its own. -/
structure Controller (Kernel Uid X : Type) where
  execTimeCalc : QuantityCalculator Uid
  createKernel : Nat → Kernel
  createCalculator : Kernel → QuantityCalculator Uid
  getLabel : Kernel → String
  getX : Kernel → X
  getHistogramName : Kernel → Option String

section Model

variable {Kernel Uid Value X : Type} [DecidableEq Uid]

/-- {lit}`get` of a map. -/
def lookup {Key : Type} [DecidableEq Key] (sets : SetMap Key Uid) (key : Key) :
    Option (MeasurerSet Uid) :=
  (sets.find? fun entry => entry.1 = key).map Prod.snd

/-- {lit}`createWorkload`, whose CPU is not set. -/
def createWorkload (kernel : Kernel) (measurerSet : Option (MeasurerSet Uid)) :
    Workload Kernel Uid :=
  ⟨kernel, measurerSet, -1⟩

/-- {lit}`build`: the loop over the CPUs uses their numbers as positions. -/
def build (cpus : List Int) (kernels : List Kernel) (sets : SetMap SetKey Uid) :
    Except Throwable (Measurement Kernel Uid) := do
  let workloads ← cpus.mapM fun i => do
    let kernel ← getAt kernels i
    let measurerSet := lookup sets (.cpu i)
    let workload := createWorkload kernel measurerSet
    return { workload with cpu := ← getAt cpus i }
  return {
    overallMeasurerSet := lookup sets .execTime
    workloads := workloads
    rules := workloads.map fun workload => ⟨workload, cpus.length, 1⟩ }

/-- {lit}`ArgBuilderGetQuantities.get` for a builder that may throw. -/
def getQuantities (build : SetMap SetKey Uid → Except Throwable (Measurement Kernel Uid))
    (measure : Nat → Measurement Kernel Uid → Nat → MeasurementResult Uid Value)
    (numberOfRuns : Nat) (calculatorGroups : Groups SetKey Uid) :
    Except Throwable (QuantityMap Uid Value) := do
  let measurements ← (setsForMeasurements calculatorGroups).mapM build
  let results := measurements.mapIdx fun call measurement => measure call measurement numberOfRuns
  match combineRuns results (List.range numberOfRuns) with
  | none => .error .indexOutOfBoundsException
  | some combinedResults => return resultMap calculatorGroups combinedResults

namespace Controller

variable (controller : Controller Kernel Uid X) (cpus : List Int)

/-- The kernel that is created for the CPU at this position, and its calculator. -/
def calculator (position : Nat) : QuantityCalculator Uid :=
  controller.createCalculator (controller.createKernel position)

/-- The kernels, one for each CPU. -/
def kernels : List Kernel :=
  cpus.mapIdx fun position _ => controller.createKernel position

/-- The calculators, one for each CPU. -/
def calcs : List (QuantityCalculator Uid) :=
  cpus.mapIdx fun position _ => controller.calculator position

/-- The arguments of the argument builder. -/
def calculatorGroups : Groups SetKey Uid :=
  (.execTime, [controller.execTimeCalc]) ::
    cpus.mapIdx fun position i => (.cpu i, [controller.calculator position])

/-- The name of the CPU, where there are several. -/
def suffix (i : Int) : String :=
  if cpus.length > 1 then "-" ++ toString i else ""

/-- The last loop over the CPUs, which adds the results to the output. -/
def distributions (result : QuantityMap Uid Value) :
    Except Throwable (List (Distribution Uid Value X)) :=
  cpus.mapM fun i => do
    let kernel ← getAt (controller.kernels cpus) i
    let calculator ← getAt (controller.calcs cpus) i
    return {
      kernelName := controller.getLabel kernel ++ suffix cpus i
      expected := controller.getX kernel
      histogramName := (controller.getHistogramName kernel).map (· ++ suffix cpus i)
      outputs := result calculator
      calculator := calculator }

/-- One measurement of a kernel on all CPUs: the body of the loop in {lit}`measure`. -/
def measure (facility : Nat → Measurement Kernel Uid → Nat → MeasurementResult Uid Value)
    (numberOfRuns : Nat) : Except Throwable (List (Distribution Uid Value X)) := do
  let result ← getQuantities (build cpus (controller.kernels cpus)) facility numberOfRuns
    (controller.calculatorGroups cpus)
  controller.distributions cpus result

end Controller

end Model

/-! ## The right CPU -/

section RightCpus

variable {Kernel Uid Value X : Type} [DecidableEq Uid]
variable (controller : Controller Kernel Uid X) (cpus : List Int)

/-- One workload for each CPU, with its own kernel and measurers, pinned to it. -/
def rightWorkloads (sets : SetMap SetKey Uid) : List (Workload Kernel Uid) :=
  cpus.mapIdx fun position cpu =>
    ⟨controller.createKernel position, lookup sets (.cpu cpu), cpu⟩

/-- The measurement with these workloads, which all wait until each of them has come to the
barrier. -/
def rightMeasurement (sets : SetMap SetKey Uid) : Measurement Kernel Uid where
  overallMeasurerSet := lookup sets .execTime
  workloads := rightWorkloads controller cpus sets
  rules := (rightWorkloads controller cpus sets).map fun workload => ⟨workload, cpus.length, 1⟩

/-- The measurer sets of a measurement. -/
def measurerSets (measurement : Measurement Kernel Uid) : List (MeasurerSet Uid) :=
  measurement.overallMeasurerSet.toList ++
    measurement.workloads.filterMap Workload.measurerSet

/-- What is added to the plots for the CPU at this position. -/
def ownDistribution (result : QuantityMap Uid Value) (position : Nat) (cpu : Int) :
    Distribution Uid Value X where
  kernelName :=
    controller.getLabel (controller.createKernel position) ++ Controller.suffix cpus cpu
  expected := controller.getX (controller.createKernel position)
  histogramName := (controller.getHistogramName (controller.createKernel position)).map
    (· ++ Controller.suffix cpus cpu)
  outputs := result (controller.calculator position)
  calculator := controller.calculator position

/-- In each run, the calculator is given the outputs of its own measurers. -/
def HasOwnOutputs (results : List (MeasurementResult Uid Value)) (numberOfRuns : Nat)
    (distribution : Distribution Uid Value X) : Prop :=
  ∃ lists, distribution.outputs = some lists ∧ lists.length = numberOfRuns ∧
    ∀ (run : Nat) (own : List (MeasurerOutput Uid Value)), lists[run]? = some own →
      OwnOutputs distribution.calculator (outputsOfRun results run) own

/-- Whatever the measurer sets are, the right measurement is built; and if its measurers have
distinct ids and return their outputs, the value of each CPU is computed from its own. -/
structure UsesRightCpus (Value : Type) : Prop where
  builds : ∀ sets, build cpus (controller.kernels cpus) sets =
    .ok (rightMeasurement controller cpus sets)
  reports : ((allRequiredMeasurers (controller.calculatorGroups cpus)).map Measurer.uid).Nodup →
    ∀ (facility : Nat → Measurement Kernel Uid → Nat → MeasurementResult Uid Value),
      ReturnsOutputs measurerSets facility → ∀ numberOfRuns,
        ∃ result, controller.measure cpus facility numberOfRuns =
            .ok (cpus.mapIdx (ownDistribution controller cpus result)) ∧
          ∀ distribution ∈ cpus.mapIdx (ownDistribution controller cpus result),
            HasOwnOutputs (measurementResults (fun _ => rightMeasurement controller cpus) facility
              numberOfRuns (controller.calculatorGroups cpus)) numberOfRuns distribution

/-- The number of each CPU is its position. -/
def IsPositions : Prop :=
  ∀ (position : Nat) (cpu : Int), cpus[position]? = some cpu → cpu = position

end RightCpus

/-! ## The sets of the workloads -/

section Sets

variable {Key Uid : Type} [DecidableEq Key] [DecidableEq Uid]

omit [DecidableEq Uid] in
/-- A map that has some of the keys, in their order. -/
theorem filterMap_lookup {keys : List Key} (hkeys : keys.Nodup) {sets : SetMap Key Uid}
    (hsets : (sets.map Prod.fst).Sublist keys) :
    keys.filterMap (lookup sets) = sets.map Prod.snd := by
  induction keys generalizing sets with
  | nil =>
      obtain rfl : sets = [] := List.map_eq_nil_iff.mp (List.sublist_nil.mp hsets)
      rfl
  | cons key keys ih =>
      rw [List.nodup_cons] at hkeys
      cases sets with
      | nil =>
          simp [lookup]
      | cons entry sets =>
          rcases entry with ⟨first, set⟩
          rw [List.map_cons] at hsets
          rcases List.cons_sublist_cons'.mp hsets with hlater | ⟨rfl, hrest⟩
          · have hall : (((first, set) :: sets).map Prod.fst).Sublist keys := hlater
            have hnone : lookup ((first, set) :: sets) key = none := by
              rw [lookup, Option.map_eq_none_iff, List.find?_eq_none]
              intro other hother hsame
              rw [decide_eq_true_eq] at hsame
              refine hkeys.1 (hsame ▸ hall.subset ?_)
              exact List.mem_map_of_mem hother
            rw [List.filterMap_cons_none hnone, ih hkeys.2 hall]
          · have hsome : lookup ((first, set) :: sets) first = some set := by
              simp [lookup]
            rw [List.filterMap_cons_some hsome, List.map_cons, ← ih hkeys.2 hrest]
            congr 1
            refine List.filterMap_congr fun other hother => ?_
            have hne : first ≠ other := by
              rintro rfl
              exact hkeys.1 hother
            simp [lookup, hne]

omit [DecidableEq Uid] in
/-- The keys of a measurement are those of the groups that have a set left. -/
theorem keys_setsForMeasurements_sublist {calculatorGroups : Groups Key Uid}
    (hkeys : (calculatorGroups.map Prod.fst).Nodup) {sets : SetMap Key Uid}
    (hsets : sets ∈ setsForMeasurements calculatorGroups) :
    (sets.map Prod.fst).Sublist (calculatorGroups.map Prod.fst) := by
  have hkeys' : ((calculatorGroups.map fun entry =>
      (entry.1, buildSets (requiredMeasurers entry.2))).map Prod.fst).Nodup := by
    rwa [List.map_map]
  rw [setsForMeasurements, setsForMeasurementsFrom_eq] at hsets
  rcases List.mem_map.mp hsets with ⟨idx, -, rfl⟩
  rw [setsForMeasurement_eq hkeys']
  clear hsets hkeys hkeys'
  induction calculatorGroups with
  | nil => exact .slnil
  | cons group groups ih =>
      rw [List.map_cons, keyedSets, List.map_cons, Columns.column, List.flatMap_cons,
        List.map_append, List.map_cons]
      have hfirst : ((((buildSets (requiredMeasurers group.2)).map fun set =>
          (group.1, set))[idx]?.toList).map Prod.fst).Sublist [group.1] := by
        rw [List.getElem?_map]
        cases (buildSets (requiredMeasurers group.2))[idx]? with
        | none => exact List.nil_sublist _
        | some set => exact .refl _
      exact hfirst.append ih

end Sets

section RightCpus

variable {Kernel Uid Value X : Type} [DecidableEq Uid]
variable {controller : Controller Kernel Uid X} {cpus : List Int}

/-- Mapping a list that was mapped with its indices. -/
theorem map_mapIdx_eq {α β γ : Type} {f : Nat → α → β} {g : β → γ} {h : α → γ} {l : List α}
    (heq : ∀ i a, g (f i a) = h a) : (l.mapIdx f).map g = l.map h := by
  refine List.ext_getElem? fun i => ?_
  rw [List.getElem?_map, List.getElem?_mapIdx, List.getElem?_map, Option.map_map]
  exact congrArg (Option.map · l[i]?) (funext (heq i))

omit [DecidableEq Uid] in
/-- The keys of the groups of calculators. -/
theorem map_fst_calculatorGroups : (controller.calculatorGroups cpus).map Prod.fst =
    .execTime :: cpus.map SetKey.cpu := by
  rw [Controller.calculatorGroups, List.map_cons]
  exact congrArg (SetKey.execTime :: ·) (map_mapIdx_eq fun _ _ => rfl)

omit [DecidableEq Uid] in
/-- No two groups have one key. -/
theorem nodup_keys (controller : Controller Kernel Uid X) (hnodup : cpus.Nodup) :
    ((controller.calculatorGroups cpus).map Prod.fst).Nodup := by
  rw [map_fst_calculatorGroups, List.nodup_cons]
  refine ⟨by simp, hnodup.map fun i j h => ?_⟩
  cases h
  rfl

omit [DecidableEq Uid] in
/-- The right measurement has all the sets it is given. -/
theorem putsGivenSets_rightMeasurement (hnodup : cpus.Nodup) :
    PutsGivenSets (fun _ => rightMeasurement controller cpus) measurerSets
      (controller.calculatorGroups cpus) := by
  intro call sets hsets
  have hkeys := nodup_keys controller hnodup
  have hsub := keys_setsForMeasurements_sublist hkeys (List.mem_of_getElem? hsets)
  have hlookup := filterMap_lookup hkeys hsub
  have hmap : (rightWorkloads controller cpus sets).map Workload.measurerSet =
      (cpus.map SetKey.cpu).map (lookup sets) := by
    rw [List.map_map]
    exact map_mapIdx_eq fun _ _ => rfl
  have hworkloads : (rightWorkloads controller cpus sets).filterMap Workload.measurerSet =
      (cpus.map SetKey.cpu).filterMap (lookup sets) := by
    have hids := congrArg (List.filterMap id) hmap
    rwa [List.filterMap_map, List.filterMap_map] at hids
  rw [map_fst_calculatorGroups, List.filterMap_cons] at hlookup
  change ((lookup sets .execTime).toList ++
    (rightWorkloads controller cpus sets).filterMap Workload.measurerSet).Perm _
  rw [hworkloads, ← hlookup]
  cases lookup sets .execTime with
  | none => exact .refl _
  | some set => exact .refl _

/-! ## Positions and numbers -/

/-- What is found at a position. -/
theorem getAt_natCast {α : Type} {values : List α} {position : Nat} {value : α} :
    getAt values (position : Int) = .ok value ↔ values[position]? = some value := by
  rw [getAt, if_neg (by omega), Int.toNat_natCast]
  cases values[position]? with
  | none => simp
  | some found => simp

/-- What is found at the number of a CPU is the CPU itself only at its position. -/
theorem eq_position_of_getAt (hnodup : cpus.Nodup) {position : Nat} {cpu : Int}
    (hcpu : cpus[position]? = some cpu) (hget : getAt cpus cpu = .ok cpu) : cpu = position := by
  by_cases hneg : cpu < 0
  · rw [getAt, if_pos hneg] at hget
    cases hget
  · obtain ⟨number, rfl⟩ := Int.eq_ofNat_of_zero_le (Int.not_lt.mp hneg)
    have hfound := getAt_natCast.mp hget
    have hlt := (List.getElem?_eq_some_iff.mp hcpu).1
    have hsame := (List.getElem?_inj hlt hnodup).mp (hcpu.trans hfound.symm)
    rw [hsame]

omit [DecidableEq Uid] in
/-- If the right measurement is built, the number of each CPU is its position. -/
theorem isPositions_of_builds (hnodup : cpus.Nodup)
    (hbuilds : ∀ sets, build cpus (controller.kernels cpus) sets =
      .ok (rightMeasurement controller cpus sets)) : IsPositions cpus := by
  intro position cpu hcpu
  rcases bind_eq_ok.mp (hbuilds []) with ⟨workloads, hworkloads, h⟩
  have hright : workloads = rightWorkloads controller cpus [] :=
    congrArg Measurement.workloads (Except.ok.inj h)
  rw [hright, rightWorkloads, mapM_eq_mapIdx_iff] at hworkloads
  rcases bind_eq_ok.mp (hworkloads position cpu hcpu) with ⟨kernel, -, h⟩
  rcases bind_eq_ok.mp h with ⟨pinned, hpinned, h⟩
  have hsame : pinned = cpu := congrArg Workload.cpu (Except.ok.inj h)
  rw [hsame] at hpinned
  exact eq_position_of_getAt hnodup hcpu hpinned

variable (controller)

omit [DecidableEq Uid] in
/-- The kernel at the position of a CPU. -/
theorem getElem?_kernels {position : Nat} {cpu : Int} (hcpu : cpus[position]? = some cpu) :
    (controller.kernels cpus)[position]? = some (controller.createKernel position) := by
  rw [Controller.kernels, List.getElem?_mapIdx, hcpu]
  rfl

omit [DecidableEq Uid] in
/-- The calculator at the position of a CPU. -/
theorem getElem?_calcs {position : Nat} {cpu : Int} (hcpu : cpus[position]? = some cpu) :
    (controller.calcs cpus)[position]? = some (controller.calculator position) := by
  rw [Controller.calcs, List.getElem?_mapIdx, hcpu]
  rfl

omit [DecidableEq Uid] in
/-- If the CPUs are numbered by their positions, the right measurement is built. -/
theorem build_of_isPositions (h : IsPositions cpus) (sets : SetMap SetKey Uid) :
    build cpus (controller.kernels cpus) sets = .ok (rightMeasurement controller cpus sets) := by
  refine bind_eq_ok.mpr ⟨rightWorkloads controller cpus sets, mapM_eq_mapIdx_iff.mpr ?_, rfl⟩
  intro position cpu hcpu
  obtain rfl := h position cpu hcpu
  have hkernel := getAt_natCast.mpr (getElem?_kernels controller hcpu)
  exact bind_eq_ok.mpr ⟨_, hkernel, bind_eq_ok.mpr ⟨_, getAt_natCast.mpr hcpu, rfl⟩⟩

omit [DecidableEq Uid] in
/-- Then the distributions are the right ones too. -/
theorem distributions_of_isPositions (h : IsPositions cpus) (result : QuantityMap Uid Value) :
    controller.distributions cpus result =
      .ok (cpus.mapIdx (ownDistribution controller cpus result)) := by
  refine mapM_eq_mapIdx_iff.mpr ?_
  intro position cpu hcpu
  obtain rfl := h position cpu hcpu
  have hkernel := getAt_natCast.mpr (getElem?_kernels controller hcpu)
  have hcalculator := getAt_natCast.mpr (getElem?_calcs controller hcpu)
  exact bind_eq_ok.mpr ⟨_, hkernel, bind_eq_ok.mpr ⟨_, hcalculator, rfl⟩⟩

variable {controller}

/-- A builder that does not throw is one for the quantity measuring service. -/
theorem getQuantities_eq {build : SetMap SetKey Uid → Except Throwable (Measurement Kernel Uid)}
    {right : SetMap SetKey Uid → Measurement Kernel Uid}
    {facility : Nat → Measurement Kernel Uid → Nat → MeasurementResult Uid Value}
    {numberOfRuns : Nat} {calculatorGroups : Groups SetKey Uid} {result : QuantityMap Uid Value}
    (hbuild : ∀ sets, build sets = .ok (right sets))
    (hresult : mesaureQuantities (fun _ => right) facility numberOfRuns calculatorGroups =
      some result) :
    getQuantities build facility numberOfRuns calculatorGroups = .ok result := by
  refine bind_eq_ok.mpr ⟨_, mapM_eq_ok fun sets _ => hbuild sets, ?_⟩
  rcases Option.bind_eq_some_iff.mp hresult with ⟨combinedResults, hcombined, h⟩
  have hmap : (setsForMeasurements calculatorGroups).map right =
      executedMeasurements (fun _ => right) calculatorGroups := by
    rw [executedMeasurements]
    exact (List.ext_getElem? fun i => by rw [List.getElem?_map, List.getElem?_mapIdx])
  rw [measurementResults, ← hmap] at hcombined
  dsimp only
  rw [hcombined]
  exact congrArg Except.ok (Option.some.inj h)

/-- Then each set gets its own outputs. -/
theorem ownOutputs_of_isPositions (hnodup : cpus.Nodup) (h : IsPositions cpus)
    (hdistinct : ((allRequiredMeasurers (controller.calculatorGroups cpus)).map
      Measurer.uid).Nodup)
    {facility : Nat → Measurement Kernel Uid → Nat → MeasurementResult Uid Value}
    (hfacility : ReturnsOutputs measurerSets facility) (numberOfRuns : Nat) :
    ∃ result, controller.measure cpus facility numberOfRuns =
        .ok (cpus.mapIdx (ownDistribution controller cpus result)) ∧
      ∀ distribution ∈ cpus.mapIdx (ownDistribution controller cpus result),
        HasOwnOutputs (measurementResults (fun _ => rightMeasurement controller cpus) facility
          numberOfRuns (controller.calculatorGroups cpus)) numberOfRuns distribution := by
  have hcomplete := measuresCompletely numberOfRuns (nodup_keys controller hnodup) hdistinct
    (putsGivenSets_rightMeasurement hnodup) hfacility
  rcases hcomplete.outputs with ⟨result, hresult, houtputs⟩
  refine ⟨result, ?_, fun distribution hdistribution => ?_⟩
  · exact bind_eq_ok.mpr ⟨result, getQuantities_eq (build_of_isPositions controller h) hresult,
      distributions_of_isPositions controller h result⟩
  · rcases List.mem_mapIdx.mp hdistribution with ⟨position, hposition, rfl⟩
    refine houtputs (.cpu cpus[position], [controller.calculator position]) ?_ _
      List.mem_cons_self
    exact List.mem_cons_of_mem _ (List.mem_mapIdx.mpr ⟨position, hposition, rfl⟩)

/-- Each CPU gets its own kernel, measurers and value exactly if the number of each CPU is its
position in the list. -/
theorem usesRightCpus_iff (Value : Type) (hnodup : cpus.Nodup) :
    UsesRightCpus controller cpus Value ↔ IsPositions cpus := by
  constructor
  · exact fun h => isPositions_of_builds hnodup h.builds
  · intro h
    constructor
    case builds => exact build_of_isPositions controller h
    case reports =>
      intro hdistinct facility hfacility
      exact ownOutputs_of_isPositions hnodup h hdistinct hfacility

/-- The kernels are numbered, and each calculator has a timer. -/
def timers : Controller Nat Nat Unit where
  execTimeCalc := .terminal ⟨0, false⟩
  createKernel position := position
  createCalculator kernel := .terminal ⟨kernel + 1, false⟩
  getLabel _ := "kernel"
  getX _ := ()
  getHistogramName _ := none

/-- Timers on the first two CPUs. -/
theorem usesRightCpus_timers : [(0 : Int), 1].Nodup ∧ UsesRightCpus timers [0, 1] Nat := by
  refine ⟨by decide, (usesRightCpus_iff Nat (by decide)).mpr ?_⟩
  intro position cpu hcpu
  match position, hcpu with
  | 0, rfl => rfl
  | 1, rfl => rfl

/-- With CPU 1 offline, the number of CPU 2 is no position. -/
theorem not_usesRightCpus_timers : ¬UsesRightCpus timers [0, 2] Nat := by
  intro h
  have hbuild := h.builds []
  have hthrows : build [0, 2] (timers.kernels [0, 2]) ([] : SetMap SetKey Nat) =
      .error .indexOutOfBoundsException := rfl
  rw [hthrows] at hbuild
  cases hbuild

end RightCpus

end DistributionController
end Quantities
end Roofline
