import Mathlib.Logic.Function.Basic
import Roofline.Library.Columns

/-!
# Measuring quantities

The measurers that the quantity calculators of all groups require are distributed over measurer
sets, as only two performance events can be counted at the same time; the sets of the groups are
combined to measurements, and the outputs are given back to the calculators they belong to.

Main results:

- Theorem {lit}`getMeasurers_buildSets_perm`: each measurer is in one of the sets that are built.
- Theorem {lit}`perfEvents_buildSets_le`: no set has too many performance events.
- Theorem {lit}`scheduled_perm`: each required measurer is scheduled.
-/

namespace Roofline
namespace Quantities

open Columns

/-! ## Measurers, outputs and calculators -/

section Entities

variable (Uid Value : Type)

/-- A measurer, known by its unique id. -/
structure Measurer where
  uid : Uid
  isPerfEventMeasurer : Bool
deriving DecidableEq

/-- A set of measurers that are started and stopped together. -/
structure MeasurerSet where
  mainMeasurer : Option (Measurer Uid)
  additionalMeasurers : List (Measurer Uid)
  validationMeasurers : List (Measurer Uid)

/-- The output of a measurer, told by the uid of the measurer. -/
structure MeasurerOutput where
  measurerUid : Uid
  value : Value

/-- The outputs of the measurers of a set. -/
structure MeasurerSetOutput where
  mainMeasurerOutput : Option (MeasurerOutput Uid Value)
  additionalMeasurerOutputs : List (MeasurerOutput Uid Value)
  validationMeasurerOutputs : List (MeasurerOutput Uid Value)

/-- The outputs of one run, for each measurer set. -/
abbrev MeasurementRunOutput := List (MeasurerSetOutput Uid Value)

/-- The run outputs of a result. -/
abbrev MeasurementResult := List (MeasurementRunOutput Uid Value)

/-- A calculator, as a tree of calculators; a terminal one requires a measurer. -/
inductive QuantityCalculator where
  | terminal (requiredMeasurer : Measurer Uid)
  | combining (left right : QuantityCalculator)
  | multiplying (inner : QuantityCalculator)
deriving DecidableEq

end Entities

variable {Uid Value Key Measurement : Type}

/-- A new set. -/
def MeasurerSet.empty : MeasurerSet Uid :=
  ⟨none, [], []⟩

/-- All measurers of a set. -/
def MeasurerSet.getMeasurers (set : MeasurerSet Uid) : List (Measurer Uid) :=
  set.mainMeasurer.toList ++ set.additionalMeasurers ++ set.validationMeasurers

/-- Add a measurer to the additional ones. -/
def MeasurerSet.addMeasurer (set : MeasurerSet Uid) (measurer : Measurer Uid) : MeasurerSet Uid :=
  { set with additionalMeasurers := set.additionalMeasurers ++ [measurer] }

/-- All outputs of a set. -/
def MeasurerSetOutput.getMeasurerOutputs (output : MeasurerSetOutput Uid Value) :
    List (MeasurerOutput Uid Value) :=
  output.mainMeasurerOutput.toList ++ output.additionalMeasurerOutputs ++
    output.validationMeasurerOutputs

/-- {lit}`getMeasurerOutputs` of a run. -/
def getMeasurerOutputs (output : MeasurementRunOutput Uid Value) :
    List (MeasurerOutput Uid Value) :=
  output.flatMap MeasurerSetOutput.getMeasurerOutputs

namespace QuantityCalculator

/-- The measurers of the terminal calculators. -/
def getRequiredMeasurers : QuantityCalculator Uid → List (Measurer Uid)
  | terminal requiredMeasurer => [requiredMeasurer]
  | combining left right => left.getRequiredMeasurers ++ right.getRequiredMeasurers
  | multiplying inner => inner.getRequiredMeasurers

/-- The output comes from a measurer that the calculator requires. -/
def isFromRequiredMeasurer [DecidableEq Uid] (calculator : QuantityCalculator Uid)
    (output : MeasurerOutput Uid Value) : Bool :=
  calculator.getRequiredMeasurers.any fun measurer => measurer.uid = output.measurerUid

end QuantityCalculator

/-! ## Building measurer sets -/

/-- The variables of the loop over the performance events. -/
structure SetBuilder (Uid : Type) where
  result : List (MeasurerSet Uid)
  set : MeasurerSet Uid
  perfEventMeasurerCount : Nat

/-- The first set holds all other measurers. -/
def SetBuilder.start (measurers : List (Measurer Uid)) : SetBuilder Uid :=
  ⟨[], ⟨none, measurers.filter fun measurer => !measurer.isPerfEventMeasurer, []⟩, 0⟩

/-- Add a measurer; a set with two events is full, and a new one is begun. -/
def SetBuilder.add (builder : SetBuilder Uid) (measurer : Measurer Uid) : SetBuilder Uid :=
  let set := builder.set.addMeasurer measurer
  if builder.perfEventMeasurerCount + 1 = 2 then
    ⟨builder.result ++ [set], .empty, 0⟩
  else
    ⟨builder.result, set, builder.perfEventMeasurerCount + 1⟩

/-- The last set is added if it is not empty. -/
def SetBuilder.finish (builder : SetBuilder Uid) : List (MeasurerSet Uid) :=
  if builder.set.additionalMeasurers.length > 0 then builder.result ++ [builder.set]
  else builder.result

/-- The sets that are built for the measurers: all others are in the first one, and no set has
more than two events. -/
def buildSets (measurers : List (Measurer Uid)) : List (MeasurerSet Uid) :=
  ((measurers.filter (·.isPerfEventMeasurer)).foldl SetBuilder.add (.start measurers)).finish

/-! ## Measuring -/

section Measuring

/-- The number of measurer sets of the group with the most sets. -/
def mostSets (measurerSets : List (Key × List (MeasurerSet Uid))) : Nat :=
  (measurerSets.map fun pair => pair.2.length).foldr max 0

/-- The loop over the sets goes on as long as a list has a set at the index. -/
theorem any_length_iff {measurerSets : List (Key × List (MeasurerSet Uid))} {idx : Nat} :
    measurerSets.any (fun pair => pair.2.length > idx) = true ↔ idx < mostSets measurerSets := by
  induction measurerSets with
  | nil => simp [mostSets]
  | cons pair rest ih =>
      simp only [List.any_cons, Bool.or_eq_true, decide_eq_true_eq, ih]
      simp only [mostSets, List.map_cons, List.foldr_cons]
      omega

variable [DecidableEq Uid] [DecidableEq Key]

/-- A map from the keys of the groups to measurer sets, as its entries. -/
abbrev SetMap (Key Uid : Type) := List (Key × MeasurerSet Uid)

/-- {lit}`put` of a map. -/
def SetMap.put (map : SetMap Key Uid) (key : Key) (set : MeasurerSet Uid) : SetMap Key Uid :=
  map.filter (fun entry => entry.1 ≠ key) ++ [(key, set)]

/-- The measurer sets of the groups at one index. -/
def setsForMeasurement (measurerSets : List (Key × List (MeasurerSet Uid))) (idx : Nat) :
    SetMap Key Uid :=
  measurerSets.foldl (fun map pair =>
    match pair.2[idx]? with
    | some set => map.put pair.1 set
    | none => map) []

/-- The loop that goes on as long as a group has a measurer set at the index. -/
def setsForMeasurementsFrom (measurerSets : List (Key × List (MeasurerSet Uid))) (idx : Nat) :
    List (SetMap Key Uid) :=
  if measurerSets.any (fun pair => pair.2.length > idx) then
    setsForMeasurement measurerSets idx :: setsForMeasurementsFrom measurerSets (idx + 1)
  else
    []
termination_by mostSets measurerSets - idx
decreasing_by
  have hlt := any_length_iff.mp ‹_›
  omega

/-- The groups: a key and its calculators. -/
abbrev Groups (Key Uid : Type) := List (Key × List (QuantityCalculator Uid))

/-- The measurers that some calculators require. -/
def requiredMeasurers (calculators : List (QuantityCalculator Uid)) : List (Measurer Uid) :=
  calculators.flatMap QuantityCalculator.getRequiredMeasurers

/-- For each measurement the measurer sets that are measured in it. -/
def setsForMeasurements (calculatorGroups : Groups Key Uid) : List (SetMap Key Uid) :=
  setsForMeasurementsFrom
    (calculatorGroups.map fun entry => (entry.1, buildSets (requiredMeasurers entry.2))) 0

/-- The outputs of one run of all measurements; a missing run is out of bounds. -/
def combineRun (results : List (MeasurementResult Uid Value)) (idx : Nat) :
    Option (List (MeasurerOutput Uid Value)) :=
  match results with
  | [] => some []
  | result :: results => do
      let runOutput ← result[idx]?
      let rest ← combineRun results idx
      return getMeasurerOutputs runOutput ++ rest

/-- The outputs of several runs, each combined from all results. -/
def combineRuns (results : List (MeasurementResult Uid Value)) :
    List Nat → Option (List (List (MeasurerOutput Uid Value)))
  | [] => some []
  | idx :: indices => do
      let outputs ← combineRun results idx
      let rest ← combineRuns results indices
      return outputs :: rest

/-- From the calculators to their outputs, a list for each run. -/
abbrev QuantityMap (Uid Value : Type) :=
  QuantityCalculator Uid → Option (List (List (MeasurerOutput Uid Value)))

/-- The outputs a calculator is given. -/
def filteredRunOutputs (calculator : QuantityCalculator Uid)
    (combinedResults : List (List (MeasurerOutput Uid Value))) :
    List (List (MeasurerOutput Uid Value)) :=
  combinedResults.map fun measurerOutputs => measurerOutputs.filter
    calculator.isFromRequiredMeasurer

/-- The outputs of all runs, filtered for each calculator. -/
def resultMap (calculatorGroups : Groups Key Uid)
    (combinedResults : List (List (MeasurerOutput Uid Value))) : QuantityMap Uid Value :=
  calculatorGroups.foldl (fun map pair =>
    pair.2.foldl (fun map calculator =>
      Function.update map calculator (some (filteredRunOutputs calculator combinedResults))) map)
    fun _ => none

/-- The measurement builder and the measurement facility may act differently each time they are
called; their first argument counts the calls. -/
def executedMeasurements (build : Nat → SetMap Key Uid → Measurement)
    (calculatorGroups : Groups Key Uid) : List Measurement :=
  (setsForMeasurements calculatorGroups).mapIdx build

/-- The results of all measurements. -/
def measurementResults (build : Nat → SetMap Key Uid → Measurement)
    (measure : Nat → Measurement → Nat → MeasurementResult Uid Value) (numberOfRuns : Nat)
    (calculatorGroups : Groups Key Uid) : List (MeasurementResult Uid Value) :=
  (executedMeasurements build calculatorGroups).mapIdx fun call measurement =>
    measure call measurement numberOfRuns

/-- Measure everything that the calculators require, and give each calculator the outputs of its own
measurers. -/
def mesaureQuantities (build : Nat → SetMap Key Uid → Measurement)
    (measure : Nat → Measurement → Nat → MeasurementResult Uid Value) (numberOfRuns : Nat)
    (calculatorGroups : Groups Key Uid) : Option (QuantityMap Uid Value) := do
  let results := measurementResults build measure numberOfRuns calculatorGroups
  let combinedResults ← combineRuns results (List.range numberOfRuns)
  return resultMap calculatorGroups combinedResults

end Measuring

/-! ## The sets that are built -/

section Sets

/-- A new set has no measurer. -/
@[simp] theorem getMeasurers_empty : (MeasurerSet.empty : MeasurerSet Uid).getMeasurers = [] :=
  rfl

/-- Adding a measurer adds it to all measurers of the set. -/
theorem getMeasurers_addMeasurer_perm (set : MeasurerSet Uid) (measurer : Measurer Uid) :
    (set.addMeasurer measurer).getMeasurers.Perm (set.getMeasurers ++ [measurer]) := by
  simp only [MeasurerSet.getMeasurers, MeasurerSet.addMeasurer, List.append_assoc]
  exact (List.perm_append_comm.append_left _).append_left _

/-- The number of performance events of a set. -/
def perfEvents (set : MeasurerSet Uid) : Nat :=
  set.getMeasurers.countP (·.isPerfEventMeasurer)

namespace SetBuilder

/-- The measurers that were added so far. -/
def measurers (builder : SetBuilder Uid) : List (Measurer Uid) :=
  builder.result.flatMap MeasurerSet.getMeasurers ++ builder.set.getMeasurers

/-- Adding a measurer to the builder loses none. -/
theorem measurers_add_perm (builder : SetBuilder Uid) (measurer : Measurer Uid) :
    (builder.add measurer).measurers.Perm (builder.measurers ++ [measurer]) := by
  have hset := getMeasurers_addMeasurer_perm builder.set measurer
  unfold add
  split
  · simp only [measurers, List.flatMap_append, List.flatMap_singleton, getMeasurers_empty,
      List.append_nil, List.append_assoc]
    exact hset.append_left _
  · simp only [measurers, List.append_assoc]
    exact hset.append_left _

/-- The loop adds all measurers and loses none. -/
theorem measurers_foldl_perm (measurers : List (Measurer Uid)) (builder : SetBuilder Uid) :
    (measurers.foldl add builder).measurers.Perm (builder.measurers ++ measurers) := by
  induction measurers generalizing builder with
  | nil => simp
  | cons measurer measurers ih =>
      apply (ih (builder.add measurer)).trans
      apply ((builder.measurers_add_perm measurer).append_right measurers).trans
      rw [List.append_assoc, List.singleton_append]

/-- The sets that are complete have at most two performance events, and the current one has as
many as were counted.  It holds additional measurers only. -/
structure Bounded (builder : SetBuilder Uid) : Prop where
  result : ∀ set ∈ builder.result, perfEvents set ≤ 2
  set : perfEvents builder.set = builder.perfEventMeasurerCount
  count : builder.perfEventMeasurerCount < 2
  mainMeasurer : builder.set.mainMeasurer = none
  validationMeasurers : builder.set.validationMeasurers = []

/-- Adding an event keeps the bounds. -/
theorem Bounded.add {builder : SetBuilder Uid} (h : builder.Bounded) {measurer : Measurer Uid}
    (hmeasurer : measurer.isPerfEventMeasurer = true) : (builder.add measurer).Bounded := by
  have hcount : perfEvents (builder.set.addMeasurer measurer) =
      builder.perfEventMeasurerCount + 1 := by
    rw [perfEvents, (getMeasurers_addMeasurer_perm _ _).countP_eq, List.countP_append,
      List.countP_singleton, if_pos hmeasurer, ← h.set, perfEvents]
  unfold SetBuilder.add
  split
  · constructor
    case result =>
      intro set hset
      rcases List.mem_append.mp hset with hset | hset
      · exact h.result set hset
      · rw [List.mem_singleton.mp hset, hcount]
        omega
    case set => rfl
    case count => exact Nat.zero_lt_two
    case mainMeasurer => rfl
    case validationMeasurers => rfl
  · have hlt := h.count
    exact ⟨h.result, hcount, by dsimp only; omega, h.mainMeasurer, h.validationMeasurers⟩

/-- The loop over the events keeps the bounds. -/
theorem Bounded.foldl {measurers : List (Measurer Uid)}
    (hmeasurers : ∀ measurer ∈ measurers, measurer.isPerfEventMeasurer = true)
    {builder : SetBuilder Uid} (h : builder.Bounded) :
    (measurers.foldl SetBuilder.add builder).Bounded := by
  induction measurers generalizing builder with
  | nil => exact h
  | cons measurer measurers ih =>
      rw [List.forall_mem_cons] at hmeasurers
      exact ih hmeasurers.2 (h.add hmeasurers.1)

/-- A last set that is not added holds no measurer. -/
theorem Bounded.measurers_finish {builder : SetBuilder Uid} (h : builder.Bounded) :
    builder.finish.flatMap MeasurerSet.getMeasurers = builder.measurers := by
  unfold finish
  split
  · simp only [measurers, List.flatMap_append, List.flatMap_singleton]
  · rename_i hempty
    have hadditional : builder.set.additionalMeasurers = [] := by
      rw [← List.length_eq_zero_iff]
      omega
    rw [measurers, MeasurerSet.getMeasurers, h.mainMeasurer, hadditional, h.validationMeasurers]
    simp

/-- No set that the builder has made counts more than two events. -/
theorem Bounded.perfEvents_finish_le {builder : SetBuilder Uid} (h : builder.Bounded)
    {set : MeasurerSet Uid} (hset : set ∈ builder.finish) : perfEvents set ≤ 2 := by
  unfold finish at hset
  split at hset
  · rcases List.mem_append.mp hset with hset | hset
    · exact h.result set hset
    · rw [List.mem_singleton.mp hset, h.set]
      exact Nat.le_of_lt h.count
  · exact h.result set hset

end SetBuilder

/-- The bounds hold before the loop. -/
theorem bounded_start (measurers : List (Measurer Uid)) : (SetBuilder.start measurers).Bounded where
  result _ hset := absurd hset List.not_mem_nil
  set := by
    simp only [perfEvents, MeasurerSet.getMeasurers, SetBuilder.start, Option.toList_none,
      List.nil_append, List.append_nil]
    rw [List.countP_eq_zero]
    intro measurer hmem
    simpa using (List.mem_filter.mp hmem).2
  count := Nat.zero_lt_two
  mainMeasurer := rfl
  validationMeasurers := rfl

/-- The bounds hold after the loop. -/
theorem bounded_loop (measurers : List (Measurer Uid)) :
    ((measurers.filter (·.isPerfEventMeasurer)).foldl SetBuilder.add (.start measurers)).Bounded :=
  (bounded_start measurers).foldl fun _ hmem => (List.mem_filter.mp hmem).2

/-- Each measurer is in one of the sets that are built. -/
theorem getMeasurers_buildSets_perm (measurers : List (Measurer Uid)) :
    ((buildSets measurers).flatMap MeasurerSet.getMeasurers).Perm measurers := by
  rw [buildSets, (bounded_loop measurers).measurers_finish]
  apply (SetBuilder.measurers_foldl_perm _ _).trans
  simp only [SetBuilder.measurers, SetBuilder.start, MeasurerSet.getMeasurers, List.flatMap_nil,
    Option.toList_none, List.nil_append, List.append_nil]
  exact List.perm_append_comm.trans (List.filter_append_perm _ measurers)

/-- No set has too many performance events. -/
theorem perfEvents_buildSets_le {measurers : List (Measurer Uid)} {set : MeasurerSet Uid}
    (h : set ∈ buildSets measurers) : perfEvents set ≤ 2 :=
  (bounded_loop measurers).perfEvents_finish_le h

end Sets

/-! ## The schedule -/

section Schedule

variable [DecidableEq Key] {measurerSets : List (Key × List (MeasurerSet Uid))}

/-- A key that is not in the map is put at its end. -/
theorem put_of_forall_ne {map : SetMap Key Uid} {key : Key} (h : ∀ entry ∈ map, entry.1 ≠ key)
    (set : MeasurerSet Uid) : map.put key set = map ++ [(key, set)] := by
  have hfilter : map.filter (fun entry => entry.1 ≠ key) = map :=
    List.filter_eq_self.mpr fun entry hmem => decide_eq_true (h entry hmem)
  rw [SetMap.put, hfilter]

/-- The sets of each group, with its key. -/
def keyedSets (measurerSets : List (Key × List (MeasurerSet Uid))) :
    List (List (Key × MeasurerSet Uid)) :=
  measurerSets.map fun pair => pair.2.map fun set => (pair.1, set)

/-- With distinct keys no set is overwritten. -/
theorem setsForMeasurement_eq (h : (measurerSets.map Prod.fst).Nodup) (idx : Nat) :
    setsForMeasurement measurerSets idx = column (keyedSets measurerSets) idx := by
  have hfold : ∀ map : SetMap Key Uid,
      (∀ entry ∈ map, ∀ pair ∈ measurerSets, entry.1 ≠ pair.1) →
      measurerSets.foldl (fun map pair =>
        match pair.2[idx]? with
        | some set => map.put pair.1 set
        | none => map) map = map ++ column (keyedSets measurerSets) idx := by
    induction measurerSets with
    | nil =>
        intro map _
        simp [keyedSets, column]
    | cons pair rest ih =>
        intro map hmap
        rw [List.map_cons, List.nodup_cons] at h
        have hcolumn : column (keyedSets (pair :: rest)) idx =
            (pair.2[idx]?.map fun set => (pair.1, set)).toList ++ column (keyedSets rest) idx := by
          simp [keyedSets, column]
        rw [List.foldl_cons, hcolumn]
        cases hset : pair.2[idx]? with
        | none =>
            rw [ih h.2 map fun entry hentry pair' hpair' =>
              hmap entry hentry pair' (List.mem_cons_of_mem pair hpair')]
            rfl
        | some set =>
            dsimp only
            rw [put_of_forall_ne fun entry hentry => hmap entry hentry pair List.mem_cons_self,
              ih h.2]
            · simp
            · intro entry hentry pair' hpair'
              rcases List.mem_append.mp hentry with hentry | hentry
              · exact hmap entry hentry pair' (List.mem_cons_of_mem pair hpair')
              · rw [List.mem_singleton.mp hentry]
                intro heq
                exact h.1 (List.mem_map.mpr ⟨pair', hpair', heq.symm⟩)
  rw [setsForMeasurement, hfold [] fun entry hentry => absurd hentry List.not_mem_nil,
    List.nil_append]

/-- The loop runs up to the number of sets of the group with the most sets. -/
theorem setsForMeasurementsFrom_eq (idx : Nat) :
    setsForMeasurementsFrom measurerSets idx =
      (List.range' idx (mostSets measurerSets - idx)).map (setsForMeasurement measurerSets) := by
  induction hn : mostSets measurerSets - idx generalizing idx with
  | zero =>
      have hdone : ¬measurerSets.any (fun pair => pair.2.length > idx) = true := by
        rw [any_length_iff]
        omega
      rw [setsForMeasurementsFrom, if_neg hdone]
      rfl
  | succ n ih =>
      have hmore : measurerSets.any (fun pair => pair.2.length > idx) = true := by
        rw [any_length_iff]
        omega
      rw [setsForMeasurementsFrom, if_pos hmore, ih (idx + 1) (by omega), List.range'_succ,
        List.map_cons]

omit [DecidableEq Key] in
/-- No row is longer than the longest. -/
theorem length_le_mostSets {row : List (Key × MeasurerSet Uid)}
    (h : row ∈ keyedSets measurerSets) : row.length ≤ mostSets measurerSets := by
  rcases List.mem_map.mp h with ⟨pair, hpair, rfl⟩
  rw [List.length_map]
  by_contra hlt
  have hany : measurerSets.any (fun pair => pair.2.length > mostSets measurerSets) = true :=
    List.any_eq_true.mpr ⟨pair, hpair, decide_eq_true (Nat.not_le.mp hlt)⟩
  exact absurd (any_length_iff.mp hany) (Nat.lt_irrefl _)

/-- All sets are measured. -/
theorem flatten_setsForMeasurementsFrom_perm (h : (measurerSets.map Prod.fst).Nodup) :
    (setsForMeasurementsFrom measurerSets 0).flatten.Perm (keyedSets measurerSets).flatten := by
  rw [setsForMeasurementsFrom_eq, Nat.sub_zero, ← List.range_eq_range', ← List.flatMap_def,
    funext (setsForMeasurement_eq h)]
  exact flatMap_column_perm fun row hrow => length_le_mostSets hrow

variable {calculatorGroups : Groups Key Uid}

/-- The measurers all calculators require. -/
def allRequiredMeasurers (calculatorGroups : Groups Key Uid) : List (Measurer Uid) :=
  calculatorGroups.flatMap fun entry => requiredMeasurers entry.2

/-- The measurers of the sets of a measurement. -/
def scheduledMeasurers (map : SetMap Key Uid) : List (Measurer Uid) :=
  map.flatMap fun entry => entry.2.getMeasurers

/-- Each required measurer is scheduled. -/
theorem scheduled_perm (hkeys : (calculatorGroups.map Prod.fst).Nodup) :
    ((setsForMeasurements calculatorGroups).flatMap scheduledMeasurers).Perm
      (allRequiredMeasurers calculatorGroups) := by
  have hflatten : (setsForMeasurements calculatorGroups).flatMap scheduledMeasurers =
      (setsForMeasurements calculatorGroups).flatten.flatMap fun entry =>
        entry.2.getMeasurers := by
    rw [← List.flatMap_id, List.flatMap_assoc]
    rfl
  rw [hflatten]
  refine ((flatten_setsForMeasurementsFrom_perm ?_).flatMap_right _).trans ?_
  · rwa [List.map_map]
  · simp only [keyedSets, List.map_map, ← List.flatMap_def, List.flatMap_assoc, Function.comp_apply,
      List.flatMap_map]
    exact List.Perm.flatMap_left _ fun entry _ =>
      getMeasurers_buildSets_perm (requiredMeasurers entry.2)

/-- The sets of a measurement were built for one of the groups. -/
theorem perfEvents_scheduled_le (hkeys : (calculatorGroups.map Prod.fst).Nodup)
    {map : SetMap Key Uid} (hmap : map ∈ setsForMeasurements calculatorGroups)
    {entry : Key × MeasurerSet Uid} (hentry : entry ∈ map) : perfEvents entry.2 ≤ 2 := by
  have hmem : entry ∈ (setsForMeasurements calculatorGroups).flatten :=
    List.mem_flatten.mpr ⟨map, hmap, hentry⟩
  have hkeys' : ((calculatorGroups.map fun entry =>
      (entry.1, buildSets (requiredMeasurers entry.2))).map Prod.fst).Nodup := by
    rwa [List.map_map]
  rw [setsForMeasurements, (flatten_setsForMeasurementsFrom_perm hkeys').mem_iff] at hmem
  simp only [keyedSets, List.map_map, List.mem_flatten, List.mem_map] at hmem
  rcases hmem with ⟨_, ⟨group, -, rfl⟩, hmem⟩
  rcases List.mem_map.mp hmem with ⟨set, hset, rfl⟩
  exact perfEvents_buildSets_le hset

end Schedule

end Quantities
end Roofline
