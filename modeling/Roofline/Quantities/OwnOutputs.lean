import Roofline.Quantities.QuantityMeasuringService

/-!
# The outputs of a calculator's own measurers

The outputs of a run come from several measurements.  As the unique ids of the required measurers
are distinct, each calculator finds the outputs of its own measurers among them, one for each.

Main results:

- Theorem {lit}`outputsOfRun_perm`: a run has one output for each required measurer.
- Theorem {lit}`measuresCompletely`: what is scheduled, and what each calculator is given.
-/

namespace Roofline
namespace Quantities

open Columns

variable {Uid Value Key Measurement : Type}

/-! ## All outputs of a run -/

section Runs

variable {results : List (MeasurementResult Uid Value)}

/-- The outputs of one run of all measurements. -/
def outputsOfRun (results : List (MeasurementResult Uid Value)) (idx : Nat) :
    List (MeasurerOutput Uid Value) :=
  results.flatMap fun result => result[idx]?.toList.flatMap getMeasurerOutputs

/-- A run that all results contain is combined from their outputs. -/
theorem combineRun_eq {idx : Nat} (h : ∀ result ∈ results, idx < result.length) :
    combineRun results idx = some (outputsOfRun results idx) := by
  induction results with
  | nil => rfl
  | cons result results ih =>
      rw [List.forall_mem_cons] at h
      have hrun : result[idx]? = some result[idx] := List.getElem?_eq_getElem h.1
      rw [combineRun, hrun, ih h.2, outputsOfRun, outputsOfRun, List.flatMap_cons, hrun]
      simp

/-- Runs that all results contain are combined one by one. -/
theorem combineRuns_eq {indices : List Nat}
    (h : ∀ idx ∈ indices, ∀ result ∈ results, idx < result.length) :
    combineRuns results indices = some (indices.map (outputsOfRun results)) := by
  induction indices with
  | nil => rfl
  | cons idx indices ih =>
      rw [List.forall_mem_cons] at h
      rw [combineRuns, combineRun_eq h.1, ih h.2]
      rfl

end Runs

/-! ## The map of the results -/

section Map

/-- A loop of updates sets the value of each element of the list. -/
theorem foldl_update_apply {α β : Type} [DecidableEq α] (f : α → β) (l : List α) (map : α → β)
    (a : α) : l.foldl (fun map a => Function.update map a (f a)) map a =
      if a ∈ l then f a else map a := by
  induction l generalizing map with
  | nil => simp
  | cons b l ih =>
      rw [List.foldl_cons, ih]
      by_cases hmem : a ∈ l
      · simp [hmem]
      · by_cases hab : a = b
        · subst hab
          simp
        · simp [hmem, hab]

/-- Each calculator is given its filtered outputs. -/
theorem resultMap_of_mem [DecidableEq Uid] {calculatorGroups : Groups Key Uid}
    {group : Key × List (QuantityCalculator Uid)} (hgroup : group ∈ calculatorGroups)
    {calculator : QuantityCalculator Uid} (hcalculator : calculator ∈ group.2)
    (combinedResults : List (List (MeasurerOutput Uid Value))) :
    resultMap calculatorGroups combinedResults calculator =
      some (filteredRunOutputs calculator combinedResults) := by
  have hmem : calculator ∈ calculatorGroups.flatMap Prod.snd :=
    List.mem_flatMap.mpr ⟨group, hgroup, hcalculator⟩
  rw [resultMap, ← List.foldl_flatMap, foldl_update_apply, if_pos hmem]

end Map

/-! ## One output for each required measurer -/

section Outputs

variable [DecidableEq Key]
variable {build : Nat → SetMap Key Uid → Measurement}
variable {getMeasurerSets : Measurement → List (MeasurerSet Uid)}
variable {measure : Nat → Measurement → Nat → MeasurementResult Uid Value}
variable {calculatorGroups : Groups Key Uid} {numberOfRuns : Nat}

/-- The unique ids of the measurers in a measurement. -/
def measurerUids (getMeasurerSets : Measurement → List (MeasurerSet Uid))
    (measurement : Measurement) : List Uid :=
  ((getMeasurerSets measurement).flatMap MeasurerSet.getMeasurers).map Measurer.uid

/-- The builder puts exactly the given sets into the measurements. -/
def PutsGivenSets (build : Nat → SetMap Key Uid → Measurement)
    (getMeasurerSets : Measurement → List (MeasurerSet Uid))
    (calculatorGroups : Groups Key Uid) : Prop :=
  ∀ call sets, (setsForMeasurements calculatorGroups)[call]? = some sets →
    (getMeasurerSets (build call sets)).Perm (sets.map Prod.snd)

/-- The facility returns the runs it is asked for, and in each run one output for each measurer
in the measurement. -/
structure ReturnsOutputs (getMeasurerSets : Measurement → List (MeasurerSet Uid))
    (measure : Nat → Measurement → Nat → MeasurementResult Uid Value) : Prop where
  runs : ∀ call measurement numberOfRuns,
    numberOfRuns ≤ (measure call measurement numberOfRuns).length
  outputs : ∀ call measurement numberOfRuns,
    ∀ runOutput ∈ measure call measurement numberOfRuns,
      ((getMeasurerOutputs runOutput).map MeasurerOutput.measurerUid).Perm
        (measurerUids getMeasurerSets measurement)

/-- Each scheduled map of sets is measured with a measurement of its own. -/
theorem measurementResults_eq : measurementResults build measure numberOfRuns calculatorGroups =
    (setsForMeasurements calculatorGroups).mapIdx fun call sets =>
      measure call (build call sets) numberOfRuns :=
  List.mapIdx_mapIdx

/-- Indexed images that are permutations one by one. -/
theorem flatMap_mapIdx_perm {α β γ : Type} {f : Nat → α → β} {g : β → List γ} {h : α → List γ}
    {l : List α} (hperm : ∀ i a, l[i]? = some a → (g (f i a)).Perm (h a)) :
    ((l.mapIdx f).flatMap g).Perm (l.flatMap h) := by
  induction l generalizing f with
  | nil => simp
  | cons a l ih =>
      rw [List.mapIdx_cons, List.flatMap_cons, List.flatMap_cons]
      exact (hperm 0 a rfl).append (ih fun i b hb => hperm (i + 1) b hb)

/-- The measurement that is built has the measurers of the given sets. -/
theorem measurerUids_build_perm (hbuild : PutsGivenSets build getMeasurerSets calculatorGroups)
    {call : Nat} {sets : SetMap Key Uid}
    (hsets : (setsForMeasurements calculatorGroups)[call]? = some sets) :
    (measurerUids getMeasurerSets (build call sets)).Perm
      ((scheduledMeasurers sets).map Measurer.uid) := by
  have hperm := ((hbuild call sets hsets).flatMap_right MeasurerSet.getMeasurers).map Measurer.uid
  rwa [List.flatMap_map] at hperm

/-- A run has one output for each required measurer. -/
theorem outputsOfRun_perm (hkeys : (calculatorGroups.map Prod.fst).Nodup)
    (hbuild : PutsGivenSets build getMeasurerSets calculatorGroups)
    (hmeasure : ReturnsOutputs getMeasurerSets measure) {idx : Nat} (hidx : idx < numberOfRuns) :
    ((outputsOfRun (measurementResults build measure numberOfRuns calculatorGroups) idx).map
      MeasurerOutput.measurerUid).Perm
        ((allRequiredMeasurers calculatorGroups).map Measurer.uid) := by
  rw [outputsOfRun, measurementResults_eq, List.map_flatMap]
  refine (flatMap_mapIdx_perm (h := fun sets => (scheduledMeasurers sets).map Measurer.uid) ?_).trans
    ?_
  · intro call sets hsets
    have hlength := hmeasure.runs call (build call sets) numberOfRuns
    have hrun : (measure call (build call sets) numberOfRuns)[idx]? =
        some (measure call (build call sets) numberOfRuns)[idx] :=
      List.getElem?_eq_getElem (Nat.lt_of_lt_of_le hidx hlength)
    rw [hrun, Option.toList_some, List.flatMap_singleton]
    exact (hmeasure.outputs call (build call sets) numberOfRuns _ (List.getElem_mem _)).trans
      (measurerUids_build_perm hbuild hsets)
  · rw [← List.map_flatMap]
    exact (scheduled_perm hkeys).map Measurer.uid

variable [DecidableEq Uid]

/-- An output is of a calculator if its measurer is one of those the calculator requires. -/
theorem isFromRequiredMeasurer_eq (calculator : QuantityCalculator Uid)
    (output : MeasurerOutput Uid Value) : calculator.isFromRequiredMeasurer output =
      decide (output.measurerUid ∈ calculator.getRequiredMeasurers.map Measurer.uid) := by
  rw [QuantityCalculator.isFromRequiredMeasurer, Bool.eq_iff_iff]
  simp only [List.any_eq_true, decide_eq_true_eq, List.mem_map]

omit [DecidableEq Key] [DecidableEq Uid] in
/-- The measurers of a calculator are among the required ones, once. -/
theorem own_uids (hdistinct : ((allRequiredMeasurers calculatorGroups).map Measurer.uid).Nodup)
    {group : Key × List (QuantityCalculator Uid)} (hgroup : group ∈ calculatorGroups)
    {calculator : QuantityCalculator Uid} (hcalculator : calculator ∈ group.2) :
    (calculator.getRequiredMeasurers.map Measurer.uid).Nodup ∧
      calculator.getRequiredMeasurers.map Measurer.uid ⊆
        (allRequiredMeasurers calculatorGroups).map Measurer.uid := by
  simp only [allRequiredMeasurers, requiredMeasurers, List.map_flatMap] at hdistinct ⊢
  constructor
  · exact (List.nodup_flatMap.mp ((List.nodup_flatMap.mp hdistinct).1 group hgroup)).1 calculator
      hcalculator
  · intro uid huid
    exact List.mem_flatMap.mpr ⟨group, hgroup, List.mem_flatMap.mpr ⟨calculator, hcalculator, huid⟩⟩

/-- The list holds those of the outputs that come from the calculator's measurers, one for each
measurer. -/
structure OwnOutputs (calculator : QuantityCalculator Uid)
    (outputs own : List (MeasurerOutput Uid Value)) : Prop where
  mem_iff : ∀ output, output ∈ own ↔ output ∈ outputs ∧
    ∃ measurer ∈ calculator.getRequiredMeasurers, measurer.uid = output.measurerUid
  perm : (own.map MeasurerOutput.measurerUid).Perm
    (calculator.getRequiredMeasurers.map Measurer.uid)

omit [DecidableEq Key] in
/-- Of all outputs a calculator is given those of its own measurers. -/
theorem ownOutputs_filter
    (hdistinct : ((allRequiredMeasurers calculatorGroups).map Measurer.uid).Nodup)
    {group : Key × List (QuantityCalculator Uid)} (hgroup : group ∈ calculatorGroups)
    {calculator : QuantityCalculator Uid} (hcalculator : calculator ∈ group.2)
    {outputs : List (MeasurerOutput Uid Value)}
    (houtputs : (outputs.map MeasurerOutput.measurerUid).Perm
      ((allRequiredMeasurers calculatorGroups).map Measurer.uid)) :
    OwnOutputs calculator outputs (outputs.filter calculator.isFromRequiredMeasurer) := by
  rcases own_uids hdistinct hgroup hcalculator with ⟨hnodup, hsubset⟩
  constructor
  case mem_iff =>
    intro output
    rw [List.mem_filter, isFromRequiredMeasurer_eq, decide_eq_true_iff, List.mem_map]
  case perm =>
    have hfilter : (outputs.filter calculator.isFromRequiredMeasurer).map
          MeasurerOutput.measurerUid =
        (outputs.map MeasurerOutput.measurerUid).filter fun uid =>
          uid ∈ calculator.getRequiredMeasurers.map Measurer.uid := by
      rw [List.filter_map, funext (isFromRequiredMeasurer_eq calculator)]
      rfl
    rw [hfilter]
    apply (houtputs.filter _).trans
    rw [List.perm_ext_iff_of_nodup (hdistinct.filter _) hnodup]
    intro uid
    rw [List.mem_filter, decide_eq_true_iff]
    exact ⟨fun h => h.2, fun h => ⟨hsubset h, h⟩⟩

end Outputs

/-! ## The whole measurement -/

section Complete

variable [DecidableEq Key] [DecidableEq Uid]

/-- Each required measurer is scheduled in exactly one measurement, no measurer set has more than
two performance events, and each calculator is given its own outputs of each run. -/
structure MeasuresCompletely (build : Nat → SetMap Key Uid → Measurement)
    (getMeasurerSets : Measurement → List (MeasurerSet Uid))
    (measure : Nat → Measurement → Nat → MeasurementResult Uid Value) (numberOfRuns : Nat)
    (calculatorGroups : Groups Key Uid) : Prop where
  scheduled : ∀ measurer ∈ allRequiredMeasurers calculatorGroups, ∃! call : Nat, ∃ measurement,
    (executedMeasurements build calculatorGroups)[call]? = some measurement ∧
      measurer.uid ∈ measurerUids getMeasurerSets measurement
  perfEvents_le : ∀ measurement ∈ executedMeasurements build calculatorGroups,
    ∀ set ∈ getMeasurerSets measurement, perfEvents set ≤ 2
  outputs : ∃ map, mesaureQuantities build measure numberOfRuns calculatorGroups = some map ∧
    ∀ group ∈ calculatorGroups, ∀ calculator ∈ group.2, ∃ lists, map calculator = some lists ∧
      lists.length = numberOfRuns ∧ ∀ (idx : Nat) (own : List (MeasurerOutput Uid Value)),
        lists[idx]? = some own → OwnOutputs calculator
          (outputsOfRun (measurementResults build measure numberOfRuns calculatorGroups) idx) own

/-- With distinct keys and measurers, whatever the builder and the facility are like, quantities
are measured completely. -/
theorem measuresCompletely {build : Nat → SetMap Key Uid → Measurement}
    {getMeasurerSets : Measurement → List (MeasurerSet Uid)}
    {measure : Nat → Measurement → Nat → MeasurementResult Uid Value} (numberOfRuns : Nat)
    {calculatorGroups : Groups Key Uid} (hkeys : (calculatorGroups.map Prod.fst).Nodup)
    (hdistinct : ((allRequiredMeasurers calculatorGroups).map Measurer.uid).Nodup)
    (hbuild : PutsGivenSets build getMeasurerSets calculatorGroups)
    (hmeasure : ReturnsOutputs getMeasurerSets measure) :
    MeasuresCompletely build getMeasurerSets measure numberOfRuns calculatorGroups := by
  have hexecuted (call : Nat) : (executedMeasurements build calculatorGroups)[call]? =
      (setsForMeasurements calculatorGroups)[call]?.map (build call) :=
    List.getElem?_mapIdx
  constructor
  case scheduled =>
    intro measurer hmeasurer
    have hscheduled := (scheduled_perm hkeys).map Measurer.uid
    rw [List.map_flatMap, List.flatMap_def] at hscheduled
    have hmem : measurer.uid ∈ ((setsForMeasurements calculatorGroups).map fun sets =>
        (scheduledMeasurers sets).map Measurer.uid).flatten :=
      hscheduled.mem_iff.mpr (List.mem_map_of_mem hmeasurer)
    have hunique := existsUnique_of_nodup_flatten (hscheduled.nodup_iff.mpr hdistinct) hmem
    refine (existsUnique_congr fun call => ?_).mp hunique
    rw [hexecuted, List.getElem?_map]
    cases hsets : (setsForMeasurements calculatorGroups)[call]? with
    | none => simp
    | some sets =>
        have hperm := measurerUids_build_perm hbuild hsets
        simp only [Option.map_some, Option.some.injEq, exists_eq_left', hperm.mem_iff]
  case perfEvents_le =>
    intro measurement hmeasurement set hset
    rcases List.getElem?_of_mem hmeasurement with ⟨call, hcall⟩
    rw [hexecuted] at hcall
    rcases Option.map_eq_some_iff.mp hcall with ⟨sets, hsets, rfl⟩
    rw [(hbuild call sets hsets).mem_iff] at hset
    rcases List.mem_map.mp hset with ⟨entry, hentry, rfl⟩
    exact perfEvents_scheduled_le hkeys (List.mem_of_getElem? hsets) hentry
  case outputs =>
    have hlong (idx : Nat) (hidx : idx ∈ List.range numberOfRuns)
        (result : MeasurementResult Uid Value)
        (hresult : result ∈ measurementResults build measure numberOfRuns calculatorGroups) :
        idx < result.length := by
      rw [measurementResults_eq] at hresult
      rcases List.mem_mapIdx.mp hresult with ⟨call, hcall, rfl⟩
      exact Nat.lt_of_lt_of_le (List.mem_range.mp hidx) (hmeasure.runs call _ numberOfRuns)
    refine ⟨_, by rw [mesaureQuantities, combineRuns_eq hlong]; rfl, ?_⟩
    intro group hgroup calculator hcalculator
    refine ⟨_, resultMap_of_mem hgroup hcalculator _, ?_, ?_⟩
    · rw [filteredRunOutputs, List.length_map, List.length_map, List.length_range]
    · intro idx own hown
      rw [filteredRunOutputs, List.map_map, List.getElem?_map] at hown
      rcases Option.map_eq_some_iff.mp hown with ⟨idx', hidx', rfl⟩
      rcases List.getElem?_eq_some_iff.mp hidx' with ⟨hlt, hrange⟩
      rw [List.getElem_range] at hrange
      subst hrange
      rw [List.length_range] at hlt
      exact ownOutputs_filter hdistinct hgroup hcalculator
        (outputsOfRun_perm hkeys hbuild hmeasure hlt)

end Complete

/-! ## Three performance events and a timer -/

/-- Two performance events are combined, another one and a timer are measured on their own. -/
def eventsAndTimer : Groups String Nat :=
  [("main", [.combining (.terminal ⟨1, true⟩) (.terminal ⟨2, true⟩), .terminal ⟨3, true⟩]),
    ("other", [.multiplying (.terminal ⟨4, false⟩)])]

/-- The outputs of a run: each measurer gives the number of the call. -/
def outputCall (call : Nat) (sets : SetMap String Nat) (numberOfRuns : Nat) :
    MeasurementResult Nat Nat :=
  List.replicate numberOfRuns (sets.map fun entry =>
    ⟨none, entry.2.getMeasurers.map fun measurer => ⟨measurer.uid, call⟩, []⟩)

/-- Two events and a timer are measured completely. -/
theorem measuresCompletely_eventsAndTimer :
    MeasuresCompletely (fun _ sets => sets) (fun sets => sets.map Prod.snd) outputCall 2
      eventsAndTimer := by
  apply measuresCompletely 2 (by decide) (by decide) (fun _ _ _ => List.Perm.refl _)
  constructor
  case runs =>
    intro call sets numberOfRuns
    exact Nat.le_of_eq List.length_replicate.symm
  case outputs =>
    intro call sets numberOfRuns runOutput hrun
    obtain rfl := List.eq_of_mem_replicate hrun
    simp [getMeasurerOutputs, MeasurerSetOutput.getMeasurerOutputs, measurerUids, List.flatMap_map,
      List.map_flatMap, Function.comp_def]

end Quantities
end Roofline
