import Roofline.Controller.RepeatedRequests
import Roofline.Measurement.Entities

/-!
# The preparation of measurements

Before a measurement is hashed its objects are numbered and, if the CPU frequency is to be set,
a configurator that sets it is added.  The object that was handed in is changed, so that the
preparation of a second request starts from the result of the first one.

Main results:

- Theorem {lit}`prepareMeasurement_again`: a second preparation adds the configurator again.
- Theorem {lit}`repeatsHit_iff`: when the repetition of a request is answered from the cache.
-/

namespace Roofline
namespace Measurements

open MeasurementAppController Programs Runs

/-! ## The preparation -/

/-- The configuration keys {lit}`prepareMeasurement` reads; a governor may be null. -/
structure PreparationSettings where
  measureRaw : Bool
  systemConfiguratorExecutable : String
  measurementFrequencyGovernor : Option String
  defaultFrequencyGovernor : Option String

/-- What {lit}`systemInfoService` finds out. -/
structure SystemInfo where
  isFrequencyScalingAvailable : Bool
  onlineCPUs : List Int

/-- {lit}`getName` of a file. -/
def fileName (path : String) : String :=
  ((path.splitOn "/").filter (· ≠ "")).getLastD ""

/-- {lit}`StringUtils.isNotEmpty`. -/
def isNotEmpty : Option String → Bool
  | none => false
  | some s => s ≠ ""

/-- A command that sets the governor of all online CPUs. -/
def governorCommand (settings : PreparationSettings) (system : SystemInfo)
    (governor : Option String) : RunCommand where
  executable := settings.systemConfiguratorExecutable
  args := [some (fileName settings.systemConfiguratorExecutable), some "governor", governor] ++
    system.onlineCPUs.map fun cpu => some (toString cpu)

/-- A configurator the measurement does not have yet. -/
def Measurement.newConfigurator (m : Measurement) : Ref .configurator :=
  ⟨(m.configurators.map Ref.index).foldr max 0 + 1⟩

/-- {lit}`addMeasurementFrequencyConfigurator` -/
def addMeasurementFrequencyConfigurator (settings : PreparationSettings) (system : SystemInfo)
    (m : Measurement) : Measurement :=
  let configurator := .runCommand (fun _ => none)
    [governorCommand settings system settings.measurementFrequencyGovernor]
    [governorCommand settings system settings.defaultFrequencyGovernor] [] []
  { m with
    configurators := m.configurators ++ [m.newConfigurator]
    configurator := Function.update m.configurator m.newConfigurator configurator }

/-- {lit}`prepareMeasurement` -/
def prepareMeasurement (settings : PreparationSettings) (system : SystemInfo)
    (m : Measurement) : Measurement :=
  let m := m.setIds
  if !settings.measureRaw then
    if isNotEmpty settings.measurementFrequencyGovernor && system.isFrequencyScalingAvailable then
      addMeasurementFrequencyConfigurator settings system m
    else
      m
  else
    m

/-- The configuration or the system rules out that the frequency is set. -/
def LeavesFrequency (settings : PreparationSettings) (system : SystemInfo) : Prop :=
  settings.measureRaw = true ∨ isNotEmpty settings.measurementFrequencyGovernor = false ∨
    system.isFrequencyScalingAvailable = false

section Preparation

variable {settings : PreparationSettings} {system : SystemInfo}

/-- If the frequency is left alone, the ids are set and nothing else. -/
theorem prepareMeasurement_leaves (h : LeavesFrequency settings system) (m : Measurement) :
    prepareMeasurement settings system m = m.setIds := by
  unfold prepareMeasurement
  rcases h with h | h | h
  · simp [h]
  · simp [h]
  · simp [h]

/-- Otherwise the configurator is added too. -/
theorem prepareMeasurement_adds (h : ¬LeavesFrequency settings system) (m : Measurement) :
    prepareMeasurement settings system m =
      addMeasurementFrequencyConfigurator settings system m.setIds := by
  simp only [LeavesFrequency, not_or, Bool.not_eq_true, Bool.not_eq_false] at h
  rcases h with ⟨hraw, hgovernor, hscaling⟩
  simp [prepareMeasurement, hraw, hgovernor, hscaling]

/-- The frequency configurator is added each time. -/
theorem length_configurators (h : ¬LeavesFrequency settings system) (m : Measurement) :
    (prepareMeasurement settings system m).configurators.length = m.configurators.length + 1 := by
  rw [prepareMeasurement_adds h, addMeasurementFrequencyConfigurator]
  simp only [List.length_append, List.length_singleton, m.sameShape_setIds.configurators]

/-- Where the frequency is left alone, a second preparation changes nothing. -/
theorem prepareMeasurement_again (h : LeavesFrequency settings system) (m : Measurement) :
    prepareMeasurement settings system (prepareMeasurement settings system m) =
      prepareMeasurement settings system m := by
  rw [prepareMeasurement_leaves h, prepareMeasurement_leaves h, m.setIds_setIds]

end Preparation

/-! ## Graphs that are serialized to the same text -/

/-- Other references for the objects of a measurement. -/
abbrev Renaming := (kind : Kind) → Ref kind → Ref kind

section Renaming

variable (r : Renaming)

/-- An event predicate with other references. -/
def EventPredicate.rename : EventPredicate → EventPredicate
  | .measurementRun eventNr => .measurementRun eventNr
  | .thread eventNr target => .thread eventNr (target.map (r .workload))
  | .workload target eventNr => .workload (target.map (r .workload)) eventNr

/-- An action with other references. -/
def Action.rename : Action → Action
  | .createMeasurerOnThread workload tid measurerSet startPredicate stopPredicate readPredicate
      disposePredicate =>
      .createMeasurerOnThread (workload.map (r .workload)) tid (measurerSet.map (r .measurerSet))
        (startPredicate.map (EventPredicate.rename r)) (stopPredicate.map (EventPredicate.rename r))
        (readPredicate.map (EventPredicate.rename r))
        (disposePredicate.map (EventPredicate.rename r))
  | .onMeasurerSet what workload tid measurerSet =>
      .onMeasurerSet what (workload.map (r .workload)) tid (measurerSet.map (r .measurerSet))
  | .flushKernelBuffers workload tid kernel =>
      .flushKernelBuffers (workload.map (r .workload)) tid (kernel.map (r .kernel))
  | .stopKernel workload tid kernel =>
      .stopKernel (workload.map (r .workload)) tid (kernel.map (r .kernel))
  | .measureActionExecution workload tid none measurerSet =>
      .measureActionExecution (workload.map (r .workload)) tid none
        (measurerSet.map (r .measurerSet))
  | .measureActionExecution workload tid (some action) measurerSet =>
      .measureActionExecution (workload.map (r .workload)) tid (some (Action.rename action))
        (measurerSet.map (r .measurerSet))
  | .waitForPressureBarrier workload tid pressure threshold =>
      .waitForPressureBarrier (workload.map (r .workload)) tid pressure threshold
  | .waitForWorkload workload tid target =>
      .waitForWorkload (workload.map (r .workload)) tid (target.map (r .workload))

/-- A rule with other references. -/
def Rule.rename (rule : Rule) : Rule where
  predicate := rule.predicate.map (EventPredicate.rename r)
  action := rule.action.map (Action.rename r)

/-- A workload with other references. -/
def Workload.rename (workload : Workload) : Workload :=
  { workload with
    kernel := workload.kernel.map (r .kernel)
    measurerSet := workload.measurerSet.map (r .measurerSet) }

/-- A measurer set with other references. -/
def MeasurerSet.rename (measurerSet : MeasurerSet) : MeasurerSet :=
  { measurerSet with
    mainMeasurer := measurerSet.mainMeasurer.map (r .measurer)
    additionalMeasurers := measurerSet.additionalMeasurers.map (r .measurer)
    validationMeasurers := measurerSet.validationMeasurers.map (r .measurer) }

end Renaming

/-- The measurements differ at most in the identities of their objects. -/
structure SameGraph (m m' : Measurement) (r : Renaming) : Prop where
  injective : ∀ kind, Function.Injective (r kind)
  macroDefinitions : m'.macroDefinitions = m.macroDefinitions
  workloads : m'.workloads = m.workloads.map (r .workload)
  configurators : m'.configurators = m.configurators.map (r .configurator)
  rules : m'.rules = m.rules.map (Rule.rename r)
  overallMeasurerSet : m'.overallMeasurerSet = m.overallMeasurerSet.map (r .measurerSet)
  workload : ∀ w ∈ m.getAllOf .workload, m'.workload (r _ w) = (m.workload w).rename r
  kernel : ∀ k ∈ m.getAllOf .kernel, m'.kernel (r _ k) = m.kernel k
  measurerSet : ∀ s ∈ m.getAllOf .measurerSet,
    m'.measurerSet (r _ s) = (m.measurerSet s).rename r
  measurer : ∀ x ∈ m.getAllOf .measurer, m'.measurer (r _ x) = m.measurer x
  configurator : ∀ c ∈ m.getAllOf .configurator, m'.configurator (r _ c) = m.configurator c

/-- The same graph has as many configurators. -/
theorem SameGraph.length_configurators {m m' : Measurement} {r : Renaming}
    (h : SameGraph m m' r) : m'.configurators.length = m.configurators.length := by
  rw [h.configurators, List.length_map]

section Identity

/-- Every reference stands for itself. -/
def sameRefs : Renaming :=
  fun _ ref => ref

/-- The same references change nothing. -/
theorem map_sameRefs {kind : Kind} (ref : Option (Ref kind)) : ref.map (sameRefs kind) = ref :=
  congrFun Option.map_id ref

/-- An event predicate with the same references. -/
@[simp] theorem EventPredicate.rename_sameRefs (predicate : EventPredicate) :
    predicate.rename sameRefs = predicate := by
  cases predicate with
  | measurementRun eventNr => rfl
  | thread eventNr target => rw [EventPredicate.rename, map_sameRefs]
  | workload target eventNr => rw [EventPredicate.rename, map_sameRefs]

/-- An event predicate that may be null, with the same references. -/
theorem EventPredicate.map_rename_sameRefs (predicate : Option EventPredicate) :
    predicate.map (EventPredicate.rename sameRefs) = predicate := by
  simp only [funext EventPredicate.rename_sameRefs, Option.map_id']

/-- An action with the same references. -/
@[simp] theorem Action.rename_sameRefs (action : Action) : action.rename sameRefs = action := by
  induction action using Action.rename.induct with
  | case1 => simp only [Action.rename, map_sameRefs, EventPredicate.map_rename_sameRefs]
  | case2 => simp only [Action.rename, map_sameRefs]
  | case3 => simp only [Action.rename, map_sameRefs]
  | case4 => simp only [Action.rename, map_sameRefs]
  | case5 => simp only [Action.rename, map_sameRefs]
  | case6 workload tid action measurerSet ih => simp only [Action.rename, map_sameRefs, ih]
  | case7 => simp only [Action.rename, map_sameRefs]
  | case8 => simp only [Action.rename, map_sameRefs]

/-- A rule with the same references. -/
theorem Rule.rename_sameRefs (rule : Rule) : rule.rename sameRefs = rule := by
  rw [Rule.rename, EventPredicate.map_rename_sameRefs, funext Action.rename_sameRefs,
    Option.map_id']

/-- A graph is the same as itself. -/
theorem SameGraph.refl (m : Measurement) : SameGraph m m sameRefs where
  injective _ := Function.injective_id
  macroDefinitions := rfl
  workloads := (List.map_id _).symm
  configurators := (List.map_id _).symm
  rules := by rw [funext Rule.rename_sameRefs, List.map_id']
  overallMeasurerSet := (map_sameRefs _).symm
  workload w _ := by rw [Workload.rename, map_sameRefs, map_sameRefs]; rfl
  kernel _ _ := rfl
  measurerSet s _ := by
    have hmap (refs : List (Ref .measurer)) : refs.map (sameRefs .measurer) = refs :=
      List.map_id refs
    rw [MeasurerSet.rename, map_sameRefs, hmap, hmap]
    rfl
  measurer _ _ := rfl
  configurator _ _ := rfl

end Identity

/-! ## Repeated requests -/

section Repetition

variable {MeasurementHash CoreHash Files Executable : Type}

/-- The services with the preparation above. -/
def withPreparation (settings : PreparationSettings) (system : SystemInfo)
    (services : Services Measurement MeasurementHash CoreHash Files Executable) :
    Services Measurement MeasurementHash CoreHash Files Executable :=
  { services with prepareMeasurement := prepareMeasurement settings system }

variable [DecidableEq MeasurementHash] [DecidableEq CoreHash] [DecidableEq Files]

/-- The first request has left the measurement prepared, and the second one asks for it again.
Its stored result can be loaded; if no output is asked for, none may be stored, and then no
step of the second request fails. -/
structure Repeats {RunOutput : Type}
    (services : Services Measurement MeasurementHash CoreHash Files Executable)
    (v : World Measurement MeasurementHash CoreHash Files Executable RunOutput)
    (request again : Request Measurement Files RunOutput) : Prop where
  configuration : again.configuration = request.configuration
  numberOfRuns : again.numberOfRuns = request.numberOfRuns
  measurement : again.measurement = services.prepareMeasurement request.measurement
  loads : ∀ e left, again.outcomes 0 ≠ .throws e left
  returns : again.numberOfRuns ≤ 0 → ∃ runOutputs v', outcome (collectRunOutputs services again)
    { v with outcomes := again.outcomes } = (.ok runOutputs, v')

/-- The repetition of a measurement has the same hash, and whatever happened before, it returns
the same outputs without a run. -/
structure RepeatsHit (RunOutput : Type)
    (services : Services Measurement MeasurementHash CoreHash Files Executable)
    (m : Measurement) : Prop where
  sameHash : services.getMeasurementHash (services.prepareMeasurement
      (services.prepareMeasurement m)) =
    services.getMeasurementHash (services.prepareMeasurement m)
  hits : ∀ (files : Files) (executable : Option Executable)
    (results : MeasurementHash → Option (MeasurementResult Measurement CoreHash RunOutput))
    (outcomes : Nat → Outcome Files RunOutput)
    (before : List (Request Measurement Files RunOutput))
    (w v : World Measurement MeasurementHash CoreHash Files Executable RunOutput)
    (request again : Request Measurement Files RunOutput)
    (result : MeasurementResult Measurement CoreHash RunOutput),
    Run (step services) (start files executable results outcomes) before w →
    request.measurement = m → request.configuration.useCachedResults = true →
    respond services w request = (.ok result, v) → Repeats services v request again →
    ∃ result' v', respond services v again = (.ok result', v') ∧
      result'.runOutputs = result.runOutputs ∧ v'.runs = v.runs

variable {settings : PreparationSettings} {system : SystemInfo}
variable {services : Services Measurement MeasurementHash CoreHash Files Executable}

/-- If the hash stays the same, the repetition hits. -/
theorem RepeatsHit.of_sameHash {RunOutput : Type} {m : Measurement}
    (hhash : services.getMeasurementHash (services.prepareMeasurement
        (services.prepareMeasurement m)) =
      services.getMeasurementHash (services.prepareMeasurement m)) :
    RepeatsHit RunOutput services m where
  sameHash := hhash
  hits := by
    rintro files executable results outcomes before w v request again result hrun rfl hcaching
      hresponse hagain
    have hhash' : services.getMeasurementHash (services.prepareMeasurement again.measurement) =
        services.getMeasurementHash (services.prepareMeasurement request.measurement) := by
      rw [hagain.measurement]
      exact hhash
    rcases respond_again (consistent_of_run hrun) hresponse hcaching hagain.configuration
      hagain.numberOfRuns hhash' hagain.loads hagain.returns with ⟨v', hrespond, hruns, -⟩
    exact ⟨_, v', hrespond, rfl, hruns⟩

/-- The repetition of a measurement is answered from the cache exactly if the frequency is left
alone.  The hash is assumed to be injective on the serialized graphs. -/
theorem repeatsHit_iff (RunOutput : Type)
    (hinjective : ∀ a b, services.getMeasurementHash a = services.getMeasurementHash b →
      ∃ r, SameGraph a b r) (m : Measurement) :
    RepeatsHit RunOutput (withPreparation settings system services) m ↔
      LeavesFrequency settings system := by
  constructor
  · intro hrepeats
    by_contra hadds
    have hhash := hrepeats.sameHash
    rcases hinjective _ _ hhash with ⟨r, hgraph⟩
    have hlength : (prepareMeasurement settings system m).configurators.length =
        (prepareMeasurement settings system
          (prepareMeasurement settings system m)).configurators.length :=
      hgraph.length_configurators
    rw [length_configurators hadds (prepareMeasurement settings system m)] at hlength
    omega
  · intro hleaves
    exact RepeatsHit.of_sameHash
      (congrArg services.getMeasurementHash (prepareMeasurement_again hleaves m))

end Repetition

/-! ## The default configuration -/

/-- Measurements are told apart by their graphs alone. -/
def graphServices : Services Measurement Measurement Nat Nat Nat where
  prepareMeasurement m := m
  getMeasurementHash m := m
  generatedFiles _ := 0
  compiled files := files
  hashFile executable := executable

/-- The governors of the default configuration. -/
def defaultSettings : PreparationSettings where
  measureRaw := false
  systemConfiguratorExecutable := "."
  measurementFrequencyGovernor := some "performance"
  defaultFrequencyGovernor := some "ondemand"

/-- A measurement with nothing in it. -/
def emptyMeasurement : Measurement where
  macroDefinitions _ := none
  workloads := []
  configurators := []
  rules := []
  overallMeasurerSet := none
  workload _ := ⟨fun _ => none, 0, none, none, 0⟩
  kernel _ := ⟨"", fun _ => none, 0, "", false, false, 1⟩
  measurerSet _ := ⟨0, none, [], []⟩
  measurer _ := ⟨fun _ => none, 0⟩
  configurator _ := .sleep (fun _ => none) 0 0 0 0

open Classical in
/-- Without frequency scaling the repetition is answered from the cache. -/
theorem repeatsHit_without_scaling :
    RepeatsHit Nat (withPreparation defaultSettings ⟨false, [0, 1]⟩ graphServices)
      emptyMeasurement := by
  have hinjective (a b : Measurement)
      (h : graphServices.getMeasurementHash a = graphServices.getMeasurementHash b) :
      ∃ r, SameGraph a b r := by
    obtain rfl : a = b := h
    exact ⟨_, SameGraph.refl a⟩
  exact (repeatsHit_iff Nat hinjective emptyMeasurement).mpr (.inr (.inr rfl))

open Classical in
/-- With frequency scaling the default configuration never answers it from the cache. -/
theorem not_repeatsHit :
    ¬RepeatsHit Nat (withPreparation defaultSettings ⟨true, [0, 1]⟩ graphServices)
      emptyMeasurement := by
  intro hrepeats
  have hlength := congrArg (fun m : Measurement => m.configurators.length) hrepeats.sameHash
  have hadds : ¬LeavesFrequency defaultSettings ⟨true, [0, 1]⟩ := by
    rintro (h | h | h)
    · exact Bool.noConfusion h
    · exact Bool.noConfusion h
    · exact Bool.noConfusion h
  simp only [graphServices, withPreparation, length_configurators hadds] at hlength
  omega

end Measurements
end Roofline
