import Mathlib.Algebra.Ring.Int.Defs
import Roofline.Controller.OwnExecutable

/-!
# What a request asks of the measuring core

A request takes from the cache what it may use again and has the measuring core run for
the rest.  What it stores are the new outputs followed by those it has used.

Main results:

- Theorem {lit}`cachedRunOutputs_used`: what is used again of the cache.
- Theorem {lit}`missingRunOutputs_answered`: what is run and stored.
- Theorem {lit}`accounted_of_returned`: what a request returns, runs and stores if no step fails
  and its {lit}`try` returns.
-/

namespace Roofline
namespace MeasurementAppController

open Programs Runs MeasurementHashRepository

variable {Measurement MeasurementHash CoreHash Files Executable RunOutput : Type}

/-! ## Building the core -/

section Specifications

variable (services : Services Measurement MeasurementHash CoreHash Files Executable)

/-- Neither the cache nor the logs of runs have changed since {lit}`w`. -/
structure Idle (w v : World Measurement MeasurementHash CoreHash Files Executable RunOutput) :
    Prop where
  cores : Consistent v.measurementHashRepository
  results : v.results = w.results
  runs : v.runs = w.runs
  produced : v.produced = w.produced

/-- Only what is recorded matters. -/
theorem Idle.of_records {w v v' : World Measurement MeasurementHash CoreHash Files Executable
      RunOutput} (h : Idle w v)
    (hrepository : v'.measurementHashRepository = v.measurementHashRepository)
    (hresults : v'.results = v.results) (hruns : v'.runs = v.runs)
    (hproduced : v'.produced = v.produced) : Idle w v' :=
  ⟨hrepository ▸ h.cores, hresults.trans h.results, hruns.trans h.runs,
    hproduced.trans h.produced⟩

/-- The end of an external step changes nothing that is recorded. -/
theorem Idle.afterOutcome
    {w v : World Measurement MeasurementHash CoreHash Files Executable RunOutput}
    (h : Idle w v) : Idle w v.afterOutcome :=
  h.of_records rfl rfl rfl rfl

/-- Preparing a build leaves the cache and the logs. -/
theorem prepareMeasuringCoreBuilding_idle [DecidableEq Files]
    (w : World Measurement MeasurementHash CoreHash Files Executable RunOutput)
    (measurement : Measurement) :
    Ensures (Idle w) (prepareMeasuringCoreBuilding services measurement) (fun _ => Idle w)
      (fun _ => Idle w) := by
  intro v hv
  rw [prepareMeasuringCoreBuilding, outcome_primitive]
  cases v.outcomes 0 with
  | completes _ => exact hv.of_records rfl rfl rfl rfl
  | throws e left => exact hv.of_records rfl rfl rfl rfl

/-- So does compiling. -/
theorem compilePreparedMeasuringCore_idle
    (w : World Measurement MeasurementHash CoreHash Files Executable RunOutput) :
    Ensures (Idle w) (compilePreparedMeasuringCore services) (fun _ => Idle w)
      (fun _ => Idle w) := by
  intro v hv
  rw [compilePreparedMeasuringCore, outcome_primitive]
  cases v.outcomes 0 with
  | completes _ => exact hv.of_records rfl rfl rfl rfl
  | throws e left => exact hv.of_records rfl rfl rfl rfl

/-- So does recording what was compiled. -/
theorem recordCompiled_idle
    (w : World Measurement MeasurementHash CoreHash Files Executable RunOutput)
    (hash : MeasurementHash) :
    Ensures (Idle w)
      (modify (recordCompiled hash) :
        Method Measurement MeasurementHash CoreHash Files Executable RunOutput PUnit)
      (fun _ => Idle w) (fun _ => Idle w) :=
  fun _ hv => hv.of_records rfl rfl rfl rfl

variable [DecidableEq MeasurementHash] [DecidableEq CoreHash]

/-- So does reporting equal cores. -/
theorem setHaveEqualCores_idle
    (w : World Measurement MeasurementHash CoreHash Files Executable RunOutput)
    (a b : MeasurementHash) :
    Ensures (Idle w) (onRepository fun repo => repo.setHaveEqualCores a b) (fun _ => Idle w)
      (fun _ => Idle w) := by
  intro v hv
  have hcores := hv.cores.setHaveEqualCores a b
  rw [onRepository, outcome_primitive]
  rcases hcall : v.measurementHashRepository.setHaveEqualCores a b with ⟨e | _, repo⟩
  · rw [hcall] at hcores
    exact ⟨hcores, hv.results, hv.runs, hv.produced⟩
  · rw [hcall] at hcores
    exact ⟨hcores, hv.results, hv.runs, hv.produced⟩

/-- Hashing the executable in place and recording its core hash. -/
theorem recordCoreHash_idle
    (w : World Measurement MeasurementHash CoreHash Files Executable RunOutput)
    (measurementHash : MeasurementHash) :
    Ensures
      (fun v => Idle w v ∧ v.measurementHashRepository.getCoreHash measurementHash = none)
      (do
        let coreHash ← hashCurrentlyCompiledMeasuringCore services
        onRepository fun repo => repo.setCoreHash measurementHash coreHash
        return coreHash)
      (fun coreHash v => Idle w v ∧
        v.measurementHashRepository.getCoreHash measurementHash = some coreHash)
      (fun _ => Idle w) := by
  rintro v ⟨hv, hunknown⟩
  rw [outcome_bind, hashCurrentlyCompiledMeasuringCore, outcome_primitive]
  cases v.outcomes 0 with
  | throws e left => exact hv.of_records rfl rfl rfl rfl
  | completes _ =>
      cases v.executable with
      | none => exact hv.of_records rfl rfl rfl rfl
      | some executable =>
          rcases hv.cores.setCoreHash hunknown (services.hashFile executable) with
            ⟨repo, hcall, hcores, hknown⟩
          dsimp only
          rw [outcome_bind, onRepository, outcome_primitive]
          have hcall' : v.afterOutcome.measurementHashRepository.setCoreHash measurementHash
              (services.hashFile executable) = (.ok (), repo) := hcall
          rw [hcall']
          exact ⟨⟨hcores, hv.results, hv.runs, hv.produced⟩, hknown⟩

variable [DecidableEq Files]

/-- A build leaves the cache and the logs, whether it returns or throws. -/
theorem buildMeasuringCore_idle
    (w : World Measurement MeasurementHash CoreHash Files Executable RunOutput)
    (measurement : Measurement) (measurementHash : MeasurementHash) :
    Ensures (Idle w) (buildMeasuringCore services measurement measurementHash) (fun _ => Idle w)
      (fun _ => Idle w) := by
  intro v hv
  unfold buildMeasuringCore
  rw [outcome_bind, outcome_get]
  dsimp only
  refine Ensures.ite (fun _ => Ensures.pure fun _ h => h) (fun _ => ?_) v hv
  apply Ensures.bind (prepareMeasuringCoreBuilding_idle services w measurement)
  intro coreChanged
  have hcompile := (compilePreparedMeasuringCore_idle services w).bind
    fun _ => recordCompiled_idle w measurementHash
  cases v.currentlyCompiledMeasurementHash with
  | none => exact hcompile
  | some current =>
      refine Ensures.ite (fun _ => hcompile) (fun _ => ?_)
      exact Ensures.bind (setHaveEqualCores_idle w current measurementHash)
        fun _ => recordCompiled_idle w measurementHash

/-! ## Core hashes -/

/-- The core hash that is returned is the recorded one. -/
theorem getCoreHash_idle
    (w : World Measurement MeasurementHash CoreHash Files Executable RunOutput)
    (measurement : Measurement) (measurementHash : MeasurementHash) :
    Ensures (Idle w) (getCoreHash services measurement measurementHash)
      (fun coreHash v => Idle w v ∧
        v.measurementHashRepository.getCoreHash measurementHash = some coreHash)
      (fun _ => Idle w) := by
  intro v hv
  unfold getCoreHash
  rw [outcome_bind, outcome_get]
  dsimp only
  cases hknown : v.measurementHashRepository.getCoreHash measurementHash with
  | some coreHash => exact ⟨hv, hknown⟩
  | none =>
      refine Ensures.bind (buildMeasuringCore_idle services w measurement measurementHash) ?_ v hv
      intro _ built hbuilt
      rw [outcome_bind, outcome_get]
      dsimp only
      cases hnow : built.measurementHashRepository.getCoreHash measurementHash with
      | some coreHash => exact ⟨hbuilt, hnow⟩
      | none => exact recordCoreHash_idle services w measurementHash built ⟨hbuilt, hnow⟩

/-! ## Results that are used again -/

/-- The core hash that {lit}`getCoreHash` returns for the measurement of the request, once the
stored result is loaded. -/
def currentCoreHash
    (w : World Measurement MeasurementHash CoreHash Files Executable RunOutput)
    (request : Request Measurement Files RunOutput) : Except Throwable CoreHash :=
  let measurement := services.prepareMeasurement request.measurement
  (outcome (getCoreHash services measurement (services.getMeasurementHash measurement))
    { w with outcomes := fun n => request.outcomes (n + 1) }).1

/-- A core hash that is known is returned without a build. -/
theorem currentCoreHash_known
    {w : World Measurement MeasurementHash CoreHash Files Executable RunOutput}
    {request : Request Measurement Files RunOutput} {coreHash : CoreHash}
    (hknown : w.measurementHashRepository.getCoreHash
      (services.getMeasurementHash (services.prepareMeasurement request.measurement)) =
        some coreHash) : currentCoreHash services w request = .ok coreHash := by
  unfold currentCoreHash getCoreHash
  dsimp only
  rw [outcome_bind, outcome_get]
  dsimp only
  rw [hknown]
  rfl

/-- The core is not to be checked, or the stored core hash is the current one. -/
def coreCheckPasses
    (w : World Measurement MeasurementHash CoreHash Files Executable RunOutput)
    (request : Request Measurement Files RunOutput) (coreHash : Option CoreHash) : Bool :=
  !request.configuration.checkCore ||
    match currentCoreHash services w request with
    | .ok current => decide (coreHash = some current)
    | .error _ => false

/-- Without the check it always passes. -/
theorem coreCheckPasses_off
    {w : World Measurement MeasurementHash CoreHash Files Executable RunOutput}
    {request : Request Measurement Files RunOutput} {coreHash : Option CoreHash}
    (hcheck : request.configuration.checkCore = false) :
    coreCheckPasses services w request coreHash = true := by
  rw [coreCheckPasses, hcheck]
  rfl

/-- With the check, the stored core hash has to be the current one. -/
theorem coreCheckPasses_on
    {w : World Measurement MeasurementHash CoreHash Files Executable RunOutput}
    {request : Request Measurement Files RunOutput} {coreHash : Option CoreHash}
    {current : CoreHash} (hcheck : request.configuration.checkCore = true)
    (hcurrent : currentCoreHash services w request = .ok current) :
    coreCheckPasses services w request coreHash = decide (coreHash = some current) := by
  rw [coreCheckPasses, hcheck, hcurrent]
  rfl

/-- The outputs of the stored result the request may use again. -/
def usedOutputs
    (w : World Measurement MeasurementHash CoreHash Files Executable RunOutput)
    (request : Request Measurement Files RunOutput) : List RunOutput :=
  match loadedResult services w request with
  | none => []
  | some loadedResult =>
      if coreCheckPasses services w request loadedResult.coreHash then
        loadedResult.runOutputs
      else
        []

/-- The part of the request that looks into the cache uses these outputs and leaves the
cache and the logs of runs. -/
theorem cachedRunOutputs_used
    {w : World Measurement MeasurementHash CoreHash Files Executable RunOutput}
    (hcores : Consistent w.measurementHashRepository)
    (request : Request Measurement Files RunOutput) :
    Ensures (fun v => v = { w with outcomes := request.outcomes })
      (cachedRunOutputs services request.configuration
        (services.prepareMeasurement request.measurement)
        (services.getMeasurementHash (services.prepareMeasurement request.measurement)))
      (fun cached v => cached = usedOutputs services w request ∧ Idle w v)
      (fun _ => Idle w) := by
  rintro _ rfl
  have hidle : ∀ outcomes, Idle w { w with outcomes := outcomes } :=
    fun _ => ⟨hcores, rfl, rfl, rfl⟩
  unfold cachedRunOutputs usedOutputs loadedResult
  rw [outcome_bind, outcome_get]
  dsimp only
  by_cases hlookup : (request.configuration.useCachedResults ||
      w.measurementHashRepository.hasMeasurementBeenSeen (services.getMeasurementHash
        (services.prepareMeasurement request.measurement))) = true
  · rw [if_pos hlookup, if_pos hlookup, outcome_bind, getMeasurementResult, outcome_primitive]
    dsimp only
    cases request.outcomes 0 with
    | throws e left => exact ⟨rfl, hidle _⟩
    | completes outputs =>
        dsimp only
        cases w.results (services.getMeasurementHash
          (services.prepareMeasurement request.measurement)) with
        | none => exact ⟨rfl, hidle _⟩
        | some stored =>
            dsimp only
            by_cases hcheck : request.configuration.checkCore = true
            · have hended := getCoreHash_idle services w
                (services.prepareMeasurement request.measurement)
                (services.getMeasurementHash (services.prepareMeasurement request.measurement))
                _ (hidle fun n => request.outcomes (n + 1))
              rw [if_pos hcheck, outcome_bind]
              simp only [World.afterOutcome]
              rcases hrun : outcome (getCoreHash services
                  (services.prepareMeasurement request.measurement)
                  (services.getMeasurementHash
                    (services.prepareMeasurement request.measurement)))
                { w with outcomes := fun n => request.outcomes (n + 1) } with ⟨e | coreHash, v⟩
              · rw [hrun] at hended
                exact hended
              · rw [hrun] at hended
                rw [coreCheckPasses_on services hcheck (congrArg Prod.fst hrun)]
                dsimp only
                by_cases hequal : some coreHash = stored.coreHash
                · rw [if_pos hequal, if_pos (decide_eq_true hequal.symm)]
                  exact ⟨rfl, hended.1⟩
                · rw [if_neg hequal, if_neg (by simpa using Ne.symm hequal)]
                  exact ⟨rfl, hended.1⟩
            · rw [if_neg hcheck, coreCheckPasses_off services (by simpa using hcheck), if_pos rfl]
              exact ⟨rfl, hidle _⟩
  · rw [if_neg hlookup, if_neg hlookup]
    exact ⟨rfl, hidle _⟩

/-! ## Results that are missing -/

/-- The cache is the one of {lit}`w`, whatever runs there were. -/
structure Unstored (w v : World Measurement MeasurementHash CoreHash Files Executable RunOutput) :
    Prop where
  cores : Consistent v.measurementHashRepository
  results : v.results = w.results
  produced : w.produced <+: v.produced

omit [DecidableEq MeasurementHash] [DecidableEq CoreHash] [DecidableEq Files] in
/-- What is idle stores nothing. -/
theorem Idle.unstored
    {w v : World Measurement MeasurementHash CoreHash Files Executable RunOutput}
    (h : Idle w v) : Unstored w v :=
  ⟨h.cores, h.results, h.produced ▸ List.prefix_rfl⟩

/-- The log after an execution of the measuring core has returned. -/
def afterRun (w : World Measurement MeasurementHash CoreHash Files Executable RunOutput)
    (command : MeasurementCommand Measurement) (executable : Executable)
    (outputs : List RunOutput) :
    World Measurement MeasurementHash CoreHash Files Executable RunOutput :=
  { w with
    runs := w.runs ++ [⟨command, executable⟩]
    produced := w.produced ++ [⟨command, outputs⟩] }

omit [DecidableEq MeasurementHash] [DecidableEq CoreHash] [DecidableEq Files] in
/-- What is idle after a run has stored nothing. -/
theorem Idle.unstored_afterRun
    {w v : World Measurement MeasurementHash CoreHash Files Executable RunOutput}
    {command : MeasurementCommand Measurement} {executable : Executable}
    {outputs : List RunOutput} (h : Idle (afterRun w command executable outputs) v) :
    Unstored w v :=
  ⟨h.cores, h.results, h.produced ▸ List.prefix_append _ _⟩

/-- One run of the core yields the outputs that are returned. -/
theorem performMeasurement_afterRun
    (w : World Measurement MeasurementHash CoreHash Files Executable RunOutput)
    (command : MeasurementCommand Measurement) (measurementHash : MeasurementHash) :
    Ensures (Idle w) (performMeasurement services command measurementHash)
      (fun result v => ∃ executable outputs, result = ⟨command.measurement, outputs, none⟩ ∧
        Idle (afterRun w command executable outputs) v)
      (fun _ => Unstored w) := by
  have hbuild := buildMeasuringCore_idle services w command.measurement measurementHash
  refine Ensures.bind (hbuild.weaken (fun _ h => h) (fun _ _ h => h)
    (fun _ _ h => h.unstored)) ?_
  intro _ v hv
  rw [runMeasuringCore, outcome_primitive]
  cases v.executable with
  | none => exact hv.afterOutcome.unstored
  | some executable =>
      dsimp only
      cases v.outcomes 0 with
      | throws e left => exact ⟨hv.cores, hv.results, hv.produced ▸ List.prefix_rfl⟩
      | completes outputs =>
          refine ⟨executable, outputs, rfl, hv.cores, hv.results, ?_, ?_⟩
          · exact congrArg (· ++ _) hv.runs
          · exact congrArg (· ++ _) hv.produced

/-- What a request returns, runs and stores that could use these outputs again. -/
inductive Answered (w : World Measurement MeasurementHash CoreHash Files Executable RunOutput)
    (measurement : Measurement) (measurementHash : MeasurementHash) (numberOfRuns : Int)
    (used runOutputs : List RunOutput)
    (v : World Measurement MeasurementHash CoreHash Files Executable RunOutput) : Prop where
  | cached (henough : numberOfRuns ≤ used.length) (houtputs : runOutputs = used)
      (hidle : Idle w v)
  | measured {executable : Executable} {outputs : List RunOutput} {coreHash : CoreHash}
      (hmissing : used.length < numberOfRuns) (houtputs : runOutputs = outputs ++ used)
      (hcores : Consistent v.measurementHashRepository)
      (hruns : v.runs = w.runs ++ [⟨⟨measurement, numberOfRuns - used.length⟩, executable⟩])
      (hproduced : v.produced =
        w.produced ++ [⟨⟨measurement, numberOfRuns - used.length⟩, outputs⟩])
      (hresults : v.results = Function.update w.results measurementHash
        (some ⟨measurement, outputs ++ used, some coreHash⟩))
      (hcoreHash : v.measurementHashRepository.getCoreHash measurementHash = some coreHash)

/-- The missing outputs are run for and stored, or nothing is stored. -/
theorem missingRunOutputs_answered
    (w : World Measurement MeasurementHash CoreHash Files Executable RunOutput)
    (measurement : Measurement) (measurementHash : MeasurementHash) (numberOfRuns : Int)
    (used : List RunOutput) :
    Ensures (Idle w) (missingRunOutputs services measurement measurementHash numberOfRuns used)
      (Answered w measurement measurementHash numberOfRuns used)
      (fun _ => Unstored w) := by
  refine Ensures.ite (fun hmissing => ?_) (fun henough => ?_)
  · apply Ensures.bind (performMeasurement_afterRun services w _ measurementHash)
    rintro newResult v ⟨executable, outputs, rfl, hran⟩
    have hget := getCoreHash_idle services
      (afterRun w ⟨measurement, numberOfRuns - used.length⟩ executable outputs) measurement
      measurementHash
    refine Ensures.bind (hget.weaken (fun _ h => h) (fun _ _ h => h)
      (fun _ _ h => h.unstored_afterRun)) ?_ v hran
    rintro coreHash v' ⟨hknown, hcoreHash⟩
    rw [outcome_bind, store, outcome_primitive]
    cases v'.outcomes 0 with
    | throws e left => exact hknown.afterOutcome.unstored_afterRun
    | completes _ =>
        refine .measured hmissing rfl hknown.cores hknown.runs hknown.produced ?_ hcoreHash
        exact congrArg (Function.update · _ _) hknown.results
  · exact Ensures.pure fun v hv => .cached (Int.not_lt.mp henough) rfl hv

/-! ## Requests -/

/-- What a request does inside its {lit}`try`. -/
def collectRunOutputs (request : Request Measurement Files RunOutput) :
    Method Measurement MeasurementHash CoreHash Files Executable RunOutput (List RunOutput) := do
  let measurement := services.prepareMeasurement request.measurement
  let measurementHash := services.getMeasurementHash measurement
  let cached ← cachedRunOutputs services request.configuration measurement measurementHash
  missingRunOutputs services measurement measurementHash request.numberOfRuns cached

/-- Inside its {lit}`try` the request is answered, or the cache is left as it was. -/
theorem collectRunOutputs_answered
    {w : World Measurement MeasurementHash CoreHash Files Executable RunOutput}
    (hcores : Consistent w.measurementHashRepository)
    (request : Request Measurement Files RunOutput) :
    Ensures (fun v => v = { w with outcomes := request.outcomes })
      (collectRunOutputs services request)
      (Answered w (services.prepareMeasurement request.measurement)
        (services.getMeasurementHash (services.prepareMeasurement request.measurement))
        request.numberOfRuns (usedOutputs services w request))
      (fun _ => Unstored w) := by
  have hcached := (cachedRunOutputs_used services hcores request).weaken (fun _ h => h)
    (fun _ _ h => h) (fun _ _ h => Idle.unstored h)
  apply Ensures.bind hcached
  rintro cached v ⟨rfl, hidle⟩
  exact missingRunOutputs_answered services w _ _ request.numberOfRuns _ v hidle

/-- What a request makes of the result of its {lit}`try`. -/
theorem respond_eq
    (w : World Measurement MeasurementHash CoreHash Files Executable RunOutput)
    (request : Request Measurement Files RunOutput) :
    respond services w request =
      match outcome (collectRunOutputs services request)
        { w with outcomes := request.outcomes } with
      | (.ok runOutputs, v) =>
          if (runOutputs.length : Int) < request.numberOfRuns then
            (.error (.error "unable to retrieve enough results"), v)
          else
            (.ok ⟨services.prepareMeasurement request.measurement,
              runOutputs.take request.numberOfRuns.toNat, none⟩, v)
      | (.error e, v) =>
          (.error (if isException e then .error "error occured during measurement" else e), v) := by
  unfold respond measure collectRunOutputs
  rw [outcome_bind, outcome_tryCatch]
  dsimp only
  generalize outcome _ _ = ended
  rcases ended with ⟨e | runOutputs, v⟩
  · dsimp only
    by_cases he : isException e = true
    · rw [if_pos he, if_pos he]
      rfl
    · rw [if_neg he, if_neg he]
      rfl
  · dsimp only
    by_cases hfew : (runOutputs.length : Int) < request.numberOfRuns
    · rw [if_pos hfew, if_pos hfew]
      rfl
    · rw [if_neg hfew, if_neg hfew]
      rfl

variable {services}

omit [DecidableEq CoreHash] [DecidableEq Files] in
/-- The repository is consistent after an answer. -/
theorem Answered.consistent
    {w v : World Measurement MeasurementHash CoreHash Files Executable RunOutput}
    {measurement : Measurement} {measurementHash : MeasurementHash} {numberOfRuns : Int}
    {used runOutputs : List RunOutput}
    (h : Answered w measurement measurementHash numberOfRuns used runOutputs v) :
    Consistent v.measurementHashRepository := by
  cases h with
  | cached _ _ hidle => exact hidle.cores
  | measured _ _ hcores _ _ _ _ => exact hcores

/-- The world a request leaves is the one its {lit}`try` leaves. -/
theorem respond_world
    (w : World Measurement MeasurementHash CoreHash Files Executable RunOutput)
    (request : Request Measurement Files RunOutput) :
    (respond services w request).2 =
      (outcome (collectRunOutputs services request) { w with outcomes := request.outcomes }).2 := by
  rw [respond_eq]
  rcases outcome (collectRunOutputs services request) { w with outcomes := request.outcomes } with
    ⟨e | runOutputs, v⟩
  · rfl
  · dsimp only
    split <;> rfl

/-- Whether it returns or throws, a request keeps the repository consistent. -/
theorem Consistent.respond
    {w : World Measurement MeasurementHash CoreHash Files Executable RunOutput}
    (hcores : Consistent w.measurementHashRepository)
    (request : Request Measurement Files RunOutput) :
    Consistent (respond services w request).2.measurementHashRepository := by
  have hended := collectRunOutputs_answered services hcores request _ rfl
  rw [respond_world]
  rcases hrun : outcome (collectRunOutputs services request)
    { w with outcomes := request.outcomes } with ⟨e | runOutputs, v⟩
  · rw [hrun] at hended
    exact hended.cores
  · rw [hrun] at hended
    exact hended.consistent

/-- In every state of the controller the repository is consistent. -/
theorem consistent_of_run {files : Files} {executable : Option Executable}
    {results : MeasurementHash → Option (MeasurementResult Measurement CoreHash RunOutput)}
    {outcomes : Nat → Outcome Files RunOutput}
    {requests : List (Request Measurement Files RunOutput)}
    {w : World Measurement MeasurementHash CoreHash Files Executable RunOutput}
    (hrun : Run (step services) (start files executable results outcomes) requests w) :
    Consistent w.measurementHashRepository := by
  induction hrun with
  | start => exact empty_consistent
  | @next _ w w' request _ hstep ih =>
      rw [← Except.ok.inj hstep]
      exact ih.respond request

/-! ## Accounting -/

/-- The number of outputs the request finds in the cache: those of the stored result, if there
is one, it may be looked up and the core check passes. -/
def cachedCount (services : Services Measurement MeasurementHash CoreHash Files Executable)
    (w : World Measurement MeasurementHash CoreHash Files Executable RunOutput)
    (request : Request Measurement Files RunOutput) : Nat :=
  let measurementHash :=
    services.getMeasurementHash (services.prepareMeasurement request.measurement)
  match w.results measurementHash with
  | none => 0
  | some storedResult =>
      if (request.configuration.useCachedResults ||
          w.measurementHashRepository.hasMeasurementBeenSeen measurementHash) &&
          coreCheckPasses services w request storedResult.coreHash then
        storedResult.runOutputs.length
      else
        0

/-- No step of the request fails, and the measuring core returns as many outputs as are
asked of it. -/
structure NoStepFails
    (services : Services Measurement MeasurementHash CoreHash Files Executable)
    (w : World Measurement MeasurementHash CoreHash Files Executable RunOutput)
    (request : Request Measurement Files RunOutput) : Prop where
  completes : ∀ i e left, request.outcomes i ≠ .throws e left
  yields : ∀ new, (respond services w request).2.produced = w.produced ++ new →
    ∀ run ∈ new, (run.outputs.length : Int) = run.command.runCount

/-- What a request returns, has run and stores, if {lit}`used` are the outputs it uses again. -/
structure Accounted (w : World Measurement MeasurementHash CoreHash Files Executable RunOutput)
    (measurement : Measurement) (measurementHash : MeasurementHash) (numberOfRuns : Int)
    (used : List RunOutput) (result : MeasurementResult Measurement CoreHash RunOutput)
    (v : World Measurement MeasurementHash CoreHash Files Executable RunOutput) : Prop where
  returned : (result.runOutputs.length : Int) = numberOfRuns
  requested : ∃ new, v.runs = w.runs ++ new ∧
    (∀ run ∈ new, run.command.measurement = measurement) ∧
    (new.map fun run => run.command.runCount).sum = max 0 (numberOfRuns - used.length)
  unchanged : numberOfRuns ≤ used.length →
    v.results = w.results ∧ result.runOutputs = used.take numberOfRuns.toNat
  stored : used.length < numberOfRuns → ∃ outputs coreHash,
    v.produced = w.produced ++ [⟨⟨measurement, numberOfRuns - used.length⟩, outputs⟩] ∧
    v.results = Function.update w.results measurementHash
      (some ⟨measurement, outputs ++ used, some coreHash⟩) ∧
    v.measurementHashRepository.getCoreHash measurementHash = some coreHash ∧
    result.runOutputs = outputs ++ used

/-- The request uses the outputs it finds in the cache, and what it returns, has run and stores
is accounted for. -/
structure AccountsFor (services : Services Measurement MeasurementHash CoreHash Files Executable)
    (w : World Measurement MeasurementHash CoreHash Files Executable RunOutput)
    (request : Request Measurement Files RunOutput) : Prop where
  used : (usedOutputs services w request).length = cachedCount services w request
  accounted : ∃ result v, respond services w request = (.ok result, v) ∧
    Accounted w (services.prepareMeasurement request.measurement)
      (services.getMeasurementHash (services.prepareMeasurement request.measurement))
      request.numberOfRuns (usedOutputs services w request) result v

/-- If the stored result can be loaded, all outputs that were found are used. -/
theorem length_usedOutputs
    {w : World Measurement MeasurementHash CoreHash Files Executable RunOutput}
    {request : Request Measurement Files RunOutput}
    (hload : ∀ e left, request.outcomes 0 ≠ .throws e left) :
    (usedOutputs services w request).length = cachedCount services w request := by
  have hloaded : loadedResult services w request =
      if request.configuration.useCachedResults ||
          w.measurementHashRepository.hasMeasurementBeenSeen
            (services.getMeasurementHash (services.prepareMeasurement request.measurement)) then
        w.results (services.getMeasurementHash (services.prepareMeasurement request.measurement))
      else none := by
    unfold loadedResult
    cases hzero : request.outcomes 0 with
    | throws e left => exact absurd hzero (hload e left)
    | completes _ => rfl
  rw [usedOutputs, hloaded, cachedCount]
  by_cases hlookup : (request.configuration.useCachedResults ||
      w.measurementHashRepository.hasMeasurementBeenSeen (services.getMeasurementHash
        (services.prepareMeasurement request.measurement))) = true
  · simp only [hlookup, if_true, Bool.true_and]
    cases w.results (services.getMeasurementHash
      (services.prepareMeasurement request.measurement)) with
    | none => rfl
    | some storedResult =>
        dsimp only
        split <;> rfl
  · simp only [hlookup, Bool.false_and]
    cases w.results (services.getMeasurementHash
      (services.prepareMeasurement request.measurement)) <;> rfl

/-- If no step fails and its {lit}`try` returns, a request returns as many outputs as are asked
for, has those run that were not found in the cache, and stores them in front of those it has
used. -/
theorem accounted_of_returned
    {w v : World Measurement MeasurementHash CoreHash Files Executable RunOutput}
    (hcores : Consistent w.measurementHashRepository)
    {request : Request Measurement Files RunOutput} (hcount : 0 ≤ request.numberOfRuns)
    (hsteps : NoStepFails services w request) {runOutputs : List RunOutput}
    (hbody : outcome (collectRunOutputs services request) { w with outcomes := request.outcomes } =
      (.ok runOutputs, v)) :
    ∃ result v, respond services w request = (.ok result, v) ∧
      Accounted w (services.prepareMeasurement request.measurement)
        (services.getMeasurementHash (services.prepareMeasurement request.measurement))
        request.numberOfRuns (usedOutputs services w request) result v := by
  have hended := collectRunOutputs_answered services hcores request _ rfl
  have hworld : (respond services w request).2 = _ := respond_world w request
  have hresponse := respond_eq services w request
  rw [hbody] at hended hworld hresponse
  dsimp only at hended hworld hresponse
  cases hended with
  | cached henough houtputs hidle =>
      subst houtputs
      rw [if_neg (Int.not_lt.mpr henough)] at hresponse
      refine ⟨_, v, hresponse, ?_⟩
      constructor
      case returned =>
        rw [List.length_take]
        omega
      case requested =>
        refine ⟨[], by rw [hidle.runs, List.append_nil], by simp, ?_⟩
        simp only [List.map_nil, List.sum_nil]
        omega
      case unchanged =>
        intro _
        exact ⟨hidle.results, rfl⟩
      case stored =>
        intro hmissing
        exact absurd henough (Int.not_le.mpr hmissing)
  | @measured executable outputs coreHash hmissing houtputs hcores hruns hproduced hresults
      hcoreHash =>
      have hyields := hsteps.yields _ (hworld ▸ hproduced) _ (List.mem_singleton_self _)
      dsimp only at hyields
      have hlength : (runOutputs.length : Int) = request.numberOfRuns := by
        rw [houtputs, List.length_append]
        omega
      rw [if_neg (by omega), List.take_of_length_le (by omega)] at hresponse
      refine ⟨_, v, hresponse, ?_⟩
      constructor
      case returned => exact hlength
      case requested =>
        refine ⟨_, hruns, by simp, ?_⟩
        simp only [List.map_cons, List.map_nil, List.sum_singleton]
        omega
      case unchanged =>
        intro henough
        exact absurd hmissing (Int.not_lt.mpr henough)
      case stored =>
        intro _
        exact ⟨outputs, coreHash, hproduced, hresults, hcoreHash, houtputs⟩

end Specifications

end MeasurementAppController
end Roofline
