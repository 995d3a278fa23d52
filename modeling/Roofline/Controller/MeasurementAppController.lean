import Roofline.CoreHash.MeasurementHashRepository
import Roofline.Library.Programs

/-!
# The measurement controller

{lit}`MeasurementAppController.measure` answers a request for a number of run
outputs from the result cache where it may and runs the measuring core for the
rest.  Building the core is skipped when the controller can tell that the
executable in place is the right one.  This file models the controller with the
files and the executable on disk.  Every step that touches the disk or starts a
process may fail.

Main results:

- Theorem {lit}`measure_unbuilt`: a request that needs no core leaves the
  repository, the files, the executable and the log of runs as they were.
-/

namespace Roofline
namespace MeasurementAppController

open Programs

variable {Measurement MeasurementHash CoreHash Files Executable RunOutput : Type}

/-- A measurement result as it is kept in the cache. -/
structure MeasurementResult (Measurement CoreHash RunOutput : Type) where
  measurement : Measurement
  runOutputs : List RunOutput
  coreHash : Option CoreHash

/-- The command handed to the measuring core. -/
structure MeasurementCommand (Measurement : Type) where
  measurement : Measurement
  runCount : Int
deriving DecidableEq, Repr

/-- An execution of the measuring core. -/
structure CoreRun (Measurement Executable : Type) where
  command : MeasurementCommand Measurement
  executable : Executable
deriving DecidableEq, Repr

/-- What an execution of the measuring core returned. -/
structure CoreOutputs (Measurement RunOutput : Type) where
  command : MeasurementCommand Measurement
  outputs : List RunOutput
deriving DecidableEq, Repr

/-- How a step outside the controller ends.  If it throws, a preparation may have
written any files; if it completes, a run yields its outputs. -/
inductive Outcome (Files RunOutput : Type) where
  | completes (outputs : List RunOutput)
  | throws (e : Throwable) (left : Files)

/-- The services the controller relies on. -/
structure Services (Measurement MeasurementHash CoreHash Files Executable : Type) where
  /-- {lit}`measurementService.prepareMeasurement`, which changes its argument. -/
  prepareMeasurement : Measurement → Measurement
  /-- {lit}`hashService.getMeasurementHash`. -/
  getMeasurementHash : Measurement → MeasurementHash
  /-- The files {lit}`prepareMeasuringCoreBuilding` generates. -/
  generatedFiles : Measurement → Files
  /-- The executable {lit}`make` builds from the files on disk. -/
  compiled : Files → Executable
  /-- {lit}`hashService.hashFile` of the executable. -/
  hashFile : Executable → CoreHash

/-- The two configuration keys the controller reads. -/
structure Configuration where
  useCachedResults : Bool
  checkCore : Bool
deriving DecidableEq, Repr

/-- The fields of the controller, the disk, and the outcomes of the steps to come. -/
structure World (Measurement MeasurementHash CoreHash Files Executable RunOutput : Type) where
  measurementHashRepository : MeasurementHashRepository MeasurementHash CoreHash
  currentlyCompiledMeasurementHash : Option MeasurementHash
  files : Files
  executable : Option Executable
  results : MeasurementHash → Option (MeasurementResult Measurement CoreHash RunOutput)
  outcomes : Nat → Outcome Files RunOutput
  runs : List (CoreRun Measurement Executable)
  /-- What the executions that returned have produced. -/
  produced : List (CoreOutputs Measurement RunOutput) := []

/-- A method of the controller. -/
abbrev Method (Measurement MeasurementHash CoreHash Files Executable RunOutput α : Type) : Type :=
  Program Throwable
    (World Measurement MeasurementHash CoreHash Files Executable RunOutput) α

/-- Java's {lit}`catch (Exception e)` does not catch errors. -/
def isException : Throwable → Bool
  | .error _ => false
  | _ => true

section Methods

variable [DecidableEq MeasurementHash] [DecidableEq CoreHash] [DecidableEq Files]
variable (services : Services Measurement MeasurementHash CoreHash Files Executable)

/-- The world after the next external step has taken its outcome. -/
def World.afterOutcome
    (w : World Measurement MeasurementHash CoreHash Files Executable RunOutput) :
    World Measurement MeasurementHash CoreHash Files Executable RunOutput :=
  { w with outcomes := fun n => w.outcomes (n + 1) }

/-! ## External steps -/

/-- {lit}`measuringCoreService.prepareMeasuringCoreBuilding`: leaves the files of the
measurement on disk and returns if any of them changed. -/
def prepareMeasuringCoreBuilding (measurement : Measurement) :
    Method Measurement MeasurementHash CoreHash Files Executable RunOutput Bool :=
  primitive fun w =>
    match w.outcomes 0 with
    | .completes _ =>
        (.ok (decide (w.files ≠ services.generatedFiles measurement)),
          { w.afterOutcome with files := services.generatedFiles measurement })
    | .throws e left => (.error e, { w.afterOutcome with files := left })

/-- {lit}`measuringCoreService.compilePreparedMeasuringCore`: compiles the files on disk. -/
def compilePreparedMeasuringCore :
    Method Measurement MeasurementHash CoreHash Files Executable RunOutput Unit :=
  primitive fun w =>
    match w.outcomes 0 with
    | .completes _ =>
        (.ok (), { w.afterOutcome with executable := some (services.compiled w.files) })
    | .throws e _ => (.error e, w.afterOutcome)

/-- {lit}`hashService.hashCurrentlyCompiledMeasuringCore`. -/
def hashCurrentlyCompiledMeasuringCore :
    Method Measurement MeasurementHash CoreHash Files Executable RunOutput CoreHash :=
  primitive fun w =>
    match w.outcomes 0, w.executable with
    | .completes _, some executable => (.ok (services.hashFile executable), w.afterOutcome)
    | .completes _, none => (.error .ioException, w.afterOutcome)
    | .throws e _, _ => (.error e, w.afterOutcome)

/-- {lit}`measuringCoreService.runMeasuringCore`: runs the executable in place. -/
def runMeasuringCore (command : MeasurementCommand Measurement) :
    Method Measurement MeasurementHash CoreHash Files Executable RunOutput
      (MeasurementResult Measurement CoreHash RunOutput) :=
  primitive fun w =>
    match w.executable with
    | none => (.error .ioException, w.afterOutcome)
    | some executable =>
        let started := { w.afterOutcome with runs := w.runs ++ [⟨command, executable⟩] }
        match w.outcomes 0 with
        | .completes outputs =>
            (.ok ⟨command.measurement, outputs, none⟩,
              { started with produced := w.produced ++ [⟨command, outputs⟩] })
        | .throws e _ => (.error e, started)

/-- {lit}`measurementResultRepository.getMeasurementResult`: null if nothing was stored
or loading fails. -/
def getMeasurementResult (measurementHash : MeasurementHash) :
    Method Measurement MeasurementHash CoreHash Files Executable RunOutput
      (Option (MeasurementResult Measurement CoreHash RunOutput)) :=
  primitive fun w =>
    match w.outcomes 0 with
    | .completes _ => (.ok (w.results measurementHash), w.afterOutcome)
    | .throws _ _ => (.ok none, w.afterOutcome)

/-- {lit}`measurementResultRepository.store`.  If it throws it may have truncated the file; the
entry stays as it was here, and loading a truncated file is one of the later loads that throw. -/
def store (result : MeasurementResult Measurement CoreHash RunOutput)
    (measurementHash : MeasurementHash) :
    Method Measurement MeasurementHash CoreHash Files Executable RunOutput Unit :=
  primitive fun w =>
    match w.outcomes 0 with
    | .completes _ =>
        (.ok (), { w.afterOutcome with
          results := Function.update w.results measurementHash (some result) })
    | .throws e _ => (.error e, w.afterOutcome)

/-- A method of {lit}`measurementHashRepository`. -/
def onRepository {α : Type} (method : MeasurementHashRepository MeasurementHash CoreHash →
      MethodResult (MeasurementHashRepository MeasurementHash CoreHash) α) :
    Method Measurement MeasurementHash CoreHash Files Executable RunOutput α :=
  primitive fun w =>
    let (result, repository) := method w.measurementHashRepository
    (result, { w with measurementHashRepository := repository })

/-! ## The methods of the controller -/

/-- The executable in place is right: the measurement is the compiled one, or has
the same core. -/
def rightCoreCompiled
    (w : World Measurement MeasurementHash CoreHash Files Executable RunOutput)
    (measurementHash : MeasurementHash) : Bool :=
  match w.currentlyCompiledMeasurementHash with
  | none => false
  | some current =>
      current == measurementHash ||
        w.measurementHashRepository.areCoresEqual current measurementHash

/-- {lit}`buildMeasuringCore`: compiles unless the right core is compiled or nothing has changed. -/
def buildMeasuringCore (measurement : Measurement) (measurementHash : MeasurementHash) :
    Method Measurement MeasurementHash CoreHash Files Executable RunOutput Unit := do
  let w ← get
  if rightCoreCompiled w measurementHash then
    return ()
  let coreChanged ← prepareMeasuringCoreBuilding services measurement
  match w.currentlyCompiledMeasurementHash with
  | none => compilePreparedMeasuringCore services
  | some current =>
      if coreChanged then
        compilePreparedMeasuringCore services
      else
        onRepository fun repo => repo.setHaveEqualCores current measurementHash
  modify fun w => { w with currentlyCompiledMeasurementHash := some measurementHash }

/-- {lit}`getCoreHash`: builds the core if its hash is not known. -/
def getCoreHash (measurement : Measurement) (measurementHash : MeasurementHash) :
    Method Measurement MeasurementHash CoreHash Files Executable RunOutput CoreHash := do
  let w ← get
  match w.measurementHashRepository.getCoreHash measurementHash with
  | some coreHash => return coreHash
  | none =>
      buildMeasuringCore services measurement measurementHash
      -- the build may have merged two cores and thereby made the hash known
      let w ← get
      match w.measurementHashRepository.getCoreHash measurementHash with
      | some coreHash => return coreHash
      | none =>
          let coreHash ← hashCurrentlyCompiledMeasuringCore services
          onRepository fun repo => repo.setCoreHash measurementHash coreHash
          return coreHash

/-- {lit}`performMeasurement`: builds the core and runs it. -/
def performMeasurement (command : MeasurementCommand Measurement)
    (measurementHash : MeasurementHash) :
    Method Measurement MeasurementHash CoreHash Files Executable RunOutput
      (MeasurementResult Measurement CoreHash RunOutput) := do
  buildMeasuringCore services command.measurement measurementHash
  runMeasuringCore command

/-- The part of {lit}`measure` which looks for results that may be used again. -/
def cachedRunOutputs (configuration : Configuration) (measurement : Measurement)
    (measurementHash : MeasurementHash) :
    Method Measurement MeasurementHash CoreHash Files Executable RunOutput
      (List RunOutput) := do
  let w ← get
  if configuration.useCachedResults ||
      w.measurementHashRepository.hasMeasurementBeenSeen measurementHash then
    match ← getMeasurementResult measurementHash with
    | none => return []
    | some loadedResult =>
        if configuration.checkCore then
          let coreHash ← getCoreHash services measurement measurementHash
          if some coreHash = loadedResult.coreHash then
            return loadedResult.runOutputs
          else
            return []
        else
          return loadedResult.runOutputs
  else
    return []

/-- The part of {lit}`measure` which runs the measuring core for the missing outputs. -/
def missingRunOutputs (measurement : Measurement) (measurementHash : MeasurementHash)
    (numberOfRuns : Int) (runOutputs : List RunOutput) :
    Method Measurement MeasurementHash CoreHash Files Executable RunOutput
      (List RunOutput) := do
  if numberOfRuns > runOutputs.length then
    let newResult ← performMeasurement services
      ⟨measurement, numberOfRuns - runOutputs.length⟩ measurementHash
    let combined := newResult.runOutputs ++ runOutputs
    let coreHash ← getCoreHash services measurement measurementHash
    store { newResult with runOutputs := combined, coreHash := some coreHash } measurementHash
    return combined
  else
    return runOutputs

/-- {lit}`measure`, up to the uids that {lit}`setResultUids` sets in the result. -/
def measure (configuration : Configuration) (measurement : Measurement) (numberOfRuns : Int) :
    Method Measurement MeasurementHash CoreHash Files Executable RunOutput
      (MeasurementResult Measurement CoreHash RunOutput) := do
  let measurement := services.prepareMeasurement measurement
  let runOutputs ← tryCatch
    (do
      let measurementHash := services.getMeasurementHash measurement
      let cached ← cachedRunOutputs services configuration measurement measurementHash
      missingRunOutputs services measurement measurementHash numberOfRuns cached)
    fun e =>
      if isException e then
        throw (.error "error occured during measurement")
      else
        throw e
  if runOutputs.length < numberOfRuns then
    throw (.error "unable to retrieve enough results")
  return ⟨measurement, runOutputs.take numberOfRuns.toNat, none⟩

/-! ## Requests and what they need -/

/-- A call of {lit}`measure`, the configuration it finds and the outcomes of the
external steps it makes. -/
structure Request (Measurement Files RunOutput : Type) where
  configuration : Configuration
  measurement : Measurement
  numberOfRuns : Int
  outcomes : Nat → Outcome Files RunOutput

/-- The result and the world a request leaves. -/
def respond (w : World Measurement MeasurementHash CoreHash Files Executable RunOutput)
    (request : Request Measurement Files RunOutput) :
    MethodResult (World Measurement MeasurementHash CoreHash Files Executable RunOutput)
      (MeasurementResult Measurement CoreHash RunOutput) :=
  outcome (measure services request.configuration request.measurement request.numberOfRuns)
    { w with outcomes := request.outcomes }

/-- One request; the caller may go on whether it returns or throws. -/
def step (w : World Measurement MeasurementHash CoreHash Files Executable RunOutput)
    (request : Request Measurement Files RunOutput) :
    Except Throwable (World Measurement MeasurementHash CoreHash Files Executable RunOutput) :=
  .ok (respond services w request).2

/-- The stored result the request finds, if it may look for one. -/
def loadedResult (w : World Measurement MeasurementHash CoreHash Files Executable RunOutput)
    (request : Request Measurement Files RunOutput) :
    Option (MeasurementResult Measurement CoreHash RunOutput) :=
  let measurementHash :=
    services.getMeasurementHash (services.prepareMeasurement request.measurement)
  if request.configuration.useCachedResults ||
      w.measurementHashRepository.hasMeasurementBeenSeen measurementHash then
    match request.outcomes 0 with
    | .completes _ => w.results measurementHash
    | .throws _ _ => none
  else
    none

/-- The outputs the request may use again, unless its core hash is not known yet. -/
def cachedAnswer (w : World Measurement MeasurementHash CoreHash Files Executable RunOutput)
    (request : Request Measurement Files RunOutput) : Option (List RunOutput) :=
  match loadedResult services w request with
  | none => some []
  | some loadedResult =>
      if request.configuration.checkCore then
        match w.measurementHashRepository.getCoreHash
          (services.getMeasurementHash (services.prepareMeasurement request.measurement)) with
        | none => none
        | some coreHash =>
            some (if some coreHash = loadedResult.coreHash then loadedResult.runOutputs else [])
      else
        some loadedResult.runOutputs

/-- The request cannot be answered without the core being built. -/
def NeedsCore (w : World Measurement MeasurementHash CoreHash Files Executable RunOutput)
    (request : Request Measurement Files RunOutput) : Prop :=
  ∀ runOutputs, cachedAnswer services w request = some runOutputs →
    request.numberOfRuns > runOutputs.length

variable {services}

/-- Looking for results that may be used again changes nothing, unless the core
hash has to be found out first. -/
theorem cachedRunOutputs_unbuilt
    {w : World Measurement MeasurementHash CoreHash Files Executable RunOutput}
    {request : Request Measurement Files RunOutput} {runOutputs : List RunOutput}
    (hanswer : cachedAnswer services w request = some runOutputs) :
    ∃ outcomes, outcome
      (cachedRunOutputs services request.configuration
        (services.prepareMeasurement request.measurement)
        (services.getMeasurementHash (services.prepareMeasurement request.measurement)))
      { w with outcomes := request.outcomes } =
        (.ok runOutputs, { w with outcomes := outcomes }) := by
  unfold cachedAnswer loadedResult at hanswer
  unfold cachedRunOutputs
  rw [outcome_bind, outcome_get]
  dsimp only at hanswer ⊢
  by_cases hlookup : (request.configuration.useCachedResults ||
      w.measurementHashRepository.hasMeasurementBeenSeen (services.getMeasurementHash
        (services.prepareMeasurement request.measurement))) = true
  · rw [if_pos hlookup] at hanswer ⊢
    rw [outcome_bind, getMeasurementResult, outcome_primitive]
    refine ⟨fun n => request.outcomes (n + 1), ?_⟩
    dsimp only
    cases hload : request.outcomes 0 with
    | throws e left =>
        rw [hload] at hanswer
        rw [← Option.some.inj hanswer]
        rfl
    | completes outputs =>
        rw [hload] at hanswer
        dsimp only at hanswer ⊢
        cases hstored : w.results (services.getMeasurementHash
          (services.prepareMeasurement request.measurement)) with
        | none =>
            rw [hstored] at hanswer
            rw [← Option.some.inj hanswer]
            rfl
        | some stored =>
            rw [hstored] at hanswer
            dsimp only at hanswer ⊢
            by_cases hcheck : request.configuration.checkCore = true
            · rw [if_pos hcheck] at hanswer ⊢
              cases hknown : w.measurementHashRepository.getCoreHash
                (services.getMeasurementHash
                  (services.prepareMeasurement request.measurement)) with
              | none => simp [hknown] at hanswer
              | some coreHash =>
                  rw [hknown] at hanswer
                  rw [outcome_bind, getCoreHash, outcome_bind, outcome_get]
                  dsimp only [World.afterOutcome]
                  rw [hknown, ← Option.some.inj hanswer, outcome_pure]
                  dsimp only
                  by_cases hequal : some coreHash = stored.coreHash
                  · rw [if_pos hequal, if_pos hequal, outcome_pure]
                  · rw [if_neg hequal, if_neg hequal, outcome_pure]
            · rw [if_neg hcheck] at hanswer ⊢
              rw [← Option.some.inj hanswer]
              rfl
  · rw [if_neg hlookup] at hanswer ⊢
    rw [← Option.some.inj hanswer]
    exact ⟨request.outcomes, rfl⟩

/-- A request that needs no core changes nothing. -/
theorem measure_unbuilt
    {w : World Measurement MeasurementHash CoreHash Files Executable RunOutput}
    {request : Request Measurement Files RunOutput} (hneeds : ¬NeedsCore services w request) :
    ∃ outcomes, (respond services w request).2 = { w with outcomes := outcomes } := by
  rcases not_forall.mp hneeds with ⟨runOutputs, hrest⟩
  rcases Classical.not_imp.mp hrest with ⟨hanswer, henough⟩
  rcases cachedRunOutputs_unbuilt hanswer with ⟨outcomes, hcached⟩
  refine ⟨outcomes, ?_⟩
  unfold respond measure
  rw [outcome_bind, outcome_tryCatch, outcome_bind, hcached]
  dsimp only [missingRunOutputs]
  rw [if_neg henough, outcome_pure]
  dsimp only
  rw [if_neg henough]
  rfl

end Methods

end MeasurementAppController
end Roofline
