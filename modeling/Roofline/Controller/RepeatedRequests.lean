import Roofline.Controller.Accounting

/-!
# Requests that are repeated

After a request was answered, the outputs it was answered from are stored with the core hash
that is known for the measurement.  If caching is on, a second request for the same
measurement hash is answered from them.

Main results:

- Theorem {lit}`collectRunOutputs_stored`: the outputs a request is answered from are stored.
- Theorem {lit}`respond_again`: the repetition of a request makes no run and returns the same
  outputs.
-/

namespace Roofline
namespace MeasurementAppController

open Programs Runs MeasurementHashRepository

variable {Measurement MeasurementHash CoreHash Files Executable RunOutput : Type}
variable [DecidableEq MeasurementHash] [DecidableEq CoreHash] [DecidableEq Files]
variable (services : Services Measurement MeasurementHash CoreHash Files Executable)

/-- These outputs are stored for the measurement; if the core is checked, they are stored with
its core hash. -/
def HoldsOutputs (w : World Measurement MeasurementHash CoreHash Files Executable RunOutput)
    (configuration : Configuration) (measurementHash : MeasurementHash)
    (runOutputs : List RunOutput) : Prop :=
  ∃ storedResult, w.results measurementHash = some storedResult ∧
    storedResult.runOutputs = runOutputs ∧
    (configuration.checkCore = true → ∃ coreHash,
      w.measurementHashRepository.getCoreHash measurementHash = some coreHash ∧
        storedResult.coreHash = some coreHash)

/-- Outputs that are used again are stored. -/
theorem cachedRunOutputs_stored
    (w : World Measurement MeasurementHash CoreHash Files Executable RunOutput)
    (configuration : Configuration) (measurement : Measurement)
    (measurementHash : MeasurementHash) :
    Ensures (Idle w) (cachedRunOutputs services configuration measurement measurementHash)
      (fun cached v => Idle w v ∧
        (cached ≠ [] → HoldsOutputs v configuration measurementHash cached))
      (fun _ _ => True) := by
  intro v hv
  unfold cachedRunOutputs
  rw [outcome_bind, outcome_get]
  dsimp only
  refine Ensures.ite (fun _ => ?_) (fun _ => Ensures.pure fun _ h => ⟨h, absurd rfl⟩) v hv
  have hload : Ensures (Idle w) (getMeasurementResult measurementHash)
      (fun loaded v => Idle w v ∧
        ∀ storedResult, loaded = some storedResult → w.results measurementHash = some storedResult)
      (fun _ _ => True) := by
    intro v hv
    rw [getMeasurementResult, outcome_primitive]
    cases v.outcomes 0 with
    | throws e left => exact ⟨hv.afterOutcome, by simp⟩
    | completes _ =>
        refine ⟨hv.afterOutcome, ?_⟩
        intro storedResult hstored
        rwa [← hv.results]
  apply hload.bind
  intro loaded
  cases loaded with
  | none => exact Ensures.pure fun _ h => ⟨h.1, absurd rfl⟩
  | some storedResult =>
      dsimp only
      refine Ensures.ite (fun hcheck => ?_) (fun hcheck => Ensures.pure ?_)
      · rintro v ⟨hv, hresults⟩
        have hget := (getCoreHash_idle services w measurement measurementHash).weaken
          (fun _ h => h) (fun _ _ h => h) (fun _ _ _ => trivial)
        refine hget.bind (S := fun cached v => Idle w v ∧
          (cached ≠ [] → HoldsOutputs v configuration measurementHash cached)) ?_ v hv
        intro coreHash
        refine Ensures.ite (fun hequal => Ensures.pure ?_)
          (fun _ => Ensures.pure fun _ h => ⟨h.1, absurd rfl⟩)
        rintro v ⟨hv, hknown⟩
        refine ⟨hv, fun _ => ⟨storedResult, ?_, rfl, fun _ => ⟨coreHash, hknown, hequal.symm⟩⟩⟩
        rw [hv.results]
        exact hresults storedResult rfl
      · rintro v ⟨hv, hresults⟩
        refine ⟨hv, fun _ => ⟨storedResult, ?_, rfl, fun hon => absurd hon hcheck⟩⟩
        rw [hv.results]
        exact hresults storedResult rfl

/-- The outputs a request is answered from are stored. -/
theorem collectRunOutputs_stored
    {w : World Measurement MeasurementHash CoreHash Files Executable RunOutput}
    (hcores : Consistent w.measurementHashRepository)
    (request : Request Measurement Files RunOutput) :
    Ensures (fun v => v = { w with outcomes := request.outcomes })
      (collectRunOutputs services request)
      (fun runOutputs v => runOutputs ≠ [] → HoldsOutputs v request.configuration
        (services.getMeasurementHash (services.prepareMeasurement request.measurement))
        runOutputs)
      (fun _ _ => True) := by
  have hstart : ∀ v, v = { w with outcomes := request.outcomes } → Idle w v := by
    rintro _ rfl
    exact ⟨hcores, rfl, rfl, rfl⟩
  refine ((cachedRunOutputs_stored services w request.configuration _ _).weaken hstart
    (fun _ _ h => h) (fun _ _ h => h)).bind ?_
  rintro cached v ⟨hv, hcached⟩
  have hanswered := missingRunOutputs_answered services w
    (services.prepareMeasurement request.measurement)
    (services.getMeasurementHash (services.prepareMeasurement request.measurement))
    request.numberOfRuns cached v hv
  by_cases hmissing : request.numberOfRuns > cached.length
  · rcases hrun : outcome (missingRunOutputs services
      (services.prepareMeasurement request.measurement)
      (services.getMeasurementHash (services.prepareMeasurement request.measurement))
      request.numberOfRuns cached) v with ⟨e | runOutputs, v'⟩
    · trivial
    · rw [hrun] at hanswered
      intro _
      cases hanswered with
      | cached henough _ _ => exact absurd hmissing (Int.not_lt.mpr henough)
      | @measured executable outputs coreHash _ houtputs _ _ _ hresults hcoreHash =>
          refine ⟨_, by rw [hresults, Function.update_self], houtputs.symm, ?_⟩
          exact fun _ => ⟨coreHash, hcoreHash, rfl⟩
  · unfold missingRunOutputs
    rw [if_neg hmissing]
    exact hcached

/-! ## The repetition -/

variable {services}
  {w v : World Measurement MeasurementHash CoreHash Files Executable RunOutput}
  {request again : Request Measurement Files RunOutput}

omit [DecidableEq MeasurementHash] [DecidableEq CoreHash] [DecidableEq Files] in
/-- Outputs that are stored can be loaded, if caching is on. -/
theorem loadedResult_of_holdsOutputs {runOutputs : List RunOutput}
    (hheld : HoldsOutputs w request.configuration
      (services.getMeasurementHash (services.prepareMeasurement request.measurement)) runOutputs)
    (hcaching : request.configuration.useCachedResults = true)
    (hload : ∀ e left, request.outcomes 0 ≠ .throws e left) :
    ∃ storedResult, loadedResult services w request = some storedResult ∧
      storedResult.runOutputs = runOutputs ∧
      (request.configuration.checkCore = true → ∃ coreHash,
        w.measurementHashRepository.getCoreHash
          (services.getMeasurementHash (services.prepareMeasurement request.measurement)) =
            some coreHash ∧ storedResult.coreHash = some coreHash) := by
  rcases hheld with ⟨storedResult, hresults, houtputs, hcheck⟩
  refine ⟨storedResult, ?_, houtputs, hcheck⟩
  unfold loadedResult
  dsimp only
  rw [hcaching, Bool.true_or, if_pos rfl]
  cases hzero : request.outcomes 0 with
  | throws e left => exact absurd hzero (hload e left)
  | completes _ => exact hresults

/-- Outputs that are stored are used again, if caching is on and they can be loaded. -/
theorem usedOutputs_of_holdsOutputs {runOutputs : List RunOutput}
    (hheld : HoldsOutputs w request.configuration
      (services.getMeasurementHash (services.prepareMeasurement request.measurement)) runOutputs)
    (hcaching : request.configuration.useCachedResults = true)
    (hload : ∀ e left, request.outcomes 0 ≠ .throws e left) :
    usedOutputs services w request = runOutputs := by
  rcases loadedResult_of_holdsOutputs hheld hcaching hload with
    ⟨storedResult, hloaded, houtputs, hcheck⟩
  have hpasses : coreCheckPasses services w request storedResult.coreHash = true := by
    cases hon : request.configuration.checkCore with
    | false => exact coreCheckPasses_off services hon
    | true =>
        rcases hcheck hon with ⟨coreHash, hknown, hstored⟩
        rw [coreCheckPasses_on services hon (currentCoreHash_known services hknown)]
        exact decide_eq_true hstored
  rw [usedOutputs, hloaded]
  dsimp only
  rw [if_pos hpasses, houtputs]

omit [DecidableEq MeasurementHash] [DecidableEq Files] in
/-- Outputs that are stored are found without a build. -/
theorem cachedAnswer_of_holdsOutputs {runOutputs : List RunOutput}
    (hheld : HoldsOutputs w request.configuration
      (services.getMeasurementHash (services.prepareMeasurement request.measurement)) runOutputs)
    (hcaching : request.configuration.useCachedResults = true)
    (hload : ∀ e left, request.outcomes 0 ≠ .throws e left) :
    cachedAnswer services w request = some runOutputs := by
  rcases loadedResult_of_holdsOutputs hheld hcaching hload with
    ⟨storedResult, hloaded, houtputs, hcheck⟩
  unfold cachedAnswer
  rw [hloaded]
  dsimp only
  by_cases hon : request.configuration.checkCore = true
  · rcases hcheck hon with ⟨coreHash, hknown, hstored⟩
    rw [if_pos hon, hknown]
    dsimp only
    rw [if_pos hstored.symm, houtputs]
  · rw [if_neg hon, houtputs]

/-- A request that finds enough outputs without a build returns from its {lit}`try`. -/
theorem collectRunOutputs_of_cachedAnswer {runOutputs : List RunOutput}
    (hanswer : cachedAnswer services w request = some runOutputs)
    (henough : request.numberOfRuns ≤ runOutputs.length) :
    ∃ v', outcome (collectRunOutputs services request) { w with outcomes := request.outcomes } =
      (.ok runOutputs, v') := by
  rcases cachedRunOutputs_unbuilt hanswer with ⟨outcomes, hcached⟩
  refine ⟨{ w with outcomes := outcomes }, ?_⟩
  unfold collectRunOutputs
  dsimp only
  rw [outcome_bind, hcached]
  dsimp only [missingRunOutputs]
  rw [if_neg (Int.not_lt.mpr henough), outcome_pure]

/-- If enough outputs are stored, as many are used again; what was not stored was not asked for
either. -/
theorem usedOutputs_enough {runOutputs : List RunOutput}
    (hheld : runOutputs ≠ [] → HoldsOutputs w request.configuration
      (services.getMeasurementHash (services.prepareMeasurement request.measurement)) runOutputs)
    (hcaching : request.configuration.useCachedResults = true)
    (hload : ∀ e left, request.outcomes 0 ≠ .throws e left)
    (henough : request.numberOfRuns ≤ runOutputs.length) :
    request.numberOfRuns ≤ (usedOutputs services w request).length ∧
      (usedOutputs services w request).take request.numberOfRuns.toNat =
        runOutputs.take request.numberOfRuns.toNat := by
  by_cases hempty : runOutputs = []
  · subst hempty
    have hnone : request.numberOfRuns.toNat = 0 := by
      simp only [List.length_nil] at henough
      omega
    rw [hnone, List.take_zero, List.take_zero]
    refine ⟨?_, rfl⟩
    omega
  · rw [usedOutputs_of_holdsOutputs (hheld hempty) hcaching hload]
    exact ⟨henough, rfl⟩

/-- If enough outputs are stored, the request returns from its {lit}`try`, provided that it does
so if none are asked for. -/
theorem collectRunOutputs_enough {runOutputs : List RunOutput}
    (hheld : runOutputs ≠ [] → HoldsOutputs w request.configuration
      (services.getMeasurementHash (services.prepareMeasurement request.measurement)) runOutputs)
    (hcaching : request.configuration.useCachedResults = true)
    (hload : ∀ e left, request.outcomes 0 ≠ .throws e left)
    (henough : request.numberOfRuns ≤ runOutputs.length)
    (hreturns : request.numberOfRuns ≤ 0 → ∃ runOutputs' v', outcome
      (collectRunOutputs services request) { w with outcomes := request.outcomes } =
        (.ok runOutputs', v')) :
    ∃ runOutputs' v', outcome (collectRunOutputs services request)
      { w with outcomes := request.outcomes } = (.ok runOutputs', v') := by
  by_cases hnone : request.numberOfRuns ≤ 0
  · exact hreturns hnone
  · have hempty : runOutputs ≠ [] := by
      rintro rfl
      simp only [List.length_nil] at henough
      omega
    exact ⟨runOutputs, collectRunOutputs_of_cachedAnswer
      (cachedAnswer_of_holdsOutputs (hheld hempty) hcaching hload) henough⟩

/-- The repetition of a request that was answered makes no run and returns the same outputs. -/
theorem respond_again (hcores : Consistent w.measurementHashRepository)
    {result : MeasurementResult Measurement CoreHash RunOutput}
    (hresponse : respond services w request = (.ok result, v))
    (hcaching : request.configuration.useCachedResults = true)
    (hconfiguration : again.configuration = request.configuration)
    (hcount : again.numberOfRuns = request.numberOfRuns)
    (hhash : services.getMeasurementHash (services.prepareMeasurement again.measurement) =
      services.getMeasurementHash (services.prepareMeasurement request.measurement))
    (hload : ∀ e left, again.outcomes 0 ≠ .throws e left)
    (hreturns : again.numberOfRuns ≤ 0 → ∃ runOutputs v', outcome (collectRunOutputs services again)
      { v with outcomes := again.outcomes } = (.ok runOutputs, v')) :
    ∃ v', respond services v again =
        (.ok ⟨services.prepareMeasurement again.measurement, result.runOutputs, none⟩, v') ∧
      v'.runs = v.runs ∧ v'.results = v.results := by
  have hstored := collectRunOutputs_stored services hcores request _ rfl
  have hcoresLeft : Consistent (respond services w request).2.measurementHashRepository :=
    hcores.respond request
  rw [hresponse] at hcoresLeft
  rw [respond_eq] at hresponse
  rcases hrun : outcome (collectRunOutputs services request)
    { w with outcomes := request.outcomes } with ⟨e | runOutputs, left⟩
  · rw [hrun] at hresponse
    cases hresponse
  · rw [hrun] at hresponse hstored
    dsimp only at hresponse hstored
    by_cases hfew : (runOutputs.length : Int) < request.numberOfRuns
    · rw [if_pos hfew] at hresponse
      cases hresponse
    · rw [if_neg hfew] at hresponse
      cases hresponse
      have hanswered := collectRunOutputs_answered services hcoresLeft again _ rfl
      have hheld (hempty : runOutputs ≠ []) : HoldsOutputs v again.configuration
          (services.getMeasurementHash (services.prepareMeasurement again.measurement))
          runOutputs := by
        rw [hconfiguration, hhash]
        exact hstored hempty
      have hcaching' : again.configuration.useCachedResults = true := hconfiguration ▸ hcaching
      have henough : again.numberOfRuns ≤ runOutputs.length := by
        rw [hcount]
        exact Int.not_lt.mp hfew
      have hused := usedOutputs_enough hheld hcaching' hload henough
      rw [hcount] at hused
      have hbody := collectRunOutputs_enough hheld hcaching' hload henough hreturns
      rcases hbody with ⟨runOutputs', v', hbody⟩
      have hrespond := respond_eq services v again
      rw [hbody] at hanswered hrespond
      dsimp only at hanswered hrespond
      cases hanswered with
      | measured hmissing _ _ _ _ _ _ =>
          rw [hcount] at hmissing
          exact absurd hused.1 (Int.not_le.mpr hmissing)
      | cached henough houtputs hidle =>
          rw [hcount, houtputs, if_neg (Int.not_lt.mpr hused.1), hused.2] at hrespond
          exact ⟨v', hrespond, hidle.runs, hidle.results⟩

end MeasurementAppController
end Roofline
