import Roofline.Controller.Accounting

/-!
# Results of the same process

With caching off a stored result is used again only for a measurement that was seen before
in the same process.  A measurement counts as seen from the time its core is built, which may
be before any result of it was stored: the result that is found may be one of an earlier
process.

Main results:

- Theorem {lit}`Fresh.respond`: a request keeps the stored results either untouched or fresh.
- Theorem {lit}`answers_fresh`: in a run in which no request uses an old result, all outputs
  are produced in the same process.
- Theorem {lit}`not_answers_fresh`: the retry of a failed run returns the old result.
-/

namespace Roofline
namespace MeasurementAppController

open Programs Runs MeasurementHashRepository

variable {Measurement MeasurementHash CoreHash Files Executable RunOutput : Type}
variable [DecidableEq MeasurementHash] [DecidableEq CoreHash] [DecidableEq Files]
variable (services : Services Measurement MeasurementHash CoreHash Files Executable)

/-- An execution of the measuring core for a measurement with this hash has produced the
output. -/
def ProducedFor (w : World Measurement MeasurementHash CoreHash Files Executable RunOutput)
    (hash : MeasurementHash) (output : RunOutput) : Prop :=
  ∃ run ∈ w.produced, services.getMeasurementHash run.command.measurement = hash ∧
    output ∈ run.outputs

/-- All outputs the request returns were produced for its measurement. -/
def AnswersFresh (w : World Measurement MeasurementHash CoreHash Files Executable RunOutput)
    (request : Request Measurement Files RunOutput) : Prop :=
  ∀ result v, respond services w request = (.ok result, v) → ∀ output ∈ result.runOutputs,
    ProducedFor services v
      (services.getMeasurementHash (services.prepareMeasurement request.measurement)) output

/-- The measurement counts as seen, but the result stored for it is still the one an earlier
process has left, and passes the core check. -/
def UsesOldResult
    (old : MeasurementHash → Option (MeasurementResult Measurement CoreHash RunOutput))
    (w : World Measurement MeasurementHash CoreHash Files Executable RunOutput)
    (request : Request Measurement Files RunOutput) : Prop :=
  let measurementHash :=
    services.getMeasurementHash (services.prepareMeasurement request.measurement)
  w.measurementHashRepository.hasMeasurementBeenSeen measurementHash = true ∧
    w.results measurementHash = old measurementHash ∧
    ∃ oldResult, old measurementHash = some oldResult ∧ oldResult.runOutputs ≠ [] ∧
      coreCheckPasses services w request oldResult.coreHash = true

/-! ## Stored results -/

/-- Every stored result is an old one or was produced in this process. -/
structure Fresh
    (old : MeasurementHash → Option (MeasurementResult Measurement CoreHash RunOutput))
    (w : World Measurement MeasurementHash CoreHash Files Executable RunOutput) : Prop where
  cores : Consistent w.measurementHashRepository
  results : ∀ hash, w.results hash = old hash ∨ ∀ storedResult,
    w.results hash = some storedResult → ∀ output ∈ storedResult.runOutputs,
      ProducedFor services w hash output

section Requests

variable {services}
variable {old : MeasurementHash → Option (MeasurementResult Measurement CoreHash RunOutput)}
  {w v : World Measurement MeasurementHash CoreHash Files Executable RunOutput}

omit [DecidableEq MeasurementHash] [DecidableEq CoreHash] [DecidableEq Files] in
/-- An output stays produced for a hash. -/
theorem ProducedFor.mono {hash : MeasurementHash} {output : RunOutput}
    (h : ProducedFor services w hash output) (hproduced : w.produced <+: v.produced) :
    ProducedFor services v hash output := by
  rcases h with ⟨run, hrun, hhash, houtput⟩
  exact ⟨run, hproduced.subset hrun, hhash, houtput⟩

omit [DecidableEq MeasurementHash] [DecidableEq CoreHash] [DecidableEq Files] in
/-- Runs alone keep the stored results as they are. -/
theorem Fresh.unstored (h : Fresh services old w) (hunstored : Unstored w v) :
    Fresh services old v := by
  refine ⟨hunstored.cores, ?_⟩
  intro hash
  rw [hunstored.results]
  apply (h.results hash).imp id
  intro hproduced storedResult hstored output houtput
  exact (hproduced storedResult hstored output houtput).mono hunstored.produced

/-- With caching off, what a request uses again was produced in this process, unless it
uses an old result. -/
theorem Fresh.usedOutputs (h : Fresh services old w)
    {request : Request Measurement Files RunOutput}
    (hcaching : request.configuration.useCachedResults = false)
    (hold : ¬UsesOldResult services old w request) :
    ∀ output ∈ usedOutputs services w request, ProducedFor services w
      (services.getMeasurementHash (services.prepareMeasurement request.measurement))
      output := by
  intro output houtput
  unfold MeasurementAppController.usedOutputs at houtput
  cases hloaded : loadedResult services w request with
  | none =>
      rw [hloaded] at houtput
      cases houtput
  | some storedResult =>
      rw [hloaded] at houtput
      dsimp only at houtput
      by_cases hcheck : coreCheckPasses services w request storedResult.coreHash = true
      · rw [if_pos hcheck] at houtput
        unfold loadedResult at hloaded
        dsimp only at hloaded
        rw [hcaching, Bool.false_or] at hloaded
        split at hloaded
        · rename_i hseen
          split at hloaded
          · rcases h.results (services.getMeasurementHash
              (services.prepareMeasurement request.measurement)) with hsame | hproduced
            · refine absurd ?_ hold
              exact ⟨hseen, hsame, storedResult, hsame ▸ hloaded, List.ne_nil_of_mem houtput,
                hcheck⟩
            · exact hproduced storedResult hloaded output houtput
          · cases hloaded
        · cases hloaded
      · rw [if_neg hcheck] at houtput
        cases houtput

omit [DecidableEq CoreHash] [DecidableEq Files] in
/-- What a request that is answered returns and stores is fresh. -/
theorem Fresh.answered (h : Fresh services old w) {measurement : Measurement}
    {numberOfRuns : Int} {used runOutputs : List RunOutput}
    (hused : ∀ output ∈ used,
      ProducedFor services w (services.getMeasurementHash measurement) output)
    (hanswered : Answered w measurement (services.getMeasurementHash measurement) numberOfRuns
      used runOutputs v) :
    Fresh services old v ∧ ∀ output ∈ runOutputs,
      ProducedFor services v (services.getMeasurementHash measurement) output := by
  cases hanswered with
  | cached henough houtputs hidle =>
      subst houtputs
      refine ⟨h.unstored hidle.unstored, ?_⟩
      intro output houtput
      exact (hused output houtput).mono hidle.unstored.produced
  | @measured executable outputs coreHash hmissing houtputs hcores hruns hproduced hresults
      hcoreHash =>
      have hprefix : w.produced <+: v.produced := hproduced ▸ List.prefix_append _ _
      have hfresh : ∀ output ∈ outputs ++ used,
          ProducedFor services v (services.getMeasurementHash measurement) output := by
        intro output houtput
        rcases List.mem_append.mp houtput with hnew | hused'
        · refine ⟨⟨⟨measurement, numberOfRuns - used.length⟩, outputs⟩, ?_, rfl, hnew⟩
          rw [hproduced]
          exact List.mem_append_right _ (List.mem_singleton_self _)
        · exact (hused output hused').mono hprefix
      refine ⟨⟨hcores, ?_⟩, houtputs ▸ hfresh⟩
      intro hash
      rw [hresults]
      by_cases hsame : hash = services.getMeasurementHash measurement
      · subst hsame
        apply Or.inr
        intro storedResult hstored
        rw [Function.update_self] at hstored
        obtain rfl := Option.some.inj hstored
        exact hfresh
      · rw [Function.update_of_ne hsame]
        apply (h.results hash).imp id
        intro hother storedResult hstored output houtput
        exact (hother storedResult hstored output houtput).mono hprefix

/-- A request that does not use an old result keeps the results fresh and returns fresh
outputs. -/
theorem Fresh.respond (h : Fresh services old w)
    {request : Request Measurement Files RunOutput}
    (hcaching : request.configuration.useCachedResults = false)
    (hold : ¬UsesOldResult services old w request) :
    Fresh services old (respond services w request).2 ∧ AnswersFresh services w request := by
  have hended := collectRunOutputs_answered services h.cores request _ rfl
  rw [respond_world]
  unfold AnswersFresh
  rw [respond_eq]
  rcases hrun : outcome (collectRunOutputs services request)
    { w with outcomes := request.outcomes } with ⟨e | runOutputs, left⟩
  · rw [hrun] at hended
    refine ⟨h.unstored hended, ?_⟩
    intro result v hresult
    cases hresult
  · rw [hrun] at hended
    rcases h.answered (h.usedOutputs hcaching hold) hended with ⟨hfresh, houtputs⟩
    refine ⟨hfresh, ?_⟩
    intro result v hresult
    dsimp only at hresult
    split at hresult
    · cases hresult
    · cases hresult
      intro output houtput
      exact houtputs output (List.mem_of_mem_take houtput)

omit [DecidableEq MeasurementHash] [DecidableEq CoreHash] [DecidableEq Files] in
/-- At process start everything that is stored is old. -/
theorem start_fresh (files : Files) (executable : Option Executable)
    (outcomes : Nat → Outcome Files RunOutput) :
    Fresh services old (start files executable old outcomes) :=
  ⟨empty_consistent, fun _ => Or.inl rfl⟩

/-- In every run with caching off in which no request uses an old result, all outputs that are
returned were produced in this run for a measurement with the same hash. -/
theorem answers_fresh {files : Files} {executable : Option Executable}
    {outcomes : Nat → Outcome Files RunOutput}
    {requests : List (Request Measurement Files RunOutput)}
    (hcaching : ∀ request ∈ requests, request.configuration.useCachedResults = false)
    (hold : StepsMeet (step services) (start files executable old outcomes)
      (fun _ w request => ¬UsesOldResult services old w request) requests) :
    StepsMeet (step services) (start files executable old outcomes)
      (fun _ w request => AnswersFresh services w request) requests := by
  have hmeet : StepsMeet (step services) (start files executable old outcomes)
      (fun _ w request => request.configuration.useCachedResults = false ∧
        ¬UsesOldResult services old w request) requests := by
    intro before request after w hsplit hrun
    exact ⟨hcaching request (by simp [hsplit]), hold before request after w hsplit hrun⟩
  have hfresh : Visits (step services) (start files executable old outcomes) requests
      fun _ w => Fresh services old w := by
    refine Run.always (P := fun _ w => Fresh services old w)
      (start_fresh files executable outcomes) ?_ hmeet
    intro _ w request w' _ hw hrequest hstep
    rw [← Except.ok.inj hstep]
    exact (hw.respond hrequest.1 hrequest.2).1
  intro before request after w hsplit hrun
  have hrequest := hmeet before request after w hsplit hrun
  exact ((hfresh before (request :: after) w hsplit hrun).respond hrequest.1 hrequest.2).2

end Requests

/-! ## A failed run -/

/-- All measurements have the same core. -/
def sharedCoreServices : Services Nat Nat Nat Nat Nat where
  prepareMeasurement m := m
  getMeasurementHash m := m
  generatedFiles _ := 0
  compiled files := files
  hashFile executable := executable

/-- An earlier process has left the output 9 for every measurement. -/
abbrev sharedStart : World Nat Nat Nat Nat Nat Nat :=
  start 1 none (fun m => some ⟨m, [9], some 0⟩) (fun _ => .completes [])

/-- A request for one run with caching off whose external step {lit}`n` throws if
{lit}`fails n`. -/
def requestFresh (measurement : Nat) (fails : Nat → Bool) : Request Nat Nat Nat where
  configuration := ⟨false, true⟩
  measurement := measurement
  numberOfRuns := 1
  outcomes n := if fails n then .throws .executeException 0 else .completes [7]

/-- The stored result is replaced before the measurement counts as seen. -/
theorem answers_fresh_one :
    StepsMeet (step sharedCoreServices) sharedStart
      (fun _ w request => AnswersFresh sharedCoreServices w request)
      [requestFresh 1 fun _ => false, requestFresh 1 fun _ => false] := by
  apply answers_fresh
  · intro request hmem
    simp only [List.mem_cons, List.not_mem_nil, or_false, or_self] at hmem
    rw [hmem]
    rfl
  · have hstep : step sharedCoreServices sharedStart (requestFresh 1 fun _ => false) =
        .ok (respond sharedCoreServices sharedStart (requestFresh 1 fun _ => false)).2 := rfl
    refine stepsMeet_cons hstep ?_ ?_
    · rintro ⟨hseen, -⟩
      exact absurd hseen (by decide)
    · refine stepsMeet_cons rfl ?_ ?_
      · rintro ⟨-, hsame, -⟩
        exact absurd (congrArg (Option.map fun result => result.runOutputs) hsame) (by decide)
      · exact stepsMeet_nil _

/-- The files of measurement 2 are those of 1, so that it counts as seen although its run
fails; the retry returns the result of the earlier process. -/
theorem not_answers_fresh :
    ¬∀ requests : List (Request Nat Nat Nat),
      (∀ request ∈ requests, request.configuration.useCachedResults = false) →
      StepsMeet (step sharedCoreServices) sharedStart
        (fun _ w request => AnswersFresh sharedCoreServices w request) requests := by
  intro hall
  have hcaching : ∀ request ∈ [requestFresh 1 fun _ => false, requestFresh 2 fun n => n == 1,
      requestFresh 2 fun _ => false], request.configuration.useCachedResults = false := by
    intro request hmem
    simp only [List.mem_cons, List.not_mem_nil, or_false] at hmem
    rcases hmem with rfl | rfl | rfl
    · rfl
    · rfl
    · rfl
  have hfresh := hall _ hcaching [requestFresh 1 fun _ => false, requestFresh 2 fun n => n == 1]
    (requestFresh 2 fun _ => false) [] _ rfl (run_iff_exec.mpr rfl) _ _ rfl 9
      (List.mem_singleton_self _)
  rcases hfresh with ⟨run, hrun, -, houtput⟩
  have hproduced : run ∈ [(⟨⟨1, 1⟩, [7]⟩ : CoreOutputs Nat Nat)] := hrun
  rw [List.mem_singleton.mp hproduced] at houtput
  exact absurd houtput (by decide)

end MeasurementAppController
end Roofline
