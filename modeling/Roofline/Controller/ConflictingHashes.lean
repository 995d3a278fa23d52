import Roofline.Controller.Accounting

/-!
# Core hashes that conflict

A build which finds the files of its measurement on disk reports that the measurement has the
core of the one compiled last.  The repository rejects the report if different core hashes are
known for the two, and the request ends with an error although each of its steps completes.

Main results:

- Theorem {lit}`buildMeasuringCore_returns`: a build returns if its steps complete and no core
  hashes conflict.
- Theorem {lit}`getCoreHash_returns`: a core hash that has to be found out conflicts with none.
- Theorem {lit}`respond_throws`: a request that needs its core throws if core hashes conflict.
- Theorem {lit}`measure_accounts_iff`: the requests whose outputs are accounted for.
-/

namespace Roofline
namespace MeasurementAppController

open Programs Runs ClassMap MeasurementHashRepository

variable {Measurement MeasurementHash CoreHash Files Executable RunOutput : Type}

/-! ## States in which a build is rejected -/

/-- If something is recorded as compiled there is an executable. -/
def Compiled (w : World Measurement MeasurementHash CoreHash Files Executable RunOutput) : Prop :=
  w.currentlyCompiledMeasurementHash ≠ none → w.executable ≠ none

/-- The external steps to come complete, the repository is consistent, and what is recorded as
compiled is in place. -/
structure Ready
    (w : World Measurement MeasurementHash CoreHash Files Executable RunOutput) : Prop where
  cores : Consistent w.measurementHashRepository
  compiled : Compiled w
  completes : ∀ i e left, w.outcomes i ≠ .throws e left

/-- The files of the measurement are on disk already, and different core hashes are known for it
and for the measurement compiled last. -/
structure HashesConflict
    (services : Services Measurement MeasurementHash CoreHash Files Executable)
    (measurement : Measurement) (measurementHash : MeasurementHash)
    (w : World Measurement MeasurementHash CoreHash Files Executable RunOutput) : Prop where
  unchanged : w.files = services.generatedFiles measurement
  differ : ∃ current currentCore core, w.currentlyCompiledMeasurementHash = some current ∧
    w.measurementHashRepository.getCoreHash current = some currentCore ∧
    w.measurementHashRepository.getCoreHash measurementHash = some core ∧ currentCore ≠ core

/-- The controller is ready, and the core hashes of the measurement conflict only if the
proposition holds. -/
structure ReadyIf (services : Services Measurement MeasurementHash CoreHash Files Executable)
    (measurement : Measurement) (measurementHash : MeasurementHash) (P : Prop)
    (w : World Measurement MeasurementHash CoreHash Files Executable RunOutput) : Prop where
  ready : Ready w
  conflict : HashesConflict services measurement measurementHash w → P

section States

variable {services : Services Measurement MeasurementHash CoreHash Files Executable}
variable {w : World Measurement MeasurementHash CoreHash Files Executable RunOutput}
variable {measurement : Measurement} {measurementHash : MeasurementHash}

/-- The outcomes that are left complete as well. -/
theorem Ready.of_records
    {w' : World Measurement MeasurementHash CoreHash Files Executable RunOutput} (h : Ready w)
    (hrepository : w'.measurementHashRepository = w.measurementHashRepository)
    (hcurrent : w'.currentlyCompiledMeasurementHash = w.currentlyCompiledMeasurementHash)
    (hexecutable : w'.executable = w.executable)
    (houtcomes : w'.outcomes = fun n => w.outcomes (n + 1)) : Ready w' where
  cores := hrepository ▸ h.cores
  compiled := by
    rw [Compiled, hcurrent, hexecutable]
    exact h.compiled
  completes i e left := by
    rw [houtcomes]
    exact h.completes (i + 1) e left

/-- Steps that leave the records leave the controller ready. -/
theorem ReadyIf.of_records {P : Prop}
    {w' : World Measurement MeasurementHash CoreHash Files Executable RunOutput}
    (h : ReadyIf services measurement measurementHash P w)
    (hrepository : w'.measurementHashRepository = w.measurementHashRepository)
    (hcurrent : w'.currentlyCompiledMeasurementHash = w.currentlyCompiledMeasurementHash)
    (hexecutable : w'.executable = w.executable) (hfiles : w'.files = w.files)
    (houtcomes : w'.outcomes = fun n => w.outcomes (n + 1)) :
    ReadyIf services measurement measurementHash P w' where
  ready := h.ready.of_records hrepository hcurrent hexecutable houtcomes
  conflict := by
    rintro ⟨hunchanged, hdiffer⟩
    rw [hrepository, hcurrent] at hdiffer
    exact h.conflict ⟨hfiles ▸ hunchanged, hdiffer⟩

/-- The next external step completes. -/
theorem Ready.next (h : Ready w) : ∃ outputs, w.outcomes 0 = .completes outputs := by
  cases hzero : w.outcomes 0 with
  | completes outputs => exact ⟨outputs, rfl⟩
  | throws e left => exact absurd hzero (h.completes 0 e left)

/-- Measurements with equal cores have the same core hash. -/
theorem getCoreHash_sameClass {repo : MeasurementHashRepository MeasurementHash CoreHash}
    {a b : MeasurementHash} (hclass : SameClass repo.measurementToCore a b) :
    repo.getCoreHash a = repo.getCoreHash b := by
  rcases hclass with ⟨core, ha, hb⟩
  unfold MeasurementHashRepository.getCoreHash
  rw [ha, hb]

/-- A measurement whose core hash is not known conflicts with none. -/
theorem not_hashesConflict_of_unknown
    (hunknown : w.measurementHashRepository.getCoreHash measurementHash = none) :
    ¬HashesConflict services measurement measurementHash w := by
  rintro ⟨-, _, _, core, -, -, hcore, -⟩
  rw [hunknown] at hcore
  cases hcore

variable [DecidableEq MeasurementHash] [DecidableEq CoreHash]

omit [DecidableEq CoreHash] in
/-- The right core is compiled if the measurement is the compiled one or has the same core. -/
theorem rightCoreCompiled_iff :
    rightCoreCompiled w measurementHash = true ↔
      ∃ current, w.currentlyCompiledMeasurementHash = some current ∧
        (current = measurementHash ∨
          SameClass w.measurementHashRepository.measurementToCore current measurementHash) := by
  unfold rightCoreCompiled
  cases w.currentlyCompiledMeasurementHash with
  | none => simp
  | some current => simp [areCoresEqual_eq_true_iff]

omit [DecidableEq CoreHash] in
/-- If the right core is compiled no core hashes conflict. -/
theorem not_hashesConflict_of_rightCoreCompiled
    (hright : rightCoreCompiled w measurementHash = true) :
    ¬HashesConflict services measurement measurementHash w := by
  rintro ⟨-, current, currentCore, core, hcurrent, hcurrentCore, hcore, hne⟩
  rcases rightCoreCompiled_iff.mp hright with ⟨current', hcurrent', hsame⟩
  obtain rfl : current = current' := Option.some.inj (hcurrent.symm.trans hcurrent')
  have hequal : w.measurementHashRepository.getCoreHash current =
      w.measurementHashRepository.getCoreHash measurementHash := by
    rcases hsame with rfl | hclass
    · rfl
    · exact getCoreHash_sameClass hclass
  rw [hcurrentCore, hcore] at hequal
  exact hne (Option.some.inj hequal)

omit [DecidableEq CoreHash] in
/-- If core hashes conflict the right core is not compiled. -/
theorem HashesConflict.not_rightCoreCompiled
    (h : HashesConflict services measurement measurementHash w) :
    ¬rightCoreCompiled w measurementHash = true :=
  fun hright => not_hashesConflict_of_rightCoreCompiled hright h

/-- Two measurements whose known core hashes do not differ can be reported as equal. -/
theorem setHaveEqualCores_isOk {repo : MeasurementHashRepository MeasurementHash CoreHash}
    (hwf : repo.WellFormed) {a b : MeasurementHash}
    (hagree : ∀ hashA hashB, repo.getCoreHash a = some hashA → repo.getCoreHash b = some hashB →
      hashA = hashB) :
    ∃ repo', repo.setHaveEqualCores a b = (.ok (), repo') := by
  have hmerge : ∀ {target source measurement}, source ≠ target → target < repo.nextCore →
      repo.measurementToCore measurement = some source →
      (∀ hash hash', repo.coreHash target = some hash → repo.coreHash source = some hash' →
        hash = hash') →
      ∃ repo', repo.mergeSecondCoreIntoFirstCore target source = (.ok (), repo') := by
    intro target source measurement hne htarget hm hsame
    unfold mergeSecondCoreIntoFirstCore
    cases hsource : repo.coreHash source with
    | none => exact moveMeasurements_isOk hwf hne hm
    | some hash =>
        have hok : ¬((repo.coreHash target).isSome ∧ repo.coreHash target ≠ some hash) := by
          rintro ⟨hsome, hdiffer⟩
          rcases Option.isSome_iff_exists.mp hsome with ⟨hash', htargetHash⟩
          exact hdiffer (htargetHash.trans (congrArg some (hsame hash' hash htargetHash hsource)))
        dsimp only
        rw [if_neg hok]
        exact moveMeasurements_isOk (setCoreHashField_wellFormed hwf htarget hash) hne hm
  unfold setHaveEqualCores
  cases ha : repo.measurementToCore a with
  | none => cases repo.measurementToCore b <;> exact ⟨_, rfl⟩
  | some coreA =>
      cases hb : repo.measurementToCore b with
      | none => exact ⟨_, rfl⟩
      | some coreB =>
          have hhash : ∀ hash hash', repo.coreHash coreA = some hash →
              repo.coreHash coreB = some hash' → hash = hash' := by
            intro hash hash' hA hB
            exact hagree hash hash' ((getCoreHash_eq_some_iff a hash).mpr ⟨coreA, ha, hA⟩)
              ((getCoreHash_eq_some_iff b hash').mpr ⟨coreB, hb, hB⟩)
          dsimp only
          by_cases hcores : coreA = coreB
          · rw [if_pos hcores]
            exact ⟨_, rfl⟩
          · rw [if_neg hcores]
            split
            · exact hmerge (Ne.symm hcores) (hwf.core_lt ha) hb hhash
            · exact hmerge hcores (hwf.core_lt hb) ha fun hash hash' hB hA => (hhash _ _ hA hB).symm

end States

/-! ## What a request needs to return -/

section Rules

variable [DecidableEq MeasurementHash] [DecidableEq CoreHash]
variable {services : Services Measurement MeasurementHash CoreHash Files Executable}
variable {P : Prop}

variable (services) in
omit [DecidableEq CoreHash] in
/-- Compiling the prepared core and recording it as compiled. -/
theorem compile_returns (measurementHash : MeasurementHash) :
    Ensures
      (fun w : World Measurement MeasurementHash CoreHash Files Executable RunOutput =>
        Ready { w with currentlyCompiledMeasurementHash := none })
      (do
        compilePreparedMeasuringCore services
        modify (recordCompiled measurementHash))
      (fun _ w => Ready w ∧ rightCoreCompiled w measurementHash = true)
      (fun _ _ => False) := by
  intro w hw
  rcases hw.next with ⟨outputs, hzero⟩
  have hnext : w.outcomes 0 = .completes outputs := hzero
  rw [outcome_bind, compilePreparedMeasuringCore, outcome_primitive, hnext]
  refine ⟨⟨hw.cores, fun _ h => ?_, fun i => hw.completes (i + 1)⟩, ?_⟩
  · cases h
  · exact rightCoreCompiled_iff.mpr ⟨measurementHash, rfl, Or.inl rfl⟩

/-- Hashing the executable in place and recording its core hash leave it the right one. -/
theorem recordCoreHash_returns (measurement : Measurement) (measurementHash : MeasurementHash) :
    Ensures
      (fun w : World Measurement MeasurementHash CoreHash Files Executable RunOutput =>
        (Ready w ∧ rightCoreCompiled w measurementHash = true) ∧
          w.measurementHashRepository.getCoreHash measurementHash = none)
      (do
        let coreHash ← hashCurrentlyCompiledMeasuringCore services
        onRepository fun repo => repo.setCoreHash measurementHash coreHash
        return coreHash)
      (fun _ => ReadyIf services measurement measurementHash P)
      (fun _ _ => False) := by
  rintro w ⟨⟨hready, hright⟩, hunknown⟩
  rcases rightCoreCompiled_iff.mp hright with ⟨current, hcurrent, hsame⟩
  rcases Option.ne_none_iff_exists'.mp (hready.compiled (by simp [hcurrent])) with
    ⟨executable, hexecutable⟩
  rcases hready.next with ⟨outputs, hzero⟩
  rcases hready.cores.setCoreHash hunknown (services.hashFile executable) with
    ⟨repo, hcall, hcores, -⟩
  rw [outcome_bind, hashCurrentlyCompiledMeasuringCore, outcome_primitive, hzero, hexecutable]
  dsimp only
  rw [outcome_bind, onRepository, outcome_primitive]
  have hcall' : w.afterOutcome.measurementHashRepository.setCoreHash measurementHash
      (services.hashFile executable) = (.ok (), repo) := hcall
  rw [hcall']
  refine ⟨⟨hcores, hready.compiled, fun i => hready.completes (i + 1)⟩, fun hconflict => ?_⟩
  have hkept := hsame.imp_right (sameClass_setCoreHash hready.cores.wellFormed hcall)
  exact (hconflict.not_rightCoreCompiled
    (rightCoreCompiled_iff.mpr ⟨current, hcurrent, hkept⟩)).elim

variable [DecidableEq Files]

/-- A build returns if its steps complete and no core hashes conflict. -/
theorem buildMeasuringCore_returns (measurement : Measurement)
    (measurementHash : MeasurementHash) :
    Ensures
      (ReadyIf services measurement measurementHash False :
        World Measurement MeasurementHash CoreHash Files Executable RunOutput → Prop)
      (buildMeasuringCore services measurement measurementHash)
      (fun _ w => Ready w ∧ rightCoreCompiled w measurementHash = true)
      (fun _ _ => False) := by
  rintro w ⟨hready, hfree⟩
  unfold buildMeasuringCore
  rw [outcome_bind, outcome_get]
  dsimp only
  by_cases hright : rightCoreCompiled w measurementHash = true
  · rw [if_pos hright]
    exact ⟨hready, hright⟩
  · rw [if_neg hright]
    rcases hready.next with ⟨outputs, hzero⟩
    rw [outcome_bind, prepareMeasuringCoreBuilding, outcome_primitive, hzero]
    dsimp only
    have hprepared : Ready
        { w.afterOutcome with files := services.generatedFiles measurement } :=
      hready.of_records rfl rfl rfl rfl
    have hcompile := compile_returns services measurementHash
      { w.afterOutcome with files := services.generatedFiles measurement }
      ⟨hprepared.cores, fun h => absurd rfl h, hprepared.completes⟩
    cases hcurrent : w.currentlyCompiledMeasurementHash with
    | none => exact hcompile
    | some current =>
        dsimp only
        by_cases hchanged : w.files ≠ services.generatedFiles measurement
        · rw [if_pos (decide_eq_true hchanged)]
          exact hcompile
        · -- the known core hashes agree, or the build would have met a conflict
          rw [if_neg (mt of_decide_eq_true hchanged)]
          have hagree : ∀ hashA hashB,
              w.measurementHashRepository.getCoreHash current = some hashA →
              w.measurementHashRepository.getCoreHash measurementHash = some hashB →
              hashA = hashB := by
            intro hashA hashB hA hB
            by_contra hne
            exact hfree ⟨not_ne_iff.mp hchanged, current, hashA, hashB, hcurrent, hA, hB, hne⟩
          rcases setHaveEqualCores_isOk hready.cores.wellFormed hagree with ⟨repo, hcall⟩
          have hcores := hready.cores.setHaveEqualCores current measurementHash
          rw [hcall] at hcores
          rw [outcome_bind, onRepository, outcome_primitive]
          have hcall' : { w.afterOutcome with
                files := services.generatedFiles measurement
              }.measurementHashRepository.setHaveEqualCores current measurementHash =
                (.ok (), repo) := hcall
          rw [hcall']
          refine ⟨⟨hcores, fun _ => ?_, hprepared.completes⟩, ?_⟩
          · exact hready.compiled (by simp [hcurrent])
          · exact rightCoreCompiled_iff.mpr ⟨measurementHash, rfl, Or.inl rfl⟩

/-- A core hash that has to be found out conflicts with none, so it is found out. -/
theorem getCoreHash_returns (measurement : Measurement) (measurementHash : MeasurementHash) :
    Ensures
      (ReadyIf services measurement measurementHash P :
        World Measurement MeasurementHash CoreHash Files Executable RunOutput → Prop)
      (getCoreHash services measurement measurementHash)
      (fun _ => ReadyIf services measurement measurementHash P)
      (fun _ _ => False) := by
  intro w hw
  unfold getCoreHash
  rw [outcome_bind, outcome_get]
  dsimp only
  cases hknown : w.measurementHashRepository.getCoreHash measurementHash with
  | some coreHash => exact hw
  | none =>
      refine Ensures.bind (buildMeasuringCore_returns measurement measurementHash) ?_ w
        ⟨hw.ready, not_hashesConflict_of_unknown hknown⟩
      rintro _ built ⟨hbuilt, hright⟩
      rw [outcome_bind, outcome_get]
      dsimp only
      cases hnow : built.measurementHashRepository.getCoreHash measurementHash with
      | some coreHash => exact ⟨hbuilt, fun h => absurd hright h.not_rightCoreCompiled⟩
      | none =>
          exact recordCoreHash_returns measurement measurementHash built ⟨⟨hbuilt, hright⟩, hnow⟩

/-- Looking for results that may be used again returns, whether core hashes conflict or not. -/
theorem cachedRunOutputs_returns (configuration : Configuration) (measurement : Measurement)
    (measurementHash : MeasurementHash) :
    Ensures
      (ReadyIf services measurement measurementHash P :
        World Measurement MeasurementHash CoreHash Files Executable RunOutput → Prop)
      (cachedRunOutputs services configuration measurement measurementHash)
      (fun _ => ReadyIf services measurement measurementHash P)
      (fun _ _ => False) := by
  intro w hw
  unfold cachedRunOutputs
  rw [outcome_bind, outcome_get]
  dsimp only
  refine Ensures.ite (fun _ => ?_) (fun _ => Ensures.pure fun _ h => h) w hw
  have hload : Ensures (ReadyIf services measurement measurementHash P)
      (getMeasurementResult measurementHash :
        Method Measurement MeasurementHash CoreHash Files Executable RunOutput _)
      (fun _ => ReadyIf services measurement measurementHash P) (fun _ _ => False) := by
    intro v hv
    rcases hv.ready.next with ⟨outputs, hzero⟩
    rw [getMeasurementResult, outcome_primitive, hzero]
    exact hv.of_records rfl rfl rfl rfl rfl
  apply hload.bind
  intro loaded
  cases loaded with
  | none => exact Ensures.pure fun _ h => h
  | some loadedResult =>
      refine Ensures.ite (fun _ => ?_) (fun _ => Ensures.pure fun _ h => h)
      refine (getCoreHash_returns measurement measurementHash).bind fun coreHash => ?_
      exact Ensures.ite (fun _ => Ensures.pure fun _ h => h) (fun _ => Ensures.pure fun _ h => h)

/-- The core is built and run if no core hashes conflict. -/
theorem performMeasurement_returns (command : MeasurementCommand Measurement)
    (measurementHash : MeasurementHash) (hnone : ¬P) :
    Ensures
      (ReadyIf services command.measurement measurementHash P)
      (performMeasurement services command measurementHash :
        Method Measurement MeasurementHash CoreHash Files Executable RunOutput _)
      (fun _ => ReadyIf services command.measurement measurementHash False)
      (fun _ _ => False) := by
  have hbuild : Ensures
      (ReadyIf services command.measurement measurementHash P)
      (buildMeasuringCore services command.measurement measurementHash :
        Method Measurement MeasurementHash CoreHash Files Executable RunOutput _)
      (fun _ w => Ready w ∧ rightCoreCompiled w measurementHash = true) (fun _ _ => False) :=
    (buildMeasuringCore_returns command.measurement measurementHash).weaken
      (fun _ h => ⟨h.ready, fun hconflict => hnone (h.conflict hconflict)⟩)
      (fun _ _ h => h) (fun _ _ h => h)
  refine hbuild.bind ?_
  rintro _ v ⟨hready, hright⟩
  rcases rightCoreCompiled_iff.mp hright with ⟨current, hcurrent, -⟩
  rcases Option.ne_none_iff_exists'.mp (hready.compiled (by simp [hcurrent])) with
    ⟨executable, hexecutable⟩
  rcases hready.next with ⟨outputs, hzero⟩
  rw [runMeasuringCore, outcome_primitive, hexecutable]
  dsimp only
  rw [hzero]
  have hbuilt : ReadyIf services command.measurement measurementHash False v :=
    ⟨hready, fun h => h.not_rightCoreCompiled hright⟩
  exact hbuilt.of_records rfl rfl rfl rfl rfl

/-- The missing outputs are measured and stored if no core hashes conflict. -/
theorem missingRunOutputs_returns (measurement : Measurement) (measurementHash : MeasurementHash)
    (numberOfRuns : Int) (used : List RunOutput) :
    Ensures
      (ReadyIf services measurement measurementHash (numberOfRuns ≤ used.length))
      (missingRunOutputs services measurement measurementHash numberOfRuns used :
        Method Measurement MeasurementHash CoreHash Files Executable RunOutput _)
      (fun _ _ => True)
      (fun _ _ => False) := by
  refine Ensures.ite (fun hmissing => ?_) (fun _ => Ensures.pure fun _ _ => trivial)
  refine (performMeasurement_returns ⟨measurement, numberOfRuns - used.length⟩ measurementHash
    (Int.not_le.mpr hmissing)).bind fun newResult => ?_
  refine (getCoreHash_returns measurement measurementHash).bind fun coreHash => ?_
  have hstore : Ensures (ReadyIf services measurement measurementHash False)
      (store { newResult with
        runOutputs := newResult.runOutputs ++ used, coreHash := some coreHash } measurementHash :
        Method Measurement MeasurementHash CoreHash Files Executable RunOutput Unit)
      (fun _ _ => True) (fun _ _ => False) := by
    intro v hv
    rcases hv.ready.next with ⟨outputs, hzero⟩
    rw [store, outcome_primitive, hzero]
    trivial
  exact hstore.bind fun _ => Ensures.pure fun _ _ => trivial

end Rules

/-! ## What is recorded as compiled -/

section Compiled

variable (services : Services Measurement MeasurementHash CoreHash Files Executable)

/-- Recording a measurement after its compilation. -/
theorem compile_compiled (measurementHash : MeasurementHash) :
    Ensures
      (Compiled : World Measurement MeasurementHash CoreHash Files Executable RunOutput → Prop)
      (do
        compilePreparedMeasuringCore services
        modify (recordCompiled measurementHash))
      (fun _ => Compiled) (fun _ => Compiled) := by
  intro w hw
  rw [outcome_bind, compilePreparedMeasuringCore, outcome_primitive]
  cases w.outcomes 0 with
  | throws e left => exact hw
  | completes _ =>
      intro _ hnone
      cases hnone

variable [DecidableEq MeasurementHash] [DecidableEq CoreHash] [DecidableEq Files]

/-- A build records nothing that has not been compiled. -/
theorem buildMeasuringCore_compiled (measurement : Measurement)
    (measurementHash : MeasurementHash) :
    Ensures
      (Compiled : World Measurement MeasurementHash CoreHash Files Executable RunOutput → Prop)
      (buildMeasuringCore services measurement measurementHash)
      (fun _ => Compiled) (fun _ => Compiled) := by
  intro w hw
  unfold buildMeasuringCore
  rw [outcome_bind, outcome_get]
  dsimp only
  by_cases hright : rightCoreCompiled w measurementHash = true
  · rw [if_pos hright]
    exact hw
  · rw [if_neg hright, outcome_bind, prepareMeasuringCoreBuilding, outcome_primitive]
    cases w.outcomes 0 with
    | throws e left => exact hw
    | completes _ =>
        have hcompile := compile_compiled services measurementHash
          { w.afterOutcome with files := services.generatedFiles measurement } hw
        dsimp only
        cases hcurrent : w.currentlyCompiledMeasurementHash with
        | none => exact hcompile
        | some current =>
            dsimp only
            by_cases hchanged : w.files ≠ services.generatedFiles measurement
            · rw [if_pos (decide_eq_true hchanged)]
              exact hcompile
            · rw [if_neg (mt of_decide_eq_true hchanged), outcome_bind, onRepository,
                outcome_primitive]
              dsimp only [World.afterOutcome]
              rcases w.measurementHashRepository.setHaveEqualCores current measurementHash with
                ⟨e | _, repo⟩
              · exact hw
              · exact fun _ => hw (by simp [hcurrent])

/-- A core hash is found out without recording anything that has not been compiled. -/
theorem getCoreHash_compiled (measurement : Measurement) (measurementHash : MeasurementHash) :
    Ensures
      (Compiled : World Measurement MeasurementHash CoreHash Files Executable RunOutput → Prop)
      (getCoreHash services measurement measurementHash)
      (fun _ => Compiled) (fun _ => Compiled) := by
  intro w hw
  unfold getCoreHash
  rw [outcome_bind, outcome_get]
  dsimp only
  cases w.measurementHashRepository.getCoreHash measurementHash with
  | some coreHash => exact hw
  | none =>
      refine Ensures.bind (buildMeasuringCore_compiled services measurement measurementHash) ?_ w hw
      intro _ built hbuilt
      rw [outcome_bind, outcome_get]
      dsimp only
      cases built.measurementHashRepository.getCoreHash measurementHash with
      | some coreHash => exact hbuilt
      | none =>
          rw [outcome_bind, hashCurrentlyCompiledMeasuringCore, outcome_primitive]
          cases built.outcomes 0 with
          | throws e left => exact hbuilt
          | completes _ =>
              cases hexecutable : built.executable with
              | none => exact hbuilt
              | some executable =>
                  dsimp only
                  rw [outcome_bind, onRepository, outcome_primitive]
                  dsimp only [World.afterOutcome]
                  rcases built.measurementHashRepository.setCoreHash measurementHash
                    (services.hashFile executable) with ⟨e | _, repo⟩
                  · exact hbuilt
                  · exact hbuilt

/-- Looking for outputs that may be used again records nothing that has not been compiled. -/
theorem cachedRunOutputs_compiled (configuration : Configuration) (measurement : Measurement)
    (measurementHash : MeasurementHash) :
    Ensures
      (Compiled : World Measurement MeasurementHash CoreHash Files Executable RunOutput → Prop)
      (cachedRunOutputs services configuration measurement measurementHash)
      (fun _ => Compiled) (fun _ => Compiled) := by
  intro w hw
  unfold cachedRunOutputs
  rw [outcome_bind, outcome_get]
  dsimp only
  refine Ensures.ite (fun _ => ?_) (fun _ => Ensures.pure fun _ h => h) w hw
  refine Ensures.bind (Q := fun _ => Compiled) ?_ ?_
  · intro v hv
    rw [getMeasurementResult, outcome_primitive]
    cases v.outcomes 0 with
    | throws e left => exact hv
    | completes _ => exact hv
  · intro loaded
    cases loaded with
    | none => exact Ensures.pure fun _ h => h
    | some loadedResult =>
        refine Ensures.ite (fun _ => ?_) (fun _ => Ensures.pure fun _ h => h)
        refine (getCoreHash_compiled services measurement measurementHash).bind fun coreHash => ?_
        exact Ensures.ite (fun _ => Ensures.pure fun _ h => h) (fun _ => Ensures.pure fun _ h => h)

/-- A run leaves the executable in place. -/
theorem performMeasurement_compiled (command : MeasurementCommand Measurement)
    (measurementHash : MeasurementHash) :
    Ensures
      (Compiled : World Measurement MeasurementHash CoreHash Files Executable RunOutput → Prop)
      (performMeasurement services command measurementHash)
      (fun _ => Compiled) (fun _ => Compiled) := by
  refine (buildMeasuringCore_compiled services command.measurement measurementHash).bind ?_
  intro _ v hv
  rw [runMeasuringCore, outcome_primitive]
  cases hexecutable : v.executable with
  | none => exact hv
  | some executable =>
      have hstarted : some executable ≠ none := Option.some_ne_none executable
      dsimp only
      cases v.outcomes 0 with
      | throws e left => exact fun _ => hexecutable ▸ hstarted
      | completes outputs => exact fun _ => hexecutable ▸ hstarted

/-- No request records anything that has not been compiled. -/
theorem collectRunOutputs_compiled (request : Request Measurement Files RunOutput) :
    Ensures
      (Compiled : World Measurement MeasurementHash CoreHash Files Executable RunOutput → Prop)
      (collectRunOutputs services request)
      (fun _ => Compiled) (fun _ => Compiled) := by
  refine (cachedRunOutputs_compiled services _ _ _).bind fun cached => ?_
  refine Ensures.ite (fun _ => ?_) (fun _ => Ensures.pure fun _ h => h)
  refine (performMeasurement_compiled services _ _).bind fun newResult => ?_
  refine (getCoreHash_compiled services _ _).bind fun coreHash => ?_
  refine Ensures.bind (Q := fun _ => Compiled) ?_ fun _ => Ensures.pure fun _ h => h
  intro v hv
  rw [store, outcome_primitive]
  cases v.outcomes 0 with
  | throws e left => exact hv
  | completes _ => exact hv

/-- In every state of the controller what is recorded as compiled is in place. -/
theorem compiled_of_run {files : Files} {executable : Option Executable}
    {results : MeasurementHash → Option (MeasurementResult Measurement CoreHash RunOutput)}
    {outcomes : Nat → Outcome Files RunOutput}
    {requests : List (Request Measurement Files RunOutput)}
    {w : World Measurement MeasurementHash CoreHash Files Executable RunOutput}
    (hrun : Run (step services) (start files executable results outcomes) requests w) :
    Compiled w := by
  induction hrun with
  | start => exact fun h => absurd rfl h
  | @next _ w w' request _ hstep ih =>
      rw [← Except.ok.inj hstep, respond_world]
      have hended := collectRunOutputs_compiled services request
        { w with outcomes := request.outcomes } ih
      rcases hbody : outcome (collectRunOutputs services request)
        { w with outcomes := request.outcomes } with ⟨e | runOutputs, v⟩
      · rw [hbody] at hended
        exact hended
      · rw [hbody] at hended
        exact hended

end Compiled

/-! ## Requests -/

section Requests

variable [DecidableEq MeasurementHash] [DecidableEq CoreHash] [DecidableEq Files]
variable {services : Services Measurement MeasurementHash CoreHash Files Executable}
variable {w : World Measurement MeasurementHash CoreHash Files Executable RunOutput}
variable {request : Request Measurement Files RunOutput}

/-- The request has to build the core, and core hashes conflict. -/
def MeetsConflictingHashes
    (services : Services Measurement MeasurementHash CoreHash Files Executable)
    (w : World Measurement MeasurementHash CoreHash Files Executable RunOutput)
    (request : Request Measurement Files RunOutput) : Prop :=
  NeedsCore services w request ∧
    HashesConflict services (services.prepareMeasurement request.measurement)
      (services.getMeasurementHash (services.prepareMeasurement request.measurement)) w

/-- The answer from the cache is known if the core hash is. -/
theorem cachedAnswer_of_known {coreHash : CoreHash}
    (hknown : w.measurementHashRepository.getCoreHash
      (services.getMeasurementHash (services.prepareMeasurement request.measurement)) =
        some coreHash) :
    cachedAnswer services w request = some (usedOutputs services w request) := by
  unfold cachedAnswer usedOutputs
  cases loadedResult services w request with
  | none => rfl
  | some storedResult =>
      dsimp only
      cases hcheck : request.configuration.checkCore with
      | false =>
          rw [coreCheckPasses_off services hcheck]
          rfl
      | true =>
          rw [coreCheckPasses_on services hcheck (currentCoreHash_known services hknown),
            if_pos rfl, hknown]
          by_cases hequal : storedResult.coreHash = some coreHash
          · simp [hequal]
          · simp [hequal, Ne.symm hequal]

/-- A build throws if core hashes conflict, however its steps end. -/
theorem buildMeasuringCore_throws {measurement : Measurement} {measurementHash : MeasurementHash}
    (hconflict : HashesConflict services measurement measurementHash w) :
    ∃ e v, outcome (buildMeasuringCore services measurement measurementHash) w = (.error e, v) := by
  rcases hconflict with ⟨hunchanged, current, currentCore, core, hcurrent, hcurrentCore, hcore, hne⟩
  have hright := HashesConflict.not_rightCoreCompiled
    ⟨hunchanged, current, currentCore, core, hcurrent, hcurrentCore, hcore, hne⟩
  unfold buildMeasuringCore
  rw [outcome_bind, outcome_get]
  dsimp only
  rw [if_neg hright, outcome_bind, prepareMeasuringCoreBuilding, outcome_primitive]
  cases w.outcomes 0 with
  | throws e left => exact ⟨_, _, rfl⟩
  | completes _ =>
      rcases setHaveEqualCores_rejects hcurrentCore hcore hne with ⟨e, hcall⟩
      dsimp only
      rw [hcurrent]
      dsimp only
      rw [if_neg (by simp [hunchanged]), outcome_bind, onRepository, outcome_primitive]
      have hcall' : { w.afterOutcome with
          files := services.generatedFiles measurement }.measurementHashRepository.setHaveEqualCores
            current measurementHash = (.error e, w.measurementHashRepository) := hcall
      rw [hcall']
      exact ⟨_, _, rfl⟩

/-- A request that needs its core throws if core hashes conflict. -/
theorem respond_throws (hmeets : MeetsConflictingHashes services w request) :
    ∃ e v, respond services w request = (.error e, v) := by
  rcases hmeets with ⟨hneeds, hconflict⟩
  rcases hconflict.differ with ⟨-, -, core, -, -, hcore, -⟩
  have hanswer := cachedAnswer_of_known hcore
  rcases cachedRunOutputs_unbuilt hanswer with ⟨outcomes, hcached⟩
  have hconflict' : HashesConflict services (services.prepareMeasurement request.measurement)
      (services.getMeasurementHash (services.prepareMeasurement request.measurement))
      { w with outcomes := outcomes } := ⟨hconflict.unchanged, hconflict.differ⟩
  rcases buildMeasuringCore_throws hconflict' with ⟨e, v, hbuild⟩
  have hbody : outcome (collectRunOutputs services request)
      { w with outcomes := request.outcomes } = (.error e, v) := by
    unfold collectRunOutputs
    dsimp only
    rw [outcome_bind, hcached]
    dsimp only [missingRunOutputs]
    rw [if_pos (hneeds _ hanswer), outcome_bind, performMeasurement, outcome_bind, hbuild]
  rw [respond_eq, hbody]
  exact ⟨_, _, rfl⟩

/-- The body of a request returns if its steps complete and it does not meet conflicting
hashes. -/
theorem collectRunOutputs_returns (hcores : Consistent w.measurementHashRepository)
    (hcompiled : Compiled w)
    (hcompletes : ∀ i e left, request.outcomes i ≠ .throws e left)
    (hfree : ¬MeetsConflictingHashes services w request) :
    ∃ runOutputs v, outcome (collectRunOutputs services request)
      { w with outcomes := request.outcomes } = (.ok runOutputs, v) := by
  -- a conflict lasts until the missing outputs are measured, and then none may be missing
  have hready : ReadyIf services (services.prepareMeasurement request.measurement)
      (services.getMeasurementHash (services.prepareMeasurement request.measurement))
      (request.numberOfRuns ≤ (usedOutputs services w request).length)
      { w with outcomes := request.outcomes } := by
    refine ⟨⟨hcores, hcompiled, hcompletes⟩, fun hconflict => ?_⟩
    rcases hconflict.differ with ⟨-, -, core, -, -, hcore, -⟩
    by_contra hmissing
    refine hfree ⟨fun runOutputs hanswer => ?_, hconflict.unchanged, hconflict.differ⟩
    have hused : cachedAnswer services w request = some (usedOutputs services w request) :=
      cachedAnswer_of_known hcore
    rw [← Option.some.inj (hused.symm.trans hanswer)]
    exact Int.not_le.mp hmissing
  have hcached := (cachedRunOutputs_returns request.configuration
    (services.prepareMeasurement request.measurement)
    (services.getMeasurementHash (services.prepareMeasurement request.measurement))).returns hready
  rcases hcached with ⟨cached, v, hcached, hleft⟩
  have hused := (cachedRunOutputs_used services hcores request).returned rfl
    (congrArg Prod.fst hcached)
  rw [← hused.1] at hleft
  rcases (missingRunOutputs_returns _ _ request.numberOfRuns cached).returns hleft with
    ⟨runOutputs, v', hmissing, -⟩
  refine ⟨runOutputs, v', ?_⟩
  unfold collectRunOutputs
  dsimp only
  rw [outcome_bind, hcached]
  exact hmissing

/-- A request none of whose steps fails returns as many outputs as are asked for, has those run
that were not found in the cache, and stores them in front of those it has used, exactly if it
does not meet conflicting core hashes. -/
theorem measure_accounts_iff {files : Files} {executable : Option Executable}
    {results : MeasurementHash → Option (MeasurementResult Measurement CoreHash RunOutput)}
    {outcomes : Nat → Outcome Files RunOutput}
    {before : List (Request Measurement Files RunOutput)}
    (hrun : Run (step services) (start files executable results outcomes) before w)
    (hcount : 0 ≤ request.numberOfRuns) (hsteps : NoStepFails services w request) :
    AccountsFor services w request ↔ ¬MeetsConflictingHashes services w request := by
  constructor
  · rintro ⟨-, result, v, hresponse, -⟩ hmeets
    rcases respond_throws hmeets with ⟨e, v', hthrows⟩
    rw [hthrows] at hresponse
    cases hresponse
  · intro hfree
    have hcores := consistent_of_run hrun
    rcases collectRunOutputs_returns hcores (compiled_of_run services hrun) hsteps.completes hfree
      with ⟨runOutputs, v, hbody⟩
    exact ⟨length_usedOutputs (hsteps.completes 0),
      accounted_of_returned hcores hcount hsteps hbody⟩

end Requests

/-! ## Two requests -/

/-- An earlier process has left one output of each measurement. -/
abbrev storedStart : World Nat Nat Nat Nat Nat Nat :=
  start 0 none (fun m => some ⟨m, [9], some m⟩) (fun _ => .completes [])

/-- A request for three outputs of measurement 1. -/
def requestThree : Request Nat Nat Nat where
  configuration := ⟨true, true⟩
  measurement := 1
  numberOfRuns := 3
  outcomes _ := .completes [7, 8]

/-- The stored output is used and two are measured. -/
theorem measure_accounts_iff_three :
    ∃ result v, respond numberServices storedStart requestThree = (.ok result, v) ∧
      Accounted storedStart 1 1 3 [9] result v := by
  have hsteps : NoStepFails numberServices storedStart requestThree := by
    refine ⟨by simp [requestThree], ?_⟩
    intro new hnew run hmem
    have hproduced : (respond numberServices storedStart requestThree).2.produced =
        [⟨⟨1, 2⟩, [7, 8]⟩] := rfl
    rw [hproduced] at hnew
    have hrun : run ∈ [(⟨⟨1, 2⟩, [7, 8]⟩ : CoreOutputs Nat Nat)] := hnew ▸ hmem
    rw [List.mem_singleton.mp hrun]
    rfl
  have hfree : ¬MeetsConflictingHashes numberServices storedStart requestThree := by
    rintro ⟨-, -, _, _, _, hcurrent, -⟩
    cases hcurrent
  exact ((measure_accounts_iff (.start : Run (step numberServices) storedStart [] storedStart)
    (by decide) hsteps).mpr hfree).accounted

/-- A request for two outputs of measurement 1 whose external step {lit}`n` throws if
{lit}`fails n`. -/
def requestTwo (fails : Nat → Bool) : Request Nat Nat Unit :=
  { requestOne 1 fails with numberOfRuns := 2 }

/-- Measurements 1 and 2 have been measured, and the compilation for a second output of 1 has
failed. -/
def afterFailedCompilation : World Nat Nat Nat Nat Nat Unit :=
  (respond numberServices (respond numberServices (respond numberServices numberStart
    (requestOne 1 fun _ => false)).2 (requestOne 2 fun _ => false)).2
    (requestTwo fun n => n == 2)).2

/-- After the failed compilation the second output of measurement 1 is not measured, although
no step of the request fails: its files are on disk, and the known core hashes differ. -/
theorem not_measure_accounts :
    ¬∀ (before : List (Request Nat Nat Unit)) (w : World Nat Nat Nat Nat Nat Unit)
      (request : Request Nat Nat Unit), Run (step numberServices) numberStart before w →
        0 ≤ request.numberOfRuns → NoStepFails numberServices w request →
        AccountsFor numberServices w request := by
  intro hall
  have hrun : Run (step numberServices) numberStart
      [requestOne 1 fun _ => false, requestOne 2 fun _ => false, requestTwo fun n => n == 2]
      afterFailedCompilation :=
    run_iff_exec.mpr rfl
  have hsteps : NoStepFails numberServices afterFailedCompilation (requestTwo fun _ => false) := by
    refine ⟨by simp [requestTwo, requestOne], ?_⟩
    intro new hnew
    have hproduced : (respond numberServices afterFailedCompilation
        (requestTwo fun _ => false)).2.produced = afterFailedCompilation.produced := rfl
    rw [hproduced] at hnew
    simp [List.self_eq_append_right.mp hnew]
  have hthrows : (respond numberServices afterFailedCompilation (requestTwo fun _ => false)).1 =
      .error (.error "measurements set to equal, but core hashes differ") := rfl
  rcases (hall _ _ _ hrun (by decide) hsteps).accounted with ⟨result, v, hresponse, -⟩
  rw [hresponse] at hthrows
  cases hthrows

end MeasurementAppController
end Roofline
