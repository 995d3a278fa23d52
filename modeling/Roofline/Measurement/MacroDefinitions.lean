import Roofline.Java.Throwable
import Roofline.Measurement.Entities

/-!
# Macro definitions

The measuring core is compiled with macros that the objects of a measurement define.  The
definitions of the workloads are collected by a traversal of their own, while the kernels to be
compiled are those {lit}`getAll` finds.

Main results:

- Theorem {lit}`mem_availableDefinitions`: which objects are considered.
- Theorem {lit}`collectsMacro_iff`: when the definitions of the whole measurement are respected.
-/

namespace Roofline
namespace Measurements

open LinkedSets

/-! ## Containers -/

namespace MacroDefinitions

/-- {lit}`isMacroDefined` -/
def isMacroDefined (macroDefinitions : MacroDefinitions) (key : MacroKey) : Bool :=
  (macroDefinitions key.macroName).isSome

/-- {lit}`getMacroDefinition` of a container: the default if there is none. -/
def getMacroDefinition (macroDefinitions : MacroDefinitions) (key : MacroKey) : String :=
  (macroDefinitions key.macroName).getD key.defaultValue

/-- What a container contributes: its definition, if it has one. -/
def given (macroDefinitions : MacroDefinitions) (key : MacroKey) : List String :=
  if isMacroDefined macroDefinitions key then [getMacroDefinition macroDefinitions key] else []

/-- The definition that a container gives. -/
@[simp] theorem mem_given {macroDefinitions : MacroDefinitions} {key : MacroKey}
    {definition : String} : definition ∈ given macroDefinitions key ↔
      macroDefinitions key.macroName = some definition := by
  unfold given isMacroDefined getMacroDefinition
  cases macroDefinitions key.macroName with
  | none => simp
  | some given => simp [eq_comm]

end MacroDefinitions

/-! ## The collection -/

namespace Measurement

variable (m : Measurement) (key : MacroKey)

/-- {lit}`getMeasurers` of a measurer set. -/
def measurersOf (set : Ref .measurerSet) : List (Ref .measurer) :=
  (ofAdds (m.addAllMeasurerSet set)).filterMap fun entity =>
    match entity with
    | .object .measurer measurer => some measurer
    | _ => none

/-- {lit}`getMacroDefinitions` of a measurer set. -/
def measurerSetMacroDefinitions (set : Ref .measurerSet) : List String :=
  (m.measurersOf set).flatMap fun measurer => (m.measurer measurer).macroDefinitions.given key

/-- {lit}`getMacroDefinitions` of a workload. -/
def workloadMacroDefinitions (workload : Ref .workload) : List String :=
  (m.workload workload).macroDefinitions.given key ++
    (m.workload workload).kernel.toList.flatMap
      (fun kernel => (m.kernel kernel).macroDefinitions.given key) ++
    (m.workload workload).measurerSet.toList.flatMap (m.measurerSetMacroDefinitions key)

/-- All definitions of the macro that are asked for. -/
def availableDefinitions : List String :=
  m.macroDefinitions.given key ++ m.workloads.flatMap (m.workloadMacroDefinitions key)

/-- {lit}`getMacroDefinition` of the measurement. -/
def getMacroDefinition : Except Throwable String :=
  match m.availableDefinitions key with
  | [] => .ok key.defaultValue
  | firstDefinition :: definitions =>
      match (firstDefinition :: definitions).find? (firstDefinition ≠ ·) with
      | some definition =>
          .error (.error ("found multiple definitions for macro " ++ key.macroName ++ ": <" ++
            firstDefinition ++ "> and <" ++ definition ++ ">"))
      | none => .ok firstDefinition

variable {m key}

/-- Without a definition the default is returned. -/
theorem getMacroDefinition_none (h : m.availableDefinitions key = []) :
    m.getMacroDefinition key = .ok key.defaultValue := by
  rw [getMacroDefinition, h]

/-- Definitions that agree are respected. -/
theorem getMacroDefinition_agreed {definition : String}
    (hmem : definition ∈ m.availableDefinitions key)
    (hagree : ∀ other ∈ m.availableDefinitions key, other = definition) :
    m.getMacroDefinition key = .ok definition := by
  unfold getMacroDefinition
  cases havailable : m.availableDefinitions key with
  | nil => simp [havailable] at hmem
  | cons first rest =>
      rw [havailable] at hagree
      obtain rfl : first = definition := hagree first List.mem_cons_self
      have hnone : (first :: rest).find? (first ≠ ·) = none := by
        rw [List.find?_eq_none]
        intro other hother
        simp [hagree other hother]
      simp only [hnone]

/-- Definitions that contradict each other are rejected. -/
theorem getMacroDefinition_contradicted {definition other : String}
    (hmem : definition ∈ m.availableDefinitions key)
    (hother : other ∈ m.availableDefinitions key) (hne : definition ≠ other) :
    ∃ e, m.getMacroDefinition key = .error e := by
  unfold getMacroDefinition
  cases havailable : m.availableDefinitions key with
  | nil => simp [havailable] at hmem
  | cons first rest =>
      rw [havailable] at hmem hother
      cases hfind : (first :: rest).find? (first ≠ ·) with
      | some found => exact ⟨_, by simp only [hfind]; rfl⟩
      | none =>
          rw [List.find?_eq_none] at hfind
          have hdefinition : first = definition := by simpa using hfind definition hmem
          have hsame : first = other := by simpa using hfind other hother
          exact absurd (hdefinition.symm.trans hsame) hne

end Measurement

/-! ## The objects that are considered -/

namespace Measurement

/-- The macros an object defines. -/
def macroDefinitionsOf (m : Measurement) : Entity → MacroDefinitions
  | .measurement => m.macroDefinitions
  | .object .workload workload => (m.workload workload).macroDefinitions
  | .object .kernel kernel => (m.kernel kernel).macroDefinitions
  | .object .measurerSet _ => fun _ => none
  | .object .measurer measurer => (m.measurer measurer).macroDefinitions
  | .object .configurator configurator => (m.configurator configurator).macroDefinitions

/-- The object gives this definition of the macro. -/
def Defines (m : Measurement) (key : MacroKey) (entity : Entity) (definition : String) : Prop :=
  m.macroDefinitionsOf entity key.macroName = some definition

/-- The measurement itself and the objects of its workloads. -/
def considered (m : Measurement) : List Entity :=
  .measurement :: m.workloads.flatMap m.addAllWorkload

variable {m : Measurement} {key : MacroKey}

/-- All entities are those that are visited. -/
theorem mem_getAll {entity : Entity} : entity ∈ m.getAll ↔ entity ∈ m.addAll :=
  mem_ofAdds

/-- What is asked for is among all entities. -/
theorem considered_subset : m.considered ⊆ m.getAll := by
  intro entity hmem
  rw [mem_getAll, addAll]
  simp only [List.append_assoc, List.cons_append]
  rcases List.mem_cons.mp hmem with rfl | hworkload
  · exact List.mem_cons_self
  · exact List.mem_cons_of_mem _ (List.mem_append_left _ hworkload)

/-- The measurers of a set are those that are visited with it. -/
theorem mem_measurersOf {set : Ref .measurerSet} {measurer : Ref .measurer} :
    measurer ∈ m.measurersOf set ↔ .object .measurer measurer ∈ m.addAllMeasurerSet set := by
  rw [measurersOf, List.mem_filterMap]
  constructor
  · rintro ⟨entity, hmem, hentity⟩
    rw [mem_ofAdds] at hmem
    split at hentity
    · cases hentity
      exact hmem
    · cases hentity
  · intro hmem
    exact ⟨_, mem_ofAdds.mpr hmem, rfl⟩

/-- The definitions of a measurer set are those of its entities. -/
theorem mem_measurerSetMacroDefinitions {set : Ref .measurerSet} {definition : String} :
    definition ∈ m.measurerSetMacroDefinitions key set ↔
      ∃ entity ∈ m.addAllMeasurerSet set, m.Defines key entity definition := by
  simp only [measurerSetMacroDefinitions, List.mem_flatMap, MacroDefinitions.mem_given,
    mem_measurersOf]
  constructor
  · rintro ⟨measurer, hmem, hdefines⟩
    exact ⟨_, hmem, hdefines⟩
  · rintro ⟨entity, hmem, hdefines⟩
    have hentity := hmem
    simp only [addAllMeasurerSet, List.mem_cons, List.mem_map] at hentity
    rcases hentity with rfl | ⟨measurer, -, rfl⟩
    · exact absurd hdefines (by simp [Defines, macroDefinitionsOf])
    · exact ⟨measurer, hmem, hdefines⟩

/-- The definitions of a workload are those of its entities. -/
theorem mem_workloadMacroDefinitions {workload : Ref .workload} {definition : String} :
    definition ∈ m.workloadMacroDefinitions key workload ↔
      ∃ entity ∈ m.addAllWorkload workload, m.Defines key entity definition := by
  simp only [workloadMacroDefinitions, addAllWorkload, List.mem_append, List.mem_cons,
    List.mem_flatMap, List.mem_map, MacroDefinitions.mem_given, mem_measurerSetMacroDefinitions]
  constructor
  · rintro ((hown | ⟨kernel, hkernel, hdefines⟩) | ⟨set, hset, entity, hmem, hdefines⟩)
    · exact ⟨_, .inl (.inl rfl), hown⟩
    · exact ⟨_, .inl (.inr ⟨kernel, hkernel, rfl⟩), hdefines⟩
    · exact ⟨entity, .inr ⟨set, hset, hmem⟩, hdefines⟩
  · rintro ⟨entity, (rfl | ⟨kernel, hkernel, rfl⟩) | ⟨set, hset, hmem⟩, hdefines⟩
    · exact .inl (.inl hdefines)
    · exact .inl (.inr ⟨kernel, hkernel, hdefines⟩)
    · exact .inr ⟨set, hset, entity, hmem, hdefines⟩

/-- The definitions that are found are those of the objects that are considered. -/
theorem mem_availableDefinitions {definition : String} :
    definition ∈ m.availableDefinitions key ↔
      ∃ entity ∈ m.considered, m.Defines key entity definition := by
  simp only [availableDefinitions, considered, List.mem_append, List.mem_cons, List.mem_flatMap,
    MacroDefinitions.mem_given, mem_workloadMacroDefinitions]
  constructor
  · rintro (hown | ⟨workload, hworkload, entity, hmem, hdefines⟩)
    · exact ⟨_, .inl rfl, hown⟩
    · exact ⟨entity, .inr ⟨workload, hworkload, hmem⟩, hdefines⟩
  · rintro ⟨entity, rfl | ⟨workload, hworkload, hmem⟩, hdefines⟩
    · exact .inl hdefines
    · exact .inr ⟨workload, hworkload, entity, hmem, hdefines⟩

/-! ## The whole measurement -/

/-- An object of the measurement gives this definition. -/
def Given (m : Measurement) (key : MacroKey) (definition : String) : Prop :=
  ∃ entity ∈ m.getAll, m.Defines key entity definition

/-- The macro is defined as the objects of the measurement define it. -/
structure CollectsMacro (m : Measurement) (key : MacroKey) : Prop where
  undefined : (∀ definition, ¬m.Given key definition) →
    m.getMacroDefinition key = .ok key.defaultValue
  agreed : ∀ definition, m.Given key definition →
    (∀ other, m.Given key other → other = definition) →
    m.getMacroDefinition key = .ok definition
  contradicted : (∃ e, m.getMacroDefinition key = .error e) ↔
    ∃ definition other, m.Given key definition ∧ m.Given key other ∧ definition ≠ other

/-- Two objects that are considered contradict each other. -/
def ConsideredContradict (m : Measurement) (key : MacroKey) : Prop :=
  ∃ entity ∈ m.considered, ∃ other ∈ m.considered, ∃ definition definition',
    m.Defines key entity definition ∧ m.Defines key other definition' ∧ definition ≠ definition'

/-- No object that is not considered gives another definition than those that are, or than the
default if they give none. -/
def OthersAgree (m : Measurement) (key : MacroKey) : Prop :=
  ∀ entity ∈ m.getAll, entity ∉ m.considered → ∀ definition, m.Defines key entity definition →
    (∀ other ∈ m.considered, ∀ definition', m.Defines key other definition' →
      definition' = definition) ∧
    ((∀ other ∈ m.considered, ∀ definition', ¬m.Defines key other definition') →
      definition = key.defaultValue)

/-- The first definition is one of them. -/
theorem first_available {first : String} {rest : List String}
    (h : m.availableDefinitions key = first :: rest) : first ∈ m.availableDefinitions key := by
  rw [h]
  exact List.mem_cons_self

/-- A definition that is asked for is given. -/
theorem given_of_available {definition : String}
    (h : definition ∈ m.availableDefinitions key) : m.Given key definition := by
  rcases mem_availableDefinitions.mp h with ⟨entity, hmem, hdefines⟩
  exact ⟨entity, considered_subset hmem, hdefines⟩

/-- Unless they contradict each other, the definitions that are found are all equal. -/
theorem eq_headD_of_available (hagree : ¬m.ConsideredContradict key) {definition : String}
    (h : definition ∈ m.availableDefinitions key) :
    definition = (m.availableDefinitions key).headD key.defaultValue := by
  by_contra hne
  have hhead : (m.availableDefinitions key).headD key.defaultValue ∈
      m.availableDefinitions key := by
    cases havailable : m.availableDefinitions key with
    | nil => simp [havailable] at h
    | cons first rest => exact List.mem_cons_self
  rcases mem_availableDefinitions.mp h with ⟨entity, hentity, hdefines⟩
  rcases mem_availableDefinitions.mp hhead with ⟨other, hother, hdefines'⟩
  exact hagree ⟨entity, hentity, other, hother, _, _, hdefines, hdefines', hne⟩

/-- If no two definitions that are asked for differ, the first one is returned. -/
theorem getMacroDefinition_headD (hagree : ¬m.ConsideredContradict key) :
    m.getMacroDefinition key = .ok ((m.availableDefinitions key).headD key.defaultValue) := by
  cases havailable : m.availableDefinitions key with
  | nil => exact getMacroDefinition_none havailable
  | cons first rest =>
      apply getMacroDefinition_agreed (first_available havailable)
      intro other hother
      have heq := eq_headD_of_available hagree hother
      rwa [havailable] at heq

/-- The collection succeeds unless considered objects contradict each other. -/
theorem getMacroDefinition_ok_iff :
    (∃ definition, m.getMacroDefinition key = .ok definition) ↔ ¬m.ConsideredContradict key := by
  constructor
  · rintro ⟨definition, hok⟩ ⟨entity, hentity, other, hother, _, _, hdefines, hdefines', hne⟩
    rcases getMacroDefinition_contradicted
      (mem_availableDefinitions.mpr ⟨entity, hentity, hdefines⟩)
      (mem_availableDefinitions.mpr ⟨other, hother, hdefines'⟩) hne with ⟨e, he⟩
    rw [hok] at he
    cases he
  · intro hagree
    exact ⟨_, getMacroDefinition_headD hagree⟩

/-- What it means to agree with the definitions that are found. -/
theorem othersAgree_iff (hagree : ¬m.ConsideredContradict key) : m.OthersAgree key ↔
    ∀ entity ∈ m.getAll, entity ∉ m.considered → ∀ definition, m.Defines key entity definition →
      definition = (m.availableDefinitions key).headD key.defaultValue := by
  constructor
  · intro hothers entity hentity hmem definition hdefines
    rcases hothers entity hentity hmem definition hdefines with ⟨hsame, hdefault⟩
    cases havailable : m.availableDefinitions key with
    | nil =>
        apply hdefault
        intro other hother definition' hdefines'
        have hfound := mem_availableDefinitions.mpr ⟨other, hother, hdefines'⟩
        simp [havailable] at hfound
    | cons first rest =>
        have hfirst := first_available havailable
        rcases mem_availableDefinitions.mp hfirst with ⟨other, hother, hdefines'⟩
        exact (hsame other hother first hdefines').symm
  · intro hothers entity hentity hmem definition hdefines
    rw [hothers entity hentity hmem definition hdefines]
    constructor
    · intro other hother definition' hdefines'
      exact eq_headD_of_available hagree (mem_availableDefinitions.mpr ⟨other, hother, hdefines'⟩)
    · intro hnone
      cases havailable : m.availableDefinitions key with
      | nil => rfl
      | cons first rest =>
          have hfirst := first_available havailable
          rcases mem_availableDefinitions.mp hfirst with ⟨other, hother, hdefines'⟩
          exact absurd hdefines' (hnone other hother first)

/-- If the considered objects contradict each other, the collection fails as it has to. -/
theorem collectsMacro_of_contradict (h : m.ConsideredContradict key) : m.CollectsMacro key := by
  rcases h with ⟨entity, hentity, other, hother, definition, definition', hdefines, hdefines', hne⟩
  have hgiven : m.Given key definition := ⟨entity, considered_subset hentity, hdefines⟩
  have hgiven' : m.Given key definition' := ⟨other, considered_subset hother, hdefines'⟩
  constructor
  case undefined =>
    intro hnone
    exact absurd hgiven (hnone definition)
  case agreed =>
    intro agreed _ hall
    exact absurd ((hall _ hgiven).trans (hall _ hgiven').symm) hne
  case contradicted =>
    have hfails := getMacroDefinition_contradicted
      (mem_availableDefinitions.mpr ⟨entity, hentity, hdefines⟩)
      (mem_availableDefinitions.mpr ⟨other, hother, hdefines'⟩) hne
    exact ⟨fun _ => ⟨definition, definition', hgiven, hgiven', hne⟩, fun _ => hfails⟩

/-- If all other objects agree with the considered ones, nothing is lost. -/
theorem collectsMacro_of_othersAgree (hagree : ¬m.ConsideredContradict key)
    (hothers : m.OthersAgree key) : m.CollectsMacro key := by
  have hget := getMacroDefinition_headD hagree
  have hgiven (definition : String) (h : m.Given key definition) :
      definition = (m.availableDefinitions key).headD key.defaultValue := by
    rcases h with ⟨entity, hentity, hdefines⟩
    by_cases hmem : entity ∈ m.considered
    · exact eq_headD_of_available hagree (mem_availableDefinitions.mpr ⟨entity, hmem, hdefines⟩)
    · exact (othersAgree_iff hagree).mp hothers entity hentity hmem definition hdefines
  constructor
  case undefined =>
    intro hnone
    cases havailable : m.availableDefinitions key with
    | nil => exact getMacroDefinition_none havailable
    | cons first rest =>
        have hfirst := first_available havailable
        exact absurd (given_of_available hfirst) (hnone first)
  case agreed =>
    intro definition h _
    rw [hget, hgiven definition h]
  case contradicted =>
    constructor
    · rintro ⟨e, he⟩
      rw [hget] at he
      cases he
    · rintro ⟨definition, other, h, hother, hne⟩
      exact absurd ((hgiven definition h).trans (hgiven other hother).symm) hne

/-- The definitions of the whole measurement are respected exactly if the considered objects
contradict each other already, or all other objects agree with them. -/
theorem collectsMacro_iff (m : Measurement) (key : MacroKey) :
    m.CollectsMacro key ↔ m.ConsideredContradict key ∨ m.OthersAgree key := by
  constructor
  · intro hcollects
    by_contra hneither
    rw [not_or] at hneither
    rcases hneither with ⟨hagree, hothers⟩
    apply hothers
    rw [othersAgree_iff hagree]
    have hget := getMacroDefinition_headD hagree
    have hsame (definition other : String) (h : m.Given key definition)
        (hother : m.Given key other) : other = definition := by
      by_contra hne
      rcases hcollects.contradicted.mpr ⟨other, definition, hother, h, hne⟩ with ⟨e, he⟩
      rw [hget] at he
      cases he
    intro entity hentity _ definition hdefines
    have hgiven : m.Given key definition := ⟨entity, hentity, hdefines⟩
    have hok := hcollects.agreed definition hgiven fun other => hsame definition other hgiven
    exact Except.ok.inj (hok.symm.trans hget)
  · rintro (hcontradict | hothers)
    · exact collectsMacro_of_contradict hcontradict
    · by_cases hcontradict : m.ConsideredContradict key
      · exact collectsMacro_of_contradict hcontradict
      · exact collectsMacro_of_othersAgree hcontradict hothers

end Measurement

/-! ## A kernel only an action refers to -/

/-- A macro of the arithmetic kernel. -/
def operationMacro : MacroKey where
  macroName := "RMT_ARITHMETIC_OPERATION"
  description := "specifies the arithmetic operation to be used"
  defaultValue := "ArithmeticOperation_ADD"

/-- There is no workload; the buffers of an arithmetic kernel that multiplies are flushed when
the measurement run starts. -/
def flushingMeasurement : Measurement where
  macroDefinitions _ := none
  workloads := []
  configurators := []
  rules := [⟨some (.measurementRun 0), some (.flushKernelBuffers none 0 (some ⟨0⟩))⟩]
  overallMeasurerSet := none
  workload _ := ⟨fun _ => none, 0, none, none, 0⟩
  kernel _ :=
    { className := "ArithmeticKernel"
      macroDefinitions := fun name =>
        if name = operationMacro.macroName then some "ArithmeticOperation_MUL" else none
      id := 0
      optimization := "-O3"
      warmCode := false
      warmData := false
      numThreads := 1 }
  measurerSet _ := ⟨0, none, [], []⟩
  measurer _ := ⟨fun _ => none, 0⟩
  configurator _ := .sleep (fun _ => none) 0 0 0 0

/-- The kernel is compiled to add. -/
theorem not_collectsMacro : ¬flushingMeasurement.CollectsMacro operationMacro := by
  intro hcollects
  have hmul : flushingMeasurement.Given operationMacro "ArithmeticOperation_MUL" :=
    ⟨.object .kernel ⟨0⟩, by decide, rfl⟩
  have hagreed := hcollects.agreed _ hmul ?_
  · exact absurd (Except.ok.inj hagreed) (by decide)
  · rintro other ⟨entity, hentity, hdefines⟩
    have hall : flushingMeasurement.getAll = [.measurement, .object .kernel ⟨0⟩] := by decide
    rw [hall, List.mem_cons, List.mem_singleton] at hentity
    rcases hentity with rfl | rfl
    · cases hdefines
    · exact (Option.some.inj hdefines).symm

end Measurements
end Roofline
