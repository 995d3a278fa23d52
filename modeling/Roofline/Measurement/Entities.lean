import Roofline.Library.LinkedSets

/-!
# Measurements

A measurement is an object graph: workloads with their kernels and measurer sets,
configurators, and rules whose predicates and actions may refer to workloads, kernels and
measurer sets of their own.  {lit}`addAll` visits all these objects and {lit}`setIds` numbers
them.  The lists hold no null and no action contains itself.

Main results:

- Theorem {lit}`SameShape.getAll`: what is visited does not depend on the ids.
- Theorem {lit}`setIds_setIds`: the ids are set once and for all.
-/

namespace Roofline
namespace Measurements

open LinkedSets

/-! ## Objects -/

/-- The objects that are referred to by identity. -/
inductive Kind where
  | workload
  | kernel
  | measurerSet
  | measurer
  | configurator
deriving DecidableEq

/-- A reference that is not null. -/
structure Ref (kind : Kind) where
  index : Nat
deriving DecidableEq

/-- {lit}`MacroKey` -/
structure MacroKey where
  macroName : String
  description : String
  defaultValue : String
deriving DecidableEq

/-- The map of a {lit}`MacroDefinitionContainer`, from the names of the macros. -/
abbrev MacroDefinitions := String → Option String

/-- A workload with what it refers to. -/
structure Workload where
  macroDefinitions : MacroDefinitions
  id : Int
  kernel : Option (Ref .kernel)
  measurerSet : Option (Ref .measurerSet)
  cpu : Int

/-- A kernel; {lit}`className` is the simple name of its class. -/
structure Kernel where
  className : String
  macroDefinitions : MacroDefinitions
  id : Int
  optimization : String
  warmCode : Bool
  warmData : Bool
  numThreads : Int

/-- A measurer. -/
structure Measurer where
  macroDefinitions : MacroDefinitions
  id : Int

/-- A measurer set with its measurers. -/
structure MeasurerSet where
  id : Int
  mainMeasurer : Option (Ref .measurer)
  additionalMeasurers : List (Ref .measurer)
  validationMeasurers : List (Ref .measurer)

/-- {lit}`setId` of a workload. -/
def Workload.setId (workload : Workload) (id : Nat) : Workload :=
  { workload with id }

/-- {lit}`setId` of a kernel. -/
def Kernel.setId (kernel : Kernel) (id : Nat) : Kernel :=
  { kernel with id }

/-- {lit}`setId` of a measurer set. -/
def MeasurerSet.setId (measurerSet : MeasurerSet) (id : Nat) : MeasurerSet :=
  { measurerSet with id }

/-- {lit}`setId` of a measurer. -/
def Measurer.setId (measurer : Measurer) (id : Nat) : Measurer :=
  { measurer with id }

/-- A command; an argument may be null. -/
structure RunCommand where
  executable : String
  args : List (Option String)
deriving DecidableEq

/-- The two classes of configurators. -/
inductive Configurator where
  | runCommand (macroDefinitions : MacroDefinitions)
      (beforeMeasurementCommands afterMeasurementCommands beforeRunCommands afterRunCommands :
        List RunCommand)
  | sleep (macroDefinitions : MacroDefinitions)
      (sleepBeforeMeasurement sleepAfterMeasurement sleepBeforeRun sleepAfterRun : Int)

/-- The macro definitions of a configurator. -/
def Configurator.macroDefinitions : Configurator → MacroDefinitions
  | .runCommand macroDefinitions _ _ _ _ => macroDefinitions
  | .sleep macroDefinitions _ _ _ _ => macroDefinitions

/-- The classes of event predicates. -/
inductive EventPredicate where
  | measurementRun (eventNr : Int)
  | thread (eventNr : Int) (workload : Option (Ref .workload))
  | workload (workload : Option (Ref .workload)) (eventNr : Int)

/-- The actions that are about nothing but a measurer set. -/
inductive MeasurerSetAction where
  | disposeMeasurerSet
  | initializeMeasurerSet
  | readMeasurerSet
  | startMeasurerSet
  | stopMeasurerSet
deriving DecidableEq

/-- An action, with the workload and the thread it has to be executed in. -/
inductive Action where
  | createMeasurerOnThread (workload : Option (Ref .workload)) (tid : Int)
      (measurerSet : Option (Ref .measurerSet))
      (startPredicate stopPredicate readPredicate disposePredicate : Option EventPredicate)
  | onMeasurerSet (what : MeasurerSetAction) (workload : Option (Ref .workload)) (tid : Int)
      (measurerSet : Option (Ref .measurerSet))
  | flushKernelBuffers (workload : Option (Ref .workload)) (tid : Int)
      (kernel : Option (Ref .kernel))
  | stopKernel (workload : Option (Ref .workload)) (tid : Int) (kernel : Option (Ref .kernel))
  | measureActionExecution (workload : Option (Ref .workload)) (tid : Int)
      (action : Option Action) (measurerSet : Option (Ref .measurerSet))
  | waitForPressureBarrier (workload : Option (Ref .workload)) (tid : Int) (pressure : Int)
      (threshold : Option Int)
  | waitForWorkload (workload : Option (Ref .workload)) (tid : Int)
      (waitForWorkload : Option (Ref .workload))

/-- A rule; both of its parts may be null. -/
structure Rule where
  predicate : Option EventPredicate
  action : Option Action

/-- A measurement with the objects the references stand for. -/
structure Measurement where
  macroDefinitions : MacroDefinitions
  workloads : List (Ref .workload)
  configurators : List (Ref .configurator)
  rules : List Rule
  overallMeasurerSet : Option (Ref .measurerSet)
  workload : Ref .workload → Workload
  kernel : Ref .kernel → Kernel
  measurerSet : Ref .measurerSet → MeasurerSet
  measurer : Ref .measurer → Measurer
  configurator : Ref .configurator → Configurator

/-! ## Visiting all objects -/

/-- The measurement or an object it refers to. -/
inductive Entity where
  | measurement
  | object (kind : Kind) (ref : Ref kind)
deriving DecidableEq

namespace Measurement

variable (m : Measurement)

/-! The lists that follow are what {lit}`addAll` of each class adds, in this order. -/

/-- {lit}`addAll` of a measurer set. -/
def addAllMeasurerSet (set : Ref .measurerSet) : List Entity :=
  let measurerSet := m.measurerSet set
  .object .measurerSet set ::
    (measurerSet.mainMeasurer.toList ++ measurerSet.additionalMeasurers ++
      measurerSet.validationMeasurers).map (.object .measurer)

/-- {lit}`addAll` of a workload. -/
def addAllWorkload (workload : Ref .workload) : List Entity :=
  .object .workload workload :: (m.workload workload).kernel.toList.map (.object .kernel) ++
    (m.workload workload).measurerSet.toList.flatMap m.addAllMeasurerSet

/-- {lit}`addAll` of an event predicate. -/
def addAllPredicate : EventPredicate → List Entity
  | .measurementRun _ => []
  | .thread _ workload => workload.toList.flatMap m.addAllWorkload
  | .workload workload _ => workload.toList.flatMap m.addAllWorkload

/-- {lit}`addAll` of an action. -/
def addAllAction : Action → List Entity
  | .createMeasurerOnThread workload _ measurerSet startPredicate stopPredicate readPredicate
      disposePredicate =>
      workload.toList.flatMap m.addAllWorkload ++
        measurerSet.toList.flatMap m.addAllMeasurerSet ++
        (startPredicate.toList ++ stopPredicate.toList ++ readPredicate.toList ++
          disposePredicate.toList).flatMap m.addAllPredicate
  | .onMeasurerSet _ workload _ measurerSet =>
      workload.toList.flatMap m.addAllWorkload ++ measurerSet.toList.flatMap m.addAllMeasurerSet
  | .flushKernelBuffers workload _ kernel =>
      workload.toList.flatMap m.addAllWorkload ++ kernel.toList.map (.object .kernel)
  | .stopKernel workload _ kernel =>
      workload.toList.flatMap m.addAllWorkload ++ kernel.toList.map (.object .kernel)
  | .measureActionExecution workload _ none measurerSet =>
      workload.toList.flatMap m.addAllWorkload ++ measurerSet.toList.flatMap m.addAllMeasurerSet
  | .measureActionExecution workload _ (some action) measurerSet =>
      workload.toList.flatMap m.addAllWorkload ++ addAllAction action ++
        measurerSet.toList.flatMap m.addAllMeasurerSet
  | .waitForPressureBarrier workload _ _ _ => workload.toList.flatMap m.addAllWorkload
  | .waitForWorkload workload _ waitForWorkload =>
      workload.toList.flatMap m.addAllWorkload ++ waitForWorkload.toList.flatMap m.addAllWorkload

/-- {lit}`addAll` of a rule. -/
def addAllRule (rule : Rule) : List Entity :=
  rule.predicate.toList.flatMap m.addAllPredicate ++ rule.action.toList.flatMap m.addAllAction

/-- {lit}`addAll` of the measurement. -/
def addAll : List Entity :=
  .measurement :: m.workloads.flatMap m.addAllWorkload ++
    m.configurators.map (.object .configurator) ++ m.rules.flatMap m.addAllRule ++
    m.overallMeasurerSet.toList.flatMap m.addAllMeasurerSet

/-- {lit}`getAll`, without the objects nobody looks for: rules, predicates, actions, barriers
and commands. -/
def getAll : List Entity :=
  ofAdds m.addAll

/-- {lit}`getAll` of a class. -/
def getAllOf (kind : Kind) : List (Ref kind) :=
  m.getAll.filterMap fun entity =>
    match entity with
    | .measurement => none
    | .object kind' ref => if h : kind' = kind then some (h ▸ ref) else none

/-- {lit}`getKernels` -/
def getKernels : List (Ref .kernel) :=
  m.getAllOf .kernel

/-- {lit}`getMeasurerSets` -/
def getMeasurerSets : List (Ref .measurerSet) :=
  m.getAllOf .measurerSet

/-- {lit}`getMeasurers` -/
def getMeasurers : List (Ref .measurer) :=
  m.getAllOf .measurer

/-! ## Ids -/

/-- The loop that numbers the workloads. -/
def setWorkloadIds : Measurement :=
  { m with workload := number m.workloads Workload.setId m.workload }

/-- The loop that numbers the kernels. -/
def setKernelIds : Measurement :=
  { m with kernel := number m.getKernels Kernel.setId m.kernel }

/-- The loop that numbers the measurer sets. -/
def setMeasurerSetIds : Measurement :=
  { m with measurerSet := number m.getMeasurerSets MeasurerSet.setId m.measurerSet }

/-- The loop that numbers the measurers. -/
def setMeasurerIds : Measurement :=
  { m with measurer := number m.getMeasurers Measurer.setId m.measurer }

/-- {lit}`setIds` -/
def setIds : Measurement :=
  m.setWorkloadIds.setKernelIds.setMeasurerSetIds.setMeasurerIds

end Measurement

/-! ## What does not depend on the ids -/

/-- The measurements refer to the same objects. -/
structure SameShape (m m' : Measurement) : Prop where
  workloads : m'.workloads = m.workloads
  configurators : m'.configurators = m.configurators
  rules : m'.rules = m.rules
  overallMeasurerSet : m'.overallMeasurerSet = m.overallMeasurerSet
  kernel : ∀ w, (m'.workload w).kernel = (m.workload w).kernel
  measurerSet : ∀ w, (m'.workload w).measurerSet = (m.workload w).measurerSet
  mainMeasurer : ∀ s, (m'.measurerSet s).mainMeasurer = (m.measurerSet s).mainMeasurer
  additionalMeasurers : ∀ s,
    (m'.measurerSet s).additionalMeasurers = (m.measurerSet s).additionalMeasurers
  validationMeasurers : ∀ s,
    (m'.measurerSet s).validationMeasurers = (m.measurerSet s).validationMeasurers

namespace SameShape

variable {m m' m'' : Measurement}

/-- The relation is transitive. -/
theorem trans (h : SameShape m m') (h' : SameShape m' m'') : SameShape m m'' where
  workloads := h'.workloads.trans h.workloads
  configurators := h'.configurators.trans h.configurators
  rules := h'.rules.trans h.rules
  overallMeasurerSet := h'.overallMeasurerSet.trans h.overallMeasurerSet
  kernel w := (h'.kernel w).trans (h.kernel w)
  measurerSet w := (h'.measurerSet w).trans (h.measurerSet w)
  mainMeasurer s := (h'.mainMeasurer s).trans (h.mainMeasurer s)
  additionalMeasurers s := (h'.additionalMeasurers s).trans (h.additionalMeasurers s)
  validationMeasurers s := (h'.validationMeasurers s).trans (h.validationMeasurers s)

/-- Measurer sets of the same shape are visited alike. -/
theorem addAllMeasurerSet (h : SameShape m m') :
    m'.addAllMeasurerSet = m.addAllMeasurerSet := by
  funext s
  simp only [Measurement.addAllMeasurerSet, h.mainMeasurer, h.additionalMeasurers,
    h.validationMeasurers]

/-- Workloads of the same shape are visited alike. -/
theorem addAllWorkload (h : SameShape m m') : m'.addAllWorkload = m.addAllWorkload := by
  funext w
  simp only [Measurement.addAllWorkload, h.kernel, h.measurerSet, h.addAllMeasurerSet]

/-- Event predicates are visited alike. -/
theorem addAllPredicate (h : SameShape m m') : m'.addAllPredicate = m.addAllPredicate := by
  funext predicate
  cases predicate with
  | measurementRun eventNr => rfl
  | thread eventNr workload => simp only [Measurement.addAllPredicate, h.addAllWorkload]
  | workload workload eventNr => simp only [Measurement.addAllPredicate, h.addAllWorkload]

/-- Actions are visited alike. -/
theorem addAllAction (h : SameShape m m') (action : Action) :
    m'.addAllAction action = m.addAllAction action := by
  induction action using Measurement.addAllAction.induct with
  | case1 => simp only [Measurement.addAllAction, h.addAllWorkload, h.addAllMeasurerSet,
      h.addAllPredicate]
  | case2 => simp only [Measurement.addAllAction, h.addAllWorkload, h.addAllMeasurerSet]
  | case3 => simp only [Measurement.addAllAction, h.addAllWorkload]
  | case4 => simp only [Measurement.addAllAction, h.addAllWorkload]
  | case5 => simp only [Measurement.addAllAction, h.addAllWorkload, h.addAllMeasurerSet]
  | case6 workload tid action measurerSet ih =>
      simp only [Measurement.addAllAction, h.addAllWorkload, h.addAllMeasurerSet, ih]
  | case7 => simp only [Measurement.addAllAction, h.addAllWorkload]
  | case8 => simp only [Measurement.addAllAction, h.addAllWorkload]

/-- Rules are visited alike. -/
theorem addAllRule (h : SameShape m m') : m'.addAllRule = m.addAllRule := by
  funext rule
  have haction : m'.addAllAction = m.addAllAction := funext h.addAllAction
  simp only [Measurement.addAllRule, h.addAllPredicate, haction]

/-- What is visited does not depend on the ids. -/
theorem getAll (h : SameShape m m') : m'.getAll = m.getAll := by
  simp only [Measurement.getAll, Measurement.addAll, h.workloads, h.configurators, h.rules,
    h.overallMeasurerSet, h.addAllWorkload, h.addAllRule, h.addAllMeasurerSet]

/-- The objects of a kind are the same. -/
theorem getAllOf (h : SameShape m m') (kind : Kind) : m'.getAllOf kind = m.getAllOf kind := by
  simp only [Measurement.getAllOf, h.getAll]

end SameShape

namespace Measurement

variable (m : Measurement)

/-- Numbering the workloads keeps the shape. -/
theorem sameShape_setWorkloadIds : SameShape m m.setWorkloadIds where
  workloads := rfl
  configurators := rfl
  rules := rfl
  overallMeasurerSet := rfl
  kernel := number_proj Workload.setId Workload.kernel (fun _ _ => rfl) m.workloads m.workload
  measurerSet :=
    number_proj Workload.setId Workload.measurerSet (fun _ _ => rfl) m.workloads m.workload
  mainMeasurer _ := rfl
  additionalMeasurers _ := rfl
  validationMeasurers _ := rfl

/-- Numbering the kernels keeps the shape. -/
theorem sameShape_setKernelIds : SameShape m m.setKernelIds where
  workloads := rfl
  configurators := rfl
  rules := rfl
  overallMeasurerSet := rfl
  kernel _ := rfl
  measurerSet _ := rfl
  mainMeasurer _ := rfl
  additionalMeasurers _ := rfl
  validationMeasurers _ := rfl

/-- Numbering the measurer sets keeps the shape. -/
theorem sameShape_setMeasurerSetIds : SameShape m m.setMeasurerSetIds where
  workloads := rfl
  configurators := rfl
  rules := rfl
  overallMeasurerSet := rfl
  kernel _ := rfl
  measurerSet _ := rfl
  mainMeasurer :=
    number_proj MeasurerSet.setId MeasurerSet.mainMeasurer (fun _ _ => rfl) m.getMeasurerSets
      m.measurerSet
  additionalMeasurers :=
    number_proj MeasurerSet.setId MeasurerSet.additionalMeasurers (fun _ _ => rfl) m.getMeasurerSets
      m.measurerSet
  validationMeasurers :=
    number_proj MeasurerSet.setId MeasurerSet.validationMeasurers (fun _ _ => rfl) m.getMeasurerSets
      m.measurerSet

/-- Numbering the measurers keeps the shape. -/
theorem sameShape_setMeasurerIds : SameShape m m.setMeasurerIds where
  workloads := rfl
  configurators := rfl
  rules := rfl
  overallMeasurerSet := rfl
  kernel _ := rfl
  measurerSet _ := rfl
  mainMeasurer _ := rfl
  additionalMeasurers _ := rfl
  validationMeasurers _ := rfl

/-- Setting all ids keeps the shape. -/
theorem sameShape_setIds : SameShape m m.setIds :=
  ((m.sameShape_setWorkloadIds.trans (sameShape_setKernelIds _)).trans
    (sameShape_setMeasurerSetIds _)).trans (sameShape_setMeasurerIds _)

/-- The four numberings in terms of the measurement they start from. -/
theorem setIds_eq : m.setIds =
    { m with
      workload := number m.workloads Workload.setId m.workload
      kernel := number m.getKernels Kernel.setId m.kernel
      measurerSet := number m.getMeasurerSets MeasurerSet.setId m.measurerSet
      measurer := number m.getMeasurers Measurer.setId m.measurer } := by
  have hkernels := m.sameShape_setWorkloadIds
  have hsets := hkernels.trans (sameShape_setKernelIds _)
  have hmeasurers := hsets.trans (sameShape_setMeasurerSetIds _)
  have hk : m.setWorkloadIds.getKernels = m.getKernels := hkernels.getAllOf _
  have hs : m.setWorkloadIds.setKernelIds.getMeasurerSets = m.getMeasurerSets := hsets.getAllOf _
  have hm : m.setWorkloadIds.setKernelIds.setMeasurerSetIds.getMeasurers = m.getMeasurers :=
    hmeasurers.getAllOf _
  rw [setIds, setMeasurerIds, hm, setMeasurerSetIds, hs, setKernelIds, hk]
  rfl

/-- The ids are set once and for all. -/
theorem setIds_setIds : m.setIds.setIds = m.setIds := by
  have hshape := m.sameShape_setIds
  rw [setIds_eq m.setIds, getKernels, getMeasurerSets, getMeasurers, hshape.getAllOf,
    hshape.getAllOf, hshape.getAllOf, hshape.workloads, setIds_eq]
  simp only [number_number Workload.setId (fun _ _ _ => rfl),
    number_number Kernel.setId (fun _ _ _ => rfl),
    number_number MeasurerSet.setId (fun _ _ _ => rfl),
    number_number Measurer.setId (fun _ _ _ => rfl), getKernels, getMeasurerSets, getMeasurers]

end Measurement

end Measurements
end Roofline
