import Roofline.Library.Threads

/-!
# One run of a measurement

The main thread of the child process initializes the rules, starts the workloads, each in a thread
of its own, and waits for them.  On the way events are dispatched: rules execute actions, in the
same thread or in that of a workload, and these may wait for another workload or stop its kernel.

Objects are known by their references.  A step is one call of a method that other threads may see,
and the barriers are taken as their own module describes them.

Actions that are restricted to a thread by its id, the action that creates measurers in other
threads and the pressure barrier of measurements are left out.
-/

namespace Roofline
namespace ChildProcess
namespace MeasurementRun

open Runs Threads

/-! ## Measurements -/

/-- {lit}`WorkloadEventEnum` -/
inductive WorkloadEventEnum
  | start
  | stop
  | kernelStart
  | kernelStop
deriving DecidableEq

/-- {lit}`MeasurementRunEventEnum` -/
inductive MeasurementRunEventEnum
  | start
  | stop
deriving DecidableEq

/-- {lit}`ThreadEventEnum` -/
inductive ThreadEventEnum
  | started
  | exiting
deriving DecidableEq

/-- The main thread, and the thread of each workload. -/
inductive Thread
  | main
  | workload (w : Nat)
deriving DecidableEq

/-- The events that are dispatched. -/
inductive Event
  | workloadEvent (workload : Nat) (event : WorkloadEventEnum)
  | measurementRunEvent (event : MeasurementRunEventEnum)
  | threadEvent (childThread : Thread) (event : ThreadEventEnum)
deriving DecidableEq

/-- The predicates of rules; a workload predicate without a workload is one for all. -/
inductive EventPredicate
  | workloadEventPredicate (workload : Option Nat) (eventNr : WorkloadEventEnum)
  | measurementRunEventPredicate (eventNr : MeasurementRunEventEnum)
  | threadEventPredicate (eventNr : ThreadEventEnum)
deriving DecidableEq

/-- {lit}`doesMatch` -/
def EventPredicate.doesMatch : EventPredicate → Event → Bool
  | workloadEventPredicate workload eventNr, .workloadEvent w event =>
      event = eventNr && (workload = none || workload = some w)
  | measurementRunEventPredicate eventNr, .measurementRunEvent event => event = eventNr
  | threadEventPredicate eventNr, .threadEvent _ event => event = eventNr
  | _, _ => false

/-- A measurer set; measurers are referred to by their ids. -/
structure MeasurerSet where
  id : Nat
  mainMeasurer : Option Nat
  additionalMeasurers : List Nat
  validationMeasurers : List Nat
deriving DecidableEq

/-- The fields the caches are prepared by, and whether the kernel runs until it is told to stop. -/
structure Kernel where
  warmCode : Bool
  warmData : Bool
  endless : Bool

/-- A workload: its kernel, by its id, and its measurer set. -/
structure Workload where
  kernel : Nat
  measurerSet : MeasurerSet

/-- The classes of actions, with the objects they refer to. -/
inductive ActionKind
  | waitForWorkload (waitForWorkload : Option Nat)
  | stopKernel (kernel : Nat)
  | flushKernelBuffers (kernel : Nat)
  | measureActionExecution (action : Nat) (measurerSet : MeasurerSet)
  | initializeMeasurerSet (measurerSet : MeasurerSet)
  | startMeasurerSet (measurerSet : MeasurerSet)
  | stopMeasurerSet (measurerSet : MeasurerSet)
  | readMeasurerSet (measurerSet : MeasurerSet)
  | disposeMeasurerSet (measurerSet : MeasurerSet)

/-- An action, and the workload in whose thread it is to be executed. -/
structure Action where
  kind : ActionKind
  workload : Option Nat

/-- A predicate, and the action that is executed when it matches. -/
structure Rule where
  predicate : EventPredicate
  action : Nat
deriving DecidableEq

/-- A measurement as the child process gets it. -/
structure Measurement where
  workloads : List Nat
  /-- Each workload has one thread. -/
  workloads_nodup : workloads.Nodup
  workload : Nat → Workload
  kernel : Nat → Kernel
  action : Nat → Action
  rules : List Rule
  overallMeasurerSet : Option MeasurerSet
  configurators : List Nat

/-! ## Operations -/

/-- The calls of measurers. -/
inductive MeasurerCall
  | initializeMeasurer
  | start
  | stop
  | read
  | dispose
deriving DecidableEq

/-- The calls of kernels. -/
inductive KernelCall
  | initializeKernel
  | warmCodeCache
  | warmDataCache
  | flushBuffers
  | run
  | dispose
deriving DecidableEq

/-- The configurators of the measurement that was read are told about the start of a run, those of
its clone about the end. -/
inductive ConfiguratorCall
  | beforeRun
  | afterRun
deriving DecidableEq

/-- The barriers an action creates when it is initialized, and those of synchronous executions. -/
inductive BarrierRef
  | action (a : Nat) (n : Nat)
  | helper (n : Nat)
deriving DecidableEq

/-- The operations of the threads, in the order of the calls in the source. -/
inductive Op
  /-- {lit}`pthread_create` -/
  | start (w : Nat)
  /-- {lit}`pthread_join` -/
  | join (w : Nat)
  | begin (w : Nat)
  | exit (w : Nat)
  | forwardActions (w : Nat)
  | configurator (c : Nat) (call : ConfiguratorCall)
  | measurer (m : Nat) (call : MeasurerCall)
  | kernel (k : Nat) (call : KernelCall)
  | clearCaches
  | initializeAction (a : Nat)
  | disposeAction (a : Nat)
  | dispatchEvent (event : Event)
  | handle (rule : Rule) (event : Event)
  | notifyListeners (event : Event)
  | handleEvent (a : Nat) (event : Event)
  | execute (a : Nat) (event : Event)
  | executeDirect (a : Nat) (event : Event)
  /-- The helper of a synchronous execution opens its barrier. -/
  | openBarrier (n : Nat)
  | waitIfClosed (b : BarrierRef)
  | actionProcessed
  | addMeasurerSetOutput (measurerSet : MeasurerSet)
deriving DecidableEq

/-- An action in a queue, with the barrier at which its execution is awaited. -/
structure QueuedAction where
  action : Nat
  event : Event
  helper : Nat

/-- What the threads share. -/
structure Shared where
  started : Nat → Bool
  exited : Nat → Bool
  /-- The workload has set its child thread. -/
  childThreadSet : Nat → Bool
  /-- The queues of the workloads and of the child threads. -/
  actionQueue : Nat → List QueuedAction
  threadQueue : Nat → List QueuedAction
  /-- The thread is processing an action of its queue. -/
  processing : Nat → Bool
  listeners : List Nat
  /-- How many barriers an action has created; the last one is the one it uses. -/
  created : Nat → Nat
  helpers : Nat
  opened : BarrierRef → Bool
  keepRunning : Nat → Bool
  /-- The outputs in {lit}`runOutput`. -/
  measurerSetOutputs : List MeasurerSet

/-- Before the threads of the workloads are started. -/
def initialShared : Shared where
  started _ := false
  exited _ := false
  childThreadSet _ := false
  actionQueue _ := []
  threadQueue _ := []
  processing _ := false
  listeners := []
  created _ := 0
  helpers := 0
  opened _ := false
  keepRunning _ := true
  measurerSetOutputs := []

/-! ## Programs -/

namespace MeasurerSet

variable (set : MeasurerSet)

/-- A call of the main measurer, if there is one. -/
def mainCall (call : MeasurerCall) : List Op :=
  set.mainMeasurer.toList.map fun m => .measurer m call

/-- {lit}`startValidationMeasurers` -/
def startValidationMeasurers : List Op :=
  set.validationMeasurers.map fun m => .measurer m .start

/-- {lit}`stopValidationMeasurers`, in the reverse order. -/
def stopValidationMeasurers : List Op :=
  set.validationMeasurers.reverse.map fun m => .measurer m .stop

/-- {lit}`startAdditionalMeasurers` -/
def startAdditionalMeasurers : List Op :=
  set.additionalMeasurers.map fun m => .measurer m .start

/-- {lit}`stopAdditionalMeasurers`, in the reverse order. -/
def stopAdditionalMeasurers : List Op :=
  set.additionalMeasurers.reverse.map fun m => .measurer m .stop

/-- {lit}`start`: the main measurer is the last to start. -/
def start : List Op :=
  set.startValidationMeasurers ++ set.startAdditionalMeasurers ++ set.mainCall .start

/-- {lit}`stop`: the main measurer is the first to stop. -/
def stop : List Op :=
  set.mainCall .stop ++ set.stopAdditionalMeasurers ++ set.stopValidationMeasurers

/-- {lit}`initialize` -/
def initializeMeasurers : List Op :=
  set.mainCall .initializeMeasurer ++
    (set.additionalMeasurers.map fun m => .measurer m .initializeMeasurer) ++
    set.validationMeasurers.map fun m => .measurer m .initializeMeasurer

/-- {lit}`dispose`, in the reverse order. -/
def dispose : List Op :=
  (set.validationMeasurers.reverse.map fun m => .measurer m .dispose) ++
    (set.additionalMeasurers.reverse.map fun m => .measurer m .dispose) ++ set.mainCall .dispose

/-- {lit}`Locator::addMeasurerSetOutput(set->getOutput())` -/
def addOutput : List Op :=
  set.mainCall .read ++ (set.additionalMeasurers.map fun m => .measurer m .read) ++
    (set.validationMeasurers.map fun m => .measurer m .read) ++ [.addMeasurerSetOutput set]

end MeasurerSet

section Programs

variable (measurement : Measurement)

/-- {lit}`warmOrClearCaches` -/
def warmOrClearCaches (w : Nat) : List Op :=
  let set := (measurement.workload w).measurerSet
  let k := (measurement.workload w).kernel
  let kernel := measurement.kernel k
  set.startAdditionalMeasurers ++ set.stopAdditionalMeasurers ++
    set.mainCall .start ++ set.mainCall .stop ++
    if kernel.warmCode then
      .kernel k .warmCodeCache :: if kernel.warmData then [] else [.kernel k .flushBuffers]
    else
      [.clearCaches, .kernel k (if kernel.warmData then .warmDataCache else .flushBuffers)]

/-- The thread of a workload: the notification of its start, {lit}`startInThread` and the
notification of its exit. -/
def startInThread (w : Nat) : List Op :=
  let set := (measurement.workload w).measurerSet
  let k := (measurement.workload w).kernel
  [.begin w, .dispatchEvent (.threadEvent (.workload w) .started), .forwardActions w,
    .kernel k .initializeKernel] ++ set.initializeMeasurers ++
    [.dispatchEvent (.workloadEvent w .start)] ++ set.startValidationMeasurers ++
    warmOrClearCaches measurement w ++
    [.dispatchEvent (.workloadEvent w .kernelStart)] ++ set.startAdditionalMeasurers ++
    set.mainCall .start ++ [.kernel k .run] ++ set.mainCall .stop ++
    set.stopAdditionalMeasurers ++ [.dispatchEvent (.workloadEvent w .kernelStop)] ++
    set.stopValidationMeasurers ++ [.dispatchEvent (.workloadEvent w .stop)] ++
    set.addOutput ++ [.kernel k .dispose] ++ set.dispose ++
    [.dispatchEvent (.threadEvent (.workload w) .exiting), .exit w]

/-- One round of the loop over the runs in {lit}`innerMain`. -/
def innerMain : List Op :=
  let overall := measurement.overallMeasurerSet.toList
  overall.flatMap MeasurerSet.initializeMeasurers ++
    (measurement.rules.map fun rule => .initializeAction rule.action) ++
    (measurement.configurators.map fun c => .configurator c .beforeRun) ++
    [.dispatchEvent (.measurementRunEvent .start)] ++ overall.flatMap MeasurerSet.start ++
    measurement.workloads.map .start ++ measurement.workloads.map .join ++
    overall.flatMap MeasurerSet.stop ++ [.dispatchEvent (.measurementRunEvent .stop)] ++
    (measurement.configurators.reverse.map fun c => .configurator c .afterRun) ++
    overall.flatMap MeasurerSet.addOutput

/-- What each thread does from its start on. -/
def program : Thread → List Op
  | .main => innerMain measurement
  | .workload w => if w ∈ measurement.workloads then startInThread measurement w else []

/-! ## Steps -/

/-- {lit}`executeImp` of an action. -/
def executeImp (s : Shared) (a : Nat) (event : Event) : List Op :=
  match (measurement.action a).kind with
  | .waitForWorkload _ => [.waitIfClosed (.action a (s.created a - 1))]
  | .stopKernel _ => []
  | .flushKernelBuffers k => [.kernel k .flushBuffers]
  | .measureActionExecution action set =>
      [.initializeAction action] ++ set.initializeMeasurers ++ set.start ++
        [.executeDirect action event] ++ set.stop ++ set.addOutput ++ set.dispose ++
        [.disposeAction action]
  | .initializeMeasurerSet set => set.initializeMeasurers
  | .startMeasurerSet set => set.start
  | .stopMeasurerSet set => set.stop
  | .readMeasurerSet set => set.addOutput
  | .disposeMeasurerSet set => set.dispose

/-- {lit}`ActionBase::startExecute` executes the action in the current thread. -/
def executesHere (s : Shared) (t : Thread) (a : Nat) : Bool :=
  match (measurement.action a).workload with
  | none => true
  | some w => s.childThreadSet w && t = .workload w

/-- What an operation comes down to. -/
def expand (t : Thread) : Op → Shared → List Op
  | .dispatchEvent event, _ =>
      (measurement.rules.map fun rule => .handle rule event) ++ [.notifyListeners event]
  | .handle rule event, _ =>
      if rule.predicate.doesMatch event then [.execute rule.action event] else []
  | .notifyListeners event, s => s.listeners.map fun a => .handleEvent a event
  | .execute a event, s =>
      let waiting := Op.waitIfClosed (.helper s.helpers)
      if executesHere measurement s t a then
        [.executeDirect a event, .openBarrier s.helpers, waiting]
      else [waiting]
  | .executeDirect a event, s => executeImp measurement s a event
  | _, _ => []

/-- An action is queued for the thread of the workload, or in the workload until it has one. -/
def queueAction (s : Shared) (w : Nat) (entry : QueuedAction) : Shared :=
  if s.childThreadSet w then
    { s with threadQueue := Function.update s.threadQueue w (s.threadQueue w ++ [entry]) }
  else
    { s with actionQueue := Function.update s.actionQueue w (s.actionQueue w ++ [entry]) }

/-- {lit}`ActionBase::execute` with the barrier of a new helper. -/
def executeAction (s : Shared) (t : Thread) (a : Nat) (event : Event) : Shared :=
  let s' := { s with helpers := s.helpers + 1 }
  match (measurement.action a).workload with
  | none => s'
  | some w => if executesHere measurement s t a then s' else queueAction s' w ⟨a, event, s.helpers⟩

/-- {lit}`WaitForWorkloadAction::handleEvent` -/
def handleEvent (s : Shared) (a : Nat) (event : Event) : Shared :=
  match (measurement.action a).kind with
  | .waitForWorkload workload =>
      if (EventPredicate.workloadEventPredicate workload .kernelStop).doesMatch event then
        { s with opened := Function.update s.opened (.action a (s.created a - 1)) true }
      else s
  | _ => s

/-- {lit}`initialize` of an action. -/
def initializeAction (s : Shared) (a : Nat) : Shared :=
  match (measurement.action a).kind with
  | .waitForWorkload _ => { s with
      created := Function.update s.created a (s.created a + 1)
      listeners := s.listeners ++ [a] }
  | _ => s

/-- What executing an action directly changes; one that waits has to have a barrier. -/
def executeDirect (s : Shared) (a : Nat) : Option Shared :=
  match (measurement.action a).kind with
  | .waitForWorkload _ => if s.created a = 0 then none else some s
  | .stopKernel k => some { s with keepRunning := Function.update s.keepRunning k false }
  | _ => some s

/-- What an operation changes, if it does not have to wait.  Waits may end although the barrier is
closed if {lit}`spurious`. -/
def perform (spurious : Bool) (t : Thread) : Op → Shared → Option Shared
  | .start w, s => some { s with started := Function.update s.started w true }
  | .join w, s => if s.exited w then some s else none
  | .begin w, s => if s.started w then some s else none
  | .exit w, s => some { s with exited := Function.update s.exited w true }
  | .forwardActions w, s => some { s with
      childThreadSet := Function.update s.childThreadSet w true
      actionQueue := Function.update s.actionQueue w []
      threadQueue := Function.update s.threadQueue w (s.threadQueue w ++ s.actionQueue w) }
  | .kernel k .run, s => if (measurement.kernel k).endless && s.keepRunning k then none else some s
  | .initializeAction a, s => some (initializeAction measurement s a)
  | .handleEvent a event, s => some (handleEvent measurement s a event)
  | .execute a event, s => some (executeAction measurement s t a event)
  | .executeDirect a _, s => executeDirect measurement s a
  | .openBarrier n, s => some { s with opened := Function.update s.opened (.helper n) true }
  | .waitIfClosed b, s => if s.opened b || spurious then some s else none
  | .actionProcessed, s =>
      match t with
      | .main => none
      | .workload w => some { s with processing := Function.update s.processing w false }
  | .addMeasurerSetOutput set, s => some { s with
      measurerSetOutputs := s.measurerSetOutputs ++ [set] }
  | _, s => some s

/-- The parent interrupts the thread to process an action of its queue. -/
def interrupt : Thread → Shared → Option (List Op × Shared)
  | .main, _ => none
  | .workload w, s =>
      match s.threadQueue w with
      | [] => none
      | entry :: queue =>
          if s.processing w || s.exited w then none
          else some ([.executeDirect entry.action entry.event, .openBarrier entry.helper,
            .actionProcessed], { s with
              threadQueue := Function.update s.threadQueue w queue
              processing := Function.update s.processing w true })

/-- The threads with the operations of the measurement, with or without spurious wake-ups. -/
def semantics (spurious : Bool) : Semantics Thread Op Shared where
  execute t op s := (perform measurement spurious t op s).map fun s' =>
    (expand measurement t op s, s')
  interrupt := interrupt

end Programs

/-- The state of all threads and of what they share. -/
abbrev State := Config Thread Op Shared

/-- The run of the measurement can get to this state. -/
def Reachable (measurement : Measurement) (spurious : Bool) (s : State) : Prop :=
  ∃ labels, Run (step (semantics measurement spurious))
    (Threads.start (program measurement) initialShared) labels s

/-- All threads have executed their programs. -/
def Finished (s : State) : Prop :=
  ∀ t, s.code t = []

end MeasurementRun
end ChildProcess
end Roofline
