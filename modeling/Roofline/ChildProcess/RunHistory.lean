import Roofline.ChildProcess.MeasurementRun

/-!
# The history of a run

What the operations of a measurement run come down to, and what the history tells about the state
the threads share.

Main results:

- Theorem {lit}`own_of_not_pushed`: operations that others do not come down to are executed in the
  order of the program.
- Theorem {lit}`mem_program`: what the programs of the threads are made of.
- Theorem {lit}`Reachable.recorded`: what the history tells about what the threads share.
- Theorem {lit}`Reachable.caused`: each operation that is to be executed has a cause.
-/

namespace Roofline
namespace ChildProcess
namespace MeasurementRun

open Runs Threads

/-! ## What actions come down to -/

section Pushed

variable (measurement : Measurement)

/-- The measurer sets an action uses when it is executed. -/
def ActionKind.measurerSets : ActionKind → List MeasurerSet
  | measureActionExecution _ set => [set]
  | initializeMeasurerSet set => [set]
  | startMeasurerSet set => [set]
  | stopMeasurerSet set => [set]
  | readMeasurerSet set => [set]
  | disposeMeasurerSet set => [set]
  | _ => []

/-- All measurers of a set. -/
def MeasurerSet.measurers (set : MeasurerSet) : List Nat :=
  set.mainMeasurer.toList ++ set.additionalMeasurers ++ set.validationMeasurers

/-- Some action uses the measurer set. -/
def Measurement.ActionsUse (set : MeasurerSet) : Prop :=
  ∃ a, set ∈ (measurement.action a).kind.measurerSets

/-- The operations that other ones come down to. -/
inductive Pushed : Op → Prop
  | measurer {set : MeasurerSet} {m : Nat} {call : MeasurerCall}
      (huse : measurement.ActionsUse set) (hm : m ∈ set.measurers) : Pushed (.measurer m call)
  | addMeasurerSetOutput {set : MeasurerSet} (huse : measurement.ActionsUse set) :
      Pushed (.addMeasurerSetOutput set)
  | flushBuffers {k : Nat} : Pushed (.kernel k .flushBuffers)
  | initializeAction {a b : Nat} {set : MeasurerSet}
      (hkind : (measurement.action a).kind = .measureActionExecution b set) :
      Pushed (.initializeAction b)
  | disposeAction {a : Nat} : Pushed (.disposeAction a)
  | handle {rule : Rule} {event : Event} : Pushed (.handle rule event)
  | notifyListeners {event : Event} : Pushed (.notifyListeners event)
  | handleEvent {a : Nat} {event : Event} : Pushed (.handleEvent a event)
  | execute {a : Nat} {event : Event} : Pushed (.execute a event)
  | executeDirect {a : Nat} {event : Event} : Pushed (.executeDirect a event)
  | openBarrier {n : Nat} : Pushed (.openBarrier n)
  | waitIfClosed {b : BarrierRef} : Pushed (.waitIfClosed b)
  | actionProcessed : Pushed .actionProcessed

variable {measurement}

/-- What holds of the calls of the measurers of a set holds of all that its methods do. -/
theorem MeasurerSet.forall_methods (set : MeasurerSet) {P : Op → Prop}
    (hmeasurer : ∀ m ∈ set.measurers, ∀ call, P (.measurer m call))
    (houtput : P (.addMeasurerSetOutput set)) :
    (∀ o ∈ set.initializeMeasurers, P o) ∧ (∀ o ∈ set.start, P o) ∧ (∀ o ∈ set.stop, P o) ∧
      (∀ o ∈ set.addOutput, P o) ∧ ∀ o ∈ set.dispose, P o := by
  simp only [measurers, List.forall_mem_append] at hmeasurer
  rcases hmeasurer with ⟨⟨hmain, hadditional⟩, hvalidation⟩
  have hcalls : ∀ {l : List Nat} (call : MeasurerCall), (∀ m ∈ l, ∀ call, P (.measurer m call)) →
      ∀ o ∈ l.map fun m => Op.measurer m call, P o := by
    intro l call hl o ho
    rcases List.mem_map.mp ho with ⟨m, hm, rfl⟩
    exact hl m hm call
  simp only [initializeMeasurers, start, stop, addOutput, dispose, mainCall,
    startValidationMeasurers, stopValidationMeasurers, startAdditionalMeasurers,
    stopAdditionalMeasurers, List.map_reverse, List.forall_mem_append, List.mem_reverse,
    List.forall_mem_singleton]
  exact ⟨⟨⟨hcalls _ hmain, hcalls _ hadditional⟩, hcalls _ hvalidation⟩,
    ⟨⟨hcalls _ hvalidation, hcalls _ hadditional⟩, hcalls _ hmain⟩,
    ⟨⟨hcalls _ hmain, hcalls _ hadditional⟩, hcalls _ hvalidation⟩,
    ⟨⟨⟨hcalls _ hmain, hcalls _ hadditional⟩, hcalls _ hvalidation⟩, houtput⟩,
    ⟨⟨hcalls _ hvalidation, hcalls _ hadditional⟩, hcalls _ hmain⟩⟩

/-- What holds of all that an action does. -/
theorem forall_executeImp {P : Op → Prop} {s : Shared} {a : Nat} {event : Event}
    (hmeasurer : ∀ set ∈ (measurement.action a).kind.measurerSets, ∀ m ∈ set.measurers,
      ∀ call, P (.measurer m call))
    (houtput : ∀ set ∈ (measurement.action a).kind.measurerSets, P (.addMeasurerSetOutput set))
    (hwait : ∀ workload, (measurement.action a).kind = .waitForWorkload workload →
      P (.waitIfClosed (.action a (s.created a - 1))))
    (hflush : ∀ k, P (.kernel k .flushBuffers))
    (hinner : ∀ b set, (measurement.action a).kind = .measureActionExecution b set →
      P (.initializeAction b) ∧ P (.executeDirect b event) ∧ P (.disposeAction b)) :
    ∀ o ∈ executeImp measurement s a event, P o := by
  have huse : ∀ {set : MeasurerSet}, set ∈ (measurement.action a).kind.measurerSets →
      (∀ o ∈ set.initializeMeasurers, P o) ∧ (∀ o ∈ set.start, P o) ∧ (∀ o ∈ set.stop, P o) ∧
        (∀ o ∈ set.addOutput, P o) ∧ ∀ o ∈ set.dispose, P o :=
    fun hset => MeasurerSet.forall_methods _ (hmeasurer _ hset) (houtput _ hset)
  unfold executeImp
  split <;> rename_i hkind <;> rw [hkind] at huse
  · exact List.forall_mem_singleton.mpr (hwait _ hkind)
  · simp
  · exact List.forall_mem_singleton.mpr (hflush _)
  · rcases huse List.mem_cons_self with ⟨hmeasurersInit, hstart, hstop, haddOutput, hdispose⟩
    rcases hinner _ _ hkind with ⟨hinit, hexecute, hfree⟩
    simp only [List.forall_mem_append, List.forall_mem_singleton]
    exact ⟨⟨⟨⟨⟨⟨⟨hinit, hmeasurersInit⟩, hstart⟩, hexecute⟩, hstop⟩, haddOutput⟩, hdispose⟩, hfree⟩
  · exact (huse List.mem_cons_self).1
  · exact (huse List.mem_cons_self).2.1
  · exact (huse List.mem_cons_self).2.2.1
  · exact (huse List.mem_cons_self).2.2.2.1
  · exact (huse List.mem_cons_self).2.2.2.2

/-- An action comes down to such operations. -/
theorem pushed_executeImp (s : Shared) (a : Nat) (event : Event) :
    ∀ o ∈ executeImp measurement s a event, Pushed measurement o :=
  forall_executeImp (fun _ hset _ hm _ => .measurer ⟨a, hset⟩ hm)
    (fun _ hset => .addMeasurerSetOutput ⟨a, hset⟩) (fun _ _ => .waitIfClosed)
    (fun _ => .flushBuffers)
    (fun _ _ hkind => ⟨.initializeAction hkind, .executeDirect, .disposeAction⟩)

/-- What operations come down to. -/
theorem pushed_expand (t : Thread) (op : Op) (s : Shared) :
    ∀ o ∈ expand measurement t op s, Pushed measurement o := by
  unfold expand
  split
  · simp [Pushed.handle, Pushed.notifyListeners, or_imp, forall_and]
  · split
    · exact List.forall_mem_singleton.mpr .execute
    · simp
  · simp [Pushed.handleEvent]
  · split
    · simp [Pushed.executeDirect, Pushed.openBarrier, Pushed.waitIfClosed]
    · exact List.forall_mem_singleton.mpr .waitIfClosed
  · exact pushed_executeImp _ _ _
  · simp

/-- What it takes for a thread to be interrupted, and what it does then. -/
theorem interrupt_cases {t : Thread} {s s' : Shared} {ops : List Op}
    (h : interrupt t s = some (ops, s')) :
    ∃ w entry queue, t = .workload w ∧ s.threadQueue w = entry :: queue ∧
      s.processing w = false ∧ s.exited w = false ∧
      ops = [.executeDirect entry.action entry.event, .openBarrier entry.helper,
        .actionProcessed] ∧
      s' = { s with
        threadQueue := Function.update s.threadQueue w queue
        processing := Function.update s.processing w true } := by
  cases t with
  | main => cases h
  | workload w =>
      simp only [interrupt] at h
      split at h
      · cases h
      · rename_i entry queue hqueue
        split at h
        · cases h
        · rename_i hidle
          simp only [Bool.or_eq_true, not_or, Bool.not_eq_true] at hidle
          cases h
          exact ⟨w, entry, queue, rfl, hqueue, hidle.1, hidle.2, rfl, rfl⟩

/-- So does the processing of a queue. -/
theorem pushed_interrupt {t : Thread} {s s' : Shared} {ops : List Op}
    (h : interrupt t s = some (ops, s')) : ∀ o ∈ ops, Pushed measurement o := by
  rcases interrupt_cases h with ⟨w, entry, queue, rfl, hqueue, _, _, rfl, rfl⟩
  simp [Pushed.executeDirect, Pushed.openBarrier, Pushed.actionProcessed]

/-- Operations that others do not come down to are executed by the programs only. -/
theorem own_of_not_pushed {own : Op → Bool} (hown : ∀ o, own o = true → ¬Pushed measurement o)
    (spurious : Bool) (t : Thread) : (semantics measurement spurious).Own t own where
  execute h o ho := by
    rcases Option.map_eq_some_iff.mp h with ⟨_, _, heq⟩
    cases heq
    exact Bool.eq_false_iff.mpr fun htrue => hown o htrue (pushed_expand _ _ _ o ho)
  interrupt h o ho :=
    Bool.eq_false_iff.mpr fun htrue => hown o htrue (pushed_interrupt h o ho)

end Pushed

/-! ## What the programs are made of -/

section Programs

variable (measurement : Measurement)

/-- The events that the thread of a workload dispatches. -/
def threadEvents (w : Nat) : List Event :=
  [.threadEvent (.workload w) .started, .workloadEvent w .start, .workloadEvent w .kernelStart,
    .workloadEvent w .kernelStop, .workloadEvent w .stop, .threadEvent (.workload w) .exiting]

/-- The operations in the code of the thread of a workload. -/
inductive ThreadOp (w : Nat) : Op → Prop
  | begin : ThreadOp w (.begin w)
  | dispatchEvent {event : Event} (hevent : event ∈ threadEvents w) :
      ThreadOp w (.dispatchEvent event)
  | forwardActions : ThreadOp w (.forwardActions w)
  | kernel {call : KernelCall} : ThreadOp w (.kernel (measurement.workload w).kernel call)
  | measurer {m : Nat} {call : MeasurerCall}
      (hm : m ∈ (measurement.workload w).measurerSet.measurers) : ThreadOp w (.measurer m call)
  | clearCaches : ThreadOp w .clearCaches
  | addMeasurerSetOutput : ThreadOp w (.addMeasurerSetOutput (measurement.workload w).measurerSet)
  | exit : ThreadOp w (.exit w)

/-- The operations in the code of the main thread. -/
inductive MainOp : Op → Prop
  | measurer {set : MeasurerSet} {m : Nat} {call : MeasurerCall}
      (hset : measurement.overallMeasurerSet = some set) (hm : m ∈ set.measurers) :
      MainOp (.measurer m call)
  | addMeasurerSetOutput {set : MeasurerSet} (hset : measurement.overallMeasurerSet = some set) :
      MainOp (.addMeasurerSetOutput set)
  | initializeAction {rule : Rule} (hrule : rule ∈ measurement.rules) :
      MainOp (.initializeAction rule.action)
  | configurator {c : Nat} {call : ConfiguratorCall} : MainOp (.configurator c call)
  | dispatchEvent {event : MeasurementRunEventEnum} :
      MainOp (.dispatchEvent (.measurementRunEvent event))
  | start {w : Nat} (hw : w ∈ measurement.workloads) : MainOp (.start w)
  | join {w : Nat} (hw : w ∈ measurement.workloads) : MainOp (.join w)

variable {measurement}

/-- The code of the thread of a workload consists of such operations. -/
theorem threadOp_startInThread (w : Nat) :
    ∀ op ∈ startInThread measurement w, ThreadOp measurement w op := by
  have hset := (measurement.workload w).measurerSet.forall_methods (P := ThreadOp measurement w)
    (fun _ hm _ => .measurer hm) .addMeasurerSetOutput
  rcases hset with ⟨hmeasurersInit, hstart, hstop, haddOutput, hdispose⟩
  simp only [MeasurerSet.start, MeasurerSet.stop, List.forall_mem_append] at hstart hstop
  have hwarm : ∀ o ∈ warmOrClearCaches measurement w, ThreadOp measurement w o := by
    simp only [warmOrClearCaches, List.forall_mem_append]
    refine ⟨⟨⟨⟨hstart.1.2, hstop.1.2⟩, hstart.2⟩, hstop.1.1⟩, ?_⟩
    split
    · split <;> simp [ThreadOp.kernel]
    · split <;> simp [ThreadOp.kernel, ThreadOp.clearCaches]
  simp only [startInThread, List.forall_mem_append, List.forall_mem_cons, eq_true hmeasurersInit,
    eq_true hwarm, eq_true haddOutput, eq_true hdispose, eq_true hstart.1.1, eq_true hstart.1.2,
    eq_true hstart.2, eq_true hstop.1.1, eq_true hstop.1.2, eq_true hstop.2, List.not_mem_nil,
    false_implies, implies_true, and_true]
  have hevents : ∀ event ∈ threadEvents w, ThreadOp measurement w (.dispatchEvent event) :=
    fun _ => .dispatchEvent
  simp only [threadEvents, List.forall_mem_cons] at hevents
  simp [ThreadOp.begin, ThreadOp.forwardActions, ThreadOp.kernel, ThreadOp.exit, hevents]

/-- The code of the main thread consists of such operations. -/
theorem mainOp_innerMain : ∀ op ∈ innerMain measurement, MainOp measurement op := by
  have hset : ∀ set, measurement.overallMeasurerSet = some set → _ := fun set hset =>
    set.forall_methods (P := MainOp measurement) (fun _ hm _ => .measurer hset hm)
      (.addMeasurerSetOutput hset)
  have hoverall : ∀ {method : MeasurerSet → List Op},
      (∀ set, measurement.overallMeasurerSet = some set → ∀ o ∈ method set, MainOp measurement o) →
        ∀ o ∈ measurement.overallMeasurerSet.toList.flatMap method, MainOp measurement o := by
    intro method h o ho
    rcases List.mem_flatMap.mp ho with ⟨set, hmem, ho⟩
    exact h set (Option.mem_toList.mp hmem) o ho
  have hmeasurersInit := hoverall fun set hsome => (hset set hsome).1
  have hstart := hoverall fun set hsome => (hset set hsome).2.1
  have hstop := hoverall fun set hsome => (hset set hsome).2.2.1
  have haddOutput := hoverall fun set hsome => (hset set hsome).2.2.2.1
  simp only [innerMain, List.forall_mem_append, List.forall_mem_map, List.forall_mem_singleton,
    eq_true hmeasurersInit, eq_true hstart, eq_true hstop, eq_true haddOutput, true_and, and_true]
  exact ⟨⟨⟨⟨⟨⟨fun _ => .initializeAction, fun _ _ => .configurator⟩, .dispatchEvent⟩,
    fun _ => .start⟩, fun _ => .join⟩, .dispatchEvent⟩, fun _ _ => .configurator⟩

/-- What the program of a thread is made of. -/
theorem mem_program {t : Thread} {op : Op} (hop : op ∈ program measurement t) :
    (t = .main ∧ MainOp measurement op) ∨
      ∃ w ∈ measurement.workloads, t = .workload w ∧ ThreadOp measurement w op := by
  cases t with
  | main => exact Or.inl ⟨rfl, mainOp_innerMain op hop⟩
  | workload w =>
      rw [program] at hop
      split at hop
      · rename_i hw
        exact Or.inr ⟨w, hw, rfl, threadOp_startInThread w op hop⟩
      · cases hop

end Programs

/-! ## What the history tells -/

section Recorded

variable (measurement : Measurement)

/-- The thread that dispatches an event. -/
def Event.dispatcher : Event → Thread
  | workloadEvent w _ => .workload w
  | measurementRunEvent _ => .main
  | threadEvent childThread _ => childThread

/-- The event has been dispatched. -/
def Dispatched (history : List (Thread × Op)) (event : Event) : Prop :=
  (event.dispatcher, .dispatchEvent event) ∈ history

/-- The actions that are executed for an event: those of the rules, and those that such an action
executes in turn. -/
inductive Triggers (event : Event) : Nat → Prop
  | rule {rule : Rule} (hrule : rule ∈ measurement.rules)
      (hmatch : rule.predicate.doesMatch event = true) : Triggers event rule.action
  | inner {a b : Nat} {set : MeasurerSet} (ha : Triggers event a)
      (hkind : (measurement.action a).kind = .measureActionExecution b set) : Triggers event b

/-- The action is executed for an event that has been dispatched. -/
def Triggered (history : List (Thread × Op)) (a : Nat) (event : Event) : Prop :=
  Triggers measurement event a ∧ Dispatched history event

/-- The measurer set whose output an operation adds, if it adds one. -/
def Op.output? : Op → Option MeasurerSet
  | addMeasurerSetOutput set => some set
  | _ => none

/-- The listener that an operation adds. -/
def Op.listener? : Op → Option Nat
  | initializeAction a =>
      match (measurement.action a).kind with
      | .waitForWorkload _ => some a
      | _ => none
  | _ => none

/-- The history is asked for these operations. -/
def Op.isRecorded : Op → Bool
  | start _ => true
  | exit _ => true
  | initializeAction _ => true
  | addMeasurerSetOutput _ => true
  | _ => false

/-- What the history tells about what the threads share. -/
structure Recorded (s : Shared) (history : List (Thread × Op)) : Prop where
  started : ∀ w, s.started w = true ↔ (.main, .start w) ∈ history
  exited : ∀ w, s.exited w = true ↔ (.workload w, .exit w) ∈ history
  outputs : s.measurerSetOutputs = history.filterMap fun entry => entry.2.output?
  listeners : s.listeners = history.filterMap fun entry => entry.2.listener? measurement
  created : ∀ a, s.created a = s.listeners.count a
  opened : ∀ a n w, (measurement.action a).kind = .waitForWorkload (some w) →
    s.opened (.action a n) = true → Dispatched history (.workloadEvent w .kernelStop)
  stopped : ∀ k, s.keepRunning k = false → ∃ a event,
    (measurement.action a).kind = .stopKernel k ∧ Triggered measurement history a event
  queued : ∀ w, ∀ entry ∈ s.actionQueue w ++ s.threadQueue w,
    Triggered measurement history entry.action entry.event

/-- The cause of the operations that a thread may have to execute. -/
def Caused (history : List (Thread × Op)) (t : Thread) : Op → Prop
  | .start _ => t = .main
  | .join w => t = .main ∧ w ∈ measurement.workloads
  | .begin w => t = .workload w
  | .exit w => t = .workload w
  | .kernel k .run =>
      ∃ w ∈ measurement.workloads, t = .workload w ∧ k = (measurement.workload w).kernel
  | .dispatchEvent event => t = event.dispatcher
  | .handle rule event => t = event.dispatcher ∧ rule ∈ measurement.rules ∧ Dispatched history event
  | .notifyListeners event => t = event.dispatcher ∧ Dispatched history event
  | .handleEvent _ event => t = event.dispatcher ∧ Dispatched history event
  | .execute a event => t = event.dispatcher ∧ Triggered measurement history a event
  | .executeDirect a event => Triggered measurement history a event
  | .actionProcessed => ∃ w, t = .workload w
  | _ => True

variable {measurement} {s : Shared} {history : List (Thread × Op)}

/-- What has been dispatched stays so. -/
theorem Dispatched.later {event : Event} (h : Dispatched history event)
    (entries : List (Thread × Op)) : Dispatched (history ++ entries) event :=
  List.mem_append_left _ h

/-- What has been triggered stays so. -/
theorem Triggered.later {a : Nat} {event : Event} (h : Triggered measurement history a event)
    (entries : List (Thread × Op)) : Triggered measurement (history ++ entries) a event :=
  ⟨h.1, h.2.later entries⟩

/-- A cause remains one. -/
theorem Caused.later {t : Thread} {op : Op} {entry : Thread × Op}
    (h : Caused measurement history t op) : Caused measurement (history ++ [entry]) t op := by
  cases op with
  | handle rule event => exact ⟨h.1, h.2.1, h.2.2.later _⟩
  | notifyListeners event => exact ⟨h.1, h.2.later _⟩
  | handleEvent a event => exact ⟨h.1, h.2.later _⟩
  | execute a event => exact ⟨h.1, h.2.later _⟩
  | executeDirect a event => exact Triggered.later h _
  | kernel k call => cases call <;> exact h
  | _ => exact h

/-- Before the first step there is nothing to be told. -/
theorem recorded_initial (measurement : Measurement) : Recorded measurement initialShared [] where
  started _ := by simp [initialShared]
  exited _ := by simp [initialShared]
  outputs := rfl
  listeners := rfl
  created _ := rfl
  opened _ _ _ _ h := absurd h Bool.false_ne_true
  stopped _ h := absurd (show true = false from h) (by decide)
  queued _ _ h := by simp [initialShared] at h

/-- Nothing changes that is recorded, the queues apart. -/
structure SameRecords (s s' : Shared) : Prop where
  started : s'.started = s.started
  exited : s'.exited = s.exited
  outputs : s'.measurerSetOutputs = s.measurerSetOutputs
  listeners : s'.listeners = s.listeners
  created : s'.created = s.created
  opened : s'.opened = s.opened
  keepRunning : s'.keepRunning = s.keepRunning

/-- Nothing changes if nothing is done. -/
theorem sameRecords_refl (s : Shared) : SameRecords s s :=
  ⟨rfl, rfl, rfl, rfl, rfl, rfl, rfl⟩

/-- When a value is in a map of flags after an update. -/
theorem update_eq_iff {α : Type} [DecidableEq α] {f : α → Bool} {a b : α} {v : Bool} :
    Function.update f a v b = v ↔ f b = v ∨ a = b := by
  by_cases hsame : b = a
  · simp [hsame]
  · rw [Function.update_of_ne hsame]
    exact (or_iff_left (Ne.symm hsame)).symm

/-- Where an element of a list comes from after an update. -/
theorem mem_of_mem_update {α : Type} {f : Nat → List α} {w v : Nat} {l : List α} {x : α}
    (h : x ∈ Function.update f w l v) : x ∈ l ∧ v = w ∨ x ∈ f v := by
  by_cases hsame : v = w
  · subst hsame
    rw [Function.update_self] at h
    exact Or.inl ⟨h, rfl⟩
  · rw [Function.update_of_ne hsame] at h
    exact Or.inr h

/-- An operation the history is not asked for adds no output and no listener. -/
theorem not_recorded_iff (measurement : Measurement) {op : Op} (hop : op.isRecorded = false) :
    op.output? = none ∧ op.listener? measurement = none := by
  cases op <;> first | exact ⟨rfl, rfl⟩ | cases hop

/-- What one more operation has to leave as the history then tells it. -/
theorem Recorded.extend {s' : Shared} {t : Thread} {op : Op} (h : Recorded measurement s history)
    (hstarted : ∀ w, s'.started w = true ↔ s.started w = true ∨ (t = .main ∧ op = .start w))
    (hexited : ∀ w, s'.exited w = true ↔ s.exited w = true ∨ (t = .workload w ∧ op = .exit w))
    (houtputs : s'.measurerSetOutputs = s.measurerSetOutputs ++ op.output?.toList)
    (hlisteners : s'.listeners = s.listeners ++ (op.listener? measurement).toList)
    (hcreated : ∀ a, s'.created a = s'.listeners.count a)
    (hopened : ∀ a n, s'.opened (.action a n) = s.opened (.action a n))
    (hkeepRunning : s'.keepRunning = s.keepRunning)
    (hqueued : ∀ w, ∀ entry ∈ s'.actionQueue w ++ s'.threadQueue w,
      Triggered measurement history entry.action entry.event) :
    Recorded measurement s' (history ++ [(t, op)]) where
  started w := by simp [hstarted, h.started, eq_comm]
  exited w := by simp [hexited, h.exited, eq_comm]
  outputs := by
    rw [houtputs, h.outputs, List.filterMap_append]
    cases houtput : op.output? <;> simp [houtput]
  listeners := by
    rw [hlisteners, h.listeners, List.filterMap_append]
    cases hlistener : op.listener? measurement <;> simp [hlistener]
  created := hcreated
  opened a n w hkind hw := (h.opened a n w hkind (hopened a n ▸ hw)).later _
  stopped k hk := by
    rcases h.stopped k (hkeepRunning ▸ hk) with ⟨a, event, hkind, htriggered⟩
    exact ⟨a, event, hkind, htriggered.later _⟩
  queued w entry hentry := (hqueued w entry hentry).later _

/-- What changes nothing that is recorded keeps the records, if what it queues was triggered. -/
theorem Recorded.frame {s' : Shared} {t : Thread} {op : Op} (h : Recorded measurement s history)
    (hsame : SameRecords s s') (hop : op.isRecorded = false)
    (hqueued : ∀ w, ∀ entry ∈ s'.actionQueue w ++ s'.threadQueue w,
      Triggered measurement history entry.action entry.event) :
    Recorded measurement s' (history ++ [(t, op)]) := by
  rcases not_recorded_iff measurement hop with ⟨houtput, hlistener⟩
  refine h.extend (fun w => ?_) (fun w => ?_) (by simp [hsame.outputs, houtput])
    (by simp [hsame.listeners, hlistener]) ?_ (fun a n => by rw [hsame.opened]) hsame.keepRunning
    hqueued
  · rw [hsame.started]
    refine (or_iff_left ?_).symm
    rintro ⟨_, rfl⟩
    cases hop
  · rw [hsame.exited]
    refine (or_iff_left ?_).symm
    rintro ⟨_, rfl⟩
    cases hop
  · rw [hsame.created, hsame.listeners]
    exact h.created

/-- The operation changes nothing. -/
theorem Recorded.same {t : Thread} {op : Op} (h : Recorded measurement s history)
    (hop : op.isRecorded = false) : Recorded measurement s (history ++ [(t, op)]) :=
  h.frame (sameRecords_refl s) hop h.queued

/-- The entries of the queues after one more action has been queued. -/
theorem mem_queueAction {w v : Nat} {entry new : QueuedAction}
    (h : entry ∈ (queueAction s w new).actionQueue v ++ (queueAction s w new).threadQueue v) :
    entry = new ∨ entry ∈ s.actionQueue v ++ s.threadQueue v := by
  have hupdate : ∀ {f : Nat → List QueuedAction},
      entry ∈ Function.update f w (f w ++ [new]) v → entry = new ∨ entry ∈ f v := by
    intro f hmem
    rcases mem_of_mem_update hmem with ⟨hmem, rfl⟩ | hmem
    · simpa [or_comm] using hmem
    · exact Or.inr hmem
  unfold queueAction at h
  split at h
  · rcases List.mem_append.mp h with h | h
    · exact Or.inr (List.mem_append_left _ h)
    · exact (hupdate h).imp_right (List.mem_append_right _)
  · rcases List.mem_append.mp h with h | h
    · exact (hupdate h).imp_right (List.mem_append_left _)
    · exact Or.inr (List.mem_append_right _ h)

/-- Queueing an action changes nothing that is recorded, the queues apart. -/
theorem sameRecords_queueAction (s : Shared) (w : Nat) (entry : QueuedAction) :
    SameRecords s (queueAction s w entry) := by
  unfold queueAction
  split <;> exact ⟨rfl, rfl, rfl, rfl, rfl, rfl, rfl⟩

/-- So does executing one. -/
theorem sameRecords_executeAction (s : Shared) (t : Thread) (a : Nat) (event : Event) :
    SameRecords s (executeAction measurement s t a event) := by
  unfold executeAction
  split
  · exact ⟨rfl, rfl, rfl, rfl, rfl, rfl, rfl⟩
  · rename_i w _
    split
    · exact ⟨rfl, rfl, rfl, rfl, rfl, rfl, rfl⟩
    · have hqueue := sameRecords_queueAction { s with helpers := s.helpers + 1 } w
        ⟨a, event, s.helpers⟩
      exact ⟨hqueue.started, hqueue.exited, hqueue.outputs, hqueue.listeners, hqueue.created,
        hqueue.opened, hqueue.keepRunning⟩

/-- What is queued after an action was executed is that action or was queued before. -/
theorem mem_executeAction {t : Thread} {a v : Nat} {event : Event} {entry : QueuedAction}
    (h : entry ∈ (executeAction measurement s t a event).actionQueue v ++
      (executeAction measurement s t a event).threadQueue v) :
    entry = ⟨a, event, s.helpers⟩ ∨ entry ∈ s.actionQueue v ++ s.threadQueue v := by
  unfold executeAction at h
  split at h
  · exact Or.inr h
  · split at h
    · exact Or.inr h
    · exact mem_queueAction (s := { s with helpers := s.helpers + 1 }) h

/-- Executing a triggered action keeps the records. -/
theorem Recorded.execute (h : Recorded measurement s history) {t : Thread} {a : Nat} {event : Event}
    (hcaused : Triggered measurement history a event) :
    Recorded measurement (executeAction measurement s t a event)
      (history ++ [(t, .execute a event)]) := by
  refine h.frame (sameRecords_executeAction s t a event) rfl fun w entry hentry => ?_
  rcases mem_executeAction hentry with rfl | hold
  · exact hcaused
  · exact h.queued w entry hold

/-- Forwarding the queue of a workload to its thread keeps the records. -/
theorem Recorded.forwardActions (h : Recorded measurement s history) {t : Thread} {w : Nat} :
    Recorded measurement { s with
      childThreadSet := Function.update s.childThreadSet w true
      actionQueue := Function.update s.actionQueue w []
      threadQueue := Function.update s.threadQueue w (s.threadQueue w ++ s.actionQueue w) }
      (history ++ [(t, .forwardActions w)]) := by
  refine h.frame ⟨rfl, rfl, rfl, rfl, rfl, rfl, rfl⟩ rfl fun v entry hentry => ?_
  rcases List.mem_append.mp hentry with hentry | hentry
  · rcases mem_of_mem_update hentry with ⟨hentry, _⟩ | hentry
    · cases hentry
    · exact h.queued v entry (List.mem_append_left _ hentry)
  · rcases mem_of_mem_update hentry with ⟨hentry, rfl⟩ | hentry
    · exact h.queued v entry (List.mem_append.mpr (List.mem_append.mp hentry).symm)
    · exact h.queued v entry (List.mem_append_right _ hentry)

/-- Initializing an action that waits adds it to the listeners. -/
theorem Recorded.initializeAction (h : Recorded measurement s history) {t : Thread} {a : Nat} :
    Recorded measurement (initializeAction measurement s a)
      (history ++ [(t, .initializeAction a)]) := by
  unfold MeasurementRun.initializeAction
  split
  · rename_i hkind
    refine h.extend (fun w => by simp) (fun w => by simp) (by simp [Op.output?])
      (by simp [Op.listener?, hkind]) (fun b => ?_) (fun b n => rfl) rfl h.queued
    by_cases hsame : b = a
    · simp [hsame, h.created]
    · simp [hsame, Ne.symm hsame, h.created]
  · rename_i hkind
    have hnone : (Op.initializeAction a).listener? measurement = none := by
      cases hcase : (measurement.action a).kind <;> simp [Op.listener?, hcase]
      exact hkind _ hcase
    exact h.extend (fun w => by simp) (fun w => by simp) (by simp [Op.output?])
      (by simp [hnone]) h.created (fun b n => rfl) rfl h.queued

/-- A listener does nothing or opens the barrier that was created last. -/
theorem handleEvent_eq (measurement : Measurement) (s : Shared) (a : Nat) (event : Event) :
    handleEvent measurement s a event = s ∨ ∃ workload,
      (measurement.action a).kind = .waitForWorkload workload ∧
      (EventPredicate.workloadEventPredicate workload .kernelStop).doesMatch event = true ∧
      handleEvent measurement s a event =
        { s with opened := Function.update s.opened (.action a (s.created a - 1)) true } := by
  unfold handleEvent
  split
  · rename_i workload hkind
    split
    · rename_i hmatch
      exact Or.inr ⟨workload, hkind, hmatch, rfl⟩
    · exact Or.inl rfl
  · exact Or.inl rfl

/-- The predicate for one event of one workload. -/
theorem doesMatch_workload_iff {w : Nat} {eventNr : WorkloadEventEnum} {event : Event} :
    (EventPredicate.workloadEventPredicate (some w) eventNr).doesMatch event = true ↔
      event = .workloadEvent w eventNr := by
  cases event with
  | workloadEvent v event =>
      simp only [EventPredicate.doesMatch, Bool.and_eq_true, decide_eq_true_eq, Bool.or_eq_true,
        Option.some.injEq, Event.workloadEvent.injEq, reduceCtorEq, false_or]
      exact ⟨fun h => ⟨h.2.symm, h.1⟩, fun h => ⟨h.2, h.1.symm⟩⟩
  | measurementRunEvent event => simp [EventPredicate.doesMatch]
  | threadEvent t event => simp [EventPredicate.doesMatch]

/-- A listener that is told of a dispatched event keeps the records. -/
theorem Recorded.handleEvent (h : Recorded measurement s history) {t : Thread} {a : Nat}
    {event : Event} (hcaused : Dispatched history event) :
    Recorded measurement (handleEvent measurement s a event)
      (history ++ [(t, .handleEvent a event)]) := by
  have hframe : Recorded measurement s (history ++ [(t, .handleEvent a event)]) := h.same rfl
  rcases handleEvent_eq measurement s a event with
    heq | ⟨workload, hkind, hmatch, heq⟩
  · rwa [heq]
  · rw [heq]
    refine { hframe with opened := ?_ }
    intro b n w hb hopened
    rcases update_eq_iff.mp hopened with hold | hsame
    · exact hframe.opened b n w hb hold
    · rcases BarrierRef.action.inj hsame with ⟨rfl, _⟩
      obtain rfl : workload = some w := ActionKind.waitForWorkload.inj (hkind.symm.trans hb)
      obtain rfl := doesMatch_workload_iff.mp hmatch
      exact hcaused.later _

/-- A triggered action that is executed in the thread keeps the records. -/
theorem Recorded.executeDirect (h : Recorded measurement s history) {t : Thread} {a : Nat}
    {event : Event} {s' : Shared} (hcaused : Triggered measurement history a event)
    (hexecute : executeDirect measurement s a = some s') :
    Recorded measurement s' (history ++ [(t, .executeDirect a event)]) := by
  have hframe : Recorded measurement s (history ++ [(t, .executeDirect a event)]) := h.same rfl
  unfold MeasurementRun.executeDirect at hexecute
  split at hexecute
  · split at hexecute
    · cases hexecute
    · cases hexecute
      exact hframe
  · rename_i k hkind
    cases hexecute
    refine { hframe with stopped := ?_ }
    intro j hj
    rcases update_eq_iff.mp hj with hold | rfl
    · exact hframe.stopped j hold
    · exact ⟨a, event, hkind, hcaused.later _⟩
  · cases hexecute
    exact hframe

/-- What one operation keeps. -/
theorem Recorded.perform (h : Recorded measurement s history) {spurious : Bool} {t : Thread}
    {op : Op} {s' : Shared} (hcaused : Caused measurement history t op)
    (hperform : perform measurement spurious t op s = some s') :
    Recorded measurement s' (history ++ [(t, op)]) := by
  cases op with
  | start w =>
      cases hperform
      obtain rfl : t = .main := hcaused
      exact h.extend (fun v => by simp [update_eq_iff])
        (fun v => by simp) (by simp [Op.output?]) (by simp [Op.listener?]) h.created
        (fun a n => rfl) rfl h.queued
  | exit w =>
      cases hperform
      obtain rfl : t = .workload w := hcaused
      exact h.extend (fun v => by simp)
        (fun v => by simp [update_eq_iff]) (by simp [Op.output?])
        (by simp [Op.listener?]) h.created (fun a n => rfl) rfl h.queued
  | openBarrier n =>
      cases hperform
      exact h.extend (fun w => by simp) (fun w => by simp) (by simp [Op.output?])
        (by simp [Op.listener?]) h.created (fun a k => by simp [Function.update]) rfl h.queued
  | addMeasurerSetOutput set =>
      cases hperform
      exact h.extend (fun w => by simp) (fun w => by simp) rfl (by simp [Op.listener?]) h.created
        (fun a n => rfl) rfl h.queued
  | forwardActions w =>
      cases hperform
      exact h.forwardActions
  | initializeAction a =>
      cases hperform
      exact h.initializeAction
  | handleEvent a event =>
      cases hperform
      exact h.handleEvent hcaused.2
  | execute a event =>
      cases hperform
      exact h.execute hcaused.2
  | executeDirect a event => exact h.executeDirect hcaused hperform
  | kernel k call =>
      have hsame : s' = s := by
        cases call <;> simp [MeasurementRun.perform] at hperform
        all_goals simp [hperform]
      rw [hsame]
      exact h.same rfl
  | actionProcessed =>
      cases t with
      | main => cases hperform
      | workload w =>
          cases hperform
          exact h.frame ⟨rfl, rfl, rfl, rfl, rfl, rfl, rfl⟩ rfl h.queued
  | _ =>
      have hsame : s' = s := by
        simp [MeasurementRun.perform] at hperform
        simp [hperform]
      rw [hsame]
      exact h.same rfl

/-- What a triggered action comes down to has a cause. -/
theorem caused_executeImp {a : Nat} {event : Event} {t : Thread}
    (h : Triggered measurement history a event) :
    ∀ o ∈ executeImp measurement s a event, Caused measurement history t o :=
  forall_executeImp (fun _ _ _ _ _ => trivial) (fun _ _ => trivial) (fun _ _ => trivial)
    (fun _ => trivial)
    (fun _ _ hkind => ⟨trivial, ⟨.inner h.1 hkind, h.2⟩, trivial⟩)

/-- What an operation with a cause comes down to has a cause. -/
theorem caused_expand {t : Thread} {op : Op} (h : Caused measurement history t op) :
    ∀ o ∈ expand measurement t op s, Caused measurement (history ++ [(t, op)]) t o := by
  unfold expand
  split
  case h_1 event =>
    have hdispatched : Dispatched (history ++ [(t, .dispatchEvent event)]) event := by
      obtain rfl : t = event.dispatcher := h
      exact List.mem_append_right _ List.mem_cons_self
    simp only [List.forall_mem_append, List.forall_mem_singleton, List.forall_mem_map]
    exact ⟨fun rule hrule => ⟨h, hrule, hdispatched⟩, h, hdispatched⟩
  case h_2 rule event =>
    split
    · rename_i hmatch
      exact List.forall_mem_singleton.mpr ⟨h.1, .rule h.2.1 hmatch, h.2.2.later _⟩
    · simp
  case h_3 event =>
    simp only [List.forall_mem_map]
    exact fun _ _ => ⟨h.1, h.2.later _⟩
  case h_4 a event =>
    have htriggered := h.2.later [(t, .execute a event)]
    split <;> simp [Caused, htriggered]
  case h_5 => exact caused_executeImp (Triggered.later h _)
  case h_6 => simp

/-- Processing a queue keeps the records, and what it comes down to has a cause. -/
theorem recorded_interrupt (h : Recorded measurement s history) {t : Thread} {s' : Shared}
    {ops : List Op} (hinterrupt : interrupt t s = some (ops, s')) :
    Recorded measurement s' history ∧ ∀ o ∈ ops, Caused measurement history t o := by
  rcases interrupt_cases hinterrupt with ⟨w, entry, queue, rfl, hqueue, _, _, rfl, rfl⟩
  have hentry : Triggered measurement history entry.action entry.event :=
    h.queued w entry (by simp [hqueue])
  refine ⟨{ h with queued := ?_ }, by simp [Caused, hentry]⟩
  intro v e he
  rcases List.mem_append.mp he with hold | hmem
  · exact h.queued v e (List.mem_append_left _ hold)
  · rcases mem_of_mem_update hmem with ⟨hrest, rfl⟩ | hold
    · exact h.queued v e (by simp [hqueue, hrest])
    · exact h.queued v e (List.mem_append_right _ hold)

/-- The operations of the threads always have a cause. -/
theorem permits_caused (measurement : Measurement) (spurious : Bool) :
    (semantics measurement spurious).Permits (fun s => Recorded measurement s.shared s.history)
      (fun s => Caused measurement s.history) where
  later _ hstep h := by
    cases hstep with
    | execute _ _ => exact h.later
    | interrupt _ => exact h
  execute hrecorded _ hcaused h := by
    rcases Option.map_eq_some_iff.mp h with ⟨_, hperform, heq⟩
    cases heq
    exact ⟨hrecorded.perform hcaused hperform, caused_expand hcaused⟩
  interrupt hrecorded h := recorded_interrupt hrecorded h

/-- The code of a thread has a cause from the start. -/
theorem caused_program (measurement : Measurement) (t : Thread) :
    ∀ op ∈ program measurement t, Caused measurement [] t op := by
  intro op hop
  rcases mem_program hop with ⟨rfl, hmain⟩ | ⟨w, hw, rfl, hthread⟩
  · cases hmain with
    | join hw => exact ⟨rfl, hw⟩
    | _ => trivial
  · cases hthread with
    | dispatchEvent hevent =>
        simp only [threadEvents, List.mem_cons, List.not_mem_nil, or_false] at hevent
        rcases hevent with rfl | rfl | rfl | rfl | rfl | rfl <;> rfl
    | @kernel call =>
        cases call with
        | run => exact ⟨w, hw, rfl, rfl⟩
        | _ => trivial
    | _ => trivial

/-- In every reachable state the records are right and all operations have a cause. -/
theorem Reachable.recorded_and_caused {spurious : Bool} {s : State}
    (h : Reachable measurement spurious s) : Recorded measurement s.shared s.history ∧
      ∀ t, ∀ op ∈ s.code t, Caused measurement s.history t op := by
  rcases h with ⟨labels, hrun⟩
  exact Run.permitted (permits_caused measurement spurious) (recorded_initial measurement)
    (caused_program measurement) hrun

/-- What the history tells in all states a run can get to. -/
theorem Reachable.recorded {spurious : Bool} {s : State}
    (h : Reachable measurement spurious s) : Recorded measurement s.shared s.history :=
  h.recorded_and_caused.1

/-- Each operation that is still to be executed has a cause. -/
theorem Reachable.caused {spurious : Bool} {s : State} (h : Reachable measurement spurious s)
    {t : Thread} {op : Op} (hop : op ∈ s.code t) : Caused measurement s.history t op :=
  h.recorded_and_caused.2 t op hop

/-- A step leads from a reachable state to a reachable state. -/
theorem Reachable.step {spurious : Bool} {s s' : State} {label : Label Thread}
    (h : Reachable measurement spurious s)
    (hstep : Threads.step (semantics measurement spurious) s label = .ok s') :
    Reachable measurement spurious s' := by
  rcases h with ⟨labels, hrun⟩
  exact ⟨_, .next hrun hstep⟩

/-- The state that the steps of the labels lead to. -/
theorem exists_reachable (measurement : Measurement) (spurious : Bool)
    (labels : List (Label Thread)) (p : State → Bool)
    (h : (exec (Threads.step (semantics measurement spurious))
      (Threads.start (program measurement) initialShared) labels).toOption.any p = true) :
    ∃ s, Reachable measurement spurious s ∧ p s = true := by
  cases hexec : exec (Threads.step (semantics measurement spurious))
      (Threads.start (program measurement) initialShared) labels with
  | error e =>
      rw [hexec] at h
      cases h
  | ok s =>
      rw [hexec] at h
      exact ⟨s, ⟨labels, run_iff_exec.mpr hexec⟩, h⟩

end Recorded

end MeasurementRun
end ChildProcess
end Roofline
