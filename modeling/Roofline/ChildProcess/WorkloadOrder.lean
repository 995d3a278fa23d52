import Roofline.ChildProcess.RunHistory

/-!
# The order of events in a run

What the measurement is told about itself.  Each workload runs its kernel between the events of its
own start and end, which are between those of the run, whatever the rules and the other threads do
in between.  A workload that is to wait for another one does not run its kernel before the other
one has run its own.

Main results:

- Theorem {lit}`events_ordered`: the order of the events of a workload and of the run.
- Theorem {lit}`run_after_waitForWorkload`: waiting for a workload.
-/

namespace Roofline
namespace ChildProcess
namespace MeasurementRun

open Runs Threads

variable {measurement : Measurement} {spurious : Bool} {s : State}

/-! ## Milestones -/

/-- Operations that only the programs themselves have, and that tell how far they are. -/
def Op.isMilestone : Op → Bool
  | start _ => true
  | join _ => true
  | begin _ => true
  | exit _ => true
  | dispatchEvent _ => true
  | kernel _ .run => true
  | _ => false

section Milestones

variable (measurement : Measurement)

/-- The milestones of the thread of a workload, in order. -/
def threadMilestones (w : Nat) : List Op :=
  [.begin w, .dispatchEvent (.threadEvent (.workload w) .started),
    .dispatchEvent (.workloadEvent w .start), .dispatchEvent (.workloadEvent w .kernelStart),
    .kernel (measurement.workload w).kernel .run, .dispatchEvent (.workloadEvent w .kernelStop),
    .dispatchEvent (.workloadEvent w .stop),
    .dispatchEvent (.threadEvent (.workload w) .exiting), .exit w]

/-- The milestones of the main thread, in order. -/
def mainMilestones : List Op :=
  [.dispatchEvent (.measurementRunEvent .start)] ++ measurement.workloads.map .start ++
    measurement.workloads.map .join ++ [.dispatchEvent (.measurementRunEvent .stop)]

/-- Milestones are executed by the code of a thread only. -/
theorem isMilestone_own (spurious : Bool) (t : Thread) :
    (semantics measurement spurious).Own t Op.isMilestone := by
  refine own_of_not_pushed ?_ spurious t
  intro o ho hpushed
  cases hpushed <;> cases ho

end Milestones

/-- Calls of measurers are no milestones. -/
theorem filter_measurer (l : List Nat) (call : MeasurerCall) :
    (l.map fun m => Op.measurer m call).filter Op.isMilestone = [] := by
  simp [List.filter_map, Function.comp_def, Op.isMilestone]

/-- Warming the caches has no milestone. -/
theorem filter_warmOrClearCaches (w : Nat) :
    (warmOrClearCaches measurement w).filter Op.isMilestone = [] := by
  simp only [warmOrClearCaches, MeasurerSet.startAdditionalMeasurers,
    MeasurerSet.stopAdditionalMeasurers, MeasurerSet.mainCall, List.filter_append, filter_measurer,
    List.nil_append]
  split
  · split <;> simp [Op.isMilestone]
  · split <;> simp [Op.isMilestone]

/-- The milestones in the code of the thread of a workload. -/
theorem filter_startInThread (w : Nat) :
    (startInThread measurement w).filter Op.isMilestone = threadMilestones measurement w := by
  simp only [startInThread, MeasurerSet.initializeMeasurers, MeasurerSet.startValidationMeasurers,
    MeasurerSet.stopValidationMeasurers, MeasurerSet.startAdditionalMeasurers,
    MeasurerSet.stopAdditionalMeasurers, MeasurerSet.mainCall, MeasurerSet.addOutput,
    MeasurerSet.dispose, List.filter_append, filter_measurer, filter_warmOrClearCaches]
  simp [List.filter_cons, Op.isMilestone, threadMilestones]

/-- The milestones in the code of the main thread. -/
theorem filter_innerMain :
    (innerMain measurement).filter Op.isMilestone = mainMilestones measurement := by
  have hoverall : ∀ {method : MeasurerSet → List Op},
      (∀ set, (method set).filter Op.isMilestone = []) →
        (measurement.overallMeasurerSet.toList.flatMap method).filter Op.isMilestone = [] := by
    intro method h
    cases measurement.overallMeasurerSet <;> simp [h]
  have hmeasurersInit : ∀ set : MeasurerSet, set.initializeMeasurers.filter Op.isMilestone = [] :=
    fun set => by simp only [MeasurerSet.initializeMeasurers, MeasurerSet.mainCall,
      List.filter_append, filter_measurer, List.nil_append]
  have hstart : ∀ set : MeasurerSet, set.start.filter Op.isMilestone = [] :=
    fun set => by simp only [MeasurerSet.start, MeasurerSet.startValidationMeasurers,
      MeasurerSet.startAdditionalMeasurers, MeasurerSet.mainCall,
      List.filter_append, filter_measurer, List.nil_append]
  have hstop : ∀ set : MeasurerSet, set.stop.filter Op.isMilestone = [] :=
    fun set => by simp only [MeasurerSet.stop, MeasurerSet.stopValidationMeasurers,
      MeasurerSet.stopAdditionalMeasurers, MeasurerSet.mainCall,
      List.filter_append, filter_measurer, List.nil_append]
  have haddOutput : ∀ set : MeasurerSet, set.addOutput.filter Op.isMilestone = [] :=
    fun set => by simp [MeasurerSet.addOutput, MeasurerSet.mainCall, filter_measurer,
      Op.isMilestone]
  simp only [innerMain, List.filter_append, hoverall hmeasurersInit, hoverall hstart, hoverall hstop,
    hoverall haddOutput]
  simp [List.filter_map, Function.comp_def, List.filter_cons, Op.isMilestone, mainMilestones]

/-! ## The order of the events -/

/-- The thread of a workload has nine milestones. -/
@[simp] theorem length_threadMilestones (measurement : Measurement) (w : Nat) :
    (threadMilestones measurement w).length = 9 :=
  rfl

/-- No milestone comes twice. -/
theorem threadMilestones_nodup (measurement : Measurement) (w : Nat) :
    (threadMilestones measurement w).Nodup := by
  simp [threadMilestones]

/-- The milestones of a workload that is a member of the measurement. -/
theorem filter_program {w : Nat} (hw : w ∈ measurement.workloads) :
    (program measurement (.workload w)).filter Op.isMilestone = threadMilestones measurement w := by
  rw [program, if_pos hw, filter_startInThread]

/-- The thread of a workload executes its milestones in their order. -/
theorem Reachable.thread_order (h : Reachable measurement spurious s) {w : Nat}
    (hw : w ∈ measurement.workloads) :
    ((threadMilestones measurement w).map fun op => (Thread.workload w, op)).Pairwise
      (HappensBefore s.history) := by
  rcases h with ⟨labels, hrun⟩
  rw [List.pairwise_map]
  refine (pairwise_happensBefore (threadMilestones_nodup measurement w)).imp_of_mem ?_
  intro x y _ hy hxy
  rw [← filter_program hw] at hxy hy
  exact Run.programOrder (isMilestone_own measurement _ _) (List.mem_filter.mp hy).2 hxy hrun

/-- What is ordered in the milestones of the main thread. -/
theorem Reachable.main_order (h : Reachable measurement spurious s) {x y : Op}
    (hy : y.isMilestone = true) (hxy : HappensBefore (mainMilestones measurement) x y) :
    HappensBefore s.history (.main, x) (.main, y) := by
  rcases h with ⟨labels, hrun⟩
  refine Run.programOrder (isMilestone_own measurement _ _) hy ?_ hrun
  rwa [program, filter_innerMain]

/-- A thread begins after it has been started. -/
theorem Reachable.start_before_begin (h : Reachable measurement spurious s) (w : Nat) :
    HappensBefore s.history (.main, .start w) (.workload w, .begin w) := by
  rcases h with ⟨labels, hrun⟩
  refine Run.happensBefore ?_ hrun
  intro labels s rest result hrun _ heffect
  rcases Option.map_eq_some_iff.mp heffect with ⟨shared, hperform, _⟩
  have hstarted : s.shared.started w = true := by
    by_contra hnot
    simp [perform, hnot] at hperform
  exact ((Reachable.recorded ⟨_, hrun⟩).started w).mp hstarted

/-- A thread is joined after it has exited. -/
theorem Reachable.exit_before_join (h : Reachable measurement spurious s) (w : Nat) :
    HappensBefore s.history (.workload w, .exit w) (.main, .join w) := by
  rcases h with ⟨labels, hrun⟩
  refine Run.happensBefore ?_ hrun
  intro labels s rest result hrun _ heffect
  rcases Option.map_eq_some_iff.mp heffect with ⟨shared, hperform, _⟩
  have hexited : s.shared.exited w = true := by
    by_contra hnot
    simp [perform, hnot] at hperform
  exact ((Reachable.recorded ⟨_, hrun⟩).exited w).mp hexited

/-- The milestones of a workload and those of the run around them. -/
def milestones (measurement : Measurement) (w : Nat) : List (Thread × Op) :=
  [(.main, .dispatchEvent (.measurementRunEvent .start)), (.main, .start w)] ++
    ((threadMilestones measurement w).map fun op => (.workload w, op)) ++
    [(.main, .join w), (.main, .dispatchEvent (.measurementRunEvent .stop))]

/-- In every run the events of a workload, the run of its kernel and the events of the measurement
run come in this order. -/
theorem events_ordered (h : Reachable measurement spurious s) {w : Nat}
    (hw : w ∈ measurement.workloads) :
    (milestones measurement w).Pairwise (HappensBefore s.history) := by
  have hstart : HappensBefore s.history (.main, .dispatchEvent (.measurementRunEvent .start))
      (.main, .start w) := by
    refine h.main_order rfl ?_
    simp only [mainMilestones, List.append_assoc]
    exact happensBefore_append (by simp) (by simp)
  have hstop : HappensBefore s.history (.main, .join w)
      (.main, .dispatchEvent (.measurementRunEvent .stop)) := by
    refine h.main_order rfl ?_
    exact happensBefore_append (by simp [hw]) (by simp)
  have hchain := (h.thread_order hw).isChain
  refine List.isChain_iff_pairwise.mp ?_
  simp only [milestones, threadMilestones, List.map_cons, List.map_nil, List.cons_append,
    List.nil_append, List.isChain_cons_cons] at hchain ⊢
  simp [hchain, hstart, hstop, h.start_before_begin w, h.exit_before_join w]

/-- The second of two workloads waits for the first one, whose end stops the second kernel. -/
def twoWorkloads : Measurement where
  workloads := [0, 1]
  workloads_nodup := by decide
  workload w := {
    kernel := w
    measurerSet := ⟨w, some (3 * w), [3 * w + 1], [3 * w + 2]⟩ }
  kernel k := { warmCode := false, warmData := k = 1, endless := k = 1 }
  action a := {
    kind := if a = 0 then .waitForWorkload (some 0) else .stopKernel 1
    workload := none }
  rules := [⟨.workloadEventPredicate (some 1) .kernelStart, 0⟩,
    ⟨.workloadEventPredicate (some 0) .kernelStop, 1⟩]
  overallMeasurerSet := some ⟨2, some 6, [7], []⟩
  configurators := [0]

/-- The steps of a run from the start to the end. -/
def twoWorkloadsLabels : List (Label Thread) :=
  List.replicate 14 (.execute .main) ++ List.replicate 62 (.execute (.workload 0)) ++
    List.replicate 63 (.execute (.workload 1)) ++ List.replicate 13 (.execute .main)

/-- A run of the example to its end, with the milestones in order. -/
theorem twoWorkloads_events : ∃ s, Reachable twoWorkloads false s ∧
    s.history.contains (.main, .dispatchEvent (.measurementRunEvent .stop)) = true ∧
      (milestones twoWorkloads 1).Pairwise (HappensBefore s.history) := by
  rcases exists_reachable twoWorkloads false twoWorkloadsLabels (fun s =>
    s.history.contains (.main, .dispatchEvent (.measurementRunEvent .stop)))
    (by decide +kernel) with ⟨s, hs, hstop⟩
  exact ⟨s, hs, hstop, events_ordered hs (by decide)⟩

/-! ## What an event leads to -/

section Leads

variable {w : Nat} {event : Event} {chain : Op → Prop} {fact : State → Prop}

/-- The milestones that the thread of a workload gets to after it has dispatched an event. -/
def IsAfter (measurement : Measurement) (w : Nat) (event : Event) (op : Op) : Prop :=
  op.isMilestone = true ∧ HappensBefore (threadMilestones measurement w) (.dispatchEvent event) op

/-- The dispatch of an event comes down to operations that in turn do so, until a fact holds, which
then stays. -/
structure Leads (measurement : Measurement) (spurious : Bool) (t : Thread) (event : Event)
    (chain : Op → Prop) (fact : State → Prop) : Prop where
  first : chain (.dispatchEvent event)
  next : ∀ {s op rest ops shared'}, Reachable measurement spurious s → s.code t = op :: rest →
    chain op → (semantics measurement spurious).execute t op s.shared = some (ops, shared') →
      (∃ o ∈ ops, chain o) ∨ fact (s.afterExecute t op ops rest shared')
  later : ∀ {s label s'}, Reachable measurement spurious s →
    Steps (semantics measurement spurious) s label s' → fact s → fact s'

/-- What the dispatch of an event leads to protects the milestones after it. -/
theorem Leads.protects (h : Leads measurement spurious (.workload w) event chain fact) :
    (semantics measurement spurious).Protects (.workload w) (Reachable measurement spurious)
      (fun guard op => chain guard ∧ IsAfter measurement w event op)
      (fun s op => IsAfter measurement w event op → fact s) where
  later hs hstep op hreleased hafter := h.later hs hstep (hreleased hafter)
  execute hs hcode heffect := by
    refine ⟨guarded_of_forall fun o ho hafter => ?_, ?_⟩
    · have hnot := (isMilestone_own measurement spurious _).execute heffect o ho
      simp [hafter.1] at hnot
    · rintro o ⟨hchain, hafter⟩
      rcases h.next hs hcode hchain heffect with ⟨guard, hguard, hnext⟩ | hfact
      · exact Or.inr ⟨guard, hguard, hnext, hafter⟩
      · exact Or.inl fun _ => hfact
  interrupt _ heffect := by
    refine guarded_of_forall fun o ho hafter => ?_
    have hnot := (isMilestone_own measurement spurious _).interrupt heffect o ho
    simp [hafter.1] at hnot

/-- The code of the thread has these milestones behind the dispatch. -/
theorem Leads.program (h : Leads measurement spurious (.workload w) event chain fact) :
    Guarded (fun guard op => chain guard ∧ IsAfter measurement w event op)
      (fun op => IsAfter measurement w event op →
        fact (Threads.start (program measurement) initialShared))
      (program measurement (.workload w)) := by
  intro before op after hsplit
  by_cases hafter : IsAfter measurement w event op
  · have hw : w ∈ measurement.workloads := by
      by_contra hnot
      simp [MeasurementRun.program, hnot] at hsplit
    have horder := hafter.2
    rw [← filter_program hw] at horder
    exact Or.inr ⟨_, horder.of_filter hafter.1 before after hsplit, h.first, hafter⟩
  · exact Or.inl fun hnot => absurd hnot hafter

/-- The fact holds as soon as the next milestone can be executed. -/
theorem Leads.of_code (h : Leads measurement spurious (.workload w) event chain fact)
    (hs : Reachable measurement spurious s) {op : Op} (hafter : IsAfter measurement w event op)
    {rest : List Op} (hcode : s.code (.workload w) = op :: rest) : fact s := by
  rcases hs with ⟨labels, hrun⟩
  have hguarded := Run.guarded h.protects (fun labels s hrun => ⟨labels, hrun⟩) h.program hrun
  rw [hcode] at hguarded
  exact hguarded.head hafter

/-- Once a milestone after the event is in the history, the fact holds. -/
theorem Leads.of_mem (h : Leads measurement spurious (.workload w) event chain fact)
    (hs : Reachable measurement spurious s) {op : Op} (hafter : IsAfter measurement w event op)
    (hop : (.workload w, op) ∈ s.history) : fact s := by
  rcases hs with ⟨labels, hrun⟩
  exact Run.released_of_mem h.protects (fun labels s hrun => ⟨labels, hrun⟩) h.program hrun hop
    hafter

end Leads

/-! ## Waiting for another workload -/

section Waiting

/-- The operations from the dispatch of an event to the action of a rule. -/
inductive Prepares (rule : Rule) (event : Event) : Op → Prop
  | dispatchEvent : Prepares rule event (.dispatchEvent event)
  | handle : Prepares rule event (.handle rule event)
  | execute : Prepares rule event (.execute rule.action event)
  | executeDirect : Prepares rule event (.executeDirect rule.action event)

variable {rule : Rule} {event : Event} {v w : Nat}

/-- Each of these operations comes down to the next one. -/
theorem Prepares.next {op : Op} {t : Thread} {shared : Shared} (hop : Prepares rule event op)
    (hrule : rule ∈ measurement.rules) (hmatch : rule.predicate.doesMatch event = true)
    (hhere : (measurement.action rule.action).workload = none) :
    (∃ o ∈ expand measurement t op shared, Prepares rule event o) ∨
      op = .executeDirect rule.action event := by
  cases hop with
  | dispatchEvent =>
      refine Or.inl ⟨.handle rule event, ?_, .handle⟩
      exact List.mem_append_left _ (List.mem_map.mpr ⟨rule, hrule, rfl⟩)
  | handle => exact Or.inl ⟨.execute rule.action event, by simp [expand, hmatch], .execute⟩
  | execute =>
      refine Or.inl ⟨.executeDirect rule.action event, ?_, .executeDirect⟩
      simp [expand, executesHere, hhere]
  | executeDirect => exact Or.inr rfl

/-- A dispatched event stays dispatched. -/
theorem dispatched_later (event : Event) {label : Label Thread} {s' : State}
    (hstep : Steps (semantics measurement spurious) s label s')
    (h : Dispatched s.history event) : Dispatched s'.history event := by
  cases hstep with
  | execute _ _ => exact h.later _
  | interrupt _ => exact h

/-- An event at which a rule waits for a workload leads to the end of the kernel of this
workload. -/
theorem leads_wait (hrule : rule ∈ measurement.rules)
    (hmatch : rule.predicate.doesMatch event = true)
    (hkind : (measurement.action rule.action).kind = .waitForWorkload (some v))
    (hhere : (measurement.action rule.action).workload = none) (t : Thread) :
    Leads measurement false t event
      (fun op => Prepares rule event op ∨ ∃ n, op = .waitIfClosed (.action rule.action n))
      (fun s => Dispatched s.history (.workloadEvent v .kernelStop)) where
  first := Or.inl .dispatchEvent
  later _ hstep h := dispatched_later _ hstep h
  next {s op _ _ _} hs _ hop heffect := by
    rcases Option.map_eq_some_iff.mp heffect with ⟨shared', hperform, heq⟩
    cases heq
    rcases hop with hop | ⟨n, rfl⟩
    · rcases hop.next hrule hmatch hhere with ⟨o, ho, hnext⟩ | rfl
      · exact Or.inl ⟨o, ho, Or.inl hnext⟩
      · refine Or.inl ⟨_, ?_, Or.inr ⟨s.shared.created rule.action - 1, rfl⟩⟩
        simp [expand, executeImp, hkind]
    · have hopened : s.shared.opened (.action rule.action n) = true := by
        by_contra hclosed
        simp [perform, hclosed] at hperform
      exact Or.inr ((hs.recorded.opened _ n v hkind hopened).later _)

/-- A thread that dispatches an event at which a rule waits for a workload gets to its next
milestone after the kernel of that workload has stopped. -/
theorem Reachable.wait_before (h : Reachable measurement false s)
    (hrule : rule ∈ measurement.rules) (hmatch : rule.predicate.doesMatch event = true)
    (hkind : (measurement.action rule.action).kind = .waitForWorkload (some v))
    (hhere : (measurement.action rule.action).workload = none) {op : Op}
    (hop : IsAfter measurement w event op) :
    HappensBefore s.history (.workload v, .dispatchEvent (.workloadEvent v .kernelStop))
      (.workload w, op) := by
  rcases h with ⟨labels, hrun⟩
  refine Run.happensBefore ?_ hrun
  intro labels s rest _ hrun hcode _
  exact (leads_wait hrule hmatch hkind hhere _).of_code ⟨labels, hrun⟩ hop hcode

/-- The kernel is run after the events of the start. -/
theorem isAfter_run (w : Nat) {eventNr : WorkloadEventEnum}
    (heventNr : eventNr = .start ∨ eventNr = .kernelStart) :
    IsAfter measurement w (.workloadEvent w eventNr)
      (.kernel (measurement.workload w).kernel .run) := by
  refine ⟨rfl, ?_⟩
  have hpairwise := pairwise_happensBefore (threadMilestones_nodup measurement w)
  rcases heventNr with rfl | rfl
  · exact List.pairwise_iff_getElem.mp hpairwise 2 4 (by simp) (by simp) (by decide)
  · exact List.pairwise_iff_getElem.mp hpairwise 3 4 (by simp) (by simp) (by decide)

/-- The kernel has run before the workload dispatches that it stopped. -/
theorem Reachable.run_before_stop (h : Reachable measurement spurious s)
    (hw : w ∈ measurement.workloads) {eventNr : WorkloadEventEnum}
    (heventNr : eventNr = .kernelStop ∨ eventNr = .stop) :
    HappensBefore s.history (.workload w, .kernel (measurement.workload w).kernel .run)
      (.workload w, .dispatchEvent (.workloadEvent w eventNr)) := by
  have hpairwise := h.thread_order hw
  rcases heventNr with rfl | rfl
  · exact List.pairwise_iff_getElem.mp hpairwise 4 5 (by simp) (by simp) (by decide)
  · exact List.pairwise_iff_getElem.mp hpairwise 4 6 (by simp) (by simp) (by decide)

/-- A workload that waits for another one at one of its start events runs its kernel after the
other one has run its own. -/
theorem run_after_waitForWorkload (h : Reachable measurement false s)
    (hrule : rule ∈ measurement.rules) {eventNr : WorkloadEventEnum}
    (heventNr : eventNr = .start ∨ eventNr = .kernelStart)
    (hmatch : rule.predicate.doesMatch (.workloadEvent w eventNr) = true)
    (hkind : (measurement.action rule.action).kind = .waitForWorkload (some v))
    (hhere : (measurement.action rule.action).workload = none) (hv : v ∈ measurement.workloads) :
    HappensBefore s.history (.workload v, .kernel (measurement.workload v).kernel .run)
      (.workload w, .kernel (measurement.workload w).kernel .run) :=
  (h.run_before_stop hv (Or.inl rfl)).trans
    (h.wait_before hrule hmatch hkind hhere (isAfter_run w heventNr))

/-- In the example the second kernel runs after the first one. -/
theorem twoWorkloads_wait : ∃ s, Reachable twoWorkloads false s ∧
    s.history.contains (.workload 1, .kernel 1 .run) = true ∧
      HappensBefore s.history (.workload 0, .kernel 0 .run) (.workload 1, .kernel 1 .run) := by
  rcases exists_reachable twoWorkloads false twoWorkloadsLabels (fun s =>
    s.history.contains (.workload 1, .kernel 1 .run)) (by decide +kernel) with ⟨s, hs, hrun⟩
  exact ⟨s, hs, hrun, run_after_waitForWorkload hs List.mem_cons_self (Or.inr rfl) rfl rfl rfl
    (by decide)⟩

end Waiting

end MeasurementRun
end ChildProcess
end Roofline
