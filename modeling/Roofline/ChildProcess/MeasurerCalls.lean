import Mathlib.Data.List.Nodup
import Mathlib.Data.List.Pairwise
import Mathlib.Data.List.Perm.Subperm
import Roofline.ChildProcess.WorkloadOrder

/-!
# The calls of the measurers

The measurers of the workloads and of the overall set are called by one thread each.  Each is
initialized, started and stopped in turns, read and disposed, in this order, whatever the rules
and the other threads do.

Main results:

- Theorem {lit}`workloadMeasurers_called`: the measurers of a workload run while its kernel runs,
  and all are disposed at the end.
- Theorem {lit}`overallMeasurers_called`: those of the overall set run while any kernel runs.
- Theorem {lit}`outputs_complete`: in the end there is one output for each measurer set.
-/

namespace Roofline
namespace ChildProcess
namespace MeasurementRun

open Runs Threads

variable {measurement : Measurement} {spurious : Bool} {s : State}

/-! ## Phases -/

/-- The phases in the life of a measurer. -/
inductive MeasurerPhase
  | created
  | initialized
  | running
  | stopped
  | disposed
deriving DecidableEq

/-- The calls a measurer may get. -/
def MeasurerPhase.call : MeasurerPhase → MeasurerCall → Option MeasurerPhase
  | created, .initializeMeasurer => some initialized
  | initialized, .start => some running
  | stopped, .start => some running
  | running, .stop => some stopped
  | stopped, .read => some stopped
  | stopped, .dispose => some disposed
  | _, _ => none

/-- The call of the measurer that an operation makes, if it makes one. -/
def Op.call? (m : Nat) : Op → Option MeasurerCall
  | measurer n call => if n = m then some call else none
  | _ => none

/-- The phase a measurer is in, if it may get the calls it has got. -/
def phase (m : Nat) (history : List (Thread × Op)) : Option MeasurerPhase :=
  (history.filterMap fun entry => entry.2.call? m).foldlM MeasurerPhase.call .created

/-- The calls are a part of calls that are allowed. -/
theorem exists_phase {calls later : List MeasurerCall} {last : MeasurerPhase}
    (h : (calls ++ later).foldlM MeasurerPhase.call .created = some last) :
    ∃ phase, calls.foldlM MeasurerPhase.call .created = some phase := by
  rw [List.foldlM_append] at h
  rcases Option.bind_eq_some_iff.mp h with ⟨phase, hphase, _⟩
  exact ⟨phase, hphase⟩

/-! ## Measurers of one set -/

/-- The measurer set that a thread uses itself. -/
def Measurement.measurerSetOf (measurement : Measurement) : Thread → Option MeasurerSet
  | .main => measurement.overallMeasurerSet
  | .workload w =>
      if w ∈ measurement.workloads then some (measurement.workload w).measurerSet else none

/-- The measurer is in the set of this thread once, and neither in that of another thread nor in
one that an action uses. -/
structure Measurement.Exclusive (measurement : Measurement) (t : Thread) (m : Nat) : Prop where
  once : ∀ set, measurement.measurerSetOf t = some set → set.measurers.count m = 1
  others : ∀ u ≠ t, ∀ set, measurement.measurerSetOf u = some set → m ∉ set.measurers
  unused : ∀ used, measurement.ActionsUse used → m ∉ used.measurers

/-- A measurer that no action uses is called by the code of a thread only. -/
theorem call_own {m : Nat} (hunused : ∀ used, measurement.ActionsUse used → m ∉ used.measurers)
    (spurious : Bool) (t : Thread) :
    (semantics measurement spurious).Own t (fun op => (op.call? m).isSome) := by
  refine own_of_not_pushed ?_ spurious t
  intro o ho hpushed
  cases hpushed with
  | measurer huse hm =>
      simp only [Op.call?] at ho
      split at ho
      · rename_i hsame
        subst hsame
        exact hunused _ huse hm
      · cases ho
  | _ => cases ho

/-- What is of interest about one measurer. -/
def Op.concerns (m : Nat) (op : Op) : Bool :=
  op.isMilestone || (op.call? m).isSome

/-- The same holds of all that is of interest about the measurer. -/
theorem concerns_own {m : Nat}
    (hunused : ∀ used, measurement.ActionsUse used → m ∉ used.measurers) (spurious : Bool)
    (t : Thread) : (semantics measurement spurious).Own t (Op.concerns m) :=
  (isMilestone_own measurement spurious t).or (call_own hunused spurious t)

/-- Leaving out what is of no interest leaves the calls of the measurer. -/
theorem filterMap_filter_concerns (m : Nat) (ops : List Op) :
    (ops.filter (Op.concerns m)).filterMap (Op.call? m) = ops.filterMap (Op.call? m) :=
  filterMap_filter_of_isSome (fun op hop => by simp [Op.concerns, hop]) ops

/-- A call of each measurer in a list calls the measurer as often as it is in the list. -/
@[simp] theorem filterMap_call_map (m : Nat) (l : List Nat) (call : MeasurerCall) :
    (l.map fun n => Op.measurer n call).filterMap (Op.call? m) =
      List.replicate (l.count m) call := by
  induction l with
  | nil => rfl
  | cons n l ih =>
      by_cases hsame : n = m
      · simp [Op.call?, hsame, ih, List.replicate_succ]
      · simp [Op.call?, hsame, ih]

/-- A measurer of a set is the main one, an additional one or one for the validation. -/
theorem MeasurerSet.roles {set : MeasurerSet} {m : Nat} (h : set.measurers.count m = 1) :
    (set.mainMeasurer.toList.count m = 1 ∧ set.additionalMeasurers.count m = 0 ∧
        set.validationMeasurers.count m = 0) ∨
      (set.mainMeasurer.toList.count m = 0 ∧ set.additionalMeasurers.count m = 1 ∧
        set.validationMeasurers.count m = 0) ∨
      (set.mainMeasurer.toList.count m = 0 ∧ set.additionalMeasurers.count m = 0 ∧
        set.validationMeasurers.count m = 1) := by
  simp only [measurers, List.count_append] at h
  omega

/-! ## The calls of a workload -/

section Workload

variable (measurement : Measurement) (w : Nat)

/-- What the thread of a workload does before it runs the kernel. -/
def beforeRun : List Op :=
  let set := (measurement.workload w).measurerSet
  [.begin w, .dispatchEvent (.threadEvent (.workload w) .started), .forwardActions w,
    .kernel (measurement.workload w).kernel .initializeKernel] ++ set.initializeMeasurers ++
    [.dispatchEvent (.workloadEvent w .start)] ++ set.startValidationMeasurers ++
    warmOrClearCaches measurement w ++ [.dispatchEvent (.workloadEvent w .kernelStart)] ++
    set.startAdditionalMeasurers ++ set.mainCall .start

/-- What it does afterwards. -/
def afterRun : List Op :=
  let set := (measurement.workload w).measurerSet
  set.mainCall .stop ++ set.stopAdditionalMeasurers ++
    [.dispatchEvent (.workloadEvent w .kernelStop)] ++ set.stopValidationMeasurers ++
    [.dispatchEvent (.workloadEvent w .stop)] ++ set.addOutput ++
    [.kernel (measurement.workload w).kernel .dispose] ++ set.dispose ++
    [.dispatchEvent (.threadEvent (.workload w) .exiting), .exit w]

/-- The thread of a workload runs the kernel once. -/
theorem startInThread_eq : startInThread measurement w = beforeRun measurement w ++
    .kernel (measurement.workload w).kernel .run :: afterRun measurement w := by
  simp [startInThread, beforeRun, afterRun]

/-- The kernel is run neither before nor after that. -/
theorem run_not_mem :
    .kernel (measurement.workload w).kernel .run ∉ beforeRun measurement w ∧
      .kernel (measurement.workload w).kernel .run ∉ afterRun measurement w := by
  have hnodup := threadMilestones_nodup measurement w
  rw [← filter_startInThread, startInThread_eq, List.filter_append, List.filter_cons_of_pos rfl,
    List.nodup_middle, List.nodup_cons, List.mem_append, not_or] at hnodup
  exact ⟨fun hmem => hnodup.1.1 (List.mem_filter.mpr ⟨hmem, rfl⟩),
    fun hmem => hnodup.1.2 (List.mem_filter.mpr ⟨hmem, rfl⟩)⟩

/-- Warming the caches starts and stops all but the validation measurers. -/
theorem filterMap_warmOrClearCaches (m : Nat) :
    (warmOrClearCaches measurement w).filterMap (Op.call? m) =
      let set := (measurement.workload w).measurerSet
      List.replicate (set.additionalMeasurers.count m) .start ++
        List.replicate (set.additionalMeasurers.count m) .stop ++
        List.replicate (set.mainMeasurer.toList.count m) .start ++
        List.replicate (set.mainMeasurer.toList.count m) .stop := by
  simp only [warmOrClearCaches, MeasurerSet.startAdditionalMeasurers,
    MeasurerSet.stopAdditionalMeasurers, MeasurerSet.mainCall, List.filterMap_append,
    filterMap_call_map, List.count_reverse]
  split
  · split <;> simp [Op.call?]
  · split <;> simp [Op.call?]

/-- The calls of a measurer before the kernel is run. -/
theorem calls_beforeRun (m : Nat) :
    (beforeRun measurement w).filterMap (Op.call? m) =
      let set := (measurement.workload w).measurerSet
      List.replicate (set.mainMeasurer.toList.count m) .initializeMeasurer ++
        List.replicate (set.additionalMeasurers.count m) .initializeMeasurer ++
        List.replicate (set.validationMeasurers.count m) .initializeMeasurer ++
        List.replicate (set.validationMeasurers.count m) .start ++
        (warmOrClearCaches measurement w).filterMap (Op.call? m) ++
        List.replicate (set.additionalMeasurers.count m) .start ++
        List.replicate (set.mainMeasurer.toList.count m) .start := by
  simp only [beforeRun, MeasurerSet.initializeMeasurers, MeasurerSet.startValidationMeasurers,
    MeasurerSet.startAdditionalMeasurers, MeasurerSet.mainCall, List.filterMap_append,
    filterMap_call_map]
  simp [List.filterMap_cons, Op.call?]

/-- The calls of a measurer after the kernel was run. -/
theorem calls_afterRun (m : Nat) :
    (afterRun measurement w).filterMap (Op.call? m) =
      let set := (measurement.workload w).measurerSet
      List.replicate (set.mainMeasurer.toList.count m) .stop ++
        List.replicate (set.additionalMeasurers.count m) .stop ++
        List.replicate (set.validationMeasurers.count m) .stop ++
        List.replicate (set.mainMeasurer.toList.count m) .read ++
        List.replicate (set.additionalMeasurers.count m) .read ++
        List.replicate (set.validationMeasurers.count m) .read ++
        List.replicate (set.validationMeasurers.count m) .dispose ++
        List.replicate (set.additionalMeasurers.count m) .dispose ++
        List.replicate (set.mainMeasurer.toList.count m) .dispose := by
  simp only [afterRun, MeasurerSet.stopValidationMeasurers, MeasurerSet.stopAdditionalMeasurers,
    MeasurerSet.addOutput, MeasurerSet.dispose, MeasurerSet.mainCall, List.filterMap_append,
    filterMap_call_map, List.count_reverse]
  simp [List.filterMap_cons, Op.call?]

variable {measurement w} {m : Nat}

/-- A thread calls a measurer before and after it runs the kernel. -/
theorem calls_startInThread :
    (startInThread measurement w).filterMap (Op.call? m) =
      (beforeRun measurement w).filterMap (Op.call? m) ++
        (afterRun measurement w).filterMap (Op.call? m) := by
  rw [startInThread_eq, List.filterMap_append, List.filterMap_cons]
  rfl

/-- The phases of a measurer of a workload when its kernel is run and in the end. -/
theorem phases_startInThread
    (hcount : (measurement.workload w).measurerSet.measurers.count m = 1) :
    ((beforeRun measurement w).filterMap (Op.call? m)).foldlM MeasurerPhase.call .created =
        some .running ∧
      ((startInThread measurement w).filterMap (Op.call? m)).foldlM MeasurerPhase.call .created =
        some .disposed := by
  rw [calls_startInThread, calls_beforeRun, calls_afterRun, filterMap_warmOrClearCaches]
  rcases MeasurerSet.roles hcount with ⟨hmain, hadditional, hvalidation⟩ |
    ⟨hmain, hadditional, hvalidation⟩ | ⟨hmain, hadditional, hvalidation⟩
  · simp only [hmain, hadditional, hvalidation]
    exact ⟨rfl, rfl⟩
  · simp only [hmain, hadditional, hvalidation]
    exact ⟨rfl, rfl⟩
  · simp only [hmain, hadditional, hvalidation]
    exact ⟨rfl, rfl⟩

/-- The thread does not call measurers that are not in its set. -/
theorem calls_startInThread_of_not_mem
    (hm : m ∉ (measurement.workload w).measurerSet.measurers) :
    (startInThread measurement w).filterMap (Op.call? m) = [] := by
  refine List.filterMap_eq_nil_iff.mpr fun op hop => ?_
  cases threadOp_startInThread w op hop with
  | @measurer n call hn =>
      have hne : n ≠ m := fun hsame => hm (hsame ▸ hn)
      simp [Op.call?, hne]
  | _ => rfl

end Workload

/-! ## The calls of the overall set -/

section Overall

variable (measurement : Measurement)

/-- What the main thread does before it starts the workloads, and after it has waited for them. -/
def beforeStart : List Op :=
  let overall := measurement.overallMeasurerSet.toList
  overall.flatMap MeasurerSet.initializeMeasurers ++
    (measurement.rules.map fun rule => .initializeAction rule.action) ++
    (measurement.configurators.map fun c => .configurator c .beforeRun) ++
    [.dispatchEvent (.measurementRunEvent .start)] ++ overall.flatMap MeasurerSet.start

/-- What the main thread does after it has waited for the workloads. -/
def afterJoin : List Op :=
  let overall := measurement.overallMeasurerSet.toList
  overall.flatMap MeasurerSet.stop ++ [.dispatchEvent (.measurementRunEvent .stop)] ++
    (measurement.configurators.reverse.map fun c => .configurator c .afterRun) ++
    overall.flatMap MeasurerSet.addOutput

/-- The main thread starts all workloads and waits for them once. -/
theorem innerMain_eq : innerMain measurement = beforeStart measurement ++
    (measurement.workloads.map .start ++ measurement.workloads.map .join) ++
      afterJoin measurement := by
  simp [innerMain, beforeStart, afterJoin]

variable {measurement} {m : Nat}

/-- No workload is started before that. -/
theorem start_not_mem_beforeStart (w : Nat) : .start w ∉ beforeStart measurement := by
  have hset := fun set : MeasurerSet => set.forall_methods (P := fun o => o ≠ .start w)
    (fun _ _ _ => Op.noConfusion) Op.noConfusion
  intro hmem
  simp only [beforeStart, List.mem_append, List.mem_flatMap, List.mem_map, List.mem_singleton,
    reduceCtorEq, and_false, exists_false, or_false] at hmem
  rcases hmem with ⟨set, _, hinitialize⟩ | ⟨set, _, hstart⟩
  · exact (hset set).1 _ hinitialize rfl
  · exact (hset set).2.1 _ hstart rfl

/-- The main thread calls measurers before and after that only. -/
theorem calls_innerMain :
    (innerMain measurement).filterMap (Op.call? m) =
      (beforeStart measurement).filterMap (Op.call? m) ++
        (afterJoin measurement).filterMap (Op.call? m) := by
  rw [innerMain_eq, List.filterMap_append, List.filterMap_append, List.filterMap_append]
  simp [List.filterMap_map, Function.comp_def, Op.call?]

/-- The calls of a measurer of the overall set before the workloads are started. -/
theorem calls_beforeStart {set : MeasurerSet} (hset : measurement.overallMeasurerSet = some set) :
    (beforeStart measurement).filterMap (Op.call? m) =
      List.replicate (set.mainMeasurer.toList.count m) .initializeMeasurer ++
        List.replicate (set.additionalMeasurers.count m) .initializeMeasurer ++
        List.replicate (set.validationMeasurers.count m) .initializeMeasurer ++
        List.replicate (set.validationMeasurers.count m) .start ++
        List.replicate (set.additionalMeasurers.count m) .start ++
        List.replicate (set.mainMeasurer.toList.count m) .start := by
  simp only [beforeStart, hset, Option.toList_some, List.flatMap_cons, List.flatMap_nil,
    List.append_nil, MeasurerSet.initializeMeasurers, MeasurerSet.start,
    MeasurerSet.startValidationMeasurers, MeasurerSet.startAdditionalMeasurers,
    MeasurerSet.mainCall, List.filterMap_append, filterMap_call_map]
  simp [List.filterMap_map, List.filterMap_cons, Function.comp_def, Op.call?]

/-- The calls of a measurer of the overall set after the workloads were waited for. -/
theorem calls_afterJoin {set : MeasurerSet} (hset : measurement.overallMeasurerSet = some set) :
    (afterJoin measurement).filterMap (Op.call? m) =
      List.replicate (set.mainMeasurer.toList.count m) .stop ++
        List.replicate (set.additionalMeasurers.count m) .stop ++
        List.replicate (set.validationMeasurers.count m) .stop ++
        List.replicate (set.mainMeasurer.toList.count m) .read ++
        List.replicate (set.additionalMeasurers.count m) .read ++
        List.replicate (set.validationMeasurers.count m) .read := by
  simp only [afterJoin, hset, Option.toList_some, List.flatMap_cons, List.flatMap_nil,
    List.append_nil, MeasurerSet.stop, MeasurerSet.addOutput,
    MeasurerSet.stopValidationMeasurers, MeasurerSet.stopAdditionalMeasurers,
    MeasurerSet.mainCall, List.filterMap_append, filterMap_call_map, List.count_reverse]
  simp [List.filterMap_map, List.filterMap_cons, Function.comp_def, Op.call?]

/-- The phases of a measurer of the overall set when the workloads are started and in the end. -/
theorem phases_innerMain {set : MeasurerSet} (hset : measurement.overallMeasurerSet = some set)
    (hcount : set.measurers.count m = 1) :
    ((beforeStart measurement).filterMap (Op.call? m)).foldlM MeasurerPhase.call .created =
        some .running ∧
      ((innerMain measurement).filterMap (Op.call? m)).foldlM MeasurerPhase.call .created =
        some .stopped := by
  rw [calls_innerMain, calls_beforeStart hset, calls_afterJoin hset]
  rcases MeasurerSet.roles hcount with ⟨hmain, hadditional, hvalidation⟩ |
    ⟨hmain, hadditional, hvalidation⟩ | ⟨hmain, hadditional, hvalidation⟩
  · simp only [hmain, hadditional, hvalidation]
    exact ⟨rfl, rfl⟩
  · simp only [hmain, hadditional, hvalidation]
    exact ⟨rfl, rfl⟩
  · simp only [hmain, hadditional, hvalidation]
    exact ⟨rfl, rfl⟩

/-- The main thread does not call measurers that are not in the overall set. -/
theorem calls_innerMain_of_not_mem
    (hm : ∀ set, measurement.overallMeasurerSet = some set → m ∉ set.measurers) :
    (innerMain measurement).filterMap (Op.call? m) = [] := by
  refine List.filterMap_eq_nil_iff.mpr fun op hop => ?_
  cases mainOp_innerMain op hop with
  | @measurer set n call hset hn =>
      have hne : n ≠ m := fun hsame => hm set hset (hsame ▸ hn)
      simp [Op.call?, hne]
  | _ => rfl

end Overall

/-! ## Measurers are called by one thread -/

section Owners

variable {m w : Nat}

/-- Only the program of the thread that has the set of a measurer has calls of it. -/
theorem Measurement.Exclusive.calls_other {t : Thread} (hexclusive : measurement.Exclusive t m)
    {u : Thread} (hu : u ≠ t) : (program measurement u).filterMap (Op.call? m) = [] := by
  have hothers := hexclusive.others u hu
  cases u with
  | main => exact calls_innerMain_of_not_mem hothers
  | workload v =>
      rw [program]
      split
      · rename_i hv
        exact calls_startInThread_of_not_mem (hothers _ (if_pos hv))
      · rfl

/-- No other thread calls the measurer. -/
theorem Measurement.Exclusive.caller_eq {t : Thread} (hexclusive : measurement.Exclusive t m)
    (h : Reachable measurement spurious s) {u : Thread} {op : Op} (hop : (u, op) ∈ s.history)
    (hcall : (op.call? m).isSome) : u = t := by
  rcases h with ⟨labels, hrun⟩
  by_contra hu
  have hfilter : (program measurement u).filter (fun op => (op.call? m).isSome) = [] := by
    rw [List.filter_eq_nil_iff]
    intro op hop
    have hnone := List.filterMap_eq_nil_iff.mp (hexclusive.calls_other hu) op hop
    simp [hnone]
  have hnot := Run.not_own_of_mem (call_own hexclusive.unused spurious u) hfilter hrun hop
  exact absurd hcall (by simpa using hnot)

/-- The phase of a measurer is told by what its thread has executed. -/
theorem phase_eq {t : Thread} (hexclusive : measurement.Exclusive t m)
    (h : Reachable measurement spurious s) :
    phase m s.history =
      (((s.executed t).filter (Op.concerns m)).filterMap (Op.call? m)).foldlM
        MeasurerPhase.call .created := by
  rw [phase, filterMap_filter_concerns]
  congr 1
  refine filterMap_history fun u op hop hu => ?_
  by_contra hsome
  exact hu (hexclusive.caller_eq h hop (Option.isSome_iff_ne_none.mpr hsome))

end Owners

/-! ## The phases in a run -/

section Phases

variable {m w : Nat}

/-- In every run the measurers of a workload get the calls they may get, run while the kernel of
their workload runs, and are disposed in the end. -/
theorem workloadMeasurers_called (hw : w ∈ measurement.workloads)
    (hexclusive : measurement.Exclusive (.workload w) m)
    (h : Reachable measurement spurious s) :
    (∃ reached, phase m s.history = some reached) ∧
      (∀ rest, s.code (.workload w) = .kernel (measurement.workload w).kernel .run :: rest →
        phase m s.history = some .running) ∧
      (Finished s → phase m s.history = some .disposed) := by
  rw [phase_eq hexclusive h]
  rcases h with ⟨labels, hrun⟩
  have hcount := hexclusive.once _ (if_pos hw)
  have hown := concerns_own hexclusive.unused spurious (.workload w)
  have hprogram : program measurement (.workload w) = startInThread measurement w := by
    rw [program, if_pos hw]
  rcases phases_startInThread hcount with ⟨hrunning, hdisposed⟩
  refine ⟨?_, ?_, ?_⟩
  · have htrace := Run.trace_eq hown hrun
    rw [hprogram] at htrace
    rw [← filterMap_filter_concerns, ← htrace, List.filterMap_append] at hdisposed
    exact exists_phase hdisposed
  · intro rest hcode
    have hfront : (program measurement (.workload w)).filter (Op.concerns m) =
        (beforeRun measurement w).filter (Op.concerns m) ++
          .kernel (measurement.workload w).kernel .run ::
            (afterRun measurement w).filter (Op.concerns m) := by
      rw [hprogram, startInThread_eq, List.filter_append, List.filter_cons_of_pos rfl]
    rcases run_not_mem measurement w with ⟨hbefore, hafter⟩
    have hexecuted := Run.executed_eq hown rfl (fun hmem => hbefore (List.mem_filter.mp hmem).1)
      (fun hmem => hafter (List.mem_filter.mp hmem).1) hfront hrun hcode
    rw [hexecuted, filterMap_filter_concerns]
    exact hrunning
  · intro hfinished
    rw [Run.executed_of_code_eq_nil hown hrun (hfinished _), filterMap_filter_concerns]
    rw [hprogram]
    exact hdisposed

/-- No action of the example uses a measurer set. -/
theorem twoWorkloads_unused (set : MeasurerSet) : ¬twoWorkloads.ActionsUse set := by
  rintro ⟨a, ha⟩
  by_cases hfirst : a = 0
  · simp [twoWorkloads, hfirst, ActionKind.measurerSets] at ha
  · simp [twoWorkloads, hfirst, ActionKind.measurerSets] at ha

/-- The main measurer of the second workload is in its set only. -/
theorem twoWorkloads_exclusive_measurer : twoWorkloads.Exclusive (.workload 1) 3 where
  once := by
    intro set hset
    obtain rfl : (twoWorkloads.workload 1).measurerSet = set := Option.some.inj hset
    decide
  others := by
    intro u hu set hset hm
    cases u with
    | main =>
        obtain rfl : _ = set := Option.some.inj hset
        exact absurd hm (by decide)
    | workload v =>
        simp only [Measurement.measurerSetOf] at hset
        split at hset
        · rename_i hv
          obtain rfl : (twoWorkloads.workload v).measurerSet = set := Option.some.inj hset
          simp only [twoWorkloads, List.mem_cons, List.not_mem_nil, or_false] at hv
          rcases hv with rfl | rfl
          · exact absurd hm (by decide)
          · exact hu rfl
        · cases hset
  unused := fun used huse => absurd huse (twoWorkloads_unused used)

/-- While the second kernel runs, the main measurer of its workload is running. -/
theorem twoWorkloads_measurers : ∃ s, Reachable twoWorkloads false s ∧
    (s.code (.workload 1)).head? = some (.kernel 1 .run) ∧ phase 3 s.history = some .running := by
  rcases exists_reachable twoWorkloads false (twoWorkloadsLabels.take 111)
    (fun s => (s.code (.workload 1)).head? = some (.kernel 1 .run)) (by decide +kernel) with
    ⟨s, hs, hhead⟩
  have hrun : (s.code (.workload 1)).head? = some (.kernel 1 .run) := of_decide_eq_true hhead
  refine ⟨s, hs, hrun, ?_⟩
  have hcalled := workloadMeasurers_called (by decide) twoWorkloads_exclusive_measurer hs
  rcases List.head?_eq_some_iff.mp hrun with ⟨rest, hcode⟩
  exact hcalled.2.1 rest hcode

/-- While the kernel of a workload runs, the workload has been started and not been joined. -/
theorem Reachable.between (h : Reachable measurement spurious s) (hw : w ∈ measurement.workloads)
    {rest : List Op}
    (hcode : s.code (.workload w) = .kernel (measurement.workload w).kernel .run :: rest) :
    (.main, .start w) ∈ s.history ∧ (.main, .join w) ∉ s.history := by
  have hexecuted : (s.executed (.workload w)).filter Op.isMilestone =
      (threadMilestones measurement w).take 4 := by
    rcases h with ⟨labels, hrun⟩
    have hprogram : (program measurement (.workload w)).filter Op.isMilestone =
        (threadMilestones measurement w).take 4 ++
          .kernel (measurement.workload w).kernel .run :: (threadMilestones measurement w).drop 5 :=
      filter_program hw
    refine Run.executed_eq (isMilestone_own measurement spurious _) rfl ?_ ?_ hprogram hrun hcode
    · simp [threadMilestones]
    · simp [threadMilestones]
  have hmem : ∀ op : Op, op.isMilestone = true → ((.workload w, op) ∈ s.history ↔
      op ∈ (threadMilestones measurement w).take 4) := by
    intro op hop
    rw [← hexecuted, List.mem_filter, mem_executed_iff]
    simp [hop]
  have hbegin : (.workload w, .begin w) ∈ s.history :=
    (hmem (.begin w) rfl).mpr List.mem_cons_self
  refine ⟨(h.start_before_begin w).mem hbegin, fun hjoin => ?_⟩
  have hexit := (hmem (.exit w) rfl).mp ((h.exit_before_join w).mem hjoin)
  simp [threadMilestones] at hexit

/-- In every run the measurers of the overall set get the calls they may get, all from the main
thread, run while the kernel of any workload runs, and are stopped in the end. -/
theorem overallMeasurers_called {set : MeasurerSet}
    (hset : measurement.overallMeasurerSet = some set) (hexclusive : measurement.Exclusive .main m)
    (h : Reachable measurement spurious s) :
    (∀ u call, (u, .measurer m call) ∈ s.history → u = .main) ∧
      (∃ reached, phase m s.history = some reached) ∧
      (∀ w ∈ measurement.workloads, ∀ rest,
        s.code (.workload w) = .kernel (measurement.workload w).kernel .run :: rest →
          phase m s.history = some .running) ∧
      (Finished s → phase m s.history = some .stopped) := by
  have hcaller : ∀ u call, (u, .measurer m call) ∈ s.history → u = .main :=
    fun u call hop => hexclusive.caller_eq h hop (by simp [Op.call?])
  rw [phase_eq hexclusive h]
  rcases h with ⟨labels, hrun⟩
  have hown := concerns_own hexclusive.unused spurious .main
  have htrace := Run.trace_eq hown hrun
  rw [program] at htrace
  rcases phases_innerMain hset (hexclusive.once set hset) with ⟨hrunning, hstopped⟩
  refine ⟨hcaller, ?_, ?_, ?_⟩
  · rw [← filterMap_filter_concerns, ← htrace, List.filterMap_append] at hstopped
    exact exists_phase hstopped
  · intro w hw rest hcode
    rcases Reachable.between ⟨labels, hrun⟩ hw hcode with ⟨hstarted, hjoined⟩
    have hconcerns : ∀ op : Op, op.isMilestone = true →
        (op ∈ (s.executed .main).filter (Op.concerns m) ↔ (.main, op) ∈ s.history) := by
      intro op hop
      rw [List.mem_filter, mem_executed_iff]
      simp [Op.concerns, hop]
    have hnot : Op.start w ∉ (beforeStart measurement).filter (Op.concerns m) :=
      fun hmem => start_not_mem_beforeStart w (List.mem_filter.mp hmem).1
    rw [innerMain_eq, List.append_assoc, List.filter_append, List.filter_append] at htrace
    rcases exists_eq_append htrace ((hconcerns _ rfl).mpr hstarted) hnot with
      ⟨more, hexecuted, hback⟩
    have hjoin : Op.join w ∉ more := fun hmem =>
      hjoined ((hconcerns _ rfl).mp (hexecuted ▸ List.mem_append_right _ hmem))
    have hmore := mem_front_of_append hback hjoin (List.mem_filter.mpr ⟨by simp [hw], rfl⟩)
    have hnone : more.filterMap (Op.call? m) = [] := by
      refine List.filterMap_eq_nil_iff.mpr fun op hop => ?_
      rcases List.mem_append.mp (List.mem_filter.mp (hmore op hop)).1 with hstart | hjoin
      · rcases List.mem_map.mp hstart with ⟨v, _, rfl⟩
        rfl
      · rcases List.mem_map.mp hjoin with ⟨v, _, rfl⟩
        rfl
    rw [hexecuted, List.filterMap_append, hnone, List.append_nil, filterMap_filter_concerns]
    exact hrunning
  · intro hfinished
    rw [Run.executed_of_code_eq_nil hown hrun (hfinished _), filterMap_filter_concerns]
    exact hstopped

/-- The main measurer of the overall set is in that set only. -/
theorem twoWorkloads_exclusive_overall : twoWorkloads.Exclusive .main 6 where
  once := by
    intro set hset
    obtain rfl : _ = set := Option.some.inj hset
    decide
  others := by
    intro u hu set hset hm
    cases u with
    | main => exact hu rfl
    | workload v =>
        simp only [Measurement.measurerSetOf] at hset
        split at hset
        · rename_i hv
          obtain rfl : (twoWorkloads.workload v).measurerSet = set := Option.some.inj hset
          simp only [twoWorkloads, List.mem_cons, List.not_mem_nil, or_false] at hv
          rcases hv with rfl | rfl
          · exact absurd hm (by decide)
          · exact absurd hm (by decide)
        · cases hset
  unused := fun used huse => absurd huse (twoWorkloads_unused used)

/-- While the second kernel runs, the overall measurer is running too. -/
theorem twoWorkloads_overall : ∃ s, Reachable twoWorkloads false s ∧
    (s.code (.workload 1)).head? = some (.kernel 1 .run) ∧ phase 6 s.history = some .running ∧
      ∀ u call, (u, .measurer 6 call) ∈ s.history → u = .main := by
  rcases exists_reachable twoWorkloads false (twoWorkloadsLabels.take 111)
    (fun s => (s.code (.workload 1)).head? = some (.kernel 1 .run)) (by decide +kernel) with
    ⟨s, hs, hhead⟩
  have hrun : (s.code (.workload 1)).head? = some (.kernel 1 .run) := of_decide_eq_true hhead
  rcases overallMeasurers_called rfl twoWorkloads_exclusive_overall hs with
    ⟨hcaller, _, hrunning, _⟩
  rcases List.head?_eq_some_iff.mp hrun with ⟨rest, hcode⟩
  exact ⟨s, hs, hrun, hrunning 1 (by decide) rest hcode, hcaller⟩

end Phases

/-! ## The outputs -/

section Outputs

variable {set : MeasurerSet} {w : Nat}

/-- The measurer sets of the workloads and of the run. -/
def Measurement.measurerSets (measurement : Measurement) : List MeasurerSet :=
  (measurement.workloads.map fun w => (measurement.workload w).measurerSet) ++
    measurement.overallMeasurerSet.toList

/-- These are different objects, and no action uses one of them. -/
structure Measurement.SeparateSets (measurement : Measurement) : Prop where
  nodup : measurement.measurerSets.Nodup
  unused : ∀ set ∈ measurement.measurerSets, ¬measurement.ActionsUse set

/-- Each workload has a set of its own. -/
theorem Measurement.SeparateSets.workload_eq (hseparate : measurement.SeparateSets) {v : Nat}
    (hv : v ∈ measurement.workloads) (hw : w ∈ measurement.workloads)
    (hset : (measurement.workload v).measurerSet = (measurement.workload w).measurerSet) :
    v = w :=
  List.inj_on_of_nodup_map (List.nodup_append.mp hseparate.nodup).1 hv hw hset

/-- The overall set is that of no workload. -/
theorem Measurement.SeparateSets.ne_overall (hseparate : measurement.SeparateSets)
    (hw : w ∈ measurement.workloads) (hset : measurement.overallMeasurerSet = some set) :
    (measurement.workload w).measurerSet ≠ set :=
  (List.nodup_append.mp hseparate.nodup).2.2 _ (List.mem_map.mpr ⟨w, hw, rfl⟩) _
    (by simp [hset])

/-- The operation adds the output of the measurer set. -/
def Op.outputs (set : MeasurerSet) (op : Op) : Bool :=
  op.output? = some set

/-- Outputs of a set that no action uses are added by the code of a thread only. -/
theorem outputs_own (hunused : ¬measurement.ActionsUse set) (spurious : Bool) (t : Thread) :
    (semantics measurement spurious).Own t (Op.outputs set) := by
  refine own_of_not_pushed ?_ spurious t
  intro o ho hpushed
  cases hpushed with
  | addMeasurerSetOutput huse =>
      simp only [Op.outputs, Op.output?, Option.some.injEq, decide_eq_true_eq] at ho
      exact hunused (ho ▸ huse)
  | _ => cases ho

/-- Calls of measurers add no output. -/
@[simp] theorem filter_outputs_map (set : MeasurerSet) (l : List Nat) (call : MeasurerCall) :
    (l.map fun n => Op.measurer n call).filter (Op.outputs set) = [] := by
  simp [List.filter_map, Function.comp_def, Op.outputs, Op.output?]

/-- Warming the caches adds no output. -/
theorem filter_outputs_warmOrClearCaches (w : Nat) :
    (warmOrClearCaches measurement w).filter (Op.outputs set) = [] := by
  simp only [warmOrClearCaches, MeasurerSet.startAdditionalMeasurers,
    MeasurerSet.stopAdditionalMeasurers, MeasurerSet.mainCall, List.filter_append,
    filter_outputs_map, List.nil_append]
  split
  · split <;> simp [Op.outputs, Op.output?]
  · split <;> simp [Op.outputs, Op.output?]

/-- The thread of a workload adds the output of its own measurer set. -/
theorem outputs_startInThread (w : Nat) :
    (startInThread measurement w).filter (Op.outputs set) =
      if (measurement.workload w).measurerSet = set then [.addMeasurerSetOutput set] else [] := by
  simp only [startInThread, MeasurerSet.initializeMeasurers, MeasurerSet.startValidationMeasurers,
    MeasurerSet.stopValidationMeasurers, MeasurerSet.startAdditionalMeasurers,
    MeasurerSet.stopAdditionalMeasurers, MeasurerSet.mainCall, MeasurerSet.addOutput,
    MeasurerSet.dispose, List.filter_append, filter_outputs_map, filter_outputs_warmOrClearCaches]
  by_cases hset : (measurement.workload w).measurerSet = set
  · simp [Op.outputs, Op.output?, hset]
  · simp [Op.outputs, Op.output?, hset]

/-- The main thread adds the output of the overall measurer set. -/
theorem outputs_innerMain :
    (innerMain measurement).filter (Op.outputs set) =
      if measurement.overallMeasurerSet = some set then [.addMeasurerSetOutput set] else [] := by
  cases hoverall : measurement.overallMeasurerSet with
  | none =>
      simp [innerMain, hoverall, List.filter_map, Function.comp_def, Op.outputs, Op.output?]
  | some overall =>
      simp only [innerMain, hoverall, Option.toList_some, List.flatMap_cons, List.flatMap_nil,
        List.append_nil, MeasurerSet.initializeMeasurers, MeasurerSet.start, MeasurerSet.stop,
        MeasurerSet.startValidationMeasurers, MeasurerSet.stopValidationMeasurers,
        MeasurerSet.startAdditionalMeasurers, MeasurerSet.stopAdditionalMeasurers,
        MeasurerSet.addOutput, MeasurerSet.mainCall, List.filter_append, filter_outputs_map]
      by_cases hset : overall = set
      · simp [List.filter_map, Function.comp_def, Op.outputs, Op.output?, hset]
      · simp [List.filter_map, Function.comp_def, Op.outputs, Op.output?, hset]

/-- Each measurer set has one thread that adds its output, once. -/
theorem Measurement.SeparateSets.exists_owner (hseparate : measurement.SeparateSets)
    (hset : set ∈ measurement.measurerSets) :
    ∃ t, (program measurement t).filter (Op.outputs set) = [.addMeasurerSetOutput set] ∧
      ∀ u ≠ t, (program measurement u).filter (Op.outputs set) = [] := by
  rcases List.mem_append.mp hset with hworkload | hoverall
  · rcases List.mem_map.mp hworkload with ⟨w, hw, rfl⟩
    refine ⟨.workload w, by rw [program, if_pos hw, outputs_startInThread, if_pos rfl], ?_⟩
    intro u hu
    cases u with
    | main =>
        rw [program, outputs_innerMain, if_neg]
        exact fun hoverall => hseparate.ne_overall hw hoverall rfl
    | workload v =>
        rw [program]
        split
        · rename_i hv
          rw [outputs_startInThread, if_neg]
          intro hsame
          rw [hseparate.workload_eq hv hw hsame] at hu
          exact hu rfl
        · rfl
  · have hsome : measurement.overallMeasurerSet = some set := Option.mem_toList.mp hoverall
    refine ⟨.main, by rw [program, outputs_innerMain, if_pos hsome], ?_⟩
    intro u hu
    cases u with
    | main => exact absurd rfl hu
    | workload v =>
        rw [program]
        split
        · rename_i hv
          rw [outputs_startInThread, if_neg (hseparate.ne_overall hv hsome)]
        · rfl

/-- The number of outputs of a set is the number of operations that have added one. -/
theorem count_outputs (set : MeasurerSet) (history : List (Thread × Op)) :
    (history.filterMap fun entry => entry.2.output?).count set =
      (history.filterMap fun entry =>
        if entry.2.outputs set then some entry.2 else none).length := by
  induction history with
  | nil => rfl
  | cons entry history ih =>
      cases houtput : entry.2.output? with
      | none =>
          simp [Op.outputs, houtput] at ih ⊢
          exact ih
      | some other =>
          by_cases hsame : other = set
          · simp [Op.outputs, houtput, hsame] at ih ⊢
            exact ih
          · simp [Op.outputs, houtput, hsame] at ih ⊢
            exact ih

/-- How often the output of a measurer set has been added. -/
theorem Measurement.SeparateSets.count_measurerSetOutputs (hseparate : measurement.SeparateSets)
    (h : Reachable measurement spurious s) (hset : set ∈ measurement.measurerSets) :
    s.shared.measurerSetOutputs.count set ≤ 1 ∧
      (Finished s → s.shared.measurerSetOutputs.count set = 1) := by
  rcases hseparate.exists_owner hset with ⟨t, hprogram, hothers⟩
  have hrecorded := h.recorded
  rcases h with ⟨labels, hrun⟩
  have hown := outputs_own (hseparate.unused set hset) spurious
  have hthread : s.history.filterMap (fun entry =>
      if entry.2.outputs set then some entry.2 else none) =
        (s.executed t).filter (Op.outputs set) := by
    have hhistory := filterMap_history (s := s) (t := t)
      (f := fun op => if op.outputs set then some op else none) fun u op hop hu => by
        simp [Run.not_own_of_mem (hown u) (hothers u hu) hrun hop]
    rw [hhistory]
    exact congrFun List.filterMap_eq_filter _
  rw [hrecorded.outputs, count_outputs, hthread]
  refine ⟨?_, fun hfinished => ?_⟩
  · have hprefix := Run.executed_prefix (hown t) hrun
    rw [hprogram] at hprefix
    exact hprefix.length_le
  · rw [Run.executed_of_code_eq_nil (hown t) hrun (hfinished t), hprogram]
    rfl

/-- In no run is the output of a measurer set added twice, and in the end there is one for the set
of each workload and for the overall set. -/
theorem outputs_complete (hseparate : measurement.SeparateSets)
    (h : Reachable measurement spurious s) :
    (s.shared.measurerSetOutputs.filter (· ∈ measurement.measurerSets)).Subperm
        measurement.measurerSets ∧
      (Finished s → (s.shared.measurerSetOutputs.filter (· ∈ measurement.measurerSets)).Perm
        measurement.measurerSets) := by
  have hcount : ∀ set ∈ measurement.measurerSets,
      (s.shared.measurerSetOutputs.filter (· ∈ measurement.measurerSets)).count set =
        s.shared.measurerSetOutputs.count set := fun set hset => List.count_filter (by simp [hset])
  have hone : ∀ set ∈ measurement.measurerSets, measurement.measurerSets.count set = 1 :=
    fun set hset => List.count_eq_one_of_mem hseparate.nodup hset
  refine ⟨List.subperm_ext_iff.mpr fun set hmem => ?_, fun hfinished => ?_⟩
  · have hset : set ∈ measurement.measurerSets := by simpa using (List.mem_filter.mp hmem).2
    rw [hcount set hset, hone set hset]
    exact (hseparate.count_measurerSetOutputs h hset).1
  · refine List.perm_iff_count.mpr fun set => ?_
    by_cases hset : set ∈ measurement.measurerSets
    · rw [hcount set hset, hone set hset]
      exact (hseparate.count_measurerSetOutputs h hset).2 hfinished
    · rw [List.count_eq_zero_of_not_mem hset]
      exact List.count_eq_zero_of_not_mem fun hmem => hset (by simpa using (List.mem_filter.mp hmem).2)

/-- The steps of the run are all that there is to do. -/
theorem twoWorkloads_finished : ∃ s, Reachable twoWorkloads false s ∧ Finished s := by
  have hany : (exec (Threads.step (semantics twoWorkloads false))
      (Threads.start (program twoWorkloads) initialShared) twoWorkloadsLabels).toOption.any
        (fun s => [.main, .workload 0, .workload 1].all fun t => (s.code t).isEmpty) = true := by
    decide +kernel
  cases hexec : exec (Threads.step (semantics twoWorkloads false))
      (Threads.start (program twoWorkloads) initialShared) twoWorkloadsLabels with
  | error e =>
      rw [hexec] at hany
      cases hany
  | ok s =>
      rw [hexec] at hany
      have hrun := run_iff_exec.mpr hexec
      refine ⟨s, ⟨_, hrun⟩, fun t => ?_⟩
      have hdone : ∀ t ∈ [Thread.main, .workload 0, .workload 1], s.code t = [] := fun t ht =>
        List.isEmpty_iff.mp (List.all_eq_true.mp hany t ht)
      by_cases ht : t ∈ [Thread.main, .workload 0, .workload 1]
      · exact hdone t ht
      · simp only [List.mem_cons, List.not_mem_nil, or_false, not_or] at ht
        have hidle : s.code t = program twoWorkloads t := by
          refine Run.code_eq ?_ ?_ hrun
          · simp [twoWorkloadsLabels, ht]
          · simp [twoWorkloadsLabels]
        rw [hidle]
        cases t with
        | main => exact absurd rfl ht.1
        | workload w =>
            refine if_neg fun hw => ?_
            simp only [twoWorkloads, List.mem_cons, List.not_mem_nil, or_false] at hw
            rcases hw with rfl | rfl
            · exact ht.2.1 rfl
            · exact ht.2.2 rfl

/-- After the first output not all sets have one; at the end each has one. -/
theorem twoWorkloads_outputs : ∃ s, Reachable twoWorkloads false s ∧
    s.shared.measurerSetOutputs.length = 1 ∧
      (s.shared.measurerSetOutputs.filter (· ∈ twoWorkloads.measurerSets)).Subperm
        twoWorkloads.measurerSets ∧
      ∃ s', Reachable twoWorkloads false s' ∧ Finished s' ∧
        (s'.shared.measurerSetOutputs.filter (· ∈ twoWorkloads.measurerSets)).Perm
          twoWorkloads.measurerSets := by
  have hseparate : twoWorkloads.SeparateSets := ⟨by decide, fun set _ => twoWorkloads_unused set⟩
  rcases exists_reachable twoWorkloads false (twoWorkloadsLabels.take 111)
    (fun s => s.shared.measurerSetOutputs.length = 1) (by decide +kernel) with ⟨s, hs, hlength⟩
  rcases twoWorkloads_finished with ⟨s', hs', hfinished⟩
  exact ⟨s, hs, of_decide_eq_true hlength, (outputs_complete hseparate hs).1, s', hs', hfinished,
    (outputs_complete hseparate hs').2 hfinished⟩

end Outputs

end MeasurementRun
end ChildProcess
end Roofline
