import Roofline.ChildProcess.WorkloadOrder

/-!
# ExpTime1MeasurementController

The execution time of a kernel is measured while the system is loaded by other workloads.  These
run until the main workload has stopped, and the main workload waits for them when it starts: but
the action waits until a kernel has stopped, not until it has started.

Main results:

- Theorem {lit}`mainKernel_never_run`: with any load, the run of the measurement does not get to
  the kernel that is to be measured, and does not come to an end.
-/

namespace Roofline
namespace ExpTime1MeasurementController

open Runs Threads ChildProcess.MeasurementRun

/-- {lit}`SystemLoad` -/
inductive SystemLoad
  | idle
  | diskOther
  | diskAll
  | addOther
  | addAll
deriving DecidableEq

/-- The kernels that are used, with what is set in them. -/
inductive Kernel
  | diskIoKernel (fileSize iterations : Int)
  | arithmeticKernel (operation optimization : String) (iterations : Int) (runUntilStopped : Bool)

/-- {lit}`run` of the kernel goes on as long as {lit}`isKeepRunning()`. -/
def Kernel.endless : Kernel → Bool
  | diskIoKernel _ iterations => iterations = -1
  | arithmeticKernel _ _ _ runUntilStopped => runUntilStopped

/-- A workload, with its CPU and its kernel. -/
structure Workload where
  cpu : Int
  kernel : Kernel

/-- The error of {lit}`tail`. -/
inductive Error
  | emptyTail

/-- {lit}`IterableUtils.tail` -/
def tail : List Int → Except Error (List Int)
  | [] => .error .emptyTail
  | _ :: rest => .ok rest

/-- {lit}`createDiskIoWorkloads`: one for each CPU. -/
def createDiskIoWorkloads (cpus : List Int) : List Workload :=
  cpus.map fun cpu => ⟨cpu, .diskIoKernel (1024 * 1024 * 2) (-1)⟩

/-- {lit}`createAddWorkloads`: one for each CPU, with the default number of iterations. -/
def createAddWorkloads (cpus : List Int) : List Workload :=
  cpus.map fun cpu => ⟨cpu, .arithmeticKernel "ArithmeticOperation_ADD" "-O3" 10000 true⟩

/-- {lit}`createWorkloads` for the online CPUs. -/
def createWorkloads (cpus : List Int) : SystemLoad → Except Error (List Workload)
  | .addAll => .ok (createAddWorkloads cpus)
  | .addOther => createAddWorkloads <$> tail cpus
  | .diskAll => .ok (createDiskIoWorkloads cpus)
  | .diskOther => createDiskIoWorkloads <$> tail cpus
  | .idle => .ok []

/-- The workload that is measured, whose CPU is not set. -/
def mainWorkload (iterations : Int) : Workload :=
  ⟨-1, .arithmeticKernel "ArithmeticOperation_ADD" "-O3" iterations false⟩

/-- The measurement as the child process gets it.  The workloads for the load come first, and so
do the stop rules; each workload and its kernel have the same number. -/
def createMeasurement (systemLoadWorkloads : List Workload) (iterations : Int)
    (measurerSet : MeasurerSet) : Measurement :=
  let n := systemLoadWorkloads.length
  let workloads := systemLoadWorkloads ++ [mainWorkload iterations]
  { workloads := List.range (n + 1)
    workloads_nodup := List.nodup_range
    workload w := { kernel := w, measurerSet := if w = n then measurerSet else ⟨w, none, [], []⟩ }
    kernel k := {
      warmCode := false
      warmData := false
      endless := (workloads[k]?.map fun workload => workload.kernel.endless).getD false }
    action a := {
      kind := if a < n then .stopKernel a else .waitForWorkload (some (a - n))
      workload := none }
    rules :=
      (List.range n).map (fun i => ⟨.workloadEventPredicate (some n) .stop, i⟩) ++
        (List.range n).map fun i => ⟨.workloadEventPredicate (some n) .start, n + i⟩
    overallMeasurerSet := none
    configurators := [] }

section Measurement

variable {cpus : List Int} {systemLoad : SystemLoad} {systemLoadWorkloads : List Workload}
  {iterations : Int} {measurerSet : MeasurerSet} {s : State}

/-- All workloads for the load run until they are stopped. -/
theorem createWorkloads_endless (h : createWorkloads cpus systemLoad = .ok systemLoadWorkloads) :
    ∀ workload ∈ systemLoadWorkloads, workload.kernel.endless = true := by
  have hdisk : ∀ cpus, ∀ workload ∈ createDiskIoWorkloads cpus,
      workload.kernel.endless = true := by
    simp [createDiskIoWorkloads, Kernel.endless]
  have hadd : ∀ cpus, ∀ workload ∈ createAddWorkloads cpus, workload.kernel.endless = true := by
    simp [createAddWorkloads, Kernel.endless]
  cases systemLoad with
  | idle =>
      cases h
      simp
  | diskAll =>
      cases h
      exact hdisk cpus
  | addAll =>
      cases h
      exact hadd cpus
  | diskOther =>
      cases cpus with
      | nil => cases h
      | cons cpu cpus =>
          cases h
          exact hdisk cpus
  | addOther =>
      cases cpus with
      | nil => cases h
      | cons cpu cpus =>
          cases h
          exact hadd cpus

/-- The kernel of a workload for the load is stopped at the end of the main workload only. -/
theorem event_of_stopKernel {a k : Nat} {event : Event}
    (hkind : ((createMeasurement systemLoadWorkloads iterations measurerSet).action a).kind =
      .stopKernel k)
    (htriggers : Triggers (createMeasurement systemLoadWorkloads iterations measurerSet) event a) :
    event = .workloadEvent systemLoadWorkloads.length .stop := by
  have hstop : a < systemLoadWorkloads.length := by
    by_contra hnot
    simp [createMeasurement, hnot] at hkind
  cases htriggers with
  | @rule rule hrule hmatch =>
      rcases List.mem_append.mp hrule with hmem | hmem
      · rcases List.mem_map.mp hmem with ⟨i, _, rfl⟩
        exact doesMatch_workload_iff.mp hmatch
      · rcases List.mem_map.mp hmem with ⟨i, _, rfl⟩
        exact absurd hstop (by simp)
  | @inner b _ set hb hinner =>
      by_cases hsmall : b < systemLoadWorkloads.length
      · simp [createMeasurement, hsmall] at hinner
      · simp [createMeasurement, hsmall] at hinner

/-- The main workload waits at its start for all workloads for the load. -/
theorem mainKernel_after_load {v : Nat} (hv : v < systemLoadWorkloads.length)
    (hs : Reachable (createMeasurement systemLoadWorkloads iterations measurerSet) false s) :
    HappensBefore s.history (.workload v, .dispatchEvent (.workloadEvent v .kernelStop))
      (.workload systemLoadWorkloads.length, .kernel systemLoadWorkloads.length .run) := by
  let n := systemLoadWorkloads.length
  have hrule : (⟨.workloadEventPredicate (some n) .start, n + v⟩ : Rule) ∈
      (createMeasurement systemLoadWorkloads iterations measurerSet).rules :=
    List.mem_append_right _ (List.mem_map.mpr ⟨v, List.mem_range.mpr hv, rfl⟩)
  refine hs.wait_before hrule (doesMatch_workload_iff.mpr rfl) ?_ rfl
    (isAfter_run n (Or.inl rfl))
  simp [createMeasurement, n]

/-- The kernels of the workloads for the load are not run: each is to be stopped by a workload that
waits for it. -/
theorem loadKernel_never_run (h : createWorkloads cpus systemLoad = .ok systemLoadWorkloads)
    {v : Nat} (hv : v < systemLoadWorkloads.length)
    (hs : Reachable (createMeasurement systemLoadWorkloads iterations measurerSet) false s) :
    (.workload v, .kernel v .run) ∉ s.history := by
  let measurement := createMeasurement systemLoadWorkloads iterations measurerSet
  let n := systemLoadWorkloads.length
  have hendless : (measurement.kernel v).endless = true := by
    have hkernel := createWorkloads_endless h _ (List.getElem_mem hv)
    simp [measurement, createMeasurement, List.getElem?_append_left hv, hv, hkernel]
  have hmem : ∀ w ≤ n, w ∈ measurement.workloads := by
    intro w hw
    exact List.mem_range.mpr (Nat.lt_succ_of_le hw)
  rcases hs with ⟨labels, hrun⟩
  refine (Run.happensBefore ?_ hrun).not_mem
  intro labels s rest result hrun _ heffect
  have hs : Reachable measurement false s := ⟨labels, hrun⟩
  rcases Option.map_eq_some_iff.mp heffect with ⟨shared, hperform, _⟩
  have hstopped : s.shared.keepRunning v = false := by
    by_contra hgoes
    simp [perform, measurement, hendless, hgoes] at hperform
  rcases hs.recorded.stopped v hstopped with ⟨a, event, hkind, htriggers, hdispatched⟩
  obtain rfl := event_of_stopKernel hkind htriggers
  have hmain : HappensBefore s.history (.workload n, .kernel n .run)
      (.workload n, .dispatchEvent (.workloadEvent n .stop)) :=
    hs.run_before_stop (hmem n (Nat.le_refl n)) (Or.inr rfl)
  have hwait : HappensBefore s.history
      (.workload v, .dispatchEvent (.workloadEvent v .kernelStop)) (.workload n, .kernel n .run) :=
    mainKernel_after_load hv hs
  have hload : HappensBefore s.history (.workload v, .kernel v .run)
      (.workload v, .dispatchEvent (.workloadEvent v .kernelStop)) :=
    hs.run_before_stop (hmem v (Nat.le_of_lt hv)) (Or.inl rfl)
  exact hload.mem (hwait.mem (hmain.mem hdispatched))

/-- With any load, the run of the measurement does not get to the kernel that is to be measured, and
it does not come to an end. -/
theorem mainKernel_never_run (h : createWorkloads cpus systemLoad = .ok systemLoadWorkloads)
    (hload : systemLoadWorkloads ≠ [])
    (hs : Reachable (createMeasurement systemLoadWorkloads iterations measurerSet) false s) :
    (.workload systemLoadWorkloads.length, .kernel systemLoadWorkloads.length .run) ∉ s.history ∧
      ¬Finished s := by
  let measurement := createMeasurement systemLoadWorkloads iterations measurerSet
  let n := systemLoadWorkloads.length
  have hv : 0 < n := List.length_pos_of_ne_nil hload
  have hnever := loadKernel_never_run h hv hs
  have hmem : 0 ∈ measurement.workloads := List.mem_range.mpr (Nat.zero_lt_succ n)
  refine ⟨fun hmain => ?_, fun hfinished => ?_⟩
  · have hstop := (mainKernel_after_load hv hs).mem hmain
    exact hnever ((hs.run_before_stop hmem (Or.inl rfl)).mem hstop)
  · rcases hs with ⟨labels, hrun⟩
    have htrace := Run.executed_of_code_eq_nil (isMilestone_own measurement false (.workload 0)) hrun
      (hfinished (.workload 0))
    rw [filter_program hmem] at htrace
    have hrun : Op.kernel 0 .run ∈ (s.executed (.workload 0)).filter Op.isMilestone := by
      rw [htrace]
      simp [threadMilestones, measurement, createMeasurement]
    exact hnever (mem_executed_iff.mp (List.mem_filter.mp hrun).1)

/-- With one disk the main workload waits and the kernel of the other one goes on. -/
theorem diskAll_never_run :
    let measurement := createMeasurement (createDiskIoWorkloads [0]) 1000 ⟨1, some 0, [], []⟩
    ∃ s, Reachable measurement false s ∧
      s.history.contains (.workload 1, .dispatchEvent (.workloadEvent 1 .start)) = true ∧
        (.workload 1, .kernel 1 .run) ∉ s.history ∧ ¬Finished s := by
  rcases exists_reachable (createMeasurement (createDiskIoWorkloads [0]) 1000 ⟨1, some 0, [], []⟩)
    false (List.replicate 9 (.execute .main) ++ List.replicate 20 (.execute (.workload 0)) ++
      List.replicate 14 (.execute (.workload 1)))
    (fun s => s.history.contains (.workload 1, .dispatchEvent (.workloadEvent 1 .start)))
    (by decide +kernel) with ⟨s, hs, hstart⟩
  have hcreate : createWorkloads [0] .diskAll = .ok (createDiskIoWorkloads [0]) := rfl
  exact ⟨s, hs, hstart, mainKernel_never_run hcreate (by simp [createDiskIoWorkloads]) hs⟩

end Measurement

end ExpTime1MeasurementController
end Roofline
