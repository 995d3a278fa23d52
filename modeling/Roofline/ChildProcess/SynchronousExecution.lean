import Roofline.ChildProcess.Barrier

/-!
# Executing an action synchronously

{lit}`ActionBase::execute` hands a helper action to the thread on which the action is to be
executed, and waits at the barrier of the helper, which opens it after it has executed the action.
The helper is executed directly where no other thread is required, and is parked in the workload as
long as this has no thread.  The model has any number of calls, each with a barrier of its own.

Main results:

- Theorem {lit}`KeepsHelpers.step`: what is kept as long as no caller wakes up spuriously.
- Theorem {lit}`synchronous_iff`: exactly in these runs {lit}`execute` returns only after the
  action has been executed on its thread and the barrier has been opened.
- Theorem {lit}`waits_iff`: the same for the barrier alone, with any number of threads.
-/

namespace Roofline
namespace ChildProcess
namespace SynchronousExecution

open Runs
open Barrier (Consistent NotSpurious ReturnsAfterOpen)

/-! ## States and steps -/

section Model

variable (Thread Workload Call : Type)

/-- The fields of an action that restrict the thread on which it is executed. -/
structure Action where
  workload : Option Workload
  tid : Option Thread

/-- The calls of {lit}`execute`: who makes them, for which actions. -/
structure Calls where
  caller : Call → Thread
  action : Call → Action Thread Workload

/-- Where {lit}`startExecute` leaves the helper. -/
inductive Place
  | here
  | workload (w : Workload)
  | thread (t : Thread)

/-- Where the caller is: it executes the helper itself, or {lit}`startExecute` has returned. -/
inductive Phase
  | notStarted
  | executing
  | started
  | waited

/-- Where each call is, its barrier, and the queues of workloads and threads. -/
structure State where
  phase : Call → Phase
  /-- The thread on which the inner action has been executed. -/
  executedOn : Call → Option Thread
  barrier : Call → Barrier.State Unit
  childThread : Workload → Option Thread
  workloadQueue : Workload → List Call
  threadQueue : Thread → List Call

/-- The steps of the calls, and the start of a thread. -/
inductive Label
  | startExecute (c : Call)
  | startInThread (w : Workload) (t : Thread)
  | executeDirect (c : Call)
  | process (t : Thread)
  | open (c : Call)
  | waitIfClosed (c : Call)
  | wakeUp (c : Call)
  | spuriousWakeUp (c : Call)

end Model

variable {Thread Workload Call : Type}

/-- No call has been made and no thread has started. -/
def initial : State Thread Workload Call where
  phase _ := .notStarted
  executedOn _ := none
  barrier _ := Barrier.initial
  childThread _ := none
  workloadQueue _ := []
  threadQueue _ := []

section Step

variable [DecidableEq Thread]

/-- The tests of {lit}`startExecute`. -/
def Action.place (action : Action Thread Workload) (childThread : Workload → Option Thread)
    (caller : Thread) : Place Thread Workload :=
  match action.workload with
  | some w =>
      match childThread w with
      | none => .workload w
      | some t => if t = caller then .here else .thread t
  | none =>
      match action.tid with
      | some t => if t = caller then .here else .thread t
      | none => .here

variable [DecidableEq Workload] [DecidableEq Call] (calls : Calls Thread Workload Call)

/-- A step of the barrier of a call. -/
def State.barrierStep (s : State Thread Workload Call) (c : Call) (label : Barrier.Label Unit) :
    Except Blocked (State Thread Workload Call) := do
  let barrier ← Barrier.step (s.barrier c) label
  return { s with barrier := Function.update s.barrier c barrier }

/-- A call goes on to a phase. -/
def State.setPhase (s : State Thread Workload Call) (c : Call) (phase : Phase) :
    State Thread Workload Call :=
  { s with phase := Function.update s.phase c phase }

/-- The inner action of a call has been executed on a thread. -/
def State.setExecuted (s : State Thread Workload Call) (c : Call) (t : Thread) :
    State Thread Workload Call :=
  { s with executedOn := Function.update s.executedOn c (some t) }

omit [DecidableEq Thread] [DecidableEq Workload] in
/-- The phases after one has been set. -/
@[simp] theorem phase_setPhase (s : State Thread Workload Call) (c : Call) (phase : Phase) :
    (s.setPhase c phase).phase = Function.update s.phase c phase :=
  rfl

omit [DecidableEq Thread] [DecidableEq Workload] in
/-- Where actions were executed after one more was. -/
@[simp] theorem executedOn_setExecuted (s : State Thread Workload Call) (c : Call) (t : Thread) :
    (s.setExecuted c t).executedOn = Function.update s.executedOn c (some t) :=
  rfl

/-- One step; a step whose call or thread is somewhere else is blocked. -/
def step (s : State Thread Workload Call) :
    Label Thread Workload Call → Except Blocked (State Thread Workload Call)
  | .startExecute c =>
      match s.phase c with
      | .notStarted =>
          match (calls.action c).place s.childThread (calls.caller c) with
          | .here => .ok (s.setPhase c .executing)
          | .workload w => .ok { s.setPhase c .started with
              workloadQueue := Function.update s.workloadQueue w (s.workloadQueue w ++ [c]) }
          | .thread t => .ok { s.setPhase c .started with
              threadQueue := Function.update s.threadQueue t (s.threadQueue t ++ [c]) }
      | _ => .error .blocked
  | .startInThread w t =>
      match s.childThread w with
      | none => .ok { s with
          childThread := Function.update s.childThread w (some t)
          workloadQueue := Function.update s.workloadQueue w []
          threadQueue := Function.update s.threadQueue t (s.threadQueue t ++ s.workloadQueue w) }
      | some _ => .error .blocked
  | .executeDirect c =>
      match s.phase c with
      | .executing => .ok (s.setExecuted c (calls.caller c))
      | _ => .error .blocked
  | .process t =>
      match s.threadQueue t with
      | c :: queue => .ok { s.setExecuted c t with
          threadQueue := Function.update s.threadQueue t queue }
      | [] => .error .blocked
  | .open c =>
      match s.executedOn c, s.phase c with
      | none, _ => .error .blocked
      -- the caller has executed the helper itself
      | some _, .executing => (s.setPhase c .started).barrierStep c .open
      | some _, _ => s.barrierStep c .open
  | .waitIfClosed c =>
      match s.phase c with
      | .started => (s.setPhase c .waited).barrierStep c (.waitImp () false)
      | _ => .error .blocked
  | .wakeUp c => s.barrierStep c (.wakeUp ())
  | .spuriousWakeUp c => s.barrierStep c (.spuriousWakeUp ())

/-- What each step does, and when it can be made.  The helper has been executed before its barrier
is opened. -/
inductive Steps (s : State Thread Workload Call) :
    Label Thread Workload Call → State Thread Workload Call → Prop
  | here {c : Call} (hplace : (calls.action c).place s.childThread (calls.caller c) = .here) :
      Steps s (.startExecute c) (s.setPhase c .executing)
  | park {c : Call} {w : Workload}
      (hplace : (calls.action c).place s.childThread (calls.caller c) = .workload w) :
      Steps s (.startExecute c) { s.setPhase c .started with
        workloadQueue := Function.update s.workloadQueue w (s.workloadQueue w ++ [c]) }
  | queue {c : Call} {t : Thread}
      (hplace : (calls.action c).place s.childThread (calls.caller c) = .thread t) :
      Steps s (.startExecute c) { s.setPhase c .started with
        threadQueue := Function.update s.threadQueue t (s.threadQueue t ++ [c]) }
  | startInThread {w : Workload} {t : Thread} (hchild : s.childThread w = none) :
      Steps s (.startInThread w t) { s with
        childThread := Function.update s.childThread w (some t)
        workloadQueue := Function.update s.workloadQueue w []
        threadQueue := Function.update s.threadQueue t (s.threadQueue t ++ s.workloadQueue w) }
  | executeDirect {c : Call} (hphase : s.phase c = .executing) :
      Steps s (.executeDirect c) (s.setExecuted c (calls.caller c))
  | process {t : Thread} {c : Call} {queue : List Call} (hqueue : s.threadQueue t = c :: queue) :
      Steps s (.process t) { s.setExecuted c t with
        threadQueue := Function.update s.threadQueue t queue }
  | barrier {label : Label Thread Workload Call} {c : Call} {phase : Call → Phase}
      {barrierLabel : Barrier.Label Unit} {barrier : Barrier.State Unit}
      (hstep : Barrier.Steps (s.barrier c) barrierLabel barrier)
      (hphase : ∀ other, phase other = .executing → s.phase other = .executing)
      (hopen : barrierLabel = .open → s.executedOn c ≠ none)
      (hspurious : ∀ other, label = .spuriousWakeUp other ↔
        other = c ∧ barrierLabel = .spuriousWakeUp ()) :
      Steps s label { s with
        phase := phase
        barrier := Function.update s.barrier c barrier }

variable {calls} {s s' : State Thread Workload Call}

omit [DecidableEq Thread] [DecidableEq Workload] in
/-- A step of the barrier of a call is a step of that barrier and of nothing else. -/
theorem barrierStep_eq_ok {c : Call} {label : Barrier.Label Unit}
    (h : s.barrierStep c label = .ok s') : ∃ barrier, Barrier.Steps (s.barrier c) label barrier ∧
      s' = { s with barrier := Function.update s.barrier c barrier } := by
  unfold State.barrierStep at h
  cases hstep : Barrier.step (s.barrier c) label with
  | error e =>
      rw [hstep] at h
      cases h
  | ok barrier =>
      rw [hstep] at h
      cases h
      exact ⟨barrier, Barrier.step_eq_ok_iff.mp hstep, rfl⟩

omit [DecidableEq Thread] [DecidableEq Workload] in
/-- A caller that goes on is no longer executing the helper. -/
theorem executing_of_setPhase {c other : Call} {phase : Phase} (hphase : phase ≠ .executing)
    (h : (s.setPhase c phase).phase other = .executing) : s.phase other = .executing := by
  by_cases hsame : other = c
  · subst hsame
    exact absurd (h.symm.trans (Function.update_self _ _ _)) hphase.symm
  · rwa [phase_setPhase, Function.update_of_ne hsame] at h

/-- The step function takes steps of the relation. -/
theorem steps_of_step {label : Label Thread Workload Call} (h : step calls s label = .ok s') :
    Steps calls s label s' := by
  cases label with
  | startExecute c =>
      simp only [step] at h
      split at h
      · split at h
        · rename_i hplace
          cases h
          exact .here hplace
        · rename_i hplace
          cases h
          exact .park hplace
        · rename_i hplace
          cases h
          exact .queue hplace
      · cases h
  | startInThread w t =>
      simp only [step] at h
      split at h
      · rename_i hchild
        cases h
        exact .startInThread hchild
      · cases h
  | executeDirect c =>
      simp only [step] at h
      split at h
      · rename_i hphase
        cases h
        exact .executeDirect hphase
      · cases h
  | process t =>
      simp only [step] at h
      split at h
      · rename_i hqueue
        cases h
        exact .process hqueue
      · cases h
  | «open» c =>
      simp only [step] at h
      split at h
      · cases h
      · rename_i hexecuted hphase
        rcases barrierStep_eq_ok h with ⟨barrier, hstep, rfl⟩
        exact .barrier hstep (fun _ => executing_of_setPhase (by simp))
          (fun _ => by simp [hexecuted]) (by simp)
      · rename_i hexecuted _
        rcases barrierStep_eq_ok h with ⟨barrier, hstep, rfl⟩
        exact .barrier hstep (fun _ => id) (fun _ => by simp [hexecuted]) (by simp)
  | waitIfClosed c =>
      simp only [step] at h
      split at h
      · rcases barrierStep_eq_ok h with ⟨barrier, hstep, rfl⟩
        exact .barrier hstep (fun _ => executing_of_setPhase (by simp)) (by simp) (by simp)
      · cases h
  | wakeUp c =>
      rcases barrierStep_eq_ok h with ⟨barrier, hstep, rfl⟩
      exact .barrier hstep (fun _ => id) (by simp) (by simp)
  | spuriousWakeUp c =>
      rcases barrierStep_eq_ok h with ⟨barrier, hstep, rfl⟩
      exact .barrier hstep (fun _ => id) (by simp) (by simp [eq_comm])

end Step

/-! ## The thread of an action -/

section Keeping

variable (calls : Calls Thread Workload Call)

/-- The action of the call may be executed on the thread: on that of its workload, if it has one,
or else on the one with its tid, if it has one. -/
def State.IsItsThread (s : State Thread Workload Call) (c : Call) (t : Thread) : Prop :=
  match (calls.action c).workload with
  | some w => s.childThread w = some t
  | none => ∀ tid, (calls.action c).tid = some tid → tid = t

/-- A helper is where it will be executed on the thread of its action, and its barrier is opened
after that. -/
structure KeepsHelpers (s : State Thread Workload Call) : Prop where
  consistent : ∀ c, Consistent (s.barrier c)
  opened : ∀ c, (s.barrier c).barrierClosed = false → s.executedOn c ≠ none
  executed : ∀ c t, s.executedOn c = some t → s.IsItsThread calls c t
  queued : ∀ t, ∀ c ∈ s.threadQueue t, s.IsItsThread calls c t
  parked : ∀ w, ∀ c ∈ s.workloadQueue w, (calls.action c).workload = some w
  executing : ∀ c, s.phase c = .executing → s.IsItsThread calls c (calls.caller c)

/-- No caller wakes up spuriously. -/
def NotSpuriously (s : State Thread Workload Call) : Label Thread Workload Call → Prop
  | .spuriousWakeUp c => NotSpurious (s.barrier c) (.spuriousWakeUp ())
  | _ => True

/-- A call has returned only if its barrier has been opened and the action has been executed on
its thread. -/
def ReturnsAfterExecution (s : State Thread Workload Call) : Prop :=
  ∀ c, (s.barrier c).returned ≠ [] → (s.barrier c).barrierClosed = false ∧
    ∃ t, s.executedOn c = some t ∧ s.IsItsThread calls c t

variable {calls} {s s' : State Thread Workload Call}

/-- The invariant holds before the first call. -/
theorem keepsHelpers_initial :
    KeepsHelpers calls (initial : State Thread Workload Call) where
  consistent _ := Barrier.consistent_initial
  opened c h := by cases h
  executed c t h := by cases h
  queued t c h := by cases h
  parked w c h := by cases h
  executing c h := by cases h

/-- By the invariant, a call that has returned was executed before. -/
theorem KeepsHelpers.returnsAfterExecution (h : KeepsHelpers calls s) :
    ReturnsAfterExecution calls s := by
  intro c hreturned
  have hopen := (h.consistent c).returned hreturned
  rcases Option.ne_none_iff_exists'.mp (h.opened c hopen) with ⟨t, ht⟩
  exact ⟨hopen, t, ht, h.executed c t ht⟩

variable [DecidableEq Thread]

/-- Where the tests of {lit}`startExecute` lead. -/
theorem isItsThread_of_place {c : Call} :
    ((calls.action c).place s.childThread (calls.caller c) = .here →
      s.IsItsThread calls c (calls.caller c)) ∧
    (∀ t, (calls.action c).place s.childThread (calls.caller c) = .thread t →
      s.IsItsThread calls c t) ∧
    ∀ w, (calls.action c).place s.childThread (calls.caller c) = .workload w →
      (calls.action c).workload = some w := by
  unfold Action.place State.IsItsThread
  cases hworkload : (calls.action c).workload with
  | some w =>
      cases hchild : s.childThread w with
      | none => simp [hchild]
      | some t =>
          by_cases hcaller : t = calls.caller c
          · simp [hchild, hcaller]
          · simp [hchild, hcaller]
  | none =>
      cases htid : (calls.action c).tid with
      | none => simp
      | some t =>
          by_cases hcaller : t = calls.caller c
          · simp [hcaller]
          · simp [hcaller]

variable [DecidableEq Workload] [DecidableEq Call] {label : Label Thread Workload Call}

omit [DecidableEq Thread] [DecidableEq Call] in
/-- A workload keeps its thread. -/
theorem isItsThread_startInThread {w : Workload} {t : Thread} (hchild : s.childThread w = none)
    {c : Call} {other : Thread} (h : s.IsItsThread calls c other)
    (hsame : s'.childThread = Function.update s.childThread w (some t)) :
    s'.IsItsThread calls c other := by
  unfold State.IsItsThread at h ⊢
  cases hworkload : (calls.action c).workload with
  | none =>
      rw [hworkload] at h
      exact h
  | some v =>
      rw [hworkload] at h
      have hne : v ≠ w := by
        rintro rfl
        have hsome : s.childThread v = some other := h
        rw [hchild] at hsome
        cases hsome
      change s'.childThread v = some other
      rw [hsame, Function.update_of_ne hne]
      exact h

omit [DecidableEq Thread] [DecidableEq Workload] in
/-- An action has been executed on its thread. -/
theorem KeepsHelpers.setExecuted (h : KeepsHelpers calls s) {c : Call} {t : Thread}
    (hthread : s.IsItsThread calls c t) : KeepsHelpers calls (s.setExecuted c t) where
  consistent := h.consistent
  opened other hopen := by
    by_cases hsame : other = c
    · subst hsame
      simp
    · rw [executedOn_setExecuted, Function.update_of_ne hsame]
      exact h.opened other hopen
  executed other thread hexecuted := by
    rw [executedOn_setExecuted] at hexecuted
    by_cases hsame : other = c
    · subst hsame
      rw [Function.update_self] at hexecuted
      cases hexecuted
      exact hthread
    · rw [Function.update_of_ne hsame] at hexecuted
      exact h.executed other thread hexecuted
  queued := h.queued
  parked := h.parked
  executing := h.executing

omit [DecidableEq Call] in
/-- The start of a thread keeps the invariant. -/
theorem KeepsHelpers.startInThread (h : KeepsHelpers calls s) {w : Workload} {t : Thread}
    (hchild : s.childThread w = none) :
    KeepsHelpers calls { s with
      childThread := Function.update s.childThread w (some t)
      workloadQueue := Function.update s.workloadQueue w []
      threadQueue := Function.update s.threadQueue t (s.threadQueue t ++ s.workloadQueue w) } where
  consistent := h.consistent
  opened := h.opened
  executed c other hexecuted :=
    isItsThread_startInThread hchild (h.executed c other hexecuted) rfl
  queued other c hc := by
    by_cases hsame : other = t
    · subst hsame
      change c ∈ Function.update s.threadQueue other _ other at hc
      rw [Function.update_self] at hc
      rcases List.mem_append.mp hc with hqueued | hparked
      · exact isItsThread_startInThread hchild (h.queued other c hqueued) rfl
      · have hworkload := h.parked w c hparked
        unfold State.IsItsThread
        rw [hworkload]
        exact Function.update_self _ _ _
    · change c ∈ Function.update s.threadQueue t _ other at hc
      rw [Function.update_of_ne hsame] at hc
      exact isItsThread_startInThread hchild (h.queued other c hc) rfl
  parked v c hc := by
    change c ∈ Function.update s.workloadQueue w [] v at hc
    by_cases hsame : v = w
    · subst hsame
      rw [Function.update_self] at hc
      cases hc
    · rw [Function.update_of_ne hsame] at hc
      exact h.parked v c hc
  executing c hphase := isItsThread_startInThread hchild (h.executing c hphase) rfl

/-- Every step that is no spurious wake-up keeps the invariant. -/
theorem KeepsHelpers.step (h : KeepsHelpers calls s) (hpermitted : NotSpuriously s label)
    (hstep : Steps calls s label s') : KeepsHelpers calls s' := by
  cases hstep with
  | @here c hplace =>
      refine ⟨h.consistent, h.opened, h.executed, h.queued, h.parked, fun other hother => ?_⟩
      by_cases hsame : other = c
      · subst hsame
        exact isItsThread_of_place.1 hplace
      · rw [phase_setPhase, Function.update_of_ne hsame] at hother
        exact h.executing other hother
  | @park c w hplace =>
      refine ⟨h.consistent, h.opened, h.executed, h.queued, fun v other hother => ?_,
        fun other hother => h.executing other (executing_of_setPhase (by simp) hother)⟩
      change other ∈ Function.update s.workloadQueue w _ v at hother
      by_cases hsame : v = w
      · subst hsame
        rw [Function.update_self] at hother
        rcases List.mem_append.mp hother with hold | hnew
        · exact h.parked v other hold
        · rw [List.mem_singleton.mp hnew]
          exact isItsThread_of_place.2.2 v hplace
      · rw [Function.update_of_ne hsame] at hother
        exact h.parked v other hother
  | @queue c t hplace =>
      refine ⟨h.consistent, h.opened, h.executed, fun thread other hother => ?_, h.parked,
        fun other hother => h.executing other (executing_of_setPhase (by simp) hother)⟩
      change other ∈ Function.update s.threadQueue t _ thread at hother
      by_cases hsame : thread = t
      · subst hsame
        rw [Function.update_self] at hother
        rcases List.mem_append.mp hother with hold | hnew
        · exact h.queued thread other hold
        · rw [List.mem_singleton.mp hnew]
          exact isItsThread_of_place.2.1 thread hplace
      · rw [Function.update_of_ne hsame] at hother
        exact h.queued thread other hother
  | startInThread hchild => exact h.startInThread hchild
  | executeDirect hphase => exact h.setExecuted (h.executing _ hphase)
  | @process t c queue hqueue =>
      have hkeeps := h.setExecuted (h.queued t c (hqueue ▸ List.mem_cons_self))
      refine ⟨hkeeps.consistent, hkeeps.opened, hkeeps.executed, fun thread other hother => ?_,
        hkeeps.parked, hkeeps.executing⟩
      change other ∈ Function.update s.threadQueue t queue thread at hother
      by_cases hsame : thread = t
      · subst hsame
        rw [Function.update_self] at hother
        exact h.queued thread other (hqueue ▸ List.mem_cons_of_mem _ hother)
      · rw [Function.update_of_ne hsame] at hother
        exact h.queued thread other hother
  | @barrier _ c phase barrierLabel barrier hbarrier hphase hopen hspurious =>
      have hnot : NotSpurious (s.barrier c) barrierLabel := by
        cases barrierLabel with
        | spuriousWakeUp =>
            rw [(hspurious c).mpr ⟨rfl, rfl⟩] at hpermitted
            exact hpermitted
        | _ => trivial
      refine ⟨fun other => ?_, fun other hother => ?_, h.executed, h.queued, h.parked,
        fun other hother => h.executing other (hphase other hother)⟩
      · change Consistent (Function.update s.barrier c barrier other)
        by_cases hsame : other = c
        · subst hsame
          rw [Function.update_self]
          exact (h.consistent other).step hnot hbarrier
        · rw [Function.update_of_ne hsame]
          exact h.consistent other
      · change (Function.update s.barrier c barrier other).barrierClosed = false at hother
        by_cases hsame : other = c
        · subst hsame
          rw [Function.update_self] at hother
          by_cases hlabel : barrierLabel = .open
          · exact hopen hlabel
          · rw [Barrier.barrierClosed_of_steps hbarrier hlabel] at hother
            exact h.opened other hother
        · rw [Function.update_of_ne hsame] at hother
          exact h.opened other hother

/-- A caller that wakes up spuriously returns although its barrier is closed. -/
theorem KeepsHelpers.not_returnsAfterExecution (h : KeepsHelpers calls s)
    (hspuriously : ¬NotSpuriously s label) (hstep : Steps calls s label s') :
    ¬ReturnsAfterExecution calls s' := by
  intro hafter
  cases label with
  | spuriousWakeUp other =>
      cases hstep with
      | @barrier _ c phase barrierLabel barrier hbarrier hphase hopen hspurious =>
          rcases (hspurious other).mp rfl with ⟨rfl, rfl⟩
          have hwoken : ¬NotSpurious (s.barrier other) (.spuriousWakeUp ()) := hspuriously
          rcases (h.consistent other).closed_of_spurious hwoken hbarrier with
            ⟨hreturned, hclosed⟩
          have hopened := hafter other
          change (Function.update s.barrier other barrier other).returned ≠ [] →
            (Function.update s.barrier other barrier other).barrierClosed = false ∧ _ at hopened
          rw [Function.update_self] at hopened
          rw [(hopened hreturned).1] at hclosed
          cases hclosed
  | _ => exact hspuriously trivial

end Keeping

/-! ## Every schedule -/

section Schedules

variable [DecidableEq Thread] [DecidableEq Workload] [DecidableEq Call]

/-- Exactly in the runs in which no caller wakes up spuriously, {lit}`execute` returns only after
the action has been executed on its thread and the barrier has been opened. -/
theorem synchronous_iff {calls : Calls Thread Workload Call} {s : State Thread Workload Call}
    {schedule : List (Label Thread Workload Call)}
    (hrun : Run (step calls) initial schedule s) :
    Visits (step calls) initial schedule (fun _ => ReturnsAfterExecution calls) ↔
      StepsMeet (step calls) initial (fun _ => NotSpuriously) schedule := by
  refine Run.visits_iff_stepsMeet (P := fun _ => KeepsHelpers calls) keepsHelpers_initial
    ?_ ?_ ?_ hrun
  · exact fun _ _ _ _ _ h hpermitted hstep => h.step hpermitted (steps_of_step hstep)
  · exact fun _ _ h => h.returnsAfterExecution
  · exact fun _ _ _ _ h hspurious hstep =>
      h.not_returnsAfterExecution hspurious (steps_of_step hstep)

/-- Any number of threads wait for a barrier, and any number of calls for their actions. -/
theorem waits_iff (calls : Calls Thread Workload Call) :
    (∀ (schedule : List (Barrier.Label Thread)) (s : Barrier.State Thread),
      Run Barrier.step Barrier.initial schedule s →
        (Visits Barrier.step Barrier.initial schedule ReturnsAfterOpen ↔
          StepsMeet Barrier.step Barrier.initial (fun _ => NotSpurious) schedule)) ∧
    ∀ (schedule : List (Label Thread Workload Call)) (s : State Thread Workload Call),
      Run (step calls) initial schedule s →
        (Visits (step calls) initial schedule (fun _ => ReturnsAfterExecution calls) ↔
          StepsMeet (step calls) initial (fun _ => NotSpuriously) schedule) :=
  ⟨fun _ _ => Barrier.returnsAfterOpen_iff, fun _ _ => synchronous_iff⟩

/-- Thread 1 executes an action that is restricted to thread 2. -/
def oneCall : Calls Nat Unit Unit where
  caller _ := 1
  action _ := ⟨none, some 2⟩

/-- A call for the thread of another workload that has to wait. -/
theorem waits_oneCall :
    Visits (step oneCall) initial
      [.startExecute (), .waitIfClosed (), .process 2, .open (), .wakeUp ()]
      (fun _ => ReturnsAfterExecution oneCall) := by
  refine ((waits_iff oneCall).2 _ _ (run_iff_exec.mpr rfl)).mpr ?_
  intro before label after s hsplit _
  have hmem : label ∈ before ++ label :: after := by simp
  rw [← hsplit] at hmem
  simp only [List.mem_cons, List.not_mem_nil, or_false] at hmem
  rcases hmem with rfl | rfl | rfl | rfl | rfl <;> trivial

/-- Thread 1 wakes up spuriously while the helper is still queued. -/
theorem not_returnsAfterExecution_oneCall :
    ∃ s, Run (step oneCall) initial
        [.startExecute (), .waitIfClosed (), .spuriousWakeUp ()] s ∧
      (s.barrier ()).returned = [()] ∧ s.executedOn () = none ∧ s.threadQueue 2 = [()] :=
  ⟨_, run_iff_exec.mpr rfl, rfl, rfl, rfl⟩

end Schedules

end SynchronousExecution
end ChildProcess
end Roofline
