import Mathlib.Data.List.Sort
import Mathlib.Logic.Function.Basic
import Roofline.Library.Runs

/-!
# Creating a measurer on each thread

{lit}`CreateMeasurerOnThreadAction` is to install a measurer on every thread that is not part of
the measurement.  When it is executed, it takes the threads that exist and adds a rule for those
that start later, in one critical section.  A thread that starts is registered in one critical
section and copies the rules that it evaluates in another one.

The model has the threads that start, the workloads that set their child thread, and one
execution of the action; their critical sections interleave.

Main results:

- Theorem {lit}`good_step_iff`: what a thread is due gets wrong in three cases, and stays so.
- Theorem {lit}`instrumentsOnce_iff`: a measurer is installed once on each thread exactly in the
  runs in which none of these cases occurs.
-/

namespace Roofline
namespace ChildProcess
namespace ThreadInstrumentation

open Runs

/-! ## States and steps -/

section Model

variable (Tid : Type)

/-- How far the start of a thread is: it is registered in the thread map, it has copied the rules
(with the rule of the action or without), and it has handled the event. -/
inductive Phase
  | unknown
  | registered
  | copied (withRule : Bool)
  | running
deriving DecidableEq

/-- The execution of the action: the threads that are still to be visited. -/
inductive Execution
  | notExecuted
  | visiting (childThreads : List Tid)

/-- The thread map, where each thread is, and how far the action has come. -/
structure State where
  /-- The thread map, whose keys are ordered. -/
  threadMap : List Tid
  phase : Tid → Phase
  /-- The workload of the thread has set its child thread. -/
  childThreadSet : Tid → Bool
  execution : Execution Tid
  /-- The calls of {lit}`installMeasurer`. -/
  installed : List Tid

/-- The steps of the threads that start, and of the action. -/
inductive Label
  | register (t : Tid)
  | copyRules (t : Tid)
  | handle (t : Tid)
  | setChildThread (t : Tid)
  | getChildThreadsAndAddRule
  | visit

end Model

variable {Tid : Type} [LinearOrder Tid]

/-- The rule of the action has been added. -/
def Execution.ruleAdded : Execution Tid → Bool
  | notExecuted => false
  | visiting _ => true

/-- No thread has started. -/
def initial : State Tid where
  threadMap := []
  phase _ := .unknown
  childThreadSet _ := false
  execution := .notExecuted
  installed := []

/-- The threads of the workloads, and the thread that executes the action. -/
structure Setting (Tid : Type) where
  isWorkloadThread : Tid → Bool
  executor : Tid

/-- The thread is visited without installing a measurer. -/
def skipped (setting : Setting Tid) (s : State Tid) (t : Tid) : Bool :=
  (setting.isWorkloadThread t && s.childThreadSet t) || t = setting.executor

/-- One step; a thread that is not where the step begins is blocked. -/
def step (setting : Setting Tid) (s : State Tid) : Label Tid → Except Blocked (State Tid)
  | .register t =>
      match s.phase t with
      | .unknown => .ok { s with
          threadMap := s.threadMap.orderedInsert (· ≤ ·) t
          phase := Function.update s.phase t .registered }
      | _ => .error .blocked
  | .copyRules t =>
      match s.phase t with
      | .registered => .ok { s with
          phase := Function.update s.phase t (.copied s.execution.ruleAdded) }
      | _ => .error .blocked
  | .handle t =>
      match s.phase t with
      | .copied withRule => .ok { s with
          phase := Function.update s.phase t .running
          -- the rule executes the action for the thread of the event
          installed := if withRule then s.installed ++ [t] else s.installed }
      | _ => .error .blocked
  | .setChildThread t =>
      if setting.isWorkloadThread t ∧ s.phase t = .running then
        .ok { s with childThreadSet := Function.update s.childThreadSet t true }
      else .error .blocked
  | .getChildThreadsAndAddRule =>
      match s.execution with
      | .notExecuted =>
          if s.phase setting.executor = .running then
            .ok { s with execution := .visiting s.threadMap }
          else .error .blocked
      | _ => .error .blocked
  | .visit =>
      match s.execution with
      | .visiting (t :: childThreads) => .ok { s with
          execution := .visiting childThreads
          installed := if skipped setting s t then s.installed else s.installed ++ [t] }
      | _ => .error .blocked

/-- What each step does, and when it can be made. -/
inductive Steps (setting : Setting Tid) (s : State Tid) : Label Tid → State Tid → Prop
  | register {t : Tid} (hphase : s.phase t = .unknown) :
      Steps setting s (.register t) { s with
        threadMap := s.threadMap.orderedInsert (· ≤ ·) t
        phase := Function.update s.phase t .registered }
  | copyRules {t : Tid} (hphase : s.phase t = .registered) :
      Steps setting s (.copyRules t) { s with
        phase := Function.update s.phase t (.copied s.execution.ruleAdded) }
  | handle {t : Tid} {withRule : Bool} (hphase : s.phase t = .copied withRule) :
      Steps setting s (.handle t) { s with
        phase := Function.update s.phase t .running
        installed := if withRule then s.installed ++ [t] else s.installed }
  | setChildThread {t : Tid} (hworkload : setting.isWorkloadThread t = true)
      (hphase : s.phase t = .running) :
      Steps setting s (.setChildThread t)
        { s with childThreadSet := Function.update s.childThreadSet t true }
  | getChildThreadsAndAddRule (hexecution : s.execution = .notExecuted)
      (hphase : s.phase setting.executor = .running) :
      Steps setting s .getChildThreadsAndAddRule { s with execution := .visiting s.threadMap }
  | visit {t : Tid} {childThreads : List Tid}
      (hexecution : s.execution = .visiting (t :: childThreads)) :
      Steps setting s .visit { s with
        execution := .visiting childThreads
        installed := if skipped setting s t then s.installed else s.installed ++ [t] }

variable {setting : Setting Tid} {s s' : State Tid} {label : Label Tid}

/-- The step function takes steps of the relation. -/
theorem steps_of_step (h : step setting s label = .ok s') : Steps setting s label s' := by
  cases label with
  | register t =>
      simp only [step] at h
      split at h
      · rename_i hphase
        cases h
        exact .register hphase
      · cases h
  | copyRules t =>
      simp only [step] at h
      split at h
      · rename_i hphase
        cases h
        exact .copyRules hphase
      · cases h
  | handle t =>
      simp only [step] at h
      split at h
      · rename_i hphase
        cases h
        exact .handle hphase
      · cases h
  | setChildThread t =>
      simp only [step] at h
      split at h
      · rename_i hset
        cases h
        exact .setChildThread hset.1 hset.2
      · cases h
  | getChildThreadsAndAddRule =>
      simp only [step] at h
      split at h
      · rename_i hexecution
        split at h
        · rename_i hphase
          cases h
          exact .getChildThreadsAndAddRule hexecution hphase
        · cases h
      · cases h
  | visit =>
      simp only [step] at h
      split at h
      · rename_i hexecution
        cases h
        exact .visit hexecution
      · cases h

/-! ## Consistent states -/

section Consistency

/-- The threads that are still to be visited. -/
def Execution.childThreads : Execution Tid → List Tid
  | notExecuted => []
  | visiting childThreads => childThreads

/-- What the parts of the state say about each other. -/
structure Consistent (setting : Setting Tid) (s : State Tid) : Prop where
  nodup : s.threadMap.Nodup
  mem_iff : ∀ t, t ∈ s.threadMap ↔ s.phase t ≠ .unknown
  visits_started : ∀ t ∈ s.execution.childThreads, t ∈ s.threadMap
  installed_started : ∀ t ∈ s.installed, t ∈ s.threadMap
  none_before : s.execution.ruleAdded = false →
    s.installed = [] ∧ ∀ t, s.phase t ≠ .copied true
  executor_running : s.execution.ruleAdded = true → s.phase setting.executor = .running
  executor_free : setting.executor ∉ s.installed

omit [LinearOrder Tid] in
/-- The invariant holds before any thread has started. -/
theorem consistent_initial (setting : Setting Tid) : Consistent setting initial where
  nodup := List.nodup_nil
  mem_iff t := by simp [initial]
  visits_started _ ht := absurd ht List.not_mem_nil
  installed_started _ ht := absurd ht List.not_mem_nil
  none_before _ := ⟨rfl, fun _ => by simp [initial]⟩
  executor_running h := by cases h
  executor_free := List.not_mem_nil

omit [LinearOrder Tid] in
/-- A thread that has not started is not in the thread map. -/
theorem Consistent.not_mem (h : Consistent setting s) {t : Tid} (hphase : s.phase t = .unknown) :
    t ∉ s.threadMap := by
  rw [h.mem_iff, hphase]
  exact not_not_intro rfl

section Update

variable {t : Tid} {phase : Phase}

/-- A started thread that goes on stays in the thread map. -/
theorem Consistent.mem_iff_update (h : Consistent setting s) (hold : s.phase t ≠ .unknown)
    (hnew : phase ≠ .unknown) (u : Tid) :
    u ∈ s.threadMap ↔ Function.update s.phase t phase u ≠ .unknown := by
  rw [h.mem_iff]
  by_cases hsame : u = t
  · subst hsame
    rw [Function.update_self]
    exact iff_of_true hold hnew
  · rw [Function.update_of_ne hsame]

/-- Before the rule is added, no thread copies it. -/
theorem Consistent.none_before_update (h : Consistent setting s)
    (hbefore : s.execution.ruleAdded = false) (hnew : phase ≠ .copied true) (u : Tid) :
    Function.update s.phase t phase u ≠ .copied true := by
  by_cases hsame : u = t
  · subst hsame
    rwa [Function.update_self]
  · rw [Function.update_of_ne hsame]
    exact (h.none_before hbefore).2 u

/-- A thread that executes the action has handled its start for good. -/
theorem Consistent.executor_running_update (h : Consistent setting s)
    (hadded : s.execution.ruleAdded = true) (hnew : s.phase t = .running → phase = .running) :
    Function.update s.phase t phase setting.executor = .running := by
  have hrunning := h.executor_running hadded
  by_cases hsame : setting.executor = t
  · subst hsame
    rw [Function.update_self]
    exact hnew hrunning
  · rwa [Function.update_of_ne hsame]

end Update

/-- Every step keeps the invariant. -/
theorem Consistent.step (h : Consistent setting s) (hstep : Steps setting s label s') :
    Consistent setting s' := by
  cases hstep with
  | register hphase =>
      rename_i t
      have hperm := List.perm_orderedInsert (· ≤ ·) t s.threadMap
      constructor
      case nodup => exact hperm.nodup_iff.mpr (List.nodup_cons.mpr ⟨h.not_mem hphase, h.nodup⟩)
      case mem_iff =>
        intro u
        rw [List.mem_orderedInsert, h.mem_iff]
        by_cases hsame : u = t
        · subst hsame
          simp
        · simp [hsame]
      case visits_started =>
        exact fun u hu => (List.mem_orderedInsert _).mpr (Or.inr (h.visits_started u hu))
      case installed_started =>
        exact fun u hu => (List.mem_orderedInsert _).mpr (Or.inr (h.installed_started u hu))
      case none_before =>
        intro hbefore
        exact ⟨(h.none_before hbefore).1, h.none_before_update hbefore (by simp)⟩
      case executor_running =>
        exact fun hadded => h.executor_running_update hadded (by simp [hphase])
      case executor_free => exact h.executor_free
  | copyRules hphase =>
      rename_i t
      constructor
      case nodup => exact h.nodup
      case mem_iff => exact h.mem_iff_update (by simp [hphase]) (by simp)
      case visits_started => exact h.visits_started
      case installed_started => exact h.installed_started
      case none_before =>
        intro hbefore
        have hrule : s.execution.ruleAdded = false := hbefore
        exact ⟨(h.none_before hbefore).1, h.none_before_update hbefore (by simp [hrule])⟩
      case executor_running =>
        exact fun hadded => h.executor_running_update hadded (by simp [hphase])
      case executor_free => exact h.executor_free
  | handle hphase =>
      rename_i t withRule
      have hinstalled : ∀ u ∈ (if withRule then s.installed ++ [t] else s.installed),
          u ∈ s.installed ∨ u = t ∧ withRule = true := by
        intro u hu
        split at hu
        · rename_i hrule
          rcases List.mem_append.mp hu with hu | hu
          · exact Or.inl hu
          · exact Or.inr ⟨List.mem_singleton.mp hu, hrule⟩
        · exact Or.inl hu
      constructor
      case nodup => exact h.nodup
      case mem_iff => exact h.mem_iff_update (by simp [hphase]) (by simp)
      case visits_started => exact h.visits_started
      case installed_started =>
        intro u hu
        rcases hinstalled u hu with hu | ⟨rfl, -⟩
        · exact h.installed_started u hu
        · rw [h.mem_iff, hphase]
          simp
      case none_before =>
        intro hbefore
        rcases h.none_before hbefore with ⟨hnone, hcopied⟩
        have hrule : withRule = false := by
          cases withRule with
          | false => rfl
          | true => exact absurd hphase (hcopied t)
        subst hrule
        exact ⟨hnone, h.none_before_update hbefore (by simp)⟩
      case executor_running =>
        exact fun hadded => h.executor_running_update hadded fun _ => rfl
      case executor_free =>
        intro hmem
        rcases hinstalled _ hmem with hmem | ⟨hsame, hrule⟩
        · exact h.executor_free hmem
        · subst hrule
          cases hadded : s.execution.ruleAdded with
          | false => exact (h.none_before hadded).2 t hphase
          | true =>
              have hrunning := h.executor_running hadded
              rw [hsame, hphase] at hrunning
              cases hrunning
  | setChildThread hworkload hphase =>
      exact ⟨h.nodup, h.mem_iff, h.visits_started, h.installed_started, h.none_before,
        h.executor_running, h.executor_free⟩
  | getChildThreadsAndAddRule hexecution hphase =>
      exact ⟨h.nodup, h.mem_iff, fun _ => id, h.installed_started, (fun hadded => by cases hadded),
        fun _ => hphase, h.executor_free⟩
  | visit hexecution =>
      rename_i t childThreads
      have hstarted := h.visits_started
      have hrunning := h.executor_running
      rw [hexecution] at hstarted hrunning
      refine ⟨h.nodup, h.mem_iff, ?_, ?_, (fun hadded => by cases hadded),
        fun _ => hrunning rfl, ?_⟩
      · exact fun u hu => hstarted u (List.mem_cons_of_mem _ hu)
      · intro u hu
        simp only at hu
        split at hu
        · exact h.installed_started u hu
        · rcases List.mem_append.mp hu with hu | hu
          · exact h.installed_started u hu
          · rw [List.mem_singleton.mp hu]
            exact hstarted t List.mem_cons_self
      · intro hmem
        simp only at hmem
        split at hmem
        · exact h.executor_free hmem
        · rename_i hskipped
          rcases List.mem_append.mp hmem with hmem | hmem
          · exact h.executor_free hmem
          · rw [← List.mem_singleton.mp hmem] at hskipped
            simp [skipped] at hskipped

end Consistency

/-! ## What a thread is due -/

section Due

/-- A thread that is handling its start since the rule was added is going to evaluate the rule. -/
def Phase.evaluatesRule : Phase → Nat
  | registered => 1
  | copied true => 1
  | _ => 0

/-- The measurers that are installed for a thread in the end: those installed so far, one for the
visit of a thread that is no workload thread, and one for the rule. -/
def due (setting : Setting Tid) (s : State Tid) (t : Tid) : Nat :=
  s.installed.count t +
    (if setting.isWorkloadThread t then 0 else s.execution.childThreads.count t) +
    if s.execution.ruleAdded then (s.phase t).evaluatesRule else 0

/-- How often a thread is to get a measurer. -/
def expected (setting : Setting Tid) (t : Tid) : Nat :=
  if setting.isWorkloadThread t then 0 else 1

/-- Since the rule was added, each thread is due what is expected. -/
def Good (setting : Setting Tid) (s : State Tid) : Prop :=
  s.execution.ruleAdded = true →
    ∀ t ∈ s.threadMap, t ≠ setting.executor → due setting s t = expected setting t

/-- No workload thread starts once the rule is added, no thread is registered without having copied
the rules when it is added, and the workload of a thread that is visited has set it. -/
def permitted (setting : Setting Tid) (s : State Tid) : Label Tid → Prop
  | .register t => s.execution.ruleAdded = true → setting.isWorkloadThread t = false
  | .getChildThreadsAndAddRule => ∀ t ∈ s.threadMap, s.phase t ≠ .registered
  | .visit => ∀ t ∈ s.execution.childThreads.head?, setting.isWorkloadThread t = true →
      t ≠ setting.executor → s.childThreadSet t = true
  | _ => True

/-- Before the rule is added, nothing is due. -/
theorem good_of_before (h : s.execution.ruleAdded = false) : Good setting s := by
  intro hadded
  rw [h] at hadded
  cases hadded

/-- A step after which the same threads are due the same. -/
theorem good_congr (hadded : s'.execution.ruleAdded = s.execution.ruleAdded)
    (hmap : s'.threadMap = s.threadMap)
    (hdue : s.execution.ruleAdded = true → ∀ t, due setting s' t = due setting s t) :
    Good setting s' ↔ Good setting s := by
  rw [Good, Good, hadded, hmap]
  apply forall_congr'
  intro hrule
  simp only [hdue hrule]

/-- The count after one more element. -/
theorem count_append_singleton (l : List Tid) (t u : Tid) :
    (l ++ [t]).count u = l.count u + if u = t then 1 else 0 := by
  rw [List.count_append, List.count_singleton]
  by_cases hsame : u = t
  · simp [hsame]
  · simp [hsame, Ne.symm hsame]

/-- A thread that is not registered is due nothing. -/
theorem due_register (h : Consistent setting s) {t : Tid} (hphase : s.phase t = .unknown)
    (hadded : s.execution.ruleAdded = true) (u : Tid) :
    due setting { s with
      threadMap := s.threadMap.orderedInsert (· ≤ ·) t
      phase := Function.update s.phase t .registered } u =
        if u = t then 1 else due setting s u := by
  by_cases hsame : u = t
  · subst hsame
    have hnew := h.not_mem hphase
    have hinstalled := List.count_eq_zero.mpr fun hmem => hnew (h.installed_started u hmem)
    have hvisits := List.count_eq_zero.mpr fun hmem => hnew (h.visits_started u hmem)
    simp [due, hinstalled, hvisits, hadded, Phase.evaluatesRule]
  · simp [due, hsame]

/-- A thread that is visited is due one more if it is a workload thread that is not known to be
one. -/
theorem due_visit {t : Tid} {childThreads : List Tid}
    (hexecution : s.execution = .visiting (t :: childThreads)) {u : Tid}
    (hu : u ≠ setting.executor) :
    due setting { s with
      execution := .visiting childThreads
      installed := if skipped setting s t then s.installed else s.installed ++ [t] } u =
        due setting s u +
          if u = t ∧ setting.isWorkloadThread t = true ∧ s.childThreadSet t = false then 1
          else 0 := by
  by_cases hsame : u = t
  · subst hsame
    cases hworkload : setting.isWorkloadThread u with
    | false =>
        simp [due, hexecution, Execution.childThreads, Execution.ruleAdded, skipped, hworkload,
          hu]
        omega
    | true =>
        cases hset : s.childThreadSet u with
        | false =>
            simp [due, hexecution, Execution.ruleAdded, skipped, hworkload, hset, hu]
            omega
        | true =>
            simp [due, hexecution, Execution.ruleAdded, skipped, hworkload, hset]
  · have hcount : (if skipped setting s t then s.installed else s.installed ++ [t]).count u =
        s.installed.count u := by
      split
      · rfl
      · rw [count_append_singleton, if_neg hsame, Nat.add_zero]
    simp [due, hexecution, Execution.childThreads, Execution.ruleAdded, hcount, hsame,
      Ne.symm hsame]

/-- A thread that starts is due the measurer of the rule, which is one too many for a workload
thread. -/
theorem good_register_iff (h : Consistent setting s) {t : Tid}
    (hstep : Steps setting s (.register t) s') :
    Good setting s' ↔ Good setting s ∧ permitted setting s (.register t) := by
  cases hstep with
  | register hphase =>
      cases hadded : s.execution.ruleAdded with
      | false =>
          have hpermitted : permitted setting s (.register t) := by
            intro hrule
            rw [hadded] at hrule
            cases hrule
          exact iff_of_true (good_of_before hadded) ⟨good_of_before hadded, hpermitted⟩
      | true =>
          have hnew : t ≠ setting.executor := by
            rintro rfl
            rw [h.executor_running hadded] at hphase
            cases hphase
          have hfresh := h.not_mem hphase
          have hdue := due_register h hphase hadded
          constructor
          · intro hgood
            refine ⟨?_, ?_⟩
            · intro _ u hu hne
              have hother : u ≠ t := by
                rintro rfl
                exact hfresh hu
              have hsame := hgood hadded u ((List.mem_orderedInsert _).mpr (Or.inr hu)) hne
              rwa [hdue, if_neg hother] at hsame
            · intro _
              have hone := hgood hadded t ((List.mem_orderedInsert _).mpr (Or.inl rfl)) hnew
              rw [hdue, if_pos rfl, expected] at hone
              cases hworkload : setting.isWorkloadThread t with
              | false => rfl
              | true => simp [hworkload] at hone
          · rintro ⟨hgood, hpermitted⟩ _ u hu hne
            rw [hdue]
            have hmem : u = t ∨ u ∈ s.threadMap := (List.mem_orderedInsert _).mp hu
            rcases hmem with hsame | hold
            · rw [if_pos hsame, hsame, expected, hpermitted hadded]
              rfl
            · have hother : u ≠ t := by
                rintro rfl
                exact hfresh hold
              rw [if_neg hother]
              exact hgood hadded u hold hne

/-- A thread that has not copied the rules when the rule is added is due a measurer for its start
and one for its visit. -/
theorem good_addRule_iff (h : Consistent setting s)
    (hstep : Steps setting s .getChildThreadsAndAddRule s') :
    Good setting s' ↔ Good setting s ∧ permitted setting s .getChildThreadsAndAddRule := by
  cases hstep with
  | getChildThreadsAndAddRule hexecution hphase =>
      have hadded : s.execution.ruleAdded = false := by rw [hexecution]; rfl
      rcases h.none_before hadded with ⟨hinstalled, hcopied⟩
      rw [and_iff_right (good_of_before hadded)]
      have hdue : ∀ u ∈ s.threadMap, due setting { s with execution := .visiting s.threadMap } u =
          expected setting u + (s.phase u).evaluatesRule := by
        intro u hu
        have hcount := List.count_eq_one_of_mem h.nodup hu
        simp [due, hinstalled, Execution.childThreads, Execution.ruleAdded, expected, hcount]
      constructor
      · intro hgood u hu hregistered
        have hne : u ≠ setting.executor := by
          rintro rfl
          rw [hphase] at hregistered
          cases hregistered
        have hsame := hgood rfl u hu hne
        rw [hdue u hu, hregistered, Phase.evaluatesRule] at hsame
        omega
      · intro hpermitted _ u hu _
        have hnone : (s.phase u).evaluatesRule = 0 := by
          have hregistered := hpermitted u hu
          have hwith := hcopied u
          cases hphase : s.phase u with
          | registered => exact absurd hphase hregistered
          | copied withRule =>
              cases withRule with
              | false => rfl
              | true => exact absurd hphase hwith
          | _ => rfl
        rw [hdue u hu, hnone, Nat.add_zero]

/-- The visit of a workload thread that has not set its child thread is one measurer too many. -/
theorem good_visit_iff (h : Consistent setting s)
    (hstep : Steps setting s .visit s') :
    Good setting s' ↔ Good setting s ∧ permitted setting s .visit := by
  cases hstep with
  | visit hexecution =>
      rename_i t childThreads
      have hadded : s.execution.ruleAdded = true := by rw [hexecution]; rfl
      have hmem : t ∈ s.threadMap := by
        apply h.visits_started
        rw [hexecution]
        exact List.mem_cons_self
      constructor
      · intro hgood
        have hlost : ∀ u ∈ s.threadMap, u ≠ setting.executor →
            due setting s u = expected setting u ∧
              ¬(u = t ∧ setting.isWorkloadThread t = true ∧ s.childThreadSet t = false) := by
          intro u hu hne
          have hsame := hgood rfl u hu hne
          rw [due_visit hexecution hne] at hsame
          split at hsame
          · rename_i hunknown
            rw [expected, hunknown.1, hunknown.2.1] at hsame
            simp at hsame
          · rename_i hknown
            exact ⟨hsame, hknown⟩
        refine ⟨fun _ u hu hne => (hlost u hu hne).1, ?_⟩
        intro u hu hworkload hne
        rw [hexecution] at hu
        obtain rfl : t = u := Option.some.inj hu
        by_contra hset
        exact (hlost t hmem hne).2 ⟨rfl, hworkload, Bool.eq_false_iff.mpr hset⟩
      · rintro ⟨hgood, hpermitted⟩ _ u hu hne
        rw [due_visit hexecution hne, hgood hadded u hu hne]
        split
        · rename_i hunknown
          exfalso
          rcases hunknown with ⟨rfl, hworkload, hset⟩
          have hknown := hpermitted u (by rw [hexecution]; rfl) hworkload hne
          rw [hset] at hknown
          cases hknown
        · rfl

/-- What a thread is due gets wrong exactly in the steps that are not permitted, and stays so. -/
theorem good_step_iff (h : Consistent setting s) (hstep : Steps setting s label s') :
    Good setting s' ↔ Good setting s ∧ permitted setting s label := by
  cases hstep with
  | register hphase => exact good_register_iff h (.register hphase)
  | copyRules hphase =>
      rename_i t
      have hpermitted : permitted setting s (.copyRules t) := trivial
      rw [and_iff_left hpermitted]
      refine good_congr rfl rfl ?_
      intro hadded u
      by_cases hsame : u = t
      · subst hsame
        simp [due, hadded, hphase, Phase.evaluatesRule]
      · simp [due, hsame]
  | handle hphase =>
      rename_i t withRule
      have hpermitted : permitted setting s (.handle t) := trivial
      rw [and_iff_left hpermitted]
      refine good_congr rfl rfl ?_
      intro hadded u
      by_cases hsame : u = t
      · subst hsame
        cases withRule with
        | false => simp [due, hphase, Phase.evaluatesRule]
        | true =>
            simp [due, hadded, hphase, Phase.evaluatesRule]
            omega
      · cases withRule with
        | false => simp [due, hsame]
        | true => simp [due, hsame, Ne.symm hsame]
  | setChildThread hworkload hphase =>
      rename_i t
      have hpermitted : permitted setting s (.setChildThread t) := trivial
      rw [and_iff_left hpermitted]
      exact good_congr rfl rfl fun _ _ => rfl
  | getChildThreadsAndAddRule hexecution hphase =>
      exact good_addRule_iff h (.getChildThreadsAndAddRule hexecution hphase)
  | visit hexecution => exact good_visit_iff h (.visit hexecution)

end Due

/-! ## Runs -/

section Executions

variable {schedule : List (Label Tid)}

/-- The action has been executed, and every thread that was registered has handled its start. -/
def Complete (s : State Tid) : Prop :=
  s.execution = .visiting [] ∧ ∀ t ∈ s.threadMap, s.phase t = .running

/-- Each thread that has started, other than the executing one and the workload threads, has got a
measurer once, and the workload threads have got none. -/
def InstrumentsOnce (setting : Setting Tid) (s : State Tid) : Prop :=
  ∀ t ∈ s.threadMap,
    (setting.isWorkloadThread t = true → s.installed.count t = 0) ∧
    (setting.isWorkloadThread t = false → t ≠ setting.executor → s.installed.count t = 1)

/-- The invariant holds after every run. -/
theorem consistent_of_run (hrun : Run (step setting) initial schedule s) :
    Consistent setting s := by
  induction hrun with
  | start => exact consistent_initial setting
  | next _ hstep ih => exact ih.step (steps_of_step hstep)

/-- What is due is what is expected exactly in the runs whose steps are all permitted. -/
theorem good_iff_stepsMeet (hrun : Run (step setting) initial schedule s) :
    Good setting s ↔ StepsMeet (step setting) initial (fun _ => permitted setting) schedule := by
  induction hrun with
  | start => exact iff_of_true (good_of_before rfl) (stepsMeet_nil _)
  | next hfront hstep ih =>
      rw [stepsMeet_append_singleton hfront, ← ih]
      exact good_step_iff (consistent_of_run hfront) (steps_of_step hstep)

/-- At the end of a run, what is due is what has been installed. -/
theorem Complete.good_iff (hcomplete : Complete s) (h : Consistent setting s) :
    Good setting s ↔ InstrumentsOnce setting s := by
  have hadded : s.execution.ruleAdded = true := by rw [hcomplete.1]; rfl
  have hdue : ∀ t ∈ s.threadMap, due setting s t = s.installed.count t := by
    intro t ht
    simp [due, hcomplete.1, hcomplete.2 t ht, Execution.childThreads, Phase.evaluatesRule]
  constructor
  · intro hgood t ht
    constructor
    · intro hworkload
      by_cases hexecutor : t = setting.executor
      · rw [hexecutor]
        exact List.count_eq_zero.mpr h.executor_free
      · rw [← hdue t ht, hgood hadded t ht hexecutor, expected, if_pos hworkload]
    · intro hworkload hexecutor
      rw [← hdue t ht, hgood hadded t ht hexecutor, expected, if_neg (by simp [hworkload])]
  · intro honce _ t ht hexecutor
    rw [hdue t ht, expected]
    cases hworkload : setting.isWorkloadThread t with
    | true => exact (honce t ht).1 hworkload
    | false => exact (honce t ht).2 hworkload hexecutor

/-- A measurer is installed once on each thread exactly in the runs in which no workload thread
starts once the rule is added, no thread is between its registration and copying the rules when it
is added, and each workload thread that is visited is known to be one. -/
theorem instrumentsOnce_iff (hrun : Run (step setting) initial schedule s)
    (hcomplete : Complete s) :
    InstrumentsOnce setting s ↔
      StepsMeet (step setting) initial (fun _ => permitted setting) schedule := by
  rw [← hcomplete.good_iff (consistent_of_run hrun), good_iff_stepsMeet hrun]

/-- The thread 0 executes the action, and the thread 9 is that of a workload. -/
def mainExecutes : Setting Nat :=
  ⟨fun t => t = 9, 0⟩

/-- The state after a schedule that does not block. -/
def stateAfter (schedule : List (Label Nat)) : State Nat :=
  (exec (step mainExecutes) initial schedule).toOption.getD initial

/-- The thread 1 has started when the action is executed, and the thread 2 starts afterwards. -/
def separateStarts : List (Label Nat) :=
  [.register 0, .copyRules 0, .handle 0, .register 1, .copyRules 1, .handle 1,
    .getChildThreadsAndAddRule, .register 2, .visit, .copyRules 2, .visit, .handle 2]

/-- Threads that start before and after the action get one measurer each. -/
theorem instrumentsOnce_separateStarts :
    InstrumentsOnce mainExecutes (stateAfter separateStarts) ∧
      StepsMeet (step mainExecutes) initial (fun _ => permitted mainExecutes) separateStarts := by
  have honce : InstrumentsOnce mainExecutes (stateAfter separateStarts) := by
    unfold InstrumentsOnce
    decide
  exact ⟨honce, (instrumentsOnce_iff (run_iff_exec.mpr rfl) ⟨rfl, by decide⟩).mp honce⟩

/-- The thread 1 is registered before the action is executed and copies the rules afterwards. -/
def overlappingStart : List (Label Nat) :=
  [.register 0, .copyRules 0, .handle 0, .register 1, .getChildThreadsAndAddRule, .copyRules 1,
    .handle 1, .visit, .visit]

/-- A thread that has been registered but has not copied the rules gets two measurers. -/
theorem not_instrumentsOnce :
    ¬∀ (setting : Setting Nat) (schedule : List (Label Nat)) (s : State Nat),
      Run (step setting) initial schedule s → Complete s → InstrumentsOnce setting s := by
  intro h
  have honce := h mainExecutes overlappingStart (stateAfter overlappingStart)
    (run_iff_exec.mpr rfl) ⟨rfl, by decide⟩ 1 (by decide)
  exact absurd (honce.2 rfl (by decide)) (by decide)

end Executions

end ThreadInstrumentation
end ChildProcess
end Roofline
