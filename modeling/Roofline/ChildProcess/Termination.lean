import Mathlib.Algebra.Order.BigOperators.Group.List
import Mathlib.Algebra.Order.Ring.Nat
import Roofline.ChildProcess.Progress

/-!
# Runs come to an end

Each operation of a thread comes down to a bounded number of others: as many as there are rules,
listeners and measurers, and as deep as actions execute each other.  So no run goes on for ever, and
one that can not go on has come to its end.

Main results:

- Theorem {lit}`runs_finish`: a bound of the length of all runs, in which no state is a deadlock.
-/

namespace Roofline
namespace ChildProcess
namespace MeasurementRun

open Runs Threads

variable {measurement : Measurement} {rank depth : Nat → Nat} {s : State}

/-! ## How much an operation comes down to -/

section Cost

variable (measurement : Measurement)

/-- The number of operations an action comes down to at once. -/
def executeLength (a : Nat) : Nat :=
  (executeImp measurement initialShared a (.measurementRunEvent .start)).length

/-- The number of operations an action comes down to, if actions execute others up to a depth. -/
def actionCost : Nat → Nat → Nat
  | 0, a => 1 + executeLength measurement a
  | n + 1, a =>
      match (measurement.action a).kind with
      | .measureActionExecution b _ => 1 + executeLength measurement a + actionCost n b
      | _ => 1 + executeLength measurement a

/-- The number of operations that an operation comes down to. -/
def opCost (depth : Nat → Nat) : Op → Nat
  | .dispatchEvent _ =>
      3 + (measurement.rules.map fun rule =>
        4 + actionCost measurement (depth rule.action) rule.action).sum +
        (waitListeners measurement).length
  | .handle rule _ => 4 + actionCost measurement (depth rule.action) rule.action
  | .notifyListeners _ => 1 + (waitListeners measurement).length
  | .execute a _ => 3 + actionCost measurement (depth a) a
  | .executeDirect a _ => actionCost measurement (depth a) a
  | _ => 1

/-- The number of operations that the code of a thread comes down to. -/
def codeCost (depth : Nat → Nat) (ops : List Op) : Nat :=
  (ops.map (opCost measurement depth)).sum

/-- What the threads have left to do. -/
def cost (depth : Nat → Nat) (s : State) : Nat :=
  codeCost measurement depth (s.code .main) +
    (measurement.workloads.map fun w => codeCost measurement depth (s.code (.workload w))).sum

variable {measurement}

/-- The number of operations of an action does not depend on the state. -/
theorem length_executeImp (shared : Shared) (a : Nat) (event : Event) :
    (executeImp measurement shared a event).length = executeLength measurement a := by
  unfold executeLength executeImp
  split <;> simp

variable (measurement) in
/-- More depth does not lower the cost. -/
theorem actionCost_mono {n k : Nat} (h : n ≤ k) (a : Nat) :
    actionCost measurement n a ≤ actionCost measurement k a := by
  induction n generalizing k a with
  | zero =>
      cases k with
      | zero => exact Nat.le_refl _
      | succ k =>
          simp only [actionCost]
          split <;> omega
  | succ n ih =>
      cases k with
      | zero => omega
      | succ k =>
          simp only [actionCost]
          split
          · have hinner := ih (Nat.le_of_succ_le_succ h) ‹Nat›
            omega
          · exact Nat.le_refl _

/-- The costs of code in parts add up. -/
theorem codeCost_append (front rest : List Op) :
    codeCost measurement depth (front ++ rest) =
      codeCost measurement depth front + codeCost measurement depth rest := by
  simp [codeCost]

/-- Code that comes down to nothing else costs its length. -/
theorem codeCost_eq_length {ops : List Op} (h : ∀ op ∈ ops, opCost measurement depth op = 1) :
    codeCost measurement depth ops = ops.length := by
  induction ops with
  | nil => rfl
  | cons op ops ih =>
      have hrest := ih fun o ho => h o (List.mem_cons_of_mem _ ho)
      simp only [codeCost, List.map_cons, List.sum_cons, List.length_cons] at hrest ⊢
      rw [h op List.mem_cons_self, hrest]
      omega

/-- Actions execute others that are less deep. -/
def Nested (measurement : Measurement) (depth : Nat → Nat) : Prop :=
  ∀ a b set, (measurement.action a).kind = .measureActionExecution b set → depth b < depth a

variable (measurement depth) in
/-- The methods of measurer sets come down to nothing else. -/
theorem codeCost_methods (set : MeasurerSet) :
    codeCost measurement depth set.initializeMeasurers = set.initializeMeasurers.length ∧
      codeCost measurement depth set.start = set.start.length ∧
        codeCost measurement depth set.stop = set.stop.length ∧
          codeCost measurement depth set.addOutput = set.addOutput.length ∧
            codeCost measurement depth set.dispose = set.dispose.length := by
  have hset := set.forall_methods (P := fun op => opCost measurement depth op = 1)
    (fun _ _ _ => rfl) rfl
  exact ⟨codeCost_eq_length hset.1, codeCost_eq_length hset.2.1, codeCost_eq_length hset.2.2.1,
    codeCost_eq_length hset.2.2.2.1, codeCost_eq_length hset.2.2.2.2⟩

/-- The cost of an action that measures the execution of another one. -/
theorem codeCost_executeImp_measure {shared : Shared} {a b : Nat} {set : MeasurerSet} {event : Event}
    (hkind : (measurement.action a).kind = .measureActionExecution b set) :
    codeCost measurement depth (executeImp measurement shared a event) + 1 =
      executeLength measurement a + actionCost measurement (depth b) b := by
  rcases codeCost_methods depth measurement set with
    ⟨hmeasurersInit, hstart, hstop, haddOutput, hdispose⟩
  have hsingle : ∀ op, codeCost measurement depth [op] = opCost measurement depth op := by
    simp [codeCost]
  rw [← length_executeImp shared a event]
  simp only [executeImp, hkind, codeCost_append, hmeasurersInit, hstart, hstop, haddOutput, hdispose,
    hsingle, opCost, List.length_append, List.length_singleton]
  omega

/-- Executing an action comes down to less than this. -/
theorem codeCost_executeImp_lt (hnested : Nested measurement depth) (shared : Shared) (a : Nat)
    (event : Event) :
    codeCost measurement depth (executeImp measurement shared a event) <
      actionCost measurement (depth a) a := by
  by_cases hmeasure : ∃ b set, (measurement.action a).kind = .measureActionExecution b set
  · rcases hmeasure with ⟨b, set, hkind⟩
    have hdepth := hnested a b set hkind
    have hcost : codeCost measurement depth (executeImp measurement shared a event) + 1 =
        executeLength measurement a + actionCost measurement (depth b) b :=
      codeCost_executeImp_measure hkind
    cases hn : depth a with
    | zero => omega
    | succ n =>
        have hmono := actionCost_mono measurement (show depth b ≤ n by omega) b
        simp only [actionCost, hkind]
        omega
  · have hones : ∀ op ∈ executeImp measurement shared a event, opCost measurement depth op = 1 :=
      forall_executeImp (fun _ _ _ _ _ => rfl) (fun _ _ => rfl) (fun _ _ => rfl) (fun _ => rfl)
        (fun b set hkind => absurd ⟨b, set, hkind⟩ hmeasure)
    rw [codeCost_eq_length hones, length_executeImp]
    have hmono := actionCost_mono measurement (Nat.zero_le (depth a)) a
    simp only [actionCost] at hmono
    omega

/-- What an operation comes down to costs less than the operation. -/
theorem codeCost_expand_lt (hnested : Nested measurement depth) {t : Thread} (op : Op)
    {shared : Shared} (hlisteners : shared.listeners.length ≤ (waitListeners measurement).length) :
    codeCost measurement depth (expand measurement t op shared) <
      opCost measurement depth op := by
  cases op with
  | dispatchEvent event =>
      simp only [expand, codeCost, List.map_append, List.map_map, List.sum_append, List.map_cons,
        List.map_nil, List.sum_cons, List.sum_nil, opCost, Function.comp_def]
      omega
  | handle rule event =>
      simp only [expand]
      split
      · simp [codeCost, opCost]
      · simp only [codeCost, List.map_nil, List.sum_nil, opCost]
        omega
  | notifyListeners event =>
      have hones : ∀ op ∈ shared.listeners.map (fun a => Op.handleEvent a event),
          opCost measurement depth op = 1 := by simp [opCost]
      simp only [expand]
      rw [codeCost_eq_length hones, List.length_map]
      simp only [opCost]
      omega
  | execute a event =>
      simp only [expand]
      split <;> simp [codeCost, opCost] <;> omega
  | executeDirect a event => exact codeCost_executeImp_lt hnested shared a event
  | _ => simp [expand, codeCost, opCost]

end Cost

/-! ## Runs -/

section Runs

variable {spurious : Bool}

/-- There are never more listeners than rules whose action waits. -/
theorem Reachable.length_listeners_le (hranked : measurement.Ranked rank)
    (h : Reachable measurement spurious s) :
    s.shared.listeners.length ≤ (waitListeners measurement).length := by
  rw [h.listeners_executed hranked]
  rcases h with ⟨labels, hrun⟩
  have hcovers : ∀ op : Op, (op.listener? measurement).isSome = true →
      (op.listener? measurement).isSome = true := fun _ hop => hop
  have hprogram : (program measurement .main).filterMap (Op.listener? measurement) =
      waitListeners measurement := by
    rw [program, innerMain_eq, List.append_assoc, List.filterMap_append,
      (listener_innerMain measurement).1, (listener_innerMain measurement).2, List.append_nil]
  have hprefix := (Run.executed_prefix (listener_own hranked spurious .main) hrun).filterMap
    (Op.listener? measurement)
  rw [filterMap_filter_of_isSome hcovers, filterMap_filter_of_isSome hcovers, hprogram] at hprefix
  exact hprefix.length_le

/-- Each step leaves less to do. -/
theorem cost_step_lt (hranked : measurement.Ranked rank) (hnested : Nested measurement depth)
    (h : Reachable measurement spurious s) {label : Label Thread} {s' : State}
    (hstep : Steps (semantics measurement spurious) s label s') :
    cost measurement depth s' < cost measurement depth s := by
  cases hstep with
  | @execute t op rest ops shared' hcode heffect =>
      rcases Option.map_eq_some_iff.mp heffect with ⟨_, _, heq⟩
      cases heq
      have hless : codeCost measurement depth (expand measurement t op s.shared ++ rest) <
          codeCost measurement depth (s.code t) := by
        have hexpand := codeCost_expand_lt hnested (t := t) op (h.length_listeners_le hranked)
        rw [codeCost_append, hcode]
        simp only [codeCost, List.map_cons, List.sum_cons] at hexpand ⊢
        omega
      cases t with
      | main =>
          have hothers : ∀ w, Function.update s.code .main (expand measurement .main op s.shared ++
              rest) (.workload w) = s.code (.workload w) := fun w => Function.update_of_ne (by simp) _ _
          simp only [cost, Function.update_self, hothers]
          omega
      | workload w =>
          have hw : w ∈ measurement.workloads := by
            by_contra hnot
            rw [(h.alone hranked).2 w hnot] at hcode
            cases hcode
          have hmain : Function.update s.code (.workload w) (expand measurement (.workload w) op
              s.shared ++ rest) .main = s.code .main := Function.update_of_ne (by simp) _ _
          simp only [cost, hmain]
          refine Nat.add_lt_add_left (List.sum_lt_sum _ _ (fun v _ => ?_) ⟨w, hw, ?_⟩) _
          · by_cases hsame : v = w
            · subst hsame
              rw [Function.update_self]
              exact Nat.le_of_lt hless
            · rw [Function.update_of_ne (by simpa using hsame)]
          · rw [Function.update_self]
            exact hless
  | interrupt heffect =>
      rcases interrupt_cases heffect with ⟨w, _, _, _, hqueue, _⟩
      rw [((h.alone hranked).1 w).2] at hqueue
      cases hqueue

/-- A run makes no more steps than its threads have to do. -/
theorem length_add_cost_le (hranked : measurement.Ranked rank) (hnested : Nested measurement depth)
    {labels : List (Label Thread)}
    (hrun : Run (step (semantics measurement spurious))
      (Threads.start (program measurement) initialShared) labels s) :
    labels.length + cost measurement depth s ≤
      cost measurement depth (Threads.start (program measurement) initialShared) := by
  induction hrun with
  | start => simp
  | next hfront hlast ih =>
      have hless := cost_step_lt hranked hnested ⟨_, hfront⟩ (steps_of_step hlast)
      rw [List.length_append, List.length_singleton]
      omega

/-- No run of the measurement goes on for ever or ends before all threads have come to their end. -/
theorem runs_finish (hranked : measurement.Ranked rank) (hnested : Nested measurement depth) :
    ∃ bound, ∀ labels s, Run (step (semantics measurement false))
      (Threads.start (program measurement) initialShared) labels s →
        labels.length ≤ bound ∧ (¬Finished s →
          ∃ label s', Threads.step (semantics measurement false) s label = .ok s') := by
  refine ⟨cost measurement depth (Threads.start (program measurement) initialShared), ?_⟩
  intro labels s hrun
  have hlength := length_add_cost_le hranked hnested hrun
  exact ⟨by omega, progress hranked ⟨labels, hrun⟩⟩

/-- The numbers of the workloads rank the example. -/
theorem twoWorkloads_ranked : twoWorkloads.Ranked id where
  here _ _ _ := rfl
  inner a b set hkind := by
    by_cases hfirst : a = 0 <;> simp [twoWorkloads, hfirst] at hkind
  waits event a waitFor htriggers hkind := by
    have hfirst : a = 0 := by
      by_contra hnot
      simp [twoWorkloads, hnot] at hkind
    subst hfirst
    refine ⟨0, by decide, (ActionKind.waitForWorkload.inj hkind).symm, 1, ?_, by decide⟩
    generalize haction : (0 : Nat) = a at htriggers
    cases htriggers with
    | @rule rule hrule hmatch =>
        simp only [twoWorkloads, List.mem_cons, List.not_mem_nil, or_false] at hrule
        rcases hrule with rfl | rfl
        · rw [doesMatch_workload_iff.mp hmatch]
          rfl
        · cases haction
    | @inner b _ set _ hinner =>
        by_cases hb : b = 0 <;> simp [twoWorkloads, hb] at hinner
  stopped w hw hendless := by
    have hsecond : w = 1 := by simpa [twoWorkloads] using hendless
    subst hsecond
    exact ⟨0, by decide, by decide, .workloadEvent 0 .kernelStop, by decide, _,
      List.mem_cons_of_mem _ List.mem_cons_self, rfl, rfl⟩

/-- Every run of the example is bounded and can go on until it is finished. -/
theorem twoWorkloads_finishes :
    ∃ bound, ∀ labels s, Run (step (semantics twoWorkloads false))
      (Threads.start (program twoWorkloads) initialShared) labels s →
        labels.length ≤ bound ∧ (¬Finished s →
          ∃ label s', Threads.step (semantics twoWorkloads false) s label = .ok s') := by
  have hnested : Nested twoWorkloads id := by
    intro a b set hkind
    by_cases hfirst : a = 0 <;> simp [twoWorkloads, hfirst] at hkind
  exact runs_finish twoWorkloads_ranked hnested

end Runs

end MeasurementRun
end ChildProcess
end Roofline
