import Roofline.ChildProcess.MeasurerCalls

/-!
# Measurements that do not block themselves

A workload may wait for others, and kernels may run until an event of another workload stops them.
If this follows a rank of the workloads, some thread can go on in every state of a run until all
threads have come to their end.

Main results:

- Theorem {lit}`progress`: no state of the run is a deadlock.
-/

namespace Roofline
namespace ChildProcess
namespace MeasurementRun

open Runs Threads

variable {measurement : Measurement} {rank : Nat → Nat} {s : State}

/-- Actions are executed where the event is dispatched; a workload waits for workloads of a lower
rank, and it is an event of such a workload that stops its kernel. -/
structure Measurement.Ranked (measurement : Measurement) (rank : Nat → Nat) : Prop where
  here : ∀ event a, Triggers measurement event a → (measurement.action a).workload = none
  inner : ∀ a b set, (measurement.action a).kind = .measureActionExecution b set →
    ∀ v, (measurement.action b).kind ≠ .waitForWorkload v
  waits : ∀ event a waitFor, Triggers measurement event a →
    (measurement.action a).kind = .waitForWorkload waitFor →
      ∃ v ∈ measurement.workloads, waitFor = some v ∧
        ∃ w, event.dispatcher = .workload w ∧ rank v < rank w
  stopped : ∀ w ∈ measurement.workloads,
    (measurement.kernel (measurement.workload w).kernel).endless = true →
      ∃ v ∈ measurement.workloads, rank v < rank w ∧
        ∃ event ∈ threadEvents v, ∃ rule ∈ measurement.rules,
          rule.predicate.doesMatch event = true ∧
            (measurement.action rule.action).kind = .stopKernel (measurement.workload w).kernel

/-! ## What stays -/

/-- Barriers stay open, and kernels that have been told to stop are not told otherwise. -/
theorem perform_stays {spurious : Bool} {t : Thread} {op : Op} {shared shared' : Shared}
    (h : perform measurement spurious t op shared = some shared') :
    (∀ b, shared.opened b = true → shared'.opened b = true) ∧
      ∀ k, shared.keepRunning k = false → shared'.keepRunning k = false := by
  have hopen : ∀ {opened : BarrierRef → Bool} {b c : BarrierRef}, opened b = true →
      Function.update opened c true b = true := fun hb => update_eq_iff.mpr (Or.inl hb)
  cases op with
  | openBarrier n =>
      cases h
      exact ⟨fun _ => hopen, fun _ hk => hk⟩
  | handleEvent a event =>
      cases h
      rcases handleEvent_eq measurement shared a event with heq | ⟨_, _, _, heq⟩
      · rw [heq]
        exact ⟨fun _ hb => hb, fun _ hk => hk⟩
      · rw [heq]
        exact ⟨fun _ => hopen, fun _ hk => hk⟩
  | executeDirect a event =>
      simp only [perform, executeDirect] at h
      split at h
      · split at h
        · cases h
        · cases h
          exact ⟨fun _ hb => hb, fun _ hk => hk⟩
      · cases h
        exact ⟨fun _ hb => hb, fun _ hk => update_eq_iff.mpr (Or.inl hk)⟩
      · cases h
        exact ⟨fun _ hb => hb, fun _ hk => hk⟩
  | execute a event =>
      cases h
      have hsame : SameRecords shared (executeAction measurement shared t a event) :=
        sameRecords_executeAction shared t a event
      rw [hsame.opened, hsame.keepRunning]
      exact ⟨fun _ hb => hb, fun _ hk => hk⟩
  | initializeAction a =>
      cases h
      unfold initializeAction
      split <;> exact ⟨fun _ hb => hb, fun _ hk => hk⟩
  | kernel k call =>
      have hsame : shared' = shared := by
        cases call <;> simp [perform] at h
        all_goals simp [h]
      rw [hsame]
      exact ⟨fun _ hb => hb, fun _ hk => hk⟩
  | actionProcessed =>
      cases t with
      | main => cases h
      | workload w =>
          cases h
          exact ⟨fun _ hb => hb, fun _ hk => hk⟩
  | start w | exit w | forwardActions w | addMeasurerSetOutput set =>
      cases h
      exact ⟨fun _ hb => hb, fun _ hk => hk⟩
  | _ =>
      have hsame : shared' = shared := by
        simp [perform] at h
        simp [h]
      rw [hsame]
      exact ⟨fun _ hb => hb, fun _ hk => hk⟩

/-- Opened barriers stay open, and stopped kernels stay stopped. -/
theorem steps_stay {spurious : Bool} {label : Label Thread} {s' : State}
    (h : Steps (semantics measurement spurious) s label s') :
    (∀ b, s.shared.opened b = true → s'.shared.opened b = true) ∧
      ∀ k, s.shared.keepRunning k = false → s'.shared.keepRunning k = false := by
  cases h with
  | execute _ heffect =>
      rcases Option.map_eq_some_iff.mp heffect with ⟨_, hperform, heq⟩
      cases heq
      exact perform_stays hperform
  | interrupt heffect =>
      rcases interrupt_cases heffect with ⟨_, _, _, rfl, _, _, _, _, rfl⟩
      exact ⟨fun _ hb => hb, fun _ hk => hk⟩

/-! ## Listeners -/

section Listeners

variable {spurious : Bool} {w : Nat}

/-- The actions that wait are listeners, once for each rule. -/
def waitListeners (measurement : Measurement) : List Nat :=
  measurement.rules.filterMap fun rule => (Op.initializeAction rule.action).listener? measurement

/-- Listeners are added by the code of a thread only. -/
theorem listener_own (hranked : measurement.Ranked rank) (spurious : Bool) (t : Thread) :
    (semantics measurement spurious).Own t (fun op => (op.listener? measurement).isSome) := by
  refine own_of_not_pushed ?_ spurious t
  intro o ho hpushed
  cases hpushed with
  | @initializeAction a b set hkind =>
      cases hwait : (measurement.action b).kind with
      | waitForWorkload v => exact hranked.inner a b set hkind v hwait
      | _ => simp [Op.listener?, hwait] at ho
  | _ => cases ho

/-- The threads of workloads add no listeners. -/
theorem listener_startInThread (w : Nat) :
    (startInThread measurement w).filter (fun op => (op.listener? measurement).isSome) = [] := by
  refine List.filter_eq_nil_iff.mpr fun op hop => ?_
  cases threadOp_startInThread w op hop <;> simp [Op.listener?]

/-- The methods of the overall set add no listeners. -/
theorem listener_overall {method : MeasurerSet → List Op}
    (h : ∀ set, ∀ op ∈ method set, op.listener? measurement = none) :
    (measurement.overallMeasurerSet.toList.flatMap method).filterMap (Op.listener? measurement) =
      [] := by
  refine List.filterMap_eq_nil_iff.mpr fun op hop => ?_
  rcases List.mem_flatMap.mp hop with ⟨set, _, hop⟩
  exact h set op hop

variable (measurement) in
/-- The main thread adds the listeners before it starts the workloads. -/
theorem listener_innerMain :
    (beforeStart measurement).filterMap (Op.listener? measurement) = waitListeners measurement ∧
      ((measurement.workloads.map Op.start ++ measurement.workloads.map Op.join) ++
        afterJoin measurement).filterMap (Op.listener? measurement) = [] := by
  have hset := fun set : MeasurerSet => set.forall_methods
    (P := fun op => op.listener? measurement = none) (fun _ _ _ => rfl) rfl
  simp only [beforeStart, afterJoin, List.filterMap_append, List.filterMap_map,
    listener_overall fun set => (hset set).1, listener_overall fun set => (hset set).2.1,
    listener_overall fun set => (hset set).2.2.1, listener_overall fun set => (hset set).2.2.2.1]
  simp [List.filterMap_cons, Function.comp_def, Op.listener?, waitListeners]

/-- The main thread has added the listeners. -/
theorem Reachable.listeners_executed (hranked : measurement.Ranked rank)
    (h : Reachable measurement spurious s) :
    s.shared.listeners = (s.executed .main).filterMap (Op.listener? measurement) := by
  rw [h.recorded.listeners]
  rcases h with ⟨labels, hrun⟩
  refine filterMap_history fun u op hop hu => ?_
  have hprogram : (program measurement u).filter (fun op => (op.listener? measurement).isSome) =
      [] := by
    cases u with
    | main => exact absurd rfl hu
    | workload v =>
        rw [program]
        split
        · exact listener_startInThread v
        · rfl
  simpa using Run.not_own_of_mem (listener_own hranked spurious u) hprogram hrun hop

/-- All listeners have been added when a workload is started. -/
theorem Reachable.listeners_eq (hranked : measurement.Ranked rank)
    (h : Reachable measurement spurious s) (hstart : (.main, .start w) ∈ s.history) :
    s.shared.listeners = waitListeners measurement := by
  rw [h.listeners_executed hranked]
  rcases h with ⟨labels, hrun⟩
  have hown := (isMilestone_own measurement spurious .main).or (listener_own hranked spurious .main)
  have hcovers : ∀ op : Op, (op.listener? measurement).isSome = true →
      (op.isMilestone || (op.listener? measurement).isSome) = true := fun op hop => by simp [hop]
  have htrace := Run.trace_eq hown hrun
  rw [program, innerMain_eq, List.append_assoc, List.filter_append] at htrace
  have hexecuted : Op.start w ∈ (s.executed .main).filter
      (fun op => op.isMilestone || (op.listener? measurement).isSome) :=
    List.mem_filter.mpr ⟨mem_executed_iff.mpr hstart, rfl⟩
  rcases exists_eq_append htrace hexecuted
    (fun hmem => start_not_mem_beforeStart w (List.mem_filter.mp hmem).1) with ⟨more, heq, hmore⟩
  have hnone : more.filterMap (Op.listener? measurement) = [] := by
    have hback := (listener_innerMain measurement).2
    rw [← filterMap_filter_of_isSome hcovers, ← hmore, List.filterMap_append,
      List.append_eq_nil_iff] at hback
    exact hback.1
  rw [← filterMap_filter_of_isSome hcovers, heq, List.filterMap_append, hnone, List.append_nil,
    filterMap_filter_of_isSome hcovers]
  exact (listener_innerMain measurement).1

end Listeners

/-! ## What an exited workload has done -/

section Exited

variable {spurious : Bool} {a k v w : Nat} {event : Event}

/-- The thread of a workload does nothing before it has been started. -/
theorem Reachable.started_of_mem (h : Reachable measurement spurious s) {op : Op}
    (hop : op.isMilestone = true) (hmem : (.workload w, op) ∈ s.history) :
    w ∈ measurement.workloads ∧ (.main, .start w) ∈ s.history := by
  have hs := h
  rcases h with ⟨labels, hrun⟩
  have hown := isMilestone_own measurement spurious (.workload w)
  have hw : w ∈ measurement.workloads := by
    by_contra hnot
    have hprogram : (program measurement (.workload w)).filter Op.isMilestone = [] := by
      simp [program, hnot]
    rw [Run.not_own_of_mem hown hprogram hrun hmem] at hop
    cases hop
  refine ⟨hw, (hs.start_before_begin w).mem ?_⟩
  have hexecuted : op ∈ (s.executed (.workload w)).filter Op.isMilestone :=
    List.mem_filter.mpr ⟨mem_executed_iff.mpr hmem, hop⟩
  rcases Run.executed_prefix hown hrun with ⟨later, hprefix⟩
  rw [filter_program hw] at hprefix
  cases hfirst : (s.executed (.workload w)).filter Op.isMilestone with
  | nil =>
      rw [hfirst] at hexecuted
      cases hexecuted
  | cons first rest =>
      rw [hfirst] at hprefix
      obtain rfl : first = .begin w := (List.cons.inj hprefix).1
      have hbegin : .begin w ∈ (s.executed (.workload w)).filter Op.isMilestone :=
        hfirst ▸ List.mem_cons_self
      exact mem_executed_iff.mp (List.mem_filter.mp hbegin).1

/-- A thread exits after all events it dispatches. -/
theorem isAfter_exit (hevent : event ∈ threadEvents w) :
    IsAfter measurement w event (.exit w) := by
  refine ⟨rfl, ?_⟩
  have hfront : threadMilestones measurement w =
      (threadMilestones measurement w).take 8 ++ [.exit w] := rfl
  rw [hfront]
  refine happensBefore_append ?_ (by simp [threadMilestones])
  simp only [threadEvents, List.mem_cons, List.not_mem_nil, or_false] at hevent
  rcases hevent with rfl | rfl | rfl | rfl | rfl | rfl <;> simp [threadMilestones]

/-- The end of a kernel leads to the opening of the barriers at which others wait for it. -/
theorem leads_open (hranked : measurement.Ranked rank)
    (hkind : (measurement.action a).kind = .waitForWorkload (some v))
    (ha : a ∈ waitListeners measurement) :
    Leads measurement spurious (.workload v) (.workloadEvent v .kernelStop)
      (fun op => op = .dispatchEvent (.workloadEvent v .kernelStop) ∨
        op = .notifyListeners (.workloadEvent v .kernelStop) ∨
          op = .handleEvent a (.workloadEvent v .kernelStop))
      (fun s => s.shared.opened (.action a ((waitListeners measurement).count a - 1)) = true) where
  first := Or.inl rfl
  later _ hstep h := (steps_stay hstep).1 _ h
  next {s op rest _ _} hs hcode hop heffect := by
    rcases Option.map_eq_some_iff.mp heffect with ⟨shared', hperform, heq⟩
    cases heq
    have hcaused : Caused measurement s.history (.workload v) op := hs.caused (by simp [hcode])
    have hlisteners : Dispatched s.history (.workloadEvent v .kernelStop) →
        s.shared.listeners = waitListeners measurement :=
      fun hdispatched => hs.listeners_eq hranked (hs.started_of_mem rfl hdispatched).2
    rcases hop with rfl | rfl | rfl
    · exact Or.inl ⟨_, List.mem_append_right _ List.mem_cons_self, Or.inr (Or.inl rfl)⟩
    · refine Or.inl ⟨_, List.mem_map.mpr ⟨a, ?_, rfl⟩, Or.inr (Or.inr rfl)⟩
      rw [hlisteners hcaused.2]
      exact ha
    · cases hperform
      refine Or.inr ?_
      have hcreated := hs.recorded.created a
      rw [hlisteners hcaused.2] at hcreated
      simp [Config.afterExecute, handleEvent, hkind, doesMatch_workload_iff, hcreated]

/-- An event at which a rule stops a kernel leads to this. -/
theorem leads_stop (hranked : measurement.Ranked rank) {rule : Rule}
    (hrule : rule ∈ measurement.rules) (hmatch : rule.predicate.doesMatch event = true)
    (hkind : (measurement.action rule.action).kind = .stopKernel k) (t : Thread) :
    Leads measurement spurious t event (Prepares rule event)
      (fun s => s.shared.keepRunning k = false) where
  first := .dispatchEvent
  later _ hstep h := (steps_stay hstep).2 _ h
  next {s op rest _ _} hs hcode hop heffect := by
    rcases Option.map_eq_some_iff.mp heffect with ⟨shared', hperform, heq⟩
    cases heq
    rcases hop.next hrule hmatch (hranked.here event _ (.rule hrule hmatch)) with hnext | rfl
    · exact Or.inl hnext
    · simp only [perform, executeDirect, hkind, Option.some.injEq] at hperform
      subst hperform
      exact Or.inr (Function.update_self _ _ _)

end Exited

/-! ## The barriers of synchronous executions -/

section Helpers

variable {spurious : Bool} {t : Thread}

/-- Only the execution of an action for an event comes down to the barrier of a helper. -/
theorem execute_of_mem_expand {op : Op} {shared : Shared} {n : Nat}
    (h : .waitIfClosed (.helper n) ∈ expand measurement t op shared) :
    ∃ a event, op = .execute a event := by
  unfold expand at h
  split at h
  · simp at h
  · split at h <;> simp at h
  · simp at h
  · exact ⟨_, _, rfl⟩
  · refine absurd rfl (forall_executeImp (P := fun o => o ≠ .waitIfClosed (.helper n)) ?_ ?_ ?_ ?_ ?_
      _ h)
    · exact fun _ _ _ _ _ => Op.noConfusion
    · exact fun _ _ => Op.noConfusion
    · simp
    · exact fun _ => Op.noConfusion
    · exact fun _ _ _ => ⟨Op.noConfusion, Op.noConfusion, Op.noConfusion⟩
  · cases h

/-- A thread waits at the barrier of a helper after it has opened it itself. -/
theorem protects_helper (hranked : measurement.Ranked rank) (spurious : Bool) (t : Thread) :
    (semantics measurement spurious).Protects t (Reachable measurement spurious)
      (fun guard op => ∃ n, guard = .openBarrier n ∧ op = .waitIfClosed (.helper n))
      (fun s op => ∀ n, op = .waitIfClosed (.helper n) →
        s.shared.opened (.helper n) = true) where
  later _ hstep op hreleased n hop := (steps_stay hstep).1 _ (hreleased n hop)
  execute {s op rest _ _} hs hcode heffect := by
    rcases Option.map_eq_some_iff.mp heffect with ⟨shared', hperform, heq⟩
    cases heq
    refine ⟨?_, ?_⟩
    · by_cases hexecute : ∃ a event, op = .execute a event
      · rcases hexecute with ⟨a, event, rfl⟩
        have hcaused : Caused measurement s.history t (.execute a event) :=
          hs.caused (by simp [hcode])
        have hhere : executesHere measurement s.shared t a = true := by
          simp [executesHere, hranked.here event a hcaused.2.1]
        simp only [expand, hhere, if_true]
        change Guarded _ _ ([Op.executeDirect a event, Op.openBarrier s.shared.helpers] ++
          [Op.waitIfClosed (.helper s.shared.helpers)])
        refine (guarded_of_forall (by simp)).append fun before op after hsplit => Or.inr ?_
        refine ⟨.openBarrier s.shared.helpers, by simp, s.shared.helpers, rfl, ?_⟩
        have hmem : op ∈ [Op.waitIfClosed (.helper s.shared.helpers)] :=
          hsplit ▸ List.mem_append_right before List.mem_cons_self
        exact List.mem_singleton.mp hmem
      · refine guarded_of_forall fun o ho n hwait => absurd ?_ hexecute
        exact execute_of_mem_expand (hwait ▸ ho)
    · rintro o ⟨n, rfl, rfl⟩
      cases hperform
      refine Or.inl fun m hm => ?_
      cases hm
      exact Function.update_self _ _ _
  interrupt _ heffect := by
    rcases interrupt_cases heffect with ⟨_, _, _, rfl, _, _, _, rfl, rfl⟩
    exact guarded_of_forall (by simp)

/-- A thread that is at the barrier of a helper finds it open. -/
theorem Reachable.helper_opened (hranked : measurement.Ranked rank)
    (h : Reachable measurement spurious s) {n : Nat} {rest : List Op}
    (hcode : s.code t = .waitIfClosed (.helper n) :: rest) :
    s.shared.opened (.helper n) = true := by
  rcases h with ⟨labels, hrun⟩
  have hguarded := Run.guarded (protects_helper hranked spurious t)
    (fun labels s hrun => ⟨labels, hrun⟩) (guarded_of_forall fun op hop n hwait => ?_) hrun
  · rw [hcode] at hguarded
    exact hguarded.head n rfl
  · subst hwait
    rcases mem_program hop with ⟨rfl, hmain⟩ | ⟨w, hw, rfl, hthread⟩
    · cases hmain
    · cases hthread

end Helpers

/-! ## Threads on their own -/

section Local

variable {spurious : Bool} {t : Thread}

/-- No action is queued anywhere. -/
def QueuesEmpty (shared : Shared) : Prop :=
  ∀ w, shared.actionQueue w = [] ∧ shared.threadQueue w = []

/-- If all actions are executed where the event was dispatched, nothing is ever queued. -/
theorem perform_queuesEmpty {op : Op} {shared shared' : Shared} (h : QueuesEmpty shared)
    (hhere : ∀ a event, op = .execute a event → (measurement.action a).workload = none)
    (hperform : perform measurement spurious t op shared = some shared') :
    QueuesEmpty shared' := by
  cases op with
  | forwardActions w =>
      cases hperform
      intro v
      rcases h v with ⟨haction, hthread⟩
      by_cases hsame : v = w
      · subst hsame
        simp [haction, hthread]
      · simp [Function.update_of_ne hsame, haction, hthread]
  | execute a event =>
      cases hperform
      have heq : executeAction measurement shared t a event =
          { shared with helpers := shared.helpers + 1 } := by
        simp [executeAction, hhere a event rfl]
      rw [heq]
      exact h
  | start w | exit w | openBarrier n | addMeasurerSetOutput set =>
      cases hperform
      exact h
  | initializeAction a =>
      cases hperform
      unfold initializeAction
      split <;> exact h
  | handleEvent a event =>
      cases hperform
      rcases handleEvent_eq measurement shared a event with heq | ⟨_, _, _, heq⟩ <;> rw [heq] <;>
        exact h
  | executeDirect a event =>
      simp only [perform, executeDirect] at hperform
      split at hperform
      · split at hperform
        · cases hperform
        · cases hperform
          exact h
      · cases hperform
        exact h
      · cases hperform
        exact h
  | kernel k call =>
      have hsame : shared' = shared := by
        cases call <;> simp [perform] at hperform
        all_goals simp [hperform]
      exact hsame ▸ h
  | actionProcessed =>
      cases t with
      | main => cases hperform
      | workload w =>
          cases hperform
          exact h
  | _ =>
      have hsame : shared' = shared := by
        simp [perform] at hperform
        simp [hperform]
      exact hsame ▸ h

/-- Nothing is handed over to another thread, and threads without a workload do nothing. -/
theorem Reachable.alone (hranked : measurement.Ranked rank) (h : Reachable measurement spurious s) :
    QueuesEmpty s.shared ∧ ∀ w, w ∉ measurement.workloads → s.code (.workload w) = [] := by
  rcases h with ⟨labels, hrun⟩
  induction hrun with
  | start => exact ⟨fun _ => ⟨rfl, rfl⟩, fun w hw => if_neg hw⟩
  | next hfront hlast ih =>
      rcases ih with ⟨hqueues, hidle⟩
      have hs : Reachable measurement spurious _ := ⟨_, hfront⟩
      cases steps_of_step hlast with
      | @execute t op rest ops _ hcode heffect =>
          rcases Option.map_eq_some_iff.mp heffect with ⟨shared', hperform, heq⟩
          cases heq
          have hmem : op ∈ _ := hcode ▸ List.mem_cons_self
          have hcaused := hs.caused hmem
          refine ⟨perform_queuesEmpty hqueues ?_ hperform, fun w hw => ?_⟩
          · rintro a event rfl
            exact hranked.here event a hcaused.2.1
          · have hne : Thread.workload w ≠ t := by
              rintro rfl
              rw [hidle w hw] at hcode
              cases hcode
            simp only [Function.update_of_ne hne]
            exact hidle w hw
      | interrupt heffect =>
          rcases interrupt_cases heffect with ⟨w, _, _, _, hqueue, _⟩
          rw [(hqueues w).2] at hqueue
          cases hqueue

/-- Actions are executed, and waited for, in the thread that has dispatched the event. -/
def Local (measurement : Measurement) (t : Thread) : Op → Prop
  | .executeDirect _ event => t = event.dispatcher
  | .waitIfClosed (.action a n) => ∃ event, t = event.dispatcher ∧
      Triggers measurement event a ∧ (∃ v, (measurement.action a).kind = .waitForWorkload v) ∧
        n = (waitListeners measurement).count a - 1
  | _ => True

/-- When an action that waits is triggered, the listeners have been added. -/
theorem Triggered.started (hranked : measurement.Ranked rank)
    (h : Reachable measurement spurious s) {a : Nat} {event : Event}
    (htriggered : Triggered measurement s.history a event) {v : Option Nat}
    (hkind : (measurement.action a).kind = .waitForWorkload v) :
    s.shared.listeners = waitListeners measurement := by
  rcases hranked.waits event a v htriggered.1 hkind with ⟨_, _, _, w, hdispatcher, _⟩
  have hmem : (.workload w, .dispatchEvent event) ∈ s.history := hdispatcher ▸ htriggered.2
  exact h.listeners_eq hranked (h.started_of_mem rfl hmem).2

/-- The operations of a thread only come down to such operations. -/
theorem permits_local (hranked : measurement.Ranked rank) (spurious : Bool) :
    (semantics measurement spurious).Permits (Reachable measurement spurious)
      (fun _ t => Local measurement t) where
  later _ _ h := h
  execute {s t op rest ops shared'} hs hcode hlocal heffect := by
    refine ⟨hs.step (step_execute hcode heffect), ?_⟩
    rcases Option.map_eq_some_iff.mp heffect with ⟨_, _, heq⟩
    cases heq
    have hcaused : Caused measurement s.history t op := hs.caused (by simp [hcode])
    cases op with
    | execute a event =>
        have hhere : executesHere measurement s.shared t a = true := by
          simp [executesHere, hranked.here event a hcaused.2.1]
        simp only [expand, hhere, if_true]
        exact List.forall_mem_cons.mpr ⟨hcaused.1, by simp [Local]⟩
    | executeDirect a event =>
        refine forall_executeImp (fun _ _ _ _ _ => trivial) (fun _ _ => trivial) ?_
          (fun _ => trivial) (fun _ _ _ => ⟨trivial, hlocal, trivial⟩)
        intro v hkind
        refine ⟨event, hlocal, hcaused.1, ⟨v, hkind⟩, ?_⟩
        rw [hs.recorded.created, hcaused.started hranked hs hkind]
    | dispatchEvent event =>
        simp only [expand, List.forall_mem_append, List.forall_mem_map, List.forall_mem_singleton]
        exact ⟨fun _ _ => trivial, trivial⟩
    | handle rule event =>
        simp only [expand]
        split <;> simp [Local]
    | _ => simp [expand, Local]
  interrupt hs heffect := by
    rcases interrupt_cases heffect with ⟨w, _, _, _, hqueue, _⟩
    rw [((hs.alone hranked).1 w).2] at hqueue
    cases hqueue

/-- In every reachable state, all operations of a thread are such operations. -/
theorem Reachable.local (hranked : measurement.Ranked rank)
    (h : Reachable measurement spurious s) {op : Op} (hop : op ∈ s.code t) :
    Local measurement t op := by
  rcases h with ⟨labels, hrun⟩
  refine (Run.permitted (permits_local hranked spurious) ⟨[], .start⟩ ?_ hrun).2 t op hop
  intro t op hop
  rcases mem_program hop with ⟨rfl, hmain⟩ | ⟨w, _, rfl, hthread⟩
  · cases hmain <;> trivial
  · cases hthread <;> trivial

end Local

/-! ## Waiting threads -/

section Waiting

variable {t : Thread} {op : Op} {rest : List Op}

/-- What an operation that cannot be executed waits for. -/
inductive WaitsFor (measurement : Measurement) (shared : Shared) (t : Thread) : Op → Prop
  | join {w : Nat} (h : shared.exited w = false) : WaitsFor measurement shared t (.join w)
  | begin {w : Nat} (h : shared.started w = false) : WaitsFor measurement shared t (.begin w)
  | run {k : Nat} (hendless : (measurement.kernel k).endless = true)
      (h : shared.keepRunning k = true) : WaitsFor measurement shared t (.kernel k .run)
  | executeDirect {a : Nat} {event : Event} {v : Option Nat}
      (hkind : (measurement.action a).kind = .waitForWorkload v) (h : shared.created a = 0) :
      WaitsFor measurement shared t (.executeDirect a event)
  | waitIfClosed {b : BarrierRef} (h : shared.opened b = false) :
      WaitsFor measurement shared t (.waitIfClosed b)
  | actionProcessed (h : t = .main) : WaitsFor measurement shared t .actionProcessed

/-- An operation that cannot be executed waits for something. -/
theorem waitsFor_of_perform {shared : Shared} (h : perform measurement false t op shared = none) :
    WaitsFor measurement shared t op := by
  cases op with
  | join w =>
      refine .join ?_
      simpa [perform] using h
  | begin w =>
      refine .begin ?_
      simpa [perform] using h
  | kernel k call =>
      cases call with
      | run =>
          have hboth : (measurement.kernel k).endless = true ∧ shared.keepRunning k = true := by
            simpa [perform] using h
          exact .run hboth.1 hboth.2
      | _ => cases h
  | executeDirect a event =>
      simp only [perform, executeDirect] at h
      split at h
      · rename_i hkind
        split at h
        · rename_i hcreated
          exact .executeDirect hkind hcreated
        · cases h
      · cases h
      · cases h
  | waitIfClosed b =>
      refine .waitIfClosed ?_
      simpa [perform] using h
  | actionProcessed =>
      cases t with
      | main => exact .actionProcessed rfl
      | workload w => cases h
  | _ => cases h

/-- The actions that wait are those of rules. -/
theorem mem_waitListeners (hranked : measurement.Ranked rank) {a : Nat} {event : Event}
    {v : Option Nat} (htriggers : Triggers measurement event a)
    (hkind : (measurement.action a).kind = .waitForWorkload v) : a ∈ waitListeners measurement := by
  cases htriggers with
  | @rule rule hrule _ => exact List.mem_filterMap.mpr ⟨rule, hrule, by simp [Op.listener?, hkind]⟩
  | @inner b _ set _ hinner => exact absurd hkind (hranked.inner b a set hinner v)

/-- A thread waits for its start, for the end of another one or, in the case of a workload, for a
workload of a lower rank. -/
theorem Reachable.blocked (hranked : measurement.Ranked rank)
    (h : Reachable measurement false s) (hcode : s.code t = op :: rest)
    (hblocked : perform measurement false t op s.shared = none) :
    (∃ w ∈ measurement.workloads, t = .main ∧ op = .join w ∧ s.shared.exited w = false) ∨
      (∃ w, t = .workload w ∧ s.shared.started w = false) ∨
        ∃ w, t = .workload w ∧
          ∃ v ∈ measurement.workloads, rank v < rank w ∧ s.shared.exited v = false := by
  have hcaused : Caused measurement s.history t op := h.caused (by simp [hcode])
  have hlocal : Local measurement t op := h.local hranked (by simp [hcode])
  have hexited : ∀ v, s.shared.exited v = true → (.workload v, .exit v) ∈ s.history :=
    fun v => (h.recorded.exited v).mp
  cases waitsFor_of_perform hblocked with
  | @join w hw => exact Or.inl ⟨w, hcaused.2, hcaused.1, rfl, hw⟩
  | @begin w hw => exact Or.inr (Or.inl ⟨w, hcaused, hw⟩)
  | @run k hendless hgoes =>
      rcases hcaused with ⟨w, hw, rfl, rfl⟩
      rcases hranked.stopped w hw hendless with
        ⟨v, hv, hrank, event, hevent, rule, hrule, hmatch, hkind⟩
      refine Or.inr (Or.inr ⟨w, rfl, v, hv, hrank, ?_⟩)
      by_contra hnot
      have hstop := (leads_stop hranked hrule hmatch hkind (.workload v)).of_mem h
        (isAfter_exit hevent) (hexited v (by simpa using hnot))
      rw [hstop] at hgoes
      cases hgoes
  | @executeDirect a event v hkind hcreated =>
      rw [h.recorded.created, hcaused.started hranked h hkind, List.count_eq_zero] at hcreated
      exact absurd (mem_waitListeners hranked hcaused.1 hkind) hcreated
  | @waitIfClosed b hclosed =>
      cases b with
      | helper n =>
          rw [h.helper_opened hranked hcode] at hclosed
          cases hclosed
      | action a n =>
          rcases hlocal with ⟨event, rfl, htriggers, ⟨waitFor, hkind⟩, rfl⟩
          rcases hranked.waits event a waitFor htriggers hkind with
            ⟨v, hv, rfl, w, hdispatcher, hrank⟩
          refine Or.inr (Or.inr ⟨w, hdispatcher, v, hv, hrank, ?_⟩)
          by_contra hnot
          have hopened := (leads_open hranked hkind (mem_waitListeners hranked htriggers hkind)).of_mem
            h (isAfter_exit (by simp [threadEvents])) (hexited v (by simpa using hnot))
          rw [hopened] at hclosed
          cases hclosed
  | actionProcessed hmain =>
      rcases hcaused with ⟨w, hworkload⟩
      rw [hmain] at hworkload
      cases hworkload

end Waiting

/-! ## Progress -/

section Progress

variable {v w : Nat}

/-- No thread can go on. -/
def Stuck (measurement : Measurement) (s : State) : Prop :=
  ∀ t op rest, s.code t = op :: rest → perform measurement false t op s.shared = none

/-- A workload is started before any is waited for. -/
theorem start_before_join (hv : v ∈ measurement.workloads) :
    HappensBefore (mainMilestones measurement) (.start v) (.join w) := by
  rw [mainMilestones, List.append_assoc]
  exact happensBefore_append (by simp [hv]) (by simp)

/-- When no thread can go on, all workloads have been started, -/
theorem Reachable.started_of_stuck (hranked : measurement.Ranked rank)
    (h : Reachable measurement false s) (hstuck : Stuck measurement s)
    (hv : v ∈ measurement.workloads) : s.shared.started v = true := by
  rw [h.recorded.started]
  have hs := h
  rcases h with ⟨labels, hrun⟩
  have hown := isMilestone_own measurement false .main
  have hprogram : (program measurement .main).filter Op.isMilestone = mainMilestones measurement :=
    filter_innerMain
  cases hcode : s.code .main with
  | nil =>
      have hexecuted := Run.executed_of_code_eq_nil hown hrun hcode
      rw [hprogram] at hexecuted
      have hmem : Op.start v ∈ (s.executed .main).filter Op.isMilestone := by
        rw [hexecuted]
        simp [mainMilestones, hv]
      exact mem_executed_iff.mp (List.mem_filter.mp hmem).1
  | cons op rest =>
      rcases hs.blocked hranked hcode (hstuck _ _ _ hcode) with
        ⟨w, hw, _, rfl, _⟩ | ⟨w, hw, _⟩ | ⟨w, hw, _⟩
      · exact Run.mem_history_of_code hown rfl (hprogram ▸ start_before_join hv) hrun hcode
      · cases hw
      · cases hw

/-- and have exited: the one of the least rank that has not would wait for another one. -/
theorem Reachable.exited_of_stuck (hranked : measurement.Ranked rank)
    (h : Reachable measurement false s) (hstuck : Stuck measurement s)
    (hv : v ∈ measurement.workloads) : s.shared.exited v = true := by
  induction hrank : rank v using Nat.strongRecOn generalizing v with
  | ind r ih =>
      subst hrank
      cases hcode : s.code (.workload v) with
      | nil =>
          rw [h.recorded.exited]
          rcases h with ⟨labels, hrun⟩
          have hexecuted := Run.executed_of_code_eq_nil (isMilestone_own measurement false _) hrun
            hcode
          rw [filter_program hv] at hexecuted
          have hmem : Op.exit v ∈ (s.executed (.workload v)).filter Op.isMilestone := by
            rw [hexecuted]
            simp [threadMilestones]
          exact mem_executed_iff.mp (List.mem_filter.mp hmem).1
      | cons op rest =>
          rcases h.blocked hranked hcode (hstuck _ _ _ hcode) with
            ⟨_, _, hmain, _⟩ | ⟨w, hw, hnot⟩ | ⟨w, hw, u, hu, hlower, hnot⟩
          · cases hmain
          · cases hw
            rw [h.started_of_stuck hranked hstuck hv] at hnot
            cases hnot
          · cases hw
            rw [ih _ hlower hu rfl] at hnot
            cases hnot

/-- In every state of a run some thread can go on until all have come to their end. -/
theorem progress (hranked : measurement.Ranked rank) (h : Reachable measurement false s)
    (hunfinished : ¬Finished s) :
    ∃ label s', Threads.step (semantics measurement false) s label = .ok s' := by
  by_contra hnone
  have hstuck : Stuck measurement s := by
    intro t op rest hcode
    by_contra hsome
    rcases Option.ne_none_iff_exists'.mp hsome with ⟨shared', hperform⟩
    have heffect : (semantics measurement false).execute t op s.shared =
        some (expand measurement t op s.shared, shared') := by simp [semantics, hperform]
    exact hnone ⟨.execute t, _, step_execute hcode heffect⟩
  refine hunfinished fun t => ?_
  by_contra hcode
  rcases List.exists_cons_of_ne_nil hcode with ⟨op, rest, hcode⟩
  have hworkload : ∀ w, t = .workload w → w ∈ measurement.workloads := by
    rintro w rfl
    by_contra hnot
    rw [(h.alone hranked).2 w hnot] at hcode
    cases hcode
  rcases h.blocked hranked hcode (hstuck _ _ _ hcode) with
    ⟨w, hw, _, _, hnot⟩ | ⟨w, hw, hnot⟩ | ⟨w, _, v, hv, _, hnot⟩
  · rw [h.exited_of_stuck hranked hstuck hw] at hnot
    cases hnot
  · rw [h.started_of_stuck hranked hstuck (hworkload w hw)] at hnot
    cases hnot
  · rw [h.exited_of_stuck hranked hstuck hv] at hnot
    cases hnot

end Progress

end MeasurementRun
end ChildProcess
end Roofline
