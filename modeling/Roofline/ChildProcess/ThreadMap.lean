import Roofline.Library.Programs
import Roofline.Library.Runs
import Roofline.ParentProcess.Abi

/-!
# The thread map and the notifications of a child

The threads of the child process are kept in a map, which is used under a mutex that is locked and
unlocked by hand.  {lit}`processNotification` handles a notification, whose handlers may use the
map and throw, and answers the parent that it is done.

Main results:

- Theorem {lit}`Handler.outcome_run`: what a handler does to the mutex and to the answers.
- Theorem {lit}`disciplined_iff`: the mutex is free after each operation and each notification is
  answered once exactly in the runs in which only known threads are looked up and no handler throws
  that is to be answered.
-/

namespace Roofline
namespace ChildProcess
namespace ThreadMap

open ParentProcess Programs Runs

/-! ## Operations -/

/-- The thread map, its mutex, and the notifications of the parent. -/
structure State where
  /-- The keys of the thread map. -/
  threadMap : List Pid
  /-- {lit}`threadMapMutex` is locked. -/
  locked : Bool
  /-- What the parent is notified of. -/
  toParent : List ParentNotification

/-- How an operation may end without returning: by an exception, waiting for the mutex for ever, or
by {lit}`SYS_exit`. -/
inductive Ended
  | exception (message : String)
  | blocked
  | exited

/-- {lit}`threadMapMutex.lock()`, which blocks for ever if the mutex is locked. -/
def lock : Program Ended State Unit :=
  primitive fun s =>
    if s.locked then (.error .blocked, s) else (.ok (), { s with locked := true })

/-- {lit}`threadMapMutex.unLock()` -/
def unLock : Program Ended State Unit :=
  primitive fun s => (.ok (), { s with locked := false })

/-- {lit}`ChildProcess::notifyParent` -/
def notifyParent (notification : ParentNotification) : Program Ended State Unit :=
  primitive fun s => (.ok (), { s with toParent := s.toParent ++ [notification] })

/-- A thread is known by its pid. -/
def getChildThread (childPid : Pid) : Program Ended State Pid := do
  lock
  if childPid ∉ (← get).threadMap then
    throw (.exception "threadMap does not contain pid")
  unLock
  return childPid

/-- {lit}`getChildThreads`; {lit}`getChildThreadsAndAddRule` does the same, and adds a rule before
it unlocks the mutex. -/
def getChildThreads : Program Ended State (List Pid) := do
  lock
  let result := (← get).threadMap
  unLock
  return result

/-- What the handlers do with the threads. -/
inductive Access
  | getChildThread (childPid : Pid)
  | getChildThreads
  | queueAction (childPid : Pid)

/-- What an access of the handler does to the thread map. -/
def Access.run : Access → Program Ended State Unit
  | .getChildThread childPid => do
      let _ ← ThreadMap.getChildThread childPid
  | .getChildThreads => do
      let _ ← ThreadMap.getChildThreads
  | .queueAction _ => notifyParent .queueProcessActions

/-- One access after the other. -/
def runAll : List Access → Program Ended State Unit
  | [] => pure ()
  | access :: accesses => do
      access.run
      runAll accesses

/-- A handler ends by returning or by throwing an {lit}`Exception`. -/
structure Handler where
  accesses : List Access
  throws : Option String

/-- A handler makes its accesses and returns or throws. -/
def Handler.run (handler : Handler) : Program Ended State Unit := do
  runAll handler.accesses
  match handler.throws with
  | some message => throw (.exception message)
  | none => pure ()

/-- A thread is registered if it is not known yet. -/
def insertThread (childPid : Pid) (threadMap : List Pid) : List Pid :=
  if childPid ∈ threadMap then threadMap else threadMap ++ [childPid]

/-- The {lit}`if` statements of {lit}`processNotification`. -/
def handle (childPid : Pid) (notification : ChildNotification) (arg : Pid) (handler : Handler) :
    Program Ended State Unit :=
  match notification with
  | .threadExiting => do
      let _ ← getChildThread childPid
      handler.run
      throw .exited
  | .threadExited => do
      lock
      primitive fun s => (.ok (), { s with threadMap := s.threadMap.filter (· ≠ arg) })
      unLock
  | .threadStarted => do
      lock
      primitive fun s => (.ok (), { s with threadMap := insertThread childPid s.threadMap })
      unLock
      handler.run
  | .processActions => do
      let _ ← getChildThread childPid
      handler.run

/-- The exception is logged. -/
def processNotification (childPid : Pid) (notification : ChildNotification) (arg : Pid)
    (handler : Handler) : Program Ended State Unit :=
  tryCatch
    (do
      handle childPid notification arg handler
      notifyParent .processingDone)
    fun ended =>
      match ended with
      | .exception _ => pure ()
      | _ => throw ended

/-- A notification that is processed, or an access from elsewhere. -/
inductive Operation
  | processNotification (childPid : Pid) (notification : ChildNotification) (arg : Pid)
      (handler : Handler)
  | lookup (access : Access)

/-- What an operation does. -/
def Operation.run : Operation → Program Ended State Unit
  | .processNotification childPid notification arg handler =>
      ThreadMap.processNotification childPid notification arg handler
  | .lookup access => access.run

/-- An operation that waits for the mutex does not end. -/
def step (s : State) (operation : Operation) : Except Blocked State :=
  match outcome operation.run s with
  | (.error .blocked, _) => .error .blocked
  | (_, s') => .ok s'

/-- No thread is known, and the mutex is free. -/
def initial : State :=
  ⟨[], false, []⟩

/-! ## The mutex and the answers -/

section Discipline

/-- How often the parent has been answered. -/
def State.answers (s : State) : Nat :=
  s.toParent.count .processingDone

/-- The mutex is free, and neither the threads nor the answers have changed. -/
structure Unchanged (s s' : State) : Prop where
  free : s'.locked = false
  threadMap : s'.threadMap = s.threadMap
  answers : s'.answers = s.answers

/-- The access looks up a known thread, or none. -/
def Access.Known (threadMap : List Pid) : Access → Prop
  | .getChildThread childPid => childPid ∈ threadMap
  | _ => True

/-- Only known threads are looked up. -/
def Handler.Known (handler : Handler) (threadMap : List Pid) : Prop :=
  ∀ access ∈ handler.accesses, access.Known threadMap

/-- The operation looks up known threads only, and no exception keeps it from answering. -/
def Operation.Handled (threadMap : List Pid) : Operation → Prop
  | .lookup access => access.Known threadMap
  | .processNotification childPid notification _ handler =>
      match notification with
      | .threadExiting => childPid ∈ threadMap ∧ handler.Known threadMap
      | .threadExited => True
      | .threadStarted =>
          handler.Known (insertThread childPid threadMap) ∧ handler.throws = none
      | .processActions =>
          childPid ∈ threadMap ∧ handler.Known threadMap ∧ handler.throws = none

/-- The notifications that are to be answered. -/
def Operation.isAnswered : Operation → Bool
  | .processNotification _ notification _ _ => notification ≠ .threadExiting
  | .lookup _ => false

variable {s s' : State}

/-- Looking up an unknown thread throws with the mutex locked. -/
theorem outcome_getChildThread (hfree : s.locked = false) (childPid : Pid) :
    outcome (getChildThread childPid) s =
      if childPid ∈ s.threadMap then (.ok childPid, s)
      else (.error (.exception "threadMap does not contain pid"), { s with locked := true }) := by
  rcases s with ⟨threadMap, locked, toParent⟩
  obtain rfl : locked = false := hfree
  by_cases hmem : childPid ∈ threadMap
  · simp only [getChildThread, lock, unLock, outcome_bind, outcome_primitive, outcome_get,
      outcome_pure, Bool.false_eq_true, if_false, hmem, not_true, if_true]
  · simp only [getChildThread, lock, outcome_bind, outcome_primitive, outcome_get,
      outcome_throw, Bool.false_eq_true, if_false, hmem, not_false_eq_true, if_true]

/-- All threads are returned, and the mutex is freed. -/
theorem outcome_getChildThreads (hfree : s.locked = false) :
    outcome getChildThreads s = (.ok s.threadMap, s) := by
  rcases s with ⟨threadMap, locked, toParent⟩
  obtain rfl : locked = false := hfree
  simp only [getChildThreads, lock, unLock, outcome_bind, outcome_primitive, outcome_get,
    outcome_pure, Bool.false_eq_true, if_false]

/-- A free mutex is left as it is. -/
theorem Unchanged.refl (hfree : s.locked = false) : Unchanged s s :=
  ⟨hfree, rfl, rfl⟩

/-- An access to known threads returns and changes nothing. -/
theorem Access.outcome_run (hfree : s.locked = false) {access : Access}
    (hknown : access.Known s.threadMap) :
    ∃ s', outcome access.run s = (.ok (), s') ∧ Unchanged s s' := by
  cases access with
  | getChildThread childPid =>
      have hmem : childPid ∈ s.threadMap := hknown
      refine ⟨s, ?_, .refl hfree⟩
      rw [run, outcome_bind, outcome_getChildThread hfree, if_pos hmem]
      rfl
  | getChildThreads =>
      refine ⟨s, ?_, .refl hfree⟩
      rw [run, outcome_bind, outcome_getChildThreads hfree]
      rfl
  | queueAction childPid =>
      refine ⟨_, rfl, hfree, rfl, ?_⟩
      simp [State.answers]

/-- When an unknown thread is looked up, the mutex stays locked. -/
theorem Access.outcome_run_unknown (hfree : s.locked = false) {access : Access}
    (hunknown : ¬access.Known s.threadMap) :
    ∃ message s', outcome access.run s = (.error (.exception message), s') ∧
      s'.locked = true := by
  cases access with
  | getChildThread childPid =>
      have hmem : childPid ∉ s.threadMap := hunknown
      refine ⟨"threadMap does not contain pid", { s with locked := true }, ?_, rfl⟩
      rw [run, outcome_bind, outcome_getChildThread hfree, if_neg hmem]
  | getChildThreads => exact absurd trivial hunknown
  | queueAction childPid => exact absurd trivial hunknown

/-- So do all accesses of a handler. -/
theorem outcome_runAll (hfree : s.locked = false) {accesses : List Access}
    (hknown : ∀ access ∈ accesses, access.Known s.threadMap) :
    ∃ s', outcome (runAll accesses) s = (.ok (), s') ∧ Unchanged s s' := by
  induction accesses generalizing s with
  | nil => exact ⟨s, rfl, .refl hfree⟩
  | cons access accesses ih =>
      rw [List.forall_mem_cons] at hknown
      rcases access.outcome_run hfree hknown.1 with ⟨s₁, hrun, hsame⟩
      rcases ih hsame.free (by rw [hsame.threadMap]; exact hknown.2) with ⟨s₂, hrest, hrestSame⟩
      refine ⟨s₂, ?_, hrestSame.free, hrestSame.threadMap.trans hsame.threadMap,
        hrestSame.answers.trans hsame.answers⟩
      rw [runAll, outcome_bind, hrun]
      exact hrest

/-- If one of them looks up an unknown thread, they throw with the mutex locked. -/
theorem outcome_runAll_unknown (hfree : s.locked = false) {accesses : List Access}
    (hunknown : ¬∀ access ∈ accesses, access.Known s.threadMap) :
    ∃ message s', outcome (runAll accesses) s = (.error (.exception message), s') ∧
      s'.locked = true := by
  induction accesses generalizing s with
  | nil => simp at hunknown
  | cons access accesses ih =>
      rw [List.forall_mem_cons] at hunknown
      by_cases hfirst : access.Known s.threadMap
      · rcases access.outcome_run hfree hfirst with ⟨s₁, hrun, hsame⟩
        have hrest : ¬∀ access ∈ accesses, access.Known s₁.threadMap := by
          rw [hsame.threadMap]
          exact fun h => hunknown ⟨hfirst, h⟩
        rcases ih hsame.free hrest with ⟨message, s₂, hrunRest, hlocked⟩
        refine ⟨message, s₂, ?_, hlocked⟩
        rw [runAll, outcome_bind, hrun]
        exact hrunRest
      · rcases access.outcome_run_unknown hfree hfirst with ⟨message, s₁, hrun, hlocked⟩
        refine ⟨message, s₁, ?_, hlocked⟩
        rw [runAll, outcome_bind, hrun]

/-- How a handler that looks up known threads ends. -/
def Handler.result (handler : Handler) : Except Ended Unit :=
  match handler.throws with
  | some message => .error (.exception message)
  | none => .ok ()

/-- A handler that looks up known threads leaves the mutex free, however it ends. -/
theorem Handler.outcome_run (hfree : s.locked = false) {handler : Handler}
    (hknown : handler.Known s.threadMap) :
    ∃ s', outcome handler.run s = (handler.result, s') ∧ Unchanged s s' := by
  rcases outcome_runAll hfree hknown with ⟨s', hrun, hsame⟩
  refine ⟨s', ?_, hsame⟩
  rw [run, outcome_bind, hrun, result]
  cases handler.throws with
  | none => rfl
  | some message => rfl

/-- So does the handler. -/
theorem Handler.outcome_run_unknown (hfree : s.locked = false) {handler : Handler}
    (hunknown : ¬handler.Known s.threadMap) :
    ∃ message s', outcome handler.run s = (.error (.exception message), s') ∧
      s'.locked = true := by
  rcases outcome_runAll_unknown hfree hunknown with ⟨message, s', hrun, hlocked⟩
  refine ⟨message, s', ?_, hlocked⟩
  rw [run, outcome_bind, hrun]

variable {childPid arg : Pid} {handler : Handler}

/-- An unknown thread is not found, and the mutex stays locked. -/
theorem outcome_bind_getChildThread {next : Pid → Program Ended State Unit}
    (hfree : s.locked = false) :
    outcome (getChildThread childPid >>= next) s =
      if childPid ∈ s.threadMap then outcome (next childPid) s
      else (.error (.exception "threadMap does not contain pid"), { s with locked := true }) := by
  rw [outcome_bind, outcome_getChildThread hfree]
  by_cases hmem : childPid ∈ s.threadMap
  · rw [if_pos hmem, if_pos hmem]
  · rw [if_neg hmem, if_neg hmem]

/-- Where no exception keeps it from answering, a notification is handled without any. -/
theorem outcome_handle {notification : ChildNotification} (hfree : s.locked = false)
    (hanswered : notification ≠ .threadExiting)
    (hhandled : (Operation.processNotification childPid notification arg handler).Handled
      s.threadMap) :
    ∃ s', outcome (handle childPid notification arg handler) s = (.ok (), s') ∧
      s'.locked = false ∧ s'.answers = s.answers := by
  cases notification with
  | threadStarted =>
      rcases hhandled with ⟨hknown, hthrows⟩
      let started : State := { s with
        threadMap := insertThread childPid s.threadMap
        locked := false }
      rcases handler.outcome_run (s := started) rfl hknown with ⟨s', hrun, hsame⟩
      refine ⟨s', ?_, hsame.free, hsame.answers⟩
      rw [Handler.result, hthrows] at hrun
      simp only [handle, lock, unLock, outcome_bind, outcome_primitive, hfree, Bool.false_eq_true,
        if_false]
      exact hrun
  | processActions =>
      rcases hhandled with ⟨hmem, hknown, hthrows⟩
      rcases handler.outcome_run hfree hknown with ⟨s', hrun, hsame⟩
      refine ⟨s', ?_, hsame.free, hsame.answers⟩
      rw [Handler.result, hthrows] at hrun
      rw [handle, outcome_bind_getChildThread hfree, if_pos hmem]
      exact hrun
  | threadExited =>
      refine ⟨{ s with threadMap := s.threadMap.filter (· ≠ arg), locked := false }, ?_, rfl, rfl⟩
      simp only [handle, lock, unLock, outcome_bind, outcome_primitive, hfree, Bool.false_eq_true,
        if_false]
  | threadExiting => exact absurd rfl hanswered

/-- A thread that exits does not come back, unless its handler throws. -/
theorem outcome_handle_threadExiting (arg : Pid) (hfree : s.locked = false)
    (hmem : childPid ∈ s.threadMap) (hknown : handler.Known s.threadMap) :
    ∃ ended s', outcome (handle childPid .threadExiting arg handler) s = (.error ended, s') ∧
      ended ≠ .blocked ∧ s'.locked = false ∧ s'.answers = s.answers := by
  rcases handler.outcome_run hfree hknown with ⟨s', hrun, hsame⟩
  cases hthrows : handler.throws with
  | none =>
      refine ⟨.exited, s', ?_, by simp, hsame.free, hsame.answers⟩
      rw [Handler.result, hthrows] at hrun
      rw [handle, outcome_bind_getChildThread hfree, if_pos hmem, outcome_bind, hrun]
      rfl
  | some message =>
      refine ⟨.exception message, s', ?_, by simp, hsame.free, hsame.answers⟩
      rw [Handler.result, hthrows] at hrun
      rw [handle, outcome_bind_getChildThread hfree, if_pos hmem, outcome_bind, hrun]

/-- A handler that looks up unknown threads or throws ends with an exception. -/
theorem Handler.outcome_run_throws (hfree : s.locked = false)
    (hunhandled : ¬(handler.Known s.threadMap ∧ handler.throws = none)) :
    ∃ message s', outcome handler.run s = (.error (.exception message), s') ∧
      (s'.locked = true ∨ s'.answers = s.answers) := by
  by_cases hknown : handler.Known s.threadMap
  · rcases Option.ne_none_iff_exists'.mp fun h => hunhandled ⟨hknown, h⟩ with ⟨message, hthrows⟩
    rcases handler.outcome_run hfree hknown with ⟨s', hrun, hsame⟩
    rw [result, hthrows] at hrun
    exact ⟨message, s', hrun, .inr hsame.answers⟩
  · rcases handler.outcome_run_unknown hfree hknown with ⟨message, s', hrun, hlocked⟩
    exact ⟨message, s', hrun, .inl hlocked⟩

/-- Otherwise an exception is thrown while the mutex is locked, or instead of the answer. -/
theorem outcome_handle_unhandled {notification : ChildNotification} (hfree : s.locked = false)
    (hunhandled : ¬(Operation.processNotification childPid notification arg handler).Handled
      s.threadMap) :
    ∃ message s', outcome (handle childPid notification arg handler) s =
        (.error (.exception message), s') ∧
      (s'.locked = true ∨ notification ≠ .threadExiting ∧ s'.answers = s.answers) := by
  cases notification with
  | threadStarted =>
      let started : State := { s with
        threadMap := insertThread childPid s.threadMap
        locked := false }
      rcases handler.outcome_run_throws (s := started) rfl hunhandled with
        ⟨message, s', hrun, hends⟩
      refine ⟨message, s', ?_, hends.imp_right fun h => ⟨by decide, h⟩⟩
      simp only [handle, lock, unLock, outcome_bind, outcome_primitive, hfree, Bool.false_eq_true,
        if_false]
      exact hrun
  | processActions =>
      rw [handle, outcome_bind_getChildThread hfree]
      by_cases hmem : childPid ∈ s.threadMap
      · rw [if_pos hmem]
        rcases handler.outcome_run_throws hfree fun h => hunhandled ⟨hmem, h⟩ with
          ⟨message, s', hrun, hends⟩
        exact ⟨message, s', hrun, hends.imp_right fun h => ⟨by decide, h⟩⟩
      · rw [if_neg hmem]
        exact ⟨_, _, rfl, .inl rfl⟩
  | threadExited => exact absurd trivial hunhandled
  | threadExiting =>
      rw [handle, outcome_bind_getChildThread hfree]
      by_cases hmem : childPid ∈ s.threadMap
      · rw [if_pos hmem]
        rcases handler.outcome_run_unknown hfree fun h => hunhandled ⟨hmem, h⟩ with
          ⟨message, s', hrun, hlocked⟩
        refine ⟨message, s', ?_, .inl hlocked⟩
        rw [outcome_bind, hrun]
      · rw [if_neg hmem]
        exact ⟨_, _, rfl, .inl rfl⟩

/-- An operation that is handled leaves the mutex free and answers once, if it is to answer. -/
theorem step_handled {operation : Operation} (hfree : s.locked = false)
    (hhandled : operation.Handled s.threadMap) :
    ∃ s', step s operation = .ok s' ∧ s'.locked = false ∧
      s'.answers = s.answers + if operation.isAnswered then 1 else 0 := by
  cases operation with
  | lookup access =>
      rcases access.outcome_run hfree hhandled with ⟨s', hrun, hsame⟩
      refine ⟨s', ?_, hsame.free, hsame.answers⟩
      rw [step, Operation.run, hrun]
  | processNotification childPid notification arg handler =>
      by_cases hexiting : notification = .threadExiting
      · subst hexiting
        rcases outcome_handle_threadExiting arg hfree hhandled.1 hhandled.2 with
          ⟨ended, s', hrun, hended, hends⟩
        refine ⟨s', ?_, hends⟩
        rw [step, Operation.run, processNotification, outcome_tryCatch, outcome_bind, hrun]
        cases ended with
        | exception message => rfl
        | blocked => exact absurd rfl hended
        | exited => rfl
      · rcases outcome_handle hfree hexiting hhandled with ⟨s', hrun, hfree', hanswers⟩
        refine ⟨{ s' with toParent := s'.toParent ++ [.processingDone] }, ?_, hfree', ?_⟩
        · rw [step, Operation.run, processNotification, outcome_tryCatch, outcome_bind, hrun]
          rfl
        · have hcount : (s'.toParent ++ [ParentNotification.processingDone]).count
              ParentNotification.processingDone = s'.answers + 1 := by
            rw [List.count_append]
            rfl
          change (s'.toParent ++ [ParentNotification.processingDone]).count
            ParentNotification.processingDone = _
          rw [hcount, hanswers]
          simp [Operation.isAnswered, hexiting]

/-- After an operation that is not handled, the mutex is locked or an answer is missing. -/
theorem step_unhandled {operation : Operation} (hfree : s.locked = false)
    (hunhandled : ¬operation.Handled s.threadMap) (hstep : step s operation = .ok s') :
    s'.locked = true ∨ operation.isAnswered = true ∧ s'.answers = s.answers := by
  cases operation with
  | lookup access =>
      rcases access.outcome_run_unknown hfree hunhandled with ⟨message, s₁, hrun, hlocked⟩
      rw [step, Operation.run, hrun] at hstep
      cases hstep
      exact .inl hlocked
  | processNotification childPid notification arg handler =>
      rcases outcome_handle_unhandled hfree hunhandled with ⟨message, s₁, hrun, hends⟩
      rw [step, Operation.run, processNotification, outcome_tryCatch, outcome_bind, hrun] at hstep
      cases hstep
      exact hends.imp_right fun h => ⟨by simp [Operation.isAnswered, h.1], h.2⟩

end Discipline

/-! ## Runs -/

/-- The mutex is free, and each notification that is to be answered has been answered once. -/
structure Disciplined (operations : List Operation) (s : State) : Prop where
  free : s.locked = false
  answered : s.answers = operations.countP Operation.isAnswered

/-- The property holds of no operation. -/
theorem disciplined_initial : Disciplined [] initial :=
  ⟨rfl, rfl⟩

section Runs

variable {s s' : State} {operations : List Operation} {operation : Operation}

/-- An operation that is handled keeps the property. -/
theorem Disciplined.next (hs : Disciplined operations s)
    (hhandled : operation.Handled s.threadMap) (hstep : step s operation = .ok s') :
    Disciplined (operations ++ [operation]) s' := by
  rcases step_handled hs.free hhandled with ⟨s₁, hstep₁, hfree, hanswers⟩
  obtain rfl : s' = s₁ := Except.ok.inj (hstep.symm.trans hstep₁)
  refine ⟨hfree, ?_⟩
  rw [hanswers, hs.answered, List.countP_append, List.countP_singleton]

/-- An operation that is not handled ends it. -/
theorem Disciplined.not_next (hs : Disciplined operations s)
    (hunhandled : ¬operation.Handled s.threadMap) (hstep : step s operation = .ok s') :
    ¬Disciplined (operations ++ [operation]) s' := by
  rintro ⟨hfree, hanswered⟩
  rcases step_unhandled hs.free hunhandled hstep with hlocked | ⟨hisAnswered, hanswers⟩
  · exact Bool.false_ne_true (hfree.symm.trans hlocked)
  · rw [hanswers, hs.answered, List.countP_append, List.countP_singleton, if_pos hisAnswered]
      at hanswered
    omega

/-- Over every run, the mutex is free after each operation and each notification that is to be
answered is answered once exactly when only known threads are looked up and no handler throws that
is to be answered. -/
theorem disciplined_iff (hrun : Run step initial operations s) :
    Visits step initial operations Disciplined ↔
      StepsMeet step initial (fun _ s operation => operation.Handled s.threadMap) operations := by
  refine Run.visits_iff_stepsMeet (P := Disciplined) disciplined_initial ?_ ?_ ?_ hrun
  · intro before s operation s' _ hs hhandled hstep
    exact hs.next hhandled hstep
  · intro before s hs
    exact hs
  · intro before s operation s' hs hunhandled hstep
    exact hs.not_next hunhandled hstep

end Runs

/-- Thread 1 starts, processes an action that looks it up, and exits. -/
theorem disciplined_iff_oneThread :
    Visits step initial
        [.processNotification 1 .threadStarted 0 ⟨[], none⟩,
          .processNotification 1 .processActions 0 ⟨[.getChildThread 1, .queueAction 1], none⟩,
          .processNotification 1 .threadExiting 0 ⟨[], none⟩]
        Disciplined := by
  refine (disciplined_iff (run_iff_exec.mpr rfl)).mpr ?_
  refine stepsMeet_cons rfl ?_ (stepsMeet_cons rfl ?_ (stepsMeet_cons rfl ?_ (stepsMeet_nil _)))
  · exact ⟨by simp [Handler.Known], rfl⟩
  · exact ⟨by decide, by simp [Handler.Known, Access.Known, insertThread, initial], rfl⟩
  · exact ⟨by decide, by simp [Handler.Known]⟩

/-- After the start of thread 1, thread 2 is looked up; or the handler of the start throws. -/
theorem not_disciplined_oneThread :
    (¬∀ operations s, Run step initial operations s → s.locked = false) ∧
      ¬∀ operations s, Run step initial operations s →
        s.answers = operations.countP Operation.isAnswered := by
  constructor
  · intro hall
    have hlocked := hall
      [.processNotification 1 .threadStarted 0 ⟨[], none⟩, .lookup (.getChildThread 2)]
      ⟨[1], true, [.processingDone]⟩ (run_iff_exec.mpr rfl)
    exact absurd hlocked (by decide)
  · intro hall
    have hanswers := hall [.processNotification 1 .threadStarted 0 ⟨[], some "out of range"⟩]
      ⟨[1], false, []⟩ (run_iff_exec.mpr rfl)
    exact absurd hanswers (by decide)

end ThreadMap
end ChildProcess
end Roofline
