import Roofline.ParentProcess.ExitSteps

/-!
# Exit calls of threads are transparent

A thread that calls {lit}`SYS_exit` shall execute a harmless call instead, process its
notifications up to {lit}`ThreadExiting`, and then exit by a call of processNotification with the
status of its own call.  Here the threads are modeled beside the parent: the registers with which
they enter the notification procedure, and how far they have come with an exit call.

Main results:

- Theorem {lit}`InFlight.step`: an exiting notification carries the value that is kept for its
  thread.
- Theorem {lit}`Followed.step`: the entries of the parent follow the exit calls that meet the
  condition.
- Theorem {lit}`transparentExits_iff`: over every run, the exit calls are transparent exactly when
  no entry of an earlier exit is left, the system is ready, and {lit}`bx` holds the status.
- Theorem {lit}`not_transparentExits`: on the 64 bit machine it does not.
-/

namespace Roofline
namespace ParentProcess

/-- The first argument of a system call, by the convention of Linux. -/
def Regs.firstArgument : {abi : Abi} → Regs abi → Long abi
  | .i386, regs => regs.bx
  | .x86_64, regs => regs.di

/-- The argument of {lit}`SYS_exit` is an {lit}`int`. -/
def Regs.exitStatus {abi : Abi} (regs : Regs abi) : BitVec 32 :=
  regs.firstArgument.setWidth 32

namespace ThreadExit

open Roofline.ParentProcess.System Runs ExitEntry

variable {abi : Abi}

/-! ## The threads -/

/-- How far a thread has come with its exit call. -/
inductive ExitCall (abi : Abi) where
  | notYet
  /-- It has called {lit}`SYS_exit` with these registers, and the parent replaced them by others. -/
  | called (regs : Regs abi) (replacement : Option (Regs abi))
  /-- It has left that call, and has so many notifications to answer before the last one. -/
  | left (regs : Regs abi) (ahead : Nat)
  /-- processNotification has called {lit}`SYS_exit`. -/
  | issued (regs issued : Regs abi) (replacement : Option (Regs abi))

/-- What the kernel knows about a thread. -/
structure Task (abi : Abi) where
  /-- The thread is in a system call. -/
  inCall : Bool
  /-- The registers with which it last entered the notification procedure. -/
  handling : Option (Regs abi)
  exit : ExitCall abi

/-- A thread that has done nothing. -/
def Task.fresh : Task abi :=
  ⟨false, none, .notYet⟩

/-- Before the system is ready, a thread is not diverted to the notification procedure. -/
def handlingAfter (handling : Option (Regs abi)) : Write abi → Option (Regs abi)
  | .diverts isReady regs => if isReady then some regs else none
  | .restores _ => none
  | .replaces _ => handling

/-- The registers that replace those of the thread, if any do. -/
def replacement (writes : List (Write abi)) : Option (Regs abi) :=
  writes.findSome? fun write =>
    match write with
    | .replaces regs => some regs
    | _ => none

/-- The thread is told of this. -/
def isTold (handling : Option (Regs abi)) (event : ChildNotification) : Bool :=
  handling.any fun regs => regs.childNotification == some event

/-- What the parent sees and does at a stop: whether the thread answers, how many notifications are
pending, and which registers are written. -/
structure Seen (abi : Abi) where
  answered : Bool
  pending : Nat
  writes : List (Write abi)

/-- The call that is entered, if it is an exit call. -/
def exitCall (stop : Stop abi) : Option (Regs abi) :=
  stop.regs.filter fun regs => regs.origAx == abi.sysExit

/-- The exit call after a stop.  The call is {lit}`issued` by processNotification or by other
code. -/
def Task.exitAfter (task : Task abi) (issued : Bool) (stop : Stop abi) (seen : Seen abi) :
    ExitCall abi :=
  if stop.isSyscall then
    if task.inCall then
      match task.exit with
      | .called regs _ => .left regs seen.pending
      | exit => exit
    else
      match exitCall stop with
      | none => task.exit
      | some regs =>
          if issued then
            match task.exit with
            | .left atCall _ => .issued atCall regs (replacement seen.writes)
            | exit => exit
          else
            .called regs (replacement seen.writes)
  else
    match task.exit with
    | .left regs ahead => .left regs (if seen.answered then ahead - 1 else ahead)
    | exit => exit

/-- The thread after a stop and what the parent did at it. -/
def Task.next (task : Task abi) (issued : Bool) (stop : Stop abi) (seen : Seen abi) : Task abi :=
  if stop.isEnd then
    .fresh
  else
    { inCall := if stop.isSyscall then !task.inCall else task.inCall
      handling := seen.writes.foldl handlingAfter task.handling
      exit := task.exitAfter issued stop seen }

/-- The parent and the threads it traces. -/
structure Traced (abi : Abi) where
  parent : System abi
  tasks : Pid → Task abi

/-- The events of the kernel: a thread is created, stops, or calls exit. -/
inductive Event (abi : Abi) where
  | created (pid : Pid)
  | stops (stop : Stop abi)
  /-- {lit}`syscall(SYS_exit,arg)` in processNotification. -/
  | exits (stop : Stop abi)

/-- What the parent sees of an event. -/
def Event.input : Event abi → Input abi
  | .created pid => .created pid
  | .stops stop => .reported stop
  | .exits stop => .reported stop

/-- processNotification does not answer an exiting notification, but calls {lit}`SYS_exit` with its
argument. -/
def possible (traced : Traced abi) : Event abi → Bool
  | .created _ => true
  | .stops stop =>
      !(traced.parent.answers stop && isTold (traced.tasks stop.pid).handling .threadExiting)
  | .exits stop =>
      stop.isSyscall && !(traced.tasks stop.pid).inCall &&
        stop.regs.any fun regs => regs.origAx == abi.sysExit &&
          (traced.tasks stop.pid).handling.any fun entered =>
            entered.childNotification == some .threadExiting &&
              regs.exitStatus == entered.childArg

/-- What the parent sees and does at a stop. -/
def seen (parent parent' : System abi) (stop : Stop abi) : Seen abi where
  answered := parent.answers stop
  pending := (parent.queueOf stop.pid).length
  writes := (parent'.log.drop parent.log.length).filterMap (Effect.writeTo stop.pid)

/-- The parent and the thread after a stop. -/
def Traced.stopped (traced : Traced abi) (parent' : System abi) (issued : Bool) (stop : Stop abi) :
    Traced abi where
  parent := parent'
  tasks := Function.update traced.tasks stop.pid
    ((traced.tasks stop.pid).next issued stop (seen traced.parent parent' stop))

/-- The parent and all threads after an event. -/
def Traced.after (traced : Traced abi) (parent' : System abi) : Event abi → Traced abi
  | .created _ => { traced with parent := parent' }
  | .stops stop => traced.stopped parent' false stop
  | .exits stop => traced.stopped parent' true stop

/-- The loop of the parent may have ended. -/
def step (traced : Traced abi) (event : Event abi) : Except Blocked (Traced abi) :=
  if possible traced event then
    match traced.parent.step event.input with
    | .error _ => .error .blocked
    | .ok parent' => .ok (traced.after parent' event)
  else
    .error .blocked

/-- The parent at its start, and threads that have done nothing. -/
def initial (mainChild : Pid) (notifyAddress entry : Long abi) : Traced abi where
  parent := start mainChild notifyAddress entry
  tasks _ := .fresh

/-! ## Transparent exits -/

/-- The exit call is a harmless call; when it has been left, the thread is told of the notifications
that were pending, one after the other, and then that it is exiting; and the call of
processNotification has the status of the exit call and is left alone. -/
def Task.Transparent (task : Task abi) : Prop :=
  match task.exit with
  | .notYet => True
  | .called regs replacement => replacement = some { regs with origAx := abi.sysGetpid }
  | .left _ 0 => isTold task.handling .threadExiting = true
  | .left _ (_ + 1) => task.handling ≠ none
  | .issued regs issued replacement => issued.exitStatus = regs.exitStatus ∧ replacement = none

/-- All threads exit as if they were not traced. -/
def TransparentExits (traced : Traced abi) : Prop :=
  ∀ pid, (traced.tasks pid).Transparent

/-- The thread calls {lit}`SYS_exit`. -/
def Task.callsExit (task : Task abi) (stop : Stop abi) : Prop :=
  stop.isSyscall = true ∧ task.inCall = false ∧ stop.callsExit = true

/-- The thread leaves the call that its exit call has become. -/
def Task.leavesExit (task : Task abi) (stop : Stop abi) : Prop :=
  stop.isSyscall = true ∧ task.inCall = true ∧
    ∃ regs replacement, task.exit = .called regs replacement

/-- At an exit call the parent has no entry of an earlier exit of a thread with this id, and does
not take it to be in a system call; when the thread leaves the call, the system is ready; and the
lower half of {lit}`bx` was the status. -/
def Meets (traced : Traced abi) : Event abi → Prop
  | .created _ => True
  | .stops stop =>
      ((traced.tasks stop.pid).callsExit stop →
        traced.parent.childExiting stop.pid = none ∧
          (traced.parent.childInSyscall stop.pid).getD false = false) ∧
      ((traced.tasks stop.pid).leavesExit stop → traced.parent.notificationSystemReady = true)
  | .exits stop =>
      ∀ regs ahead, (traced.tasks stop.pid).exit = .left regs ahead →
        regs.bx.setWidth 32 = regs.exitStatus

/-! ## Exiting notifications in flight -/

section InFlight

variable {entry entry' : ExitEntry abi} {handling : Option (Regs abi)} {answered : Bool}
  {stop : Stop abi} {writes : List (Write abi)}

/-- This is the value kept for the exit, and the thread has been or will be told of it. -/
def Keeps (entry : ExitEntry abi) (value : BitVec 32) : Prop :=
  entry.exiting = some 1 ∧ (entry.exitValue.getD 0).setWidth 32 = value

/-- The exiting notifications of a thread, pending or being handled, carry the kept value. -/
structure InFlight (entry : ExitEntry abi) (handling : Option (Regs abi)) : Prop where
  queued : ∀ arg, (.threadExiting, arg) ∈ entry.queue → Keeps entry (arg.setWidth 32)
  handled : ∀ regs, handling = some regs → regs.childNotification = some .threadExiting →
    Keeps entry regs.childArg

/-- The saved exit value matters and nothing else. -/
theorem Keeps.congr {value : BitVec 32} (h : Keeps entry value)
    (hexiting : entry'.exiting = entry.exiting) (hexitValue : entry'.exitValue = entry.exitValue) :
    Keeps entry' value :=
  ⟨hexiting.trans h.1, by rw [hexitValue, h.2]⟩

/-- Nothing was added to the queue, and what is handled was handled or queued. -/
theorem InFlight.congr {handling' : Option (Regs abi)} (h : InFlight entry handling)
    (hexiting : entry'.exiting = entry.exiting) (hexitValue : entry'.exitValue = entry.exitValue)
    (hqueue : ∀ arg, (.threadExiting, arg) ∈ entry'.queue → (.threadExiting, arg) ∈ entry.queue)
    (hhandling : ∀ regs, handling' = some regs → regs.childNotification = some .threadExiting →
      handling = some regs ∨
        ∃ arg, (.threadExiting, arg) ∈ entry.queue ∧ regs.childArg = arg.setWidth 32) :
    InFlight entry' handling' where
  queued arg hmem := (h.queued arg (hqueue arg hmem)).congr hexiting hexitValue
  handled regs hregs hevent := by
    rcases hhandling regs hregs hevent with hsame | ⟨arg, hqueued, harg⟩
    · exact (h.handled regs hsame hevent).congr hexiting hexitValue
    · rw [harg]
      exact (h.queued arg hqueued).congr hexiting hexitValue

/-- What spares the entry keeps what is in flight. -/
theorem InFlight.spares (h : InFlight entry handling) (hspares : Spares entry entry') :
    InFlight entry' handling := by
  refine h.congr hspares.exiting hspares.exitValue ?_ fun regs hregs _ => .inl hregs
  intro arg hmem
  rcases hspares.queue with ⟨more, hqueue, hother⟩
  rw [hqueue] at hmem
  rcases List.mem_append.mp hmem with hold | hnew
  · exact hold
  · exact absurd rfl (hother _ hnew)

/-- A notification that has been in the queue is handled. -/
theorem InFlight.take {event : ChildNotification} {arg : Long abi}
    {rest : List (ChildNotification × Long abi)} {regs : Regs abi} (h : InFlight entry handling)
    (isReady : Bool) (hqueue : entry.queue = (event, arg) :: rest) (htells : Tells regs event arg) :
    InFlight (entry.take rest) (handlingAfter handling (.diverts isReady regs)) := by
  refine h.congr rfl rfl ?_ ?_
  · intro arg hmem
    rw [hqueue]
    exact List.mem_cons_of_mem _ hmem
  · intro regs' hregs hevent
    rw [handlingAfter] at hregs
    cases isReady with
    | false => simp at hregs
    | true =>
        obtain rfl : regs = regs' := Option.some.inj hregs
        obtain rfl : event = .threadExiting := Option.some.inj (htells.event.symm.trans hevent)
        exact .inr ⟨arg, by rw [hqueue]; exact List.mem_cons_self .., htells.arg⟩

/-- While no exiting notification may be in flight, there is none. -/
theorem InFlight.of_exiting_ne (h : InFlight entry handling) (hexiting : entry.exiting ≠ some 1) :
    (∀ arg, (.threadExiting, arg) ∉ entry.queue) ∧
      ∀ regs, handling = some regs → regs.childNotification ≠ some .threadExiting :=
  ⟨fun arg hmem => hexiting (h.queued arg hmem).1,
    fun regs hregs hevent => hexiting (h.handled regs hregs hevent).1⟩

/-- An exiting notification carries the value that is kept for its thread. -/
theorem InFlight.step (h : InFlight entry handling)
    (hstep : ExitStep answered stop entry writes entry') :
    InFlight entry' (writes.foldl handlingAfter handling) := by
  cases hstep with
  | spared _ _ hspares => exact h.spares hspares
  | observed _ _ hwrites hexiting hexitValue hqueue =>
      refine h.congr hexiting hexitValue ?_ ?_
      · intro arg hmem
        rcases hqueue with hqueue | hqueue
        · rwa [hqueue] at hmem
        · rw [hqueue] at hmem
          simpa using hmem
      · intro regs hregs hevent
        rcases hwrites with rfl | ⟨regs', rfl, htells⟩
        · exact .inl hregs
        · obtain rfl : regs' = regs := Option.some.inj hregs
          simp [htells.event] at hevent
  | delivered _ _ hspares hqueue htells => exact (h.spares hspares).take _ hqueue htells
  | restored =>
      refine h.congr rfl rfl (fun _ hmem => hmem) ?_
      intro regs hregs
      simp [handlingAfter] at hregs
  | entered => exact h.congr rfl rfl (fun _ hmem => hmem) fun _ hregs _ => .inl hregs
  | intercepted _ _ _ _ hexiting =>
      rcases h.of_exiting_ne (by simp [hexiting]) with ⟨hqueued, hhandled⟩
      exact ⟨fun arg hmem => absurd hmem (hqueued arg),
        fun regs hregs hevent => absurd hevent (hhandled regs hregs)⟩
  | left => exact h.congr rfl rfl (fun _ hmem => hmem) fun _ hregs _ => .inl hregs
  | @exitLeft event arg rest regs _ _ hexiting hqueue htells =>
      rcases h.of_exiting_ne (by simp [hexiting]) with ⟨hqueued, hhandled⟩
      -- the notification that is queued now is the only one, and it carries the kept value
      let announced : ExitEntry abi :=
        { entry with
          exiting := some 1
          queue := entry.queue ++ [(.threadExiting, entry.exitValue.getD 0)] }
      have hannounced : InFlight announced handling := by
        refine ⟨?_, fun regs hregs hevent => absurd hevent (hhandled regs hregs)⟩
        intro arg hmem
        rcases List.mem_append.mp hmem with hold | hnew
        · exact absurd hold (hqueued arg)
        · obtain rfl : arg = entry.exitValue.getD 0 := by simpa using hnew
          exact ⟨rfl, rfl⟩
      exact (hannounced.take entry.ready hqueue htells).congr rfl rfl
        (fun _ hmem => hmem) fun _ hregs _ => .inl hregs

/-- A leftover entry has nothing in flight for the next thread. -/
theorem InFlight.leftover (h : InFlight entry handling) (hleftover : Leftover entry entry') :
    InFlight entry' none :=
  h.congr hleftover.exiting hleftover.exitValue (fun _ hmem => hleftover.queue _ hmem)
    fun _ hregs => by simp at hregs

end InFlight

/-! ## Exit calls that are followed -/

section Followed

variable {entry entry' : ExitEntry abi} {task : Task abi} {stop : Stop abi}
  {writes : List (Write abi)} {regs : Regs abi} {ahead : Nat}

/-- The thread is in the call that its exit call has become. -/
structure Called (entry : ExitEntry abi) (inCall : Bool) (regs : Regs abi) : Prop where
  inCall : inCall = true
  exiting : entry.exiting = some 2
  exitValue : entry.exitValue = some regs.bx
  inSyscall : entry.inSyscall = some true
  known : entry.state ≠ none

/-- The exiting notification is being handled, or behind the notifications that are ahead. -/
def Announced (entry : ExitEntry abi) (handling : Option (Regs abi)) (regs : Regs abi) : Nat → Prop
  | 0 => isTold handling .threadExiting = true
  | ahead + 1 => handling ≠ none ∧ entry.queue[ahead]? = some (.threadExiting, regs.bx)

/-- The thread has left that call. -/
structure HasLeft (entry : ExitEntry abi) (inCall : Bool) (handling : Option (Regs abi))
    (regs : Regs abi) (ahead : Nat) : Prop where
  exiting : entry.exiting = some 1
  exitValue : entry.exitValue = some regs.bx
  inSyscall : entry.inSyscall = some inCall
  processing : entry.state = some .processingNotification
  ready : entry.ready = true
  announced : Announced entry handling regs ahead

/-- The entry of the parent follows the exit call of the thread. -/
def Followed (entry : ExitEntry abi) (task : Task abi) : Prop :=
  match task.exit with
  | .notYet => True
  | .called regs replacement =>
      replacement = some { regs with origAx := abi.sysGetpid } ∧ Called entry task.inCall regs
  | .left regs ahead => HasLeft entry task.inCall task.handling regs ahead
  | .issued regs issued replacement => issued.exitStatus = regs.exitStatus ∧ replacement = none

/-- A thread that is followed exits transparently. -/
theorem Followed.transparent (h : Followed entry task) : task.Transparent := by
  rcases task with ⟨inCall, handling, exit⟩
  cases exit with
  | notYet => trivial
  | called regs replacement => exact h.1
  | left regs ahead =>
      cases ahead with
      | zero => exact h.announced
      | succ ahead => exact h.announced.1
  | issued regs issued replacement => exact h

/-- More notifications behind the exit keep it announced. -/
theorem Announced.of_queue {handling : Option (Regs abi)} (h : Announced entry handling regs ahead)
    {more : List (ChildNotification × Long abi)} (hqueue : entry'.queue = entry.queue ++ more) :
    Announced entry' handling regs ahead := by
  cases ahead with
  | zero => exact h
  | succ ahead =>
      refine ⟨h.1, ?_⟩
      rw [hqueue, List.getElem?_append_left (List.getElem?_eq_some_iff.mp h.2).1]
      exact h.2

/-- What spares the entry keeps the call. -/
theorem Called.spares {inCall : Bool} (h : Called entry inCall regs)
    (hspares : Spares entry entry') : Called entry' inCall regs where
  inCall := h.inCall
  exiting := hspares.exiting.trans h.exiting
  exitValue := hspares.exitValue.trans h.exitValue
  inSyscall := hspares.inSyscall.trans h.inSyscall
  known := hspares.known h.known

/-- What spares the entry keeps that the thread has left the call. -/
theorem HasLeft.spares {inCall : Bool} {handling : Option (Regs abi)}
    (h : HasLeft entry inCall handling regs ahead) (hspares : Spares entry entry') :
    HasLeft entry' inCall handling regs ahead where
  exiting := hspares.exiting.trans h.exiting
  exitValue := hspares.exitValue.trans h.exitValue
  inSyscall := hspares.inSyscall.trans h.inSyscall
  processing := hspares.processing h.ready h.processing
  ready := hspares.ready h.ready
  announced := by
    rcases hspares.queue with ⟨more, hqueue, _⟩
    exact h.announced.of_queue hqueue

/-- What spares the entry keeps the thread followed. -/
theorem Followed.spares (h : Followed entry task) (hspares : Spares entry entry') :
    Followed entry' task := by
  rcases task with ⟨inCall, handling, exit⟩
  cases exit with
  | notYet => trivial
  | called regs replacement => exact ⟨h.1, h.2.spares hspares⟩
  | left regs ahead => exact HasLeft.spares h hspares
  | issued regs issued replacement => exact h

/-! ## Stops that are no system calls -/

/-- Other stops of the thread keep the call. -/
theorem Called.of_not_isSyscall {answered inCall : Bool} (h : Called entry inCall regs)
    (hstep : ExitStep answered stop entry writes entry') (hsyscall : stop.isSyscall = false) :
    Called entry' inCall regs := by
  cases hstep with
  | spared _ _ hspares => exact h.spares hspares
  | observed _ hunknown => exact absurd hunknown h.known
  | delivered _ _ hspares _ _ =>
      have hmid := h.spares hspares
      exact ⟨h.inCall, hmid.exiting, hmid.exitValue, hmid.inSyscall, by simp [ExitEntry.take]⟩
  | restored => exact ⟨h.inCall, h.exiting, h.exitValue, h.inSyscall, by simp⟩
  | entered hcall => simp [hsyscall] at hcall
  | intercepted hcall => simp [hsyscall] at hcall
  | left hcall => simp [hsyscall] at hcall
  | exitLeft hcall => simp [hsyscall] at hcall

/-- When the thread answers, it is told of the next notification. -/
theorem Announced.answered {handling : Option (Regs abi)} {told : Regs abi}
    {event : ChildNotification} {arg : Long abi} {rest : List (ChildNotification × Long abi)}
    (h : Announced entry handling regs ahead) (hnotLast : isTold handling .threadExiting = false)
    (hqueue : entry.queue = (event, arg) :: rest) (htells : Tells told event arg) :
    Announced (entry.take rest) (some told) regs (ahead - 1) := by
  cases ahead with
  | zero =>
      have hlast : isTold handling .threadExiting = true := h
      simp [hnotLast] at hlast
  | succ ahead =>
      have hbehind := h.2
      rw [hqueue] at hbehind
      cases ahead with
      | zero =>
          obtain rfl : event = .threadExiting := by simpa using (congrArg (·.map Prod.fst) hbehind)
          simp [Announced, isTold, htells.event]
      | succ ahead => exact ⟨by simp, by simpa [ExitEntry.take] using hbehind⟩

/-- Other stops, but the last answer, keep that the thread has left the call. -/
theorem HasLeft.of_not_isSyscall {answered inCall : Bool} {handling : Option (Regs abi)}
    (h : HasLeft entry inCall handling regs ahead)
    (hstep : ExitStep answered stop entry writes entry') (hsyscall : stop.isSyscall = false)
    (hnotLast : answered = true → isTold handling .threadExiting = false) :
    HasLeft entry' inCall (writes.foldl handlingAfter handling) regs
      (if answered then ahead - 1 else ahead) := by
  cases hstep with
  | spared _ hanswer hspares =>
      rw [hanswer h.processing, if_neg Bool.false_ne_true]
      exact h.spares hspares
  | observed _ hunknown => simp [h.processing] at hunknown
  | @delivered mid event arg rest told _ hanswer hspares hqueue htells =>
      rcases hanswer h.processing with ⟨rfl, rfl⟩
      have hannounced := h.announced.answered (hnotLast rfl) hqueue htells
      rw [if_pos rfl]
      refine ⟨h.exiting, h.exitValue, h.inSyscall, rfl, h.ready, ?_⟩
      rwa [List.foldl_cons, List.foldl_nil, handlingAfter, h.ready, if_pos rfl]
  | restored _ hanswered hempty =>
      cases ahead with
      | zero =>
          have hlast : isTold handling .threadExiting = true := h.announced
          simp [hnotLast hanswered] at hlast
      | succ ahead =>
          have hbehind := h.announced.2
          simp [hempty] at hbehind
  | entered hcall => simp [hsyscall] at hcall
  | intercepted hcall => simp [hsyscall] at hcall
  | left hcall => simp [hsyscall] at hcall
  | exitLeft hcall => simp [hsyscall] at hcall

/-! ## System calls -/

/-- A call that replaced an exit call is left, and nothing else happens to the thread in it. -/
theorem Called.exitLeft {answered inCall : Bool} (h : Called entry inCall regs)
    (hstep : ExitStep answered stop entry writes entry') (hsyscall : stop.isSyscall = true) :
    ∃ event arg rest told, writes = [.diverts entry.ready told] ∧ Tells told event arg ∧
      entry.queue ++ [(.threadExiting, regs.bx)] = (event, arg) :: rest ∧
      entry' = { entry.take rest with inSyscall := some false, exiting := some 1 } := by
  cases hstep with
  | exitLeft _ _ _ hqueue htells =>
      rw [h.exitValue, Option.getD_some] at hqueue
      exact ⟨_, _, _, _, rfl, htells, hqueue, rfl⟩
  | spared hother => simp [hsyscall] at hother
  | observed hother => simp [hsyscall] at hother
  | delivered hother => simp [hsyscall] at hother
  | restored hother => simp [hsyscall] at hother
  | entered _ hin => simp [h.inSyscall] at hin
  | intercepted _ hin => simp [h.inSyscall] at hin
  | left _ _ hexiting => exact absurd h.exiting hexiting

/-- When the system is ready, the thread is told of the first notification. -/
theorem Called.leaves {answered inCall : Bool} {handling : Option (Regs abi)}
    (h : Called entry inCall regs) (hstep : ExitStep answered stop entry writes entry')
    (hsyscall : stop.isSyscall = true) (hready : entry.ready = true) :
    HasLeft entry' false (writes.foldl handlingAfter handling) regs entry.queue.length := by
  rcases h.exitLeft hstep hsyscall with ⟨event, arg, rest, told, rfl, htells, hqueue, rfl⟩
  refine ⟨rfl, h.exitValue, rfl, rfl, hready, ?_⟩
  rw [List.foldl_cons, List.foldl_nil, handlingAfter, hready, if_pos rfl]
  cases hpending : entry.queue with
  | nil =>
      rw [hpending, List.nil_append, List.cons.injEq, Prod.mk.injEq] at hqueue
      simp [Announced, isTold, htells.event, ← hqueue.1.1]
  | cons first others =>
      rw [hpending, List.cons_append, List.cons.injEq] at hqueue
      refine ⟨by simp, ?_⟩
      simp [ExitEntry.take, ← hqueue.2]

/-- Other calls of a thread that has left its exit call are entered and left. -/
theorem HasLeft.of_isSyscall {answered inCall : Bool} {handling : Option (Regs abi)}
    (h : HasLeft entry inCall handling regs ahead)
    (hstep : ExitStep answered stop entry writes entry') (hsyscall : stop.isSyscall = true) :
    writes = [] ∧ HasLeft entry' (!inCall) handling regs ahead := by
  cases hstep with
  | entered _ hin =>
      obtain rfl : inCall = false := by simpa [h.inSyscall] using hin
      exact ⟨rfl, h.exiting, h.exitValue, rfl, h.processing, h.ready,
        h.announced.of_queue (List.append_nil _).symm⟩
  | left _ hin =>
      obtain rfl : inCall = true := by simpa [h.inSyscall] using hin
      exact ⟨rfl, h.exiting, h.exitValue, rfl, h.processing, h.ready,
        h.announced.of_queue (List.append_nil _).symm⟩
  | intercepted _ _ _ _ hexiting => simp [h.exiting] at hexiting
  | exitLeft _ _ hexiting => simp [h.exiting] at hexiting
  | spared hother => simp [hsyscall] at hother
  | observed hother => simp [hsyscall] at hother
  | delivered hother => simp [hsyscall] at hother
  | restored hother => simp [hsyscall] at hother

/-- An exit call is replaced when there is no entry of an earlier one. -/
theorem called_of_exitStep {answered : Bool}
    (hstep : ExitStep answered stop entry writes entry') (hsyscall : stop.isSyscall = true)
    (hregs : stop.regs = some regs) (hexit : regs.origAx = abi.sysExit)
    (hexiting : entry.exiting = none) (hin : entry.inSyscall.getD false = false) :
    replacement writes = some { regs with origAx := abi.sysGetpid } ∧ Called entry' true regs := by
  cases hstep with
  | intercepted _ _ hregs' _ _ hknown =>
      obtain rfl := Option.some.inj (hregs.symm.trans hregs')
      exact ⟨rfl, rfl, rfl, rfl, rfl, hknown⟩
  | entered _ _ hregs' hother =>
      obtain rfl := Option.some.inj (hregs.symm.trans hregs')
      exact absurd ⟨hexit, hexiting⟩ hother
  | left _ hin' => simp [hin] at hin'
  | exitLeft _ hin' => simp [hin] at hin'
  | spared hother => simp [hsyscall] at hother
  | observed hother => simp [hsyscall] at hother
  | delivered hother => simp [hsyscall] at hother
  | restored hother => simp [hsyscall] at hother

/-- And only then. -/
theorem replacement_of_exitStep {answered : Bool}
    (hstep : ExitStep answered stop entry writes entry')
    (hleftover : ¬(entry.exiting = none ∧ entry.inSyscall.getD false = false)) :
    replacement writes = none := by
  cases hstep with
  | spared => rfl
  | observed _ _ hwrites =>
      rcases hwrites with rfl | ⟨told, rfl, _⟩
      · rfl
      · rfl
  | delivered => rfl
  | restored => rfl
  | entered => rfl
  | intercepted _ hin _ _ hexiting => exact absurd ⟨hexiting, hin⟩ hleftover
  | left => rfl
  | exitLeft => rfl

/-! ## Stops -/

/-- When a stop is a call of exit. -/
theorem exitCall_eq_some : exitCall stop = some regs ↔
    stop.regs = some regs ∧ regs.origAx = abi.sysExit := by
  simp [exitCall, Option.filter_eq_some_iff]

/-- Such a stop calls exit. -/
theorem callsExit_of_exitCall (hcall : exitCall stop = some regs) : stop.callsExit = true := by
  rcases exitCall_eq_some.mp hcall with ⟨hregs, hexit⟩
  simp [Stop.callsExit, hregs, hexit]

/-- A call is left. -/
theorem Followed.leaves {answered issued : Bool} (h : Followed entry task)
    (hstep : ExitStep answered stop entry writes entry') (hsyscall : stop.isSyscall = true)
    (hin : task.inCall = true) (hready : task.leavesExit stop → entry.ready = true) :
    Followed entry' (task.next issued stop ⟨answered, entry.queue.length, writes⟩) := by
  have hend := stop.not_isEnd_of_isSyscall hsyscall
  rcases task with ⟨inCall, handling, exit⟩
  obtain rfl : inCall = true := hin
  cases exit with
  | notYet => simp [Followed, Task.next, Task.exitAfter, hend, hsyscall]
  | called regs replacement =>
      have hleft : HasLeft entry' false (writes.foldl handlingAfter handling) regs
          entry.queue.length :=
        h.2.leaves hstep hsyscall (hready ⟨hsyscall, rfl, regs, replacement, rfl⟩)
      simpa [Followed, Task.next, Task.exitAfter, hend, hsyscall] using hleft
  | left regs ahead =>
      rcases HasLeft.of_isSyscall h hstep hsyscall with ⟨rfl, hleft⟩
      simpa [Followed, Task.next, Task.exitAfter, hend, hsyscall] using hleft
  | issued regs issued replacement =>
      simpa [Followed, Task.next, Task.exitAfter, hend, hsyscall] using h

/-- A call is entered that is no exit call. -/
theorem Followed.enters {answered issued : Bool} (h : Followed entry task)
    (hstep : ExitStep answered stop entry writes entry') (hsyscall : stop.isSyscall = true)
    (hout : task.inCall = false) (hcall : exitCall stop = none) :
    Followed entry' (task.next issued stop ⟨answered, entry.queue.length, writes⟩) := by
  have hend := stop.not_isEnd_of_isSyscall hsyscall
  rcases task with ⟨inCall, handling, exit⟩
  obtain rfl : inCall = false := hout
  cases exit with
  | notYet => simp [Followed, Task.next, Task.exitAfter, hend, hsyscall, hcall]
  | called regs replacement => exact absurd h.2.inCall Bool.false_ne_true
  | left regs ahead =>
      rcases HasLeft.of_isSyscall h hstep hsyscall with ⟨rfl, hleft⟩
      simpa [Followed, Task.next, Task.exitAfter, hend, hsyscall, hcall] using hleft
  | issued regs issued replacement =>
      simpa [Followed, Task.next, Task.exitAfter, hend, hsyscall, hcall] using h

/-- The thread calls {lit}`SYS_exit`. -/
theorem followed_of_callsExit {answered : Bool}
    (hstep : ExitStep answered stop entry writes entry') (hsyscall : stop.isSyscall = true)
    (hout : task.inCall = false) (hcall : exitCall stop = some regs)
    (hexiting : entry.exiting = none) (hin : entry.inSyscall.getD false = false) :
    Followed entry' (task.next false stop ⟨answered, entry.queue.length, writes⟩) := by
  have hend := stop.not_isEnd_of_isSyscall hsyscall
  rcases exitCall_eq_some.mp hcall with ⟨hregs, hexit⟩
  have hcalled := called_of_exitStep hstep hsyscall hregs hexit hexiting hin
  simpa [Followed, Task.next, Task.exitAfter, hend, hsyscall, hout, hcall] using hcalled

/-- The thread stops outside of system calls. -/
theorem Followed.of_not_isSyscall {answered issued : Bool} (h : Followed entry task)
    (hstep : ExitStep answered stop entry writes entry') (hend : stop.isEnd = false)
    (hsyscall : stop.isSyscall = false)
    (hnotLast : answered = true → isTold task.handling .threadExiting = false) :
    Followed entry' (task.next issued stop ⟨answered, entry.queue.length, writes⟩) := by
  rcases task with ⟨inCall, handling, exit⟩
  cases exit with
  | notYet => simp [Followed, Task.next, Task.exitAfter, hend, hsyscall]
  | called regs replacement =>
      have hcalled := h.2.of_not_isSyscall hstep hsyscall
      simpa [Followed, Task.next, Task.exitAfter, hend, hsyscall] using ⟨h.1, hcalled⟩
  | left regs ahead =>
      have hleft := HasLeft.of_not_isSyscall h hstep hsyscall hnotLast
      simpa [Followed, Task.next, Task.exitAfter, hend, hsyscall] using hleft
  | issued regs issued replacement =>
      simpa [Followed, Task.next, Task.exitAfter, hend, hsyscall] using h

/-- A stop of a thread whose exit calls meet the condition. -/
theorem Followed.stops {answered : Bool} (h : Followed entry task)
    (hstep : ExitStep answered stop entry writes entry') (hend : stop.isEnd = false)
    (hnotLast : answered = true → isTold task.handling .threadExiting = false)
    (hcalls : task.callsExit stop → entry.exiting = none ∧ entry.inSyscall.getD false = false)
    (hready : task.leavesExit stop → entry.ready = true) :
    Followed entry' (task.next false stop ⟨answered, entry.queue.length, writes⟩) := by
  cases hsyscall : stop.isSyscall with
  | false => exact h.of_not_isSyscall hstep hend hsyscall hnotLast
  | true =>
      cases hin : task.inCall with
      | true => exact h.leaves hstep hsyscall hin hready
      | false =>
          cases hcall : exitCall stop with
          | none => exact h.enters hstep hsyscall hin hcall
          | some regs =>
              rcases hcalls ⟨hsyscall, hin, callsExit_of_exitCall hcall⟩ with ⟨hexiting, hout⟩
              exact followed_of_callsExit hstep hsyscall hin hcall hexiting hout

/-- The exit call of processNotification has the kept value. -/
theorem exitStatus_of_isTold {handling : Option (Regs abi)} {issued : Regs abi}
    (hflight : InFlight entry handling)
    (hissued : (handling.any fun entered => entered.childNotification == some .threadExiting &&
      issued.exitStatus == entered.childArg) = true) :
    (entry.exitValue.getD 0).setWidth 32 = issued.exitStatus := by
  rw [Option.any_eq_true] at hissued
  rcases hissued with ⟨entered, hhandling, hentered⟩
  rw [Bool.and_eq_true, beq_iff_eq, beq_iff_eq] at hentered
  rw [hentered.2]
  exact (hflight.handled entered hhandling hentered.1).2

/-- The exit call of processNotification is left alone. -/
theorem Followed.exits {answered : Bool} {issued : Regs abi} (h : Followed entry task)
    (hflight : InFlight entry task.handling)
    (hstep : ExitStep answered stop entry writes entry') (hsyscall : stop.isSyscall = true)
    (hout : task.inCall = false) (hcall : exitCall stop = some issued)
    (hissued : (task.handling.any fun entered =>
      entered.childNotification == some .threadExiting &&
        issued.exitStatus == entered.childArg) = true)
    (hstatus : ∀ regs ahead, task.exit = .left regs ahead →
      regs.bx.setWidth 32 = regs.exitStatus) :
    Followed entry' (task.next true stop ⟨answered, entry.queue.length, writes⟩) := by
  have hend := stop.not_isEnd_of_isSyscall hsyscall
  have hkept := exitStatus_of_isTold hflight hissued
  rcases task with ⟨inCall, handling, exit⟩
  obtain rfl : inCall = false := hout
  cases exit with
  | notYet => simp [Followed, Task.next, Task.exitAfter, hend, hsyscall, hcall]
  | called regs replacement => exact absurd h.2.inCall Bool.false_ne_true
  | left regs ahead =>
      have hleft : HasLeft entry false handling regs ahead := h
      rcases hleft.of_isSyscall hstep hsyscall with ⟨rfl, _⟩
      rw [hleft.exitValue, Option.getD_some, hstatus regs ahead rfl] at hkept
      simp [Followed, Task.next, Task.exitAfter, hend, hsyscall, hcall, replacement, hkept]
  | issued regs issued replacement =>
      simpa [Followed, Task.next, Task.exitAfter, hend, hsyscall, hcall] using h

end Followed

/-! ## Runs -/

section Runs

variable {traced traced' : Traced abi} {parent' : System abi} {stop : Stop abi} {event : Event abi}

/-- The entry of the parent fits the thread. -/
structure Tracks (entry : ExitEntry abi) (task : Task abi) : Prop where
  inFlight : InFlight entry task.handling
  followed : Followed entry task

/-- The entries of all threads track them. -/
def Tracked (traced : Traced abi) : Prop :=
  ∀ pid, Tracks (traced.parent.exitEntry pid) (traced.tasks pid)

/-- Tracked threads exit transparently. -/
theorem Tracked.transparent (h : Tracked traced) : TransparentExits traced :=
  fun pid => (h pid).followed.transparent

/-- What the parent saw and did at a stop that is not an end. -/
theorem seen_of_step (hstep : traced.parent.step (.reported stop) = .ok parent')
    (hend : stop.isEnd = false) :
    ∃ writes, seen traced.parent parent' stop =
        ⟨traced.parent.answers stop, (traced.parent.exitEntry stop.pid).queue.length, writes⟩ ∧
      ExitStep (traced.parent.answers stop) stop (traced.parent.exitEntry stop.pid) writes
        (parent'.exitEntry stop.pid) := by
  rcases exitStep_of_step hstep hend with ⟨writes, hwrites, hexit⟩
  exact ⟨writes, by rw [seen, hwrites.eq]; rfl, hexit⟩

/-- The thread that has stopped goes on. -/
theorem tasks_stopped (parent' : System abi) (issued : Bool) (stop : Stop abi) :
    (traced.stopped parent' issued stop).tasks stop.pid =
      (traced.tasks stop.pid).next issued stop (seen traced.parent parent' stop) :=
  Function.update_self ..

/-- The entries of all threads but the stopped one are spared, and that of the stopped thread
follows it. -/
theorem Tracked.stopped (h : Tracked traced) {issued : Bool}
    (hstep : traced.parent.step (.reported stop) = .ok parent')
    (hfollowed : ∀ writes, stop.isEnd = false →
      ExitStep (traced.parent.answers stop) stop (traced.parent.exitEntry stop.pid) writes
        (parent'.exitEntry stop.pid) →
      Followed (parent'.exitEntry stop.pid) ((traced.tasks stop.pid).next issued stop
        ⟨traced.parent.answers stop, (traced.parent.exitEntry stop.pid).queue.length, writes⟩)) :
    Tracked (traced.stopped parent' issued stop) := by
  intro pid
  by_cases hpid : pid = stop.pid
  · subst hpid
    change Tracks (parent'.exitEntry stop.pid) _
    rw [tasks_stopped]
    by_cases hend : stop.isEnd = true
    · rw [Task.next, if_pos hend]
      exact ⟨(h stop.pid).inFlight.leftover (leftover_of_step hstep hend), trivial⟩
    · have hend' : stop.isEnd = false := by simpa using hend
      rcases seen_of_step hstep hend' with ⟨writes, hseen, hexit⟩
      rw [hseen]
      refine ⟨?_, hfollowed writes hend' hexit⟩
      have hflight := (h stop.pid).inFlight.step hexit
      simpa [Task.next, hend'] using hflight
  · have hsame : (traced.stopped parent' issued stop).tasks pid = traced.tasks pid :=
      Function.update_of_ne hpid ..
    rw [hsame]
    have hspares := spares_other_of_step hstep hpid
    exact ⟨(h pid).inFlight.spares hspares, (h pid).followed.spares hspares⟩

/-- A step is possible, and the parent takes it. -/
theorem step_ok (hstep : step traced event = .ok traced') :
    possible traced event = true ∧ ∃ parent', traced.parent.step event.input = .ok parent' ∧
      traced' = traced.after parent' event := by
  unfold step at hstep
  by_cases hpossible : possible traced event = true
  · rw [if_pos hpossible] at hstep
    refine ⟨hpossible, ?_⟩
    cases hparent : traced.parent.step event.input with
    | error ended => simp [hparent] at hstep
    | ok parent' =>
        rw [hparent] at hstep
        exact ⟨parent', rfl, (Except.ok.inj hstep).symm⟩
  · rw [if_neg hpossible] at hstep
    cases hstep

/-- processNotification calls {lit}`SYS_exit` with the argument it was told. -/
theorem exits_of_possible (hpossible : possible traced (.exits stop) = true) :
    stop.isSyscall = true ∧ (traced.tasks stop.pid).inCall = false ∧
      ∃ issued, exitCall stop = some issued ∧
        ((traced.tasks stop.pid).handling.any fun entered =>
          entered.childNotification == some .threadExiting &&
            issued.exitStatus == entered.childArg) = true := by
  simp only [possible, Bool.and_eq_true, Bool.not_eq_true', Option.any_eq_true] at hpossible
  rcases hpossible with ⟨⟨hsyscall, hout⟩, issued, hregs, hexit, entered, hhandling, hentered⟩
  refine ⟨hsyscall, hout, issued, exitCall_eq_some.mpr ⟨hregs, beq_iff_eq.mp hexit⟩, ?_⟩
  rw [hhandling, Option.any_some, Bool.and_eq_true]
  exact hentered

/-- An event that meets the conditions keeps all threads tracked. -/
theorem Tracked.next (h : Tracked traced) (hmeets : Meets traced event)
    (hstep : step traced event = .ok traced') : Tracked traced' := by
  rcases step_ok hstep with ⟨hpossible, parent', hparent, rfl⟩
  cases event with
  | created pid =>
      obtain rfl := Except.ok.inj hparent
      exact h
  | stops stop =>
      refine h.stopped hparent fun writes hend hexit => ?_
      refine (h stop.pid).followed.stops hexit hend ?_ hmeets.1 hmeets.2
      intro hanswered
      simpa [possible, hanswered] using hpossible
  | exits stop =>
      rcases exits_of_possible hpossible with ⟨hsyscall, hout, issued, hcall, hissued⟩
      refine h.stopped hparent fun writes _ hexit => ?_
      exact (h stop.pid).followed.exits (h stop.pid).inFlight hexit hsyscall hout hcall hissued
        hmeets

/-- An exit call is not replaced when the parent has an entry of an earlier one. -/
theorem not_transparent_of_callsExit
    (hcalls : (traced.tasks stop.pid).callsExit stop)
    (hleftover : ¬(traced.parent.childExiting stop.pid = none ∧
      (traced.parent.childInSyscall stop.pid).getD false = false))
    (hparent : traced.parent.step (.reported stop) = .ok parent') :
    ¬TransparentExits (traced.stopped parent' false stop) := by
  rcases hcalls with ⟨hsyscall, hout, hexit⟩
  have hend := stop.not_isEnd_of_isSyscall hsyscall
  rcases seen_of_step hparent hend with ⟨writes, hseen, hexitStep⟩
  have hreplacement := replacement_of_exitStep hexitStep hleftover
  rw [Stop.callsExit, Option.any_eq_true] at hexit
  rcases hexit with ⟨regs, hregs, hregsExit⟩
  have hcall := exitCall_eq_some.mpr ⟨hregs, beq_iff_eq.mp hregsExit⟩
  intro htransparent
  have hself := htransparent stop.pid
  rw [tasks_stopped, hseen] at hself
  simp [Task.Transparent, Task.next, Task.exitAfter, hend, hsyscall, hout, hcall,
    hreplacement] at hself

/-- A thread that leaves its exit call early is told of nothing. -/
theorem not_transparent_of_leavesExit (h : Tracked traced)
    (hleaves : (traced.tasks stop.pid).leavesExit stop)
    (hearly : traced.parent.notificationSystemReady = false)
    (hparent : traced.parent.step (.reported stop) = .ok parent') :
    ¬TransparentExits (traced.stopped parent' false stop) := by
  rcases hleaves with ⟨hsyscall, hin, regs, replaced, hcalled⟩
  have hend := stop.not_isEnd_of_isSyscall hsyscall
  rcases seen_of_step hparent hend with ⟨writes, hseen, hexitStep⟩
  have hfollowed := (h stop.pid).followed
  rw [Followed, hcalled] at hfollowed
  rcases hfollowed.2.exitLeft hexitStep hsyscall with ⟨_, _, _, told, rfl, -, -, -⟩
  have hearly' : (traced.parent.exitEntry stop.pid).ready = false := hearly
  intro htransparent
  have hself := htransparent stop.pid
  rw [tasks_stopped, hseen, Task.next, if_neg (by simp [hend])] at hself
  simp only [Task.exitAfter, hsyscall, hin, hcalled, if_true] at hself
  cases hpending : (traced.parent.exitEntry stop.pid).queue.length with
  | zero => simp [Task.Transparent, hpending, handlingAfter, hearly', isTold] at hself
  | succ ahead => simp [Task.Transparent, hpending, handlingAfter, hearly'] at hself

/-- The exit call of processNotification does not have the status of the thread. -/
theorem not_transparent_of_exits (h : Tracked traced)
    (hpossible : possible traced (.exits stop) = true) {regs : Regs abi} {ahead : Nat}
    (hleft : (traced.tasks stop.pid).exit = .left regs ahead)
    (hstatus : regs.bx.setWidth 32 ≠ regs.exitStatus)
    (hparent : traced.parent.step (.reported stop) = .ok parent') :
    ¬TransparentExits (traced.stopped parent' true stop) := by
  rcases exits_of_possible hpossible with ⟨hsyscall, hout, issued, hcall, hissued⟩
  have hend := stop.not_isEnd_of_isSyscall hsyscall
  rcases seen_of_step hparent hend with ⟨writes, hseen, _⟩
  have hkept := exitStatus_of_isTold (h stop.pid).inFlight hissued
  have hfollowed := (h stop.pid).followed
  rw [Followed, hleft] at hfollowed
  rw [hfollowed.exitValue, Option.getD_some] at hkept
  intro htransparent
  have hself := htransparent stop.pid
  rw [tasks_stopped, hseen] at hself
  simp only [Task.Transparent, Task.next, Task.exitAfter, hend, hsyscall, hout, hcall, hleft,
    if_true, if_false, Bool.false_eq_true] at hself
  exact hstatus (hkept.trans hself.1)

/-- An event that does not meet them makes an exit visible. -/
theorem Tracked.not_next (h : Tracked traced) (hmeets : ¬Meets traced event)
    (hstep : step traced event = .ok traced') : ¬TransparentExits traced' := by
  rcases step_ok hstep with ⟨hpossible, parent', hparent, rfl⟩
  cases event with
  | created pid => exact absurd trivial hmeets
  | stops stop =>
      rw [Meets, not_and_or, Classical.not_imp, Classical.not_imp] at hmeets
      rcases hmeets with ⟨hcalls, hleftover⟩ | ⟨hleaves, hearly⟩
      · exact not_transparent_of_callsExit hcalls hleftover hparent
      · exact not_transparent_of_leavesExit h hleaves (by simpa using hearly) hparent
  | exits stop =>
      simp only [Meets, not_forall] at hmeets
      rcases hmeets with ⟨regs, ahead, hleft, hstatus⟩
      exact not_transparent_of_exits h hpossible hleft hstatus hparent

/-- All threads are tracked at the start. -/
theorem initial_tracked (mainChild : Pid) (notifyAddress entry : Long abi) :
    Tracked (initial mainChild notifyAddress entry) := by
  intro pid
  refine ⟨⟨?_, ?_⟩, trivial⟩
  · intro arg hmem
    simp [initial, exitEntry, start, queueOf] at hmem
  · intro regs hregs
    simp [initial, Task.fresh] at hregs

/-- Over every run: every exit call of a thread is replaced by a harmless call, followed by the
notifications that are pending and by {lit}`ThreadExiting`, and ended by an exit call with its
status that is not intercepted, exactly when each step meets the condition. -/
theorem transparentExits_iff {mainChild : Pid} {notifyAddress entry : Long abi}
    {events : List (Event abi)}
    (hrun : Run step (initial mainChild notifyAddress entry) events traced) :
    Visits step (initial mainChild notifyAddress entry) events (fun _ t => TransparentExits t) ↔
      StepsMeet step (initial mainChild notifyAddress entry) (fun _ t event => Meets t event)
        events := by
  refine Run.visits_iff_stepsMeet (P := fun _ t => Tracked t) (initial_tracked _ _ _) ?_ ?_ ?_ hrun
  · intro _ t event t' _ ht hmeets hstep
    exact ht.next hmeets hstep
  · intro _ t ht
    exact ht.transparent
  · intro _ t event t' ht hmeets hstep
    exact ht.not_next hmeets hstep

end Runs

/-- On the 32 bit machine {lit}`ebx` is the first argument. -/
theorem meets_exits_i386 (traced : Traced .i386) (stop : Stop .i386) :
    Meets traced (.exits stop) := by
  intro regs ahead _
  rfl

/-! ## A small run -/

/-- The event of an input in which no thread issues the exit itself. -/
def Event.ofInput : Input abi → Event abi
  | .created pid => .created pid
  | .reported stop => .stops stop

/-- Thread 101 stops at the entry or the exit of an exit call. -/
def exitStop (bx di : Long .x86_64) : Stop .x86_64 :=
  ⟨101, 0x857F, some { regsWith 0 bx 0 0 60 with di := di }, none, .other⟩

/-- Thread 101 starts and exits with the status {lit}`di`, and processNotification exits. -/
def smallExit (bx di issued : Long .x86_64) : List (Event .x86_64) :=
  [startsUp, firstStop 101, notifies 101 1 0].map .ofInput ++
    [.stops (exitStop bx di), .stops (exitStop bx di), .exits (exitStop 0 issued)]

/-- A run in which a thread exits. -/
theorem transparentExits_iff_smallExit :
    ∃ traced, Run step (initial mainPid 0 0) (smallExit 7 7 7) traced ∧
      (Visits step (initial mainPid 0 0) (smallExit 7 7 7) (fun _ t => TransparentExits t) ↔
        StepsMeet step (initial mainPid 0 0) (fun _ t event => Meets t event)
          (smallExit 7 7 7)) := by
  have hexec : ∃ traced, exec step (initial mainPid 0 0) (smallExit 7 7 7) = .ok traced := ⟨_, rfl⟩
  rcases hexec with ⟨traced, hexec⟩
  have hrun := run_iff_exec.mpr hexec
  exact ⟨traced, hrun, transparentExits_iff hrun⟩

/-- The status is 7 in {lit}`rdi`, but {lit}`rbx` is 0. -/
theorem not_transparentExits :
    ¬∀ (events : List (Event .x86_64)) (traced : Traced .x86_64),
      Run step (initial mainPid 0 0) events traced → TransparentExits traced := by
  intro hall
  have hexec : ∃ traced, exec step (initial mainPid 0 0) (smallExit 0 7 0) = .ok traced ∧
      ∃ regs issued, (traced.tasks 101).exit = .issued regs issued none ∧
        regs.exitStatus = 7 ∧ issued.exitStatus = 0 :=
    ⟨_, rfl, _, _, rfl, rfl, rfl⟩
  rcases hexec with ⟨traced, hexec, regs, issued, hexit, hstatus, hissued⟩
  have htransparent := hall _ traced (run_iff_exec.mpr hexec) 101
  rw [Task.Transparent, hexit] at htransparent
  have hsame : issued.exitStatus = regs.exitStatus := htransparent.1
  rw [hstatus, hissued] at hsame
  exact absurd hsame (by decide)

end ThreadExit
end ParentProcess
end Roofline
