import Roofline.ParentProcess.Abi
import Mathlib.Logic.Function.Basic

/-!
# The trace loop of the parent process

{lit}`ParentProcess` traces the threads of the measuring core by ptrace.  It delivers
notifications to them by diverting a stopped thread to a procedure of the child
and restoring its registers when the procedure reports that it is done.  This
file models the class, one iteration of {lit}`traceLoop`, and of the kernel what
the parent cannot see: which threads are alive and which have a {lit}`SIGTRAP` of
{lit}`tgkill` in flight.  What the parent does is recorded in a log.
-/

namespace Roofline
namespace ParentProcess

/-- {lit}`ChildState`; a map entry that a lookup creates is {lit}`running`. -/
inductive ChildState where
  | running
  | processingNotification
  | stopping
deriving DecidableEq, Repr

/-- Where a {lit}`SIGTRAP` that is neither a system call stop nor a ptrace event comes from. -/
inductive TrapCause where
  /-- The thread executed the {lit}`int3` of {lit}`ChildProcess::notifyParent`. -/
  | notification
  /-- A signal that {lit}`queueNotification` or the startup sent by {lit}`tgkill`. -/
  | wakeUp
  | other
deriving DecidableEq, Repr

/-- What {lit}`waitpid` reports, and what ptrace reads from the thread until it is resumed. -/
structure Stop (abi : Abi) where
  pid : Pid
  status : Status
  /-- {lit}`PTRACE_GETREGS`, if it succeeds. -/
  regs : Option (Regs abi)
  /-- {lit}`PTRACE_GETEVENTMSG`, if it succeeds. -/
  eventMessage : Option Status
  /-- Not visible to the parent. -/
  cause : TrapCause
deriving DecidableEq, Repr

/-- The thread stopped by a plain {lit}`SIGTRAP`. -/
def Stop.isTrap {abi : Abi} (stop : Stop abi) : Bool :=
  !stop.status.wifexited && stop.status.wifstopped && stop.status.stopSig == SIGTRAP &&
    !stop.status.sysGood && stop.status.event == 0

/-- The thread stopped at the entry or the exit of a system call. -/
def Stop.isSyscall {abi : Abi} (stop : Stop abi) : Bool :=
  !stop.status.wifexited && stop.status.wifstopped && stop.status.stopSig == SIGTRAP &&
    stop.status.sysGood

/-- The thread stopped because it is about to exit. -/
def Stop.isExitEvent {abi : Abi} (stop : Stop abi) : Bool :=
  !stop.status.wifexited && stop.status.wifstopped && stop.status.stopSig == SIGTRAP &&
    !stop.status.sysGood && stop.status.event == PTRACE_EVENT_EXIT

/-- The thread exits in a way that the loop handles. -/
def Stop.isExit {abi : Abi} (stop : Stop abi) : Bool :=
  stop.status.wifexited || stop.isExitEvent

/-- The thread is at its end. -/
def Stop.isEnd {abi : Abi} (stop : Stop abi) : Bool :=
  stop.status.wifexited || stop.status.wifsignaled || stop.isExitEvent

/-- A reported exit is an end. -/
theorem Stop.isEnd_of_isExit {abi : Abi} (stop : Stop abi) (h : stop.isExit = true) :
    stop.isEnd = true := by
  rcases (Bool.or_eq_true ..).mp h with hexited | hevent
  · simp [Stop.isEnd, hexited]
  · simp [Stop.isEnd, hevent]

/-- A system call is no trap. -/
theorem Stop.not_isTrap_of_isSyscall {abi : Abi} (stop : Stop abi)
    (h : stop.isSyscall = true) : stop.isTrap = false := by
  simp only [Stop.isSyscall, Bool.and_eq_true] at h
  simp [Stop.isTrap, h.2]

/-- A trap is no end. -/
theorem Stop.not_isEnd_of_isTrap {abi : Abi} (stop : Stop abi)
    (h : stop.isTrap = true) : stop.isEnd = false := by
  simp only [Stop.isTrap, Bool.and_eq_true, beq_iff_eq, Bool.not_eq_true'] at h
  have hsignaled := stop.status.not_wifsignaled_of_wifstopped h.1.1.1.2
  have hevent : (stop.status.event == PTRACE_EVENT_EXIT) = false := by
    rw [h.2]
    rfl
  simp [Stop.isEnd, Stop.isExitEvent, h.1.1.1.1, hsignaled, hevent]

/-- A system call is no end. -/
theorem Stop.not_isEnd_of_isSyscall {abi : Abi} (stop : Stop abi)
    (h : stop.isSyscall = true) : stop.isEnd = false := by
  simp only [Stop.isSyscall, Bool.and_eq_true] at h
  have hsignaled := stop.status.not_wifsignaled_of_wifstopped h.1.1.2
  simp [Stop.isEnd, Stop.isExitEvent, h.2, hsignaled]
  simpa using h.1.1.1

/-- What happens next: the kernel creates a thread, or {lit}`waitpid` reports one. -/
inductive Input (abi : Abi) where
  | created (pid : Pid)
  | reported (stop : Stop abi)
deriving DecidableEq, Repr

/-- How the loop ends. -/
inductive Ended where
  | exit (code : Nat)
  | left (exitStatus : Status)
deriving DecidableEq, Repr

/-- What the parent does. -/
inductive Effect (abi : Abi) where
  /-- A new child is observed. -/
  | observed (pid : Pid)
  | queued (receiver : Pid) (event : ChildNotification) (arg : Long abi)
  /-- A notification taken from the queue is installed. -/
  | installed (pid : Pid) (event : ChildNotification) (arg : Long abi)
  /-- {lit}`PTRACE_SETREGS` of {lit}`written`, when the registers were {lit}`current`. -/
  | diverted (pid : Pid) (event : ChildNotification) (ready : Bool)
      (current : Option (Regs abi)) (written : Regs abi)
  /-- {lit}`PTRACE_SETREGS` of the registers saved before. -/
  | restored (pid : Pid) (regs : Regs abi)
  /-- {lit}`PTRACE_SETREGS` that replaces a system call. -/
  | replaced (pid : Pid) (regs : Regs abi)
  /-- The notification system becomes ready. -/
  | ready
  /-- {lit}`handleNotification` is executed. -/
  | handled (pid : Pid) (notification : Option ParentNotification)
  /-- The entries of an exited thread are erased. -/
  | forgotten (pid : Pid)
  /-- {lit}`PTRACE_SYSCALL` with the signal to be delivered. -/
  | resumed (pid : Pid) (sendSig : BitVec 32)
deriving DecidableEq, Repr

/-- The fields of the class. -/
structure Parent (abi : Abi) where
  childStates : Pid → Option ChildState
  childRegs : Pid → Option (Regs abi)
  childNotificationQueue : Pid → Option (List (ChildNotification × Long abi))
  childInSyscall : Pid → Option Bool
  childExiting : Pid → Option Nat
  childExitValue : Pid → Option (Long abi)
  mainChild : Pid
  notificationSystemReady : Bool
  notifyAddress : Long abi
  notificationProcedureEntry : Long abi

/-- The parent, what it did so far, and the hidden state of the kernel. -/
structure System (abi : Abi) extends Parent abi where
  alive : Pid → Bool
  sigtrapPending : Pid → Bool
  log : List (Effect abi)

namespace System

variable {abi : Abi} (sys : System abi)

/-- Record what the parent did. -/
def record (effects : List (Effect abi)) : System abi :=
  { sys with log := sys.log ++ effects }

/-- {lit}`syscall(__NR_tgkill, mainChild, receiver, SIGTRAP)`: fails for a thread
that does not exist. -/
def tgkill (receiver : Pid) : System abi :=
  { sys with
    sigtrapPending := Function.update sys.sigtrapPending receiver
      (sys.sigtrapPending receiver || sys.alive receiver) }

/-! ## The methods of the class -/

/-- The queue of a child, empty if it has none. -/
def queueOf (child : Pid) : List (ChildNotification × Long abi) :=
  (sys.childNotificationQueue child).getD []

/-- {lit}`hasPendingNotification` -/
def hasPendingNotification (child : Pid) : Bool :=
  !(sys.queueOf child).isEmpty

/-- The first part of {lit}`queueNotification`: find or create the queue and push. -/
def push (receiver : Pid) (event : ChildNotification) (arg : Long abi) : System abi :=
  { sys with
    childNotificationQueue := Function.update sys.childNotificationQueue receiver
      (some (sys.queueOf receiver ++ [(event, arg)]))
    log := sys.log ++ [.queued receiver event arg] }

/-- The second part of {lit}`queueNotification`: wake the receiver up if it runs. -/
def wake (receiver : Pid) : System abi :=
  match (sys.childStates receiver).getD .running with
  | .processingNotification => sys
  | .stopping => sys
  | .running =>
      { sys.tgkill receiver with
        childStates := Function.update sys.childStates receiver (some .stopping) }

/-- {lit}`queueNotification`, which wakes up a receiver other than the stopped child. -/
def queueNotification (stoppedChild receiver : Pid) (event : ChildNotification)
    (arg : Long abi) : System abi :=
  if stoppedChild = receiver then
    sys.push receiver event arg
  else
    (sys.push receiver event arg).wake receiver

/-- The registers with which a thread enters the notification procedure. -/
def entryRegs (saved : Regs abi) (pid : Pid) (event : ChildNotification) (arg : Long abi) :
    Regs abi :=
  { saved with
    ip := sys.notificationProcedureEntry
    ax := pid.toLong abi
    bx := event.toLong abi
    cx := arg }

/-- Divert a stopped thread whose original registers are {lit}`saved`. -/
def divert (stop : Stop abi) (event : ChildNotification) (arg : Long abi)
    (saved : Regs abi) : System abi :=
  { sys with
    childStates := Function.update sys.childStates stop.pid (some .processingNotification)
    childRegs := Function.update sys.childRegs stop.pid (some saved)
    log := sys.log ++ [.diverted stop.pid event sys.notificationSystemReady stop.regs
      (sys.entryRegs saved stop.pid event arg)] }

/-- {lit}`setupChildNotification(stoppedChild, event, arg)`. -/
def setupChildNotificationWith (stop : Stop abi) (event : ChildNotification)
    (arg : Long abi) : Except Ended (System abi) :=
  match sys.childRegs stop.pid with
  | some saved => .ok (sys.divert stop event arg saved)
  | none =>
      match stop.regs with
      | none => .error (.exit 1)
      | some regs => .ok (sys.divert stop event arg regs)

/-- Take the first notification from the queue of a child. -/
def pop (child : Pid) (event : ChildNotification) (arg : Long abi)
    (rest : List (ChildNotification × Long abi)) : System abi :=
  { sys with
    childNotificationQueue := Function.update sys.childNotificationQueue child (some rest)
    log := sys.log ++ [.installed child event (throughUint32 arg)] }

/-- {lit}`setupChildNotification(stoppedChild)`; its local variable {lit}`arg` is a
{lit}`uint32_t`. -/
def setupChildNotification (stop : Stop abi) : Except Ended (System abi) :=
  match sys.queueOf stop.pid with
  | [] => .error (.exit 1)
  | (event, arg) :: rest =>
      (sys.pop stop.pid event arg rest).setupChildNotificationWith stop event
        (throughUint32 arg)

/-- {lit}`handleNotification`: whether the notification was a request for the stopped child. -/
def handleNotification (stoppedChild : Pid) (event : Option ParentNotification)
    (arg : Long abi) : Bool × System abi :=
  let sys := sys.record [.handled stoppedChild event]
  match event with
  | some .queueProcessActions =>
      (true, sys.queueNotification stoppedChild (arg.setWidth 32) .processActions 0)
  | _ => (false, sys)

/-- A child whose state is {lit}`running` although notifications are pending. -/
def needsWakeUp (child : Pid) : Bool :=
  sys.childStates child == some .running && sys.hasPendingNotification child

/-- The branch of {lit}`handleTrapOccured` for the startup notification. -/
def startup (regs : Regs abi) : System abi :=
  { sys with
    notifyAddress := regs.ip
    notificationProcedureEntry := regs.dx
    notificationSystemReady := true
    sigtrapPending := fun child =>
      sys.sigtrapPending child || (sys.needsWakeUp child && sys.alive child)
    childStates := Function.update
      (fun child => if sys.needsWakeUp child then some .stopping else sys.childStates child)
      sys.mainChild (some .running)
    log := sys.log ++ [.ready] }

/-- The last notification is processed: the thread continues where it was. -/
def restore (child : Pid) : System abi :=
  let childReg := (sys.childRegs child).getD ⟨0, 0, 0, 0, 0, 0, 0, []⟩
  { sys with
    childStates := Function.update sys.childStates child (some .running)
    childRegs := Function.update sys.childRegs child none
    log := sys.log ++ [.restored child childReg] }

/-- The cases {lit}`ChildState_Stopping` and {lit}`ChildState_Running`. -/
def handleTrapRunning (stop : Stop abi) (regs : Regs abi) : Except Ended (System abi) :=
  let sys :=
    if regs.ip = sys.notifyAddress then
      (sys.handleNotification stop.pid regs.notification (throughUint32 regs.dx)).2
    else
      sys
  -- whether there was a notification or this was a wakeup signal, check the queue
  if sys.hasPendingNotification stop.pid && sys.notificationSystemReady then
    sys.setupChildNotification stop
  else
    .ok sys

/-- The case {lit}`ChildState_ProcessingNotification`. -/
def handleTrapProcessing (stop : Stop abi) (regs : Regs abi) : Except Ended (System abi) :=
  if regs.ip = sys.notifyAddress then
    if regs.notification = some .processingDone then
      if sys.hasPendingNotification stop.pid then
        sys.setupChildNotification stop
      else
        .ok (sys.restore stop.pid)
    else
      match sys.handleNotification stop.pid regs.notification (throughUint32 regs.dx) with
      | (true, sys) => .ok sys
      | (false, _) => .error (.exit 1)
  else
    -- no notification, thus the trap must come from a wakeup call
    .ok sys

/-- {lit}`handleTrapOccured` -/
def handleTrapOccured (stop : Stop abi) : Except Ended (System abi) :=
  match stop.regs with
  | none => .error (.exit 1)
  | some regs =>
      if stop.pid = sys.mainChild ∧ regs.notification = some .startup ∧
          sys.notificationSystemReady = false then
        .ok (sys.startup regs)
      else
        match (sys.childStates stop.pid).getD .running with
        | .stopping => sys.handleTrapRunning stop regs
        | .running => sys.handleTrapRunning stop regs
        | .processingNotification => sys.handleTrapProcessing stop regs

/-- Erase the entries of an exited thread. -/
def forget (stoppedChild : Pid) : System abi :=
  { sys with
    childStates := Function.update sys.childStates stoppedChild none
    childNotificationQueue := Function.update sys.childNotificationQueue stoppedChild none
    childRegs := Function.update sys.childRegs stoppedChild none
    log := sys.log ++ [.forgotten stoppedChild] }

/-- {lit}`handleChildThreadExited` -/
def handleChildThreadExited (stoppedChild : Pid) : System abi :=
  (sys.forget stoppedChild).queueNotification stoppedChild sys.mainChild .threadExited
    (stoppedChild.toLong abi)

/-! ## One iteration of the loop -/

/-- Add an unknown child as running and as not processing a system call. -/
def observe (pid : Pid) : System abi :=
  { sys with
    childStates := Function.update sys.childStates pid (some .running)
    childInSyscall := Function.update sys.childInSyscall pid (some false)
    log := sys.log ++ [.observed pid] }

/-- The part of {lit}`traceLoop` for a child that is seen first. -/
def handleNewChild (stop : Stop abi) : Except Ended (System abi) :=
  if stop.status.stopSig = SIGSTOP then
    if sys.notificationSystemReady then
      (sys.observe stop.pid).setupChildNotificationWith stop .threadStarted 0
    else
      .ok ((sys.observe stop.pid).queueNotification stop.pid stop.pid .threadStarted 0)
  else
    .error (.left 1)

/-- Mark whether a child processes a system call. -/
def setInSyscall (pid : Pid) (inSyscall : Bool) : System abi :=
  { sys with childInSyscall := Function.update sys.childInSyscall pid (some inSyscall) }

/-- Replace the exit call of a child by a harmless one. -/
def interceptExit (pid : Pid) (regs : Regs abi) : System abi :=
  { sys with
    childExiting := Function.update sys.childExiting pid (some 2)
    childExitValue := Function.update sys.childExitValue pid (some regs.bx)
    log := sys.log ++ [.replaced pid { regs with origAx := abi.sysGetpid }] }

/-- The part of {lit}`traceLoop` for a system call that is entered. -/
def handleSyscallEntry (stop : Stop abi) : Except Ended (System abi) :=
  match stop.regs with
  | none => .error (.exit 1)
  | some regs =>
      if regs.origAx = abi.sysExit ∧ sys.childExiting stop.pid = none then
        .ok ((sys.setInSyscall stop.pid true).interceptExit stop.pid regs)
      else
        .ok (sys.setInSyscall stop.pid true)

/-- The intercepted exit call is over. -/
def setExitingHandled (pid : Pid) : System abi :=
  { sys with childExiting := Function.update sys.childExiting pid (some 1) }

/-- The part of {lit}`traceLoop` for a system call that is left. -/
def handleSyscallExit (stop : Stop abi) : Except Ended (System abi) :=
  let sys := sys.setInSyscall stop.pid false
  if sys.childExiting stop.pid = some 2 then do
    let sys ← (sys.queueNotification stop.pid stop.pid .threadExiting
      ((sys.childExitValue stop.pid).getD 0)).setupChildNotification stop
    return sys.setExitingHandled stop.pid
  else
    .ok sys

/-- The part of {lit}`traceLoop` for system calls. -/
def handleSyscall (stop : Stop abi) : Except Ended (System abi) :=
  if (sys.childInSyscall stop.pid).getD false then
    sys.handleSyscallExit stop
  else
    sys.handleSyscallEntry stop

/-- The part of {lit}`traceLoop` for exits that are reported. -/
def handleExitEvent (stop : Stop abi) : Except Ended (System abi) :=
  if stop.pid = sys.mainChild then
    match stop.eventMessage with
    | none => .error (.exit 1)
    | some exitStatus => .error (.left exitStatus.wexitstatus)
  else
    .ok (sys.handleChildThreadExited stop.pid)

/-- The loop body for a stopped child. -/
def handleStopped (stop : Stop abi) : Except Ended (System abi) :=
  if sys.childStates stop.pid = none then
    sys.handleNewChild stop
  else if stop.status.stopSig = SIGTRAP then
    if stop.status.sysGood then
      sys.handleSyscall stop
    else if stop.status.event = PTRACE_EVENT_EXIT then
      sys.handleExitEvent stop
    else if stop.status.event = PTRACE_EVENT_CLONE then
      -- the new thread will be stopped with SIGSTOP
      .ok sys
    else if stop.status.event = 0 then
      sys.handleTrapOccured stop
    else
      .ok sys
  else
    .ok sys

/-- The signal a child is resumed with: any but {lit}`SIGTRAP` is forwarded, unless
it is the first stop of a new child. -/
def sendSig (stop : Stop abi) : BitVec 32 :=
  if sys.childStates stop.pid = none ∨ stop.status.stopSig = SIGTRAP then
    0
  else
    stop.status.stopSig

/-- One iteration of {lit}`traceLoop`. -/
def traceLoopBody (stop : Stop abi) : Except Ended (System abi) :=
  if stop.pid.msb then
    .error (.exit 1)
  else if stop.status.wifexited then
    if stop.pid = sys.mainChild then
      .error (.left stop.status.wexitstatus)
    else if sys.childStates stop.pid = none then
      .ok sys
    else
      .ok (sys.handleChildThreadExited stop.pid)
  else if stop.status.wifstopped then do
    let sys' ← sys.handleStopped stop
    return sys'.record [.resumed stop.pid (sys.sendSig stop)]
  else
    .ok sys

/-! ## What queueing leaves alone -/

section Frame

variable (receiver stoppedChild : Pid) (event : ChildNotification) (arg : Long abi)

/-- Waking a thread up touches the states and the signals in flight, nothing else. -/
theorem wake_eq :
    sys.wake receiver =
      { sys with
        childStates := (sys.wake receiver).childStates
        sigtrapPending := (sys.wake receiver).sigtrapPending } := by
  unfold wake
  split <;> rfl

/-- Waking up a child keeps the queues. -/
@[simp] theorem wake_childNotificationQueue :
    (sys.wake receiver).childNotificationQueue = sys.childNotificationQueue := by
  rw [wake_eq]

/-- Waking up a child keeps the flag of the notification system. -/
@[simp] theorem wake_notificationSystemReady :
    (sys.wake receiver).notificationSystemReady = sys.notificationSystemReady := by
  rw [wake_eq]

/-- Waking up a child keeps who is alive. -/
@[simp] theorem wake_alive : (sys.wake receiver).alive = sys.alive := by
  rw [wake_eq]

/-- Queueing a notification is a push, up to the states and the signals in flight. -/
theorem queueNotification_eq :
    sys.queueNotification stoppedChild receiver event arg =
      { sys.push receiver event arg with
        childStates := (sys.queueNotification stoppedChild receiver event arg).childStates
        sigtrapPending :=
          (sys.queueNotification stoppedChild receiver event arg).sigtrapPending } := by
  unfold queueNotification
  split
  · rfl
  · exact wake_eq (sys.push receiver event arg) receiver

/-- Queueing a notification keeps the saved registers. -/
@[simp] theorem queueNotification_childRegs :
    (sys.queueNotification stoppedChild receiver event arg).childRegs =
      sys.childRegs := by
  rw [queueNotification_eq]
  rfl

/-- The queues are those after the notification was pushed. -/
@[simp] theorem queueNotification_childNotificationQueue :
    (sys.queueNotification stoppedChild receiver event arg).childNotificationQueue =
      (sys.push receiver event arg).childNotificationQueue := by
  rw [queueNotification_eq]

/-- Queueing a notification keeps who is in a system call. -/
@[simp] theorem queueNotification_childInSyscall :
    (sys.queueNotification stoppedChild receiver event arg).childInSyscall =
      sys.childInSyscall := by
  rw [queueNotification_eq]
  rfl

/-- Queueing a notification keeps who is exiting. -/
@[simp] theorem queueNotification_childExiting :
    (sys.queueNotification stoppedChild receiver event arg).childExiting =
      sys.childExiting := by
  rw [queueNotification_eq]
  rfl

/-- Queueing a notification keeps the exit values. -/
@[simp] theorem queueNotification_childExitValue :
    (sys.queueNotification stoppedChild receiver event arg).childExitValue =
      sys.childExitValue := by
  rw [queueNotification_eq]
  rfl

/-- Queueing a notification keeps the main child. -/
@[simp] theorem queueNotification_mainChild :
    (sys.queueNotification stoppedChild receiver event arg).mainChild =
      sys.mainChild := by
  rw [queueNotification_eq]
  rfl

/-- Queueing a notification keeps the flag of the notification system. -/
@[simp] theorem queueNotification_notificationSystemReady :
    (sys.queueNotification stoppedChild receiver event arg).notificationSystemReady =
      sys.notificationSystemReady := by
  rw [queueNotification_eq]
  rfl

/-- Queueing a notification keeps who is alive. -/
@[simp] theorem queueNotification_alive :
    (sys.queueNotification stoppedChild receiver event arg).alive =
      sys.alive := by
  rw [queueNotification_eq]
  rfl

/-- The log is that after the notification was pushed. -/
@[simp] theorem queueNotification_log :
    (sys.queueNotification stoppedChild receiver event arg).log =
      (sys.push receiver event arg).log := by
  rw [queueNotification_eq]

/-- Waking a thread up turns a running thread into a stopping one. -/
theorem wake_childStates (child : Pid) :
    (sys.wake receiver).childStates child =
      if child = receiver ∧ (sys.childStates receiver).getD .running = .running then
        some .stopping
      else
        sys.childStates child := by
  unfold wake
  split
  · rename_i hstate
    rw [if_neg (by simp [hstate])]
  · rename_i hstate
    rw [if_neg (by simp [hstate])]
  · rename_i hstate
    simp only [Function.update_apply, hstate, and_true]

/-- Queueing a notification touches the state of no thread that is not running. -/
theorem queueNotification_childStates (child : Pid) :
    (sys.queueNotification stoppedChild receiver event arg).childStates child =
      if child = receiver ∧ stoppedChild ≠ receiver ∧
          (sys.childStates receiver).getD .running = .running then
        some .stopping
      else
        sys.childStates child := by
  unfold queueNotification
  by_cases hsame : stoppedChild = receiver
  · rw [if_pos hsame, if_neg (by simp [hsame])]
    rfl
  · rw [if_neg hsame, wake_childStates]
    apply if_congr _ rfl rfl
    simp [push, hsame]

/-- Queueing a notification keeps who is processing one. -/
theorem queueNotification_processing_iff (child : Pid) :
    (sys.queueNotification stoppedChild receiver event arg).childStates child =
        some .processingNotification ↔
      sys.childStates child = some .processingNotification := by
  rw [queueNotification_childStates]
  split
  · rename_i hwoken
    rcases hwoken with ⟨rfl, _, hstate⟩
    constructor
    · intro h
      simp at h
    · intro h
      simp [h] at hstate
  · rfl

end Frame

/-! ## Runs -/

/-- What a report says about the hidden state of the kernel: the end of a thread
removes it with its pending signals, and a wake-up that is delivered is no longer
in flight. -/
def reportedByKernel (stop : Stop abi) : System abi :=
  if stop.isEnd then
    { sys with
      alive := Function.update sys.alive stop.pid false
      sigtrapPending := Function.update sys.sigtrapPending stop.pid false }
  else if stop.isTrap ∧ stop.cause = .wakeUp then
    { sys with
      alive := Function.update sys.alive stop.pid true
      sigtrapPending := Function.update sys.sigtrapPending stop.pid false }
  else
    { sys with alive := Function.update sys.alive stop.pid true }

/-- The kernel touches no field of the parent. -/
@[simp] theorem reportedByKernel_toParent (stop : Stop abi) :
    (sys.reportedByKernel stop).toParent = sys.toParent := by
  unfold reportedByKernel
  split
  · rfl
  · split <;> rfl

/-- The report of a stop is not in the log. -/
@[simp] theorem reportedByKernel_log (stop : Stop abi) :
    (sys.reportedByKernel stop).log = sys.log := by
  unfold reportedByKernel
  split
  · rfl
  · split <;> rfl

/-- The parent and the kernel take one step. -/
def step : Input abi → Except Ended (System abi)
  | .created pid => .ok { sys with alive := Function.update sys.alive pid true }
  | .reported stop => (sys.reportedByKernel stop).traceLoopBody stop

/-- The parent at the beginning of {lit}`traceLoop`.  The two addresses are not
initialised yet. -/
def start (mainChild : Pid) (notifyAddress notificationProcedureEntry : Long abi) :
    System abi where
  childStates := Function.update (fun _ => none) mainChild (some .running)
  childRegs _ := none
  childNotificationQueue _ := none
  childInSyscall _ := none
  childExiting _ := none
  childExitValue _ := none
  mainChild := mainChild
  notificationSystemReady := false
  notifyAddress := notifyAddress
  notificationProcedureEntry := notificationProcedureEntry
  alive := Function.update (fun _ => false) mainChild true
  sigtrapPending _ := false
  log := []

end System
end ParentProcess
end Roofline
