import Roofline.ParentProcess.TraceLoop
import Roofline.Library.Runs

/-!
# What one step of the trace loop can do

Every property of the parent process is an invariant of its steps.  This file says
once what a step can do: each way in which an iteration of the loop goes on to the
next is one case, with the tests the code made and the updates it performed.

Main results:

- Theorem {lit}`setupChildNotification_ok`: what installing a notification from the
  queue has done.
- Theorem {lit}`traceLoopBody_cases`: an iteration that does not end the loop is one of
  the listed reactions.
- Theorem {lit}`step_cases`: the same for a step of parent and kernel.
-/

namespace Roofline
namespace ParentProcess
namespace System

variable {abi : Abi} {sys sys' : System abi} {stop : Stop abi}

/-! ## Installing notifications -/

/-- The original registers of a stopped thread: saved before, or read now. -/
def SavedRegs (sys : System abi) (stop : Stop abi) (saved : Regs abi) : Prop :=
  sys.childRegs stop.pid = some saved ∨
    (sys.childRegs stop.pid = none ∧ stop.regs = some saved)

/-- A diversion saves registers and writes those of the handler. -/
theorem setupChildNotificationWith_ok {event : ChildNotification} {arg : Long abi}
    (h : sys.setupChildNotificationWith stop event arg = .ok sys') :
    ∃ saved, SavedRegs sys stop saved ∧ sys' = sys.divert stop event arg saved := by
  unfold setupChildNotificationWith at h
  cases hsaved : sys.childRegs stop.pid with
  | some saved =>
      rw [hsaved] at h
      exact ⟨saved, Or.inl hsaved, (Except.ok.inj h).symm⟩
  | none =>
      rw [hsaved] at h
      cases hregs : stop.regs with
      | none => simp [hregs] at h
      | some regs =>
          rw [hregs] at h
          exact ⟨regs, Or.inr ⟨hsaved, hregs⟩, (Except.ok.inj h).symm⟩

/-- The first notification of the queue is taken and the thread diverted to it. -/
inductive Installed (sys : System abi) (stop : Stop abi) : System abi → Prop where
  | intro {event : ChildNotification} {arg : Long abi}
      {rest : List (ChildNotification × Long abi)} {saved : Regs abi}
      (hqueue : sys.queueOf stop.pid = (event, arg) :: rest)
      (hsaved : SavedRegs sys stop saved) :
      Installed sys stop
        ((sys.pop stop.pid event arg rest).divert stop event (throughUint32 arg) saved)

/-- What the set up has installed. -/
theorem setupChildNotification_ok (h : sys.setupChildNotification stop = .ok sys') :
    Installed sys stop sys' := by
  unfold setupChildNotification at h
  cases hqueue : sys.queueOf stop.pid with
  | nil => simp [hqueue] at h
  | cons first rest =>
      rcases first with ⟨event, arg⟩
      rw [hqueue] at h
      rcases setupChildNotificationWith_ok h with ⟨saved, hsaved, rfl⟩
      exact .intro hqueue hsaved

/-- A thread that takes a notification from its queue processes it. -/
theorem Installed.childStates_self (hinstalled : Installed sys stop sys') :
    sys'.childStates stop.pid = some .processingNotification := by
  cases hinstalled with
  | intro => simp [divert]

/-! ## Handling notifications of children -/

/-- The system after a trap of a thread whose notifications are handled normally. -/
def notified (sys : System abi) (stop : Stop abi) (regs : Regs abi) : System abi :=
  if regs.ip = sys.notifyAddress then
    (sys.handleNotification stop.pid regs.notification (throughUint32 regs.dx)).2
  else
    sys

/-- The thread that shall process its actions. -/
def receiverOf (regs : Regs abi) : Pid :=
  (throughUint32 regs.dx).setWidth 32

/-- The system after {lit}`handleNotification` of a request to process actions. -/
def requested (sys : System abi) (stop : Stop abi) (regs : Regs abi) : System abi :=
  (sys.record [.handled stop.pid (some .queueProcessActions)]).queueNotification stop.pid
    (receiverOf regs) .processActions 0

/-- A request is queued for its receiver. -/
theorem handleNotification_request {regs : Regs abi}
    (hrequest : regs.notification = some .queueProcessActions) :
    sys.handleNotification stop.pid regs.notification (throughUint32 regs.dx) =
      (true, sys.requested stop regs) := by
  rw [hrequest]
  rfl

/-- Other notifications of the parent are recorded. -/
theorem handleNotification_other {pid : Pid} {event : Option ParentNotification}
    {arg : Long abi} (hother : event ≠ some .queueProcessActions) :
    sys.handleNotification pid event arg = (false, sys.record [.handled pid event]) := by
  unfold handleNotification
  cases event with
  | none => rfl
  | some event => cases event <;> simp_all

/-- The three ways in which a trap of a normally running thread is looked at. -/
theorem notified_cases (sys : System abi) (stop : Stop abi) (regs : Regs abi) :
    (regs.ip ≠ sys.notifyAddress ∧ sys.notified stop regs = sys) ∨
    (regs.ip = sys.notifyAddress ∧ regs.notification = some .queueProcessActions ∧
      sys.notified stop regs = sys.requested stop regs) ∨
    (regs.ip = sys.notifyAddress ∧ regs.notification ≠ some .queueProcessActions ∧
      sys.notified stop regs = sys.record [.handled stop.pid regs.notification]) := by
  unfold notified
  by_cases hip : regs.ip = sys.notifyAddress
  · rw [if_pos hip]
    by_cases hrequest : regs.notification = some .queueProcessActions
    · rw [handleNotification_request hrequest]
      exact Or.inr (Or.inl ⟨hip, hrequest, rfl⟩)
    · rw [handleNotification_other hrequest]
      exact Or.inr (Or.inr ⟨hip, hrequest, rfl⟩)
  · rw [if_neg hip]
    exact Or.inl ⟨hip, rfl⟩

/-- Queueing a notification adds it at the end of one queue. -/
theorem queueOf_push (sys : System abi) (receiver pid : Pid) (event : ChildNotification)
    (arg : Long abi) :
    (sys.push receiver event arg).queueOf pid =
      if receiver = pid then sys.queueOf pid ++ [(event, arg)] else sys.queueOf pid := by
  by_cases hpid : receiver = pid
  · rw [if_pos hpid, ← hpid]
    simp [push, queueOf]
  · rw [if_neg hpid]
    simp [push, queueOf, Function.update_of_ne (Ne.symm hpid)]

/-- The thread for which the stop makes the parent queue a notification. -/
def queuesFor (sys : System abi) (stop : Stop abi) : Option Pid :=
  if sys.childStates stop.pid = none then
    none
  else if stop.isExit then
    some sys.mainChild
  else if stop.isTrap then
    (stop.regs.filter fun regs => regs.ip == sys.notifyAddress &&
      regs.notification == some .queueProcessActions).map receiverOf
  else
    none

/-- An exit queues a notification for the main thread. -/
theorem queuesFor_of_isExit (hknown : sys.childStates stop.pid ≠ none)
    (hexit : stop.isExit = true) : sys.queuesFor stop = some sys.mainChild := by
  rw [queuesFor, if_neg hknown, if_pos hexit]

/-- A trap queues one if it is a request. -/
theorem queuesFor_of_isTrap (hknown : sys.childStates stop.pid ≠ none)
    (htrap : stop.isTrap = true) :
    sys.queuesFor stop = (stop.regs.filter fun regs => regs.ip == sys.notifyAddress &&
      regs.notification == some .queueProcessActions).map receiverOf := by
  have hexit : stop.isExit = false := by
    by_contra hexit
    have hend := stop.isEnd_of_isExit (by simpa using hexit)
    simp [stop.not_isEnd_of_isTrap htrap] at hend
  simp [queuesFor, hknown, hexit, htrap]

/-- A running or stopping thread is known. -/
theorem known_of_state (hstate : sys.childStates stop.pid = some .running ∨
    sys.childStates stop.pid = some .stopping) : sys.childStates stop.pid ≠ none := by
  rcases hstate with hstate | hstate <;> simp [hstate]

/-! ## The reactions -/

/-- What one iteration of the loop does with a report. -/
inductive Reaction (sys : System abi) (stop : Stop abi) : System abi → Prop where
  /-- A thread without entries has exited. -/
  | gone (hexited : stop.status.wifexited = true) (hne : stop.pid ≠ sys.mainChild)
      (hunknown : sys.childStates stop.pid = none) : Reaction sys stop sys
  /-- A thread is about to exit or has exited. -/
  | threadExited (hexit : stop.isExit = true) (hne : stop.pid ≠ sys.mainChild)
      (hknown : sys.childStates stop.pid ≠ none) :
      Reaction sys stop (sys.handleChildThreadExited stop.pid)
  /-- A thread was terminated by a signal. -/
  | terminated (hexited : stop.status.wifexited = false)
      (hstopped : stop.status.wifstopped = false) : Reaction sys stop sys
  /-- A new thread is told that it started. -/
  | newThread {saved : Regs abi} (hstop : stop.status.stopSig = SIGSTOP)
      (hexited : stop.status.wifexited = false) (hstopped : stop.status.wifstopped = true)
      (hunknown : sys.childStates stop.pid = none) (hready : sys.notificationSystemReady = true)
      (hsaved : SavedRegs sys stop saved) :
      Reaction sys stop ((sys.observe stop.pid).divert stop .threadStarted 0 saved)
  /-- A new thread will be told so later. -/
  | newThreadEarly (hstop : stop.status.stopSig = SIGSTOP)
      (hexited : stop.status.wifexited = false) (hstopped : stop.status.wifstopped = true)
      (hunknown : sys.childStates stop.pid = none)
      (hready : sys.notificationSystemReady = false) :
      Reaction sys stop ((sys.observe stop.pid).push stop.pid .threadStarted 0)
  /-- A system call is entered that is none of interest. -/
  | syscallEntered {regs : Regs abi} (hsyscall : stop.isSyscall = true)
      (hknown : sys.childStates stop.pid ≠ none) (hregs : stop.regs = some regs)
      (hin : (sys.childInSyscall stop.pid).getD false = false)
      (hother : ¬(regs.origAx = abi.sysExit ∧ sys.childExiting stop.pid = none)) :
      Reaction sys stop (sys.setInSyscall stop.pid true)
  /-- The first exit call of a thread is replaced. -/
  | exitIntercepted {regs : Regs abi} (hsyscall : stop.isSyscall = true)
      (hknown : sys.childStates stop.pid ≠ none) (hregs : stop.regs = some regs)
      (hin : (sys.childInSyscall stop.pid).getD false = false)
      (hexit : regs.origAx = abi.sysExit) (hexiting : sys.childExiting stop.pid = none) :
      Reaction sys stop ((sys.setInSyscall stop.pid true).interceptExit stop.pid regs)
  /-- A system call is left. -/
  | syscallLeft (hsyscall : stop.isSyscall = true) (hknown : sys.childStates stop.pid ≠ none)
      (hin : (sys.childInSyscall stop.pid).getD false = true)
      (hexiting : sys.childExiting stop.pid ≠ some 2) :
      Reaction sys stop (sys.setInSyscall stop.pid false)
  /-- The call that replaced an exit call is left. -/
  | exitLeft {left : System abi} (hsyscall : stop.isSyscall = true)
      (hknown : sys.childStates stop.pid ≠ none)
      (hin : (sys.childInSyscall stop.pid).getD false = true)
      (hexiting : sys.childExiting stop.pid = some 2)
      (hinstalled : Installed ((sys.setInSyscall stop.pid false).push stop.pid .threadExiting
        ((sys.childExitValue stop.pid).getD 0)) stop left) :
      Reaction sys stop (left.setExitingHandled stop.pid)
  /-- Signals to be forwarded and ptrace events of no interest. -/
  | ignored (hend : stop.isEnd = false) (hstopped : stop.status.wifstopped = true)
      (hknown : sys.childStates stop.pid ≠ none)
      (htrap : stop.isTrap = false) (hsyscall : stop.isSyscall = false) : Reaction sys stop sys
  /-- The startup notification of the main child. -/
  | started {regs : Regs abi} (htrap : stop.isTrap = true)
      (hknown : sys.childStates stop.pid ≠ none) (hregs : stop.regs = some regs)
      (hmain : stop.pid = sys.mainChild) (hstartup : regs.notification = some .startup)
      (hready : sys.notificationSystemReady = false) : Reaction sys stop (sys.startup regs)
  /-- A trap of a thread that is not processing notifications, with nothing to deliver. -/
  | trapped {regs : Regs abi} (htrap : stop.isTrap = true)
      (hstate : sys.childStates stop.pid = some .running ∨
        sys.childStates stop.pid = some .stopping) (hregs : stop.regs = some regs)
      (hnone : ((sys.notified stop regs).hasPendingNotification stop.pid &&
        (sys.notified stop regs).notificationSystemReady) = false) :
      Reaction sys stop (sys.notified stop regs)
  /-- The same with a notification to deliver. -/
  | trappedDelivered {regs : Regs abi} {delivered : System abi} (htrap : stop.isTrap = true)
      (hstate : sys.childStates stop.pid = some .running ∨
        sys.childStates stop.pid = some .stopping) (hregs : stop.regs = some regs)
      (hready : (sys.notified stop regs).notificationSystemReady = true)
      (hinstalled : Installed (sys.notified stop regs) stop delivered) :
      Reaction sys stop delivered
  /-- A notification is processed and the next one is delivered. -/
  | processingNext {regs : Regs abi} {delivered : System abi} (htrap : stop.isTrap = true)
      (hstate : sys.childStates stop.pid = some .processingNotification)
      (hregs : stop.regs = some regs) (hip : regs.ip = sys.notifyAddress)
      (hdone : regs.notification = some .processingDone)
      (hinstalled : Installed sys stop delivered) : Reaction sys stop delivered
  /-- The last notification is processed. -/
  | processingDone {regs : Regs abi} (htrap : stop.isTrap = true)
      (hstate : sys.childStates stop.pid = some .processingNotification)
      (hregs : stop.regs = some regs) (hip : regs.ip = sys.notifyAddress)
      (hdone : regs.notification = some .processingDone)
      (hempty : sys.queueOf stop.pid = []) : Reaction sys stop (sys.restore stop.pid)
  /-- A thread requests actions while it processes a notification. -/
  | processingRequested {regs : Regs abi} (htrap : stop.isTrap = true)
      (hstate : sys.childStates stop.pid = some .processingNotification)
      (hregs : stop.regs = some regs) (hip : regs.ip = sys.notifyAddress)
      (hrequest : regs.notification = some .queueProcessActions) :
      Reaction sys stop (sys.requested stop regs)
  /-- A wake-up reaches a thread that is processing a notification. -/
  | processingIgnored {regs : Regs abi} (htrap : stop.isTrap = true)
      (hstate : sys.childStates stop.pid = some .processingNotification)
      (hregs : stop.regs = some regs) (hip : regs.ip ≠ sys.notifyAddress) :
      Reaction sys stop sys

/-- A thread at a system call has stopped, and not at a trap. -/
theorem stopped_of_isSyscall (hsyscall : stop.isSyscall = true) :
    stop.status.wifstopped = true ∧ stop.status.wifexited = false ∧ stop.isTrap = false := by
  have htrap := stop.not_isTrap_of_isSyscall hsyscall
  simp only [Stop.isSyscall, Bool.and_eq_true, Bool.not_eq_true'] at hsyscall
  exact ⟨hsyscall.1.1.2, hsyscall.1.1.1, htrap⟩

/-- The ways in which a known thread passes the entry or the exit of a system call. -/
theorem Reaction.syscall_cases (h : Reaction sys stop sys') (hsyscall : stop.isSyscall = true)
    (hknown : sys.childStates stop.pid ≠ none) :
    (sys.childInSyscall stop.pid).getD false = false ∧
        (sys' = sys.setInSyscall stop.pid true ∨
          sys.childExiting stop.pid = none ∧ ∃ regs,
            sys' = (sys.setInSyscall stop.pid true).interceptExit stop.pid regs) ∨
      (sys.childInSyscall stop.pid).getD false = true ∧
        (sys.childExiting stop.pid ≠ some 2 ∧ sys' = sys.setInSyscall stop.pid false ∨
          sys.childExiting stop.pid = some 2 ∧ ∃ left, sys' = left.setExitingHandled stop.pid ∧
            Installed ((sys.setInSyscall stop.pid false).push stop.pid .threadExiting
              ((sys.childExitValue stop.pid).getD 0)) stop left) := by
  have hend := stop.not_isEnd_of_isSyscall hsyscall
  have hstopped := stopped_of_isSyscall hsyscall
  cases h with
  | syscallEntered _ _ _ hin => exact .inl ⟨hin, .inl rfl⟩
  | exitIntercepted _ _ _ hin _ hnone => exact .inl ⟨hin, .inr ⟨hnone, _, rfl⟩⟩
  | syscallLeft _ _ hin hother => exact .inr ⟨hin, .inl ⟨hother, rfl⟩⟩
  | exitLeft _ _ hin hexiting hinstalled =>
      exact .inr ⟨hin, .inr ⟨hexiting, _, rfl, hinstalled⟩⟩
  | gone hexited => simp [hstopped.2.1] at hexited
  | threadExited hexit => simp [stop.isEnd_of_isExit hexit] at hend
  | terminated _ hnot => simp [hstopped.1] at hnot
  | newThread _ _ _ hunknown => exact absurd hunknown hknown
  | newThreadEarly _ _ _ hunknown => exact absurd hunknown hknown
  | ignored _ _ _ _ hnot => simp [hsyscall] at hnot
  | started htrap => simp [hstopped.2.2] at htrap
  | trapped htrap => simp [hstopped.2.2] at htrap
  | trappedDelivered htrap => simp [hstopped.2.2] at htrap
  | processingNext htrap => simp [hstopped.2.2] at htrap
  | processingDone htrap => simp [hstopped.2.2] at htrap
  | processingRequested htrap => simp [hstopped.2.2] at htrap
  | processingIgnored htrap => simp [hstopped.2.2] at htrap

/-- A thread that leaves the call that replaced its exit call is told to exit. -/
theorem Reaction.exitLeft_of (h : Reaction sys stop sys') (hsyscall : stop.isSyscall = true)
    (hknown : sys.childStates stop.pid ≠ none)
    (hin : (sys.childInSyscall stop.pid).getD false = true)
    (hexiting : sys.childExiting stop.pid = some 2) :
    ∃ left, sys' = left.setExitingHandled stop.pid ∧
      Installed ((sys.setInSyscall stop.pid false).push stop.pid .threadExiting
        ((sys.childExitValue stop.pid).getD 0)) stop left := by
  rcases h.syscall_cases hsyscall hknown with ⟨hout, -⟩ | ⟨-, ⟨hother, -⟩ | ⟨-, hleft⟩⟩
  · simp [hin] at hout
  · exact absurd hexiting hother
  · exact hleft

/-- A trap is a stop that is neither an end nor a system call. -/
theorem stopped_of_isTrap (htrap : stop.isTrap = true) :
    stop.status.wifstopped = true ∧ stop.status.wifexited = false ∧ stop.isSyscall = false := by
  simp only [Stop.isTrap, Bool.and_eq_true, Bool.not_eq_true'] at htrap
  refine ⟨htrap.1.1.1.2, htrap.1.1.1.1, ?_⟩
  simp [Stop.isSyscall, htrap.1.2]

/-- A processing thread that reports that its last notification is processed is restored. -/
theorem Reaction.processingDone_of (h : Reaction sys stop sys') (htrap : stop.isTrap = true)
    {regs : Regs abi} (hregs : stop.regs = some regs)
    (hstate : sys.childStates stop.pid = some .processingNotification)
    (hip : regs.ip = sys.notifyAddress) (hdone : regs.notification = some .processingDone)
    (hempty : sys.queueOf stop.pid = []) : sys' = sys.restore stop.pid := by
  have hend := stop.not_isEnd_of_isTrap htrap
  have hstopped := stopped_of_isTrap htrap
  cases h with
  | processingDone => rfl
  | gone hexited => simp [hstopped.2.1] at hexited
  | threadExited hexit => simp [stop.isEnd_of_isExit hexit] at hend
  | terminated _ hnot => simp [hstopped.1] at hnot
  | newThread _ _ _ hunknown => simp [hstate] at hunknown
  | newThreadEarly _ _ _ hunknown => simp [hstate] at hunknown
  | syscallEntered hsyscall => simp [hstopped.2.2] at hsyscall
  | exitIntercepted hsyscall => simp [hstopped.2.2] at hsyscall
  | syscallLeft hsyscall => simp [hstopped.2.2] at hsyscall
  | exitLeft hsyscall => simp [hstopped.2.2] at hsyscall
  | ignored _ _ _ hnot => simp [htrap] at hnot
  | started _ _ hregs' _ hstartup =>
      obtain rfl := Option.some.inj (hregs.symm.trans hregs')
      simp [hdone] at hstartup
  | trapped _ hstate' => simp [hstate] at hstate'
  | trappedDelivered _ hstate' => simp [hstate] at hstate'
  | processingNext _ _ _ _ _ hinstalled =>
      cases hinstalled with
      | intro hqueue _ => simp [hempty] at hqueue
  | processingRequested _ _ hregs' _ hrequest =>
      obtain rfl := Option.some.inj (hregs.symm.trans hregs')
      simp [hdone] at hrequest
  | processingIgnored _ _ hregs' hip' =>
      obtain rfl := Option.some.inj (hregs.symm.trans hregs')
      exact absurd hip hip'

section Cases

variable (hexited : stop.status.wifexited = false) (hstopped : stop.status.wifstopped = true)

include hexited hstopped in

/-- What happens when a new thread is seen. -/
theorem handleNewChild_ok (hunknown : sys.childStates stop.pid = none)
    (h : sys.handleNewChild stop = .ok sys') : Reaction sys stop sys' := by
  unfold handleNewChild at h
  by_cases hstop : stop.status.stopSig = SIGSTOP
  · rw [if_pos hstop] at h
    by_cases hready : sys.notificationSystemReady = true
    · rw [if_pos hready] at h
      rcases setupChildNotificationWith_ok h with ⟨saved, hsaved, rfl⟩
      exact .newThread hstop hexited hstopped hunknown hready hsaved
    · rw [if_neg hready, queueNotification, if_pos rfl] at h
      rw [← Except.ok.inj h]
      exact .newThreadEarly hstop hexited hstopped hunknown (by simpa using hready)
  · simp [hstop] at h

/-- What happens at a system call. -/
theorem handleSyscall_ok (hsyscall : stop.isSyscall = true)
    (hknown : sys.childStates stop.pid ≠ none) (h : sys.handleSyscall stop = .ok sys') :
    Reaction sys stop sys' := by
  unfold handleSyscall at h
  by_cases hin : (sys.childInSyscall stop.pid).getD false = true
  · rw [if_pos hin] at h
    change (if sys.childExiting stop.pid = some 2 then
      (setupChildNotification ((sys.setInSyscall stop.pid false).queueNotification stop.pid
        stop.pid .threadExiting ((sys.childExitValue stop.pid).getD 0)) stop).bind
          fun left => .ok (left.setExitingHandled stop.pid)
      else .ok (sys.setInSyscall stop.pid false)) = .ok sys' at h
    by_cases hexiting : sys.childExiting stop.pid = some 2
    · rw [if_pos hexiting, queueNotification, if_pos rfl] at h
      cases hsetup : setupChildNotification ((sys.setInSyscall stop.pid false).push stop.pid
        .threadExiting ((sys.childExitValue stop.pid).getD 0)) stop with
      | error e =>
          rw [hsetup] at h
          cases h
      | ok left =>
          rw [hsetup] at h
          rw [← Except.ok.inj h]
          exact .exitLeft hsyscall hknown hin hexiting (setupChildNotification_ok hsetup)
    · rw [if_neg hexiting] at h
      rw [← Except.ok.inj h]
      exact .syscallLeft hsyscall hknown hin hexiting
  · rw [if_neg hin, handleSyscallEntry] at h
    cases hregs : stop.regs with
    | none => simp [hregs] at h
    | some regs =>
        rw [hregs] at h
        simp only at h
        have hin' : (sys.childInSyscall stop.pid).getD false = false := by simpa using hin
        by_cases hexit : regs.origAx = abi.sysExit ∧ sys.childExiting stop.pid = none
        · rw [if_pos hexit] at h
          rw [← Except.ok.inj h]
          exact .exitIntercepted hsyscall hknown hregs hin' hexit.1 hexit.2
        · rw [if_neg hexit] at h
          rw [← Except.ok.inj h]
          exact .syscallEntered hsyscall hknown hregs hin' hexit

/-- What happens at a trap. -/
theorem handleTrapOccured_ok (htrap : stop.isTrap = true)
    (hknown : sys.childStates stop.pid ≠ none) (h : sys.handleTrapOccured stop = .ok sys') :
    Reaction sys stop sys' := by
  unfold handleTrapOccured at h
  cases hregs : stop.regs with
  | none => simp [hregs] at h
  | some regs =>
      rw [hregs] at h
      simp only at h
      by_cases hstartup : stop.pid = sys.mainChild ∧ regs.notification = some .startup ∧
          sys.notificationSystemReady = false
      · rw [if_pos hstartup] at h
        rw [← Except.ok.inj h]
        exact .started htrap hknown hregs hstartup.1 hstartup.2.1 hstartup.2.2
      · rw [if_neg hstartup] at h
        have hrunning : ∀ state, state = .running ∨ state = .stopping →
            sys.childStates stop.pid = some state →
            sys.handleTrapRunning stop regs = .ok sys' → Reaction sys stop sys' := by
          intro state hstate hcurrent h
          have hstate' : sys.childStates stop.pid = some .running ∨
              sys.childStates stop.pid = some .stopping := by
            rcases hstate with rfl | rfl
            · exact Or.inl hcurrent
            · exact Or.inr hcurrent
          change (if (sys.notified stop regs).hasPendingNotification stop.pid &&
            (sys.notified stop regs).notificationSystemReady then
              (sys.notified stop regs).setupChildNotification stop
            else .ok (sys.notified stop regs)) = .ok sys' at h
          by_cases hnext : ((sys.notified stop regs).hasPendingNotification stop.pid &&
              (sys.notified stop regs).notificationSystemReady) = true
          · rw [if_pos hnext] at h
            rw [Bool.and_eq_true] at hnext
            exact .trappedDelivered htrap hstate' hregs hnext.2 (setupChildNotification_ok h)
          · rw [if_neg hnext] at h
            rw [← Except.ok.inj h]
            exact .trapped htrap hstate' hregs (by simpa using hnext)
        cases hstate : sys.childStates stop.pid with
        | none => exact absurd hstate hknown
        | some state =>
            rw [hstate] at h
            cases state with
            | running => exact hrunning _ (Or.inl rfl) hstate h
            | stopping => exact hrunning _ (Or.inr rfl) hstate h
            | processingNotification =>
                simp only [Option.getD_some, handleTrapProcessing] at h
                by_cases hip : regs.ip = sys.notifyAddress
                · rw [if_pos hip] at h
                  by_cases hdone : regs.notification = some .processingDone
                  · rw [if_pos hdone] at h
                    by_cases hpending : sys.hasPendingNotification stop.pid = true
                    · rw [if_pos hpending] at h
                      exact .processingNext htrap hstate hregs hip hdone
                        (setupChildNotification_ok h)
                    · rw [if_neg hpending] at h
                      rw [← Except.ok.inj h]
                      exact .processingDone htrap hstate hregs hip hdone
                        (by simpa [hasPendingNotification] using hpending)
                  · rw [if_neg hdone] at h
                    by_cases hrequest : regs.notification = some .queueProcessActions
                    · rw [handleNotification_request hrequest] at h
                      rw [← Except.ok.inj h]
                      exact .processingRequested htrap hstate hregs hip hrequest
                    · rw [handleNotification_other hrequest] at h
                      simp at h
                · rw [if_neg hip] at h
                  rw [← Except.ok.inj h]
                  exact .processingIgnored htrap hstate hregs hip

include hexited hstopped in

/-- What happens at any stop. -/
theorem handleStopped_ok (h : sys.handleStopped stop = .ok sys') : Reaction sys stop sys' := by
  unfold handleStopped at h
  by_cases hunknown : sys.childStates stop.pid = none
  · rw [if_pos hunknown] at h
    exact handleNewChild_ok hexited hstopped hunknown h
  · rw [if_neg hunknown] at h
    have hsignaled := stop.status.not_wifsignaled_of_wifstopped hstopped
    by_cases hsig : stop.status.stopSig = SIGTRAP
    · rw [if_pos hsig] at h
      by_cases hgood : stop.status.sysGood = true
      · rw [if_pos hgood] at h
        exact handleSyscall_ok (by simp [Stop.isSyscall, *]) hunknown h
      · rw [if_neg hgood] at h
        by_cases hexit : stop.status.event = PTRACE_EVENT_EXIT
        · rw [if_pos hexit, handleExitEvent] at h
          by_cases hmain : stop.pid = sys.mainChild
          · rw [if_pos hmain] at h
            cases hmessage : stop.eventMessage <;> simp [hmessage] at h
          · rw [if_neg hmain] at h
            rw [← Except.ok.inj h]
            exact .threadExited (by simp [Stop.isExit, Stop.isExitEvent, *]) hmain hunknown
        · rw [if_neg hexit] at h
          have hend : stop.isEnd = false := by simp [Stop.isEnd, Stop.isExitEvent, *]
          have hsyscall : stop.isSyscall = false := by simp [Stop.isSyscall, *]
          by_cases hclone : stop.status.event = PTRACE_EVENT_CLONE
          · rw [if_pos hclone] at h
            rw [← Except.ok.inj h]
            have htrap : stop.isTrap = false := by
              simp [Stop.isTrap, *, PTRACE_EVENT_CLONE]
            exact .ignored hend hstopped hunknown htrap hsyscall
          · rw [if_neg hclone] at h
            by_cases hevent : stop.status.event = 0
            · rw [if_pos hevent] at h
              exact handleTrapOccured_ok (by simp [Stop.isTrap, *]) hunknown h
            · rw [if_neg hevent] at h
              rw [← Except.ok.inj h]
              have htrap : stop.isTrap = false := by
                simp only [Stop.isTrap, beq_eq_false_iff_ne.mpr hevent, Bool.and_false]
              exact .ignored hend hstopped hunknown htrap hsyscall
    · rw [if_neg hsig] at h
      rw [← Except.ok.inj h]
      exact .ignored (by simp [Stop.isEnd, Stop.isExitEvent, *]) hstopped hunknown
        (by simp [Stop.isTrap, *]) (by simp [Stop.isSyscall, *])

end Cases

/-- An iteration that goes on is one of the reactions, after which a stopped thread is
resumed. -/
theorem traceLoopBody_cases (h : sys.traceLoopBody stop = .ok sys') :
    stop.pid.msb = false ∧ ∃ reacted effects, Reaction sys stop reacted ∧
      sys' = reacted.record effects ∧
      ∀ effect ∈ effects, ∃ sendSig, effect = .resumed stop.pid sendSig := by
  unfold traceLoopBody at h
  by_cases hnegative : stop.pid.msb = true
  · simp [hnegative] at h
  · rw [if_neg hnegative] at h
    refine ⟨by simpa using hnegative, ?_⟩
    have hquiet : ∀ reacted, Reaction sys stop reacted → sys' = reacted →
        ∃ reacted effects, Reaction sys stop reacted ∧ sys' = reacted.record effects ∧
          ∀ effect ∈ effects, ∃ sendSig, effect = .resumed stop.pid sendSig := by
      intro reacted hreaction heq
      refine ⟨reacted, [], hreaction, ?_, by simp⟩
      rw [heq, record, List.append_nil]
    by_cases hexited : stop.status.wifexited = true
    · rw [if_pos hexited] at h
      by_cases hmain : stop.pid = sys.mainChild
      · simp [hmain] at h
      · rw [if_neg hmain] at h
        by_cases hunknown : sys.childStates stop.pid = none
        · rw [if_pos hunknown] at h
          exact hquiet sys (.gone hexited hmain hunknown) (Except.ok.inj h).symm
        · rw [if_neg hunknown] at h
          exact hquiet _ (.threadExited (by simp [Stop.isExit, hexited]) hmain hunknown)
            (Except.ok.inj h).symm
    · rw [if_neg hexited] at h
      have hexited' : stop.status.wifexited = false := by simpa using hexited
      by_cases hstopped : stop.status.wifstopped = true
      · rw [if_pos hstopped] at h
        cases hreacted : sys.handleStopped stop with
        | error e =>
            rw [hreacted] at h
            cases h
        | ok reacted =>
            rw [hreacted] at h
            refine ⟨reacted, [.resumed stop.pid (sys.sendSig stop)],
              handleStopped_ok hexited' hstopped hreacted, (Except.ok.inj h).symm, ?_⟩
            intro effect heffect
            exact ⟨_, List.mem_singleton.mp heffect⟩
      · rw [if_neg hstopped] at h
        exact hquiet sys (.terminated hexited' (by simpa using hstopped))
          (Except.ok.inj h).symm

/-- A step is the creation of a thread or a reaction to a report. -/
theorem step_cases {input : Input abi} (h : sys.step input = .ok sys') :
    (∃ pid, input = .created pid ∧
      sys' = { sys with alive := Function.update sys.alive pid true }) ∨
    ∃ stop reacted effects, input = .reported stop ∧ stop.pid.msb = false ∧
      Reaction (sys.reportedByKernel stop) stop reacted ∧ sys' = reacted.record effects ∧
      ∀ effect ∈ effects, ∃ sendSig, effect = .resumed stop.pid sendSig := by
  cases input with
  | created pid => exact Or.inl ⟨pid, rfl, (Except.ok.inj h).symm⟩
  | reported stop =>
      rcases traceLoopBody_cases h with ⟨hpid, reacted, effects, hreaction, hsys', heffects⟩
      exact Or.inr ⟨stop, reacted, effects, rfl, hpid, hreaction, hsys', heffects⟩

/-! ## Reports of a small run -/

/-- Registers of a 64 bit thread; those not named are zero. -/
def regsWith (ip bx cx dx origAx : Long .x86_64) : Regs .x86_64 where
  ip := ip
  ax := 0
  bx := bx
  cx := cx
  dx := dx
  di := 0
  origAx := origAx
  others := []

/-- The main child of the small runs. -/
abbrev mainPid : Pid := 100

/-- The notification address of the small runs. -/
abbrev address : Long .x86_64 := 0x1000

/-- The notification procedure of the small runs. -/
abbrev procedure : Long .x86_64 := 0x2000

/-- A start for small examples. -/
abbrev smallStart : System .x86_64 := start mainPid 0 0

/-- A new thread is stopped by {lit}`SIGSTOP`. -/
def firstStop (pid : Pid) : Input .x86_64 :=
  .reported ⟨pid, 0x137F, some (regsWith 0 0 0 0 0), none, .other⟩

/-- A thread stops at the entry or the exit of an exit call with this {lit}`bx`. -/
def exitCall (pid : Pid) (bx : Long .x86_64) : Input .x86_64 :=
  .reported ⟨pid, 0x857F, some (regsWith 0 bx 0 0 60), none, .other⟩

/-- A thread is about to exit. -/
def exitEvent (pid : Pid) : Input .x86_64 :=
  .reported ⟨pid, 0x6057F, none, none, .other⟩

/-- A thread executes the {lit}`int3` of a notification. -/
def notifies (pid : Pid) (cx dx : Long .x86_64) : Input .x86_64 :=
  .reported ⟨pid, 0x057F, some (regsWith address 0 cx dx 0), none, .notification⟩

/-- A wake-up reaches a thread at some instruction. -/
def wakesUp (pid : Pid) (ip cx dx : Long .x86_64) : Input .x86_64 :=
  .reported ⟨pid, 0x057F, some (regsWith ip 0 cx dx 0), none, .wakeUp⟩

/-- The startup notification of the main child. -/
abbrev startsUp : Input .x86_64 := notifies mainPid 0 procedure

end System
end ParentProcess
end Roofline
