import Roofline.ParentProcess.StepCases
import Roofline.Library.Logs

/-!
# Notifications are delivered in order and unchanged

A notification is queued at the trap of one thread and installed at a later stop of
another.  This file compares what was queued for a thread with what was installed for
it, since it became known.

Main results:

- Theorem {lit}`InOrder.reaction`: every reaction takes notifications from the front of a
  queue and adds them at its end.
- Theorem {lit}`notifications_delivered`: over every run in which no exit status is wider
  than 32 bits, what was installed is a prefix of what was queued and the rest is pending.
- Theorem {lit}`not_notifications_delivered`: a wide exit status is cut off.
-/

namespace Roofline
namespace ParentProcess

/-- The effect neither queues nor installs a notification nor forgets a thread. -/
def Effect.keepsQueues {abi : Abi} : Effect abi → Bool
  | .queued .. => false
  | .installed .. => false
  | .forgotten .. => false
  | _ => true

namespace System

open Runs Logs

variable {abi : Abi} {sys mid sys' : System abi} {stop : Stop abi}

/-! ## Histories -/

/-- What is queued for a thread after an effect. -/
def queuedAfter (pid : Pid) (queued : List (ChildNotification × Long abi)) :
    Effect abi → List (ChildNotification × Long abi)
  | .queued receiver event arg => if receiver = pid then queued ++ [(event, arg)] else queued
  | .forgotten child => if child = pid then [] else queued
  | _ => queued

/-- The notifications queued for a thread since it became known. -/
def queuedSince (pid : Pid) (log : List (Effect abi)) : List (ChildNotification × Long abi) :=
  log.foldl (queuedAfter pid) []

/-- What was installed in a thread after an effect. -/
def installedAfter (pid : Pid) (installed : List (ChildNotification × Long abi)) :
    Effect abi → List (ChildNotification × Long abi)
  | .installed child event arg =>
      if child = pid then installed ++ [(event, arg)] else installed
  | .forgotten child => if child = pid then [] else installed
  | _ => installed

/-- The notifications installed from the queue of a thread since it became known. -/
def installedSince (pid : Pid) (log : List (Effect abi)) :
    List (ChildNotification × Long abi) :=
  log.foldl (installedAfter pid) []

/-- For every tracked thread, what was installed is a prefix of what was queued, and
what is missing is still in the queue. -/
def DeliversInOrder (sys : System abi) : Prop :=
  ∀ pid, sys.childStates pid ≠ none →
    installedSince pid sys.log <+: queuedSince pid sys.log ∧
      queuedSince pid sys.log = installedSince pid sys.log ++ sys.queueOf pid

/-- The first exit call of a thread is entered with a status that is wider than 32 bits. -/
def ExitsWithWideStatus (sys : System abi) : Input abi → Prop
  | .created _ => False
  | .reported stop =>
      stop.isSyscall = true ∧ sys.childStates stop.pid ≠ none ∧
        (sys.childInSyscall stop.pid).getD false = false ∧
        sys.childExiting stop.pid = none ∧
        ∃ regs, stop.regs = some regs ∧ regs.origAx = abi.sysExit ∧ ¬Fits regs.bx

/-- The queues hold what was queued and not yet installed, and everything that is or
will be queued fits into 32 bits. -/
structure InOrder (sys : System abi) : Prop where
  queue : ∀ pid, queuedSince pid sys.log = installedSince pid sys.log ++ sys.queueOf pid
  fits : ∀ pid, ∀ notification ∈ sys.queueOf pid, Fits notification.2
  exitValue : ∀ pid, sys.childExiting pid = some 2 → Fits ((sys.childExitValue pid).getD 0)

/-! ## Updates -/

/-- What is queued after one more effect. -/
theorem queuedSince_append_singleton (pid : Pid) (log : List (Effect abi))
    (effect : Effect abi) :
    queuedSince pid (log ++ [effect]) = queuedAfter pid (queuedSince pid log) effect := by
  simp [queuedSince]

/-- What was installed after one more effect. -/
theorem installedSince_append_singleton (pid : Pid) (log : List (Effect abi))
    (effect : Effect abi) :
    installedSince pid (log ++ [effect]) =
      installedAfter pid (installedSince pid log) effect := by
  simp [installedSince]

/-- Effects that keep the queues queue nothing. -/
theorem queuedSince_append_of_keeps {log effects : List (Effect abi)}
    (hkeeps : ∀ effect ∈ effects, effect.keepsQueues = true) (pid : Pid) :
    queuedSince pid (log ++ effects) = queuedSince pid log := by
  apply summary_append_of_fixed
  intro effect heffect queued
  have h := hkeeps effect heffect
  cases effect <;> simp_all [Effect.keepsQueues, queuedAfter]

/-- They install nothing. -/
theorem installedSince_append_of_keeps {log effects : List (Effect abi)}
    (hkeeps : ∀ effect ∈ effects, effect.keepsQueues = true) (pid : Pid) :
    installedSince pid (log ++ effects) = installedSince pid log := by
  apply summary_append_of_fixed
  intro effect heffect installed
  have h := hkeeps effect heffect
  cases effect <;> simp_all [Effect.keepsQueues, installedAfter]

/-- An update that touches neither queues nor exit values keeps the invariant. -/
theorem InOrder.extend (h : InOrder sys) {effects : List (Effect abi)}
    (hlog : sys'.log = sys.log ++ effects)
    (hkeeps : ∀ effect ∈ effects, effect.keepsQueues = true)
    (hqueue : sys'.childNotificationQueue = sys.childNotificationQueue)
    (hexiting : ∀ pid, sys'.childExiting pid = some 2 →
      Fits ((sys'.childExitValue pid).getD 0)) : InOrder sys' := by
  have hqueueOf : ∀ pid, sys'.queueOf pid = sys.queueOf pid := by
    intro pid
    rw [queueOf, queueOf, hqueue]
  refine { queue := ?queue, fits := ?fits, exitValue := hexiting }
  case queue =>
    intro pid
    rw [hlog, queuedSince_append_of_keeps hkeeps, installedSince_append_of_keeps hkeeps, hqueueOf]
    exact h.queue pid
  case fits =>
    intro pid notification hmem
    rw [hqueueOf] at hmem
    exact h.fits pid notification hmem

/-- A notification is queued at the end. -/
theorem InOrder.push (h : InOrder sys) (receiver : Pid) (event : ChildNotification)
    {arg : Long abi} (harg : Fits arg) : InOrder (sys.push receiver event arg) := by
  have hqueueOf : ∀ pid, (sys.push receiver event arg).queueOf pid =
      if receiver = pid then sys.queueOf pid ++ [(event, arg)] else sys.queueOf pid := by
    intro pid
    by_cases hpid : receiver = pid
    · rw [if_pos hpid, ← hpid]
      simp [System.push, queueOf]
    · rw [if_neg hpid]
      simp [System.push, queueOf, Function.update_of_ne (Ne.symm hpid)]
  refine { queue := ?queue, fits := ?fits, exitValue := h.exitValue }
  case queue =>
    intro pid
    change queuedSince pid (sys.log ++ [_]) = installedSince pid (sys.log ++ [_]) ++ _
    rw [queuedSince_append_singleton, installedSince_append_singleton, hqueueOf]
    by_cases hpid : receiver = pid
    · simp [queuedAfter, installedAfter, hpid, h.queue pid]
    · simp [queuedAfter, installedAfter, hpid, h.queue pid]
  case fits =>
    intro pid notification hmem
    rw [hqueueOf] at hmem
    split_ifs at hmem with hpid
    · rcases List.mem_append.mp hmem with hold | hnew
      · exact h.fits pid notification hold
      · rw [List.mem_singleton.mp hnew]
        exact harg
    · exact h.fits pid notification hmem

/-- Waking a thread up touches neither queues nor exit values. -/
theorem InOrder.queueNotification (h : InOrder sys) (stoppedChild receiver : Pid)
    (event : ChildNotification) {arg : Long abi} (harg : Fits arg) :
    InOrder (sys.queueNotification stoppedChild receiver event arg) := by
  have hpush := h.push receiver event harg
  have hlog : (sys.queueNotification stoppedChild receiver event arg).log =
      (sys.push receiver event arg).log ++ [] := by
    rw [queueNotification_log, List.append_nil]
  apply hpush.extend hlog
  · simp
  · rw [queueNotification_childNotificationQueue]
  · intro pid
    rw [queueNotification_childExiting, queueNotification_childExitValue]
    exact h.exitValue pid

/-- Recording them keeps the order. -/
theorem InOrder.record (h : InOrder sys) {effects : List (Effect abi)}
    (hkeeps : ∀ effect ∈ effects, effect.keepsQueues = true) : InOrder (sys.record effects) :=
  h.extend rfl hkeeps rfl h.exitValue

/-- The first notification of the queue is installed as it was queued. -/
theorem InOrder.installed (h : InOrder sys) (hinstalled : Installed sys stop sys') :
    InOrder sys' := by
  cases hinstalled with
  | @intro event arg rest saved hqueue hsaved =>
      have hfits : Fits arg := h.fits stop.pid (event, arg) (by simp [hqueue])
      have harg : throughUint32 arg = arg := (throughUint32_eq_iff arg).mpr hfits
      have hqueueOf : ∀ pid, (sys.pop stop.pid event arg rest).queueOf pid =
          if stop.pid = pid then rest else sys.queueOf pid := by
        intro pid
        by_cases hpid : stop.pid = pid
        · rw [if_pos hpid, ← hpid]
          simp [System.pop, queueOf]
        · rw [if_neg hpid]
          simp [System.pop, queueOf, Function.update_of_ne (Ne.symm hpid)]
      have hpop : InOrder (sys.pop stop.pid event arg rest) := by
        refine ⟨?_, ?_, h.exitValue⟩
        · intro pid
          change queuedSince pid (sys.log ++ [_]) = installedSince pid (sys.log ++ [_]) ++ _
          rw [queuedSince_append_singleton, installedSince_append_singleton, hqueueOf]
          by_cases hpid : stop.pid = pid
          · have hold := h.queue pid
            rw [← hpid, hqueue, hpid] at hold
            simp [queuedAfter, installedAfter, hpid, harg, hold]
          · simp [queuedAfter, installedAfter, hpid, h.queue pid]
        · intro pid notification hmem
          rw [hqueueOf] at hmem
          split_ifs at hmem with hpid
          · exact h.fits stop.pid notification (by simp [hqueue, hmem])
          · exact h.fits pid notification hmem
      exact hpop.extend rfl (by simp [Effect.keepsQueues]) rfl h.exitValue

/-- A forgotten thread has no history and no queue. -/
theorem InOrder.forget (h : InOrder sys) (pid : Pid) : InOrder (sys.forget pid) := by
  refine { queue := ?queue, fits := ?fits, exitValue := h.exitValue }
  case queue =>
    intro child
    change queuedSince child (sys.log ++ [_]) = installedSince child (sys.log ++ [_]) ++ _
    rw [queuedSince_append_singleton, installedSince_append_singleton]
    by_cases hchild : pid = child
    · simp [queuedAfter, installedAfter, hchild, System.forget, queueOf]
    · simp [queuedAfter, installedAfter, hchild, System.forget, queueOf,
        Function.update_of_ne (Ne.symm hchild), h.queue child]
  case fits =>
    intro child notification hmem
    by_cases hchild : child = pid
    · simp [System.forget, queueOf, hchild] at hmem
    · exact h.fits child notification (by
        simpa [System.forget, queueOf, Function.update_of_ne hchild] using hmem)

/-! ## Steps -/

/-- A request keeps the order. -/
theorem InOrder.requested (h : InOrder sys) (regs : Regs abi) :
    InOrder (sys.requested stop regs) :=
  (h.record (by simp [Effect.keepsQueues])).queueNotification _ _ _ (fits_zero abi)

/-- A notification of the parent keeps the order. -/
theorem InOrder.notified (h : InOrder sys) (regs : Regs abi) :
    InOrder (sys.notified stop regs) := by
  rcases notified_cases sys stop regs with ⟨_, heq⟩ | ⟨_, _, heq⟩ | ⟨_, _, heq⟩
  · rwa [heq]
  · rw [heq]
    exact h.requested regs
  · rw [heq]
    exact h.record (by simp [Effect.keepsQueues])

/-- The exit of a thread keeps the order. -/
theorem InOrder.handleChildThreadExited (h : InOrder sys) {pid : Pid}
    (hpid : pid.msb = false) : InOrder (sys.handleChildThreadExited pid) :=
  (h.forget pid).queueNotification _ _ _ (fits_toLong hpid)

/-- Entering and leaving a system call keeps the order. -/
theorem InOrder.setInSyscall (h : InOrder sys) (pid : Pid) (inSyscall : Bool) :
    InOrder (sys.setInSyscall pid inSyscall) :=
  h.extend (List.append_nil _).symm (by simp) rfl h.exitValue

/-- Observing a thread keeps the order. -/
theorem InOrder.observe (h : InOrder sys) (pid : Pid) : InOrder (sys.observe pid) :=
  h.extend rfl (by simp [Effect.keepsQueues]) rfl h.exitValue

/-- Intercepting an exit keeps the order, if the exit status fits. -/
theorem InOrder.interceptExit (h : InOrder sys) (pid : Pid) {regs : Regs abi}
    (hfits : Fits regs.bx) : InOrder (sys.interceptExit pid regs) := by
  refine h.extend rfl (by simp [Effect.keepsQueues]) rfl ?_
  intro child hchild
  by_cases hsame : child = pid
  · simpa [System.interceptExit, hsame] using hfits
  · have hold : sys.childExiting child = some 2 := by
      simpa [System.interceptExit, hsame] using hchild
    simpa [System.interceptExit, hsame] using h.exitValue child hold

/-- Leaving the intercepted call keeps the order. -/
theorem InOrder.setExitingHandled (h : InOrder sys) (pid : Pid) :
    InOrder (sys.setExitingHandled pid) := by
  refine h.extend (List.append_nil _).symm (by simp) rfl ?_
  intro child hchild
  by_cases hsame : child = pid
  · simp [System.setExitingHandled, hsame] at hchild
  · exact h.exitValue child (by simpa [System.setExitingHandled, hsame] using hchild)

/-- Every reaction but the interception of a wide exit status keeps the invariant. -/
theorem InOrder.reaction (h : InOrder sys) (hpid : stop.pid.msb = false)
    (hnarrow : ¬ExitsWithWideStatus sys (.reported stop)) (hreaction : Reaction sys stop sys') :
    InOrder sys' := by
  cases hreaction with
  | gone => exact h
  | threadExited => exact h.handleChildThreadExited hpid
  | terminated => exact h
  | newThread => exact (h.observe _).extend rfl (by simp [Effect.keepsQueues]) rfl h.exitValue
  | newThreadEarly => exact (h.observe _).push _ _ (fits_zero abi)
  | syscallEntered => exact h.setInSyscall _ _
  | @exitIntercepted regs hsyscall hknown hregs hin hexit hexiting =>
      have hfits : Fits regs.bx := by
        by_contra hwide
        exact hnarrow ⟨hsyscall, hknown, hin, hexiting, regs, hregs, hexit, hwide⟩
      exact (h.setInSyscall stop.pid true).interceptExit stop.pid hfits
  | syscallLeft => exact h.setInSyscall _ _
  | exitLeft _ _ _ hexiting hinstalled =>
      have hpushed := (h.setInSyscall stop.pid false).push stop.pid .threadExiting
        (h.exitValue stop.pid hexiting)
      exact (hpushed.installed hinstalled).setExitingHandled stop.pid
  | ignored => exact h
  | started => exact h.extend rfl (by simp [Effect.keepsQueues]) rfl h.exitValue
  | trapped => exact h.notified _
  | trappedDelivered _ _ _ _ hinstalled => exact (h.notified _).installed hinstalled
  | processingNext _ _ _ _ _ hinstalled => exact h.installed hinstalled
  | processingDone => exact h.extend rfl (by simp [Effect.keepsQueues]) rfl h.exitValue
  | processingRequested => exact h.requested _
  | processingIgnored => exact h

/-- Every step without a wide exit status keeps the order. -/
theorem InOrder.step (h : InOrder sys) {input : Input abi}
    (hnarrow : ¬ExitsWithWideStatus sys input) (hstep : sys.step input = .ok sys') :
    InOrder sys' := by
  rcases step_cases hstep with
    ⟨pid, _, rfl⟩ | ⟨stop, reacted, effects, rfl, hpid, hreaction, rfl, heffects⟩
  · exact ⟨h.queue, h.fits, h.exitValue⟩
  · have hkernel : InOrder (sys.reportedByKernel stop) := by
      apply h.extend (by rw [reportedByKernel_log, List.append_nil]) (by simp)
      · rw [reportedByKernel_toParent]
      · rw [reportedByKernel_toParent]
        exact h.exitValue
    have hnarrow' : ¬ExitsWithWideStatus (sys.reportedByKernel stop) (.reported stop) := by
      intro hwide
      apply hnarrow
      simpa [ExitsWithWideStatus] using hwide
    apply (hkernel.reaction hpid hnarrow' hreaction).record
    intro effect heffect
    rcases heffects effect heffect with ⟨sendSig, rfl⟩
    rfl

/-- Nothing is queued at the start. -/
theorem start_inOrder (mainChild : Pid) (notifyAddress entry : Long abi) :
    InOrder (start mainChild notifyAddress entry) where
  queue _ := rfl
  fits := by simp [start, queueOf]
  exitValue := by simp [start]

/-- In every state of a run in which no first exit call is entered with a status wider
than 32 bits: for every tracked thread, the notifications installed from its queue are
a prefix of those queued for it since it became known, arguments included, and those
that are missing are still in its queue. -/
theorem notifications_delivered {mainChild : Pid} {notifyAddress entry : Long abi}
    {inputs : List (Input abi)}
    (hnarrow : StepsMeet step (start mainChild notifyAddress entry)
      (fun _ s input => ¬ExitsWithWideStatus s input) inputs) :
    Visits step (start mainChild notifyAddress entry) inputs fun _ s => DeliversInOrder s := by
  have hinOrder : Visits step (start mainChild notifyAddress entry) inputs
      fun _ s => InOrder s := by
    refine Run.always (P := fun _ s => InOrder s) (start_inOrder _ _ _) ?_ hnarrow
    intro _ s input s' _ hs hinput hstep
    exact hs.step hinput hstep
  intro before after s hsplit hrun pid _
  have hqueue := (hinOrder before after s hsplit hrun).queue pid
  exact ⟨hqueue ▸ List.prefix_append _ _, hqueue⟩

/-- On the 32 bit machine every exit status fits. -/
theorem not_exitsWithWideStatus_i386 (s : System .i386) (input : Input .i386) :
    ¬ExitsWithWideStatus s input := by
  cases input with
  | created pid => simp [ExitsWithWideStatus]
  | reported stop =>
      rintro ⟨_, _, _, _, regs, _, _, hwide⟩
      exact hwide (fits_i386 regs.bx)

/-- On this machine the main child starts up, and thread 101 starts and exits with a status of 32
bits. -/
def exitingThread : List (Input .i386) :=
  [.reported ⟨100, 0x057F, some ⟨0x1000, 0, 0, 0, 0x2000, 0, 0, []⟩, none, .notification⟩,
    .reported ⟨101, 0x137F, some ⟨0, 0, 0, 0, 0, 0, 0, []⟩, none, .other⟩,
    .reported ⟨101, 0x057F, some ⟨0x1000, 0, 0, 1, 0, 0, 0, []⟩, none, .notification⟩,
    .reported ⟨101, 0x857F, some ⟨0, 0, 0xFFFFFFFF, 0, 0, 0, 1, []⟩, none, .other⟩,
    .reported ⟨101, 0x857F, some ⟨0, 0, 0xFFFFFFFF, 0, 0, 0, 1, []⟩, none, .other⟩]

/-- On a 32 bit machine the notification of an exit with status -1 is delivered. -/
theorem notifications_delivered_i386 :
    Visits step (start (100 : Pid) (0x1000 : Long .i386) 0) exitingThread
        (fun _ s => DeliversInOrder s) ∧
      ∃ s, exec step (start (100 : Pid) (0x1000 : Long .i386) 0) exitingThread = .ok s ∧
        installedSince 101 s.log = [(.threadExiting, 0xFFFFFFFF)] := by
  refine ⟨notifications_delivered ?_, _, rfl, by decide⟩
  intro before input after s _ _
  exact not_exitsWithWideStatus_i386 s input

/-- Thread 101 enters its exit call with bit 32 of {lit}`rbx` set; its exiting
notification is installed without that bit. -/
theorem not_notifications_delivered :
    ¬∀ (inputs : List (Input .x86_64)) (s : System .x86_64),
      Run step smallStart inputs s → DeliversInOrder s := by
  intro hall
  have hexec : ∃ s, exec step smallStart
      [startsUp, firstStop 101, notifies 101 1 0, exitCall 101 0x100000001,
        exitCall 101 0x100000001] = .ok s ∧
      s.childStates 101 ≠ none ∧
        installedSince 101 s.log = [(.threadExiting, 1)] ∧
        queuedSince 101 s.log = [(.threadExiting, 0x100000001)] := by
    refine ⟨_, rfl, ?_⟩
    decide
  rcases hexec with ⟨s, hexec, hknown, hinstalled, hqueued⟩
  have hprefix := (hall _ s (run_iff_exec.mpr hexec) 101 hknown).1
  rw [hinstalled, hqueued] at hprefix
  exact absurd hprefix (by decide)

end System
end ParentProcess
end Roofline
