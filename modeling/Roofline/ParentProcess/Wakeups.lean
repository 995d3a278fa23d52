import Roofline.ParentProcess.StepCases

/-!
# Wake-ups are not lost

A thread that has pending notifications looks at its queue only when it stops.
This file follows the signals that make it stop: from the time a notification is queued
for a running thread to the trap that finds the notification.

Main results:

- Theorem {lit}`Reaction.awaited_other`: what a reaction does to the threads that are not
  stopped.
- Theorem {lit}`Reaction.awaited_self`: what it does to the thread that is.
- Theorem {lit}`wakeUps_kept`: over every run in which no wake-up is lost, every tracked
  thread with pending notifications processes one or will be trapped.
- Theorem {lit}`not_wakeUps_kept`: a wake-up that arrives before the startup notification
  is lost.
-/

namespace Roofline
namespace ParentProcess
namespace System

open Runs

variable {abi : Abi} {sys sys' : System abi} {stop : Stop abi}

/-- Once the notification system is ready, every tracked thread with pending
notifications processes one or has a signal in flight. -/
def WakeUpsKept (sys : System abi) : Prop :=
  sys.notificationSystemReady = true → ∀ pid, sys.childStates pid ≠ none →
    sys.queueOf pid ≠ [] →
      sys.childStates pid = some .processingNotification ∨ sys.sigtrapPending pid = true

/-! ## Lost wake-ups -/

/-- A wake-up reaches a thread before the notification system is ready. -/
def WakesUpEarly (sys : System abi) (stop : Stop abi) : Prop :=
  sys.notificationSystemReady = false ∧ stop.isTrap = true ∧ stop.cause = .wakeUp ∧
    sys.childStates stop.pid = some .stopping

/-- The main child has pending notifications and processes one when it starts up; no
other signal is in flight. -/
def StartsUpProcessing (sys : System abi) (stop : Stop abi) : Prop :=
  sys.notificationSystemReady = false ∧ stop.isTrap = true ∧ stop.pid = sys.mainChild ∧
    stop.regs.bind Regs.notification = some .startup ∧
    sys.childStates stop.pid = some .processingNotification ∧ sys.queueOf stop.pid ≠ [] ∧
    (stop.cause = .wakeUp ∨ sys.sigtrapPending stop.pid = false)

/-- A notification is queued for a thread that would have to be woken up and does not
exist. -/
def QueuesForDead (sys : System abi) (stop : Stop abi) : Prop :=
  ∃ receiver ∈ sys.queuesFor stop, receiver ≠ stop.pid ∧
    (sys.childStates receiver).getD .running = .running ∧ sys.alive receiver = false

/-- A tracked thread is killed while notifications wait for it to be trapped. -/
def KilledWaiting (sys : System abi) (stop : Stop abi) : Prop :=
  stop.status.wifsignaled = true ∧ sys.childStates stop.pid ≠ none ∧
    sys.childStates stop.pid ≠ some .processingNotification ∧ sys.queueOf stop.pid ≠ []

/-- The four ways to lose a wake-up. -/
def LosesWakeUp (sys : System abi) : Input abi → Prop
  | .created _ => False
  | .reported stop =>
      WakesUpEarly sys stop ∨ StartsUpProcessing sys stop ∨ QueuesForDead sys stop ∨
        KilledWaiting sys stop

/-- Whether a child is woken up early can be decided. -/
instance (sys : System abi) (stop : Stop abi) : Decidable (WakesUpEarly sys stop) :=
  inferInstanceAs (Decidable (_ ∧ _ ∧ _ ∧ _))

/-- Whether the startup is processed can be decided. -/
instance (sys : System abi) (stop : Stop abi) : Decidable (StartsUpProcessing sys stop) :=
  inferInstanceAs (Decidable (_ ∧ _ ∧ _ ∧ _ ∧ _ ∧ _ ∧ (_ ∨ _)))

/-- Whether a notification is for a dead child can be decided. -/
instance (sys : System abi) (stop : Stop abi) : Decidable (QueuesForDead sys stop) :=
  Option.decidableExistsMem (p := fun receiver => receiver ≠ stop.pid ∧
    (sys.childStates receiver).getD .running = .running ∧ sys.alive receiver = false)
    (sys.queuesFor stop)

/-- Whether a child is killed while it waits can be decided. -/
instance (sys : System abi) (stop : Stop abi) : Decidable (KilledWaiting sys stop) :=
  inferInstanceAs (Decidable (_ ∧ _ ∧ _ ∧ _))

/-- Whether a wake-up is lost can be decided. -/
instance (sys : System abi) : (input : Input abi) → Decidable (LosesWakeUp sys input)
  | .created _ => inferInstanceAs (Decidable False)
  | .reported _ => inferInstanceAs (Decidable (_ ∨ _ ∨ _ ∨ _))

/-! ## The invariant -/

/-- A stopping thread has pending notifications and a signal in flight.  A running
thread that has pending notifications has a signal in flight or can still be sent one
when the notification system becomes ready. -/
structure Awaited (sys : System abi) (pid : Pid) : Prop where
  stopping : sys.childStates pid = some .stopping →
    sys.queueOf pid ≠ [] ∧ sys.sigtrapPending pid = true
  runningReady : sys.childStates pid = some .running → sys.queueOf pid ≠ [] →
    sys.notificationSystemReady = true → sys.sigtrapPending pid = true
  runningEarly : sys.childStates pid = some .running → sys.queueOf pid ≠ [] →
    sys.notificationSystemReady = false → sys.alive pid = true

/-- If all wake-ups are awaited, they are kept. -/
theorem wakeUpsKept_of_awaited (h : ∀ pid, Awaited sys pid) : WakeUpsKept sys := by
  intro hready pid hknown hqueue
  cases hstate : sys.childStates pid with
  | none => exact absurd hstate hknown
  | some state =>
      cases state with
      | running => exact Or.inr ((h pid).runningReady hstate hqueue hready)
      | processingNotification => exact Or.inl rfl
      | stopping => exact Or.inr ((h pid).stopping hstate).2

/-- Nothing waits for a thread that is not tracked. -/
theorem awaited_of_unknown {pid : Pid} (hunknown : sys.childStates pid = none) :
    Awaited sys pid := by
  constructor <;> simp [hunknown]

/-- A thread that processes a notification looks at its queue afterwards. -/
theorem awaited_of_processing {pid : Pid}
    (hstate : sys.childStates pid = some .processingNotification) : Awaited sys pid := by
  constructor <;> simp [hstate]

/-- An update that touches nothing of the thread. -/
theorem Awaited.congr {pid : Pid} (h : Awaited sys pid)
    (hstates : sys'.childStates pid = sys.childStates pid)
    (hqueue : sys'.queueOf pid = sys.queueOf pid)
    (hready : sys'.notificationSystemReady = sys.notificationSystemReady)
    (halive : sys'.alive pid = sys.alive pid)
    (hpending : sys'.sigtrapPending pid = sys.sigtrapPending pid) : Awaited sys' pid := by
  constructor
  · rw [hstates, hqueue, hpending]
    exact h.stopping
  · rw [hstates, hqueue, hready, hpending]
    exact h.runningReady
  · rw [hstates, hqueue, hready, halive]
    exact h.runningEarly

/-! ## The other threads -/

/-- Waking a thread up sends a signal to it if it exists. -/
theorem wake_sigtrapPending (receiver pid : Pid) :
    (sys.wake receiver).sigtrapPending pid =
      if pid = receiver ∧ (sys.childStates receiver).getD .running = .running then
        sys.sigtrapPending pid || sys.alive pid
      else
        sys.sigtrapPending pid := by
  unfold wake
  split
  · rename_i hstate
    rw [if_neg (by simp [hstate])]
  · rename_i hstate
    rw [if_neg (by simp [hstate])]
  · rename_i hstate
    by_cases hpid : pid = receiver
    · simp [tgkill, hpid, hstate]
    · simp [tgkill, hpid]

/-- A thread that exists is woken up for the notification that is queued for it. -/
theorem Awaited.wake_push {pid receiver : Pid} (h : Awaited sys pid)
    (halive : (sys.childStates receiver).getD .running = .running →
      sys.alive receiver = true) (event : ChildNotification) (arg : Long abi) :
    Awaited ((sys.push receiver event arg).wake receiver) pid := by
  have hqueue : ((sys.push receiver event arg).wake receiver).queueOf pid =
      (sys.push receiver event arg).queueOf pid := by
    rw [queueOf, queueOf, wake_childNotificationQueue]
  by_cases hpid : pid = receiver
  · subst hpid
    by_cases hrunning : (sys.childStates pid).getD .running = .running
    · have hstate : ((sys.push pid event arg).wake pid).childStates pid = some .stopping := by
        rw [wake_childStates, if_pos ⟨rfl, hrunning⟩]
      have hpending : ((sys.push pid event arg).wake pid).sigtrapPending pid = true := by
        rw [wake_sigtrapPending, if_pos ⟨rfl, hrunning⟩]
        simp [push, halive hrunning]
      constructor
      · intro _
        refine ⟨?_, hpending⟩
        rw [hqueue, queueOf_push, if_pos rfl]
        simp
      · simp [hstate]
      · simp [hstate]
    · have hstate : ((sys.push pid event arg).wake pid).childStates pid =
          sys.childStates pid := by
        rw [wake_childStates, if_neg]
        · rfl
        · rintro ⟨_, hnot⟩
          exact hrunning hnot
      have hpending : ((sys.push pid event arg).wake pid).sigtrapPending pid =
          sys.sigtrapPending pid := by
        rw [wake_sigtrapPending, if_neg]
        · rfl
        · rintro ⟨_, hnot⟩
          exact hrunning hnot
      constructor
      · intro hstopping
        rw [hstate] at hstopping
        refine ⟨?_, ?_⟩
        · rw [hqueue, queueOf_push, if_pos rfl]
          simp
        · rw [hpending]
          exact (h.stopping hstopping).2
      · intro hnot
        simp [hstate ▸ hnot] at hrunning
      · intro hnot
        simp [hstate ▸ hnot] at hrunning
  · apply h.congr
    · rw [wake_childStates, if_neg (by simp [hpid])]
      rfl
    · rw [hqueue, queueOf_push, if_neg (Ne.symm hpid)]
    · rw [wake_notificationSystemReady]
      rfl
    · rw [wake_alive]
      rfl
    · rw [wake_sigtrapPending, if_neg (by simp [hpid])]
      rfl

/-- A thread that is not stopped is woken up for its notification. -/
theorem Awaited.queueNotification {pid stoppedChild receiver : Pid} (h : Awaited sys pid)
    (hpid : pid ≠ stoppedChild)
    (halive : receiver ≠ stoppedChild →
      (sys.childStates receiver).getD .running = .running → sys.alive receiver = true)
    (event : ChildNotification) (arg : Long abi) :
    Awaited (sys.queueNotification stoppedChild receiver event arg) pid := by
  unfold System.queueNotification
  by_cases hsame : stoppedChild = receiver
  · rw [if_pos hsame]
    refine h.congr rfl ?_ rfl rfl rfl
    rw [queueOf_push, if_neg]
    intro hreceiver
    exact hpid (hreceiver.symm.trans hsame.symm)
  · rw [if_neg hsame]
    exact h.wake_push (halive (Ne.symm hsame)) event arg

/-- A request keeps the wake-ups of other children awaited. -/
theorem Awaited.requested {pid : Pid} (h : Awaited sys pid) (hpid : pid ≠ stop.pid)
    (hdead : ¬QueuesForDead sys stop) (htrap : stop.isTrap = true)
    (hknown : sys.childStates stop.pid ≠ none) {regs : Regs abi}
    (hregs : stop.regs = some regs) (hip : regs.ip = sys.notifyAddress)
    (hrequest : regs.notification = some .queueProcessActions) :
    Awaited (sys.requested stop regs) pid := by
  have hrecord : Awaited (sys.record [.handled stop.pid (some .queueProcessActions)]) pid :=
    h.congr rfl rfl rfl rfl rfl
  apply hrecord.queueNotification hpid
  intro hne hrunning
  by_contra hnot
  apply hdead
  refine ⟨receiverOf regs, ?_, hne, hrunning, by simpa [record] using hnot⟩
  simp [queuesFor_of_isTrap hknown htrap, hregs, hip, hrequest]

/-- So does a notification of the parent. -/
theorem Awaited.notified {pid : Pid} (h : Awaited sys pid) (hpid : pid ≠ stop.pid)
    (hdead : ¬QueuesForDead sys stop) (htrap : stop.isTrap = true)
    (hknown : sys.childStates stop.pid ≠ none) {regs : Regs abi}
    (hregs : stop.regs = some regs) : Awaited (sys.notified stop regs) pid := by
  rcases notified_cases sys stop regs with ⟨_, heq⟩ | ⟨hip, hrequest, heq⟩ | ⟨_, _, heq⟩
  · rwa [heq]
  · rw [heq]
    exact h.requested hpid hdead htrap hknown hregs hip hrequest
  · rw [heq]
    exact h.congr rfl rfl rfl rfl rfl

/-- Diverting the stopped thread touches no other. -/
theorem Awaited.installed {pid : Pid} (h : Awaited sys pid) (hpid : pid ≠ stop.pid)
    (hinstalled : Installed sys stop sys') : Awaited sys' pid := by
  cases hinstalled with
  | intro =>
      apply h.congr
      · simp [divert, pop, hpid]
      · simp [divert, pop, queueOf, hpid]
      · rfl
      · rfl
      · rfl

/-- At startup the running threads that have pending notifications are woken up. -/
theorem Awaited.startup {pid : Pid} (h : Awaited sys pid) (hpid : pid ≠ sys.mainChild)
    (hready : sys.notificationSystemReady = false) (regs : Regs abi) :
    Awaited (sys.startup regs) pid := by
  have hqueue : (sys.startup regs).queueOf pid = sys.queueOf pid := rfl
  by_cases hneeds : sys.needsWakeUp pid = true
  · have hstate : (sys.startup regs).childStates pid = some .stopping := by
      simp [System.startup, hpid, hneeds]
    have hrunning : sys.childStates pid = some .running ∧ sys.queueOf pid ≠ [] := by
      simpa [needsWakeUp, hasPendingNotification] using hneeds
    have halive := h.runningEarly hrunning.1 hrunning.2 hready
    constructor
    · intro _
      rw [hqueue]
      refine ⟨hrunning.2, ?_⟩
      simp [System.startup, hneeds, halive]
    · simp [hstate]
    · simp [hstate]
  · have hstate : (sys.startup regs).childStates pid = sys.childStates pid := by
      simp [System.startup, hpid, hneeds]
    constructor
    · intro hstopping
      rw [hstate] at hstopping
      rw [hqueue]
      have hold := h.stopping hstopping
      refine ⟨hold.1, ?_⟩
      simp [System.startup, hold.2]
    · intro hrunning hnonempty _
      rw [hstate] at hrunning
      rw [hqueue] at hnonempty
      exact absurd (by simp [needsWakeUp, hasPendingNotification, hrunning, hnonempty]) hneeds
    · intro _ _ hnot
      simp [System.startup] at hnot

/-- A reaction keeps the invariant for every thread but the stopped one. -/
theorem Reaction.awaited_other (hreaction : Reaction sys stop sys') {pid : Pid}
    (h : Awaited sys pid) (hpid : pid ≠ stop.pid) (hdead : ¬QueuesForDead sys stop) :
    Awaited sys' pid := by
  have hpush : ∀ event arg, (sys.push stop.pid event arg).queueOf pid = sys.queueOf pid := by
    intro event arg
    rw [queueOf_push, if_neg (Ne.symm hpid)]
  cases hreaction with
  | gone => exact h
  | threadExited hexit hne hknown =>
      have hforget : Awaited (sys.forget stop.pid) pid := by
        refine h.congr ?_ ?_ rfl rfl rfl
        · simp [forget, hpid]
        · simp [forget, queueOf, hpid]
      apply hforget.queueNotification hpid
      intro hmain hrunning
      by_contra hnot
      apply hdead
      refine ⟨sys.mainChild, by simp [queuesFor_of_isExit hknown hexit], hmain, ?_,
        by simpa [forget] using hnot⟩
      simpa [forget, Ne.symm hne] using hrunning
  | terminated => exact h
  | newThread =>
      refine h.congr ?_ rfl rfl rfl rfl
      simp [divert, observe, hpid]
  | newThreadEarly =>
      refine h.congr ?_ (hpush .threadStarted 0) rfl rfl rfl
      simp [push, observe, hpid]
  | syscallEntered => exact h.congr rfl rfl rfl rfl rfl
  | exitIntercepted => exact h.congr rfl rfl rfl rfl rfl
  | syscallLeft => exact h.congr rfl rfl rfl rfl rfl
  | exitLeft _ _ _ _ hinstalled =>
      have hpushed : Awaited ((sys.setInSyscall stop.pid false).push stop.pid .threadExiting
          ((sys.childExitValue stop.pid).getD 0)) pid :=
        h.congr rfl (hpush _ _) rfl rfl rfl
      exact (hpushed.installed hpid hinstalled).congr rfl rfl rfl rfl rfl
  | ignored => exact h
  | started _ _ _ hmain _ hready => exact h.startup (hmain ▸ hpid) hready _
  | trapped htrap hstate hregs => exact h.notified hpid hdead htrap (known_of_state hstate) hregs
  | trappedDelivered htrap hstate hregs _ hinstalled =>
      have hnotified := h.notified hpid hdead htrap (known_of_state hstate) hregs
      exact hnotified.installed hpid hinstalled
  | processingNext _ _ _ _ _ hinstalled => exact h.installed hpid hinstalled
  | processingDone =>
      refine h.congr ?_ rfl rfl rfl rfl
      simp [restore, hpid]
  | processingRequested htrap hstate hregs hip hrequest =>
      exact h.requested hpid hdead htrap (by simp [hstate]) hregs hip hrequest
  | processingIgnored => exact h

/-! ## The stopped thread -/

/-- What is known of the stopped thread when the parent looks at its stop: a signal is
in flight where the invariant asks for one, or it is the one that is being handled. -/
structure AwaitedAtStop (sys : System abi) (stop : Stop abi) : Prop where
  alive : stop.isEnd = false → sys.alive stop.pid = true
  stopping : sys.childStates stop.pid = some .stopping → sys.queueOf stop.pid ≠ [] ∧
    (stop.isEnd = false → sys.sigtrapPending stop.pid = true ∨
      (stop.isTrap = true ∧ sys.notificationSystemReady = true))
  running : sys.childStates stop.pid = some .running → sys.queueOf stop.pid ≠ [] →
    sys.notificationSystemReady = true → stop.isEnd = false →
      sys.sigtrapPending stop.pid = true ∨ stop.isTrap = true
  startup : ¬(StartsUpProcessing sys stop ∧ sys.sigtrapPending stop.pid = false)
  killed : ¬KilledWaiting sys stop

/-- Stops that are no traps leave a thread that goes on waiting. -/
theorem AwaitedAtStop.awaited (h : AwaitedAtStop sys stop) (hend : stop.isEnd = false)
    (htrap : stop.isTrap = false) : Awaited sys stop.pid := by
  constructor
  · intro hstate
    rcases h.stopping hstate with ⟨hqueue, hpending⟩
    rcases hpending hend with hpending | ⟨hnot, _⟩
    · exact ⟨hqueue, hpending⟩
    · simp [htrap] at hnot
  · intro hstate hqueue hready
    rcases h.running hstate hqueue hready hend with hpending | hnot
    · exact hpending
    · simp [htrap] at hnot
  · intro _ _ _
    exact h.alive hend

/-- A thread that was killed had nothing to wait for. -/
theorem AwaitedAtStop.terminated (h : AwaitedAtStop sys stop)
    (hexited : stop.status.wifexited = false) (hstopped : stop.status.wifstopped = false) :
    Awaited sys stop.pid := by
  by_cases hsignaled : stop.status.wifsignaled = true
  · have hwaiting : sys.childStates stop.pid = none ∨
        sys.childStates stop.pid = some .processingNotification ∨
        sys.queueOf stop.pid = [] := by
      by_contra hnot
      push Not at hnot
      exact h.killed ⟨hsignaled, hnot⟩
    rcases hwaiting with hunknown | hstate | hempty
    · exact awaited_of_unknown hunknown
    · exact awaited_of_processing hstate
    · constructor
      · intro hstate
        exact absurd hempty (h.stopping hstate).1
      · intro _ hqueue
        exact absurd hempty hqueue
      · intro _ hqueue
        exact absurd hempty hqueue
  · apply h.awaited
    · simp [Stop.isEnd, Stop.isExitEvent, hexited, hstopped, hsignaled]
    · simp [Stop.isTrap, hstopped]

/-- The main child runs after its startup; what was in flight still is. -/
theorem AwaitedAtStop.started (h : AwaitedAtStop sys stop) (htrap : stop.isTrap = true)
    (hknown : sys.childStates stop.pid ≠ none) {regs : Regs abi}
    (hregs : stop.regs = some regs) (hmain : stop.pid = sys.mainChild)
    (hstartup : regs.notification = some .startup)
    (hready : sys.notificationSystemReady = false) : Awaited (sys.startup regs) stop.pid := by
  have hend := stop.not_isEnd_of_isTrap htrap
  have hstate : (sys.startup regs).childStates stop.pid = some .running := by
    simp [System.startup, hmain]
  constructor
  · simp [hstate]
  · intro _ hqueue _
    have hqueue' : sys.queueOf stop.pid ≠ [] := hqueue
    cases hold : sys.childStates stop.pid with
    | none => exact absurd hold hknown
    | some state =>
        cases state with
        | running =>
            have hneeds : sys.needsWakeUp stop.pid = true := by
              simp [needsWakeUp, hasPendingNotification, hold, hqueue']
            simp [System.startup, hneeds, h.alive hend]
        | stopping =>
            rcases (h.stopping hold).2 hend with hpending | ⟨_, hnot⟩
            · simp [System.startup, hpending]
            · simp [hready] at hnot
        | processingNotification =>
            have hpending : sys.sigtrapPending stop.pid = true := by
              by_contra hnot
              have hnone : sys.sigtrapPending stop.pid = false := by simpa using hnot
              exact h.startup ⟨⟨hready, htrap, hmain, by simp [hregs, hstartup], hold, hqueue',
                Or.inr hnone⟩, hnone⟩
            simp [System.startup, hpending]
  · intro _ _ hnot
    simp [System.startup] at hnot

/-- What looking at a trap does to the trapped thread: its queue may have grown. -/
theorem notified_self (sys : System abi) (stop : Stop abi) (regs : Regs abi) :
    (sys.notified stop regs).childStates stop.pid = sys.childStates stop.pid ∧
    (sys.queueOf stop.pid ≠ [] → (sys.notified stop regs).queueOf stop.pid ≠ []) ∧
    (sys.notified stop regs).notificationSystemReady = sys.notificationSystemReady ∧
    (sys.notified stop regs).alive = sys.alive ∧
    (sys.sigtrapPending stop.pid = true →
      (sys.notified stop regs).sigtrapPending stop.pid = true) := by
  rcases notified_cases sys stop regs with ⟨_, heq⟩ | ⟨_, _, heq⟩ | ⟨_, _, heq⟩
  · simp [heq]
  · rw [heq]
    refine ⟨?_, ?_, ?_, ?_, ?_⟩
    · rw [requested, queueNotification_childStates, if_neg]
      · rfl
      · rintro ⟨hsame, hne, _⟩
        exact hne hsame
    · intro hqueue
      rw [queueOf, requested, queueNotification_childNotificationQueue]
      have hpush := queueOf_push (sys.record [.handled stop.pid (some .queueProcessActions)])
        (receiverOf regs) stop.pid .processActions 0
      unfold queueOf at hpush
      rw [hpush]
      split_ifs
      · simp
      · exact hqueue
    · rw [requested, queueNotification_notificationSystemReady]
      rfl
    · rw [requested, queueNotification_alive]
      rfl
    · intro hpending
      unfold requested System.queueNotification
      split_ifs
      · exact hpending
      · rw [wake_sigtrapPending]
        split_ifs
        · simp [push, record, hpending]
        · exact hpending
  · rw [heq]
    exact ⟨rfl, id, rfl, rfl, id⟩

/-- A trap that delivers nothing found nothing, or the system is not ready. -/
theorem AwaitedAtStop.trapped (h : AwaitedAtStop sys stop) (htrap : stop.isTrap = true)
    {regs : Regs abi}
    (hnone : ((sys.notified stop regs).hasPendingNotification stop.pid &&
      (sys.notified stop regs).notificationSystemReady) = false) :
    Awaited (sys.notified stop regs) stop.pid := by
  have hend := stop.not_isEnd_of_isTrap htrap
  rcases notified_self sys stop regs with
    ⟨hstates, hqueue, hready, halive, hpending⟩
  have hempty : sys.notificationSystemReady = true →
      (sys.notified stop regs).queueOf stop.pid = [] := by
    intro hyes
    rw [hready, hyes] at hnone
    simpa [hasPendingNotification] using hnone
  constructor
  · intro hstate
    rw [hstates] at hstate
    rcases h.stopping hstate with ⟨hnonempty, hor⟩
    refine ⟨hqueue hnonempty, ?_⟩
    rcases hor hend with hyes | ⟨_, hyes⟩
    · exact hpending hyes
    · exact absurd (hempty hyes) (hqueue hnonempty)
  · intro _ hnonempty hyes
    rw [hready] at hyes
    exact absurd (hempty hyes) hnonempty
  · intro _ _ _
    rw [halive]
    exact h.alive hend

/-- A reaction restores the invariant for the stopped thread. -/
theorem Reaction.awaited_self (hreaction : Reaction sys stop sys')
    (h : AwaitedAtStop sys stop) : Awaited sys' stop.pid := by
  cases hreaction with
  | gone _ _ hunknown => exact awaited_of_unknown hunknown
  | threadExited _ hne =>
      apply awaited_of_unknown
      rw [handleChildThreadExited, queueNotification_childStates, if_neg (by simp [hne])]
      simp [forget]
  | terminated hexited hstopped => exact h.terminated hexited hstopped
  | newThread =>
      apply awaited_of_processing
      simp [divert]
  | newThreadEarly hstop hexited hstopped _ hready =>
      have hsignaled := stop.status.not_wifsignaled_of_wifstopped hstopped
      have hne : (SIGSTOP == SIGTRAP) = false := rfl
      have hend : stop.isEnd = false := by
        simp [Stop.isEnd, Stop.isExitEvent, hexited, hsignaled, hstop, hne]
      constructor
      · simp [push, observe]
      · intro _ _ hyes
        exact absurd (hready.symm.trans hyes) (by simp)
      · intro _ _ _
        exact h.alive hend
  | syscallEntered hsyscall =>
      exact (h.awaited (stop.not_isEnd_of_isSyscall hsyscall)
        (stop.not_isTrap_of_isSyscall hsyscall)).congr rfl rfl rfl rfl rfl
  | exitIntercepted hsyscall =>
      exact (h.awaited (stop.not_isEnd_of_isSyscall hsyscall)
        (stop.not_isTrap_of_isSyscall hsyscall)).congr rfl rfl rfl rfl rfl
  | syscallLeft hsyscall =>
      exact (h.awaited (stop.not_isEnd_of_isSyscall hsyscall)
        (stop.not_isTrap_of_isSyscall hsyscall)).congr rfl rfl rfl rfl rfl
  | exitLeft _ _ _ _ hinstalled => exact awaited_of_processing hinstalled.childStates_self
  | ignored hend _ _ htrap => exact h.awaited hend htrap
  | started htrap hknown hregs hmain hstartup hready =>
      exact h.started htrap hknown hregs hmain hstartup hready
  | trapped htrap _ _ hnone => exact h.trapped htrap hnone
  | trappedDelivered _ _ _ _ hinstalled => exact awaited_of_processing hinstalled.childStates_self
  | processingNext _ _ _ _ _ hinstalled => exact awaited_of_processing hinstalled.childStates_self
  | processingDone _ _ _ _ _ hempty =>
      have hqueue : (sys.restore stop.pid).queueOf stop.pid = [] := hempty
      constructor
      · simp [restore]
      · simp [hqueue]
      · simp [hqueue]
  | processingRequested htrap hstate hregs hip hrequest =>
      apply awaited_of_processing
      rw [requested, queueNotification_processing_iff]
      exact hstate
  | processingIgnored _ hstate => exact awaited_of_processing hstate

/-! ## Steps -/

/-- The report of a stop keeps the queues. -/
theorem queueOf_reportedByKernel (pid : Pid) :
    (sys.reportedByKernel stop).queueOf pid = sys.queueOf pid := by
  rw [queueOf, queueOf, reportedByKernel_toParent]

/-- A report says nothing about other threads. -/
theorem reportedByKernel_other (sys : System abi) {pid : Pid} (hpid : pid ≠ stop.pid) :
    (sys.reportedByKernel stop).alive pid = sys.alive pid ∧
      (sys.reportedByKernel stop).sigtrapPending pid = sys.sigtrapPending pid := by
  unfold reportedByKernel
  split_ifs <;> simp [hpid]

/-- A child that has stopped is alive. -/
theorem reportedByKernel_alive (hend : stop.isEnd = false) :
    (sys.reportedByKernel stop).alive stop.pid = true := by
  unfold reportedByKernel
  rw [if_neg (by simp [hend])]
  split_ifs <;> simp

/-- Only the end of a thread and the delivery of its wake-up take the signal away. -/
theorem reportedByKernel_sigtrapPending (hend : stop.isEnd = false)
    (hwakeUp : ¬(stop.isTrap = true ∧ stop.cause = .wakeUp)) :
    (sys.reportedByKernel stop).sigtrapPending stop.pid = sys.sigtrapPending stop.pid := by
  unfold reportedByKernel
  rw [if_neg (by simp [hend]), if_neg hwakeUp]

/-- The report of a stop keeps the wake-ups of other children awaited. -/
theorem Awaited.reportedByKernel {pid : Pid} (h : Awaited sys pid) (hpid : pid ≠ stop.pid) :
    Awaited (sys.reportedByKernel stop) pid := by
  rcases reportedByKernel_other sys hpid with ⟨halive, hpending⟩
  apply h.congr _ (queueOf_reportedByKernel pid) _ halive hpending
  · rw [reportedByKernel_toParent]
  · rw [reportedByKernel_toParent]

/-- The report of a stop by which no wake-up is lost. -/
theorem Awaited.atStop (h : Awaited sys stop.pid) (hkept : ¬LosesWakeUp sys (.reported stop)) :
    AwaitedAtStop (sys.reportedByKernel stop) stop := by
  unfold LosesWakeUp at hkept
  push Not at hkept
  rcases hkept with ⟨hearly, hprocessing, _, hkilled⟩
  constructor
  · exact reportedByKernel_alive
  · rw [reportedByKernel_toParent, queueOf_reportedByKernel]
    intro hstate
    refine ⟨(h.stopping hstate).1, ?_⟩
    intro hend
    by_cases hwakeUp : stop.isTrap = true ∧ stop.cause = .wakeUp
    · refine Or.inr ⟨hwakeUp.1, ?_⟩
      by_contra hready
      exact hearly ⟨by simpa using hready, hwakeUp.1, hwakeUp.2, hstate⟩
    · rw [reportedByKernel_sigtrapPending hend hwakeUp]
      exact Or.inl (h.stopping hstate).2
  · rw [reportedByKernel_toParent, queueOf_reportedByKernel]
    intro hstate hqueue hready hend
    by_cases hwakeUp : stop.isTrap = true ∧ stop.cause = .wakeUp
    · exact Or.inr hwakeUp.1
    · rw [reportedByKernel_sigtrapPending hend hwakeUp]
      exact Or.inl (h.runningReady hstate hqueue hready)
  · rintro ⟨⟨hready, htrap, hmain, hstartup, hstate, hqueue, _⟩, hnone⟩
    rw [reportedByKernel_toParent] at hready hmain hstate
    rw [queueOf_reportedByKernel] at hqueue
    apply hprocessing
    refine ⟨hready, htrap, hmain, hstartup, hstate, hqueue, ?_⟩
    by_cases hcause : stop.cause = .wakeUp
    · exact Or.inl hcause
    · rw [reportedByKernel_sigtrapPending (stop.not_isEnd_of_isTrap htrap)
        (by simp [hcause])] at hnone
      exact Or.inr hnone
  · rintro ⟨hsignaled, hknown, hstate, hqueue⟩
    rw [reportedByKernel_toParent] at hknown hstate
    rw [queueOf_reportedByKernel] at hqueue
    exact hkilled ⟨hsignaled, hknown, hstate, hqueue⟩

/-- A step that loses no wake-up keeps the invariant. -/
theorem awaited_step (h : ∀ pid, Awaited sys pid) {input : Input abi}
    (hkept : ¬LosesWakeUp sys input) (hstep : sys.step input = .ok sys') :
    ∀ pid, Awaited sys' pid := by
  intro pid
  rcases step_cases hstep with
    ⟨child, _, rfl⟩ | ⟨stop, reacted, effects, rfl, _, hreaction, rfl, _⟩
  · constructor
    · exact (h pid).stopping
    · exact (h pid).runningReady
    · intro hstate hqueue hready
      have halive := (h pid).runningEarly hstate hqueue hready
      by_cases hpid : pid = child
      · simp [hpid]
      · simpa [hpid] using halive
  · have hreacted : Awaited reacted pid := by
      by_cases hpid : pid = stop.pid
      · rw [hpid]
        exact hreaction.awaited_self ((h stop.pid).atStop hkept)
      · apply hreaction.awaited_other ((h pid).reportedByKernel hpid) hpid
        rintro ⟨receiver, hqueues, hne, hrunning, hdead⟩
        apply hkept
        refine Or.inr (Or.inr (Or.inl ⟨receiver, ?_, hne, ?_, ?_⟩))
        · simpa [queuesFor] using hqueues
        · simpa using hrunning
        · rwa [(reportedByKernel_other sys hne).1] at hdead
    exact hreacted.congr rfl rfl rfl rfl rfl

/-- No wake-up is due at the start. -/
theorem start_awaited (mainChild : Pid) (notifyAddress entry : Long abi) (pid : Pid) :
    Awaited (start mainChild notifyAddress entry) pid := by
  have hqueue : (start mainChild notifyAddress entry).queueOf pid = [] := rfl
  constructor
  · intro hstate
    by_cases hpid : pid = mainChild
    · simp [start, hpid] at hstate
    · simp [start, hpid] at hstate
  · simp [hqueue]
  · simp [hqueue]

/-- In every state of a run in which no wake-up is lost, once the notification system
is ready: every tracked thread with pending notifications is processing one or has a
signal in flight that will trap it. -/
theorem wakeUps_kept {mainChild : Pid} {notifyAddress entry : Long abi}
    {inputs : List (Input abi)}
    (hkept : StepsMeet step (start mainChild notifyAddress entry)
      (fun _ s input => ¬LosesWakeUp s input) inputs) :
    Visits step (start mainChild notifyAddress entry) inputs fun _ s => WakeUpsKept s := by
  have hawaited : Visits step (start mainChild notifyAddress entry) inputs
      fun _ s => ∀ pid, Awaited s pid := by
    refine Run.always (P := fun _ s => ∀ pid, Awaited s pid) (start_awaited _ _ _) ?_ hkept
    intro _ s input s' _ hs hinput hstep
    exact awaited_step hs hinput hstep
  intro before after s hsplit hrun
  exact wakeUpsKept_of_awaited (hawaited before after s hsplit hrun)

/-- Thread 101 is asked to process its actions, is woken up and processes them. -/
theorem wakeUps_kept_small :
    Visits step smallStart
      [startsUp, firstStop 101, notifies 101 1 0, notifies mainPid 2 101,
        wakesUp 101 0x3000 0 0, notifies 101 1 0] fun _ s => WakeUpsKept s := by
  apply wakeUps_kept
  apply stepsMeet_cons rfl (by decide)
  apply stepsMeet_cons rfl (by decide)
  apply stepsMeet_cons rfl (by decide)
  apply stepsMeet_cons rfl (by decide)
  apply stepsMeet_cons rfl (by decide)
  apply stepsMeet_cons rfl (by decide)
  exact stepsMeet_nil _

/-- The main child is woken up before it starts up: it looks at its queue, which holds
the exit of thread 101, never again. -/
theorem not_wakeUps_kept :
    ¬∀ (inputs : List (Input .x86_64)) (s : System .x86_64),
      Run step smallStart inputs s → WakeUpsKept s := by
  intro hall
  have hexec : ∃ s, exec step smallStart
      [firstStop 101, exitEvent 101, wakesUp mainPid 0x3000 9 0, startsUp] = .ok s ∧
      s.notificationSystemReady = true ∧ s.childStates mainPid = some .running ∧
        s.queueOf mainPid = [(.threadExited, 101)] ∧ s.sigtrapPending mainPid = false := by
    refine ⟨_, rfl, ?_⟩
    decide
  rcases hexec with ⟨s, hexec, hready, hstate, hqueue, hpending⟩
  have hkept := hall _ s (run_iff_exec.mpr hexec) hready mainPid
  rw [hstate, hqueue, hpending] at hkept
  simp at hkept

end System
end ParentProcess
end Roofline
