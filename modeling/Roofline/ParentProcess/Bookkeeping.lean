import Roofline.ParentProcess.StepCases
import Roofline.Library.Logs

/-!
# The life of a thread and what the parent knows of it

What the threads do can be told from the stops alone: a thread is observed when it first
stops, it enters and leaves its first exit call, and it ends.  This file keeps these
lives beside the maps of the parent and compares the two, also for threads that get the
id of an earlier thread.

Main results:

- Theorem {lit}`Reaction.calmAt_other`: a reaction changes the books of no thread but the
  stopped one.
- Theorem {lit}`Reaction.followsLife`: it changes the books of the stopped thread as its
  life changes, and does what the change asks for.
- Theorem {lit}`booksKept_iff`: over every run, the books agree with the lives exactly when
  the parent loses track of nothing.
- Theorem {lit}`not_booksKept`: the exit call of a thread that has the id of an earlier
  thread is not intercepted.
-/

namespace Roofline
namespace ParentProcess

/-! ## Lives -/

/-- How far a thread has come with its first exit call. -/
inductive ExitStage where
  | notYet
  | entered
  | left
deriving DecidableEq, Repr

/-- What the stops of a thread say about it. -/
structure Life where
  observed : Bool
  inSyscall : Bool
  exit : ExitStage
deriving DecidableEq, Repr

/-- A thread that was not observed, or has ended. -/
def Life.unobserved : Life := ⟨false, false, .notYet⟩

/-- A thread that was just observed. -/
def Life.fresh : Life := ⟨true, false, .notYet⟩

/-- What the parent has to do when a life changes. -/
inductive LifeEvent (abi : Abi) where
  | observed (pid : Pid)
  /-- The first exit call is intercepted. -/
  | intercepted (pid : Pid)
  /-- The exiting notification is queued. -/
  | exiting (receiver : Pid)
  /-- The notification of an exit is queued. -/
  | exited (receiver : Pid) (arg : Long abi)
deriving DecidableEq, Repr

variable {abi : Abi}

/-- The thread is at the entry or exit of an exit call. -/
def Stop.callsExit (stop : Stop abi) : Bool :=
  stop.regs.any fun regs => regs.origAx == abi.sysExit

/-- The life of a thread after a stop. -/
def Life.after (life : Life) (stop : Stop abi) : Life :=
  if stop.isEnd then
    .unobserved
  else if stop.status.wifstopped = false then
    life
  else if life.observed = false then
    .fresh
  else if stop.isSyscall = false then
    life
  else if life.inSyscall then
    { life with inSyscall := false, exit := if life.exit = .entered then .left else life.exit }
  else
    { life with
      inSyscall := true
      exit := if life.exit = .notYet ∧ stop.callsExit = true then .entered else life.exit }

/-- What the parent has to do at a stop. -/
def Life.events (life : Life) (mainChild : Pid) (stop : Stop abi) : List (LifeEvent abi) :=
  if stop.isEnd then
    if life.observed ∧ stop.pid ≠ mainChild then
      [.exited mainChild (stop.pid.toLong abi)]
    else
      []
  else if stop.status.wifstopped = false then
    []
  else if life.observed = false then
    [.observed stop.pid]
  else if stop.isSyscall = false then
    []
  else if life.inSyscall then
    if life.exit = .entered then [.exiting stop.pid] else []
  else if life.exit = .notYet ∧ stop.callsExit = true then
    [.intercepted stop.pid]
  else
    []

/-- The lives of all threads and what had to be done for them. -/
structure History (abi : Abi) where
  lives : Pid → Life
  events : List (LifeEvent abi)

/-- The history after one more input. -/
def History.next (mainChild : Pid) (history : History abi) : Input abi → History abi
  | .created _ => history
  | .reported stop =>
      { lives := Function.update history.lives stop.pid ((history.lives stop.pid).after stop)
        events := history.events ++ (history.lives stop.pid).events mainChild stop }

/-- The history of a run that starts with the main child. -/
def history (mainChild : Pid) (inputs : List (Input abi)) : History abi :=
  inputs.foldl (History.next mainChild)
    { lives := Function.update (fun _ => .unobserved) mainChild .fresh, events := [] }

/-- The life of each thread after one more input. -/
theorem history_append_singleton (mainChild : Pid) (inputs : List (Input abi))
    (input : Input abi) :
    history mainChild (inputs ++ [input]) = (history mainChild inputs).next mainChild input := by
  simp [history]

/-! ## What the parent did -/

/-- What an effect does for the life of a thread. -/
def Effect.lifeEvent : Effect abi → Option (LifeEvent abi)
  | .observed pid => some (.observed pid)
  | .replaced pid _ => some (.intercepted pid)
  | .queued receiver .threadExiting _ => some (.exiting receiver)
  | .queued receiver .threadExited arg => some (.exited receiver arg)
  | _ => none

/-- The notifications a thread was diverted to since it became known. -/
def divertedAfter (pid : Pid) (diverted : List ChildNotification) :
    Effect abi → List ChildNotification
  | .diverted child event .. => if child = pid then diverted ++ [event] else diverted
  | .forgotten child => if child = pid then [] else diverted
  | _ => diverted

/-- The effect neither diverts nor forgets the thread. -/
def Effect.leaves (pid : Pid) : Effect abi → Bool
  | .diverted child .. => child != pid
  | .forgotten child => child != pid
  | _ => true

namespace System

open Runs Logs

variable {sys mid sys' : System abi} {stop : Stop abi}

/-- The notifications of a thread since it became known: those delivered and those that
are pending. -/
def notificationsOf (sys : System abi) (pid : Pid) : List ChildNotification :=
  sys.log.foldl (divertedAfter pid) [] ++ (sys.queueOf pid).map Prod.fst

/-- What the parent did for the lives of the threads. -/
def lifeEvents (sys : System abi) : List (LifeEvent abi) :=
  sys.log.filterMap Effect.lifeEvent

/-- The books of the parent agree with the lives of the threads: the tracked threads are
those observed and not ended, the first notification of every new thread is that it
started, and the parent observed, intercepted and announced what it had to. -/
structure BooksKept (mainChild : Pid) (inputs : List (Input abi)) (sys : System abi) :
    Prop where
  tracked : ∀ pid, sys.childStates pid ≠ none ↔
    ((history mainChild inputs).lives pid).observed = true
  startedFirst : ∀ pid ≠ mainChild, ((history mainChild inputs).lives pid).observed = true →
    [.threadStarted] <+: sys.notificationsOf pid
  events : sys.lifeEvents = (history mainChild inputs).events

/-! ## Where the books go wrong -/

/-- A notification is queued for a thread that is not tracked. -/
def QueuesForUntracked (sys : System abi) (stop : Stop abi) : Prop :=
  ∃ receiver ∈ sys.queuesFor stop, sys.childStates receiver = none

/-- A thread enters its first exit call, or leaves a call before it, and the parent still
has an entry for the exit of an earlier thread with this id. -/
def MeetsLeftoverExit (life : Life) (sys : System abi) (stop : Stop abi) : Prop :=
  stop.isSyscall = true ∧ life.observed = true ∧ life.exit = .notYet ∧
    ((life.inSyscall = false ∧ stop.callsExit = true ∧ sys.childExiting stop.pid ≠ none) ∨
      (life.inSyscall = true ∧ sys.childExiting stop.pid = some 2))

/-- A tracked thread is terminated by a signal and does not stop at its exit. -/
def KilledTracked (sys : System abi) (stop : Stop abi) : Prop :=
  stop.status.wifsignaled = true ∧ sys.childStates stop.pid ≠ none

/-- The three ways in which the books go wrong. -/
def LosesTrack (mainChild : Pid) (before : List (Input abi)) (sys : System abi) :
    Input abi → Prop
  | .created _ => False
  | .reported stop =>
      QueuesForUntracked sys stop ∨
        MeetsLeftoverExit ((history mainChild before).lives stop.pid) sys stop ∨
        KilledTracked sys stop

/-! ## The books of one thread -/

/-- What the parent knows of a thread with this life. -/
structure ThreadBooks (mainChild : Pid) (life : Life) (sys : System abi) (pid : Pid) :
    Prop where
  tracked : sys.childStates pid ≠ none ↔ life.observed = true
  inSyscall : life.observed = true → (sys.childInSyscall pid).getD false = life.inSyscall
  entered : life.exit = .entered → sys.childExiting pid = some 2
  left : life.exit = .left → sys.childExiting pid = some 1
  idle : life.observed = false → sys.notificationsOf pid = []
  startedFirst : pid ≠ mainChild → life.observed = true →
    [.threadStarted] <+: sys.notificationsOf pid

/-- An update that leaves the books of a thread alone; it may get notifications if it
is tracked. -/
structure CalmAt (sys sys' : System abi) (pid : Pid) : Prop where
  tracked : sys'.childStates pid = none ↔ sys.childStates pid = none
  inSyscall : sys'.childInSyscall pid = sys.childInSyscall pid
  exiting : sys'.childExiting pid = sys.childExiting pid
  notifications : sys.notificationsOf pid <+: sys'.notificationsOf pid
  idle : sys.childStates pid = none → sys'.notificationsOf pid = sys.notificationsOf pid

/-- Nothing changes if nothing is done. -/
theorem CalmAt.refl (sys : System abi) (pid : Pid) : CalmAt sys sys pid :=
  ⟨Iff.rfl, rfl, rfl, List.prefix_rfl, fun _ => rfl⟩

/-- Two changes that leave a thread alone. -/
theorem CalmAt.trans {pid : Pid} (h : CalmAt sys mid pid) (h' : CalmAt mid sys' pid) :
    CalmAt sys sys' pid := by
  constructor
  case tracked =>
    rw [h'.tracked, h.tracked]
  case inSyscall =>
    rw [h'.inSyscall, h.inSyscall]
  case exiting =>
    rw [h'.exiting, h.exiting]
  case notifications =>
    exact h.notifications.trans h'.notifications
  case idle =>
    intro hunknown
    rw [h'.idle (h.tracked.mpr hunknown), h.idle hunknown]

/-- A thread that is unknown has not been observed. -/
theorem ThreadBooks.not_observed {mainChild pid : Pid} {life : Life}
    (h : ThreadBooks mainChild life sys pid) (hunknown : sys.childStates pid = none) :
    life.observed = false := by
  by_contra hobserved
  exact h.tracked.mpr (by simpa using hobserved) hunknown

/-- What leaves a thread alone keeps its books. -/
theorem ThreadBooks.calm {mainChild pid : Pid} {life : Life}
    (h : ThreadBooks mainChild life sys pid) (hcalm : CalmAt sys sys' pid) :
    ThreadBooks mainChild life sys' pid := by
  constructor
  case tracked =>
    rw [ne_eq, hcalm.tracked]
    exact h.tracked
  case inSyscall =>
    rw [hcalm.inSyscall]
    exact h.inSyscall
  case entered =>
    rw [hcalm.exiting]
    exact h.entered
  case left =>
    rw [hcalm.exiting]
    exact h.left
  case idle =>
    intro hlife
    have hunknown : sys.childStates pid = none := by
      by_contra hknown
      simp [h.tracked.mp hknown] at hlife
    rw [hcalm.idle hunknown, h.idle hlife]
  case startedFirst =>
    intro hpid hlife
    exact (h.startedFirst hpid hlife).trans hcalm.notifications

/-! ## Notifications -/

/-- Effects that leave a thread alone divert it to nothing. -/
theorem diverted_append_of_leaves {pid : Pid} {log effects : List (Effect abi)}
    (hleaves : ∀ effect ∈ effects, effect.leaves pid = true) :
    (log ++ effects).foldl (divertedAfter pid) [] = log.foldl (divertedAfter pid) [] := by
  apply summary_append_of_fixed
  intro effect heffect diverted
  have h := hleaves effect heffect
  cases effect <;> simp_all [Effect.leaves, divertedAfter]

/-- Nor do they change what it is notified of. -/
theorem notificationsOf_of_leaves {pid : Pid} {effects : List (Effect abi)}
    (hlog : sys'.log = sys.log ++ effects)
    (hleaves : ∀ effect ∈ effects, effect.leaves pid = true)
    (hqueue : sys'.queueOf pid = sys.queueOf pid) :
    sys'.notificationsOf pid = sys.notificationsOf pid := by
  rw [notificationsOf, notificationsOf, hlog, diverted_append_of_leaves hleaves, hqueue]

/-- A notification that is queued is one for its receiver. -/
theorem notificationsOf_push (sys : System abi) (receiver pid : Pid)
    (event : ChildNotification) (arg : Long abi) :
    (sys.push receiver event arg).notificationsOf pid =
      if receiver = pid then sys.notificationsOf pid ++ [event] else sys.notificationsOf pid := by
  have hlog : (sys.push receiver event arg).log.foldl (divertedAfter pid) [] =
      sys.log.foldl (divertedAfter pid) [] :=
    diverted_append_of_leaves (by simp [Effect.leaves])
  rw [notificationsOf, hlog, queueOf_push, notificationsOf]
  split_ifs <;> simp

/-- Queueing a notification adds it for its receiver. -/
theorem notificationsOf_queueNotification (sys : System abi) (stoppedChild receiver pid : Pid)
    (event : ChildNotification) (arg : Long abi) :
    (sys.queueNotification stoppedChild receiver event arg).notificationsOf pid =
      (sys.push receiver event arg).notificationsOf pid := by
  unfold notificationsOf queueOf
  rw [queueNotification_log, queueNotification_childNotificationQueue]

/-- A diversion tells the thread the notification that comes first. -/
theorem notificationsOf_divert (sys : System abi) (stop : Stop abi) (event : ChildNotification)
    (arg : Long abi) (saved : Regs abi) (pid : Pid) :
    (sys.divert stop event arg saved).notificationsOf pid =
      sys.log.foldl (divertedAfter pid) [] ++ (if stop.pid = pid then [event] else []) ++
        (sys.queueOf pid).map Prod.fst := by
  have hqueue : (sys.divert stop event arg saved).queueOf pid = sys.queueOf pid := rfl
  have hlog : (sys.divert stop event arg saved).log.foldl (divertedAfter pid) [] =
      sys.log.foldl (divertedAfter pid) [] ++ (if stop.pid = pid then [event] else []) := by
    simp only [divert, List.foldl_append, List.foldl_cons, List.foldl_nil, divertedAfter]
    split_ifs <;> simp
  rw [notificationsOf, hlog, hqueue]

/-- Installing a notification delivers one that was pending. -/
theorem Installed.notificationsOf (h : Installed sys stop sys') (pid : Pid) :
    sys'.notificationsOf pid = sys.notificationsOf pid := by
  cases h with
  | @intro event arg rest saved hqueue hsaved =>
      have hlog : (sys.pop stop.pid event arg rest).log.foldl (divertedAfter pid) [] =
          sys.log.foldl (divertedAfter pid) [] :=
        diverted_append_of_leaves (by simp [Effect.leaves])
      rw [notificationsOf_divert, hlog, System.notificationsOf]
      by_cases hpid : stop.pid = pid
      · rw [if_pos hpid, ← hpid, hqueue]
        simp [pop, queueOf]
      · rw [if_neg hpid]
        simp [pop, queueOf, Ne.symm hpid]

/-! ## Calm updates -/

/-- What leaves a thread alone in the log leaves it alone. -/
theorem calmAt_of_leaves {pid : Pid} {effects : List (Effect abi)}
    (hlog : sys'.log = sys.log ++ effects)
    (hleaves : ∀ effect ∈ effects, effect.leaves pid = true)
    (hqueue : sys'.queueOf pid = sys.queueOf pid)
    (hstates : sys'.childStates pid = none ↔ sys.childStates pid = none)
    (hinSyscall : sys'.childInSyscall pid = sys.childInSyscall pid)
    (hexiting : sys'.childExiting pid = sys.childExiting pid) : CalmAt sys sys' pid := by
  have hnotifications := notificationsOf_of_leaves hlog hleaves hqueue
  exact ⟨hstates, hinSyscall, hexiting, by rw [hnotifications], fun _ => hnotifications⟩

/-- Recording effects leaves the other threads alone. -/
theorem calmAt_record {pid : Pid} {effects : List (Effect abi)}
    (hleaves : ∀ effect ∈ effects, effect.leaves pid = true) :
    CalmAt sys (sys.record effects) pid :=
  calmAt_of_leaves rfl hleaves rfl Iff.rfl rfl rfl

/-- Queueing a notification for a tracked thread. -/
theorem calmAt_queueNotification {stoppedChild receiver : Pid}
    (hreceiver : sys.childStates receiver ≠ none) (event : ChildNotification) (arg : Long abi)
    (pid : Pid) : CalmAt sys (sys.queueNotification stoppedChild receiver event arg) pid := by
  constructor
  case tracked =>
    rw [queueNotification_childStates]
    split_ifs with hwoken
    · simp [hwoken.1, hreceiver]
    · rfl
  case inSyscall =>
    rw [queueNotification_childInSyscall]
  case exiting =>
    rw [queueNotification_childExiting]
  case notifications =>
    rw [notificationsOf_queueNotification, notificationsOf_push]
    split_ifs
    · exact List.prefix_append _ _
    · exact List.prefix_rfl
  case idle =>
    intro hunknown
    rw [notificationsOf_queueNotification, notificationsOf_push, if_neg]
    intro hpid
    exact hreceiver (hpid ▸ hunknown)

/-- So does a request whose receiver is tracked. -/
theorem calmAt_requested {regs : Regs abi} (htrap : stop.isTrap = true)
    (hknown : sys.childStates stop.pid ≠ none)
    (hregs : stop.regs = some regs) (hip : regs.ip = sys.notifyAddress)
    (hrequest : regs.notification = some .queueProcessActions)
    (htracked : ¬QueuesForUntracked sys stop) (pid : Pid) :
    CalmAt sys (sys.requested stop regs) pid := by
  have hrecord : CalmAt sys (sys.record [.handled stop.pid (some .queueProcessActions)]) pid :=
    calmAt_record (by simp [Effect.leaves])
  apply hrecord.trans
  apply calmAt_queueNotification
  intro hunknown
  apply htracked
  exact ⟨receiverOf regs, by simp [queuesFor_of_isTrap hknown htrap, hregs, hip, hrequest], hunknown⟩

/-- So does a notification of the parent. -/
theorem calmAt_notified {regs : Regs abi} (htrap : stop.isTrap = true)
    (hknown : sys.childStates stop.pid ≠ none) (hregs : stop.regs = some regs)
    (htracked : ¬QueuesForUntracked sys stop) (pid : Pid) :
    CalmAt sys (sys.notified stop regs) pid := by
  rcases notified_cases sys stop regs with ⟨_, heq⟩ | ⟨hip, hrequest, heq⟩ | ⟨_, _, heq⟩
  · rw [heq]
    exact CalmAt.refl sys pid
  · rw [heq]
    exact calmAt_requested htrap hknown hregs hip hrequest htracked pid
  · rw [heq]
    exact calmAt_record (by simp [Effect.leaves])

/-- Delivering a notification to a tracked thread. -/
theorem Installed.calmAt (h : Installed sys stop sys')
    (hknown : sys.childStates stop.pid ≠ none) (pid : Pid) : CalmAt sys sys' pid := by
  have hnotifications := h.notificationsOf pid
  cases h with
  | intro =>
      refine ⟨?_, rfl, rfl, by rw [hnotifications], fun _ => hnotifications⟩
      by_cases hpid : pid = stop.pid
      · simp [divert, pop, hpid, hknown]
      · simp [divert, pop, hpid]

/-- So does restoring registers. -/
theorem calmAt_restore (hknown : sys.childStates stop.pid ≠ none) (pid : Pid) :
    CalmAt sys (sys.restore stop.pid) pid := by
  refine calmAt_of_leaves rfl (by simp [Effect.leaves]) rfl ?_ rfl rfl
  by_cases hpid : pid = stop.pid
  · simp [restore, hpid, hknown]
  · simp [restore, hpid]

/-- So does the first notification of the child. -/
theorem calmAt_startup (hmain : sys.childStates sys.mainChild ≠ none) (regs : Regs abi)
    (pid : Pid) : CalmAt sys (sys.startup regs) pid := by
  refine calmAt_of_leaves rfl (by simp [Effect.leaves]) rfl ?_ rfl rfl
  by_cases hpid : pid = sys.mainChild
  · simp [startup, hpid, hmain]
  · by_cases hneeds : sys.needsWakeUp pid = true
    · have hrunning : sys.childStates pid = some .running := by
        simp only [needsWakeUp, Bool.and_eq_true, beq_iff_eq] at hneeds
        exact hneeds.1
      simp [startup, hpid, hneeds, hrunning]
    · simp [startup, hpid, hneeds]

/-- A reaction changes the books of the stopped thread only. -/
theorem Reaction.calmAt_other (h : Reaction sys stop sys') {pid : Pid} (hpid : pid ≠ stop.pid)
    (hmain : sys.childStates sys.mainChild ≠ none) (htracked : ¬QueuesForUntracked sys stop) :
    CalmAt sys sys' pid := by
  have hne : (stop.pid != pid) = true := by simpa using Ne.symm hpid
  cases h with
  | gone => exact CalmAt.refl sys pid
  | threadExited _ hnotMain =>
      have hforget : CalmAt sys (sys.forget stop.pid) pid := by
        refine calmAt_of_leaves rfl (by simp [Effect.leaves, hne]) ?_ ?_ rfl rfl
        · simp [forget, queueOf, hpid]
        · simp [forget, hpid]
      apply hforget.trans
      apply calmAt_queueNotification
      simpa [forget, Ne.symm hnotMain] using hmain
  | terminated => exact CalmAt.refl sys pid
  | newThread =>
      refine calmAt_of_leaves (List.append_assoc _ _ _) ?_ rfl ?_ ?_ rfl
      · simp [Effect.leaves, hne]
      · simp [divert, observe, hpid]
      · simp [divert, observe, hpid]
  | newThreadEarly =>
      refine calmAt_of_leaves (List.append_assoc _ _ _) ?_ ?_ ?_ ?_ rfl
      · simp [Effect.leaves]
      · rw [queueOf_push, if_neg (Ne.symm hpid)]
        rfl
      · simp [push, observe, hpid]
      · simp [push, observe, hpid]
  | syscallEntered =>
      refine calmAt_of_leaves (List.append_nil _).symm (by simp) rfl Iff.rfl ?_ rfl
      simp [setInSyscall, hpid]
  | exitIntercepted =>
      refine calmAt_of_leaves rfl (by simp [Effect.leaves]) rfl Iff.rfl ?_ ?_
      · simp [interceptExit, setInSyscall, hpid]
      · simp [interceptExit, setInSyscall, hpid]
  | syscallLeft =>
      refine calmAt_of_leaves (List.append_nil _).symm (by simp) rfl Iff.rfl ?_ rfl
      simp [setInSyscall, hpid]
  | exitLeft _ hknown _ _ hinstalled =>
      have hpush : CalmAt sys ((sys.setInSyscall stop.pid false).push stop.pid .threadExiting
          ((sys.childExitValue stop.pid).getD 0)) pid := by
        refine calmAt_of_leaves rfl (by simp [Effect.leaves]) ?_ Iff.rfl ?_ rfl
        · rw [queueOf_push, if_neg (Ne.symm hpid)]
          rfl
        · simp [push, setInSyscall, hpid]
      apply (hpush.trans (hinstalled.calmAt hknown pid)).trans
      refine calmAt_of_leaves (List.append_nil _).symm (by simp) rfl Iff.rfl rfl ?_
      simp [setExitingHandled, hpid]
  | ignored => exact CalmAt.refl sys pid
  | started => exact calmAt_startup hmain _ pid
  | trapped htrap hstate hregs =>
      exact calmAt_notified htrap (known_of_state hstate) hregs htracked pid
  | trappedDelivered htrap hstate hregs _ hinstalled =>
      have hknown := known_of_state hstate
      have hnotified := calmAt_notified htrap hknown hregs htracked
      apply (hnotified pid).trans
      apply hinstalled.calmAt
      rwa [ne_eq, (hnotified stop.pid).tracked]
  | processingNext _ hstate _ _ _ hinstalled => exact hinstalled.calmAt (by simp [hstate]) pid
  | processingDone _ hstate => exact calmAt_restore (by simp [hstate]) pid
  | processingRequested htrap hstate hregs hip hrequest =>
      exact calmAt_requested htrap (by simp [hstate]) hregs hip hrequest htracked pid
  | processingIgnored => exact CalmAt.refl sys pid

/-! ## The stopped thread -/

/-- The events of life in a log with more effects. -/
theorem lifeEvents_append {effects : List (Effect abi)} (hlog : sys'.log = sys.log ++ effects) :
    sys'.lifeEvents = sys.lifeEvents ++ effects.filterMap Effect.lifeEvent := by
  rw [lifeEvents, lifeEvents, hlog, List.filterMap_append]

/-- Effects that do nothing for a life. -/
theorem lifeEvents_of_none {effects : List (Effect abi)} (hlog : sys'.log = sys.log ++ effects)
    (hnone : effects.filterMap Effect.lifeEvent = []) : sys'.lifeEvents = sys.lifeEvents := by
  rw [lifeEvents_append hlog, hnone, List.append_nil]

/-- Resuming a thread is no event of its life. -/
theorem lifeEvents_record {pid : Pid} {effects : List (Effect abi)}
    (heffects : ∀ effect ∈ effects, ∃ sendSig, effect = .resumed pid sendSig) :
    (sys.record effects).lifeEvents = sys.lifeEvents := by
  apply lifeEvents_of_none rfl
  rw [List.filterMap_eq_nil_iff]
  intro effect heffect
  rcases heffects effect heffect with ⟨sendSig, rfl⟩
  rfl

/-- Installing a notification is no event of life. -/
theorem Installed.lifeEvents (h : Installed sys stop sys') : sys'.lifeEvents = sys.lifeEvents := by
  cases h with
  | intro => exact lifeEvents_of_none (List.append_assoc _ _ _) rfl

/-- Nor is a request. -/
theorem lifeEvents_requested (regs : Regs abi) :
    (sys.requested stop regs).lifeEvents = sys.lifeEvents := by
  have hlog : (sys.requested stop regs).log = sys.log ++
      [.handled stop.pid (some .queueProcessActions),
        .queued (receiverOf regs) .processActions 0] := by
    rw [requested, queueNotification_log]
    simp [push, record]
  exact lifeEvents_of_none hlog rfl

/-- Nor is a notification of the parent. -/
theorem lifeEvents_notified (regs : Regs abi) :
    (sys.notified stop regs).lifeEvents = sys.lifeEvents := by
  rcases notified_cases sys stop regs with ⟨_, heq⟩ | ⟨_, _, heq⟩ | ⟨_, _, heq⟩
  · rw [heq]
  · rw [heq]
    exact lifeEvents_requested regs
  · rw [heq]
    exact lifeEvents_of_none rfl rfl

/-- The books of the stopped thread follow its life, and the parent did what it had to. -/
structure FollowsLife (mainChild : Pid) (life : Life) (sys : System abi) (stop : Stop abi)
    (sys' : System abi) : Prop where
  books : ThreadBooks mainChild (life.after stop) sys' stop.pid
  events : sys'.lifeEvents = sys.lifeEvents ++ life.events mainChild stop
  main : stop.pid = mainChild → life.observed = true → (life.after stop).observed = true

variable {mainChild : Pid} {life : Life}

/-- A reaction to a stop that changes no life. -/
theorem ThreadBooks.followsLife (h : ThreadBooks mainChild life sys stop.pid)
    (hlife : life.after stop = life ∧ life.events mainChild stop = [])
    (hcalm : CalmAt sys sys' stop.pid) (hevents : sys'.lifeEvents = sys.lifeEvents) :
    FollowsLife mainChild life sys stop sys' := by
  constructor
  case books =>
    rw [hlife.1]
    exact h.calm hcalm
  case events =>
    rw [hlife.2, List.append_nil, hevents]
  case main =>
    intro _ hobserved
    rw [hlife.1, hobserved]

/-- Stops of an observed thread that are neither its end nor a system call. -/
theorem life_unchanged (hend : stop.isEnd = false) (hobserved : life.observed = true)
    (hsyscall : stop.isSyscall = false) :
    life.after stop = life ∧ life.events mainChild stop = [] := by
  simp [Life.after, Life.events, hend, hobserved, hsyscall]

/-- A trap does not change the life of an observed thread. -/
theorem life_unchanged_of_isTrap (htrap : stop.isTrap = true) (hobserved : life.observed = true) :
    life.after stop = life ∧ life.events mainChild stop = [] :=
  life_unchanged (stop.not_isEnd_of_isTrap htrap) hobserved (stopped_of_isTrap htrap).2.2

/-- An exit that is reported follows the life of the thread. -/
theorem ThreadBooks.threadExited (h : ThreadBooks mainChild life sys stop.pid)
    (hexit : stop.isExit = true) (hmain : sys.mainChild = mainChild) (hne : stop.pid ≠ mainChild)
    (hknown : sys.childStates stop.pid ≠ none) :
    FollowsLife mainChild life sys stop (sys.handleChildThreadExited stop.pid) := by
  have hend := stop.isEnd_of_isExit hexit
  have hobserved := h.tracked.mp hknown
  have hstate : (sys.handleChildThreadExited stop.pid).childStates stop.pid = none := by
    rw [handleChildThreadExited, queueNotification_childStates, if_neg]
    · simp [forget]
    · rintro ⟨hsame, _⟩
      exact hne (hsame.trans hmain)
  have hnotifications : (sys.handleChildThreadExited stop.pid).notificationsOf stop.pid = [] := by
    rw [handleChildThreadExited, notificationsOf_queueNotification, notificationsOf_push, if_neg]
    · simp [notificationsOf, forget, queueOf, divertedAfter]
    · intro hsame
      exact hne (hsame.symm.trans hmain)
  constructor
  case books =>
    constructor <;> simp [Life.after, hend, Life.unobserved, hstate, hnotifications]
  case events =>
    have hlog : (sys.handleChildThreadExited stop.pid).log = sys.log ++
        [.forgotten stop.pid, .queued mainChild .threadExited (stop.pid.toLong abi)] := by
      rw [handleChildThreadExited, queueNotification_log, ← hmain]
      simp [push, forget]
    have hevents : life.events mainChild stop = [.exited mainChild (stop.pid.toLong abi)] := by
      simp [Life.events, hend, hobserved, hne]
    rw [lifeEvents_append hlog, hevents]
    rfl
  case main =>
    intro hsame
    exact absurd hsame hne

/-- A thread that is observed has not been notified of anything. -/
theorem ThreadBooks.observe_notifications (h : ThreadBooks mainChild life sys stop.pid)
    (hunknown : sys.childStates stop.pid = none) :
    (sys.observe stop.pid).notificationsOf stop.pid = [] := by
  have hsame : (sys.observe stop.pid).notificationsOf stop.pid =
      sys.notificationsOf stop.pid :=
    notificationsOf_of_leaves rfl (by simp [Effect.leaves]) rfl
  rw [hsame, h.idle (h.not_observed hunknown)]

/-- A thread that is not tracked is observed. -/
theorem ThreadBooks.newThread (h : ThreadBooks mainChild life sys stop.pid)
    (hend : stop.isEnd = false) (hstopped : stop.status.wifstopped = true)
    (hunknown : sys.childStates stop.pid = none) {effects : List (Effect abi)}
    (hlog : sys'.log = sys.log ++ .observed stop.pid :: effects)
    (heffects : effects.filterMap Effect.lifeEvent = [])
    (hstate : sys'.childStates stop.pid ≠ none)
    (hinSyscall : sys'.childInSyscall stop.pid = some false)
    (hnotifications : sys'.notificationsOf stop.pid = [.threadStarted]) :
    FollowsLife mainChild life sys stop sys' := by
  have hobserved := h.not_observed hunknown
  have hafter : life.after stop = .fresh := by
    simp [Life.after, hend, hstopped, hobserved]
  constructor
  case books =>
    rw [hafter]
    constructor <;> simp [Life.fresh, hstate, hinSyscall, hnotifications]
  case events =>
    rw [lifeEvents_append hlog, List.filterMap_cons, heffects]
    simp [Life.events, hend, hstopped, hobserved, Effect.lifeEvent]
  case main =>
    simp [hobserved]

/-- Entering and leaving a system call keeps the books. -/
theorem ThreadBooks.setInSyscall {pid : Pid} (h : ThreadBooks mainChild life sys pid)
    (inSyscall : Bool) :
    ThreadBooks mainChild { life with inSyscall := inSyscall } (sys.setInSyscall pid inSyscall)
      pid := by
  refine ⟨h.tracked, ?_, h.entered, h.left, h.idle, h.startedFirst⟩
  intro _
  simp [System.setInSyscall]

/-- Intercepting an exit keeps the books of the thread. -/
theorem ThreadBooks.interceptExit {pid : Pid} (h : ThreadBooks mainChild life sys pid)
    (regs : Regs abi) :
    ThreadBooks mainChild { life with exit := .entered } (sys.interceptExit pid regs) pid := by
  have hnotifications : (sys.interceptExit pid regs).notificationsOf pid =
      sys.notificationsOf pid :=
    notificationsOf_of_leaves rfl (by simp [Effect.leaves]) rfl
  refine ⟨h.tracked, h.inSyscall, ?_, by simp, ?_, ?_⟩
  · intro _
    simp [System.interceptExit]
  · rw [hnotifications]
    exact h.idle
  · rw [hnotifications]
    exact h.startedFirst

/-- So does leaving the intercepted call. -/
theorem ThreadBooks.setExitingHandled {pid : Pid} (h : ThreadBooks mainChild life sys pid) :
    ThreadBooks mainChild { life with exit := .left } (sys.setExitingHandled pid) pid := by
  refine ⟨h.tracked, h.inSyscall, by simp, ?_, h.idle, h.startedFirst⟩
  intro _
  simp [System.setExitingHandled]

/-- The life of an observed thread that enters a system call. -/
theorem life_entering (mainChild : Pid) (hsyscall : stop.isSyscall = true)
    (hobserved : life.observed = true) (hin : life.inSyscall = false) :
    life.after stop = { life with
      inSyscall := true
      exit := if life.exit = .notYet ∧ stop.callsExit = true then .entered else life.exit } ∧
    life.events mainChild stop =
      if life.exit = .notYet ∧ stop.callsExit = true then [.intercepted stop.pid] else [] := by
  have hend := stop.not_isEnd_of_isSyscall hsyscall
  have hstopped := (stopped_of_isSyscall hsyscall).1
  simp [Life.after, Life.events, hend, hstopped, hobserved, hsyscall, hin]

/-- The life of an observed thread that leaves a system call. -/
theorem life_leaving (mainChild : Pid) (hsyscall : stop.isSyscall = true)
    (hobserved : life.observed = true) (hin : life.inSyscall = true) :
    life.after stop = { life with
      inSyscall := false
      exit := if life.exit = .entered then .left else life.exit } ∧
    life.events mainChild stop =
      if life.exit = .entered then [.exiting stop.pid] else [] := by
  have hend := stop.not_isEnd_of_isSyscall hsyscall
  have hstopped := (stopped_of_isSyscall hsyscall).1
  simp [Life.after, Life.events, hend, hstopped, hobserved, hsyscall, hin]

/-- The thread calls exit exactly if its register has that number. -/
theorem callsExit_iff {regs : Regs abi} (hregs : stop.regs = some regs) :
    stop.callsExit = true ↔ regs.origAx = abi.sysExit := by
  simp [Stop.callsExit, hregs]

/-- A call that is not intercepted is not the first exit call. -/
theorem ThreadBooks.syscallEntered (h : ThreadBooks mainChild life sys stop.pid)
    (hleftover : ¬MeetsLeftoverExit life sys stop) (hsyscall : stop.isSyscall = true)
    (hknown : sys.childStates stop.pid ≠ none) {regs : Regs abi}
    (hregs : stop.regs = some regs) (hin : (sys.childInSyscall stop.pid).getD false = false)
    (hother : ¬(regs.origAx = abi.sysExit ∧ sys.childExiting stop.pid = none)) :
    FollowsLife mainChild life sys stop (sys.setInSyscall stop.pid true) := by
  have hobserved := h.tracked.mp hknown
  have hlifeIn : life.inSyscall = false := (h.inSyscall hobserved).symm.trans hin
  have hnotFirst : ¬(life.exit = .notYet ∧ stop.callsExit = true) := by
    rintro ⟨hexit, hcalls⟩
    apply hleftover
    refine ⟨hsyscall, hobserved, hexit, Or.inl ⟨hlifeIn, hcalls, ?_⟩⟩
    intro hnone
    exact hother ⟨(callsExit_iff hregs).mp hcalls, hnone⟩
  rcases life_entering mainChild hsyscall hobserved hlifeIn with ⟨hafter, hevents⟩
  rw [if_neg hnotFirst] at hafter hevents
  constructor
  case books =>
    rw [hafter]
    exact h.setInSyscall true
  case events =>
    rw [hevents, List.append_nil]
    rfl
  case main =>
    intro _ _
    rw [hafter]
    exact hobserved

/-- The call that is intercepted is the first exit call. -/
theorem ThreadBooks.exitIntercepted (h : ThreadBooks mainChild life sys stop.pid)
    (hsyscall : stop.isSyscall = true) (hknown : sys.childStates stop.pid ≠ none)
    {regs : Regs abi} (hregs : stop.regs = some regs)
    (hin : (sys.childInSyscall stop.pid).getD false = false)
    (hexit : regs.origAx = abi.sysExit) (hexiting : sys.childExiting stop.pid = none) :
    FollowsLife mainChild life sys stop
      ((sys.setInSyscall stop.pid true).interceptExit stop.pid regs) := by
  have hobserved := h.tracked.mp hknown
  have hlifeIn : life.inSyscall = false := (h.inSyscall hobserved).symm.trans hin
  have hfirst : life.exit = .notYet ∧ stop.callsExit = true := by
    refine ⟨?_, (callsExit_iff hregs).mpr hexit⟩
    cases hstage : life.exit with
    | notYet => rfl
    | entered => simp [h.entered hstage] at hexiting
    | left => simp [h.left hstage] at hexiting
  rcases life_entering mainChild hsyscall hobserved hlifeIn with ⟨hafter, hevents⟩
  rw [if_pos hfirst] at hafter hevents
  constructor
  case books =>
    rw [hafter]
    exact (h.setInSyscall true).interceptExit regs
  case events =>
    have hlog : ((sys.setInSyscall stop.pid true).interceptExit stop.pid regs).log =
        sys.log ++ [.replaced stop.pid { regs with origAx := abi.sysGetpid }] := rfl
    rw [hevents, lifeEvents_append hlog]
    rfl
  case main =>
    intro _ _
    rw [hafter]
    exact hobserved

/-- Leaving a system call follows the life of the thread. -/
theorem ThreadBooks.syscallLeft (h : ThreadBooks mainChild life sys stop.pid)
    (hsyscall : stop.isSyscall = true) (hknown : sys.childStates stop.pid ≠ none)
    (hin : (sys.childInSyscall stop.pid).getD false = true)
    (hexiting : sys.childExiting stop.pid ≠ some 2) :
    FollowsLife mainChild life sys stop (sys.setInSyscall stop.pid false) := by
  have hobserved := h.tracked.mp hknown
  have hlifeIn : life.inSyscall = true := (h.inSyscall hobserved).symm.trans hin
  have hstage : life.exit ≠ .entered := fun hentered => hexiting (h.entered hentered)
  rcases life_leaving mainChild hsyscall hobserved hlifeIn with ⟨hafter, hevents⟩
  rw [if_neg hstage] at hafter hevents
  constructor
  case books =>
    rw [hafter]
    exact h.setInSyscall false
  case events =>
    rw [hevents, List.append_nil]
    rfl
  case main =>
    intro _ _
    rw [hafter]
    exact hobserved

/-- The thread that is told to exit has left its first exit call. -/
theorem ThreadBooks.exitLeft (h : ThreadBooks mainChild life sys stop.pid)
    (hleftover : ¬MeetsLeftoverExit life sys stop) (hsyscall : stop.isSyscall = true)
    (hknown : sys.childStates stop.pid ≠ none)
    (hin : (sys.childInSyscall stop.pid).getD false = true)
    (hexiting : sys.childExiting stop.pid = some 2) {left : System abi}
    (hinstalled : Installed ((sys.setInSyscall stop.pid false).push stop.pid .threadExiting
      ((sys.childExitValue stop.pid).getD 0)) stop left) :
    FollowsLife mainChild life sys stop (left.setExitingHandled stop.pid) := by
  have hobserved := h.tracked.mp hknown
  have hlifeIn : life.inSyscall = true := (h.inSyscall hobserved).symm.trans hin
  have hstage : life.exit = .entered := by
    cases hstage : life.exit with
    | notYet => exact absurd ⟨hsyscall, hobserved, hstage, Or.inr ⟨hlifeIn, hexiting⟩⟩ hleftover
    | entered => rfl
    | left => simp [h.left hstage] at hexiting
  rcases life_leaving mainChild hsyscall hobserved hlifeIn with ⟨hafter, hevents⟩
  rw [if_pos hstage] at hafter hevents
  have hpush : CalmAt (sys.setInSyscall stop.pid false)
      ((sys.setInSyscall stop.pid false).push stop.pid .threadExiting
        ((sys.childExitValue stop.pid).getD 0)) stop.pid := by
    refine ⟨Iff.rfl, rfl, rfl, ?_, ?_⟩
    · rw [notificationsOf_push, if_pos rfl]
      exact List.prefix_append _ _
    · intro hunknown
      exact absurd hunknown hknown
  constructor
  case books =>
    rw [hafter]
    have hleft := (h.setInSyscall false).calm (hpush.trans (hinstalled.calmAt hknown stop.pid))
    exact hleft.setExitingHandled
  case events =>
    have hlog : ((sys.setInSyscall stop.pid false).push stop.pid .threadExiting
        ((sys.childExitValue stop.pid).getD 0)).log =
          sys.log ++ [.queued stop.pid .threadExiting ((sys.childExitValue stop.pid).getD 0)] :=
      rfl
    have hsame : (left.setExitingHandled stop.pid).lifeEvents = left.lifeEvents := rfl
    rw [hevents, hsame, hinstalled.lifeEvents, lifeEvents_append hlog]
    rfl
  case main =>
    intro _ _
    rw [hafter]
    exact hobserved

/-- The end of a thread that is not known changes nothing. -/
theorem ThreadBooks.endUnknown (h : ThreadBooks mainChild life sys stop.pid)
    (hunknown : sys.childStates stop.pid = none) (hend : stop.isEnd = true) :
    FollowsLife mainChild life sys stop sys := by
  have hobserved := h.not_observed hunknown
  have hidle := h.idle hobserved
  refine ⟨?_, ?_, ?_⟩
  · constructor <;> simp [Life.after, hend, Life.unobserved, hunknown, hidle]
  · simp [Life.events, hend, hobserved]
  · simp [hobserved]

/-- A thread that was terminated without an exit was not tracked. -/
theorem ThreadBooks.terminated (h : ThreadBooks mainChild life sys stop.pid)
    (hkilled : ¬KilledTracked sys stop) (hexited : stop.status.wifexited = false)
    (hstopped : stop.status.wifstopped = false) :
    FollowsLife mainChild life sys stop sys := by
  by_cases hsignaled : stop.status.wifsignaled = true
  · have hunknown : sys.childStates stop.pid = none := by
      by_contra hknown
      exact hkilled ⟨hsignaled, hknown⟩
    exact h.endUnknown hunknown (by simp [Stop.isEnd, hsignaled])
  · have hend : stop.isEnd = false := by
      simp [Stop.isEnd, Stop.isExitEvent, hexited, hstopped, hsignaled]
    apply h.followsLife _ (CalmAt.refl sys stop.pid) rfl
    simp [Life.after, Life.events, hend, hstopped]

/-- Every reaction follows the life of the stopped thread. -/
theorem Reaction.followsLife (hreaction : Reaction sys stop sys')
    (h : ThreadBooks mainChild life sys stop.pid) (hmain : sys.mainChild = mainChild)
    (hmainKnown : sys.childStates sys.mainChild ≠ none)
    (htracked : ¬QueuesForUntracked sys stop) (hleftover : ¬MeetsLeftoverExit life sys stop)
    (hkilled : ¬KilledTracked sys stop) : FollowsLife mainChild life sys stop sys' := by
  have hsigstop : stop.status.stopSig = SIGSTOP → stop.status.wifexited = false →
      stop.status.wifstopped = true → stop.isEnd = false := by
    intro hstop hexited hstopped
    have hsignaled := stop.status.not_wifsignaled_of_wifstopped hstopped
    have hne : (SIGSTOP == SIGTRAP) = false := rfl
    simp [Stop.isEnd, Stop.isExitEvent, hexited, hsignaled, hstop, hne]
  cases hreaction with
  | gone hexited _ hunknown => exact h.endUnknown hunknown (by simp [Stop.isEnd, hexited])
  | threadExited hexit hne hknown => exact h.threadExited hexit hmain (hmain ▸ hne) hknown
  | terminated hexited hstopped => exact h.terminated hkilled hexited hstopped
  | newThread hstop hexited hstopped hunknown =>
      apply h.newThread (hsigstop hstop hexited hstopped) hstopped hunknown
        (List.append_assoc _ _ _) rfl
      · simp [divert]
      · simp [divert, observe]
      · have hobserve := h.observe_notifications hunknown
        rw [notificationsOf, List.append_eq_nil_iff] at hobserve
        rw [notificationsOf_divert, hobserve.1, hobserve.2, if_pos rfl]
        rfl
  | newThreadEarly hstop hexited hstopped hunknown =>
      apply h.newThread (hsigstop hstop hexited hstopped) hstopped hunknown
        (List.append_assoc _ _ _) rfl
      · simp [push, observe]
      · simp [push, observe]
      · rw [notificationsOf_push, if_pos rfl, h.observe_notifications hunknown]
        rfl
  | syscallEntered hsyscall hknown hregs hin hother =>
      exact h.syscallEntered hleftover hsyscall hknown hregs hin hother
  | exitIntercepted hsyscall hknown hregs hin hexit hexiting =>
      exact h.exitIntercepted hsyscall hknown hregs hin hexit hexiting
  | syscallLeft hsyscall hknown hin hexiting => exact h.syscallLeft hsyscall hknown hin hexiting
  | exitLeft hsyscall hknown hin hexiting hinstalled =>
      exact h.exitLeft hleftover hsyscall hknown hin hexiting hinstalled
  | ignored hend _ hknown _ hsyscall =>
      exact h.followsLife (life_unchanged hend (h.tracked.mp hknown) hsyscall)
        (CalmAt.refl sys stop.pid) rfl
  | started htrap hknown =>
      exact h.followsLife (life_unchanged_of_isTrap htrap (h.tracked.mp hknown))
        (calmAt_startup hmainKnown _ stop.pid) (lifeEvents_of_none rfl rfl)
  | trapped htrap hstate hregs =>
      have hknown := known_of_state hstate
      exact h.followsLife (life_unchanged_of_isTrap htrap (h.tracked.mp hknown))
        (calmAt_notified htrap hknown hregs htracked stop.pid) (lifeEvents_notified _)
  | trappedDelivered htrap hstate hregs _ hinstalled =>
      have hknown := known_of_state hstate
      have hcalm := calmAt_notified htrap hknown hregs htracked stop.pid
      have hknown' := mt hcalm.tracked.mp hknown
      apply h.followsLife (life_unchanged_of_isTrap htrap (h.tracked.mp hknown))
      · exact hcalm.trans (hinstalled.calmAt hknown' stop.pid)
      · rw [hinstalled.lifeEvents, lifeEvents_notified]
  | processingNext htrap hstate _ _ _ hinstalled =>
      have hknown : sys.childStates stop.pid ≠ none := by simp [hstate]
      exact h.followsLife (life_unchanged_of_isTrap htrap (h.tracked.mp hknown))
        (hinstalled.calmAt hknown stop.pid) hinstalled.lifeEvents
  | processingDone htrap hstate =>
      have hknown : sys.childStates stop.pid ≠ none := by simp [hstate]
      exact h.followsLife (life_unchanged_of_isTrap htrap (h.tracked.mp hknown))
        (calmAt_restore hknown stop.pid) (lifeEvents_of_none rfl rfl)
  | processingRequested htrap hstate hregs hip hrequest =>
      have hknown : sys.childStates stop.pid ≠ none := by simp [hstate]
      exact h.followsLife (life_unchanged_of_isTrap htrap (h.tracked.mp hknown))
        (calmAt_requested htrap hknown hregs hip hrequest htracked stop.pid) (lifeEvents_requested _)
  | processingIgnored htrap hstate =>
      have hknown : sys.childStates stop.pid ≠ none := by simp [hstate]
      exact h.followsLife (life_unchanged_of_isTrap htrap (h.tracked.mp hknown))
        (CalmAt.refl sys stop.pid) rfl

/-! ## Runs -/

/-- The books of all threads agree with a history. -/
structure Books (mainChild : Pid) (history : History abi) (sys : System abi) : Prop where
  main : sys.mainChild = mainChild
  mainObserved : (history.lives mainChild).observed = true
  threads : ∀ pid, ThreadBooks mainChild (history.lives pid) sys pid
  events : sys.lifeEvents = history.events

/-- No reaction changes which thread is the main child. -/
theorem Reaction.mainChild_eq (h : Reaction sys stop sys') : sys'.mainChild = sys.mainChild := by
  have hinstalled : ∀ {mid left : System abi}, Installed mid stop left →
      left.mainChild = mid.mainChild := by
    intro mid left hinstalled
    cases hinstalled
    rfl
  have hrequested : ∀ regs, (sys.requested stop regs).mainChild = sys.mainChild := by
    intro regs
    rw [requested, queueNotification_mainChild]
    rfl
  have hnotified : ∀ regs, (sys.notified stop regs).mainChild = sys.mainChild := by
    intro regs
    rcases notified_cases sys stop regs with ⟨_, heq⟩ | ⟨_, _, heq⟩ | ⟨_, _, heq⟩
    · rw [heq]
    · rw [heq, hrequested]
    · rw [heq]
      rfl
  cases h with
  | threadExited => rw [handleChildThreadExited, queueNotification_mainChild]; rfl
  | @exitLeft left _ _ _ _ hleft =>
      change left.mainChild = sys.mainChild
      rw [hinstalled hleft]
      rfl
  | trapped => exact hnotified _
  | trappedDelivered _ _ _ _ hdelivered => rw [hinstalled hdelivered, hnotified]
  | processingNext _ _ _ _ _ hdelivered => exact hinstalled hdelivered
  | processingRequested => exact hrequested _
  | _ => rfl

/-- A step that loses track of nothing keeps the books. -/
theorem Books.step {before : List (Input abi)} (h : Books mainChild (history mainChild before) sys)
    {input : Input abi} (hkept : ¬LosesTrack mainChild before sys input)
    (hstep : sys.step input = .ok sys') :
    Books mainChild (history mainChild (before ++ [input])) sys' := by
  rw [history_append_singleton]
  have hmainKnown : sys.childStates sys.mainChild ≠ none := by
    rw [h.main]
    exact (h.threads mainChild).tracked.mpr h.mainObserved
  rcases step_cases hstep with
    ⟨pid, rfl, rfl⟩ | ⟨stop, reacted, effects, rfl, _, hreaction, rfl, heffects⟩
  · refine ⟨h.main, h.mainObserved, ?_, h.events⟩
    intro child
    exact (h.threads child).calm
      (calmAt_of_leaves (List.append_nil _).symm (by simp) rfl Iff.rfl rfl rfl)
  · unfold LosesTrack at hkept
    push Not at hkept
    rcases hkept with ⟨htracked, hleftover, hkilled⟩
    have hkernel : ∀ pid, CalmAt sys (sys.reportedByKernel stop) pid := by
      intro pid
      apply calmAt_of_leaves (by rw [reportedByKernel_log, List.append_nil]) (by simp)
      · rw [queueOf, queueOf, reportedByKernel_toParent]
      · rw [reportedByKernel_toParent]
      · rw [reportedByKernel_toParent]
      · rw [reportedByKernel_toParent]
    have hresumed : ∀ pid, CalmAt reacted (reacted.record effects) pid := by
      intro pid
      apply calmAt_record
      intro effect heffect
      rcases heffects effect heffect with ⟨sendSig, rfl⟩
      rfl
    have hresumedEvents : (reacted.record effects).lifeEvents = reacted.lifeEvents :=
      lifeEvents_record heffects
    have hfollows : FollowsLife mainChild ((history mainChild before).lives stop.pid)
        (sys.reportedByKernel stop) stop reacted := by
      apply hreaction.followsLife ((h.threads stop.pid).calm (hkernel stop.pid))
      · rw [reportedByKernel_toParent, h.main]
      · rw [reportedByKernel_toParent]
        exact hmainKnown
      · simpa [QueuesForUntracked, queuesFor] using htracked
      · simpa [MeetsLeftoverExit] using hleftover
      · simpa [KilledTracked] using hkilled
    refine ⟨?_, ?_, ?_, ?_⟩
    · change reacted.mainChild = mainChild
      rw [hreaction.mainChild_eq, reportedByKernel_toParent, h.main]
    · by_cases hmain : stop.pid = mainChild
      · have hobserved := hfollows.main hmain (hmain ▸ h.mainObserved)
        simpa [History.next, hmain] using hobserved
      · simpa [History.next, Ne.symm hmain] using h.mainObserved
    · intro pid
      by_cases hpid : pid = stop.pid
      · rw [hpid]
        simpa [History.next] using hfollows.books.calm (hresumed stop.pid)
      · have hother : CalmAt (sys.reportedByKernel stop) reacted pid := by
          apply hreaction.calmAt_other hpid
          · rw [reportedByKernel_toParent]
            exact hmainKnown
          · simpa [QueuesForUntracked, queuesFor] using htracked
        have hcalm := ((hkernel pid).trans hother).trans (hresumed pid)
        simpa [History.next, hpid] using (h.threads pid).calm hcalm
    · rw [hresumedEvents, hfollows.events]
      have hsame : (sys.reportedByKernel stop).lifeEvents = sys.lifeEvents := by
        rw [lifeEvents, lifeEvents, reportedByKernel_log]
      rw [hsame, h.events]
      rfl

/-- The books are right at the start. -/
theorem start_books (mainChild : Pid) (notifyAddress entry : Long abi) :
    Books mainChild (history mainChild []) (start mainChild notifyAddress entry) := by
  have hnotifications : ∀ pid,
      (start mainChild notifyAddress entry).notificationsOf pid = [] := by
    intro pid
    rfl
  refine ⟨rfl, by simp [history, Life.fresh], ?_, rfl⟩
  intro pid
  by_cases hpid : pid = mainChild
  · have hlife : (history mainChild ([] : List (Input abi))).lives pid = .fresh := by
      simp [history, hpid]
    rw [hlife]
    constructor <;> simp [Life.fresh, hpid, start]
  · have hlife : (history mainChild ([] : List (Input abi))).lives pid = .unobserved := by
      simp [history, hpid]
    have hunknown : (start mainChild notifyAddress entry).childStates pid = none := by
      simp [start, hpid]
    rw [hlife]
    constructor <;> simp [Life.unobserved, hunknown, hnotifications]

/-! ## Losing track -/

/-- The receiver of a notification of another thread is tracked. -/
theorem queueNotification_tracked {stoppedChild receiver : Pid} (hne : stoppedChild ≠ receiver)
    (event : ChildNotification) (arg : Long abi) :
    (sys.queueNotification stoppedChild receiver event arg).childStates receiver ≠ none := by
  rw [queueNotification_childStates]
  split_ifs with hwoken
  · simp
  · intro hunknown
    exact hwoken ⟨rfl, hne, by simp [hunknown]⟩

/-- A thread that is tracked stays so. -/
theorem Installed.tracked (h : Installed sys stop sys') {pid : Pid}
    (hknown : sys.childStates pid ≠ none) : sys'.childStates pid ≠ none := by
  cases h with
  | intro =>
      by_cases hpid : pid = stop.pid
      · simp [divert, hpid]
      · simpa [divert, pop, hpid] using hknown

/-- No notification is queued for other stops. -/
theorem queuesFor_of_not {receiver : Pid} (hexit : stop.isExit = false)
    (htrap : stop.isTrap = false) : receiver ∉ sys.queuesFor stop := by
  simp [queuesFor, hexit, htrap]

/-- A trap that makes the parent queue a notification is a request. -/
theorem request_of_queuesFor {receiver : Pid} (hknown : sys.childStates stop.pid ≠ none)
    (htrap : stop.isTrap = true) {regs : Regs abi} (hregs : stop.regs = some regs)
    (hreceiver : receiver ∈ sys.queuesFor stop) :
    regs.ip = sys.notifyAddress ∧ regs.notification = some .queueProcessActions ∧
      receiver = receiverOf regs := by
  rw [queuesFor_of_isTrap hknown htrap, hregs] at hreceiver
  simp only [Option.filter_some, Option.mem_def, Option.map_eq_some_iff] at hreceiver
  rcases hreceiver with ⟨regs', hfilter, rfl⟩
  split_ifs at hfilter with hrequest
  obtain rfl := Option.some.inj hfilter
  simp only [Bool.and_eq_true, beq_iff_eq] at hrequest
  exact ⟨hrequest.1, hrequest.2, rfl⟩

/-- The receiver of a request is tracked afterwards. -/
theorem notified_tracked {regs : Regs abi} (hip : regs.ip = sys.notifyAddress)
    (hrequest : regs.notification = some .queueProcessActions)
    (hne : stop.pid ≠ receiverOf regs) :
    (sys.notified stop regs).childStates (receiverOf regs) ≠ none := by
  have heq : sys.notified stop regs = sys.requested stop regs := by
    rw [notified, if_pos hip, handleNotification_request hrequest]
  rw [heq]
  exact queueNotification_tracked hne _ _

/-- Another thread for which a notification is queued is tracked afterwards. -/
theorem Reaction.queuesFor_tracked (h : Reaction sys stop sys') {receiver : Pid}
    (hreceiver : receiver ∈ sys.queuesFor stop) (hne : stop.pid ≠ receiver) :
    sys'.childStates receiver ≠ none := by
  have hsyscall : stop.isSyscall = true → receiver ∉ sys.queuesFor stop := by
    intro hsyscall
    apply queuesFor_of_not _ (stop.not_isTrap_of_isSyscall hsyscall)
    by_contra hexit
    have hend := stop.isEnd_of_isExit (by simpa using hexit)
    simp [stop.not_isEnd_of_isSyscall hsyscall] at hend
  cases h with
  | gone _ _ hunknown => simp [queuesFor, hunknown] at hreceiver
  | threadExited hexit hmain hknown =>
      rw [queuesFor_of_isExit hknown hexit] at hreceiver
      obtain rfl := Option.some.inj hreceiver
      exact queueNotification_tracked hmain _ _
  | terminated hexited hstopped =>
      simp [queuesFor, Stop.isExit, Stop.isExitEvent, Stop.isTrap, hexited, hstopped] at hreceiver
  | newThread _ _ _ hunknown => simp [queuesFor, hunknown] at hreceiver
  | newThreadEarly _ _ _ hunknown => simp [queuesFor, hunknown] at hreceiver
  | syscallEntered h => exact absurd hreceiver (hsyscall h)
  | exitIntercepted h => exact absurd hreceiver (hsyscall h)
  | syscallLeft h => exact absurd hreceiver (hsyscall h)
  | exitLeft h => exact absurd hreceiver (hsyscall h)
  | ignored hend _ _ htrap =>
      have hexit : stop.isExit = false := by
        by_contra hexit
        simp [stop.isEnd_of_isExit (by simpa using hexit)] at hend
      exact absurd hreceiver (queuesFor_of_not hexit htrap)
  | started htrap hknown hregs _ hstartup =>
      have hrequest := (request_of_queuesFor hknown htrap hregs hreceiver).2.1
      simp [hstartup] at hrequest
  | trapped htrap hstate hregs =>
      rcases request_of_queuesFor (known_of_state hstate) htrap hregs hreceiver with
        ⟨hip, hrequest, rfl⟩
      exact notified_tracked hip hrequest hne
  | trappedDelivered htrap hstate hregs _ hinstalled =>
      rcases request_of_queuesFor (known_of_state hstate) htrap hregs hreceiver with
        ⟨hip, hrequest, rfl⟩
      exact hinstalled.tracked (notified_tracked hip hrequest hne)
  | processingNext htrap hstate hregs _ hdone =>
      have hrequest := (request_of_queuesFor (by simp [hstate]) htrap hregs hreceiver).2.1
      simp [hdone] at hrequest
  | processingDone htrap hstate hregs _ hdone =>
      have hrequest := (request_of_queuesFor (by simp [hstate]) htrap hregs hreceiver).2.1
      simp [hdone] at hrequest
  | processingRequested htrap hstate hregs =>
      rcases request_of_queuesFor (by simp [hstate]) htrap hregs hreceiver with ⟨_, _, rfl⟩
      exact queueNotification_tracked hne _ _
  | processingIgnored htrap hstate hregs hip =>
      exact absurd (request_of_queuesFor (by simp [hstate]) htrap hregs hreceiver).1 hip

/-- A thread that enters an exit call which is not intercepted. -/
theorem Reaction.syscallEntered_of (h : Reaction sys stop sys') (hsyscall : stop.isSyscall = true)
    (hknown : sys.childStates stop.pid ≠ none)
    (hin : (sys.childInSyscall stop.pid).getD false = false)
    (hexiting : sys.childExiting stop.pid ≠ none) : sys' = sys.setInSyscall stop.pid true := by
  rcases h.syscall_cases hsyscall hknown with ⟨-, heq | ⟨hnone, -⟩⟩ | ⟨hinside, -⟩
  · exact heq
  · exact absurd hnone hexiting
  · simp [hin] at hinside

/-- A thread killed by a signal is not looked at. -/
theorem Reaction.terminated_of (h : Reaction sys stop sys')
    (hsignaled : stop.status.wifsignaled = true) (hknown : sys.childStates stop.pid ≠ none) :
    sys'.childStates stop.pid ≠ none := by
  have hstopped : stop.status.wifstopped = false := by
    by_contra hstopped
    simp [stop.status.not_wifsignaled_of_wifstopped (by simpa using hstopped)] at hsignaled
  have hexited : stop.status.wifexited = false := by
    simp only [Status.wifsignaled, Bool.and_eq_true, bne_iff_ne] at hsignaled
    simpa [Status.wifexited] using hsignaled.1
  have hnot : ∀ {p : Prop}, stop.status.wifstopped = true → p := by
    intro p hyes
    simp [hstopped] at hyes
  cases h with
  | terminated => exact hknown
  | gone hyes => simp [hexited] at hyes
  | threadExited hexit => simp [Stop.isExit, Stop.isExitEvent, hexited, hstopped] at hexit
  | newThread _ _ hyes => exact hnot hyes
  | newThreadEarly _ _ hyes => exact hnot hyes
  | ignored _ hyes => exact hnot hyes
  | syscallEntered hsyscall => simp [Stop.isSyscall, hstopped] at hsyscall
  | exitIntercepted hsyscall => simp [Stop.isSyscall, hstopped] at hsyscall
  | syscallLeft hsyscall => simp [Stop.isSyscall, hstopped] at hsyscall
  | exitLeft hsyscall => simp [Stop.isSyscall, hstopped] at hsyscall
  | started htrap => exact hnot (stopped_of_isTrap htrap).1
  | trapped htrap => exact hnot (stopped_of_isTrap htrap).1
  | trappedDelivered htrap => exact hnot (stopped_of_isTrap htrap).1
  | processingNext htrap => exact hnot (stopped_of_isTrap htrap).1
  | processingDone htrap => exact hnot (stopped_of_isTrap htrap).1
  | processingRequested htrap => exact hnot (stopped_of_isTrap htrap).1
  | processingIgnored htrap => exact hnot (stopped_of_isTrap htrap).1

/-- A step that loses track of something breaks the agreement at once. -/
theorem Books.not_kept {before : List (Input abi)}
    (h : Books mainChild (history mainChild before) sys) {input : Input abi}
    (hloses : LosesTrack mainChild before sys input) (hstep : sys.step input = .ok sys') :
    ¬BooksKept mainChild (before ++ [input]) sys' := by
  rintro ⟨htracked, _, hevents⟩
  rw [history_append_singleton] at htracked hevents
  rcases step_cases hstep with
    ⟨pid, rfl, _⟩ | ⟨stop, reacted, effects, rfl, _, hreaction, rfl, heffects⟩
  · exact hloses
  have hresumedEvents : (reacted.record effects).lifeEvents = reacted.lifeEvents :=
    lifeEvents_record heffects
  rcases hloses with ⟨receiver, hreceiver, hunknown⟩ | hleftover | ⟨hsignaled, hknown⟩
  · have hne : stop.pid ≠ receiver := by
      rintro rfl
      simp [queuesFor, hunknown] at hreceiver
    have hqueued : reacted.childStates receiver ≠ none := by
      apply hreaction.queuesFor_tracked _ hne
      simpa [queuesFor] using hreceiver
    have hobserved := (htracked receiver).mp hqueued
    have hlife : ((history mainChild before).lives receiver).observed = true := by
      simpa [History.next, Ne.symm hne] using hobserved
    exact (h.threads receiver).tracked.mpr hlife hunknown
  · rcases hleftover with ⟨hsyscall, hobserved, hstage, hleftover⟩
    have hknown := (h.threads stop.pid).tracked.mpr hobserved
    have hin := (h.threads stop.pid).inSyscall hobserved
    rw [hresumedEvents] at hevents
    rcases hleftover with ⟨hout, hcalls, hexiting⟩ | ⟨hinside, hexiting⟩
    · have heq : reacted = (sys.reportedByKernel stop).setInSyscall stop.pid true := by
        apply hreaction.syscallEntered_of hsyscall
        · rwa [reportedByKernel_toParent]
        · rw [reportedByKernel_toParent, hin, hout]
        · rwa [reportedByKernel_toParent]
      have hsame : reacted.lifeEvents = (history mainChild before).events := by
        rw [heq, ← h.events]
        change (sys.reportedByKernel stop).log.filterMap _ = _
        rw [reportedByKernel_log]
        rfl
      have hdue := (life_entering mainChild hsyscall hobserved hout).2
      rw [if_pos ⟨hstage, hcalls⟩] at hdue
      simp [History.next, hsame, hdue] at hevents
    · have hleft := hreaction.exitLeft_of hsyscall
        (by rwa [reportedByKernel_toParent]) (by rw [reportedByKernel_toParent, hin, hinside])
        (by rwa [reportedByKernel_toParent])
      rcases hleft with ⟨left, heq, hinstalled⟩
      have hdone : reacted.lifeEvents =
          (history mainChild before).events ++ [.exiting stop.pid] := by
        have hsame : (left.setExitingHandled stop.pid).lifeEvents = left.lifeEvents := rfl
        have hlog : (((sys.reportedByKernel stop).setInSyscall stop.pid false).push stop.pid
            .threadExiting (((sys.reportedByKernel stop).childExitValue stop.pid).getD 0)).log =
              sys.log ++ [.queued stop.pid .threadExiting
                (((sys.reportedByKernel stop).childExitValue stop.pid).getD 0)] := by
          change (sys.reportedByKernel stop).log ++ _ = _
          rw [reportedByKernel_log]
        rw [heq, hsame, hinstalled.lifeEvents, ← h.events, lifeEvents_append hlog]
        rfl
      have hdue := (life_leaving mainChild hsyscall hobserved hinside).2
      rw [if_neg (by simp [hstage])] at hdue
      simp [History.next, hdone, hdue] at hevents
  · have hstill : reacted.childStates stop.pid ≠ none := by
      apply hreaction.terminated_of hsignaled
      rwa [reportedByKernel_toParent]
    have hend : stop.isEnd = true := by simp [Stop.isEnd, hsignaled]
    have hobserved := (htracked stop.pid).mp hstill
    simp [History.next, Life.after, hend, Life.unobserved] at hobserved

/-- In every state of a run it holds that the keys of {lit}`childStates` are the threads
that were observed stopped and have not ended since, that the first notification of each
of them, delivered or pending, is that it started, and that the parent observed each new
thread, intercepted its first exit call, queued one exiting notification when that call
was left and told the main child once of its exit, each when the thread did so; exactly
when the parent loses track of nothing on the way. -/
theorem booksKept_iff {mainChild : Pid} {notifyAddress entry : Long abi}
    {inputs : List (Input abi)} (hrun : Run step (start mainChild notifyAddress entry) inputs sys) :
    Visits step (start mainChild notifyAddress entry) inputs (BooksKept mainChild) ↔
      StepsMeet step (start mainChild notifyAddress entry)
        (fun before s input => ¬LosesTrack mainChild before s input) inputs := by
  refine Run.visits_iff_stepsMeet
    (P := fun before s => Books mainChild (history mainChild before) s) ?_ ?_ ?_ ?_ hrun
  · exact start_books mainChild notifyAddress entry
  · intro before s input s' _ hs hinput hstep
    exact hs.step hinput hstep
  · intro before s hs
    refine ⟨fun pid => (hs.threads pid).tracked, ?_, hs.events⟩
    intro pid hpid hobserved
    exact (hs.threads pid).startedFirst hpid hobserved
  · intro before s input s' hs hinput hstep
    exact hs.not_kept (not_not.mp hinput) hstep

/-- The end of thread 101, and a new thread with its id. -/
abbrev endAndReuse : List (Input .x86_64) :=
  [startsUp, firstStop 101, notifies 101 1 0, exitCall 101 0, exitCall 101 0,
    notifies 101 1 0, exitEvent 101, firstStop 101]

/-- A thread with the id of an earlier one. -/
theorem booksKept_small :
    ∃ s, exec step smallStart endAndReuse = .ok s ∧
      (Visits step smallStart endAndReuse (BooksKept mainPid) ↔
        StepsMeet step smallStart
          (fun before s input => ¬LosesTrack mainPid before s input) endAndReuse) := by
  have hexec : ∃ s, exec step smallStart endAndReuse = .ok s := ⟨_, rfl⟩
  rcases hexec with ⟨s, hexec⟩
  exact ⟨s, hexec, booksKept_iff (run_iff_exec.mpr hexec)⟩

/-- The exit call of the second thread 101 is not intercepted: the entry for the exit of
the first one is still there. -/
theorem not_booksKept :
    ¬∀ (inputs : List (Input .x86_64)) (s : System .x86_64),
      Run step smallStart inputs s → BooksKept mainPid inputs s := by
  intro hall
  have hexec : ∃ s, exec step smallStart (endAndReuse ++ [exitCall 101 0]) = .ok s ∧
      s.lifeEvents.length + 1 =
        (history mainPid (endAndReuse ++ [exitCall 101 0])).events.length := by
    refine ⟨_, rfl, ?_⟩
    decide
  rcases hexec with ⟨s, hexec, hlength⟩
  have hevents := (hall _ s (run_iff_exec.mpr hexec)).events
  rw [hevents] at hlength
  omega

end System
end ParentProcess
end Roofline
