import Roofline.ParentProcess.Bookkeeping

/-!
# What a step does to the exit of a thread

For the exit of a thread the parent uses a few entries of its maps, and the registers it writes to
the thread.  This file says what a step does to them.

Main results:

- Theorem {lit}`Reaction.spares_other`: a reaction spares the entries of all threads but the
  stopped one.
- Theorem {lit}`Reaction.exitStep`: what it does to the entries and the registers of the stopped
  thread, unless the thread has ended.
-/

namespace Roofline
namespace ParentProcess

/-- What processNotification reads from {lit}`ebx`. -/
def Regs.childNotification {abi : Abi} (regs : Regs abi) : Option ChildNotification :=
  match (regs.bx.setWidth 32).toNat with
  | 0 => some .threadStarted
  | 1 => some .processActions
  | 2 => some .threadExited
  | 3 => some .threadExiting
  | _ => none

/-- What processNotification reads from {lit}`ecx`. -/
def Regs.childArg {abi : Abi} (regs : Regs abi) : BitVec 32 :=
  regs.cx.setWidth 32

/-- {lit}`PTRACE_SETREGS` of a thread.  Before the notification system is ready, the address a
thread is diverted to has not been set. -/
inductive Write (abi : Abi) where
  | diverts (ready : Bool) (regs : Regs abi)
  | restores (regs : Regs abi)
  | replaces (regs : Regs abi)

/-- What an effect writes to the registers of a thread. -/
def Effect.writeTo {abi : Abi} (pid : Pid) : Effect abi → Option (Write abi)
  | .diverted child _ isReady _ written =>
      if child = pid then some (.diverts isReady written) else none
  | .restored child regs => if child = pid then some (.restores regs) else none
  | .replaced child regs => if child = pid then some (.replaces regs) else none
  | _ => none

/-- What the parent keeps for the exit of a thread. -/
structure ExitEntry (abi : Abi) where
  state : Option ChildState
  exiting : Option Nat
  exitValue : Option (Long abi)
  inSyscall : Option Bool
  queue : List (ChildNotification × Long abi)
  ready : Bool

namespace System

variable {abi : Abi} {sys mid sys' : System abi} {stop : Stop abi} {pid : Pid}

/-- All that is kept about the exit of a thread. -/
def exitEntry (sys : System abi) (pid : Pid) : ExitEntry abi where
  state := sys.childStates pid
  exiting := sys.childExiting pid
  exitValue := sys.childExitValue pid
  inSyscall := sys.childInSyscall pid
  queue := sys.queueOf pid
  ready := sys.notificationSystemReady

/-! ## Written registers -/

/-- The registers that are written to a thread. -/
def Writes (sys sys' : System abi) (pid : Pid) (writes : List (Write abi)) : Prop :=
  ∃ effects, sys'.log = sys.log ++ effects ∧ effects.filterMap (Effect.writeTo pid) = writes

/-- Doing nothing writes nothing. -/
theorem Writes.refl (sys : System abi) (pid : Pid) : Writes sys sys pid [] :=
  ⟨[], (List.append_nil _).symm, rfl⟩

/-- The writes of two changes follow each other. -/
theorem Writes.trans {front back : List (Write abi)} (h : Writes sys mid pid front)
    (h' : Writes mid sys' pid back) : Writes sys sys' pid (front ++ back) := by
  rcases h with ⟨effects, hlog, hwrites⟩
  rcases h' with ⟨effects', hlog', hwrites'⟩
  refine ⟨effects ++ effects', ?_, ?_⟩
  · rw [hlog', hlog, List.append_assoc]
  · rw [List.filterMap_append, hwrites, hwrites']

/-- A single effect that writes. -/
theorem writes_of_effect {effect : Effect abi} {write : Write abi}
    (hlog : sys'.log = sys.log ++ [effect]) (hwrite : effect.writeTo pid = some write) :
    Writes sys sys' pid [write] :=
  ⟨[effect], hlog, List.filterMap_cons_some hwrite⟩

/-- A diversion writes the registers of the handler. -/
theorem writes_divert (sys : System abi) (stop : Stop abi) (event : ChildNotification)
    (arg : Long abi) (saved : Regs abi) :
    Writes sys (sys.divert stop event arg saved) stop.pid
      [.diverts sys.notificationSystemReady (sys.entryRegs saved stop.pid event arg)] :=
  writes_of_effect rfl (if_pos rfl)

/-- The written registers are found in what was added to the log. -/
theorem Writes.eq {writes : List (Write abi)} (h : Writes sys sys' pid writes) :
    (sys'.log.drop sys.log.length).filterMap (Effect.writeTo pid) = writes := by
  rcases h with ⟨effects, hlog, hwrites⟩
  rw [hlog, List.drop_left, hwrites]

/-- Queueing a notification writes nothing. -/
theorem writes_queueNotification (stoppedChild receiver : Pid) (event : ChildNotification)
    (arg : Long abi) :
    Writes sys (sys.queueNotification stoppedChild receiver event arg) pid [] :=
  ⟨[.queued receiver event arg], queueNotification_log .., rfl⟩

/-- Nor does a request. -/
theorem writes_requested (regs : Regs abi) : Writes sys (sys.requested stop regs) pid [] := by
  have hrecord : Writes sys (sys.record [.handled stop.pid (some .queueProcessActions)]) pid [] :=
    ⟨_, rfl, rfl⟩
  exact hrecord.trans (writes_queueNotification _ _ _ _)

/-- Nor does a notification of the parent. -/
theorem writes_notified (regs : Regs abi) : Writes sys (sys.notified stop regs) pid [] := by
  rcases notified_cases sys stop regs with ⟨_, heq⟩ | ⟨_, _, heq⟩ | ⟨_, _, heq⟩
  · rw [heq]
    exact .refl sys pid
  · rw [heq]
    exact writes_requested regs
  · rw [heq]
    exact ⟨_, rfl, rfl⟩

/-- Nor does resuming the thread. -/
theorem writes_resumed {effects : List (Effect abi)}
    (heffects : ∀ effect ∈ effects, ∃ sendSig, effect = .resumed stop.pid sendSig) :
    Writes sys (sys.record effects) pid [] := by
  refine ⟨effects, rfl, List.filterMap_eq_nil_iff.mpr ?_⟩
  intro effect heffect
  rcases heffects effect heffect with ⟨sendSig, rfl⟩
  rfl

end System

/-! ## Entries that are spared -/

variable {abi : Abi}

/-- The thread may have become known and may have been notified of something else. -/
structure ExitEntry.Spares (entry entry' : ExitEntry abi) : Prop where
  exiting : entry'.exiting = entry.exiting
  exitValue : entry'.exitValue = entry.exitValue
  inSyscall : entry'.inSyscall = entry.inSyscall
  queue : ∃ more, entry'.queue = entry.queue ++ more ∧
    ∀ notification ∈ more, notification.1 ≠ .threadExiting
  known : entry.state ≠ none → entry'.state ≠ none
  processing : entry.ready = true → entry.state = some .processingNotification →
    entry'.state = some .processingNotification
  ready : entry.ready = true → entry'.ready = true

namespace ExitEntry

variable {entry mid entry' : ExitEntry abi}

/-- Doing nothing spares the entry. -/
theorem Spares.refl (entry : ExitEntry abi) : Spares entry entry where
  exiting := rfl
  exitValue := rfl
  inSyscall := rfl
  queue := ⟨[], (List.append_nil _).symm, by simp⟩
  known := id
  processing _ := id
  ready := id

/-- What is left of the entry of a thread that has ended. -/
structure Leftover (entry entry' : ExitEntry abi) : Prop where
  exiting : entry'.exiting = entry.exiting
  exitValue : entry'.exitValue = entry.exitValue
  queue : ∀ notification ∈ entry'.queue, notification ∈ entry.queue

/-- Doing nothing leaves it. -/
theorem Leftover.refl (entry : ExitEntry abi) : Leftover entry entry :=
  ⟨rfl, rfl, fun _ h => h⟩

/-- The first notification of the queue is taken and the thread diverted to it. -/
def take (entry : ExitEntry abi) (rest : List (ChildNotification × Long abi)) : ExitEntry abi :=
  { entry with
    queue := rest
    state := some .processingNotification }

end ExitEntry

namespace System

open ExitEntry

variable {sys mid sys' : System abi} {stop : Stop abi} {pid : Pid}

/-- An entry that stays the same is spared. -/
theorem spares_of_eq (h : sys'.exitEntry pid = sys.exitEntry pid) :
    Spares (sys.exitEntry pid) (sys'.exitEntry pid) := by
  rw [h]
  exact .refl _

/-- Queueing other notifications spares it. -/
theorem spares_queueNotification {stoppedChild receiver : Pid} {event : ChildNotification}
    (hevent : event ≠ .threadExiting) (arg : Long abi) :
    Spares (sys.exitEntry pid)
      ((sys.queueNotification stoppedChild receiver event arg).exitEntry pid) where
  exiting := congrFun (queueNotification_childExiting ..) pid
  exitValue := congrFun (queueNotification_childExitValue ..) pid
  inSyscall := congrFun (queueNotification_childInSyscall ..) pid
  queue := by
    have hqueue : (sys.queueNotification stoppedChild receiver event arg).queueOf pid =
        (sys.push receiver event arg).queueOf pid := by
      rw [queueOf, queueOf, queueNotification_childNotificationQueue]
    simp only [exitEntry, hqueue, queueOf_push]
    by_cases hpid : receiver = pid
    · exact ⟨[(event, arg)], if_pos hpid, by simpa using hevent⟩
    · exact ⟨[], by rw [if_neg hpid, List.append_nil], by simp⟩
  known hknown := by
    simp only [exitEntry, queueNotification_childStates] at hknown ⊢
    split_ifs
    · simp
    · exact hknown
  processing _ hstate := (queueNotification_processing_iff ..).mpr hstate
  ready hready := (queueNotification_notificationSystemReady ..).trans hready

/-- So does a request. -/
theorem spares_requested (regs : Regs abi) :
    Spares (sys.exitEntry pid) ((sys.requested stop regs).exitEntry pid) := by
  have hrecord : (sys.record [.handled stop.pid (some .queueProcessActions)]).exitEntry pid =
      sys.exitEntry pid := rfl
  rw [← hrecord]
  exact spares_queueNotification (by decide) 0

/-- So does a notification of the parent. -/
theorem spares_notified (regs : Regs abi) :
    Spares (sys.exitEntry pid) ((sys.notified stop regs).exitEntry pid) := by
  rcases notified_cases sys stop regs with ⟨_, heq⟩ | ⟨_, _, heq⟩ | ⟨_, _, heq⟩
  · exact spares_of_eq (by rw [heq])
  · rw [heq]
    exact spares_requested regs
  · exact spares_of_eq (by rw [heq]; rfl)

/-- The startup stops no thread from processing that does so when the system is ready. -/
theorem spares_startup (hready : sys.notificationSystemReady = false) (regs : Regs abi) :
    Spares (sys.exitEntry pid) ((sys.startup regs).exitEntry pid) where
  exiting := rfl
  exitValue := rfl
  inSyscall := rfl
  queue := ⟨[], (List.append_nil _).symm, by simp⟩
  known hknown := by
    by_cases hpid : pid = sys.mainChild
    · simp [exitEntry, startup, hpid]
    · by_cases hneeds : sys.needsWakeUp pid = true
      · simp [exitEntry, startup, hpid, hneeds]
      · simpa [exitEntry, startup, hpid, hneeds] using hknown
  processing hready' := by
    have hready'' : sys.notificationSystemReady = true := hready'
    simp [hready] at hready''
  ready _ := rfl

/-- A notification is installed for the stopped thread only. -/
theorem Installed.exitEntry_other (h : Installed sys stop sys') (hpid : pid ≠ stop.pid) :
    sys'.exitEntry pid = sys.exitEntry pid := by
  cases h with
  | intro => simp [exitEntry, divert, pop, queueOf, hpid]

/-- The system call of another thread changes nothing. -/
theorem exitEntry_setInSyscall_other (hpid : pid ≠ stop.pid) (inSyscall : Bool) :
    (sys.setInSyscall stop.pid inSyscall).exitEntry pid = sys.exitEntry pid := by
  simp [exitEntry, setInSyscall, queueOf, hpid]

/-- A reaction spares the entries of all threads but the stopped one. -/
theorem Reaction.spares_other (h : Reaction sys stop sys') (hpid : pid ≠ stop.pid) :
    Spares (sys.exitEntry pid) (sys'.exitEntry pid) := by
  cases h with
  | gone => exact .refl _
  | threadExited =>
      have hforget : (sys.forget stop.pid).exitEntry pid = sys.exitEntry pid := by
        simp [exitEntry, forget, queueOf, hpid]
      rw [← hforget]
      exact spares_queueNotification (by decide) _
  | terminated => exact .refl _
  | newThread => exact spares_of_eq (by simp [exitEntry, divert, observe, queueOf, hpid])
  | newThreadEarly =>
      exact spares_of_eq (by simp [exitEntry, push, observe, queueOf, hpid])
  | syscallEntered => exact spares_of_eq (exitEntry_setInSyscall_other hpid _)
  | exitIntercepted =>
      exact spares_of_eq (by simp [exitEntry, interceptExit, setInSyscall, queueOf, hpid])
  | syscallLeft => exact spares_of_eq (exitEntry_setInSyscall_other hpid _)
  | @exitLeft left _ _ _ _ hinstalled =>
      have hleft := hinstalled.exitEntry_other hpid
      refine spares_of_eq (Eq.trans ?_ (hleft.trans ?_))
      · simp [exitEntry, setExitingHandled, queueOf, hpid]
      · simp [exitEntry, push, setInSyscall, queueOf, hpid]
  | ignored => exact .refl _
  | started _ _ _ _ _ hready => exact spares_startup hready _
  | trapped => exact spares_notified _
  | trappedDelivered _ _ _ _ hinstalled =>
      rw [hinstalled.exitEntry_other hpid]
      exact spares_notified _
  | processingNext _ _ _ _ _ hinstalled => exact spares_of_eq (hinstalled.exitEntry_other hpid)
  | processingDone => exact spares_of_eq (by simp [exitEntry, restore, queueOf, hpid])
  | processingRequested => exact spares_requested _
  | processingIgnored => exact .refl _

/-! ## The stopped thread -/

/-- The thread reports that it is done with a notification. -/
def answers (sys : System abi) (stop : Stop abi) : Bool :=
  stop.isTrap && stop.regs.any fun regs =>
    regs.ip == sys.notifyAddress && regs.notification == some .processingDone

/-- A trap answers if it is the notification that processing is done. -/
theorem answers_of_regs {regs : Regs abi} (htrap : stop.isTrap = true)
    (hregs : stop.regs = some regs) :
    sys.answers stop = (regs.ip == sys.notifyAddress &&
      regs.notification == some .processingDone) := by
  rw [answers, htrap, hregs]
  rfl

/-- Other stops do not answer. -/
theorem not_answers_of_not_isTrap (htrap : stop.isTrap = false) : sys.answers stop = false := by
  rw [answers, htrap, Bool.false_and]

/-- Nor do other notifications. -/
theorem not_answers {regs : Regs abi} (htrap : stop.isTrap = true) (hregs : stop.regs = some regs)
    (hother : regs.ip ≠ sys.notifyAddress ∨ regs.notification ≠ some .processingDone) :
    sys.answers stop = false := by
  rw [answers_of_regs htrap hregs, Bool.and_eq_false_iff, beq_eq_false_iff_ne,
    beq_eq_false_iff_ne]
  exact hother

/-- With these registers processNotification is told of this. -/
structure Tells (regs : Regs abi) (event : ChildNotification) (arg : Long abi) : Prop where
  event : regs.childNotification = some event
  arg : regs.childArg = arg.setWidth 32

/-- The registers of the handler tell the notification and its argument. -/
theorem tells_entryRegs (sys : System abi) (saved : Regs abi) (pid : Pid)
    (event : ChildNotification) (arg : Long abi) :
    Tells (sys.entryRegs saved pid event arg) event arg where
  event := by
    rw [Regs.childNotification, entryRegs]
    cases abi <;> cases event <;> rfl
  arg := rfl

/-- The argument passes through a {lit}`uint32_t`, and the thread reads it as one. -/
theorem Tells.of_throughUint32 {regs : Regs abi} {event : ChildNotification} {arg : Long abi}
    (h : Tells regs event (throughUint32 arg)) : Tells regs event arg where
  event := h.event
  arg := by
    rw [h.arg, throughUint32, BitVec.setWidth_setWidth_of_le _ abi.le_wordSize,
      BitVec.setWidth_eq]

/-- What a step does to the entry of the stopped thread and which registers it writes, when the
thread has not ended. -/
inductive ExitStep (answered : Bool) (stop : Stop abi) (entry : ExitEntry abi) :
    List (Write abi) → ExitEntry abi → Prop where
  | spared {entry' : ExitEntry abi} (hsyscall : stop.isSyscall = false)
      (hanswer : entry.state = some .processingNotification → answered = false)
      (hspares : Spares entry entry') : ExitStep answered stop entry [] entry'
  /-- A new thread is told that it started, or will be told. -/
  | observed {entry' : ExitEntry abi} {writes : List (Write abi)}
      (hsyscall : stop.isSyscall = false) (hunknown : entry.state = none)
      (hwrites : writes = [] ∨ ∃ regs, writes = [.diverts true regs] ∧ Tells regs .threadStarted 0)
      (hexiting : entry'.exiting = entry.exiting) (hexitValue : entry'.exitValue = entry.exitValue)
      (hqueue : entry'.queue = entry.queue ∨ entry'.queue = entry.queue ++ [(.threadStarted, 0)]) :
      ExitStep answered stop entry writes entry'
  /-- The first notification of the queue is delivered. -/
  | delivered {mid : ExitEntry abi} {event : ChildNotification} {arg : Long abi}
      {rest : List (ChildNotification × Long abi)} {regs : Regs abi}
      (hsyscall : stop.isSyscall = false)
      (hanswer : entry.state = some .processingNotification → answered = true ∧ mid = entry)
      (hspares : Spares entry mid) (hqueue : mid.queue = (event, arg) :: rest)
      (htells : Tells regs event arg) :
      ExitStep answered stop entry [.diverts mid.ready regs] (mid.take rest)
  | restored {regs : Regs abi} (hsyscall : stop.isSyscall = false) (hanswered : answered = true)
      (hempty : entry.queue = []) :
      ExitStep answered stop entry [.restores regs] { entry with state := some .running }
  | entered {regs : Regs abi} (hsyscall : stop.isSyscall = true)
      (hin : entry.inSyscall.getD false = false) (hregs : stop.regs = some regs)
      (hother : ¬(regs.origAx = abi.sysExit ∧ entry.exiting = none)) :
      ExitStep answered stop entry [] { entry with inSyscall := some true }
  | intercepted {regs : Regs abi} (hsyscall : stop.isSyscall = true)
      (hin : entry.inSyscall.getD false = false) (hregs : stop.regs = some regs)
      (hexit : regs.origAx = abi.sysExit)
      (hexiting : entry.exiting = none) (hknown : entry.state ≠ none) :
      ExitStep answered stop entry [.replaces { regs with origAx := abi.sysGetpid }]
        { entry with inSyscall := some true, exiting := some 2, exitValue := some regs.bx }
  | left (hsyscall : stop.isSyscall = true) (hin : entry.inSyscall.getD false = true)
      (hexiting : entry.exiting ≠ some 2) :
      ExitStep answered stop entry [] { entry with inSyscall := some false }
  /-- The call that replaced an exit call is left. -/
  | exitLeft {event : ChildNotification} {arg : Long abi}
      {rest : List (ChildNotification × Long abi)} {regs : Regs abi}
      (hsyscall : stop.isSyscall = true) (hin : entry.inSyscall.getD false = true)
      (hexiting : entry.exiting = some 2)
      (hqueue : entry.queue ++ [(.threadExiting, entry.exitValue.getD 0)] = (event, arg) :: rest)
      (htells : Tells regs event arg) :
      ExitStep answered stop entry [.diverts entry.ready regs]
        { entry.take rest with inSyscall := some false, exiting := some 1 }

/-- The entry and the writes when a notification is installed. -/
theorem Installed.exitStep (h : Installed sys stop sys') :
    ∃ event arg rest regs, (sys.exitEntry stop.pid).queue = (event, arg) :: rest ∧
      Tells regs event arg ∧ sys'.exitEntry stop.pid = (sys.exitEntry stop.pid).take rest ∧
      Writes sys sys' stop.pid [.diverts sys.notificationSystemReady regs] := by
  cases h with
  | @intro event arg rest saved hqueue hsaved =>
      refine ⟨event, arg, rest, _, hqueue,
        (tells_entryRegs (sys.pop stop.pid event arg rest) saved stop.pid event _).of_throughUint32,
        ?_, ?_⟩
      · simp [exitEntry, ExitEntry.take, divert, pop, queueOf]
      · have hpop : Writes sys (sys.pop stop.pid event arg rest) stop.pid [] := ⟨_, rfl, rfl⟩
        exact hpop.trans (writes_divert (sys.pop stop.pid event arg rest) _ _ _ _)

/-- What a reaction does to the exit of the stopped thread. -/
theorem Reaction.exitStep (h : Reaction sys stop sys') (hend : stop.isEnd = false) :
    ∃ writes, Writes sys sys' stop.pid writes ∧
      ExitStep (sys.answers stop) stop (sys.exitEntry stop.pid) writes
        (sys'.exitEntry stop.pid) := by
  cases h with
  | gone hexited => simp [Stop.isEnd, hexited] at hend
  | threadExited hexit => simp [stop.isEnd_of_isExit hexit] at hend
  | terminated _ hstopped =>
      have htrap : stop.isTrap = false := by simp [Stop.isTrap, hstopped]
      exact ⟨[], .refl _ _, .spared (by simp [Stop.isSyscall, hstopped])
        (fun _ => not_answers_of_not_isTrap htrap) (.refl _)⟩
  | @newThread saved hstop hexited hstopped hunknown hready hsaved =>
      have hsyscall : stop.isSyscall = false := by simp [Stop.isSyscall, hstop, SIGSTOP, SIGTRAP]
      have hobserve : Writes sys (sys.observe stop.pid) stop.pid [] := ⟨_, rfl, rfl⟩
      have hdivert := writes_divert (sys.observe stop.pid) stop .threadStarted 0 saved
      have hready' : (sys.observe stop.pid).notificationSystemReady = true := hready
      rw [hready'] at hdivert
      refine ⟨_, hobserve.trans hdivert, ?_⟩
      exact .observed hsyscall hunknown (.inr ⟨_, rfl, tells_entryRegs _ saved _ _ _⟩) rfl rfl
        (.inl rfl)
  | newThreadEarly hstop hexited hstopped hunknown hready =>
      have hsyscall : stop.isSyscall = false := by simp [Stop.isSyscall, hstop, SIGSTOP, SIGTRAP]
      refine ⟨[], ⟨_, List.append_assoc _ _ _, rfl⟩, ?_⟩
      refine .observed hsyscall hunknown (.inl rfl) rfl rfl (.inr ?_)
      exact (queueOf_push _ _ _ _ _).trans (if_pos rfl)
  | syscallEntered hsyscall _ hregs hin hother =>
      refine ⟨[], ⟨[], (List.append_nil _).symm, rfl⟩, ?_⟩
      have hentry : (sys.setInSyscall stop.pid true).exitEntry stop.pid =
          { sys.exitEntry stop.pid with inSyscall := some true } := by
        simp [exitEntry, setInSyscall, queueOf]
      rw [hentry]
      exact .entered hsyscall hin hregs hother
  | @exitIntercepted regs hsyscall hknown hregs hin hexit hexiting =>
      refine ⟨[.replaces { regs with origAx := abi.sysGetpid }],
        writes_of_effect rfl (if_pos rfl), ?_⟩
      have hentry : ((sys.setInSyscall stop.pid true).interceptExit stop.pid regs).exitEntry
          stop.pid = { sys.exitEntry stop.pid with
            inSyscall := some true
            exiting := some 2
            exitValue := some regs.bx } := by
        simp [exitEntry, interceptExit, setInSyscall, queueOf]
      rw [hentry]
      exact .intercepted hsyscall hin hregs hexit hexiting hknown
  | syscallLeft hsyscall _ hin hexiting =>
      refine ⟨[], ⟨[], (List.append_nil _).symm, rfl⟩, ?_⟩
      have hentry : (sys.setInSyscall stop.pid false).exitEntry stop.pid =
          { sys.exitEntry stop.pid with inSyscall := some false } := by
        simp [exitEntry, setInSyscall, queueOf]
      rw [hentry]
      exact .left hsyscall hin hexiting
  | @exitLeft left hsyscall _ hin hexiting hinstalled =>
      rcases hinstalled.exitStep with ⟨event, arg, rest, regs, hqueue, htells, hentry, hwrites⟩
      have hpushed : Writes sys ((sys.setInSyscall stop.pid false).push stop.pid .threadExiting
          ((sys.childExitValue stop.pid).getD 0)) stop.pid [] :=
        ⟨_, rfl, rfl⟩
      have hhandled : Writes left (left.setExitingHandled stop.pid) stop.pid [] :=
        ⟨[], (List.append_nil _).symm, rfl⟩
      refine ⟨_, (hpushed.trans hwrites).trans hhandled, ?_⟩
      have hqueue' : sys.queueOf stop.pid ++ [(.threadExiting,
          (sys.childExitValue stop.pid).getD 0)] = (event, arg) :: rest := by
        rw [← hqueue]
        exact ((queueOf_push _ _ _ _ _).trans (if_pos rfl)).symm
      have hafter : (left.setExitingHandled stop.pid).exitEntry stop.pid =
          { (sys.exitEntry stop.pid).take rest with
            inSyscall := some false
            exiting := some 1 } := by
        have hexitingAfter : (left.setExitingHandled stop.pid).exitEntry stop.pid =
            { left.exitEntry stop.pid with exiting := some 1 } := by
          simp [exitEntry, setExitingHandled, queueOf]
        rw [hexitingAfter, hentry]
        simp [exitEntry, ExitEntry.take, push, setInSyscall]
      rw [hafter]
      exact .exitLeft hsyscall hin hexiting hqueue' htells
  | ignored _ _ _ htrap hsyscall =>
      exact ⟨[], .refl _ _, .spared hsyscall (fun _ => not_answers_of_not_isTrap htrap) (.refl _)⟩
  | @started regs htrap _ hregs _ hstartup hready =>
      refine ⟨[], ⟨_, rfl, rfl⟩, .spared (stopped_of_isTrap htrap).2.2 ?_ (spares_startup hready _)⟩
      intro _
      exact not_answers htrap hregs (.inr (by simp [hstartup]))
  | @trapped regs htrap hstate =>
      refine ⟨[], writes_notified regs, .spared (stopped_of_isTrap htrap).2.2 ?_
        (spares_notified regs)⟩
      intro hprocessing
      have hprocessing' : sys.childStates stop.pid = some .processingNotification := hprocessing
      simp [hprocessing'] at hstate
  | @trappedDelivered regs delivered htrap hstate hregs hready hinstalled =>
      rcases hinstalled.exitStep with ⟨event, arg, rest, regs', hqueue, htells, hentry, hwrites⟩
      refine ⟨_, (writes_notified regs).trans hwrites, ?_⟩
      rw [hentry]
      refine .delivered (stopped_of_isTrap htrap).2.2 ?_ (spares_notified regs) hqueue htells
      intro hprocessing
      have hprocessing' : sys.childStates stop.pid = some .processingNotification := hprocessing
      simp [hprocessing'] at hstate
  | @processingNext regs delivered htrap _ hregs hip hdone hinstalled =>
      rcases hinstalled.exitStep with ⟨event, arg, rest, regs', hqueue, htells, hentry, hwrites⟩
      refine ⟨_, hwrites, ?_⟩
      rw [hentry]
      refine .delivered (stopped_of_isTrap htrap).2.2 ?_ (.refl _) hqueue htells
      intro _
      exact ⟨by simp [answers_of_regs htrap hregs, hip, hdone], rfl⟩
  | processingDone htrap _ hregs hip hdone hempty =>
      refine ⟨[.restores _], writes_of_effect rfl (if_pos rfl), ?_⟩
      have hentry : (sys.restore stop.pid).exitEntry stop.pid =
          { sys.exitEntry stop.pid with state := some .running } := by
        simp [exitEntry, restore, queueOf]
      have hanswered : sys.answers stop = true := by
        simp [answers_of_regs htrap hregs, hip, hdone]
      rw [hentry]
      exact .restored (stopped_of_isTrap htrap).2.2 hanswered hempty
  | processingRequested htrap _ hregs _ hrequest =>
      refine ⟨[], writes_requested _, .spared (stopped_of_isTrap htrap).2.2 ?_
        (spares_requested _)⟩
      intro _
      exact not_answers htrap hregs (.inr (by simp [hrequest]))
  | processingIgnored htrap _ hregs hip =>
      refine ⟨[], .refl _ _, .spared (stopped_of_isTrap htrap).2.2 ?_ (.refl _)⟩
      intro _
      exact not_answers htrap hregs (.inl hip)

/-- The queue of a thread that has ended is erased, or left alone. -/
theorem Reaction.leftover (h : Reaction sys stop sys') (hend : stop.isEnd = true) :
    Leftover (sys.exitEntry stop.pid) (sys'.exitEntry stop.pid) := by
  have htrapped : stop.isTrap ≠ true := by
    intro htrap
    simp [stop.not_isEnd_of_isTrap htrap] at hend
  have hcalled : stop.isSyscall ≠ true := by
    intro hsyscall
    simp [stop.not_isEnd_of_isSyscall hsyscall] at hend
  have hstarted : stop.status.stopSig = SIGSTOP → stop.status.wifexited = false →
      stop.status.wifstopped ≠ true := by
    intro hstop hexited hstopped
    have hsignaled := stop.status.not_wifsignaled_of_wifstopped hstopped
    simp [Stop.isEnd, Stop.isExitEvent, hexited, hsignaled, hstop, SIGSTOP, SIGTRAP] at hend
  cases h with
  | gone => exact .refl _
  | threadExited _ hnotMain =>
      have hqueue : (sys.handleChildThreadExited stop.pid).queueOf stop.pid = [] := by
        have hpush : (sys.handleChildThreadExited stop.pid).queueOf stop.pid =
            ((sys.forget stop.pid).push sys.mainChild .threadExited
              (stop.pid.toLong abi)).queueOf stop.pid := by
          rw [handleChildThreadExited, queueOf, queueOf, queueNotification_childNotificationQueue]
        rw [hpush, queueOf_push, if_neg (Ne.symm hnotMain)]
        simp [forget, queueOf]
      refine ⟨?_, ?_, ?_⟩
      · exact congrFun (queueNotification_childExiting ..) stop.pid
      · exact congrFun (queueNotification_childExitValue ..) stop.pid
      · intro notification hmem
        have hmem' : notification ∈ (sys.handleChildThreadExited stop.pid).queueOf stop.pid := hmem
        simp [hqueue] at hmem'
  | terminated => exact .refl _
  | newThread hstop hexited hstopped => exact absurd hstopped (hstarted hstop hexited)
  | newThreadEarly hstop hexited hstopped => exact absurd hstopped (hstarted hstop hexited)
  | syscallEntered hsyscall => exact absurd hsyscall hcalled
  | exitIntercepted hsyscall => exact absurd hsyscall hcalled
  | syscallLeft hsyscall => exact absurd hsyscall hcalled
  | exitLeft hsyscall => exact absurd hsyscall hcalled
  | ignored hnot => simp [hnot] at hend
  | started htrap => exact absurd htrap htrapped
  | trapped htrap => exact absurd htrap htrapped
  | trappedDelivered htrap => exact absurd htrap htrapped
  | processingNext htrap => exact absurd htrap htrapped
  | processingDone htrap => exact absurd htrap htrapped
  | processingRequested htrap => exact absurd htrap htrapped
  | processingIgnored htrap => exact absurd htrap htrapped

/-! ## Steps -/

/-- The report of a stop changes no entry. -/
theorem exitEntry_reportedByKernel (pid : Pid) :
    (sys.reportedByKernel stop).exitEntry pid = sys.exitEntry pid := by
  simp [exitEntry, queueOf]

/-- Nor does it change what answers. -/
theorem answers_reportedByKernel :
    (sys.reportedByKernel stop).answers stop = sys.answers stop := by
  simp [answers]

/-- A step spares the entries of all threads but the stopped one. -/
theorem spares_other_of_step (hstep : sys.step (.reported stop) = .ok sys')
    (hpid : pid ≠ stop.pid) : Spares (sys.exitEntry pid) (sys'.exitEntry pid) := by
  rcases step_cases hstep with
    ⟨created, hcreated, _⟩ | ⟨stop', reacted, effects, hstop, _, hreaction, rfl, _⟩
  · simp at hcreated
  · obtain rfl : stop = stop' := Input.reported.inj hstop
    have hspares := hreaction.spares_other hpid
    rwa [exitEntry_reportedByKernel] at hspares

/-- Each step of a thread is one of its exit protocol. -/
theorem exitStep_of_step (hstep : sys.step (.reported stop) = .ok sys')
    (hend : stop.isEnd = false) :
    ∃ writes, Writes sys sys' stop.pid writes ∧
      ExitStep (sys.answers stop) stop (sys.exitEntry stop.pid) writes
        (sys'.exitEntry stop.pid) := by
  rcases step_cases hstep with
    ⟨created, hcreated, _⟩ | ⟨stop', reacted, effects, hstop, _, hreaction, rfl, heffects⟩
  · simp at hcreated
  · obtain rfl : stop = stop' := Input.reported.inj hstop
    rcases hreaction.exitStep hend with ⟨writes, hwrites, hexit⟩
    rw [exitEntry_reportedByKernel, answers_reportedByKernel] at hexit
    have hkernel : Writes sys (sys.reportedByKernel stop) stop.pid [] :=
      ⟨[], by rw [reportedByKernel_log, List.append_nil], rfl⟩
    refine ⟨writes, ?_, hexit⟩
    have hall := (hkernel.trans hwrites).trans (writes_resumed heffects)
    rwa [List.nil_append, List.append_nil] at hall

/-- The end of a thread leaves what may be left. -/
theorem leftover_of_step (hstep : sys.step (.reported stop) = .ok sys') (hend : stop.isEnd = true) :
    Leftover (sys.exitEntry stop.pid) (sys'.exitEntry stop.pid) := by
  rcases step_cases hstep with
    ⟨created, hcreated, _⟩ | ⟨stop', reacted, effects, hstop, _, hreaction, rfl, _⟩
  · simp at hcreated
  · obtain rfl : stop = stop' := Input.reported.inj hstop
    have hleftover := hreaction.leftover hend
    rwa [exitEntry_reportedByKernel] at hleftover

end System
end ParentProcess
end Roofline
