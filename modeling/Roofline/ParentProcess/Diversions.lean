import Roofline.ParentProcess.StepCases

/-!
# What a step does to the registers of the threads

Most of what the parent does touches no registers.  This file reduces the reactions of
the trace loop to five: nothing happens to the registers, one thread is diverted, one
thread is restored, the registers of an exited thread are erased, or the system
becomes ready.

Main results:

- Theorem {lit}`Reaction.registerStep`: every reaction is one of the five.
-/

namespace Roofline
namespace ParentProcess
/-- The effect neither diverts nor restores nor forgets a thread. -/
def Effect.isQuiet {abi : Abi} : Effect abi → Bool
  | .diverted .. => false
  | .restored .. => false
  | .forgotten .. => false
  | _ => true

namespace System

variable {abi : Abi} {sys mid sys' : System abi} {stop : Stop abi}

/-! ## Quiet updates -/

/-- An update that leaves the registers, the threads that process notifications and
the readiness alone. -/
structure Quiet (sys sys' : System abi) : Prop where
  log : ∃ effects, sys'.log = sys.log ++ effects ∧ ∀ effect ∈ effects, effect.isQuiet = true
  childRegs : sys'.childRegs = sys.childRegs
  processing : ∀ pid, sys'.childStates pid = some .processingNotification ↔
    sys.childStates pid = some .processingNotification
  ready : sys'.notificationSystemReady = sys.notificationSystemReady

/-- Doing nothing is quiet. -/
theorem Quiet.refl (sys : System abi) : Quiet sys sys :=
  ⟨⟨[], (List.append_nil _).symm, by simp⟩, rfl, fun _ => Iff.rfl, rfl⟩

/-- Two quiet changes are quiet. -/
theorem Quiet.trans (h : Quiet sys mid) (h' : Quiet mid sys') : Quiet sys sys' := by
  rcases h.log with ⟨front, hfront, hquiet⟩
  rcases h'.log with ⟨back, hback, hquiet'⟩
  refine ⟨⟨front ++ back, ?_, ?_⟩, ?_, ?_, ?_⟩
  · rw [hback, hfront, List.append_assoc]
  · intro effect heffect
    rcases List.mem_append.mp heffect with hmem | hmem
    · exact hquiet effect hmem
    · exact hquiet' effect hmem
  · rw [h'.childRegs, h.childRegs]
  · intro pid
    rw [h'.processing, h.processing]
  · rw [h'.ready, h.ready]

/-- Recording quiet effects is quiet. -/
theorem quiet_record {effects : List (Effect abi)}
    (hquiet : ∀ effect ∈ effects, effect.isQuiet = true) : Quiet sys (sys.record effects) :=
  ⟨⟨effects, rfl, hquiet⟩, rfl, fun _ => Iff.rfl, rfl⟩

/-- Queueing a notification is quiet. -/
theorem quiet_queueNotification (stoppedChild receiver : Pid) (event : ChildNotification)
    (arg : Long abi) : Quiet sys (sys.queueNotification stoppedChild receiver event arg) := by
  refine ⟨⟨[.queued receiver event arg], ?_, by simp [Effect.isQuiet]⟩, ?_, ?_, ?_⟩
  · rw [queueNotification_log]
    rfl
  · rw [queueNotification_childRegs]
  · exact fun pid => queueNotification_processing_iff sys receiver stoppedChild event arg pid
  · rw [queueNotification_notificationSystemReady]

/-- So is pushing one. -/
theorem quiet_push (receiver : Pid) (event : ChildNotification) (arg : Long abi) :
    Quiet sys (sys.push receiver event arg) :=
  ⟨⟨[.queued receiver event arg], rfl, by simp [Effect.isQuiet]⟩, rfl, fun _ => Iff.rfl, rfl⟩

/-- So is popping one. -/
theorem quiet_pop (child : Pid) (event : ChildNotification) (arg : Long abi)
    (rest : List (ChildNotification × Long abi)) : Quiet sys (sys.pop child event arg rest) :=
  ⟨⟨[.installed child event (throughUint32 arg)], rfl, by simp [Effect.isQuiet]⟩, rfl,
    fun _ => Iff.rfl, rfl⟩

/-- So is observing a new thread. -/
theorem quiet_observe {pid : Pid} (hunknown : sys.childStates pid = none) :
    Quiet sys (sys.observe pid) := by
  refine ⟨⟨[.observed pid], rfl, by simp [Effect.isQuiet]⟩, rfl, ?_, rfl⟩
  intro child
  by_cases hchild : child = pid
  · simp [observe, hchild, hunknown]
  · simp [observe, hchild]

/-- So is entering and leaving a system call. -/
theorem quiet_setInSyscall (pid : Pid) (inSyscall : Bool) :
    Quiet sys (sys.setInSyscall pid inSyscall) :=
  ⟨⟨[], (List.append_nil _).symm, by simp⟩, rfl, fun _ => Iff.rfl, rfl⟩

/-- So is intercepting an exit. -/
theorem quiet_interceptExit (pid : Pid) (regs : Regs abi) :
    Quiet sys (sys.interceptExit pid regs) :=
  ⟨⟨[.replaced pid { regs with origAx := abi.sysGetpid }], rfl, by simp [Effect.isQuiet]⟩, rfl,
    fun _ => Iff.rfl, rfl⟩

/-- So is leaving the intercepted call. -/
theorem quiet_setExitingHandled (pid : Pid) : Quiet sys (sys.setExitingHandled pid) :=
  ⟨⟨[], (List.append_nil _).symm, by simp⟩, rfl, fun _ => Iff.rfl, rfl⟩

/-- So is a request. -/
theorem quiet_requested (regs : Regs abi) : Quiet sys (sys.requested stop regs) :=
  (quiet_record (by simp [Effect.isQuiet])).trans (quiet_queueNotification _ _ _ _)

/-- So is a notification of the parent. -/
theorem quiet_notified (regs : Regs abi) : Quiet sys (sys.notified stop regs) := by
  rcases notified_cases sys stop regs with ⟨_, heq⟩ | ⟨_, _, heq⟩ | ⟨_, _, heq⟩
  · rw [heq]
    exact Quiet.refl sys
  · rw [heq]
    exact quiet_requested regs
  · rw [heq]
    exact quiet_record (by simp [Effect.isQuiet])

/-- So is the report of a stop. -/
theorem quiet_reportedByKernel : Quiet sys (sys.reportedByKernel stop) := by
  refine ⟨⟨[], by simp, by simp⟩, ?_, ?_, ?_⟩
  · rw [reportedByKernel_toParent]
  · intro pid
    rw [reportedByKernel_toParent]
  · rw [reportedByKernel_toParent]

/-! ## Steps of the registers -/

/-- A thread leaves the call that replaced its exit call while the notification
system is not ready. -/
def LeavesExitEarly (sys : System abi) : Input abi → Prop
  | .created _ => False
  | .reported stop =>
      sys.notificationSystemReady = false ∧ stop.isSyscall = true ∧
        sys.childStates stop.pid ≠ none ∧
        (sys.childInSyscall stop.pid).getD false = true ∧ sys.childExiting stop.pid = some 2

/-- What one reaction does to the registers of the threads. -/
inductive RegisterStep (sys : System abi) (stop : Stop abi) : System abi → Prop where
  | quiet {sys' : System abi} (h : Quiet sys sys') : RegisterStep sys stop sys'
  /-- The stopped thread is diverted. -/
  | diverted {mid sys' : System abi} {event : ChildNotification} {arg : Long abi}
      {saved : Regs abi} (hbefore : Quiet sys mid) (hsaved : SavedRegs mid stop saved)
      (hready : sys.notificationSystemReady = true ∨
        sys.childStates stop.pid = some .processingNotification ∨
        LeavesExitEarly sys (.reported stop))
      (hafter : Quiet (mid.divert stop event arg saved) sys') : RegisterStep sys stop sys'
  /-- The last notification is processed. -/
  | restored (hstate : sys.childStates stop.pid = some .processingNotification)
      (hempty : sys.queueOf stop.pid = []) : RegisterStep sys stop (sys.restore stop.pid)
  | forgotten {sys' : System abi} (hafter : Quiet (sys.forget stop.pid) sys') :
      RegisterStep sys stop sys'
  | started {regs : Regs abi} (hready : sys.notificationSystemReady = false) :
      RegisterStep sys stop (sys.startup regs)

/-- Taking a notification from the queue diverts the thread. -/
theorem Installed.registerStep {left : System abi} (hbefore : Quiet sys mid)
    (hready : sys.notificationSystemReady = true ∨
      sys.childStates stop.pid = some .processingNotification ∨
      LeavesExitEarly sys (.reported stop))
    (hinstalled : Installed mid stop left) (hafter : Quiet left sys') :
    RegisterStep sys stop sys' := by
  cases hinstalled with
  | @intro event arg rest saved hqueue hsaved =>
      exact .diverted (hbefore.trans (quiet_pop stop.pid event arg rest)) hsaved hready hafter

/-- Every reaction does one thing with the registers, or nothing. -/
theorem Reaction.registerStep (h : Reaction sys stop sys') : RegisterStep sys stop sys' := by
  cases h with
  | gone => exact .quiet (Quiet.refl sys)
  | threadExited => exact .forgotten (quiet_queueNotification _ _ _ _)
  | terminated => exact .quiet (Quiet.refl sys)
  | newThread _ _ _ hunknown hready hsaved =>
      exact .diverted (quiet_observe hunknown) hsaved (Or.inl hready) (Quiet.refl _)
  | newThreadEarly _ _ _ hunknown _ =>
      exact .quiet ((quiet_observe hunknown).trans (quiet_push _ _ _))
  | syscallEntered => exact .quiet (quiet_setInSyscall _ _)
  | exitIntercepted =>
      exact .quiet ((quiet_setInSyscall _ _).trans (quiet_interceptExit _ _))
  | syscallLeft => exact .quiet (quiet_setInSyscall _ _)
  | exitLeft hsyscall hknown hin hexiting hinstalled =>
      have hready : sys.notificationSystemReady = true ∨
          sys.childStates stop.pid = some .processingNotification ∨
          LeavesExitEarly sys (.reported stop) := by
        by_cases hready : sys.notificationSystemReady = true
        · exact Or.inl hready
        · have hnot : sys.notificationSystemReady = false := by simpa using hready
          exact Or.inr (Or.inr ⟨hnot, hsyscall, hknown, hin, hexiting⟩)
      exact hinstalled.registerStep ((quiet_setInSyscall _ _).trans (quiet_push _ _ _)) hready
        (quiet_setExitingHandled _)
  | ignored => exact .quiet (Quiet.refl sys)
  | started _ _ _ _ _ hready => exact .started hready
  | trapped => exact .quiet (quiet_notified _)
  | trappedDelivered _ _ _ hready hinstalled =>
      rw [(quiet_notified _).ready] at hready
      exact hinstalled.registerStep (quiet_notified _) (Or.inl hready) (Quiet.refl _)
  | processingNext _ hstate _ _ _ hinstalled =>
      exact hinstalled.registerStep (Quiet.refl sys) (Or.inr (Or.inl hstate)) (Quiet.refl _)
  | processingDone _ hstate _ _ _ hempty => exact .restored hstate hempty
  | processingRequested => exact .quiet (quiet_requested _)
  | processingIgnored => exact .quiet (Quiet.refl sys)

/-- A quiet change extends the log. -/
theorem Quiet.log_extends (h : Quiet sys sys') : sys.log <+: sys'.log := by
  rcases h.log with ⟨effects, hlog, _⟩
  exact ⟨effects, hlog.symm⟩

/-- So does a change of registers. -/
theorem RegisterStep.log_extends (h : RegisterStep sys stop sys') : sys.log <+: sys'.log := by
  cases h with
  | quiet hquiet => exact hquiet.log_extends
  | diverted hbefore _ _ hafter =>
      exact hbefore.log_extends.trans ((List.prefix_append _ _).trans hafter.log_extends)
  | restored => exact List.prefix_append _ _
  | forgotten hafter => exact (List.prefix_append _ _).trans hafter.log_extends
  | started => exact List.prefix_append _ _

/-- Resuming a thread is quiet. -/
theorem quiet_resumed {effects : List (Effect abi)}
    (heffects : ∀ effect ∈ effects, ∃ sendSig, effect = .resumed stop.pid sendSig) :
    Quiet sys (sys.record effects) := by
  apply quiet_record
  intro effect heffect
  rcases heffects effect heffect with ⟨sendSig, rfl⟩
  rfl

/-- A step only adds to the log. -/
theorem step_log_extends {input : Input abi} (hstep : sys.step input = .ok sys') :
    sys.log <+: sys'.log := by
  rcases step_cases hstep with
    ⟨pid, _, rfl⟩ | ⟨stop, reacted, effects, rfl, _, hreaction, rfl, _⟩
  · exact List.prefix_rfl
  · have hreacted := hreaction.registerStep.log_extends
    rw [reportedByKernel_log] at hreacted
    exact hreacted.trans (List.prefix_append _ _)

end System
end ParentProcess
end Roofline
