import Roofline.ParentProcess.Readiness
import Roofline.Library.Logs

/-!
# Notifications do not disturb the registers of a thread

A diverted thread shall continue where it was interrupted.  The interrupted
registers of a thread are defined from the log alone: those it had at the first
diversion since it was last restored or forgotten.  The parent keeps exactly these in
{lit}`childRegs` and writes exactly these back.

Main results:

- Theorem {lit}`Transparent.step`: every step keeps the saved registers equal to the
  interrupted ones.
- Theorem {lit}`registers_transparent`: the same for every run in which notifications
  are only set up after the startup notification.
-/

namespace Roofline
namespace ParentProcess
namespace System

open Runs Logs

variable {abi : Abi} {sys mid sys' : System abi} {stop : Stop abi}

/-! ## The interrupted registers -/

/-- How one effect changes the interrupted registers of a thread. -/
def interruptedAfter (pid : Pid) (interrupted : Option (Regs abi)) :
    Effect abi → Option (Regs abi)
  | .diverted child _ _ current _ =>
      if child = pid then interrupted.or current else interrupted
  | .restored child _ => if child = pid then none else interrupted
  | .forgotten child => if child = pid then none else interrupted
  | _ => interrupted

/-- The registers a thread had when it was first diverted since it was last running. -/
def interrupted (pid : Pid) (log : List (Effect abi)) : Option (Regs abi) :=
  log.foldl (interruptedAfter pid) none

/-- Quiet effects interrupt nothing. -/
theorem interrupted_append_of_quiet {log effects : List (Effect abi)}
    (hquiet : ∀ effect ∈ effects, effect.isQuiet = true) (pid : Pid) :
    interrupted pid (log ++ effects) = interrupted pid log := by
  apply summary_append_of_fixed
  intro effect heffect saved
  have h := hquiet effect heffect
  cases effect <;> simp_all [Effect.isQuiet, interruptedAfter]

/-- What is interrupted after one more effect. -/
theorem interrupted_append_singleton (pid : Pid) (log : List (Effect abi))
    (effect : Effect abi) :
    interrupted pid (log ++ [effect]) = interruptedAfter pid (interrupted pid log) effect := by
  simp [interrupted]

/-- What is restored are the interrupted registers. -/
def RestoresInterrupted (front : List (Effect abi)) : Effect abi → Prop
  | .restored pid regs => interrupted pid front = some regs
  | _ => True

/-- The saved registers are the interrupted ones, and exist while a thread processes
notifications; so far exactly the interrupted registers were written back. -/
structure Transparent (sys : System abi) : Prop where
  saved : ∀ pid, sys.childRegs pid = interrupted pid sys.log
  processing : ∀ pid, sys.childRegs pid ≠ none ↔
    sys.childStates pid = some .processingNotification
  restored : AtEach RestoresInterrupted sys.log

/-! ## Steps -/

/-- A quiet change keeps the invariant. -/
theorem Transparent.quiet (h : Transparent sys) (hquiet : Quiet sys sys') :
    Transparent sys' := by
  rcases hquiet.log with ⟨effects, hlog, heffects⟩
  constructor
  case saved =>
    intro pid
    rw [hquiet.childRegs, hlog, interrupted_append_of_quiet heffects]
    exact h.saved pid
  case processing =>
    intro pid
    rw [hquiet.childRegs, hquiet.processing]
    exact h.processing pid
  case restored =>
    rw [hlog, atEach_append]
    refine ⟨h.restored, atEach_of_forall ?_⟩
    intro front effect heffect
    have hq := heffects effect heffect
    cases effect <;> simp_all [Effect.isQuiet, RestoresInterrupted]

/-- The first diversion saves the registers of the thread, later ones keep them. -/
theorem Transparent.divert (h : Transparent sys) {saved : Regs abi}
    (hsaved : SavedRegs sys stop saved) (event : ChildNotification) (arg : Long abi) :
    Transparent (sys.divert stop event arg saved) := by
  constructor
  case saved =>
    intro pid
    change Function.update sys.childRegs stop.pid (some saved) pid =
      interrupted pid (sys.log ++ [_])
    rw [interrupted_append_singleton, ← h.saved pid]
    by_cases hpid : stop.pid = pid
    · rw [← hpid, Function.update_self]
      rcases hsaved with hold | ⟨hnone, hregs⟩
      · simp [interruptedAfter, hold]
      · simp [interruptedAfter, hnone, hregs]
    · rw [Function.update_of_ne (Ne.symm hpid)]
      simp [interruptedAfter, hpid]
  case processing =>
    intro pid
    by_cases hpid : pid = stop.pid
    · simp [System.divert, hpid]
    · simpa [System.divert, hpid] using h.processing pid
  case restored =>
    change AtEach RestoresInterrupted (sys.log ++ [_])
    rw [atEach_append, atEach_singleton]
    exact ⟨h.restored, trivial⟩

/-- With its registers a thread loses that it is interrupted. -/
theorem Transparent.saved_erased (h : Transparent sys) {pid : Pid} {effect : Effect abi}
    (heffect : ∀ child saved, interruptedAfter child saved effect =
      if pid = child then none else saved) (child : Pid) :
    Function.update sys.childRegs pid none child = interrupted child (sys.log ++ [effect]) := by
  rw [interrupted_append_singleton, heffect, ← h.saved child]
  by_cases hchild : pid = child
  · simp [hchild]
  · rw [Function.update_of_ne (Ne.symm hchild), if_neg hchild]

/-- Restoring a thread writes its interrupted registers back. -/
theorem Transparent.restore (h : Transparent sys) {pid : Pid} {saved : Regs abi}
    (hsaved : sys.childRegs pid = some saved) : Transparent (sys.restore pid) := by
  constructor
  case saved =>
    exact h.saved_erased fun _ _ => rfl
  case processing =>
    intro child
    by_cases hchild : child = pid
    · simp [System.restore, hchild]
    · simpa [System.restore, hchild] using h.processing child
  case restored =>
    change AtEach RestoresInterrupted (sys.log ++ [_])
    rw [atEach_append, atEach_singleton]
    refine ⟨h.restored, ?_⟩
    change interrupted pid (sys.log ++ []) = some ((sys.childRegs pid).getD _)
    rw [List.append_nil, ← h.saved pid, hsaved]
    rfl

/-- Forgetting a thread keeps it. -/
theorem Transparent.forget (h : Transparent sys) (pid : Pid) :
    Transparent (sys.forget pid) := by
  constructor
  case saved =>
    exact h.saved_erased fun _ _ => rfl
  case processing =>
    intro child
    by_cases hchild : child = pid
    · simp [System.forget, hchild]
    · simpa [System.forget, hchild] using h.processing child
  case restored =>
    change AtEach RestoresInterrupted (sys.log ++ [_])
    rw [atEach_append, atEach_singleton]
    exact ⟨h.restored, trivial⟩

/-- The startup notification touches no thread that processes notifications, because
there is none yet. -/
theorem Transparent.startup (h : Transparent sys) (hfirst : ReadyFirst sys)
    (hready : sys.notificationSystemReady = false) (regs : Regs abi) :
    Transparent (sys.startup regs) := by
  have hnone : ∀ pid, sys.childStates pid ≠ some .processingNotification :=
    hfirst.processing hready
  constructor
  case saved =>
    intro pid
    change sys.childRegs pid = interrupted pid (sys.log ++ [_])
    rw [interrupted_append_singleton]
    exact h.saved pid
  case processing =>
    intro pid
    change sys.childRegs pid ≠ none ↔ _
    rw [h.processing pid]
    refine ⟨fun hstate => absurd hstate (hnone pid), fun hstate => ?_⟩
    simp only [System.startup, Function.update_apply] at hstate
    split_ifs at hstate
    all_goals simp_all
  case restored =>
    change AtEach RestoresInterrupted (sys.log ++ [_])
    rw [atEach_append, atEach_singleton]
    exact ⟨h.restored, trivial⟩

/-- A change of registers keeps it. -/
theorem Transparent.registerStep (h : Transparent sys) (hfirst : ReadyFirst sys)
    (hstep : RegisterStep sys stop sys') : Transparent sys' := by
  cases hstep with
  | quiet hquiet => exact h.quiet hquiet
  | diverted hbefore hsaved _ hafter => exact ((h.quiet hbefore).divert hsaved _ _).quiet hafter
  | restored hstate _ =>
      have hregs := (h.processing stop.pid).mpr hstate
      rcases Option.ne_none_iff_exists'.mp hregs with ⟨saved, hsaved⟩
      exact h.restore hsaved
  | forgotten hafter => exact (h.forget _).quiet hafter
  | started hready => exact h.startup hfirst hready _

/-- Every step keeps it. -/
theorem Transparent.step (h : Transparent sys) (hfirst : ReadyFirst sys) {input : Input abi}
    (hstep : sys.step input = .ok sys') : Transparent sys' := by
  rcases step_cases hstep with
    ⟨pid, _, rfl⟩ | ⟨stop, reacted, effects, rfl, _, hreaction, rfl, heffects⟩
  · exact ⟨h.saved, h.processing, h.restored⟩
  · have hreacted := (h.quiet quiet_reportedByKernel).registerStep
      (hfirst.quiet quiet_reportedByKernel) hreaction.registerStep
    exact hreacted.quiet (quiet_resumed heffects)

/-! ## Runs -/

/-- The invariant holds at the start. -/
theorem start_transparent (mainChild : Pid) (notifyAddress entry : Long abi) :
    Transparent (start mainChild notifyAddress entry) where
  saved _ := rfl
  processing := by
    intro pid
    by_cases hpid : pid = mainChild
    · simp [start, hpid]
    · simp [start, hpid]
  restored := atEach_nil _

/-- A run that diverted nobody early keeps both invariants. -/
theorem transparent_of_divertedWhenReady {mainChild : Pid} {notifyAddress entry : Long abi}
    {inputs : List (Input abi)} (hrun : Run step (start mainChild notifyAddress entry) inputs sys)
    (hready : DivertedWhenReady sys.log) : ReadyFirst sys ∧ Transparent sys := by
  induction hrun with
  | start => exact ⟨start_readyFirst _ _ _, start_transparent _ _ _⟩
  | next hfront hstep ih =>
      have hbefore := ih fun pid event ready current written hmem =>
        hready pid event ready current written ((step_log_extends hstep).subset hmem)
      have hearly : ¬LeavesExitEarly _ _ := fun hleaves =>
        not_divertedWhenReady_of_leavesExitEarly hleaves hstep hready
      exact ⟨hbefore.1.step hearly hstep, hbefore.2.step hbefore.1 hstep⟩

/-- In every state that a run reaches in which notifications were only set up after
the startup notification: registers are saved for a thread exactly while it processes
notifications; they are the ones it had when it was first diverted since it was last
running; these were written back in every restoration so far; and they are written
back when the last pending notification reports that it is done. -/
theorem registers_transparent {mainChild : Pid} {notifyAddress entry : Long abi}
    {inputs : List (Input abi)} (hrun : Run step (start mainChild notifyAddress entry) inputs sys)
    (hready : DivertedWhenReady sys.log) :
    (∀ pid, sys.childRegs pid ≠ none ↔ sys.childStates pid = some .processingNotification) ∧
      (∀ pid, sys.childRegs pid = interrupted pid sys.log) ∧
      (∀ front pid regs back, sys.log = front ++ .restored pid regs :: back →
        interrupted pid front = some regs) ∧
      ∀ (stop : Stop abi) (regs : Regs abi) (sys' : System abi),
        stop.isTrap = true → stop.regs = some regs →
        sys.childStates stop.pid = some .processingNotification →
        regs.ip = sys.notifyAddress → regs.notification = some .processingDone →
        sys.queueOf stop.pid = [] → sys.step (.reported stop) = .ok sys' →
        ∃ saved resumption, interrupted stop.pid sys.log = some saved ∧
          sys'.log = sys.log ++ .restored stop.pid saved :: resumption ∧
          (∀ effect ∈ resumption, ∃ sendSig, effect = .resumed stop.pid sendSig) ∧
          sys'.childStates stop.pid = some .running := by
  rcases transparent_of_divertedWhenReady hrun hready with ⟨_, htransparent⟩
  refine ⟨htransparent.processing, htransparent.saved, ?_, ?_⟩
  · intro front pid regs back hsplit
    exact htransparent.restored front _ back hsplit
  · intro stop regs sys' htrap hregs hstate hip hdone hempty hstep
    rcases step_cases hstep with
      ⟨pid, hcreated, _⟩ | ⟨stop', reacted, effects, hreported, _, hreaction, rfl, heffects⟩
    · simp at hcreated
    · obtain rfl : stop = stop' := Input.reported.inj hreported
      have hrestored : reacted = (sys.reportedByKernel stop).restore stop.pid := by
        apply hreaction.processingDone_of htrap hregs
        · simpa using hstate
        · simpa using hip
        · exact hdone
        · simpa [queueOf] using hempty
      have hsaved := (htransparent.processing stop.pid).mpr hstate
      rcases Option.ne_none_iff_exists'.mp hsaved with ⟨saved, hsaved⟩
      refine ⟨saved, effects, ?_, ?_, heffects, ?_⟩
      · rw [← htransparent.saved, hsaved]
      · rw [hrestored]
        simp [record, System.restore, hsaved]
      · rw [hrestored]
        simp [record, System.restore]

/-- Thread 101 is told that it started and then interrupted twice more while it
processes notifications; at the end it continues at its first instruction. -/
theorem registers_transparent_small :
    ∃ s, exec step smallStart
        [startsUp, firstStop 101, notifies mainPid 2 101, notifies mainPid 2 101,
          notifies 101 1 0, notifies 101 1 0, notifies 101 1 0] = .ok s ∧
      .restored 101 (regsWith 0 0 0 0 0) ∈ s.log ∧
      ∀ front regs back, s.log = front ++ .restored 101 regs :: back →
        interrupted 101 front = some regs := by
  have hrun : ∃ s, exec step smallStart
      [startsUp, firstStop 101, notifies mainPid 2 101, notifies mainPid 2 101,
        notifies 101 1 0, notifies 101 1 0, notifies 101 1 0] = .ok s ∧
      .restored 101 (regsWith 0 0 0 0 0) ∈ s.log ∧
      (s.log.all fun effect => match effect with
        | .diverted _ _ ready _ _ => ready
        | _ => true) = true := by
    refine ⟨_, rfl, ?_⟩
    decide
  rcases hrun with ⟨s, hexec, hrestored, hall⟩
  have hready : DivertedWhenReady s.log := by
    intro pid event ready current written hmem
    exact List.all_eq_true.mp hall _ hmem
  refine ⟨s, hexec, hrestored, ?_⟩
  intro front regs back hsplit
  exact (registers_transparent (run_iff_exec.mpr hexec) hready).2.2.1 front 101 regs back hsplit

end System
end ParentProcess
end Roofline
