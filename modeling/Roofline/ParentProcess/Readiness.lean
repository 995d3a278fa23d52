import Roofline.ParentProcess.Diversions

/-!
# No diversion before the startup notification

The address of the notification procedure is known from the startup notification
on.  This file says which steps divert a thread before that.

Main results:

- Theorem {lit}`divertedWhenReady_iff`: over every run, no thread is diverted before
  the notification system is ready exactly when no thread leaves the call that
  replaced its exit call before.
- Theorem {lit}`not_divertedWhenReady`: a helper thread that ends early is diverted to
  an address nobody has set.
-/

namespace Roofline
namespace ParentProcess
namespace System

open Runs

variable {abi : Abi} {sys mid sys' : System abi} {stop : Stop abi}

/-- Every diversion in the log was made when the notification system was ready. -/
def DivertedWhenReady (log : List (Effect abi)) : Prop :=
  ∀ pid event ready current written,
    .diverted pid event ready current written ∈ log → ready = true

/-- Nothing was diverted early, and so no thread processes a notification early. -/
structure ReadyFirst (sys : System abi) : Prop where
  diverted : DivertedWhenReady sys.log
  processing : sys.notificationSystemReady = false →
    ∀ pid, sys.childStates pid ≠ some .processingNotification

/-! ## Steps -/

/-- Two logs in which diversions are made when ready. -/
theorem divertedWhenReady_append {log effects : List (Effect abi)}
    (hlog : DivertedWhenReady log) (heffects : DivertedWhenReady effects) :
    DivertedWhenReady (log ++ effects) := by
  intro pid event ready current written hmem
  rcases List.mem_append.mp hmem with hmem | hmem
  · exact hlog pid event ready current written hmem
  · exact heffects pid event ready current written hmem

/-- Quiet effects make no diversion. -/
theorem divertedWhenReady_of_quiet {effects : List (Effect abi)}
    (hquiet : ∀ effect ∈ effects, effect.isQuiet = true) : DivertedWhenReady effects := by
  intro pid event ready current written hmem
  have hdiverted := hquiet _ hmem
  simp [Effect.isQuiet] at hdiverted

/-- A quiet change keeps the invariant. -/
theorem ReadyFirst.quiet (h : ReadyFirst sys) (hquiet : Quiet sys sys') : ReadyFirst sys' := by
  rcases hquiet.log with ⟨effects, hlog, heffects⟩
  constructor
  case diverted =>
    rw [hlog]
    exact divertedWhenReady_append h.diverted (divertedWhenReady_of_quiet heffects)
  case processing =>
    intro hready pid
    rw [hquiet.ready] at hready
    rw [ne_eq, hquiet.processing]
    exact h.processing hready pid

/-- Diverting a thread is fine once the notification system is ready. -/
theorem ReadyFirst.divert (h : ReadyFirst sys) (hready : sys.notificationSystemReady = true)
    (event : ChildNotification) (arg : Long abi) (saved : Regs abi) :
    ReadyFirst (sys.divert stop event arg saved) := by
  constructor
  case diverted =>
    apply divertedWhenReady_append h.diverted
    intro p e r c w hmem
    have heq := List.mem_singleton.mp hmem
    rw [Effect.diverted.injEq] at heq
    rw [heq.2.2.1, hready]
  case processing =>
    intro hnot
    have hready' : (sys.divert stop event arg saved).notificationSystemReady = true := hready
    simp [hready'] at hnot

/-- Restoring registers keeps it. -/
theorem ReadyFirst.restore (h : ReadyFirst sys) (pid : Pid) : ReadyFirst (sys.restore pid) := by
  refine ⟨divertedWhenReady_append h.diverted (by simp [DivertedWhenReady]), ?_⟩
  intro hready child
  by_cases hchild : child = pid
  · simp [System.restore, hchild]
  · simpa [System.restore, hchild] using h.processing hready child

/-- Forgetting a thread keeps it. -/
theorem ReadyFirst.forget (h : ReadyFirst sys) (pid : Pid) : ReadyFirst (sys.forget pid) := by
  refine ⟨divertedWhenReady_append h.diverted (by simp [DivertedWhenReady]), ?_⟩
  intro hready child
  by_cases hchild : child = pid
  · simp [System.forget, hchild]
  · simpa [System.forget, hchild] using h.processing hready child

/-- The first notification of the child keeps it. -/
theorem ReadyFirst.startup (h : ReadyFirst sys) (regs : Regs abi) :
    ReadyFirst (sys.startup regs) := by
  refine ⟨divertedWhenReady_append h.diverted (by simp [DivertedWhenReady]), ?_⟩
  intro hready
  simp [System.startup] at hready

/-- Every step of the registers but an early exit keeps the invariant. -/
theorem ReadyFirst.registerStep (h : ReadyFirst sys)
    (hearly : ¬LeavesExitEarly sys (.reported stop)) (hstep : RegisterStep sys stop sys') :
    ReadyFirst sys' := by
  cases hstep with
  | quiet hquiet => exact h.quiet hquiet
  | diverted hbefore hsaved hready hafter =>
      have hready' : sys.notificationSystemReady = true := by
        rcases hready with hready | hstate | hleaves
        · exact hready
        · by_contra hnot
          exact h.processing (by simpa using hnot) _ hstate
        · exact absurd hleaves hearly
      rw [← hbefore.ready] at hready'
      exact ((h.quiet hbefore).divert hready' _ _ _).quiet hafter
  | restored => exact h.restore _
  | forgotten hafter => exact (h.forget _).quiet hafter
  | started => exact h.startup _

/-- A step that lets nobody leave an exit call early keeps the invariant. -/
theorem ReadyFirst.step (h : ReadyFirst sys) {input : Input abi}
    (hearly : ¬LeavesExitEarly sys input) (hstep : sys.step input = .ok sys') :
    ReadyFirst sys' := by
  rcases step_cases hstep with
    ⟨pid, _, rfl⟩ | ⟨stop, reacted, effects, rfl, _, hreaction, rfl, heffects⟩
  · exact ⟨h.diverted, h.processing⟩
  · have hearly' : ¬LeavesExitEarly (sys.reportedByKernel stop) (.reported stop) := by
      intro hleaves
      apply hearly
      simpa [LeavesExitEarly] using hleaves
    have hreacted := (h.quiet quiet_reportedByKernel).registerStep hearly' hreaction.registerStep
    exact hreacted.quiet (quiet_resumed heffects)

/-- A thread that leaves an exit call early is diverted at once. -/
theorem not_divertedWhenReady_of_leavesExitEarly {input : Input abi}
    (hleaves : LeavesExitEarly sys input) (hstep : sys.step input = .ok sys') :
    ¬DivertedWhenReady sys'.log := by
  rcases step_cases hstep with
    ⟨pid, rfl, _⟩ | ⟨stop, reacted, effects, rfl, _, hreaction, rfl, _⟩
  · exact absurd hleaves (by simp [LeavesExitEarly])
  · have hleaves' : LeavesExitEarly (sys.reportedByKernel stop) (.reported stop) := by
      simpa [LeavesExitEarly] using hleaves
    rcases hleaves' with ⟨hready, hsyscall, hknown, hin, hexiting⟩
    rcases hreaction.exitLeft_of hsyscall hknown hin hexiting with ⟨left, rfl, hinstalled⟩
    cases hinstalled with
    | intro hqueue hsaved =>
        intro hall
        have hflag := hall stop.pid _ (sys.reportedByKernel stop).notificationSystemReady _ _
          (List.mem_append_left _ (List.mem_append_right _ (List.mem_singleton.mpr rfl)))
        rw [hready] at hflag
        simp at hflag

/-- The invariant holds at the start. -/
theorem start_readyFirst (mainChild : Pid) (notifyAddress entry : Long abi) :
    ReadyFirst (start mainChild notifyAddress entry) where
  diverted := by simp [DivertedWhenReady, start]
  processing := by
    intro _ pid
    by_cases hpid : pid = mainChild
    · simp [start, hpid]
    · simp [start, hpid]

/-- Over every run of the trace loop: no thread's instruction pointer is set to the
notification procedure before the notification system is ready, exactly when no
thread leaves the call that replaced its exit call before. -/
theorem divertedWhenReady_iff {mainChild : Pid} {notifyAddress entry : Long abi}
    {inputs : List (Input abi)} (hrun : Run step (start mainChild notifyAddress entry) inputs sys) :
    Visits step (start mainChild notifyAddress entry) inputs
        (fun _ s => DivertedWhenReady s.log) ↔
      StepsMeet step (start mainChild notifyAddress entry)
        (fun _ s input => ¬LeavesExitEarly s input) inputs := by
  refine Run.visits_iff_stepsMeet (P := fun _ s => ReadyFirst s) ?_ ?_ ?_ ?_ hrun
  · exact start_readyFirst mainChild notifyAddress entry
  · intro _ s input s' _ hs hearly hstep
    exact hs.step hearly hstep
  · intro _ s hs
    exact hs.diverted
  · intro _ s input s' _ hleaves hstep
    exact not_divertedWhenReady_of_leavesExitEarly (not_not.mp hleaves) hstep

/-- A thread that starts and ends after the startup notification. -/
theorem divertedWhenReady_small :
    ∃ s, Run step smallStart
        [startsUp, firstStop 101, notifies 101 1 0, exitCall 101 0, exitCall 101 0] s ∧
      (Visits step smallStart
          [startsUp, firstStop 101, notifies 101 1 0, exitCall 101 0, exitCall 101 0]
          (fun _ s => DivertedWhenReady s.log) ↔
        StepsMeet step smallStart (fun _ s input => ¬LeavesExitEarly s input)
          [startsUp, firstStop 101, notifies 101 1 0, exitCall 101 0, exitCall 101 0]) := by
  have hrun : ∃ s, exec step smallStart
      [startsUp, firstStop 101, notifies 101 1 0, exitCall 101 0, exitCall 101 0] = .ok s :=
    ⟨_, rfl⟩
  rcases hrun with ⟨s, hexec⟩
  exact ⟨s, run_iff_exec.mpr hexec, divertedWhenReady_iff (run_iff_exec.mpr hexec)⟩

/-- A helper thread enters and leaves its exit call before the main child has sent
the startup notification. -/
theorem not_divertedWhenReady :
    ¬∀ (inputs : List (Input .x86_64)) (s : System .x86_64),
      Run step smallStart inputs s → DivertedWhenReady s.log := by
  intro hall
  have hdiverted : ∃ s, exec step smallStart
      [firstStop 101, exitCall 101 0, exitCall 101 0] = .ok s ∧
        .diverted 101 .threadStarted false (some (regsWith 0 0 0 0 60))
          ⟨0, 101, 0, 0, 0, 0, 60, []⟩ ∈ s.log := by
    refine ⟨_, rfl, ?_⟩
    decide
  rcases hdiverted with ⟨s, hexec, hmem⟩
  have hready := hall _ s (run_iff_exec.mpr hexec) _ _ _ _ _ hmem
  simp at hready

end System
end ParentProcess
end Roofline
