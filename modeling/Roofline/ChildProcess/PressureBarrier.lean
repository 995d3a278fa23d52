import Mathlib.Algebra.BigOperators.Group.List.Basic
import Mathlib.Logic.Function.Basic
import Roofline.Library.Integers
import Roofline.Library.Runs

/-!
# The pressure barrier

A thread that waits at the barrier adds its pressure under a spin lock.  If the threshold has been
reached, it opens the barrier after it has released the lock.  Then it spins until the barrier is
open.  The model has any number of threads, which may come back after they have left, and calls
of {lit}`open`; they interleave at every access to the lock and to the members.

Main results:

- Theorem {lit}`KeepsPressure.step`: what each step keeps, whoever makes it.
- Theorem {lit}`opensAtThreshold`: no thread leaves too early, and after the threads that are
  about to open have done so, the barrier is open.
-/

namespace Roofline
namespace ChildProcess
namespace PressureBarrier

open Integers Runs

/-! ## States and steps -/

/-- An {lit}`int` that is not negative. -/
abbrev Pressure := { p : Nat // p < 2 ^ 31 }

/-- Where a thread is in {lit}`wait`. -/
inductive Phase
  | idle
  | locked (pressure : Pressure)
  | added
  | checked (doOpen : Bool)
  | opening
  | spinning
deriving DecidableEq

section Model

variable (Thread : Type)

/-- The fields of the barrier, where each thread is, and what has been called. -/
structure State where
  phase : Thread → Phase
  spinLock : Option Thread
  barrierClosed : Bool
  pressure : Signed 32
  /-- The pressures of the threads that have taken the lock. -/
  entered : List Pressure
  /-- {lit}`open` has been called. -/
  opened : Bool

/-- The steps of the threads that wait, and the call of {lit}`open`. -/
inductive Label
  | lock (x : Thread) (pressure : Pressure)
  | add (x : Thread)
  | check (x : Thread)
  | unLock (x : Thread)
  | write (x : Thread)
  | spin (x : Thread)
  | leave (x : Thread)
  | open

end Model

variable {Thread : Type}

/-- The constructor of the barrier. -/
def initial : State Thread where
  phase _ := .idle
  spinLock := none
  barrierClosed := true
  pressure := Signed.wrap 32 0
  entered := []
  opened := false

section Step

variable [DecidableEq Thread] (threshold : Signed 32)

/-- A thread goes on to a phase. -/
def State.setPhase (s : State Thread) (x : Thread) (phase : Phase) : State Thread :=
  { s with phase := Function.update s.phase x phase }

/-- One step; a thread that is not where the step begins is blocked. -/
def step (s : State Thread) : Label Thread → Except Blocked (State Thread)
  | .lock x pressure =>
      match s.phase x, s.spinLock with
      | .idle, none => .ok { s.setPhase x (.locked pressure) with
          spinLock := some x
          entered := s.entered ++ [pressure] }
      | _, _ => .error .blocked
  | .add x =>
      match s.phase x with
      | .locked pressure => .ok { s.setPhase x .added with
          pressure := Signed.wrap 32 (s.pressure.val + pressure.val) }
      | _ => .error .blocked
  | .check x =>
      match s.phase x with
      | .added => .ok (s.setPhase x (.checked
          (s.barrierClosed && decide (threshold.val ≤ s.pressure.val))))
      | _ => .error .blocked
  | .unLock x =>
      match s.phase x with
      | .checked doOpen => .ok { s.setPhase x (if doOpen then .opening else .spinning) with
          spinLock := none }
      | _ => .error .blocked
  | .write x =>
      match s.phase x with
      | .opening => .ok { s.setPhase x .spinning with barrierClosed := false }
      | _ => .error .blocked
  | .spin x =>
      match s.phase x, s.barrierClosed with
      | .spinning, true => .ok s
      | _, _ => .error .blocked
  | .leave x =>
      match s.phase x, s.barrierClosed with
      | .spinning, false => .ok (s.setPhase x .idle)
      | _, _ => .error .blocked
  | .open => .ok { s with barrierClosed := false, opened := true }

/-- What each step does, and when it can be made. -/
inductive Steps (s : State Thread) : Label Thread → State Thread → Prop
  | lock {x : Thread} {pressure : Pressure} (hphase : s.phase x = .idle)
      (hlock : s.spinLock = none) :
      Steps s (.lock x pressure) { s.setPhase x (.locked pressure) with
        spinLock := some x
        entered := s.entered ++ [pressure] }
  | add {x : Thread} {pressure : Pressure} (hphase : s.phase x = .locked pressure) :
      Steps s (.add x) { s.setPhase x .added with
        pressure := Signed.wrap 32 (s.pressure.val + pressure.val) }
  | check {x : Thread} (hphase : s.phase x = .added) :
      Steps s (.check x) (s.setPhase x (.checked
        (s.barrierClosed && decide (threshold.val ≤ s.pressure.val))))
  | unLock {x : Thread} {doOpen : Bool} (hphase : s.phase x = .checked doOpen) :
      Steps s (.unLock x) { s.setPhase x (if doOpen then .opening else .spinning) with
        spinLock := none }
  | write {x : Thread} (hphase : s.phase x = .opening) :
      Steps s (.write x) { s.setPhase x .spinning with barrierClosed := false }
  | spin {x : Thread} (hphase : s.phase x = .spinning) (hclosed : s.barrierClosed = true) :
      Steps s (.spin x) s
  | leave {x : Thread} (hphase : s.phase x = .spinning) (hopen : s.barrierClosed = false) :
      Steps s (.leave x) (s.setPhase x .idle)
  | open : Steps s .open { s with barrierClosed := false, opened := true }

/-- The step function takes exactly the steps of the relation. -/
theorem step_eq_ok_iff {threshold : Signed 32} {s s' : State Thread} {label : Label Thread} :
    step threshold s label = .ok s' ↔ Steps threshold s label s' := by
  constructor
  · intro h
    cases label with
    | lock x pressure =>
        simp only [step] at h
        split at h
        · rename_i hphase hlock
          cases h
          exact .lock hphase hlock
        · cases h
    | add x =>
        simp only [step] at h
        split at h
        · rename_i hphase
          cases h
          exact .add hphase
        · cases h
    | check x =>
        simp only [step] at h
        split at h
        · rename_i hphase
          cases h
          exact .check hphase
        · cases h
    | unLock x =>
        simp only [step] at h
        split at h
        · rename_i hphase
          cases h
          exact .unLock hphase
        · cases h
    | write x =>
        simp only [step] at h
        split at h
        · rename_i hphase
          cases h
          exact .write hphase
        · cases h
    | spin x =>
        simp only [step] at h
        split at h
        · rename_i hphase hclosed
          cases h
          exact .spin hphase hclosed
        · cases h
    | leave x =>
        simp only [step] at h
        split at h
        · rename_i hphase hopen
          cases h
          exact .leave hphase hopen
        · cases h
    | «open» =>
        cases h
        exact .open
  · intro h
    cases h <;> simp [step, *]

end Step

/-! ## What the pressure says -/

section Keeping

/-- The thread holds the lock. -/
def Phase.inSection : Phase → Bool
  | locked _ => true
  | added => true
  | checked _ => true
  | _ => false

/-- What a thread that holds the lock is still to add. -/
def Phase.pending : Phase → Nat
  | locked pressure => pressure.val
  | _ => 0

/-- The thread has yet to compare the pressure with the threshold. -/
def Phase.comparing : Phase → Bool
  | locked _ => true
  | added => true
  | _ => false

/-- The thread is to open the barrier. -/
def Phase.opens : Phase → Bool
  | checked doOpen => doOpen
  | opening => true
  | _ => false

/-- The sum of the pressures of the threads that have entered. -/
def State.sum (s : State Thread) : Nat :=
  (s.entered.map Subtype.val).sum

/-- What the thread that holds the lock is still to add. -/
def State.pending (s : State Thread) : Nat :=
  match s.spinLock with
  | some x => (s.phase x).pending
  | none => 0

/-- The pressure is the sum of what has been added.  Who opens has seen that it has reached the
threshold; and once all who have entered have compared it with the threshold, the barrier is open
or one of them opens it. -/
structure KeepsPressure (threshold : Signed 32) (s : State Thread) : Prop where
  holds : ∀ x, (s.phase x).inSection = true ↔ s.spinLock = some x
  pressure : s.pressure = Signed.wrap 32 ((s.sum : Int) - s.pending)
  opens : ∀ x, (s.phase x).opens = true → threshold.val ≤ s.sum
  isOpen : s.barrierClosed = false → threshold.val ≤ s.sum ∨ s.opened = true
  reached : s.entered ≠ [] → threshold.val ≤ s.sum → s.sum < 2 ^ 31 →
    (∀ x, (s.phase x).comparing = false) →
      s.barrierClosed = false ∨ ∃ x, (s.phase x).opens = true

variable {threshold : Signed 32} {s s' : State Thread}

/-- The invariant holds of a barrier that nobody has entered. -/
theorem keepsPressure_initial : KeepsPressure threshold (initial : State Thread) where
  holds x := by simp [initial, Phase.inSection]
  pressure := rfl
  opens x h := by cases h
  isOpen h := by cases h
  reached h := absurd rfl h

/-- What is pending is pending in the thread that holds the lock. -/
theorem pending_of_holder {x : Thread} (hlock : s.spinLock = some x) :
    s.pending = (s.phase x).pending := by
  rw [State.pending, hlock]

/-- What a thread that has taken the lock and added its pressure compares with the threshold. -/
theorem KeepsPressure.pressure_of_added (h : KeepsPressure threshold s) {x : Thread}
    (hphase : s.phase x = .added) : s.pressure = Signed.wrap 32 s.sum := by
  have hlock := (h.holds x).mp (by rw [hphase]; rfl)
  have hpressure := h.pressure
  rw [pending_of_holder hlock, hphase] at hpressure
  rw [hpressure]
  simp [Phase.pending]

variable [DecidableEq Thread] {label : Label Thread}

/-- The phase of the thread that has gone on. -/
@[simp] theorem phase_setPhase_self (x : Thread) (phase : Phase) :
    (s.setPhase x phase).phase x = phase :=
  Function.update_self _ _ _

/-- The phases of the other threads. -/
theorem phase_setPhase_of_ne {x y : Thread} (h : y ≠ x) (phase : Phase) :
    (s.setPhase x phase).phase y = s.phase y :=
  Function.update_of_ne h _ _

/-- A thread that does not take or release the lock. -/
theorem KeepsPressure.holds_setPhase (h : KeepsPressure threshold s) {x : Thread} {phase : Phase}
    (hsame : phase.inSection = (s.phase x).inSection) (y : Thread) :
    ((s.setPhase x phase).phase y).inSection = true ↔ s.spinLock = some y := by
  by_cases hy : y = x
  · subst hy
    rw [phase_setPhase_self, hsame]
    exact h.holds y
  · rw [phase_setPhase_of_ne hy]
    exact h.holds y

/-- A thread that does not hold the lock changes nothing that is pending. -/
theorem KeepsPressure.pending_setPhase (h : KeepsPressure threshold s) {x : Thread}
    (hphase : (s.phase x).inSection = false) (phase : Phase) :
    (s.setPhase x phase).pending = s.pending := by
  unfold State.pending
  change (match s.spinLock with | some y => ((s.setPhase x phase).phase y).pending | none => 0) = _
  cases hlock : s.spinLock with
  | none => rfl
  | some y =>
      have hy : y ≠ x := by
        rintro rfl
        rw [(h.holds y).mpr hlock] at hphase
        cases hphase
      dsimp only
      rw [phase_setPhase_of_ne hy]

/-- Whoever opens afterwards did so before, or is this thread. -/
theorem opens_setPhase {x y : Thread} {phase : Phase}
    (h : ((s.setPhase x phase).phase y).opens = true) :
    y = x ∧ phase.opens = true ∨ (s.phase y).opens = true := by
  by_cases hy : y = x
  · subst hy
    rw [phase_setPhase_self] at h
    exact .inl ⟨rfl, h⟩
  · rw [phase_setPhase_of_ne hy] at h
    exact .inr h

/-- Every step keeps the lock with the thread that is in the section. -/
theorem KeepsPressure.step_holds (h : KeepsPressure threshold s)
    (hstep : Steps threshold s label s') (y : Thread) :
    (s'.phase y).inSection = true ↔ s'.spinLock = some y := by
  cases hstep with
  | @lock x pressure hphase hlock =>
      change ((s.setPhase x _).phase y).inSection = true ↔ some x = some y
      by_cases hy : y = x
      · subst hy
        simp [Phase.inSection]
      · have hnone := mt (h.holds y).mp (by simp [hlock])
        simp [phase_setPhase_of_ne hy, hnone, Ne.symm hy]
  | add hphase => exact h.holds_setPhase (by rw [hphase]; rfl) y
  | check hphase => exact h.holds_setPhase (by rw [hphase]; rfl) y
  | @unLock x doOpen hphase =>
      have hlock := (h.holds x).mp (by rw [hphase]; rfl)
      change ((s.setPhase x _).phase y).inSection = true ↔ none = some y
      by_cases hy : y = x
      · subst hy
        cases doOpen <;> simp [Phase.inSection]
      · have hnone := mt (h.holds y).mp (by simp [hlock, Ne.symm hy])
        simp [phase_setPhase_of_ne hy, hnone]
  | write hphase => exact h.holds_setPhase (by rw [hphase]; rfl) y
  | spin => exact h.holds y
  | leave hphase => exact h.holds_setPhase (by rw [hphase]; rfl) y
  | «open» => exact h.holds y

/-- Every step keeps the pressure the sum of what has been added. -/
theorem KeepsPressure.step_pressure (h : KeepsPressure threshold s)
    (hstep : Steps threshold s label s') :
    s'.pressure = Signed.wrap 32 ((s'.sum : Int) - s'.pending) := by
  have hpressure := h.pressure
  cases hstep with
  | @lock x pressure hphase hlock =>
      have hbefore : s.pending = 0 := by
        rw [State.pending, hlock]
      change s.pressure = Signed.wrap 32
        ((((s.entered ++ [pressure]).map Subtype.val).sum : Nat) -
          (((s.setPhase x (.locked pressure)).phase x).pending : Nat))
      rw [hpressure, hbefore, phase_setPhase_self]
      simp [State.sum, Phase.pending]
  | @add x pressure hphase =>
      have hlock := (h.holds x).mp (by rw [hphase]; rfl)
      rw [pending_of_holder hlock, hphase] at hpressure
      change Signed.wrap 32 (s.pressure.val + pressure.val) = Signed.wrap 32
        ((s.sum : Int) - (s.setPhase x .added).pending)
      rw [pending_of_holder (s := s.setPhase x .added) hlock, phase_setPhase_self, hpressure,
        Signed.wrap_add]
      simp [Phase.pending]
  | @check x hphase =>
      have hlock := (h.holds x).mp (by rw [hphase]; rfl)
      rw [pending_of_holder hlock, hphase] at hpressure
      rw [pending_of_holder (s := s.setPhase x _) hlock, phase_setPhase_self]
      exact hpressure
  | @unLock x doOpen hphase =>
      have hlock := (h.holds x).mp (by rw [hphase]; rfl)
      rw [pending_of_holder hlock, hphase] at hpressure
      exact hpressure
  | @write x hphase =>
      have hpending := h.pending_setPhase (x := x) (by rw [hphase]; rfl) .spinning
      change s.pressure = Signed.wrap 32 ((s.sum : Int) - (s.setPhase x .spinning).pending)
      rw [hpending]
      exact hpressure
  | spin => exact hpressure
  | @leave x hphase hopen =>
      have hpending := h.pending_setPhase (x := x) (by rw [hphase]; rfl) .idle
      rw [hpending]
      exact hpressure
  | «open» => exact hpressure

/-- Whoever opens the barrier after a step has seen the threshold reached. -/
theorem KeepsPressure.step_opens (h : KeepsPressure threshold s)
    (hstep : Steps threshold s label s') (y : Thread) (hopens : (s'.phase y).opens = true) :
    threshold.val ≤ s'.sum := by
  cases hstep with
  | @lock x pressure hphase hlock =>
      rcases opens_setPhase hopens with ⟨-, hnew⟩ | hold
      · cases hnew
      · have hsum := h.opens y hold
        have hgrows : s.sum ≤ ((s.entered ++ [pressure]).map Subtype.val).sum := by
          simp [State.sum]
        change threshold.val ≤ (((s.entered ++ [pressure]).map Subtype.val).sum : Nat)
        omega
  | add hphase =>
      rcases opens_setPhase hopens with ⟨-, hnew⟩ | hold
      · cases hnew
      · exact h.opens y hold
  | @check x hphase =>
      rcases opens_setPhase hopens with ⟨-, hnew⟩ | hold
      · rw [Phase.opens, Bool.and_eq_true, decide_eq_true_eq, h.pressure_of_added hphase] at hnew
        exact Int.le_trans hnew.2 (Signed.wrap_le (Int.natCast_nonneg _))
      · exact h.opens y hold
  | @unLock x doOpen hphase =>
      rcases opens_setPhase hopens with ⟨-, hnew⟩ | hold
      · cases doOpen with
        | false => cases hnew
        | true => exact h.opens x (by rw [hphase]; rfl)
      · exact h.opens y hold
  | write hphase =>
      rcases opens_setPhase hopens with ⟨-, hnew⟩ | hold
      · cases hnew
      · exact h.opens y hold
  | spin => exact h.opens y hopens
  | leave hphase =>
      rcases opens_setPhase hopens with ⟨-, hnew⟩ | hold
      · cases hnew
      · exact h.opens y hold
  | «open» => exact h.opens y hopens

/-- If the barrier is open after a step, the threshold is reached or it was opened by a call. -/
theorem KeepsPressure.step_isOpen (h : KeepsPressure threshold s)
    (hstep : Steps threshold s label s') (hopen : s'.barrierClosed = false) :
    threshold.val ≤ s'.sum ∨ s'.opened = true := by
  cases hstep with
  | @lock x pressure hphase hlock =>
      have hgrows : s.sum ≤ ((s.entered ++ [pressure]).map Subtype.val).sum := by
        simp [State.sum]
      refine (h.isOpen hopen).imp_left fun hsum => ?_
      change threshold.val ≤ (((s.entered ++ [pressure]).map Subtype.val).sum : Nat)
      omega
  | write hphase => exact .inl (h.opens _ (by rw [hphase]; rfl))
  | «open» => exact .inr rfl
  | _ => exact h.isOpen hopen

/-- After a step by which no thread is left comparing, the one that compared last has seen the
whole sum. -/
theorem KeepsPressure.step_reached (h : KeepsPressure threshold s)
    (hstep : Steps threshold s label s') (hentered : s'.entered ≠ [])
    (hsum : threshold.val ≤ s'.sum) (hrange : s'.sum < 2 ^ 31)
    (hcompared : ∀ x, (s'.phase x).comparing = false) :
    s'.barrierClosed = false ∨ ∃ x, (s'.phase x).opens = true := by
  -- a thread other than the one that makes the step is where it was
  have hothers : ∀ (x : Thread) (phase : Phase), (s.phase x).comparing = false →
      (∀ y, ((s.setPhase x phase).phase y).comparing = false) →
      ∀ y, (s.phase y).comparing = false := by
    intro x phase hx hafter y
    by_cases hy : y = x
    · rwa [hy]
    · have hsame := hafter y
      rwa [phase_setPhase_of_ne hy] at hsame
  cases hstep with
  | @lock x pressure hphase hlock =>
      have hlocked := hcompared x
      change ((s.setPhase x (.locked pressure)).phase x).comparing = false at hlocked
      rw [phase_setPhase_self] at hlocked
      cases hlocked
  | @add x pressure hphase =>
      have hadded := hcompared x
      change ((s.setPhase x .added).phase x).comparing = false at hadded
      rw [phase_setPhase_self] at hadded
      cases hadded
  | @check x hphase =>
      cases hclosed : s.barrierClosed with
      | false => exact .inl hclosed
      | true =>
          refine .inr ⟨x, ?_⟩
          have hvalue : (Signed.wrap 32 (s.sum : Int)).val = s.sum :=
            Signed.wrap_of_mem (by omega) (by exact_mod_cast hrange) (by decide)
          have hreached : threshold.val ≤ s.sum := hsum
          rw [phase_setPhase_self, h.pressure_of_added hphase, hvalue]
          simp [Phase.opens, hreached]
  | @unLock x doOpen hphase =>
      have hbefore := hothers x _ (by rw [hphase]; rfl) hcompared
      rcases h.reached hentered hsum hrange hbefore with hopen | ⟨y, hopens⟩
      · exact .inl hopen
      · refine .inr ⟨y, ?_⟩
        change ((s.setPhase x _).phase y).opens = true
        by_cases hy : y = x
        · subst hy
          rw [hphase] at hopens
          obtain rfl : doOpen = true := hopens
          rw [phase_setPhase_self]
          rfl
        · rwa [phase_setPhase_of_ne hy]
  | write hphase => exact .inl rfl
  | spin => exact h.reached hentered hsum hrange hcompared
  | leave hphase hopen => exact .inl hopen
  | «open» => exact .inl rfl

/-- Every step keeps the invariant. -/
theorem KeepsPressure.step (h : KeepsPressure threshold s) (hstep : Steps threshold s label s') :
    KeepsPressure threshold s' where
  holds := h.step_holds hstep
  pressure := h.step_pressure hstep
  opens := h.step_opens hstep
  isOpen := h.step_isOpen hstep
  reached := h.step_reached hstep

end Keeping

/-! ## Every schedule -/

section Schedules

variable [DecidableEq Thread] {threshold : Signed 32} {s : State Thread}
  {schedule : List (Label Thread)}

/-- The invariant holds after every run. -/
theorem keepsPressure_of_run (hrun : Run (step threshold) initial schedule s) :
    KeepsPressure threshold s := by
  induction hrun with
  | start => exact keepsPressure_initial
  | next _ hstep ih => exact ih.step (step_eq_ok_iff.mp hstep)

/-- No thread leaves before the sum has reached the threshold or {lit}`open` was called.  Once a
thread has entered, the sum is in range and has reached the threshold, and no thread is between
taking the lock and opening, the barrier is open, and each thread that spins can leave. -/
theorem opensAtThreshold (hrun : Run (step threshold) initial schedule s) :
    (∀ x s', step threshold s (.leave x) = .ok s' →
      threshold.val ≤ s.sum ∨ s.opened = true) ∧
    (s.entered ≠ [] → threshold.val ≤ s.sum → s.sum < 2 ^ 31 →
      (∀ x, s.phase x = .idle ∨ s.phase x = .spinning) →
      s.barrierClosed = false ∧
        ∀ x, s.phase x = .spinning → ∃ s', step threshold s (.leave x) = .ok s') := by
  have hkeeps := keepsPressure_of_run hrun
  constructor
  · intro x s' hleave
    cases step_eq_ok_iff.mp hleave with
    | leave _ hopen => exact hkeeps.isOpen hopen
  · intro hentered hsum hrange hquiet
    have hcompared : ∀ x, (s.phase x).comparing = false := by
      intro x
      rcases hquiet x with hphase | hphase
      · rw [hphase]; rfl
      · rw [hphase]; rfl
    rcases hkeeps.reached hentered hsum hrange hcompared with hopen | ⟨x, hopens⟩
    · exact ⟨hopen, fun x hphase => ⟨_, step_eq_ok_iff.mpr (.leave hphase hopen)⟩⟩
    · rcases hquiet x with hphase | hphase
      · rw [hphase] at hopens
        cases hopens
      · rw [hphase] at hopens
        cases hopens

/-- Two threads with a pressure of 1 each; the second one opens while the first one spins. -/
def twoThreads : List (Label Bool) :=
  [.lock false ⟨1, by decide⟩, .add false, .check false, .unLock false, .spin false,
    .lock true ⟨1, by decide⟩, .add true, .check true, .unLock true, .spin false, .write true]

/-- Two threads reach the threshold, and the barrier is open. -/
theorem opensAtThreshold_twoThreads :
    ∃ s, Run (step (Signed.wrap 32 2)) initial twoThreads s ∧ s.barrierClosed = false := by
  have hrun := run_iff_exec.mpr (rfl : exec (step (Signed.wrap 32 2)) initial twoThreads = .ok _)
  refine ⟨_, hrun, ((opensAtThreshold hrun).2 (by decide) (by decide) (by decide) ?_).1⟩
  decide

/-- A threshold of 0 is reached before any thread has entered, while the barrier is closed. -/
theorem closed_initial :
    ¬∀ (threshold : Signed 32) (schedule : List (Label Bool)) (s : State Bool),
      Run (step threshold) initial schedule s → threshold.val ≤ s.sum →
      (∀ x, s.phase x = .idle ∨ s.phase x = .spinning) → s.barrierClosed = false := by
  intro h
  have hopen := h (Signed.wrap 32 0) [] initial .start (by decide) (fun _ => .inl rfl)
  cases hopen

end Schedules

end PressureBarrier
end ChildProcess
end Roofline
