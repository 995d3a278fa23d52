import Mathlib.Logic.Function.Basic
import Roofline.Library.Runs

/-!
# Barriers on a condition variable

A thread that comes to a closed barrier waits on its condition variable, once: when
{lit}`pthread_cond_wait` returns, it does not look at the barrier again.  The wait may end because
of a broadcast, or spuriously.  The model has any number of threads; what each does under the
mutex is one step, which for a thread that wakes up begins when it has the mutex again.

Main results:

- Theorem {lit}`Consistent.step`: what is kept as long as no {lit}`waitIfClosed` wakes up
  spuriously.
- Theorem {lit}`returnsAfterOpen_iff`: in exactly these runs {lit}`waitIfClosed` returns only after
  {lit}`open` has been called.
-/

namespace Roofline
namespace ChildProcess
namespace Barrier

open Runs

/-! ## States and steps -/

/-- Where a thread is in {lit}`waitImp`; a broadcast signals those that wait. -/
inductive Phase
  | outside
  | waiting (waitAlways : Bool)
  | signalled (waitAlways : Bool)
deriving DecidableEq

/-- A waiting thread is signalled; others are not concerned. -/
def Phase.signal : Phase → Phase
  | waiting waitAlways => signalled waitAlways
  | phase => phase

section Model

variable (Thread : Type)

/-- The flag of the barrier, where each thread is, and who has come back. -/
structure State where
  barrierClosed : Bool
  phase : Thread → Phase
  /-- The threads whose calls of {lit}`waitIfClosed` have returned. -/
  returned : List Thread

/-- The calls of the methods, and the two ways to wake up. -/
inductive Label
  | waitImp (x : Thread) (waitAlways : Bool)
  | open
  | wakeUp (x : Thread)
  | spuriousWakeUp (x : Thread)

end Model

variable {Thread : Type}

/-- The constructor of the barrier. -/
def initial : State Thread where
  barrierClosed := true
  phase _ := .outside
  returned := []

section Step

variable [DecidableEq Thread]

/-- A thread goes on to a phase. -/
def State.setPhase (s : State Thread) (x : Thread) (phase : Phase) : State Thread :=
  { s with phase := Function.update s.phase x phase }

/-- The phases after one has been set. -/
@[simp] theorem phase_setPhase (s : State Thread) (x : Thread) (phase : Phase) :
    (s.setPhase x phase).phase = Function.update s.phase x phase :=
  rfl

/-- Setting a phase leaves the flag. -/
@[simp] theorem barrierClosed_setPhase (s : State Thread) (x : Thread) (phase : Phase) :
    (s.setPhase x phase).barrierClosed = s.barrierClosed :=
  rfl

/-- The end of {lit}`waitImp`. -/
def State.return (s : State Thread) (x : Thread) (waitAlways : Bool) : State Thread :=
  { s.setPhase x .outside with
    returned := if waitAlways then s.returned else s.returned ++ [x] }

/-- Returning from a call leaves the flag. -/
@[simp] theorem barrierClosed_return (s : State Thread) (x : Thread) (waitAlways : Bool) :
    (s.return x waitAlways).barrierClosed = s.barrierClosed :=
  rfl

/-- One step; a thread that is not where the step begins is blocked. -/
def step (s : State Thread) : Label Thread → Except Blocked (State Thread)
  | .waitImp x waitAlways =>
      match s.phase x with
      | .outside =>
          if s.barrierClosed || waitAlways then .ok (s.setPhase x (.waiting waitAlways))
          else .ok (s.return x waitAlways)
      | _ => .error .blocked
  | .open => .ok { s with
      barrierClosed := false
      phase := fun x => (s.phase x).signal }
  | .wakeUp x =>
      match s.phase x with
      | .signalled waitAlways => .ok (s.return x waitAlways)
      | _ => .error .blocked
  | .spuriousWakeUp x =>
      match s.phase x with
      | .waiting waitAlways => .ok (s.return x waitAlways)
      | _ => .error .blocked

/-- What each step does, and when it can be made. -/
inductive Steps (s : State Thread) : Label Thread → State Thread → Prop
  | wait {x : Thread} {waitAlways : Bool} (hphase : s.phase x = .outside)
      (hwait : s.barrierClosed = true ∨ waitAlways = true) :
      Steps s (.waitImp x waitAlways) (s.setPhase x (.waiting waitAlways))
  | pass {x : Thread} (hphase : s.phase x = .outside) (hopen : s.barrierClosed = false) :
      Steps s (.waitImp x false) (s.return x false)
  | open : Steps s .open { s with
      barrierClosed := false
      phase := fun x => (s.phase x).signal }
  | wakeUp {x : Thread} {waitAlways : Bool} (hphase : s.phase x = .signalled waitAlways) :
      Steps s (.wakeUp x) (s.return x waitAlways)
  | spuriousWakeUp {x : Thread} {waitAlways : Bool} (hphase : s.phase x = .waiting waitAlways) :
      Steps s (.spuriousWakeUp x) (s.return x waitAlways)

/-- The step function takes exactly the steps of the relation. -/
theorem step_eq_ok_iff {s s' : State Thread} {label : Label Thread} :
    step s label = .ok s' ↔ Steps s label s' := by
  constructor
  · intro h
    cases label with
    | waitImp x waitAlways =>
        simp only [step] at h
        split at h
        · rename_i hphase
          split at h
          · rename_i hwait
            cases h
            exact .wait hphase (Bool.or_eq_true _ _ ▸ hwait)
          · rename_i hpass
            rcases Bool.or_eq_false_iff.mp (Bool.eq_false_iff.mpr hpass) with ⟨hopen, rfl⟩
            cases h
            exact .pass hphase hopen
        · cases h
    | «open» =>
        cases h
        exact .open
    | wakeUp x =>
        simp only [step] at h
        split at h
        · rename_i hphase
          cases h
          exact .wakeUp hphase
        · cases h
    | spuriousWakeUp x =>
        simp only [step] at h
        split at h
        · rename_i hphase
          cases h
          exact .spuriousWakeUp hphase
        · cases h
  · intro h
    cases h <;> simp [step, *]

end Step

/-! ## Spurious wake-ups -/

section Consistency

/-- The step is not a spurious wake-up of a thread in {lit}`waitIfClosed`. -/
def NotSpurious (s : State Thread) : Label Thread → Prop
  | .spuriousWakeUp x => s.phase x ≠ .waiting false
  | _ => True

/-- Threads wait in {lit}`waitIfClosed` while the barrier is closed, and are signalled and return
once it is open. -/
structure Consistent (s : State Thread) : Prop where
  waiting : ∀ x, s.phase x = .waiting false → s.barrierClosed = true
  signalled : ∀ x waitAlways, s.phase x = .signalled waitAlways → s.barrierClosed = false
  returned : s.returned ≠ [] → s.barrierClosed = false

/-- The invariant holds of a closed barrier that nobody waits at. -/
theorem consistent_initial : Consistent (initial : State Thread) where
  waiting _ _ := rfl
  signalled x waitAlways h := by cases h
  returned h := absurd rfl h

variable [DecidableEq Thread] {s s' : State Thread} {label : Label Thread}

/-- Only {lit}`open` changes the flag. -/
theorem barrierClosed_of_steps (hstep : Steps s label s') (hlabel : label ≠ .open) :
    s'.barrierClosed = s.barrierClosed := by
  cases hstep with
  | «open» => exact absurd rfl hlabel
  | _ => rfl

/-- A thread returns that is not in {lit}`waitIfClosed`, or from an open barrier. -/
theorem Consistent.return (h : Consistent s) (x : Thread) {waitAlways : Bool}
    (hopen : waitAlways = false → s.barrierClosed = false) :
    Consistent (s.return x waitAlways) := by
  have hphase : ∀ y, (s.return x waitAlways).phase y = .outside ∨
      (s.return x waitAlways).phase y = s.phase y := by
    intro y
    by_cases hy : y = x
    · subst hy
      exact .inl (Function.update_self _ _ _)
    · exact .inr (Function.update_of_ne hy _ _)
  constructor
  case waiting =>
    intro y hy
    rcases hphase y with hout | hsame
    · rw [hout] at hy
      cases hy
    · exact h.waiting y (hsame ▸ hy)
  case signalled =>
    intro y always hy
    rcases hphase y with hout | hsame
    · rw [hout] at hy
      cases hy
    · exact h.signalled y always (hsame ▸ hy)
  case returned =>
    intro hreturned
    cases waitAlways with
    | true => exact h.returned hreturned
    | false => exact hopen rfl

/-- Every step that is no spurious wake-up keeps the invariant. -/
theorem Consistent.step (h : Consistent s) (hpermitted : NotSpurious s label)
    (hstep : Steps s label s') : Consistent s' := by
  cases hstep with
  | @wait x waitAlways hphase hwait =>
      constructor
      case waiting =>
        intro y hy
        by_cases hsame : y = x
        · subst hsame
          rw [phase_setPhase, Function.update_self] at hy
          cases hy
          simpa using hwait
        · rw [phase_setPhase, Function.update_of_ne hsame] at hy
          exact h.waiting y hy
      case signalled =>
        intro y always hy
        by_cases hsame : y = x
        · subst hsame
          rw [phase_setPhase, Function.update_self] at hy
          cases hy
        · rw [phase_setPhase, Function.update_of_ne hsame] at hy
          exact h.signalled y always hy
      case returned => exact h.returned
  | pass hphase hopen => exact h.return _ fun _ => hopen
  | «open» =>
      constructor
      case waiting =>
        intro y hy
        change (s.phase y).signal = .waiting false at hy
        cases hphase : s.phase y with
        | outside =>
            rw [hphase] at hy
            cases hy
        | waiting waitAlways =>
            rw [hphase] at hy
            cases hy
        | signalled waitAlways =>
            rw [hphase] at hy
            cases hy
      case signalled => exact fun _ _ _ => rfl
      case returned => exact fun _ => rfl
  | wakeUp hphase => exact h.return _ fun _ => h.signalled _ _ hphase
  | @spuriousWakeUp x waitAlways hphase =>
      refine h.return x fun hif => ?_
      rw [hif] at hphase
      exact absurd hphase hpermitted

/-- A thread in {lit}`waitIfClosed` that wakes up spuriously returns from a closed barrier. -/
theorem Consistent.closed_of_spurious (h : Consistent s) (hspurious : ¬NotSpurious s label)
    (hstep : Steps s label s') : s'.returned ≠ [] ∧ s'.barrierClosed = true := by
  cases hstep with
  | @spuriousWakeUp x waitAlways hphase =>
      have hwaiting : s.phase x = .waiting false := not_not.mp hspurious
      obtain rfl : waitAlways = false := by
        rw [hphase] at hwaiting
        exact Phase.waiting.inj hwaiting
      exact ⟨List.append_ne_nil_of_right_ne_nil _ (List.cons_ne_nil _ _), h.waiting x hwaiting⟩
  | _ => exact absurd trivial hspurious

end Consistency

/-! ## Every schedule -/

section Schedules

variable [DecidableEq Thread] {s : State Thread} {schedule : List (Label Thread)}

/-- {lit}`waitIfClosed` has returned only if {lit}`open` has been called. -/
def ReturnsAfterOpen (before : List (Label Thread)) (s : State Thread) : Prop :=
  s.returned ≠ [] → .open ∈ before

/-- The barrier is closed as long as nobody has opened it. -/
theorem closed_step {before : List (Label Thread)} {label : Label Thread} {s' : State Thread}
    (h : s.barrierClosed = true ↔ .open ∉ before) (hstep : Steps s label s') :
    s'.barrierClosed = true ↔ .open ∉ before ++ [label] := by
  cases hstep with
  | «open» => simp
  | _ => simpa using h

/-- {lit}`waitIfClosed` returns only after {lit}`open` has been called exactly in the runs in which
it never wakes up spuriously. -/
theorem returnsAfterOpen_iff (hrun : Run step initial schedule s) :
    Visits step initial schedule ReturnsAfterOpen ↔
      StepsMeet step initial (fun _ => NotSpurious) schedule := by
  refine Run.visits_iff_stepsMeet
    (P := fun before s => Consistent s ∧ (s.barrierClosed = true ↔ .open ∉ before))
    ⟨consistent_initial, by simp [initial]⟩ ?_ ?_ ?_ hrun
  · intro before s label s' _ h hpermitted hstep
    rw [step_eq_ok_iff] at hstep
    exact ⟨h.1.step hpermitted hstep, closed_step h.2 hstep⟩
  · intro before s h hreturned
    have hopen := h.1.returned hreturned
    by_contra hnever
    rw [h.2.mpr hnever] at hopen
    cases hopen
  · intro before s label s' h hspurious hstep hafter
    rw [step_eq_ok_iff] at hstep
    rcases h.1.closed_of_spurious hspurious hstep with ⟨hreturned, hclosed⟩
    exact (closed_step h.2 hstep).mp hclosed (hafter hreturned)

end Schedules

end Barrier
end ChildProcess
end Roofline
