import Mathlib.Data.List.Induction
import Mathlib.Tactic.Common

/-!
# Library - Finite runs of a failing step function

A program that reacts to a sequence of inputs is a function
{lit}`step : σ → ι → Except ε σ`; an error ends the program.  This file relates
the executable fold over an input list to an inductive run relation that grows
at its right end, and packages the induction over runs once.

Main results:

- Theorem {lit}`run_iff_exec`: the run relation is the executable fold.
- Theorem {lit}`Run.invariant`: a history-dependent property that one permitted
  step preserves holds at the end of every run whose steps are all permitted.
- Theorem {lit}`Run.always`: the same conclusion for every state on the way.
- Theorem {lit}`Run.visits_iff_stepsMeet`: if a step that is not permitted breaks
  the property at once, the permitted runs are exactly those which have it throughout.
-/

namespace Roofline
namespace Runs

variable {σ ι ε : Type*}

/-- The error of a step that cannot be made in a state. -/
inductive Blocked
  | blocked

/-- Feed a list of inputs to a step function, stopping at the first error. -/
def exec (step : σ → ι → Except ε σ) (s : σ) (inputs : List ι) : Except ε σ :=
  inputs.foldlM step s

/-- No input leaves the state. -/
@[simp] theorem exec_nil (step : σ → ι → Except ε σ) (s : σ) :
    exec step s [] = .ok s :=
  rfl

/-- The first input makes the first step. -/
@[simp] theorem exec_cons (step : σ → ι → Except ε σ) (s : σ) (i : ι)
    (inputs : List ι) :
    exec step s (i :: inputs) = (step s i).bind fun s' => exec step s' inputs :=
  rfl

/-- Inputs in two parts. -/
theorem exec_append (step : σ → ι → Except ε σ) (s : σ) (front back : List ι) :
    exec step s (front ++ back) =
      (exec step s front).bind fun s' => exec step s' back := by
  simp only [exec, List.foldlM_append]
  rfl

/-- {lit}`Run step s₀ inputs s`: starting in {lit}`s₀`, the inputs lead to {lit}`s`
and no step of the way fails. -/
inductive Run (step : σ → ι → Except ε σ) (s₀ : σ) : List ι → σ → Prop where
  | start : Run step s₀ [] s₀
  | next {inputs : List ι} {s s' : σ} {i : ι} :
      Run step s₀ inputs s → step s i = .ok s' → Run step s₀ (inputs ++ [i]) s'

variable {step : σ → ι → Except ε σ} {s₀ : σ}

/-- A run is exactly a successful fold over its inputs. -/
theorem run_iff_exec {inputs : List ι} {s : σ} :
    Run step s₀ inputs s ↔ exec step s₀ inputs = .ok s := by
  constructor
  · intro hrun
    induction hrun with
    | start => rfl
    | next _ hstep ih =>
        rw [exec_append, ih]
        change exec step _ [_] = _
        rw [exec_cons, hstep]
        rfl
  · intro hexec
    induction inputs using List.reverseRecOn generalizing s with
    | nil =>
        cases hexec
        exact .start
    | append_singleton inputs i ih =>
        rw [exec_append] at hexec
        cases hfront : exec step s₀ inputs with
        | error e => simp [hfront, Except.bind] at hexec
        | ok t =>
            refine .next (ih hfront) ?_
            simp only [hfront, Except.bind, exec_cons, exec_nil] at hexec
            cases hlast : step t i with
            | error e => simp [hlast] at hexec
            | ok t' => simpa [hlast] using hexec

/-- The inputs determine the final state of a run. -/
theorem Run.deterministic {inputs : List ι} {s t : σ}
    (hs : Run step s₀ inputs s) (ht : Run step s₀ inputs t) : s = t := by
  have heq := (run_iff_exec.mp hs).symm.trans (run_iff_exec.mp ht)
  simpa using heq

/-- Every step of the input list, taken in the state its prefix reaches, meets
a condition on the inputs so far, that state and the next input. -/
def StepsMeet (step : σ → ι → Except ε σ) (s₀ : σ)
    (permitted : List ι → σ → ι → Prop) (inputs : List ι) : Prop :=
  ∀ before i after s, inputs = before ++ i :: after →
    Run step s₀ before s → permitted before s i

/-- No step meets every condition. -/
theorem stepsMeet_nil (permitted : List ι → σ → ι → Prop) :
    StepsMeet step s₀ permitted [] := by
  intro before i after s hsplit
  simp at hsplit

/-- The steps of an extended input list are the old steps and the new one. -/
theorem stepsMeet_append_singleton {permitted : List ι → σ → ι → Prop}
    {inputs : List ι} {i : ι} {s : σ} (hrun : Run step s₀ inputs s) :
    StepsMeet step s₀ permitted (inputs ++ [i]) ↔
      StepsMeet step s₀ permitted inputs ∧ permitted inputs s i := by
  constructor
  · intro hmeet
    refine ⟨?_, hmeet inputs i [] s rfl hrun⟩
    intro before j after t hsplit ht
    exact hmeet before j (after ++ [i]) t (by simp [hsplit]) ht
  · rintro ⟨hmeet, hlast⟩ before j after t hsplit ht
    rcases List.eq_nil_or_concat after with rfl | ⟨after, k, rfl⟩
    · obtain ⟨rfl, rfl⟩ := (List.append_inj' hsplit rfl).imp_right List.singleton_inj.mp
      rwa [ht.deterministic hrun]
    · refine hmeet before j after t ?_ ht
      have hshape : inputs ++ [i] = (before ++ j :: after) ++ [k] := by simpa using hsplit
      exact (List.append_inj' hshape rfl).1

/-- The steps of a list are the first one and those that follow it. -/
theorem stepsMeet_cons {permitted : σ → ι → Prop} {i : ι} {inputs : List ι} {s₁ : σ}
    (hstep : step s₀ i = .ok s₁) (hfirst : permitted s₀ i)
    (hrest : StepsMeet step s₁ (fun _ => permitted) inputs) :
    StepsMeet step s₀ (fun _ => permitted) (i :: inputs) := by
  intro before j after s hsplit hrun
  have hexec := run_iff_exec.mp hrun
  cases before with
  | nil =>
      rcases List.cons.inj hsplit with ⟨rfl, _⟩
      rw [exec_nil] at hexec
      rwa [← Except.ok.inj hexec]
  | cons first before =>
      rcases List.cons.inj hsplit with ⟨rfl, htail⟩
      rw [exec_cons, hstep] at hexec
      exact hrest before j after s htail (run_iff_exec.mpr hexec)

/-- A condition met by every step of a list is met by every step of its prefixes. -/
theorem StepsMeet.of_append {permitted : List ι → σ → ι → Prop}
    {front back : List ι} (hmeet : StepsMeet step s₀ permitted (front ++ back)) :
    StepsMeet step s₀ permitted front := by
  intro before i after s hsplit hs
  exact hmeet before i (after ++ back) s (by simp [hsplit]) hs

/-- Induction over runs: what holds initially and survives every permitted step
holds at the end of every run whose steps are all permitted. -/
theorem Run.invariant {permitted : List ι → σ → ι → Prop}
    {P : List ι → σ → Prop} (hstart : P [] s₀)
    (hstep : ∀ before s i s', Run step s₀ before s → P before s →
      permitted before s i → step s i = .ok s' → P (before ++ [i]) s')
    {inputs : List ι} {s : σ} (hrun : Run step s₀ inputs s)
    (hmeet : StepsMeet step s₀ permitted inputs) : P inputs s := by
  induction hrun with
  | start => exact hstart
  | next hfront hlast ih =>
      obtain ⟨hbefore, hpermitted⟩ := (stepsMeet_append_singleton hfront).mp hmeet
      exact hstep _ _ _ _ hfront (ih hbefore) hpermitted hlast

/-- The states a run passes through, each with the inputs that led there. -/
def Visits (step : σ → ι → Except ε σ) (s₀ : σ) (inputs : List ι)
    (P : List ι → σ → Prop) : Prop :=
  ∀ before after s, inputs = before ++ after → Run step s₀ before s → P before s

/-- An invariant of permitted steps holds in every state a permitted run visits. -/
theorem Run.always {permitted : List ι → σ → ι → Prop}
    {P : List ι → σ → Prop} (hstart : P [] s₀)
    (hstep : ∀ before s i s', Run step s₀ before s → P before s →
      permitted before s i → step s i = .ok s' → P (before ++ [i]) s')
    {inputs : List ι} (hmeet : StepsMeet step s₀ permitted inputs) :
    Visits step s₀ inputs P := by
  intro before after s hsplit hs
  subst hsplit
  exact hs.invariant hstart hstep hmeet.of_append

/-- When permitted steps keep an invariant that implies {lit}`Q`, and a step that is
not permitted breaks {lit}`Q` at once, a run satisfies {lit}`Q` throughout exactly when
all its steps are permitted. -/
theorem Run.visits_iff_stepsMeet {permitted : List ι → σ → ι → Prop}
    {P Q : List ι → σ → Prop} (hstart : P [] s₀)
    (hstep : ∀ before s i s', Run step s₀ before s → P before s →
      permitted before s i → step s i = .ok s' → P (before ++ [i]) s')
    (hgood : ∀ before s, P before s → Q before s)
    (hbad : ∀ before s i s', P before s → ¬permitted before s i →
      step s i = .ok s' → ¬Q (before ++ [i]) s')
    {inputs : List ι} {s : σ} (hrun : Run step s₀ inputs s) :
    Visits step s₀ inputs Q ↔ StepsMeet step s₀ permitted inputs := by
  constructor
  · intro hvisits
    induction hrun with
    | start => exact stepsMeet_nil permitted
    | @next inputs s s' i hfront hlast ih =>
        rw [stepsMeet_append_singleton hfront]
        have hbefore : StepsMeet step s₀ permitted inputs := by
          refine ih fun before after t hsplit ht => ?_
          exact hvisits before (after ++ [i]) t (by rw [hsplit, List.append_assoc]) ht
        refine ⟨hbefore, ?_⟩
        by_contra hviolates
        apply hbad _ _ _ _ (hfront.invariant hstart hstep hbefore) hviolates hlast
        exact hvisits _ [] _ (by simp) (.next hfront hlast)
  · intro hmeet before after t hsplit ht
    exact hgood before t (Run.always hstart hstep hmeet before after t hsplit ht)

end Runs
end Roofline
