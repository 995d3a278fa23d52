import Mathlib.Tactic.Common

/-!
# Library - Programs with exceptions and state

A method of an object-oriented program returns or throws, and in both cases it
leaves a state behind.  This file gives the corresponding monad a partial
correctness logic with one postcondition for each way to end.

Main results:

- Theorem {lit}`Ensures.bind`: the rule for sequencing.
- Theorem {lit}`Ensures.tryCatch`: the rule for exception handlers.
- Theorems {lit}`Ensures.ite` and {lit}`Ensures.weaken`: branching and consequence.
- Theorem {lit}`Ensures.forM`: loops over lists.
- Theorem {lit}`ReturnsIff.bind`: when a sequence of steps returns.
- Theorem {lit}`Erases.bind`: a program that keeps a record of its steps is taken apart like one
  that does not.
-/

namespace Roofline
namespace Programs

universe u

/-- What a sequence of two steps returns. -/
theorem bind_eq_ok {ε : Type*} {α β : Type u} {x : Except ε α} {f : α → Except ε β} {b : β} :
    x >>= f = .ok b ↔ ∃ a, x = .ok a ∧ f a = .ok b := by
  cases x with
  | error e =>
      constructor
      · intro h
        cases h
      · rintro ⟨a, ha, -⟩
        cases ha
  | ok a =>
      constructor
      · intro h
        exact ⟨a, rfl, h⟩
      · rintro ⟨a', ha, h⟩
        cases ha
        exact h

/-- Steps that all return are made one after the other. -/
theorem mapM_eq_ok {ε : Type*} {α β : Type u} {f : α → Except ε β} {g : α → β} {l : List α}
    (h : ∀ a ∈ l, f a = .ok (g a)) : l.mapM f = .ok (l.map g) := by
  induction l with
  | nil => rfl
  | cons a l ih =>
      rw [List.forall_mem_cons] at h
      rw [List.mapM_cons, h.1, ih h.2]
      rfl

/-- Steps that all return are made one after the other, and each result is related to what
it was made from. -/
theorem exists_mapM {ε : Type*} {α β : Type u} {f : α → Except ε β} {R : α → β → Prop}
    {l : List α} (h : ∀ a ∈ l, ∃ b, f a = .ok b ∧ R a b) :
    ∃ l', l.mapM f = .ok l' ∧ List.Forall₂ R l l' := by
  induction l with
  | nil => exact ⟨[], rfl, .nil⟩
  | cons a l ih =>
      rw [List.forall_mem_cons] at h
      rcases h.1 with ⟨b, hb, hrel⟩
      rcases ih h.2 with ⟨l', hl', hrels⟩
      refine ⟨b :: l', ?_, .cons hrel hrels⟩
      rw [List.mapM_cons, hb, hl']
      rfl

/-- What the steps return, by the positions of what they are made for. -/
theorem mapM_eq_mapIdx_iff {ε : Type*} {α β : Type u} {f : α → Except ε β} {g : Nat → α → β}
    {l : List α} :
    l.mapM f = .ok (l.mapIdx g) ↔ ∀ (i : Nat) (a : α), l[i]? = some a → f a = .ok (g i a) := by
  induction l generalizing g with
  | nil =>
      constructor
      · intro _ i a h
        cases h
      · exact fun _ => rfl
  | cons a l ih =>
      rw [List.mapM_cons, List.mapIdx_cons]
      constructor
      · intro h i b hb
        rcases bind_eq_ok.mp h with ⟨first, hfirst, h⟩
        rcases bind_eq_ok.mp h with ⟨rest, hrest, h⟩
        rcases List.cons.inj (Except.ok.inj h) with ⟨rfl, rfl⟩
        cases i with
        | zero =>
            rcases Option.some.inj hb with rfl
            exact hfirst
        | succ i => exact ih.mp hrest i b hb
      · intro h
        have hfirst := h 0 a rfl
        have hrest := (ih (g := fun i => g (i + 1))).mpr fun i b hb => h (i + 1) b hb
        exact bind_eq_ok.mpr ⟨_, hfirst, bind_eq_ok.mpr ⟨_, hrest, rfl⟩⟩

variable {ε σ α β : Type u}

/-- A computation that updates a state of type {lit}`σ` and ends with a result or an
exception of type {lit}`ε`. -/
abbrev Program (ε σ α : Type u) : Type u := ExceptT ε (StateM σ) α

/-- The result and the state a program leaves. -/
def outcome (program : Program ε σ α) (s : σ) : Except ε α × σ :=
  (ExceptT.run program).run s

/-- A step that is given directly by its effect. -/
def primitive (effect : σ → Except ε α × σ) : Program ε σ α :=
  ExceptT.mk effect

/-- The outcome of a primitive step is its effect. -/
@[simp] theorem outcome_primitive (effect : σ → Except ε α × σ) (s : σ) :
    outcome (primitive effect) s = effect s :=
  rfl

/-- Returning changes nothing. -/
@[simp] theorem outcome_pure (a : α) (s : σ) :
    outcome (pure a : Program ε σ α) s = (.ok a, s) :=
  rfl

/-- Throwing changes nothing. -/
@[simp] theorem outcome_throw (e : ε) (s : σ) :
    outcome (throw e : Program ε σ α) s = (.error e, s) :=
  rfl

/-- Reading the state changes nothing. -/
@[simp] theorem outcome_get (s : σ) :
    outcome (get : Program ε σ σ) s = (.ok s, s) :=
  rfl

/-- A sequence goes on only if its first part returns. -/
@[simp] theorem outcome_bind (program : Program ε σ α) (next : α → Program ε σ β) (s : σ) :
    outcome (program >>= next) s =
      match outcome program s with
      | (.ok a, s') => outcome (next a) s'
      | (.error e, s') => (.error e, s') := by
  unfold outcome
  simp only [ExceptT.run_bind, StateT.run_bind]
  cases hrun : (ExceptT.run program).run s with
  | mk result s' => cases result <;> rfl

/-- The handler starts in the state that the exception has left. -/
@[simp] theorem outcome_tryCatch (program : Program ε σ α) (handler : ε → Program ε σ α)
    (s : σ) :
    outcome (tryCatch program handler) s =
      match outcome program s with
      | (.ok a, s') => (.ok a, s')
      | (.error e, s') => outcome (handler e) s' := by
  unfold outcome
  simp only [tryCatch, tryCatchThe, MonadExceptOf.tryCatch, ExceptT.tryCatch, ExceptT.run_mk,
    StateT.run_bind]
  cases hrun : (ExceptT.run program).run s with
  | mk result s' =>
      rw [show StateT.run program s = (result, s') from hrun]
      cases result <;> rfl

/-- Started in a state with {lit}`P`, the program leaves a state with {lit}`Q` if it
returns and one with {lit}`R` if it throws. -/
def Ensures (P : σ → Prop) (program : Program ε σ α) (Q : α → σ → Prop) (R : ε → σ → Prop) :
    Prop :=
  ∀ s, P s →
    match outcome program s with
    | (.ok a, s') => Q a s'
    | (.error e, s') => R e s'

section Rules

variable {P : σ → Prop} {Q : α → σ → Prop} {R : ε → σ → Prop}

/-- What is ensured if the program returns. -/
theorem Ensures.returned {program : Program ε σ α} (h : Ensures P program Q R) {s : σ}
    (hs : P s) {a : α} (hreturn : (outcome program s).1 = .ok a) :
    Q a (outcome program s).2 := by
  have hout := h s hs
  rcases hrun : outcome program s with ⟨result, s'⟩
  rw [hrun] at hout hreturn
  obtain rfl : result = .ok a := hreturn
  exact hout

/-- A program that never throws returns. -/
theorem Ensures.returns {program : Program ε σ α} (h : Ensures P program Q fun _ _ => False)
    {s : σ} (hs : P s) : ∃ a s', outcome program s = (.ok a, s') ∧ Q a s' := by
  have hout := h s hs
  rcases hrun : outcome program s with ⟨e | a, s'⟩
  · rw [hrun] at hout
    exact hout.elim
  · rw [hrun] at hout
    exact ⟨a, s', rfl, hout⟩

/-- The rule of consequence. -/
theorem Ensures.weaken {P' : σ → Prop} {Q' : α → σ → Prop} {R' : ε → σ → Prop}
    {program : Program ε σ α} (h : Ensures P program Q R) (hP : ∀ s, P' s → P s)
    (hQ : ∀ a s, Q a s → Q' a s) (hR : ∀ e s, R e s → R' e s) :
    Ensures P' program Q' R' := by
  intro s hs
  have hout := h s (hP s hs)
  rcases hrun : outcome program s with ⟨e | a, s'⟩
  · rw [hrun] at hout
    exact hR e s' hout
  · rw [hrun] at hout
    exact hQ a s' hout

/-- The rule for returning. -/
theorem Ensures.pure {a : α} (h : ∀ s, P s → Q a s) :
    Ensures P (Pure.pure a : Program ε σ α) Q R :=
  fun s hs => h s hs

/-- The rule for throwing. -/
theorem Ensures.throw {e : ε} (h : ∀ s, P s → R e s) :
    Ensures P (MonadExcept.throw e : Program ε σ α) Q R :=
  fun s hs => h s hs

/-- The rule for sequences. -/
theorem Ensures.bind {S : β → σ → Prop} {program : Program ε σ α} {next : α → Program ε σ β}
    (hfirst : Ensures P program Q R) (hnext : ∀ a, Ensures (Q a) (next a) S R) :
    Ensures P (program >>= next) S R := by
  intro s hs
  have hout := hfirst s hs
  rw [outcome_bind]
  rcases hrun : outcome program s with ⟨e | a, s'⟩
  · rw [hrun] at hout
    exact hout
  · rw [hrun] at hout
    exact hnext a s' hout

/-- The rule for conditionals. -/
theorem Ensures.ite {c : Prop} [Decidable c] {yes no : Program ε σ α}
    (hyes : c → Ensures P yes Q R) (hno : ¬c → Ensures P no Q R) :
    Ensures P (if c then yes else no) Q R := by
  split
  · exact hyes ‹c›
  · exact hno ‹¬c›

/-- The rule for handlers. -/
theorem Ensures.tryCatch {S : ε → σ → Prop} {program : Program ε σ α}
    {handler : ε → Program ε σ α} (hbody : Ensures P program Q S)
    (hhandler : ∀ e, Ensures (S e) (handler e) Q R) :
    Ensures P (MonadExcept.tryCatch program handler) Q R := by
  intro s hs
  have hout := hbody s hs
  rw [outcome_tryCatch]
  rcases hrun : outcome program s with ⟨e | a, s'⟩
  · rw [hrun] at hout
    exact hhandler e s' hout
  · rw [hrun] at hout
    exact hout

/-- The rule for loops: {lit}`I` holds of the members that have been passed. -/
theorem Ensures.forM {κ : Type u} {I : List κ → σ → Prop} {R : ε → σ → Prop}
    {step : κ → Program ε σ PUnit} (l : List κ)
    (hstep : ∀ done a rest, l = done ++ a :: rest →
      Ensures (I done) (step a) (fun _ => I (done ++ [a])) R) :
    Ensures (I []) (l.forM step) (fun _ => I l) R := by
  suffices h : ∀ done rest, l = done ++ rest →
      Ensures (I done) (rest.forM step) (fun _ => I l) R from h [] l rfl
  intro done rest
  induction rest generalizing done with
  | nil =>
      intro hl
      rw [hl, List.append_nil]
      exact Ensures.pure fun _ hs => hs
  | cons a rest ih =>
      intro hl
      apply Ensures.bind (hstep done a rest hl)
      intro _
      exact ih (done ++ [a]) (by rw [hl, List.append_assoc, List.singleton_append])

/-- The rule for a loop in two parts. -/
theorem Ensures.forM_append {κ : Type u} {S : σ → Prop} {T : σ → Prop}
    {step : κ → Program ε σ PUnit} {l l' : List κ} (hfirst : Ensures P (l.forM step) (fun _ => S) R)
    (hrest : Ensures S (l'.forM step) (fun _ => T) R) :
    Ensures P ((l ++ l').forM step) (fun _ => T) R := by
  have happend : (l ++ l').forM step = l.forM step >>= fun _ => l'.forM step := List.forM_append
  rw [happend]
  exact hfirst.bind fun _ => hrest

end Rules

/-! ## Returning -/

section Returning

/-- Whether the program returns does not depend on the state it is started in. -/
def ReturnsIff (program : Program ε σ α) (c : Prop) : Prop :=
  ∀ s, (∃ a, (outcome program s).1 = .ok a) ↔ c

/-- Returning returns. -/
theorem ReturnsIff.pure (a : α) : ReturnsIff (Pure.pure a : Program ε σ α) True :=
  fun _ => ⟨fun _ => trivial, fun _ => ⟨a, rfl⟩⟩

/-- Throwing does not. -/
theorem ReturnsIff.throw (e : ε) : ReturnsIff (MonadExcept.throw e : Program ε σ α) False := by
  intro s
  constructor
  · rintro ⟨a, ha⟩
    cases ha
  · exact False.elim

/-- A sequence returns if both of its parts do. -/
theorem ReturnsIff.bind {c d : Prop} {program : Program ε σ α} {next : α → Program ε σ β}
    (hfirst : ReturnsIff program c) (hnext : ∀ a, ReturnsIff (next a) d) :
    ReturnsIff (program >>= next) (c ∧ d) := by
  intro s
  rw [outcome_bind, ← hfirst s]
  rcases outcome program s with ⟨e | a, s'⟩
  · constructor
    · rintro ⟨b, hb⟩
      cases hb
    · rintro ⟨⟨b, hb⟩, -⟩
      cases hb
  · rw [hnext a s']
    exact ⟨fun h => ⟨⟨a, rfl⟩, h⟩, fun h => h.2⟩

/-- A conditional returns if the chosen part does. -/
theorem ReturnsIff.ite {p c d : Prop} [Decidable p] {yes no : Program ε σ α}
    (hyes : ReturnsIff yes c) (hno : ReturnsIff no d) :
    ReturnsIff (if p then yes else no) (if p then c else d) := by
  split
  · exact hyes
  · exact hno

/-- An equivalent condition. -/
theorem ReturnsIff.congr {c d : Prop} {program : Program ε σ α} (h : ReturnsIff program c)
    (hiff : c ↔ d) : ReturnsIff program d :=
  fun s => (h s).trans hiff

/-- A loop returns if all of its rounds do. -/
theorem ReturnsIff.forM {κ : Type u} {c : κ → Prop} {step : κ → Program ε σ PUnit} {l : List κ}
    (h : ∀ a ∈ l, ReturnsIff (step a) (c a)) : ReturnsIff (l.forM step) (∀ a ∈ l, c a) := by
  induction l with
  | nil => exact (ReturnsIff.pure _).congr (by simp)
  | cons a l ih =>
      rw [List.forall_mem_cons] at h
      exact ((h.1).bind fun _ => ih h.2).congr List.forall_mem_cons.symm

end Returning

/-! ## Records -/

section Records

variable {κ : Type u}

/-- A step that also writes down what it was asked for. -/
def recording (step : κ → Program ε σ α) (key : κ) : Program ε (σ × List κ) α :=
  primitive fun s =>
    let result := outcome (step key) s.1
    (result.1, result.2, s.2 ++ [key])

/-- Without its record, the program is the other one. -/
def Erases (recorded : Program ε (σ × List κ) α) (program : Program ε σ α) : Prop :=
  ∀ s record, ((outcome recorded (s, record)).1, (outcome recorded (s, record)).2.1) =
    outcome program s

/-- Recording a step can be erased. -/
theorem erases_recording (step : κ → Program ε σ α) (key : κ) :
    Erases (recording step key) (step key) :=
  fun _ _ => rfl

/-- Returning records nothing. -/
theorem Erases.pure (a : α) :
    Erases (Pure.pure a : Program ε (σ × List κ) α) (Pure.pure a) :=
  fun _ _ => rfl

/-- Throwing records nothing. -/
theorem Erases.throw (e : ε) :
    Erases (MonadExcept.throw e : Program ε (σ × List κ) α) (MonadExcept.throw e) :=
  fun _ _ => rfl

/-- A step that does not look at the state. -/
theorem Erases.constant (result : Except ε α) :
    Erases (primitive fun s : σ × List κ => (result, s)) (primitive fun s => (result, s)) :=
  fun _ _ => rfl

/-- Sequences are erased part by part. -/
theorem Erases.bind {recorded : Program ε (σ × List κ) α} {program : Program ε σ α}
    {recordedNext : α → Program ε (σ × List κ) β} {next : α → Program ε σ β}
    (hfirst : Erases recorded program) (hnext : ∀ a, Erases (recordedNext a) (next a)) :
    Erases (recorded >>= recordedNext) (program >>= next) := by
  intro s record
  have hrun := hfirst s record
  rw [outcome_bind, outcome_bind, ← hrun]
  rcases outcome recorded (s, record) with ⟨e | a, s', record'⟩
  · rfl
  · exact hnext a s' record'

/-- So are conditionals. -/
theorem Erases.ite {c : Prop} [Decidable c] {recordedYes recordedNo : Program ε (σ × List κ) α}
    {yes no : Program ε σ α} (hyes : Erases recordedYes yes) (hno : Erases recordedNo no) :
    Erases (if c then recordedYes else recordedNo) (if c then yes else no) := by
  split
  · exact hyes
  · exact hno

end Records

end Programs
end Roofline
