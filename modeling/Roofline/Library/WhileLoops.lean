import Mathlib.Tactic.Common

/-!
# Library - While loops

A loop that may go on forever: one round either leaves the loop with a result or gives the state
of the next round.  The loop can be run with a bound on the number of its rounds.

Main results:

- Theorem {lit}`ends_iff_loop`: a loop ends exactly if some bound is large enough.
- Theorem {lit}`not_ends_of_invariant`: a loop does not end if it goes on in all states that it
  can reach.
- Theorem {lit}`exists_ends_of_measure`: a loop ends if a measure goes down with each round.
- Theorems {lit}`exists_ends_nested` and {lit}`not_ends_nested`: loops in the body of a loop.
-/

namespace Roofline
namespace WhileLoops

variable {σ ρ : Type}

/-- At most {lit}`fuel` rounds of the loop. -/
def loop (round : σ → σ ⊕ ρ) : Nat → σ → Option ρ
  | 0, _ => none
  | fuel + 1, s =>
      match round s with
      | .inl next => loop round fuel next
      | .inr result => some result

/-- The loop ends with this result. -/
inductive Ends (round : σ → σ ⊕ ρ) : σ → ρ → Prop where
  | leave {s : σ} {result : ρ} : round s = .inr result → Ends round s result
  | next {s t : σ} {result : ρ} : round s = .inl t → Ends round t result → Ends round s result

variable {round : σ → σ ⊕ ρ} {s : σ}

/-- A round that goes on uses up some fuel. -/
theorem loop_next {t : σ} (h : round s = .inl t) (fuel : Nat) :
    loop round (fuel + 1) s = loop round fuel t := by
  rw [loop, h]

/-- A round that leaves the loop ends it. -/
theorem loop_leave {result : ρ} (h : round s = .inr result) (fuel : Nat) :
    loop round (fuel + 1) s = some result := by
  rw [loop, h]

/-- A larger bound changes nothing. -/
theorem loop_mono {fuel more : Nat} {result : ρ} (h : loop round fuel s = some result)
    (hle : fuel ≤ more) : loop round more s = some result := by
  induction fuel generalizing s more with
  | zero => cases h
  | succ fuel ih =>
      obtain ⟨more, rfl⟩ : ∃ n, more = n + 1 := ⟨more - 1, by omega⟩
      cases hround : round s with
      | inl t =>
          rw [loop_next hround] at h ⊢
          exact ih h (by omega)
      | inr left =>
          rw [loop_leave hround] at h ⊢
          exact h

/-- A loop ends exactly if some bound is large enough. -/
theorem ends_iff_loop {result : ρ} :
    Ends round s result ↔ ∃ fuel, loop round fuel s = some result := by
  constructor
  · intro h
    induction h with
    | leave hround => exact ⟨1, loop_leave hround 0⟩
    | next hround _ ih =>
        obtain ⟨fuel, hfuel⟩ := ih
        exact ⟨fuel + 1, by rw [loop_next hround, hfuel]⟩
  · rintro ⟨fuel, hfuel⟩
    induction fuel generalizing s with
    | zero => cases hfuel
    | succ fuel ih =>
        cases hround : round s with
        | inl t =>
            rw [loop_next hround] at hfuel
            exact .next hround (ih hfuel)
        | inr left =>
            rw [loop_leave hround] at hfuel
            cases hfuel
            exact .leave hround

/-- A loop does not end if it goes on in all states that it can reach. -/
theorem not_ends_of_invariant (inv : σ → Prop)
    (hround : ∀ s, inv s → ∃ t, round s = .inl t ∧ inv t) (h : inv s) (result : ρ) :
    ¬Ends round s result := by
  intro hends
  induction hends with
  | leave hleave =>
      obtain ⟨t, hnext, -⟩ := hround _ h
      rw [hleave] at hnext
      cases hnext
  | next hs _ ih =>
      obtain ⟨t, hnext, ht⟩ := hround _ h
      rw [hs] at hnext
      cases hnext
      exact ih ht

/-- A loop ends as it does after a round that goes on. -/
theorem ends_next_iff {t : σ} {result : ρ} (h : round s = .inl t) :
    Ends round s result ↔ Ends round t result := by
  constructor
  · intro hends
    cases hends with
    | leave hleave =>
        rw [h] at hleave
        cases hleave
    | next hnext hrest =>
        rw [h] at hnext
        cases hnext
        exact hrest
  · exact .next h

/-- A loop ends with what a round leaves it with. -/
theorem ends_leave_iff {left result : ρ} (h : round s = .inr left) :
    Ends round s result ↔ result = left := by
  constructor
  · intro hends
    cases hends with
    | leave hleave =>
        rw [h] at hleave
        cases hleave
        rfl
    | next hnext _ =>
        rw [h] at hnext
        cases hnext
  · rintro rfl
    exact .leave h

/-- A loop has one result. -/
theorem Ends.unique {first second : ρ} (h : Ends round s first) (h' : Ends round s second) :
    first = second := by
  induction h with
  | leave hround => exact ((ends_leave_iff hround).mp h').symm
  | next hround _ ih => exact ih ((ends_next_iff hround).mp h')

/-- A loop ends if a measure goes down with each round. -/
theorem exists_ends_of_measure (inv : σ → Prop) (Q : ρ → Prop) (measure : σ → Nat)
    (hround : ∀ s, inv s → (∃ t, round s = .inl t ∧ inv t ∧ measure t < measure s) ∨
      ∃ result, round s = .inr result ∧ Q result)
    (h : inv s) : ∃ result, Ends round s result ∧ Q result := by
  induction hn : measure s using Nat.strongRecOn generalizing s with
  | ind n ih =>
      rcases hround s h with ⟨t, hnext, ht, hless⟩ | ⟨result, hleave, hQ⟩
      · rcases ih (measure t) (hn ▸ hless) ht rfl with ⟨result, hends, hQ⟩
        exact ⟨result, .next hnext hends, hQ⟩
      · exact ⟨result, .leave hleave, hQ⟩

/-! ## Loops in loops -/

section Nested

variable {τ : Type}

/-- The rounds of a loop whose body is a loop.  The inner loop leaves with a state of the outer
one, or with its result. -/
def nested (outer : σ → τ ⊕ ρ) (inner : τ → τ ⊕ (σ ⊕ ρ)) : σ ⊕ τ → (σ ⊕ τ) ⊕ ρ
  | .inl s =>
      match outer s with
      | .inl t => .inl (.inr t)
      | .inr result => .inr result
  | .inr t =>
      match inner t with
      | .inl next => .inl (.inr next)
      | .inr (.inl s) => .inl (.inl s)
      | .inr (.inr result) => .inr result

variable {outer : σ → τ ⊕ ρ} {inner : τ → τ ⊕ (σ ⊕ ρ)} {s : σ} {t : τ} {result : ρ}

/-- The outer round starts the inner loop. -/
theorem ends_nested_outer (h : outer s = .inl t) :
    Ends (nested outer inner) (.inl s) result ↔ Ends (nested outer inner) (.inr t) result :=
  ends_next_iff (by rw [nested, h])

/-- The outer round leaves both loops. -/
theorem ends_nested_leave {left : ρ} (h : outer s = .inr left) :
    Ends (nested outer inner) (.inl s) result ↔ result = left :=
  ends_leave_iff (by rw [nested, h])

/-- The outer loop goes on where the inner one has left. -/
theorem ends_nested_inner {left : σ ⊕ ρ} (h : Ends inner t left) :
    Ends (nested outer inner) (.inr t) result ↔
      left.elim (fun s => Ends (nested outer inner) (.inl s) result) (result = ·) := by
  induction h with
  | @leave t left hleave =>
      cases left with
      | inl s => exact ends_next_iff (by rw [nested, hleave])
      | inr left => exact ends_leave_iff (by rw [nested, hleave])
  | next hnext _ ih => exact (ends_next_iff (by rw [nested, hnext])).trans ih

/-- The outer loop does not end if the inner one does not. -/
theorem not_ends_nested_inner (h : ∀ left, ¬Ends inner t left) (result : ρ) :
    ¬Ends (nested outer inner) (.inr t) result := by
  apply not_ends_of_invariant
    (fun s => ∃ t, s = .inr t ∧ ∀ left, ¬Ends inner t left) ?_ ⟨t, rfl, h⟩
  rintro _ ⟨t, rfl, ht⟩
  cases hround : inner t with
  | inl next =>
      refine ⟨.inr next, by rw [nested, hround], next, rfl, fun left hends => ?_⟩
      exact ht left (.next hround hends)
  | inr left => exact absurd (.leave hround) (ht left)

/-- The rule for a known number of rounds of the outer loop. -/
theorem exists_ends_nested {n : Nat} (P : Nat → σ → Prop) (Q : ρ → Prop)
    (hnext : ∀ i < n, ∀ s, P i s → ∃ t, outer s = .inl t ∧
      ∃ left, Ends inner t left ∧ Sum.elim (P (i + 1)) Q left)
    (hlast : ∀ s, P n s → ∃ result, outer s = .inr result ∧ Q result) (h : P 0 s) :
    ∃ result, Ends (nested outer inner) (.inl s) result ∧ Q result := by
  suffices hrest : ∀ k i s, i + k = n → P i s →
      ∃ result, Ends (nested outer inner) (.inl s) result ∧ Q result from
    hrest n 0 s (Nat.zero_add n) h
  intro k
  induction k with
  | zero =>
      rintro i s rfl hs
      rcases hlast s hs with ⟨result, hleave, hQ⟩
      exact ⟨result, (ends_nested_leave hleave).mpr rfl, hQ⟩
  | succ k ih =>
      intro i s hi hs
      rcases hnext i (by omega) s hs with ⟨t, houter, left, hinner, hleft⟩
      cases left with
      | inl s' =>
          rcases ih (i + 1) s' (by omega) hleft with ⟨result, hends, hQ⟩
          exact ⟨result, (ends_nested_outer houter).mpr ((ends_nested_inner hinner).mpr hends), hQ⟩
      | inr result =>
          exact ⟨result, (ends_nested_outer houter).mpr ((ends_nested_inner hinner).mpr rfl), hleft⟩

/-- A loop does not end if its body does each time and it always goes on. -/
theorem not_ends_nested (P : σ → Prop)
    (hnext : ∀ s, P s → ∃ t, outer s = .inl t ∧ ∃ s', Ends inner t (.inl s') ∧ P s') (h : P s)
    (result : ρ) : ¬Ends (nested outer inner) (.inl s) result := by
  apply not_ends_of_invariant
    (fun s => (∃ s', s = .inl s' ∧ P s') ∨ ∃ t s', s = .inr t ∧ Ends inner t (.inl s') ∧ P s') ?_
    (.inl ⟨s, rfl, h⟩)
  rintro _ (⟨s, rfl, hs⟩ | ⟨t, s', rfl, hends, hs'⟩)
  · rcases hnext s hs with ⟨t, houter, s', hends, hs'⟩
    exact ⟨.inr t, by rw [nested, houter], .inr ⟨t, s', rfl, hends, hs'⟩⟩
  · cases hends with
    | leave hleave => exact ⟨.inl s', by rw [nested, hleave], .inl ⟨s', rfl, hs'⟩⟩
    | @next _ t' _ hround hrest =>
        exact ⟨.inr t', by rw [nested, hround], .inr ⟨t', s', rfl, hrest, hs'⟩⟩

end Nested

end WhileLoops
end Roofline
