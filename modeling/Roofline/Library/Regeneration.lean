import Mathlib.Data.Set.Basic
import Roofline.Library.Programs

/-!
# Library - Programs that bring a store up to date

A program that brings some places of a store to given contents answers whether any of them
was different before.  Such programs can be run one after the other, also on overlapping
places, and running one again changes nothing.

Main results:

- Theorems {lit}`Establishes.both` and {lit}`Establishes.each`: the rules for sequences and
  loops.
- Theorem {lit}`Establishes.again`: a second run answers that nothing was different.
-/

namespace Roofline
namespace Regeneration

open Programs

variable {ε σ ι β α : Type}

/-- Run both programs; the answer is whether one of them has changed anything. -/
def both (first second : Program ε σ Bool) : Program ε σ Bool := do
  let changed ← first
  let changed' ← second
  return changed || changed'

/-- Run the program for each element of the list. -/
def each (body : α → Program ε σ Bool) : List α → Program ε σ Bool
  | [] => return false
  | a :: as => both (body a) (each body as)

/-- What both programs have done if they returned together. -/
theorem outcome_both_ok {first second : Program ε σ Bool} {s s' : σ} {changed : Bool}
    (h : outcome (both first second) s = (.ok changed, s')) :
    ∃ a b t, outcome first s = (.ok a, t) ∧ outcome second t = (.ok b, s') ∧
      changed = (a || b) := by
  rw [both, outcome_bind] at h
  rcases hfirst : outcome first s with ⟨e | a, t⟩
  · rw [hfirst] at h
    cases h
  · rw [hfirst] at h
    dsimp only at h
    rw [outcome_bind] at h
    rcases hsecond : outcome second t with ⟨e | b, t'⟩
    · rw [hsecond] at h
      cases h
    · rw [hsecond] at h
      cases h
      exact ⟨a, b, t, rfl, hsecond, rfl⟩

/-- If both programs return, they return together. -/
theorem outcome_both_of_ok {first second : Program ε σ Bool} {s t s' : σ} {a b : Bool}
    (hfirst : outcome first s = (.ok a, t)) (hsecond : outcome second t = (.ok b, s')) :
    outcome (both first second) s = (.ok (a || b), s') := by
  rw [both, outcome_bind, hfirst]
  dsimp only
  rw [outcome_bind, hsecond]
  rfl

/-- If nothing was changed, neither program has changed anything. -/
theorem outcome_both_quiet {first second : Program ε σ Bool} {s s' : σ}
    (h : outcome (both first second) s = (.ok false, s')) :
    ∃ t, outcome first s = (.ok false, t) ∧ outcome second t = (.ok false, s') := by
  rcases outcome_both_ok h with ⟨a, b, t, hfirst, hsecond, hchanged⟩
  cases a with
  | true => exact Bool.noConfusion hchanged
  | false =>
      cases b with
      | true => exact Bool.noConfusion hchanged
      | false => exact ⟨t, hfirst, hsecond⟩

section Invariants

variable {P : σ → Prop} {R : ε → σ → Prop}

/-- What both programs keep is kept. -/
theorem ensures_both {first second : Program ε σ Bool}
    (hfirst : Ensures P first (fun _ => P) R) (hsecond : Ensures P second (fun _ => P) R) :
    Ensures P (both first second) (fun _ => P) R :=
  hfirst.bind fun _ => hsecond.bind fun _ => Ensures.pure fun _ h => h

/-- What each round keeps, the loop keeps. -/
theorem ensures_each {body : α → Program ε σ Bool} {as : List α}
    (h : ∀ a ∈ as, Ensures P (body a) (fun _ => P) R) :
    Ensures P (each body as) (fun _ => P) R := by
  induction as with
  | nil => exact Ensures.pure fun _ h => h
  | cons a as ih =>
      exact ensures_both (h a List.mem_cons_self)
        (ih fun a' hmem => h a' (List.mem_cons_of_mem a hmem))

end Invariants

variable (read : σ → ι → β)

/-- Started in a state with {lit}`P`, the program returns and leaves one with {lit}`Q`.  It
brings the places of the region to the target, leaves all others alone, and answers whether
one of the region was different before. -/
def Establishes (P : σ → Prop) (program : Program ε σ Bool) (region : Set ι) (target : ι → β)
    (Q : σ → Prop) : Prop :=
  ∀ s, P s → ∃ changed s', outcome program s = (.ok changed, s') ∧ Q s' ∧
    (∀ i ∈ region, read s' i = target i) ∧ (∀ i ∉ region, read s' i = read s i) ∧
    (changed = true ↔ ∃ i ∈ region, read s i ≠ target i)

/-- The places of all elements of a list. -/
def allPlaces (places : α → Set ι) (as : List α) : Set ι :=
  {i | ∃ a ∈ as, i ∈ places a}

/-- The places of one more element. -/
theorem allPlaces_cons (places : α → Set ι) (a : α) (as : List α) :
    allPlaces places (a :: as) = places a ∪ allPlaces places as := by
  ext i
  simp only [allPlaces, Set.mem_ofPred_eq, Set.mem_union, List.mem_cons, exists_eq_or_imp]

/-- Where the program answers that nothing was changed, the condition holds and the store is as
it was. -/
def QuietOnly (program : Program ε σ Bool) (condition : σ → Prop) : Prop :=
  ∀ s s', outcome program s = (.ok false, s') → condition s ∧ read s' = read s

section Rules

variable {read} {P Q R : σ → Prop} {target : ι → β} {region region' : Set ι}

/-- Establishing a region that is everything. -/
theorem Establishes.univ {program : Program ε σ Bool}
    (h : Establishes read P program region target Q) (hregion : ∀ i, i ∈ region) :
    Establishes read P program Set.univ target Q := by
  rwa [Set.eq_univ_of_forall hregion] at h

/-- Two programs establish both of their regions. -/
theorem Establishes.both {first second : Program ε σ Bool}
    (hfirst : Establishes read P first region target Q)
    (hsecond : Establishes read Q second region' target R) :
    Establishes read P (both first second) (region ∪ region') target R := by
  intro s hs
  rcases hfirst s hs with ⟨a, t, hrun, hq, hin, hout, hchanged⟩
  rcases hsecond t hq with ⟨b, s', hrun', hr, hin', hout', hchanged'⟩
  refine ⟨a || b, s', outcome_both_of_ok hrun hrun', hr, ?_, ?_, ?_⟩
  · intro i hi
    by_cases hmem : i ∈ region'
    · exact hin' i hmem
    · rw [hout' i hmem]
      exact hin i (hi.resolve_right hmem)
  · intro i hi
    rw [Set.mem_union, not_or] at hi
    rw [hout' i hi.2, hout i hi.1]
  · rw [Bool.or_eq_true, hchanged, hchanged']
    constructor
    · rintro (⟨i, hi, hne⟩ | ⟨i, hi, hne⟩)
      · exact ⟨i, .inl hi, hne⟩
      · by_cases hmem : i ∈ region
        · exact absurd (hin i hmem) hne
        · rw [hout i hmem] at hne
          exact ⟨i, .inr hi, hne⟩
    · rintro ⟨i, hi, hne⟩
      by_cases hmem : i ∈ region
      · exact .inl ⟨i, hmem, hne⟩
      · refine .inr ⟨i, hi.resolve_left hmem, ?_⟩
        rwa [hout i hmem]

/-- A loop establishes the places of all elements. -/
theorem Establishes.each {body : α → Program ε σ Bool} {places : α → Set ι} {as : List α}
    (h : ∀ a ∈ as, Establishes read P (body a) (places a) target P) :
    Establishes read P (each body as) (allPlaces places as) target P := by
  induction as with
  | nil =>
      intro s hs
      refine ⟨false, s, rfl, hs, ?_, fun _ _ => rfl, ?_⟩
      · rintro i ⟨a, hmem, -⟩
        exact absurd hmem List.not_mem_nil
      · constructor
        · exact fun hfalse => Bool.noConfusion hfalse
        · rintro ⟨i, ⟨a, hmem, -⟩, -⟩
          exact absurd hmem List.not_mem_nil
  | cons a as ih =>
      have hhead := h a List.mem_cons_self
      have htail := ih fun a' hmem => h a' (List.mem_cons_of_mem a hmem)
      rw [allPlaces_cons]
      exact hhead.both htail

/-- After the first run a second one changes nothing. -/
theorem Establishes.again {program : Program ε σ Bool}
    (h : Establishes read P program region target P) {s s' : σ} {changed : Bool} (hs : P s)
    (hrun : outcome program s = (.ok changed, s')) :
    ∃ s'', outcome program s' = (.ok false, s'') ∧ read s'' = read s' := by
  rcases h s hs with ⟨changed', t, hrun', hp, hin, -, -⟩
  rw [hrun] at hrun'
  cases hrun'
  rcases h s' hp with ⟨again, s'', hrun'', -, hin', hout', hagain⟩
  have hquiet : again = false := by
    rw [← Bool.not_eq_true, hagain]
    rintro ⟨i, hi, hne⟩
    exact hne (hin i hi)
  rw [hquiet] at hrun''
  refine ⟨s'', hrun'', ?_⟩
  funext i
  by_cases hi : i ∈ region
  · rw [hin' i hi, hin i hi]
  · exact hout' i hi

/-- The answer is whether the store was changed. -/
theorem Establishes.changed_iff {program : Program ε σ Bool}
    (h : Establishes read P program region target Q) {s s' : σ} {changed : Bool} (hs : P s)
    (hrun : outcome program s = (.ok changed, s')) :
    changed = true ↔ read s' ≠ read s := by
  rcases h s hs with ⟨changed', t, hrun', -, hin, hout, hchanged⟩
  rw [hrun] at hrun'
  cases hrun'
  rw [hchanged]
  constructor
  · rintro ⟨i, hi, hne⟩ heq
    rw [← hin i hi, heq] at hne
    exact hne rfl
  · intro hne
    by_contra hsame
    push Not at hsame
    apply hne
    funext i
    by_cases hi : i ∈ region
    · rw [hin i hi, hsame i hi]
    · exact hout i hi

/-- A weaker condition. -/
theorem QuietOnly.weaken {program : Program ε σ Bool} {c c' : σ → Prop}
    (h : QuietOnly read program c) (hc : ∀ s, c s → c' s) : QuietOnly read program c' := by
  intro s s' hrun
  rcases h s s' hrun with ⟨hcs, hsame⟩
  exact ⟨hc s hcs, hsame⟩

/-- Two programs are quiet only under both of their conditions. -/
theorem QuietOnly.both {first second : Program ε σ Bool} {c c' : σ → Prop}
    (hfirst : QuietOnly read first c) (hsecond : QuietOnly read second c')
    (hread : ∀ s t, read s = read t → c' s → c' t) :
    QuietOnly read (both first second) fun s => c s ∧ c' s := by
  intro s s' hrun
  rcases outcome_both_quiet hrun with ⟨t, hrun₁, hrun₂⟩
  rcases hfirst s t hrun₁ with ⟨hc, hsame⟩
  rcases hsecond t s' hrun₂ with ⟨hc', hsame'⟩
  exact ⟨⟨hc, hread t s hsame hc'⟩, hsame'.trans hsame⟩

/-- A loop is quiet only under the conditions of all elements. -/
theorem QuietOnly.each {body : α → Program ε σ Bool} {c : α → σ → Prop} {as : List α}
    (h : ∀ a ∈ as, QuietOnly read (body a) (c a))
    (hread : ∀ a s t, read s = read t → c a s → c a t) :
    QuietOnly read (each body as) fun s => ∀ a ∈ as, c a s := by
  induction as with
  | nil =>
      intro s s' hrun
      cases hrun
      exact ⟨fun a hmem => absurd hmem List.not_mem_nil, rfl⟩
  | cons a as ih =>
      have htail := ih fun a' hmem => h a' (List.mem_cons_of_mem a hmem)
      have hboth := (h a List.mem_cons_self).both htail
        fun s t hsame hall a' hmem => hread a' s t hsame (hall a' hmem)
      intro s s' hrun
      rcases hboth s s' hrun with ⟨⟨hhead, hrest⟩, hsame⟩
      exact ⟨List.forall_mem_cons.mpr ⟨hhead, hrest⟩, hsame⟩

end Rules

end Regeneration
end Roofline
