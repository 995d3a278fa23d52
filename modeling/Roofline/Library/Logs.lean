import Mathlib.Data.List.Basic
import Mathlib.Tactic.Common

/-!
# Library - Append-only logs

A system that records what it does keeps a log that grows at its end.  This file
has the two ways in which properties of such a log are stated: of every entry
relative to the entries before it, and of a summary that is kept by folding over
the log.

Main results:

- Theorem {lit}`atEach_append`: a property of every entry of an extended log.
- Theorem {lit}`summary_append_of_fixed`: entries that leave a summary alone.
-/

namespace Roofline
namespace Logs

variable {α β : Type*}

/-- Every entry has a property that may depend on the entries before it. -/
def AtEach (P : List α → α → Prop) (log : List α) : Prop :=
  ∀ front entry back, log = front ++ entry :: back → P front entry

/-- The property holds at each entry of an empty log. -/
theorem atEach_nil (P : List α → α → Prop) : AtEach P [] := by
  intro front entry back hsplit
  simp at hsplit

/-- A log in two parts, the second one behind the first. -/
theorem atEach_append {P : List α → α → Prop} {log new : List α} :
    AtEach P (log ++ new) ↔ AtEach P log ∧ AtEach (fun front => P (log ++ front)) new := by
  constructor
  · intro h
    refine ⟨?_, ?_⟩
    · intro front entry back hsplit
      exact h front entry (back ++ new) (by simp [hsplit])
    · intro front entry back hsplit
      exact h (log ++ front) entry back (by simp [hsplit])
  · rintro ⟨hlog, hnew⟩ front entry back hsplit
    rcases List.append_eq_append_iff.mp hsplit with
      ⟨middle, hfront, hrest⟩ | ⟨middle, hlogSplit, hrest⟩
    · rw [hfront]
      exact hnew middle entry back hrest
    · cases middle with
      | nil =>
          rw [List.append_nil] at hlogSplit
          have hfirst := hnew [] entry back (by simpa using hrest.symm)
          dsimp only at hfirst
          rwa [List.append_nil, hlogSplit] at hfirst
      | cons first middle =>
          rcases List.cons.inj hrest with ⟨rfl, _⟩
          exact hlog front entry middle hlogSplit

/-- A log with one entry. -/
theorem atEach_singleton {P : List α → α → Prop} {entry : α} :
    AtEach P [entry] ↔ P [] entry := by
  constructor
  · intro h
    exact h [] entry [] rfl
  · intro h front e back hsplit
    cases front with
    | nil =>
        rcases List.cons.inj hsplit with ⟨rfl, _⟩
        exact h
    | cons first rest => simp at hsplit

/-- A property that no entry of the new part can violate. -/
theorem atEach_of_forall {P : List α → α → Prop} {log : List α}
    (h : ∀ front, ∀ entry ∈ log, P front entry) : AtEach P log := by
  intro front entry back hsplit
  exact h front entry (by simp [hsplit])

/-- Entries that leave every value of a summary alone leave the summary of a log alone. -/
theorem summary_append_of_fixed {f : β → α → β} {start : β} {log new : List α}
    (hfixed : ∀ entry ∈ new, ∀ b, f b entry = b) :
    (log ++ new).foldl f start = log.foldl f start := by
  rw [List.foldl_append]
  induction new with
  | nil => rfl
  | cons entry rest ih =>
      rw [List.foldl_cons, hfixed entry (List.mem_cons_self ..)]
      exact ih fun e he => hfixed e (List.mem_cons_of_mem _ he)

end Logs
end Roofline
