import Mathlib.Order.Defs.Unbundled
import Mathlib.Tactic.Common

/-!
# Library - Keeping the best candidate

A search that tries candidates one after the other keeps the first one, and replaces it whenever
a better one is found.  Better is a strict order that need not be total.

Main results:

- Theorem {lit}`IsBest.keepBetter`: the candidate kept is best among those tried.
- Theorem {lit}`IsBest.append`: of two best candidates the better one is best among all.
-/

namespace Roofline
namespace Selection

variable {α Q : Type*} {better : Q → Q → Prop}

/-- The next candidate and its value replace those kept so far if they are better. -/
def keepBetter (better : Q → Q → Prop) [DecidableRel better] (best : Option (α × Q))
    (candidate : α × Q) : Option (α × Q) :=
  match best with
  | none => some candidate
  | some kept => if better candidate.2 kept.2 then some candidate else some kept

/-- Nothing that has been tried is better than what is kept, which has been tried itself. -/
def IsBest (better : Q → Q → Prop) (best : Option (α × Q)) (tried : List (α × Q)) : Prop :=
  match best with
  | none => tried = []
  | some kept => kept ∈ tried ∧ ∀ candidate ∈ tried, ¬better candidate.2 kept.2

/-- Nothing is the best of nothing. -/
theorem isBest_nil : IsBest better none ([] : List (α × Q)) :=
  rfl

/-- What is replaced by a better candidate was not worse than anything tried before, and so is
the better one. -/
theorem IsBest.keepBetter [DecidableRel better] [Std.Irrefl better] [IsTrans Q better]
    {best : Option (α × Q)} {tried : List (α × Q)} (hbest : IsBest better best tried)
    (candidate : α × Q) :
    IsBest better (keepBetter better best candidate) (tried ++ [candidate]) := by
  cases best with
  | none =>
      obtain rfl : tried = [] := hbest
      simp [Selection.keepBetter, IsBest, Std.Irrefl.irrefl]
  | some kept =>
      rcases hbest with ⟨hkept, hnone⟩
      unfold Selection.keepBetter
      dsimp only
      split
      case isTrue hbetter =>
        refine ⟨by simp, fun other hother => ?_⟩
        rcases List.mem_append.mp hother with hother | hother
        · intro hworse
          exact hnone other hother (IsTrans.trans _ _ _ hworse hbetter)
        · rcases List.mem_singleton.mp hother with rfl
          exact Std.Irrefl.irrefl _
      case isFalse hbetter =>
        refine ⟨List.mem_append_left _ hkept, fun other hother => ?_⟩
        rcases List.mem_append.mp hother with hother | hother
        · exact hnone other hother
        · rcases List.mem_singleton.mp hother with rfl
          exact hbetter

/-- The best of two lots is the better one of their best. -/
theorem IsBest.append [DecidableRel better] [IsTrans Q better] [Std.Trichotomous better]
    {best : Option (α × Q)} {tried others : List (α × Q)} (hbest : IsBest better best tried)
    {candidate : α × Q} (hcandidate : IsBest better (some candidate) others) :
    IsBest better (Selection.keepBetter better best candidate) (tried ++ others) := by
  cases best with
  | none =>
      obtain rfl : tried = [] := hbest
      exact hcandidate
  | some kept =>
      rcases hbest with ⟨hkept, hnone⟩
      rcases hcandidate with ⟨hmem, hothers⟩
      unfold Selection.keepBetter
      dsimp only
      split
      case isTrue hbetter =>
        refine ⟨List.mem_append_right _ hmem, fun other hother => ?_⟩
        rcases List.mem_append.mp hother with hother | hother
        · intro hworse
          exact hnone other hother (IsTrans.trans _ _ _ hworse hbetter)
        · exact hothers other hother
      case isFalse hbetter =>
        refine ⟨List.mem_append_left _ hkept, fun other hother => ?_⟩
        rcases List.mem_append.mp hother with hother | hother
        · exact hnone other hother
        · -- what is better than what is kept would be better than the candidate
          intro hworse
          by_cases hcompare : better candidate.2 other.2
          · exact hbetter (IsTrans.trans _ _ _ hcompare hworse)
          · have hsame := Std.Trichotomous.trichotomous _ _ (hothers other hother) hcompare
            exact hbetter (hsame ▸ hworse)

end Selection
end Roofline
