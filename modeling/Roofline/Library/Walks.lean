import Mathlib.Data.Fintype.Card
import Mathlib.Logic.Relation
import Mathlib.Tactic.Common

/-!
# Library - Walks without marks

A traversal that follows all successors of an element and marks nothing makes every walk
from where it starts.  It ends exactly if these walks have bounded length.

Main results:

- Theorem {lit}`exists_within_iff`: in a finite type the walks from an element are bounded
  exactly if none of them comes to a cycle.
-/

namespace Roofline
namespace Walks

variable {α : Type*} (next : α → List α)

/-- One step of a walk. -/
def Step (a b : α) : Prop :=
  b ∈ next a

/-- There is a walk from {lit}`a` to {lit}`b`. -/
abbrev Reaches : α → α → Prop :=
  Relation.ReflTransGen (Step next)

/-- The walks from {lit}`a` have at most this many elements. -/
def Within : Nat → α → Prop
  | 0, _ => False
  | n + 1, a => ∀ b ∈ next a, Within n b

/-- No walk from {lit}`a` comes to a cycle. -/
def Acyclic (a : α) : Prop :=
  ∀ b, Reaches next a b → ¬Relation.TransGen (Step next) b b

variable {next}

/-- One more step is allowed. -/
theorem Within.succ {n : Nat} {a : α} (h : Within next n a) : Within next (n + 1) a := by
  induction n generalizing a with
  | zero => exact h.elim
  | succ n ih =>
      intro b hb
      exact ih (h b hb)

/-- More steps are allowed. -/
theorem Within.mono {n m : Nat} {a : α} (h : Within next n a) (hle : n ≤ m) :
    Within next m a := by
  induction hle with
  | refl => exact h
  | step _ ih => exact ih.succ

/-- One bound is enough for finitely many elements. -/
theorem exists_within_all {l : List α} (h : ∀ a ∈ l, ∃ n, Within next n a) :
    ∃ n, ∀ a ∈ l, Within next n a := by
  induction l with
  | nil => exact ⟨0, by simp⟩
  | cons a l ih =>
      rw [List.forall_mem_cons] at h
      rcases h.1 with ⟨n, hn⟩
      rcases ih h.2 with ⟨m, hm⟩
      refine ⟨n + m, List.forall_mem_cons.mpr ⟨hn.mono (Nat.le_add_right n m), ?_⟩⟩
      intro b hb
      exact (hm b hb).mono (Nat.le_add_left m n)

/-- All that is reached from within is within. -/
theorem Within.reaches {n : Nat} {a b : α} (h : Within next n a) (hwalk : Reaches next a b) :
    Within next n b := by
  induction hwalk with
  | refl => exact h
  | tail _ hstep ih =>
      cases n with
      | zero => exact ih.elim
      | succ n => exact (ih _ hstep).succ

/-- A walk around a cycle has no bound. -/
theorem Within.not_cycle {n : Nat} {a : α} (h : Within next n a) :
    ¬Relation.TransGen (Step next) a a := by
  induction n with
  | zero => exact h.elim
  | succ n ih =>
      intro hcycle
      rcases Relation.TransGen.head'_iff.mp hcycle with ⟨b, hstep, hback⟩
      exact ih ((h b hstep).reaches hback) hcycle

/-- In a finite type, walks that come to no cycle end. -/
theorem Acyclic.exists_within [Finite α] {a : α} (h : Acyclic next a) :
    ∃ n, Within next n a := by
  let Later (b c : α) : Prop := Reaches next a c ∧ Relation.TransGen (Step next) c b
  have htrans : IsTrans α Later :=
    ⟨fun _ _ _ hbc hcd => ⟨hcd.1, hcd.2.trans hbc.2⟩⟩
  have hirrefl : Std.Irrefl Later := ⟨fun b hb => h b hb.1 hb.2⟩
  have hwf : WellFounded Later := Finite.wellFounded_of_trans_of_irrefl Later
  have hall : ∀ b, Reaches next a b → ∃ n, Within next n b := by
    intro b
    induction b using hwf.induction with
    | _ b ih =>
        intro hb
        have hlater : ∀ c ∈ next b, ∃ n, Within next n c := by
          intro c hc
          exact ih c ⟨hb, .single hc⟩ (hb.tail hc)
        rcases exists_within_all hlater with ⟨n, hn⟩
        exact ⟨n + 1, hn⟩
  exact hall a .refl

/-- In a finite type the walks from an element are bounded exactly if none of them comes
to a cycle. -/
theorem exists_within_iff [Finite α] {a : α} : (∃ n, Within next n a) ↔ Acyclic next a := by
  constructor
  · rintro ⟨n, h⟩ b hb
    exact (h.reaches hb).not_cycle
  · exact Acyclic.exists_within

end Walks
end Roofline
