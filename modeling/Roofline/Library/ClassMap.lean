import Mathlib.Logic.Relation
import Mathlib.Logic.Function.Basic
import Mathlib.Tactic.Common

/-!
# Library - Partial class maps and generated equivalences

A partition of the elements seen so far is often stored as a map from elements
to the name of their class.  This file states how the three updates such a map
receives (a new class, a new member, redirecting one class to another) change
the relation "same class", and how one more edge changes a generated
equivalence, so that the two can be compared edge by edge.

Main results:

- Theorem {lit}`redirect_eq_some_iff`: redirecting a class leaves the others alone.
- Theorem {lit}`sameClass_redirect`: redirecting a class joins it to its target.
- Theorem {lit}`eqvGen_adjoin`: one more edge joins the classes of its ends.
-/

namespace Roofline
namespace ClassMap

variable {α κ : Type*}

/-- Two relations' worth of one edge: {lit}`x` and {lit}`y` are related already,
or through the ends {lit}`a` and {lit}`b` of the edge. -/
def Joined (R : α → α → Prop) (a b x y : α) : Prop :=
  R x y ∨ (R x a ∧ R b y) ∨ (R x b ∧ R a y)

/-- Joining depends on the relation only through its values. -/
theorem joined_congr {R S : α → α → Prop} (h : ∀ x y, R x y ↔ S x y) (a b x y : α) :
    Joined R a b x y ↔ Joined S a b x y := by
  simp only [Joined, h]

/-- Joining two elements that are related already changes nothing. -/
theorem joined_of_rel {R : α → α → Prop} (hsymm : ∀ x y, R x y → R y x)
    (htrans : ∀ x y z, R x y → R y z → R x z) {a b : α} (hab : R a b) (x y : α) :
    Joined R a b x y ↔ R x y := by
  constructor
  · rintro (hxy | ⟨hxa, hby⟩ | ⟨hxb, hay⟩)
    · exact hxy
    · exact htrans _ _ _ hxa (htrans _ _ _ hab hby)
    · exact htrans _ _ _ hxb (htrans _ _ _ (hsymm _ _ hab) hay)
  · exact Or.inl

/-- The order in which two classes are joined does not matter. -/
theorem joined_swap {R : α → α → Prop} (a b x y : α) :
    Joined R a b x y ↔ Joined R b a x y := by
  unfold Joined
  tauto

/-! ## Same class -/

/-- Both elements have a class and it is the same one. -/
def SameClass (f : α → Option κ) (x y : α) : Prop :=
  ∃ c, f x = some c ∧ f y = some c

/-- The relation is symmetric. -/
theorem SameClass.symm {f : α → Option κ} {x y : α} (h : SameClass f x y) :
    SameClass f y x := by
  obtain ⟨c, hx, hy⟩ := h
  exact ⟨c, hy, hx⟩

/-- The relation is transitive. -/
theorem SameClass.trans {f : α → Option κ} {x y z : α} (hxy : SameClass f x y)
    (hyz : SameClass f y z) : SameClass f x z := by
  obtain ⟨c, hx, hy⟩ := hxy
  obtain ⟨d, hy', hz⟩ := hyz
  obtain rfl : c = d := by simpa [hy] using hy'
  exact ⟨c, hx, hz⟩

/-- The class of an element are those with the same key. -/
theorem sameClass_iff_of_eq {f : α → Option κ} {x y : α} {c : κ} (hx : f x = some c) :
    SameClass f x y ↔ f y = some c := by
  constructor
  · rintro ⟨d, hd, hy⟩
    obtain rfl : c = d := by simpa [hx] using hd
    exact hy
  · intro hy
    exact ⟨c, hx, hy⟩

/-! ## Updates of a class map -/

section Update

variable [DecidableEq α]

/-- An element without a class receives one nobody has. -/
theorem sameClass_update_fresh {f : α → Option κ} {a : α} {c : κ}
    (ha : f a = none) (hc : ∀ x, f x ≠ some c) (x y : α) :
    SameClass (Function.update f a (some c)) x y ↔
      SameClass f x y ∨ (x = a ∧ y = a) := by
  by_cases hx : x = a <;> by_cases hy : y = a <;>
    simp [SameClass, hx, hy, ha, hc]

/-- An element without a class receives the class of another element. -/
theorem sameClass_update_join {f : α → Option κ} {a b : α} {c : κ}
    (ha : f a = none) (hb : f b = some c) (x y : α) :
    SameClass (Function.update f a (some c)) x y ↔
      Joined (fun x y => SameClass f x y ∨ (x = a ∧ y = a)) a b x y := by
  have hne : a ≠ b := fun h => by simp [h, hb] at ha
  by_cases hx : x = a
  · by_cases hy : y = a
    · simp [SameClass, Joined, hx, hy]
    · simp [SameClass, Joined, hx, hy, ha, hb, hne, eq_comm]
  · by_cases hy : y = a
    · simp [SameClass, Joined, hx, hy, ha, hb, hne.symm]
    · simp [SameClass, Joined, hx, hy, ha]

end Update

section Redirect

variable [DecidableEq κ]

/-- Send every member of the class {lit}`src` to the class {lit}`dst`. -/
def redirect (f : α → Option κ) (src dst : κ) (x : α) : Option κ :=
  if f x = some src then some dst else f x

/-- The members of both classes are found in the target. -/
theorem redirect_eq_target {f : α → Option κ} {x : α} {src dst : κ}
    (h : f x = some src ∨ f x = some dst) : redirect f src dst x = some dst := by
  rcases h with h | h
  · simp [redirect, h]
  · simp [redirect, h]

/-- The other classes keep their members, except for the one that is redirected. -/
theorem redirect_eq_some_iff {f : α → Option κ} {x : α} {src dst c : κ} (hc : c ≠ dst) :
    redirect f src dst x = some c ↔ f x = some c ∧ c ≠ src := by
  unfold redirect
  split
  case isTrue hx =>
    rw [hx]
    constructor
    · rintro h
      exact absurd (Option.some.inj h).symm hc
    · rintro ⟨h, hne⟩
      exact absurd (Option.some.inj h).symm hne
  case isFalse hx =>
    refine ⟨fun h => ⟨h, ?_⟩, And.left⟩
    rintro rfl
    exact hx h

/-- Redirecting a class to the class of another element joins the two. -/
theorem sameClass_redirect {f : α → Option κ} {a b : α} {src dst : κ}
    (ha : f a = some src) (hb : f b = some dst) (x y : α) :
    SameClass (redirect f src dst) x y ↔ Joined (SameClass f) a b x y := by
  have hxa : ∀ z, SameClass f z a ↔ f z = some src := fun z =>
    ⟨fun h => (sameClass_iff_of_eq ha).mp h.symm, fun h => ((sameClass_iff_of_eq ha).mpr h).symm⟩
  have hxb : ∀ z, SameClass f z b ↔ f z = some dst := fun z =>
    ⟨fun h => (sameClass_iff_of_eq hb).mp h.symm, fun h => ((sameClass_iff_of_eq hb).mpr h).symm⟩
  simp only [Joined, hxa, hxb, sameClass_iff_of_eq ha, sameClass_iff_of_eq hb]
  by_cases hx : f x = some src <;> by_cases hy : f y = some src
  · simp [SameClass, redirect, hx, hy]
  · simp only [SameClass, redirect, hx, hy, if_true, if_false]
    grind
  · simp only [SameClass, redirect, hx, hy, if_true, if_false]
    grind
  · simp only [SameClass, redirect, hx, hy, if_false]
    grind

/-- Redirecting a class separates nobody. -/
theorem SameClass.redirect {f : α → Option κ} {x y : α} (h : SameClass f x y) (src dst : κ) :
    SameClass (redirect f src dst) x y := by
  rcases h with ⟨c, hx, hy⟩
  by_cases hc : c = src
  · exact ⟨dst, by simp [ClassMap.redirect, hx, hc], by simp [ClassMap.redirect, hy, hc]⟩
  · exact ⟨c, by simp [ClassMap.redirect, hx, hc], by simp [ClassMap.redirect, hy, hc]⟩

/-- Redirecting a class to a name nobody uses keeps the partition. -/
theorem sameClass_redirect_unused {f : α → Option κ} {src dst : κ}
    (hdst : ∀ x, f x ≠ some dst) (x y : α) :
    SameClass (redirect f src dst) x y ↔ SameClass f x y := by
  by_cases hx : f x = some src <;> by_cases hy : f y = some src <;>
    simp [SameClass, redirect, hx, hy, hdst]

end Redirect

/-! ## Generated equivalences -/

/-- A relation with one more edge. -/
def Adjoin (R : α → α → Prop) (a b x y : α) : Prop :=
  R x y ∨ (x = a ∧ y = b)

/-- A generated equivalence is the least one containing its generators. -/
theorem eqvGen_le {R S : α → α → Prop}
    (h : ∀ x y, R x y → Relation.EqvGen S x y) {x y : α}
    (hxy : Relation.EqvGen R x y) : Relation.EqvGen S x y := by
  induction hxy with
  | rel x y hr => exact h x y hr
  | refl x => exact .refl x
  | symm x y _ ih => exact ih.symm
  | trans x y z _ _ ihxy ihyz => exact ihxy.trans _ _ _ ihyz

/-- One more edge joins the generated classes of its two ends. -/
theorem eqvGen_adjoin (R : α → α → Prop) (a b x y : α) :
    Relation.EqvGen (Adjoin R a b) x y ↔ Joined (Relation.EqvGen R) a b x y := by
  have hedge : Relation.EqvGen (Adjoin R a b) a b := .rel _ _ (Or.inr ⟨rfl, rfl⟩)
  have hle : ∀ {x y}, Relation.EqvGen R x y → Relation.EqvGen (Adjoin R a b) x y :=
    fun h => eqvGen_le (fun x y hr => .rel _ _ (Or.inl hr)) h
  constructor
  · intro h
    induction h with
    | rel x y hr =>
        rcases hr with hr | ⟨rfl, rfl⟩
        · exact Or.inl (.rel _ _ hr)
        · exact Or.inr (Or.inl ⟨.refl _, .refl _⟩)
    | refl x => exact Or.inl (.refl x)
    | symm x y _ ih =>
        rcases ih with h | ⟨hxa, hby⟩ | ⟨hxb, hay⟩
        · exact Or.inl h.symm
        · exact Or.inr (Or.inr ⟨hby.symm, hxa.symm⟩)
        · exact Or.inr (Or.inl ⟨hay.symm, hxb.symm⟩)
    | trans x y z _ _ ihxy ihyz =>
        rcases ihxy with h | ⟨hxa, hby⟩ | ⟨hxb, hay⟩
        · rcases ihyz with h' | ⟨hya, hbz⟩ | ⟨hyb, haz⟩
          · exact Or.inl (h.trans _ _ _ h')
          · exact Or.inr (Or.inl ⟨h.trans _ _ _ hya, hbz⟩)
          · exact Or.inr (Or.inr ⟨h.trans _ _ _ hyb, haz⟩)
        · rcases ihyz with h' | ⟨hya, hbz⟩ | ⟨hyb, haz⟩
          · exact Or.inr (Or.inl ⟨hxa, hby.trans _ _ _ h'⟩)
          · exact Or.inr (Or.inl ⟨hxa, hbz⟩)
          · exact Or.inl (hxa.trans _ _ _ haz)
        · rcases ihyz with h' | ⟨hya, hbz⟩ | ⟨hyb, haz⟩
          · exact Or.inr (Or.inr ⟨hxb, hay.trans _ _ _ h'⟩)
          · exact Or.inl (hxb.trans _ _ _ hbz)
          · exact Or.inr (Or.inr ⟨hxb, haz⟩)
  · rintro (h | ⟨hxa, hby⟩ | ⟨hxb, hay⟩)
    · exact hle h
    · exact (hle hxa).trans _ _ _ (hedge.trans _ _ _ (hle hby))
    · exact (hle hxb).trans _ _ _ (hedge.symm.trans _ _ _ (hle hay))

end ClassMap
end Roofline
