import Mathlib.Data.List.Induction
import Mathlib.Data.List.Nodup
import Mathlib.Logic.Function.Basic
import Mathlib.Tactic.Common

/-!
# Library - Linked sets, linked maps and numberings

A linked set keeps its elements in the order in which they were first added; it is a list
without duplicates.  The keys of a linked map are a linked set.  Numbering stores in each
listed object its position in the list; an object that is listed more than once gets its last
position.

Main results:

- Theorems {lit}`mem_ofAdds` and {lit}`nodup_add`: what a linked set holds.
- Theorem {lit}`group_eq`: values that are grouped by keys in a linked map.
- Theorem {lit}`number_apply`: what is listed once gets its position.
- Theorem {lit}`number_number`: numbering twice is numbering once.
-/

namespace Roofline
namespace LinkedSets

variable {α β ι : Type*}

/-! ## Linked sets -/

section Sets

variable [DecidableEq α]

/-- Adding an element that is there already changes nothing. -/
def add (s : List α) (a : α) : List α :=
  if a ∈ s then s else s ++ [a]

/-- The linked set to which these elements were added, in this order. -/
def ofAdds (adds : List α) : List α :=
  adds.foldl add []

/-- The elements after one more was added. -/
theorem mem_add {s : List α} {a b : α} : b ∈ add s a ↔ b ∈ s ∨ b = a := by
  unfold add
  split
  · rename_i ha
    constructor
    · exact Or.inl
    · rintro (hb | rfl)
      · exact hb
      · exact ha
  · simp

/-- Adding an element adds it at most once. -/
theorem nodup_add {s : List α} (h : s.Nodup) (a : α) : (add s a).Nodup := by
  unfold add
  split
  · exact h
  · rename_i ha
    rw [List.nodup_append]
    refine ⟨h, List.nodup_singleton a, ?_⟩
    intro b hb c hc
    obtain rfl := List.mem_singleton.mp hc
    rintro rfl
    exact ha hb

/-- The elements after some more were added. -/
theorem mem_foldl_add {adds s : List α} {b : α} :
    b ∈ adds.foldl add s ↔ b ∈ s ∨ b ∈ adds := by
  induction adds generalizing s with
  | nil => simp
  | cons a adds ih =>
      rw [List.foldl_cons, ih, mem_add, List.mem_cons, or_assoc]

/-- A linked set holds what was added. -/
theorem mem_ofAdds {adds : List α} {b : α} : b ∈ ofAdds adds ↔ b ∈ adds := by
  rw [ofAdds, mem_foldl_add]
  simp

end Sets

/-! ## Linked maps -/

section Maps

variable [DecidableEq α]

/-- The value of the key is changed; a key without a value gets the changed empty value, behind
the other keys. -/
def update (entries : List (α × β)) (empty : β) (change : β → β) (key : α) : List (α × β) :=
  if key ∈ entries.map Prod.fst then
    entries.map fun entry => if entry.1 = key then (entry.1, change entry.2) else entry
  else entries ++ [(key, change empty)]

/-- The keys are a linked set. -/
theorem map_fst_update (entries : List (α × β)) (empty : β) (change : β → β) (key : α) :
    (update entries empty change key).map Prod.fst = add (entries.map Prod.fst) key := by
  unfold update add
  split
  · rw [List.map_map]
    apply List.map_congr_left
    intro entry _
    rw [Function.comp_apply]
    split <;> rfl
  · rw [List.map_append]
    rfl

/-- The values grouped by their keys. -/
def group (adds : List (α × β)) : List (α × List β) :=
  adds.foldl (fun entries pair => update entries [] (· ++ [pair.2]) pair.1) []

/-- The values that were added to a key. -/
def valuesOf (adds : List (α × β)) (key : α) : List β :=
  (adds.filter fun pair => pair.1 = key).map Prod.snd

/-- The values of a key after one more pair was added. -/
theorem valuesOf_append (adds : List (α × β)) (pair : α × β) (key : α) :
    valuesOf (adds ++ [pair]) key =
      valuesOf adds key ++ if pair.1 = key then [pair.2] else [] := by
  rw [valuesOf, valuesOf, List.filter_append, List.map_append]
  by_cases h : pair.1 = key
  · simp [h]
  · simp [h]

/-- A key that was not added has no values. -/
theorem valuesOf_eq_nil {adds : List (α × β)} {key : α} (h : key ∉ adds.map Prod.fst) :
    valuesOf adds key = [] := by
  rw [valuesOf, List.map_eq_nil_iff, List.filter_eq_nil_iff]
  intro pair hpair
  rw [decide_eq_true_eq]
  rintro rfl
  exact h (List.mem_map_of_mem hpair)

/-- Each key that was added has its values, in the order in which the keys were first added. -/
theorem group_eq (adds : List (α × β)) :
    group adds = (ofAdds (adds.map Prod.fst)).map fun key => (key, valuesOf adds key) := by
  induction adds using List.reverseRecOn with
  | nil => rfl
  | append_singleton adds pair ih =>
      have hkeys : (group adds).map Prod.fst = ofAdds (adds.map Prod.fst) := by
        rw [ih, List.map_map]
        exact List.map_id _
      have hstep : group (adds ++ [pair]) =
          update (group adds) [] (· ++ [pair.2]) pair.1 := by
        rw [group, List.foldl_append]
        rfl
      have hofAdds : ofAdds ((adds ++ [pair]).map Prod.fst) =
          add (ofAdds (adds.map Prod.fst)) pair.1 := by
        rw [List.map_append, ofAdds, List.foldl_append]
        rfl
      rw [hstep, hofAdds, update, add, hkeys]
      split
      next hmem =>
        rw [ih, List.map_map]
        apply List.map_congr_left
        intro key _
        rw [valuesOf_append, Function.comp_apply]
        by_cases heq : pair.1 = key
        · simp [heq]
        · simp [heq, Ne.symm heq]
      next hmem =>
        have hnone : pair.1 ∉ adds.map Prod.fst := fun h => hmem (mem_ofAdds.mpr h)
        rw [ih, List.map_append, List.map_singleton, valuesOf_append, if_pos rfl,
          valuesOf_eq_nil hnone]
        congr 1
        apply List.map_congr_left
        intro key hkey
        have hne : pair.1 ≠ key := by
          rintro rfl
          exact hmem hkey
        rw [valuesOf_append, if_neg hne, List.append_nil]

end Maps

/-! ## Numberings -/

section Numberings

variable [DecidableEq ι]

/-- Store in the objects the numbers they are listed with, one after the other. -/
def storeNumbers (store : α → Nat → α) (objects : ι → α) (numbered : List (ι × Nat)) : ι → α :=
  numbered.foldl (fun objects r => Function.update objects r.1 (store (objects r.1) r.2)) objects

/-- Store in each listed object its position in the list. -/
def number (refs : List ι) (store : α → Nat → α) (objects : ι → α) : ι → α :=
  storeNumbers store objects refs.zipIdx

/-- The number an object is listed with last. -/
def lastNumber (numbered : List (ι × Nat)) (ref : ι) : Option Nat :=
  match numbered with
  | [] => none
  | (first, i) :: numbered => (lastNumber numbered ref).or (if first = ref then some i else none)

/-- Only the last number counts. -/
theorem storeNumbers_apply {store : α → Nat → α}
    (hstore : ∀ a i j, store (store a i) j = store a j) (objects : ι → α)
    (numbered : List (ι × Nat)) (ref : ι) :
    storeNumbers store objects numbered ref =
      match lastNumber numbered ref with
      | none => objects ref
      | some i => store (objects ref) i := by
  induction numbered generalizing objects with
  | nil => rfl
  | cons first numbered ih =>
      rcases first with ⟨first, i⟩
      change storeNumbers store (Function.update objects first (store (objects first) i)) numbered
        ref = _
      rw [ih, lastNumber]
      by_cases hfirst : first = ref
      · subst hfirst
        rw [Function.update_self, if_pos rfl]
        cases lastNumber numbered first with
        | none => rfl
        | some j => exact hstore _ i j
      · rw [Function.update_of_ne (Ne.symm hfirst), if_neg hfirst, Option.or_none]

/-- What is not numbered has no number. -/
theorem lastNumber_eq_none {numbered : List (ι × Nat)} {ref : ι}
    (h : ref ∉ numbered.map Prod.fst) : lastNumber numbered ref = none := by
  induction numbered with
  | nil => rfl
  | cons first numbered ih =>
      rw [List.map_cons, List.mem_cons, not_or] at h
      rw [lastNumber, ih h.2, if_neg (Ne.symm h.1)]
      rfl

/-- Elements of a list without duplicates have their index as number. -/
theorem lastNumber_zipIdx {refs : List ι} (hnodup : refs.Nodup) {ref : ι} {i : Nat}
    (h : refs[i]? = some ref) (start : Nat) :
    lastNumber (refs.zipIdx start) ref = some (start + i) := by
  induction refs generalizing i start with
  | nil => cases h
  | cons first refs ih =>
      rw [List.nodup_cons] at hnodup
      rw [List.zipIdx_cons, lastNumber]
      cases i with
      | zero =>
          obtain rfl : first = ref := by simpa using h
          rw [lastNumber_eq_none (by rw [List.zipIdx_map_fst]; exact hnodup.1), if_pos rfl]
          rfl
      | succ i =>
          have hrest : refs[i]? = some ref := by simpa using h
          rw [ih hnodup.2 hrest, Nat.add_right_comm]
          rfl

/-- An object that is listed once gets its position. -/
theorem number_apply (store : α → Nat → α)
    (hstore : ∀ a i j, store (store a i) j = store a j) {refs : List ι} (hnodup : refs.Nodup)
    {ref : ι} {i : Nat} (h : refs[i]? = some ref) (objects : ι → α) :
    number refs store objects ref = store (objects ref) i := by
  rw [number, storeNumbers_apply hstore, lastNumber_zipIdx hnodup h, Nat.zero_add]

/-- Numbering twice is numbering once. -/
theorem number_number (store : α → Nat → α)
    (hstore : ∀ a i j, store (store a i) j = store a j) (refs : List ι) (objects : ι → α) :
    number refs store (number refs store objects) = number refs store objects := by
  funext ref
  simp only [number]
  rw [storeNumbers_apply hstore, storeNumbers_apply hstore]
  cases lastNumber refs.zipIdx ref with
  | none => rfl
  | some i => exact hstore _ i i

/-- What the numbers do not concern stays as it was. -/
theorem number_proj (store : α → Nat → α) (proj : α → β)
    (hproj : ∀ a i, proj (store a i) = proj a) (refs : List ι) (objects : ι → α) (ref : ι) :
    proj (number refs store objects ref) = proj (objects ref) := by
  have hfold : ∀ (numbered : List (ι × Nat)) (objects : ι → α),
      proj (storeNumbers store objects numbered ref) = proj (objects ref) := by
    intro numbered
    induction numbered with
    | nil => exact fun _ => rfl
    | cons first numbered ih =>
        intro objects
        apply (ih _).trans
        dsimp only
        by_cases hfirst : ref = first.1
        · subst hfirst
          rw [Function.update_self, hproj]
        · rw [Function.update_of_ne hfirst]
  exact hfold _ _

end Numberings

end LinkedSets
end Roofline
