import Roofline.Library.LinkedSets
import Roofline.Optimization.AllPoints

/-!
# The order of the axes

Axes are listed with {lit}`null` as a wildcard for the axes that are not listed.  The code adds
these axes whether there is a wildcard or not, and in the order of a hash set.

Main results:

- Theorem {lit}`getAllAxes_ofAdditions`: the axes of a space are in the order in which they were
  added.
- Theorem {lit}`getAxes_perm`: all axes of the space are returned.
- Theorem {lit}`getAxes_eq_iff`: when they are the axes that are specified.
-/

namespace Roofline
namespace Optimization

variable {Value : Type}

/-! ## Adding values to axes -/

namespace ParameterSpace

/-- A space without axes. -/
def empty : ParameterSpace Value where
  axisValueSets := []
  nodup := List.nodup_nil

/-- {lit}`getValueListOfAxis` finds the list of the axis or makes one, and the values are added to
it. -/
def addAll (space : ParameterSpace Value) (axis : Axis) (values : List Value) :
    ParameterSpace Value where
  axisValueSets := LinkedSets.update space.axisValueSets [] (· ++ values) axis
  nodup := by
    rw [LinkedSets.map_fst_update]
    exact LinkedSets.nodup_add space.nodup axis

/-- {lit}`add` of a single value. -/
def add (space : ParameterSpace Value) (axis : Axis) (value : Value) : ParameterSpace Value :=
  space.addAll axis [value]

/-- The space after these calls of {lit}`addAll`. -/
def ofAdditions (additions : List (Axis × List Value)) : ParameterSpace Value :=
  additions.foldl (fun space addition => space.addAll addition.1 addition.2) empty

/-- The axes after several additions, in the order of the first ones. -/
theorem getAllAxes_foldl (additions : List (Axis × List Value)) (space : ParameterSpace Value) :
    (additions.foldl (fun space addition => space.addAll addition.1 addition.2) space).getAllAxes =
      (additions.map Prod.fst).foldl LinkedSets.add space.getAllAxes := by
  induction additions generalizing space with
  | nil => rfl
  | cons addition additions ih =>
      have hfirst : (space.addAll addition.1 addition.2).getAllAxes =
          LinkedSets.add space.getAllAxes addition.1 :=
        LinkedSets.map_fst_update space.axisValueSets [] (· ++ addition.2) addition.1
      rw [List.foldl_cons, ih, hfirst]
      rfl

/-- The axes of a space are in the order in which they were added. -/
theorem getAllAxes_ofAdditions (additions : List (Axis × List Value)) :
    (ofAdditions additions).getAllAxes = LinkedSets.ofAdds (additions.map Prod.fst) :=
  getAllAxes_foldl additions empty

end ParameterSpace

/-! ## What is specified -/

section Specification

variable (all : List Axis) (axes : List (Option Axis))

/-- The axes that are listed. -/
def listedAxes : List Axis :=
  axes.filterMap id

/-- The axes that the list does not name. -/
def unlistedAxes : List Axis :=
  all.filter fun axis => axis ∉ listedAxes axes

/-- The axes that are specified: the wildcard stands for those that are not listed. -/
def specifiedAxes : List Axis :=
  axes.flatMap fun axis => axis.elim (unlistedAxes all axes) fun axis => [axis]

/-- Distinct axes of the space and at most one wildcard. -/
structure ValidArguments : Prop where
  oneWildcard : axes.count none ≤ 1
  distinct : (listedAxes axes).Nodup
  ofSpace : ∀ axis ∈ listedAxes axes, axis ∈ all

end Specification

/-! ## The shape of the arguments -/

section Arguments

variable {axes : List (Option Axis)}

/-- A list without a wildcard names axes only. -/
theorem eq_map_some_of_notMem (h : none ∉ axes) : axes = (listedAxes axes).map some := by
  induction axes with
  | nil => rfl
  | cons first axes ih =>
      rw [List.mem_cons, not_or] at h
      obtain ⟨axis, rfl⟩ := Option.ne_none_iff_exists'.mp (Ne.symm h.1)
      exact congrArg (some axis :: ·) (ih h.2)

/-- A wildcard is between two lists of axes. -/
theorem eq_append_of_mem (hcount : axes.count none ≤ 1) (h : none ∈ axes) :
    ∃ before after : List Axis, axes = before.map some ++ none :: after.map some := by
  obtain ⟨before, after, rfl⟩ := List.append_of_mem h
  rw [List.count_append, List.count_cons_self] at hcount
  have hbefore : none ∉ before := List.count_eq_zero.mp (by omega)
  have hafter : none ∉ after := List.count_eq_zero.mp (by omega)
  refine ⟨listedAxes before, listedAxes after, ?_⟩
  rw [← eq_map_some_of_notMem hbefore, ← eq_map_some_of_notMem hafter]

/-- A list that names axes only names those. -/
theorem listedAxes_map_some (order : List Axis) : listedAxes (order.map some) = order := by
  simp [listedAxes]

/-- Without a wildcard the named axes are specified. -/
theorem specifiedAxes_map_some (all order : List Axis) :
    specifiedAxes all (order.map some) = order := by
  simp [specifiedAxes, List.flatMap_map]

/-- The axes named around a wildcard. -/
theorem listedAxes_append (before after : List Axis) :
    listedAxes (before.map some ++ none :: after.map some) = before ++ after := by
  simp [listedAxes]

/-- The wildcard stands for the axes that are not named. -/
theorem specifiedAxes_append (all before after : List Axis) :
    specifiedAxes all (before.map some ++ none :: after.map some) =
      before ++ all.filter (fun axis => axis ∉ before ++ after) ++ after := by
  rw [specifiedAxes, unlistedAxes, listedAxes_append]
  simp [List.flatMap_map]

end Arguments

/-! ## What is returned -/

section Returned

variable (space : ParameterSpace Value) (hashOrder : HashOrder)

/-- Without a wildcard the axes that are not listed come last. -/
theorem getAxes_map_some (order : List Axis) :
    space.getAxes hashOrder (order.map some) =
      order ++ hashOrder.iterated (space.getAllAxes.filter fun axis => axis ∉ order) := by
  have hall : ∀ axis ∈ order.map some, Option.isSome axis = true := by simp
  rw [ParameterSpace.getAxes, List.takeWhile_eq_self_iff.mpr hall,
    List.dropWhile_eq_nil_iff.mpr hall]
  simp

/-- With a wildcard they come in its place. -/
theorem getAxes_append (before after : List Axis) :
    space.getAxes hashOrder (before.map some ++ none :: after.map some) =
      before ++
        hashOrder.iterated (space.getAllAxes.filter fun axis => axis ∉ before ++ after) ++
          after := by
  have hbefore : ∀ axis ∈ before.map some, Option.isSome axis = true := by simp
  have hafter : ∀ axis ∈ (after.map some).reverse, Option.isSome axis = true := by simp
  rw [ParameterSpace.getAxes, List.takeWhile_append_of_pos hbefore,
    List.dropWhile_append_of_pos hbefore]
  simp only [List.takeWhile_cons, List.dropWhile_cons, Option.isSome_none, Bool.false_eq_true,
    if_false, List.append_nil, List.reverse_cons, List.takeWhile_append_of_pos hafter]
  simp

end Returned

section Orders

variable {space : ParameterSpace Value} {axes : List (Option Axis)}
  (h : ValidArguments space.getAllAxes axes)

include h

/-- All axes of the space are returned, whether there is a wildcard or not. -/
theorem getAxes_perm (hashOrder : HashOrder) :
    (space.getAxes hashOrder axes).Perm space.getAllAxes := by
  -- the listed axes and those that are not listed are all axes
  have hsplit : ∀ order : List Axis, order.Nodup → (∀ axis ∈ order, axis ∈ space.getAllAxes) →
      (order ++ space.getAllAxes.filter fun axis => axis ∉ order).Perm space.getAllAxes := by
    intro order hdistinct hspace
    have hnodup : space.getAllAxes.Nodup := space.nodup
    rw [List.perm_ext_iff_of_nodup _ hnodup]
    · intro axis
      rw [List.mem_append, List.mem_filter, decide_eq_true_iff]
      by_cases hmem : axis ∈ order
      · simp [hmem, hspace axis hmem]
      · simp [hmem]
    · rw [List.nodup_append]
      refine ⟨hdistinct, hnodup.filter _, ?_⟩
      rintro axis hlisted other hunlisted rfl
      rw [List.mem_filter, decide_eq_true_iff] at hunlisted
      exact hunlisted.2 hlisted
  obtain ⟨hcount, hdistinct, hspace⟩ := h
  by_cases hwildcard : none ∈ axes
  · obtain ⟨before, after, rfl⟩ := eq_append_of_mem hcount hwildcard
    rw [listedAxes_append] at hdistinct hspace
    rw [getAxes_append]
    refine List.Perm.trans ?_ (hsplit _ hdistinct hspace)
    rw [List.append_assoc, List.append_assoc]
    refine List.Perm.append_left before (List.perm_append_comm.trans ?_)
    exact List.Perm.append_left after (hashOrder.perm _)
  · rw [eq_map_some_of_notMem hwildcard, getAxes_map_some]
    exact (List.Perm.append_left _ (hashOrder.perm _)).trans (hsplit _ hdistinct hspace)

/-- When the axes are those that are specified, for an order of the hash set. -/
theorem getAxes_eq_specifiedAxes_iff (hashOrder : HashOrder) :
    space.getAxes hashOrder axes = specifiedAxes space.getAllAxes axes ↔
      (none ∈ axes ∨ unlistedAxes space.getAllAxes axes = []) ∧
        hashOrder.iterated (unlistedAxes space.getAllAxes axes) =
          unlistedAxes space.getAllAxes axes := by
  by_cases hwildcard : none ∈ axes
  · obtain ⟨before, after, rfl⟩ := eq_append_of_mem h.oneWildcard hwildcard
    rw [getAxes_append, specifiedAxes_append, unlistedAxes, listedAxes_append,
      List.append_left_inj, List.append_right_inj]
    exact ⟨fun heq => ⟨.inl hwildcard, heq⟩, And.right⟩
  · obtain ⟨order, rfl⟩ : ∃ order : List Axis, axes = order.map some :=
      ⟨_, eq_map_some_of_notMem hwildcard⟩
    rw [getAxes_map_some, specifiedAxes_map_some, unlistedAxes, listedAxes_map_some,
      List.append_right_eq_self]
    have hnil : hashOrder.iterated [] = [] := List.perm_nil.mp (hashOrder.perm [])
    constructor
    · intro heq
      have hperm := hashOrder.perm (space.getAllAxes.filter fun axis => axis ∉ order)
      rw [heq] at hperm
      have hunlisted := List.nil_perm.mp hperm
      exact ⟨.inr hunlisted, by rw [heq, hunlisted]⟩
    · rintro ⟨hcases, -⟩
      rw [hcases.resolve_left hwildcard, hnil]

/-- A hash set that is iterated from the last element that was added. -/
def reversedOrder : HashOrder :=
  ⟨List.reverse, List.reverse_perm⟩

omit h in
/-- A list without duplicates that is its own reverse has at most one element. -/
theorem length_le_one_of_reverse {list : List Axis} (hnodup : list.Nodup)
    (h : list.reverse = list) : list.length ≤ 1 := by
  cases list with
  | nil => exact Nat.zero_le 1
  | cons first rest =>
      rcases List.eq_nil_or_concat rest with rfl | ⟨init, last, rfl⟩
      · exact le_refl 1
      · -- the last element would be the first one
        rw [List.concat_eq_append] at h hnodup
        have hlast : last = first := by simpa using congrArg List.head? h
        exact absurd (by simp [hlast]) (List.nodup_cons.mp hnodup).1

/-- When they are for every order of the hash set. -/
theorem getAxes_eq_specifiedAxes_all_iff :
    (∀ hashOrder, space.getAxes hashOrder axes = specifiedAxes space.getAllAxes axes) ↔
      unlistedAxes space.getAllAxes axes = [] ∨
        none ∈ axes ∧ (unlistedAxes space.getAllAxes axes).length ≤ 1 := by
  simp only [getAxes_eq_specifiedAxes_iff h]
  constructor
  · intro hall
    have hnodup : (unlistedAxes space.getAllAxes axes).Nodup := space.nodup.filter _
    obtain ⟨hcases, hreverse⟩ := hall reversedOrder
    exact hcases.symm.imp_right fun hwildcard =>
      ⟨hwildcard, length_le_one_of_reverse hnodup hreverse⟩
  · intro hcases hashOrder
    have hlength : (unlistedAxes space.getAllAxes axes).length ≤ 1 :=
      hcases.elim (fun hnil => by simp [hnil]) And.right
    refine ⟨hcases.symm.imp_left And.left, ?_⟩
    have hperm := hashOrder.perm (unlistedAxes space.getAllAxes axes)
    generalize unlistedAxes space.getAllAxes axes = unlisted at hperm hlength
    match unlisted, hlength with
    | [], _ => exact List.perm_nil.mp hperm
    | [axis], _ => exact List.perm_singleton.mp hperm

end Orders

/-- The axes are those that are specified exactly when there is a wildcard or no axis is left out,
and the hash set has the order in which they were added.  It need not have this order if two axes
are left out. -/
theorem getAxes_eq_iff (additions : List (Axis × List Value)) {axes : List (Option Axis)}
    (h : ValidArguments (LinkedSets.ofAdds (additions.map Prod.fst)) axes) :
    let all := LinkedSets.ofAdds (additions.map Prod.fst)
    let space := ParameterSpace.ofAdditions additions
    (∀ hashOrder, space.getAxes hashOrder axes = specifiedAxes all axes ↔
      (none ∈ axes ∨ unlistedAxes all axes = []) ∧
        hashOrder.iterated (unlistedAxes all axes) = unlistedAxes all axes) ∧
    ((∀ hashOrder, space.getAxes hashOrder axes = specifiedAxes all axes) ↔
      unlistedAxes all axes = [] ∨ none ∈ axes ∧ (unlistedAxes all axes).length ≤ 1) := by
  rw [← ParameterSpace.getAllAxes_ofAdditions] at h
  dsimp only
  rw [← ParameterSpace.getAllAxes_ofAdditions]
  exact ⟨getAxes_eq_specifiedAxes_iff h, getAxes_eq_specifiedAxes_all_iff h⟩

/-- A wildcard for one axis, between two axes. -/
theorem getAxes_eq_iff_between :
    let additions : List (Axis × List Nat) := [(⟨"a"⟩, [1]), (⟨"b"⟩, [2]), (⟨"c"⟩, [3])]
    ∀ hashOrder, (ParameterSpace.ofAdditions additions).getAxes hashOrder
      [some ⟨"c"⟩, none, some ⟨"a"⟩] = [⟨"c"⟩, ⟨"b"⟩, ⟨"a"⟩] :=
  (getAxes_eq_iff _ ⟨by decide, by decide, by decide⟩).2.mpr (.inr ⟨by decide, by decide⟩)

/-- One of two axes is listed without a wildcard, and both are returned; a wildcard for both does
not give them in the order in which they were added. -/
theorem getAxes_not_specified :
    let additions : List (Axis × List Nat) := [(⟨"a"⟩, [1]), (⟨"b"⟩, [2])]
    let all := LinkedSets.ofAdds (additions.map Prod.fst)
    let space := ParameterSpace.ofAdditions additions
    (∀ hashOrder, space.getAxes hashOrder [some ⟨"a"⟩] ≠ specifiedAxes all [some ⟨"a"⟩]) ∧
      space.getAxes reversedOrder [none] ≠ specifiedAxes all [none] := by
  refine ⟨fun hashOrder heq => ?_, by decide⟩
  have hvalid : ValidArguments (ParameterSpace.ofAdditions
      ([(⟨"a"⟩, [1]), (⟨"b"⟩, [2])] : List (Axis × List Nat))).getAllAxes [some ⟨"a"⟩] :=
    ⟨by decide, by decide, by decide⟩
  have hcases := ((getAxes_eq_specifiedAxes_iff hvalid hashOrder).mp heq).1
  revert hcases
  decide

end Optimization
end Roofline
