import Mathlib.Data.List.Pairwise
import Mathlib.Data.List.TakeWhile
import Roofline.Optimization.ParameterSpace

/-!
# All points of a space, with the axes in a given order

The points are built by recursion over the axes in the order that is given: each value of the
first axis is added to each point of the space that is projected on the others.

Main results:

- Theorem {lit}`pointsInOrder_eq`: a permutation of the axes leads to no exception, and the
  points are those of the axes with their values in that order.
- Theorem {lit}`pairwise_pointsOf`: the points are in lexicographic order.
- Theorem {lit}`isCartesianProduct_iff`: they are the Cartesian product exactly where all axes
  have a value, or the first has none.
-/

namespace Roofline
namespace Optimization

open Programs (mapM_eq_ok)

variable {Value : Type}

/-! ## The recursion over the axes -/

/-- {lit}`getExtendedPoint` with its check. -/
def Coordinate.extend (coordinate : Coordinate Value) (axis : Axis) (value : Value) :
    Except Throwable (Coordinate Value) :=
  if coordinate.contains axis then .error (.error "Axis already part of the coordinate")
  else .ok (coordinate.getExtendedPoint axis value)

/-- A coordinate can be extended by an axis it does not have. -/
theorem Coordinate.extend_eq_ok {coordinate : Coordinate Value} {axis : Axis} (value : Value)
    (h : coordinate.contains axis = false) :
    coordinate.extend axis value = .ok (coordinate.getExtendedPoint axis value) := by
  rw [extend, if_neg (by simp [h])]

/-- The order in which a hash set of axes is iterated. -/
structure HashOrder where
  iterated : List Axis → List Axis
  perm : ∀ axes, (iterated axes).Perm axes

namespace ParameterSpace

variable (space : ParameterSpace Value)

/-- {lit}`getAllAxes` -/
def getAllAxes : List Axis :=
  space.axisValueSets.map Prod.fst

/-- The list of an axis, which is {lit}`null` for an axis that was not added. -/
def getValues (axis : Axis) : Option (List Value) :=
  (space.axisValueSets.find? fun set => set.1 = axis).map Prod.snd

/-- The space with the selected axes only. -/
def getProjection (axes : List Axis) : ParameterSpace Value where
  axisValueSets := space.axisValueSets.filter fun set => set.1 ∈ axes
  nodup := space.nodup.sublist (List.filter_sublist.map Prod.fst)

/-- {lit}`getAxes`: {lit}`null` stands for all axes that are not mentioned, which come in the
order of a hash set. -/
def getAxes (hashOrder : HashOrder) (axes : List (Option Axis)) : List Axis :=
  let result := (axes.takeWhile Option.isSome).filterMap id
  let remaining := (axes.dropWhile Option.isSome).reverse
  let endAxes := (remaining.takeWhile Option.isSome).reverse.filterMap id
  let remainingAxes := space.getAllAxes.filter fun axis => axis ∉ result ∧ axis ∉ endAxes
  result ++ hashOrder.iterated remainingAxes ++ endAxes

end ParameterSpace

/-- The points that a value of the first axis gives. -/
def pointsOfValue (orderedAxesHead : Axis) (subSpacePoints : List (Coordinate Value))
    (value : Value) : Except Throwable (List (Coordinate Value)) :=
  if subSpacePoints.isEmpty then do
    return [← Coordinate.empty.extend orderedAxesHead value]
  else
    subSpacePoints.mapM fun subSpacePoint => subSpacePoint.extend orderedAxesHead value

/-- The private {lit}`getAllPoints`: the order must not be empty, and must have axes of the space
only. -/
def ParameterSpace.pointsInOrder (space : ParameterSpace Value) :
    List Axis → Except Throwable (List (Coordinate Value))
  | [] => if space.axisValueSets.isEmpty then .ok [] else .error .noSuchElementException
  | orderedAxesHead :: orderedAxesTail =>
      if space.axisValueSets.isEmpty then
        .ok []
      else do
        let subSpacePoints ← (space.getProjection orderedAxesTail).pointsInOrder orderedAxesTail
        match space.getValues orderedAxesHead with
        | none => .error .nullPointerException
        | some values =>
            let points ← values.mapM (pointsOfValue orderedAxesHead subSpacePoints)
            return points.flatten

/-- {lit}`getAllPoints` for the axes in this order. -/
def ParameterSpace.getAllPointsOrdered (space : ParameterSpace Value) (hashOrder : HashOrder)
    (axes : List (Option Axis)) : Except Throwable (List (Coordinate Value)) :=
  space.pointsInOrder (space.getAxes hashOrder axes)

/-! ## The axes with their values in order -/

namespace ParameterSpace

variable {space : ParameterSpace Value}

/-- The axes in the given order, with their values. -/
def setsInOrder (space : ParameterSpace Value) (order : List Axis) : List (Axis × List Value) :=
  order.filterMap fun axis => (space.getValues axis).map fun values => (axis, values)

/-- The values of an axis are those it was added with. -/
theorem getValues_eq_some_iff {axis : Axis} {values : List Value} :
    space.getValues axis = some values ↔ (axis, values) ∈ space.axisValueSets := by
  constructor
  · intro h
    rcases Option.map_eq_some_iff.mp h with ⟨set, hfound, rfl⟩
    have haxis := List.find?_some hfound
    rw [decide_eq_true_eq] at haxis
    rw [← haxis]
    exact List.mem_of_find?_eq_some hfound
  · intro hmem
    have hsome : (space.axisValueSets.find? fun set => set.1 = axis).isSome := by
      rw [List.find?_isSome]
      exact ⟨_, hmem, by simp⟩
    rcases Option.isSome_iff_exists.mp hsome with ⟨set, hfound⟩
    have haxis := List.find?_some hfound
    rw [decide_eq_true_eq] at haxis
    have hset : set = (axis, values) :=
      List.inj_on_of_nodup_map space.nodup (List.mem_of_find?_eq_some hfound) hmem haxis
    rw [getValues, hfound, hset]
    rfl

/-- An axis of the space has values, or an empty list of them. -/
theorem exists_getValues {axis : Axis} (h : axis ∈ space.getAllAxes) :
    ∃ values, space.getValues axis = some values := by
  rcases List.mem_map.mp h with ⟨set, hset, rfl⟩
  exact ⟨set.2, getValues_eq_some_iff.mpr hset⟩

/-- The projection has the same values on the axes that are selected. -/
theorem getValues_getProjection {axes : List Axis} {axis : Axis} (h : axis ∈ axes) :
    (space.getProjection axes).getValues axis = space.getValues axis := by
  apply Option.ext
  intro values
  rw [getValues_eq_some_iff, getValues_eq_some_iff, getProjection, List.mem_filter]
  simp [h]

/-- The first axis in the order comes first. -/
theorem setsInOrder_cons {axis : Axis} {order : List Axis} {values : List Value}
    (h : space.getValues axis = some values) :
    space.setsInOrder (axis :: order) = (axis, values) :: space.setsInOrder order := by
  rw [setsInOrder, List.filterMap_cons, h]
  rfl

/-- Axes that are kept by a projection have the same values in it. -/
theorem setsInOrder_getProjection {axes order : List Axis} (h : ∀ axis ∈ order, axis ∈ axes) :
    (space.getProjection axes).setsInOrder order = space.setsInOrder order := by
  apply List.filterMap_congr
  intro axis haxis
  rw [getValues_getProjection (h axis haxis)]

/-- The axes are those of the order. -/
theorem map_fst_setsInOrder {order : List Axis} (h : ∀ axis ∈ order, axis ∈ space.getAllAxes) :
    (space.setsInOrder order).map Prod.fst = order := by
  induction order with
  | nil => rfl
  | cons axis order ih =>
      rw [List.forall_mem_cons] at h
      rcases exists_getValues h.1 with ⟨values, hvalues⟩
      rw [setsInOrder_cons hvalues, List.map_cons, ih h.2]

/-- The projection to all but the first axis has the other axes. -/
theorem getAllAxes_getProjection_perm {head : Axis} {tail : List Axis}
    (h : (head :: tail).Perm space.getAllAxes) :
    tail.Perm (space.getProjection tail).getAllAxes := by
  have hnodup : (head :: tail).Nodup := h.nodup_iff.mpr space.nodup
  have haxes : (space.getProjection tail).getAllAxes =
      space.getAllAxes.filter fun axis => axis ∈ tail := by
    rw [getAllAxes, getProjection, getAllAxes, List.filter_map]
    rfl
  have htail : (head :: tail).filter (fun axis => axis ∈ tail) = tail := by
    rw [List.filter_cons_of_neg (by simpa using (List.nodup_cons.mp hnodup).1)]
    exact List.filter_eq_self.mpr fun axis haxis => decide_eq_true haxis
  rw [haxes]
  have hfiltered := h.filter fun axis => decide (axis ∈ tail)
  rwa [htail] at hfiltered

/-- A permutation of the axes is what {lit}`getAxes` makes of it. -/
theorem getAxes_eq (hashOrder : HashOrder) {order : List Axis}
    (h : order.Perm space.getAllAxes) : space.getAxes hashOrder (order.map some) = order := by
  have hall : ∀ axis ∈ order.map some, Option.isSome axis = true := by simp
  have hmentioned : (order.map some).filterMap id = order := by simp
  have hremaining : (space.getAllAxes.filter fun axis => axis ∉ order ∧ axis ∉ []) = [] := by
    rw [List.filter_eq_nil_iff]
    intro axis haxis
    simp [h.mem_iff.mpr haxis]
  have hnone : hashOrder.iterated [] = [] := List.perm_nil.mp (hashOrder.perm [])
  rw [getAxes, List.takeWhile_eq_self_iff.mpr hall, List.dropWhile_eq_nil_iff.mpr hall]
  simp only [hmentioned, List.reverse_nil, List.takeWhile_nil, List.filterMap_nil]
  rw [hremaining, hnone, List.append_nil, List.append_nil]

/-- The points with one value of the first axis. -/
theorem pointsOfValue_eq {head : Axis} {sets : List (Axis × List Value)}
    (h : head ∉ sets.map Prod.fst) (value : Value) :
    pointsOfValue head (pointsOf sets) value =
      .ok (if (pointsOf sets).isEmpty then [Coordinate.empty.getExtendedPoint head value]
        else (pointsOf sets).map fun subSpacePoint => subSpacePoint.getExtendedPoint head value) := by
  unfold pointsOfValue
  split
  · rfl
  · apply mapM_eq_ok
    intro subSpacePoint hpoint
    exact Coordinate.extend_eq_ok value (not_contains_of_mem_pointsOf hpoint h)

/-- A permutation of the axes leads to no exception. -/
theorem pointsInOrder_eq {order : List Axis} (h : order.Perm space.getAllAxes) :
    space.pointsInOrder order = .ok (pointsOf (space.setsInOrder order)) := by
  induction order generalizing space with
  | nil =>
      have hempty : space.axisValueSets = [] :=
        List.map_eq_nil_iff.mp (List.perm_nil.mp h.symm)
      rw [pointsInOrder, if_pos (by rw [hempty]; rfl)]
      rfl
  | cons head tail ih =>
      have hnodup : (head :: tail).Nodup := h.nodup_iff.mpr space.nodup
      have hmem : ∀ axis ∈ head :: tail, axis ∈ space.getAllAxes := fun axis => h.mem_iff.mp
      rw [List.forall_mem_cons] at hmem
      rcases exists_getValues hmem.1 with ⟨values, hvalues⟩
      have hne : ¬space.axisValueSets.isEmpty := by
        have hset := getValues_eq_some_iff.mp hvalues
        rw [List.isEmpty_iff]
        exact List.ne_nil_of_mem hset
      have hsub := ih (getAllAxes_getProjection_perm h)
      rw [setsInOrder_getProjection (fun _ => id)] at hsub
      have hhead : head ∉ (space.setsInOrder tail).map Prod.fst := by
        rw [map_fst_setsInOrder hmem.2]
        exact (List.nodup_cons.mp hnodup).1
      rw [pointsInOrder, if_neg hne, hsub, setsInOrder_cons hvalues]
      change (match space.getValues head with
        | none => _
        | some values => _) = _
      rw [hvalues]
      simp only
      rw [mapM_eq_ok fun value _ => pointsOfValue_eq hhead value]
      rfl

/-- In the order of the space, the axes are those of the space. -/
theorem setsInOrder_getAllAxes : space.setsInOrder space.getAllAxes = space.axisValueSets := by
  have hsets : ∀ set ∈ space.axisValueSets,
      ((space.getValues set.1).map fun values => (set.1, values)) = some set := by
    intro set hset
    rw [getValues_eq_some_iff.mpr hset]
    rfl
  rw [setsInOrder, getAllAxes, List.filterMap_map]
  exact (List.filterMap_congr hsets).trans List.filterMap_some

/-- Without an order, the points are those of the axes as they were added. -/
theorem pointsInOrder_getAllAxes :
    space.pointsInOrder space.getAllAxes = .ok space.getAllPoints := by
  rw [pointsInOrder_eq (List.Perm.refl _), setsInOrder_getAllAxes, getAllPoints]

end ParameterSpace

/-! ## The order of the points -/

/-- The coordinate comes before the other in lexicographic order: on the first axis where they
differ its value is before that of the other. -/
def Precedes : List (Axis × List Value) → Coordinate Value → Coordinate Value → Prop
  | [], _, _ => False
  | (axis, values) :: sets, point, other =>
      (∃ value otherValue, point axis = some value ∧ other axis = some otherValue ∧
        List.Sublist [value, otherValue] values) ∨
      (point axis = other axis ∧ Precedes sets point other)

/-- The order of points depends on the axes only. -/
theorem precedes_congr {sets : List (Axis × List Value)}
    {point point' other other' : Coordinate Value}
    (hpoint : ∀ axis ∈ sets.map Prod.fst, point axis = point' axis)
    (hother : ∀ axis ∈ sets.map Prod.fst, other axis = other' axis) :
    Precedes sets point other ↔ Precedes sets point' other' := by
  induction sets with
  | nil => exact Iff.rfl
  | cons set sets ih =>
      rw [List.map_cons, List.forall_mem_cons] at hpoint hother
      rw [Precedes, Precedes, hpoint.1, hother.1, ih hpoint.2 hother.2]

/-- The points are in lexicographic order, with the first axis varying slowest. -/
theorem pairwise_pointsOf {sets : List (Axis × List Value)}
    (hnodup : (sets.map Prod.fst).Nodup) : (pointsOf sets).Pairwise (Precedes sets) := by
  induction sets with
  | nil => exact List.Pairwise.nil
  | cons set sets ih =>
      rcases set with ⟨axis, values⟩
      rw [List.map_cons, List.nodup_cons] at hnodup
      have hfirst : ∀ (subSpacePoint : Coordinate Value) (value : Value),
          subSpacePoint.getExtendedPoint axis value axis = some value := fun _ _ =>
        Function.update_self _ _ _
      have hothers : ∀ (subSpacePoint : Coordinate Value) (value : Value),
          ∀ other ∈ sets.map Prod.fst,
            subSpacePoint.getExtendedPoint axis value other = subSpacePoint other := by
        rintro subSpacePoint value other hother
        apply Function.update_of_ne
        rintro rfl
        exact hnodup.1 hother
      rw [pointsOf, List.pairwise_flatMap]
      constructor
      · intro value hvalue
        split
        · exact List.pairwise_singleton _ _
        · rw [List.pairwise_map]
          apply (ih hnodup.2).imp
          intro point other hprecedes
          refine Or.inr ⟨by rw [hfirst, hfirst], ?_⟩
          exact (precedes_congr (hothers point value) (hothers other value)).mpr hprecedes
      · rw [List.pairwise_iff_forall_sublist]
        intro value otherValue hsublist point hpoint other hother
        have hvalue : ∀ {v : Value} {p : Coordinate Value},
            p ∈ (if (pointsOf sets).isEmpty then [Coordinate.empty.getExtendedPoint axis v]
              else (pointsOf sets).map fun subSpacePoint =>
                subSpacePoint.getExtendedPoint axis v) → p axis = some v := by
          intro v p hp
          split at hp
          · rw [List.mem_singleton.mp hp, hfirst]
          · rcases List.mem_map.mp hp with ⟨subSpacePoint, -, rfl⟩
            exact hfirst _ _
        exact Or.inl ⟨value, otherValue, hvalue hpoint, hvalue hother, hsublist⟩

/-- No coordinate comes before itself where the values are distinct. -/
theorem not_precedes_self {sets : List (Axis × List Value)}
    (hdistinct : ∀ set ∈ sets, set.2.Nodup) (point : Coordinate Value) :
    ¬Precedes sets point point := by
  induction sets with
  | nil => exact id
  | cons set sets ih =>
      rw [List.forall_mem_cons] at hdistinct
      rintro (⟨value, otherValue, hvalue, hother, hsublist⟩ | ⟨-, hrest⟩)
      · rw [hvalue, Option.some.injEq] at hother
        subst hother
        exact List.nodup_iff_sublist.mp hdistinct.1 value hsublist
      · exact ih hdistinct.2 hrest

/-! ## The Cartesian product -/

section Product

variable {space : ParameterSpace Value} {order : List Axis}

/-- The points are all choices of a value on each axis, each of them once, in lexicographic
order. -/
structure IsCartesianProduct (space : ParameterSpace Value) (order : List Axis)
    (points : List (Coordinate Value)) : Prop where
  mem_iff : ∀ point, point ∈ points ↔ ChoosesValues space.axisValueSets point
  nodup : points.Nodup
  carries : ∀ point ∈ points, ∀ axis ∈ space.getAllAxes, point.contains axis = true
  ordered : points.Pairwise (Precedes (space.setsInOrder order))
  empty : (∃ axis, space.getValues axis = some []) → points = []

/-- A permutation of the axes has the same values. -/
theorem mem_setsInOrder (h : order.Perm space.getAllAxes) {set : Axis × List Value} :
    set ∈ space.setsInOrder order ↔ set ∈ space.axisValueSets := by
  rcases set with ⟨axis, values⟩
  rw [ParameterSpace.setsInOrder, List.mem_filterMap]
  constructor
  · rintro ⟨other, -, hother⟩
    rcases Option.map_eq_some_iff.mp hother with ⟨_, hvalues, heq⟩
    cases heq
    exact ParameterSpace.getValues_eq_some_iff.mp hvalues
  · intro hmem
    refine ⟨axis, h.mem_iff.mpr (List.mem_map_of_mem hmem), ?_⟩
    rw [ParameterSpace.getValues_eq_some_iff.mpr hmem]
    rfl

/-- The points do not depend on the order of the axes. -/
theorem choosesValues_setsInOrder (h : order.Perm space.getAllAxes) {point : Coordinate Value} :
    ChoosesValues (space.setsInOrder order) point ↔ ChoosesValues space.axisValueSets point := by
  have haxes : ∀ axis, axis ∉ (space.setsInOrder order).map Prod.fst ↔
      axis ∉ space.axisValueSets.map Prod.fst := by
    intro axis
    rw [ParameterSpace.map_fst_setsInOrder fun axis => h.mem_iff.mp, h.mem_iff]
    rfl
  simp only [ChoosesValues, mem_setsInOrder h, haxes]

/-- A space with an axis that has no value has no choices. -/
theorem not_choosesValues {axis : Axis} (h : space.getValues axis = some [])
    (point : Coordinate Value) : ¬ChoosesValues space.axisValueSets point := by
  rintro ⟨hvalues, -⟩
  rcases hvalues _ (ParameterSpace.getValues_eq_some_iff.mp h) with ⟨value, hmem, -⟩
  cases hmem

/-- No points are a Cartesian product if an axis has no value. -/
theorem isCartesianProduct_nil {axis : Axis} (h : space.getValues axis = some []) :
    IsCartesianProduct space order [] where
  mem_iff point := iff_of_false List.not_mem_nil (not_choosesValues h point)
  nodup := List.nodup_nil
  carries _ hmem := absurd hmem List.not_mem_nil
  ordered := List.Pairwise.nil
  empty _ := rfl

/-- The points are the Cartesian product if all axes have a value. -/
theorem isCartesianProduct_pointsOf (hperm : order.Perm space.getAllAxes)
    (hne : space.axisValueSets ≠ []) (hdistinct : ∀ set ∈ space.axisValueSets, set.2.Nodup)
    (hvalues : ∀ set ∈ space.axisValueSets, set.2 ≠ []) :
    IsCartesianProduct space order (pointsOf (space.setsInOrder order)) := by
  have hfst := ParameterSpace.map_fst_setsInOrder fun axis => hperm.mem_iff.mp
  have hnodup : ((space.setsInOrder order).map Prod.fst).Nodup := by
    rw [hfst]
    exact hperm.nodup_iff.mpr space.nodup
  have hordered := pairwise_pointsOf hnodup
  have hmem : ∀ point, point ∈ pointsOf (space.setsInOrder order) ↔
      ChoosesValues space.axisValueSets point := by
    intro point
    rw [← choosesValues_setsInOrder hperm, ← mem_pointsOf_or_iff hnodup
      fun set hset => hvalues set ((mem_setsInOrder hperm).mp hset)]
    refine ⟨Or.inl, fun hpoint => hpoint.resolve_right ?_⟩
    rintro ⟨hempty, -⟩
    cases hsets : space.setsInOrder order with
    | nil =>
        rcases List.exists_mem_of_ne_nil _ hne with ⟨set, hset⟩
        rw [← mem_setsInOrder hperm, hsets] at hset
        cases hset
    | cons set sets =>
        rw [hsets] at hempty
        have hset : set ∈ space.axisValueSets := by
          rw [← mem_setsInOrder hperm, hsets]
          exact List.mem_cons_self
        exact pointsOf_cons_ne_nil (hvalues set hset) hempty
  constructor
  case mem_iff => exact hmem
  case nodup =>
    apply hordered.imp
    rintro point other hprecedes rfl
    exact not_precedes_self
      (fun set hset => hdistinct set ((mem_setsInOrder hperm).mp hset)) point hprecedes
  case carries =>
    intro point hpoint axis haxis
    rcases List.mem_map.mp haxis with ⟨set, hset, rfl⟩
    rcases ((hmem point).mp hpoint).1 set hset with ⟨value, -, hvalue⟩
    rw [Coordinate.contains, hvalue]
    rfl
  case ordered => exact hordered
  case empty =>
    rintro ⟨axis, haxis⟩
    exact absurd rfl (hvalues _ (ParameterSpace.getValues_eq_some_iff.mp haxis))

/-- The points are the Cartesian product exactly where all axes have a value, or the first has
none. -/
theorem isCartesianProduct_iff (hashOrder : HashOrder) (hne : space.axisValueSets ≠ [])
    (hdistinct : ∀ set ∈ space.axisValueSets, set.2.Nodup)
    (hperm : order.Perm space.getAllAxes) :
    (∃ points, space.getAllPointsOrdered hashOrder (order.map some) = .ok points ∧
      IsCartesianProduct space order points) ↔
      (∀ axis ∈ order, space.getValues axis ≠ some []) ∨
        order.head?.bind space.getValues = some [] := by
  rw [ParameterSpace.getAllPointsOrdered, ParameterSpace.getAxes_eq hashOrder hperm,
    ParameterSpace.pointsInOrder_eq hperm]
  constructor
  · rintro ⟨points, heq, hproduct⟩
    cases heq
    by_cases hsome : ∀ axis ∈ order, space.getValues axis ≠ some []
    · exact Or.inl hsome
    · right
      rw [not_forall] at hsome
      rcases hsome with ⟨axis, haxis⟩
      rw [Classical.not_imp, not_not] at haxis
      rcases haxis with ⟨-, haxis⟩
      have hempty := hproduct.empty ⟨axis, haxis⟩
      cases order with
      | nil => exact absurd (List.map_eq_nil_iff.mp (List.perm_nil.mp hperm.symm)) hne
      | cons head tail =>
          rcases ParameterSpace.exists_getValues (hperm.mem_iff.mp List.mem_cons_self) with
            ⟨values, hvalues⟩
          rw [ParameterSpace.setsInOrder_cons hvalues] at hempty
          by_contra hfirst
          rw [List.head?_cons, Option.bind_some, hvalues, Option.some.injEq] at hfirst
          exact pointsOf_cons_ne_nil hfirst hempty
  · rintro (hsome | hfirst)
    · refine ⟨_, rfl, isCartesianProduct_pointsOf hperm hne hdistinct ?_⟩
      rintro ⟨axis, values⟩ hset rfl
      exact hsome axis (hperm.mem_iff.mpr (List.mem_map_of_mem hset))
        (ParameterSpace.getValues_eq_some_iff.mpr hset)
    · refine ⟨_, rfl, ?_⟩
      cases order with
      | nil => cases hfirst
      | cons head tail =>
          rw [List.head?_cons, Option.bind_some] at hfirst
          rw [ParameterSpace.setsInOrder_cons hfirst]
          exact isCartesianProduct_nil hfirst

/-- Two axes, of which the second has no value. -/
def spaceWithEmptyAxis : ParameterSpace Nat :=
  ⟨[(⟨"a"⟩, [1]), (⟨"b"⟩, [])], by decide⟩

/-- A hash set that keeps the order of insertion. -/
def insertionOrder : HashOrder :=
  ⟨id, fun _ => List.Perm.refl _⟩

/-- If the axis without values comes first, there is no point; if it comes last, there are points
that leave it out. -/
theorem isCartesianProduct_emptyFirst :
    (∃ points, spaceWithEmptyAxis.getAllPointsOrdered insertionOrder
        ([⟨"b"⟩, ⟨"a"⟩].map some) = .ok points ∧
      IsCartesianProduct spaceWithEmptyAxis [⟨"b"⟩, ⟨"a"⟩] points) ∧
    ¬∃ points, spaceWithEmptyAxis.getAllPointsOrdered insertionOrder
        ([⟨"a"⟩, ⟨"b"⟩].map some) = .ok points ∧
      IsCartesianProduct spaceWithEmptyAxis [⟨"a"⟩, ⟨"b"⟩] points := by
  have hswapped : [⟨"b"⟩, ⟨"a"⟩].Perm spaceWithEmptyAxis.getAllAxes := List.Perm.swap _ _ _
  have hordered : [⟨"a"⟩, ⟨"b"⟩].Perm spaceWithEmptyAxis.getAllAxes := List.Perm.refl _
  have hfirst := isCartesianProduct_iff insertionOrder (by decide) (by decide) hswapped
  have hlast := isCartesianProduct_iff insertionOrder (by decide) (by decide) hordered
  refine ⟨hfirst.mpr (Or.inr (by decide)), fun h => ?_⟩
  rcases hlast.mp h with hsome | hempty
  · exact hsome ⟨"b"⟩ (by decide) (by decide)
  · exact absurd hempty (by decide)

/-- The axis without values comes last, and there is a point without it. -/
theorem not_isCartesianProduct :
    ¬∀ (space : ParameterSpace Nat) (order : List Axis), space.axisValueSets ≠ [] →
      (∀ set ∈ space.axisValueSets, set.2.Nodup) → order.Perm space.getAllAxes →
      ∃ points, space.getAllPointsOrdered insertionOrder (order.map some) = .ok points ∧
        IsCartesianProduct space order points := by
  intro h
  have hperm : List.Perm [⟨"a"⟩, ⟨"b"⟩] spaceWithEmptyAxis.getAllAxes := List.Perm.refl _
  rcases h spaceWithEmptyAxis _ (by decide) (by decide) hperm with ⟨points, heq, hproduct⟩
  have hempty := hproduct.empty ⟨⟨"b"⟩, by decide⟩
  have hvalues : spaceWithEmptyAxis.getValues ⟨"a"⟩ = some [1] := by decide
  rw [hempty, ParameterSpace.getAllPointsOrdered,
    ParameterSpace.getAxes_eq insertionOrder hperm, ParameterSpace.pointsInOrder_eq hperm,
    ParameterSpace.setsInOrder_cons hvalues] at heq
  exact pointsOf_cons_ne_nil (by decide) (Except.ok.inj heq)

end Product

end Optimization
end Roofline
