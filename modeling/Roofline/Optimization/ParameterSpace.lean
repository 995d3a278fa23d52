import Mathlib.Data.List.Flatten
import Mathlib.Data.List.Nodup
import Mathlib.Logic.Function.Basic
import Mathlib.Tactic.Common
import Roofline.Java.Throwable
import Roofline.Library.Circles
import Roofline.Library.Programs

/-!
# Parameter spaces

A parameter space gives a list of values to each of its axes.  Its points are the coordinates
that choose one of the values on each axis.

Main results:

- Theorem {lit}`contains_iff_of_mem_getAllPoints`: all points have the same axes.
- Theorem {lit}`not_contains_of_mem_pointsOf`: the points of a space can be extended by an axis
  that it does not have.
-/

namespace Roofline
namespace Optimization

open Circles
open Programs (bind_eq_ok)

/-- An axis is identified by its unique id. -/
structure Axis where
  uid : String
deriving DecidableEq

variable {Value : Type}

/-! ## Coordinates -/

/-- The values of the axes that are part of the coordinate. -/
abbrev Coordinate (Value : Type) := Axis → Option Value

namespace Coordinate

/-- A coordinate without axes. -/
def empty : Coordinate Value :=
  fun _ => none

/-- {lit}`contains` -/
def contains (coordinate : Coordinate Value) (axis : Axis) : Bool :=
  (coordinate axis).isSome

/-- {lit}`getName` gives the names of the axes. -/
def get (getName : Axis → String) (coordinate : Coordinate Value) (axis : Axis) :
    Except Throwable Value :=
  match coordinate axis with
  | some value => .ok value
  | none => .error (.error ("axis " ++ getName axis ++ " not part of the coordinate"))

/-- The axis must not be part of the coordinate; as the axes of a space are distinct, the check
never fails there. -/
def getExtendedPoint (coordinate : Coordinate Value) (axis : Axis) (value : Value) :
    Coordinate Value :=
  Function.update coordinate axis (some value)

/-- {lit}`getMovedPoint` -/
def getMovedPoint (coordinate : Coordinate Value) (axis : Axis) (value : Value) :
    Except Throwable (Coordinate Value) :=
  if coordinate.contains axis then .ok (Function.update coordinate axis (some value))
  else .error (.error "Axis is not part of the coordinate")

/-- The empty coordinate has no axis. -/
@[simp] theorem contains_empty (axis : Axis) : (empty : Coordinate Value).contains axis = false :=
  rfl

/-- The axes of an extended coordinate. -/
@[simp] theorem contains_getExtendedPoint (coordinate : Coordinate Value) (axis other : Axis)
    (value : Value) :
    (coordinate.getExtendedPoint axis value).contains other =
      (decide (other = axis) || coordinate.contains other) := by
  by_cases hother : other = axis
  · subst hother
    simp [contains, getExtendedPoint]
  · simp [contains, getExtendedPoint, hother]

end Coordinate

/-! ## Spaces -/

/-- The axes with their values, in the order in which they were added. -/
structure ParameterSpace (Value : Type) where
  axisValueSets : List (Axis × List Value)
  nodup : (axisValueSets.map Prod.fst).Nodup

/-- {lit}`getAllPoints` for the given axes. -/
def pointsOf : List (Axis × List Value) → List (Coordinate Value)
  | [] => []
  | (axis, values) :: sets =>
      let subSpacePoints := pointsOf sets
      values.flatMap fun value =>
        if subSpacePoints.isEmpty then [Coordinate.empty.getExtendedPoint axis value]
        else subSpacePoints.map fun subSpacePoint => subSpacePoint.getExtendedPoint axis value

namespace ParameterSpace

variable (space : ParameterSpace Value)

/-- {lit}`getAllPoints` -/
def getAllPoints : List (Coordinate Value) :=
  pointsOf space.axisValueSets

/-- The first of the axes that have the most values. -/
def getLongestAxis : Option (Axis × List Value) :=
  space.axisValueSets.foldl (fun result set =>
    match result with
    | none => some set
    | some longest => if longest.2.length < set.2.length then some set else some longest) none

end ParameterSpace

/-- {lit}`List.indexOf`, which is -1 for an element that is not in the list. -/
def indexOf [DecidableEq Value] (values : List Value) (value : Value) : Int :=
  if value ∈ values then values.idxOf value else -1

/-- {lit}`List.get`. -/
def getAt (values : List Value) (index : Int) : Except Throwable Value :=
  if index < 0 then .error .indexOutOfBoundsException
  else match values[index.toNat]? with
    | some value => .ok value
    | none => .error .indexOutOfBoundsException

/-- The points before and after a point along an axis, which is closed to a circle. -/
def neighborsAlong [DecidableEq Value] (getName : Axis → String) (middle : Coordinate Value)
    (axis : Axis) (values : List Value) : Except Throwable (List (Coordinate Value)) := do
  let index := indexOf values (← middle.get getName axis)
  let prev := if index - 1 < 0 then (values.length : Int) - 1 else index - 1
  let next := if (values.length : Int) ≤ index + 1 then 0 else index + 1
  let before ← middle.getMovedPoint axis (← getAt values prev)
  let after ← middle.getMovedPoint axis (← getAt values next)
  return [before, after]

/-- The loop of {lit}`getNeighbors` over the axes. -/
def neighborsOf [DecidableEq Value] (getName : Axis → String) (middle : Coordinate Value) :
    List (Axis × List Value) → Except Throwable (List (Coordinate Value))
  | [] => .ok []
  | (axis, values) :: sets => do
      let neighbors ← neighborsAlong getName middle axis values
      let others ← neighborsOf getName middle sets
      return neighbors ++ others

/-- {lit}`getNeighbors` -/
def ParameterSpace.getNeighbors [DecidableEq Value] (getName : Axis → String)
    (space : ParameterSpace Value) (middle : Coordinate Value) :
    Except Throwable (List (Coordinate Value)) :=
  neighborsOf getName middle space.axisValueSets

/-! ## The axes of the points -/

/-- The points with one more axis. -/
theorem mem_pointsOf_cons {axis : Axis} {values : List Value} {sets : List (Axis × List Value)}
    {point : Coordinate Value} :
    point ∈ pointsOf ((axis, values) :: sets) ↔
      ∃ value ∈ values, ∃ subSpacePoint : Coordinate Value,
        (subSpacePoint ∈ pointsOf sets ∨ pointsOf sets = [] ∧ subSpacePoint = Coordinate.empty) ∧
          point = subSpacePoint.getExtendedPoint axis value := by
  simp only [pointsOf, List.mem_flatMap]
  refine exists_congr fun value => and_congr_right fun _ => ?_
  cases hpoints : pointsOf sets with
  | nil => simp
  | cons first others =>
      simp only [List.isEmpty_cons, Bool.false_eq_true, if_false, List.mem_map, reduceCtorEq,
        false_and, or_false]
      exact exists_congr fun subSpacePoint => and_congr_right fun _ => eq_comm

/-- All points of a space have the same axes. -/
theorem contains_iff_of_mem_pointsOf {sets : List (Axis × List Value)}
    {point other : Coordinate Value} (hpoint : point ∈ pointsOf sets)
    (hother : other ∈ pointsOf sets) (axis : Axis) :
    point.contains axis = other.contains axis := by
  induction sets generalizing point other with
  | nil => simp [pointsOf] at hpoint
  | cons set sets ih =>
      rcases mem_pointsOf_cons.mp hpoint with ⟨_, _, subPoint, hsub, rfl⟩
      rcases mem_pointsOf_cons.mp hother with ⟨_, _, subOther, hsubOther, rfl⟩
      have hsame : subPoint.contains axis = subOther.contains axis := by
        rcases hsub with hsub | ⟨hempty, rfl⟩
        · rcases hsubOther with hsubOther | ⟨hempty, rfl⟩
          · exact ih hsub hsubOther
          · simp [hempty] at hsub
        · rcases hsubOther with hsubOther | ⟨_, rfl⟩
          · simp [hempty] at hsubOther
          · rfl
      simp [hsame]

/-- All points have the same axes. -/
theorem contains_iff_of_mem_getAllPoints {space : ParameterSpace Value}
    {point other : Coordinate Value} (hpoint : point ∈ space.getAllPoints)
    (hother : other ∈ space.getAllPoints) (axis : Axis) :
    point.contains axis = other.contains axis :=
  contains_iff_of_mem_pointsOf hpoint hother axis

/-- No point has an axis that its space does not have. -/
theorem not_contains_of_mem_pointsOf {sets : List (Axis × List Value)}
    {point : Coordinate Value} (hpoint : point ∈ pointsOf sets) {axis : Axis}
    (haxis : axis ∉ sets.map Prod.fst) : point.contains axis = false := by
  induction sets generalizing point with
  | nil => simp [pointsOf] at hpoint
  | cons set sets ih =>
      rcases mem_pointsOf_cons.mp hpoint with ⟨_, _, subSpacePoint, hsub, rfl⟩
      rw [List.map_cons, List.mem_cons, not_or] at haxis
      have hrest : subSpacePoint.contains axis = false := by
        rcases hsub with hsub | ⟨_, rfl⟩
        · exact ih hsub haxis.2
        · rfl
      simp [haxis.1, hrest]

/-! ## The points of a space -/

/-- The coordinate has one of the values on each of the axes, and no other axis. -/
def ChoosesValues (sets : List (Axis × List Value)) (point : Coordinate Value) : Prop :=
  (∀ set ∈ sets, ∃ value ∈ set.2, point set.1 = some value) ∧
    ∀ axis, axis ∉ sets.map Prod.fst → point axis = none

/-- Without axes the only point is the empty one. -/
theorem choosesValues_nil {point : Coordinate Value} :
    ChoosesValues [] point ↔ point = Coordinate.empty := by
  constructor
  · rintro ⟨-, hnone⟩
    funext axis
    exact hnone axis (by simp)
  · rintro rfl
    exact ⟨by simp, fun _ _ => rfl⟩

/-- A coordinate chooses a value on the first axis, and the others on the rest. -/
theorem choosesValues_cons {axis : Axis} {values : List Value} {sets : List (Axis × List Value)}
    (haxis : axis ∉ sets.map Prod.fst) {point : Coordinate Value} :
    ChoosesValues ((axis, values) :: sets) point ↔
      ∃ value ∈ values, ∃ subSpacePoint : Coordinate Value, ChoosesValues sets subSpacePoint ∧
        point = subSpacePoint.getExtendedPoint axis value := by
  have hne : ∀ set ∈ sets, set.1 ≠ axis := by
    rintro set hset rfl
    exact haxis (List.mem_map_of_mem hset)
  constructor
  · rintro ⟨hvalues, hnone⟩
    rcases hvalues _ List.mem_cons_self with ⟨value, hvalue, hpoint⟩
    refine ⟨value, hvalue, Function.update point axis none, ⟨?_, ?_⟩, ?_⟩
    · intro set hset
      rw [Function.update_of_ne (hne set hset)]
      exact hvalues set (List.mem_cons_of_mem _ hset)
    · intro other hother
      by_cases hsame : other = axis
      · rw [hsame, Function.update_self]
      · rw [Function.update_of_ne hsame]
        exact hnone other (by simp [hsame, List.mem_map] at hother ⊢; exact hother)
    · rw [Coordinate.getExtendedPoint, Function.update_idem, ← hpoint, Function.update_eq_self]
  · rintro ⟨value, hvalue, subSpacePoint, ⟨hvalues, hnone⟩, rfl⟩
    constructor
    · intro set hset
      rcases List.mem_cons.mp hset with rfl | hset
      · exact ⟨value, hvalue, Function.update_self _ _ _⟩
      · rw [Coordinate.getExtendedPoint, Function.update_of_ne (hne set hset)]
        exact hvalues set hset
    · intro other hother
      rw [List.map_cons, List.mem_cons, not_or] at hother
      rw [Coordinate.getExtendedPoint, Function.update_of_ne hother.1]
      exact hnone other hother.2

/-- A space whose first axis has a value has a point. -/
theorem pointsOf_cons_ne_nil {axis : Axis} {values : List Value} {sets : List (Axis × List Value)}
    (hvalues : values ≠ []) : pointsOf ((axis, values) :: sets) ≠ [] := by
  rcases List.exists_mem_of_ne_nil values hvalues with ⟨value, hvalue⟩
  have hsub : ∃ subSpacePoint : Coordinate Value, subSpacePoint ∈ pointsOf sets ∨
      pointsOf sets = [] ∧ subSpacePoint = Coordinate.empty := by
    cases pointsOf sets with
    | nil => exact ⟨Coordinate.empty, .inr ⟨rfl, rfl⟩⟩
    | cons subSpacePoint others => exact ⟨subSpacePoint, .inl List.mem_cons_self⟩
  rcases hsub with ⟨subSpacePoint, hsub⟩
  have hpoint : subSpacePoint.getExtendedPoint axis value ∈ pointsOf ((axis, values) :: sets) :=
    mem_pointsOf_cons.mpr ⟨value, hvalue, subSpacePoint, hsub, rfl⟩
  exact List.ne_nil_of_mem hpoint

/-- If every axis has a value, the points are the choices of a value on each axis. -/
theorem mem_pointsOf_or_iff {sets : List (Axis × List Value)}
    (hnodup : (sets.map Prod.fst).Nodup) (hvalues : ∀ set ∈ sets, set.2 ≠ [])
    {point : Coordinate Value} :
    point ∈ pointsOf sets ∨ pointsOf sets = [] ∧ point = Coordinate.empty ↔
      ChoosesValues sets point := by
  induction sets generalizing point with
  | nil => simp [pointsOf, choosesValues_nil]
  | cons set sets ih =>
      rcases set with ⟨axis, values⟩
      rw [List.map_cons, List.nodup_cons] at hnodup
      have htail : ∀ set ∈ sets, set.2 ≠ [] := fun set hset =>
        hvalues set (List.mem_cons_of_mem _ hset)
      have hsome : pointsOf ((axis, values) :: sets) ≠ [] :=
        pointsOf_cons_ne_nil (hvalues _ List.mem_cons_self)
      rw [or_iff_left (fun h => hsome h.1), mem_pointsOf_cons, choosesValues_cons hnodup.1]
      simp only [ih hnodup.2 htail]

/-- The points of a space with at least one axis and a value on each. -/
theorem mem_getAllPoints_iff {space : ParameterSpace Value} (hne : space.axisValueSets ≠ [])
    (hvalues : ∀ set ∈ space.axisValueSets, set.2 ≠ []) {point : Coordinate Value} :
    point ∈ space.getAllPoints ↔ ChoosesValues space.axisValueSets point := by
  rw [← mem_pointsOf_or_iff space.nodup hvalues, ParameterSpace.getAllPoints]
  cases hsets : space.axisValueSets with
  | nil => exact absurd hsets hne
  | cons set sets =>
      rw [hsets] at hvalues
      have hsome : pointsOf (set :: sets) ≠ [] :=
        pointsOf_cons_ne_nil (hvalues set List.mem_cons_self)
      rw [or_iff_left fun h => hsome h.1]

/-- If every axis has a value, a point chooses one on each axis. -/
theorem choosesValues_of_mem {space : ParameterSpace Value}
    (hvalues : ∀ set ∈ space.axisValueSets, set.2 ≠ []) {point : Coordinate Value}
    (hpoint : point ∈ space.getAllPoints) : ChoosesValues space.axisValueSets point :=
  (mem_pointsOf_or_iff space.nodup hvalues).mp (.inl hpoint)

/-- With one of the values of an axis on it, a choice of values stays one. -/
theorem ChoosesValues.update {space : ParameterSpace Value}
    {set : Axis × List Value} {point : Coordinate Value}
    (h : ChoosesValues space.axisValueSets point) (hset : set ∈ space.axisValueSets)
    {value : Value} (hvalue : value ∈ set.2) :
    ChoosesValues space.axisValueSets (Function.update point set.1 (some value)) := by
  constructor
  · intro other hother
    by_cases hsame : other.1 = set.1
    · obtain rfl : other = set := List.inj_on_of_nodup_map space.nodup hother hset hsame
      exact ⟨value, hvalue, Function.update_self _ _ _⟩
    · rw [Function.update_of_ne hsame]
      exact h.1 other hother
  · intro axis haxis
    have hother : axis ≠ set.1 := by
      rintro rfl
      exact haxis (List.mem_map_of_mem hset)
    rw [Function.update_of_ne hother]
    exact h.2 axis haxis

/-- If all axes have values there are points. -/
theorem getAllPoints_ne_nil {space : ParameterSpace Value} (haxes : space.axisValueSets ≠ [])
    (hvalues : ∀ set ∈ space.axisValueSets, set.2 ≠ []) : space.getAllPoints ≠ [] := by
  unfold ParameterSpace.getAllPoints
  cases hsets : space.axisValueSets with
  | nil => exact absurd hsets haxes
  | cons set sets =>
      rw [hsets] at hvalues
      exact pointsOf_cons_ne_nil (hvalues set List.mem_cons_self)

/-- If there are axes, one of them is the longest. -/
theorem exists_getLongestAxis {space : ParameterSpace Value} (haxes : space.axisValueSets ≠ []) :
    ∃ longest, space.getLongestAxis = some longest := by
  have hkeep : ∀ (sets : List (Axis × List Value)) (longest : Axis × List Value),
      ∃ result, sets.foldl (fun result set =>
        match result with
        | none => some set
        | some longest => if longest.2.length < set.2.length then some set else some longest)
        (some longest) = some result := by
    intro sets
    induction sets with
    | nil => exact fun longest => ⟨longest, rfl⟩
    | cons set sets ih =>
        intro longest
        rw [List.foldl_cons]
        dsimp only
        split
        · exact ih set
        · exact ih longest
  unfold ParameterSpace.getLongestAxis
  cases hsets : space.axisValueSets with
  | nil => exact absurd hsets haxes
  | cons set sets => exact hkeep sets set

/-! ## Neighbors -/

/-- What is found at an index is one of the values. -/
theorem mem_of_getAt {values : List Value} {index : Int} {value : Value}
    (h : getAt values index = .ok value) : value ∈ values := by
  unfold getAt at h
  split at h
  · cases h
  · split at h
    · rename_i found hfound
      rcases Except.ok.inj h with rfl
      exact List.mem_of_getElem? hfound
    · cases h

/-- A moved point differs in one axis. -/
theorem eq_of_getMovedPoint {coordinate moved : Coordinate Value} {axis : Axis} {value : Value}
    (h : coordinate.getMovedPoint axis value = .ok moved) :
    moved = Function.update coordinate axis (some value) := by
  unfold Coordinate.getMovedPoint at h
  split at h
  · exact (Except.ok.inj h).symm
  · cases h

/-- A neighbor along an axis has one of the values of the axis, so that there must be one. -/
theorem neighborsAlong_ok [DecidableEq Value] {getName : Axis → String}
    {middle : Coordinate Value} {axis : Axis} {values : List Value}
    {neighbors : List (Coordinate Value)}
    (h : neighborsAlong getName middle axis values = .ok neighbors) :
    values ≠ [] ∧ ∀ neighbor ∈ neighbors, ∃ value ∈ values,
      neighbor = Function.update middle axis (some value) := by
  rcases bind_eq_ok.mp h with ⟨value, -, h⟩
  rcases bind_eq_ok.mp h with ⟨prevValue, hprev, h⟩
  rcases bind_eq_ok.mp h with ⟨before, hbefore, h⟩
  rcases bind_eq_ok.mp h with ⟨nextValue, hnext, h⟩
  rcases bind_eq_ok.mp h with ⟨after, hafter, h⟩
  rcases Except.ok.inj h with rfl
  refine ⟨List.ne_nil_of_mem (mem_of_getAt hprev), fun neighbor hneighbor => ?_⟩
  rcases List.mem_cons.mp hneighbor with rfl | hneighbor
  · exact ⟨prevValue, mem_of_getAt hprev, eq_of_getMovedPoint hbefore⟩
  · rcases List.mem_singleton.mp hneighbor with rfl
    exact ⟨nextValue, mem_of_getAt hnext, eq_of_getMovedPoint hafter⟩

/-- Neighbors are points that differ in one axis. -/
theorem neighborsOf_ok [DecidableEq Value] {getName : Axis → String} {middle : Coordinate Value}
    {sets : List (Axis × List Value)} {neighbors : List (Coordinate Value)}
    (h : neighborsOf getName middle sets = .ok neighbors) :
    (∀ set ∈ sets, set.2 ≠ []) ∧ ∀ neighbor ∈ neighbors, ∃ set ∈ sets, ∃ value ∈ set.2,
      neighbor = Function.update middle set.1 (some value) := by
  induction sets generalizing neighbors with
  | nil =>
      rcases Except.ok.inj h with rfl
      simp
  | cons set sets ih =>
      rcases bind_eq_ok.mp h with ⟨along, halong, h⟩
      rcases bind_eq_ok.mp h with ⟨others, hothers, h⟩
      rcases Except.ok.inj h with rfl
      rcases neighborsAlong_ok halong with ⟨hvalues, hmoved⟩
      rcases ih hothers with ⟨hrest, hothersMoved⟩
      refine ⟨fun other hother => ?_, fun neighbor hneighbor => ?_⟩
      · rcases List.mem_cons.mp hother with rfl | hother
        · exact hvalues
        · exact hrest other hother
      · rcases List.mem_append.mp hneighbor with hneighbor | hneighbor
        · exact ⟨set, List.mem_cons_self, hmoved neighbor hneighbor⟩
        · rcases hothersMoved neighbor hneighbor with ⟨other, hother, hvalue⟩
          exact ⟨other, List.mem_cons_of_mem _ hother, hvalue⟩

/-- The neighbors of a point of the space are points of the space. -/
theorem mem_getAllPoints_of_mem_getNeighbors [DecidableEq Value] {getName : Axis → String}
    {space : ParameterSpace Value} {point : Coordinate Value}
    (hpoint : point ∈ space.getAllPoints) {neighbors : List (Coordinate Value)}
    (h : space.getNeighbors getName point = .ok neighbors) {neighbor : Coordinate Value}
    (hneighbor : neighbor ∈ neighbors) : neighbor ∈ space.getAllPoints := by
  rcases neighborsOf_ok h with ⟨hvalues, hmoved⟩
  have hne : space.axisValueSets ≠ [] := by
    intro hempty
    simp [ParameterSpace.getAllPoints, hempty, pointsOf] at hpoint
  rw [mem_getAllPoints_iff hne hvalues] at hpoint ⊢
  rcases hmoved neighbor hneighbor with ⟨moved, hset, value, hvalue, rfl⟩
  exact hpoint.update hset hvalue

/-- What is found at an index inside of the list. -/
theorem getAt_natCast {values : List Value} {i : Nat} (h : i < values.length) :
    getAt values i = .ok values[i] := by
  rw [getAt, if_neg (by omega), Int.toNat_natCast, List.getElem?_eq_getElem h]

/-- Along each axis the neighbors have the values before and after the one of the point. -/
theorem neighborsAlong_eq [DecidableEq Value] (getName : Axis → String)
    {middle : Coordinate Value} {axis : Axis} {values : List Value} {value : Value}
    (hmiddle : middle axis = some value) (hvalue : value ∈ values) :
    neighborsAlong getName middle axis values =
      .ok [Function.update middle axis values[prev values.length (values.idxOf value)]?,
        Function.update middle axis values[next values.length (values.idxOf value)]?] := by
  have hlt := List.idxOf_lt_length_iff.mpr hvalue
  have hindex : indexOf values value = (values.idxOf value : Int) := if_pos hvalue
  have hmoved : ∀ other, middle.getMovedPoint axis other =
      .ok (Function.update middle axis (some other)) := fun other =>
    if_pos (by rw [Coordinate.contains, hmiddle]; rfl)
  have hget : middle.get getName axis = .ok value := by
    rw [Coordinate.get, hmiddle]
  have hprev : (if (values.idxOf value : Int) - 1 < 0 then (values.length : Int) - 1
      else (values.idxOf value : Int) - 1) = prev values.length (values.idxOf value) := by
    unfold prev
    split
    · split
      · omega
      · omega
    · split
      · omega
      · omega
  have hnext : (if (values.length : Int) ≤ values.idxOf value + 1 then 0
      else (values.idxOf value : Int) + 1) = next values.length (values.idxOf value) := by
    unfold next
    split
    · split
      · rfl
      · omega
    · split
      · omega
      · omega
  rw [List.getElem?_eq_getElem (prev_lt hlt), List.getElem?_eq_getElem (next_lt hlt)]
  refine bind_eq_ok.mpr ⟨value, hget, ?_⟩
  rw [hindex]
  dsimp only
  rw [hprev, hnext]
  refine bind_eq_ok.mpr ⟨_, getAt_natCast (prev_lt hlt), bind_eq_ok.mpr ⟨_, hmoved _, ?_⟩⟩
  refine bind_eq_ok.mpr ⟨_, getAt_natCast (next_lt hlt), bind_eq_ok.mpr ⟨_, hmoved _, rfl⟩⟩

/-- A point whose values are on the axes has neighbors. -/
theorem exists_neighborsOf [DecidableEq Value] (getName : Axis → String)
    {middle : Coordinate Value} {sets : List (Axis × List Value)}
    (h : ∀ set ∈ sets, ∃ value ∈ set.2, middle set.1 = some value) :
    ∃ neighbors, neighborsOf getName middle sets = .ok neighbors ∧
      (sets ≠ [] → neighbors ≠ []) := by
  induction sets with
  | nil => exact ⟨[], rfl, fun hne => absurd rfl hne⟩
  | cons set sets ih =>
      rcases set with ⟨axis, values⟩
      rw [List.forall_mem_cons] at h
      rcases h.1 with ⟨value, hvalue, hmiddle⟩
      rcases ih h.2 with ⟨others, hothers, -⟩
      have halong := neighborsAlong_eq getName hmiddle hvalue
      exact ⟨_, bind_eq_ok.mpr ⟨_, halong, bind_eq_ok.mpr ⟨_, hothers, rfl⟩⟩,
        fun _ => List.cons_ne_nil _ _⟩

/-- A point of a space has neighbors. -/
theorem exists_getNeighbors [DecidableEq Value] (getName : Axis → String)
    {space : ParameterSpace Value} (hne : space.axisValueSets ≠ [])
    (hvalues : ∀ set ∈ space.axisValueSets, set.2 ≠ []) {point : Coordinate Value}
    (hpoint : point ∈ space.getAllPoints) :
    ∃ neighbors, space.getNeighbors getName point = .ok neighbors ∧ neighbors ≠ [] := by
  rcases exists_neighborsOf getName (choosesValues_of_mem hvalues hpoint).1 with
    ⟨neighbors, hneighbors, hsome⟩
  exact ⟨neighbors, hneighbors, hsome hne⟩

end Optimization
end Roofline
