import Roofline.Library.Circles
import Roofline.Optimization.ParameterSpace

/-!
# The neighborhood of a point

The neighbors of a point have its values on all axes but one, and there the value before or after
its own; each axis is closed to a circle.

Main results:

- Theorem {lit}`mem_getNeighbors_iff`: which coordinates the neighbors are.
- Theorem {lit}`getNeighbors_correct`: they are points of the space, and neighbors of each other.
- Theorem {lit}`reaches_point`: all points are reached from neighbor to neighbor.
-/

namespace Roofline
namespace Optimization

open Circles
open Programs (bind_eq_ok)

variable {Value : Type}

/-! ## Adjacent coordinates -/

/-- On this axis the coordinates have values at adjacent positions, and on all other axes they
agree. -/
structure AdjacentAlong (set : Axis × List Value) (point other : Coordinate Value) : Prop where
  agree : ∀ axis, axis ≠ set.1 → other axis = point axis
  positions : ∃ i j, Step set.2.length i j ∧ point set.1 = set.2[i]? ∧ other set.1 = set.2[j]?

/-- The coordinates are adjacent along one of the axes. -/
def IsNeighbor (space : ParameterSpace Value) (point other : Coordinate Value) : Prop :=
  ∃ set ∈ space.axisValueSets, AdjacentAlong set point other

section Adjacent

variable {set : Axis × List Value} {point other : Coordinate Value} {space : ParameterSpace Value}

/-- Adjacency along an axis is symmetric. -/
theorem AdjacentAlong.symm (h : AdjacentAlong set point other) : AdjacentAlong set other point where
  agree axis haxis := (h.agree axis haxis).symm
  positions := by
    obtain ⟨i, j, hstep, hpoint, hother⟩ := h.positions
    exact ⟨j, i, Std.Symm.symm i j hstep, hother, hpoint⟩

/-- Being neighbors is symmetric. -/
theorem IsNeighbor.symm (h : IsNeighbor space point other) : IsNeighbor space other point := by
  obtain ⟨set, hset, hadjacent⟩ := h
  exact ⟨set, hset, hadjacent.symm⟩

/-- The other coordinate is the point with another value on the axis. -/
theorem AdjacentAlong.eq_update (h : AdjacentAlong set point other) :
    other = Function.update point set.1 (other set.1) := by
  funext axis
  by_cases haxis : axis = set.1
  · rw [haxis, Function.update_self]
  · rw [Function.update_of_ne haxis, h.agree axis haxis]

/-- A step along the values of an axis leads to an adjacent point. -/
theorem adjacentAlong_update {i j : Nat} (hstep : Step set.2.length i j)
    (hpoint : point set.1 = set.2[i]?) :
    AdjacentAlong set point (Function.update point set.1 set.2[j]?) where
  agree _ haxis := Function.update_of_ne haxis _ _
  positions := ⟨i, j, hstep, hpoint, Function.update_self _ _ _⟩

end Adjacent

/-! ## The neighbors -/

section Neighbors

variable [DecidableEq Value] (getName : Axis → String)

/-- The neighbors along an axis are the coordinates that are adjacent along it. -/
theorem mem_neighborsAlong_iff {middle : Coordinate Value} {set : Axis × List Value}
    (hdistinct : set.2.Nodup) {value : Value} (hmiddle : middle set.1 = some value)
    (hvalue : value ∈ set.2) :
    ∃ neighbors, neighborsAlong getName middle set.1 set.2 = .ok neighbors ∧
      ∀ other, other ∈ neighbors ↔ AdjacentAlong set middle other := by
  have hlt := List.idxOf_lt_length_iff.mpr hvalue
  have hposition : middle set.1 = set.2[set.2.idxOf value]? := by
    rw [hmiddle, List.getElem?_eq_getElem hlt, List.getElem_idxOf]
  refine ⟨_, neighborsAlong_eq getName hmiddle hvalue, fun other => ?_⟩
  rw [List.mem_cons, List.mem_singleton]
  constructor
  · rintro (rfl | rfl)
    · exact adjacentAlong_update ⟨hlt, prev_lt hlt,
        (adjacent_iff hlt (prev_lt hlt)).mpr (.inl rfl)⟩ hposition
    · exact adjacentAlong_update ⟨hlt, next_lt hlt,
        (adjacent_iff hlt (next_lt hlt)).mpr (.inr rfl)⟩ hposition
  · intro hadjacent
    obtain ⟨i, j, hstep, hpoint, hother⟩ := hadjacent.positions
    -- the values are distinct, so the point has its value at one position only
    have hi : set.2.idxOf value = i := by
      rw [hmiddle, List.getElem?_eq_getElem hstep.left, Option.some_inj] at hpoint
      rw [hpoint, hdistinct.idxOf_getElem]
    rw [hi, hadjacent.eq_update, hother]
    rcases (adjacent_iff hstep.left hstep.right).mp hstep.adjacent with rfl | rfl
    · exact .inl rfl
    · exact .inr rfl

/-- The neighbors along all axes are the adjacent points. -/
theorem mem_neighborsOf_iff {middle : Coordinate Value} {sets : List (Axis × List Value)}
    (hdistinct : ∀ set ∈ sets, set.2.Nodup)
    (hmiddle : ∀ set ∈ sets, ∃ value ∈ set.2, middle set.1 = some value) :
    ∃ neighbors, neighborsOf getName middle sets = .ok neighbors ∧
      ∀ other, other ∈ neighbors ↔ ∃ set ∈ sets, AdjacentAlong set middle other := by
  induction sets with
  | nil => exact ⟨[], rfl, by simp⟩
  | cons set sets ih =>
      rw [List.forall_mem_cons] at hdistinct hmiddle
      obtain ⟨value, hvalue, hfirst⟩ := hmiddle.1
      obtain ⟨along, halong, hmem⟩ :=
        mem_neighborsAlong_iff getName hdistinct.1 hfirst hvalue
      obtain ⟨others, hothers, hrest⟩ := ih hdistinct.2 hmiddle.2
      refine ⟨along ++ others, ?_, fun other => ?_⟩
      · exact bind_eq_ok.mpr ⟨_, halong, bind_eq_ok.mpr ⟨_, hothers, rfl⟩⟩
      · rw [List.mem_append, hmem, hrest, List.exists_mem_cons_iff]

variable {space : ParameterSpace Value} (hdistinct : ∀ set ∈ space.axisValueSets, set.2.Nodup)
  (hvalues : ∀ set ∈ space.axisValueSets, set.2 ≠ [])

include hdistinct hvalues

/-- The neighbors of a point are the coordinates that are adjacent along one of the axes. -/
theorem mem_getNeighbors_iff {point : Coordinate Value} (hpoint : point ∈ space.getAllPoints) :
    ∃ neighbors, space.getNeighbors getName point = .ok neighbors ∧
      ∀ other, other ∈ neighbors ↔ IsNeighbor space point other :=
  mem_neighborsOf_iff getName hdistinct (choosesValues_of_mem hvalues hpoint).1

/-- The neighbors of a point are points that are adjacent to it along one of the axes, and it is
one of the neighbors of each. -/
theorem getNeighbors_correct {point : Coordinate Value} (hpoint : point ∈ space.getAllPoints) :
    ∃ neighbors, space.getNeighbors getName point = .ok neighbors ∧
      (∀ other, other ∈ neighbors ↔ IsNeighbor space point other) ∧
      (∀ other ∈ neighbors, other ∈ space.getAllPoints) ∧
      ∀ other ∈ space.getAllPoints, ∃ others, space.getNeighbors getName other = .ok others ∧
        (other ∈ neighbors ↔ point ∈ others) := by
  obtain ⟨neighbors, hneighbors, hmem⟩ :=
    mem_getNeighbors_iff getName hdistinct hvalues hpoint
  refine ⟨neighbors, hneighbors, hmem, ?_, ?_⟩
  · intro other hother
    exact mem_getAllPoints_of_mem_getNeighbors hpoint hneighbors hother
  · intro other hother
    obtain ⟨others, hothers, hback⟩ := mem_getNeighbors_iff getName hdistinct hvalues hother
    refine ⟨others, hothers, ?_⟩
    rw [hmem, hback]
    exact ⟨IsNeighbor.symm, IsNeighbor.symm⟩

end Neighbors

/-- An axis with three values and one with a single value, along which the point is its own
neighbor. -/
theorem getNeighbors_correct_two_axes :
    let space : ParameterSpace Nat := ⟨[(⟨"a"⟩, [1, 2, 3]), (⟨"b"⟩, [5])], by decide⟩
    let point : Coordinate Nat :=
      (Coordinate.empty.getExtendedPoint ⟨"b"⟩ 5).getExtendedPoint ⟨"a"⟩ 1
    ∃ neighbors, space.getNeighbors Axis.uid point = .ok neighbors ∧
      (∀ other, other ∈ neighbors ↔ IsNeighbor space point other) ∧
      (∀ other ∈ neighbors, other ∈ space.getAllPoints) ∧
      ∀ other ∈ space.getAllPoints, ∃ others, space.getNeighbors Axis.uid other = .ok others ∧
        (other ∈ neighbors ↔ point ∈ others) := by
  intro space point
  have hpoint : point ∈ space.getAllPoints := List.mem_cons_self
  exact getNeighbors_correct Axis.uid (by decide) (by decide) hpoint

/-! ## Steps to neighbors -/

section Steps

variable {space : ParameterSpace Value}

/-- All values of an axis are reached by steps along it. -/
theorem reaches_along {set : Axis × List Value} (hset : set ∈ space.axisValueSets)
    {point : Coordinate Value} {i j : Nat} (hpoint : point set.1 = set.2[i]?)
    (hi : i < set.2.length) (hj : j < set.2.length) :
    Relation.ReflTransGen (IsNeighbor space) point
      (Function.update point set.1 set.2[j]?) := by
  have hstart : Function.update point set.1 set.2[i]? = point := by
    rw [← hpoint, Function.update_eq_self]
  have hlift : Relation.ReflTransGen (IsNeighbor space)
      (Function.update point set.1 set.2[i]?) (Function.update point set.1 set.2[j]?) := by
    refine (reaches hi hj).lift (fun k => Function.update point set.1 set.2[k]?) ?_
    intro k l hstep
    have hadjacent : AdjacentAlong set (Function.update point set.1 set.2[k]?)
        (Function.update (Function.update point set.1 set.2[k]?) set.1 set.2[l]?) :=
      adjacentAlong_update hstep (Function.update_self _ _ _)
    rw [Function.update_idem] at hadjacent
    exact ⟨set, hset, hadjacent⟩
  rwa [hstart] at hlift

/-- Coordinates that differ on some axes only are reached by steps along these axes. -/
theorem reaches_of_agree {sets : List (Axis × List Value)}
    (hsets : ∀ set ∈ sets, set ∈ space.axisValueSets) {point other : Coordinate Value}
    (hpoint : ChoosesValues space.axisValueSets point)
    (hother : ChoosesValues space.axisValueSets other)
    (hagree : ∀ axis, axis ∉ sets.map Prod.fst → other axis = point axis) :
    Relation.ReflTransGen (IsNeighbor space) point other := by
  induction sets generalizing point with
  | nil =>
      obtain rfl : other = point := funext fun axis => hagree axis List.not_mem_nil
      exact .refl
  | cons set sets ih =>
      rw [List.forall_mem_cons] at hsets
      obtain ⟨first, hfirst, hvalue⟩ := hpoint.1 set hsets.1
      obtain ⟨last, hlast, hgoal⟩ := hother.1 set hsets.1
      obtain ⟨i, hi, rfl⟩ := List.mem_iff_getElem.mp hfirst
      obtain ⟨j, hj, rfl⟩ := List.mem_iff_getElem.mp hlast
      rw [← List.getElem?_eq_getElem hi] at hvalue
      have hmoved := hpoint.update hsets.1 hlast
      rw [← List.getElem?_eq_getElem hj] at hgoal hmoved
      refine (reaches_along hsets.1 hvalue hi hj).trans (ih hsets.2 hmoved ?_)
      intro axis haxis
      by_cases hsame : axis = set.1
      · rw [hsame, Function.update_self, hgoal]
      · rw [Function.update_of_ne hsame]
        apply hagree
        rw [List.map_cons, List.mem_cons, not_or]
        exact ⟨hsame, haxis⟩

/-- All points are reached from neighbor to neighbor. -/
theorem reaches_point [DecidableEq Value] (getName : Axis → String)
    (hdistinct : ∀ set ∈ space.axisValueSets, set.2.Nodup)
    (hvalues : ∀ set ∈ space.axisValueSets, set.2 ≠ []) {point other : Coordinate Value}
    (hpoint : point ∈ space.getAllPoints) (hother : other ∈ space.getAllPoints) :
    Relation.ReflTransGen (fun point other => ∃ neighbors,
      space.getNeighbors getName point = .ok neighbors ∧ other ∈ neighbors) point other := by
  have hchoice := choosesValues_of_mem hvalues hpoint
  have hgoal := choosesValues_of_mem hvalues hother
  have hreaches : Relation.ReflTransGen (IsNeighbor space) point other :=
    reaches_of_agree (fun _ => id) hchoice hgoal fun axis haxis =>
      (hgoal.2 axis haxis).trans (hchoice.2 axis haxis).symm
  clear hother hgoal
  -- each step comes to a point of the space, which has neighbors in turn
  suffices hboth : Relation.ReflTransGen (fun point other => ∃ neighbors,
      space.getNeighbors getName point = .ok neighbors ∧ other ∈ neighbors) point other ∧
        other ∈ space.getAllPoints from hboth.1
  induction hreaches with
  | refl => exact ⟨.refl, hpoint⟩
  | tail _ hstep ih =>
      obtain ⟨neighbors, hneighbors, hmem⟩ :=
        mem_getNeighbors_iff getName hdistinct hvalues ih.2
      have hnext := (hmem _).mpr hstep
      exact ⟨ih.1.tail ⟨neighbors, hneighbors, hnext⟩,
        mem_getAllPoints_of_mem_getNeighbors ih.2 hneighbors hnext⟩

end Steps

end Optimization
end Roofline
