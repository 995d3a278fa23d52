import Roofline.Library.Programs
import Roofline.SharedEntities.EnumerationOrder
import Roofline.SharedEntities.KeptFields
import Mathlib.Data.Fintype.EquivFin

/-!
# Identifying the outputs of a measurement

{lit}`setIds` numbers the objects of a measurement in the order in which they are enumerated.
The outputs of a measurement, which may come from the cache, carry these numbers, and
{lit}`setResultUids` finds the measurers and measurer sets of the present measurement by them.

Main results:

- Theorem {lit}`numbersAlike`: measurements with the same structure are numbered
  alike.
- Theorem {lit}`single_numbered`: an object is found by its number.
- Theorem {lit}`identifiesResults_iff`: the outputs are identified exactly if no list of the
  measurement has a null element.
-/

namespace Roofline
namespace ResultUids

open LinkedSets SharedEntities Walks

variable {defs : Definitions} {Double ν ν' Uid : Type}

/-! ## Objects of a class -/

/-- The class of measurers. -/
def measurerBase : Identifier :=
  .ofString "MeasurerBase" (by decide)

/-- The references in the list with this name. -/
def elements (name : Identifier) :
    (fields : List FieldDef) → FieldValues Double (Option ν) fields → List (Option ν)
  | [], _ => []
  | .field _ _ :: fields, (_, values) => elements name fields values
  | .list _ (.primitive _) :: fields, (_, values) => elements name fields values
  | .list field (.reference _) :: fields, (refs, values) =>
      if field = name then refs else elements name fields values

/-- {lit}`ofType`. -/
def ofType (graph : Graph defs Double ν) (type : Identifier) (objects : List ν) : List ν :=
  objects.filter fun o => (graph.object o).cls.cls.isA type

/-- An object that can be reached, of a class or a derived one. -/
def IsOf (graph : Graph defs Double ν) (root : ν) (type : Identifier) (o : ν) : Prop :=
  graph.Reachable (some root) o ∧ (graph.object o).cls.cls.isA type = true

section Ids

variable [DecidableEq ν] (graph : Graph defs Double ν)

/-- {lit}`getAll` of a class. -/
def getAllOf (depth : Nat) (root : ν) (type : Identifier) : Except Failure (List ν) :=
  (graph.getAll .java depth root).map (ofType graph type)

/-! ## Ids -/

/-- The ids of the objects.  Each of the classes has a field of its own for them; they are
kept apart from the other fields, and what is enumerated does not depend on them. -/
structure Ids (ν : Type) where
  workload : ν → Int
  kernel : ν → Int
  measurerSet : ν → Int
  measurer : ν → Int

/-- {lit}`setId` for each object of a list, with the numbers from zero on. -/
def numbered (objects : List ν) (ids : ν → Int) : ν → Int :=
  number objects (fun _ i => (i : Int)) ids

/-- The object whose method is called. -/
def callee : Option ν → Except Failure ν
  | none => .error .nullReference
  | some o => .ok o

/-- {lit}`Measurement.setIds`. -/
def setIds (depth : Nat) (root : ν) (ids : Ids ν) : Except Failure (Ids ν) := do
  let workloads ← (elements workloadsName _ (graph.object root).values).mapM callee
  let kernels ← getAllOf graph depth root kernelBaseName
  let measurerSets ← getAllOf graph depth root measurerSetName
  let measurers ← getAllOf graph depth root measurerBase
  return {
    workload := numbered workloads ids.workload
    kernel := numbered kernels ids.kernel
    measurerSet := numbered measurerSets ids.measurerSet
    measurer := numbered measurers ids.measurer }

/-! ## Results -/

/-- What may be thrown: a failure of the walk over the graph, or an error. -/
inductive Thrown where
  | failure (failure : Failure)
  | error (message : String)

/-- The loop of {lit}`IterableUtils.single`, with the item found so far. -/
def singleFrom (pred : ν → Bool) : List ν → Option ν → Except Thrown ν
  | [], none => .error (.error "No item matched the predicate")
  | [], some foundItem => .ok foundItem
  | item :: items, foundItem =>
      if pred item then
        match foundItem with
        | some _ => .error (.error "Multiple items match the predicate")
        | none => singleFrom pred items (some item)
      else
        singleFrom pred items foundItem

/-- {lit}`IterableUtils.single` -/
def single (items : List ν) (pred : ν → Bool) : Except Thrown ν :=
  singleFrom pred items none

/-- {lit}`getMeasurer` -/
def getMeasurer (depth : Nat) (root : ν) (ids : Ids ν) (measurerId : Int) : Except Thrown ν := do
  let measurers ← (getAllOf graph depth root measurerBase).mapError .failure
  single measurers fun arg => ids.measurer arg == measurerId

/-- {lit}`getMeasurerSet` -/
def getMeasurerSet (depth : Nat) (root : ν) (ids : Ids ν) (measurerSetId : Int) :
    Except Thrown ν := do
  let measurerSets ← (getAllOf graph depth root measurerSetName).mapError .failure
  single measurerSets fun arg => ids.measurerSet arg == measurerSetId

/-- The output of a measurer; its uid may be null. -/
structure MeasurerOutput (Uid : Type) where
  measurerId : Int
  measurerUid : Option Uid

/-- The output of a measurer set with those of its measurers. -/
structure MeasurerSetOutput (Uid : Type) where
  setId : Int
  setUid : Option Uid
  mainMeasurerOutput : Option (MeasurerOutput Uid)
  additionalMeasurerOutputs : List (Option (MeasurerOutput Uid))
  validationMeasurerOutputs : List (Option (MeasurerOutput Uid))

/-- {lit}`getMeasurerOutputs`. -/
def MeasurerSetOutput.getMeasurerOutputs (output : MeasurerSetOutput Uid) :
    List (Option (MeasurerOutput Uid)) :=
  output.mainMeasurerOutput.toList.map some ++ output.additionalMeasurerOutputs ++
    output.validationMeasurerOutputs

/-- A result: for each run the outputs of the measurer sets. -/
abbrev RunOutputs (Uid : Type) :=
  List (List (MeasurerSetOutput Uid))

/-- The UIDs of the measurers and measurer sets. -/
structure Uids (ν Uid : Type) where
  measurerSet : ν → Uid
  measurer : ν → Uid

section SetResultUids

variable (depth : Nat) (root : ν) (ids : Ids ν) (uids : Uids ν Uid)

/-- The body of the innermost loop. -/
def setMeasurerUid : Option (MeasurerOutput Uid) → Except Thrown (Option (MeasurerOutput Uid))
  | none => .error (.error "null measurer output!!!")
  | some output => do
      let measurer ← getMeasurer graph depth root ids output.measurerId
      return some { output with measurerUid := some (uids.measurer measurer) }

/-- The main measurer output is looked at if it is there. -/
def setMainMeasurerUid : Option (MeasurerOutput Uid) → Except Thrown (Option (MeasurerOutput Uid))
  | none => .ok none
  | some output => setMeasurerUid graph depth root ids uids (some output)

/-- The body of the loop over the outputs of the measurer sets. -/
def setSetUid (output : MeasurerSetOutput Uid) : Except Thrown (MeasurerSetOutput Uid) := do
  let set ← getMeasurerSet graph depth root ids output.setId
  let main ← setMainMeasurerUid graph depth root ids uids output.mainMeasurerOutput
  let additional ← output.additionalMeasurerOutputs.mapM
    (setMeasurerUid graph depth root ids uids)
  let validation ← output.validationMeasurerOutputs.mapM
    (setMeasurerUid graph depth root ids uids)
  return {
    setId := output.setId
    setUid := some (uids.measurerSet set)
    mainMeasurerOutput := main
    additionalMeasurerOutputs := additional
    validationMeasurerOutputs := validation }

/-- {lit}`setResultUids` -/
def setResultUids (runOutputs : RunOutputs Uid) : Except Thrown (RunOutputs Uid) :=
  runOutputs.mapM fun runOutput => runOutput.mapM (setSetUid graph depth root ids uids)

end SetResultUids

/-! ## Numbers -/

/-- Each object of the list has its position as its id. -/
def Numbered (objects : List ν) (ids : ν → Int) : Prop :=
  ∀ (i : Nat) o, objects[i]? = some o → ids o = i

/-- Numbering objects without duplicates gives them different numbers. -/
theorem numbered_numbered {objects : List ν} (hnodup : objects.Nodup) (ids : ν → Int) :
    Numbered objects (numbered objects ids) := by
  intro i o ho
  exact number_apply (fun _ i => (i : Int)) (fun _ _ _ => rfl) hnodup ho ids

end Ids

section Numbers

variable {objects : List ν} {ids : ν → Int}

/-- Objects with one number are the same. -/
theorem Numbered.injective (h : Numbered objects ids) {o o' : ν} (ho : o ∈ objects)
    (ho' : o' ∈ objects) (heq : ids o = ids o') : o = o' := by
  rcases List.getElem?_of_mem ho with ⟨i, hi⟩
  rcases List.getElem?_of_mem ho' with ⟨j, hj⟩
  rw [h i o hi, h j o' hj] at heq
  obtain rfl : i = j := by omega
  exact Option.some.inj (hi.symm.trans hj)

/-- If nothing else matches, what was found is returned. -/
theorem singleFrom_none_left {pred : ν → Bool} (h : ∀ x ∈ objects, pred x = false) (o : ν) :
    singleFrom pred objects (some o) = .ok o := by
  induction objects with
  | nil => rfl
  | cons first objects ih =>
      rw [List.forall_mem_cons] at h
      rw [singleFrom, h.1]
      exact ih h.2

/-- An object that is the only one to match is returned. -/
theorem single_eq {pred : ν → Bool} (hnodup : objects.Nodup) {o : ν} (ho : o ∈ objects)
    (honly : ∀ x ∈ objects, pred x = true ↔ x = o) : single objects pred = .ok o := by
  unfold single
  induction objects with
  | nil => cases ho
  | cons first objects ih =>
      rw [List.nodup_cons] at hnodup
      rw [List.forall_mem_cons] at honly
      rw [singleFrom]
      rcases List.mem_cons.mp ho with rfl | ho
      · rw [if_pos (honly.1.mpr rfl)]
        apply singleFrom_none_left
        intro x hx
        rw [Bool.eq_false_iff]
        intro hpred
        exact hnodup.1 ((honly.2 x hx).mp hpred ▸ hx)
      · have hother : ¬pred first = true := by
          intro hpred
          exact hnodup.1 (honly.1.mp hpred ▸ ho)
        rw [if_neg hother]
        exact ih hnodup.2 ho honly.2

/-- An object is found by its number. -/
theorem single_numbered (hnodup : objects.Nodup) (h : Numbered objects ids) {o : ν}
    (ho : o ∈ objects) : single objects (fun arg => ids arg == ids o) = .ok o := by
  apply single_eq hnodup ho
  intro x hx
  rw [beq_iff_eq]
  constructor
  · exact h.injective hx ho
  · rintro rfl
    rfl

end Numbers

/-! ## Numbering a measurement -/

/-- Without null elements no element is null. -/
theorem none_not_mem_elements {name : Identifier} {fields : List FieldDef}
    {values : FieldValues Double (Option ν) fields}
    (h : ¬FieldValues.HasNullElement fields values) : none ∉ elements name fields values := by
  induction fields with
  | nil => exact List.not_mem_nil
  | cons field fields ih =>
      rcases values with ⟨value, values⟩
      have hrest : ¬FieldValues.HasNullElement fields values := fun hnull => h (Or.inr hnull)
      rcases field with ⟨field, type⟩ | ⟨field, type | type⟩
      · exact ih hrest
      · exact ih hrest
      · by_cases hname : field = name
        · have hfound : elements name (.list field (.reference type) :: fields) (value, values) =
              value := if_pos hname
          rw [hfound]
          exact fun hnull => h (Or.inl hnull)
        · have hlater : elements name (.list field (.reference type) :: fields) (value, values) =
              elements name fields values := if_neg hname
          rw [hlater]
          exact ih hrest

section SetIds

variable [DecidableEq ν] {graph : Graph defs Double ν} {depth : Nat} {root : ν} {ids ids' : Ids ν}
  {objects : List ν} {type : Identifier}

/-- The objects of a type among all objects. -/
theorem getAllOf_eq (h : graph.getAll .java depth root = .ok objects) (type : Identifier) :
    getAllOf graph depth root type = .ok (ofType graph type objects) := by
  rw [getAllOf, h]
  rfl

/-- They are the objects of the type that can be reached. -/
theorem mem_ofType (h : graph.getAll .java depth root = .ok objects) {o : ν} :
    o ∈ ofType graph type objects ↔ IsOf graph root type o := by
  have hmem := graph.mem_addAll .java h o
  rw [ofType, List.mem_filter, hmem, IsOf, graph.reachable_iff_reaches]
  simp

/-- None of them comes twice. -/
theorem nodup_ofType (h : graph.getAll .java depth root = .ok objects) :
    (ofType graph type objects).Nodup :=
  (graph.nodup_getAll h).filter _

/-- The enumerated measurers and measurer sets have their positions as ids. -/
structure HasIds (graph : Graph defs Double ν) (depth : Nat) (root : ν) (ids : Ids ν)
    (objects : List ν) : Prop where
  enumerated : graph.getAll .java depth root = .ok objects
  measurerSet : Numbered (ofType graph measurerSetName objects) ids.measurerSet
  measurer : Numbered (ofType graph measurerBase objects) ids.measurer

/-- What {lit}`setIds` has done when it returns. -/
theorem setIds_hasIds (h : setIds graph depth root ids = .ok ids') :
    ∃ objects, HasIds graph depth root ids' objects := by
  rcases Programs.bind_eq_ok.mp h with ⟨_, _, h⟩
  cases hobjects : graph.getAll .java depth root with
  | error failure =>
      rw [getAllOf, hobjects] at h
      cases h
  | ok objects =>
      rw [getAllOf_eq hobjects, getAllOf_eq hobjects, getAllOf_eq hobjects] at h
      obtain rfl := Except.ok.inj h
      exact ⟨objects, hobjects, numbered_numbered (nodup_ofType hobjects) _,
        numbered_numbered (nodup_ofType hobjects) _⟩

/-- Without null elements the ids are set. -/
theorem exists_setIds (hobjects : graph.getAll .java depth root = .ok objects)
    (hnull : ¬graph.HasNullElement root) (ids : Ids ν) :
    ∃ ids', setIds graph depth root ids = .ok ids' := by
  have hcallee : ∀ ref ∈ elements workloadsName _ (graph.object root).values,
      ∃ o, callee ref = .ok o ∧ True := by
    intro ref href
    cases ref with
    | none => exact absurd href (none_not_mem_elements hnull)
    | some o => exact ⟨o, rfl, trivial⟩
  rcases Programs.exists_mapM hcallee with ⟨found, hfound, _⟩
  rw [setIds, hfound, getAllOf_eq hobjects, getAllOf_eq hobjects, getAllOf_eq hobjects]
  exact ⟨_, rfl⟩

/-- A measurer is found by its id. -/
theorem HasIds.getMeasurer (h : HasIds graph depth root ids objects) {x : ν}
    (hx : IsOf graph root measurerBase x) :
    getMeasurer graph depth root ids (ids.measurer x) = .ok x := by
  rw [ResultUids.getMeasurer, getAllOf_eq h.enumerated]
  exact single_numbered (nodup_ofType h.enumerated) h.measurer ((mem_ofType h.enumerated).mpr hx)

/-- A measurer set is found by its id. -/
theorem HasIds.getMeasurerSet (h : HasIds graph depth root ids objects) {s : ν}
    (hs : IsOf graph root measurerSetName s) :
    getMeasurerSet graph depth root ids (ids.measurerSet s) = .ok s := by
  rw [ResultUids.getMeasurerSet, getAllOf_eq h.enumerated]
  exact single_numbered (nodup_ofType h.enumerated) h.measurerSet
    ((mem_ofType h.enumerated).mpr hs)

end SetIds

/-! ## Measurements with the same structure -/

section SameStructure

variable {graph : Graph defs Double ν} {graph' : Graph defs Double ν'} {root : ν} {f : ν → ν'}
  {type : Identifier}

/-- The ids of the corresponding objects. -/
def Ids.along (f : ν → ν') (ids : Ids ν') : Ids ν where
  workload o := ids.workload (f o)
  kernel o := ids.kernel (f o)
  measurerSet o := ids.measurerSet (f o)
  measurer o := ids.measurer (f o)

/-- The objects of a type in a copy are the copies of those objects. -/
theorem ofType_map (h : SameStructure graph root graph' f) {objects : List ν}
    (hreach : ∀ o ∈ objects, graph.Reachable (some root) o) (type : Identifier) :
    ofType graph' type (objects.map f) = (ofType graph type objects).map f := by
  rw [ofType, ofType, List.filter_map]
  congr 1
  apply List.filter_congr
  intro o ho
  rw [Function.comp_apply, h.cls (hreach o ho)]

/-- Every object that the other measurement reaches corresponds to one. -/
theorem exists_reachable_of_same (h : SameStructure graph root graph' f) {o' : ν'}
    (ho' : graph'.Reachable (some (f root)) o') :
    ∃ o, graph.Reachable (some root) o ∧ f o = o' := by
  induction ho' with
  | root heq => exact ⟨root, .root rfl, Option.some.inj heq⟩
  | held _ hheld ih =>
      rcases ih with ⟨o, ho, rfl⟩
      have hcalled := graph'.some_mem_called.mpr hheld
      rw [h.called ho] at hcalled
      rcases List.mem_map.mp hcalled with ⟨ref, href, heq⟩
      rcases Option.map_eq_some_iff.mp heq with ⟨target, rfl, rfl⟩
      exact ⟨target, .held ho (graph.some_mem_called.mp href), rfl⟩

/-- An object of the copy is the copy of an object. -/
theorem IsOf.exists_of (h : SameStructure graph root graph' f) {o' : ν'}
    (ho' : IsOf graph' (f root) type o') : ∃ o, IsOf graph root type o ∧ f o = o' := by
  rcases exists_reachable_of_same h ho'.1 with ⟨o, ho, rfl⟩
  refine ⟨o, ⟨ho, ?_⟩, rfl⟩
  rw [← h.cls ho]
  exact ho'.2

/-- The other measurement has no list with a null element either. -/
theorem hasNullElement_of_same (h : SameStructure graph root graph' f) {o : ν}
    (ho : graph.Reachable (some root) o) (hnull : graph'.HasNullElement (f o)) :
    graph.HasNullElement o := by
  have hcalled := graph'.none_mem_called.mpr hnull
  rw [h.called ho] at hcalled
  rcases List.mem_map.mp hcalled with ⟨ref, href, heq⟩
  rw [Option.map_eq_none_iff] at heq
  subst heq
  exact graph.none_mem_called.mp href

/-- The ids agree on the measurers and measurer sets. -/
structure AgreeOn (graph : Graph defs Double ν) (root : ν) (ids ids' : Ids ν) : Prop where
  measurerSet : ∀ s, IsOf graph root measurerSetName s → ids.measurerSet s = ids'.measurerSet s
  measurer : ∀ x, IsOf graph root measurerBase x → ids.measurer x = ids'.measurer x

/-- An object and its copy have the same number. -/
theorem numbered_along {objects : List ν} {ids : ν → Int} {ids' : ν' → Int}
    (h : Numbered objects ids) (h' : Numbered (objects.map f) ids') {o : ν} (ho : o ∈ objects) :
    ids' (f o) = ids o := by
  rcases List.getElem?_of_mem ho with ⟨i, hi⟩
  have hi' : (objects.map f)[i]? = some (f o) := by rw [List.getElem?_map, hi, Option.map_some]
  rw [h i o hi, h' i (f o) hi']

variable [DecidableEq ν] [DecidableEq ν']

/-- Measurements with the same structure are numbered alike. -/
theorem numbersAlike (h : SameStructure graph root graph' f) {depth depth' : Nat}
    {ids ids' : Ids ν} {ids₂ ids₂' : Ids ν'} (hids : setIds graph depth root ids = .ok ids')
    (hids₂ : setIds graph' depth' (f root) ids₂ = .ok ids₂') :
    AgreeOn graph root (ids₂'.along f) ids' := by
  rcases setIds_hasIds hids with ⟨objects, hobjects, hsets, hmeasurers⟩
  rcases setIds_hasIds hids₂ with ⟨objects₂, hobjects₂, hsets₂, hmeasurers₂⟩
  have hreach : ∀ o ∈ objects, graph.Reachable (some root) o := by
    intro o ho
    have hmem := (graph.mem_addAll .java hobjects o).mp ho
    rw [graph.reachable_iff_reaches]
    simpa using hmem
  have hsame : objects₂ = objects.map f := by
    have hstep := h.getAll depth
    rw [hobjects] at hstep
    exact graph'.getAll_unique .java hobjects₂ hstep
  subst hsame
  rw [ofType_map h hreach] at hsets₂ hmeasurers₂
  constructor
  · intro s hs
    exact numbered_along hsets hsets₂ ((mem_ofType hobjects).mpr hs)
  · intro x hx
    exact numbered_along hmeasurers hmeasurers₂ ((mem_ofType hobjects).mpr hx)

end SameStructure

/-! ## Tagged outputs -/

section Tags

variable (graph : Graph defs Double ν) (root : ν) (ids : Ids ν)

/-- The outputs carry ids of measurers and measurer sets, and none of them is null. -/
def CarriesIds (runOutputs : RunOutputs Uid) : Prop :=
  ∀ runOutput ∈ runOutputs, ∀ output ∈ runOutput,
    (∃ s, IsOf graph root measurerSetName s ∧ output.setId = ids.measurerSet s) ∧
    ∀ measurerOutput ∈ output.getMeasurerOutputs, ∃ o x, measurerOutput = some o ∧
      IsOf graph root measurerBase x ∧ o.measurerId = ids.measurer x

variable (uids : Uids ν Uid)

/-- The output has the UID of the measurer whose id it carries. -/
def Tagged (output output' : MeasurerOutput Uid) : Prop :=
  output'.measurerId = output.measurerId ∧
    ∀ x, IsOf graph root measurerBase x → ids.measurer x = output.measurerId →
      output'.measurerUid = some (uids.measurer x)

/-- The output has the UID of the measurer set whose id it carries, and so have the outputs of
the measurers. -/
structure SetTagged (output output' : MeasurerSetOutput Uid) : Prop where
  setId : output'.setId = output.setId
  setUid : ∀ s, IsOf graph root measurerSetName s → ids.measurerSet s = output.setId →
    output'.setUid = some (uids.measurerSet s)
  mainMeasurerOutput : Option.Rel (Tagged graph root ids uids) output.mainMeasurerOutput
    output'.mainMeasurerOutput
  additionalMeasurerOutputs : List.Forall₂ (Option.Rel (Tagged graph root ids uids))
    output.additionalMeasurerOutputs output'.additionalMeasurerOutputs
  validationMeasurerOutputs : List.Forall₂ (Option.Rel (Tagged graph root ids uids))
    output.validationMeasurerOutputs output'.validationMeasurerOutputs

/-- All outputs of a result are tagged. -/
def ResultTagged (runOutputs runOutputs' : RunOutputs Uid) : Prop :=
  List.Forall₂ (List.Forall₂ (SetTagged graph root ids uids)) runOutputs runOutputs'

variable {graph root ids uids}

/-- Ids of a measurement with the same structure are ids of this one. -/
theorem CarriesIds.of_same {graph' : Graph defs Double ν'} {f : ν → ν'}
    (h : SameStructure graph root graph' f) {ids : Ids ν} {ids' : Ids ν'}
    (hagree : AgreeOn graph root (ids'.along f) ids) {runOutputs : RunOutputs Uid}
    (hcarries : CarriesIds graph' (f root) ids' runOutputs) :
    CarriesIds graph root ids runOutputs := by
  intro runOutput hrun output houtput
  rcases hcarries runOutput hrun output houtput with ⟨⟨s', hs', hid⟩, houtputs⟩
  constructor
  · rcases hs'.exists_of h with ⟨s, hs, rfl⟩
    exact ⟨s, hs, hid.trans (hagree.measurerSet s hs)⟩
  · intro measurerOutput hmem
    rcases houtputs measurerOutput hmem with ⟨o, x', rfl, hx', hid⟩
    rcases hx'.exists_of h with ⟨x, hx, rfl⟩
    exact ⟨o, x, rfl, hx, hid.trans (hagree.measurer x hx)⟩

/-- Only the ids of measurers matter for an output. -/
theorem Tagged.congr {ids' : Ids ν} (hagree : AgreeOn graph root ids' ids)
    {output output' : MeasurerOutput Uid} (h : Tagged graph root ids uids output output') :
    Tagged graph root ids' uids output output' := by
  refine ⟨h.1, ?_⟩
  intro x hx heq
  exact h.2 x hx ((hagree.measurer x hx).symm.trans heq)

/-- The same holds of an output that may be null. -/
theorem relTagged_congr {ids' : Ids ν} (hagree : AgreeOn graph root ids' ids)
    {output output' : Option (MeasurerOutput Uid)}
    (h : Option.Rel (Tagged graph root ids uids) output output') :
    Option.Rel (Tagged graph root ids' uids) output output' := by
  cases h with
  | none => exact .none
  | some htagged => exact .some (htagged.congr hagree)

/-- Only the ids matter for the output of a set. -/
theorem SetTagged.congr {ids' : Ids ν} (hagree : AgreeOn graph root ids' ids)
    {output output' : MeasurerSetOutput Uid} (h : SetTagged graph root ids uids output output') :
    SetTagged graph root ids' uids output output' where
  setId := h.setId
  setUid s hs heq := h.setUid s hs ((hagree.measurerSet s hs).symm.trans heq)
  mainMeasurerOutput := relTagged_congr hagree h.mainMeasurerOutput
  additionalMeasurerOutputs :=
    h.additionalMeasurerOutputs.imp fun _ _ => relTagged_congr hagree
  validationMeasurerOutputs :=
    h.validationMeasurerOutputs.imp fun _ _ => relTagged_congr hagree

/-- Only the ids matter for a result. -/
theorem ResultTagged.congr {ids' : Ids ν} (hagree : AgreeOn graph root ids' ids)
    {runOutputs runOutputs' : RunOutputs Uid}
    (h : ResultTagged graph root ids uids runOutputs runOutputs') :
    ResultTagged graph root ids' uids runOutputs runOutputs' :=
  List.Forall₂.imp (fun _ _ hrun => hrun.imp fun _ _ hset => hset.congr hagree) h

end Tags

section SetResultUids

variable [DecidableEq ν] {graph : Graph defs Double ν} {depth : Nat} {root : ν} {ids : Ids ν}
  {uids : Uids ν Uid} {objects : List ν}

/-- The output of a measurer that has an id gets the uid of the measurer. -/
theorem setMeasurerUid_tags (h : HasIds graph depth root ids objects) {o : MeasurerOutput Uid}
    {x : ν} (hx : IsOf graph root measurerBase x) (hid : o.measurerId = ids.measurer x) :
    ∃ output', setMeasurerUid graph depth root ids uids (some o) = .ok output' ∧
      Option.Rel (Tagged graph root ids uids) (some o) output' := by
  have hfound : getMeasurer graph depth root ids o.measurerId = .ok x := by
    rw [hid]
    exact h.getMeasurer hx
  refine ⟨some { o with measurerUid := some (uids.measurer x) }, ?_, .some ⟨rfl, ?_⟩⟩
  · rw [setMeasurerUid, hfound]
    rfl
  · intro x' hx' heq
    have hsame := h.measurer.injective ((mem_ofType h.enumerated).mpr hx')
      ((mem_ofType h.enumerated).mpr hx) (heq.trans hid)
    rw [hsame]

/-- The output of a set gets the uids of the set and of its measurers. -/
theorem setSetUid_tags (h : HasIds graph depth root ids objects) {output : MeasurerSetOutput Uid}
    (hset : ∃ s, IsOf graph root measurerSetName s ∧ output.setId = ids.measurerSet s)
    (houtputs : ∀ measurerOutput ∈ output.getMeasurerOutputs, ∃ o x, measurerOutput = some o ∧
      IsOf graph root measurerBase x ∧ o.measurerId = ids.measurer x) :
    ∃ output', setSetUid graph depth root ids uids output = .ok output' ∧
      SetTagged graph root ids uids output output' := by
  rcases hset with ⟨s, hs, hid⟩
  have hfound : getMeasurerSet graph depth root ids output.setId = .ok s := by
    rw [hid]
    exact h.getMeasurerSet hs
  have htags : ∀ measurerOutput ∈ output.getMeasurerOutputs, ∃ output',
      setMeasurerUid graph depth root ids uids measurerOutput = .ok output' ∧
      Option.Rel (Tagged graph root ids uids) measurerOutput output' := by
    intro measurerOutput hmem
    rcases houtputs measurerOutput hmem with ⟨o, x, rfl, hx, hid⟩
    exact setMeasurerUid_tags h hx hid
  have hmain : ∃ main, setMainMeasurerUid graph depth root ids uids output.mainMeasurerOutput =
      .ok main ∧ Option.Rel (Tagged graph root ids uids) output.mainMeasurerOutput main := by
    cases houtput : output.mainMeasurerOutput with
    | none => exact ⟨none, rfl, .none⟩
    | some o =>
        apply htags (some o)
        simp [MeasurerSetOutput.getMeasurerOutputs, houtput]
  have hadditional : ∀ o ∈ output.additionalMeasurerOutputs, o ∈ output.getMeasurerOutputs := by
    intro o ho
    simp [MeasurerSetOutput.getMeasurerOutputs, ho]
  have hvalidation : ∀ o ∈ output.validationMeasurerOutputs, o ∈ output.getMeasurerOutputs := by
    intro o ho
    simp [MeasurerSetOutput.getMeasurerOutputs, ho]
  rcases hmain with ⟨main, hmain, hmainTagged⟩
  rcases Programs.exists_mapM fun o ho => htags o (hadditional o ho) with
    ⟨additional, hadditional, hadditionalTagged⟩
  rcases Programs.exists_mapM fun o ho => htags o (hvalidation o ho) with
    ⟨validation, hvalidation, hvalidationTagged⟩
  refine ⟨⟨output.setId, some (uids.measurerSet s), main, additional, validation⟩, ?_, rfl, ?_,
    hmainTagged, hadditionalTagged, hvalidationTagged⟩
  · rw [setSetUid, hfound, hmain, hadditional, hvalidation]
    rfl
  · intro s' hs' heq
    have hsame := h.measurerSet.injective ((mem_ofType h.enumerated).mpr hs')
      ((mem_ofType h.enumerated).mpr hs) (heq.trans hid)
    rw [hsame]

/-- Outputs that carry ids of the measurement are tagged. -/
theorem setResultUids_tags (h : HasIds graph depth root ids objects) {runOutputs : RunOutputs Uid}
    (hcarries : CarriesIds graph root ids runOutputs) :
    ∃ runOutputs', setResultUids graph depth root ids uids runOutputs = .ok runOutputs' ∧
      ResultTagged graph root ids uids runOutputs runOutputs' := by
  apply Programs.exists_mapM
  intro runOutput hrun
  apply Programs.exists_mapM
  intro output houtput
  rcases hcarries runOutput hrun output houtput with ⟨hset, houtputs⟩
  exact setSetUid_tags h hset houtputs

end SetResultUids

/-! ## Results are identified -/

variable [DecidableEq ν]

/-- The ids and the results of a measurement are as they should be. -/
structure IdentifiesResults (graph : Graph defs Double ν) (root : ν) : Prop where
  /-- Different measurers and different measurer sets get different ids. -/
  distinct : ∀ ids, ∃ depth ids', setIds graph depth root ids = .ok ids' ∧
    (∀ x y, IsOf graph root measurerBase x → IsOf graph root measurerBase y →
      ids'.measurer x = ids'.measurer y → x = y) ∧
    ∀ s t, IsOf graph root measurerSetName s → IsOf graph root measurerSetName t →
      ids'.measurerSet s = ids'.measurerSet t → s = t
  /-- Measurements with the same structure get the same ids. -/
  canonical : ∀ (ν' : Type) [DecidableEq ν'] (graph' : Graph defs Double ν') (f : ν → ν'),
    SameStructure graph root graph' f → ∀ depth ids ids', setIds graph depth root ids = .ok ids' →
    ∀ ids₂, ∃ depth₂ ids₂', setIds graph' depth₂ (f root) ids₂ = .ok ids₂' ∧
      AgreeOn graph root (ids₂'.along f) ids'
  /-- Outputs with ids of this measurement are tagged. -/
  tagsOwn : ∀ (Uid : Type) (uids : Uids ν Uid) depth ids ids' (runOutputs : RunOutputs Uid),
    setIds graph depth root ids = .ok ids' → CarriesIds graph root ids' runOutputs →
    ∃ runOutputs', setResultUids graph depth root ids' uids runOutputs = .ok runOutputs' ∧
      ResultTagged graph root ids' uids runOutputs runOutputs'
  /-- Outputs with ids of a measurement with the same structure are tagged with the UIDs of the
  corresponding objects of this one. -/
  tagsOther : ∀ (ν' : Type) [DecidableEq ν'] (graph' : Graph defs Double ν') (f : ν → ν'),
    SameStructure graph root graph' f →
    ∀ (Uid : Type) (uids : Uids ν Uid) depth ids ids' depth₂ ids₂ ids₂'
      (runOutputs : RunOutputs Uid),
    setIds graph depth root ids = .ok ids' → setIds graph' depth₂ (f root) ids₂ = .ok ids₂' →
    CarriesIds graph' (f root) ids₂' runOutputs →
    ∃ runOutputs', setResultUids graph depth root ids' uids runOutputs = .ok runOutputs' ∧
      ResultTagged graph root (ids₂'.along f) uids runOutputs runOutputs'

section Identified

variable {graph : Graph defs Double ν} {root : ν}

/-- The ids of measurers and of measurer sets are distinct. -/
theorem setIds_distinct {depth : Nat} {ids : Ids ν} {objects : List ν}
    (h : HasIds graph depth root ids objects) :
    (∀ x y, IsOf graph root measurerBase x → IsOf graph root measurerBase y →
      ids.measurer x = ids.measurer y → x = y) ∧
    ∀ s t, IsOf graph root measurerSetName s → IsOf graph root measurerSetName t →
      ids.measurerSet s = ids.measurerSet t → s = t := by
  constructor
  · intro x y hx hy
    exact h.measurer.injective ((mem_ofType h.enumerated).mpr hx)
      ((mem_ofType h.enumerated).mpr hy)
  · intro s t hs ht
    exact h.measurerSet.injective ((mem_ofType h.enumerated).mpr hs)
      ((mem_ofType h.enumerated).mpr ht)

/-- The results of an acyclic measurement are identified exactly if no list of it has a null
element. -/
theorem identifiesResults_iff [Finite ν] (graph : Graph defs Double ν) (root : ν)
    (hacyclic : Acyclic graph.holds root) :
    IdentifiesResults graph root ↔
      ∀ o, graph.Reachable (some root) o → ¬graph.HasNullElement o := by
  constructor
  · intro h o ho
    rcases h.distinct ⟨fun _ => 0, fun _ => 0, fun _ => 0, fun _ => 0⟩ with
      ⟨depth, ids', hids, _⟩
    rcases setIds_hasIds hids with ⟨objects, hobjects⟩
    exact (graph.within_of_addAll .java hobjects.enumerated).2 o
      (graph.reachable_iff_reaches.mp ho)
  · intro hnull
    rcases hacyclic.exists_within with ⟨bound, hwithin⟩
    rcases graph.exists_addAll .java hwithin
      (fun o ho => hnull o (graph.reachable_iff_reaches.mpr ho)) [] with ⟨objects, hobjects, _⟩
    have hroot := hnull root (.root rfl)
    constructor
    case distinct =>
      intro ids
      rcases exists_setIds hobjects hroot ids with ⟨ids', hids⟩
      rcases setIds_hasIds hids with ⟨objects', hhas⟩
      exact ⟨bound, ids', hids, setIds_distinct hhas⟩
    case canonical =>
      intro ν' _ graph' f hsame depth ids ids' hids ids₂
      have hobjects' : graph'.getAll .java bound (f root) = .ok (objects.map f) := by
        rw [hsame.getAll, Graph.getAll, hobjects]
        rfl
      have hroot' : ¬graph'.HasNullElement (f root) :=
        fun h => hroot (hasNullElement_of_same hsame (.root rfl) h)
      rcases exists_setIds hobjects' hroot' ids₂ with ⟨ids₂', hids₂⟩
      exact ⟨bound, ids₂', hids₂, numbersAlike hsame hids hids₂⟩
    case tagsOwn =>
      intro Uid uids depth ids ids' runOutputs hids hcarries
      rcases setIds_hasIds hids with ⟨objects', hhas⟩
      exact setResultUids_tags hhas hcarries
    case tagsOther =>
      intro ν' _ graph' f hsame Uid uids depth ids ids' depth₂ ids₂ ids₂' runOutputs hids hids₂
        hcarries
      have hagree := numbersAlike hsame hids hids₂
      rcases setIds_hasIds hids with ⟨objects', hhas⟩
      rcases setResultUids_tags hhas (hcarries.of_same hsame hagree) with
        ⟨runOutputs', hreturn, htagged⟩
      exact ⟨runOutputs', hreturn, htagged.congr hagree⟩

end Identified

/-! ## A measurement with one measurer set -/

namespace OneSet

/-- The class of measurer sets. -/
def measurerSetClass : ClassDef :=
  .multiLanguageClass measurerSetName false
    [.field idName (.primitive .int),
      .field (.ofString "mainMeasurer" (by decide)) (.reference measurerBase),
      .list (.ofString "additionalMeasurers" (by decide)) (.reference measurerBase),
      .list (.ofString "validationMeasurers" (by decide)) (.reference measurerBase)]

/-- A class of measurers. -/
def tscMeasurerClass : ClassDef :=
  .derivedClass (.ofString "TscMeasurer" (by decide)) false []
    (.multiLanguageClass measurerBase true [.field idName (.primitive .int)])

/-- The classes of the example. -/
def definitions : Definitions where
  classes := [measurementClass, measurerSetClass, tscMeasurerClass]
  distinct := by decide

/-- The objects of the example. -/
inductive Part where
  | measurement
  | measurerSet
  | measurer
deriving DecidableEq

/-- There are three of them. -/
instance : Fintype Part :=
  Fintype.ofList [.measurement, .measurerSet, .measurer] fun part => by cases part <;> decide

open Integers in
/-- The measurer is the main measurer of the set.  The list of additional measurers holds it
once more, or else a null reference. -/
def object (shared : Bool) : Part → Object definitions Empty (Option Part)
  | .measurement => ⟨⟨measurementClass, by decide, isAbstract_measurementClass⟩, [], [], [],
      some .measurerSet, ()⟩
  | .measurerSet => ⟨⟨measurerSetClass, by decide, rfl⟩, .wrap 32 0, some .measurer,
      [if shared then some .measurer else none], [], ()⟩
  | .measurer => ⟨⟨tscMeasurerClass, by decide, rfl⟩, .wrap 32 0, ()⟩

/-- A measurement with a measurer set, which has a measurer in one place or in two. -/
def graph (shared : Bool) : Graph definitions Empty Part where
  object := object shared
  sizes := by
    have hsizes : ∀ shared o, ∀ size ∈ FieldValues.sizes _ (object shared o).values,
        size < 2 ^ 31 := by decide
    exact hsizes shared
  typed := by
    have htyped : ∀ shared o, ∀ ref ∈ (object shared o).refs, ∀ target,
        ref.2 = some target → (object shared target).cls.cls.isA ref.1 = true := by decide
    intro o type target hmem
    exact htyped shared o (type, some target) hmem target rfl

/-- The example has no circles. -/
theorem acyclic (shared : Bool) : Acyclic (graph shared).holds .measurement := by
  apply exists_within_iff.mp
  refine ⟨3, ?_⟩
  have hwalks : ∀ shared, ∀ o ∈ (graph shared).holds .measurement,
      ∀ target ∈ (graph shared).holds o, ∀ last ∈ (graph shared).holds target, False := by decide
  exact hwalks shared

/-- A measurer that is in two places has one id. -/
theorem identifiesResults_shared : IdentifiesResults (graph true) .measurement := by
  apply (identifiesResults_iff (graph true) .measurement (acyclic true)).mpr
  have hnone : ∀ o, none ∉ (graph true).called o := by decide
  intro o _ hnull
  exact hnone o ((graph true).none_mem_called.mpr hnull)

/-- With a null element in a list not even ids are set. -/
theorem not_identifiesResults :
    Acyclic (graph false).holds .measurement ∧
    ¬IdentifiesResults (graph false) .measurement := by
  refine ⟨acyclic false, ?_⟩
  intro h
  rcases h.distinct ⟨fun _ => 0, fun _ => 0, fun _ => 0, fun _ => 0⟩ with ⟨depth, ids', hids, _⟩
  rcases setIds_hasIds hids with ⟨objects, hobjects⟩
  have hheld : Part.measurerSet ∈ (graph false).holds .measurement := by decide
  have hnone : none ∈ (graph false).called .measurerSet := by decide
  exact ((graph false).within_of_addAll .java hobjects.enumerated).2 .measurerSet
    (.single hheld) ((graph false).none_mem_called.mp hnone)

end OneSet

end ResultUids
end Roofline
