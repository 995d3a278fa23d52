import Roofline.SharedEntities.Inheritance
import Mathlib.Data.List.ReduceOption
import Mathlib.Logic.Relation

/-!
# Fields that a copy keeps

A class written by hand can override the generated {lit}`cloneFrom`.  {lit}`Measurement` does, so
that a copy of a measurement keeps the configurators of the original.  Which fields are kept is
given here by a predicate on fields, and references are told apart by it.

Main results:

- Theorem {lit}`FieldValues.relBy_merge`: copied values, with those that are kept put in their
  place.
- Theorem {lit}`FieldValues.RelBy.comp`: a copy of a copy.
- Theorem {lit}`FieldValues.Rel.keptRefs`: the kept references of related values are related.
-/

namespace Roofline
namespace SharedEntities

variable {Double R R' R'' : Type}

/-! ## The class of measurements -/

/-- The class for which the generated {lit}`cloneFrom` is overridden. -/
def measurementName : Identifier :=
  .ofString "Measurement" (by decide)

/-- The list that the override copies. -/
def configuratorsName : Identifier :=
  .ofString "configurators" (by decide)

/-- The list of the workloads of a measurement. -/
def workloadsName : Identifier :=
  .ofString "workloads" (by decide)

/-- The class of the configurators. -/
def configuratorBaseName : Identifier :=
  .ofString "ConfiguratorBase" (by decide)

/-- The class of the workloads. -/
def workloadName : Identifier :=
  .ofString "Workload" (by decide)

/-- The class of the measurer sets. -/
def measurerSetName : Identifier :=
  .ofString "MeasurerSet" (by decide)

/-- {lit}`Measurement.xml`. -/
def measurementClass : ClassDef :=
  .multiLanguageClass measurementName false
    [.list workloadsName (.reference workloadName),
      .list configuratorsName (.reference configuratorBaseName),
      .list (.ofString "rules" (by decide)) (.reference (.ofString "Rule" (by decide))),
      .field (.ofString "overallMeasurerSet" (by decide)) (.reference measurerSetName)]

/-- Measurements can be made. -/
theorem isAbstract_measurementClass : measurementClass.isAbstract = false :=
  rfl

/-- The class of the kernels. -/
def kernelBaseName : Identifier :=
  .ofString "KernelBase" (by decide)

/-- The field for the number of an object. -/
def idName : Identifier :=
  .ofString "id" (by decide)

/-- {lit}`Measurement::cloneFrom` keeps the configurators; no other class overrides it, and no
class is derived from {lit}`Measurement`. -/
def keeps (cls : ClassDef) : FieldDef → Bool
  | .field _ _ => false
  | .list name _ => cls.name == measurementName && name == configuratorsName

namespace FieldValues

/-! ## References in kept fields and in others -/

variable (kept : FieldDef → Bool)

/-- The references in the kept fields. -/
def keptRefs : (fields : List FieldDef) → FieldValues Double R fields → List R
  | [], _ => []
  | field :: fields, (value, values) =>
      (if kept field then (FieldValue.refs field value).map Prod.snd else []) ++
        keptRefs fields values

/-- The references in the other fields. -/
def otherRefs : (fields : List FieldDef) → FieldValues Double R fields → List R
  | [], _ => []
  | field :: fields, (value, values) =>
      (if kept field then [] else (FieldValue.refs field value).map Prod.snd) ++
        otherRefs fields values

/-- Values with those of other values in the kept fields. -/
def merge : (fields : List FieldDef) → FieldValues Double R fields →
    FieldValues Double R fields → FieldValues Double R fields
  | [], _, _ => ()
  | field :: fields, (value, values), (keptValue, keptValues) =>
      (if kept field then keptValue else value, merge fields values keptValues)

/-- Each reference is in a kept field or in another one. -/
theorem mem_refs_iff {fields : List FieldDef} {values : FieldValues Double R fields} {ref : R} :
    (∃ type, (type, ref) ∈ refs fields values) ↔
      ref ∈ keptRefs kept fields values ∨ ref ∈ otherRefs kept fields values := by
  induction fields with
  | nil => simp [refs, keptRefs, otherRefs]
  | cons field fields ih =>
      rcases values with ⟨value, values⟩
      have hfirst : (∃ type, (type, ref) ∈ FieldValue.refs field value) ↔
          ref ∈ (FieldValue.refs field value).map Prod.snd := by
        simp
      simp only [refs, keptRefs, otherRefs, List.mem_append, exists_or, ih, hfirst]
      cases kept field with
      | true =>
          simp only [if_true, List.not_mem_nil, false_or]
          exact or_assoc.symm
      | false =>
          simp only [Bool.false_eq_true, if_false, List.not_mem_nil, false_or]
          exact or_left_comm

/-- The same fields hold the same values, with references that are related as the field says. -/
def RelBy (ρ : FieldDef → R → R' → Prop) :
    (fields : List FieldDef) → FieldValues Double R fields → FieldValues Double R' fields → Prop
  | [], _, _ => True
  | field :: fields, (value, values), (value', values') =>
      FieldValue.Rel (ρ field) (fun _ v v' => v = v') field value value' ∧
        RelBy ρ fields values values'

variable {kept}

/-- Related references can be replaced, field by field. -/
theorem RelBy.mono {ρ ρ' : FieldDef → R → R' → Prop} (hρ : ∀ field r r', ρ field r r' →
      ρ' field r r') {fields : List FieldDef} {values : FieldValues Double R fields}
    {values' : FieldValues Double R' fields} (h : RelBy ρ fields values values') :
    RelBy ρ' fields values values' := by
  induction fields with
  | nil => trivial
  | cons field fields ih => exact ⟨h.1.mono (hρ field) (fun _ _ _ heq => heq), ih h.2⟩

end FieldValues

/-- An item is related to itself if all references are. -/
theorem Item.Rel.refl (type : FieldType) (value : Item Double R type) :
    Item.Rel Eq (fun _ v v' => v = v') type value value := by
  cases type with
  | primitive type => rfl
  | reference type => rfl

/-- A field is related to itself if all references are. -/
theorem FieldValue.Rel.refl (field : FieldDef) (value : FieldValue Double R field) :
    FieldValue.Rel Eq (fun _ v v' => v = v') field value value := by
  cases field with
  | field name type => exact Item.Rel.refl type value
  | list name type => exact List.forall₂_same.mpr fun item _ => Item.Rel.refl type item

/-- Related references of related references, in an item. -/
theorem Item.Rel.comp {ρ : R → R' → Prop} {ρ' : R' → R'' → Prop} {type : FieldType}
    {value : Item Double R type} {value' : Item Double R' type} {value'' : Item Double R'' type}
    (h : Item.Rel ρ (fun _ v v' => v = v') type value value')
    (h' : Item.Rel ρ' (fun _ v v' => v = v') type value' value'') :
    Item.Rel (Relation.Comp ρ ρ') (fun _ v v' => v = v') type value value'' := by
  cases type with
  | primitive type => exact Eq.trans h h'
  | reference type => exact ⟨value', h, h'⟩

/-- Related references of related references, in a list. -/
theorem Item.Rel.comp_list {ρ : R → R' → Prop} {ρ' : R' → R'' → Prop} {type : FieldType}
    {l : List (Item Double R type)} {l' : List (Item Double R' type)}
    {l'' : List (Item Double R'' type)}
    (h : List.Forall₂ (Item.Rel ρ (fun _ v v' => v = v') type) l l')
    (h' : List.Forall₂ (Item.Rel ρ' (fun _ v v' => v = v') type) l' l'') :
    List.Forall₂ (Item.Rel (Relation.Comp ρ ρ') (fun _ v v' => v = v') type) l l'' := by
  induction h generalizing l'' with
  | nil =>
      cases h'
      exact .nil
  | cons hitem _ ih =>
      cases h' with
      | cons hitem' hrest => exact .cons (hitem.comp hitem') (ih hrest)

/-- Related references of related references, in a field. -/
theorem FieldValue.Rel.comp {ρ : R → R' → Prop} {ρ' : R' → R'' → Prop} {field : FieldDef}
    {value : FieldValue Double R field} {value' : FieldValue Double R' field}
    {value'' : FieldValue Double R'' field}
    (h : FieldValue.Rel ρ (fun _ v v' => v = v') field value value')
    (h' : FieldValue.Rel ρ' (fun _ v v' => v = v') field value' value'') :
    FieldValue.Rel (Relation.Comp ρ ρ') (fun _ v v' => v = v') field value value'' := by
  cases field with
  | field name type => exact Item.Rel.comp h h'
  | list name type => exact Item.Rel.comp_list h h'

namespace FieldValues

variable {kept : FieldDef → Bool}

/-- A copy of a copy. -/
theorem RelBy.comp {ρ : FieldDef → R → R' → Prop} {ρ' : FieldDef → R' → R'' → Prop}
    {fields : List FieldDef} {values : FieldValues Double R fields}
    {values' : FieldValues Double R' fields} {values'' : FieldValues Double R'' fields}
    (h : RelBy ρ fields values values') (h' : RelBy ρ' fields values' values'') :
    RelBy (fun field => Relation.Comp (ρ field) (ρ' field)) fields values values'' := by
  induction fields with
  | nil => trivial
  | cons field fields ih => exact ⟨h.1.comp h'.1, ih h.2 h'.2⟩

/-- Kept references are related as those of all fields. -/
theorem Rel.keptRefs {ρ : R → R' → Prop}
    {agree : (type : PrimitiveType) → Primitive Double type → Primitive Double type → Prop}
    {fields : List FieldDef} {values : FieldValues Double R fields}
    {values' : FieldValues Double R' fields} (h : Rel ρ agree fields values values') :
    List.Forall₂ ρ (FieldValues.keptRefs kept fields values)
      (FieldValues.keptRefs kept fields values') := by
  induction fields with
  | nil => exact .nil
  | cons field fields ih =>
      rcases values with ⟨value, values⟩
      rcases values' with ⟨value', values'⟩
      refine List.rel_append ?_ (ih h.2)
      cases kept field with
      | true =>
          have hrefs := FieldValue.rel_refs h.1
          exact List.forall₂_map_left_iff.mpr (List.forall₂_map_right_iff.mpr
            (hrefs.imp fun _ _ hpair => hpair.2))
      | false => exact .nil

/-- Other references are related as their field says. -/
theorem RelBy.otherRefs {ρ : FieldDef → R → R' → Prop} {σ : R → R' → Prop}
    (hσ : ∀ field r r', kept field = false → ρ field r r' → σ r r') {fields : List FieldDef}
    {values : FieldValues Double R fields} {values' : FieldValues Double R' fields}
    (h : RelBy ρ fields values values') :
    List.Forall₂ σ (FieldValues.otherRefs kept fields values)
      (FieldValues.otherRefs kept fields values') := by
  induction fields with
  | nil => exact .nil
  | cons field fields ih =>
      rcases values with ⟨value, values⟩
      rcases values' with ⟨value', values'⟩
      refine List.rel_append ?_ (ih h.2)
      cases hkept : kept field with
      | true => exact .nil
      | false =>
          have hrefs := FieldValue.rel_refs h.1
          exact List.forall₂_map_left_iff.mpr (List.forall₂_map_right_iff.mpr
            (hrefs.imp fun r r' hpair => hσ field _ _ hkept hpair.2))

end FieldValues

end SharedEntities
end Roofline
