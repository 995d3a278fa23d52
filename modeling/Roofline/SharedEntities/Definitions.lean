import Roofline.Library.Integers
import Mathlib.Data.List.Forall2
import Mathlib.Data.List.Nodup
import Mathlib.Tactic.Common

/-!
# Multi language classes and their objects

The shared entity generator reads class definitions and generates from each a Java and
a C++ class and, for both languages, the code that serializes and deserializes its
objects.  This file has the class definitions as the generator reads them, the objects
of the generated classes and graphs of such objects.

Main results:

- Theorem {lit}`Definitions.eq_of_name`: the name of a class determines it.
- Theorem {lit}`FieldValues.rel_refs`: related field values hold related references.
-/

namespace Roofline
namespace SharedEntities

open Integers

/-- The characters of a string, as they are transported. -/
abbrev Text := List Char

/-! ## Class definitions -/

/-- A character that names consist of. -/
def isIdentifierChar (c : Char) : Bool :=
  c.isAlphanum || c == '_'

/-- The name of a class or field, an identifier in both languages. -/
structure Identifier where
  text : Text
  nonempty : text ≠ []
  chars : ∀ c ∈ text, isIdentifierChar c = true
deriving DecidableEq

/-- An identifier from a string literal. -/
def Identifier.ofString (s : String)
    (h : s.toList.isEmpty = false ∧ s.toList.all isIdentifierChar = true) : Identifier where
  text := s.toList
  nonempty := List.isEmpty_eq_false_iff.mp h.1
  chars := List.all_eq_true.mp h.2

/-- The primitive types {lit}`createTypeDescriptorsForPrimitiveTypes` supports. -/
inductive PrimitiveType where
  | int
  | long
  | bool
  | double
  | string
  | ulong
deriving DecidableEq

/-- The type of a field: a primitive type or a class. -/
inductive FieldType where
  | primitive (type : PrimitiveType)
  /-- A reference to an object of the class with this name. -/
  | reference (type : Identifier)
deriving DecidableEq

/-- {lit}`MultiLanguageField` and {lit}`MultiLanguageList`. -/
inductive FieldDef where
  | field (name : Identifier) (type : FieldType)
  | list (name : Identifier) (type : FieldType)
deriving DecidableEq

/-- The type of a field, or of the elements of a list. -/
def FieldDef.type : FieldDef → FieldType
  | .field _ type => type
  | .list _ type => type

/-- {lit}`MultiLanguageClass` and {lit}`MultiLanguageDerivedClass`, the latter with the
base class that was found for it. -/
inductive ClassDef where
  | multiLanguageClass (name : Identifier) (isAbstract : Bool) (fields : List FieldDef)
  | derivedClass (name : Identifier) (isAbstract : Bool) (fields : List FieldDef)
      (baseClass : ClassDef)
deriving DecidableEq

namespace ClassDef

/-- The name of a class. -/
def name : ClassDef → Identifier
  | .multiLanguageClass name _ _ => name
  | .derivedClass name _ _ _ => name

/-- An abstract class has no objects. -/
def isAbstract : ClassDef → Bool
  | .multiLanguageClass _ isAbstract _ => isAbstract
  | .derivedClass _ isAbstract _ _ => isAbstract

/-- {lit}`getAllFields`: the fields of the class, then those of its base classes. -/
def allFields : ClassDef → List FieldDef
  | .multiLanguageClass _ _ fields => fields
  | .derivedClass _ _ fields baseClass => fields ++ baseClass.allFields

/-- The class or one of its base classes has this name. -/
def isA (type : Identifier) : ClassDef → Bool
  | .multiLanguageClass name _ _ => name == type
  | .derivedClass name _ _ baseClass => name == type || baseClass.isA type

end ClassDef

/-- The class definitions both services are generated from.  The generated C++ classes
share one namespace. -/
structure Definitions where
  classes : List ClassDef
  distinct : (classes.map ClassDef.name).Nodup

/-- A class that has objects. -/
structure ConcreteClass (defs : Definitions) where
  cls : ClassDef
  defined : cls ∈ defs.classes
  concrete : cls.isAbstract = false
deriving DecidableEq

/-- The name of a class determines it. -/
theorem Definitions.eq_of_name {defs : Definitions} {c c' : ClassDef}
    (hc : c ∈ defs.classes) (hc' : c' ∈ defs.classes) (hname : c.name = c'.name) : c = c' :=
  List.inj_on_of_nodup_map defs.distinct hc hc' hname

/-- The first class with objects whose name is accepted. -/
def Definitions.findConcrete (defs : Definitions) (accepts : Text → Bool) :
    Option (ConcreteClass defs) :=
  defs.classes.attach.findSome? fun cls =>
    if h : cls.val.isAbstract = false ∧ accepts cls.val.name.text = true then
      some ⟨cls.val, cls.property, h.1⟩
    else
      none

/-- A class with objects is found by its name. -/
theorem Definitions.findConcrete_name {defs : Definitions} (c : ConcreteClass defs)
    {accepts : Text → Bool} (haccepts : ∀ name, accepts name = true ↔ name = c.cls.name.text) :
    defs.findConcrete accepts = some c := by
  have hsome : (defs.findConcrete accepts).isSome = true := by
    rw [findConcrete, List.findSome?_isSome_iff]
    exact ⟨⟨c.cls, c.defined⟩, List.mem_attach _ _, by simp [c.concrete, haccepts]⟩
  rcases Option.isSome_iff_exists.mp hsome with ⟨found, hfound⟩
  rw [hfound]
  rcases List.exists_of_findSome?_eq_some hfound with ⟨⟨cls, hcls⟩, -, heq⟩
  split at heq
  · rename_i hname
    obtain rfl := Option.some.inj heq
    have hident : cls.name = c.cls.name := by
      rcases hleft : cls.name with ⟨text, _, _⟩
      rcases hright : c.cls.name with ⟨text', _, _⟩
      have htext := (haccepts _).mp hname.2
      rw [hleft, hright] at htext
      subst htext
      rfl
    have hsame := defs.eq_of_name hcls c.defined hident
    subst hsame
    rfl
  · cases heq

/-! ## Objects -/

/-- The values of a primitive type; {lit}`double` is the type of the floating point
numbers, and {lit}`ulong` is a {lit}`BigInteger` in Java. -/
def Primitive (Double : Type) : PrimitiveType → Type
  | .int => Signed 32
  | .long => Signed 64
  | .bool => Bool
  | .double => Double
  | .string => Text
  | .ulong => Int

variable {Double R R' : Type}

/-- A value that is no list; {lit}`R` are the references. -/
def Item (Double R : Type) : FieldType → Type
  | .primitive type => Primitive Double type
  | .reference _ => R

/-- The value of a field: an item, or a list of items. -/
def FieldValue (Double R : Type) : FieldDef → Type
  | .field _ type => Item Double R type
  | .list _ type => List (Item Double R type)

/-- The values of some fields. -/
def FieldValues (Double R : Type) : List FieldDef → Type
  | [] => Unit
  | field :: fields => FieldValue Double R field × FieldValues Double R fields

/-- An object of a generated class. -/
structure Object (defs : Definitions) (Double R : Type) where
  cls : ConcreteClass defs
  values : FieldValues Double R cls.cls.allFields

/-! ## References of an object -/

/-- The reference an item is, with the class its field declares. -/
def Item.refs : (type : FieldType) → Item Double R type → List (Identifier × R)
  | .primitive _, _ => []
  | .reference type, ref => [(type, ref)]

/-- The references in the value of a field, with the declared classes. -/
def FieldValue.refs : (field : FieldDef) → FieldValue Double R field → List (Identifier × R)
  | .field _ type, value => Item.refs type value
  | .list _ type, values => values.flatMap (Item.refs type)

/-- The references in the fields, in the order of the fields. -/
def FieldValues.refs :
    (fields : List FieldDef) → FieldValues Double R fields → List (Identifier × R)
  | [], _ => []
  | field :: fields, (value, values) => FieldValue.refs field value ++ refs fields values

/-- The lengths of the lists. -/
def FieldValues.sizes : (fields : List FieldDef) → FieldValues Double R fields → List Nat
  | [], _ => []
  | .field _ _ :: fields, (_, values) => sizes fields values
  | .list _ _ :: fields, (value, values) => List.length value :: sizes fields values

/-- The references in an object, with the declared classes. -/
def Object.refs {defs : Definitions} (object : Object defs Double R) : List (Identifier × R) :=
  FieldValues.refs _ object.values

/-! ## Related objects -/

/-- Items with related references and primitive values. -/
def Item.Rel (ρ : R → R' → Prop)
    (agree : (type : PrimitiveType) → Primitive Double type → Primitive Double type → Prop) :
    (type : FieldType) → Item Double R type → Item Double R' type → Prop
  | .primitive type, value, value' => agree type value value'
  | .reference _, ref, ref' => ρ ref ref'

/-- Two values of a field correspond, item by item. -/
def FieldValue.Rel (ρ : R → R' → Prop)
    (agree : (type : PrimitiveType) → Primitive Double type → Primitive Double type → Prop) :
    (field : FieldDef) → FieldValue Double R field → FieldValue Double R' field → Prop
  | .field _ type, value, value' => Item.Rel ρ agree type value value'
  | .list _ type, values, values' => List.Forall₂ (Item.Rel ρ agree type) values values'

/-- The same fields hold related values, lists element by element. -/
def FieldValues.Rel (ρ : R → R' → Prop)
    (agree : (type : PrimitiveType) → Primitive Double type → Primitive Double type → Prop) :
    (fields : List FieldDef) → FieldValues Double R fields → FieldValues Double R' fields → Prop
  | [], _, _ => True
  | field :: fields, (value, values), (value', values') =>
      FieldValue.Rel ρ agree field value value' ∧ Rel ρ agree fields values values'

section Related

variable {ρ ρ' : R → R' → Prop}
  {agree agree' : (type : PrimitiveType) → Primitive Double type → Primitive Double type → Prop}

/-- Items correspond under weaker relations as well. -/
theorem Item.Rel.mono (hρ : ∀ r r', ρ r r' → ρ' r r')
    (hagree : ∀ type v v', agree type v v' → agree' type v v') {type : FieldType}
    {value : Item Double R type} {value' : Item Double R' type}
    (h : Item.Rel ρ agree type value value') : Item.Rel ρ' agree' type value value' := by
  cases type with
  | primitive type => exact hagree type value value' h
  | reference type => exact hρ value value' h

/-- Values of a field correspond under weaker relations as well. -/
theorem FieldValue.Rel.mono (hρ : ∀ r r', ρ r r' → ρ' r r')
    (hagree : ∀ type v v', agree type v v' → agree' type v v') {field : FieldDef}
    {value : FieldValue Double R field} {value' : FieldValue Double R' field}
    (h : FieldValue.Rel ρ agree field value value') :
    FieldValue.Rel ρ' agree' field value value' := by
  cases field with
  | field name type => exact Item.Rel.mono hρ hagree h
  | list name type => exact List.Forall₂.imp (fun _ _ => Item.Rel.mono hρ hagree) h

/-- Values of some fields correspond under weaker relations as well. -/
theorem FieldValues.Rel.mono (hρ : ∀ r r', ρ r r' → ρ' r r')
    (hagree : ∀ type v v', agree type v v' → agree' type v v') {fields : List FieldDef}
    {values : FieldValues Double R fields} {values' : FieldValues Double R' fields}
    (h : FieldValues.Rel ρ agree fields values values') :
    FieldValues.Rel ρ' agree' fields values values' := by
  induction fields with
  | nil => trivial
  | cons field fields ih => exact ⟨h.1.mono hρ hagree, ih h.2⟩

/-- Corresponding items refer to corresponding objects. -/
theorem Item.rel_refs {type : FieldType} {value : Item Double R type}
    {value' : Item Double R' type} (h : Item.Rel ρ agree type value value') :
    List.Forall₂ (fun r r' => r.1 = r'.1 ∧ ρ r.2 r'.2) (Item.refs type value)
      (Item.refs type value') := by
  cases type with
  | primitive type => exact .nil
  | reference type => exact .cons ⟨rfl, h⟩ .nil

/-- Corresponding values of a field refer to corresponding objects. -/
theorem FieldValue.rel_refs {field : FieldDef} {value : FieldValue Double R field}
    {value' : FieldValue Double R' field} (h : FieldValue.Rel ρ agree field value value') :
    List.Forall₂ (fun r r' => r.1 = r'.1 ∧ ρ r.2 r'.2) (FieldValue.refs field value)
      (FieldValue.refs field value') := by
  cases field with
  | field name type => exact Item.rel_refs h
  | list name type => exact List.rel_flatMap h fun _ _ hitem => Item.rel_refs hitem

/-- Related field values hold related references. -/
theorem FieldValues.rel_refs {fields : List FieldDef} {values : FieldValues Double R fields}
    {values' : FieldValues Double R' fields} (h : FieldValues.Rel ρ agree fields values values') :
    List.Forall₂ (fun r r' => r.1 = r'.1 ∧ ρ r.2 r'.2) (FieldValues.refs fields values)
      (FieldValues.refs fields values') := by
  induction fields with
  | nil => exact .nil
  | cons field fields ih => exact List.rel_append (FieldValue.rel_refs h.1) (ih h.2)

/-- Every element of a list is related to one of a related list. -/
theorem exists_related_of_mem {α β : Type} {P : α → β → Prop} {l : List α} {l' : List β}
    (h : List.Forall₂ P l l') {a : α} (ha : a ∈ l) : ∃ b ∈ l', P a b := by
  induction h with
  | nil => cases ha
  | @cons first first' l l' hfirst _ ih =>
      rcases List.mem_cons.mp ha with rfl | ha
      · exact ⟨first', List.mem_cons_self .., hfirst⟩
      · rcases ih ha with ⟨b, hb, hab⟩
        exact ⟨b, List.mem_cons_of_mem _ hb, hab⟩

end Related

/-! ## Object graphs -/

/-- Objects that refer to each other; {lit}`none` is the null reference.  The lists are
shorter than the largest {lit}`int`, which is what their {lit}`size` can return, and
references respect the classes the fields declare. -/
structure Graph (defs : Definitions) (Double ν : Type) where
  object : ν → Object defs Double (Option ν)
  sizes : ∀ o, ∀ size ∈ FieldValues.sizes _ (object o).values, size < 2 ^ 31
  typed : ∀ o type target, (type, some target) ∈ (object o).refs →
    (object target).cls.cls.isA type = true

namespace Graph

variable {defs : Definitions} {ν : Type} (graph : Graph defs Double ν)

/-- The objects an object refers to, once for each reference. -/
def holds (o : ν) : List ν :=
  (graph.object o).refs.filterMap Prod.snd

/-- The objects that can be reached from a reference. -/
inductive Reachable (root : Option ν) : ν → Prop where
  | root {o : ν} (h : root = some o) : Reachable root o
  | held {o target : ν} (h : Reachable root o) (hheld : target ∈ graph.holds o) :
      Reachable root target

end Graph

/-! ## Graphs of one class -/

namespace Node

/-- The name of the class. -/
def className : Identifier :=
  .ofString "Node" (by decide)

/-- A class with a reference, a string and a list of references. -/
def cls : ClassDef :=
  .multiLanguageClass className false
    [.field (.ofString "next" (by decide)) (.reference className),
      .field (.ofString "name" (by decide)) (.primitive .string),
      .list (.ofString "others" (by decide)) (.reference className)]

/-- A definition of this class only. -/
def definitions : Definitions where
  classes := [cls]
  distinct := List.nodup_singleton _

/-- The class has objects. -/
def concrete : ConcreteClass definitions where
  cls := cls
  defined := List.mem_singleton_self _
  concrete := rfl

/-- Nodes with the same name. -/
def graph {ν : Type} (next : ν → Option ν) (name : Text) (others : ν → List (Option ν))
    (hothers : ∀ o, (others o).length < 2 ^ 31) : Graph definitions Empty ν where
  object o := ⟨concrete, (next o, name, others o, ())⟩
  sizes := by
    intro o size hsize
    obtain rfl : size = (others o).length := List.mem_singleton.mp hsize
    exact hothers o
  typed := by
    intro o type target hmem
    have htype : type = className := by
      change (type, some target) ∈
        (className, next o) :: ((others o).flatMap (Item.refs (.reference className)) ++ []) at hmem
      rcases List.mem_cons.mp hmem with hnext | hrest
      · exact (Prod.mk.inj hnext).1
      · rw [List.append_nil] at hrest
        rcases List.mem_flatMap.mp hrest with ⟨ref, _, href⟩
        exact (Prod.mk.inj (List.mem_singleton.mp href)).1
    subst htype
    rfl

/-- A node that refers to another one. -/
def chain : Graph definitions Empty Bool :=
  graph (fun o => if o then none else some true) "a\nb".toList (fun _ => [none]) (by decide)

/-- Two nodes that refer to each other and to themselves. -/
def ring : Graph definitions Empty Bool :=
  graph (fun o => some !o) "a\nb".toList (fun o => [some o, none]) (by decide)

end Node

end SharedEntities
end Roofline
