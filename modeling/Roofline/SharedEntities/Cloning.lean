import Roofline.SharedEntities.KeptFields

/-!
# Cloning of object graphs

The generated {lit}`clone` makes a new object of the same class, notes it in a map and lets it
copy the fields of the original; the objects these refer to are cloned in the course of this.
An object that is in the map is not cloned again.  A measurement then deletes the clones of its
configurators and takes the original ones.

Main results:

- Theorem {lit}`Cloning.Advance.trans`: what two steps one after the other do.
- Theorem {lit}`Cloning.cloneFrom_spec`: the generated {lit}`cloneFrom` fills the fields of a
  clone.
-/

namespace Roofline
namespace SharedEntities

variable {defs : Definitions} {Double ν : Type}

/-! ## Constructors -/

/-- The value of a field nothing was assigned to; a primitive value can be anything. -/
def FieldValue.Blank : (field : FieldDef) → FieldValue Double (Option Nat) field → Prop
  | .field _ (.primitive _), _ => True
  | .field _ (.reference _), ref => ref = none
  | .list _ _, values => values = []

/-- The values of fields nothing was assigned to. -/
def FieldValues.Blank : (fields : List FieldDef) → FieldValues Double (Option Nat) fields → Prop
  | [], _ => True
  | field :: fields, (value, values) => FieldValue.Blank field value ∧ Blank fields values

/-- Blank values are blank in the fields of the class itself. -/
theorem FieldValues.Blank.own {fields baseFields : List FieldDef}
    {values : FieldValues Double (Option Nat) (fields ++ baseFields)}
    (h : Blank (fields ++ baseFields) values) :
    Blank fields (FieldValues.own fields baseFields values) := by
  induction fields with
  | nil => trivial
  | cons field fields ih => exact ⟨h.1, ih h.2⟩

/-- Blank values are blank in the inherited fields. -/
theorem FieldValues.Blank.inherited {fields baseFields : List FieldDef}
    {values : FieldValues Double (Option Nat) (fields ++ baseFields)}
    (h : Blank (fields ++ baseFields) values) :
    Blank baseFields (FieldValues.inherited fields baseFields values) := by
  induction fields with
  | nil => exact h
  | cons field fields ih => exact ih h.2

/-- What the constructors leave in a new object, which may depend on its address. -/
structure Constructors (defs : Definitions) (Double : Type) where
  values : Nat → (c : ConcreteClass defs) → FieldValues Double (Option Nat) c.cls.allFields
  blank : ∀ address c, FieldValues.Blank c.cls.allFields (values address c)

/-! ## The algorithm -/

/-- The objects in memory, at their addresses, those that were deleted, and the map from the
cloned objects to their clones. -/
structure Cloning (defs : Definitions) (Double : Type) where
  memory : List (Object defs Double (Option Nat))
  deleted : List Nat
  map : Nat → Option Nat

/-- Change the values of an object of a class. -/
def Object.update (c : ConcreteClass defs)
    (change : FieldValues Double (Option Nat) c.cls.allFields →
      FieldValues Double (Option Nat) c.cls.allFields)
    (object : Object defs Double (Option Nat)) : Object defs Double (Option Nat) :=
  if h : object.cls = c then ⟨c, change (h ▸ object.values)⟩ else object

/-- How a part of {lit}`this` is changed. -/
abbrev Write (defs : Definitions) (Double α : Type) : Type :=
  (α → α) → Cloning defs Double → Cloning defs Double

namespace Cloning

/-- {lit}`new`, with the new object put into the map. -/
def create (constructors : Constructors defs Double) (s : Cloning defs Double) (this : Nat)
    (c : ConcreteClass defs) : Cloning defs Double where
  memory := s.memory ++ [⟨c, constructors.values s.memory.length c⟩]
  deleted := s.deleted
  map a := if a = this then some s.memory.length else s.map a

/-- Change the fields of the object at an address. -/
def write (this : Nat) (c : ConcreteClass defs) :
    Write defs Double (FieldValues Double (Option Nat) c.cls.allFields) :=
  fun change s => { s with memory := s.memory.modify this (Object.update c change) }

/-- The object at an address, if it was not deleted. -/
def object (s : Cloning defs Double) (a : Nat) : Option (Object defs Double (Option Nat)) :=
  if a ∈ s.deleted then none else s.memory[a]?

/-- {lit}`delete`, which does nothing with a null reference. -/
def delete (s : Cloning defs Double) : Option Nat → Option (Cloning defs Double)
  | none => some s
  | some a => do
      let _ ← s.object a
      return { s with deleted := a :: s.deleted }

section CloneFrom

variable (clone : Nat → Cloning defs Double → Option (Nat × Cloning defs Double))

/-- An element of a list; a null reference is not followed. -/
def cloneItem : (type : FieldType) → Item Double (Option Nat) type → Cloning defs Double →
    Option (Item Double (Option Nat) type × Cloning defs Double)
  | .primitive _, value, s => some (value, s)
  | .reference _, none, s => some (none, s)
  | .reference _, some o, s => do
      let (copy, s) ← clone o s
      return (some copy, s)

/-- The loop over the elements of a list. -/
def cloneItems (type : FieldType) : List (Item Double (Option Nat) type) →
    Write defs Double (List (Item Double (Option Nat) type)) → Cloning defs Double →
    Option (Cloning defs Double)
  | [], _, s => some s
  | item :: items, write, s => do
      let (copy, s) ← cloneItem clone type item s
      cloneItems type items write (write (· ++ [copy]) s)

/-- The statement for a field: a value is assigned, a reference is followed, a list is copied. -/
def cloneField : (field : FieldDef) → FieldValue Double (Option Nat) field →
    Write defs Double (FieldValue Double (Option Nat) field) → Cloning defs Double →
    Option (Cloning defs Double)
  | .field _ (.primitive _), value, write, s => some (write (fun _ => value) s)
  | .field _ (.reference _), none, _, s => some s
  | .field _ (.reference _), some o, write, s => do
      let (copy, s) ← clone o s
      return write (fun _ => some copy) s
  | .list _ type, items, write, s => cloneItems clone type items write s

/-- The statements for the fields of a class, one after the other. -/
def cloneFields : (fields : List FieldDef) → FieldValues Double (Option Nat) fields →
    Write defs Double (FieldValues Double (Option Nat) fields) → Cloning defs Double →
    Option (Cloning defs Double)
  | [], _, _, s => some s
  | field :: fields, (value, values), write, s => do
      let s ← cloneField clone field value (fun change => write (Prod.map change id)) s
      cloneFields fields values (fun change => write (Prod.map id change)) s

/-- The generated {lit}`cloneFrom` with the method of the base class, if there is a generated
one. -/
def cloneFrom : (cls : ClassDef) → FieldValues Double (Option Nat) cls.allFields →
    Write defs Double (FieldValues Double (Option Nat) cls.allFields) → Cloning defs Double →
    Option (Cloning defs Double)
  | .multiLanguageClass _ _ fields, values, write, s => cloneFields clone fields values write s
  | .derivedClass _ _ fields baseClass, values, write, s => do
      let s ← cloneFrom baseClass (FieldValues.inherited fields baseClass.allFields values)
        (fun change => write fun values =>
          (FieldValues.own fields baseClass.allFields values).append
            (change (FieldValues.inherited fields baseClass.allFields values))) s
      cloneFields clone fields (FieldValues.own fields baseClass.allFields values)
        (fun change => write fun values =>
          (change (FieldValues.own fields baseClass.allFields values)).append
            (FieldValues.inherited fields baseClass.allFields values)) s

end CloneFrom

/-- What {lit}`Measurement::cloneFrom` does after the generated one: it deletes what is in the
list of configurators and copies the list of the original.  Other classes keep no field. -/
def keepConfigurators (result : Nat) (original : Object defs Double (Option Nat))
    (s : Cloning defs Double) : Option (Cloning defs Double) := do
  -- a clone that was deleted before its fields were copied is not used any more
  let copy ← s.object result
  let s ← (FieldValues.keptRefs (keeps copy.cls.cls) _ copy.values).foldlM delete s
  return write result original.cls
    (fun values => FieldValues.merge (keeps original.cls.cls) _ values original.values) s

/-- {lit}`clone`, with a bound on the depth of the recursion. -/
def clone (constructors : Constructors defs Double) :
    Nat → Nat → Cloning defs Double → Option (Nat × Cloning defs Double)
  | 0, _, _ => none
  | depth + 1, this, s =>
      match s.map this with
      | some copy => some (copy, s)
      | none => do
          let object ← s.object this
          let result := s.memory.length
          let s ← cloneFrom (clone constructors depth) object.cls.cls object.values
            (write result object.cls) (s.create constructors this object.cls)
          let s ← keepConfigurators result object s
          return (result, s)

/-! ## Copies in progress -/

/-- The clones of the objects {lit}`order` stand at the addresses from {lit}`base` on. -/
def CopyOf (base : Nat) (order : List Nat) : Option Nat → Option Nat → Prop
  | none, copy => copy = none
  | some a, copy => ∃ i, copy = some (base + i) ∧ order[i]? = some a

/-- Clones of further objects change no address. -/
theorem CopyOf.append {base : Nat} {order : List Nat} {ref copy : Option Nat}
    (h : CopyOf base order ref copy) (new : List Nat) : CopyOf base (order ++ new) ref copy := by
  cases ref with
  | none => exact h
  | some a =>
      rcases h with ⟨i, hcopy, hi⟩
      have hlt : i < order.length := (List.getElem?_eq_some_iff.mp hi).1
      exact ⟨i, hcopy, by rwa [List.getElem?_append_left hlt]⟩

/-- The objects that the kept fields of an object refer to. -/
def ownedBy (memory : List (Object defs Double (Option Nat))) (a : Nat) : List Nat :=
  match memory[a]? with
  | none => []
  | some object =>
      (FieldValues.keptRefs (keeps object.cls.cls) _ object.values).reduceOption

section Progress

variable (original : List (Object defs Double (Option Nat))) (S : Nat → Prop)

/-- This is a clone of a configurator of the measurement {lit}`m`. -/
def Discarded (order : List Nat) (m copy : Nat) : Prop :=
  ∃ a ∈ ownedBy original m, CopyOf original.length order (some a) (some copy)

/-- The objects {lit}`order` are in the map, and the original ones are as they were.  Clones of
configurators were deleted. -/
structure InStep (order : List Nat) (s : Cloning defs Double) : Prop where
  length : s.memory.length = original.length + order.length
  kept : ∀ a < original.length, s.memory[a]? = original[a]?
  map_iff : ∀ a copy, s.map a = some copy ↔ CopyOf original.length order (some a) (some copy)
  inside : ∀ a ∈ order, a < original.length ∧ S a
  discarded : ∀ copy ∈ s.deleted, ∃ m ∈ order, Discarded original order m copy

/-- The clone at {lit}`i` is complete: its kept fields are those of the original. -/
def Copied (order : List Nat) (memory : List (Object defs Double (Option Nat))) (i a : Nat) :
    Prop :=
  ∃ c values values', original[a]? = some ⟨c, values⟩ ∧
    memory[original.length + i]? = some ⟨c, values'⟩ ∧
    FieldValues.RelBy
      (fun field => if keeps c.cls field then Eq else CopyOf original.length order) _
      values values'

/-- The objects {lit}`new` were cloned, and nothing was changed but the fields of {lit}`this`,
if there is a {lit}`this`.  Only configurators of the measurements among {lit}`new` were
deleted. -/
structure Advance (this : Option Nat) (order new : List Nat) (s s' : Cloning defs Double) :
    Prop where
  start : InStep original S order s
  inStep : InStep original S (order ++ new) s'
  kept : ∀ a < s.memory.length, this ≠ some a → s'.memory[a]? = s.memory[a]?
  discarded : ∀ copy ∈ s'.deleted, copy ∈ s.deleted ∨
    ∃ m ∈ new, Discarded original (order ++ new) m copy
  copied : ∀ i a, order.length ≤ i → (order ++ new)[i]? = some a →
    Copied original (order ++ new) s'.memory i a

/-- {lit}`this` is an object that was created for a clone. -/
structure Ready (front : List Nat) (this : Nat) (order : List Nat) (s : Cloning defs Double) :
    Prop where
  inStep : InStep original S order s
  after : front <+: order
  isClone : original.length ≤ this
  allocated : this < s.memory.length

variable {original} {S}

/-- A discarded clone remains one when further objects are cloned. -/
theorem Discarded.append {order : List Nat} {m copy : Nat} (h : Discarded original order m copy)
    (new : List Nat) : Discarded original (order ++ new) m copy := by
  rcases h with ⟨a, ha, hcopy⟩
  exact ⟨a, ha, hcopy.append new⟩

/-- A complete clone remains one while its fields are not changed. -/
theorem Copied.append {order : List Nat} {memory memory' : List (Object defs Double (Option Nat))}
    {i a : Nat} (h : Copied original order memory i a)
    (hmemory : memory'[original.length + i]? = memory[original.length + i]?) (new : List Nat) :
    Copied original (order ++ new) memory' i a := by
  rcases h with ⟨c, values, values', horiginal, hcopy, hrel⟩
  refine ⟨c, values, values', horiginal, hmemory.trans hcopy, hrel.mono ?_⟩
  intro field ref copy href
  cases hkeeps : keeps c.cls field with
  | true => simpa only [hkeeps, if_true] using href
  | false =>
      simp only [hkeeps, Bool.false_eq_true, if_false] at href ⊢
      exact href.append new

/-- Doing nothing is a step. -/
theorem InStep.advance {order : List Nat} {s : Cloning defs Double}
    (h : InStep original S order s) (this : Option Nat) : Advance original S this order [] s s := by
  constructor
  case start => exact h
  case inStep => rwa [List.append_nil]
  case kept => exact fun _ _ _ => rfl
  case discarded => exact fun _ hcopy => Or.inl hcopy
  case copied =>
    intro i a hi ha
    rw [List.append_nil] at ha
    have hlt : i < order.length := (List.getElem?_eq_some_iff.mp ha).1
    omega

/-- No object disappears from memory. -/
theorem Advance.length_le {this : Option Nat} {order new : List Nat} {s s' : Cloning defs Double}
    (h : Advance original S this order new s s') : s.memory.length ≤ s'.memory.length := by
  rw [h.start.length, h.inStep.length, List.length_append]
  omega

/-- Two steps one after the other are one step. -/
theorem Advance.trans {this : Option Nat} {order new new' : List Nat}
    {s s' s'' : Cloning defs Double} (h : Advance original S this order new s s')
    (h' : Advance original S this (order ++ new) new' s' s'')
    (hthis : ∀ a, this = some a → a < s.memory.length) :
    Advance original S this order (new ++ new') s s'' := by
  constructor
  case start => exact h.start
  case inStep =>
    rw [← List.append_assoc]
    exact h'.inStep
  case kept =>
    intro a ha hne
    exact (h'.kept a (Nat.lt_of_lt_of_le ha h.length_le) hne).trans (h.kept a ha hne)
  case discarded =>
    intro copy hcopy
    rw [← List.append_assoc]
    rcases h'.discarded copy hcopy with hmid | ⟨m, hm, hdiscarded⟩
    · rcases h.discarded copy hmid with hstart | ⟨m, hm, hdiscarded⟩
      · exact Or.inl hstart
      · exact Or.inr ⟨m, List.mem_append_left _ hm, hdiscarded.append new'⟩
    · exact Or.inr ⟨m, List.mem_append_right _ hm, hdiscarded⟩
  case copied =>
    intro i a hi ha
    rw [← List.append_assoc] at ha ⊢
    by_cases hlt : i < (order ++ new).length
    · rw [List.getElem?_append_left hlt] at ha
      refine (h.copied i a hi ha).append (h'.kept _ ?_ ?_) new'
      · rw [h.inStep.length]
        omega
      · intro heq
        have hbefore := hthis _ heq
        rw [h.start.length] at hbefore
        omega
    · exact h'.copied i a (Nat.le_of_not_lt hlt) ha

/-- A clone that was created stays where it is. -/
theorem Ready.advance {front order new : List Nat} {this : Nat} {s s' : Cloning defs Double}
    (h : Ready original S front this order s)
    (hstep : Advance original S (some this) order new s s') :
    Ready original S front this (order ++ new) s' := by
  constructor
  case inStep => exact hstep.inStep
  case after => exact h.after.trans (List.prefix_append order new)
  case isClone => exact h.isClone
  case allocated => exact Nat.lt_of_lt_of_le h.allocated hstep.length_le

/-- The fields of {lit}`this` can be changed. -/
theorem Advance.set {this : Nat} {order new : List Nat} {s s' : Cloning defs Double}
    (h : Advance original S (some this) order new s s') (hclone : original.length ≤ this)
    (hallocated : this < s.memory.length) (object : Object defs Double (Option Nat)) :
    Advance original S (some this) order new s
      { s' with memory := s'.memory.set this object } := by
  constructor
  case start => exact h.start
  case inStep =>
    refine ⟨by rw [List.length_set, h.inStep.length], ?_, h.inStep.map_iff, h.inStep.inside,
      h.inStep.discarded⟩
    intro a ha
    rw [List.getElem?_set_ne (by omega)]
    exact h.inStep.kept a ha
  case kept =>
    intro a ha hne
    rw [List.getElem?_set_ne (by simpa using hne)]
    exact h.kept a ha hne
  case discarded => exact h.discarded
  case copied =>
    intro i a hi ha
    rcases h.copied i a hi ha with ⟨c, values, values', horiginal, hcopy, hrel⟩
    refine ⟨c, values, values', horiginal, ?_, hrel⟩
    have hbefore := h.start.length
    rw [List.getElem?_set_ne (by omega)]
    exact hcopy

end Progress

/-! ## Parts of an object -/

/-- The object at {lit}`this` is {lit}`fill v`, and {lit}`write` changes {lit}`v`. -/
def Hole {α : Type} (this : Nat) (write : Write defs Double α)
    (fill : α → Object defs Double (Option Nat)) : Prop :=
  ∀ s v change, s.memory[this]? = some (fill v) →
    write change s = { s with memory := s.memory.set this (fill (change v)) }

section Holes

variable {this : Nat}

variable {field : FieldDef} {fields baseFields : List FieldDef}

/-- The first field is a part of the fields. -/
theorem Hole.first {write : Write defs Double (FieldValues Double (Option Nat) (field :: fields))}
    {fill : FieldValues Double (Option Nat) (field :: fields) → Object defs Double (Option Nat)}
    (h : Hole this write fill) (values : FieldValues Double (Option Nat) fields) :
    Hole this (fun change => write (Prod.map change id)) fun value => fill (value, values) := by
  intro s value change hobject
  exact h s (value, values) _ hobject

/-- The remaining fields are a part of the fields. -/
theorem Hole.rest {write : Write defs Double (FieldValues Double (Option Nat) (field :: fields))}
    {fill : FieldValues Double (Option Nat) (field :: fields) → Object defs Double (Option Nat)}
    (h : Hole this write fill) (value : FieldValue Double (Option Nat) field) :
    Hole this (fun change => write (Prod.map id change)) fun values => fill (value, values) := by
  intro s values change hobject
  exact h s (value, values) _ hobject

/-- The inherited fields are a part of all fields. -/
theorem Hole.inherited
    {write : Write defs Double (FieldValues Double (Option Nat) (fields ++ baseFields))}
    {fill : FieldValues Double (Option Nat) (fields ++ baseFields) →
      Object defs Double (Option Nat)}
    (h : Hole this write fill) (own : FieldValues Double (Option Nat) fields) :
    Hole this (fun change => write fun values =>
        (FieldValues.own fields baseFields values).append
          (change (FieldValues.inherited fields baseFields values)))
      fun inherited => fill (own.append inherited) := by
  intro s inherited change hobject
  apply (h s _ _ hobject).trans
  simp only [FieldValues.own_append, FieldValues.inherited_append]

/-- The fields of the class itself are a part of all fields. -/
theorem Hole.own
    {write : Write defs Double (FieldValues Double (Option Nat) (fields ++ baseFields))}
    {fill : FieldValues Double (Option Nat) (fields ++ baseFields) →
      Object defs Double (Option Nat)}
    (h : Hole this write fill) (inherited : FieldValues Double (Option Nat) baseFields) :
    Hole this (fun change => write fun values =>
        (change (FieldValues.own fields baseFields values)).append
          (FieldValues.inherited fields baseFields values))
      fun own => fill (own.append inherited) := by
  intro s own change hobject
  apply (h s _ _ hobject).trans
  simp only [FieldValues.own_append, FieldValues.inherited_append]

end Holes

/-! ## Filling the fields of a clone -/

section Filling

variable {original : List (Object defs Double (Option Nat))} {S : Nat → Prop} {this : Nat}
  {visit : Nat → Cloning defs Double → Option (Nat × Cloning defs Double)}
  {front order : List Nat} {s : Cloning defs Double}

/-- The part of {lit}`this` that is {lit}`v` in {lit}`fill v` gets a value with this property. -/
def Fills {α : Type} (original : List (Object defs Double (Option Nat))) (S : Nat → Prop)
    (this : Nat) (fill : α → Object defs Double (Option Nat)) (Filled : List Nat → α → Prop)
    (order : List Nat) (s : Cloning defs Double) (result : Option (Cloning defs Double)) : Prop :=
  ∃ s' new v, result = some s' ∧ s'.memory[this]? = some (fill v) ∧ Filled (order ++ new) v ∧
    Advance original S (some this) order new s s'

/-- Two parts of {lit}`this` are filled one after the other. -/
theorem Fills.trans {α β : Type} {fill : α → Object defs Double (Option Nat)}
    (fill' : α → β → Object defs Double (Option Nat)) {w : β} {Filled : List Nat → α → Prop}
    {Filled' : List Nat → β → Prop} {result : Option (Cloning defs Double)}
    {next : Cloning defs Double → Option (Cloning defs Double)}
    (hready : Ready original S front this order s)
    (hfill : ∀ v, fill v = fill' v w)
    (hmono : ∀ order new v, Filled order v → Filled (order ++ new) v)
    (hfirst : Fills original S this fill Filled order s result)
    (hnext : ∀ v order s, Ready original S front this order s →
      s.memory[this]? = some (fill' v w) →
      Fills original S this (fill' v) Filled' order s (next s)) :
    Fills original S this (fun v : α × β => fill' v.1 v.2)
      (fun order v => Filled order v.1 ∧ Filled' order v.2) order s (result.bind next) := by
  rcases hfirst with ⟨mid, new, v, rfl, hmid, hfilled, hadvance⟩
  rcases hnext v _ mid (hready.advance hadvance) (by rw [hmid, hfill]) with
    ⟨s', new', w', hresult, hcell, hfilled', hadvance'⟩
  refine ⟨s', new ++ new', (v, w'), hresult, hcell, ?_, ?_⟩
  · rw [← List.append_assoc]
    exact ⟨hmono _ new' v hfilled, hfilled'⟩
  · apply hadvance.trans hadvance'
    intro a ha
    obtain rfl := Option.some.inj ha
    exact hready.allocated

end Filling

end Cloning

end SharedEntities
end Roofline
