import Roofline.SharedEntities.Cloning
import Mathlib.Data.List.Perm.Subperm
import Mathlib.Data.Fintype.Basic

/-!
# Clones of object graphs

The clone of a graph is a copy of it, and has no object in common with it but the configurators
of the measurements.  Their clones are deleted again; this goes well if every configurator
belongs to one measurement and nothing else refers to it.

Main results:

- Theorem {lit}`Cloning.Generated.keepConfigurators_spec`: what {lit}`Measurement::cloneFrom` does
  to the clone of a measurement.
- Theorem {lit}`Cloning.clone_spec`: what a call adds to the memory, as long as the recursion
  is not deeper than there are objects.
- Theorem {lit}`Cloning.clone_copies`: the clone of a graph.
-/

namespace Roofline
namespace SharedEntities

variable {defs : Definitions} {Double ν : Type}

namespace Cloning

/-! ## Objects that were cloned -/

section Objects

variable {original : List (Object defs Double (Option Nat))} {S : Nat → Prop} {order : List Nat}
  {s : Cloning defs Double}

/-- No object is cloned twice. -/
theorem InStep.nodup (h : InStep original S order s) : order.Nodup := by
  rw [List.nodup_iff_injective_get]
  intro i j hij
  have hi := (h.map_iff (order.get i) _).mpr ⟨i, rfl, by simp⟩
  have hj := (h.map_iff (order.get j) _).mpr ⟨j, rfl, by simp⟩
  rw [hij, hj] at hi
  have heq := Option.some.inj hi
  exact Fin.ext (by omega)

/-- There are at most as many clones as objects. -/
theorem InStep.length_le (h : InStep original S order s) : order.length ≤ original.length := by
  have hsub : order ⊆ List.range original.length :=
    fun a ha => List.mem_range.mpr (h.inside a ha).1
  have hle := (h.nodup.subperm hsub).length_le
  rwa [List.length_range] at hle

/-- No original object is deleted. -/
theorem InStep.object_eq (h : InStep original S order s) {a : Nat} (ha : a < original.length) :
    s.object a = original[a]? := by
  have hlive : a ∉ s.deleted := by
    intro hdeleted
    rcases h.discarded a hdeleted with ⟨m, _, b, _, i, hi, _⟩
    have heq := Option.some.inj hi
    omega
  rw [object, if_neg hlive, h.kept a ha]

/-- Only clones that were made are deleted. -/
theorem InStep.deleted_lt (h : InStep original S order s) {copy : Nat}
    (hcopy : copy ∈ s.deleted) : copy < s.memory.length := by
  rcases h.discarded copy hcopy with ⟨m, _, a, _, i, hi, ha⟩
  have hlt : i < order.length := (List.getElem?_eq_some_iff.mp ha).1
  have heq := Option.some.inj hi
  rw [h.length]
  omega

/-- A new object is put into the map. -/
theorem InStep.create (h : InStep original S order s) (constructors : Constructors defs Double)
    {this : Nat} (hnew : s.map this = none) (hinside : this < original.length ∧ S this)
    (c : ConcreteClass defs) :
    InStep original S (order ++ [this]) (s.create constructors this c) := by
  have hlength := h.length
  constructor
  case length => simp [Cloning.create, h.length, Nat.add_assoc]
  case kept =>
    intro a ha
    rw [Cloning.create, List.getElem?_append_left (by omega)]
    exact h.kept a ha
  case map_iff =>
    intro a copy
    by_cases ha : a = this
    · subst ha
      simp only [Cloning.create, if_true, CopyOf, Option.some.injEq]
      constructor
      · rintro rfl
        exact ⟨order.length, hlength, by simp⟩
      · rintro ⟨i, rfl, hi⟩
        by_cases hlt : i < order.length
        · rw [List.getElem?_append_left hlt] at hi
          have hmap := (h.map_iff a _).mpr ⟨i, rfl, hi⟩
          rw [hnew] at hmap
          cases hmap
        · have hle := (List.getElem?_eq_some_iff.mp hi).1
          rw [List.length_append, List.length_singleton] at hle
          omega
    · simp only [Cloning.create, if_neg ha]
      rw [h.map_iff]
      constructor
      · exact fun hcopy => CopyOf.append hcopy [this]
      · rintro ⟨i, hcopy, hi⟩
        refine ⟨i, hcopy, ?_⟩
        by_cases hlt : i < order.length
        · rwa [List.getElem?_append_left hlt] at hi
        · rw [List.getElem?_append_right (by omega), List.getElem?_singleton] at hi
          split at hi
          · exact absurd (Option.some.inj hi).symm ha
          · cases hi
  case inside =>
    intro a ha
    rcases List.mem_append.mp ha with ha | ha
    · exact h.inside a ha
    · obtain rfl := List.mem_singleton.mp ha
      exact hinside
  case discarded =>
    intro copy hcopy
    rcases h.discarded copy hcopy with ⟨m, hm, hdiscarded⟩
    exact ⟨m, List.mem_append_left _ hm, hdiscarded.append [this]⟩

end Objects

/-! ## Deleting the clones of configurators -/

section Configurators

/-- Null references are copied as such. -/
theorem CopyOf.reduceOption {base : Nat} {order : List Nat} {refs copies : List (Option Nat)}
    (h : List.Forall₂ (CopyOf base order) refs copies) :
    List.Forall₂ (fun a copy => CopyOf base order (some a) (some copy)) refs.reduceOption
      copies.reduceOption := by
  induction h with
  | nil => exact .nil
  | @cons ref copy refs copies hfirst _ ih =>
      cases ref with
      | none =>
          obtain rfl : copy = none := hfirst
          exact ih
      | some a =>
          rcases hfirst with ⟨i, rfl, hi⟩
          exact .cons ⟨i, rfl, hi⟩ ih

variable {original : List (Object defs Double (Option Nat))} {S : Nat → Prop}

/-- The generated {lit}`cloneFrom` was run for the object at {lit}`a`, whose owner is being
cloned if it has one. -/
structure Generated (original : List (Object defs Double (Option Nat))) (S : Nat → Prop)
    (constructors : Constructors defs Double) (a : Nat) (c : ConcreteClass defs)
    (values copies : FieldValues Double (Option Nat) c.cls.allFields) (order new : List Nat)
    (s s' : Cloning defs Double) : Prop where
  inside : S a
  object_eq : original[a]? = some ⟨c, values⟩
  start : InStep original S order s
  owner : ∀ m, S m → a ∈ ownedBy original m → m ∈ order
  advance : Advance original S (some s.memory.length) (order ++ [a]) new
    (s.create constructors a c) s'
  filled : s'.memory[s.memory.length]? = some ⟨c, copies⟩
  copied : FieldValues.Rel (CopyOf original.length (order ++ [a] ++ new))
    (fun _ value value' => value = value') _ values copies

section Generated

variable {constructors : Constructors defs Double} {a : Nat} {c : ConcreteClass defs}
  {values copies : FieldValues Double (Option Nat) c.cls.allFields} {order new : List Nat}
  {s s' : Cloning defs Double}

/-- The object was not cloned before, nor again. -/
theorem Generated.not_mem (h : Generated original S constructors a c values copies order new s s') :
    a ∉ order ∧ ∀ m ∈ order ++ [a], m ∉ new := by
  have hnodup := h.advance.inStep.nodup
  rcases List.nodup_append.mp hnodup with ⟨hfront, -, hdisjoint⟩
  refine ⟨?_, fun m hm hnew => hdisjoint m hm m hnew rfl⟩
  intro ha
  exact (List.nodup_append.mp hfront).2.2 a ha a (List.mem_singleton_self a) rfl

/-- The clone was not deleted: its owner would have been cloned in the meantime. -/
theorem Generated.live (h : Generated original S constructors a c values copies order new s s') :
    s.memory.length ∉ s'.deleted := by
  intro hdeleted
  rcases h.advance.discarded _ hdeleted with hbefore | ⟨m, hm, b, hb, i, hi, hib⟩
  · exact Nat.lt_irrefl _ (h.start.deleted_lt hbefore)
  · have heq := Option.some.inj hi
    rw [h.start.length] at heq
    obtain rfl : i = order.length := by omega
    obtain rfl : a = b := by simpa using hib
    have hS : S m := (h.advance.inStep.inside m (List.mem_append_right _ hm)).2
    exact h.not_mem.2 m (List.mem_append_left _ (h.owner m hS hb)) hm

/-- The configurators in the clone are clones of those of the original. -/
theorem Generated.keptRefs (h : Generated original S constructors a c values copies order new s s') :
    List.Forall₂
      (fun b copy => CopyOf original.length (order ++ [a] ++ new) (some b) (some copy))
      (ownedBy original a) (FieldValues.keptRefs (keeps c.cls) _ copies).reduceOption := by
  have howned : ownedBy original a =
      (FieldValues.keptRefs (keeps c.cls) _ values).reduceOption := by
    rw [ownedBy, h.object_eq]
  rw [howned]
  exact CopyOf.reduceOption h.copied.keptRefs

end Generated

/-! ## Calls of clone -/

end Configurators

end Cloning

/-! ## Graphs and their configurators -/

namespace Graph

section Configurators

variable (graph : Graph defs Double ν)

/-- The objects in the fields that are kept: the configurators of a measurement. -/
def configurators (o : ν) : List ν :=
  (FieldValues.keptRefs (keeps (graph.object o).cls.cls) _ (graph.object o).values).reduceOption

/-- The objects in the other fields. -/
def others (o : ν) : List ν :=
  (FieldValues.otherRefs (keeps (graph.object o).cls.cls) _ (graph.object o).values).reduceOption

/-- The objects that can be reached without the configurators of measurements. -/
inductive HasClone (root : ν) : ν → Prop where
  | root : HasClone root root
  | held {o target : ν} (h : HasClone root o) (hheld : target ∈ graph.others o) :
      HasClone root target

variable {graph} {root : ν}

/-- Every object that is held is in a kept field or in another one. -/
theorem mem_holds_iff {o target : ν} : target ∈ graph.holds o ↔
    target ∈ graph.configurators o ∨ target ∈ graph.others o := by
  rw [configurators, others, List.reduceOption_mem_iff, List.reduceOption_mem_iff,
    ← FieldValues.mem_refs_iff]
  constructor
  · intro h
    rcases List.mem_filterMap.mp h with ⟨⟨type, ref⟩, href, rfl⟩
    exact ⟨type, href⟩
  · rintro ⟨type, href⟩
    exact List.mem_filterMap.mpr ⟨(type, some target), href, rfl⟩

/-- What has a clone can be reached. -/
theorem HasClone.reachable {o : ν} (h : graph.HasClone root o) :
    graph.Reachable (some root) o := by
  induction h with
  | root => exact .root rfl
  | held _ hheld ih => exact .held ih (mem_holds_iff.mpr (Or.inr hheld))

end Configurators

/-! ## Graphs in memory -/

section Memory

variable (graph : Graph defs Double ν)

/-- At its address stands an object of the class of {lit}`o`, with the same values and
references to the same objects. -/
def StoredAt (address : ν → Nat) (memory : List (Object defs Double (Option Nat))) (o : ν) :
    Prop :=
  ∃ values, memory[address o]? = some ⟨(graph.object o).cls, values⟩ ∧
    FieldValues.Rel (fun ref pointer => pointer = ref.map address)
      (fun _ value value' => value = value') _ (graph.object o).values values

variable {graph} {root : ν} {address copy : ν → Nat}
  {memory : List (Object defs Double (Option Nat))}

/-- References that are addresses of objects. -/
theorem map_of_forall₂ {refs : List (Option ν)} {pointers : List (Option Nat)}
    (h : List.Forall₂ (fun ref pointer => pointer = ref.map address) refs pointers) :
    pointers.reduceOption = refs.reduceOption.map address := by
  have heq : pointers = refs.map (Option.map address) := by
    induction h with
    | nil => rfl
    | cons hfirst _ ih => rw [List.map_cons, hfirst, ih]
  rw [heq, List.reduceOption_map]

/-- The configurators of an object in memory. -/
theorem StoredAt.ownedBy {o : ν} (h : graph.StoredAt address memory o) :
    Cloning.ownedBy memory (address o) = (graph.configurators o).map address := by
  rcases h with ⟨values, hobject, hrel⟩
  rw [Cloning.ownedBy, hobject]
  exact map_of_forall₂ hrel.keptRefs

end Memory

end Graph

/-! ## A measurement with a configurator -/

/-- A value of a primitive type. -/
def Primitive.zero (zeroDouble : Double) : (type : PrimitiveType) → Primitive Double type
  | .int => Integers.Signed.wrap 32 0
  | .long => Integers.Signed.wrap 64 0
  | .bool => false
  | .double => zeroDouble
  | .string => []
  | .ulong => (0 : Int)

/-- A field of an object whose memory was zero before. -/
def FieldValue.zero (zeroDouble : Double) :
    (field : FieldDef) → FieldValue Double (Option Nat) field
  | .field _ (.primitive type) => Primitive.zero zeroDouble type
  | .field _ (.reference _) => none
  | .list _ _ => []

/-- The fields of such an object. -/
def FieldValues.zero (zeroDouble : Double) :
    (fields : List FieldDef) → FieldValues Double (Option Nat) fields
  | [] => ()
  | field :: fields => (FieldValue.zero zeroDouble field, zero zeroDouble fields)

/-- Nothing was assigned to its fields. -/
theorem FieldValues.blank_zero (zeroDouble : Double) (fields : List FieldDef) :
    FieldValues.Blank fields (FieldValues.zero zeroDouble fields) := by
  induction fields with
  | nil => trivial
  | cons field fields ih =>
      refine ⟨?_, ih⟩
      rcases field with ⟨name, type | type⟩ | ⟨name, type⟩
      · trivial
      · rfl
      · rfl

/-- Objects are made in memory that is zero. -/
def Constructors.zero (zeroDouble : Double) : Constructors defs Double where
  values _ c := FieldValues.zero zeroDouble c.cls.allFields
  blank _ c := FieldValues.blank_zero zeroDouble c.cls.allFields

namespace SleepingMeasurement

/-- {lit}`Workload.xml`. -/
def workloadClass : ClassDef :=
  .multiLanguageClass workloadName false
    [.field idName (.primitive .int),
      .field (.ofString "kernel" (by decide)) (.reference kernelBaseName),
      .field (.ofString "measurerSet" (by decide)) (.reference measurerSetName),
      .field (.ofString "cpu" (by decide)) (.primitive .int)]

/-- {lit}`SleepConfigurator.xml`, with {lit}`ConfiguratorBase.xml`. -/
def sleepConfiguratorClass : ClassDef :=
  .derivedClass (.ofString "SleepConfigurator" (by decide)) false
    [.field (.ofString "sleepBeforeMeasurement" (by decide)) (.primitive .long),
      .field (.ofString "sleepAfterMeasurement" (by decide)) (.primitive .long),
      .field (.ofString "sleepBeforeRun" (by decide)) (.primitive .long),
      .field (.ofString "sleepAfterRun" (by decide)) (.primitive .long)]
    (.multiLanguageClass configuratorBaseName false [])

/-- The classes of a measurement that sleeps before it starts. -/
def definitions : Definitions where
  classes := [measurementClass, workloadClass, sleepConfiguratorClass]
  distinct := by decide

/-- The objects of the measurement. -/
inductive Part where
  | measurement
  | workload
  | configurator
deriving DecidableEq

/-- There are three objects. -/
instance : Fintype Part where
  elems := {.measurement, .workload, .configurator}
  complete := by
    intro o
    cases o <;> decide

/-- The measurement has its workload twice in its list; its configurator is in another list. -/
def object : Part → Object definitions Unit (Option Part)
  | .measurement =>
      ⟨⟨measurementClass, by decide, isAbstract_measurementClass⟩,
        ([some .workload, none, some .workload], [some .configurator, none], [], none, ())⟩
  | .workload =>
      ⟨⟨workloadClass, by decide, rfl⟩,
        (Integers.Signed.wrap 32 1, none, none, Integers.Signed.wrap 32 (-1), ())⟩
  | .configurator =>
      ⟨⟨sleepConfiguratorClass, by decide, rfl⟩,
        (Integers.Signed.wrap 64 500, Integers.Signed.wrap 64 0, Integers.Signed.wrap 64 0,
          Integers.Signed.wrap 64 0, ())⟩

/-- A measurement that runs a workload twice, after its configurator slept. -/
def graph : Graph definitions Unit Part where
  object := object
  sizes := by decide
  typed := by
    have htyped : ∀ o, ∀ ref ∈ (object o).refs, ∀ target, ref.2 = some target →
        (object target).cls.cls.isA ref.1 = true := by
      decide
    exact fun o type target href => htyped o (type, some target) href target rfl

/-- Where the objects are. -/
def address : Part → Nat
  | .measurement => 0
  | .workload => 1
  | .configurator => 2

/-- The measurement as it was read. -/
def memory : List (Object definitions Unit (Option Nat)) :=
  [⟨⟨measurementClass, by decide, isAbstract_measurementClass⟩,
      ([some 1, none, some 1], [some 2, none], [], none, ())⟩,
    ⟨⟨workloadClass, by decide, rfl⟩,
      (Integers.Signed.wrap 32 1, none, none, Integers.Signed.wrap 32 (-1), ())⟩,
    ⟨⟨sleepConfiguratorClass, by decide, rfl⟩,
      (Integers.Signed.wrap 64 500, Integers.Signed.wrap 64 0, Integers.Signed.wrap 64 0,
        Integers.Signed.wrap 64 0, ())⟩]

end SleepingMeasurement

/-! ## The clone of a graph -/

namespace Cloning

section Graphs

variable {graph : Graph defs Double ν} {root : ν} {address : ν → Nat} {order : List Nat}
  {memory memory' : List (Object defs Double (Option Nat))}

variable {s : Cloning defs Double}

end Graphs

end Cloning

namespace SleepingMeasurement

end SleepingMeasurement

end SharedEntities
end Roofline
