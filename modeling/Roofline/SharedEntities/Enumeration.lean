import Roofline.Library.LinkedSets
import Roofline.Library.Walks
import Roofline.SharedEntities.Inheritance
import Mathlib.Data.List.Sort

/-!
# Enumeration of the objects of a graph

The generated {lit}`addAll` inserts an object into a set and calls itself for the references
of the object.  It does not look whether the object is in the set already, and it compares
the references in single fields with null, but not the elements of lists.

Main results:

- Theorem {lit}`Graph.addAll_eq`: the calls an object makes, in both languages.
- Theorem {lit}`Graph.exists_addAll_iff`: when {lit}`addAll` returns.
- Theorem {lit}`Graph.enumerates_iff`: it enumerates the reachable objects exactly if they
  have neither a cycle nor a list with a null element.
-/

namespace Roofline
namespace SharedEntities

open Walks

variable {defs : Definitions} {Double ν : Type}

/-! ## Sets -/

/-- The languages of the generated classes.  A {lit}`LinkedHashSet` keeps its elements in the
order in which they were added, a {lit}`std::set` of pointers by their address. -/
inductive Language (ν : Type) where
  | java
  | cpp (address : ν → Nat)

section Sets

variable [DecidableEq ν]

/-- {lit}`LinkedHashSet.add` and {lit}`std::set::insert`. -/
def Language.insert : Language ν → List ν → ν → List ν
  | .java, set, o => LinkedSets.add set o
  | .cpp address, set, o =>
      if o ∈ set then set else set.orderedInsert (fun a b => address a ≤ address b) o

/-- In both languages, inserting an object adds it and no other. -/
theorem Language.mem_insert (language : Language ν) {set : List ν} {o x : ν} :
    x ∈ language.insert set o ↔ x ∈ set ∨ x = o := by
  cases language with
  | java => exact LinkedSets.mem_add
  | cpp address =>
      change x ∈ (if o ∈ set then set else _) ↔ _
      split
      · rename_i ho
        constructor
        · exact Or.inl
        · rintro (hx | rfl)
          · exact hx
          · exact ho
      · rw [List.mem_orderedInsert, or_comm]

end Sets

/-! ## The algorithm -/

/-- What happens to a call that does not return. -/
inductive Failure where
  /-- A method of the null reference is called. -/
  | nullReference
  | stackOverflow

section AddAll

variable (visit : ν → List ν → Except Failure (List ν))

/-- The loop over the elements of a list; {lit}`visit` is the call of {lit}`addAll` for an
object. -/
def addAllElements : List (Option ν) → List ν → Except Failure (List ν)
  | [], result => .ok result
  | none :: _, _ => .error .nullReference
  | some o :: refs, result => do
      let result ← visit o result
      addAllElements refs result

/-- The statement for a field: references are followed, primitive values are not. -/
def FieldValue.addAll : (field : FieldDef) → FieldValue Double (Option ν) field → List ν →
    Except Failure (List ν)
  | .field _ (.primitive _), _, result => .ok result
  | .field _ (.reference _), none, result => .ok result
  | .field _ (.reference _), some o, result => visit o result
  | .list _ (.primitive _), _, result => .ok result
  | .list _ (.reference _), refs, result => addAllElements visit refs result

/-- The statements for the fields of a class, one after the other. -/
def FieldValues.addAll : (fields : List FieldDef) → FieldValues Double (Option ν) fields →
    List ν → Except Failure (List ν)
  | [], _, result => .ok result
  | field :: fields, (value, values), result => do
      let result ← FieldValue.addAll visit field value result
      FieldValues.addAll fields values result

/-- The method that is generated for a class.  A class without a generated base class
inserts {lit}`this`, or has a base class that is written by hand and does so. -/
def ClassDef.addAll (insertThis : List ν → List ν) : (cls : ClassDef) →
    FieldValues Double (Option ν) cls.allFields → List ν → Except Failure (List ν)
  | .multiLanguageClass _ _ fields, values, result =>
      FieldValues.addAll visit fields values (insertThis result)
  | .derivedClass _ _ fields baseClass, values, result => do
      let result ← baseClass.addAll insertThis
        (FieldValues.inherited fields baseClass.allFields values) result
      FieldValues.addAll visit fields (FieldValues.own fields baseClass.allFields values) result

end AddAll

namespace Graph

variable [DecidableEq ν] (graph : Graph defs Double ν) (language : Language ν)

/-- {lit}`addAll` of an object, with a bound on the depth of the recursion. -/
def addAll : Nat → ν → List ν → Except Failure (List ν)
  | 0, _, _ => .error .stackOverflow
  | depth + 1, o, result =>
      (graph.object o).cls.cls.addAll (addAll depth) (language.insert · o)
        (graph.object o).values result

/-- {lit}`Measurement.getAll`, and what the methods of {lit}`Locator` start with. -/
def getAll (depth : Nat) (start : ν) : Except Failure (List ν) :=
  graph.addAll language depth start []

end Graph

/-! ## Calls -/

/-- The references for which {lit}`addAll` is called. -/
def FieldValue.called : (field : FieldDef) → FieldValue Double (Option ν) field →
    List (Option ν)
  | .field _ (.primitive _), _ => []
  | .field _ (.reference _), none => []
  | .field _ (.reference _), some o => [some o]
  | .list _ (.primitive _), _ => []
  | .list _ (.reference _), refs => refs

/-- The references the method is called on for some fields, in this order. -/
def FieldValues.called : (fields : List FieldDef) → FieldValues Double (Option ν) fields →
    List (Option ν)
  | [], _ => []
  | field :: fields, (value, values) => FieldValue.called field value ++ called fields values

/-- The references the method is called on for a class: those of the base class come first. -/
def ClassDef.called : (cls : ClassDef) → FieldValues Double (Option ν) cls.allFields →
    List (Option ν)
  | .multiLanguageClass _ _ fields, values => FieldValues.called fields values
  | .derivedClass _ _ fields baseClass, values =>
      baseClass.called (FieldValues.inherited fields baseClass.allFields values) ++
        FieldValues.called fields (FieldValues.own fields baseClass.allFields values)

section Calls

variable {visit : ν → List ν → Except Failure (List ν)}

/-- The loop over two lists is one loop after the other. -/
theorem addAllElements_append (refs refs' : List (Option ν)) (result : List ν) :
    addAllElements visit (refs ++ refs') result =
      addAllElements visit refs result >>= addAllElements visit refs' := by
  induction refs generalizing result with
  | nil => rfl
  | cons ref refs ih =>
      cases ref with
      | none => rfl
      | some o =>
          simp only [List.cons_append, addAllElements, bind_assoc]
          cases visit o result with
          | error e => rfl
          | ok result => exact ih result

/-- The statement for a field calls the method on its references. -/
theorem FieldValue.addAll_eq (field : FieldDef) (value : FieldValue Double (Option ν) field)
    (result : List ν) :
    FieldValue.addAll visit field value result =
      addAllElements visit (FieldValue.called field value) result := by
  rcases field with ⟨name, type | type⟩ | ⟨name, type | type⟩
  · rfl
  · cases value with
    | none => rfl
    | some o =>
        change visit o result = visit o result >>= fun result => .ok result
        cases visit o result <;> rfl
  · rfl
  · rfl

/-- The statements for some fields call the method on their references. -/
theorem FieldValues.addAll_eq (fields : List FieldDef)
    (values : FieldValues Double (Option ν) fields) (result : List ν) :
    FieldValues.addAll visit fields values result =
      addAllElements visit (FieldValues.called fields values) result := by
  induction fields generalizing result with
  | nil => rfl
  | cons field fields ih =>
      rcases values with ⟨value, values⟩
      simp only [FieldValues.addAll, FieldValues.called, addAllElements_append,
        FieldValue.addAll_eq, ih]

/-- The method of a class inserts the object and calls the method on its references. -/
theorem ClassDef.addAll_eq (insertThis : List ν → List ν) (cls : ClassDef)
    (values : FieldValues Double (Option ν) cls.allFields) (result : List ν) :
    cls.addAll visit insertThis values result =
      addAllElements visit (cls.called values) (insertThis result) := by
  induction cls generalizing result with
  | multiLanguageClass name isAbstract fields => exact FieldValues.addAll_eq fields values _
  | derivedClass name isAbstract fields baseClass ih =>
      simp only [ClassDef.addAll, ClassDef.called, addAllElements_append, ih,
        FieldValues.addAll_eq]

/-- A call that succeeds is followed by the next one. -/
theorem addAllElements_some {o : ν} {refs : List (Option ν)} {result after : List ν}
    (h : visit o result = .ok after) :
    addAllElements visit (some o :: refs) result = addAllElements visit refs after := by
  rw [addAllElements, h]
  rfl

/-- If all calls return, the loop returns, and it adds what they add. -/
theorem exists_addAllElements {P : ν → ν → Prop} {refs : List (Option ν)} (hnull : none ∉ refs)
    (h : ∀ o, some o ∈ refs → ∀ result, ∃ result', visit o result = .ok result' ∧
      ∀ x, x ∈ result' ↔ x ∈ result ∨ P o x) (result : List ν) :
    ∃ result', addAllElements visit refs result = .ok result' ∧
      ∀ x, x ∈ result' ↔ x ∈ result ∨ ∃ o, some o ∈ refs ∧ P o x := by
  induction refs generalizing result with
  | nil => exact ⟨result, rfl, by simp⟩
  | cons ref refs ih =>
      cases ref with
      | none => exact absurd (List.mem_cons_self ..) hnull
      | some o =>
          rcases h o (List.mem_cons_self ..) result with ⟨mid, hmid, hmem⟩
          have hrest : ∀ x, some x ∈ refs → ∀ result, ∃ result', visit x result = .ok result' ∧
              ∀ y, y ∈ result' ↔ y ∈ result ∨ P x y :=
            fun x hx => h x (List.mem_cons_of_mem _ hx)
          rcases ih (fun hin => hnull (List.mem_cons_of_mem _ hin)) hrest mid with
            ⟨result', hresult', hmem'⟩
          refine ⟨result', (addAllElements_some hmid).trans hresult', ?_⟩
          intro x
          rw [hmem', hmem, or_assoc]
          apply or_congr_right
          constructor
          · rintro (hx | ⟨target, htarget, hx⟩)
            · exact ⟨o, List.mem_cons_self .., hx⟩
            · exact ⟨target, List.mem_cons_of_mem _ htarget, hx⟩
          · rintro ⟨target, htarget, hx⟩
            rcases List.mem_cons.mp htarget with heq | htarget
            · obtain rfl := Option.some.inj heq
              exact Or.inl hx
            · exact Or.inr ⟨target, htarget, hx⟩

/-- If the loop returns, no element is null and all calls return. -/
theorem of_addAllElements {refs : List (Option ν)} {result result' : List ν}
    (h : addAllElements visit refs result = .ok result') :
    none ∉ refs ∧ ∀ o, some o ∈ refs → ∃ before after, visit o before = .ok after := by
  induction refs generalizing result with
  | nil => exact ⟨by simp, by simp⟩
  | cons ref refs ih =>
      cases ref with
      | none => cases h
      | some o =>
          cases hvisit : visit o result with
          | error e =>
              rw [addAllElements, hvisit] at h
              cases h
          | ok after =>
              rw [addAllElements_some hvisit] at h
              rcases ih h with ⟨hnull, hcalls⟩
              refine ⟨by simpa using hnull, ?_⟩
              intro target htarget
              rcases List.mem_cons.mp htarget with heq | htarget
              · obtain rfl := Option.some.inj heq
                exact ⟨result, after, hvisit⟩
              · exact hcalls target htarget

end Calls

/-! ## Null elements -/

/-- The value is a list of references with a null reference in it. -/
def FieldValue.HasNullElement : (field : FieldDef) → FieldValue Double (Option ν) field → Prop
  | .field _ _, _ => False
  | .list _ (.primitive _), _ => False
  | .list _ (.reference _), refs => none ∈ show List (Option ν) from refs

/-- A list among the fields has a null element. -/
def FieldValues.HasNullElement : (fields : List FieldDef) →
    FieldValues Double (Option ν) fields → Prop
  | [], _ => False
  | field :: fields, (value, values) =>
      FieldValue.HasNullElement field value ∨ HasNullElement fields values

/-- The method is called on a null reference exactly if a list has a null element. -/
theorem FieldValue.none_mem_called {field : FieldDef}
    {value : FieldValue Double (Option ν) field} :
    none ∈ FieldValue.called field value ↔ FieldValue.HasNullElement field value := by
  rcases field with ⟨name, type | type⟩ | ⟨name, type | type⟩
  · exact List.mem_nil_iff _
  · cases value with
    | none => exact List.mem_nil_iff _
    | some o => exact ⟨fun h => (by cases List.mem_singleton.mp h), False.elim⟩
  · exact List.mem_nil_iff _
  · exact Iff.rfl

/-- The method is called on the objects that the field refers to. -/
theorem FieldValue.some_mem_called {field : FieldDef}
    {value : FieldValue Double (Option ν) field} {o : ν} :
    some o ∈ FieldValue.called field value ↔
      ∃ type, (type, some o) ∈ FieldValue.refs field value := by
  rcases field with ⟨name, type | type⟩ | ⟨name, type | type⟩
  · simp [FieldValue.called, FieldValue.refs, Item.refs]
  · cases value with
    | none => simp [FieldValue.called, FieldValue.refs, Item.refs]
    | some target => simp [FieldValue.called, FieldValue.refs, Item.refs]
  · have hnone : ∀ values : List (Primitive Double type), some o ∈ ([] : List (Option ν)) ↔
        ∃ t : Identifier, (t, some o) ∈ values.flatMap fun _ => [] := by simp
    exact hnone value
  · have hall : ∀ refs : List (Option ν), some o ∈ refs ↔
        ∃ t, (t, some o) ∈ refs.flatMap fun ref => [(type, ref)] := by simp
    exact hall value

namespace FieldValues

variable {fields baseFields : List FieldDef}

/-- The method is called on a null reference exactly if a list has a null element. -/
theorem none_mem_called {values : FieldValues Double (Option ν) fields} :
    none ∈ called fields values ↔ HasNullElement fields values := by
  induction fields with
  | nil => exact List.mem_nil_iff _
  | cons field fields ih =>
      rcases values with ⟨value, values⟩
      rw [called, List.mem_append, FieldValue.none_mem_called, ih]
      rfl

/-- The method is called on the objects that the fields refer to. -/
theorem some_mem_called {values : FieldValues Double (Option ν) fields} {o : ν} :
    some o ∈ called fields values ↔ ∃ type, (type, some o) ∈ refs fields values := by
  induction fields with
  | nil => simp [called, refs]
  | cons field fields ih =>
      rcases values with ⟨value, values⟩
      rw [called, List.mem_append, FieldValue.some_mem_called, ih, ← exists_or]
      exact exists_congr fun type => List.mem_append.symm

/-- The references in all fields are those in the fields of the base class and those in the own
fields. -/
theorem mem_called_append {values : FieldValues Double (Option ν) (fields ++ baseFields)}
    {ref : Option ν} :
    ref ∈ called (fields ++ baseFields) values ↔
      ref ∈ called baseFields (inherited fields baseFields values) ∨
      ref ∈ called fields (own fields baseFields values) := by
  induction fields with
  | nil => exact ⟨Or.inl, fun h => h.elim id (fun hnil => by cases hnil)⟩
  | cons field fields ih =>
      change ref ∈ FieldValue.called field values.1 ++ called (fields ++ baseFields) values.2 ↔
        _ ∨ ref ∈ FieldValue.called field values.1 ++ called fields (own fields baseFields values.2)
      rw [List.mem_append, List.mem_append, ih]
      exact or_left_comm

end FieldValues

/-- The method is called on the references in all fields, inherited ones or not. -/
theorem ClassDef.mem_called {cls : ClassDef}
    {values : FieldValues Double (Option ν) cls.allFields} {ref : Option ν} :
    ref ∈ cls.called values ↔ ref ∈ FieldValues.called cls.allFields values := by
  induction cls with
  | multiLanguageClass name isAbstract fields => exact Iff.rfl
  | derivedClass name isAbstract fields baseClass ih =>
      rw [ClassDef.called, List.mem_append, ih]
      exact FieldValues.mem_called_append.symm

/-! ## What is enumerated -/

namespace Graph

section References

variable (graph : Graph defs Double ν)

/-- A list of the object has a null element. -/
def HasNullElement (o : ν) : Prop :=
  FieldValues.HasNullElement _ (graph.object o).values

/-- The references for which an object calls {lit}`addAll`, in this order. -/
def called (o : ν) : List (Option ν) :=
  (graph.object o).cls.cls.called (graph.object o).values

/-- The method is called on a null reference exactly if a list of the object has a null element. -/
theorem none_mem_called {o : ν} : none ∈ graph.called o ↔ graph.HasNullElement o :=
  ClassDef.mem_called.trans FieldValues.none_mem_called

/-- The method is called on the objects that the object holds. -/
theorem some_mem_called {o target : ν} : some target ∈ graph.called o ↔ target ∈ graph.holds o := by
  rw [called, ClassDef.mem_called, FieldValues.some_mem_called]
  simp [holds, Object.refs]

/-- An object is reachable exactly if a path of held objects leads to it. -/
theorem reachable_iff_reaches {start o : ν} :
    graph.Reachable (some start) o ↔ Reaches graph.holds start o := by
  constructor
  · intro h
    induction h with
    | root h =>
        obtain rfl := Option.some.inj h
        exact .refl
    | held _ hheld ih => exact ih.tail hheld
  · intro h
    induction h with
    | refl => exact .root rfl
    | tail _ hstep ih => exact .held ih hstep

end References

variable [DecidableEq ν] (graph : Graph defs Double ν) (language : Language ν)

/-- The calls an object makes, in both languages. -/
theorem addAll_eq (depth : Nat) (o : ν) (result : List ν) :
    graph.addAll language (depth + 1) o result =
      addAllElements (graph.addAll language depth) (graph.called o)
        (language.insert result o) :=
  ClassDef.addAll_eq _ _ _ _

/-- A bound on the walks is a bound on the recursion. -/
theorem exists_addAll {depth : Nat} {o : ν} (hwithin : Within graph.holds depth o)
    (hnull : ∀ x, Reaches graph.holds o x → ¬graph.HasNullElement x) (result : List ν) :
    ∃ result', graph.addAll language depth o result = .ok result' ∧
      ∀ x, x ∈ result' ↔ x ∈ result ∨ Reaches graph.holds o x := by
  induction depth generalizing o result with
  | zero => exact hwithin.elim
  | succ depth ih =>
      have hcalls : ∀ target, some target ∈ graph.called o → ∀ result, ∃ result',
          graph.addAll language depth target result = .ok result' ∧
          ∀ x, x ∈ result' ↔ x ∈ result ∨ Reaches graph.holds target x := by
        intro target htarget result
        have hheld := graph.some_mem_called.mp htarget
        exact ih (hwithin target hheld) (fun x hx => hnull x (.head hheld hx)) result
      have hnone : none ∉ graph.called o := fun h => hnull o .refl (graph.none_mem_called.mp h)
      rcases exists_addAllElements hnone hcalls (language.insert result o) with
        ⟨result', hresult', hmem⟩
      refine ⟨result', (graph.addAll_eq language depth o result).trans hresult', ?_⟩
      intro x
      rw [hmem, language.mem_insert, or_assoc]
      apply or_congr_right
      refine Iff.trans ?_ Relation.ReflTransGen.cases_head_iff.symm
      apply or_congr eq_comm
      exact exists_congr fun target => and_congr_left' graph.some_mem_called

/-- A call that returns has made no walk longer than its depth and met no null element. -/
theorem within_of_addAll {depth : Nat} {o : ν} {result result' : List ν}
    (h : graph.addAll language depth o result = .ok result') :
    Within graph.holds depth o ∧ ∀ x, Reaches graph.holds o x → ¬graph.HasNullElement x := by
  induction depth generalizing o result result' with
  | zero => cases h
  | succ depth ih =>
      rw [addAll_eq] at h
      rcases of_addAllElements h with ⟨hnone, hcalls⟩
      have hheld : ∀ target ∈ graph.holds o, Within graph.holds depth target ∧
          ∀ x, Reaches graph.holds target x → ¬graph.HasNullElement x := by
        intro target htarget
        rcases hcalls target (graph.some_mem_called.mpr htarget) with ⟨before, after, hcall⟩
        exact ih hcall
      constructor
      · intro target htarget
        exact (hheld target htarget).1
      · intro x hx
        rcases hx.cases_head with rfl | ⟨target, htarget, hx⟩
        · exact fun hnull => hnone (graph.none_mem_called.mpr hnull)
        · exact (hheld target htarget).2 x hx

/-- {lit}`addAll` returns, and the set holds exactly the reachable objects. -/
def Enumerates (start : ν) : Prop :=
  ∃ depth objects, graph.getAll language depth start = .ok objects ∧
    ∀ o, o ∈ objects ↔ graph.Reachable (some start) o

/-- The reachable objects have neither a cycle nor a list with a null element. -/
structure Enumerable (start : ν) : Prop where
  acyclic : Acyclic graph.holds start
  noNullElement : ∀ o, graph.Reachable (some start) o → ¬graph.HasNullElement o

/-- The reachable objects are enumerated exactly if they have neither a cycle nor a list
with a null element. -/
theorem enumerates_iff [Finite ν] (start : ν) :
    graph.Enumerates language start ↔ graph.Enumerable start := by
  constructor
  · rintro ⟨depth, objects, hreturn, _⟩
    rcases graph.within_of_addAll language hreturn with ⟨hwithin, hnull⟩
    refine ⟨exists_within_iff.mp ⟨depth, hwithin⟩, ?_⟩
    intro o ho
    exact hnull o (graph.reachable_iff_reaches.mp ho)
  · rintro ⟨hacyclic, hnull⟩
    rcases hacyclic.exists_within with ⟨depth, hwithin⟩
    have hreach : ∀ o, Reaches graph.holds start o → ¬graph.HasNullElement o :=
      fun o ho => hnull o (graph.reachable_iff_reaches.mpr ho)
    rcases graph.exists_addAll language hwithin hreach [] with ⟨objects, hreturn, hmem⟩
    refine ⟨depth, objects, hreturn, ?_⟩
    intro o
    rw [hmem, graph.reachable_iff_reaches]
    simp

end Graph

namespace Node

/-- A node that refers to another one, and no list with an element. -/
def pair : Graph definitions Empty Bool :=
  graph (fun o => if o then none else some true) [] (fun _ => []) (by decide)

/-- Two nodes that refer to each other, and no list with an element. -/
def circle : Graph definitions Empty Bool :=
  graph (fun o => some !o) [] (fun _ => []) (by decide)

/-- The pair of nodes can be enumerated. -/
theorem enumerable_pair : pair.Enumerable false where
  acyclic := by
    apply exists_within_iff.mp
    refine ⟨2, ?_⟩
    change ∀ o ∈ pair.holds false, ∀ target ∈ pair.holds o, False
    decide
  noNullElement := by
    intro o _ hnull
    rcases hnull with hnext | hname | hothers | hrest
    · exact hnext
    · exact hname
    · exact List.not_mem_nil hothers
    · exact hrest

/-- The pair of nodes is enumerated. -/
theorem enumerates_pair : pair.Enumerates .java false :=
  (Graph.enumerates_iff pair .java false).mpr enumerable_pair

/-- A null element ends the program. -/
theorem chain_not_enumerates (language : Language Bool) : ¬chain.Enumerates language false := by
  rintro ⟨depth, objects, hreturn, _⟩
  have hnull : chain.HasNullElement false :=
    Or.inr (Or.inr (Or.inl (List.mem_singleton.mpr rfl)))
  exact (chain.within_of_addAll language hreturn).2 false .refl hnull

/-- On a cycle the recursion does not end. -/
theorem circle_not_enumerates (language : Language Bool) :
    ¬circle.Enumerates language false := by
  rintro ⟨depth, objects, hreturn, _⟩
  have hthere : Step circle.holds false true := by
    change true ∈ circle.holds false
    decide
  have hback : Step circle.holds true false := by
    change false ∈ circle.holds true
    decide
  exact (circle.within_of_addAll language hreturn).1.not_cycle (.tail (.single hthere) hback)

/-- Both defects, in both languages. -/
theorem not_enumerates :
    (¬chain.Enumerates .java false ∧ ¬chain.Enumerates (.cpp Bool.toNat) false) ∧
    ¬circle.Enumerates .java false ∧ ¬circle.Enumerates (.cpp Bool.toNat) false :=
  ⟨⟨chain_not_enumerates _, chain_not_enumerates _⟩,
    circle_not_enumerates _, circle_not_enumerates _⟩

end Node

end SharedEntities
end Roofline
