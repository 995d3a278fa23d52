import Roofline.Library.Decimals
import Roofline.SharedEntities.Escaping
import Mathlib.Data.Fintype.Card
import Mathlib.Data.List.Nodup

/-!
# Serialization of object graphs

The serializers of both languages walk a graph in preorder.  Every object is written
when it is first met and gets the next number; when it is met again, its number is
written.  Everything is written in lines, and both languages write the same lines.

Main results:

- Theorem {lit}`Graph.serializeImp_numbers`: the context numbers the objects in the order in
  which they are met.
- Theorem {lit}`Graph.serialize_total`: the serialization of a finite graph ends.
- Theorem {lit}`Graph.serializeImp_lines`: what the lines are about.
- Theorem {lit}`Graph.line_mem_serializeImp`: the lines of all reachable objects are written.
- Theorem {lit}`Graph.Unshared.back_not_mem`: no number is written for a graph in which
  no object is held twice.
-/

namespace Roofline
namespace SharedEntities

open Decimals

variable {defs : Definitions} {Double R ν : Type}

/-! ## Lines -/

/-- What is written in one line. -/
inductive Line (defs : Definitions) (Double : Type) where
  | null
  | back (idx : Nat)
  | className (c : ConcreteClass defs)
  | fieldName (name : Identifier)
  | size (n : Nat)
  /-- A value of a field, or of a list. -/
  | item (listed : Bool) (type : PrimitiveType) (value : Primitive Double type)

/-- The text of a line, given that of the primitive values. -/
def Line.text (print : (type : PrimitiveType) → Primitive Double type → Text) :
    Line defs Double → Text
  | .null => "<null>".toList
  | .back idx => "=> ".toList ++ decimal idx
  | .className c => c.cls.name.text
  | .fieldName name => name.text
  | .size n => decimal n
  | .item _ type value => print type value

/-- The text of several lines. -/
def render (print : (type : PrimitiveType) → Primitive Double type → Text)
    (lines : List (Line defs Double)) : Text :=
  lines.flatMap fun line => line.text print ++ ['\n']

section Render

variable (print : (type : PrimitiveType) → Primitive Double type → Text)

/-- The text of a line is written before that of the following lines. -/
theorem render_cons (line : Line defs Double) (lines : List (Line defs Double)) :
    render print (line :: lines) = line.text print ++ '\n' :: render print lines := by
  simp [render]

/-- The texts of two lists of lines are written one after the other. -/
theorem render_append (front back : List (Line defs Double)) :
    render print (front ++ back) = render print front ++ render print back := by
  simp [render]

/-- Every line is at least its newline. -/
theorem length_le_length_render (lines : List (Line defs Double)) :
    lines.length ≤ (render print lines).length := by
  induction lines with
  | nil => simp
  | cons line lines ih =>
      rw [render_cons]
      simp only [List.length_cons, List.length_append]
      omega

end Render

/-! ## What is written for an object -/

/-- A line, or a reference to be serialized with the class its field declares. -/
inductive Part (defs : Definitions) (Double R : Type) where
  | line (line : Line defs Double)
  | ref (type : Identifier) (target : R)

/-- What is written for an item. -/
def Item.part (listed : Bool) :
    (type : FieldType) → Item Double R type → Part defs Double R
  | .primitive type, value => .line (.item listed type value)
  | .reference type, target => .ref type target

/-- A field is its name and its value; of a list the size goes before the values. -/
def FieldValue.parts : (field : FieldDef) → FieldValue Double R field → List (Part defs Double R)
  | .field name type, value => [.line (.fieldName name), Item.part false type value]
  | .list name type, values =>
      .line (.fieldName name) :: .line (.size (List.length values)) ::
        values.map (Item.part true type)

/-- What is written for some fields. -/
def FieldValues.parts :
    (fields : List FieldDef) → FieldValues Double R fields → List (Part defs Double R)
  | [], _ => []
  | field :: fields, (value, values) => FieldValue.parts field value ++ parts fields values

/-- What is written for an object. -/
def Object.parts (object : Object defs Double R) : List (Part defs Double R) :=
  FieldValues.parts _ object.values

/-- The reference of a part. -/
def Part.ref? : Part defs Double R → Option (Identifier × R)
  | .line _ => none
  | .ref type target => some (type, target)

/-- The references that are written for an item are those in it. -/
theorem Item.filterMap_ref?_part (listed : Bool) (type : FieldType) (value : Item Double R type) :
    [(Item.part listed type value : Part defs Double R)].filterMap Part.ref? =
      Item.refs type value := by
  cases type <;> rfl

/-- The references that are written for a field are those in it. -/
theorem FieldValue.filterMap_ref?_parts (field : FieldDef) (value : FieldValue Double R field) :
    (FieldValue.parts field value : List (Part defs Double R)).filterMap Part.ref? =
      FieldValue.refs field value := by
  cases field with
  | field name type => exact Item.filterMap_ref?_part false type value
  | list name type =>
      change (List.map (Item.part true type) value).filterMap Part.ref? =
        List.flatMap (Item.refs type) value
      induction value with
      | nil => rfl
      | cons first value ih =>
          have hfirst : [(Item.part true type first : Part defs Double R)].filterMap Part.ref? =
              Item.refs type first := Item.filterMap_ref?_part true type first
          rw [List.map_cons, List.flatMap_cons, ← ih, ← hfirst, ← List.filterMap_append]
          rfl

/-- The references among the parts are those of the fields. -/
theorem FieldValues.filterMap_ref?_parts (fields : List FieldDef)
    (values : FieldValues Double R fields) :
    (FieldValues.parts fields values : List (Part defs Double R)).filterMap Part.ref? =
      FieldValues.refs fields values := by
  induction fields with
  | nil => rfl
  | cons field fields ih =>
      change (FieldValue.parts field values.1 ++ FieldValues.parts fields values.2).filterMap
        Part.ref? = FieldValue.refs field values.1 ++ FieldValues.refs fields values.2
      rw [List.filterMap_append, FieldValue.filterMap_ref?_parts, ih]

/-- The references that are written for an object are those in it. -/
theorem Object.filterMap_ref?_parts (object : Object defs Double R) :
    object.parts.filterMap Part.ref? = object.refs :=
  FieldValues.filterMap_ref?_parts _ _

/-- The lines among the parts: names of fields, sizes of lists and primitive values. -/
theorem FieldValues.line_mem_parts {fields : List FieldDef} {values : FieldValues Double R fields}
    {line : Line defs Double} (h : Part.line line ∈ FieldValues.parts fields values) :
    (∃ name, line = .fieldName name) ∨
    (∃ n ∈ FieldValues.sizes fields values, line = .size n) ∨
    ∃ field ∈ fields, ∃ listed type value, field.type = .primitive type ∧
      line = .item listed type value := by
  induction fields with
  | nil => cases h
  | cons field fields ih =>
      rcases List.mem_append.mp h with hfirst | hrest
      · cases field with
        | field name type =>
            cases type with
            | reference type =>
                simp only [FieldValue.parts, Item.part, List.mem_cons, Part.line.injEq,
                  reduceCtorEq, List.not_mem_nil, or_false] at hfirst
                exact Or.inl ⟨name, hfirst⟩
            | primitive type =>
                simp only [FieldValue.parts, Item.part, List.mem_cons, Part.line.injEq,
                  List.not_mem_nil, or_false] at hfirst
                rcases hfirst with hname | hitem
                · exact Or.inl ⟨name, hname⟩
                · exact Or.inr (Or.inr ⟨_, List.mem_cons_self .., false, type, _, rfl, hitem⟩)
        | list name type =>
            change _ ∈ _ :: _ :: List.map (Item.part true type) values.1 at hfirst
            simp only [List.mem_cons, Part.line.injEq] at hfirst
            rcases hfirst with hname | hsize | hitem
            · exact Or.inl ⟨name, hname⟩
            · exact Or.inr (Or.inl ⟨_, List.mem_cons_self .., hsize⟩)
            · rcases List.mem_map.mp hitem with ⟨value, _, heq⟩
              cases type with
              | reference type => simp [Item.part] at heq
              | primitive type =>
                  exact Or.inr (Or.inr ⟨_, List.mem_cons_self .., true, type, value, rfl,
                    (Part.line.inj heq).symm⟩)
      · rcases ih hrest with hname | ⟨n, hn, hsize⟩ | ⟨later, hlater, hitem⟩
        · exact Or.inl hname
        · refine Or.inr (Or.inl ⟨n, ?_, hsize⟩)
          cases field with
          | field name type => exact hn
          | list name type => exact List.mem_cons_of_mem _ hn
        · exact Or.inr (Or.inr ⟨later, List.mem_cons_of_mem _ hlater, hitem⟩)

/-! ## The algorithm -/

/-- {lit}`SerializationContext`. -/
structure SerializationContext (ν : Type) where
  map : ν → Option Nat
  nextIdx : Nat

namespace SerializationContext

/-- No object was written. -/
def empty : SerializationContext ν where
  map _ := none
  nextIdx := 0

variable [DecidableEq ν] (ctx : SerializationContext ν)

/-- Give the next number to the object. -/
def addObject (obj : ν) : SerializationContext ν where
  map o := if o = obj then some ctx.nextIdx else ctx.map o
  nextIdx := ctx.nextIdx + 1

end SerializationContext

/-- Serialize parts, the references among them by {lit}`serialize`. -/
def serializeParts
    (serialize : Option ν → SerializationContext ν →
      Option (List (Line defs Double) × SerializationContext ν)) :
    List (Part defs Double (Option ν)) → SerializationContext ν →
      Option (List (Line defs Double) × SerializationContext ν)
  | [], ctx => some ([], ctx)
  | .line line :: parts, ctx => do
      let (lines, ctx) ← serializeParts serialize parts ctx
      return (line :: lines, ctx)
  | .ref _ target :: parts, ctx => do
      let (front, ctx) ← serialize target ctx
      let (back, ctx) ← serializeParts serialize parts ctx
      return (front ++ back, ctx)

section Parts

variable {serialize : Option ν → SerializationContext ν →
    Option (List (Line defs Double) × SerializationContext ν)}
  {parts : List (Part defs Double (Option ν))} {ctx ctx' : SerializationContext ν}
  {lines : List (Line defs Double)}

/-- A line is written first. -/
theorem serializeParts_line {line : Line defs Double}
    (h : serializeParts serialize (.line line :: parts) ctx = some (lines, ctx')) :
    ∃ back, serializeParts serialize parts ctx = some (back, ctx') ∧ lines = line :: back := by
  simp only [serializeParts, Option.bind_eq_bind, Option.bind_eq_some_iff] at h
  rcases h with ⟨⟨back, ctx''⟩, hback, heq⟩
  obtain ⟨rfl, rfl⟩ := Prod.mk.inj (Option.some.inj heq)
  exact ⟨back, hback, rfl⟩

/-- The object of a reference is written first. -/
theorem serializeParts_ref {type : Identifier} {target : Option ν}
    (h : serializeParts serialize (.ref type target :: parts) ctx = some (lines, ctx')) :
    ∃ front mid back, serialize target ctx = some (front, mid) ∧
      serializeParts serialize parts mid = some (back, ctx') ∧ lines = front ++ back := by
  simp only [serializeParts, Option.bind_eq_bind, Option.bind_eq_some_iff] at h
  rcases h with ⟨⟨front, mid⟩, hfront, ⟨back, ctx''⟩, hback, heq⟩
  obtain ⟨rfl, rfl⟩ := Prod.mk.inj (Option.some.inj heq)
  exact ⟨front, mid, back, hfront, hback, rfl⟩

/-- Parts are serialized one after the other. -/
theorem serializeParts_append {parts' : List (Part defs Double (Option ν))}
    (h : serializeParts serialize (parts ++ parts') ctx = some (lines, ctx')) :
    ∃ front mid back, serializeParts serialize parts ctx = some (front, mid) ∧
      serializeParts serialize parts' mid = some (back, ctx') ∧ lines = front ++ back := by
  induction parts generalizing ctx lines with
  | nil => exact ⟨[], ctx, lines, rfl, h, rfl⟩
  | cons part parts ih =>
      cases part with
      | line line =>
          rcases serializeParts_line h with ⟨rest, hrest, rfl⟩
          rcases ih hrest with ⟨front, mid, back, hfront, hback, rfl⟩
          exact ⟨line :: front, mid, back, by simp [serializeParts, hfront], hback, rfl⟩
      | ref type target =>
          rcases serializeParts_ref h with ⟨first, ctx'', rest, hfirst, hrest, rfl⟩
          rcases ih hrest with ⟨front, mid, back, hfront, hback, rfl⟩
          exact ⟨first ++ front, mid, back, by simp [serializeParts, hfirst, hfront], hback,
            (List.append_assoc ..).symm⟩

end Parts

namespace Graph

variable [DecidableEq ν] (graph : Graph defs Double ν)

/-- {lit}`SerializeImp` and {lit}`SerializationContext::Serialize`, with a bound on the
depth of the recursion. -/
def serializeImp : Nat → Option ν → SerializationContext ν →
    Option (List (Line defs Double) × SerializationContext ν)
  | 0, _, _ => none
  | _ + 1, none, ctx => some ([.null], ctx)
  | depth + 1, some o, ctx =>
      match ctx.map o with
      | some idx => some ([.back idx], ctx)
      | none => do
          let (lines, ctx) ←
            serializeParts (serializeImp depth) (graph.object o).parts (ctx.addObject o)
          return (.className (graph.object o).cls :: lines, ctx)

/-- The lines {lit}`Serialize` writes for a graph. -/
def serialize [Fintype ν] (root : Option ν) : Option (List (Line defs Double)) :=
  (graph.serializeImp (Fintype.card ν + 1) root .empty).map Prod.fst

end Graph

/-! ## Numbers -/

/-- The context numbers these objects, in this order. -/
structure Numbers (ctx : SerializationContext ν) (order : List ν) : Prop where
  nextIdx : ctx.nextIdx = order.length
  map_iff : ∀ o i, ctx.map o = some i ↔ order[i]? = some o

/-- No object has a number at first. -/
theorem numbers_empty : Numbers (SerializationContext.empty : SerializationContext ν) [] :=
  ⟨rfl, by simp [SerializationContext.empty]⟩

/-- The objects with a number are those in the map. -/
theorem Numbers.mem_iff {ctx : SerializationContext ν} {order : List ν} (h : Numbers ctx order)
    {o : ν} : o ∈ order ↔ ctx.map o ≠ none := by
  rw [List.mem_iff_getElem?, ne_eq, ← ne_eq, Option.ne_none_iff_exists']
  constructor
  · rintro ⟨i, hi⟩
    exact ⟨i, (h.map_iff o i).mpr hi⟩
  · rintro ⟨i, hi⟩
    exact ⟨i, (h.map_iff o i).mp hi⟩

/-- No object has two numbers. -/
theorem Numbers.nodup {ctx : SerializationContext ν} {order : List ν} (h : Numbers ctx order) :
    order.Nodup := by
  rw [List.nodup_iff_injective_get]
  intro i j hij
  have hi := (h.map_iff (order.get i) i).mpr (by simp)
  have hj := (h.map_iff (order.get j) j).mpr (by simp)
  rw [hij, hj] at hi
  exact Fin.ext (Option.some.inj hi).symm

section Walk

/-- A new object gets the next number. -/
theorem Numbers.addObject [DecidableEq ν] {ctx : SerializationContext ν} {order : List ν}
    (h : Numbers ctx order)
    {o : ν} (hnew : ctx.map o = none) : Numbers (ctx.addObject o) (order ++ [o]) := by
  have hfresh : ∀ i : Nat, order[i]? ≠ some o := by
    intro i hi
    rw [(h.map_iff o i).mpr hi] at hnew
    cases hnew
  constructor
  case nextIdx =>
    simp [SerializationContext.addObject, h.nextIdx]
  case map_iff =>
    intro target i
    rw [List.getElem?_append]
    by_cases hsame : target = o
    · subst hsame
      by_cases hi : i < order.length
      · rw [if_pos hi]
        simp only [SerializationContext.addObject, if_true, h.nextIdx, Option.some.injEq]
        constructor
        · intro heq
          omega
        · intro heq
          exact absurd heq (hfresh i)
      · rw [if_neg hi]
        simp only [SerializationContext.addObject, if_true, h.nextIdx, Option.some.injEq]
        rw [List.getElem?_singleton]
        split
        · simp
          omega
        · simp
          omega
    · simp only [SerializationContext.addObject, if_neg hsame]
      by_cases hi : i < order.length
      · rw [if_pos hi]
        exact h.map_iff target i
      · rw [if_neg hi, h.map_iff, List.getElem?_eq_none (by omega), List.getElem?_singleton]
        split
        · simp [Ne.symm hsame]
        · simp

/-- What the serializer of references has to do for the references of an object. -/
theorem serializeParts_numbers
    {serialize : Option ν → SerializationContext ν →
      Option (List (Line defs Double) × SerializationContext ν)}
    (hserialize : ∀ ref ctx lines ctx' order, Numbers ctx order →
      serialize ref ctx = some (lines, ctx') → ∃ new, Numbers ctx' (order ++ new))
    {parts : List (Part defs Double (Option ν))} {ctx ctx' : SerializationContext ν}
    {lines : List (Line defs Double)} {order : List ν} (hnumbers : Numbers ctx order)
    (h : serializeParts serialize parts ctx = some (lines, ctx')) :
    ∃ new, Numbers ctx' (order ++ new) := by
  induction parts generalizing ctx lines order with
  | nil =>
      obtain ⟨-, rfl⟩ := Prod.mk.inj (Option.some.inj h)
      exact ⟨[], by rwa [List.append_nil]⟩
  | cons part parts ih =>
      cases part with
      | line line =>
          rcases serializeParts_line h with ⟨back, hback, -⟩
          exact ih hnumbers hback
      | ref type ref =>
          rcases serializeParts_ref h with ⟨front, mid, back, hfront, hback, -⟩
          rcases hserialize ref ctx front mid order hnumbers hfront with ⟨new, hmid⟩
          rcases ih hmid hback with ⟨new', hback⟩
          exact ⟨new ++ new', by rwa [← List.append_assoc]⟩

namespace Graph

variable (graph : Graph defs Double ν)

/-- The three ways in which a reference is serialized. -/
theorem serializeImp_cases [DecidableEq ν] {depth : Nat} {ref : Option ν}
    {ctx ctx' : SerializationContext ν}
    {lines : List (Line defs Double)}
    (h : graph.serializeImp depth ref ctx = some (lines, ctx')) :
    (ref = none ∧ lines = [.null] ∧ ctx' = ctx) ∨
    (∃ o idx, ref = some o ∧ ctx.map o = some idx ∧ lines = [.back idx] ∧ ctx' = ctx) ∨
    ∃ o depth' inner, ref = some o ∧ ctx.map o = none ∧ depth = depth' + 1 ∧
      lines = .className (graph.object o).cls :: inner ∧
      serializeParts (graph.serializeImp depth') (graph.object o).parts (ctx.addObject o) =
        some (inner, ctx') := by
  cases depth with
  | zero => simp [serializeImp] at h
  | succ depth =>
      cases ref with
      | none =>
          obtain ⟨rfl, rfl⟩ := Prod.mk.inj (Option.some.inj h)
          exact Or.inl ⟨rfl, rfl, rfl⟩
      | some o =>
          cases hmap : ctx.map o with
          | some idx =>
              simp only [serializeImp, hmap] at h
              obtain ⟨rfl, rfl⟩ := Prod.mk.inj (Option.some.inj h)
              exact Or.inr (Or.inl ⟨o, idx, rfl, hmap, rfl, rfl⟩)
          | none =>
              simp only [serializeImp, hmap, Option.bind_eq_bind, Option.bind_eq_some_iff] at h
              rcases h with ⟨⟨inner, ctx''⟩, hinner, heq⟩
              obtain ⟨rfl, rfl⟩ := Prod.mk.inj (Option.some.inj heq)
              exact Or.inr (Or.inr ⟨o, depth, inner, rfl, hmap, rfl, rfl, hinner⟩)

/-- The context numbers the objects in the order in which they are met. -/
theorem serializeImp_numbers [DecidableEq ν] (depth : Nat) (ref : Option ν)
    (ctx : SerializationContext ν)
    (lines : List (Line defs Double)) (ctx' : SerializationContext ν) (order : List ν)
    (hnumbers : Numbers ctx order) (h : graph.serializeImp depth ref ctx = some (lines, ctx')) :
    ∃ new, Numbers ctx' (order ++ new) := by
  induction depth generalizing ref ctx lines ctx' order with
  | zero => simp [serializeImp] at h
  | succ depth ih =>
      rcases graph.serializeImp_cases h with
        ⟨_, _, rfl⟩ | ⟨o, idx, _, _, _, rfl⟩ | ⟨o, depth', inner, _, hnew, hdepth, _, hinner⟩
      · exact ⟨[], by rwa [List.append_nil]⟩
      · exact ⟨[], by rwa [List.append_nil]⟩
      · obtain rfl : depth = depth' := by omega
        rcases serializeParts_numbers ih (hnumbers.addObject hnew) hinner with ⟨new, hnumbers'⟩
        exact ⟨o :: new, by rwa [List.append_assoc] at hnumbers'⟩

/-! ## The walk ends -/

/-- If all references can be written, then the parts can. -/
theorem serializeParts_total
    {serialize : Option ν → SerializationContext ν →
      Option (List (Line defs Double) × SerializationContext ν)}
    {order : List ν}
    (hserialize : ∀ ref ctx new, Numbers ctx (order ++ new) →
      ∃ lines ctx' new', serialize ref ctx = some (lines, ctx') ∧ Numbers ctx' (order ++ new'))
    (parts : List (Part defs Double (Option ν))) {ctx : SerializationContext ν} {new : List ν}
    (hnumbers : Numbers ctx (order ++ new)) :
    ∃ lines ctx', serializeParts serialize parts ctx = some (lines, ctx') := by
  induction parts generalizing ctx new with
  | nil => exact ⟨[], ctx, rfl⟩
  | cons part parts ih =>
      cases part with
      | line line =>
          rcases ih hnumbers with ⟨lines, ctx', h⟩
          exact ⟨line :: lines, ctx', by simp [serializeParts, h]⟩
      | ref type target =>
          rcases hserialize target ctx new hnumbers with ⟨front, mid, new', hfront, hmid⟩
          rcases ih hmid with ⟨back, ctx', hback⟩
          exact ⟨front ++ back, ctx', by simp [serializeParts, hfront, hback]⟩

/-- The depth of the recursion is bounded by the number of objects not yet met. -/
theorem serializeImp_total [DecidableEq ν] [Fintype ν] (depth : Nat) (ref : Option ν)
    (ctx : SerializationContext ν) (order : List ν) (hnumbers : Numbers ctx order)
    (hdepth : Fintype.card ν < depth + order.length) :
    ∃ lines ctx', graph.serializeImp depth ref ctx = some (lines, ctx') := by
  induction depth generalizing ref ctx order with
  | zero =>
      have hle := hnumbers.nodup.length_le_card
      omega
  | succ depth ih =>
      cases ref with
      | none => exact ⟨_, _, rfl⟩
      | some o =>
          cases hmap : ctx.map o with
          | some idx => exact ⟨[.back idx], ctx, by simp [serializeImp, hmap]⟩
          | none =>
              have hparts : ∃ lines ctx', serializeParts (graph.serializeImp depth)
                  (graph.object o).parts (ctx.addObject o) = some (lines, ctx') := by
                have hadd := hnumbers.addObject hmap
                have hstart : Numbers (ctx.addObject o) ((order ++ [o]) ++ []) := by
                  rwa [List.append_nil]
                refine serializeParts_total ?_ _ hstart
                intro ref ctx new hctx
                rcases ih ref ctx _ hctx (by simp only [List.length_append, List.length_cons]; omega)
                  with ⟨lines, ctx', h⟩
                rcases graph.serializeImp_numbers _ _ _ _ _ _ hctx h with ⟨new', hctx'⟩
                exact ⟨lines, ctx', new ++ new', h, by rwa [← List.append_assoc]⟩
              rcases hparts with ⟨lines, ctx', h⟩
              exact ⟨_, ctx', by simp only [serializeImp, hmap, h]; rfl⟩

/-- The serialization of a finite graph ends. -/
theorem serialize_total [DecidableEq ν] [Fintype ν] (root : Option ν) :
    ∃ lines ctx', graph.serialize root = some lines ∧
      graph.serializeImp (Fintype.card ν + 1) root .empty = some (lines, ctx') := by
  rcases graph.serializeImp_total (Fintype.card ν + 1) root .empty [] numbers_empty (by simp) with
    ⟨lines, ctx', h⟩
  exact ⟨lines, ctx', by rw [serialize, h]; rfl, h⟩

/-! ## What the lines are about -/

/-- The objects that are held are those of the references that are written. -/
theorem mem_holds {o target : ν} :
    target ∈ graph.holds o ↔
      ∃ type, (Part.ref type (some target) : Part defs Double (Option ν)) ∈
        (graph.object o).parts := by
  have hparts := (graph.object o).filterMap_ref?_parts
  rw [holds, ← hparts]
  simp only [List.mem_filterMap, Prod.exists]
  constructor
  · rintro ⟨type, ref, ⟨part, hpart, href⟩, heq⟩
    cases part with
    | line line => simp [Part.ref?] at href
    | ref type' target' =>
        obtain ⟨rfl, rfl⟩ := Prod.mk.inj (Option.some.inj href)
        exact ⟨type', heq ▸ hpart⟩
  · rintro ⟨type, hpart⟩
    exact ⟨type, some target, ⟨_, hpart, rfl⟩, rfl⟩

/-- What holds for each line and for the lines of each reference holds for all lines. -/
theorem serializeParts_lines
    {serialize : Option ν → SerializationContext ν →
      Option (List (Line defs Double) × SerializationContext ν)}
    {P : Line defs Double → Prop} {parts : List (Part defs Double (Option ν))}
    (hline : ∀ line, Part.line line ∈ parts → P line)
    (href : ∀ type target ctx lines ctx', Part.ref type target ∈ parts →
      serialize target ctx = some (lines, ctx') → ∀ line ∈ lines, P line)
    {ctx ctx' : SerializationContext ν} {lines : List (Line defs Double)}
    (h : serializeParts serialize parts ctx = some (lines, ctx')) : ∀ line ∈ lines, P line := by
  induction parts generalizing ctx lines with
  | nil =>
      obtain ⟨rfl, -⟩ := Prod.mk.inj (Option.some.inj h)
      simp
  | cons part parts ih =>
      have hline' : ∀ line, Part.line line ∈ parts → P line :=
        fun line hmem => hline line (List.mem_cons_of_mem _ hmem)
      have href' : ∀ type target ctx lines ctx', Part.ref type target ∈ parts →
          serialize target ctx = some (lines, ctx') → ∀ line ∈ lines, P line :=
        fun type target ctx lines ctx' hmem => href type target ctx lines ctx'
          (List.mem_cons_of_mem _ hmem)
      cases part with
      | line first =>
          rcases serializeParts_line h with ⟨back, hback, rfl⟩
          intro line hmem
          rcases List.mem_cons.mp hmem with rfl | hmem
          · exact hline line (List.mem_cons_self ..)
          · exact ih hline' href' hback line hmem
      | ref type target =>
          rcases serializeParts_ref h with ⟨front, mid, back, hfront, hback, rfl⟩
          intro line hmem
          rcases List.mem_append.mp hmem with hmem | hmem
          · exact href type target ctx front mid (List.mem_cons_self ..) hfront line hmem
          · exact ih hline' href' hback line hmem

/-- A property of the lines of all reachable objects is one of all lines. -/
theorem serializeImp_lines [DecidableEq ν] {P : Line defs Double → Prop} {root : Option ν}
    (hnull : P .null) (hback : ∀ idx, P (.back idx)) (hclass : ∀ c, P (.className c))
    (hobject : ∀ o, graph.Reachable root o →
      ∀ line, Part.line line ∈ (graph.object o).parts → P line)
    (depth : Nat) (ref : Option ν) (ctx : SerializationContext ν) (lines : List (Line defs Double))
    (ctx' : SerializationContext ν) (hreachable : ∀ o, ref = some o → graph.Reachable root o)
    (h : graph.serializeImp depth ref ctx = some (lines, ctx')) : ∀ line ∈ lines, P line := by
  induction depth generalizing ref ctx lines ctx' with
  | zero => simp [serializeImp] at h
  | succ depth ih =>
      rcases graph.serializeImp_cases h with
        ⟨_, rfl, _⟩ | ⟨o, idx, _, _, rfl, _⟩ | ⟨o, depth', inner, href, _, hdepth, rfl, hinner⟩
      · simpa using hnull
      · simpa using hback idx
      · obtain rfl : depth = depth' := by omega
        have ho := hreachable o href
        intro line hmem
        rcases List.mem_cons.mp hmem with rfl | hmem
        · exact hclass _
        · refine serializeParts_lines (hobject o ho) ?_ hinner line hmem
          intro type target ctx lines ctx' hpart hserialize
          apply ih target ctx lines ctx' _ hserialize
          rintro held rfl
          exact ho.held (graph.mem_holds.mpr ⟨type, hpart⟩)

/-- The lines are those of the objects {lit}`new`, which hold no others than these and
{lit}`order`. -/
structure Written (order new : List ν) (lines : List (Line defs Double)) : Prop where
  lines : ∀ o ∈ new, ∀ line, Part.line line ∈ (graph.object o).parts → line ∈ lines
  held : ∀ o ∈ new, ∀ target ∈ graph.holds o, target ∈ order ++ new

/-- Nothing is written for no object. -/
theorem written_nil (order : List ν) (lines : List (Line defs Double)) :
    graph.Written order [] lines :=
  ⟨by simp, by simp⟩

variable {graph} in
/-- The lines of two lists of objects are written one after the other. -/
theorem Written.append {order new new' : List ν} {front back : List (Line defs Double)}
    (h : graph.Written order new front) (h' : graph.Written (order ++ new) new' back) :
    graph.Written order (new ++ new') (front ++ back) := by
  constructor
  case lines =>
    intro o ho line hline
    rcases List.mem_append.mp ho with ho | ho
    · exact List.mem_append_left _ (h.lines o ho line hline)
    · exact List.mem_append_right _ (h'.lines o ho line hline)
  case held =>
    intro o ho target htarget
    rw [← List.append_assoc]
    rcases List.mem_append.mp ho with ho | ho
    · exact List.mem_append_left _ (h.held o ho target htarget)
    · exact h'.held o ho target htarget

/-- The parts are the lines of the objects that are met. -/
theorem serializeParts_written
    {serialize : Option ν → SerializationContext ν →
      Option (List (Line defs Double) × SerializationContext ν)}
    (hserialize : ∀ ref ctx lines ctx' order, Numbers ctx order →
      serialize ref ctx = some (lines, ctx') → ∃ new, Numbers ctx' (order ++ new) ∧
        graph.Written order new lines ∧ ∀ o, ref = some o → o ∈ order ++ new)
    {parts : List (Part defs Double (Option ν))} {ctx ctx' : SerializationContext ν}
    {lines : List (Line defs Double)} {order : List ν} (hnumbers : Numbers ctx order)
    (h : serializeParts serialize parts ctx = some (lines, ctx')) :
    ∃ new, Numbers ctx' (order ++ new) ∧ graph.Written order new lines ∧
      (∀ line, Part.line line ∈ parts → line ∈ lines) ∧
      ∀ type target, Part.ref type (some target) ∈ parts → target ∈ order ++ new := by
  induction parts generalizing ctx lines order with
  | nil =>
      obtain ⟨rfl, rfl⟩ := Prod.mk.inj (Option.some.inj h)
      exact ⟨[], by rwa [List.append_nil], graph.written_nil _ _, by simp, by simp⟩
  | cons part parts ih =>
      cases part with
      | line line =>
          rcases serializeParts_line h with ⟨back, hback, rfl⟩
          rcases ih hnumbers hback with ⟨new, hnumbers', hwritten, hlines, hrefs⟩
          refine ⟨new, hnumbers', ?_, ?_, ?_⟩
          · exact ⟨fun o ho later hlater => List.mem_cons_of_mem _ (hwritten.lines o ho later hlater),
              hwritten.held⟩
          · intro later hlater
            rcases List.mem_cons.mp hlater with heq | hlater
            · obtain rfl := Part.line.inj heq
              exact List.mem_cons_self ..
            · exact List.mem_cons_of_mem _ (hlines later hlater)
          · intro type target htarget
            rcases List.mem_cons.mp htarget with heq | htarget
            · cases heq
            · exact hrefs type target htarget
      | ref type ref =>
          rcases serializeParts_ref h with ⟨front, mid, back, hfront, hback, rfl⟩
          rcases hserialize ref ctx front mid order hnumbers hfront with
            ⟨new, hmid, hfrontWritten, href⟩
          rcases ih hmid hback with ⟨new', hnumbers', hwritten, hlines, hrefs⟩
          refine ⟨new ++ new', by rwa [← List.append_assoc], hfrontWritten.append hwritten, ?_, ?_⟩
          · intro later hlater
            rcases List.mem_cons.mp hlater with heq | hlater
            · cases heq
            · exact List.mem_append_right _ (hlines later hlater)
          · intro type' target htarget
            rw [← List.append_assoc]
            rcases List.mem_cons.mp htarget with heq | htarget
            · exact List.mem_append_left _ (href target (Part.ref.inj heq).2.symm)
            · exact hrefs type' target htarget

/-- The lines that are written are those of the objects that are met. -/
theorem serializeImp_written [DecidableEq ν] (depth : Nat) (ref : Option ν)
    (ctx : SerializationContext ν)
    (lines : List (Line defs Double)) (ctx' : SerializationContext ν) (order : List ν)
    (hnumbers : Numbers ctx order) (h : graph.serializeImp depth ref ctx = some (lines, ctx')) :
    ∃ new, Numbers ctx' (order ++ new) ∧ graph.Written order new lines ∧
      ∀ o, ref = some o → o ∈ order ++ new := by
  induction depth generalizing ref ctx lines ctx' order with
  | zero => simp [serializeImp] at h
  | succ depth ih =>
      rcases graph.serializeImp_cases h with
        ⟨rfl, rfl, rfl⟩ | ⟨o, idx, rfl, hmap, rfl, rfl⟩ |
          ⟨o, depth', inner, rfl, hnew, hdepth, rfl, hinner⟩
      · exact ⟨[], by rwa [List.append_nil], graph.written_nil _ _, by simp⟩
      · refine ⟨[], by rwa [List.append_nil], graph.written_nil _ _, ?_⟩
        intro o' heq
        obtain rfl := Option.some.inj heq
        rw [List.append_nil]
        exact List.mem_of_getElem? ((hnumbers.map_iff o idx).mp hmap)
      · obtain rfl : depth = depth' := by omega
        rcases graph.serializeParts_written ih (hnumbers.addObject hnew) hinner with
          ⟨new, hnumbers', hwritten, hlines, hrefs⟩
        rw [List.append_assoc] at hnumbers'
        refine ⟨o :: new, hnumbers', ⟨?_, ?_⟩, ?_⟩
        · intro target htarget line hline
          rcases List.mem_cons.mp htarget with rfl | htarget
          · exact List.mem_cons_of_mem _ (hlines line hline)
          · exact List.mem_cons_of_mem _ (hwritten.lines target htarget line hline)
        · intro holder hholder target htarget
          have hmem : target ∈ order ++ [o] ++ new := by
            rcases List.mem_cons.mp hholder with rfl | hholder
            · rcases graph.mem_holds.mp htarget with ⟨type, hpart⟩
              exact hrefs type target hpart
            · exact hwritten.held holder hholder target htarget
          rwa [List.append_assoc] at hmem
        · intro o' heq
          obtain rfl := Option.some.inj heq
          exact List.mem_append_right _ (List.mem_cons_self ..)

/-- The lines of all reachable objects are written. -/
theorem line_mem_serializeImp [DecidableEq ν] {depth : Nat} {root : Option ν}
    {lines : List (Line defs Double)}
    {ctx' : SerializationContext ν}
    (h : graph.serializeImp depth root .empty = some (lines, ctx')) {o : ν}
    (ho : graph.Reachable root o) {line : Line defs Double}
    (hline : Part.line line ∈ (graph.object o).parts) : line ∈ lines := by
  rcases graph.serializeImp_written depth root .empty lines ctx' [] numbers_empty h with
    ⟨new, -, hwritten, hroot⟩
  have hmem : ∀ o, graph.Reachable root o → o ∈ new := by
    intro o ho
    induction ho with
    | root heq => exact hroot _ heq
    | held _ hheld ih => exact hwritten.held _ ih _ hheld
  exact hwritten.lines o (hmem o ho) line hline

/-! ## Graphs without sharing -/

/-- The objects the references among the parts are to. -/
def targets (parts : List (Part defs Double (Option ν))) : List ν :=
  parts.filterMap fun part => part.ref?.bind Prod.snd

/-- The target of a reference is one of the targets, if there is one. -/
theorem targets_ref (type : Identifier) (target : Option ν)
    (parts : List (Part defs Double (Option ν))) :
    targets (.ref type target :: parts) = target.toList ++ targets parts := by
  cases target <;> simp [targets, Part.ref?]

/-- The targets of the parts of an object are the objects it holds. -/
theorem targets_parts (o : ν) : targets (graph.object o).parts = graph.holds o := by
  rw [holds, ← Object.filterMap_ref?_parts, List.filterMap_filterMap]
  rfl

/-- No part of an object is a number. -/
theorem back_not_mem_parts (o : ν) (idx : Nat) :
    Part.line (.back idx) ∉ (graph.object o).parts := by
  intro hmem
  rcases FieldValues.line_mem_parts hmem with ⟨_, hline⟩ | ⟨_, _, hline⟩ | ⟨_, _, _, _, _, _, hline⟩
  · cases hline
  · cases hline
  · cases hline

/-- Every reachable object but the root is held by one reference only, and the root by
none. -/
structure Unshared (root : Option ν) : Prop where
  once : ∀ o, graph.Reachable root o → (graph.holds o).Nodup
  oneHolder : ∀ o o' target, graph.Reachable root o → graph.Reachable root o' →
    target ∈ graph.holds o → target ∈ graph.holds o' → o = o'
  root : ∀ o target, graph.Reachable root o → root = some target → target ∉ graph.holds o

/-- Every object that was met is reachable, and is the root or held by one that was met. -/
def Held (root : Option ν) (order : List ν) : Prop :=
  ∀ o ∈ order, graph.Reachable root o ∧
    (root = some o ∨ ∃ holder ∈ order, o ∈ graph.holds holder)

/-- What the serialization of references to the objects {lit}`targets`, not met before, does:
it writes no number, and what it meets is one of them or held by what it meets. -/
def WritesNoNumber (root : Option ν) (targets : List ν) (order : List ν)
    (lines : List (Line defs Double)) (ctx' : SerializationContext ν) : Prop :=
  (∀ idx, .back idx ∉ lines) ∧
    ∃ new, Numbers ctx' (order ++ new) ∧ graph.Held root (order ++ new) ∧
      ∀ o ∈ new, o ∈ targets ∨ ∃ holder ∈ new, o ∈ graph.holds holder

/-- An object that can be met next. -/
structure Fresh (root : Option ν) (order : List ν) (o : ν) : Prop where
  notMet : o ∉ order
  reachable : graph.Reachable root o
  origin : root = some o ∨ ∃ holder ∈ order, o ∈ graph.holds holder

variable {graph} {root : Option ν} {order new : List ν} {o : ν}

/-- An object that can be met next is held. -/
theorem Held.push (h : graph.Held root order) (hfresh : graph.Fresh root order o) :
    graph.Held root (order ++ [o]) := by
  have hkeep : ∀ met, (root = some met ∨ ∃ holder ∈ order, met ∈ graph.holds holder) →
      root = some met ∨ ∃ holder ∈ order ++ [o], met ∈ graph.holds holder := by
    intro met horigin
    rcases horigin with hroot | ⟨holder, hholder, hheldBy⟩
    · exact Or.inl hroot
    · exact Or.inr ⟨holder, List.mem_append_left _ hholder, hheldBy⟩
  intro met hmet
  rcases List.mem_append.mp hmet with hold | hself
  · exact ⟨(h met hold).1, hkeep met (h met hold).2⟩
  · obtain rfl := List.mem_singleton.mp hself
    exact ⟨hfresh.reachable, hkeep met hfresh.origin⟩

/-- What a new object holds is held by nothing that was met before, hence not met. -/
theorem Unshared.fresh (hunshared : graph.Unshared root) (hheld : graph.Held root order)
    (hfresh : graph.Fresh root order o) {target : ν} (htarget : target ∈ graph.holds o) :
    graph.Fresh root (order ++ [o]) target := by
  have hreachable := hfresh.reachable
  have horigin : root = some target ∨ ∃ holder ∈ order ++ [o], target ∈ graph.holds holder :=
    Or.inr ⟨o, List.mem_append_right _ (List.mem_singleton_self o), htarget⟩
  refine ⟨?_, hreachable.held htarget, horigin⟩
  intro hmet
  -- whether it is {lit}`o` or was met before, it is held by something met before
  have hholder : root = some target ∨ ∃ holder ∈ order, target ∈ graph.holds holder := by
    rcases List.mem_append.mp hmet with hold | hself
    · exact (hheld target hold).2
    · obtain rfl := List.mem_singleton.mp hself
      exact hfresh.origin
  rcases hholder with hroot | ⟨holder, hholder, hheldBy⟩
  · exact hunshared.root o target hreachable hroot htarget
  · have hsame := hunshared.oneHolder holder o target (hheld holder hholder).1 hreachable hheldBy
      htarget
    exact hfresh.notMet (hsame ▸ hholder)

/-- What is met on behalf of one reference of an object is not what its later ones are to. -/
theorem Unshared.later_fresh (hunshared : graph.Unshared root) {ctx : SerializationContext ν}
    (hnumbers : Numbers ctx (order ++ new)) (hheld : graph.Held root (order ++ new))
    (hmem : o ∈ order) {first later : List ν} (hdisjoint : first.Disjoint later)
    (hlater : ∀ target ∈ later, target ∈ graph.holds o ∧ target ∉ order)
    (hnew : ∀ met ∈ new, met ∈ first ∨ ∃ holder ∈ new, met ∈ graph.holds holder) :
    ∀ target ∈ later, target ∉ order ++ new := by
  intro target htarget hmet
  rcases List.mem_append.mp hmet with hold | hnewMet
  · exact (hlater target htarget).2 hold
  · rcases hnew target hnewMet with hfirst | ⟨holder, hholder, hheldBy⟩
    · exact hdisjoint hfirst htarget
    · have hsame := hunshared.oneHolder holder o target
        (hheld holder (List.mem_append_right _ hholder)).1
        (hheld o (List.mem_append_left _ hmem)).1 hheldBy (hlater target htarget).1
      exact List.disjoint_of_nodup_append hnumbers.nodup hmem (hsame ▸ hholder)

/-- If no number is written first and none later, then none is written. -/
theorem WritesNoNumber.append {first later : List ν} {ctx' : SerializationContext ν}
    {front back : List (Line defs Double)} (hback : ∀ idx, .back idx ∉ front)
    (hnew : ∀ met ∈ new, met ∈ first ∨ ∃ holder ∈ new, met ∈ graph.holds holder)
    (h : graph.WritesNoNumber root later (order ++ new) back ctx') :
    graph.WritesNoNumber root (first ++ later) order (front ++ back) ctx' := by
  rcases h with ⟨hback', new', hnumbers, hheld, hnew'⟩
  refine ⟨?_, new ++ new', by rwa [← List.append_assoc], by rwa [← List.append_assoc], ?_⟩
  · intro idx hidx
    rcases List.mem_append.mp hidx with hfront | hlater
    · exact hback idx hfront
    · exact hback' idx hlater
  · intro met hmet
    rcases List.mem_append.mp hmet with hmet | hmet
    · rcases hnew met hmet with hfirst | ⟨holder, hholder, hheldBy⟩
      · exact Or.inl (List.mem_append_left _ hfirst)
      · exact Or.inr ⟨holder, List.mem_append_left _ hholder, hheldBy⟩
    · rcases hnew' met hmet with hlater | ⟨holder, hholder, hheldBy⟩
      · exact Or.inl (List.mem_append_right _ hlater)
      · exact Or.inr ⟨holder, List.mem_append_right _ hholder, hheldBy⟩

/-- The references of an object that was met are met in turn. -/
theorem Unshared.serializeParts (hunshared : graph.Unshared root)
    {serialize : Option ν → SerializationContext ν →
      Option (List (Line defs Double) × SerializationContext ν)}
    (hserialize : ∀ ref ctx lines ctx' order, Numbers ctx order → graph.Held root order →
      (∀ o, ref = some o → graph.Fresh root order o) →
      serialize ref ctx = some (lines, ctx') →
      graph.WritesNoNumber root ref.toList order lines ctx')
    {parts : List (Part defs Double (Option ν))}
    (hline : ∀ idx, Part.line (.back idx) ∉ parts) (hnodup : (targets parts).Nodup)
    {ctx ctx' : SerializationContext ν} {lines : List (Line defs Double)}
    (hnumbers : Numbers ctx order) (hheld : graph.Held root order) (hmem : o ∈ order)
    (htargets : ∀ target ∈ targets parts, target ∈ graph.holds o ∧ target ∉ order)
    (h : SharedEntities.serializeParts serialize parts ctx = some (lines, ctx')) :
    graph.WritesNoNumber root (targets parts) order lines ctx' := by
  induction parts generalizing ctx lines order with
  | nil =>
      obtain ⟨rfl, rfl⟩ := Prod.mk.inj (Option.some.inj h)
      exact ⟨by simp, [], by rwa [List.append_nil], by rwa [List.append_nil], by simp⟩
  | cons part parts ih =>
      have hline' : ∀ idx, Part.line (.back idx) ∉ parts :=
        fun idx hidx => hline idx (List.mem_cons_of_mem _ hidx)
      cases part with
      | line first =>
          rcases serializeParts_line h with ⟨back, hback, rfl⟩
          rcases ih hline' hnodup hnumbers hheld hmem htargets hback with ⟨hnoBack, hnew⟩
          refine ⟨?_, hnew⟩
          intro idx hidx
          rcases List.mem_cons.mp hidx with rfl | hlater
          · exact hline idx (List.mem_cons_self ..)
          · exact hnoBack idx hlater
      | ref type target =>
          rcases serializeParts_ref h with ⟨front, mid, back, hfront, hback, rfl⟩
          rw [targets_ref] at hnodup htargets ⊢
          have hfresh : ∀ held, target = some held → graph.Fresh root order held := by
            rintro held rfl
            have hheldBy := htargets held (by simp)
            exact ⟨hheldBy.2, (hheld o hmem).1.held hheldBy.1, Or.inr ⟨o, hmem, hheldBy.1⟩⟩
          rcases hserialize target ctx front mid order hnumbers hheld hfresh hfront with
            ⟨hnoBack, new, hmid, hheldMid, hnew⟩
          have hlater : ∀ later ∈ targets parts, later ∈ graph.holds o ∧ later ∉ order :=
            fun later hmemLater => htargets later (List.mem_append_right _ hmemLater)
          have hlaterFresh := hunshared.later_fresh hmid hheldMid hmem
            (List.disjoint_of_nodup_append hnodup) hlater hnew
          exact WritesNoNumber.append hnoBack hnew
            (ih hline' (List.nodup_append.mp hnodup).2.1 hmid hheldMid
              (List.mem_append_left _ hmem)
              (fun later hmemLater => ⟨(hlater later hmemLater).1, hlaterFresh later hmemLater⟩)
              hback)

/-- In a graph without sharing no object is met twice. -/
theorem Unshared.serializeImp [DecidableEq ν] (hunshared : graph.Unshared root) (depth : Nat)
    (ref : Option ν)
    (ctx : SerializationContext ν) (lines : List (Line defs Double))
    (ctx' : SerializationContext ν) (order : List ν) (hnumbers : Numbers ctx order)
    (hheld : graph.Held root order) (hfresh : ∀ o, ref = some o → graph.Fresh root order o)
    (h : graph.serializeImp depth ref ctx = some (lines, ctx')) :
    graph.WritesNoNumber root ref.toList order lines ctx' := by
  induction depth generalizing ref ctx lines ctx' order with
  | zero => simp [Graph.serializeImp] at h
  | succ depth ih =>
      rcases graph.serializeImp_cases h with
        ⟨_, rfl, rfl⟩ | ⟨o, idx, href, hmap, rfl, _⟩ |
          ⟨o, depth', inner, rfl, hnew, hdepth, rfl, hinner⟩
      · exact ⟨by simp, [], by rwa [List.append_nil], by rwa [List.append_nil], by simp⟩
      · exact absurd (hnumbers.mem_iff.mpr (by simp [hmap])) (hfresh o href).notMet
      · obtain rfl : depth = depth' := by omega
        have hself := hfresh o rfl
        have htargets : ∀ target ∈ targets (graph.object o).parts,
            target ∈ graph.holds o ∧ target ∉ order ++ [o] := by
          intro target htarget
          rw [graph.targets_parts] at htarget
          exact ⟨htarget, (hunshared.fresh hheld hself htarget).notMet⟩
        have hnodup : (targets (graph.object o).parts).Nodup := by
          rw [graph.targets_parts]
          exact hunshared.once o hself.reachable
        rcases hunshared.serializeParts ih (graph.back_not_mem_parts o) hnodup
            (hnumbers.addObject hnew) (hheld.push hself)
            (List.mem_append_right _ (List.mem_singleton_self o)) htargets hinner with
          ⟨hnoBack, new, hnumbers', hheldNew, hnew'⟩
        refine ⟨by simpa using hnoBack, o :: new, by rwa [List.append_assoc] at hnumbers',
          by rwa [List.append_assoc] at hheldNew, ?_⟩
        intro met hmet
        rcases List.mem_cons.mp hmet with rfl | hmet
        · exact Or.inl (by simp)
        · rcases hnew' met hmet with htarget | ⟨holder, hholder, hheldBy⟩
          · rw [graph.targets_parts] at htarget
            exact Or.inr ⟨o, List.mem_cons_self .., htarget⟩
          · exact Or.inr ⟨holder, List.mem_cons_of_mem _ hholder, hheldBy⟩

/-- No number is written for a graph in which no object is held twice. -/
theorem Unshared.back_not_mem [DecidableEq ν] (hunshared : graph.Unshared root) {depth : Nat}
    {lines : List (Line defs Double)} {ctx' : SerializationContext ν}
    (h : graph.serializeImp depth root .empty = some (lines, ctx')) (idx : Nat) :
    .back idx ∉ lines := by
  have hnone := hunshared.serializeImp depth root .empty lines ctx' [] numbers_empty
    (by simp [Held]) ?_ h
  · exact hnone.1 idx
  · intro o ho
    exact ⟨by simp, .root ho, Or.inl ho⟩

end Graph

end Walk

/-! ## The encoders -/

section Encoders

variable [Fintype ν] [DecidableEq ν] (printDouble : Double → Text)

namespace Java

/-- How the generated Java service prints a primitive value. -/
def printPrimitive : (type : PrimitiveType) → Primitive Double type → Text
  | .int, value => decimal value.val
  | .long, value => decimal value.val
  | .bool, value => decimal (cond value 1 0)
  | .double, value => printDouble value
  | .string, value => escapeString value
  | .ulong, value => decimal value

/-- The text {lit}`Serialize` of the generated Java service writes. -/
def serialize (graph : Graph defs Double ν) (root : Option ν) : Option Text :=
  (graph.serialize root).map (render (printPrimitive printDouble))

end Java

namespace Cpp

/-- How a generated C++ serializer prints a primitive value. -/
def printPrimitive : (type : PrimitiveType) → Primitive Double type → Text
  | .int, value => decimal value.val
  | .long, value => decimal value.val
  | .bool, value => decimal (cond value 1 0)
  | .double, value => printDouble value
  | .string, value => escapeString value
  | .ulong, value => decimal value

/-- The text {lit}`MultiLanguageSerializationService::Serialize` writes. -/
def serialize (graph : Graph defs Double ν) (root : Option ν) : Option Text :=
  (graph.serialize root).map (render (printPrimitive printDouble))

end Cpp

/-- But for the form of floating point numbers, both languages write the same text. -/
theorem printPrimitive_eq :
    Cpp.printPrimitive printDouble = Java.printPrimitive printDouble := by
  funext type value
  cases type <;> rfl

/-- The C++ service writes what the Java service writes. -/
theorem serialize_eq (graph : Graph defs Double ν) (root : Option ν) :
    Cpp.serialize printDouble graph root = Java.serialize printDouble graph root := by
  rw [Cpp.serialize, Java.serialize, printPrimitive_eq]

/-! ## Lines without newlines -/

/-- A name has no line break in it. -/
theorem newline_not_mem_identifier (name : Identifier) : '\n' ∉ name.text := by
  intro h
  exact absurd (name.chars '\n' h) (by decide)

/-- A number has no line break in it. -/
theorem newline_not_mem_decimal (i : Int) : '\n' ∉ decimal i := by
  intro h
  rcases isNumeralChar_of_mem_decimal h with hsign | hdigit
  · exact absurd hsign (by decide)
  · exact absurd hdigit (by decide)

/-- Only the text of a floating point number might have a newline. -/
theorem newline_not_mem_text {line : Line defs Double}
    (hdouble : ∀ listed value, line = .item listed .double value → '\n' ∉ printDouble value) :
    '\n' ∉ line.text (Java.printPrimitive printDouble) := by
  cases line with
  | null =>
      change '\n' ∉ "<null>".toList
      decide
  | back idx =>
      intro h
      rcases List.mem_append.mp h with harrow | hidx
      · exact absurd harrow (by decide)
      · exact newline_not_mem_decimal _ hidx
  | className c => exact newline_not_mem_identifier _
  | fieldName name => exact newline_not_mem_identifier _
  | size n => exact newline_not_mem_decimal _
  | item listed type value =>
      cases type with
      | int => exact newline_not_mem_decimal _
      | long => exact newline_not_mem_decimal _
      | bool => exact newline_not_mem_decimal _
      | double => exact hdouble listed value rfl
      | string => exact newline_not_mem_escape _
      | ulong => exact newline_not_mem_decimal _

end Encoders

end SharedEntities
end Roofline
