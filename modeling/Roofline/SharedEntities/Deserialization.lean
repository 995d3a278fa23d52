import Roofline.SharedEntities.Serialization

/-!
# Deserialization of object graphs

Both languages read the lines back in the same recursion: the header of a reference, and
for a class name the fields of a new object, which gets the next number before its
fields are read.  They differ in how a line is read, which is what a reader says.

Main results:

- Theorem {lit}`Reads.deSerializeImp_serializeImp`: what a reader that reads all lines makes
  of the lines of a reference.
- Theorem {lit}`Reads.corresponds`: from the lines of a graph, such a reader builds a copy
  of the graph.
-/

namespace Roofline
namespace SharedEntities

variable {ε : Type} {defs : Definitions} {Double σ ν α β : Type}

/-! ## Readers -/

/-- The header of a reference. -/
inductive Header (defs : Definitions) where
  | null
  | back (idx : Int)
  | className (c : ConcreteClass defs)

/-- {lit}`DeSerializationContext`, with the objects as positions in the heap. -/
structure DeSerializationContext where
  map : Int → Option Nat
  nextIdx : Int

namespace DeSerializationContext

/-- No object was read. -/
def empty : DeSerializationContext where
  map _ := none
  nextIdx := 0

/-- Note the address of the next object. -/
def addObject (ctx : DeSerializationContext) (obj : Nat) : DeSerializationContext where
  map idx := if idx = ctx.nextIdx then some obj else ctx.map idx
  nextIdx := ctx.nextIdx + 1

end DeSerializationContext

/-- How one language reads the lines; {lit}`σ` is its input and {lit}`ε` its exceptions. -/
structure Reader (ε : Type) (defs : Definitions) (Double σ : Type) where
  header : σ → Except ε (Header defs × σ)
  getObj : DeSerializationContext → Int → Option Nat
  /-- What happens between the header of an object and its fields. -/
  enter : ConcreteClass defs → σ → Except ε σ
  /-- The input after an object, from the inputs before and after it. -/
  leave : σ → σ → σ
  fieldName : ConcreteClass defs → Identifier → σ → Except ε σ
  size : ConcreteClass defs → Identifier → σ → Except ε (Int × σ)
  item : ConcreteClass defs → Identifier → (type : PrimitiveType) → σ →
    Except ε (Primitive Double type × σ)
  /-- The exception for a reference of the wrong class, if casts are checked. -/
  castException : Option ε
  stackOverflow : ε

/-- An object that is being built; its values are there when all its fields are read. -/
structure Entry (defs : Definitions) (Double : Type) where
  cls : ConcreteClass defs
  values : Option (FieldValues Double (Option Nat) cls.cls.allFields)

/-- The input and the objects created so far. -/
structure Decoding (defs : Definitions) (Double σ : Type) where
  input : σ
  ctx : DeSerializationContext
  heap : List (Entry defs Double)

namespace Decoding

/-- Before anything was read. -/
def start (input : σ) : Decoding defs Double σ where
  input
  ctx := .empty
  heap := []

/-- The reference is null or one to an object of a subclass of {lit}`type`. -/
def canCast (s : Decoding defs Double σ) (type : Identifier) (obj : Option Nat) : Bool :=
  obj.all fun i => (s.heap[i]?).any fun entry => entry.cls.cls.isA type

/-- {lit}`new`, with the object added to the context. -/
def create (s : Decoding defs Double σ) (input : σ) (c : ConcreteClass defs) :
    Decoding defs Double σ where
  input
  ctx := s.ctx.addObject s.heap.length
  heap := s.heap ++ [⟨c, none⟩]

/-- The fields of the object at {lit}`obj` are read. -/
def complete (s : Decoding defs Double σ) (input : σ) (obj : Nat) (c : ConcreteClass defs)
    (values : FieldValues Double (Option Nat) c.cls.allFields) : Decoding defs Double σ where
  input
  ctx := s.ctx
  heap := s.heap.set obj ⟨c, some values⟩

end Decoding

namespace Reader

variable (reader : Reader ε defs Double σ)
  (deSerialize : Decoding defs Double σ → Except ε (Option Nat × Decoding defs Double σ))
  (c : ConcreteClass defs)

/-- Read an item of a type: a primitive value or an object. -/
def readItem (name : Identifier) :
    (type : FieldType) → Decoding defs Double σ →
      Except ε (Item Double (Option Nat) type × Decoding defs Double σ)
  | .primitive type, s => do
      let (value, input) ← reader.item c name type s.input
      return (value, { s with input })
  | .reference type, s => do
      let (obj, s) ← deSerialize s
      match reader.castException, s.canCast type obj with
      | some e, false => throw e
      | _, _ => return (obj, s)

/-- The loop over the elements of a list. -/
def readItems (name : Identifier) (type : FieldType) :
    Nat → Decoding defs Double σ →
      Except ε (List (Item Double (Option Nat) type) × Decoding defs Double σ)
  | 0, s => return ([], s)
  | count + 1, s => do
      let (value, s) ← readItem reader deSerialize c name type s
      let (values, s) ← readItems name type count s
      return (value :: values, s)

/-- Read a field: its name, and then its item or its list. -/
def readField :
    (field : FieldDef) → Decoding defs Double σ →
      Except ε (FieldValue Double (Option Nat) field × Decoding defs Double σ)
  | .field name type, s => do
      let input ← reader.fieldName c name s.input
      readItem reader deSerialize c name type { s with input }
  | .list name type, s => do
      let input ← reader.fieldName c name s.input
      let (count, input) ← reader.size c name input
      readItems reader deSerialize c name type count.toNat { s with input }

/-- Read the fields of a class, one after the other. -/
def readFields :
    (fields : List FieldDef) → Decoding defs Double σ →
      Except ε (FieldValues Double (Option Nat) fields × Decoding defs Double σ)
  | [], s => return ((), s)
  | field :: fields, s => do
      let (value, s) ← readField reader deSerialize c field s
      let (values, s) ← readFields fields s
      return ((value, values), s)

/-- {lit}`DeSerializeImp` and {lit}`DeSerializationContext::DeSerialize`, with a bound on
the depth of the recursion. -/
def deSerializeImp :
    Nat → Decoding defs Double σ → Except ε (Option Nat × Decoding defs Double σ)
  | 0, _ => throw reader.stackOverflow
  | depth + 1, s => do
      match ← reader.header s.input with
      | (.null, input) => return (none, { s with input })
      | (.back idx, input) => return (reader.getObj s.ctx idx, { s with input })
      | (.className c, input) =>
          let input ← reader.enter c input
          let (values, s') ←
            readFields reader (deSerializeImp depth) c c.cls.allFields (s.create input c)
          return (some s.heap.length,
            s'.complete (reader.leave s.input s'.input) s.heap.length c values)

end Reader

/-! ## Copies of a graph -/

section Copies

variable (graph : Graph defs Double ν)
  (agree : (type : PrimitiveType) → Primitive Double type → Primitive Double type → Prop)

/-- The object at {lit}`i` is complete and holds what {lit}`o` holds. -/
def Restored (ρ : Option ν → Option Nat → Prop) (heap : List (Entry defs Double)) (i : Nat)
    (o : ν) : Prop :=
  ∃ values, heap[i]? = some ⟨(graph.object o).cls, some values⟩ ∧
    FieldValues.Rel ρ agree _ (graph.object o).values values

/-- The objects that can be reached from {lit}`root` are in the heap, each once: the same
classes, agreeing values and the same references. -/
def Corresponds (root : Option ν) (result : Option Nat) (heap : List (Entry defs Double)) :
    Prop :=
  ∃ copy : ν → Nat,
    (∀ o o', graph.Reachable root o → graph.Reachable root o' → copy o = copy o' → o = o') ∧
    result = root.map copy ∧
    ∀ o, graph.Reachable root o →
      Restored graph agree (fun ref obj => obj = ref.map copy) heap (copy o) o

end Copies

/-! ## Reading what was printed -/

/-- Where a value can be read: the value of a field after its name, that of a list after
the size or another value of the list, and a reference everywhere. -/
def ItemExpected (listed : Bool) (type : FieldType) (last : Option (Line defs Double)) : Prop :=
  match listed, type with
  | _, .reference _ => True
  | false, .primitive _ => ∃ name, last = some (.fieldName name)
  | true, .primitive type =>
      (∃ n, last = some (.size n)) ∨ ∃ value, last = some (.item true type value)

/-- The reader reads the lines that are {lit}`Readable`.  {lit}`At last input text` says
that the input stands before {lit}`text` after the line {lit}`last` was read. -/
structure Reads (reader : Reader ε defs Double σ)
    (print : (type : PrimitiveType) → Primitive Double type → Text)
    (Readable : Line defs Double → Prop)
    (At : Option (Line defs Double) → σ → Text → Prop)
    (agree : (type : PrimitiveType) → Primitive Double type → Primitive Double type → Prop) :
    Prop where
  null : ∀ last input text,
    At last input (Line.text print (.null : Line defs Double) ++ '\n' :: text) →
    ∃ input', reader.header input = .ok (.null, input') ∧ At (some .null) input' text
  back : ∀ idx last input text, Readable (.back idx) →
    At last input (Line.text print (.back idx : Line defs Double) ++ '\n' :: text) →
    ∃ input', reader.header input = .ok (.back idx, input') ∧
      At (some (.back idx)) input' text ∧ ∀ ctx, reader.getObj ctx idx = ctx.map idx
  className : ∀ c last input text,
    At last input (Line.text print (.className c : Line defs Double) ++ '\n' :: text) →
    ∃ entering input', reader.header input = .ok (.className c, entering) ∧
      reader.enter c entering = .ok input' ∧ At (some (.className c)) input' text
  leave : ∀ last outer inner text, At last inner text → At last (reader.leave outer inner) text
  fieldName : ∀ c name last input text,
    At last input (Line.text print (.fieldName name : Line defs Double) ++ '\n' :: text) →
    ∃ input', reader.fieldName c name input = .ok input' ∧ At (some (.fieldName name)) input' text
  size : ∀ c name n last input text, Readable (.size n) →
    At last input (Line.text print (.size n : Line defs Double) ++ '\n' :: text) →
    ∃ input', reader.size c name input = .ok ((n : Int), input') ∧ At (some (.size n)) input' text
  item : ∀ c name listed type value last input text, Readable (.item listed type value) →
    ItemExpected listed (.primitive type) last →
    At last input (Line.text print (.item listed type value : Line defs Double) ++ '\n' :: text) →
    ∃ value' input', reader.item c name type input = .ok (value', input') ∧
      agree type value value' ∧ At (some (.item listed type value)) input' text

/-! ## Encoder and decoder in step -/

section InStep

variable (graph : Graph defs Double ν)
  (agree : (type : PrimitiveType) → Primitive Double type → Primitive Double type → Prop)

/-- The objects are created in the order in which they were numbered. -/
def RefersTo (order : List ν) : Option ν → Option Nat → Prop
  | none, obj => obj = none
  | some o, obj => ∃ i : Nat, obj = some i ∧ order[i]? = some o

/-- The decoder has created the objects the encoder has numbered. -/
structure InStep (order : List ν) (s : Decoding defs Double σ) : Prop where
  length : s.heap.length = order.length
  nextIdx : s.ctx.nextIdx = order.length
  map : ∀ i : Nat, i < order.length → s.ctx.map i = some i
  cls : ∀ (i : Nat) o, order[i]? = some o →
    ∃ values, s.heap[i]? = some ⟨(graph.object o).cls, values⟩

/-- The decoder has kept the objects {lit}`order` as they were and built the objects
{lit}`new`. -/
structure Advance (order new : List ν) (s s' : Decoding defs Double σ) : Prop where
  inStep : InStep graph (order ++ new) s'
  kept : ∀ i < order.length, s'.heap[i]? = s.heap[i]?
  restored : ∀ (i : Nat) o, order.length ≤ i → (order ++ new)[i]? = some o →
    Restored graph agree (RefersTo (order ++ new)) s'.heap i o

variable {graph agree}

/-- A reference is to the same address when further objects are met. -/
theorem RefersTo.append {order : List ν} {ref : Option ν} {obj : Option Nat}
    (h : RefersTo order ref obj) (new : List ν) : RefersTo (order ++ new) ref obj := by
  cases ref with
  | none => exact h
  | some o =>
      rcases h with ⟨i, hobj, hi⟩
      have hlt : i < order.length := (List.getElem?_eq_some_iff.mp hi).1
      exact ⟨i, hobj, by rwa [List.getElem?_append_left hlt]⟩

/-- A complete object remains one when further objects are met. -/
theorem Restored.append {order : List ν} {heap heap' : List (Entry defs Double)} {i : Nat} {o : ν}
    (h : Restored graph agree (RefersTo order) heap i o) (hheap : heap'[i]? = heap[i]?)
    (new : List ν) : Restored graph agree (RefersTo (order ++ new)) heap' i o := by
  rcases h with ⟨values, hentry, hrel⟩
  exact ⟨values, hheap.trans hentry,
    hrel.mono (fun _ _ href => href.append new) (fun _ _ _ hagree => hagree)⟩

/-- Before anything was read, no object was met. -/
theorem InStep.start (input : σ) :
    InStep graph [] (Decoding.start input : Decoding defs Double σ) :=
  ⟨rfl, rfl, by simp, by simp⟩

/-- Reading further text changes no object. -/
theorem InStep.congr {order : List ν} {s s' : Decoding defs Double σ} (h : InStep graph order s)
    (hctx : s'.ctx = s.ctx) (hheap : s'.heap = s.heap) : InStep graph order s' :=
  ⟨hheap ▸ h.length, hctx ▸ h.nextIdx, hctx ▸ h.map, hheap ▸ h.cls⟩

/-- Only the input has changed. -/
theorem InStep.advance {order : List ν} {s s' : Decoding defs Double σ}
    (h : InStep graph order s) (hctx : s'.ctx = s.ctx) (hheap : s'.heap = s.heap) :
    Advance graph agree order [] s s' := by
  constructor
  case inStep =>
    rw [List.append_nil]
    exact h.congr hctx hheap
  case kept =>
    intro i _
    rw [hheap]
  case restored =>
    intro i o hi ho
    rw [List.append_nil, List.getElem?_eq_none hi] at ho
    cases ho

/-- Two steps one after the other are one step. -/
theorem Advance.trans {order new new' : List ν} {s s' s'' : Decoding defs Double σ}
    (h : Advance graph agree order new s s') (h' : Advance graph agree (order ++ new) new' s' s'') :
    Advance graph agree order (new ++ new') s s'' := by
  have hassoc : order ++ (new ++ new') = order ++ new ++ new' := by rw [List.append_assoc]
  constructor
  case inStep =>
    rw [hassoc]
    exact h'.inStep
  case kept =>
    intro i hi
    rw [h'.kept i (by simp only [List.length_append]; omega), h.kept i hi]
  case restored =>
    intro i o hi ho
    rw [hassoc] at ho ⊢
    by_cases hlt : i < (order ++ new).length
    · rw [List.getElem?_append_left hlt] at ho
      exact (h.restored i o hi ho).append (h'.kept i hlt) new'
    · exact h'.restored i o (by omega) ho

/-- A new object is created for the object that is numbered next. -/
theorem InStep.create {order : List ν} {s : Decoding defs Double σ} (h : InStep graph order s)
    (input : σ) (o : ν) : InStep graph (order ++ [o]) (s.create input (graph.object o).cls) := by
  constructor
  case length =>
    simp [Decoding.create, h.length]
  case nextIdx =>
    simp [Decoding.create, DeSerializationContext.addObject, h.nextIdx]
  case map =>
    intro i hi
    simp only [List.length_append, List.length_singleton] at hi
    simp only [Decoding.create, DeSerializationContext.addObject, h.nextIdx, h.length]
    by_cases hlast : i = order.length
    · simp [hlast]
    · rw [if_neg (by omega), h.map i (by omega)]
  case cls =>
    intro i target hi
    simp only [Decoding.create]
    by_cases hlt : i < order.length
    · rw [List.getElem?_append_left hlt] at hi
      rw [List.getElem?_append_left (by rw [h.length]; exact hlt)]
      exact h.cls i target hi
    · have hbound := (List.getElem?_eq_some_iff.mp hi).1
      simp only [List.length_append, List.length_singleton] at hbound
      obtain rfl : i = order.length := by omega
      obtain rfl : o = target := by simpa using hi
      exact ⟨none, by simp [← h.length]⟩

/-- The object that was created is complete once its fields are read. -/
theorem Advance.complete {order new : List ν} {o : ν} {s s' : Decoding defs Double σ}
    {entered left : σ} (hs : InStep graph order s)
    (h : Advance graph agree (order ++ [o]) new (s.create entered (graph.object o).cls) s')
    {values : FieldValues Double (Option Nat) (graph.object o).cls.cls.allFields}
    (hrel : FieldValues.Rel (RefersTo (order ++ [o] ++ new)) agree _ (graph.object o).values
      values) :
    Advance graph agree order (o :: new) s
      (s'.complete left s.heap.length (graph.object o).cls values) := by
  have hassoc : order ++ o :: new = order ++ [o] ++ new := by simp
  have hself : (order ++ [o] ++ new)[order.length]? = some o := by simp
  have hlength : order.length < s'.heap.length := by
    rw [h.inStep.length]
    simp only [List.length_append, List.length_singleton]
    omega
  refine ⟨?_, ?_, ?_⟩
  · rw [hassoc]
    refine ⟨?_, h.inStep.nextIdx, h.inStep.map, ?_⟩
    · simp [Decoding.complete, h.inStep.length]
    · intro i target hi
      simp only [Decoding.complete, hs.length]
      by_cases hsame : order.length = i
      · subst hsame
        rw [hself] at hi
        obtain rfl := Option.some.inj hi
        exact ⟨some values, List.getElem?_set_self hlength⟩
      · rw [List.getElem?_set_ne hsame]
        exact h.inStep.cls i target hi
  · intro i hi
    simp only [Decoding.complete, hs.length]
    rw [List.getElem?_set_ne (by omega), h.kept i (by simp only [List.length_append]; omega)]
    simp only [Decoding.create]
    rw [List.getElem?_append_left (by rw [hs.length]; exact hi)]
  · intro i target hi htarget
    rw [hassoc] at htarget ⊢
    by_cases hsame : order.length = i
    · subst hsame
      rw [hself] at htarget
      obtain rfl := Option.some.inj htarget
      refine ⟨values, ?_, hrel⟩
      simp only [Decoding.complete, hs.length]
      exact List.getElem?_set_self hlength
    · have hrestored := h.restored i target
        (by simp only [List.length_append, List.length_singleton]; omega) htarget
      rcases hrestored with ⟨held, hentry, hheld⟩
      refine ⟨held, ?_, hheld⟩
      simp only [Decoding.complete, hs.length]
      rw [List.getElem?_set_ne hsame]
      exact hentry

end InStep

/-! ## Decoding undoes encoding -/

/-- The line that was read last when these lines have been read. -/
def lastOf (last : Option (Line defs Double)) (lines : List (Line defs Double)) :
    Option (Line defs Double) :=
  lines.getLast?.or last

/-- The last line of two lists of lines. -/
theorem lastOf_append (last : Option (Line defs Double)) (front back : List (Line defs Double)) :
    lastOf last (front ++ back) = lastOf (lastOf last front) back := by
  simp [lastOf, List.getLast?_append, Option.or_assoc]

/-- The last line of a list that begins with a line. -/
theorem lastOf_cons (last : Option (Line defs Double)) (line : Line defs Double)
    (lines : List (Line defs Double)) :
    lastOf last (line :: lines) = lastOf (some line) lines :=
  lastOf_append last [line] lines

section Undo

variable (graph : Graph defs Double ν)
  (agree : (type : PrimitiveType) → Primitive Double type → Primitive Double type → Prop)
  (print : (type : PrimitiveType) → Primitive Double type → Text)
  (Readable : Line defs Double → Prop) (At : Option (Line defs Double) → σ → Text → Prop)

/-- The decoder ends before {lit}`text`, in step with an encoder that ends with
{lit}`ctx'`. -/
def Restores (order : List ν) (ctx' : SerializationContext ν) (s : Decoding defs Double σ)
    (last : Option (Line defs Double)) (text : Text)
    (outcome : Except ε (α × Decoding defs Double σ)) (Q : List ν → α → Prop) : Prop :=
  ∃ a s' new, outcome = .ok (a, s') ∧ Numbers ctx' (order ++ new) ∧
    Advance graph agree order new s s' ∧ At last s'.input text ∧ Q (order ++ new) a

/-- After a line with {lit}`P`, the decoder reads what the encoder writes, if that is not
more than {lit}`limit` lines. -/
def Undoes (limit : Nat)
    (encode : SerializationContext ν →
      Option (List (Line defs Double) × SerializationContext ν))
    (P : Option (Line defs Double) → Prop)
    (decode : Decoding defs Double σ → Except ε (α × Decoding defs Double σ))
    (Q : List ν → α → Prop) : Prop :=
  ∀ ctx lines ctx' order s last text, Numbers ctx order → InStep graph order s →
    encode ctx = some (lines, ctx') → (∀ line ∈ lines, Readable line) → lines.length ≤ limit →
    P last → At last s.input (render print lines ++ text) →
    Restores graph agree At order ctx' s (lastOf last lines) text (decode s) Q

variable {graph agree print Readable At} {limit : Nat}
  {serialize : Option ν → SerializationContext ν →
    Option (List (Line defs Double) × SerializationContext ν)}
  {parts parts' : List (Part defs Double (Option ν))} {P P' : Option (Line defs Double) → Prop}

/-- One line is read before the rest. -/
theorem Undoes.line {line : Line defs Double}
    {decode rest : Decoding defs Double σ → Except ε (α × Decoding defs Double σ)}
    {Q : List ν → α → Prop}
    (hread : ∀ s last text, Readable line → P last →
      At last s.input (line.text print ++ '\n' :: text) →
      ∃ input', decode s = rest { s with input := input' } ∧ At (some line) input' text)
    (h : Undoes graph agree print Readable At limit (serializeParts serialize parts) P' rest Q)
    (hP : P' (some line)) :
    Undoes graph agree print Readable At limit (serializeParts serialize (.line line :: parts)) P
      decode Q := by
  intro ctx lines ctx' order s last text hnumbers hstep hencode hreadable hlength hlast hat
  rcases serializeParts_line hencode with ⟨back, hback, rfl⟩
  rw [render_cons, List.append_assoc, List.cons_append] at hat
  rcases hread s last _ (hreadable line (List.mem_cons_self ..)) hlast hat with
    ⟨input', heq, hat'⟩
  rcases h ctx back ctx' order { s with input := input' } (some line) text hnumbers
      (hstep.congr rfl rfl) hback
      (fun later hlater => hreadable later (List.mem_cons_of_mem _ hlater))
      (by simp only [List.length_cons] at hlength; omega) hP hat' with
    ⟨a, s', new, hrest, hnumbers', hadvance, hat'', ha⟩
  refine ⟨a, s', new, heq.trans hrest, hnumbers', ?_, ?_, ha⟩
  · exact ⟨hadvance.inStep, hadvance.kept, hadvance.restored⟩
  · rwa [lastOf_cons]

/-- Two decoders undo two encoders one after the other. -/
theorem Undoes.seq {γ : Type}
    {decode : Decoding defs Double σ → Except ε (α × Decoding defs Double σ)}
    {decode' : Decoding defs Double σ → Except ε (β × Decoding defs Double σ)}
    {Q : List ν → α → Prop} {Q' : List ν → β → Prop} (f : α → β → γ)
    (h : Undoes graph agree print Readable At limit (serializeParts serialize parts) P decode Q)
    (hlast : ∀ ctx lines ctx' last, serializeParts serialize parts ctx = some (lines, ctx') →
      P last → P' (lastOf last lines))
    (hmono : ∀ order new a, Q order a → Q (order ++ new) a)
    (h' : Undoes graph agree print Readable At limit (serializeParts serialize parts') P' decode'
      Q') :
    Undoes graph agree print Readable At limit (serializeParts serialize (parts ++ parts')) P
      (fun s => do
        let (a, s) ← decode s
        let (b, s) ← decode' s
        return (f a b, s))
      (fun order c => ∃ a b, c = f a b ∧ Q order a ∧ Q' order b) := by
  intro ctx lines ctx' order s last text hnumbers hstep hencode hreadable hlength hP hat
  rcases serializeParts_append hencode with ⟨front, mid, back, hfront, hback, rfl⟩
  rw [List.length_append] at hlength
  rw [render_append, List.append_assoc] at hat
  rcases h ctx front mid order s last _ hnumbers hstep hfront
      (fun line hline => hreadable line (List.mem_append_left _ hline)) (by omega) hP hat with
    ⟨a, s', new, hdecode, hmid, hadvance, hat', ha⟩
  rcases h' mid back ctx' (order ++ new) s' (lastOf last front) text hmid hadvance.inStep hback
      (fun line hline => hreadable line (List.mem_append_right _ hline)) (by omega)
      (hlast ctx front mid last hfront hP) hat' with
    ⟨b, s'', new', hdecode', hnumbers', hadvance', hat'', hb⟩
  refine ⟨f a b, s'', new ++ new', ?_, ?_, hadvance.trans hadvance', ?_, a, b, rfl, ?_, ?_⟩
  · simp only [hdecode, bind, Except.bind, hdecode']
    rfl
  · rwa [← List.append_assoc]
  · rwa [lastOf_append]
  · rw [← List.append_assoc]
    exact hmono _ new' a ha
  · rwa [← List.append_assoc]

/-- A decoder that reads nothing undoes that nothing was written. -/
theorem Undoes.nil {decode : Decoding defs Double σ → Except ε (α × Decoding defs Double σ)}
    {Q : List ν → α → Prop} {a : α} (hdecode : ∀ s, decode s = .ok (a, s))
    (ha : ∀ order, Q order a) :
    Undoes graph agree print Readable At limit (serializeParts serialize []) P decode Q := by
  intro ctx lines ctx' order s last text hnumbers hstep hencode _ _ _ hat
  obtain ⟨rfl, rfl⟩ := Prod.mk.inj (Option.some.inj hencode)
  exact ⟨a, s, [], hdecode s, by rwa [List.append_nil], hstep.advance rfl rfl, hat, ha _⟩

/-- More can be asked of the last line, and less said about the value. -/
theorem Undoes.mono {decode : Decoding defs Double σ → Except ε (α × Decoding defs Double σ)}
    {encode : SerializationContext ν →
      Option (List (Line defs Double) × SerializationContext ν)}
    {Q Q' : List ν → α → Prop}
    (h : Undoes graph agree print Readable At limit encode P decode Q)
    (hP : ∀ last, P' last → P last) (hQ : ∀ order a, Q order a → Q' order a) :
    Undoes graph agree print Readable At limit encode P' decode Q' := by
  intro ctx lines ctx' order s last text hnumbers hstep hencode hreadable hlength hlast hat
  rcases h ctx lines ctx' order s last text hnumbers hstep hencode hreadable hlength
      (hP last hlast) hat with
    ⟨a, s', new, hdecode, hnumbers', hadvance, hat', ha⟩
  exact ⟨a, s', new, hdecode, hnumbers', hadvance, hat', hQ _ a ha⟩

end Undo

/-! ## Fields -/

section Fields

variable {graph : Graph defs Double ν}
  {agree : (type : PrimitiveType) → Primitive Double type → Primitive Double type → Prop}
  {print : (type : PrimitiveType) → Primitive Double type → Text}
  {Readable : Line defs Double → Prop} {At : Option (Line defs Double) → σ → Text → Prop}
  {reader : Reader ε defs Double σ} {limit : Nat}
  {serialize : Option ν → SerializationContext ν →
    Option (List (Line defs Double) × SerializationContext ν)}
  {deSerialize : Decoding defs Double σ → Except ε (Option Nat × Decoding defs Double σ)}

/-- A reference to an object of a fitting class is not refused. -/
theorem InStep.canCast {order : List ν} {s : Decoding defs Double σ} (h : InStep graph order s)
    {type : Identifier} {ref : Option ν} {obj : Option Nat} (hobj : RefersTo order ref obj)
    (htyped : ∀ o, ref = some o → (graph.object o).cls.cls.isA type = true) :
    s.canCast type obj = true := by
  cases ref with
  | none =>
      obtain rfl : obj = none := hobj
      rfl
  | some o =>
      rcases hobj with ⟨i, rfl, hi⟩
      rcases h.cls i o hi with ⟨values, hentry⟩
      simp [Decoding.canCast, hentry, htyped o rfl]

/-- An item is read as it was written. -/
theorem Reads.readItem (h : Reads reader print Readable At agree)
    (hserialize : ∀ ref, Undoes graph agree print Readable At limit (serialize ref)
      (fun _ => True) deSerialize (fun order => RefersTo order ref))
    (c : ConcreteClass defs) (name : Identifier) (listed : Bool) (type : FieldType)
    (value : Item Double (Option ν) type)
    (htyped : ∀ t o, (t, some o) ∈ Item.refs type value →
      (graph.object o).cls.cls.isA t = true) :
    Undoes graph agree print Readable At limit
      (serializeParts serialize [Item.part listed type value]) (ItemExpected listed type)
      (reader.readItem deSerialize c name type)
      (fun order => Item.Rel (RefersTo order) agree type value) := by
  intro ctx lines ctx' order s last text hnumbers hstep hencode hreadable hlength hlast hat
  cases type with
  | primitive type =>
      rcases serializeParts_line hencode with ⟨back, hback, rfl⟩
      obtain ⟨rfl, rfl⟩ := Prod.mk.inj (Option.some.inj hback)
      rw [render_cons, List.append_assoc, List.cons_append] at hat
      rcases h.item c name listed type value last s.input text
          (hreadable _ (List.mem_cons_self ..)) hlast hat with
        ⟨value', input', hitem, hagree, hat'⟩
      refine ⟨value', { s with input := input' }, [], ?_, by rwa [List.append_nil],
        hstep.advance rfl rfl, hat', hagree⟩
      simp only [Reader.readItem, hitem]
      rfl
  | reference type =>
      rcases serializeParts_ref hencode with ⟨front, mid, back, hfront, hback, rfl⟩
      obtain ⟨rfl, rfl⟩ := Prod.mk.inj (Option.some.inj hback)
      rw [List.append_nil] at hreadable hlength hat ⊢
      rcases hserialize value ctx front mid order s last text hnumbers hstep hfront hreadable
          hlength trivial hat with
        ⟨obj, s', new, hdecode, hnumbers', hadvance, hat', hobj⟩
      have hcast : s'.canCast type obj = true := by
        apply hadvance.inStep.canCast hobj
        rintro o rfl
        exact htyped type o (List.mem_cons_self ..)
      refine ⟨obj, s', new, ?_, hnumbers', hadvance, hat', hobj⟩
      simp only [Reader.readItem, hdecode, bind, Except.bind, hcast]
      cases reader.castException with
      | none => rfl
      | some e => rfl

/-- After an element of a list the next one can be read. -/
theorem itemExpected_lastOf {type : FieldType} {value : Item Double (Option ν) type}
    {ctx ctx' : SerializationContext ν} {lines : List (Line defs Double)}
    (last : Option (Line defs Double))
    (h : serializeParts serialize [Item.part true type value] ctx = some (lines, ctx')) :
    ItemExpected true type (lastOf last lines) := by
  cases type with
  | primitive type =>
      rcases serializeParts_line h with ⟨back, hback, rfl⟩
      obtain ⟨rfl, rfl⟩ := Prod.mk.inj (Option.some.inj hback)
      exact Or.inr ⟨value, rfl⟩
  | reference type => trivial

/-- An item is a copy of another when further objects are met as well. -/
theorem Item.Rel.append {order : List ν} {type : FieldType} {value : Item Double (Option ν) type}
    {value' : Item Double (Option Nat) type}
    (h : Item.Rel (RefersTo order) agree type value value') (new : List ν) :
    Item.Rel (RefersTo (order ++ new)) agree type value value' :=
  h.mono (fun _ _ href => href.append new) (fun _ _ _ hagree => hagree)

/-- The items of a list are read as they were written. -/
theorem Reads.readItems (h : Reads reader print Readable At agree)
    (hserialize : ∀ ref, Undoes graph agree print Readable At limit (serialize ref)
      (fun _ => True) deSerialize (fun order => RefersTo order ref))
    (c : ConcreteClass defs) (name : Identifier) (type : FieldType)
    (values : List (Item Double (Option ν) type))
    (htyped : ∀ t o, (t, some o) ∈ values.flatMap (Item.refs type) →
      (graph.object o).cls.cls.isA t = true) :
    Undoes graph agree print Readable At limit
      (serializeParts serialize (values.map (Item.part true type))) (ItemExpected true type)
      (reader.readItems deSerialize c name type values.length)
      (fun order => List.Forall₂ (Item.Rel (RefersTo order) agree type) values) := by
  induction values with
  | nil => exact Undoes.nil (fun _ => rfl) (fun _ => .nil)
  | cons value values ih =>
      have hfirst := h.readItem hserialize c name true type value
        (fun t o hmem => htyped t o (List.mem_flatMap.mpr ⟨value, List.mem_cons_self .., hmem⟩))
      have hrest := ih fun t o hmem => htyped t o (by
        rw [List.flatMap_cons]
        exact List.mem_append_right _ hmem)
      have hboth := hfirst.seq List.cons (fun _ _ _ last hencode _ =>
        itemExpected_lastOf last hencode) (fun _ new _ hrel => hrel.append new) hrest
      apply hboth.mono (fun _ hlast => hlast)
      rintro order all ⟨value', values', rfl, hvalue, hvalues⟩
      exact .cons hvalue hvalues

/-- A field is read as it was written. -/
theorem Reads.readField (h : Reads reader print Readable At agree)
    (hserialize : ∀ ref, Undoes graph agree print Readable At limit (serialize ref)
      (fun _ => True) deSerialize (fun order => RefersTo order ref))
    (c : ConcreteClass defs) (field : FieldDef) (value : FieldValue Double (Option ν) field)
    (htyped : ∀ t o, (t, some o) ∈ FieldValue.refs field value →
      (graph.object o).cls.cls.isA t = true) :
    Undoes graph agree print Readable At limit
      (serializeParts serialize (FieldValue.parts field value)) (fun _ => True)
      (reader.readField deSerialize c field)
      (fun order => FieldValue.Rel (RefersTo order) agree field value) := by
  cases field with
  | field name type =>
      have hitem := h.readItem hserialize c name false type value htyped
      refine Undoes.line ?_ hitem ?_
      · intro s last text _ _ hat
        rcases h.fieldName c name last s.input text hat with ⟨input', hread, hat'⟩
        refine ⟨input', ?_, hat'⟩
        simp only [Reader.readField, hread]
        rfl
      · cases type with
        | primitive type => exact ⟨name, rfl⟩
        | reference type => trivial
  | list name type =>
      have hitems := h.readItems hserialize c name type value htyped
      have hsize : Undoes graph agree print Readable At limit
          (serializeParts serialize
            (.line (.size (List.length value)) :: List.map (Item.part true type) value))
          (fun _ => True)
          (fun s => do
            let (count, input) ← reader.size c name s.input
            reader.readItems deSerialize c name type count.toNat { s with input })
          (fun order => FieldValue.Rel (RefersTo order) agree (.list name type) value) := by
        refine Undoes.line ?_ hitems ?_
        · intro s last text hreadable _ hat
          rcases h.size c name _ last s.input text hreadable hat with ⟨input', hread, hat'⟩
          refine ⟨input', ?_, hat'⟩
          simp only [hread]
          rfl
        · cases type with
          | primitive type => exact Or.inl ⟨_, rfl⟩
          | reference type => trivial
      refine Undoes.line ?_ hsize trivial
      intro s last text _ _ hat
      rcases h.fieldName c name last s.input text hat with ⟨input', hread, hat'⟩
      refine ⟨input', ?_, hat'⟩
      simp only [Reader.readField, hread]
      rfl

/-- The fields of a class are read as they were written. -/
theorem Reads.readFields (h : Reads reader print Readable At agree)
    (hserialize : ∀ ref, Undoes graph agree print Readable At limit (serialize ref)
      (fun _ => True) deSerialize (fun order => RefersTo order ref))
    (c : ConcreteClass defs) (fields : List FieldDef)
    (values : FieldValues Double (Option ν) fields)
    (htyped : ∀ t o, (t, some o) ∈ FieldValues.refs fields values →
      (graph.object o).cls.cls.isA t = true) :
    Undoes graph agree print Readable At limit
      (serializeParts serialize (FieldValues.parts fields values)) (fun _ => True)
      (reader.readFields deSerialize c fields)
      (fun order => FieldValues.Rel (RefersTo order) agree fields values) := by
  induction fields with
  | nil => exact Undoes.nil (fun _ => rfl) (fun _ => trivial)
  | cons field fields ih =>
      have hfirst := h.readField hserialize c field values.1
        (fun t o hmem => htyped t o (List.mem_append_left _ hmem))
      have hrest := ih values.2 (fun t o hmem => htyped t o (List.mem_append_right _ hmem))
      have hboth := hfirst.seq Prod.mk (fun _ _ _ _ _ _ => trivial)
        (fun order new value hrel => FieldValue.Rel.mono (fun _ _ href => href.append new)
          (fun _ _ _ hagree => hagree) hrel) hrest
      apply hboth.mono (fun _ hlast => hlast)
      rintro order all ⟨value', values', rfl, hvalue, hvalues⟩
      exact ⟨hvalue, hvalues⟩

end Fields

/-! ## Graphs -/

section Graphs

variable [DecidableEq ν] {graph : Graph defs Double ν}
  {agree : (type : PrimitiveType) → Primitive Double type → Primitive Double type → Prop}
  {print : (type : PrimitiveType) → Primitive Double type → Text}
  {Readable : Line defs Double → Prop} {At : Option (Line defs Double) → σ → Text → Prop}
  {reader : Reader ε defs Double σ}

/-- The lines of a reference are read by a decoder that may recurse as deep as there are
lines. -/
theorem Reads.deSerializeImp_serializeImp (h : Reads reader print Readable At agree)
    (depth : Nat) (ref : Option ν) (limit : Nat) :
    Undoes graph agree print Readable At limit (graph.serializeImp depth ref) (fun _ => True)
      (reader.deSerializeImp limit) (fun order => RefersTo order ref) := by
  induction depth generalizing ref limit with
  | zero =>
      intro ctx lines ctx' order s last text _ _ hencode
      simp [Graph.serializeImp] at hencode
  | succ depth ih =>
      intro ctx lines ctx' order s last text hnumbers hstep hencode hreadable hlength _ hat
      rcases graph.serializeImp_cases hencode with
        ⟨rfl, rfl, rfl⟩ | ⟨o, idx, rfl, hmap, rfl, rfl⟩ |
          ⟨o, depth', inner, rfl, hnew, hdepth, rfl, hinner⟩
      · obtain ⟨limit, rfl⟩ : ∃ n, limit = n + 1 :=
          ⟨limit - 1, by simp only [List.length_singleton] at hlength; omega⟩
        rw [render_cons, List.append_assoc, List.cons_append] at hat
        rcases h.null last s.input text hat with ⟨input', hread, hat'⟩
        refine ⟨none, { s with input := input' }, [], ?_, by rwa [List.append_nil],
          hstep.advance rfl rfl, hat', rfl⟩
        simp only [Reader.deSerializeImp, hread]
        rfl
      · obtain ⟨limit, rfl⟩ : ∃ n, limit = n + 1 :=
          ⟨limit - 1, by simp only [List.length_singleton] at hlength; omega⟩
        rw [render_cons, List.append_assoc, List.cons_append] at hat
        rcases h.back idx last s.input text (hreadable _ (List.mem_cons_self ..)) hat with
          ⟨input', hread, hat', hget⟩
        -- the number of {lit}`o` is that of the object created for it
        have hidx := (hnumbers.map_iff o idx).mp hmap
        have hobj := hstep.map idx (List.getElem?_eq_some_iff.mp hidx).1
        refine ⟨some idx, { s with input := input' }, [], ?_, by rwa [List.append_nil],
          hstep.advance rfl rfl, hat', idx, rfl, by rwa [List.append_nil]⟩
        simp only [Reader.deSerializeImp, hread, bind, Except.bind, hget, hobj]
        rfl
      · obtain rfl : depth = depth' := by omega
        obtain ⟨limit, rfl⟩ : ∃ n, limit = n + 1 :=
          ⟨limit - 1, by simp only [List.length_cons] at hlength; omega⟩
        rw [render_cons, List.append_assoc, List.cons_append] at hat
        rcases h.className _ last s.input _ hat with ⟨entering, input', hread, henter, hat'⟩
        have hfields := h.readFields (fun ref => ih ref limit) (graph.object o).cls
          (graph.object o).cls.cls.allFields (graph.object o).values (graph.typed o)
        rcases hfields (ctx.addObject o) inner ctx' (order ++ [o])
            (s.create input' (graph.object o).cls) _ text (hnumbers.addObject hnew)
            (hstep.create input' o) hinner
            (fun line hline => hreadable line (List.mem_cons_of_mem _ hline))
            (by simp only [List.length_cons] at hlength; omega) trivial hat' with
          ⟨values, s', new, hdecode, hnumbers', hadvance, hat'', hvalues⟩
        refine ⟨some s.heap.length,
          s'.complete (reader.leave s.input s'.input) s.heap.length (graph.object o).cls values,
          o :: new, ?_, ?_, hadvance.complete hstep hvalues, ?_, ?_⟩
        · simp only [Reader.deSerializeImp, hread, bind, Except.bind, henter, hdecode]
          rfl
        · rwa [List.append_assoc] at hnumbers'
        · rw [lastOf_cons]
          exact h.leave _ _ _ _ hat''
        · exact ⟨order.length, by rw [hstep.length], by simp⟩

/-- The objects that were built are a copy of the graph. -/
theorem Advance.corresponds {new : List ν} {s s' : Decoding defs Double σ} {root : Option ν}
    {result : Option Nat} (h : Advance graph agree [] new s s') (hnodup : new.Nodup)
    (hresult : RefersTo new root result) : Corresponds graph agree root result s'.heap := by
  have hcopy : ∀ ref obj, RefersTo new ref obj → obj = ref.map fun o => new.idxOf o := by
    intro ref obj href
    cases ref with
    | none => exact href
    | some o =>
        rcases href with ⟨i, rfl, hi⟩
        rcases List.getElem?_eq_some_iff.mp hi with ⟨hlt, rfl⟩
        simp [hnodup.idxOf_getElem i hlt]
  have hrestored : ∀ o ∈ new, Restored graph agree (RefersTo new) s'.heap (new.idxOf o) o :=
    fun o ho => h.restored _ o (Nat.zero_le _) (List.getElem?_idxOf ho)
  have hmem : ∀ o, graph.Reachable root o → o ∈ new := by
    intro o ho
    induction ho with
    | root hroot =>
        subst hroot
        rcases hresult with ⟨i, -, hi⟩
        exact List.mem_of_getElem? hi
    | @held o target _ hheld ih =>
        rcases hrestored o ih with ⟨values, -, hrel⟩
        have hrefs := FieldValues.rel_refs hrel
        rcases List.mem_filterMap.mp hheld with ⟨⟨type, ref⟩, hmem, rfl⟩
        rcases exists_related_of_mem hrefs hmem with ⟨r', -, -, i, -, hi⟩
        exact List.mem_of_getElem? hi
  refine ⟨fun o => new.idxOf o, ?_, hcopy root result hresult, ?_⟩
  · intro o o' ho ho' heq
    exact (List.idxOf_inj (hmem o ho)).mp heq
  · intro o ho
    rcases hrestored o (hmem o ho) with ⟨values, hentry, hrel⟩
    exact ⟨values, hentry, hrel.mono hcopy (fun _ _ _ hagree => hagree)⟩

/-- From the lines of a graph, a reader that reads them all builds a copy of the graph. -/
theorem Reads.corresponds (h : Reads reader print Readable At agree) {depth limit : Nat}
    {root : Option ν} {lines : List (Line defs Double)} {ctx' : SerializationContext ν}
    (hencode : graph.serializeImp depth root .empty = some (lines, ctx'))
    (hreadable : ∀ line ∈ lines, Readable line) (hlimit : lines.length ≤ limit) {input : σ}
    (hat : At none input (render print lines)) :
    ∃ result s', reader.deSerializeImp limit (Decoding.start input) = .ok (result, s') ∧
      At lines.getLast? s'.input [] ∧ Corresponds graph agree root result s'.heap := by
  rw [← List.append_nil (render print lines)] at hat
  rcases h.deSerializeImp_serializeImp depth root limit .empty lines ctx' []
      (Decoding.start input) none [] numbers_empty (InStep.start input) hencode hreadable hlimit
      trivial hat with
    ⟨result, s', new, hdecode, hnumbers, hadvance, hat', hresult⟩
  refine ⟨result, s', hdecode, ?_, hadvance.corresponds hnumbers.nodup hresult⟩
  rwa [lastOf, Option.or_none] at hat'

end Graphs

end SharedEntities
end Roofline
