import Roofline.SharedEntities.Trees

/-!
# Readers that misread lines

A reader may take a value for another one and go on.  A line it misreads can only be noticed
in the objects it builds: if these are a copy of the graph in spite of it, no line of the
graph was misread.

Main results:

- Theorem {lit}`Grows.kept`: the objects that are complete stay as they are.
- Theorem {lit}`Reads.readable_of_corresponds`: a copy is built only from readable lines.
-/

namespace Roofline
namespace SharedEntities

open Programs (bind_eq_ok)

variable {ε : Type} {defs : Definitions} {Double σ ν α β : Type}

/-! ## Completed objects -/

/-- The objects that are complete stay as they are. -/
def Kept (heap heap' : List (Entry defs Double)) : Prop :=
  ∀ (i : Nat) c values, heap[i]? = some ⟨c, some values⟩ → heap'[i]? = some ⟨c, some values⟩

/-- What is kept by two steps is kept by both together. -/
theorem Kept.trans {heap heap' heap'' : List (Entry defs Double)} (h : Kept heap heap')
    (h' : Kept heap' heap'') : Kept heap heap'' :=
  fun i c values hi => h' i c values (h i c values hi)

/-- Adding objects changes none that is complete. -/
theorem Grows.kept {s s' : Decoding defs Double σ} {targets : List Nat}
    (h : Grows s s' targets) : Kept s.heap s'.heap := by
  rcases h with ⟨new, hheap, -, -⟩
  intro i c values hi
  rw [hheap, List.getElem?_append_left (List.getElem?_eq_some_iff.mp hi).1, hi]

/-- An object that was created is complete once its fields are read. -/
theorem Grows.getElem?_complete {s s' : Decoding defs Double σ} {targets : List Nat}
    {entered left : σ} {c : ConcreteClass defs}
    (h : Grows (s.create entered c) s' targets)
    (values : FieldValues Double (Option Nat) c.cls.allFields) :
    (s'.complete left s.heap.length c values).heap[s.heap.length]? = some ⟨c, some values⟩ := by
  rcases h with ⟨new, hheap, -, -⟩
  have hlength : s.heap.length < s'.heap.length := by
    rw [hheap]
    simp only [Decoding.create, List.length_append, List.length_singleton]
    omega
  exact List.getElem?_set_self hlength

/-- Completing the object that was created leaves the other ones. -/
theorem Grows.kept_complete {s s' : Decoding defs Double σ} {targets : List Nat}
    {entered left : σ} {c : ConcreteClass defs}
    (h : Grows (s.create entered c) s' targets)
    (values : FieldValues Double (Option Nat) c.cls.allFields) :
    Kept s'.heap (s'.complete left s.heap.length c values).heap := by
  intro i c' values' hi
  have hne : s.heap.length ≠ i := by
    rintro rfl
    rcases h with ⟨new, hheap, -, -⟩
    rw [hheap, List.getElem?_append_left (by simp [Decoding.create])] at hi
    have hnew : (s.create entered c).heap[s.heap.length]? = some ⟨c, none⟩ := by
      simp [Decoding.create]
    rw [hnew] at hi
    cases hi
  simp only [Decoding.complete]
  rw [List.getElem?_set_ne hne, hi]

/-! ## Copies show that nothing was misread -/

section Faithful

variable (graph : Graph defs Double ν)
  (agree : (type : PrimitiveType) → Primitive Double type → Primitive Double type → Prop)
  (print : (type : PrimitiveType) → Primitive Double type → Text)
  (Readable Misread : Line defs Double → Prop)
  (At : Option (Line defs Double) → σ → Text → Prop)
  (heap : List (Entry defs Double))

/-- After a line with {lit}`P`, a decoder which ends with a value in {lit}`Good` and with
objects that are kept has read only lines that are readable. -/
def Faithful (limit : Nat)
    (encode : SerializationContext ν →
      Option (List (Line defs Double) × SerializationContext ν))
    (P : Option (Line defs Double) → Prop)
    (decode : Decoding defs Double σ → Except ε (α × Decoding defs Double σ))
    (Good : α → Prop) : Prop :=
  ∀ ctx lines ctx' order s last text, Numbers ctx order → InStep graph order s →
    encode ctx = some (lines, ctx') → (∀ line ∈ lines, Readable line ∨ Misread line) →
    lines.length ≤ limit → P last → At last s.input (render print lines ++ text) →
    ∀ a s', decode s = .ok (a, s') → Kept s'.heap heap → Good a →
    ∀ line ∈ lines, Readable line

/-- The reader takes the values on the misread lines for other ones. -/
def Misreads (reader : Reader ε defs Double σ) : Prop :=
  ∀ line, Misread line → ∃ listed type value, line = .item listed type value ∧
    ∀ c name last input text value' input', ItemExpected listed (.primitive type) last →
      At last input (line.text print ++ '\n' :: text) →
      reader.item c name type input = .ok (value', input') → ¬agree type value value'

variable {graph agree print Readable Misread At heap} {limit : Nat}
  {serialize : Option ν → SerializationContext ν →
    Option (List (Line defs Double) × SerializationContext ν)}
  {parts parts' : List (Part defs Double (Option ν))} {P P' : Option (Line defs Double) → Prop}

/-- Where nothing was written, nothing was misread. -/
theorem Faithful.nil {decode : Decoding defs Double σ → Except ε (α × Decoding defs Double σ)}
    {Good : α → Prop} :
    Faithful graph print Readable Misread At heap limit (serializeParts serialize []) P decode
      Good := by
  intro ctx lines ctx' order s last text _ _ hencode _ _ _ _ a s' _ _ _ line hline
  obtain ⟨rfl, -⟩ := Prod.mk.inj (Option.some.inj hencode)
  cases hline

/-- A line that cannot be misread goes before the rest. -/
theorem Faithful.line {line : Line defs Double} (hnot : ¬Misread line)
    {decode rest : Decoding defs Double σ → Except ε (α × Decoding defs Double σ)}
    {Good : α → Prop}
    (hread : ∀ s last text, Readable line → P last →
      At last s.input (line.text print ++ '\n' :: text) →
      ∃ input', decode s = rest { s with input := input' } ∧ At (some line) input' text)
    (h : Faithful graph print Readable Misread At heap limit (serializeParts serialize parts) P'
      rest Good)
    (hP : P' (some line)) :
    Faithful graph print Readable Misread At heap limit
      (serializeParts serialize (.line line :: parts)) P decode Good := by
  intro ctx lines ctx' order s last text hnumbers hstep hencode hlines hlength hlast hat a s'
    hdecode hkept ha
  rcases serializeParts_line hencode with ⟨back, hback, rfl⟩
  have hreadable : Readable line := (hlines line (List.mem_cons_self ..)).resolve_right hnot
  rw [render_cons, List.append_assoc, List.cons_append] at hat
  rcases hread s last _ hreadable hlast hat with ⟨input', heq, hat'⟩
  rw [heq] at hdecode
  have hback := h ctx back ctx' order { s with input := input' } (some line) text hnumbers
    (hstep.congr rfl rfl) hback (fun later hlater => hlines later (List.mem_cons_of_mem _ hlater))
    (by simp only [List.length_cons] at hlength; omega) hP hat' a s' hdecode hkept ha
  intro later hlater
  rcases List.mem_cons.mp hlater with rfl | hlater
  · exact hreadable
  · exact hback later hlater

/-- The first decoder has read readable lines, so the second one starts in step. -/
theorem Faithful.seq {γ : Type}
    {decode : Decoding defs Double σ → Except ε (α × Decoding defs Double σ)}
    {decode' : Decoding defs Double σ → Except ε (β × Decoding defs Double σ)}
    {Q : List ν → α → Prop} {Good : α → Prop} {Good' : β → Prop} {Both : γ → Prop}
    (f : α → β → γ)
    (hundoes : Undoes graph agree print Readable At limit (serializeParts serialize parts) P
      decode Q)
    (hlast : ∀ ctx lines ctx' last, serializeParts serialize parts ctx = some (lines, ctx') →
      P last → P' (lastOf last lines))
    (h : Faithful graph print Readable Misread At heap limit (serializeParts serialize parts) P
      decode Good)
    (h' : Faithful graph print Readable Misread At heap limit (serializeParts serialize parts') P'
      decode' Good')
    (hkeeps : ∀ s b s', decode' s = .ok (b, s') → Kept s.heap s'.heap)
    (hboth : ∀ a b, Both (f a b) → Good a ∧ Good' b) :
    Faithful graph print Readable Misread At heap limit
      (serializeParts serialize (parts ++ parts')) P
      (fun s => do
        let (a, s) ← decode s
        let (b, s) ← decode' s
        return (f a b, s)) Both := by
  intro ctx lines ctx' order s last text hnumbers hstep hencode hlines hlength hP hat c s' hdecode
    hkept hc
  rcases serializeParts_append hencode with ⟨front, mid, back, hfront, hback, rfl⟩
  rw [List.length_append] at hlength
  rw [render_append, List.append_assoc] at hat
  rcases bind_eq_ok.mp hdecode with ⟨⟨a, s₁⟩, hfirst, hrest⟩
  rcases bind_eq_ok.mp hrest with ⟨⟨b, s₂⟩, hsecond, heq⟩
  obtain ⟨rfl, rfl⟩ := Prod.mk.inj (Except.ok.inj heq)
  rcases hboth a b hc with ⟨ha, hb⟩
  have hfrontRead := h ctx front mid order s last _ hnumbers hstep hfront
    (fun line hline => hlines line (List.mem_append_left _ hline)) (by omega) hP hat a s₁ hfirst
    ((hkeeps s₁ b s₂ hsecond).trans hkept) ha
  rcases hundoes ctx front mid order s last _ hnumbers hstep hfront hfrontRead (by omega) hP hat
    with ⟨a', s₁', new, hdecode', hmid, hadvance, hat', -⟩
  rw [hfirst] at hdecode'
  obtain ⟨-, rfl⟩ := Prod.mk.inj (Except.ok.inj hdecode')
  have hbackRead := h' mid back ctx' (order ++ new) s₁ (lastOf last front) text hmid
    hadvance.inStep hback (fun line hline => hlines line (List.mem_append_right _ hline))
    (by omega) (hlast ctx front mid last hfront hP) hat' b s₂ hsecond hkept hb
  intro line hline
  rcases List.mem_append.mp hline with hline | hline
  · exact hfrontRead line hline
  · exact hbackRead line hline

end Faithful

/-! ## Items, fields and graphs -/

section Fields

variable {graph : Graph defs Double ν}
  {agree : (type : PrimitiveType) → Primitive Double type → Primitive Double type → Prop}
  {print : (type : PrimitiveType) → Primitive Double type → Text}
  {Readable Misread : Line defs Double → Prop}
  {At : Option (Line defs Double) → σ → Text → Prop} {heap : List (Entry defs Double)}
  {reader : Reader ε defs Double σ} {limit : Nat} {copy : ν → Nat}
  {serialize : Option ν → SerializationContext ν →
    Option (List (Line defs Double) × SerializationContext ν)}
  {deSerialize : Decoding defs Double σ → Except ε (Option Nat × Decoding defs Double σ)}

/-- Only items can be misread. -/
theorem Misreads.not_misread (h : Misreads agree print Misread At reader)
    {line : Line defs Double} (hline : ∀ listed type value, line ≠ .item listed type value) :
    ¬Misread line := by
  intro hmisread
  rcases h line hmisread with ⟨listed, type, value, heq, -⟩
  exact hline listed type value heq

/-- A value that agrees was not misread. -/
theorem Misreads.readItem (h : Misreads agree print Misread At reader) (c : ConcreteClass defs)
    (name : Identifier) (listed : Bool) (type : FieldType) (value : Item Double (Option ν) type)
    (hserialize : ∀ t ref, (t, ref) ∈ Item.refs type value →
      Faithful graph print Readable Misread At heap limit (serialize ref) (fun _ => True)
        deSerialize (fun obj => obj = ref.map copy)) :
    Faithful graph print Readable Misread At heap limit
      (serializeParts serialize [Item.part listed type value]) (ItemExpected listed type)
      (reader.readItem deSerialize c name type)
      (Item.Rel (fun ref obj => obj = ref.map copy) agree type value) := by
  intro ctx lines ctx' order s last text hnumbers hstep hencode hlines hlength hlast hat a s'
    hdecode hkept ha
  cases type with
  | primitive type =>
      rcases serializeParts_line hencode with ⟨back, hback, rfl⟩
      obtain ⟨rfl, -⟩ := Prod.mk.inj (Option.some.inj hback)
      rcases bind_eq_ok.mp hdecode with ⟨⟨value', input'⟩, hitem, heq⟩
      obtain ⟨rfl, -⟩ := Prod.mk.inj (Except.ok.inj heq)
      rw [render_cons, List.append_assoc, List.cons_append] at hat
      intro line hline
      obtain rfl := List.mem_singleton.mp hline
      rcases hlines _ hline with hreadable | hmisread
      · exact hreadable
      · rcases h _ hmisread with ⟨listed', type', value'', heq', hwrong⟩
        cases heq'
        exact absurd ha (hwrong c name last s.input text value' input' hlast hat hitem)
  | reference type =>
      rcases serializeParts_ref hencode with ⟨front, mid, back, hfront, hback, rfl⟩
      obtain ⟨rfl, -⟩ := Prod.mk.inj (Option.some.inj hback)
      rcases bind_eq_ok.mp hdecode with ⟨⟨obj, s''⟩, hobj, heq⟩
      have hresult : obj = a ∧ s'' = s' := by
        simp only at heq
        split at heq
        · cases heq
        · exact Prod.mk.inj (Except.ok.inj heq)
      obtain ⟨rfl, rfl⟩ := hresult
      rw [List.append_nil] at hlines hlength hat ⊢
      exact hserialize type value (List.mem_singleton_self _) ctx front mid order s last text
        hnumbers hstep hfront hlines hlength trivial hat obj s'' hobj hkept ha

variable (hgrows : ∀ s obj s', deSerialize s = .ok (obj, s') → Grows s s' obj.toList)
  (hundoes : ∀ ref, Undoes graph agree print Readable At limit (serialize ref)
    (fun _ => True) deSerialize (fun order => RefersTo order ref))

include hgrows hundoes

/-- If the items of a list agree, then none of them was misread. -/
theorem Misreads.readItems (h : Misreads agree print Misread At reader)
    (hreads : Reads reader print Readable At agree) (c : ConcreteClass defs)
    (name : Identifier) (type : FieldType) (values : List (Item Double (Option ν) type))
    (htyped : ∀ t o, (t, some o) ∈ values.flatMap (Item.refs type) →
      (graph.object o).cls.cls.isA t = true)
    (hserialize : ∀ t ref, (t, ref) ∈ values.flatMap (Item.refs type) →
      Faithful graph print Readable Misread At heap limit (serialize ref) (fun _ => True)
        deSerialize (fun obj => obj = ref.map copy)) :
    Faithful graph print Readable Misread At heap limit
      (serializeParts serialize (values.map (Item.part true type))) (ItemExpected true type)
      (reader.readItems deSerialize c name type values.length)
      (List.Forall₂ (Item.Rel (fun ref obj => obj = ref.map copy) agree type) values) := by
  induction values with
  | nil => exact Faithful.nil
  | cons value values ih =>
      have hhead : ∀ t ref, (t, ref) ∈ Item.refs type value →
          (t, ref) ∈ (value :: values).flatMap (Item.refs type) :=
        fun t ref hmem => List.mem_flatMap.mpr ⟨value, List.mem_cons_self .., hmem⟩
      have htail : ∀ t ref, (t, ref) ∈ values.flatMap (Item.refs type) →
          (t, ref) ∈ (value :: values).flatMap (Item.refs type) := by
        intro t ref hmem
        rw [List.flatMap_cons]
        exact List.mem_append_right _ hmem
      refine Faithful.seq List.cons
        (hreads.readItem hundoes c name true type value
          fun t o hmem => htyped t o (hhead t (some o) hmem))
        (fun _ _ _ last hencode _ => itemExpected_lastOf last hencode)
        (h.readItem c name true type value fun t ref hmem => hserialize t ref (hhead t ref hmem))
        (ih (fun t o hmem => htyped t o (htail t (some o) hmem))
          fun t ref hmem => hserialize t ref (htail t ref hmem))
        (fun s b s' hdecode => (Reader.readItems_grows hgrows hdecode).kept) ?_
      intro a b hboth
      cases hboth with
      | cons ha hb => exact ⟨ha, hb⟩

/-- If the value of a field agrees, then it was not misread. -/
theorem Misreads.readField (h : Misreads agree print Misread At reader)
    (hreads : Reads reader print Readable At agree) (c : ConcreteClass defs)
    (field : FieldDef) (value : FieldValue Double (Option ν) field)
    (htyped : ∀ t o, (t, some o) ∈ FieldValue.refs field value →
      (graph.object o).cls.cls.isA t = true)
    (hserialize : ∀ t ref, (t, ref) ∈ FieldValue.refs field value →
      Faithful graph print Readable Misread At heap limit (serialize ref) (fun _ => True)
        deSerialize (fun obj => obj = ref.map copy)) :
    Faithful graph print Readable Misread At heap limit
      (serializeParts serialize (FieldValue.parts field value)) (fun _ => True)
      (reader.readField deSerialize c field)
      (FieldValue.Rel (fun ref obj => obj = ref.map copy) agree field value) := by
  cases field with
  | field name type =>
      have hitem := h.readItem c name false type value hserialize
      refine Faithful.line (h.not_misread (by simp)) ?_ hitem ?_
      · intro s last text _ _ hat
        rcases hreads.fieldName c name last s.input text hat with ⟨input', hread, hat'⟩
        refine ⟨input', ?_, hat'⟩
        simp only [Reader.readField, hread]
        rfl
      · cases type with
        | primitive type => exact ⟨name, rfl⟩
        | reference type => trivial
  | list name type =>
      have hitems := h.readItems hgrows hundoes hreads c name type value htyped hserialize
      have hsize : Faithful graph print Readable Misread At heap limit
          (serializeParts serialize
            (.line (.size (List.length value)) :: List.map (Item.part true type) value))
          (fun _ => True)
          (fun s => do
            let read ← reader.size c name s.input
            reader.readItems deSerialize c name type read.1.toNat { s with input := read.2 })
          (FieldValue.Rel (fun ref obj => obj = ref.map copy) agree (.list name type) value) := by
        refine Faithful.line (h.not_misread (by simp)) ?_ hitems ?_
        · intro s last text hreadable _ hat
          rcases hreads.size c name _ last s.input text hreadable hat with ⟨input', hread, hat'⟩
          refine ⟨input', ?_, hat'⟩
          simp only [hread]
          rfl
        · cases type with
          | primitive type => exact Or.inl ⟨_, rfl⟩
          | reference type => trivial
      refine Faithful.line (h.not_misread (by simp)) ?_ hsize trivial
      intro s last text _ _ hat
      rcases hreads.fieldName c name last s.input text hat with ⟨input', hread, hat'⟩
      refine ⟨input', ?_, hat'⟩
      simp only [Reader.readField, hread]
      rfl

/-- If the values of the fields agree, then none of them was misread. -/
theorem Misreads.readFields (h : Misreads agree print Misread At reader)
    (hreads : Reads reader print Readable At agree) (c : ConcreteClass defs)
    (fields : List FieldDef) (values : FieldValues Double (Option ν) fields)
    (htyped : ∀ t o, (t, some o) ∈ FieldValues.refs fields values →
      (graph.object o).cls.cls.isA t = true)
    (hserialize : ∀ t ref, (t, ref) ∈ FieldValues.refs fields values →
      Faithful graph print Readable Misread At heap limit (serialize ref) (fun _ => True)
        deSerialize (fun obj => obj = ref.map copy)) :
    Faithful graph print Readable Misread At heap limit
      (serializeParts serialize (FieldValues.parts fields values)) (fun _ => True)
      (reader.readFields deSerialize c fields)
      (FieldValues.Rel (fun ref obj => obj = ref.map copy) agree fields values) := by
  induction fields with
  | nil => exact Faithful.nil
  | cons field fields ih =>
      refine Faithful.seq Prod.mk
        (hreads.readField hundoes c field values.1
          fun t o hmem => htyped t o (List.mem_append_left _ hmem))
        (fun _ _ _ _ _ _ => trivial)
        (h.readField hgrows hundoes hreads c field values.1
          (fun t o hmem => htyped t o (List.mem_append_left _ hmem))
          fun t ref hmem => hserialize t ref (List.mem_append_left _ hmem))
        (ih values.2 (fun t o hmem => htyped t o (List.mem_append_right _ hmem))
          fun t ref hmem => hserialize t ref (List.mem_append_right _ hmem))
        (fun s b s' hdecode => (Reader.readFields_grows hgrows hdecode).kept) ?_
      intro a b hboth
      exact hboth

end Fields

section Graphs

variable [DecidableEq ν] {graph : Graph defs Double ν}
  {agree : (type : PrimitiveType) → Primitive Double type → Primitive Double type → Prop}
  {print : (type : PrimitiveType) → Primitive Double type → Text}
  {Readable Misread : Line defs Double → Prop}
  {At : Option (Line defs Double) → σ → Text → Prop} {heap : List (Entry defs Double)}
  {reader : Reader ε defs Double σ} {copy : ν → Nat} {root : Option ν}

/-- A reference is that to the copy only if the lines it was built from are readable. -/
theorem Misreads.deSerializeImp_serializeImp (h : Misreads agree print Misread At reader)
    (hreads : Reads reader print Readable At agree)
    (hback : ∀ input idx input', reader.header input ≠ .ok (.back idx, input'))
    (hcopy : ∀ o, graph.Reachable root o →
      Restored graph agree (fun ref obj => obj = ref.map copy) heap (copy o) o)
    (depth : Nat) (ref : Option ν) (href : ∀ o, ref = some o → graph.Reachable root o)
    (limit : Nat) :
    Faithful graph print Readable Misread At heap limit (graph.serializeImp depth ref)
      (fun _ => True) (reader.deSerializeImp limit) (fun obj => obj = ref.map copy) := by
  induction depth generalizing ref limit with
  | zero =>
      intro ctx lines ctx' order s last text _ _ hencode
      simp [Graph.serializeImp] at hencode
  | succ depth ih =>
      intro ctx lines ctx' order s last text hnumbers hstep hencode hlines hlength _ hat obj s'
        hdecode hkept hobj
      have hheader : ∀ line ∈ lines, (∀ listed type value, line ≠ .item listed type value) →
          Readable line :=
        fun line hline hno => (hlines line hline).resolve_right (h.not_misread hno)
      rcases graph.serializeImp_cases hencode with
        ⟨rfl, rfl, rfl⟩ | ⟨o, idx, rfl, hmap, rfl, rfl⟩ |
          ⟨o, depth', inner, rfl, hnew, hdepth, rfl, hinner⟩
      · intro line hline
        obtain rfl := List.mem_singleton.mp hline
        exact hheader _ hline (by simp)
      · intro line hline
        obtain rfl := List.mem_singleton.mp hline
        exact hheader _ hline (by simp)
      · obtain rfl : depth = depth' := by omega
        obtain ⟨limit, rfl⟩ : ∃ n, limit = n + 1 :=
          ⟨limit - 1, by simp only [List.length_cons] at hlength; omega⟩
        have hreach := href o rfl
        rw [render_cons, List.append_assoc, List.cons_append] at hat
        rcases hreads.className _ last s.input _ hat with ⟨entering, input', hread, henter, hat'⟩
        have hgrows := reader.deSerializeImp_grows hback limit
        have hfields := h.readFields hgrows
          (fun ref => hreads.deSerializeImp_serializeImp depth ref limit) hreads
          (graph.object o).cls _ (graph.object o).values (graph.typed o)
          fun t ref hmem => ih ref (by
            rintro target rfl
            exact .held hreach (List.mem_filterMap.mpr ⟨_, hmem, rfl⟩)) limit
        -- the fields of the new object are in the final heap, where they are those of the copy
        simp only [Reader.deSerializeImp, hread, bind, Except.bind, henter] at hdecode
        rcases bind_eq_ok.mp hdecode with ⟨⟨values, last'⟩, hvalues, heq⟩
        obtain ⟨rfl, rfl⟩ := Prod.mk.inj (Except.ok.inj heq)
        have hnewGrows := Reader.readFields_grows hgrows hvalues
        rcases hcopy o hreach with ⟨values', hentry, hrel⟩
        have hcomplete := hkept _ _ _ (hnewGrows.getElem?_complete values)
        rw [Option.some.inj hobj, hentry] at hcomplete
        obtain rfl : values' = values := by
          cases hcomplete
          rfl
        have hinnerRead := hfields (ctx.addObject o) inner ctx' (order ++ [o])
          (s.create input' (graph.object o).cls) _ text (hnumbers.addObject hnew)
          (hstep.create input' o) hinner
          (fun line hline => hlines line (List.mem_cons_of_mem _ hline))
          (by simp only [List.length_cons] at hlength; omega) trivial hat' _ _ hvalues
          ((hnewGrows.kept_complete _).trans hkept) hrel
        intro line hline
        rcases List.mem_cons.mp hline with rfl | hlater
        · exact hheader _ hline (by simp)
        · exact hinnerRead line hlater

/-- If a copy of the graph was built, all lines of the graph are readable. -/
theorem Reads.readable_of_corresponds (hreads : Reads reader print Readable At agree)
    (h : Misreads agree print Misread At reader)
    (hback : ∀ input idx input', reader.header input ≠ .ok (.back idx, input'))
    {depth limit : Nat} {lines : List (Line defs Double)} {ctx' : SerializationContext ν}
    (hencode : graph.serializeImp depth root .empty = some (lines, ctx'))
    (hlines : ∀ line ∈ lines, Readable line ∨ Misread line) (hlimit : lines.length ≤ limit)
    {input : σ} (hat : At none input (render print lines)) {result : Option Nat}
    {s' : Decoding defs Double σ}
    (hdecode : reader.deSerializeImp limit (.start input) = .ok (result, s'))
    (hcopy : Corresponds graph agree root result s'.heap) : ∀ line ∈ lines, Readable line := by
  rcases hcopy with ⟨copy, -, hresult, hrestored⟩
  rw [← List.append_nil (render print lines)] at hat
  exact h.deSerializeImp_serializeImp hreads hback hrestored depth root (fun o ho => .root ho)
    limit .empty lines ctx' [] (.start input) none [] numbers_empty (InStep.start input) hencode
    hlines hlimit trivial hat result s' hdecode (fun _ _ _ hi => hi) hresult

end Graphs

end SharedEntities
end Roofline
