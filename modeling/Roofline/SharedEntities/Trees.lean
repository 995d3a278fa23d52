import Roofline.Library.Programs
import Roofline.SharedEntities.Deserialization

/-!
# Decoders that resolve no number

A reader that never recognises the number of an object makes a new object for every
reference that is not null.  Whatever text it is given, it builds a tree.

Main results:

- Theorem {lit}`Reader.deSerializeImp_grows`: the objects such a decoder builds are referred
  to once.
- Theorem {lit}`Corresponds.unshared`: it can only build a copy of a graph in which no object
  is referred to twice.
-/

namespace Roofline
namespace SharedEntities

open Programs (bind_eq_ok)

variable {ε : Type} {defs : Definitions} {Double σ ν α β : Type}

/-- The references of an object, once it is complete. -/
def Entry.refs (entry : Entry defs Double) : List Nat :=
  match entry.values with
  | none => []
  | some values => (FieldValues.refs _ values).filterMap Prod.snd

/-- Objects are added to the heap.  The references {lit}`targets` and those of the added
objects are to different added objects. -/
def Grows (s s' : Decoding defs Double σ) (targets : List Nat) : Prop :=
  ∃ new, s'.heap = s.heap ++ new ∧ (targets ++ new.flatMap Entry.refs).Nodup ∧
    ∀ i ∈ targets ++ new.flatMap Entry.refs, s.heap.length ≤ i ∧ i < s'.heap.length

/-- No object is added if the heap stays the same. -/
theorem grows_of_heap {s s' : Decoding defs Double σ} (h : s'.heap = s.heap) : Grows s s' [] :=
  ⟨[], by rw [h, List.append_nil], List.nodup_nil, by simp⟩

/-- No object disappears from the heap. -/
theorem Grows.length_le {s s' : Decoding defs Double σ} {targets : List Nat}
    (h : Grows s s' targets) : s.heap.length ≤ s'.heap.length := by
  rcases h with ⟨new, hheap, -, -⟩
  rw [hheap, List.length_append]
  omega

/-- The first objects are not those that are added later. -/
theorem Grows.trans {s s' s'' : Decoding defs Double σ} {targets targets' : List Nat}
    (h : Grows s s' targets) (h' : Grows s' s'' targets') :
    Grows s s'' (targets ++ targets') := by
  have hle := h.length_le
  have hle' := h'.length_le
  rcases h with ⟨new, hheap, hnodup, hrange⟩
  rcases h' with ⟨new', hheap', hnodup', hrange'⟩
  have hperm : (targets ++ targets' ++ (new ++ new').flatMap Entry.refs).Perm
      ((targets ++ new.flatMap Entry.refs) ++ (targets' ++ new'.flatMap Entry.refs)) := by
    rw [List.flatMap_append, List.append_assoc, List.append_assoc]
    apply List.Perm.append_left targets
    rw [← List.append_assoc, ← List.append_assoc]
    exact List.Perm.append_right _ List.perm_append_comm
  refine ⟨new ++ new', by rw [hheap', hheap, List.append_assoc], ?_, ?_⟩
  · rw [hperm.nodup_iff, List.nodup_append]
    refine ⟨hnodup, hnodup', ?_⟩
    intro i hi j hj
    have hlow := (hrange i hi).2
    have hhigh := (hrange' j hj).1
    omega
  · intro i hi
    rcases List.mem_append.mp (hperm.mem_iff.mp hi) with hfirst | hsecond
    · have hbounds := hrange i hfirst
      omega
    · have hbounds := hrange' i hsecond
      omega

namespace Reader

variable {reader : Reader ε defs Double σ}
  {deSerialize : Decoding defs Double σ → Except ε (Option Nat × Decoding defs Double σ)}
  {c : ConcreteClass defs} {s s' : Decoding defs Double σ}

section Fields

variable (hdeSerialize : ∀ s obj s', deSerialize s = .ok (obj, s') → Grows s s' obj.toList)

include hdeSerialize

/-- Reading an item adds objects, and those the item refers to are among them. -/
theorem readItem_grows {name : Identifier} {type : FieldType}
    {value : Item Double (Option Nat) type}
    (h : reader.readItem deSerialize c name type s = .ok (value, s')) :
    Grows s s' ((Item.refs type value).filterMap Prod.snd) := by
  cases type with
  | primitive type =>
      rcases bind_eq_ok.mp h with ⟨⟨value', input⟩, -, heq⟩
      obtain ⟨-, rfl⟩ := Prod.mk.inj (Except.ok.inj heq)
      exact grows_of_heap rfl
  | reference type =>
      rcases bind_eq_ok.mp h with ⟨⟨obj, s''⟩, hobj, heq⟩
      have hgrows := hdeSerialize s obj s'' hobj
      have hresult : obj = value ∧ s'' = s' := by
        simp only at heq
        split at heq
        · cases heq
        · exact Prod.mk.inj (Except.ok.inj heq)
      obtain ⟨rfl, rfl⟩ := hresult
      cases obj with
      | none => exact hgrows
      | some i => exact hgrows

/-- Reading a list adds objects, and those the items refer to are different ones among them. -/
theorem readItems_grows {name : Identifier} {type : FieldType} {count : Nat}
    {values : List (Item Double (Option Nat) type)}
    (h : reader.readItems deSerialize c name type count s = .ok (values, s')) :
    Grows s s' ((values.flatMap (Item.refs type)).filterMap Prod.snd) := by
  induction count generalizing s values with
  | zero =>
      obtain ⟨rfl, rfl⟩ := Prod.mk.inj (Except.ok.inj h)
      exact grows_of_heap rfl
  | succ count ih =>
      rcases bind_eq_ok.mp h with ⟨⟨value, mid⟩, hvalue, hrest⟩
      rcases bind_eq_ok.mp hrest with ⟨⟨later, last⟩, hlater, heq⟩
      obtain ⟨rfl, rfl⟩ := Prod.mk.inj (Except.ok.inj heq)
      rw [List.flatMap_cons, List.filterMap_append]
      exact (readItem_grows hdeSerialize hvalue).trans (ih hlater)

/-- Reading a field adds objects, and those the field refers to are different ones among them. -/
theorem readField_grows {field : FieldDef} {value : FieldValue Double (Option Nat) field}
    (h : reader.readField deSerialize c field s = .ok (value, s')) :
    Grows s s' ((FieldValue.refs field value).filterMap Prod.snd) := by
  cases field with
  | field name type =>
      rcases bind_eq_ok.mp h with ⟨input, -, hitem⟩
      have hgrows : Grows { s with input } s' _ := readItem_grows hdeSerialize hitem
      exact hgrows
  | list name type =>
      rcases bind_eq_ok.mp h with ⟨input, -, hsize⟩
      rcases bind_eq_ok.mp hsize with ⟨⟨count, input'⟩, -, hitems⟩
      have hgrows : Grows { s with input := input' } s' _ := readItems_grows hdeSerialize hitems
      exact hgrows

/-- Reading some fields adds objects, and those they refer to are different ones among them. -/
theorem readFields_grows {fields : List FieldDef}
    {values : FieldValues Double (Option Nat) fields}
    (h : reader.readFields deSerialize c fields s = .ok (values, s')) :
    Grows s s' ((FieldValues.refs fields values).filterMap Prod.snd) := by
  induction fields generalizing s with
  | nil =>
      obtain ⟨-, rfl⟩ := Prod.mk.inj (Except.ok.inj h)
      exact grows_of_heap rfl
  | cons field fields ih =>
      rcases bind_eq_ok.mp h with ⟨⟨value, mid⟩, hvalue, hrest⟩
      rcases bind_eq_ok.mp hrest with ⟨⟨later, last⟩, hlater, heq⟩
      obtain ⟨rfl, rfl⟩ := Prod.mk.inj (Except.ok.inj heq)
      change Grows s last ((FieldValue.refs field value ++ FieldValues.refs fields later).filterMap
        Prod.snd)
      rw [List.filterMap_append]
      exact (readField_grows hdeSerialize hvalue).trans (ih hlater)

end Fields

/-- A new object is the only one that refers to what its fields hold. -/
theorem Grows.complete {input left : σ}
    {values : FieldValues Double (Option Nat) c.cls.allFields}
    (h : Grows (s.create input c) s' ((FieldValues.refs _ values).filterMap Prod.snd)) :
    Grows s (s'.complete left s.heap.length c values) [s.heap.length] := by
  rcases h with ⟨new, hheap, hnodup, hrange⟩
  have hcomplete : (s'.complete left s.heap.length c values).heap =
      s.heap ++ (⟨c, some values⟩ :: new) := by
    simp [Decoding.complete, hheap, Decoding.create]
  have hrefs : (⟨c, some values⟩ :: new : List (Entry defs Double)).flatMap Entry.refs =
      (FieldValues.refs _ values).filterMap Prod.snd ++ new.flatMap Entry.refs := by
    rw [List.flatMap_cons]
    rfl
  have hlength : (s.create input c).heap.length = s.heap.length + 1 := by
    simp [Decoding.create]
  refine ⟨_, hcomplete, ?_, ?_⟩
  · rw [hrefs, List.singleton_append, List.nodup_cons]
    refine ⟨?_, hnodup⟩
    intro hself
    have hlow := (hrange _ hself).1
    omega
  · rw [hrefs, hcomplete, List.singleton_append]
    have hlast : s'.heap.length = (s.heap ++ ⟨c, some values⟩ :: new).length := by
      simp [hheap, Decoding.create]
    intro i hi
    rcases List.mem_cons.mp hi with rfl | hi
    · simp
    · have hbounds := hrange i hi
      omega

/-- The objects a decoder builds that resolves no number are referred to once. -/
theorem deSerializeImp_grows
    (hback : ∀ input idx input', reader.header input ≠ .ok (.back idx, input')) (depth : Nat)
    (s : Decoding defs Double σ) (obj : Option Nat) (s' : Decoding defs Double σ)
    (h : reader.deSerializeImp depth s = .ok (obj, s')) : Grows s s' obj.toList := by
  induction depth generalizing s obj s' with
  | zero => cases h
  | succ depth ih =>
      rcases bind_eq_ok.mp h with ⟨⟨header, input⟩, hheader, hrest⟩
      cases header with
      | null =>
          obtain ⟨rfl, rfl⟩ := Prod.mk.inj (Except.ok.inj hrest)
          exact grows_of_heap rfl
      | back idx => exact absurd hheader (hback _ _ _)
      | className c =>
          rcases bind_eq_ok.mp hrest with ⟨entered, -, hrest⟩
          rcases bind_eq_ok.mp hrest with ⟨⟨values, last⟩, hvalues, heq⟩
          obtain ⟨rfl, rfl⟩ := Prod.mk.inj (Except.ok.inj heq)
          exact Grows.complete (readFields_grows ih hvalues)

end Reader

/-! ## Copies that are trees -/

section Copies

variable {graph : Graph defs Double ν}
  {agree : (type : PrimitiveType) → Primitive Double type → Primitive Double type → Prop}
  {root : Option ν} {result : Option Nat} {heap : List (Entry defs Double)}

/-- Corresponding references have corresponding targets. -/
theorem filterMap_snd_of_related {copy : ν → Nat} {refs : List (Identifier × Option ν)}
    {refs' : List (Identifier × Option Nat)}
    (h : List.Forall₂ (fun r r' => r.1 = r'.1 ∧ r'.2 = r.2.map copy) refs refs') :
    refs'.filterMap Prod.snd = (refs.filterMap Prod.snd).map copy := by
  induction h with
  | nil => rfl
  | @cons first first' rest rest' hfirst _ ih =>
      rw [List.filterMap_cons, List.filterMap_cons, hfirst.2]
      cases first.2 with
      | none => exact ih
      | some target => simpa using ih

/-- The references of a copy of an object are those to the copies. -/
theorem Restored.refs {copy : ν → Nat} {o : ν}
    (h : Restored graph agree (fun ref obj => obj = ref.map copy) heap (copy o) o) :
    ∃ entry, heap[copy o]? = some entry ∧ entry.refs = (graph.holds o).map copy := by
  rcases h with ⟨values, hentry, hrel⟩
  refine ⟨_, hentry, ?_⟩
  exact filterMap_snd_of_related (FieldValues.rel_refs hrel)

/-- A copy in which no object is referred to twice is one of a graph without sharing. -/
theorem Corresponds.unshared (h : Corresponds graph agree root result heap)
    (htree : (result.toList ++ heap.flatMap Entry.refs).Nodup) : graph.Unshared root := by
  rcases h with ⟨copy, hinjective, rfl, hrestored⟩
  rw [List.nodup_append] at htree
  rcases htree with ⟨-, hheap, hroot⟩
  rw [List.nodup_flatMap] at hheap
  rcases hheap with ⟨hnodup, hdisjoint⟩
  refine ⟨?_, ?_, ?_⟩
  · intro o ho
    rcases (hrestored o ho).refs with ⟨entry, hentry, hrefs⟩
    have hentryNodup := hnodup entry (List.mem_of_getElem? hentry)
    rw [hrefs] at hentryNodup
    exact List.Nodup.of_map copy hentryNodup
  · intro o o' target ho ho' htarget htarget'
    rcases (hrestored o ho).refs with ⟨entry, hentry, hrefs⟩
    rcases (hrestored o' ho').refs with ⟨entry', hentry', hrefs'⟩
    have hmem : copy target ∈ entry.refs := hrefs ▸ List.mem_map_of_mem htarget
    have hmem' : copy target ∈ entry'.refs := hrefs' ▸ List.mem_map_of_mem htarget'
    rcases List.getElem?_eq_some_iff.mp hentry with ⟨hlt, rfl⟩
    rcases List.getElem?_eq_some_iff.mp hentry' with ⟨hlt', rfl⟩
    rw [List.pairwise_iff_getElem] at hdisjoint
    apply hinjective o o' ho ho'
    by_contra hne
    rcases Nat.lt_or_gt_of_ne hne with hbefore | hafter
    · exact hdisjoint _ _ hlt hlt' hbefore hmem hmem'
    · exact hdisjoint _ _ hlt' hlt hafter hmem' hmem
  · rintro o target ho rfl htarget
    rcases (hrestored o ho).refs with ⟨entry, hentry, hrefs⟩
    have hmem : copy target ∈ entry.refs := hrefs ▸ List.mem_map_of_mem htarget
    exact hroot (copy target) (by simp) (copy target)
      (List.mem_flatMap.mpr ⟨entry, List.mem_of_getElem? hentry, hmem⟩) rfl

/-- Whatever it reads, a decoder that resolves no number copies no sharing. -/
theorem Reader.unshared_of_corresponds {reader : Reader ε defs Double σ}
    (hback : ∀ input idx input', reader.header input ≠ .ok (.back idx, input')) {limit : Nat}
    {input : σ} {s' : Decoding defs Double σ}
    (h : reader.deSerializeImp limit (.start input) = .ok (result, s'))
    (hcopy : Corresponds graph agree root result s'.heap) : graph.Unshared root := by
  rcases reader.deSerializeImp_grows hback limit _ result s' h with ⟨new, hheap, hnodup, -⟩
  obtain rfl : s'.heap = new := by
    rw [hheap]
    rfl
  exact hcopy.unshared hnodup

end Copies

end SharedEntities
end Roofline
