import Roofline.SharedEntities.Enumeration

/-!
# The order of the enumeration

In Java the objects of a graph are enumerated in the order in which {lit}`addAll` comes to
them.  The order is one of the structure of the graph: from graphs with the same structure the
same order results, object by object.

Main results:

- Theorem {lit}`SameStructure.addAll`: the enumerations of two graphs with the same structure go
  in step.
- Theorem {lit}`Graph.getAll_unique`: the depth of the recursion does not matter.
- Theorem {lit}`Graph.nodup_getAll`: no object is enumerated twice.
-/

namespace Roofline
namespace SharedEntities

open Walks

variable {defs : Definitions} {Double ν ν' : Type}

/-! ## Graphs with the same structure -/

/-- The graphs have objects of the same classes that refer to each other in the same way;
{lit}`f` leads from the objects of one to those of the other.  Primitive values may differ. -/
structure SameStructure (graph : Graph defs Double ν) (start : ν) (graph' : Graph defs Double ν')
    (f : ν → ν') : Prop where
  injective : ∀ o o', graph.Reachable (some start) o → graph.Reachable (some start) o' →
    f o = f o' → o = o'
  object : ∀ o, graph.Reachable (some start) o →
    ∃ values, graph'.object (f o) = ⟨(graph.object o).cls, values⟩ ∧
      FieldValues.Rel (fun ref ref' => ref' = ref.map f) (fun _ _ _ => True) _
        (graph.object o).values values

/-- A list whose elements are images is the image of the list. -/
theorem forall₂_map_eq {α β : Type} {g : α → β} {l : List α} {l' : List β}
    (h : List.Forall₂ (fun a b => b = g a) l l') : l' = l.map g := by
  induction h with
  | nil => rfl
  | cons hfirst _ ih => rw [List.map_cons, hfirst, ih]

section Called

variable {f : ν → ν'}

/-- Corresponding fields have corresponding references to call the method on. -/
theorem FieldValue.called_of_rel {field : FieldDef} {value : FieldValue Double (Option ν) field}
    {value' : FieldValue Double (Option ν') field}
    (h : FieldValue.Rel (fun ref ref' => ref' = ref.map f) (fun _ _ _ => True) field value
      value') :
    FieldValue.called field value' = (FieldValue.called field value).map (Option.map f) := by
  rcases field with ⟨name, type | type⟩ | ⟨name, type | type⟩
  · rfl
  · obtain rfl : value' = Option.map f value := h
    cases value <;> rfl
  · rfl
  · exact forall₂_map_eq h

/-- Corresponding values of some fields have corresponding references to call the method on. -/
theorem FieldValues.called_of_rel {fields : List FieldDef}
    {values : FieldValues Double (Option ν) fields}
    {values' : FieldValues Double (Option ν') fields}
    (h : FieldValues.Rel (fun ref ref' => ref' = ref.map f) (fun _ _ _ => True) fields values
      values') :
    FieldValues.called fields values' = (FieldValues.called fields values).map (Option.map f) := by
  induction fields with
  | nil => rfl
  | cons field fields ih =>
      rcases values with ⟨value, values⟩
      rcases values' with ⟨value', values'⟩
      rw [FieldValues.called, FieldValues.called, List.map_append, FieldValue.called_of_rel h.1,
        ih h.2]

/-- Corresponding objects have corresponding references to call the method on. -/
theorem ClassDef.called_of_rel {cls : ClassDef}
    {values : FieldValues Double (Option ν) cls.allFields}
    {values' : FieldValues Double (Option ν') cls.allFields}
    (h : FieldValues.Rel (fun ref ref' => ref' = ref.map f) (fun _ _ _ => True) cls.allFields
      values values') :
    cls.called values' = (cls.called values).map (Option.map f) := by
  induction cls with
  | multiLanguageClass name isAbstract fields => exact FieldValues.called_of_rel h
  | derivedClass name isAbstract fields baseClass ih =>
      rw [ClassDef.called, ClassDef.called, List.map_append, ih h.inherited,
        FieldValues.called_of_rel h.own]

end Called

namespace SameStructure

variable {graph : Graph defs Double ν} {start : ν} {graph' : Graph defs Double ν'} {f : ν → ν'}

/-- Corresponding objects are of the same class. -/
theorem cls (h : SameStructure graph start graph' f) {o : ν}
    (ho : graph.Reachable (some start) o) : (graph'.object (f o)).cls = (graph.object o).cls := by
  rcases h.object o ho with ⟨values, hobject, _⟩
  rw [hobject]

/-- Corresponding objects have corresponding references to call the method on. -/
theorem called (h : SameStructure graph start graph' f) {o : ν}
    (ho : graph.Reachable (some start) o) :
    graph'.called (f o) = (graph.called o).map (Option.map f) := by
  rcases h.object o ho with ⟨values, hobject, hrel⟩
  rw [Graph.called, hobject]
  exact ClassDef.called_of_rel hrel

/-- The objects the method is called on are reachable. -/
theorem reachable_called (graph : Graph defs Double ν) {start o target : ν}
    (ho : graph.Reachable (some start) o) (hcalled : some target ∈ graph.called o) :
    graph.Reachable (some start) target :=
  .held ho (graph.some_mem_called.mp hcalled)

end SameStructure

/-! ## Enumerations in step -/

/-- The loop over the elements of two lists, if the calls go in step. -/
theorem map_addAllElements {f : ν → ν'} {visit : ν → List ν → Except Failure (List ν)}
    {visit' : ν' → List ν' → Except Failure (List ν')} {P : ν → Prop}
    {refs : List (Option ν)}
    (hvisit : ∀ o, some o ∈ refs → ∀ result, (∀ x ∈ result, P x) →
      visit' (f o) (result.map f) = (visit o result).map (List.map f) ∧
      ∀ result', visit o result = .ok result' → ∀ x ∈ result', P x)
    (result : List ν) (hresult : ∀ x ∈ result, P x) :
    addAllElements visit' (refs.map (Option.map f)) (result.map f) =
      (addAllElements visit refs result).map (List.map f) := by
  induction refs generalizing result with
  | nil => rfl
  | cons ref refs ih =>
      cases ref with
      | none => rfl
      | some o =>
          rcases hvisit o (List.mem_cons_self ..) result hresult with ⟨hstep, hkept⟩
          rw [List.map_cons, Option.map_some, addAllElements, addAllElements, hstep]
          cases hcall : visit o result with
          | error e => rfl
          | ok after =>
              exact ih (fun o ho => hvisit o (List.mem_cons_of_mem _ ho)) after (hkept after hcall)

section Order

variable [DecidableEq ν] [DecidableEq ν']

/-- Adding to a set commutes with a map that is injective on it. -/
theorem map_add {f : ν → ν'} {set : List ν} {o : ν} (h : ∀ x ∈ set, f x = f o → x = o) :
    (LinkedSets.add set o).map f = LinkedSets.add (set.map f) (f o) := by
  unfold LinkedSets.add
  by_cases ho : o ∈ set
  · rw [if_pos ho, if_pos (List.mem_map_of_mem ho)]
  · have hnot : f o ∉ set.map f := by
      intro hmem
      rcases List.mem_map.mp hmem with ⟨x, hx, heq⟩
      exact ho (h x hx heq ▸ hx)
    rw [if_neg ho, if_neg hnot, List.map_append]
    rfl

namespace Graph

/-- A call enumerates nothing but reachable objects. -/
theorem mem_addAll (graph : Graph defs Double ν) (language : Language ν) {depth : Nat} {o : ν}
    {result result' : List ν} (h : graph.addAll language depth o result = .ok result') (x : ν) :
    x ∈ result' ↔ x ∈ result ∨ Reaches graph.holds o x := by
  rcases graph.within_of_addAll language h with ⟨hwithin, hnull⟩
  rcases graph.exists_addAll language hwithin hnull result with ⟨after, hafter, hmem⟩
  rw [h] at hafter
  obtain rfl := Except.ok.inj hafter
  exact hmem x

end Graph

/-- The enumerations of two graphs with the same structure go in step. -/
theorem SameStructure.addAll {graph : Graph defs Double ν} {start : ν}
    {graph' : Graph defs Double ν'} {f : ν → ν'} (h : SameStructure graph start graph' f)
    (depth : Nat) {o : ν} (ho : graph.Reachable (some start) o) (result : List ν)
    (hresult : ∀ x ∈ result, graph.Reachable (some start) x) :
    graph'.addAll .java depth (f o) (result.map f) =
      (graph.addAll .java depth o result).map (List.map f) := by
  induction depth generalizing o result with
  | zero => rfl
  | succ depth ih =>
      have hinsert : Language.java.insert (result.map f) (f o) =
          (Language.java.insert result o).map f :=
        (map_add fun x hx heq => h.injective x o (hresult x hx) ho heq).symm
      rw [graph'.addAll_eq, graph.addAll_eq, h.called ho, hinsert]
      apply map_addAllElements (P := graph.Reachable (some start))
      · intro target htarget result hresult
        have hreach := SameStructure.reachable_called graph ho htarget
        refine ⟨ih hreach result hresult, ?_⟩
        intro result' hcall x hx
        rcases (graph.mem_addAll .java hcall x).mp hx with hx | hx
        · exact hresult x hx
        · rw [graph.reachable_iff_reaches] at hreach ⊢
          exact hreach.trans hx
      · intro x hx
        rcases Language.java.mem_insert.mp hx with hx | rfl
        · exact hresult x hx
        · exact ho

/-- Graphs of the same structure are enumerated in the same order. -/
theorem SameStructure.getAll {graph : Graph defs Double ν} {start : ν}
    {graph' : Graph defs Double ν'} {f : ν → ν'} (h : SameStructure graph start graph' f)
    (depth : Nat) :
    graph'.getAll .java depth (f start) = (graph.getAll .java depth start).map (List.map f) :=
  h.addAll depth (.root rfl) [] (by simp)

end Order

/-! ## One enumeration -/

/-- A loop succeeds with a method that succeeds more often. -/
theorem addAllElements_mono {visit visit' : ν → List ν → Except Failure (List ν)}
    (hvisit : ∀ o result result', visit o result = .ok result' → visit' o result = .ok result')
    {refs : List (Option ν)} {result result' : List ν}
    (h : addAllElements visit refs result = .ok result') :
    addAllElements visit' refs result = .ok result' := by
  induction refs generalizing result with
  | nil => exact h
  | cons ref refs ih =>
      cases ref with
      | none => cases h
      | some o =>
          cases hcall : visit o result with
          | error e =>
              rw [addAllElements, hcall] at h
              cases h
          | ok after =>
              rw [addAllElements_some hcall] at h
              rw [addAllElements_some (hvisit o result after hcall)]
              exact ih h

/-- The loop adds no object twice. -/
theorem nodup_addAllElements {visit : ν → List ν → Except Failure (List ν)}
    (hvisit : ∀ o result result', visit o result = .ok result' → result.Nodup → result'.Nodup)
    {refs : List (Option ν)} {result result' : List ν}
    (h : addAllElements visit refs result = .ok result') (hresult : result.Nodup) :
    result'.Nodup := by
  induction refs generalizing result with
  | nil =>
      obtain rfl := Except.ok.inj h
      exact hresult
  | cons ref refs ih =>
      cases ref with
      | none => cases h
      | some o =>
          cases hcall : visit o result with
          | error e =>
              rw [addAllElements, hcall] at h
              cases h
          | ok after =>
              rw [addAllElements_some hcall] at h
              exact ih h (hvisit o result after hcall hresult)

namespace Graph

variable [DecidableEq ν] (graph : Graph defs Double ν)

/-- What is enumerated does not depend on the bound. -/
theorem addAll_mono (language : Language ν) {depth depth' : Nat} (hle : depth ≤ depth') {o : ν}
    {result result' : List ν} (h : graph.addAll language depth o result = .ok result') :
    graph.addAll language depth' o result = .ok result' := by
  induction depth generalizing depth' o result result' with
  | zero => cases h
  | succ depth ih =>
      cases depth' with
      | zero => omega
      | succ depth' =>
          rw [addAll_eq] at h ⊢
          exact addAllElements_mono (fun o result result' => ih (by omega)) h

/-- The depth of the recursion does not matter. -/
theorem getAll_unique (language : Language ν) {depth depth' : Nat} {start : ν}
    {objects objects' : List ν} (h : graph.getAll language depth start = .ok objects)
    (h' : graph.getAll language depth' start = .ok objects') : objects = objects' := by
  have hmax := graph.addAll_mono language (Nat.le_max_left depth depth') h
  have hmax' := graph.addAll_mono language (Nat.le_max_right depth depth') h'
  exact Except.ok.inj (hmax.symm.trans hmax')

/-- The method adds no object twice. -/
theorem nodup_addAll {depth : Nat} {o : ν} {result result' : List ν}
    (h : graph.addAll .java depth o result = .ok result') (hresult : result.Nodup) :
    result'.Nodup := by
  induction depth generalizing o result result' with
  | zero => cases h
  | succ depth ih =>
      rw [addAll_eq] at h
      exact nodup_addAllElements (fun o result result' hcall => ih hcall) h
        (LinkedSets.nodup_add hresult o)

/-- No object is enumerated twice. -/
theorem nodup_getAll {depth : Nat} {start : ν} {objects : List ν}
    (h : graph.getAll .java depth start = .ok objects) : objects.Nodup :=
  graph.nodup_addAll h List.nodup_nil

end Graph

end SharedEntities
end Roofline
