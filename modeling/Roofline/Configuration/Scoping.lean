import Roofline.Configuration.Configuration

/-!
# Scopes of a configuration

The calls on a configuration and on its parents may be interleaved in any order.  What one of
them maps its keys to only depends on the calls on it, and if these are bracketed, the mapping at
the end of a scope is the one at its beginning.

Main results:

- Theorem {lit}`call_eq_of_ne`: a call changes no other configuration.
- Theorem {lit}`run_level`: what a configuration is after a run depends on the calls on it.
- Theorem {lit}`pop_restores_mapping`: the end of a scope restores the mapping.
-/

namespace Roofline
namespace Configurations

open Savepoints

variable {Key Double Object : Type} [DecidableEq Key]
variable (library : JavaLibrary Double Object) (keys : Key → ConfigurationKey Double Object)

/-! ## Runs -/

/-- An operation on one of the configurations of a chain: the configuration itself at level zero,
its parent at the next level and so on. -/
structure Call (Key Double Object : Type) where
  level : Nat
  operation : Operation Key Double Object

/-- The configurations after a call. -/
def call (configurations : List (Configuration Key Double Object))
    (made : Call Key Double Object) : List (Configuration Key Double Object) :=
  configurations.modify made.level fun configuration =>
    (perform library keys made.operation configuration).2

/-- The configurations after a sequence of calls, some of which may have been rejected. -/
def run (configurations : List (Configuration Key Double Object))
    (calls : List (Call Key Double Object)) : List (Configuration Key Double Object) :=
  calls.foldl (call library keys) configurations

omit [DecidableEq Key] in
/-- The operations on the configuration at this level. -/
def operationsAt (level : Nat) (calls : List (Call Key Double Object)) :
    List (Operation Key Double Object) :=
  (calls.filter fun made => made.level = level).map Call.operation

omit [DecidableEq Key] in
/-- Each {lit}`push` has its {lit}`pop`. -/
def WellBracketed (operations : List (Operation Key Double Object)) : Prop :=
  Bracketed (operations.map (commandOf library keys))

/-- The mapping of the configuration at this level. -/
def mappingAt (configurations : List (Configuration Key Double Object)) (level : Nat) :
    Option (Key → Option (Option (Value Double Object))) :=
  configurations[level]?.map fun configuration => configuration.data.lookup

/-- A call changes no other configuration. -/
theorem call_eq_of_ne (configurations : List (Configuration Key Double Object))
    (made : Call Key Double Object) {level : Nat} (h : level ≠ made.level) :
    (call library keys configurations made)[level]? = configurations[level]? := by
  exact List.getElem?_modify_ne _ _ h.symm

/-- What a configuration is after a run depends on the calls on it. -/
theorem run_level (configurations : List (Configuration Key Double Object))
    (calls : List (Call Key Double Object)) (level : Nat) :
    (run library keys configurations calls)[level]? =
      configurations[level]?.map fun configuration =>
        configuration.run ((operationsAt level calls).map (commandOf library keys)) := by
  induction calls generalizing configurations with
  | nil => simp [run, operationsAt, UndoLog.run]
  | cons made calls ih =>
      have hrest := ih (call library keys configurations made)
      change (run library keys (call library keys configurations made) calls)[level]? = _
      rw [hrest]
      by_cases hlevel : level = made.level
      · subst hlevel
        rw [call, List.getElem?_modify_eq]
        simp [operationsAt, UndoLog.run, perform_eq_step, Function.comp_def]
      · rw [call_eq_of_ne library keys configurations made hlevel]
        simp [operationsAt, Ne.symm hlevel]

/-- The end of a scope restores the mapping from its beginning. -/
theorem mappingAt_scope (configurations : List (Configuration Key Double Object)) {level : Nat}
    {body : List (Call Key Double Object)}
    (hbody : WellBracketed library keys (operationsAt level body)) :
    mappingAt (run library keys configurations (⟨level, .push⟩ :: (body ++ [⟨level, .pop⟩])))
        level =
      mappingAt configurations level := by
  have hoperations : operationsAt level (⟨level, .push⟩ :: (body ++ [⟨level, .pop⟩])) =
      .push :: (operationsAt level body ++ [.pop]) := by
    simp [operationsAt]
  rw [mappingAt, run_level, hoperations, Option.map_map, mappingAt]
  congr 1
  ext configuration : 1
  simpa [commandOf] using UndoLog.lookup_run_scope hbody configuration

/-- What a key is mapped to depends on the mappings of a configuration and of its parents. -/
theorem getUntyped_congr {front back : List (Configuration Key Double Object)}
    (h : front.map (·.data.lookup) = back.map (·.data.lookup)) :
    getUntyped keys front = getUntyped keys back := by
  induction front generalizing back with
  | nil =>
      rw [List.map_nil, eq_comm, List.map_eq_nil_iff] at h
      rw [h]
  | cons configuration parents ih =>
      cases back with
      | nil => simp at h
      | cons other others =>
          rw [List.map_cons, List.map_cons, List.cons.injEq] at h
          ext1 key
          have hlookup := congrFun h.1 key
          rw [getUntyped, getUntyped, hlookup, ih h.2]

/-- If a configuration and its parents have the mappings from before, so have the keys. -/
theorem getUntyped_drop_congr {front back : List (Configuration Key Double Object)} {level : Nat}
    (h : ∀ other, level ≤ other → mappingAt front other = mappingAt back other) :
    getUntyped keys (front.drop level) = getUntyped keys (back.drop level) := by
  apply getUntyped_congr
  apply List.ext_getElem?
  intro i
  have hlevel := h (level + i) (Nat.le_add_right level i)
  simpa [mappingAt] using hlevel

/-- Each end of a scope restores the mapping that the configuration had at its beginning, whatever
happens to the other configurations meanwhile, and no call changes another configuration than its
own; so without calls on the parents every key is back at its value. -/
theorem pop_restores_mapping (configurations : List (Configuration Key Double Object))
    (level : Nat) (body : List (Call Key Double Object))
    (hbody : WellBracketed library keys (operationsAt level body)) :
    mappingAt (run library keys configurations (⟨level, .push⟩ :: (body ++ [⟨level, .pop⟩])))
        level =
      mappingAt configurations level ∧
    (∀ (before : List (Call Key Double Object)) (made : Call Key Double Object) (other : Nat),
      other ≠ made.level →
        mappingAt (run library keys configurations (before ++ [made])) other =
          mappingAt (run library keys configurations before) other) ∧
    ((∀ made ∈ body, made.level ≤ level) →
      getUntyped keys ((run library keys configurations
          (⟨level, .push⟩ :: (body ++ [⟨level, .pop⟩]))).drop level) =
        getUntyped keys (configurations.drop level)) := by
  refine ⟨mappingAt_scope library keys configurations hbody, ?_, ?_⟩
  · intro before made other hother
    rw [run, List.foldl_append, List.foldl_cons, List.foldl_nil, mappingAt,
      call_eq_of_ne library keys _ made hother]
    rfl
  · intro hlevels
    apply getUntyped_drop_congr keys
    intro other hother
    rcases Nat.eq_or_lt_of_le hother with heq | hlt
    · rw [← heq]
      exact mappingAt_scope library keys configurations hbody
    · have hnone : operationsAt other (⟨level, .push⟩ :: (body ++ [⟨level, .pop⟩])) = [] := by
        simp only [operationsAt, List.map_eq_nil_iff, List.filter_eq_nil_iff, decide_eq_true_eq]
        intro made hmade
        have hle : made.level ≤ level := by
          simp only [List.mem_cons, List.mem_append, List.not_mem_nil, or_false] at hmade
          rcases hmade with rfl | hmade | rfl
          · exact Nat.le_refl _
          · exact hlevels made hmade
          · exact Nat.le_refl _
        omega
      rw [mappingAt, run_level, hnone]
      simp [mappingAt, UndoLog.run]

/-- In a scope of the second configuration a key is overwritten in an inner scope, a key that had
no value is set to null and a value of the wrong type is rejected, while the first configuration
is changed as well. -/
theorem pop_restores_mapping_after_rejected_call :
    let library : JavaLibrary Unit Unit := ⟨fun _ => none, fun _ => none, fun _ _ => false⟩
    let keys : Bool → ConfigurationKey Unit Unit := fun _ => ⟨['k'], .string, none⟩
    let configurations : List (Configuration Bool Unit Unit) := [⟨∅, []⟩, ⟨∅, []⟩]
    let body : List (Call Bool Unit Unit) :=
      [⟨1, .setUntyped true none⟩, ⟨1, .push⟩, ⟨0, .push⟩, ⟨1, .parseAndSet true ['a']⟩,
        ⟨1, .setUntyped false (some (.boolean true))⟩, ⟨0, .parseAndSet false ['b']⟩, ⟨1, .pop⟩]
    mappingAt (run library keys configurations (⟨1, .push⟩ :: (body ++ [⟨1, .pop⟩]))) 1 =
      mappingAt configurations 1 := by
  intro library keys configurations body
  have hbody : WellBracketed library keys (operationsAt 1 body) :=
    .set true none (.scope (.set true _ (.keep .nil)) .nil)
  exact (pop_restores_mapping library keys configurations 1 body hbody).1

end Configurations
end Roofline
