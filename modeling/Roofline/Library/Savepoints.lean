import Mathlib.Data.List.AList
import Mathlib.Logic.Function.Basic
import Mathlib.Tactic.Common

/-!
# Library - Savepoints

A mapping that can be set back to an earlier state.  The plain way is to keep a copy of the
mapping for each savepoint; an undo log keeps only the values that were overwritten since then.
The copies of an undo log can be computed from it, and its operations are those on the copies.

Main results:

- Theorem {lit}`Copies.run_scope`: commands between a savepoint and the return to it have no
  effect, if they are bracketed themselves.
- Theorem {lit}`lookup_restore`: restoring undoes all that was written since the log was opened.
- Theorem {lit}`UndoLog.copies_run`: an undo log simulates the copies.
- Theorem {lit}`UndoLog.lookup_run_scope`: the first theorem for undo logs.
-/

namespace Roofline
namespace Savepoints

variable {Key Value : Type}

/-- What can be done; {lit}`keep` is a command that was refused. -/
inductive Command (Key Value : Type) where
  | keep
  | set (key : Key) (value : Value)
  | push
  | pop

/-- Every savepoint is returned to, the last one first. -/
inductive Bracketed : List (Command Key Value) → Prop where
  | nil : Bracketed []
  | keep {commands : List (Command Key Value)} : Bracketed commands →
      Bracketed (.keep :: commands)
  | set {commands : List (Command Key Value)} (key : Key) (value : Value) :
      Bracketed commands → Bracketed (.set key value :: commands)
  | scope {body commands : List (Command Key Value)} : Bracketed body → Bracketed commands →
      Bracketed (.push :: (body ++ .pop :: commands))

/-! ## Copies -/

/-- A mapping and the copies of it, the last one first. -/
structure Copies (Key Value : Type) where
  current : Key → Option Value
  saved : List (Key → Option Value)

namespace Copies

variable [DecidableEq Key]

/-- Without a copy there is nothing to return to. -/
def step (copies : Copies Key Value) : Command Key Value → Copies Key Value
  | .keep => copies
  | .set key value => { copies with current := Function.update copies.current key (some value) }
  | .push => { copies with saved := copies.current :: copies.saved }
  | .pop =>
      match copies.saved with
      | [] => copies
      | current :: saved => ⟨current, saved⟩

/-- One command after the other. -/
def run (copies : Copies Key Value) (commands : List (Command Key Value)) : Copies Key Value :=
  commands.foldl step copies

/-- No command leaves the copies. -/
@[simp] theorem run_nil (copies : Copies Key Value) : copies.run [] = copies :=
  rfl

/-- The first command makes the first step. -/
@[simp] theorem run_cons (copies : Copies Key Value) (command : Command Key Value)
    (commands : List (Command Key Value)) :
    copies.run (command :: commands) = (copies.step command).run commands :=
  rfl

/-- Commands in two parts. -/
theorem run_append (copies : Copies Key Value) (front back : List (Command Key Value)) :
    copies.run (front ++ back) = (copies.run front).run back :=
  List.foldl_append

/-- Popping goes back to the copy that was saved last. -/
theorem step_pop {copies : Copies Key Value} {current : Key → Option Value}
    {saved : List (Key → Option Value)} (h : copies.saved = current :: saved) :
    copies.step .pop = ⟨current, saved⟩ := by
  rw [step, h]

/-- Bracketed commands leave the copies alone. -/
theorem saved_run {commands : List (Command Key Value)} (h : Bracketed commands)
    (copies : Copies Key Value) : (copies.run commands).saved = copies.saved := by
  induction h generalizing copies with
  | nil => rfl
  | keep _ ih => exact ih copies
  | set key value _ ih => exact ih _
  | scope _ _ ihbody ihcommands =>
      have hbody := ihbody (copies.step .push)
      rw [run_cons, run_append, run_cons, ihcommands, step_pop hbody]

/-- A scope has no effect. -/
theorem run_scope {body : List (Command Key Value)} (h : Bracketed body)
    (copies : Copies Key Value) : copies.run (.push :: (body ++ [.pop])) = copies := by
  have hbody := saved_run h (copies.step .push)
  rw [run_cons, run_append, run_cons, run_nil, step_pop hbody]

end Copies

/-! ## Restoring -/

section Restoring

variable [DecidableEq Key]

/-- The mapping before the values in the log were overwritten; {lit}`none` in the log stands for
a key that had no value. -/
def undo (oldValues : AList fun _ : Key => Option Value) (current : Key → Option Value) :
    Key → Option Value :=
  fun key => (oldValues.lookup key).getD (current key)

/-- One round of the loop of {lit}`restore`. -/
def restoreEntry (data : AList fun _ : Key => Value) (entry : Sigma fun _ : Key => Option Value) :
    AList fun _ : Key => Value :=
  match entry.2 with
  | none => data.erase entry.1
  | some value => data.insert entry.1 value

/-- The loop that writes the values in the log back. -/
def restore (oldValues : AList fun _ : Key => Option Value) (data : AList fun _ : Key => Value) :
    AList fun _ : Key => Value :=
  oldValues.entries.foldl restoreEntry data

/-- Restoring an entry gives its key the old value. -/
theorem lookup_restoreEntry (data : AList fun _ : Key => Value)
    (entry : Sigma fun _ : Key => Option Value) (key : Key) :
    (restoreEntry data entry).lookup key = if key = entry.1 then entry.2 else data.lookup key := by
  rcases entry with ⟨entryKey, oldValue⟩
  by_cases hkey : key = entryKey
  · subst hkey
    cases oldValue with
    | none => simp [restoreEntry]
    | some value => simp [restoreEntry]
  · cases oldValue with
    | none => simp [restoreEntry, hkey, AList.lookup_erase_ne]
    | some value => simp [restoreEntry, hkey, AList.lookup_insert_ne]

/-- The order of the entries does not matter, as each key has only one. -/
theorem lookup_foldl_restoreEntry {entries : List (Sigma fun _ : Key => Option Value)}
    (h : entries.NodupKeys) (data : AList fun _ : Key => Value) (key : Key) :
    (entries.foldl restoreEntry data).lookup key =
      (entries.dlookup key).getD (data.lookup key) := by
  induction entries generalizing data with
  | nil => rfl
  | cons entry entries ih =>
      rcases List.nodupKeys_cons.mp h with ⟨hnew, hrest⟩
      rw [List.foldl_cons, ih hrest, lookup_restoreEntry]
      by_cases hkey : key = entry.1
      · subst hkey
        rw [List.dlookup_cons_eq, List.dlookup_eq_none.mpr hnew]
        simp
      · rw [List.dlookup_cons_ne _ _ hkey, if_neg hkey]

/-- Restoring undoes what was written since the log was opened. -/
theorem lookup_restore (oldValues : AList fun _ : Key => Option Value)
    (data : AList fun _ : Key => Value) :
    (restore oldValues data).lookup = undo oldValues data.lookup := by
  funext key
  exact lookup_foldl_restoreEntry oldValues.nodupKeys data key

/-- A key that is in the log can be overwritten. -/
theorem undo_update_of_mem {oldValues : AList fun _ : Key => Option Value} {key : Key}
    (h : key ∈ oldValues) (current : Key → Option Value) (value : Option Value) :
    undo oldValues (Function.update current key value) = undo oldValues current := by
  funext other
  by_cases hkey : other = key
  · subst hkey
    obtain ⟨oldValue, hold⟩ := Option.isSome_iff_exists.mp (AList.lookup_isSome.mpr h)
    simp [undo, hold]
  · simp [undo, hkey]

/-- Any other key is put into the log when it is overwritten. -/
theorem undo_insert {oldValues : AList fun _ : Key => Option Value} {key : Key}
    (h : key ∉ oldValues) (current : Key → Option Value) (value : Option Value) :
    undo (oldValues.insert key (current key)) (Function.update current key value) =
      undo oldValues current := by
  funext other
  by_cases hkey : other = key
  · subst hkey
    simp [undo, AList.lookup_eq_none.mpr h]
  · simp [undo, hkey, AList.lookup_insert_ne hkey]

end Restoring

/-! ## Undo logs -/

/-- A mapping with a stack of logs, each of which holds the values that were overwritten while
it was on top. -/
structure UndoLog (Key Value : Type) where
  data : AList fun _ : Key => Value
  oldValuesStack : List (AList fun _ : Key => Option Value)

namespace UndoLog

variable [DecidableEq Key]

/-- Only the first value of a key that is overwritten is put into the log. -/
def set (log : UndoLog Key Value) (key : Key) (value : Value) : UndoLog Key Value where
  data := log.data.insert key value
  oldValuesStack :=
    match log.oldValuesStack with
    | [] => []
    | oldValues :: rest =>
        if key ∈ oldValues then oldValues :: rest
        else oldValues.insert key (log.data.lookup key) :: rest

/-- {lit}`push`: nothing has changed since. -/
def push (log : UndoLog Key Value) : UndoLog Key Value :=
  { log with oldValuesStack := ∅ :: log.oldValuesStack }

/-- {lit}`none` if the stack is empty. -/
def pop (log : UndoLog Key Value) : Option (UndoLog Key Value) :=
  match log.oldValuesStack with
  | [] => none
  | oldValues :: rest => some ⟨restore oldValues log.data, rest⟩

/-- What a command does to the log. -/
def step (log : UndoLog Key Value) : Command Key Value → UndoLog Key Value
  | .keep => log
  | .set key value => log.set key value
  | .push => log.push
  | .pop => log.pop.getD log

/-- A sequence of commands. -/
def run (log : UndoLog Key Value) (commands : List (Command Key Value)) : UndoLog Key Value :=
  commands.foldl step log

/-- The copies that a stack of logs stands for. -/
def copiesOf (current : Key → Option Value) :
    List (AList fun _ : Key => Option Value) → List (Key → Option Value)
  | [] => []
  | oldValues :: rest => undo oldValues current :: copiesOf (undo oldValues current) rest

/-- The full copies that the log stands for. -/
def copies (log : UndoLog Key Value) : Copies Key Value where
  current := log.data.lookup
  saved := copiesOf log.data.lookup log.oldValuesStack

/-- Setting a key updates the lookup at the key. -/
theorem lookup_set (log : UndoLog Key Value) (key : Key) (value : Value) :
    (log.set key value).data.lookup = Function.update log.data.lookup key (some value) := by
  funext other
  by_cases hkey : other = key
  · subst hkey
    simp [set]
  · simp [set, hkey, AList.lookup_insert_ne hkey]

/-- The value of each key after one was set. -/
theorem lookup_set_apply (log : UndoLog Key Value) (key other : Key) (value : Value) :
    (log.set key value).data.lookup other =
      if other = key then some value else log.data.lookup other := by
  have hlookup := congrFun (log.lookup_set key value) other
  rwa [Function.update_apply] at hlookup

/-- Setting a key sets it in the current copy. -/
theorem copies_set (log : UndoLog Key Value) (key : Key) (value : Value) :
    (log.set key value).copies = log.copies.step (.set key value) := by
  rw [copies, lookup_set]
  rcases log with ⟨data, _ | ⟨oldValues, rest⟩⟩
  · rfl
  · by_cases hkey : key ∈ oldValues
    · simp [copies, copiesOf, set, hkey, undo_update_of_mem, Copies.step]
    · have hundo := undo_insert hkey data.lookup (some value)
      simp [copies, copiesOf, set, hkey, hundo, Copies.step]

/-- Pushing saves the current copy. -/
theorem copies_push (log : UndoLog Key Value) : log.push.copies = log.copies.step .push := by
  have hundo : undo (∅ : AList fun _ : Key => Option Value) log.data.lookup = log.data.lookup := by
    funext key
    simp [undo]
  simp [copies, copiesOf, push, hundo, Copies.step]

/-- Popping restores the saved copy. -/
theorem copies_pop (log : UndoLog Key Value) :
    (log.pop.getD log).copies = log.copies.step .pop := by
  rcases log with ⟨data, _ | ⟨oldValues, rest⟩⟩
  · rfl
  · simp [copies, copiesOf, pop, lookup_restore, Copies.step]

/-- The log follows the copies step by step. -/
theorem copies_step (log : UndoLog Key Value) (command : Command Key Value) :
    (log.step command).copies = log.copies.step command := by
  cases command with
  | keep => rfl
  | set key value => exact log.copies_set key value
  | push => exact log.copies_push
  | pop => exact log.copies_pop

/-- The logs simulate the copies. -/
theorem copies_run (log : UndoLog Key Value) (commands : List (Command Key Value)) :
    (log.run commands).copies = log.copies.run commands := by
  induction commands generalizing log with
  | nil => rfl
  | cons command commands ih =>
      have hstep := ih (log.step command)
      rw [copies_step] at hstep
      exact hstep

/-- A scope has no effect on the mapping. -/
theorem lookup_run_scope {body : List (Command Key Value)} (h : Bracketed body)
    (log : UndoLog Key Value) :
    (log.run (.push :: (body ++ [.pop]))).data.lookup = log.data.lookup := by
  have hcopies := log.copies_run (.push :: (body ++ [.pop]))
  rw [Copies.run_scope h] at hcopies
  exact congrArg Copies.current hcopies

end UndoLog

end Savepoints
end Roofline
