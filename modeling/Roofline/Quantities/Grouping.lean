import Mathlib.Data.List.AList
import Mathlib.Tactic.Common

/-!
# Grouping the runs of a quantity map

A quantity map holds for each calculator the outputs of all runs.  It is split into maps for
groups of runs, or into one map for each run.  The map is an association list here: its entries
stand in the order in which they are iterated.

Main results:

- Theorem {lit}`getElem?_getRunMaps`: there is one map for each run.
- Theorem {lit}`getElem?_grouped`: a group ends with each run whose index is a multiple of the
  group size and not zero, so that the first group has one run more than the others.
- Theorem {lit}`groupsRuns_iff`: the groups have the given size exactly where all runs fit into
  the first.
-/

namespace Roofline
namespace Quantities
namespace Grouping

/-- A hash map whose keys are calculators. -/
abbrev CalculatorMap (Calculator Value : Type) :=
  AList fun _ : Calculator => Value

/-- The outputs of all runs. -/
abbrev QuantityMap (Calculator Outputs : Type) :=
  CalculatorMap Calculator (List Outputs)

/-- The outputs of a single run. -/
abbrev RunQuantityMap (Calculator Outputs : Type) :=
  CalculatorMap Calculator Outputs

variable {Calculator Value Outputs : Type} [DecidableEq Calculator]

/-- An entry of a quantity map. -/
abbrev Entry (Calculator Outputs : Type) :=
  Sigma fun _ : Calculator => List Outputs

/-- The number of runs of the calculator with the most runs. -/
def mostRuns (source : QuantityMap Calculator Outputs) : Nat :=
  (source.entries.map fun entry => entry.2.length).foldr max 0

/-! ## Groups -/

section Model

/-- The body of the loops over the entries: if there is a run with this index, the calculator is
given a value that is made of the run and of what the calculator has already.  The flag is
{lit}`found`. -/
def visitEntry (value : Option Value → Outputs → Value) (idx : Nat)
    (state : Bool × CalculatorMap Calculator Value) (entry : Entry Calculator Outputs) :
    Bool × CalculatorMap Calculator Value :=
  match entry.2[idx]? with
  | some run => (true, state.2.insert entry.1 (value (state.2.lookup entry.1) run))
  | none => state

/-- The run is added to the list of its calculator. -/
def addToList (list : Option (List Outputs)) (run : Outputs) : List Outputs :=
  list.getD [] ++ [run]

/-- {lit}`addRun`: whether any calculator has such a run, and the map with them. -/
def addRun (source : QuantityMap Calculator Outputs) (idx : Nat)
    (map : QuantityMap Calculator Outputs) : Bool × QuantityMap Calculator Outputs :=
  source.entries.foldl (visitEntry addToList idx) (false, map)

/-- {lit}`putRun`: whether any calculator has such a run, and the map of them. -/
def putRun (source : QuantityMap Calculator Outputs) (idx : Nat) :
    Bool × RunQuantityMap Calculator Outputs :=
  source.entries.foldl (visitEntry (fun _ run => run) idx) (false, ∅)

end Model

/-! ## The loops over the entries -/

section Entries

variable {value : Option Value → Outputs → Value} {source : QuantityMap Calculator Outputs}
  {idx : Nat}

omit [DecidableEq Calculator] in
/-- Some calculator has the run. -/
theorem lt_mostRuns_iff :
    idx < mostRuns source ↔ ∃ entry ∈ source.entries, idx < entry.2.length := by
  rw [mostRuns]
  induction source.entries with
  | nil => simp
  | cons entry entries ih =>
      rw [List.map_cons, List.foldr_cons, List.exists_mem_cons_iff, ← ih]
      omega

/-- A run is found if one of the entries has it. -/
theorem found_foldl (entries : List (Entry Calculator Outputs))
    (state : Bool × CalculatorMap Calculator Value) :
    (entries.foldl (visitEntry value idx) state).1 = true ↔
      state.1 = true ∨ ∃ entry ∈ entries, idx < entry.2.length := by
  induction entries generalizing state with
  | nil => simp
  | cons entry entries ih =>
      rw [List.foldl_cons, ih, List.exists_mem_cons_iff, ← or_assoc]
      apply or_congr_left
      cases hrun : entry.2[idx]? with
      | some run => simp [visitEntry, (List.getElem?_eq_some_iff.mp hrun).1]
      | none =>
          have hle := List.getElem?_eq_none_iff.mp hrun
          simp [visitEntry, hle.not_gt]

/-- {lit}`addRun` finds a run that some calculator has. -/
theorem found_addRun {map : QuantityMap Calculator Outputs} :
    (addRun source idx map).1 = true ↔ idx < mostRuns source := by
  rw [addRun, found_foldl, lt_mostRuns_iff]
  simp

/-- So does {lit}`putRun`. -/
theorem found_putRun : (putRun source idx).1 = true ↔ idx < mostRuns source := by
  rw [putRun, found_foldl, lt_mostRuns_iff]
  simp

/-- What a calculator has after a loop over entries with these runs for it. -/
def visited (value : Option Value → Outputs → Value) (old : Option Value) :
    Option Outputs → Option Value
  | some run => some (value old run)
  | none => old

/-- What the loop over the entries has put for a calculator. -/
theorem lookup_foldl {entries : List (Entry Calculator Outputs)} (h : entries.NodupKeys)
    (state : Bool × CalculatorMap Calculator Value) (calculator : Calculator) :
    (entries.foldl (visitEntry value idx) state).2.lookup calculator =
      visited value (state.2.lookup calculator)
        ((entries.dlookup calculator).bind (·[idx]?)) := by
  induction entries generalizing state with
  | nil => rfl
  | cons entry entries ih =>
      rcases List.nodupKeys_cons.mp h with ⟨hnew, hrest⟩
      rw [List.foldl_cons, ih hrest]
      by_cases hkey : calculator = entry.1
      · subst hkey
        rw [List.dlookup_cons_eq, List.dlookup_eq_none.mpr hnew]
        cases hrun : entry.2[idx]? with
        | some run => simp [visitEntry, visited, hrun]
        | none => simp [visitEntry, visited, hrun]
      · rw [List.dlookup_cons_ne _ _ hkey]
        cases hrun : entry.2[idx]? with
        | some run => simp [visitEntry, hrun, AList.lookup_insert_ne hkey]
        | none => simp [visitEntry, hrun]

/-- What {lit}`addRun` has added for a calculator. -/
theorem lookup_addRun (map : QuantityMap Calculator Outputs) (calculator : Calculator) :
    (addRun source idx map).2.lookup calculator =
      visited addToList (map.lookup calculator) ((source.lookup calculator).bind (·[idx]?)) :=
  lookup_foldl source.nodupKeys _ _

/-- What {lit}`putRun` has put for a calculator. -/
theorem lookup_putRun (calculator : Calculator) :
    (putRun source idx).2.lookup calculator = (source.lookup calculator).bind (·[idx]?) := by
  rw [putRun, lookup_foldl source.nodupKeys, AList.lookup_empty]
  exact match (source.lookup calculator).bind (·[idx]?) with
    | some _ => rfl
    | none => rfl

end Entries

/-! ## The loops over the runs -/

section Loops

/-- The loop of {lit}`grouped`, which goes on as long as a run was found. -/
def groupedFrom (source : QuantityMap Calculator Outputs) (groupSize idx : Nat)
    (map : QuantityMap Calculator Outputs) (result : List (QuantityMap Calculator Outputs)) :
    List (QuantityMap Calculator Outputs) :=
  if (addRun source idx map).1 = true then
    if idx > 0 ∧ idx % groupSize = 0 then
      groupedFrom source groupSize (idx + 1) ∅ (result ++ [(addRun source idx map).2])
    else
      groupedFrom source groupSize (idx + 1) (addRun source idx map).2 result
  else if (addRun source idx map).2.keys.length > 0 then
    result ++ [(addRun source idx map).2]
  else
    result
termination_by mostRuns source - idx
decreasing_by
  all_goals
    have hlt := found_addRun.mp ‹_›
    omega

/-- {lit}`grouped` -/
def grouped (source : QuantityMap Calculator Outputs) (groupSize : Nat) :
    List (QuantityMap Calculator Outputs) :=
  groupedFrom source groupSize 0 ∅ []

/-- The loop of {lit}`getRunMaps`. -/
def runMapsFrom (source : QuantityMap Calculator Outputs) (idx : Nat) :
    List (RunQuantityMap Calculator Outputs) :=
  if (putRun source idx).1 = true then
    (putRun source idx).2 :: runMapsFrom source (idx + 1)
  else
    []
termination_by mostRuns source - idx
decreasing_by
  have hlt := found_putRun.mp ‹_›
  omega

/-- {lit}`getRunMaps` -/
def getRunMaps (source : QuantityMap Calculator Outputs) :
    List (RunQuantityMap Calculator Outputs) :=
  runMapsFrom source 0

end Loops

/-! ## Slices -/

section Slices

/-- The runs from one index up to another. -/
def slice (start stop : Nat) (runs : List Outputs) : List Outputs :=
  (runs.drop start).take (stop - start)

/-- The length of a part of the runs. -/
theorem length_slice (start stop : Nat) (runs : List Outputs) :
    (slice start stop runs).length = min (stop - start) (runs.length - start) := by
  rw [slice, List.length_take, List.length_drop]

/-- A part that ends where it starts is empty. -/
theorem slice_empty (start : Nat) (runs : List Outputs) : slice start start runs = [] := by
  rw [slice, Nat.sub_self, List.take_zero]

/-- A part up to the end is everything. -/
theorem slice_all {stop : Nat} {runs : List Outputs} (h : runs.length ≤ stop) :
    slice 0 stop runs = runs := by
  rw [slice, List.drop_zero, Nat.sub_zero, List.take_of_length_le h]

/-- A part with one more run. -/
theorem slice_succ {start idx : Nat} {runs : List Outputs} {run : Outputs} (hle : start ≤ idx)
    (h : runs[idx]? = some run) : slice start (idx + 1) runs = slice start idx runs ++ [run] := by
  have hlength : idx + 1 - start = (idx - start) + 1 := by omega
  have hrun : (runs.drop start)[idx - start]? = some run := by
    rw [List.getElem?_drop, Nat.add_sub_cancel' hle, h]
  rw [slice, slice, hlength, List.take_add_one, hrun, Option.toList_some]

end Slices

/-! ## The groups -/

section Groups

variable {source map : QuantityMap Calculator Outputs} {n groupSize : Nat}

/-- All calculators have this number of runs, which is zero if there is no calculator. -/
structure HasRuns (source : QuantityMap Calculator Outputs) (n : Nat) : Prop where
  length_eq : ∀ entry ∈ source.entries, entry.2.length = n
  zero_of_empty : source.entries = [] → n = 0

/-- Some of the runs of all calculators. -/
def runsOf (source : QuantityMap Calculator Outputs) (start stop : Nat)
    (calculator : Calculator) : Option (List Outputs) :=
  (source.lookup calculator).map (slice start stop)

omit [DecidableEq Calculator] in
/-- If all calculators have as many runs, that is the most. -/
theorem HasRuns.mostRuns_eq (h : HasRuns source n) : mostRuns source = n := by
  apply Nat.le_antisymm
  · by_contra hlt
    rw [Nat.not_le] at hlt
    rcases lt_mostRuns_iff.mp hlt with ⟨entry, hmem, hrun⟩
    rw [h.length_eq entry hmem] at hrun
    exact Nat.lt_irrefl _ hrun
  · by_contra hlt
    rw [Nat.not_le] at hlt
    rcases List.exists_mem_of_ne_nil source.entries
      (fun hempty => by rw [h.zero_of_empty hempty] at hlt; omega) with ⟨entry, hmem⟩
    have hrun := lt_mostRuns_iff.mpr ⟨entry, hmem, by rw [h.length_eq entry hmem]; exact hlt⟩
    exact Nat.lt_irrefl _ hrun

/-- Each calculator has as many runs. -/
theorem HasRuns.length_lookup (h : HasRuns source n) {calculator : Calculator}
    {runs : List Outputs} (hlookup : source.lookup calculator = some runs) : runs.length = n :=
  h.length_eq ⟨calculator, runs⟩ (AList.mem_lookup_iff.mp hlookup)

/-- If there are runs, some calculator has them. -/
theorem HasRuns.exists_lookup (h : HasRuns source n) (hn : 0 < n) :
    ∃ calculator runs, source.lookup calculator = some runs := by
  have hne : source.entries ≠ [] := by
    intro hempty
    rw [h.zero_of_empty hempty] at hn
    omega
  rcases List.exists_mem_of_ne_nil source.entries hne with ⟨entry, hmem⟩
  exact ⟨entry.1, entry.2, AList.mem_lookup_iff.mpr hmem⟩

/-- The index of the first run of a group: the first group ends with the run whose index is the
group size, and each other one with the next multiple. -/
def groupStart (groupSize : Nat) : Nat → Nat
  | 0 => 0
  | k + 1 => (k + 1) * groupSize + 1

/-- The runs of the current group that were found before an index. -/
def Holds (source map : QuantityMap Calculator Outputs) (start idx : Nat) : Prop :=
  ∀ calculator, map.lookup calculator =
    if start < idx then runsOf source start idx calculator else none

/-- A new map holds no runs. -/
theorem holds_empty (source : QuantityMap Calculator Outputs) (start : Nat) :
    Holds source ∅ start start := by
  intro calculator
  rw [AList.lookup_empty, if_neg (Nat.lt_irrefl _)]

/-- A run is added to the current group. -/
theorem Holds.addRun {start idx : Nat} (h : Holds source map start idx)
    (hruns : HasRuns source n) (hstart : start ≤ idx) (hidx : idx < n) :
    Holds source (Grouping.addRun source idx map).2 start (idx + 1) := by
  intro calculator
  rw [lookup_addRun, h calculator, if_pos (show start < idx + 1 by omega)]
  cases hlookup : source.lookup calculator with
  | none => simp [runsOf, hlookup, visited]
  | some runs =>
      have hlength := hruns.length_lookup hlookup
      obtain ⟨run, hrun⟩ : ∃ run, runs[idx]? = some run :=
        ⟨_, List.getElem?_eq_getElem (by omega)⟩
      simp only [Option.bind_some, hrun, runsOf, hlookup, Option.map_some, visited, addToList]
      rw [slice_succ hstart hrun]
      by_cases hlt : start < idx
      · rw [if_pos hlt, Option.getD_some]
      · obtain rfl : start = idx := by omega
        rw [if_neg hlt, slice_empty, Option.getD_none]

/-- Where there is no run any more, the current group is left as it is. -/
theorem Holds.addRun_end {start idx : Nat} (h : Holds source map start idx)
    (hruns : HasRuns source n) (hidx : n ≤ idx) :
    Holds source (Grouping.addRun source idx map).2 start idx := by
  intro calculator
  rw [lookup_addRun, h calculator]
  cases hlookup : source.lookup calculator with
  | none => rfl
  | some runs =>
      have hlength := hruns.length_lookup hlookup
      rw [Option.bind_some, List.getElem?_eq_none (by omega), visited]

/-- The current group has calculators exactly where it has runs. -/
theorem Holds.keys_pos_iff {start idx : Nat} (h : Holds source map start idx)
    (hruns : HasRuns source n) (hidx : idx ≤ n) : map.keys.length > 0 ↔ start < idx := by
  constructor
  · intro hpos
    rcases List.exists_mem_of_length_pos hpos with ⟨calculator, hmem⟩
    have hsome := AList.lookup_isSome.mpr (AList.mem_keys.mpr hmem)
    by_contra hlt
    rw [h calculator, if_neg hlt] at hsome
    cases hsome
  · intro hlt
    rcases hruns.exists_lookup (by omega) with ⟨calculator, runs, hlookup⟩
    have hsome : (map.lookup calculator).isSome := by
      rw [h calculator, if_pos hlt, runsOf, hlookup]
      rfl
    exact List.length_pos_of_mem (AList.mem_keys.mp (AList.lookup_isSome.mp hsome))

/-- An index in a group is the last of it exactly where the loop starts a new map. -/
theorem new_map_iff {k idx : Nat} (hsize : 1 ≤ groupSize) (hstart : groupStart groupSize k ≤ idx)
    (hidx : idx < groupStart groupSize (k + 1)) :
    (idx > 0 ∧ idx % groupSize = 0) ↔ idx + 1 = groupStart groupSize (k + 1) := by
  rw [groupStart, Nat.add_right_cancel_iff]
  constructor
  · rintro ⟨hpos, hmod⟩
    rcases Nat.dvd_of_mod_eq_zero hmod with ⟨m, rfl⟩
    have hle : m ≤ k + 1 := by
      rw [groupStart, Nat.lt_succ_iff, Nat.mul_comm] at hidx
      exact Nat.le_of_mul_le_mul_right hidx hsize
    have hge : k < m := by
      cases k with
      | zero => exact Nat.pos_of_mul_pos_left hpos
      | succ k =>
          rw [groupStart, Nat.add_one_le_iff, Nat.mul_comm groupSize] at hstart
          exact Nat.lt_of_mul_lt_mul_right hstart
    obtain rfl : m = k + 1 := by omega
    rw [Nat.mul_comm]
  · rintro rfl
    exact ⟨Nat.mul_pos (Nat.succ_pos k) hsize, Nat.mul_mod_left _ _⟩

/-- The groups from the {lit}`k`-th on, as far as there are runs. -/
def HoldsGroups (source : QuantityMap Calculator Outputs) (groupSize n k : Nat)
    (groups : List (QuantityMap Calculator Outputs)) : Prop :=
  ∀ j, (groups[j]?).map (fun map calculator => map.lookup calculator) =
    if groupStart groupSize (k + j) < n then
      some (runsOf source (groupStart groupSize (k + j))
        (min (groupStart groupSize (k + j + 1)) n))
    else none

/-- Later groups start later. -/
theorem groupStart_mono (groupSize k j : Nat) :
    groupStart groupSize k ≤ groupStart groupSize (k + j) := by
  cases k with
  | zero => exact Nat.zero_le _
  | succ k =>
      rw [Nat.succ_add]
      apply Nat.succ_le_succ
      apply Nat.mul_le_mul_right
      omega

/-- Behind the last run there are no groups. -/
theorem holdsGroups_nil {k : Nat} (h : n ≤ groupStart groupSize k) :
    HoldsGroups source groupSize n k [] := by
  intro j
  have hmono := groupStart_mono groupSize k j
  rw [if_neg (by omega)]
  rfl

/-- One more group in front. -/
theorem HoldsGroups.cons {k stop : Nat} {groups : List (QuantityMap Calculator Outputs)}
    (hmap : Holds source map (groupStart groupSize k) stop)
    (hlt : groupStart groupSize k < stop) (hstop : stop = min (groupStart groupSize (k + 1)) n)
    (h : HoldsGroups source groupSize n (k + 1) groups) :
    HoldsGroups source groupSize n k (map :: groups) := by
  intro j
  cases j with
  | zero =>
      have hmap : (fun calculator => map.lookup calculator) =
          runsOf source (groupStart groupSize k) stop := by
        funext calculator
        rw [hmap calculator, if_pos hlt]
      rw [List.getElem?_cons_zero, Option.map_some, hmap, Nat.add_zero, if_pos (by omega), hstop]
  | succ j =>
      have hshift : k + (j + 1) = k + 1 + j := by omega
      rw [List.getElem?_cons_succ, h j, hshift]

/-- What the loop adds to the result, from an index in the {lit}`k`-th group on. -/
theorem groupedFrom_eq (hruns : HasRuns source n) (hsize : 1 ≤ groupSize) {k idx : Nat}
    (hstart : groupStart groupSize k ≤ idx) (hidx : idx < groupStart groupSize (k + 1))
    (hn : idx ≤ n) (h : Holds source map (groupStart groupSize k) idx)
    (result : List (QuantityMap Calculator Outputs)) :
    ∃ groups, groupedFrom source groupSize idx map result = result ++ groups ∧
      HoldsGroups source groupSize n k groups := by
  induction hleft : n - idx generalizing k idx map result with
  | zero =>
      obtain rfl : idx = n := by omega
      have hfound : ¬(addRun source idx map).1 = true := by
        rw [found_addRun, hruns.mostRuns_eq]
        exact Nat.lt_irrefl _
      have hmap := h.addRun_end hruns (Nat.le_refl _)
      have hkeys := hmap.keys_pos_iff hruns (Nat.le_refl _)
      rw [groupedFrom, if_neg hfound]
      by_cases hlt : groupStart groupSize k < idx
      · rw [if_pos (hkeys.mpr hlt)]
        refine ⟨[_], rfl, ?_⟩
        apply HoldsGroups.cons hmap hlt (by omega)
        apply holdsGroups_nil
        omega
      · rw [if_neg (fun hpos => hlt (hkeys.mp hpos))]
        exact ⟨[], (List.append_nil _).symm, holdsGroups_nil (by omega)⟩
  | succ m ih =>
      have hlt : idx < n := by omega
      have hfound : (addRun source idx map).1 = true := by
        rw [found_addRun, hruns.mostRuns_eq]
        exact hlt
      have hmap := h.addRun hruns hstart hlt
      rw [groupedFrom, if_pos hfound]
      by_cases hlast : idx + 1 = groupStart groupSize (k + 1)
      · rw [if_pos ((new_map_iff hsize hstart hidx).mpr hlast)]
        have hempty := holds_empty source (idx + 1)
        rw [hlast] at hempty hmap ⊢
        have hnext : groupStart groupSize (k + 1) < groupStart groupSize (k + 1 + 1) := by
          apply Nat.succ_lt_succ
          exact Nat.mul_lt_mul_of_pos_right (Nat.lt_succ_self _) hsize
        rcases ih (Nat.le_refl _) hnext (by omega) hempty (result ++ [(addRun source idx map).2])
          (by omega) with ⟨groups, heq, hgroups⟩
        refine ⟨(addRun source idx map).2 :: groups, ?_, ?_⟩
        · rw [heq, List.append_assoc, List.singleton_append]
        · exact HoldsGroups.cons hmap (by omega) (by omega) hgroups
      · rw [if_neg (fun hnew => hlast ((new_map_iff hsize hstart hidx).mp hnew))]
        exact ih (by omega) (by omega) (by omega) hmap result (by omega)

/-- A group ends with each run whose index is a multiple of the group size and not zero. -/
theorem getElem?_grouped (hruns : HasRuns source n) (hsize : 1 ≤ groupSize) (k : Nat) :
    ((grouped source groupSize)[k]?).map (fun map calculator => map.lookup calculator) =
      if groupStart groupSize k < n then
        some (runsOf source (groupStart groupSize k) (min (groupStart groupSize (k + 1)) n))
      else none := by
  obtain ⟨groups, heq, hgroups⟩ : ∃ groups,
      groupedFrom source groupSize 0 ∅ [] = [] ++ groups ∧ HoldsGroups source groupSize n 0 groups :=
    groupedFrom_eq hruns hsize (Nat.zero_le _) (Nat.succ_pos _) (Nat.zero_le _)
      (holds_empty source 0) []
  rw [List.nil_append] at heq
  have hgroup := hgroups k
  rw [Nat.zero_add] at hgroup
  rw [grouped, heq, hgroup]

/-- What the loop of {lit}`getRunMaps` returns from an index on. -/
theorem getElem?_runMapsFrom (hruns : HasRuns source n) {idx : Nat} (hn : idx ≤ n) (k : Nat) :
    ((runMapsFrom source idx)[k]?).map (fun map calculator => map.lookup calculator) =
      if idx + k < n then
        some (fun calculator => (source.lookup calculator).bind (·[idx + k]?))
      else none := by
  induction hleft : n - idx generalizing idx k with
  | zero =>
      have hfound : ¬(putRun source idx).1 = true := by
        rw [found_putRun, hruns.mostRuns_eq]
        omega
      rw [runMapsFrom, if_neg hfound, if_neg (by omega)]
      rfl
  | succ m ih =>
      have hfound : (putRun source idx).1 = true := by
        rw [found_putRun, hruns.mostRuns_eq]
        omega
      rw [runMapsFrom, if_pos hfound]
      cases k with
      | zero =>
          rw [List.getElem?_cons_zero, Option.map_some, Nat.add_zero, if_pos (by omega)]
          exact congrArg some (funext lookup_putRun)
      | succ k =>
          have hshift : idx + (k + 1) = idx + 1 + k := by omega
          rw [List.getElem?_cons_succ, ih (by omega) k (by omega), hshift]

/-- There is one map for each run. -/
theorem getElem?_getRunMaps (hruns : HasRuns source n) (k : Nat) :
    ((getRunMaps source)[k]?).map (fun map calculator => map.lookup calculator) =
      if k < n then some (fun calculator => (source.lookup calculator).bind (·[k]?)) else none := by
  rw [getRunMaps, getElem?_runMapsFrom hruns (Nat.zero_le _), Nat.zero_add]

end Groups

/-! ## Groups of the given size -/

section GroupSize

variable {source : QuantityMap Calculator Outputs} {n groupSize : Nat}

/-- The runs are split into groups of the given size, of which only the last may be smaller. -/
structure GroupsRuns (source : QuantityMap Calculator Outputs) (n groupSize : Nat) : Prop where
  length_eq : (grouped source groupSize).length = (n + groupSize - 1) / groupSize
  lookup_eq : ∀ k map, (grouped source groupSize)[k]? = some map → ∀ calculator,
    map.lookup calculator =
      runsOf source (k * groupSize) (min ((k + 1) * groupSize) n) calculator
  concatenated : ∀ calculator runs, source.lookup calculator = some runs →
    (grouped source groupSize).flatMap (fun map => (map.lookup calculator).getD []) = runs
  single : groupSize = 1 →
    List.Forall₂ (fun map runMap => ∀ calculator,
      map.lookup calculator = (runMap.lookup calculator).map fun run => [run])
      (grouped source groupSize) (getRunMaps source)

/-- If the runs are grouped as they should be, there is one group at most. -/
theorem GroupsRuns.le (h : GroupsRuns source n groupSize) (hruns : HasRuns source n)
    (hsize : 1 ≤ groupSize) : n ≤ groupSize := by
  by_contra hlt
  rw [Nat.not_le] at hlt
  have hfirst := getElem?_grouped hruns hsize 0
  rw [groupStart, if_pos (by omega)] at hfirst
  rcases Option.map_eq_some_iff.mp hfirst with ⟨map, hmap, hlookup⟩
  rcases hruns.exists_lookup (by omega) with ⟨calculator, runs, hsource⟩
  have hgiven := (congrFun hlookup calculator).symm.trans (h.lookup_eq 0 map hmap calculator)
  have hlength := hruns.length_lookup hsource
  rw [runsOf, runsOf, hsource, Option.map_some, Option.map_some, Option.some.injEq] at hgiven
  have hcount := congrArg List.length hgiven
  rw [length_slice, length_slice, groupStart] at hcount
  omega

/-- Where there are no runs, no map is returned, neither for groups nor for runs. -/
theorem grouped_zero (hruns : HasRuns source 0) (hsize : 1 ≤ groupSize) :
    grouped source groupSize = [] ∧ getRunMaps source = [] := by
  have hgroup := getElem?_grouped hruns hsize 0
  have hrun := getElem?_getRunMaps hruns 0
  rw [if_neg (Nat.not_lt_zero _), Option.map_eq_none_iff, List.getElem?_eq_none_iff,
    Nat.le_zero, List.length_eq_zero_iff] at hgroup hrun
  exact ⟨hgroup, hrun⟩

/-- Where all runs fit into one group, they are returned in one map. -/
theorem grouped_of_le (hruns : HasRuns source n) (hsize : 1 ≤ groupSize) (hpos : 0 < n)
    (hn : n ≤ groupSize) : ∃ map, grouped source groupSize = [map] ∧
      ∀ calculator, map.lookup calculator = runsOf source 0 n calculator := by
  have hfirst := getElem?_grouped hruns hsize 0
  have hsecond := getElem?_grouped hruns hsize 1
  rw [groupStart, if_pos hpos] at hfirst
  rw [groupStart, if_neg (by omega), Option.map_eq_none_iff, List.getElem?_eq_none_iff] at hsecond
  rcases Option.map_eq_some_iff.mp hfirst with ⟨map, hmap, hlookup⟩
  refine ⟨map, ?_, ?_⟩
  · rcases List.getElem?_eq_some_iff.mp hmap with ⟨hlength, hget⟩
    have hone : (grouped source groupSize).length = 1 := by omega
    rcases List.length_eq_one_iff.mp hone with ⟨map', hmap'⟩
    rw [hmap', List.getElem?_cons_zero, Option.some.injEq] at hmap
    rw [hmap', hmap]
  · intro calculator
    have hstop : min (groupStart groupSize (0 + 1)) n = n := by
      rw [groupStart]
      omega
    rw [hstop] at hlookup
    exact congrFun hlookup calculator

/-- Where there is one run, there is one map for it. -/
theorem getRunMaps_one (hruns : HasRuns source 1) : ∃ runMap, getRunMaps source = [runMap] ∧
    ∀ calculator, runMap.lookup calculator = (source.lookup calculator).bind (·[0]?) := by
  have hfirst := getElem?_getRunMaps hruns 0
  have hsecond := getElem?_getRunMaps hruns 1
  rw [if_pos Nat.one_pos] at hfirst
  rw [if_neg (Nat.lt_irrefl _), Option.map_eq_none_iff, List.getElem?_eq_none_iff] at hsecond
  rcases Option.map_eq_some_iff.mp hfirst with ⟨runMap, hrunMap, hlookup⟩
  refine ⟨runMap, ?_, congrFun hlookup⟩
  rcases List.getElem?_eq_some_iff.mp hrunMap with ⟨hlength, hget⟩
  have hone : (getRunMaps source).length = 1 := by omega
  rcases List.length_eq_one_iff.mp hone with ⟨runMap', hrunMap'⟩
  rw [hrunMap', List.getElem?_cons_zero, Option.some.injEq] at hrunMap
  rw [hrunMap', hrunMap]

/-- A single run is the list of itself. -/
theorem runsOf_one (hruns : HasRuns source 1) (calculator : Calculator) :
    runsOf source 0 1 calculator =
      ((source.lookup calculator).bind (·[0]?)).map fun run => [run] := by
  cases hlookup : source.lookup calculator with
  | none => rw [runsOf, hlookup]; rfl
  | some runs =>
      rcases List.length_eq_one_iff.mp (hruns.length_lookup hlookup) with ⟨run, rfl⟩
      rw [runsOf, hlookup]
      rfl

/-- The groups have the given size exactly where all runs fit into the first. -/
theorem groupsRuns_iff (hruns : HasRuns source n) (hsize : 1 ≤ groupSize) :
    GroupsRuns source n groupSize ↔ n ≤ groupSize := by
  refine ⟨fun h => h.le hruns hsize, fun hn => ?_⟩
  rcases Nat.eq_zero_or_pos n with rfl | hpos
  · rcases grouped_zero hruns hsize with ⟨hgrouped, hrunMaps⟩
    constructor
    case length_eq =>
      rw [hgrouped, Nat.zero_add, Nat.div_eq_of_lt (by omega)]
      rfl
    case lookup_eq =>
      intro k map hmap
      rw [hgrouped] at hmap
      cases hmap
    case concatenated =>
      intro calculator runs hlookup
      rw [hgrouped, List.length_eq_zero_iff.mp (hruns.length_lookup hlookup)]
      rfl
    case single =>
      intro _
      rw [hgrouped, hrunMaps]
      exact List.Forall₂.nil
  · rcases grouped_of_le hruns hsize hpos hn with ⟨map, hgrouped, hlookup⟩
    constructor
    case length_eq =>
      have hdiv : (n + groupSize - 1) / groupSize = 1 :=
        Nat.div_eq_of_lt_le (by omega) (by omega)
      rw [hgrouped, hdiv]
      rfl
    case lookup_eq =>
      intro k map' hmap calculator
      rw [hgrouped] at hmap
      cases k with
      | zero =>
          cases hmap
          have hstop : min ((0 + 1) * groupSize) n = n := by omega
          rw [hlookup, hstop, Nat.zero_mul]
      | succ k => cases hmap
    case concatenated =>
      intro calculator runs hsource
      have hlength := hruns.length_lookup hsource
      rw [hgrouped, List.flatMap_singleton, hlookup, runsOf, hsource, Option.map_some,
        Option.getD_some, slice_all (by omega)]
    case single =>
      rintro rfl
      obtain rfl : n = 1 := by omega
      rcases getRunMaps_one hruns with ⟨runMap, hrunMaps, hrun⟩
      rw [hgrouped, hrunMaps]
      apply List.Forall₂.cons _ List.Forall₂.nil
      intro calculator
      rw [hlookup, hrun, runsOf_one hruns]

/-- A calculator with two runs. -/
def twoRuns : QuantityMap Nat Nat :=
  ⟨[⟨0, [10, 20]⟩], List.nodupKeys_singleton _⟩

/-- The example has two runs. -/
theorem hasRuns_twoRuns : HasRuns twoRuns 2 :=
  ⟨by decide, fun h => by cases h⟩

/-- Two runs in one group of two. -/
theorem groupsRuns_twoRuns : GroupsRuns twoRuns 2 2 ↔ 2 ≤ 2 :=
  groupsRuns_iff hasRuns_twoRuns (by decide)

/-- With group size one, both runs get into one group. -/
theorem not_groupsRuns :
    ¬∀ (source : QuantityMap Nat Nat) (n groupSize : Nat),
      HasRuns source n → 1 ≤ groupSize → GroupsRuns source n groupSize := by
  intro h
  have hsingle := (h twoRuns 2 1 hasRuns_twoRuns (by decide)).le hasRuns_twoRuns (by decide)
  omega

end GroupSize

end Grouping
end Quantities
end Roofline
