import Mathlib.Data.List.Nodup
import Mathlib.Data.List.Perm.Basic
import Mathlib.Tactic.Common

/-!
# Library - Columns of ragged tables

A table is a list of rows of different lengths.  Its columns hold the same elements as its
rows, and an element that occurs once in the table is in exactly one of the columns.

Main results:

- Theorem {lit}`flatMap_column_perm`: the columns hold what the rows hold.
- Theorem {lit}`existsUnique_of_nodup_flatten`: without duplicates an element is in one list only.
-/

namespace Roofline
namespace Columns

variable {α : Type*}

/-- What the rows that are long enough hold at this position. -/
def column (rows : List (List α)) (i : Nat) : List α :=
  rows.flatMap fun row => row[i]?.toList

/-- The elements of a row by their indices are the row. -/
theorem flatMap_range_getElem? (row : List α) {n : Nat} (h : row.length ≤ n) :
    ((List.range n).flatMap fun i => row[i]?.toList) = row := by
  induction row generalizing n with
  | nil => simp
  | cons a row ih =>
      cases n with
      | zero => simp at h
      | succ n =>
          have hlength : row.length ≤ n := Nat.le_of_succ_le_succ h
          rw [List.range_succ_eq_map, List.flatMap_cons, List.flatMap_map]
          simpa using ih hlength

/-- The columns hold what the rows hold. -/
theorem flatMap_column_perm {rows : List (List α)} {n : Nat} (h : ∀ row ∈ rows, row.length ≤ n) :
    ((List.range n).flatMap (column rows)).Perm rows.flatten := by
  induction rows with
  | nil => simp [column]
  | cons row rows ih =>
      have hcolumn : column (row :: rows) = fun i => row[i]?.toList ++ column rows i := by
        funext i
        rw [column, List.flatMap_cons]
        rfl
      rw [List.forall_mem_cons] at h
      rw [hcolumn, List.flatten_cons]
      apply (List.flatMap_append_perm _ _ _).symm.trans
      rw [flatMap_range_getElem? row h.1]
      exact (ih h.2).append_left row

/-- Without duplicates an element is in one list only. -/
theorem existsUnique_of_nodup_flatten {lists : List (List α)} (h : lists.flatten.Nodup) {a : α}
    (ha : a ∈ lists.flatten) : ∃! i : Nat, ∃ list, lists[i]? = some list ∧ a ∈ list := by
  rw [List.nodup_flatten] at h
  have hdisjoint := List.pairwise_iff_getElem.mp h.2
  rw [List.mem_flatten] at ha
  rcases ha with ⟨list, hlist, hmem⟩
  rcases List.getElem?_of_mem hlist with ⟨i, hi⟩
  refine ⟨i, ⟨list, hi, hmem⟩, ?_⟩
  rintro j ⟨other, hj, hother⟩
  obtain ⟨hilt, rfl⟩ := List.getElem?_eq_some_iff.mp hi
  obtain ⟨hjlt, rfl⟩ := List.getElem?_eq_some_iff.mp hj
  rcases Nat.lt_trichotomy i j with hlt | heq | hgt
  · exact absurd hother (hdisjoint i j hilt hjlt hlt hmem)
  · exact heq.symm
  · exact absurd hmem (hdisjoint j i hjlt hilt hgt hother)

end Columns
end Roofline
