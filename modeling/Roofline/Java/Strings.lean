import Mathlib.Data.List.DropRight
import Roofline.Library.Decimals
import Roofline.Library.Integers

/-!
# Strings of Java

{lit}`String.split` for a separator that is a single character, and the conversions of a string
to a number.  A conversion gives {lit}`none` where Java throws a {lit}`NumberFormatException`.

Main results:

- Theorem {lit}`rdropWhile_splitOn`: leaving out the empty parts at the end is the same as
  leaving out the separators at the end.
- Theorem {lit}`split_append_cons`: the parts of a string with a separator.
- Theorem {lit}`split_intercalate`: parts that are joined are found again, unless they are empty.
- Theorem {lit}`parseSigned_toDigits`: a numeral is read if its value is in range.
-/

namespace Roofline
namespace Strings

open Decimals Integers

/-! ## Splitting -/

/-- {lit}`String.split`: a string without a separator is its only part; otherwise empty parts at
the end are left out. -/
def split (separator : Char) (s : List Char) : List (List Char) :=
  if separator ∈ s then (s.splitOn separator).rdropWhile List.isEmpty else [s]

section Splitting

variable {separator : Char}

/-- Without a separator there is one part. -/
theorem split_of_not_mem {s : List Char} (h : separator ∉ s) : split separator s = [s] := by
  rw [split, if_neg h]

/-- A separator at the end adds an empty part. -/
theorem splitOn_concat (s : List Char) :
    (s ++ [separator]).splitOn separator = s.splitOn separator ++ [[]] := by
  rw [List.splitOn_append_cons_self, List.splitOn_nil]

/-- The last part is empty only behind a separator. -/
theorem getLast_splitOn_ne_nil {s : List Char} {c : Char} (h : c ≠ separator) :
    ∃ parts part, (s ++ [c]).splitOn separator = parts ++ [part] ∧ part ≠ [] := by
  induction s with
  | nil =>
      have hmem : separator ∉ [c] := by simpa using h.symm
      exact ⟨[], [c], by simpa using List.splitOn_eq_singleton hmem, by simp⟩
  | cons first s ih =>
      rcases ih with ⟨parts, part, hsplit, hpart⟩
      rw [List.cons_append, List.splitOn_cons_eq_if_modifyHead, hsplit]
      by_cases hfirst : first = separator
      · exact ⟨[] :: parts, part, by simp [hfirst], hpart⟩
      · cases parts with
        | nil => exact ⟨[], first :: part, by simp [hfirst], by simp⟩
        | cons head parts => exact ⟨(first :: head) :: parts, part, by simp [hfirst], hpart⟩

/-- The parts that are left are those of the string without the separators at its end. -/
theorem rdropWhile_splitOn (s : List Char) :
    (s.splitOn separator).rdropWhile List.isEmpty =
      if s.rdropWhile (· == separator) = [] then []
      else (s.rdropWhile (· == separator)).splitOn separator := by
  induction s using List.reverseRecOn with
  | nil => simp [List.rdropWhile]
  | append_singleton s c ih =>
      by_cases hc : c = separator
      · subst hc
        rw [splitOn_concat, List.rdropWhile_concat_pos _ _ _ rfl,
          List.rdropWhile_concat_pos _ _ _ (by simp), ih]
      · rcases getLast_splitOn_ne_nil (s := s) hc with ⟨parts, part, hsplit, hpart⟩
        rw [List.rdropWhile_concat_neg _ _ _ (by simpa using hc), if_neg (by simp), hsplit,
          List.rdropWhile_concat_neg _ _ _ (by simpa using hpart)]

/-- The part before the first separator is there even if it is the only one. -/
theorem split_append_cons {part : List Char} (hmem : separator ∉ part) (hpart : part ≠ [])
    (rest : List Char) :
    split separator (part ++ separator :: rest) =
      part :: (rest.splitOn separator).rdropWhile List.isEmpty := by
  rw [split, if_pos (by simp), List.splitOn_append_cons_self_of_not_mem hmem]
  generalize rest.splitOn separator = parts
  induction parts using List.reverseRecOn with
  | nil =>
      have hempty : part.isEmpty = false := List.isEmpty_eq_false_iff.mpr hpart
      simp [List.rdropWhile_singleton, hempty]
  | append_singleton parts last ih =>
      rw [← List.cons_append]
      by_cases hlast : last.isEmpty = true
      · rw [List.rdropWhile_concat_pos _ _ _ hlast, List.rdropWhile_concat_pos _ _ _ hlast, ih]
      · rw [List.rdropWhile_concat_neg _ _ _ hlast, List.rdropWhile_concat_neg _ _ _ hlast]
        rfl

/-- Parts that are not empty are found again. -/
theorem split_intercalate {parts : List (List Char)} (hparts : parts ≠ [])
    (h : ∀ part ∈ parts, separator ∉ part ∧ part ≠ []) :
    split separator ([separator].intercalate parts) = parts := by
  have hsplit := List.splitOn_intercalate separator (fun part hpart => (h part hpart).1) hparts
  by_cases hmem : separator ∈ [separator].intercalate parts
  · rw [split, if_pos hmem, hsplit, List.rdropWhile_eq_self_iff]
    intro hne
    simpa using (h _ (List.getLast_mem hne)).2
  · rw [split, if_neg hmem, ← List.splitOn_eq_singleton hmem, hsplit]

end Splitting

/-! ## Numbers -/

/-- {lit}`Integer.parseInt` for 32 bits and {lit}`Long.parseLong` for 64 bits.  The numerals with
digits outside of ASCII are given by {lit}`numeral`. -/
def parseSigned (bits : Nat) (numeral : List Char → Option Int) (s : List Char) :
    Option (Signed bits) :=
  ((parseDecimal s).or (numeral s)).bind (Signed.ofInt? bits)

/-- The digits of a number are parsed as the number. -/
theorem parseDecimal_toDigits (n : Nat) : parseDecimal (Nat.toDigits 10 n) = some (n : Int) := by
  rw [← decimal_of_nonneg]
  exact parseDecimal_decimal n

/-- A numeral is read if its value is in range. -/
theorem parseSigned_toDigits (bits : Nat) (numeral : List Char → Option Int) (n : Nat) :
    parseSigned bits numeral (Nat.toDigits 10 n) = Signed.ofInt? bits n := by
  rw [parseSigned, parseDecimal_toDigits]
  rfl

end Strings
end Roofline
