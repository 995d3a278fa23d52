import Mathlib.Data.Int.Basic
import Mathlib.Data.List.TakeWhile
import Mathlib.Tactic.Common

/-!
# Library - Decimal numerals

Printing an integer in decimal and reading it back, once from a text that is nothing
but the numeral and once from the beginning of a text.

Main results:

- Theorem {lit}`parseDecimal_decimal`: a printed integer is read back.
- Theorem {lit}`takeDecimal_decimal`: the same when something follows that is no digit.
- Theorem {lit}`decimal_ne_nil`, {lit}`isNumeralChar_of_mem_decimal`: what the text of a
  numeral looks like.
-/

namespace Roofline
namespace Decimals

/-- The decimal numeral of an integer. -/
def decimal (i : Int) : List Char :=
  if i < 0 then '-' :: Nat.toDigits 10 i.natAbs else Nat.toDigits 10 i.natAbs

/-- The value of a nonempty list of digits. -/
def parseDigits (text : List Char) : Option Nat :=
  if text ≠ [] ∧ text.all Char.isDigit = true then
    some (Nat.ofDigitChars 10 text 0)
  else
    none

/-- The value of a text that is a numeral with an optional sign. -/
def parseDecimal : List Char → Option Int
  | '-' :: text => (parseDigits text).map fun n : Nat => -(n : Int)
  | '+' :: text => (parseDigits text).map fun n : Nat => (n : Int)
  | text => (parseDigits text).map fun n : Nat => (n : Int)

/-- The value of the numeral a text begins with. -/
def takeDecimal : List Char → Option Int
  | '-' :: text => (parseDigits (text.takeWhile Char.isDigit)).map fun n : Nat => -(n : Int)
  | '+' :: text => (parseDigits (text.takeWhile Char.isDigit)).map fun n : Nat => (n : Int)
  | text => (parseDigits (text.takeWhile Char.isDigit)).map fun n : Nat => (n : Int)

/-! ## Digits -/

/-- The digits of a number are digits. -/
theorem isDigit_of_mem_toDigits {n : Nat} {c : Char} (h : c ∈ Nat.toDigits 10 n) :
    c.isDigit = true :=
  Nat.isDigit_of_mem_toDigits (by decide) (by decide) h

/-- All of them are. -/
theorem all_isDigit_toDigits (n : Nat) : (Nat.toDigits 10 n).all Char.isDigit = true := by
  rw [List.all_eq_true]
  intro c hc
  exact isDigit_of_mem_toDigits hc

/-- The digits of a number are parsed as the number. -/
theorem parseDigits_toDigits (n : Nat) : parseDigits (Nat.toDigits 10 n) = some n := by
  rw [parseDigits, if_pos ⟨Nat.toDigits_ne_nil, all_isDigit_toDigits n⟩,
    Nat.ofDigitChars_ten_toDigits]

/-- A numeral without a sign begins with a digit. -/
theorem toDigits_eq_cons (n : Nat) :
    ∃ c text, Nat.toDigits 10 n = c :: text ∧ c.isDigit = true := by
  cases h : Nat.toDigits 10 n with
  | nil => exact absurd h Nat.toDigits_ne_nil
  | cons c text => exact ⟨c, text, rfl, isDigit_of_mem_toDigits (h ▸ List.mem_cons_self ..)⟩

/-- The numeral of a positive number has no leading zero. -/
theorem head?_toDigits_ne_zero {n : Nat} (hpos : 0 < n) :
    (Nat.toDigits 10 n).head? ≠ some '0' := by
  induction n using Nat.strongRecOn with
  | ind n ih =>
      by_cases hbase : 10 ≤ n
      · have hfront := ih (n / 10) (by omega) (by omega)
        rw [Nat.toDigits_of_base_le (by decide) hbase]
        rcases toDigits_eq_cons (n / 10) with ⟨c, text, heq, -⟩
        rw [heq] at hfront ⊢
        exact hfront
      · rw [Nat.toDigits_of_lt_base (by omega)]
        have hdigits : ∀ m < 10, 0 < m → m.digitChar ≠ '0' := by decide
        have hdigit := hdigits n (by omega) hpos
        simpa using hdigit

/-- Digits are no signs. -/
theorem isDigit_ne_sign {c : Char} (h : c.isDigit = true) : c ≠ '-' ∧ c ≠ '+' := by
  constructor
  · rintro rfl
    exact absurd h (by decide)
  · rintro rfl
    exact absurd h (by decide)

/-- The digits in front of anything else are those of the number. -/
theorem takeWhile_toDigits_append (n : Nat) {rest : List Char}
    (hrest : ∀ c ∈ rest.head?, c.isDigit = false) :
    (Nat.toDigits 10 n ++ rest).takeWhile Char.isDigit = Nat.toDigits 10 n := by
  rw [List.takeWhile_append_of_pos fun c hc => isDigit_of_mem_toDigits hc]
  cases rest with
  | nil => simp
  | cons c rest => simp [hrest c (by simp)]

/-! ## Numerals -/

/-- A number that is not negative is printed without a sign. -/
theorem decimal_of_nonneg (n : Nat) : decimal n = Nat.toDigits 10 n := by
  simp [decimal]

/-- A negative number is printed with a minus. -/
theorem decimal_of_neg {i : Int} (h : i < 0) :
    decimal i = '-' :: Nat.toDigits 10 i.natAbs := by
  rw [decimal, if_pos h]

/-- Otherwise its digits are printed. -/
theorem decimal_of_not_neg {i : Int} (h : ¬i < 0) : decimal i = Nat.toDigits 10 i.natAbs := by
  rw [decimal, if_neg h]

/-- Something is printed. -/
theorem decimal_ne_nil (i : Int) : decimal i ≠ [] := by
  by_cases h : i < 0
  · simp [decimal_of_neg h]
  · rw [decimal_of_not_neg h]
    exact Nat.toDigits_ne_nil

/-- The characters of a numeral are digits, but for the sign. -/
theorem isNumeralChar_of_mem_decimal {i : Int} {c : Char} (h : c ∈ decimal i) :
    c = '-' ∨ c.isDigit = true := by
  by_cases hneg : i < 0
  · rw [decimal_of_neg hneg] at h
    rcases List.mem_cons.mp h with hsign | hdigit
    · exact Or.inl hsign
    · exact Or.inr (isDigit_of_mem_toDigits hdigit)
  · rw [decimal_of_not_neg hneg] at h
    exact Or.inr (isDigit_of_mem_toDigits h)

/-- A text without a sign is read as its digits. -/
theorem takeDecimal_unsigned {text : List Char} (h : ∀ c ∈ text.head?, c ≠ '-' ∧ c ≠ '+') :
    takeDecimal text = (parseDigits (text.takeWhile Char.isDigit)).map fun n : Nat => (n : Int) := by
  unfold takeDecimal
  split
  · exact absurd rfl (h '-' rfl).1
  · exact absurd rfl (h '+' rfl).2
  · rfl

/-- A printed integer is read back from the beginning of a text. -/
theorem takeDecimal_decimal (i : Int) {rest : List Char}
    (hrest : ∀ c ∈ rest.head?, c.isDigit = false) : takeDecimal (decimal i ++ rest) = some i := by
  by_cases h : i < 0
  · rw [decimal_of_neg h, List.cons_append]
    simp only [takeDecimal]
    rw [takeWhile_toDigits_append _ hrest, parseDigits_toDigits, Option.map_some]
    congr 1
    omega
  · rw [decimal_of_not_neg h, takeDecimal_unsigned, takeWhile_toDigits_append _ hrest,
      parseDigits_toDigits, Option.map_some]
    · congr 1
      omega
    · rcases toDigits_eq_cons i.natAbs with ⟨c, text, heq, hdigit⟩
      intro d hd
      rw [heq] at hd
      obtain rfl : c = d := by simpa using hd
      exact isDigit_ne_sign hdigit

/-- A printed integer is read back. -/
theorem parseDecimal_decimal (i : Int) : parseDecimal (decimal i) = some i := by
  by_cases h : i < 0
  · rw [decimal_of_neg h]
    simp only [parseDecimal]
    rw [parseDigits_toDigits, Option.map_some]
    congr 1
    omega
  · rw [decimal_of_not_neg h]
    rcases toDigits_eq_cons i.natAbs with ⟨c, text, heq, hdigit⟩
    have hunsigned : parseDecimal (Nat.toDigits 10 i.natAbs) =
        (parseDigits (Nat.toDigits 10 i.natAbs)).map fun n : Nat => (n : Int) := by
      rw [heq]
      unfold parseDecimal
      split
      · rename_i hcons
        exact absurd (List.cons.inj hcons).1 (isDigit_ne_sign hdigit).1
      · rename_i hcons
        exact absurd (List.cons.inj hcons).1 (isDigit_ne_sign hdigit).2
      · rfl
    rw [hunsigned, parseDigits_toDigits, Option.map_some]
    congr 1
    omega

end Decimals
end Roofline
