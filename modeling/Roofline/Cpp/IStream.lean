import Roofline.Library.Decimals
import Roofline.Library.Integers

/-!
# Input streams and formatted input of C++

Input streams as far as {lit}`getline` uses them, and {lit}`sscanf` with one conversion.

Main results:

- Theorem {lit}`getline_line`: a line that ends with a newline is read.
- Theorems {lit}`scanD_decimal`, {lit}`scanU_decimal` and {lit}`scanI_decimal`: a printed
  integer in range is scanned.
-/

namespace Roofline
namespace Cpp

open Decimals Integers

/-! ## Streams -/

/-- What can still be read from a stream, and its state flags. -/
structure IStream where
  rest : List Char
  eof : Bool
  fail : Bool
deriving DecidableEq

/-- {lit}`good()` -/
def IStream.good (input : IStream) : Bool :=
  !input.eof && !input.fail

/-- {lit}`getline`, with the old value of the string, which a stream that is not good
leaves as it is. -/
def getline (input : IStream) (line : List Char) : List Char × IStream :=
  if input.good then
    match input.rest.dropWhile (· != '\n') with
    | [] => (input.rest, { rest := [], eof := true, fail := input.rest.isEmpty })
    | _ :: rest => (input.rest.takeWhile (· != '\n'), { input with rest })
  else
    (line, { input with fail := true })

/-- A good stream with this text. -/
def IStream.of (text : List Char) : IStream where
  rest := text
  eof := false
  fail := false

/-- A line that ends with a newline is read. -/
theorem getline_line {text : List Char} (htext : '\n' ∉ text) (rest line : List Char) :
    getline (.of (text ++ '\n' :: rest)) line = (text, .of rest) := by
  have hchars : ∀ c ∈ text, (c != '\n') = true := by
    intro c hc
    rw [bne_iff_ne]
    rintro rfl
    exact htext hc
  have hdrop : (text ++ '\n' :: rest).dropWhile (· != '\n') = '\n' :: rest := by
    rw [List.dropWhile_append_of_pos hchars]
    simp
  have htake : (text ++ '\n' :: rest).takeWhile (· != '\n') = text := by
    rw [List.takeWhile_append_of_pos hchars]
    simp
  simp only [getline, IStream.of, IStream.good, hdrop, htake]
  rfl

/-! ## Conversions -/

/-- {lit}`isspace`. -/
def isSpace (c : Char) : Bool :=
  c == ' ' || ('\t' ≤ c && c ≤ '\r')

/-- Leading white space is skipped. -/
def skipSpace (text : List Char) : List Char :=
  text.dropWhile isSpace

/-- The number a decimal conversion reads, whatever its size. -/
def scanNumber (text : List Char) : Option Int :=
  takeDecimal (skipSpace text)

/-- {lit}`%d` and its variants for longer integers: a number of 64 bits is read, of which
the lowest bits are stored. -/
def scanD (bits : Nat) (text : List Char) : Option (Signed bits) :=
  (scanNumber text).map fun i => .wrap bits (saturate i)

/-- {lit}`%u` for integers of 64 bits. -/
def scanU (text : List Char) : Option Int :=
  (scanNumber text).map fun i => if 2 ^ 64 ≤ i.natAbs then 2 ^ 64 - 1 else i % 2 ^ 64

/-- The value of a decimal or hexadecimal digit. -/
def digitValue (c : Char) : Option Nat :=
  if c.isDigit then some (c.toNat - '0'.toNat)
  else if 'a' ≤ c ∧ c ≤ 'f' then some (c.toNat - 'a'.toNat + 10)
  else if 'A' ≤ c ∧ c ≤ 'F' then some (c.toNat - 'A'.toNat + 10)
  else none

/-- The number the digits at the beginning of a text stand for. -/
def basedValue (base : Nat) : Nat → List Char → Nat
  | value, [] => value
  | value, c :: text =>
      match digitValue c with
      | none => value
      | some digit => if digit < base then basedValue base (base * value + digit) text else value

/-- A number whose base is recognised from its prefix. -/
def takeUnsigned : List Char → Option Nat
  | '0' :: 'x' :: text =>
      if (text.head?.bind digitValue).isSome then some (basedValue 16 0 text) else none
  | '0' :: 'X' :: text =>
      if (text.head?.bind digitValue).isSome then some (basedValue 16 0 text) else none
  | '0' :: text => some (basedValue 8 0 text)
  | text => parseDigits (text.takeWhile Char.isDigit)

/-- A number with an optional sign. -/
def takeInteger : List Char → Option Int
  | '-' :: text => (takeUnsigned text).map fun n : Nat => -(n : Int)
  | '+' :: text => (takeUnsigned text).map fun n : Nat => (n : Int)
  | text => (takeUnsigned text).map fun n : Nat => (n : Int)

/-- {lit}`%i`. -/
def scanI (bits : Nat) (text : List Char) : Option (Signed bits) :=
  (takeInteger (skipSpace text)).map fun i => .wrap bits (saturate i)

/-- Digits are no white space. -/
theorem isSpace_of_isDigit {c : Char} (h : c.isDigit = true) : isSpace c = false := by
  simp only [Char.isDigit, ge_iff_le, Bool.and_eq_true, decide_eq_true_eq] at h
  have hspace : c ≠ ' ' := by
    rintro rfl
    exact absurd h.1 (by decide)
  have hcontrol : ¬c ≤ '\r' := fun hle => absurd (UInt32.le_trans h.1 hle) (by decide)
  simp [isSpace, hspace, hcontrol]

/-- Printed numbers have no leading white space. -/
theorem skipSpace_decimal (i : Int) : skipSpace (decimal i) = decimal i := by
  by_cases h : i < 0
  · rw [decimal_of_neg h]
    rfl
  · rw [decimal_of_not_neg h]
    rcases toDigits_eq_cons i.natAbs with ⟨c, text, heq, hdigit⟩
    rw [heq, skipSpace, List.dropWhile_cons_of_neg]
    rw [isSpace_of_isDigit hdigit]
    exact Bool.false_ne_true

/-- Numbers in the range of the type are not saturated. -/
theorem saturate_val {bits : Nat} (hbits : bits ≤ 64) (i : Signed bits) :
    saturate i.val = i.val := by
  have hpow : (2 : Int) ^ (bits - 1) ≤ 2 ^ 63 := by
    exact_mod_cast Nat.pow_le_pow_right (by decide) (by omega)
  have hlow := i.property.1
  have hhigh := i.property.2
  exact saturate_of_mem (by omega) (by omega)

/-- A printed number is scanned as it was. -/
theorem scanNumber_decimal (i : Int) : scanNumber (decimal i) = some i := by
  have h : takeDecimal (decimal i ++ []) = some i := takeDecimal_decimal i (by simp)
  rw [List.append_nil] at h
  rw [scanNumber, skipSpace_decimal, h]

/-- The conversion {lit}`%d` reads a printed number that is in the range of the type. -/
theorem scanD_decimal {bits : Nat} (hpos : 0 < bits) (hbits : bits ≤ 64) (i : Signed bits) :
    scanD bits (decimal i.val) = some i := by
  rw [scanD, scanNumber_decimal, Option.map_some, saturate_val hbits, Signed.wrap_val hpos]

/-- The conversion {lit}`%u` reads a printed number of 64 bits that is not negative. -/
theorem scanU_decimal {i : Int} (hlow : 0 ≤ i) (hhigh : i < 2 ^ 64) :
    scanU (decimal i) = some i := by
  rw [scanU, scanNumber_decimal, Option.map_some, if_neg (by omega)]
  congr 1
  omega

/-- The digits of a number are read as the number. -/
theorem takeUnsigned_toDigits (n : Nat) : takeUnsigned (Nat.toDigits 10 n) = some n := by
  by_cases hzero : n = 0
  · subst hzero
    rfl
  · have hhead := head?_toDigits_ne_zero (Nat.pos_of_ne_zero hzero)
    have hall : (Nat.toDigits 10 n).takeWhile Char.isDigit = Nat.toDigits 10 n := by
      have htake : (Nat.toDigits 10 n ++ []).takeWhile Char.isDigit = Nat.toDigits 10 n :=
        takeWhile_toDigits_append n (by simp)
      rwa [List.append_nil] at htake
    unfold takeUnsigned
    split
    · rename_i heq
      simp [heq] at hhead
    · rename_i heq
      simp [heq] at hhead
    · rename_i heq
      simp [heq] at hhead
    · rw [hall, parseDigits_toDigits]

/-- A printed number is read as it was. -/
theorem takeInteger_decimal (i : Int) : takeInteger (decimal i) = some i := by
  by_cases hneg : i < 0
  · rw [decimal_of_neg hneg, takeInteger, takeUnsigned_toDigits]
    simp only [Option.map_some, Option.some.injEq]
    omega
  · rw [decimal_of_not_neg hneg]
    rcases toDigits_eq_cons i.natAbs with ⟨c, text, heq, hdigit⟩
    have hsign := isDigit_ne_sign hdigit
    have hunsigned := takeUnsigned_toDigits i.natAbs
    rw [heq] at hunsigned ⊢
    unfold takeInteger
    split
    · rename_i hcons
      exact absurd (List.cons.inj hcons).1 hsign.1
    · rename_i hcons
      exact absurd (List.cons.inj hcons).1 hsign.2
    · rw [hunsigned, Option.map_some, Option.some.injEq]
      omega

/-- The conversion {lit}`%i` reads a printed number that is in the range of the type. -/
theorem scanI_decimal_val {bits : Nat} (hpos : 0 < bits) (hbits : bits ≤ 64) (i : Signed bits) :
    scanI bits (decimal i.val) = some i := by
  rw [scanI, skipSpace_decimal, takeInteger_decimal, Option.map_some, saturate_val hbits,
    Signed.wrap_val hpos]

/-- The conversion {lit}`%i` reads a printed number that is not negative. -/
theorem scanI_decimal {bits : Nat} (hpos : 0 < bits) (hbits : bits ≤ 64) {n : Nat}
    (hn : n < 2 ^ (bits - 1)) :
    (scanI bits (decimal n)).map Subtype.val = some (n : Int) := by
  have hrange : -2 ^ (bits - 1) ≤ (n : Int) ∧ (n : Int) < 2 ^ (bits - 1) := by
    refine ⟨?_, by exact_mod_cast hn⟩
    have hpow : (0 : Int) < 2 ^ (bits - 1) := by exact_mod_cast Nat.two_pow_pos _
    omega
  have hscan := scanI_decimal_val hpos hbits (⟨n, hrange⟩ : Signed bits)
  rw [hscan]
  rfl

end Cpp
end Roofline
