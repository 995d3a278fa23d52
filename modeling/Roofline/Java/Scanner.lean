import Roofline.Java.Throwable
import Roofline.Library.Decimals
import Roofline.Library.Integers

/-!
# The scanner of Java

{lit}`java.util.Scanner` on a text: tokens are separated by white space, which is skipped
before a token but not after it, and lines end at any line separator.  A scanner is the
text that is left.

Main results:

- Theorem {lit}`nextToken_token`: a token is found behind white space.
- Theorem {lit}`hasNext_eq_false`: a pattern with white space matches no token.
- Theorem {lit}`nextLine_line`: a line without separators is read.
-/

namespace Roofline
namespace Scanner

open Decimals Integers

/-! ## Tokens -/

/-- {lit}`Character.isWhitespace`. -/
def isWhitespace (c : Char) : Bool :=
  ('\t' ≤ c && c ≤ '\r') || ('\x1c' ≤ c && c ≤ ' ') || c == '\u1680' ||
    ('\u2000' ≤ c && c ≤ '\u200a' && c != '\u2007') || c == '\u2028' || c == '\u2029' ||
    c == '\u205f' || c == '\u3000'

/-- The next token and what follows it. -/
def nextToken (scanner : List Char) : Option (List Char × List Char) :=
  let text := scanner.dropWhile isWhitespace
  match text.takeWhile fun c => !isWhitespace c with
  | [] => none
  | token => some (token, text.dropWhile fun c => !isWhitespace c)

/-- {lit}`hasNext` for a pattern that stands for itself. -/
def hasNext (pattern scanner : List Char) : Bool :=
  (nextToken scanner).any fun found => found.1 == pattern

/-- {lit}`next` for a pattern that stands for itself. -/
def next (pattern scanner : List Char) : Except Throwable (List Char) :=
  match nextToken scanner with
  | none => throw .noSuchElementException
  | some (token, rest) =>
      if token = pattern then return rest else throw .inputMismatchException

/-- The next token, converted to a value. -/
def nextValue {α : Type} (parse : List Char → Option α) (scanner : List Char) :
    Except Throwable (α × List Char) :=
  match nextToken scanner with
  | none => throw .noSuchElementException
  | some (token, rest) =>
      match parse token with
      | none => throw .inputMismatchException
      | some value => return (value, rest)

/-- What the locale of a scanner decides: which tokens are integers besides plain decimal
numerals, and which are floating point numbers. -/
structure Locale (Double : Type) where
  integer : List Char → Option Int
  double : List Char → Option Double

section Numbers

variable {Double : Type} (locale : Locale Double)

/-- An integer in decimal or as the locale writes it. -/
def parseInteger (token : List Char) : Option Int :=
  (parseDecimal token).or (locale.integer token)

/-- {lit}`nextInt()` -/
def nextInt : List Char → Except Throwable (Signed 32 × List Char) :=
  nextValue fun token => (parseInteger locale token).bind (Signed.ofInt? 32)

/-- {lit}`nextLong()` -/
def nextLong : List Char → Except Throwable (Signed 64 × List Char) :=
  nextValue fun token => (parseInteger locale token).bind (Signed.ofInt? 64)

/-- {lit}`nextBigInteger()` -/
def nextBigInteger : List Char → Except Throwable (Int × List Char) :=
  nextValue (parseInteger locale)

/-- {lit}`nextDouble()` -/
def nextDouble : List Char → Except Throwable (Double × List Char) :=
  nextValue locale.double

end Numbers

/-- A text that is one token. -/
structure IsToken (token : List Char) : Prop where
  nonempty : token ≠ []
  chars : ∀ c ∈ token, isWhitespace c = false

/-- Characters without white space are a token. -/
theorem isToken_of_all {token : List Char} (hnonempty : token.isEmpty = false)
    (hchars : token.all (fun c => !isWhitespace c) = true) : IsToken token := by
  refine ⟨List.isEmpty_eq_false_iff.mp hnonempty, ?_⟩
  intro c hc
  have hchar := List.all_eq_true.mp hchars c hc
  simpa using hchar

/-- A token is found behind white space and up to the next white space. -/
theorem nextToken_token {token : List Char} (h : IsToken token) {space : List Char}
    (hspace : ∀ c ∈ space, isWhitespace c = true) {first : Char}
    (hfirst : isWhitespace first = true) (rest : List Char) :
    nextToken (space ++ (token ++ first :: rest)) = some (token, first :: rest) := by
  rcases htoken : token with _ | ⟨c, cs⟩
  · exact absurd htoken h.nonempty
  · rw [← htoken]
    have hchars : ∀ c ∈ token, (!isWhitespace c) = true := by
      intro c hc
      rw [h.chars c hc]
      rfl
    have hskip : (space ++ (token ++ first :: rest)).dropWhile isWhitespace =
        token ++ first :: rest := by
      rw [List.dropWhile_append_of_pos hspace, htoken, List.cons_append,
        List.dropWhile_cons_of_neg]
      rw [h.chars c (by rw [htoken]; exact List.mem_cons_self ..)]
      exact Bool.false_ne_true
    have htake : (token ++ first :: rest).takeWhile (fun c => !isWhitespace c) = token := by
      rw [List.takeWhile_append_of_pos hchars, List.takeWhile_cons_of_neg (by simp [hfirst]),
        List.append_nil]
    have hdrop : (token ++ first :: rest).dropWhile (fun c => !isWhitespace c) =
        first :: rest := by
      rw [List.dropWhile_append_of_pos hchars, List.dropWhile_cons_of_neg (by simp [hfirst])]
    simp only [nextToken, hskip, htake, hdrop]
    rw [htoken]

/-- A token has no white space. -/
theorem isToken_of_nextToken {scanner token rest : List Char}
    (h : nextToken scanner = some (token, rest)) : IsToken token := by
  unfold nextToken at h
  simp only at h
  split at h
  · cases h
  · rename_i hne
    obtain ⟨rfl, -⟩ := Prod.mk.inj (Option.some.inj h)
    refine ⟨hne, ?_⟩
    intro c hc
    have hchar := List.mem_takeWhile_imp hc
    simpa using hchar

/-- A pattern with white space matches no token. -/
theorem hasNext_eq_false {pattern : List Char} {c : Char} (hc : c ∈ pattern)
    (hspace : isWhitespace c = true) (scanner : List Char) : hasNext pattern scanner = false := by
  cases hfound : nextToken scanner with
  | none => simp [hasNext, hfound]
  | some found =>
      have hne : found.1 ≠ pattern := by
        intro heq
        have hchar := (isToken_of_nextToken hfound).chars c (heq ▸ hc)
        rw [hspace] at hchar
        cases hchar
      simpa [hasNext, hfound] using hne

section Found

variable {token : List Char} (h : IsToken token) {space : List Char}
  (hspace : ∀ c ∈ space, isWhitespace c = true) {first : Char}
  (hfirst : isWhitespace first = true) (rest : List Char)

include h hspace hfirst

/-- The next token is compared with the pattern as a whole. -/
theorem hasNext_token (pattern : List Char) :
    hasNext pattern (space ++ (token ++ first :: rest)) = (token == pattern) := by
  simp [hasNext, nextToken_token h hspace hfirst]

/-- Reading a token stops behind it. -/
theorem next_token :
    next token (space ++ (token ++ first :: rest)) = .ok (first :: rest) := by
  simp only [next, nextToken_token h hspace hfirst]
  rw [if_pos trivial]
  rfl

/-- Reading a value from a token stops behind it. -/
theorem nextValue_token {α : Type} {parse : List Char → Option α} {value : α}
    (hparse : parse token = some value) :
    nextValue parse (space ++ (token ++ first :: rest)) = .ok (value, first :: rest) := by
  simp only [nextValue, nextToken_token h hspace hfirst, hparse]
  rfl

end Found

/-- The visible ASCII characters are no white space. -/
theorem isWhitespace_of_visible {c : Char} (hlow : '!' ≤ c) (hhigh : c ≤ '~') :
    isWhitespace c = false := by
  have hbelow : ∀ d : Char, d < '!' → ¬c ≤ d := by
    intro d hd hcd
    exact absurd (UInt32.le_trans hlow hcd) (UInt32.not_le.mpr hd)
  have habove : ∀ d : Char, '~' < d → ¬d ≤ c := by
    intro d hd hdc
    exact absurd (UInt32.le_trans hdc hhigh) (UInt32.not_le.mpr hd)
  have hne : ∀ d : Char, '~' < d → c ≠ d := by
    rintro d hd rfl
    exact habove c hd (UInt32.le_refl _)
  simp [isWhitespace, hbelow '\r' (by decide), hbelow ' ' (by decide),
    habove '\u2000' (by decide), hne '\u1680' (by decide), hne '\u2028' (by decide),
    hne '\u2029' (by decide), hne '\u205f' (by decide), hne '\u3000' (by decide)]

/-- Digits are no white space. -/
theorem isWhitespace_of_isDigit {c : Char} (h : c.isDigit = true) : isWhitespace c = false := by
  simp only [Char.isDigit, ge_iff_le, Bool.and_eq_true, decide_eq_true_eq] at h
  apply isWhitespace_of_visible
  · exact UInt32.le_trans (by decide) h.1
  · exact UInt32.le_trans h.2 (by decide)

/-- Nor are letters. -/
theorem isWhitespace_of_isAlphanum {c : Char} (h : c.isAlphanum = true) :
    isWhitespace c = false := by
  have hkinds : (c.isUpper || c.isLower || c.isDigit) = true := h
  simp only [Bool.or_eq_true] at hkinds
  rcases hkinds with (hupper | hlower) | hdigit
  · have hrange : c.val ≥ 'A'.val ∧ c.val ≤ 'Z'.val := of_decide_eq_true hupper
    apply isWhitespace_of_visible
    · exact UInt32.le_trans (by decide) hrange.1
    · exact UInt32.le_trans hrange.2 (by decide)
  · have hrange : (decide (c.val ≥ 'a'.val) && decide (c.val ≤ 'z'.val)) = true := hlower
    rw [Bool.and_eq_true, decide_eq_true_eq, decide_eq_true_eq] at hrange
    apply isWhitespace_of_visible
    · exact UInt32.le_trans (by decide) hrange.1
    · exact UInt32.le_trans hrange.2 (by decide)
  · exact isWhitespace_of_isDigit hdigit

/-- A decimal numeral is a token. -/
theorem isToken_decimal (i : Int) : IsToken (decimal i) := by
  refine ⟨decimal_ne_nil i, ?_⟩
  intro c hc
  rcases isNumeralChar_of_mem_decimal hc with rfl | hdigit
  · decide
  · exact isWhitespace_of_isDigit hdigit

/-- A printed number is parsed as it was. -/
theorem parseInteger_decimal {Double : Type} (locale : Locale Double) (i : Int) :
    parseInteger locale (decimal i) = some i := by
  rw [parseInteger, parseDecimal_decimal, Option.some_or]

/-! ## Lines -/

/-- The characters that end a line. -/
def isLineSeparator (c : Char) : Bool :=
  c == '\n' || c == '\r' || c == '\u2028' || c == '\u2029' || c == '\u0085'

/-- {lit}`nextLine`. -/
def nextLine (scanner : List Char) : Except Throwable (List Char × List Char) :=
  let line := scanner.takeWhile fun c => !isLineSeparator c
  match scanner.dropWhile fun c => !isLineSeparator c with
  | [] => if line = [] then throw .noSuchElementException else return (line, [])
  | '\r' :: '\n' :: rest => return (line, rest)
  | _ :: rest => return (line, rest)

/-- A line without separators is read. -/
theorem nextLine_line {line : List Char} (h : ∀ c ∈ line, isLineSeparator c = false)
    (rest : List Char) : nextLine (line ++ '\n' :: rest) = .ok (line, rest) := by
  have hchars : ∀ c ∈ line, (!isLineSeparator c) = true := by
    intro c hc
    rw [h c hc]
    rfl
  have htake : (line ++ '\n' :: rest).takeWhile (fun c => !isLineSeparator c) = line := by
    rw [List.takeWhile_append_of_pos hchars]
    exact List.append_nil _
  have hdrop : (line ++ '\n' :: rest).dropWhile (fun c => !isLineSeparator c) = '\n' :: rest := by
    rw [List.dropWhile_append_of_pos hchars]
    rfl
  simp only [nextLine, htake, hdrop]
  rfl

end Scanner
end Roofline
