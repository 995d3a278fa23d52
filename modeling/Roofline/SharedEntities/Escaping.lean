import Roofline.SharedEntities.Definitions

/-!
# Escaping of strings

A string is transported as one line, so newlines in it are escaped.  The same two loops
are written in both languages; they differ in what they throw.

Main results:

- Theorem {lit}`unescape_escape`: escaping is undone.
- Theorem {lit}`newline_not_mem_escape`: an escaped string has no newline.
- Theorem {lit}`mem_of_mem_escape`: its other characters come from the string.
-/

namespace Roofline
namespace SharedEntities

/-- The loop of {lit}`escapeString`. -/
def escape : Text → Text
  | [] => []
  | '\n' :: s => '\\' :: 'n' :: escape s
  | '\\' :: s => '\\' :: '\\' :: escape s
  | ch :: s => ch :: escape s

/-- The loop of {lit}`deEscapeString`. -/
def unescape (invalidString : String) (invalidSequence : Char → String) :
    Text → Except String Text
  | [] => .ok []
  | ['\\'] => .error invalidString
  | '\\' :: '\\' :: s => return '\\' :: (← unescape invalidString invalidSequence s)
  | '\\' :: 'n' :: s => return '\n' :: (← unescape invalidString invalidSequence s)
  | '\\' :: ch :: _ => .error (invalidSequence ch)
  | ch :: s => return ch :: (← unescape invalidString invalidSequence s)

namespace Java

/-- {lit}`escapeString` of the generated Java service. -/
def escapeString (s : Text) : Text :=
  escape s

/-- {lit}`deEscapeString` of the generated Java service. -/
def deEscapeString (s : Text) : Except String Text :=
  unescape "invalid string" (fun ch => "invalid character sequence \\".push ch) s

end Java

namespace Cpp

/-- {lit}`Serializer::escapeString`. -/
def escapeString (s : Text) : Text :=
  escape s

/-- What {lit}`"invalid character sequence \\" + s[i]` points to: the code of the character is added
to the address of the literal.  Behind the end of the literal there is no text. -/
def invalidSequence (ch : Char) : String :=
  String.ofList ("invalid character sequence \\".toList.drop ch.toNat)

/-- {lit}`Serializer::deEscapeString`. -/
def deEscapeString (s : Text) : Except String Text :=
  unescape "invalid string" invalidSequence s

end Cpp

/-- A character that is not special is left as it is. -/
theorem escape_cons {ch : Char} (hnewline : ch ≠ '\n') (hbackslash : ch ≠ '\\') (s : Text) :
    escape (ch :: s) = ch :: escape s := by
  rw [escape]
  · exact hnewline
  · exact hbackslash

/-- A character that is no backslash is left as it is. -/
theorem unescape_cons {ch : Char} (hbackslash : ch ≠ '\\') (invalidString : String)
    (invalidSequence : Char → String) (s : Text) :
    unescape invalidString invalidSequence (ch :: s) =
      return ch :: (← unescape invalidString invalidSequence s) := by
  simp [unescape, hbackslash]

/-- Escaping is undone. -/
theorem unescape_escape (invalidString : String) (invalidSequence : Char → String) (s : Text) :
    unescape invalidString invalidSequence (escape s) = .ok s := by
  induction s with
  | nil => rfl
  | cons ch s ih =>
      by_cases hnewline : ch = '\n'
      · subst hnewline
        simp only [escape, unescape, ih]
        rfl
      · by_cases hbackslash : ch = '\\'
        · subst hbackslash
          simp only [escape, unescape, ih]
          rfl
        · rw [escape_cons hnewline hbackslash, unescape_cons hbackslash, ih]
          rfl

/-- The characters of an escaped string. -/
theorem mem_of_mem_escape {s : Text} {ch : Char} (h : ch ∈ escape s) :
    ch = '\\' ∨ ch = 'n' ∨ (ch ∈ s ∧ ch ≠ '\n') := by
  induction s with
  | nil => simp [escape] at h
  | cons first s ih =>
      by_cases hnewline : first = '\n'
      · subst hnewline
        simp only [escape, List.mem_cons] at h
        grind
      · by_cases hbackslash : first = '\\'
        · subst hbackslash
          simp only [escape, List.mem_cons] at h
          grind
        · rw [escape_cons hnewline hbackslash, List.mem_cons] at h
          grind

/-- An escaped string has no newline. -/
theorem newline_not_mem_escape (s : Text) : '\n' ∉ escape s := by
  intro h
  rcases mem_of_mem_escape h with hbackslash | hn | ⟨_, hne⟩
  · exact absurd hbackslash (by decide)
  · exact absurd hn (by decide)
  · exact hne rfl

end SharedEntities
end Roofline
