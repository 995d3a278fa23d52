import Roofline.Cpp.IStream
import Roofline.SharedEntities.EscapeLoops
import Roofline.SharedEntities.JavaService

/-!
# Strings as lines

A string is written as one line, in which newlines are escaped.  The readers of the two
languages do not end a line at the same characters: {lit}`getline` ends it at a newline only,
{lit}`nextLine` at any line separator.

Main results:

- Theorem {lit}`isOneLine_cpp`: for {lit}`getline` every string is one line.
- Theorem {lit}`oneLine_of_readString`: what the scanner reads has no other separators.
- Theorem {lit}`isOneLine_iff`: when a string is one line for both readers.
-/

namespace Roofline
namespace SharedEntities

/-- {lit}`escapeString` of the service that writes. -/
def Service.escapeString : Service → Text → Text
  | .java => Java.escapeString
  | .cpp => Cpp.escapeString

/-- Both services escape in the same way. -/
theorem Service.escapeString_eq (writer : Service) : writer.escapeString = escape := by
  cases writer <;> rfl

/-! ## The two readers -/

/-- The string a service reads from its input, and the input after it. -/
def Service.readString : Service → Text → Option (Text × Text)
  | .java, input =>
      match Scanner.nextLine input with
      | .ok (line, input) => (Java.deEscapeString line).toOption.map fun s => (s, input)
      | .error _ => none
  | .cpp, input =>
      let (line, stream) := Cpp.getline (.of input) []
      (Cpp.deEscapeString line).toOption.map fun s => (s, stream.rest)

/-- The character ends a line for the reader. -/
def Service.endsLine : Service → Char → Bool
  | .java, c => Scanner.isLineSeparator c
  | .cpp, c => c == '\n'

/-- What is written for the string is one line for the reader, and it is read back whatever
follows it. -/
structure IsOneLine (writer reader : Service) (s : Text) : Prop where
  noSeparator : ∀ c ∈ writer.escapeString s, reader.endsLine c = false
  readBack : ∀ rest, reader.readString (writer.escapeString s ++ '\n' :: rest) = some (s, rest)

/-! ## C++ -/

/-- In C++ every string is read back. -/
theorem isOneLine_cpp (writer : Service) (s : Text) : IsOneLine writer .cpp s := by
  have hnewline := newline_not_mem_escape s
  constructor
  case noSeparator =>
    intro c hc
    rw [writer.escapeString_eq] at hc
    apply beq_eq_false_iff_ne.mpr
    rintro rfl
    exact hnewline hc
  case readBack =>
    intro rest
    have hvalue : Cpp.deEscapeString (escape s) = .ok s := unescape_escape _ _ s
    simp only [Service.readString, writer.escapeString_eq, Cpp.getline_line hnewline, hvalue]
    rfl

/-! ## Java -/

/-- The characters of what was escaped are those of the line, newlines apart. -/
theorem mem_of_unescape {invalidString : String} {invalidSequence : Char → String}
    {line s : Text} (h : unescape invalidString invalidSequence line = .ok s) {c : Char}
    (hc : c ∈ s) : c ∈ line ∨ c = '\n' := by
  have hread := (unescape_eq_ok_iff invalidString invalidSequence).mp h
  clear h
  induction hread with
  | nil => cases hc
  | backslash _ ih =>
      rcases List.mem_cons.mp hc with rfl | hmem
      · exact Or.inl (List.mem_cons_self ..)
      · exact (ih hmem).imp_left fun h => List.mem_cons_of_mem _ (List.mem_cons_of_mem _ h)
  | newline _ ih =>
      rcases List.mem_cons.mp hc with rfl | hmem
      · exact Or.inr rfl
      · exact (ih hmem).imp_left fun h => List.mem_cons_of_mem _ (List.mem_cons_of_mem _ h)
  | plain _ _ ih =>
      rcases List.mem_cons.mp hc with rfl | hmem
      · exact Or.inl (List.mem_cons_self ..)
      · exact (ih hmem).imp_left (List.mem_cons_of_mem _)

/-- The scanner reads the string back if it has no line separator but newlines. -/
theorem isOneLine_java {s : Text} (h : Java.OneLine s) (writer : Service) :
    IsOneLine writer .java s := by
  have hchars : ∀ c ∈ escape s, Scanner.isLineSeparator c = false := by
    intro c hc
    rcases mem_of_mem_escape hc with rfl | rfl | ⟨hmem, hne⟩
    · decide
    · decide
    · rw [Bool.eq_false_iff]
      intro hseparator
      exact hne (h c hmem hseparator)
  constructor
  case noSeparator =>
    intro c hc
    rw [writer.escapeString_eq] at hc
    exact hchars c hc
  case readBack =>
    intro rest
    have hvalue : Java.deEscapeString (escape s) = .ok s := unescape_escape _ _ s
    simp only [Service.readString, writer.escapeString_eq, Scanner.nextLine_line hchars, hvalue]
    rfl

/-- A line that is read has no separator. -/
theorem not_isLineSeparator_of_nextLine {input line rest : Text}
    (h : Scanner.nextLine input = .ok (line, rest)) {c : Char} (hc : c ∈ line) :
    Scanner.isLineSeparator c = false := by
  have hline : line = input.takeWhile fun c => !Scanner.isLineSeparator c := by
    unfold Scanner.nextLine at h
    simp only at h
    split at h
    · split at h
      · cases h
      · exact (Prod.mk.inj (Except.ok.inj h)).1.symm
    · exact (Prod.mk.inj (Except.ok.inj h)).1.symm
    · exact (Prod.mk.inj (Except.ok.inj h)).1.symm
  rw [hline] at hc
  simpa using List.mem_takeWhile_imp hc

/-- Whatever the scanner reads as a string has no line separator but newlines. -/
theorem oneLine_of_readString {input s rest : Text}
    (h : Service.java.readString input = some (s, rest)) : Java.OneLine s := by
  unfold Service.readString at h
  simp only at h
  split at h
  · rename_i line input' hline
    cases hvalue : Java.deEscapeString line with
    | error message => simp [hvalue, Except.toOption] at h
    | ok value =>
        simp only [hvalue, Except.toOption, Option.map_some, Option.some.injEq,
          Prod.mk.injEq] at h
        obtain ⟨rfl, -⟩ := h
        intro c hc hseparator
        rcases mem_of_unescape hvalue hc with hmem | hnewline
        · rw [not_isLineSeparator_of_nextLine hline hmem] at hseparator
          cases hseparator
        · exact hnewline
  · cases h

/-- A string is one line for both readers exactly when it has no line separator of Java
other than newlines. -/
theorem isOneLine_iff (writer : Service) (s : Text) :
    (∀ reader, IsOneLine writer reader s) ↔ Java.OneLine s := by
  constructor
  · intro h
    exact oneLine_of_readString ((h .java).readBack [])
  · intro h reader
    cases reader with
    | java => exact isOneLine_java h writer
    | cpp => exact isOneLine_cpp writer s

/-- A carriage return ends the line for the scanner. -/
theorem not_isOneLine : ¬∀ reader, IsOneLine .cpp reader ['\r'] := by
  intro h
  have hseparator := (isOneLine_iff .cpp ['\r']).mp h '\r' (List.mem_singleton_self _) (by decide)
  exact absurd hseparator (by decide)

end SharedEntities
end Roofline
