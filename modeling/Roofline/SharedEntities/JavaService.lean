import Roofline.Java.Scanner
import Roofline.SharedEntities.Trees

/-!
# The Java serialization service

The reader of the generated Java service, which works on a scanner, applied to what
either service writes.

Main results:

- Theorem {lit}`Java.header_ne_back`: the reader never recognises the number of an object.
- Theorem {lit}`Java.reads`: which lines it reads.
- Theorem {lit}`sharing_survives_iff`: when the references of an object graph survive.
-/

namespace Roofline
namespace SharedEntities

open Decimals Integers
open Programs (bind_eq_ok)

variable {defs : Definitions} {Double ν : Type}

namespace Java

open Scanner

variable (locale : Locale Double)

/-- {lit}`DeSerializeImp` up to the choice of the class; the tests leave the scanner as it
is. -/
def header (scanner : Text) : Except Throwable (Header defs × Text) :=
  if hasNext "<null>".toList scanner then do
    let scanner ← next "<null>".toList scanner
    let (_, scanner) ← nextLine scanner
    return (.null, scanner)
  else if hasNext "=> ".toList scanner then do
    let scanner ← next "=> ".toList scanner
    let (idx, scanner) ← nextLong locale scanner
    let (_, scanner) ← nextLine scanner
    return (.back idx.val, scanner)
  else
    match defs.findConcrete fun name => hasNext name scanner with
    | some c => return (.className c, scanner)
    | none => throw (.error "Parse Error")

/-- {lit}`getObj`.  An {lit}`IdentityHashMap` compares the numbers as objects, and only small
numbers are always boxed as the same object. -/
def getObj (ctx : DeSerializationContext) (idx : Int) : Option Nat :=
  if -128 ≤ idx ∧ idx ≤ 127 then ctx.map idx else none

/-- A token is removed together with the rest of its line. -/
def skipLine (pattern scanner : Text) : Except Throwable Text := do
  let scanner ← next pattern scanner
  let (_, scanner) ← nextLine scanner
  return scanner

/-- Read the number of the elements of a list. -/
def size (scanner : Text) : Except Throwable (Int × Text) := do
  let (count, scanner) ← nextLong locale scanner
  return (count.val, scanner)

/-- {lit}`parseNonReference`. -/
def parseNonReference : (type : PrimitiveType) → Text →
    Except Throwable (Primitive Double type × Text)
  | .int, scanner => nextInt locale scanner
  | .long, scanner => nextLong locale scanner
  | .bool, scanner => do
      let (value, scanner) ← nextInt locale scanner
      return (value.val != 0, scanner)
  | .double, scanner => nextDouble locale scanner
  | .string, scanner => do
      let (line, scanner) ← nextLine scanner
      match deEscapeString line with
      | .ok value => return (value, scanner)
      | .error message => throw (.error message)
  | .ulong, scanner => nextBigInteger locale scanner

/-- {lit}`advanceAfterParseNonReference`. -/
def advanceAfterParseNonReference : PrimitiveType → Text → Except Throwable Text
  | .string, scanner => return scanner
  | _, scanner => do
      let (_, scanner) ← nextLine scanner
      return scanner

/-- Read a primitive value and go to the next line. -/
def item (type : PrimitiveType) (scanner : Text) :
    Except Throwable (Primitive Double type × Text) := do
  let (value, scanner) ← parseNonReference locale type scanner
  let scanner ← advanceAfterParseNonReference type scanner
  return (value, scanner)

/-- The reader of the Java service.  An object is added to the context before the name of
its class is removed, which makes no difference: an exception discards the context. -/
def reader : Reader Throwable defs Double Text where
  header := header locale
  getObj := getObj
  enter c scanner := skipLine c.cls.name.text scanner
  leave _ inner := inner
  fieldName _ name scanner := skipLine name.text scanner
  size _ _ scanner := size locale scanner
  item _ _ type scanner := item locale type scanner
  castException := some .classCastException
  stackOverflow := .error "StackOverflowError"

/-- {lit}`DeSerialize` of the generated Java service. -/
def deSerialize (text : Text) :
    Except Throwable (Option Nat × Decoding defs Double Text) :=
  (reader locale).deSerializeImp (text.length + 1) (.start text)

/-- The pattern for numbers of objects ends with a blank, which no token has. -/
theorem header_ne_back (scanner : Text) (idx : Int) (scanner' : Text) :
    (header locale scanner : Except Throwable (Header defs × Text)) ≠
      .ok (.back idx, scanner') := by
  intro h
  have hno : hasNext "=> ".toList scanner = false :=
    hasNext_eq_false (c := ' ') (by decide) (by decide) scanner
  rw [header, hno] at h
  split at h
  · rcases bind_eq_ok.mp h with ⟨rest, -, h⟩
    rcases bind_eq_ok.mp h with ⟨found, -, h⟩
    cases h
  · rw [if_neg Bool.false_ne_true] at h
    split at h
    · cases h
    · cases h

/-! ## Reading what was written -/

/-- What the scanner has left of the line that was read last: the end of the line with the
size of a list, and with it that of each string in the list. -/
def leftOver : Option (Line defs Double) → Text
  | some (.size _) => ['\n']
  | some (.item true .string _) => ['\n']
  | _ => []

/-- The scanner stands before {lit}`text`, or before what it has left of {lit}`last`. -/
def At (last : Option (Line defs Double)) (scanner text : Text) : Prop :=
  scanner = leftOver last ++ text

/-- The string has no character that ends a line, other than newlines, which are escaped. -/
def OneLine (s : Text) : Prop :=
  ∀ c ∈ s, isLineSeparator c = true → c = '\n'

/-- The lines the reader reads.  Of lists of strings it reads the line before. -/
def Readable (printDouble : Double → Text) : Line defs Double → Prop
  | .back _ => False
  | .size n => n < 2 ^ 31
  | .item _ .double value =>
      IsToken (printDouble value) ∧ (locale.double (printDouble value)).isSome = true
  | .item false .string value => OneLine value
  | .item true .string value => value = []
  | _ => True

/-- What a line leaves over is whitespace. -/
theorem isWhitespace_leftOver (last : Option (Line defs Double)) :
    ∀ c ∈ leftOver last, isWhitespace c = true := by
  have hnewline : ∀ c ∈ ['\n'], isWhitespace c = true := by
    intro c hc
    obtain rfl := List.mem_singleton.mp hc
    decide
  unfold leftOver
  split
  · exact hnewline
  · exact hnewline
  · simp

/-- A name is a token. -/
theorem isToken_identifier (name : Identifier) : IsToken name.text := by
  refine ⟨name.nonempty, ?_⟩
  intro c hc
  have hchar := name.chars c hc
  rw [isIdentifierChar, Bool.or_eq_true] at hchar
  rcases hchar with halnum | hunderscore
  · exact isWhitespace_of_isAlphanum halnum
  · rw [beq_iff_eq] at hunderscore
    subst hunderscore
    decide

/-- The rest of a line that was read is empty. -/
theorem nextLine_newline (text : Text) : nextLine ('\n' :: text) = .ok ([], text) := by
  have hread : nextLine ([] ++ '\n' :: text) = .ok ([], text) := nextLine_line (by simp) text
  exact hread

/-- A line with a token is skipped, with what the line before left over. -/
theorem skipLine_token {token : Text} (h : IsToken token) (last : Option (Line defs Double))
    (text : Text) : skipLine token (leftOver last ++ (token ++ '\n' :: text)) = .ok text := by
  rw [skipLine, next_token h (isWhitespace_leftOver last) (by decide)]
  simp only [bind, Except.bind, nextLine_newline]
  rfl

/-- The header of a null reference is understood. -/
theorem header_null (last : Option (Line defs Double)) (text : Text) :
    header locale (leftOver last ++ ("<null>".toList ++ '\n' :: text)) =
      .ok ((.null, text) : Header defs × Text) := by
  have htoken : IsToken "<null>".toList := isToken_of_all (by decide) (by decide)
  have hspace := isWhitespace_leftOver last
  rw [header, hasNext_token htoken hspace (by decide), if_pos (by decide),
    next_token htoken hspace (by decide)]
  simp only [bind, Except.bind, nextLine_newline]
  rfl

/-- The name of a class is understood and not consumed. -/
theorem header_className (c : ConcreteClass defs) (last : Option (Line defs Double))
    (text : Text) :
    header locale (leftOver last ++ (c.cls.name.text ++ '\n' :: text)) =
      .ok ((.className c, leftOver last ++ (c.cls.name.text ++ '\n' :: text)) :
        Header defs × Text) := by
  have htoken := isToken_identifier c.cls.name
  have hspace := isWhitespace_leftOver last
  have hnull : c.cls.name.text ≠ "<null>".toList := by
    intro heq
    exact absurd (c.cls.name.chars '<' (by rw [heq]; decide)) (by decide)
  have harrow : hasNext "=> ".toList (leftOver last ++ (c.cls.name.text ++ '\n' :: text)) = false :=
    hasNext_eq_false (c := ' ') (by decide) (by decide) _
  have hfound : defs.findConcrete (fun name => hasNext name
      (leftOver last ++ (c.cls.name.text ++ '\n' :: text))) = some c := by
    apply Definitions.findConcrete_name
    intro name
    rw [hasNext_token htoken hspace (by decide), beq_iff_eq, eq_comm]
  rw [header, hasNext_token htoken hspace (by decide), beq_eq_false_iff_ne.mpr hnull,
    if_neg Bool.false_ne_true, harrow, if_neg Bool.false_ne_true, hfound]
  rfl

/-- A number is read together with the end of its line. -/
theorem nextValue_line {α : Type} {token : Text} (h : IsToken token)
    (last : Option (Line defs Double)) {parse : Text → Option α} {value : α}
    (hparse : parse token = some value) (text : Text) :
    nextValue parse (leftOver last ++ (token ++ '\n' :: text)) = .ok (value, '\n' :: text) :=
  nextValue_token h (isWhitespace_leftOver last) (by decide) text hparse

section Numbers

variable (last : Option (Line defs Double)) (text : Text)

/-- An int is read from its line. -/
theorem nextInt_line (i : Signed 32) :
    nextInt locale (leftOver last ++ (decimal i.val ++ '\n' :: text)) = .ok (i, '\n' :: text) := by
  apply nextValue_line (isToken_decimal _)
  rw [parseInteger_decimal, Option.bind_some, Signed.ofInt?_val]

/-- A long is read from its line. -/
theorem nextLong_line (i : Signed 64) :
    nextLong locale (leftOver last ++ (decimal i.val ++ '\n' :: text)) = .ok (i, '\n' :: text) := by
  apply nextValue_line (isToken_decimal _)
  rw [parseInteger_decimal, Option.bind_some, Signed.ofInt?_val]

/-- A big integer is read from its line. -/
theorem nextBigInteger_line (i : Int) :
    nextBigInteger locale (leftOver last ++ (decimal i ++ '\n' :: text)) = .ok (i, '\n' :: text) :=
  nextValue_line (isToken_decimal _) last (parseInteger_decimal locale i) text

end Numbers

/-- A boolean is read from its line. -/
theorem parseNonReference_bool (last : Option (Line defs Double)) (text : Text) (value : Bool) :
    parseNonReference locale .bool
        (leftOver last ++ (decimal (cond value 1 0) ++ '\n' :: text)) =
      .ok (value, '\n' :: text) := by
  cases value with
  | false =>
      have hread := nextInt_line locale last text ⟨0, by decide⟩
      change nextInt locale (leftOver last ++ (decimal 0 ++ '\n' :: text)) = _ at hread
      simp only [parseNonReference, cond_false, hread]
      rfl
  | true =>
      have hread := nextInt_line locale last text ⟨1, by decide⟩
      change nextInt locale (leftOver last ++ (decimal 1 ++ '\n' :: text)) = _ at hread
      simp only [parseNonReference, cond_true, hread]
      rfl

/-- After a number the rest of the line is skipped. -/
theorem item_number {type : PrimitiveType} (htype : type ≠ .string) {scanner text : Text}
    {value : Primitive Double type}
    (h : parseNonReference locale type scanner = .ok (value, '\n' :: text)) :
    item locale type scanner = .ok (value, text) := by
  have hadvance : advanceAfterParseNonReference type ('\n' :: text) = .ok text := by
    have hskip := nextLine_newline text
    cases type with
    | string => exact absurd rfl htype
    | int => simp only [advanceAfterParseNonReference, hskip]; rfl
    | long => simp only [advanceAfterParseNonReference, hskip]; rfl
    | bool => simp only [advanceAfterParseNonReference, hskip]; rfl
    | double => simp only [advanceAfterParseNonReference, hskip]; rfl
    | ulong => simp only [advanceAfterParseNonReference, hskip]; rfl
  simp only [item, h, bind, Except.bind, hadvance]
  rfl

/-- No item leaves anything over, other than a string. -/
theorem leftOver_item {listed : Bool} {type : PrimitiveType} (htype : type ≠ .string)
    (value : Primitive Double type) :
    leftOver (some (.item listed type value : Line defs Double)) = [] := by
  unfold leftOver
  split
  · rename_i heq
    cases heq
  · rename_i heq
    cases heq
    exact absurd rfl htype
  · rfl

/-- An escaped string is read back as the rest of a line. -/
theorem nextLine_escape {s : Text} (h : OneLine s) (text : Text) :
    nextLine (escapeString s ++ '\n' :: text) = .ok (escapeString s, text) := by
  apply nextLine_line
  intro c hc
  rcases mem_of_mem_escape hc with rfl | rfl | ⟨hmem, hne⟩
  · decide
  · decide
  · rw [Bool.eq_false_iff]
    intro hseparator
    exact hne (h c hmem hseparator)

/-- A string that is no element of a list is read. -/
theorem item_string {s : Text} (h : OneLine s) (text : Text) :
    item locale .string (escapeString s ++ '\n' :: text) = .ok (s, text) := by
  have hread := nextLine_escape h text
  have hvalue : deEscapeString (escapeString s) = .ok s := unescape_escape _ _ s
  simp only [item, parseNonReference, hread, bind, Except.bind, hvalue]
  rfl

/-- For an element of a list of strings the rest of the line before is read. -/
theorem item_listedString (text : Text) :
    item locale .string ('\n' :: text) = .ok (([] : Text), text) :=
  item_string locale (by simp [OneLine] : OneLine []) text

/-- A value is read. -/
theorem item_printPrimitive (printDouble : Double → Text) {listed : Bool} {type : PrimitiveType}
    {value : Primitive Double type}
    (h : Readable locale printDouble (.item listed type value : Line defs Double))
    {last : Option (Line defs Double)} (hlast : ItemExpected listed (.primitive type) last)
    (text : Text) :
    ∃ value', item locale type
        (leftOver last ++ (printPrimitive printDouble type value ++ '\n' :: text)) =
      .ok (value', leftOver (some (.item listed type value : Line defs Double)) ++ text) ∧
      (type ≠ .double → value = value') := by
  cases type with
  | int =>
      refine ⟨value, ?_, fun _ => rfl⟩
      rw [leftOver_item (by decide)]
      exact item_number locale (by decide) (nextInt_line locale last text value)
  | long =>
      refine ⟨value, ?_, fun _ => rfl⟩
      rw [leftOver_item (by decide)]
      exact item_number locale (by decide) (nextLong_line locale last text value)
  | bool =>
      refine ⟨value, ?_, fun _ => rfl⟩
      rw [leftOver_item (by decide)]
      exact item_number locale (by decide) (parseNonReference_bool locale last text value)
  | double =>
      rcases Option.isSome_iff_exists.mp h.2 with ⟨value', hparse⟩
      refine ⟨value', ?_, fun hne => absurd rfl hne⟩
      rw [leftOver_item (by decide)]
      exact item_number locale (by decide) (nextValue_line h.1 last hparse text)
  | string =>
      cases listed with
      | false =>
          rcases hlast with ⟨name, rfl⟩
          exact ⟨value, item_string locale h text, fun _ => rfl⟩
      | true =>
          obtain rfl : value = ([] : Text) := h
          have hleft : leftOver last = ['\n'] := by
            rcases hlast with ⟨n, rfl⟩ | ⟨before, rfl⟩
            · rfl
            · rfl
          refine ⟨([] : Text), ?_, fun _ => rfl⟩
          rw [hleft]
          exact item_listedString locale ('\n' :: text)
  | ulong =>
      refine ⟨value, ?_, fun _ => rfl⟩
      rw [leftOver_item (by decide)]
      exact item_number locale (by decide) (nextBigInteger_line locale last text value)

/-- The Java reader reads what the Java service writes, but for numbers of objects. -/
theorem reads (printDouble : Double → Text) :
    Reads (reader locale) (printPrimitive printDouble)
      (Readable locale printDouble : Line defs Double → Prop) At
      fun type value value' => type ≠ .double → value = value' := by
  constructor
  case null =>
    rintro last _ text rfl
    exact ⟨text, header_null locale last text, rfl⟩
  case back =>
    intro idx last scanner text hreadable
    exact absurd hreadable id
  case className =>
    rintro c last _ text rfl
    exact ⟨_, text, header_className locale c last text,
      skipLine_token (isToken_identifier c.cls.name) last text, rfl⟩
  case leave =>
    intro last outer inner text hat
    exact hat
  case fieldName =>
    rintro c name last _ text rfl
    exact ⟨text, skipLine_token (isToken_identifier name) last text, rfl⟩
  case size =>
    rintro c name n last _ text hreadable rfl
    have hn : n < 2 ^ 31 := hreadable
    have hread := nextLong_line locale last text ⟨n, by omega, by omega⟩
    refine ⟨'\n' :: text, ?_, rfl⟩
    change size locale (leftOver last ++ (decimal n ++ '\n' :: text)) = _
    simp only [size, hread]
    rfl
  case item =>
    rintro c name listed type value last _ text hreadable hlast rfl
    rcases item_printPrimitive locale printDouble hreadable hlast text with ⟨value', hread, hvalue⟩
    exact ⟨value', _, hread, hvalue, rfl⟩

end Java

/-! ## Object graphs -/

section Graphs

variable [DecidableEq ν] (graph : Graph defs Double ν)

/-- The last field that is written for the object is a list without elements or of strings,
directly or in the object that is written last. -/
inductive Graph.EndsInList : Option ν → Prop where
  | size {o : ν} {n : Nat} (h : (graph.object o).parts.getLast? = some (.line (.size n))) :
      EndsInList (some o)
  | string {o : ν} {value : Text}
      (h : (graph.object o).parts.getLast? = some (.line (.item true .string value))) :
      EndsInList (some o)
  | ref {o : ν} {type : Identifier} {target : Option ν}
      (h : (graph.object o).parts.getLast? = some (.ref type target))
      (htarget : EndsInList target) : EndsInList (some o)

namespace Java

/-- The strings of the objects are on one line, lists of strings have only empty ones, and
the scanner accepts the floating point numbers. -/
structure Plain (locale : Scanner.Locale Double) (printDouble : Double → Text)
    (root : Option ν) : Prop where
  string : ∀ o, graph.Reachable root o → ∀ value : Text,
    Part.line (.item false .string value) ∈ (graph.object o).parts → OneLine value
  listedString : ∀ o, graph.Reachable root o → ∀ value : Text,
    Part.line (.item true .string value) ∈ (graph.object o).parts → value = []
  double : ∀ o, graph.Reachable root o → ∀ listed (value : Double),
    Part.line (.item listed .double value) ∈ (graph.object o).parts →
      Scanner.IsToken (printDouble value) ∧ (locale.double (printDouble value)).isSome = true

end Java

variable {graph}

/-- Only the size of a list and a string in a list leave something over. -/
theorem leftOver_ne_nil_iff (line : Line defs Double) :
    Java.leftOver (some line) ≠ [] ↔
      (∃ n, line = .size n) ∨ ∃ value : Text, line = .item true .string value := by
  constructor
  · intro h
    unfold Java.leftOver at h
    split at h
    · rename_i n heq
      exact Or.inl ⟨n, Option.some.inj heq⟩
    · rename_i value heq
      exact Or.inr ⟨value, Option.some.inj heq⟩
    · exact absurd rfl h
  · rintro (⟨n, rfl⟩ | ⟨value, rfl⟩)
    · exact List.cons_ne_nil _ _
    · exact List.cons_ne_nil _ _

/-- Something is written for every reference. -/
theorem Graph.serializeImp_ne_nil {depth : Nat} {ref : Option ν} {ctx ctx' : SerializationContext ν}
    {lines : List (Line defs Double)}
    (h : graph.serializeImp depth ref ctx = some (lines, ctx')) : lines ≠ [] := by
  rcases graph.serializeImp_cases h with
    ⟨_, rfl, _⟩ | ⟨_, _, _, _, rfl, _⟩ | ⟨_, _, _, _, _, _, rfl, _⟩
  · exact List.cons_ne_nil _ _
  · exact List.cons_ne_nil _ _
  · exact List.cons_ne_nil _ _

/-- The last line of lines that are not empty. -/
theorem lastOf_of_ne_nil {last : Option (Line defs Double)} {lines : List (Line defs Double)}
    (h : lines ≠ []) : lastOf last lines = lines.getLast? := by
  rw [lastOf, List.getLast?_eq_some_getLast h, Option.some_or]

/-- Where the lines of an object end. -/
theorem Graph.endsInList_iff {depth : Nat}
    (ih : ∀ ref ctx lines ctx', graph.serializeImp depth ref ctx = some (lines, ctx') →
      (∀ idx, .back idx ∉ lines) →
      (Java.leftOver lines.getLast? ≠ [] ↔ graph.EndsInList ref))
    {o : ν} {ctx ctx' : SerializationContext ν} {c : ConcreteClass defs}
    {lines : List (Line defs Double)}
    (h : serializeParts (graph.serializeImp depth) (graph.object o).parts ctx =
      some (lines, ctx')) (hback : ∀ idx, .back idx ∉ lines) :
    Java.leftOver (lastOf (some (.className c)) lines) ≠ [] ↔ graph.EndsInList (some o) := by
  rcases List.eq_nil_or_concat (graph.object o).parts with hparts | ⟨front, part, hparts⟩
  · rw [hparts] at h
    obtain ⟨rfl, rfl⟩ := Prod.mk.inj (Option.some.inj h)
    constructor
    · intro hne
      exact absurd rfl hne
    · intro hends
      cases hends with
      | size hlast => simp [hparts] at hlast
      | string hlast => simp [hparts] at hlast
      | ref hlast => simp [hparts] at hlast
  · have hlast : (graph.object o).parts.getLast? = some part := by simp [hparts]
    rw [hparts, List.concat_eq_append] at h
    rcases serializeParts_append h with ⟨first, mid, second, -, hsecond, rfl⟩
    cases part with
    | line line =>
        rcases serializeParts_line hsecond with ⟨rest, hrest, rfl⟩
        obtain ⟨rfl, -⟩ := Prod.mk.inj (Option.some.inj hrest)
        have hend : lastOf (some (.className c)) (first ++ [line]) = some line := by
          rw [lastOf_append]
          rfl
        rw [hend, leftOver_ne_nil_iff]
        constructor
        · rintro (⟨n, rfl⟩ | ⟨value, rfl⟩)
          · exact .size hlast
          · exact .string hlast
        · intro hends
          cases hends with
          | size hsize => exact Or.inl ⟨_, Part.line.inj (Option.some.inj (hlast ▸ hsize))⟩
          | string hstring => exact Or.inr ⟨_, Part.line.inj (Option.some.inj (hlast ▸ hstring))⟩
          | ref href =>
              rw [hlast] at href
              cases href
    | ref type target =>
        rcases serializeParts_ref hsecond with ⟨inner, mid', rest, hinner, hrest, rfl⟩
        obtain ⟨rfl, -⟩ := Prod.mk.inj (Option.some.inj hrest)
        rw [List.append_nil] at hback ⊢
        have hend : lastOf (some (.className c)) (first ++ inner) = inner.getLast? := by
          rw [lastOf_append, lastOf_of_ne_nil (Graph.serializeImp_ne_nil hinner)]
        rw [hend, ih target mid inner _ hinner
          (fun idx hidx => hback idx (List.mem_append_right _ hidx))]
        constructor
        · exact fun htarget => .ref hlast htarget
        · intro hends
          cases hends with
          | size hsize =>
              rw [hlast] at hsize
              cases hsize
          | string hstring =>
              rw [hlast] at hstring
              cases hstring
          | ref href htarget =>
              obtain ⟨-, rfl⟩ := Part.ref.inj (Option.some.inj (hlast ▸ href))
              exact htarget

/-- After a graph without sharing the scanner has something left of the last line exactly
when the graph ends in a list. -/
theorem Graph.leftOver_serializeImp (depth : Nat) (ref : Option ν) (ctx : SerializationContext ν)
    (lines : List (Line defs Double)) (ctx' : SerializationContext ν)
    (h : graph.serializeImp depth ref ctx = some (lines, ctx'))
    (hback : ∀ idx, .back idx ∉ lines) :
    Java.leftOver lines.getLast? ≠ [] ↔ graph.EndsInList ref := by
  induction depth generalizing ref ctx lines ctx' with
  | zero => simp [Graph.serializeImp] at h
  | succ depth ih =>
      rcases graph.serializeImp_cases h with
        ⟨rfl, rfl, _⟩ | ⟨_, idx, _, _, rfl, _⟩ | ⟨o, depth', inner, rfl, _, hdepth, rfl, hinner⟩
      · constructor
        · intro hne
          exact absurd rfl hne
        · intro hends
          cases hends
      · exact absurd (List.mem_singleton_self _) (hback idx)
      · obtain rfl : depth = depth' := by omega
        have hsame : (Line.className (graph.object o).cls :: inner).getLast? =
            lastOf (some (.className (graph.object o).cls)) inner := by
          have hall : lastOf none (Line.className (graph.object o).cls :: inner) =
              (Line.className (graph.object o).cls :: inner).getLast? :=
            lastOf_of_ne_nil (List.cons_ne_nil _ _)
          rw [← hall, lastOf_cons]
        rw [hsame]
        exact Graph.endsInList_iff ih hinner
          (fun later hlater => hback later (List.mem_cons_of_mem _ hlater))

namespace Java

variable {locale : Scanner.Locale Double} {printDouble : Double → Text} {root : Option ν}

/-- All lines of a plain graph without sharing are read. -/
theorem Plain.readable (h : Plain graph locale printDouble root)
    (hunshared : graph.Unshared root) {depth : Nat} {lines : List (Line defs Double)}
    {ctx' : SerializationContext ν}
    (hencode : graph.serializeImp depth root .empty = some (lines, ctx')) :
    ∀ line ∈ lines, Readable locale printDouble line := by
  have hlines := graph.serializeImp_lines
    (P := fun line => (∃ idx, line = .back idx) ∨ Readable locale printDouble line)
    (Or.inr trivial) (fun idx => Or.inl ⟨idx, rfl⟩) (fun _ => Or.inr trivial) ?_
    depth root .empty lines ctx' (fun o ho => .root ho) hencode
  · intro line hline
    rcases hlines line hline with ⟨idx, rfl⟩ | hreadable
    · exact absurd hline (hunshared.back_not_mem hencode idx)
    · exact hreadable
  · intro o ho line hline
    apply Or.inr
    rcases FieldValues.line_mem_parts hline with
      ⟨name, rfl⟩ | ⟨n, hn, rfl⟩ | ⟨field, _, listed, type, value, _, rfl⟩
    · trivial
    · exact graph.sizes o n hn
    · cases type with
      | double => exact h.double o ho listed value hline
      | string =>
          cases listed with
          | false => exact h.string o ho value hline
          | true => exact h.listedString o ho value hline
      | int => trivial
      | long => trivial
      | bool => trivial
      | ulong => trivial

end Java

/-- The two services that write object graphs. -/
inductive Service where
  | java
  | cpp

/-- The serializer of a service. -/
def Service.serialize [Fintype ν] (service : Service) (printDouble : Double → Text)
    (graph : Graph defs Double ν) (root : Option ν) : Option Text :=
  match service with
  | .java => Java.serialize printDouble graph root
  | .cpp => Cpp.serialize printDouble graph root

variable [Fintype ν]

/-- The Java service consumes exactly what {lit}`service` has written, and two references in
its result are identical exactly when they were. -/
def SharingSurvives (service : Service) (locale : Scanner.Locale Double)
    (printDouble : Double → Text) (graph : Graph defs Double ν) (root : Option ν) : Prop :=
  ∃ text result s', service.serialize printDouble graph root = some text ∧
    Java.deSerialize locale text = .ok (result, s') ∧ s'.input = [] ∧
    Corresponds graph (fun _ _ _ => True) root result s'.heap

variable {locale : Scanner.Locale Double} {printDouble : Double → Text} {root : Option ν}

/-- Both services write the same text. -/
theorem Service.serialize_eq (service : Service) :
    service.serialize printDouble graph root = Java.serialize printDouble graph root := by
  cases service with
  | java => rfl
  | cpp => exact SharedEntities.serialize_eq printDouble graph root

omit [DecidableEq ν] [Fintype ν] in
/-- A result corresponds under a weaker agreement as well. -/
theorem Corresponds.mono
    {agree agree' : (type : PrimitiveType) → Primitive Double type → Primitive Double type → Prop}
    {result : Option Nat} {heap : List (Entry defs Double)}
    (h : Corresponds graph agree root result heap)
    (hagree : ∀ type value value', agree type value value' → agree' type value value') :
    Corresponds graph agree' root result heap := by
  rcases h with ⟨copy, hinjective, hresult, hrestored⟩
  refine ⟨copy, hinjective, hresult, ?_⟩
  intro o ho
  rcases hrestored o ho with ⟨values, hentry, hrel⟩
  exact ⟨values, hentry, hrel.mono (fun _ _ href => href) hagree⟩

/-- What the Java service makes of a plain graph without sharing. -/
theorem Java.deSerialize_plain (service : Service)
    (hplain : Java.Plain graph locale printDouble root) (hunshared : graph.Unshared root) :
    ∃ text result s', service.serialize printDouble graph root = some text ∧
      Java.deSerialize locale text = .ok (result, s') ∧
      (s'.input = [] ↔ ¬graph.EndsInList root) ∧
      Corresponds graph (fun type value value' => type ≠ .double → value = value') root result
        s'.heap := by
  rcases graph.serialize_total root with ⟨lines, ctx', hserialize, hencode⟩
  have hlimit : lines.length ≤ (render (Java.printPrimitive printDouble) lines).length + 1 :=
    (length_le_length_render (Java.printPrimitive printDouble) lines).trans (Nat.le_succ _)
  have hstart : Java.At (none : Option (Line defs Double))
      (render (Java.printPrimitive printDouble) lines)
      (render (Java.printPrimitive printDouble) lines) := rfl
  rcases (Java.reads locale printDouble).corresponds hencode (hplain.readable hunshared hencode)
      hlimit hstart with
    ⟨result, s', hdecode, hat, hcopy⟩
  have hleft := Graph.leftOver_serializeImp _ _ _ _ _ hencode (hunshared.back_not_mem hencode)
  refine ⟨_, result, s', ?_, hdecode, ?_, hcopy⟩
  · rw [service.serialize_eq, Java.serialize, hserialize]
    rfl
  · rw [← hleft, not_not, show s'.input = Java.leftOver lines.getLast? ++ [] from hat,
      List.append_nil]

/-- Whatever else the graph holds, the Java service copies no sharing. -/
theorem SharingSurvives.unshared {service : Service}
    (h : SharingSurvives service locale printDouble graph root) : graph.Unshared root := by
  rcases h with ⟨text, result, s', _, hdecode, _, hcopy⟩
  exact Reader.unshared_of_corresponds (Java.header_ne_back locale) hdecode hcopy

/-- The references of a graph survive only if no object is referred to twice.  If the graph
is plain, nothing more is needed than that it does not end in a list. -/
theorem sharing_survives_iff (service : Service) (locale : Scanner.Locale Double)
    (printDouble : Double → Text) (graph : Graph defs Double ν) (root : Option ν) :
    (SharingSurvives service locale printDouble graph root → graph.Unshared root) ∧
    (Java.Plain graph locale printDouble root →
      (SharingSurvives service locale printDouble graph root ↔
        graph.Unshared root ∧ ¬graph.EndsInList root)) := by
  refine ⟨SharingSurvives.unshared, ?_⟩
  intro hplain
  constructor
  · intro h
    have hunshared := h.unshared
    rcases Java.deSerialize_plain service hplain hunshared with
      ⟨text, result, s', hserialize, hdecode, hconsumed, _⟩
    rcases h with ⟨text', result', s'', hserialize', hdecode', hinput, _⟩
    rw [hserialize] at hserialize'
    obtain rfl := Option.some.inj hserialize'
    rw [hdecode] at hdecode'
    obtain ⟨-, rfl⟩ := Prod.mk.inj (Except.ok.inj hdecode')
    exact ⟨hunshared, hconsumed.mp hinput⟩
  · rintro ⟨hunshared, hends⟩
    rcases Java.deSerialize_plain service hplain hunshared with
      ⟨text, result, s', hserialize, hdecode, hconsumed, hcopy⟩
    exact ⟨text, result, s', hserialize, hdecode, hconsumed.mpr hends,
      hcopy.mono fun _ _ _ _ => trivial⟩

end Graphs

/-! ## Two graphs -/

/-- A locale that accepts nothing but plain numerals. -/
def plainLocale : Scanner.Locale Empty where
  integer _ := none
  double _ := none

/-- The chain of two nodes has plain values. -/
theorem chain_plain : Java.Plain Node.chain plainLocale Empty.elim (some false) := by
  have hparts : ∀ o, (Node.chain.object o).parts =
      [.line (.fieldName (.ofString "next" (by decide))),
        .ref Node.className (if o then none else some true),
        .line (.fieldName (.ofString "name" (by decide))),
        .line (.item false .string "a\nb".toList),
        .line (.fieldName (.ofString "others" (by decide))), .line (.size 1),
        .ref Node.className none] :=
    fun _ => rfl
  refine ⟨?_, ?_, fun _ _ _ value => nomatch value⟩
  · intro o _ value hline
    rw [hparts] at hline
    have hsame : (Line.item false .string value : Line Node.definitions Empty) =
        .item false .string "a\nb".toList := by
      simpa using hline
    obtain rfl : value = "a\nb".toList := eq_of_heq (Line.item.inj hsame).2.2
    have hall : "a\nb".toList.all (fun c => !Scanner.isLineSeparator c || c == '\n') = true := by
      decide
    intro c hc hseparator
    have hchar := List.all_eq_true.mp hall c hc
    simpa [hseparator] using hchar
  · intro o _ value hline
    rw [hparts] at hline
    simp at hline
    cases hline

/-- The chain of two nodes shares no object. -/
theorem chain_unshared : Node.chain.Unshared (some false) := by
  have honce : ∀ o, (Node.chain.holds o).Nodup := by decide
  have hholder : ∀ o o' target, target ∈ Node.chain.holds o → target ∈ Node.chain.holds o' →
      o = o' := by
    decide
  have hroot : ∀ o, false ∉ Node.chain.holds o := by decide
  refine ⟨fun o _ => honce o, fun o o' target _ _ => hholder o o' target, ?_⟩
  intro o target _ htarget
  obtain rfl := Option.some.inj htarget
  exact hroot o

/-- The chain of two nodes does not end in a list. -/
theorem chain_not_endsInList : ¬Node.chain.EndsInList (some false) := by
  have hlast : ∀ o, (Node.chain.object o).parts.getLast? = some (.ref Node.className none) :=
    fun _ => rfl
  intro h
  cases h with
  | size hsize =>
      rw [hlast] at hsize
      cases hsize
  | string hstring =>
      rw [hlast] at hstring
      cases hstring
  | ref href htarget =>
      rw [hlast] at href
      cases href
      cases htarget

/-- The chain of two nodes survives. -/
theorem sharing_survives_chain :
    SharingSurvives .cpp plainLocale Empty.elim Node.chain (some false) :=
  ((sharing_survives_iff .cpp plainLocale Empty.elim Node.chain (some false)).2 chain_plain).mpr
    ⟨chain_unshared, chain_not_endsInList⟩

/-- In the ring each node is held by itself and by the other one. -/
theorem not_sharing_survives :
    ¬SharingSurvives .cpp plainLocale Empty.elim Node.ring (some false) := by
  intro h
  have hroot : Node.ring.Reachable (some false) false := .root rfl
  have hself : false ∈ Node.ring.holds false := by decide
  exact h.unshared.root false false hroot rfl hself

end SharedEntities
end Roofline
