import Roofline.Cpp.IStream
import Roofline.SharedEntities.Deserialization

/-!
# The C++ serialization service

The reader of {lit}`DeSerializationContext::DeSerialize` and of the generated
serializers, applied to what the generated Java service writes.

Main results:

- Theorem {lit}`Cpp.reads_java`: the C++ reader reads all lines the Java service writes for
  an object graph, numbers out of range and floating point numbers apart.
- Theorem {lit}`deSerialize_java_serialize`: from the text of the Java service a C++ program
  builds a copy of the object graph.
-/

namespace Roofline
namespace SharedEntities

open Decimals Integers

variable {defs : Definitions} {Double ν : Type}

/-- The name of a type in the class definitions. -/
def PrimitiveType.name : PrimitiveType → Text
  | .int => "int".toList
  | .long => "long".toList
  | .bool => "bool".toList
  | .double => "double".toList
  | .string => "string".toList
  | .ulong => "ulong".toList

/-- {lit}`getScanfSpecification`, with the values of the macros where a {lit}`long` has 64
bits. -/
def PrimitiveType.scanfSpecification : PrimitiveType → Text
  | .int => "%d".toList
  | .long => "%ld".toList
  | .bool => "%d".toList
  | .double => "%lf".toList
  | .string => "%c".toList
  | .ulong => "%lu".toList

namespace Cpp

open Roofline.Cpp

/-- The stream and the local variable {lit}`line` of the method that reads from it. -/
structure Input where
  stream : IStream
  line : Text

/-- {lit}`getline(input, line)`. -/
def Input.getLine (input : Input) : Input where
  stream := (getline input.stream input.line).2
  line := (getline input.stream input.line).1

/-- Throw the message if there is no result. -/
def orThrow {α : Type} (message : Text) : Option α → Except String α
  | some a => .ok a
  | none => .error (String.ofList message)

/-- What {lit}`DeSerializationContext::DeSerialize` makes of a line.  The numbers of objects
are far from the bounds of {lit}`int64_t`; one that cannot be read leaves the variable
{lit}`idx` as it was, {lit}`garbage`. -/
def parseHeader (garbage : Int) (line : Text) : Except String (Header defs) :=
  if line = "<null>".toList then
    return .null
  else if "=> ".toList.isPrefixOf line then
    return .back ((scanNumber (line.drop 3)).getD garbage)
  else do
    let c ← orThrow ("Parse Error: class ".toList ++ line ++ " is not known".toList)
      (defs.findConcrete fun name => line == name)
    return .className c

/-- {lit}`DeSerializationContext::DeSerialize` up to the call of the serializer; it has a
variable {lit}`line` of its own. -/
def header (garbage : Int) (input : Input) : Except String (Header defs × Input) := do
  let line := (getline input.stream []).1
  let parsed ← parseHeader garbage line
  return (parsed, { input with stream := (getline input.stream []).2 })

/-- {lit}`deSerialize` up to the fields. -/
def enter (_ : ConcreteClass defs) (input : Input) : Except String Input :=
  if input.stream.eof then
    throw "deserializing: unexpected end of input"
  else if !input.stream.good then
    throw "deserializing: something's wrong with the input stream"
  else
    return { input with line := [] }

/-- Read the line with the name of a field, which has to be the one expected. -/
def fieldName (c : ConcreteClass defs) (name : Identifier) (input : Input) :
    Except String Input :=
  let input := input.getLine
  if input.line = name.text then
    return input
  else
    throw (String.ofList ("Parse Error. Field ".toList ++ name.text ++ " of class ".toList ++
      c.cls.name.text ++ " expected. got ".toList ++ input.line))

/-- Read the number of the elements of a list. -/
def size (c : ConcreteClass defs) (name : Identifier) (input : Input) :
    Except String (Int × Input) := do
  let input := input.getLine
  let count ← orThrow ("Parse Error. could not parse item count of list ".toList ++ name.text ++
    " of ".toList ++ c.cls.name.text ++ ". Item count string is ".toList ++ input.line)
    (scanI 32 input.line)
  return (count.val, input)

/-- The conversion of a line to a value of a primitive type. -/
def scan (scanDouble : Text → Option Double) (message : Text) :
    (type : PrimitiveType) → Text → Except String (Primitive Double type)
  | .int, line => orThrow message (scanD 32 line)
  | .long, line => orThrow message (scanD 64 line)
  | .bool, line => orThrow message ((scanD 32 line).map fun value => value.val != 0)
  | .double, line => orThrow message (scanDouble line)
  | .string, line => deEscapeString line
  | .ulong, line => orThrow message (scanU line)

/-- Read a primitive value. -/
def item (scanDouble : Text → Option Double) (c : ConcreteClass defs) (name : Identifier)
    (type : PrimitiveType) (input : Input) : Except String (Primitive Double type × Input) := do
  let input := input.getLine
  let value ← scan scanDouble ("Parse Error: could not parse ".toList ++ input.line ++
    " as ".toList ++ type.name ++ " using scanf specification ".toList ++
    type.scanfSpecification ++ ". Was parsing ".toList ++ name.text ++ " of ".toList ++
    c.cls.name.text) type input.line
  return (value, input)

/-- The reader of the C++ service. -/
def reader (garbage : Int) (scanDouble : Text → Option Double) :
    Reader String defs Double Input where
  header := header garbage
  getObj ctx idx := ctx.map idx
  enter := enter
  leave outer inner := { outer with stream := inner.stream }
  fieldName := fieldName
  size := size
  item := item scanDouble
  castException := none
  stackOverflow := "stack overflow"

/-- {lit}`MultiLanguageSerializationService::DeSerialize`.  Every object takes a line, so
the recursion is not deeper than the text is long. -/
def deSerialize (garbage : Int) (scanDouble : Text → Option Double) (text : Text) :
    Except String (Option Nat × Decoding defs Double Input) :=
  (reader garbage scanDouble).deSerializeImp (text.length + 1)
    (.start { stream := .of text, line := [] })

/-! ## Reading what Java wrote -/

/-- The values of {lit}`uint64_t`. -/
def FitsUint64 (value : Int) : Prop :=
  0 ≤ value ∧ value < 2 ^ 64

/-- The lines of values that fit the C++ types. -/
def Readable : Line defs Double → Prop
  | .item _ .double _ => False
  | .item _ .ulong value => FitsUint64 value
  | .size n => n < 2 ^ 31
  | _ => True

/-- The stream is good and {lit}`text` is left. -/
def At (_ : Option (Line defs Double)) (input : Input) (text : Text) : Prop :=
  input.stream = .of text

section Lines

variable {last : Option (Line defs Double)} {input : Input} {line text : Text} {garbage : Int}

/-- Reading a line moves the stream to the text behind it. -/
theorem At.getLine (h : At last input (line ++ '\n' :: text)) (hline : '\n' ∉ line) :
    input.getLine = { stream := .of text, line } := by
  have hread := getline_line hline text input.line
  unfold At at h
  rw [← h] at hread
  rw [Input.getLine, hread]

/-- Reading a header moves the stream to the text behind it. -/
theorem At.header (h : At last input (line ++ '\n' :: text)) (hline : '\n' ∉ line)
    {parsed : Header defs} (hparse : parseHeader garbage line = .ok parsed) :
    header garbage input = .ok (parsed, { input with stream := .of text }) := by
  have hread := getline_line hline text []
  unfold At at h
  rw [← h] at hread
  simp only [Cpp.header, hread, hparse]
  rfl

end Lines

/-! ### Headers -/

/-- The header of a null reference is understood. -/
theorem parseHeader_null (garbage : Int) :
    parseHeader garbage "<null>".toList = .ok (.null : Header defs) := by
  rw [parseHeader, if_pos rfl]
  rfl

/-- The header of an object that was seen before is understood. -/
theorem parseHeader_back (garbage : Int) (idx : Nat) :
    parseHeader garbage ("=> ".toList ++ decimal idx) = .ok (.back idx : Header defs) := by
  have hnull : "=> ".toList ++ decimal idx ≠ "<null>".toList := by
    intro heq
    exact absurd (List.cons.inj heq).1 (by decide)
  have harrow : "=> ".toList.isPrefixOf ("=> ".toList ++ decimal idx) = true := by simp
  have hdrop : ("=> ".toList ++ decimal idx).drop 3 = decimal idx := rfl
  rw [parseHeader, if_neg hnull, if_pos harrow, hdrop, scanNumber_decimal]
  rfl

/-- The name of a class is neither of the other headers. -/
theorem parseHeader_className (garbage : Int) (c : ConcreteClass defs) :
    parseHeader garbage c.cls.name.text = .ok (.className c) := by
  have hchars := c.cls.name.chars
  have hnull : c.cls.name.text ≠ "<null>".toList := by
    intro heq
    rw [heq] at hchars
    exact absurd (hchars '<' (by decide)) (by decide)
  have harrow : "=> ".toList.isPrefixOf c.cls.name.text = false := by
    rw [Bool.eq_false_iff]
    intro hprefix
    rcases List.isPrefixOf_iff_prefix.mp hprefix with ⟨rest, heq⟩
    rw [← heq] at hchars
    exact absurd (hchars '=' (by simp)) (by decide)
  have hfound := Definitions.findConcrete_name c (fun name => by
    rw [beq_iff_eq, eq_comm] : ∀ name, (c.cls.name.text == name) = true ↔ name = c.cls.name.text)
  rw [parseHeader, if_neg hnull, harrow, hfound]
  rfl

/-! ### Values -/

/-- A value is converted back. -/
theorem scan_printPrimitive (printDouble : Double → Text) (scanDouble : Text → Option Double)
    (message : Text) {listed : Bool} {type : PrimitiveType} {value : Primitive Double type}
    (h : Readable (.item listed type value : Line defs Double)) :
    scan scanDouble message type (Java.printPrimitive printDouble type value) = .ok value := by
  cases type with
  | int =>
      have hscan : scanD 32 (decimal value.val) = some value :=
        scanD_decimal (by decide) (by decide) value
      exact congrArg (orThrow message) hscan
  | long =>
      have hscan : scanD 64 (decimal value.val) = some value :=
        scanD_decimal (by decide) (by decide) value
      exact congrArg (orThrow message) hscan
  | bool =>
      cases value with
      | false => rfl
      | true => rfl
  | double => exact absurd h id
  | string => exact unescape_escape _ _ value
  | ulong =>
      have hscan : scanU (decimal value) = some value := scanU_decimal h.1 h.2
      exact congrArg (orThrow message) hscan

/-- A readable line has no line break in it. -/
theorem newline_not_mem_readable (printDouble : Double → Text) {line : Line defs Double}
    (h : Readable line) : '\n' ∉ line.text (Java.printPrimitive printDouble) := by
  apply newline_not_mem_text
  rintro listed value rfl
  exact absurd h id

/-- The C++ reader reads what the Java service writes. -/
theorem reads_java (garbage : Int) (printDouble : Double → Text)
    (scanDouble : Text → Option Double) :
    Reads (reader garbage scanDouble) (Java.printPrimitive printDouble)
      (Readable : Line defs Double → Prop) At fun _ value value' => value = value' := by
  constructor
  case null =>
    intro last input text hat
    have hline : '\n' ∉
        Line.text (Java.printPrimitive printDouble) (.null : Line defs Double) :=
      newline_not_mem_readable printDouble trivial
    exact ⟨_, hat.header hline (parseHeader_null garbage), rfl⟩
  case back =>
    intro idx last input text _ hat
    have hline : '\n' ∉
        Line.text (Java.printPrimitive printDouble) (.back idx : Line defs Double) :=
      newline_not_mem_readable printDouble trivial
    exact ⟨_, hat.header hline (parseHeader_back garbage idx), rfl, fun _ => rfl⟩
  case className =>
    intro c last input text hat
    have hline : '\n' ∉
        Line.text (Java.printPrimitive printDouble) (.className c : Line defs Double) :=
      newline_not_mem_readable printDouble trivial
    exact ⟨_, { stream := .of text, line := [] },
      hat.header hline (parseHeader_className garbage c), rfl, rfl⟩
  case leave =>
    intro last outer inner text hat
    exact hat
  case fieldName =>
    intro c name last input text hat
    have hline : '\n' ∉
        Line.text (Java.printPrimitive printDouble) (.fieldName name : Line defs Double) :=
      newline_not_mem_readable printDouble trivial
    refine ⟨{ stream := .of text, line := name.text }, ?_, rfl⟩
    have hread := hat.getLine hline
    change fieldName c name input = _
    rw [fieldName, hread]
    exact if_pos rfl
  case size =>
    intro c name n last input text hreadable hat
    have hline : '\n' ∉
        Line.text (Java.printPrimitive printDouble) (.size n : Line defs Double) :=
      newline_not_mem_readable printDouble hreadable
    have hread := hat.getLine hline
    have hvalue : (scanI 32 (decimal n)).map Subtype.val = some (n : Int) :=
      scanI_decimal (by decide) (by decide) hreadable
    rcases Option.map_eq_some_iff.mp hvalue with ⟨count, hscan, hcount⟩
    refine ⟨{ stream := .of text, line := decimal n }, ?_, rfl⟩
    change size c name input = _
    simp only [size, hread]
    change (do
      let count ← orThrow _ (scanI 32 (decimal n))
      return (count.val, _)) = _
    rw [hscan]
    exact congrArg (fun i : Int => Except.ok (i, _)) hcount
  case item =>
    intro c name listed type value last input text hreadable _ hat
    have hline := newline_not_mem_readable printDouble hreadable
    have hread := hat.getLine hline
    refine ⟨value, { stream := .of text, line := Java.printPrimitive printDouble type value }, ?_,
      rfl, rfl⟩
    change item scanDouble c name type input = _
    simp only [item, hread]
    change (do
      let value ← scan scanDouble _ type (Java.printPrimitive printDouble type value)
      return (value, _)) = _
    rw [scan_printPrimitive printDouble scanDouble _ hreadable]
    rfl

/-- The values of the reachable objects can be transported: there are no floating point
numbers, and the unsigned ones have at most 64 bits. -/
structure Transportable [DecidableEq ν] (graph : Graph defs Double ν) (root : Option ν) : Prop where
  noDouble : ∀ o, graph.Reachable root o → ∀ field ∈ (graph.object o).cls.cls.allFields,
    field.type ≠ .primitive .double
  ulong : ∀ o, graph.Reachable root o → ∀ listed value,
    Part.line (.item listed .ulong value) ∈ (graph.object o).parts → FitsUint64 value

/-- All lines of a transportable graph are readable. -/
theorem Transportable.readable [DecidableEq ν] {graph : Graph defs Double ν} {root : Option ν}
    (h : Transportable graph root) {depth : Nat} {lines : List (Line defs Double)}
    {ctx' : SerializationContext ν}
    (hencode : graph.serializeImp depth root .empty = some (lines, ctx')) :
    ∀ line ∈ lines, Readable line := by
  refine graph.serializeImp_lines (P := Readable) trivial (fun _ => trivial) (fun _ => trivial) ?_
    depth root .empty lines ctx' (fun o ho => .root ho) hencode
  intro o ho line hline
  rcases FieldValues.line_mem_parts hline with
    ⟨name, rfl⟩ | ⟨n, hn, rfl⟩ | ⟨field, hfield, listed, type, value, htype, rfl⟩
  · trivial
  · exact graph.sizes o n hn
  · cases type with
    | double => exact absurd htype (h.noDouble o ho field hfield)
    | ulong => exact h.ulong o ho listed value hline
    | int => trivial
    | long => trivial
    | bool => trivial
    | string => trivial

end Cpp

/-- From the text of the Java service a C++ program builds a copy of the object graph: the
same classes and values, and two references are identical exactly when they were. -/
theorem deSerialize_java_serialize [Fintype ν] [DecidableEq ν] (graph : Graph defs Double ν)
    (root : Option ν) (printDouble : Double → Text) (garbage : Int)
    (scanDouble : Text → Option Double) (h : Cpp.Transportable graph root) :
    ∃ text result s', Java.serialize printDouble graph root = some text ∧
      Cpp.deSerialize garbage scanDouble text = .ok (result, s') ∧ s'.input.stream.rest = [] ∧
      Corresponds graph (fun _ value value' => value = value') root result s'.heap := by
  rcases graph.serialize_total root with ⟨lines, ctx', hserialize, hencode⟩
  have hlimit : lines.length ≤ (render (Java.printPrimitive printDouble) lines).length + 1 :=
    (length_le_length_render (Java.printPrimitive printDouble) lines).trans (Nat.le_succ _)
  have hstart : Cpp.At (none : Option (Line defs Double))
      { stream := .of (render (Java.printPrimitive printDouble) lines), line := [] }
      (render (Java.printPrimitive printDouble) lines) := rfl
  rcases (Cpp.reads_java garbage printDouble scanDouble).corresponds hencode (h.readable hencode)
      hlimit hstart with
    ⟨result, s', hdecode, hat, hcopy⟩
  refine ⟨_, result, s', by rw [Java.serialize, hserialize]; rfl, hdecode, ?_, hcopy⟩
  rw [show s'.input.stream = .of [] from hat]
  rfl

/-- The ring of two nodes can be transported. -/
theorem ring_transportable : Cpp.Transportable Node.ring (some false) := by
  have hnone : ∀ field ∈ Node.cls.allFields, field.type ≠ .primitive .double ∧
      field.type ≠ .primitive .ulong := by
    decide
  refine ⟨fun o _ field hfield => (hnone field hfield).1, ?_⟩
  intro o _ listed value hline
  rcases FieldValues.line_mem_parts hline with
    ⟨_, heq⟩ | ⟨_, _, heq⟩ | ⟨field, hfield, _, type, _, htype, heq⟩
  · cases heq
  · cases heq
  · cases heq
    exact absurd htype (hnone field hfield).2

/-- The ring of two nodes is read back as it was written. -/
theorem deSerialize_java_serialize_ring :
    ∃ text result s', Java.serialize Empty.elim Node.ring (some false) = some text ∧
      Cpp.deSerialize 0 (fun _ => none) text = .ok (result, s') ∧ s'.input.stream.rest = [] ∧
      Corresponds Node.ring (fun _ value value' => value = value') (some false) result s'.heap :=
  deSerialize_java_serialize Node.ring (some false) Empty.elim 0 (fun _ => none) ring_transportable

end SharedEntities
end Roofline
