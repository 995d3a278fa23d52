import Roofline.SharedEntities.JavaService
import Roofline.SharedEntities.Misreadings

/-!
# Lists in the Java service

The size of a list is read with {lit}`nextLong`, which leaves the end of its line to be read.
What is read next skips it as white space, unless it is a string: the first string of the list
is taken from the end of the line with the size, and every other one is read too early too.

Main results:

- Theorem {lit}`Java.misreads`: of a list of strings the scanner reads empty strings.
- Theorem {lit}`listsRestored_iff`: when a graph without sharing is restored.
-/

namespace Roofline
namespace SharedEntities

variable {defs : Definitions} {Double ν : Type}

namespace Java

variable (locale : Scanner.Locale Double) (printDouble : Double → Text)

/-- The lines that are read back as they are. -/
structure Rereadable (line : Line defs Double) : Prop where
  readable : Readable locale printDouble line
  double : ∀ listed (value : Double), line = .item listed .double value →
    locale.double (printDouble value) = some value

/-- The lines with a string in a list that is not empty. -/
def Misread (line : Line defs Double) : Prop :=
  ∃ value : Text, value ≠ [] ∧ line = .item true .string value

/-- A double whose text is a token of the locale is read back. -/
theorem item_double {value : Double} (htoken : Scanner.IsToken (printDouble value))
    (hvalue : locale.double (printDouble value) = some value) (last : Option (Line defs Double))
    (text : Text) :
    item locale .double (leftOver last ++ (printDouble value ++ '\n' :: text)) =
      .ok (value, text) :=
  item_number locale (by decide) (nextValue_line htoken last hvalue text)

/-- Values are read back as they are, floating point numbers included. -/
theorem rereads : Reads (reader locale) (printPrimitive printDouble)
    (Rereadable locale printDouble : Line defs Double → Prop) At
    fun _ value value' => value = value' := by
  have hreads : Reads (reader locale) (printPrimitive printDouble)
      (Readable locale printDouble : Line defs Double → Prop) At _ := reads locale printDouble
  constructor
  case null => exact hreads.null
  case back => exact fun idx last input text h => hreads.back idx last input text h.readable
  case className => exact hreads.className
  case leave => exact hreads.leave
  case fieldName => exact hreads.fieldName
  case size =>
    exact fun c name n last input text h => hreads.size c name n last input text h.readable
  case item =>
    intro c name listed type value last scanner text h hlast hat
    rcases hreads.item c name listed type value last scanner text h.readable hlast hat with
      ⟨value', scanner', hread, hvalue, hat'⟩
    refine ⟨value', scanner', hread, ?_, hat'⟩
    by_cases htype : type = .double
    · subst htype
      have hdouble := item_double locale printDouble h.readable.1 (h.double listed value rfl) last
        text
      have hsame : (reader locale : Reader _ defs Double Text).item c name .double scanner =
          .ok (value, text) := by
        rw [show scanner = _ from hat]
        exact hdouble
      rw [hsame] at hread
      exact (Prod.mk.inj (Except.ok.inj hread)).1
    · exact hvalue htype

/-- Of a list of strings the scanner reads empty strings. -/
theorem misreads : Misreads (fun _ value value' => value = value') (printPrimitive printDouble)
    (Misread : Line defs Double → Prop) At (reader locale) := by
  rintro _ ⟨value, hvalue, rfl⟩
  refine ⟨true, .string, value, rfl, ?_⟩
  intro c name last scanner text value' scanner' hlast hat hread heq
  have hleft : leftOver last = ['\n'] := by
    rcases hlast with ⟨n, rfl⟩ | ⟨before, rfl⟩
    · rfl
    · rfl
  rw [show scanner = _ from hat, hleft] at hread
  have hempty := (item_listedString locale _).symm.trans hread
  exact hvalue (heq.trans (Prod.mk.inj (Except.ok.inj hempty)).1.symm)

end Java

/-! ## Graphs without sharing -/

section Graphs

variable [DecidableEq ν] {graph : Graph defs Double ν} {locale : Scanner.Locale Double}
  {printDouble : Double → Text} {root : Option ν}

/-- What is assumed of a graph: no object is referred to twice, no string has a line separator
other than newlines, and the scanner reads back the floating point numbers. -/
structure Transferable (graph : Graph defs Double ν) (locale : Scanner.Locale Double)
    (printDouble : Double → Text) (root : Option ν) : Prop where
  unshared : graph.Unshared root
  string : ∀ o, graph.Reachable root o → ∀ listed (value : Text),
    Part.line (.item listed .string value) ∈ (graph.object o).parts → Java.OneLine value
  double : ∀ o, graph.Reachable root o → ∀ listed (value : Double),
    Part.line (.item listed .double value) ∈ (graph.object o).parts →
      Scanner.IsToken (printDouble value) ∧ locale.double (printDouble value) = some value

/-- The Java service makes of what it has written a copy of the graph: the same objects, with
the same values in the same fields, lists element by element. -/
def ListsRestored [Fintype ν] (graph : Graph defs Double ν) (locale : Scanner.Locale Double)
    (printDouble : Double → Text) (root : Option ν) : Prop :=
  ∃ text result s', Java.serialize printDouble graph root = some text ∧
    Java.deSerialize locale text = .ok (result, s') ∧
    Corresponds graph (fun _ value value' => value = value') root result s'.heap

/-- All strings in lists are empty. -/
def Graph.StringListsBlank (graph : Graph defs Double ν) (root : Option ν) : Prop :=
  ∀ o, graph.Reachable root o → ∀ value : Text,
    Part.line (.item true .string value) ∈ (graph.object o).parts → value = []

/-- Each line is read back or is one with a string in a list that is not empty. -/
theorem Transferable.lines (h : Transferable graph locale printDouble root) {depth : Nat}
    {lines : List (Line defs Double)} {ctx' : SerializationContext ν}
    (hencode : graph.serializeImp depth root .empty = some (lines, ctx')) :
    ∀ line ∈ lines, Java.Rereadable locale printDouble line ∨ Java.Misread line := by
  have hlines := graph.serializeImp_lines
    (P := fun line => (∃ idx, line = .back idx) ∨
      (Java.Rereadable locale printDouble line ∨ Java.Misread line))
    (Or.inr (Or.inl ⟨trivial, by simp⟩)) (fun idx => Or.inl ⟨idx, rfl⟩)
    (fun _ => Or.inr (Or.inl ⟨trivial, by simp⟩)) ?_
    depth root .empty lines ctx' (fun o ho => .root ho) hencode
  · intro line hline
    rcases hlines line hline with ⟨idx, rfl⟩ | hread
    · exact absurd hline (h.unshared.back_not_mem hencode idx)
    · exact hread
  · intro o ho line hline
    apply Or.inr
    rcases FieldValues.line_mem_parts hline with
      ⟨name, rfl⟩ | ⟨n, hn, rfl⟩ | ⟨field, _, listed, type, value, _, rfl⟩
    · exact Or.inl ⟨trivial, by simp⟩
    · exact Or.inl ⟨graph.sizes o n hn, by simp⟩
    · cases type with
      | double =>
          rcases h.double o ho listed value hline with ⟨htoken, hvalue⟩
          refine Or.inl ⟨⟨htoken, by rw [hvalue]; rfl⟩, ?_⟩
          rintro listed' value' heq
          cases heq
          exact hvalue
      | string =>
          cases listed with
          | false => exact Or.inl ⟨h.string o ho false value hline, by rintro _ _ ⟨⟩⟩
          | true =>
              by_cases hblank : value = ([] : Text)
              · exact Or.inl ⟨hblank, by rintro _ _ ⟨⟩⟩
              · exact Or.inr ⟨value, hblank, rfl⟩
      | int => exact Or.inl ⟨trivial, by rintro _ _ ⟨⟩⟩
      | long => exact Or.inl ⟨trivial, by rintro _ _ ⟨⟩⟩
      | bool => exact Or.inl ⟨trivial, by rintro _ _ ⟨⟩⟩
      | ulong => exact Or.inl ⟨trivial, by rintro _ _ ⟨⟩⟩

variable [Fintype ν]

/-- Copies of graphs are made only of lines that are read back. -/
theorem ListsRestored.stringListsBlank (hgraph : Transferable graph locale printDouble root)
    (h : ListsRestored graph locale printDouble root) : graph.StringListsBlank root := by
  rcases h with ⟨text, result, s', hserialize, hdecode, hcopy⟩
  rcases graph.serialize_total root with ⟨lines, ctx', hlines, hencode⟩
  obtain rfl : render (Java.printPrimitive printDouble) lines = text := by
    rw [Java.serialize, hlines] at hserialize
    exact Option.some.inj hserialize
  have hlimit : lines.length ≤ (render (Java.printPrimitive printDouble) lines).length + 1 :=
    (length_le_length_render (Java.printPrimitive printDouble) lines).trans (Nat.le_succ _)
  have hreadable := (Java.rereads locale printDouble).readable_of_corresponds
    (Java.misreads locale printDouble) (Java.header_ne_back locale) hencode (hgraph.lines hencode)
    hlimit rfl hdecode hcopy
  intro o ho value hvalue
  exact (hreadable _ (graph.line_mem_serializeImp hencode ho hvalue)).readable

/-- If all strings in lists are blank, the lists are restored. -/
theorem Graph.StringListsBlank.listsRestored (h : graph.StringListsBlank root)
    (hgraph : Transferable graph locale printDouble root) :
    ListsRestored graph locale printDouble root := by
  rcases graph.serialize_total root with ⟨lines, ctx', hserialize, hencode⟩
  have hlimit : lines.length ≤ (render (Java.printPrimitive printDouble) lines).length + 1 :=
    (length_le_length_render (Java.printPrimitive printDouble) lines).trans (Nat.le_succ _)
  have hlines := graph.serializeImp_lines
    (P := fun line => ∀ value : Text, line = .item true .string value → value = [])
    (by rintro _ ⟨⟩) (by rintro _ _ ⟨⟩) (by rintro _ _ ⟨⟩)
    (by
      rintro o ho _ hline value rfl
      exact h o ho value hline)
    _ root .empty lines ctx' (fun o ho => .root ho) hencode
  have hreadable : ∀ line ∈ lines, Java.Rereadable locale printDouble line := by
    intro line hline
    rcases hgraph.lines hencode line hline with hread | ⟨value, hvalue, rfl⟩
    · exact hread
    · exact absurd (hlines _ hline value rfl) hvalue
  have hstart : Java.At (none : Option (Line defs Double))
      (render (Java.printPrimitive printDouble) lines)
      (render (Java.printPrimitive printDouble) lines) := rfl
  rcases (Java.rereads locale printDouble).corresponds hencode hreadable hlimit hstart with
    ⟨result, s', hdecode, -, hcopy⟩
  refine ⟨_, result, s', ?_, hdecode, hcopy⟩
  rw [Java.serialize, hserialize]
  rfl

/-- A graph without sharing is restored exactly when its lists of strings have only empty
strings. -/
theorem listsRestored_iff (hgraph : Transferable graph locale printDouble root) :
    ListsRestored graph locale printDouble root ↔ graph.StringListsBlank root :=
  ⟨fun h => h.stringListsBlank hgraph, fun h => h.listsRestored hgraph⟩

end Graphs

/-! ## Commands -/

namespace RunCommand

/-- The name of the class. -/
def className : Identifier :=
  .ofString "RunCommand" (by decide)

/-- A command with its arguments. -/
def cls : ClassDef :=
  .multiLanguageClass className false
    [.field (.ofString "executable" (by decide)) (.primitive .string),
      .list (.ofString "args" (by decide)) (.primitive .string)]

/-- A definition of this class only. -/
def definitions : Definitions where
  classes := [cls]
  distinct := List.nodup_singleton _

/-- The class has objects. -/
def concrete : ConcreteClass definitions where
  cls := cls
  defined := List.mem_singleton_self _
  concrete := rfl

/-- A command with arguments. -/
def graph (args : List Text) (hargs : args.length < 2 ^ 31) : Graph definitions Empty Unit where
  object _ := ⟨concrete, ("echo".toList, args, ())⟩
  sizes := by
    intro _ size hsize
    obtain rfl : size = args.length := List.mem_singleton.mp hsize
    exact hargs
  typed := by
    intro _ type target hmem
    change (type, some target) ∈ args.flatMap (fun _ => []) ++ [] at hmem
    simp at hmem

variable {args : List Text} {hargs : args.length < 2 ^ 31}

/-- What is written for the command. -/
theorem parts_graph (o : Unit) : ((graph args hargs).object o).parts =
    [.line (.fieldName (.ofString "executable" (by decide))),
      .line (.item false .string "echo".toList),
      .line (.fieldName (.ofString "args" (by decide))), .line (.size args.length)] ++
    (args.map fun arg => .line (.item true .string arg)) := by
  change _ :: _ :: (_ :: _ :: args.map _) ++ [] = _
  rw [List.append_nil]
  rfl

/-- The command refers to no object. -/
theorem holds_graph (o : Unit) : (graph args hargs).holds o = [] := by
  rw [Graph.holds, ← Object.filterMap_ref?_parts, parts_graph]
  simp [Part.ref?]

/-- A command whose arguments have no line break can be transferred. -/
theorem transferable (h : ∀ arg ∈ args, Java.OneLine arg) :
    Transferable (graph args hargs) plainLocale Empty.elim (some ()) := by
  constructor
  case unshared =>
    exact ⟨by simp [holds_graph], by simp [holds_graph], by simp [holds_graph]⟩
  case string =>
    intro o _ listed value hline
    rw [parts_graph] at hline
    rcases List.mem_append.mp hline with hexecutable | harg
    · have hsame : (Line.item listed .string value : Line definitions Empty) =
          .item false .string "echo".toList := by
        simpa using hexecutable
      obtain rfl : value = "echo".toList := eq_of_heq (Line.item.inj hsame).2.2
      have hall : "echo".toList.all (fun c => !Scanner.isLineSeparator c) = true := by
        decide
      intro c hc hseparator
      have hchar := List.all_eq_true.mp hall c hc
      simp [hseparator] at hchar
    · rcases List.mem_map.mp harg with ⟨arg, hmem, heq⟩
      obtain rfl : arg = value := eq_of_heq (Line.item.inj (Part.line.inj heq)).2.2
      exact h arg hmem
  case double => exact fun _ _ _ value => value.elim

/-- The strings in lists are the arguments. -/
theorem stringListsBlank_iff :
    (graph args hargs).StringListsBlank (some ()) ↔ ∀ arg ∈ args, arg = [] := by
  constructor
  · intro h arg harg
    apply h () (.root rfl) arg
    rw [parts_graph]
    exact List.mem_append_right _ (List.mem_map_of_mem harg)
  · intro h o _ value hline
    rw [parts_graph] at hline
    rcases List.mem_append.mp hline with hexecutable | harg
    · simp at hexecutable
      cases hexecutable
    · rcases List.mem_map.mp harg with ⟨arg, hmem, heq⟩
      obtain rfl : arg = value := eq_of_heq (Line.item.inj (Part.line.inj heq)).2.2
      exact h arg hmem

end RunCommand

/-- Empty arguments come back, and another one among them does not. -/
theorem listsRestored_blank :
    ListsRestored (RunCommand.graph [[], [], []] (by decide)) plainLocale Empty.elim (some ()) ∧
      ¬ListsRestored (RunCommand.graph [[], "-n".toList, []] (by decide)) plainLocale Empty.elim
        (some ()) := by
  refine ⟨(listsRestored_iff (RunCommand.transferable (by simp [Java.OneLine]))).mpr
    (RunCommand.stringListsBlank_iff.mpr (by simp)), fun h => ?_⟩
  have hline : ∀ arg ∈ [[], "-n".toList, []], Java.OneLine arg := by
    intro arg harg c hc hseparator
    have hchar : c = '-' ∨ c = 'n' := by
      rcases List.mem_cons.mp harg with rfl | harg
      · cases hc
      rcases List.mem_cons.mp harg with rfl | harg
      · simpa using hc
      · rw [List.mem_singleton.mp harg] at hc
        cases hc
    rcases hchar with rfl | rfl <;> exact absurd hseparator (by decide)
  have hblank := (listsRestored_iff (RunCommand.transferable hline)).mp h
  exact absurd (RunCommand.stringListsBlank_iff.mp hblank "-n".toList (by decide)) (by decide)

/-- The only argument of the command comes back empty. -/
theorem not_listsRestored :
    Transferable (RunCommand.graph ["a".toList] (by decide)) plainLocale Empty.elim (some ()) ∧
      ¬ListsRestored (RunCommand.graph ["a".toList] (by decide)) plainLocale Empty.elim
        (some ()) := by
  have htransferable : Transferable (RunCommand.graph ["a".toList] (by decide)) plainLocale
      Empty.elim (some ()) := RunCommand.transferable (by
    intro arg harg c hc hseparator
    obtain rfl := List.mem_singleton.mp harg
    obtain rfl := List.mem_singleton.mp hc
    exact absurd hseparator (by decide))
  refine ⟨htransferable, ?_⟩
  intro h
  have hblank := RunCommand.stringListsBlank_iff.mp (h.stringListsBlank htransferable)
  exact absurd (hblank "a".toList (List.mem_singleton_self _)) (by decide)

end SharedEntities
end Roofline
