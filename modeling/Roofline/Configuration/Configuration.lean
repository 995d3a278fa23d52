import Roofline.Java.Strings
import Roofline.Java.Throwable
import Roofline.Library.Savepoints

/-!
# Configurations

A configuration maps keys to values and can be nested: a key that it does not have is looked up
in its parent, and in the end a key has a default value.  Changes can be made in a scope, at the
end of which the mapping from before is restored.

Main results:

- Theorem {lit}`isInstance_of_parse`: what is read for a key is a value of its type.
- Theorem {lit}`parseAndSet_eq`: a text is either refused or its value is put into the data.
- Theorem {lit}`getUntyped_set`: a key that is set has the new value, all others the old one.
- Theorem {lit}`perform_eq_step`: the operations are commands to an undo log.
-/

namespace Roofline
namespace Configurations

open Integers Savepoints

/-! ## Keys and values -/

/-- The class of the values of a key. -/
inductive ValueType where
  | double
  | integer
  | long
  | string
  | boolean
  | enumeration (name : String) (constants : List (List Char))
  | other (name simpleName : String)
deriving DecidableEq

/-- {lit}`Class.getName`. -/
def ValueType.getName : ValueType → String
  | .double => "java.lang.Double"
  | .integer => "java.lang.Integer"
  | .long => "java.lang.Long"
  | .string => "java.lang.String"
  | .boolean => "java.lang.Boolean"
  | .enumeration name _ => name
  | .other name _ => name

/-- An object that is not null. -/
inductive Value (Double Object : Type) where
  | double (value : Double)
  | integer (value : Signed 32)
  | long (value : Signed 64)
  | string (value : List Char)
  | boolean (value : Bool)
  | constant (enumeration : String) (name : List Char)
  | object (value : Object)
deriving DecidableEq

variable {Double Object : Type}

/-- What Java says about floating point numbers, about digits outside of ASCII and about the
instances of further classes. -/
structure JavaLibrary (Double Object : Type) where
  parseDouble : List Char → Option Double
  numeral : List Char → Option Int
  isInstance : String → Value Double Object → Bool

/-- A key with the type of its values and its default. -/
structure ConfigurationKey (Double Object : Type) where
  key : List Char
  valueType : ValueType
  defaultValue : Option (Value Double Object)

section Parsing

variable (library : JavaLibrary Double Object)

/-- {lit}`isAssignableFrom` for the class of the value. -/
def isInstance : ValueType → Value Double Object → Bool
  | .double, .double _ => true
  | .integer, .integer _ => true
  | .long, .long _ => true
  | .string, .string _ => true
  | .boolean, .boolean _ => true
  | .enumeration name _, .constant enumeration _ => name == enumeration
  | .other name _, value => library.isInstance name value
  | _, _ => false

/-- {lit}`Boolean.parseBoolean`. -/
def parseBoolean (value : List Char) : Bool :=
  value.map Char.toLower == ['t', 'r', 'u', 'e']

/-- The number, if the text is one. -/
def numberOf {α : Type} (value : α → Value Double Object) :
    Option α → Except Throwable (Value Double Object)
  | some number => .ok (value number)
  | none => .error .numberFormatException

/-- {lit}`parse`: a value of the type from its text. -/
def parse (valueType : ValueType) (value : List Char) :
    Except Throwable (Value Double Object) :=
  match valueType with
  | .double => numberOf .double (library.parseDouble value)
  | .integer => numberOf .integer (Strings.parseSigned 32 library.numeral value)
  | .long => numberOf .long (Strings.parseSigned 64 library.numeral value)
  | .string => .ok (.string value)
  | .boolean => .ok (.boolean (parseBoolean value))
  | .enumeration name constants =>
      if value ∈ constants then .ok (.constant name value)
      else .error .illegalArgumentException
  | .other _ simpleName => .error (.error ("Unsupported type " ++ simpleName))

/-- A number that was parsed is a number of the type. -/
theorem exists_of_numberOf_eq_ok {α : Type} {constructor : α → Value Double Object}
    {number : Option α} {value : Value Double Object}
    (h : numberOf constructor number = .ok value) : ∃ n, value = constructor n := by
  cases number with
  | none => cases h
  | some n =>
      cases h
      exact ⟨n, rfl⟩

/-- What is read for a key is a value of its type. -/
theorem isInstance_of_parse {valueType : ValueType} {text : List Char}
    {value : Value Double Object} (h : parse library valueType text = .ok value) :
    isInstance library valueType value = true := by
  cases valueType with
  | double =>
      obtain ⟨number, rfl⟩ := exists_of_numberOf_eq_ok h
      rfl
  | integer =>
      obtain ⟨number, rfl⟩ := exists_of_numberOf_eq_ok h
      rfl
  | long =>
      obtain ⟨number, rfl⟩ := exists_of_numberOf_eq_ok h
      rfl
  | string =>
      cases h
      rfl
  | boolean =>
      cases h
      rfl
  | enumeration name constants =>
      simp only [parse] at h
      split at h
      · cases h
        simp [isInstance]
      · cases h
  | other name simpleName => cases h

end Parsing

/-! ## The fields and methods -/

/-- The data of a configuration and the stack of the old values, without its parent. -/
abbrev Configuration (Key Double Object : Type) :=
  UndoLog Key (Option (Value Double Object))

section Methods

variable {Key : Type} [DecidableEq Key]
variable (library : JavaLibrary Double Object) (keys : Key → ConfigurationKey Double Object)

/-- {lit}`getUntyped` of the first of the configurations; each is the parent of the one
before. -/
def getUntyped : List (Configuration Key Double Object) → Key → Option (Value Double Object)
  | [], key => (keys key).defaultValue
  | configuration :: parents, key =>
      match configuration.data.lookup key with
      | some value => value
      | none => getUntyped parents key

/-- {lit}`setUntyped`: a value that is no instance of the type is refused. -/
def setUntyped (key : Key) (value : Option (Value Double Object))
    (configuration : Configuration Key Double Object) :
    MethodResult (Configuration Key Double Object) Unit :=
  if value.all (isInstance library (keys key).valueType) then
    (.ok (), configuration.set key value)
  else
    (.error (.error "wrong data type"), configuration)

/-- {lit}`parseAndSet` -/
def parseAndSet (key : Key) (value : List Char)
    (configuration : Configuration Key Double Object) :
    MethodResult (Configuration Key Double Object) Unit :=
  match parse library (keys key).valueType value with
  | .error exception => (.error exception, configuration)
  | .ok parsed => setUntyped library keys key (some parsed) configuration

/-- {lit}`push` -/
def push (configuration : Configuration Key Double Object) :
    MethodResult (Configuration Key Double Object) Unit :=
  (.ok (), UndoLog.push configuration)

/-- {lit}`pop` -/
def pop (configuration : Configuration Key Double Object) :
    MethodResult (Configuration Key Double Object) Unit :=
  match UndoLog.pop configuration with
  | none => (.error (.error "Cannot pop configuration, stack is empty"), configuration)
  | some restored => (.ok (), restored)

/-- A text is either refused or its value is put into the data. -/
theorem parseAndSet_eq (key : Key) (text : List Char)
    (configuration : Configuration Key Double Object) :
    parseAndSet library keys key text configuration =
      match parse library (keys key).valueType text with
      | .error exception => (.error exception, configuration)
      | .ok value => (.ok (), configuration.set key (some value)) := by
  unfold parseAndSet
  cases hparse : parse library (keys key).valueType text with
  | error exception => rfl
  | ok value =>
      have hinstance := isInstance_of_parse library hparse
      simp [setUntyped, hinstance]

/-- A key that is set has the new value, all others the old one. -/
theorem getUntyped_set (configuration : Configuration Key Double Object)
    (parents : List (Configuration Key Double Object)) (key other : Key)
    (value : Option (Value Double Object)) :
    getUntyped keys (configuration.set key value :: parents) other =
      if other = key then value else getUntyped keys (configuration :: parents) other := by
  have hlookup := UndoLog.lookup_set_apply configuration key other value
  by_cases hkey : other = key
  · simp [getUntyped, hlookup, hkey]
  · simp [getUntyped, hlookup, hkey]

end Methods

/-! ## Operations -/

/-- The calls that change a configuration. -/
inductive Operation (Key Double Object : Type) where
  | push
  | setUntyped (key : Key) (value : Option (Value Double Object))
  | parseAndSet (key : Key) (value : List Char)
  | pop

section Operations

variable {Key : Type} [DecidableEq Key]
variable (library : JavaLibrary Double Object) (keys : Key → ConfigurationKey Double Object)

/-- What an operation does to a configuration. -/
def perform (operation : Operation Key Double Object)
    (configuration : Configuration Key Double Object) :
    MethodResult (Configuration Key Double Object) Unit :=
  match operation with
  | .push => push configuration
  | .setUntyped key value => setUntyped library keys key value configuration
  | .parseAndSet key value => parseAndSet library keys key value configuration
  | .pop => pop configuration

omit [DecidableEq Key] in
/-- What the operation does to the undo log; a call that is rejected does nothing. -/
def commandOf : Operation Key Double Object → Command Key (Option (Value Double Object))
  | .push => .push
  | .setUntyped key value =>
      if value.all (isInstance library (keys key).valueType) then .set key value else .keep
  | .parseAndSet key value =>
      match parse library (keys key).valueType value with
      | .error _ => .keep
      | .ok parsed => .set key (some parsed)
  | .pop => .pop

/-- The operations are commands to the undo log. -/
theorem perform_eq_step (operation : Operation Key Double Object)
    (configuration : Configuration Key Double Object) :
    (perform library keys operation configuration).2 =
      configuration.step (commandOf library keys operation) := by
  cases operation with
  | push => rfl
  | setUntyped key value =>
      simp only [perform, setUntyped, commandOf]
      split
      · rfl
      · rfl
  | parseAndSet key value =>
      simp only [perform, parseAndSet_eq, commandOf]
      cases parse library (keys key).valueType value with
      | error exception => rfl
      | ok parsed => rfl
  | pop =>
      simp only [perform, pop, commandOf, UndoLog.step]
      cases UndoLog.pop configuration with
      | none => rfl
      | some restored => rfl

end Operations

end Configurations
end Roofline
