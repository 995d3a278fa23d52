/-!
# Exceptions of the Java code

The Java half of the tool signals failures by exceptions.  The types here are
shared by the models of its classes.
-/

namespace Roofline

/-- What the modelled Java code throws. -/
inductive Throwable where
  | error (message : String)
  | nullPointerException
  | concurrentModificationException
  | noSuchElementException
  | indexOutOfBoundsException
  | negativeArraySizeException
  | inputMismatchException
  | illegalArgumentException
  | numberFormatException
  | classCastException
  | ioException
  | executeException
deriving DecidableEq, Repr

/-- A method of an object with state {lit}`σ`: an exception does not undo the
changes made before it was thrown. -/
abbrev MethodResult (σ α : Type) := Except Throwable α × σ

end Roofline
