import ScopeMachine.Syntax.Span
import ScopeMachine.Syntax.Vocabulary

/-!
# Failures

A failure of evaluation has a cause, the span of the node that failed once that is known, and notes
that help to mend it. The message is a function of the cause alone. The constructors of particular
failures below are the only wording of causes and notes in the project.
-/

namespace ScopeMachine

/-- What went wrong. -/
inductive Cause where
  /-- A name is bound in no scope. -/
  | unboundName (name : String)
  /-- An object has no such field. -/
  | noSuchField (field owner : String)
  /-- An object has no such method. -/
  | noSuchMethod (method owner : String)
  /-- An index lies outside an array. -/
  | indexOutside (index : Int64) (length : Nat)
  /-- A value is not of the kind that is needed. -/
  | wrongKind (expected got : String)
  /-- A name to be assigned through holds no reference. -/
  | holdsNoReference (name : String)
  /-- A divisor is zero. -/
  | divisionByZero
  /-- An integer result does not fit. -/
  | integerOverflow (operation : String)
  /-- A chain of references is longer than allowed. -/
  | chainTooLong (limit : Nat)
  /-- A scope is needed that a collection has reclaimed. -/
  | reclaimedScope
deriving DecidableEq

/-- Sentence for a cause. -/
def Cause.message : Cause → String
  | unboundName name => "undefined variable: " ++ name
  | noSuchField field owner => "no field `" ++ field ++ "` on " ++ owner ++ " instance"
  | noSuchMethod method owner => "no method `" ++ method ++ "` on " ++ owner ++ " instance"
  | indexOutside index length =>
    "index " ++ toString index.toInt ++ " out of bounds for array of length " ++ toString length
  | wrongKind expected got => "type mismatch: expected " ++ expected ++ ", got " ++ got
  | holdsNoReference name => "`" ++ name ++ "` does not hold a reference"
  | divisionByZero => "division by zero"
  | integerOverflow operation => "integer overflow in " ++ operation
  | chainTooLong limit => "reference chain longer than " ++ toString limit ++ " hops"
  | reclaimedScope => "scope was reclaimed by collection"

/-- Whether the cause is a value of the wrong kind. -/
def Cause.isWrongKind : Cause → Bool
  | wrongKind _ _ | holdsNoReference _ => true
  | _ => false

/-- Failure of evaluation. -/
structure Failure where
  /-- What went wrong. -/
  cause : Cause
  /-- Node that failed, once known. -/
  span : Option Span := none
  /-- Further remarks in order. -/
  notes : List String := []
deriving DecidableEq

namespace Failure

/-- Sentence for the failure. -/
def message (failure : Failure) : String := failure.cause.message

/-- Failure at a span, in place of an earlier one. -/
def locate (failure : Failure) (span : Span) : Failure := { failure with span := some span }

/-- Failure at a span, unless it has one already. -/
def locateOnce (failure : Failure) (span : Span) : Failure :=
  if failure.span.isNone then failure.locate span else failure

/-- Failure with one more note. -/
def note (failure : Failure) (text : String) : Failure :=
  { failure with notes := failure.notes ++ [text] }

/-- Place of a failure in its text. -/
def place : Option Span → String
  | none => ""
  | some span => " at " ++ span.text

/-- Message, place and notes, each note on a line of its own. -/
def text (failure : Failure) : String :=
  failure.message ++ place failure.span ++
    String.join (failure.notes.map fun note => "\n  note: " ++ note)

/-- A name is bound nowhere. -/
def unbound (name : String) : Failure := { cause := .unboundName name }

/-- A name that is assigned to is bound nowhere. -/
def undeclared (name : String) : Failure :=
  (unbound name).note ("declare `" ++ name ++ "` with `let` before assigning to it")

/-- An object has no such field. -/
def noSuchField (field owner : String) : Failure := { cause := .noSuchField field owner }

/-- An object has no such method. -/
def noSuchMethod (method owner : String) : Failure := { cause := .noSuchMethod method owner }

/-- An index lies outside an array. -/
def indexOutside (index : Int64) (length : Nat) : Failure :=
  { cause := .indexOutside index length }

/-- A value is not of the kind that is needed. -/
def wrongKind (expected got : String) : Failure := { cause := .wrongKind expected got }

/-- What is called is no function. -/
def notAFunction (got : String) : Failure := wrongKind "function" got

/-- A call has the wrong number of arguments; the note is left out for a callee without a name. -/
def wrongArity (name : String) (expected got : Nat) : Failure :=
  let noun := if expected = 1 then " argument" else " arguments"
  let failure := wrongKind (toString expected ++ noun) (toString got)
  if name = "" then failure else failure.note ("in call to `" ++ name ++ "`")

/-- A value does not satisfy the annotation of a name. -/
def tagMismatch (name : String) (tag : TypeTag) (got : String) : Failure :=
  (wrongKind tag.keyword got).note ("`" ++ name ++ "` is annotated as " ++ tag.keyword)

/-- A condition is neither a truth value nor a number. -/
def noCondition (got : String) : Failure := wrongKind "bool or number" got

/-- An operator does not support its operands. -/
def unsupportedOperands (op : BinaryOp) (left right : String) : Failure :=
  wrongKind ("operands supported by `" ++ op.symbol ++ "`") (left ++ " and " ++ right)

/-- A construction has more arguments than the class has fields. -/
def tooManyFieldValues (owner : String) (fields got : Nat) : Failure :=
  (wrongKind ("at most " ++ toString fields ++ " constructor arguments") (toString got)).note
    (owner ++ " declares " ++ toString fields ++ " fields")

/-- A name to be assigned through holds no reference. -/
def holdsNoReference (name : String) : Failure := { cause := .holdsNoReference name }

/-- A divisor is zero. -/
def divisionByZero : Failure := { cause := .divisionByZero }

/-- An integer result does not fit. -/
def integerOverflow (operation : String) : Failure := { cause := .integerOverflow operation }

/-- A chain of references is longer than allowed. -/
def chainTooLong (limit : Nat) : Failure := { cause := .chainTooLong limit }

/-- A scope is needed that a collection has reclaimed. -/
def reclaimedScope : Failure := { cause := .reclaimedScope }

/-- Afterwards a failure has a span. -/
theorem span_locateOnce (failure : Failure) (span : Span) :
    (failure.locateOnce span).span = some (failure.span.getD span) := by
  cases own : failure.span <;> simp [locateOnce, locate, own]

/-- A failure that has a span keeps it, and keeps everything else. -/
theorem locateOnce_of_span_eq_some {failure : Failure} {own : Span} (span : Span)
    (located : failure.span = some own) : failure.locateOnce span = failure := by
  simp [locateOnce, located]

end Failure

end ScopeMachine
