import ScopeMachine.Decimal.Style
import ScopeMachine.Syntax.Describe
import ScopeMachine.Text.Quoted
import ScopeMachine.Value.Basic

/-!
# Diagnostic texts of values

Diagnostics show a value with its kind, names by position and scopes by handle. Functions, classes
and objects show only some of their parts.
-/

namespace ScopeMachine

open Text (applied bracketed openRecord optional quoted record truth)

/-- Diagnostic text of a variable. -/
def Location.describe (location : Location) : String :=
  record "ScopeRef" [("scope", location.scope.describe), ("name", location.name.describe)]

/-- Diagnostic text of a function. -/
def Closure.describe (function : Closure) : String :=
  openRecord "FunctionValue"
    [("name", optional (function.name.map Symbol.describe)),
      ("params", bracketed (function.params.map Symbol.describe)),
      ("body", function.body.describe),
      ("closure", function.scope.describe)]

/-- Diagnostic text of a class, with the numbers of its fields and methods. -/
def ClassObject.describe (value : ClassObject) : String :=
  openRecord "ClassValue"
    [("name", value.name.describe),
      ("fields", toString value.fields.length),
      ("methods", toString value.methods.size),
      ("scope", value.scope.describe)]

/-- Diagnostic text of an object. -/
def Object.describe (value : Object) : String :=
  openRecord "InstanceValue"
    [("class", value.owner.name.describe), ("storage", value.storage.describe)]

namespace Value

mutual

/-- Diagnostic text of a value. -/
def describe : Value → String
  | .int value => applied "Int" (toString value.toInt)
  | .float value => applied "Float" (Decimal.Style.diagnostic.text value)
  | .bool value => applied "Bool" (truth value)
  | .void => "Void"
  | .string text => applied "Str" (quoted text)
  | .array items => applied "Array" (bracketed (describeAll items))
  | .function value => value.describe
  | .native value => applied "NativeFunction" value.name
  | .reference target => applied "Reference" target.describe
  | .classObject value => value.describe
  | .object value => value.describe

/-- Diagnostic texts of the elements of an array. -/
def describeAll : List Value → List String
  | [] => []
  | value :: rest => describe value :: describeAll rest

end

end Value

end ScopeMachine
