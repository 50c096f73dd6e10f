import ScopeMachine.Decimal.Style
import ScopeMachine.Text.Record
import ScopeMachine.Value.Basic

/-!
# Texts of values

The plain text of a value needs no symbol table and shows functions, references, classes and objects
by their kind alone. The named text, which programs print, shows their names too. The two agree on
data.
-/

namespace ScopeMachine.Value

mutual

/-- Text of a value without names. -/
def plainText : Value → String
  | .int value => toString value.toInt
  | .float value => Decimal.Style.output.text value
  | .bool value => Text.truth value
  | .void => "void"
  | .string text => text
  | .array items => "[" ++ plainItems items ++ "]"
  | .function value => if value.name.isSome then "<function>" else "<lambda>"
  | .native value => "<native " ++ value.name ++ ">"
  | .reference _ => "<ref>"
  | .classObject _ => "<class>"
  | .object _ => "<instance>"

/-- Texts of the elements of an array, divided by commas. -/
def plainItems : List Value → String
  | [] => ""
  | value :: rest => plainText value ++ plainTail rest

/-- Texts of the elements after the first, each with its comma. -/
def plainTail : List Value → String
  | [] => ""
  | value :: rest => ", " ++ plainText value ++ plainTail rest

end

mutual

/-- Text of a value with the names of functions, references, classes and objects. -/
def text (symbols : SymbolTable) : Value → String
  | .array items => Text.bracketed (texts symbols items)
  | .function value =>
    match value.name with
    | some name => "<function " ++ symbols.text name ++ ">"
    | none => "<lambda>"
  | .reference target => "<ref " ++ symbols.text target.name ++ ">"
  | .classObject value => "<class " ++ symbols.text value.name ++ ">"
  | .object value => "<" ++ symbols.text value.owner.name ++ " instance>"
  | value => plainText value

/-- Texts of the elements of an array. -/
def texts (symbols : SymbolTable) : List Value → List String
  | [] => []
  | value :: rest => text symbols value :: texts symbols rest

end

end ScopeMachine.Value
