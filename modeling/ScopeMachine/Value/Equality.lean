import ScopeMachine.Value.Basic

/-!
# Equality of values

Data is equal when it looks alike: numbers of one kind by value, where a float that is no number
differs from itself, texts by characters, arrays element by element. Functions, classes and objects
are equal when they are the same one: a function by body, scope and program, a class by name,
scope and program, an object by its storage. Natives are equal by name.
-/

namespace ScopeMachine

/-- Whether two functions have the same body, scope and program. -/
def Closure.same (left right : Closure) : Bool :=
  left.body == right.body && left.scope == right.scope && left.program == right.program

/-- Whether two classes have the same name, scope and program. -/
def ClassObject.same (left right : ClassObject) : Bool :=
  left.name == right.name && left.scope == right.scope && left.program == right.program

namespace Value

mutual

/-- Whether two values are equal. -/
def same : Value → Value → Bool
  | .int a, .int b => a == b
  | .float a, .float b => a == b
  | .bool a, .bool b => a == b
  | .void, .void => true
  | .string a, .string b => a == b
  | .array a, .array b => sameAll a b
  | .function a, .function b => a.same b
  | .native a, .native b => a.name == b.name
  | .reference a, .reference b => a == b
  | .classObject a, .classObject b => a.same b
  | .object a, .object b => a.storage == b.storage
  | _, _ => false

/-- Whether two lists are equal element by element. -/
def sameAll : List Value → List Value → Bool
  | [], [] => true
  | a :: as, b :: bs => same a b && sameAll as bs
  | _, _ => false

end

end Value

end ScopeMachine
