import ScopeMachine.Scope.Handle
import ScopeMachine.Symbol.Map
import ScopeMachine.Syntax.Program

/-!
# Values

What evaluation computes with. Scopes appear in values only by their handles and programs only by
the number under which they were loaded, so a value never contains another scope's bindings or
another program's nodes.
-/

namespace ScopeMachine

/-- Function with the scope it was declared in. -/
structure Closure where
  /-- Declared name; a lambda has none. -/
  name : Option Symbol
  /-- Parameters in order. -/
  params : List Symbol
  /-- Body, in the program that declared the function. -/
  body : NodeId
  /-- Scope in which the function was declared. -/
  scope : Handle
  /-- Program that declared the function. -/
  program : ProgramId
deriving DecidableEq

/-- What a native function does. -/
inductive NativeRole where
  /-- Calls a function on every element of an array. -/
  | map
  /-- Counts elements or characters. -/
  | len
  /-- Writes a value. -/
  | print
  /-- Writes a value and ends the line. -/
  | println
  /-- Runs an entry of the host. -/
  | host (entry : String)
deriving DecidableEq

/-- Function that is not written in the language. -/
structure Native where
  /-- Name in texts. -/
  name : String
  /-- What a call does. -/
  role : NativeRole
deriving DecidableEq

/-- Class with the scope it was declared in. -/
structure ClassObject where
  /-- Declared name. -/
  name : Symbol
  /-- Fields in the order of constructor arguments. -/
  fields : List FieldDecl
  /-- Methods by name. -/
  methods : SymbolMap MethodDecl
  /-- Scope in which the class was declared. -/
  scope : Handle
  /-- Program that declared the class. -/
  program : ProgramId
deriving DecidableEq

/-- Object: a storage scope for its fields and methods that close over it. -/
structure Object where
  /-- Class of the object. -/
  owner : ClassObject
  /-- Scope that binds the fields. -/
  storage : Handle
  /-- Methods by name. -/
  methods : SymbolMap Closure
deriving DecidableEq

/-- Value of the language. -/
inductive Value where
  /-- Integer of 64 bits. -/
  | int (value : Int64)
  /-- Float of 64 bits. -/
  | float (value : Float)
  /-- Truth value. -/
  | bool (value : Bool)
  /-- Result of what has no result. -/
  | void
  /-- Text. -/
  | string (text : String)
  /-- Array of values. -/
  | array (items : List Value)
  /-- Function written in the language. -/
  | function (value : Closure)
  /-- Function of the machine or its host. -/
  | native (value : Native)
  /-- Reference to a variable. -/
  | reference (target : Location)
  /-- Class. -/
  | classObject (value : ClassObject)
  /-- Object. -/
  | object (value : Object)

namespace Value

/-- Name of the kind of a value, as failures report it. -/
def kindName : Value → String
  | int _ => "int"
  | float _ => "float"
  | bool _ => "bool"
  | void => "void"
  | string _ => "string"
  | array _ => "array"
  | function _ => "function"
  | native _ => "native function"
  | reference _ => "reference"
  | classObject _ => "class"
  | object _ => "instance"

/-- Whether a value can be called. -/
def isCallable : Value → Bool
  | function _ | native _ => true
  | _ => false

/-- Whether a value is a number, a truth value or a text. -/
def isScalar : Value → Bool
  | int _ | float _ | bool _ | string _ => true
  | _ => false

/-- Whether a value satisfies an annotation. -/
def hasTag : Value → TypeTag → Bool
  | int _, .int => true
  | float _, .float => true
  | bool _, .bool => true
  | string _, .string => true
  | _, _ => false

/-- Value of an omitted field without a default; a field without annotation is an integer. -/
def blankFor : Option TypeTag → Value
  | some .string => string ""
  | some .float => float 0.0
  | some .bool => bool false
  | some .int | none => int 0

/-- The default of an annotation satisfies it. -/
theorem hasTag_blankFor (tag : TypeTag) : (blankFor (some tag)).hasTag tag = true := by
  cases tag <;> rfl

end Value

/-- Number of parameters. -/
def Closure.arity (function : Closure) : Nat := function.params.length

/-- Class value of a declaration; of two methods with one name the later counts. -/
def ClassObject.ofDecl (decl : ClassDecl) (scope : Handle) (program : ProgramId) : ClassObject :=
  { name := decl.name
    fields := decl.fields
    methods := .ofList (decl.methods.map fun method => (method.name, method))
    scope
    program }

end ScopeMachine
