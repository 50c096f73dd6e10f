import ScopeMachine.Symbol.Table
import ScopeMachine.Syntax.Span
import ScopeMachine.Syntax.Vocabulary

/-!
# Nodes

A program is stored flat. A node names its children by their positions in the program's node table,
its lists of children and of parameters by ranges of two side tables, and a class declaration by its
position in a third.
-/

namespace ScopeMachine

/-- Position of a node in its program. -/
structure NodeId where
  /-- Number of nodes before it. -/
  index : Nat
deriving DecidableEq

/-- Position that no node has. -/
def NodeId.invalid : NodeId := ⟨4294967295⟩

/-- Whether the position may belong to a node. -/
def NodeId.isValid (id : NodeId) : Bool := id ≠ NodeId.invalid

/-- Position of a class declaration in its program. -/
structure ClassId where
  /-- Number of class declarations before it. -/
  index : Nat
deriving DecidableEq

/-- Stretch of a program's table of child lists. -/
structure NodeRange where
  /-- First position of the stretch. -/
  start : Nat
  /-- Number of entries. -/
  length : Nat
deriving DecidableEq

/-- The range of no nodes. -/
def NodeRange.empty : NodeRange := ⟨0, 0⟩

/-- Whether a range has no entries. -/
def NodeRange.isEmpty (range : NodeRange) : Bool := range.length == 0

/-- Stretch of a program's table of parameters. -/
structure ParamRange where
  /-- First position of the stretch. -/
  start : Nat
  /-- Number of entries. -/
  length : Nat
deriving DecidableEq

/-- The range of no parameters. -/
def ParamRange.empty : ParamRange := ⟨0, 0⟩

/-- Whether a range has no entries. -/
def ParamRange.isEmpty (range : ParamRange) : Bool := range.length == 0

/-- What a node is, with its children by position. -/
inductive NodeKind where
  /-- Integer literal. -/
  | int (value : Int64)
  /-- Float literal, by its 64-bit encoding. -/
  | float (bits : UInt64)
  /-- Boolean literal. -/
  | bool (value : Bool)
  /-- String literal. -/
  | string (text : Symbol)
  /-- Reading of a name. -/
  | read (name : Symbol)
  /-- Binary operation. -/
  | binary (op : BinaryOp) (left right : NodeId)
  /-- Choice of a branch; a missing branch gives void. -/
  | branch (condition thenBranch : NodeId) (elseBranch : Option NodeId)
  /-- Sequence in a scope of its own. -/
  | block (body : NodeRange)
  /-- Declaration of a name in the current scope. -/
  | declare (name : Symbol) (tag : Option TypeTag) (value : NodeId)
  /-- Assignment to a declared name. -/
  | assign (name : Symbol) (value : NodeId)
  /-- Declaration of a named function. -/
  | function (name : Symbol) (params : ParamRange) (body : NodeId)
  /-- Call of a function by name. -/
  | call (callee : Symbol) (args : NodeRange)
  /-- Declaration of a class. -/
  | classDecl (id : ClassId)
  /-- Construction of an instance of a class given by name. -/
  | construct (owner : Symbol) (args : NodeRange)
  /-- Call of a method. -/
  | methodCall (receiver : NodeId) (method : Symbol) (args : NodeRange)
  /-- Reading of a field. -/
  | field (receiver : NodeId) (name : Symbol)
  /-- Array of the elements' values. -/
  | array (elements : NodeRange)
  /-- Element of an array. -/
  | index (receiver position : NodeId)
  /-- Unnamed function of one parameter. -/
  | lambda (param : Symbol) (body : NodeId)
  /-- Reference to the variable that a name stands for. -/
  | reference (name : Symbol)
  /-- Assignment through the reference that a name holds. -/
  | assignThrough (name : Symbol) (value : NodeId)
deriving DecidableEq

/-- Node with its source span. -/
structure Node where
  /-- What the node is. -/
  kind : NodeKind
  /-- Where it stands in the source. -/
  span : Span
deriving DecidableEq

/-- Field of a class declaration. -/
structure FieldDecl where
  /-- Name of the field. -/
  name : Symbol
  /-- Annotation, if any. -/
  tag : Option TypeTag
  /-- Expression for the value of an omitted argument, if any. -/
  default : Option NodeId
deriving DecidableEq

/-- Method of a class declaration. -/
structure MethodDecl where
  /-- Name of the method. -/
  name : Symbol
  /-- Its parameters. -/
  params : ParamRange
  /-- Its body. -/
  body : NodeId
deriving DecidableEq

/-- Class declaration. -/
structure ClassDecl where
  /-- Name of the class. -/
  name : Symbol
  /-- Fields in the order of constructor arguments. -/
  fields : List FieldDecl
  /-- Methods in written order; the last of one name counts. -/
  methods : List MethodDecl
  /-- Where the declaration stands in the source. -/
  span : Span
deriving DecidableEq

end ScopeMachine
