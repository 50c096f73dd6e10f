/-!
# Operators and type tags

The ten binary operators and the four tags that annotate declarations and fields, each with its
source spelling and its diagnostic label.
-/

namespace ScopeMachine

/-- Binary operator. -/
inductive BinaryOp where
  | add
  | sub
  | mul
  | div
  | eq
  | notEq
  | lt
  | ltEq
  | gt
  | gtEq
deriving DecidableEq

namespace BinaryOp

/-- Source spelling. -/
def symbol : BinaryOp → String
  | add => "+"
  | sub => "-"
  | mul => "*"
  | div => "/"
  | eq => "=="
  | notEq => "!="
  | lt => "<"
  | ltEq => "<="
  | gt => ">"
  | gtEq => ">="

/-- Diagnostic label. -/
def label : BinaryOp → String
  | add => "Add"
  | sub => "Sub"
  | mul => "Mul"
  | div => "Div"
  | eq => "Eq"
  | notEq => "NotEq"
  | lt => "Lt"
  | ltEq => "LtEq"
  | gt => "Gt"
  | gtEq => "GtEq"

/-- Every operator once. -/
def all : List BinaryOp := [add, sub, mul, div, eq, notEq, lt, ltEq, gt, gtEq]

/-- Operator with a given spelling. -/
def ofSymbol? (spelling : String) : Option BinaryOp :=
  all.find? fun op => op.symbol == spelling

/-- Whether the operator compares rather than computes. -/
def isComparison : BinaryOp → Bool
  | add | sub | mul | div => false
  | eq | notEq | lt | ltEq | gt | gtEq => true

/-- An operator is found again by its spelling. -/
theorem ofSymbol?_symbol (op : BinaryOp) : ofSymbol? op.symbol = some op := by
  cases op <;> decide

end BinaryOp

/-- Annotation of a declaration or of a field. -/
inductive TypeTag where
  | int
  | float
  | bool
  | string
deriving DecidableEq

namespace TypeTag

/-- Source spelling. -/
def keyword : TypeTag → String
  | int => "int"
  | float => "float"
  | bool => "bool"
  | string => "string"

/-- Diagnostic label. -/
def label : TypeTag → String
  | int => "Int"
  | float => "Float"
  | bool => "Bool"
  | string => "Str"

/-- Every tag once. -/
def all : List TypeTag := [int, float, bool, string]

/-- Tag with a given spelling. -/
def ofKeyword? (spelling : String) : Option TypeTag :=
  all.find? fun tag => tag.keyword == spelling

/-- A tag is found again by its spelling. -/
theorem ofKeyword?_keyword (tag : TypeTag) : ofKeyword? tag.keyword = some tag := by
  cases tag <;> decide

end TypeTag

end ScopeMachine
