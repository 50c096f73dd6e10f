import ScopeMachine.Failure
import ScopeMachine.Value.Basic

/-!
# Operators on values

Integers add, subtract and multiply exactly or fail; their quotient is a float. An integer beside a
float counts as a float. Truth values are only equal or not, texts are joined and compared by code
points, and scalars of different kinds are never equal. Nothing else is supported.
-/

namespace ScopeMachine

/-- Integer value of a result that fits into 64 bits. -/
def checkedInt (operation : String) (exact : Int) : Except Failure Value :=
  if Int64.minValue.toInt ≤ exact ∧ exact ≤ Int64.maxValue.toInt then
    .ok (.int (Int64.ofInt exact))
  else
    .error (.integerOverflow operation)

namespace BinaryOp

/-- Operator on integers. -/
def applyInt (op : BinaryOp) (a b : Int64) : Except Failure Value :=
  match op with
  | add => checkedInt "addition" (a.toInt + b.toInt)
  | sub => checkedInt "subtraction" (a.toInt - b.toInt)
  | mul => checkedInt "multiplication" (a.toInt * b.toInt)
  | div => if b = 0 then .error .divisionByZero else .ok (.float (a.toFloat / b.toFloat))
  | eq => .ok (.bool (a = b))
  | notEq => .ok (.bool (a ≠ b))
  | lt => .ok (.bool (a < b))
  | ltEq => .ok (.bool (a ≤ b))
  | gt => .ok (.bool (b < a))
  | gtEq => .ok (.bool (b ≤ a))

/-- Operator on floats. -/
def applyFloat (op : BinaryOp) (a b : Float) : Except Failure Value :=
  match op with
  | add => .ok (.float (a + b))
  | sub => .ok (.float (a - b))
  | mul => .ok (.float (a * b))
  | div => if b == 0.0 then .error .divisionByZero else .ok (.float (a / b))
  | eq => .ok (.bool (a == b))
  | notEq => .ok (.bool (!(a == b)))
  | lt => .ok (.bool (a < b))
  | ltEq => .ok (.bool (a ≤ b))
  | gt => .ok (.bool (b < a))
  | gtEq => .ok (.bool (b ≤ a))

/-- Operator on truth values. -/
def applyBool (op : BinaryOp) (a b : Bool) : Except Failure Value :=
  match op with
  | eq => .ok (.bool (a = b))
  | notEq => .ok (.bool (a ≠ b))
  | _ => .error (.unsupportedOperands op "bool" "bool")

/-- Operator on texts. -/
def applyString (op : BinaryOp) (a b : String) : Except Failure Value :=
  match op with
  | add => .ok (.string (a ++ b))
  | eq => .ok (.bool (a = b))
  | notEq => .ok (.bool (a ≠ b))
  | lt => .ok (.bool (a < b))
  | ltEq => .ok (.bool (a ≤ b))
  | gt => .ok (.bool (b < a))
  | gtEq => .ok (.bool (b ≤ a))
  | sub | mul | div => .error (.unsupportedOperands op "string" "string")

/-- Operator on scalars of different kinds. -/
def applyMixed (op : BinaryOp) (left right : Value) : Except Failure Value :=
  match op with
  | eq => .ok (.bool false)
  | notEq => .ok (.bool true)
  | _ => .error (.unsupportedOperands op left.kindName right.kindName)

/-- Operator on any two values. -/
def apply (op : BinaryOp) (left right : Value) : Except Failure Value :=
  match left, right with
  | .int a, .int b => op.applyInt a b
  | .float a, .float b => op.applyFloat a b
  | .int a, .float b => op.applyFloat a.toFloat b
  | .float a, .int b => op.applyFloat a b.toFloat
  | .bool a, .bool b => op.applyBool a b
  | .string a, .string b => op.applyString a b
  | _, _ =>
    if left.isScalar && right.isScalar then
      op.applyMixed left right
    else
      .error (.unsupportedOperands op left.kindName right.kindName)

end BinaryOp

/-- Whether a condition holds: true, or a number that is not zero. -/
def Value.holds : Value → Except Failure Bool
  | .bool value => .ok value
  | .int value => .ok (value ≠ 0)
  | .float value => .ok (!(value == 0.0))
  | value => .error (.noCondition value.kindName)

/-- Element of an array at an integer index. -/
def Value.element (receiver position : Value) : Except Failure Value :=
  match receiver with
  | .array items =>
    match position with
    | .int index =>
      match (if 0 ≤ index.toInt then items[index.toInt.toNat]? else none) with
      | some item => .ok item
      | none => .error (.indexOutside index items.length)
    | other => .error (.wrongKind "int" other.kindName)
  | other => .error (.wrongKind "array" other.kindName)

/-- Refuses a value that does not satisfy the annotation of a name. -/
def checkTag (name : String) (tag : Option TypeTag) (value : Value) : Except Failure Unit :=
  match tag with
  | none => .ok ()
  | some tag =>
    if value.hasTag tag then .ok () else .error (.tagMismatch name tag value.kindName)

end ScopeMachine
