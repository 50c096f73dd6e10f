import ScopeMachine.Evaluation.Operator

/-!
# Outcomes of operators

An operator gives a number, a truth value or a text, or it fails for one of three reasons: the result
does not fit, the divisor is zero, or the operands are not supported. None of these failures has a
span.
-/

namespace ScopeMachine

/-- What an operator or a count can end with. -/
inductive BinaryOp.Outcome : Except Failure Value → Prop where
  /-- A number, a truth value or a text. -/
  | scalar {value : Value} (plain : value.isScalar = true) : Outcome (.ok value)
  /-- The result does not fit. -/
  | overflow (operation : String) : Outcome (.error (.integerOverflow operation))
  /-- The divisor is zero. -/
  | zero : Outcome (.error .divisionByZero)
  /-- The operands are not supported. -/
  | unsupported (op : BinaryOp) (left right : String) :
    Outcome (.error (.unsupportedOperands op left right))

namespace BinaryOp

/-- A checked integer is a number or does not fit. -/
theorem outcome_checkedInt (operation : String) (exact : Int) :
    Outcome (checkedInt operation exact) := by
  unfold checkedInt
  split
  · exact .scalar rfl
  · exact .overflow operation

/-- Outcomes of operators on integers. -/
theorem outcome_applyInt (op : BinaryOp) (a b : Int64) : Outcome (op.applyInt a b) := by
  cases op with
  | add | sub | mul => exact outcome_checkedInt _ _
  | div =>
    by_cases zero : b = 0
    · simpa [applyInt, zero] using Outcome.zero
    · simpa [applyInt, zero] using Outcome.scalar rfl
  | _ => exact .scalar rfl

/-- Outcomes of operators on floats. -/
theorem outcome_applyFloat (op : BinaryOp) (a b : Float) : Outcome (op.applyFloat a b) := by
  cases op with
  | div =>
    by_cases zero : (b == 0.0) = true
    · simpa only [applyFloat, if_pos zero] using Outcome.zero
    · simpa only [applyFloat, if_neg zero] using Outcome.scalar rfl
  | _ => exact .scalar rfl

/-- Outcomes of operators. -/
theorem outcome_apply (op : BinaryOp) (left right : Value) : Outcome (op.apply left right) := by
  unfold apply
  split
  · exact outcome_applyInt op _ _
  · exact outcome_applyFloat op _ _
  · exact outcome_applyFloat op _ _
  · exact outcome_applyFloat op _ _
  · cases op <;> first | exact .scalar rfl | exact .unsupported _ _ _
  · cases op <;> first | exact .scalar rfl | exact .unsupported _ _ _
  · split
    · cases op <;> first | exact .scalar rfl | exact .unsupported _ _ _
    · exact .unsupported _ _ _

/-- No outcome of an operator is a failure with a span. -/
theorem Outcome.span_eq_none {result : Except Failure Value} (outcome : Outcome result)
    {failure : Failure} (failed : result = .error failure) : failure.span = none := by
  cases outcome <;> cases failed <;> rfl

end BinaryOp

end ScopeMachine
