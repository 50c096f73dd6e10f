import Mathlib.Data.String.Basic
import Mathlib.Order.Compare
import ScopeMachine.Proofs.Evaluation.Outcome

/-!
# Comparisons of values

The four ordering operators read one and the same order off their operands: integers by value, texts
by code points, and numbers of which one is a float by the order of floats, in which what is no
number stands apart. Two scalars are equal when their order says so, or when they are equal truth
values. Everything that relates one comparison to another follows from these two readings and from
the order of swapped operands being the swapped order.
-/

namespace ScopeMachine

/-- Code points of a text in order. -/
def codePoints (text : String) : List Nat := text.toList.map Char.toNat

namespace Value

/-- Whether a value is an integer or a float. -/
def isNumber (value : Value) : Bool := value.hasTag .int || value.hasTag .float

/-- Both values are numbers, or both are texts. -/
def Rankable (left right : Value) : Prop :=
  (left.isNumber = true ∧ right.isNumber = true) ∨
    (left.hasTag .string = true ∧ right.hasTag .string = true)

/-- Both values are integers, or both are texts. -/
def OneOrder (left right : Value) : Prop :=
  (left.hasTag .int = true ∧ right.hasTag .int = true) ∨
    (left.hasTag .string = true ∧ right.hasTag .string = true)

/-- A value that satisfies the annotation of integers is an integer. -/
theorem exists_int_of_hasTag {value : Value} (tagged : value.hasTag .int = true) :
    ∃ a, value = int a := by
  cases value <;> first | exact ⟨_, rfl⟩ | exact nomatch tagged

/-- A value that satisfies the annotation of texts is a text. -/
theorem exists_string_of_hasTag {value : Value} (tagged : value.hasTag .string = true) :
    ∃ text, value = string text := by
  cases value <;> first | exact ⟨_, rfl⟩ | exact nomatch tagged

/-- Order of two floats; there is none where one of them is no number. -/
def floatOrder (a b : Float) : Option Ordering := a.toModel.compare b.toModel

/-- Order of two values that can be ranked; it may turn out that there is none. -/
def order? : Value → Value → Option (Option Ordering)
  | int a, int b => some (some (cmp a.toInt b.toInt))
  | float a, float b => some (floatOrder a b)
  | int a, float b => some (floatOrder a.toFloat b)
  | float a, int b => some (floatOrder a b.toFloat)
  | string a, string b => some (some (cmp a b))
  | _, _ => none

/-- Whether two scalars are equal: as truth values or by their order. -/
def equal? (left right : Value) : Option Bool :=
  if left.isScalar && right.isScalar then
    match left, right with
    | bool a, bool b => some (a == b)
    | left, right => some ((left.order? right).join == some .eq)
  else
    none

/-- The order of swapped floats is the swapped order. -/
theorem floatOrder_swap (a b : Float) : floatOrder b a = (floatOrder a b).map Ordering.swap := by
  unfold floatOrder Float.Model.compare
  generalize a.toModel.unpack = left
  generalize b.toModel.unpack = right
  cases left with
  | notANumber => cases right <;> rfl
  | infinity sign =>
    cases right with
    | infinity other => cases sign <;> cases other <;> rfl
    | _ => cases sign <;> rfl
  | zero sign =>
    cases right with
    | infinity other => cases other <;> rfl
    | finite other => cases other <;> rfl
    | _ => rfl
  | finite sign m e pos =>
    cases right with
    | infinity other => cases other <;> rfl
    | zero other => cases sign <;> rfl
    | notANumber => rfl
    | finite other m' e' pos' =>
      have swapped : (compare e' e).then (compare m' m) =
          ((compare e e').then (compare m m')).swap := by
        rw [Ordering.swap_then, Int.compare_swap, Nat.compare_swap]
      cases sign with
      | positive =>
        cases other with
        | positive => exact congrArg some swapped
        | negative => rfl
      | negative =>
        cases other with
        | positive => rfl
        | negative => exact congrArg (fun order => some order.swap) swapped

/-- The order of swapped values is the swapped order. -/
theorem order?_swap (left right : Value) :
    right.order? left = (left.order? right).map (Option.map Ordering.swap) := by
  cases left with
  | int a =>
    cases right with
    | int b => rw [order?, order?, Option.map_some, Option.map_some, cmp_swap]
    | float b => exact congrArg some (floatOrder_swap _ _)
    | _ => rfl
  | float a =>
    cases right with
    | int b => exact congrArg some (floatOrder_swap _ _)
    | float b => exact congrArg some (floatOrder_swap _ _)
    | _ => rfl
  | string a =>
    cases right with
    | string b => rw [order?, order?, Option.map_some, Option.map_some, cmp_swap]
    | _ => rfl
  | _ => cases right <;> rfl

/-- There is an order to be read off exactly where values can be ranked. -/
theorem isSome_order?_iff (left right : Value) :
    (left.order? right).isSome = true ↔ left.Rankable right := by
  have told : (left.order? right).isSome =
      (left.isNumber && right.isNumber || left.hasTag .string && right.hasTag .string) := by
    cases left <;> cases right <;> rfl
  rw [told, Bool.or_eq_true, Bool.and_eq_true, Bool.and_eq_true]
  exact Iff.rfl

/-- Equality of scalars does not depend on their order. -/
theorem equal?_comm (left right : Value) : right.equal? left = left.equal? right := by
  have swapped : ((right.order? left).join == some .eq) =
      ((left.order? right).join == some .eq) := by
    rw [order?_swap left right]
    cases left.order? right with
    | none => rfl
    | some order =>
      cases order with
      | none => rfl
      | some order => cases order <;> rfl
  unfold equal?
  rw [Bool.and_comm]
  split
  · cases left with
    | bool a =>
      cases right with
      | bool b => exact congrArg some (Bool.beq_comm)
      | _ => exact congrArg some swapped
    | _ => cases right <;> exact congrArg some swapped
  · rfl

/-- Equality is told of scalars only. -/
theorem isSome_equal?_iff (left right : Value) :
    (left.equal? right).isSome = true ↔ left.isScalar = true ∧ right.isScalar = true := by
  unfold equal?
  split
  · next scalars =>
    rw [Bool.and_eq_true] at scalars
    split <;> simpa using scalars
  · next scalars => simpa using scalars

end Value

namespace BinaryOp

/-- Whether the operator orders its operands. -/
def isOrdering : BinaryOp → Bool
  | lt | ltEq | gt | gtEq => true
  | _ => false

/-- Whether an ordering operator holds of operands that stand in an order. -/
def holdsOf : BinaryOp → Ordering → Bool
  | lt => Ordering.isLT
  | ltEq => Ordering.isLE
  | gt => Ordering.isGT
  | gtEq => Ordering.isGE
  | _ => fun _ => false

/-- The operator fails because its operands are of the wrong kind. -/
def Mismatches (op : BinaryOp) (left right : Value) : Prop :=
  ∃ failure expected got,
    op.apply left right = .error failure ∧ failure.cause = .wrongKind expected got

/-- In a linear order the operators hold as the order of the operands has it. -/
theorem holdsOf_cmp {α : Type} [LinearOrder α] (a b : α) :
    lt.holdsOf (cmp a b) = decide (a < b) ∧ ltEq.holdsOf (cmp a b) = decide (a ≤ b) ∧
      gt.holdsOf (cmp a b) = decide (b < a) ∧ gtEq.holdsOf (cmp a b) = decide (b ≤ a) := by
  have compares := cmp_compares a b
  generalize cmp a b = order at compares ⊢
  cases order with
  | lt =>
    have below : a < b := compares
    simp [holdsOf, below, below.le, below.not_gt, below.not_ge]
  | eq =>
    have same : a = b := compares
    simp [holdsOf, same]
  | gt =>
    have above : b < a := compares
    simp [holdsOf, above, above.le, above.not_gt, above.not_ge]

/-- Ordering operators on integers read off the order of their values. -/
theorem applyInt_of_isOrdering {op : BinaryOp} (ordering : op.isOrdering = true) (a b : Int64) :
    op.applyInt a b = .ok (.bool (op.holdsOf (cmp a.toInt b.toInt))) := by
  obtain ⟨less, atMost, more, atLeast⟩ := holdsOf_cmp a.toInt b.toInt
  cases op with
  | lt => rw [less]; simp only [applyInt, Int64.lt_iff_toInt_lt]
  | ltEq => rw [atMost]; simp only [applyInt, Int64.le_iff_toInt_le]
  | gt => rw [more]; simp only [applyInt, Int64.lt_iff_toInt_lt]
  | gtEq => rw [atLeast]; simp only [applyInt, Int64.le_iff_toInt_le]
  | _ => exact absurd ordering Bool.false_ne_true

/-- Ordering operators on texts read off the order of texts. -/
theorem applyString_of_isOrdering {op : BinaryOp} (ordering : op.isOrdering = true)
    (a b : String) : op.applyString a b = .ok (.bool (op.holdsOf (cmp a b))) := by
  obtain ⟨less, atMost, more, atLeast⟩ := holdsOf_cmp a b
  cases op with
  | lt => rw [less, applyString]
  | ltEq => rw [atMost, applyString]
  | gt => rw [more, applyString]
  | gtEq => rw [atLeast, applyString]
  | _ => exact absurd ordering Bool.false_ne_true

/-- Ordering operators on floats read off the order of floats. -/
theorem applyFloat_of_isOrdering {op : BinaryOp} (ordering : op.isOrdering = true) (a b : Float) :
    op.applyFloat a b = .ok (.bool ((Value.floatOrder a b).any op.holdsOf)) := by
  have less : ∀ a b : Float, decide (a < b) = (Value.floatOrder a b == some .lt) := fun a b =>
    (Bool.decide_eq_true (b := a.lt b)).trans Bool.decide_eq_true
  have atMost : ∀ a b : Float, decide (a ≤ b) = (Value.floatOrder a b).any Ordering.isLE :=
    fun a b => (Bool.decide_eq_true (b := a.le b)).trans Bool.decide_eq_true
  have swapped := Value.floatOrder_swap a b
  cases op with
  | lt =>
    rw [applyFloat, less]
    rcases Value.floatOrder a b with _ | order
    · rfl
    · cases order <;> rfl
  | ltEq => rw [applyFloat, atMost]; rfl
  | gt =>
    rw [applyFloat, less, swapped]
    rcases Value.floatOrder a b with _ | order
    · rfl
    · cases order <;> rfl
  | gtEq =>
    rw [applyFloat, atMost, swapped]
    rcases Value.floatOrder a b with _ | order
    · rfl
    · cases order <;> rfl
  | _ => exact absurd ordering Bool.false_ne_true

/-- An ordering operator reads off the order of its operands, or does not support them. -/
theorem apply_of_isOrdering {op : BinaryOp} (ordering : op.isOrdering = true)
    (left right : Value) :
    op.apply left right =
      match left.order? right with
      | some order => .ok (.bool (order.any op.holdsOf))
      | none => .error (.unsupportedOperands op left.kindName right.kindName) := by
  have bools : ∀ a b, op.applyBool a b = .error (.unsupportedOperands op "bool" "bool") := by
    cases op <;> first | exact fun _ _ => rfl | exact nomatch ordering
  have mixed : ∀ left right,
      op.applyMixed left right = .error (.unsupportedOperands op left.kindName right.kindName) := by
    cases op <;> first | exact fun _ _ => rfl | exact nomatch ordering
  cases left with
  | int a =>
    cases right with
    | int b => exact applyInt_of_isOrdering ordering a b
    | float b => exact applyFloat_of_isOrdering ordering _ b
    | bool | string => exact mixed _ _
    | _ => rfl
  | float a =>
    cases right with
    | int b => exact applyFloat_of_isOrdering ordering a _
    | float b => exact applyFloat_of_isOrdering ordering a b
    | bool | string => exact mixed _ _
    | _ => rfl
  | bool a =>
    cases right with
    | bool b => exact bools a b
    | int | float | string => exact mixed _ _
    | _ => rfl
  | string a =>
    cases right with
    | string b => exact applyString_of_isOrdering ordering a b
    | int | float | bool => exact mixed _ _
    | _ => rfl
  | _ => cases right <;> rfl

/-- In a linear order operands are equal when their order says so. -/
theorem cmp_beq_eq {α : Type} [LinearOrder α] (a b : α) :
    ((some (some (cmp a b))).join == some Ordering.eq) = decide (a = b) := by
  by_cases same : a = b
  · rw [decide_eq_true same, (cmp_eq_eq_iff a b).2 same]
    rfl
  · have differs : cmp a b ≠ .eq := fun equal => same ((cmp_eq_eq_iff a b).1 equal)
    rw [decide_eq_false same]
    exact beq_eq_false_iff_ne.2 fun equal => differs (Option.some.inj equal)

/-- Equality and inequality tell whether scalars are equal, and support no other operands. -/
theorem apply_eq_notEq (left right : Value) :
    (eq.apply left right =
      match left.equal? right with
      | some same => .ok (.bool same)
      | none => .error (.unsupportedOperands eq left.kindName right.kindName)) ∧
    (notEq.apply left right =
      match left.equal? right with
      | some same => .ok (.bool !same)
      | none => .error (.unsupportedOperands notEq left.kindName right.kindName)) := by
  cases left with
  | int a =>
    cases right with
    | int b =>
      have told : (Value.int a).equal? (.int b) = some (decide (a = b)) := by
        refine congrArg some ((cmp_beq_eq a.toInt b.toInt).trans ?_)
        simp only [Int64.toInt_inj]
      rw [told]
      exact ⟨rfl, congrArg (fun verdict => Except.ok (Value.bool verdict)) decide_not⟩
    | _ => exact ⟨rfl, rfl⟩
  | float a => cases right <;> exact ⟨rfl, rfl⟩
  | bool a =>
    cases right with
    | bool b => cases a <;> cases b <;> exact ⟨rfl, rfl⟩
    | _ => exact ⟨rfl, rfl⟩
  | string a =>
    cases right with
    | string b =>
      have told : (Value.string a).equal? (.string b) = some (decide (a = b)) :=
        congrArg some (cmp_beq_eq a b)
      rw [told]
      exact ⟨rfl, congrArg (fun verdict => Except.ok (Value.bool verdict)) decide_not⟩
    | _ => exact ⟨rfl, rfl⟩
  | _ => cases right <;> exact ⟨rfl, rfl⟩

/-- Operands that an operator does not support are of the wrong kind. -/
theorem mismatches_of_apply {op : BinaryOp} {left right : Value} {first second : String}
    (ended : op.apply left right = .error (.unsupportedOperands op first second)) :
    op.Mismatches left right :=
  ⟨_, _, _, ended, rfl⟩

/-- Equality and inequality of scalars are opposite, whichever comes first; no other operands are
supported. -/
theorem eq_notEq_cases (left right : Value) :
    (left.isScalar = true ∧ right.isScalar = true ∧ ∃ same : Bool,
      eq.apply left right = .ok (.bool same) ∧ notEq.apply left right = .ok (.bool !same) ∧
      eq.apply right left = .ok (.bool same) ∧ notEq.apply right left = .ok (.bool !same)) ∨
    (¬ (left.isScalar = true ∧ right.isScalar = true) ∧
      eq.Mismatches left right ∧ notEq.Mismatches left right ∧
      eq.Mismatches right left ∧ notEq.Mismatches right left) := by
  obtain ⟨equal, unequal⟩ := apply_eq_notEq left right
  obtain ⟨equalBack, unequalBack⟩ := apply_eq_notEq right left
  have scalars := Value.isSome_equal?_iff left right
  rw [Value.equal?_comm left right] at equalBack unequalBack
  cases told : left.equal? right with
  | some same =>
    rw [told] at equal unequal equalBack unequalBack scalars
    obtain ⟨leftScalar, rightScalar⟩ := scalars.1 rfl
    exact Or.inl ⟨leftScalar, rightScalar, same, equal, unequal, equalBack, unequalBack⟩
  | none =>
    rw [told] at equal unequal equalBack unequalBack scalars
    refine Or.inr ⟨fun both => Bool.false_ne_true (scalars.2 both), ?_⟩
    exact ⟨mismatches_of_apply equal, mismatches_of_apply unequal, mismatches_of_apply equalBack,
      mismatches_of_apply unequalBack⟩

/-- Ordering operators support exactly the operands that can be ranked. -/
theorem isOrdering_cases {op : BinaryOp} (ordering : op.isOrdering = true) (left right : Value) :
    (left.Rankable right ∧ ∃ verdict, op.apply left right = .ok (.bool verdict)) ∨
      (¬ left.Rankable right ∧ op.Mismatches left right) := by
  have ended := apply_of_isOrdering ordering left right
  rw [← Value.isSome_order?_iff]
  cases ranked : left.order? right with
  | some order =>
    rw [ranked] at ended
    exact Or.inl ⟨rfl, _, ended⟩
  | none =>
    rw [ranked] at ended
    exact Or.inr ⟨Bool.false_ne_true, mismatches_of_apply ended⟩

/-- An ordering operator and the one that holds of swapped orders give the same verdict on swapped
operands. -/
theorem apply_swap {op other : BinaryOp} (ordering : op.isOrdering = true)
    (otherOrdering : other.isOrdering = true)
    (mirrors : ∀ order : Ordering, other.holdsOf order.swap = op.holdsOf order)
    (left right : Value) (verdict : Bool) :
    op.apply left right = .ok (.bool verdict) ↔ other.apply right left = .ok (.bool verdict) := by
  rw [apply_of_isOrdering ordering, apply_of_isOrdering otherOrdering, Value.order?_swap left right]
  cases left.order? right with
  | none => simp
  | some order =>
    cases order with
    | none => simp
    | some order => simp [mirrors]

/-- Integers, and texts, stand in an order that all comparisons read off. -/
theorem exists_order_of_oneOrder {left right : Value} (comparable : left.OneOrder right) :
    ∃ order : Ordering,
      eq.apply left right = .ok (.bool order.isEq) ∧
      ∀ op : BinaryOp, op.isOrdering = true →
        op.apply left right = .ok (.bool (op.holdsOf order)) := by
  have found : ∃ order, left.order? right = some (some order) ∧
      left.equal? right = some (some order == some .eq) := by
    rcases comparable with ⟨leftInt, rightInt⟩ | ⟨leftText, rightText⟩
    · obtain ⟨a, rfl⟩ := Value.exists_int_of_hasTag leftInt
      obtain ⟨b, rfl⟩ := Value.exists_int_of_hasTag rightInt
      exact ⟨_, rfl, rfl⟩
    · obtain ⟨a, rfl⟩ := Value.exists_string_of_hasTag leftText
      obtain ⟨b, rfl⟩ := Value.exists_string_of_hasTag rightText
      exact ⟨_, rfl, rfl⟩
  obtain ⟨order, ranked, told⟩ := found
  refine ⟨order, ?_, fun op ordering => ?_⟩
  · rw [(apply_eq_notEq left right).1, told]
    cases order <;> rfl
  · rw [apply_of_isOrdering ordering, ranked]
    rfl

/-- The order of code points is that of characters, text by text. -/
theorem lex_codePoints_iff (a b : String) :
    List.Lex (· < ·) (codePoints a) (codePoints b) ↔ a < b := by
  have points : ∀ xs ys : List Char,
      List.Lex (· < ·) (xs.map Char.toNat) (ys.map Char.toNat) ↔ List.Lex (· < ·) xs ys := by
    intro xs
    induction xs with
    | nil => intro ys; cases ys <;> simp
    | cons x xs ih =>
      intro ys
      cases ys with
      | nil => simp
      | cons y ys =>
        have below : x.toNat < y.toNat ↔ x < y := Iff.rfl
        have same : x.toNat = y.toNat ↔ x = y := Char.toNat_inj
        rw [List.map_cons, List.map_cons, List.cons_lex_cons_iff, List.cons_lex_cons_iff, ih, below,
          same]
  exact points a.toList b.toList

/-- A value that is less than one that is less than a third is less than the third. -/
theorem lt_trans_of_oneOrder {first second third : Value} (opening : first.OneOrder second)
    (closing : second.OneOrder third) (below : lt.apply first second = .ok (.bool true))
    (above : lt.apply second third = .ok (.bool true)) :
    lt.apply first third = .ok (.bool true) := by
  rcases opening with ⟨firstInt, secondInt⟩ | ⟨firstText, secondText⟩
  · rcases closing with ⟨_, thirdInt⟩ | ⟨secondText, _⟩
    · obtain ⟨a, rfl⟩ := Value.exists_int_of_hasTag firstInt
      obtain ⟨b, rfl⟩ := Value.exists_int_of_hasTag secondInt
      obtain ⟨c, rfl⟩ := Value.exists_int_of_hasTag thirdInt
      have less : a < b := by simpa [apply, applyInt] using below
      have more : b < c := by simpa [apply, applyInt] using above
      have both : a < c := Int64.lt_trans less more
      simp [apply, applyInt, both]
    · obtain ⟨b, rfl⟩ := Value.exists_int_of_hasTag secondInt
      exact absurd secondText Bool.false_ne_true
  · rcases closing with ⟨secondInt, _⟩ | ⟨_, thirdText⟩
    · obtain ⟨b, rfl⟩ := Value.exists_int_of_hasTag secondInt
      exact absurd secondText Bool.false_ne_true
    · obtain ⟨a, rfl⟩ := Value.exists_string_of_hasTag firstText
      obtain ⟨b, rfl⟩ := Value.exists_string_of_hasTag secondText
      obtain ⟨c, rfl⟩ := Value.exists_string_of_hasTag thirdText
      have less : a < b := of_decide_eq_true (Value.bool.inj (Except.ok.inj below))
      have more : b < c := of_decide_eq_true (Value.bool.inj (Except.ok.inj above))
      exact congrArg (fun verdict => Except.ok (Value.bool verdict))
        (decide_eq_true (less.trans more))

/-- A comparison gives a verdict or fails for the kind of its operands. -/
theorem verdict_or_mismatches {op : BinaryOp} (comparison : op.isComparison = true)
    (left right : Value) :
    (∃ verdict, op.apply left right = .ok (.bool verdict)) ∨ op.Mismatches left right := by
  by_cases ordering : op.isOrdering = true
  · exact (isOrdering_cases ordering left right).imp And.right And.right
  · rcases eq_notEq_cases left right with ⟨_, _, same, equal, unequal, _⟩ | ⟨_, equal, unequal, _⟩
    · cases op with
      | eq => exact Or.inl ⟨_, equal⟩
      | notEq => exact Or.inl ⟨_, unequal⟩
      | lt | ltEq | gt | gtEq => exact absurd rfl ordering
      | _ => exact nomatch comparison
    · cases op with
      | eq => exact Or.inr equal
      | notEq => exact Or.inr unequal
      | lt | ltEq | gt | gtEq => exact absurd rfl ordering
      | _ => exact nomatch comparison

/-- Comparisons of any two values agree with each other.

* Equality and inequality give opposite verdicts on scalars, the same ones when the operands are
  swapped, and fail on all other operands for their kind.
* The four ordering operators support exactly two numbers or two texts, and fail on all other
  operands for their kind. Swapped operands are less where the operands are greater.
* Integers, and texts, are in one of three orders. They are less, equal or greater as that order is,
  at most where they are not greater, and at least where they are not less. Less is transitive, and
  texts are less by the first code points in which they differ.
* No comparison fails because a divisor is zero or a result does not fit. -/
theorem comparisons_coherent :
    (∀ left right : Value,
      (left.isScalar = true ∧ right.isScalar = true ∧ ∃ same : Bool,
        eq.apply left right = .ok (.bool same) ∧
        notEq.apply left right = .ok (.bool !same) ∧
        eq.apply right left = .ok (.bool same) ∧
        notEq.apply right left = .ok (.bool !same)) ∨
      (¬ (left.isScalar = true ∧ right.isScalar = true) ∧
        eq.Mismatches left right ∧ notEq.Mismatches left right ∧
        eq.Mismatches right left ∧ notEq.Mismatches right left)) ∧
    (∀ op ∈ [lt, ltEq, gt, gtEq], ∀ left right : Value,
      (left.Rankable right ∧ ∃ verdict, op.apply left right = .ok (.bool verdict)) ∨
      (¬ left.Rankable right ∧ op.Mismatches left right)) ∧
    (∀ (left right : Value) (verdict : Bool),
      (lt.apply left right = .ok (.bool verdict) ↔
        gt.apply right left = .ok (.bool verdict)) ∧
      (ltEq.apply left right = .ok (.bool verdict) ↔
        gtEq.apply right left = .ok (.bool verdict))) ∧
    (∀ left right : Value, left.OneOrder right → ∃ order : Ordering,
      lt.apply left right = .ok (.bool order.isLT) ∧
      eq.apply left right = .ok (.bool order.isEq) ∧
      gt.apply left right = .ok (.bool order.isGT) ∧
      ltEq.apply left right = .ok (.bool !order.isGT) ∧
      gtEq.apply left right = .ok (.bool !order.isLT)) ∧
    (∀ first second third : Value, first.OneOrder second → second.OneOrder third →
      lt.apply first second = .ok (.bool true) →
      lt.apply second third = .ok (.bool true) →
      lt.apply first third = .ok (.bool true)) ∧
    (∀ a b : String, lt.apply (.string a) (.string b) =
      .ok (.bool (decide (List.Lex (· < ·) (codePoints a) (codePoints b))))) ∧
    ∀ (op : BinaryOp) (left right : Value) (failure : Failure), op.isComparison = true →
      op.apply left right = .error failure →
      failure.cause ≠ .divisionByZero ∧ ∀ operation, failure.cause ≠ .integerOverflow operation := by
  refine ⟨eq_notEq_cases, ?_, ?_, ?_, fun _ _ _ => lt_trans_of_oneOrder, ?_, ?_⟩
  · intro op listed
    have ordering : op.isOrdering = true := by
      revert op
      decide
    exact isOrdering_cases ordering
  · intro left right verdict
    constructor
    · exact apply_swap rfl rfl (fun order => by cases order <;> rfl) left right verdict
    · exact apply_swap rfl rfl (fun order => by cases order <;> rfl) left right verdict
  · intro left right comparable
    obtain ⟨order, equal, ranks⟩ := exists_order_of_oneOrder comparable
    refine ⟨order, ranks .lt rfl, equal, ranks .gt rfl, ?_, ?_⟩
    · rw [ranks .ltEq rfl]
      cases order <;> rfl
    · rw [ranks .gtEq rfl]
      cases order <;> rfl
  · intro a b
    refine congrArg (fun verdict => Except.ok (Value.bool verdict)) ?_
    exact decide_eq_decide.2 (lex_codePoints_iff a b).symm
  · intro op left right failure comparison failed
    rcases verdict_or_mismatches comparison left right with ⟨_, given⟩ | ⟨_, _, _, ended, cause⟩
    · exact nomatch given.symm.trans failed
    · cases ended.symm.trans failed
      rw [cause]
      exact ⟨nofun, fun _ => nofun⟩

end BinaryOp

end ScopeMachine
