import Mathlib.Algebra.Ring.Int.Defs
import ScopeMachine.Machine
import ScopeMachine.Proofs.Evaluation.Step
import ScopeMachine.Proofs.Syntax.ReadBack

/-!
# Integer arithmetic

An arithmetic tree is a tree of integer literals and of sums, differences and products, each with a
span. It has a value among all integers, and its subtrees come in the order in which they are
evaluated: left before right, and both before what is computed from them. Evaluation gives the value
when all subtrees fit into 64 bits, and otherwise fails at the first one that does not.
-/

namespace ScopeMachine

/-- Operator of integer arithmetic. -/
inductive ArithmeticOp where
  | add
  | sub
  | mul
deriving DecidableEq

namespace ArithmeticOp

/-- The operator among all binary ones. -/
def binary : ArithmeticOp → BinaryOp
  | add => .add
  | sub => .sub
  | mul => .mul

/-- Result among all integers. -/
def exact : ArithmeticOp → Int → Int → Int
  | add => (· + ·)
  | sub => (· - ·)
  | mul => (· * ·)

/-- Name of the operation in failures. -/
def operation : ArithmeticOp → String
  | add => "addition"
  | sub => "subtraction"
  | mul => "multiplication"

/-- On integers the operator gives the exact result, if that fits. -/
theorem apply_binary (op : ArithmeticOp) (a b : Int64) :
    op.binary.apply (.int a) (.int b) = checkedInt op.operation (op.exact a.toInt b.toInt) := by
  cases op <;> rfl

end ArithmeticOp

/-- Tree of integer literals and operations on them. -/
inductive Arithmetic where
  /-- Integer literal. -/
  | literal (value : Int64) (span : Span)
  /-- Sum, difference or product. -/
  | compute (op : ArithmeticOp) (left right : Arithmetic) (span : Span)
deriving DecidableEq

namespace Arithmetic

/-- Value among all integers. -/
def value : Arithmetic → Int
  | literal value _ => value.toInt
  | compute op left right _ => op.exact left.value right.value

/-- Whether the value fits into 64 bits. -/
def fits (tree : Arithmetic) : Bool := decide (-2 ^ 63 ≤ tree.value ∧ tree.value ≤ 2 ^ 63 - 1)

/-- All subtrees in left-to-right post-order. -/
def postorder : Arithmetic → List Arithmetic
  | literal value span => [literal value span]
  | compute op left right span =>
    left.postorder ++ right.postorder ++ [compute op left right span]

/-- First subtree whose value does not fit. -/
def firstMisfit? (tree : Arithmetic) : Option Arithmetic :=
  tree.postorder.find? fun subtree => !subtree.fits

/-- Number of operations on the longest path down to a literal. -/
def height : Arithmetic → Nat
  | literal _ _ => 0
  | compute _ left right _ => max left.height right.height + 1

/-- Failure of an operation whose result does not fit. -/
def overflow (op : ArithmeticOp) (span : Span) : Failure :=
  { cause := .integerOverflow op.operation, span := some span }

/-- Source of the tree. -/
def source : Arithmetic → Tree
  | literal value span => .spanned span (.node (.int value))
  | compute op left right span =>
    .spanned span (.node (.binary op.binary left.source right.source))

/-- A literal fits. -/
theorem fits_literal (value : Int64) (span : Span) : (literal value span).fits = true := by
  have below := value.le_toInt
  have above := value.toInt_lt
  rw [fits, decide_eq_true_eq, Arithmetic.value]
  omega

/-- A checked integer is the value of a tree that fits, and fails for one that does not. -/
theorem checkedInt_value (operation : String) (tree : Arithmetic) :
    checkedInt operation tree.value =
      if tree.fits then .ok (.int (Int64.ofInt tree.value))
      else .error (.integerOverflow operation) := by
  have least : Int64.minValue.toInt = -2 ^ 63 := by decide
  have greatest : Int64.maxValue.toInt = 2 ^ 63 - 1 := by decide
  simp only [checkedInt, least, greatest, fits, decide_eq_true_eq]

/-- The integer for the value of a tree that fits has that value. -/
theorem toInt_ofInt_value {tree : Arithmetic} (fit : tree.fits = true) :
    (Int64.ofInt tree.value).toInt = tree.value := by
  simp only [fits, decide_eq_true_eq] at fit
  exact Int64.toInt_ofInt_of_le fit.1 (by omega)

/-- A tree is the last of its subtrees. -/
theorem self_mem_postorder (tree : Arithmetic) : tree ∈ tree.postorder := by
  cases tree <;> simp [postorder]

/-- No subtree is a misfit exactly when all fit. -/
theorem firstMisfit?_eq_none_iff (tree : Arithmetic) :
    tree.firstMisfit? = none ↔ ∀ subtree ∈ tree.postorder, subtree.fits = true := by
  simp [firstMisfit?]

/-- Where no subtree is a misfit, the tree fits. -/
theorem fits_of_firstMisfit? {tree : Arithmetic} (none : tree.firstMisfit? = none) :
    tree.fits = true :=
  tree.firstMisfit?_eq_none_iff.1 none tree tree.self_mem_postorder

/-- The first misfit is looked for on the left, then on the right, and is the tree itself in the
end. -/
theorem firstMisfit?_compute (op : ArithmeticOp) (left right : Arithmetic) (span : Span) :
    (compute op left right span).firstMisfit? =
      (left.firstMisfit?.or right.firstMisfit?).or
        (if (compute op left right span).fits then none else some (compute op left right span)) := by
  rw [firstMisfit?, postorder, List.find?_append, List.find?_append]
  congr 1
  cases fit : (compute op left right span).fits <;> simp [fit]

end Arithmetic

/-- The nodes from a position on are those of an arithmetic tree. -/
inductive Program.Spells (code : Program) : NodeId → Arithmetic → Prop where
  /-- A literal. -/
  | literal {id : NodeId} {value : Int64} {span : Span}
    (found : code.node? id = some ⟨.int value, span⟩) : Spells code id (.literal value span)
  /-- An operation on what two nodes spell. -/
  | compute {id left right : NodeId} {op : ArithmeticOp} {first second : Arithmetic} {span : Span}
    (found : code.node? id = some ⟨.binary op.binary left right, span⟩)
    (leftSpells : Spells code left first) (rightSpells : Spells code right second) :
    Spells code id (.compute op first second span)

namespace Eval

/-- The evaluation gives the value of the tree if all subtrees fit, and otherwise fails at the first
misfit, which is no literal. -/
def Computes (tree : Arithmetic) (evaluation : Eval Value) : Prop :=
  (tree.firstMisfit? = none ∧ evaluation = pure (.int (Int64.ofInt tree.value))) ∨
    ∃ op left right span, tree.firstMisfit? = some (.compute op left right span) ∧
      evaluation = fail (Arithmetic.overflow op span)

/-- A result needs no span. -/
theorem located_pure {α : Type} (span : Span) (value : α) :
    located span (pure value) = pure value := rfl

/-- A failure takes a span. -/
theorem located_fail {α : Type} (span : Span) (failure : Failure) :
    located span (fail failure : Eval α) = fail (failure.locateOnce span) := rfl

/-- An operation on what trees compute computes the tree of the operation. -/
theorem computes_compute {op : ArithmeticOp} {first second : Arithmetic} {left right : Eval Value}
    (opening : Computes first left) (closing : Computes second right) (span : Span) :
    Computes (.compute op first second span)
      (located span (do
        let left ← left
        let right ← right
        ofResult (op.binary.apply left right))) := by
  have search := Arithmetic.firstMisfit?_compute op first second span
  rcases opening with ⟨leftFits, rfl⟩ | ⟨inner, _, _, place, misfit, rfl⟩
  · rcases closing with ⟨rightFits, rfl⟩ | ⟨inner, _, _, place, misfit, rfl⟩
    · -- both operands fit, so the operation decides
      have leftValue := Arithmetic.toInt_ofInt_value (Arithmetic.fits_of_firstMisfit? leftFits)
      have rightValue := Arithmetic.toInt_ofInt_value (Arithmetic.fits_of_firstMisfit? rightFits)
      have applied := op.apply_binary (Int64.ofInt first.value) (Int64.ofInt second.value)
      rw [leftValue, rightValue] at applied
      have checked := Arithmetic.checkedInt_value op.operation (.compute op first second span)
      rw [leftFits, rightFits, Option.none_or, Option.none_or] at search
      rw [pure_bind, pure_bind, applied]
      change Computes _ (located span (ofResult (checkedInt op.operation
        (Arithmetic.compute op first second span).value)))
      rw [checked]
      cases fit : (Arithmetic.compute op first second span).fits with
      | true =>
        rw [fit] at search
        exact Or.inl ⟨search, located_pure span _⟩
      | false =>
        rw [fit] at search
        exact Or.inr ⟨op, first, second, span, search, located_fail span _⟩
    · rw [leftFits, misfit, Option.none_or, Option.some_or] at search
      exact Or.inr ⟨inner, _, _, place, search, located_fail span _⟩
  · rw [misfit, Option.some_or, Option.some_or] at search
    exact Or.inr ⟨inner, _, _, place, search, located_fail span _⟩

/-- A run of the nodes of an arithmetic tree computes the tree. -/
theorem computes_run {setting : Setting} {program : ProgramId} {code : Program}
    (loaded : setting.program? program = some code) (host : Host) (scope : Handle) {id : NodeId}
    {tree : Arithmetic} (spells : code.Spells id tree) {depth : Nat} (deep : tree.height < depth) :
    Computes tree (run setting host depth (.node program id scope)) := by
  induction spells generalizing depth with
  | @literal id value span found =>
    obtain ⟨depth, rfl⟩ := Nat.exists_eq_add_of_lt deep
    rw [run_succ, step_node loaded found]
    refine Or.inl ⟨?_, ?_⟩
    · rw [Arithmetic.firstMisfit?_eq_none_iff]
      simpa [Arithmetic.postorder] using Arithmetic.fits_literal value span
    · rw [Arithmetic.value, Int64.ofInt_toInt]
      exact located_pure span _
  | @compute id left right op first second span found leftSpells rightSpells leftIH rightIH =>
    cases depth with
    | zero => exact absurd deep (Nat.not_lt_zero _)
    | succ depth =>
      have below : max first.height second.height < depth := Nat.lt_of_succ_lt_succ deep
      rw [run_succ, step_node loaded found]
      exact computes_compute (leftIH (lt_of_le_of_lt (le_max_left _ _) below))
        (rightIH (lt_of_le_of_lt (le_max_right _ _) below)) span

end Eval

/-- What nodes spell they spell in every program that keeps them. -/
theorem Program.Spells.mono {code after : Program} {id : NodeId} {tree : Arithmetic}
    (spells : code.Spells id tree) (keeps : code.Keeps after) : after.Spells id tree := by
  induction spells with
  | literal found => exact .literal (keeps.node _ _ found)
  | compute found _ _ leftIH rightIH => exact .compute (keeps.node _ _ found) leftIH rightIH

/-- Laying out the source of a tree adds nodes that spell it and keeps the rest of the program. -/
theorem Arithmetic.spells_layout (tree : Arithmetic) (span : Span) (draft : Draft) :
    let laid := (tree.source.layout span).run draft
    laid.2.program.Spells laid.1 tree ∧ draft.program.Keeps laid.2.program := by
  induction tree generalizing span draft with
  | literal value own =>
    have found := draft.program.node?_addNode ⟨.int value, own⟩
    exact ⟨.literal found, draft.program.keeps_addNode ⟨.int value, own⟩⟩
  | compute op left right own leftIH rightIH =>
    let first := (left.source.layout own).run draft
    let second := (right.source.layout own).run first.2
    let root : Node := ⟨.binary op.binary first.1 second.1, own⟩
    have kept := second.2.program.keeps_addNode root
    obtain ⟨leftSpells, leftKeeps⟩ := leftIH own draft
    obtain ⟨rightSpells, rightKeeps⟩ := rightIH own first.2
    have found := second.2.program.node?_addNode root
    exact ⟨.compute found (leftSpells.mono (rightKeeps.trans kept)) (rightSpells.mono kept),
      leftKeeps.trans (rightKeeps.trans kept)⟩

namespace Machine

/-- An arithmetic tree is evaluated exactly or fails at its first misfit, in any machine and scope:
the answer is the integer that the tree has as its value exactly when the values of all subtrees lie
between `-2 ^ 63` and `2 ^ 63 - 1`; otherwise the first subtree in left-to-right post-order whose
value does not is an operation, and the answer is the overflow of that operation at its span. The
machine is the same afterwards. -/
theorem arithmetic_exact (machine : Machine) (host : Host) (scope : Handle) {code : Program}
    (loaded : machine.setting.program? machine.current = some code) {id : NodeId}
    {tree : Arithmetic} (spells : code.Spells id tree) {depth : Nat} (deep : tree.height < depth) :
    (machine.evaluate host depth id scope).2 = machine ∧
      ((∃ z : Int64, (machine.evaluate host depth id scope).1 = .ok (.int z) ∧
          z.toInt = tree.value) ↔
        ∀ subtree ∈ tree.postorder, -2 ^ 63 ≤ subtree.value ∧ subtree.value ≤ 2 ^ 63 - 1) ∧
      ((∃ subtree ∈ tree.postorder,
          ¬(-2 ^ 63 ≤ subtree.value ∧ subtree.value ≤ 2 ^ 63 - 1)) →
        ∃ op left right span, tree.firstMisfit? = some (.compute op left right span) ∧
          (machine.evaluate host depth id scope).1 =
            .error (.failure (Arithmetic.overflow op span))) := by
  have fitting : tree.firstMisfit? = none ↔
      ∀ subtree ∈ tree.postorder, -2 ^ 63 ≤ subtree.value ∧ subtree.value ≤ 2 ^ 63 - 1 := by
    simp only [Arithmetic.firstMisfit?_eq_none_iff, Arithmetic.fits, decide_eq_true_eq]
  have computes := Eval.computes_run loaded host scope spells deep
  rw [evaluate, performTask]
  rcases computes with ⟨none, computed⟩ | ⟨op, left, right, span, misfit, computed⟩
  · have value := Arithmetic.toInt_ofInt_value (Arithmetic.fits_of_firstMisfit? none)
    rw [computed]
    refine ⟨rfl, ⟨fun _ => fitting.1 none, fun _ => ⟨_, rfl, value⟩⟩, ?_⟩
    rintro ⟨subtree, listed, misfit⟩
    exact absurd (fitting.1 none subtree listed) misfit
  · rw [computed]
    refine ⟨rfl, ⟨?_, ?_⟩, fun _ => ⟨op, left, right, span, misfit, rfl⟩⟩
    · rintro ⟨z, failed, _⟩
      cases failed
    · intro all
      rw [fitting.2 all] at misfit
      cases misfit

end Machine

/-- One more than the greatest integer, less one. -/
def Arithmetic.detour : Arithmetic :=
  .compute .sub (.compute .add (.literal Int64.maxValue ⟨1, 2⟩) (.literal 1 ⟨3, 4⟩) ⟨1, 4⟩)
    (.literal 1 ⟨5, 6⟩) ⟨1, 6⟩

/-- A tree that fits fails where the way to its value leaves the 64 bits: its source is built on a
new machine, and evaluated in a scope that the machine does not have. -/
theorem Machine.arithmetic_exact_detour :
    let built := (Machine.start .initial Machine.defaultHops (.buffer "")).build
      [Arithmetic.detour.source]
    let machine := built.2.2.enter built.1
    Arithmetic.detour.fits = true ∧ built.2.1 = [⟨4⟩] ∧
      machine.evaluate .standard 3 ⟨4⟩ ⟨7, 7⟩ =
        (.error (.failure (Arithmetic.overflow .add ⟨1, 4⟩)), machine) := by
  intro built machine
  have spells := (Arithmetic.detour.spells_layout .dummy
    (Machine.start .initial Machine.defaultHops (.buffer "")).draft).1
  have exactly := Machine.arithmetic_exact machine .standard ⟨7, 7⟩ rfl spells
    (show Arithmetic.detour.height < 3 by decide)
  obtain ⟨unchanged, _, failing⟩ := exactly
  obtain ⟨op, left, right, span, misfit, answer⟩ :=
    failing ⟨.compute .add (.literal Int64.maxValue ⟨1, 2⟩) (.literal 1 ⟨3, 4⟩) ⟨1, 4⟩,
      by decide, by decide⟩
  have first : Arithmetic.detour.firstMisfit? = some
      (.compute .add (.literal Int64.maxValue ⟨1, 2⟩) (.literal 1 ⟨3, 4⟩) ⟨1, 4⟩) := by decide
  rw [first] at misfit
  cases misfit
  exact ⟨by decide, rfl, Prod.ext answer unchanged⟩

end ScopeMachine
