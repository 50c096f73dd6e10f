import ScopeMachine.Evaluation.Step
import ScopeMachine.Proofs.Simulation.Operations

/-!
# Simulation of whole runs

One step of evaluation simulates itself in corresponding scopes, node kind by node kind, if the
evaluators of inner tasks do. By induction on the depth whole runs simulate each other, under every
pair of hosts whose entries do.
-/

namespace ScopeMachine.Eval

variable {lossy : Prop} {pairs : Renaming} {setting : Setting} {leftHost rightHost : Host}
  {leftEvaluate rightEvaluate : Evaluator}

section Step

variable (evaluators : Evaluator.Simulates lossy leftEvaluate rightEvaluate)
  (program : ProgramId) (code : Program) {leftScope rightScope : Handle}
  (scope : pairs.SendsHandle leftScope rightScope)
include evaluators scope

/-- A child of a node simulates itself, also under an extended renaming. -/
theorem simulates_child {later : Renaming} (extended : later.Extends pairs) (id : NodeId) :
    Simulates lossy Renaming.Sends later
      (leftEvaluate (Frame.task ⟨program, code, leftScope⟩ id))
      (rightEvaluate (Frame.task ⟨program, code, rightScope⟩ id)) :=
  evaluators later _ _ (.node (scope.extend extended))

/-- Evaluating the arguments of a node simulates itself. -/
theorem simulates_arguments {later : Renaming} (extended : later.Extends pairs)
    (range : NodeRange) :
    Simulates lossy Renaming.SendsAll later
      (arguments leftEvaluate ⟨program, code, leftScope⟩ range)
      (arguments rightEvaluate ⟨program, code, rightScope⟩ range) := by
  refine simulates_each Eq (fun final more left right same => ?_)
    (List.forall₂_refl _)
  exact same ▸ simulates_child evaluators program code scope (more.trans extended) left

/-- One step on a node simulates itself in corresponding scopes. -/
theorem simulates_stepKind (hosts : Host.Simulates lossy setting leftHost rightHost)
    (kind : NodeKind) :
    Simulates lossy Renaming.Sends pairs
      (stepKind setting leftHost leftEvaluate ⟨program, code, leftScope⟩ kind)
      (stepKind setting rightHost rightEvaluate ⟨program, code, rightScope⟩ kind) := by
  have child := simulates_child evaluators program code scope (.refl pairs)
  cases kind with
  | int value => exact simulates_pure (Renaming.sends_self rfl)
  | float bits => exact simulates_pure (Renaming.sends_self rfl)
  | bool value => exact simulates_pure (Renaming.sends_self rfl)
  | string text => exact simulates_pure (Renaming.sends_self rfl)
  | read name => exact simulates_readName setting scope name
  | binary op leftId rightId =>
    refine (child leftId).bind fun later extended left _ leftValue => ?_
    refine (simulates_child evaluators program code scope extended rightId).bind
      fun final more right _ rightValue => ?_
    rw [(leftValue.extend more).eq, rightValue.eq, BinaryOp.apply_rename]
    exact simulates_ofResult (op.outcome_apply left right).plain.agrees
  | branch condition thenBranch elseBranch =>
    refine (child condition).bind fun later extended left _ value => ?_
    rw [value.eq, Value.holds_rename]
    have holds : Simulates lossy (fun _ left right => left = right) later
        (ofResult left.holds) (ofResult left.holds) :=
      simulates_ofResult (.of_self fun _ _ => rfl)
    refine holds.bind fun final more chosen _ same => ?_
    subst same
    have further := more.trans extended
    cases chosen with
    | true => exact simulates_child evaluators program code scope further thenBranch
    | false =>
      cases elseBranch with
      | some elseBranch =>
        exact simulates_child evaluators program code scope further elseBranch
      | none => exact simulates_pure (Renaming.sends_self rfl)
  | block body =>
    refine (simulates_allocate scope).bind fun later extended leftInner rightInner inner => ?_
    refine simulates_last _ (Renaming.sends_self rfl) fun final more id => ?_
    exact evaluators final _ _ (.node (inner.extend more))
  | declare name tag valueId =>
    refine (child valueId).bind fun later extended left right value => ?_
    rw [value.eq, Value.checkTag_rename, ← value.eq]
    have checked : Simulates lossy (fun _ left right => left = right) later
        (ofResult (checkTag (setting.text name) tag left))
        (ofResult (checkTag (setting.text name) tag left)) :=
      simulates_ofResult (.of_self fun _ _ => rfl)
    refine checked.bind fun final more _ _ _ => ?_
    refine (simulates_declare setting (scope.extend (more.trans extended)) name
      (value.extend more)).bind fun last _ _ _ _ => ?_
    exact simulates_pure (Renaming.sends_self rfl)
  | assign name valueId =>
    refine (child valueId).bind fun later extended left right value => ?_
    refine (simulates_update (fun _ => rfl) fun _ _ mirrors =>
      mirrors.assign_agrees name (scope.extend extended) value).bind fun final _ _ _ _ => ?_
    exact simulates_pure (Renaming.sends_self rfl)
  | function name params body =>
    have value : pairs.Sends
        (.function ⟨some name, code.paramList params, body, leftScope, program⟩)
        (.function ⟨some name, code.paramList params, body, rightScope, program⟩) :=
      Renaming.sends_function_iff.2 ⟨scope.known, by rw [scope.eq]; rfl⟩
    refine (simulates_declare setting scope name value).bind fun later extended _ _ _ => ?_
    exact simulates_pure (value.extend extended)
  | call calleeName args =>
    refine (simulates_readName setting scope calleeName).bind
      fun later extended left right callee => ?_
    have sameCallable : right.isCallable = left.isCallable := by
      rw [callee.eq, Value.isCallable_rename]
    have sameKind : right.kindName = left.kindName := by rw [callee.eq, Value.kindName_rename]
    rw [sameCallable, sameKind]
    cases left.isCallable with
    | true =>
      refine (simulates_arguments evaluators program code scope extended args).bind
        fun final more lefts rights values => ?_
      exact simulates_callAny setting evaluators hosts (callee.extend more) values
    | false => exact simulates_fail _
  | classDecl id =>
    refine (simulates_existing (code.classDecl? id)).bind fun later extended decl _ same => ?_
    subst same
    have value : later.Sends (.classObject (.ofDecl decl leftScope program))
        (.classObject (.ofDecl decl rightScope program)) := by
      have extendedScope := scope.extend extended
      exact Renaming.sends_classObject_iff.2
        ⟨extendedScope.known, by rw [extendedScope.eq]; rfl⟩
    refine (simulates_declare setting (scope.extend extended) decl.name value).bind
      fun final more _ _ _ => ?_
    exact simulates_pure (value.extend more)
  | construct ownerName args =>
    refine (simulates_readClass setting scope ownerName).bind
      fun later extended left right owner => ?_
    refine (simulates_checkFieldCount setting owner args.length).bind
      fun checked more _ _ _ => ?_
    refine (simulates_arguments evaluators program code scope (more.trans extended) args).bind
      fun final further lefts rights values => ?_
    exact simulates_makeObject setting evaluators (owner.extend (further.trans more)) values
  | methodCall receiverId methodName args =>
    refine (child receiverId).bind fun later extended left right value => ?_
    refine (simulates_expectObject value).bind
      fun found more leftReceiver rightReceiver receiver => ?_
    refine (simulates_findMethod setting receiver methodName).bind
      fun chosen further leftMethod rightMethod method => ?_
    have reached := (further.trans more).trans extended
    refine (simulates_arguments evaluators program code scope reached args).bind
      fun final last lefts rights values => ?_
    exact simulates_callClosure setting evaluators (method.extend last) values
  | field receiverId name =>
    refine (child receiverId).bind fun later extended left right value => ?_
    refine (simulates_expectObject value).bind
      fun found more leftReceiver rightReceiver receiver => ?_
    exact simulates_readField setting receiver name
  | array elements =>
    refine (simulates_arguments evaluators program code scope (.refl pairs) elements).bind
      fun later extended lefts rights values => simulates_pure ?_
    exact Renaming.sends_array values
  | index receiverId positionId =>
    refine (child receiverId).bind fun later extended left _ receiver => ?_
    refine (simulates_child evaluators program code scope extended positionId).bind
      fun final more right _ position => ?_
    exact simulates_ofResult (Renaming.element_agrees (receiver.extend more) position)
  | lambda param body =>
    refine simulates_pure (Renaming.sends_function_iff.2 ⟨scope.known, ?_⟩)
    rw [scope.eq]
    rfl
  | reference name => exact simulates_referTo setting scope name
  | assignThrough name valueId =>
    refine (simulates_heldReference setting scope name).bind
      fun later extended leftFirst rightFirst first => ?_
    refine (simulates_child evaluators program code scope extended valueId).bind
      fun final more left right value => ?_
    refine (simulates_writeThrough setting (first.extend more) value).bind fun last _ _ _ _ => ?_
    exact simulates_pure (Renaming.sends_self rfl)

end Step

/-- One step on corresponding tasks simulates itself, if inner tasks do. -/
theorem simulates_step (hosts : Host.Simulates lossy setting leftHost rightHost)
    (evaluators : Evaluator.Simulates lossy leftEvaluate rightEvaluate) :
    Evaluator.Simulates lossy (step setting leftHost leftEvaluate)
      (step setting rightHost rightEvaluate) := by
  intro pairs leftTask rightTask tasks
  cases tasks with
  | @node program id left right scope =>
    refine (simulates_existing (setting.program? program)).bind
      fun later extended code _ same => ?_
    subst same
    refine (simulates_existing (code.node? id)).bind fun final more node _ same => ?_
    subst same
    refine Simulates.located ?_ node.span
    exact simulates_stepKind evaluators program code (scope.extend (more.trans extended)) hosts
      node.kind
  | call callee args => exact simulates_callAny setting evaluators hosts callee args

/-- Runs of corresponding tasks simulate each other at every depth. -/
theorem simulates_run (hosts : Host.Simulates lossy setting leftHost rightHost) (depth : Nat) :
    Evaluator.Simulates lossy (run setting leftHost depth) (run setting rightHost depth) := by
  induction depth with
  | zero => exact fun _ _ _ _ => simulates_throw .exhausted
  | succ depth ih => exact simulates_step hosts ih

end ScopeMachine.Eval
