import ScopeMachine.Evaluation.Step
import ScopeMachine.Proofs.Layout.Evaluation

/-!
# Runs over two layouts

Calls of values that are alike, constructions of objects and the steps on corresponding nodes keep
step, node kind by node kind, if the evaluators of inner tasks do. By induction on the depth whole runs
of corresponding nodes keep step, whatever the hosts are: no value that is alike to another one leads
to an entry of the host.
-/

namespace ScopeMachine.Eval

variable {left right : Setting}

/-- A check of the number of arguments keeps step with itself. -/
theorem keepStep_checkArity (name : String) (expected got : Nat) :
    KeepStep left right Eq (checkArity name expected got) (checkArity name expected got) := by
  unfold checkArity
  split
  · exact keepStep_pure rfl
  · exact keepStep_fail _

/-- Functions that are alike have the same name in failures. -/
theorem closureName_eq {a b : Closure} (functions : a.Alike left right b) :
    closureName left a = closureName right b := by
  unfold closureName
  exact optionRel_elim functions.name rfl fun _ _ same => same.text_eq

/-- A checked integer keeps step with itself. -/
theorem keepStep_checkedInt (operation : String) (exact : Int) :
    KeepStep left right (Value.Alike left right) (ofResult (checkedInt operation exact))
      (ofResult (checkedInt operation exact)) :=
  keepStep_ofResult (BinaryOp.outcome_checkedInt operation exact).bothEnd

/-- Counting keeps step on arguments that are alike. -/
theorem keepStep_callLen {lefts rights : List Value}
    (args : List.Forall₂ (Value.Alike left right) lefts rights) :
    KeepStep left right (Value.Alike left right) (callLen lefts) (callLen rights) := by
  cases args with
  | nil => exact keepStep_fail _
  | cons value rest =>
    cases rest with
    | nil =>
      cases value with
      | array length _ =>
        rw [callLen, callLen, length]
        exact keepStep_checkedInt _ _
      | string text => exact keepStep_checkedInt _ _
      | _ => exact keepStep_fail _
    | cons _ rest =>
      rw [callLen_cons_cons, callLen_cons_cons, rest.length_eq]
      exact keepStep_fail _

/-- Printing keeps step on arguments that are alike. -/
theorem keepStep_callPrint (name : String) (print : Sink → String → Sink)
    {lefts rights : List Value} (args : List.Forall₂ (Value.Alike left right) lefts rights) :
    KeepStep left right (Value.Alike left right) (callPrint left name print lefts)
      (callPrint right name print rights) := by
  cases args with
  | nil => exact keepStep_fail _
  | cons value rest =>
    cases rest with
    | nil =>
      simp only [callPrint, value.text_eq]
      exact (keepStep_write _).bind fun _ _ _ => keepStep_pure .void
    | cons _ rest =>
      simp only [callPrint, List.length_cons, rest.length_eq]
      exact keepStep_fail _

/-- Only objects are expected, and objects that are alike keep step. -/
theorem keepStep_expectObject {a b : Value} (values : Value.Alike left right a b) :
    KeepStep left right (Object.Alike left right) (expectObject a) (expectObject b) := by
  cases values with
  | object both => exact keepStep_pure both
  | _ => exact keepStep_fail _

/-- Checks of the number of fields of classes that are alike keep step. -/
theorem keepStep_checkFieldCount {a b : ClassObject} (owners : a.Alike left right b) (got : Nat) :
    KeepStep left right Eq (checkFieldCount left a got) (checkFieldCount right b got) := by
  obtain ⟨_, _, _, _, same⟩ := owners
  have name : left.text a.name = right.text b.name := Setting.SameName.text_eq same.name
  unfold checkFieldCount
  rw [same.fields.length_eq, name]
  split
  · exact keepStep_fail _
  · exact keepStep_pure rfl

section Evaluators

variable (comparable : left.Comparable right)
include comparable

/-- Reading corresponding fields of objects that are alike keeps step. -/
theorem keepStep_readField {a b : Object} (receivers : a.Alike left right b) {x y : Symbol}
    (same : left.SameName right x y) :
    KeepStep left right (Value.Alike left right) (readField left a x) (readField right b y) := by
  obtain ⟨_, _, _, _, owner⟩ := receivers.owner
  have ownerName : left.text a.owner.name = right.text b.owner.name :=
    Setting.SameName.text_eq owner.name
  have found : KeepStep left right (Option.Rel (Value.Alike left right))
      (query (left.scopeStop x) fun store => store.getOwn a.storage x)
      (query (right.scopeStop y) fun store => store.getOwn b.storage y) := by
    rw [receivers.storage]
    exact keepStep_query same.scopeStop_eq fun _ _ stores => stores.getOwn comparable same b.storage
  refine found.bind fun leftFound rightFound both => ?_
  rw [same.text_eq, ownerName]
  exact optionRel_elim both (keepStep_fail _) fun _ _ values => keepStep_resolve comparable values

/-- Finding corresponding methods of objects that are alike keeps step. -/
theorem keepStep_findMethod {a b : Object} (receivers : a.Alike left right b) {x y : Symbol}
    (same : left.SameName right x y) :
    KeepStep left right (Closure.Alike left right) (findMethod left a x) (findMethod right b y) := by
  obtain ⟨_, _, _, _, owner⟩ := receivers.owner
  have ownerName : left.text a.owner.name = right.text b.owner.name :=
    Setting.SameName.text_eq owner.name
  unfold findMethod
  rw [same.text_eq, ownerName]
  exact optionRel_elim (receivers.methods.get? comparable.biUnique same) (keepStep_fail _)
    fun _ _ methods => keepStep_pure methods

variable {first second : Evaluator} (evaluators : Evaluator.KeepStep left right first second)
include evaluators

/-- Calls of functions that are alike with arguments that are alike keep step. -/
theorem keepStep_callClosure {a b : Closure} (functions : a.Alike left right b)
    {lefts rights : List Value} (args : List.Forall₂ (Value.Alike left right) lefts rights) :
    KeepStep left right (Value.Alike left right) (callClosure left first a lefts)
      (callClosure right second b rights) := by
  unfold callClosure
  rw [closureName_eq functions, Closure.arity, Closure.arity, functions.params.length_eq,
    args.length_eq, functions.scope]
  refine (keepStep_checkArity _ _ _).bind fun _ _ _ => ?_
  refine keepStep_scopes.bind fun leftStore rightStore stores => ?_
  rw [stores.isLive_eq]
  split
  · refine (keepStep_allocate _).bind fun frame _ same => ?_
    subst same
    refine (keepStep_update rfl fun _ _ stores =>
      stores.setAll comparable frame (forall₂_zip functions.params args)).bind fun _ _ _ => ?_
    exact evaluators _ _ (.node functions.body frame)
  · exact keepStep_fail _

omit comparable in
/-- Calling values that are alike on the elements of arrays that are alike keeps step. -/
theorem keepStep_callMap {lefts rights : List Value}
    (args : List.Forall₂ (Value.Alike left right) lefts rights) :
    KeepStep left right (Value.Alike left right)
      (callMap (fun callee args => first (.call callee args)) lefts)
      (callMap (fun callee args => second (.call callee args)) rights) := by
  match args with
  | .nil => exact keepStep_fail _
  | .cons _ .nil => exact keepStep_fail _
  | .cons callee (.cons collection .nil) =>
    unfold callMap
    dsimp only
    rw [callee.isCallable_eq, callee.kindName_eq]
    split
    · cases collection with
      | array length items =>
        have all := Value.alike_array_iff.1 (.array length items)
        have results := keepStep_each all fun _ _ item =>
          evaluators _ _ (.call callee (.cons item .nil))
        exact results.bind fun _ _ values => keepStep_pure (Value.alike_array_iff.2 values)
      | _ => exact keepStep_fail _
    · exact keepStep_fail _
  | .cons _ (.cons _ (.cons _ rest)) =>
    simp only [callMap, List.length_cons, rest.length_eq]
    exact keepStep_fail _

/-- Calls of values that are alike with arguments that are alike keep step, whatever the hosts. -/
theorem keepStep_callAny (leftHost rightHost : Host) {a b : Value}
    (callees : Value.Alike left right a b) {lefts rights : List Value}
    (args : List.Forall₂ (Value.Alike left right) lefts rights) :
    KeepStep left right (Value.Alike left right) (callAny left leftHost first a lefts)
      (callAny right rightHost second b rights) := by
  cases callees with
  | function functions => exact keepStep_callClosure comparable evaluators functions args
  | native value own =>
    obtain ⟨name, role⟩ := value
    cases role with
    | map => exact keepStep_callMap evaluators args
    | len => exact keepStep_callLen args
    | print => exact keepStep_callPrint "print" Sink.print args
    | println => exact keepStep_callPrint "println" Sink.println args
    | host entry => exact absurd rfl (own entry)
  | _ => exact keepStep_fail _

section Objects

variable {a b : ClassObject} {leftCode rightCode : Program}

omit comparable in
/-- Evaluating corresponding omitted fields keeps step. -/
theorem keepStep_omittedField (storage : Handle) {x y : FieldDecl}
    (fields : (left.sources right a.program b.program leftCode rightCode).Fields x y) :
    KeepStep left right (Value.Alike left right) (omittedField first a storage x)
      (omittedField second b storage y) := by
  unfold omittedField
  rw [fields.tag]
  refine optionRel_elim fields.default ?_ fun leftDefault rightDefault source => ?_
  · exact keepStep_pure (Value.alike_blankFor _)
  · refine (keepStep_allocate _).bind fun scope _ same => ?_
    subst same
    exact evaluators _ _ (.node source scope)

/-- Filling corresponding fields from arguments that are alike keeps step. -/
theorem keepStep_fillFields (storage : Handle) {leftFields rightFields : List FieldDecl}
    (fields : List.Forall₂ (left.sources right a.program b.program leftCode rightCode).Fields
      leftFields rightFields)
    {lefts rights : List Value} (values : List.Forall₂ (Value.Alike left right) lefts rights) :
    KeepStep left right Eq (fillFields left first a storage leftFields lefts)
      (fillFields right second b storage rightFields rights) := by
  induction fields generalizing lefts rights with
  | nil =>
    rw [fillFields, fillFields]
    exact keepStep_pure rfl
  | @cons x y _ _ field _ ih =>
    have same : left.SameName right x.name y.name := field.name
    cases values with
    | nil =>
      rw [fillFields, fillFields]
      refine (keepStep_omittedField evaluators storage field).bind fun _ _ value => ?_
      refine (keepStep_declare comparable same storage value).bind fun _ _ _ => ?_
      exact ih .nil
    | cons value values =>
      rw [fillFields, fillFields, field.tag, same.text_eq, value.checkTag_eq]
      refine (keepStep_ofResult_self _).bind fun _ _ _ => ?_
      refine (keepStep_declare comparable same storage value).bind fun _ _ _ => ?_
      exact ih values

/-- Making objects of classes that are alike from arguments that are alike keeps step. -/
theorem keepStep_makeObject (owners : a.Alike left right b) {lefts rights : List Value}
    (values : List.Forall₂ (Value.Alike left right) lefts rights) :
    KeepStep left right (Value.Alike left right) (makeObject left first a lefts)
      (makeObject right second b rights) := by
  have alike := owners
  obtain ⟨leftCode, rightCode, leftLoaded, rightLoaded, same⟩ := owners
  unfold makeObject
  rw [same.scope]
  refine (keepStep_allocate _).bind fun storage _ equal => ?_
  subst equal
  refine (keepStep_fillFields comparable evaluators storage same.fields values).bind
    fun _ _ _ => ?_
  refine (keepStep_existing leftLoaded rightLoaded).bind fun _ _ codes => keepStep_pure ?_
  obtain ⟨rfl, rfl⟩ := codes
  refine .object ⟨alike, rfl, same.methods.mapValues fun x y methods => ?_⟩
  exact ⟨.some methods.name, methods.params, methods.body, rfl⟩

end Objects

section Step

variable {leftId rightId : ProgramId} {leftCode rightCode : Program} (scope : Handle)

omit comparable in
/-- Evaluating the nodes of corresponding lists keeps step. -/
theorem keepStep_arguments {x y : NodeRange}
    (lists : (left.sources right leftId rightId leftCode rightCode).Lists x y) :
    KeepStep left right (List.Forall₂ (Value.Alike left right))
      (arguments first ⟨leftId, leftCode, scope⟩ x)
      (arguments second ⟨rightId, rightCode, scope⟩ y) :=
  keepStep_each lists.nodes fun _ _ source => evaluators _ _ (.node source scope)

/-- One step on nodes of corresponding kinds keeps step. -/
theorem keepStep_stepKind (leftHost rightHost : Host) {x y : NodeKind}
    (leftLoaded : left.program? leftId = some leftCode)
    (rightLoaded : right.program? rightId = some rightCode)
    (kinds : (left.sources right leftId rightId leftCode rightCode).Kinds x y) :
    KeepStep left right (Value.Alike left right)
      (stepKind left leftHost first ⟨leftId, leftCode, scope⟩ x)
      (stepKind right rightHost second ⟨rightId, rightCode, scope⟩ y) := by
  have child : ∀ a b, left.Corresponds right ⟨leftId, a⟩ ⟨rightId, b⟩ →
      KeepStep left right (Value.Alike left right)
        (first (Frame.task ⟨leftId, leftCode, scope⟩ a))
        (second (Frame.task ⟨rightId, rightCode, scope⟩ b)) :=
    fun _ _ source => evaluators _ _ (.node source scope)
  cases kinds with
  | int value => exact keepStep_pure (.int value)
  | float bits => exact keepStep_pure (.float _)
  | bool value => exact keepStep_pure (.bool value)
  | string text =>
    refine keepStep_pure ?_
    rw [Setting.SameName.text_eq text]
    exact .string _
  | read name => exact keepStep_readName comparable name scope
  | binary op leftChild rightChild =>
    refine (child _ _ leftChild).bind fun _ _ leftValue => ?_
    refine (child _ _ rightChild).bind fun _ _ rightValue => ?_
    exact keepStep_ofResult (op.bothEnd_apply leftValue rightValue)
  | branch condition thenBranch elseBranch =>
    refine (child _ _ condition).bind fun _ _ value => ?_
    rw [value.holds_eq]
    refine (keepStep_ofResult_self _).bind fun chosen _ same => ?_
    subst same
    cases chosen with
    | true => exact child _ _ thenBranch
    | false => exact optionRel_elim elseBranch (keepStep_pure .void) child
  | block body =>
    refine (keepStep_allocate _).bind fun inner _ same => ?_
    subst same
    exact keepStep_last body.nodes (fun _ _ source => evaluators _ _ (.node source inner)) .void
  | declare tag name valueNode =>
    refine (child _ _ valueNode).bind fun _ _ value => ?_
    rw [Setting.SameName.text_eq name, value.checkTag_eq]
    refine (keepStep_ofResult_self _).bind fun _ _ _ => ?_
    exact (keepStep_declare comparable name scope value).bind fun _ _ _ => keepStep_pure .void
  | assign name valueNode =>
    refine (child _ _ valueNode).bind fun _ _ value => ?_
    exact (keepStep_assign comparable name scope value).bind fun _ _ _ => keepStep_pure .void
  | @function leftName rightName leftParams rightParams leftBody rightBody name params body =>
    have value : Value.Alike left right
        (.function ⟨some leftName, leftCode.paramList leftParams, leftBody, scope, leftId⟩)
        (.function ⟨some rightName, rightCode.paramList rightParams, rightBody, scope, rightId⟩) :=
      .function ⟨.some name, params, body, rfl⟩
    exact (keepStep_declare comparable name scope value).bind fun _ _ _ => keepStep_pure value
  | call callee args =>
    refine (keepStep_readName comparable callee scope).bind fun _ _ value => ?_
    rw [value.isCallable_eq, value.kindName_eq]
    split
    · refine (keepStep_arguments evaluators scope args).bind fun _ _ values => ?_
      exact keepStep_callAny comparable evaluators leftHost rightHost value values
    · exact keepStep_fail _
  | classDecl leftFound rightFound decl =>
    refine (keepStep_existing leftFound rightFound).bind fun leftDecl rightDecl found => ?_
    obtain ⟨rfl, rfl⟩ := found
    have value : Value.Alike left right (.classObject (.ofDecl leftDecl scope leftId))
        (.classObject (.ofDecl rightDecl scope rightId)) :=
      .classObject (ClassObject.alike_ofDecl comparable leftLoaded rightLoaded decl scope)
    exact (keepStep_declare comparable decl.name scope value).bind fun _ _ _ => keepStep_pure value
  | construct ownerName args =>
    refine (keepStep_readClass comparable ownerName scope).bind fun _ _ owner => ?_
    rw [args.length]
    refine (keepStep_checkFieldCount owner _).bind fun _ _ _ => ?_
    refine (keepStep_arguments evaluators scope args).bind fun _ _ values => ?_
    exact keepStep_makeObject comparable evaluators owner values
  | methodCall receiverNode methodName args =>
    refine (child _ _ receiverNode).bind fun _ _ value => ?_
    refine (keepStep_expectObject value).bind fun _ _ receiver => ?_
    refine (keepStep_findMethod comparable receiver methodName).bind fun _ _ method => ?_
    refine (keepStep_arguments evaluators scope args).bind fun _ _ values => ?_
    exact keepStep_callClosure comparable evaluators method values
  | field receiverNode name =>
    refine (child _ _ receiverNode).bind fun _ _ value => ?_
    refine (keepStep_expectObject value).bind fun _ _ receiver => ?_
    exact keepStep_readField comparable receiver name
  | array elements =>
    refine (keepStep_arguments evaluators scope elements).bind fun _ _ values => ?_
    exact keepStep_pure (Value.alike_array_iff.2 values)
  | index receiverNode positionNode =>
    refine (child _ _ receiverNode).bind fun _ _ receiver => ?_
    refine (child _ _ positionNode).bind fun _ _ position => ?_
    exact keepStep_ofResult (receiver.element position)
  | lambda param body =>
    exact keepStep_pure (.function ⟨.none, .cons param .nil, body, rfl⟩)
  | reference name => exact keepStep_referTo comparable name scope
  | assignThrough name valueNode =>
    refine (keepStep_heldReference comparable name scope).bind fun _ _ target => ?_
    refine (child _ _ valueNode).bind fun _ _ value => ?_
    exact (keepStep_writeThrough comparable target value).bind fun _ _ _ => keepStep_pure .void

end Step

/-- One step on tasks that are alike keeps step, if inner tasks do. -/
theorem keepStep_step (leftHost rightHost : Host) :
    Evaluator.KeepStep left right (step left leftHost first) (step right rightHost second) := by
  intro leftTask rightTask tasks
  cases tasks with
  | node source scope =>
    obtain ⟨leftCode, rightCode, leftNode, rightNode, held⟩ :=
      left.bonded_corresponds right _ _ source
    refine (keepStep_existing held.leftLoaded held.rightLoaded).bind fun _ _ codes => ?_
    obtain ⟨rfl, rfl⟩ := codes
    refine (keepStep_existing held.leftFound held.rightFound).bind fun _ _ nodes => ?_
    obtain ⟨rfl, rfl⟩ := nodes
    rw [held.span]
    exact (keepStep_stepKind comparable evaluators scope leftHost rightHost held.leftLoaded
      held.rightLoaded held.kind).located _
  | call callee args => exact keepStep_callAny comparable evaluators leftHost rightHost callee args

end Evaluators

/-- Runs of tasks that are alike keep step at every depth. -/
theorem keepStep_run (comparable : left.Comparable right) (leftHost rightHost : Host) (depth : Nat) :
    Evaluator.KeepStep left right (run left leftHost depth) (run right rightHost depth) := by
  induction depth with
  | zero => exact fun _ _ _ => keepStep_throw .exhausted
  | succ depth ih => exact keepStep_step comparable ih leftHost rightHost

end ScopeMachine.Eval
