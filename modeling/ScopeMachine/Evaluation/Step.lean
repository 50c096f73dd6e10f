import ScopeMachine.Evaluation.Object

/-!
# Evaluation of nodes

One step of evaluation, in which every evaluation of a child, a body or a default is left to an
evaluator given as a parameter, and the evaluator that ties the knot. The evaluator has a bound on
the depth of tasks inside tasks. Children are evaluated from left to right, and the first stop ends
the step.
-/

namespace ScopeMachine

/-- Where a node is evaluated. -/
structure Frame where
  /-- Number of the program that holds the node. -/
  program : ProgramId
  /-- The program. -/
  code : Program
  /-- Scope in which names are looked up and declared. -/
  scope : Handle

/-- Task to evaluate a node of the same program in the same scope. -/
def Frame.task (frame : Frame) (id : NodeId) : Task := .node frame.program id frame.scope

namespace Eval

/-- Evaluates the nodes of a range to a list of values. -/
def arguments (evaluate : Evaluator) (frame : Frame) (range : NodeRange) : Eval (List Value) :=
  each (fun id => evaluate (frame.task id)) (frame.code.nodeList range)

/-- Evaluates one node, given how to evaluate others. -/
def stepKind (setting : Setting) (host : Host) (evaluate : Evaluator) (frame : Frame) :
    NodeKind → Eval Value
  | .int value => pure (.int value)
  | .float bits => pure (.float (Float.ofBits bits))
  | .bool value => pure (.bool value)
  | .string text => pure (.string (setting.text text))
  | .read name => readName setting frame.scope name
  | .binary op left right => do
    let left ← evaluate (frame.task left)
    let right ← evaluate (frame.task right)
    ofResult (op.apply left right)
  | .branch condition thenBranch elseBranch => do
    let value ← evaluate (frame.task condition)
    if ← ofResult value.holds then
      evaluate (frame.task thenBranch)
    else
      match elseBranch with
      | some elseBranch => evaluate (frame.task elseBranch)
      | none => pure .void
  | .block body => do
    let inner ← allocate (some frame.scope)
    last (fun id => evaluate (.node frame.program id inner)) .void (frame.code.nodeList body)
  | .declare name tag value => do
    let value ← evaluate (frame.task value)
    ofResult (checkTag (setting.text name) tag value)
    declare setting frame.scope name value
    pure .void
  | .assign name value => do
    let value ← evaluate (frame.task value)
    update (setting.assignStop name) fun store => store.assign frame.scope name value
    pure .void
  | .function name params body => do
    let value : Value :=
      .function ⟨some name, frame.code.paramList params, body, frame.scope, frame.program⟩
    declare setting frame.scope name value
    pure value
  | .call callee args => do
    let callee ← readName setting frame.scope callee
    if callee.isCallable then
      let values ← arguments evaluate frame args
      callAny setting host evaluate callee values
    else
      fail (.notAFunction callee.kindName)
  | .classDecl id => do
    let decl ← existing (frame.code.classDecl? id)
    let value : Value := .classObject (.ofDecl decl frame.scope frame.program)
    declare setting frame.scope decl.name value
    pure value
  | .construct owner args => do
    let owner ← readClass setting frame.scope owner
    checkFieldCount setting owner args.length
    let values ← arguments evaluate frame args
    makeObject setting evaluate owner values
  | .methodCall receiver method args => do
    let value ← evaluate (frame.task receiver)
    let receiver ← expectObject value
    let method ← findMethod setting receiver method
    let values ← arguments evaluate frame args
    callClosure setting evaluate method values
  | .field receiver name => do
    let value ← evaluate (frame.task receiver)
    let receiver ← expectObject value
    readField setting receiver name
  | .array elements => do
    let values ← arguments evaluate frame elements
    pure (.array values)
  | .index receiver position => do
    let receiver ← evaluate (frame.task receiver)
    let position ← evaluate (frame.task position)
    ofResult (receiver.element position)
  | .lambda param body =>
    pure (.function ⟨none, [param], body, frame.scope, frame.program⟩)
  | .reference name => referTo setting frame.scope name
  | .assignThrough name value => do
    let first ← heldReference setting frame.scope name
    let value ← evaluate (frame.task value)
    writeThrough setting first value
    pure .void

/-- Performs a task, given how to perform others. -/
def step (setting : Setting) (host : Host) (evaluate : Evaluator) : Evaluator
  | .node program id scope => do
    let code ← existing (setting.program? program)
    let node ← existing (code.node? id)
    located node.span (stepKind setting host evaluate ⟨program, code, scope⟩ node.kind)
  | .call callee args => callAny setting host evaluate callee args

/-- Performs a task with a bound on the depth of tasks inside tasks. -/
def run (setting : Setting) (host : Host) : Nat → Evaluator
  | 0 => fun _ => throw .exhausted
  | depth + 1 => step setting host (run setting host depth)

/-- Without depth no task is performed. -/
@[simp] theorem run_zero (setting : Setting) (host : Host) (task : Task) :
    run setting host 0 task = throw .exhausted := rfl

/-- With depth left a task is performed in one step over the depth below. -/
theorem run_succ (setting : Setting) (host : Host) (depth : Nat) (task : Task) :
    run setting host (depth + 1) task = step setting host (run setting host depth) task := rfl

end Eval

end ScopeMachine
