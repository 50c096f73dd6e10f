import ScopeMachine.Proofs.Machine.Routine
import ScopeMachine.Proofs.Syntax.Closed

/-!
# Evaluation with a current program

Here the program whose code is being evaluated is part of the state. A node is given by its position
alone and is looked up in the current program, and so are child lists, parameter lists and class
declarations. A call of a function enters the program of the function and goes back afterwards; so
does the default of a field. Every lookup is checked: what does not belong to the program it is
looked up in stops the evaluation as missing, also a range that only overlaps its table.

Apart from that every operation is the one on scopes and values alone.
-/

namespace ScopeMachine

/-- State together with the program that is current. -/
structure Situation where
  /-- Scopes and printed text. -/
  state : State
  /-- Program in which positions are looked up. -/
  current : ProgramId

/-- Evaluation with a current program. -/
abbrev Walk := EStateM Stop Situation

/-- Work for a walker. -/
inductive Stride where
  /-- Evaluate a node of the current program in a scope. -/
  | node (id : NodeId) (scope : Handle)
  /-- Call a value with arguments. -/
  | call (callee : Value) (args : List Value)

/-- Evaluation of strides. -/
abbrev Walker := Stride → Walk Value

namespace Walk

variable {α β : Type}

/-- Does what needs no program. -/
def own (evaluation : Eval α) : Walk α := fun situation =>
  match evaluation situation.state with
  | .ok value state => .ok value { situation with state }
  | .error stop state => .error stop { situation with state }

/-- Number of the current program. -/
def current : Walk ProgramId := fun situation => .ok situation.current situation

/-- Enters a program and goes back to the current one afterwards, however it ends. -/
def inside (program : ProgramId) (walk : Walk α) : Walk α := fun situation =>
  match walk { situation with current := program } with
  | .ok value ended => .ok value { ended with current := situation.current }
  | .error stop ended => .error stop { ended with current := situation.current }

/-- Program under a number. -/
def codeOf (setting : Setting) (program : ProgramId) : Walk Program :=
  own (Eval.existing (setting.program? program))

/-- The current program. -/
def code (setting : Setting) : Walk Program := do
  let program ← current
  codeOf setting program

/-- Nodes of a child list of the current program. -/
def nodes (setting : Setting) (range : NodeRange) : Walk (List NodeId) := do
  let code ← code setting
  if code.HasList range then pure (code.nodeList range) else throw .missing

/-- Parameters of a parameter list of a program. -/
def paramsOf (setting : Setting) (program : ProgramId) (range : ParamRange) :
    Walk (List Symbol) := do
  let code ← codeOf setting program
  if code.HasParams range then pure (code.paramList range) else throw .missing

/-- Gives a failure without a span the span of the node that it leaves. -/
def located (span : Span) (walk : Walk α) : Walk α := fun situation =>
  match walk situation with
  | .error (.failure failure) ended => .error (.failure (failure.locateOnce span)) ended
  | result => result

/-- Results for each member of a list, from left to right. -/
def each (walk : β → Walk α) : List β → Walk (List α)
  | [] => pure []
  | item :: rest => do
    let result ← walk item
    let results ← each walk rest
    pure (result :: results)

/-- Last result for the members of a list, or a given one for an empty list. -/
def last (walk : β → Walk α) (result : α) : List β → Walk α
  | [] => pure result
  | item :: rest => do
    let next ← walk item
    last walk next rest

/-- Evaluates the nodes of a child list of the current program. -/
def arguments (setting : Setting) (walker : Walker) (scope : Handle) (range : NodeRange) :
    Walk (List Value) := do
  let ids ← nodes setting range
  each (fun id => walker (.node id scope)) ids

/-- Calls a function: its body is evaluated in its own program. -/
def callClosure (setting : Setting) (walker : Walker) (function : Closure) (args : List Value) :
    Walk Value := do
  own (Eval.checkArity (Eval.closureName setting function) function.arity args.length)
  let store ← own Eval.scopes
  if store.isLive function.scope then
    let frame ← own (Eval.allocate (some function.scope))
    own (Eval.update (fun _ => .failure .reclaimedScope) fun store =>
      store.setAll frame (function.params.zip args))
    inside function.program (walker (.node function.body frame))
  else
    own (Eval.fail .reclaimedScope)

/-- Calls a function on every element of an array. -/
def callMap (walker : Walker) : List Value → Walk Value
  | [callee, collection] =>
    if callee.isCallable then
      match collection with
      | .array items => do
        let results ← each (fun item => walker (.call callee [item])) items
        pure (.array results)
      | other => own (Eval.fail (.wrongKind "array" other.kindName))
    else
      own (Eval.fail (.notAFunction callee.kindName))
  | args => own (Eval.fail (.wrongArity "map" 2 args.length))

/-- Calls a native function. -/
def callNative (setting : Setting) (routines : Routines) (walker : Walker) (role : NativeRole)
    (args : List Value) : Walk Value :=
  match role with
  | .map => callMap walker args
  | .len => own (Eval.callLen args)
  | .print => own (Eval.callPrint setting "print" Sink.print args)
  | .println => own (Eval.callPrint setting "println" Sink.println args)
  | .host entry =>
    (routines entry setting args).perform setting own fun callee args => walker (.call callee args)

/-- Calls any value. -/
def callAny (setting : Setting) (routines : Routines) (walker : Walker) (callee : Value)
    (args : List Value) : Walk Value :=
  match callee with
  | .function function => callClosure setting walker function args
  | .native native => callNative setting routines walker native.role args
  | other => own (Eval.fail (.notAFunction other.kindName))

/-- Value of an omitted field: its default is evaluated in the program of the class. -/
def omittedField (walker : Walker) (owner : ClassObject) (storage : Handle) (field : FieldDecl) :
    Walk Value :=
  match field.default with
  | some default => do
    let scope ← own (Eval.allocate (some storage))
    inside owner.program (walker (.node default scope))
  | none => pure (.blankFor field.tag)

/-- Fills fields in order, from the arguments as long as there are any. -/
def fillFields (setting : Setting) (walker : Walker) (owner : ClassObject) (storage : Handle) :
    List FieldDecl → List Value → Walk Unit
  | [], _ => pure ()
  | field :: fields, value :: values => do
    own (Eval.ofResult (checkTag (setting.text field.name) field.tag value))
    own (Eval.declare setting storage field.name value)
    fillFields setting walker owner storage fields values
  | field :: fields, [] => do
    let value ← omittedField walker owner storage field
    own (Eval.declare setting storage field.name value)
    fillFields setting walker owner storage fields []

/-- Methods of a class bound to a storage, with their parameters looked up in the program of the
class. -/
def bindMethods (setting : Setting) (owner : ClassObject) (storage : Handle) :
    Walk (SymbolMap Closure) := do
  let entries ← each (fun entry : Symbol × MethodDecl => do
    let params ← paramsOf setting owner.program entry.2.params
    pure (entry.1, Closure.mk (some entry.2.name) params entry.2.body storage owner.program))
    owner.methods.entries
  pure ⟨entries⟩

/-- Makes an object of a class from evaluated arguments. -/
def makeObject (setting : Setting) (walker : Walker) (owner : ClassObject) (values : List Value) :
    Walk Value := do
  let storage ← own (Eval.allocate (some owner.scope))
  fillFields setting walker owner storage owner.fields values
  let methods ← bindMethods setting owner storage
  pure (.object ⟨owner, storage, methods⟩)

/-- Evaluates one node of the current program, given how to walk further. -/
def stepKind (setting : Setting) (routines : Routines) (walker : Walker) (scope : Handle) :
    NodeKind → Walk Value
  | .int value => pure (.int value)
  | .float bits => pure (.float (Float.ofBits bits))
  | .bool value => pure (.bool value)
  | .string text => pure (.string (setting.text text))
  | .read name => own (Eval.readName setting scope name)
  | .binary op left right => do
    let left ← walker (.node left scope)
    let right ← walker (.node right scope)
    own (Eval.ofResult (op.apply left right))
  | .branch condition thenBranch elseBranch => do
    let value ← walker (.node condition scope)
    if ← own (Eval.ofResult value.holds) then
      walker (.node thenBranch scope)
    else
      match elseBranch with
      | some elseBranch => walker (.node elseBranch scope)
      | none => pure .void
  | .block body => do
    let inner ← own (Eval.allocate (some scope))
    let ids ← nodes setting body
    last (fun id => walker (.node id inner)) .void ids
  | .declare name tag value => do
    let value ← walker (.node value scope)
    own (Eval.ofResult (checkTag (setting.text name) tag value))
    own (Eval.declare setting scope name value)
    pure .void
  | .assign name value => do
    let value ← walker (.node value scope)
    own (Eval.update (setting.assignStop name) fun store => store.assign scope name value)
    pure .void
  | .function name params body => do
    let program ← current
    let names ← paramsOf setting program params
    let value : Value := .function ⟨some name, names, body, scope, program⟩
    own (Eval.declare setting scope name value)
    pure value
  | .call callee args => do
    let callee ← own (Eval.readName setting scope callee)
    if callee.isCallable then
      let values ← arguments setting walker scope args
      callAny setting routines walker callee values
    else
      own (Eval.fail (.notAFunction callee.kindName))
  | .classDecl id => do
    let program ← current
    let code ← code setting
    let decl ← own (Eval.existing (code.classDecl? id))
    let value : Value := .classObject (.ofDecl decl scope program)
    own (Eval.declare setting scope decl.name value)
    pure value
  | .construct owner args => do
    let owner ← own (Eval.readClass setting scope owner)
    own (Eval.checkFieldCount setting owner args.length)
    let values ← arguments setting walker scope args
    makeObject setting walker owner values
  | .methodCall receiver method args => do
    let value ← walker (.node receiver scope)
    let receiver ← own (Eval.expectObject value)
    let method ← own (Eval.findMethod setting receiver method)
    let values ← arguments setting walker scope args
    callClosure setting walker method values
  | .field receiver name => do
    let value ← walker (.node receiver scope)
    let receiver ← own (Eval.expectObject value)
    own (Eval.readField setting receiver name)
  | .array elements => do
    let values ← arguments setting walker scope elements
    pure (.array values)
  | .index receiver position => do
    let receiver ← walker (.node receiver scope)
    let position ← walker (.node position scope)
    own (Eval.ofResult (receiver.element position))
  | .lambda param body => do
    let program ← current
    pure (.function ⟨none, [param], body, scope, program⟩)
  | .reference name => own (Eval.referTo setting scope name)
  | .assignThrough name value => do
    let first ← own (Eval.heldReference setting scope name)
    let value ← walker (.node value scope)
    own (Eval.writeThrough setting first value)
    pure .void

/-- One stride, given how to walk further. -/
def step (setting : Setting) (routines : Routines) (walker : Walker) : Walker
  | .node id scope => do
    let code ← code setting
    let node ← own (Eval.existing (code.node? id))
    located node.span (stepKind setting routines walker scope node.kind)
  | .call callee args => callAny setting routines walker callee args

/-- Walks with a bound on the depth of strides inside strides. -/
def run (setting : Setting) (routines : Routines) : Nat → Walker
  | 0 => fun _ => throw .exhausted
  | depth + 1 => step setting routines (run setting routines depth)

end Walk

end ScopeMachine
