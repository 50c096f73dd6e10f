import ScopeMachine.Machine
import ScopeMachine.Proofs.Machine.Host

/-!
# Evaluation that tells what it prints

Here there is no sink. An evaluation changes the scopes and tells what it prints: every call of
`print` or `println` that is completed adds its argument to a list, at the end, and nothing else
touches the list. Nothing that has been printed, now or earlier, can be read back.

Apart from that every operation is the one on scopes and values alone.
-/

namespace ScopeMachine

/-- A completed call of `print` or `println`. -/
structure Utterance where
  /-- What has been printed. -/
  value : Value
  /-- Whether a line ends after it. -/
  endsLine : Bool

/-- Text of an utterance. -/
def Utterance.text (symbols : SymbolTable) (utterance : Utterance) : String :=
  if utterance.endsLine then utterance.value.text symbols ++ "\n" else utterance.value.text symbols

/-- Scopes, and what has been told, the earliest first. -/
structure Ledger where
  /-- All scopes. -/
  scopes : Store
  /-- Completed calls of `print` and `println`. -/
  told : List Utterance

/-- Text of all that has been told. -/
def Ledger.text (symbols : SymbolTable) (ledger : Ledger) : String :=
  String.join (ledger.told.map (Utterance.text symbols))

/-- Evaluation that tells. -/
abbrev Telling := EStateM Stop Ledger

/-- Evaluation of tasks that tells. -/
abbrev Teller := Task → Telling Value

namespace Telling

variable {α β : Type}

/-- Outcome with another state. -/
def mapState {σ τ : Type} (convert : σ → τ) : EStateM.Result Stop σ α → EStateM.Result Stop τ α
  | .ok value state => .ok value (convert state)
  | .error stop state => .error stop (convert state)

/-- Does what prints nothing. -/
def own (evaluation : Eval α) : Telling α := fun ledger =>
  mapState (fun state => { ledger with scopes := state.scopes })
    (evaluation ⟨ledger.scopes, .silent⟩)

/-- Tells one thing more. -/
def tell (utterance : Utterance) : Telling Unit := fun ledger =>
  .ok () { ledger with told := ledger.told ++ [utterance] }

/-- Gives a failure without a span the span of the node that it leaves. -/
def located (span : Span) (telling : Telling α) : Telling α := fun ledger =>
  match telling ledger with
  | .error (.failure failure) ended => .error (.failure (failure.locateOnce span)) ended
  | result => result

/-- Results for each member of a list, from left to right. -/
def each (tell : β → Telling α) : List β → Telling (List α)
  | [] => pure []
  | item :: rest => do
    let result ← tell item
    let results ← each tell rest
    pure (result :: results)

/-- Last result for the members of a list, or a given one for an empty list. -/
def last (tell : β → Telling α) (result : α) : List β → Telling α
  | [] => pure result
  | item :: rest => do
    let next ← tell item
    last tell next rest

/-- Evaluates the nodes of a range to a list of values. -/
def arguments (teller : Teller) (frame : Frame) (range : NodeRange) : Telling (List Value) :=
  each (fun id => teller (frame.task id)) (frame.code.nodeList range)

/-- Calls a function written in the language. -/
def callClosure (setting : Setting) (teller : Teller) (function : Closure) (args : List Value) :
    Telling Value := do
  own (Eval.checkArity (Eval.closureName setting function) function.arity args.length)
  let store ← own Eval.scopes
  if store.isLive function.scope then
    let frame ← own (Eval.allocate (some function.scope))
    own (Eval.update (fun _ => .failure .reclaimedScope) fun store =>
      store.setAll frame (function.params.zip args))
    teller (.node function.program function.body frame)
  else
    own (Eval.fail .reclaimedScope)

/-- Calls a function on every element of an array. -/
def callMap (teller : Teller) : List Value → Telling Value
  | [callee, collection] =>
    if callee.isCallable then
      match collection with
      | .array items => do
        let results ← each (fun item => teller (.call callee [item])) items
        pure (.array results)
      | other => own (Eval.fail (.wrongKind "array" other.kindName))
    else
      own (Eval.fail (.notAFunction callee.kindName))
  | args => own (Eval.fail (.wrongArity "map" 2 args.length))

/-- Tells one value; with another number of arguments nothing is told. -/
def callPrint (name : String) (endsLine : Bool) : List Value → Telling Value
  | [value] => do
    tell ⟨value, endsLine⟩
    pure .void
  | args => own (Eval.fail (.wrongArity name 1 args.length))

/-- Calls a native function. -/
def callNative (reply : Reply) (teller : Teller) (role : NativeRole) (args : List Value) :
    Telling Value :=
  match role with
  | .map => callMap teller args
  | .len => own (Eval.callLen args)
  | .print => callPrint "print" false args
  | .println => callPrint "println" true args
  | .host entry => pure (reply.answer entry args)

/-- Calls any value. -/
def callAny (setting : Setting) (reply : Reply) (teller : Teller) (callee : Value)
    (args : List Value) : Telling Value :=
  match callee with
  | .function function => callClosure setting teller function args
  | .native native => callNative reply teller native.role args
  | other => own (Eval.fail (.notAFunction other.kindName))

/-- Value of an omitted field. -/
def omittedField (teller : Teller) (owner : ClassObject) (storage : Handle) (field : FieldDecl) :
    Telling Value :=
  match field.default with
  | some default => do
    let scope ← own (Eval.allocate (some storage))
    teller (.node owner.program default scope)
  | none => pure (.blankFor field.tag)

/-- Fills fields in order, from the arguments as long as there are any. -/
def fillFields (setting : Setting) (teller : Teller) (owner : ClassObject) (storage : Handle) :
    List FieldDecl → List Value → Telling Unit
  | [], _ => pure ()
  | field :: fields, value :: values => do
    own (Eval.ofResult (checkTag (setting.text field.name) field.tag value))
    own (Eval.declare setting storage field.name value)
    fillFields setting teller owner storage fields values
  | field :: fields, [] => do
    let value ← omittedField teller owner storage field
    own (Eval.declare setting storage field.name value)
    fillFields setting teller owner storage fields []

/-- Makes an object of a class from evaluated arguments. -/
def makeObject (setting : Setting) (teller : Teller) (owner : ClassObject) (values : List Value) :
    Telling Value := do
  let storage ← own (Eval.allocate (some owner.scope))
  fillFields setting teller owner storage owner.fields values
  let code ← own (Eval.existing (setting.program? owner.program))
  pure (.object ⟨owner, storage, owner.methods.mapValues (Eval.bindMethod code owner storage)⟩)

/-- Evaluates one node, given how to evaluate others. -/
def stepKind (setting : Setting) (reply : Reply) (teller : Teller) (frame : Frame) :
    NodeKind → Telling Value
  | .int value => pure (.int value)
  | .float bits => pure (.float (Float.ofBits bits))
  | .bool value => pure (.bool value)
  | .string text => pure (.string (setting.text text))
  | .read name => own (Eval.readName setting frame.scope name)
  | .binary op left right => do
    let left ← teller (frame.task left)
    let right ← teller (frame.task right)
    own (Eval.ofResult (op.apply left right))
  | .branch condition thenBranch elseBranch => do
    let value ← teller (frame.task condition)
    if ← own (Eval.ofResult value.holds) then
      teller (frame.task thenBranch)
    else
      match elseBranch with
      | some elseBranch => teller (frame.task elseBranch)
      | none => pure .void
  | .block body => do
    let inner ← own (Eval.allocate (some frame.scope))
    last (fun id => teller (.node frame.program id inner)) .void (frame.code.nodeList body)
  | .declare name tag value => do
    let value ← teller (frame.task value)
    own (Eval.ofResult (checkTag (setting.text name) tag value))
    own (Eval.declare setting frame.scope name value)
    pure .void
  | .assign name value => do
    let value ← teller (frame.task value)
    own (Eval.update (setting.assignStop name) fun store => store.assign frame.scope name value)
    pure .void
  | .function name params body => do
    let value : Value :=
      .function ⟨some name, frame.code.paramList params, body, frame.scope, frame.program⟩
    own (Eval.declare setting frame.scope name value)
    pure value
  | .call callee args => do
    let callee ← own (Eval.readName setting frame.scope callee)
    if callee.isCallable then
      let values ← arguments teller frame args
      callAny setting reply teller callee values
    else
      own (Eval.fail (.notAFunction callee.kindName))
  | .classDecl id => do
    let decl ← own (Eval.existing (frame.code.classDecl? id))
    let value : Value := .classObject (.ofDecl decl frame.scope frame.program)
    own (Eval.declare setting frame.scope decl.name value)
    pure value
  | .construct owner args => do
    let owner ← own (Eval.readClass setting frame.scope owner)
    own (Eval.checkFieldCount setting owner args.length)
    let values ← arguments teller frame args
    makeObject setting teller owner values
  | .methodCall receiver method args => do
    let value ← teller (frame.task receiver)
    let receiver ← own (Eval.expectObject value)
    let method ← own (Eval.findMethod setting receiver method)
    let values ← arguments teller frame args
    callClosure setting teller method values
  | .field receiver name => do
    let value ← teller (frame.task receiver)
    let receiver ← own (Eval.expectObject value)
    own (Eval.readField setting receiver name)
  | .array elements => do
    let values ← arguments teller frame elements
    pure (.array values)
  | .index receiver position => do
    let receiver ← teller (frame.task receiver)
    let position ← teller (frame.task position)
    own (Eval.ofResult (receiver.element position))
  | .lambda param body =>
    pure (.function ⟨none, [param], body, frame.scope, frame.program⟩)
  | .reference name => own (Eval.referTo setting frame.scope name)
  | .assignThrough name value => do
    let first ← own (Eval.heldReference setting frame.scope name)
    let value ← teller (frame.task value)
    own (Eval.writeThrough setting first value)
    pure .void

/-- Performs a task, given how to perform others. -/
def step (setting : Setting) (reply : Reply) (teller : Teller) : Teller
  | .node program id scope => do
    let code ← own (Eval.existing (setting.program? program))
    let node ← own (Eval.existing (code.node? id))
    located node.span (stepKind setting reply teller ⟨program, code, scope⟩ node.kind)
  | .call callee args => callAny setting reply teller callee args

/-- Performs a task with a bound on the depth of tasks inside tasks. -/
def run (setting : Setting) (reply : Reply) : Nat → Teller
  | 0 => fun _ => throw .exhausted
  | depth + 1 => step setting reply (run setting reply depth)

end Telling

end ScopeMachine
