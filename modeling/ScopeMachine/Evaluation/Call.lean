import ScopeMachine.Evaluation.Operator
import ScopeMachine.Evaluation.Task
import ScopeMachine.Value.Text

/-!
# Calls

A call of a function opens a scope inside the function's scope, binds the parameters there from
left to right and evaluates the body. A native function computes at once or calls back. Bodies and
the calls that natives make are tasks for an evaluator given as a parameter.
-/

namespace ScopeMachine

namespace Eval

/-- Refuses a call with the wrong number of arguments. -/
def checkArity (name : String) (expected got : Nat) : Eval Unit :=
  if expected = got then pure () else fail (.wrongArity name expected got)

/-- Name of a function in failures; a lambda has an empty one. -/
def closureName (setting : Setting) (function : Closure) : String :=
  match function.name with
  | some name => setting.text name
  | none => ""

/-- Calls a function written in the language. -/
def callClosure (setting : Setting) (evaluate : Evaluator) (function : Closure)
    (args : List Value) : Eval Value := do
  checkArity (closureName setting function) function.arity args.length
  let store ← scopes
  if store.isLive function.scope then
    let frame ← allocate (some function.scope)
    update (fun _ => .failure .reclaimedScope) fun store =>
      store.setAll frame (function.params.zip args)
    evaluate (.node function.program function.body frame)
  else
    fail .reclaimedScope

/-- Calls a function on every element of an array. -/
def callMap (callBack : Caller) : List Value → Eval Value
  | [callee, collection] =>
    if callee.isCallable then
      match collection with
      | .array items => do
        let results ← each (fun item => callBack callee [item]) items
        pure (.array results)
      | other => fail (.wrongKind "array" other.kindName)
    else
      fail (.notAFunction callee.kindName)
  | args => fail (.wrongArity "map" 2 args.length)

/-- Counts the elements of an array or the characters of a text. -/
def callLen : List Value → Eval Value
  | [.array items] => ofResult (checkedInt "len" items.length)
  | [.string text] => ofResult (checkedInt "len" text.length)
  | [other] => fail (.wrongKind "array or string" other.kindName)
  | args => fail (.wrongArity "len" 1 args.length)

/-- Counting refuses several arguments. -/
theorem callLen_cons_cons (first second : Value) (rest : List Value) :
    callLen (first :: second :: rest) = fail (.wrongArity "len" 1 (rest.length + 2)) := by
  cases first <;> rfl

/-- Prints one value. -/
def callPrint (setting : Setting) (name : String) (print : Sink → String → Sink) :
    List Value → Eval Value
  | [value] => do
    write fun sink => print sink (value.text setting.symbols)
    pure .void
  | args => fail (.wrongArity name 1 args.length)

/-- Calls a native function. -/
def callNative (setting : Setting) (host : Host) (callBack : Caller) (role : NativeRole)
    (args : List Value) : Eval Value :=
  match role with
  | .map => callMap callBack args
  | .len => callLen args
  | .print => callPrint setting "print" Sink.print args
  | .println => callPrint setting "println" Sink.println args
  | .host entry => host entry setting callBack args

/-- Calls any value. -/
def callAny (setting : Setting) (host : Host) (evaluate : Evaluator) (callee : Value)
    (args : List Value) : Eval Value :=
  match callee with
  | .function function => callClosure setting evaluate function args
  | .native function =>
    callNative setting host (fun callee args => evaluate (.call callee args)) function.role args
  | other => fail (.notAFunction other.kindName)

end Eval

/-- Native functions that every machine has, with their names. -/
def builtins : List (String × NativeRole) :=
  [("map", .map), ("len", .len), ("print", .print), ("println", .println)]

end ScopeMachine
