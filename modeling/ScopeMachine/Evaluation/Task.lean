import ScopeMachine.Evaluation.Basic

/-!
# Tasks and the host

Evaluation is a matter of tasks: a node to evaluate or a value to call. How one task is performed is
said in terms of an evaluator of other tasks.

A host adds native functions of its own. It knows them by the name of an entry, and an entry may
call values of the program and may collect while the program runs.
-/

namespace ScopeMachine

/-- Work for the evaluator. -/
inductive Task where
  /-- Evaluate a node of a program in a scope. -/
  | node (program : ProgramId) (id : NodeId) (scope : Handle)
  /-- Call a value with arguments. -/
  | call (callee : Value) (args : List Value)

/-- Evaluation of tasks. -/
abbrev Evaluator := Task → Eval Value

/-- Way to call a value with arguments. -/
abbrev Caller := Value → List Value → Eval Value

/-- Entry of the host: it sees the setting and may call back. -/
abbrev HostFunction := Setting → Caller → List Value → Eval Value

/-- Entries of the host by name. -/
abbrev Host := String → HostFunction

namespace Host

/-- Does nothing. -/
def ignore : HostFunction := fun _ _ _ => pure .void

/-- Collects with its arguments as further roots, and counts the scopes left. -/
def collect : HostFunction := fun setting _ args => do
  let occupancy ← Eval.collect setting args
  pure (.int (Int64.ofNat occupancy.live))

/-- Calls its first argument with the others; without arguments it calls void. -/
def call : HostFunction := fun _ callBack args =>
  match args with
  | [] => callBack .void []
  | callee :: rest => callBack callee rest

/-- Name of the entry that collects. -/
def collectEntry : String := "collect"

/-- Name of the entry that calls. -/
def callEntry : String := "call"

/-- Host with the two entries above; every other entry does nothing. -/
def standard : Host := fun entry =>
  if entry = collectEntry then collect
  else if entry = callEntry then call
  else ignore

end Host

end ScopeMachine
