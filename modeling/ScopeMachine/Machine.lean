import ScopeMachine.Evaluation.Step
import ScopeMachine.Syntax.Tree

/-!
# The machine

A machine is what a host holds: symbols, loaded programs, the global scope with the built-in
functions, all other scopes and the printed text. Every operation returns its answer together with
the machine after it. An operation that stops early keeps what it had changed, so the machine stays
usable.

Operations that evaluate take the host's entries and a bound on the depth of evaluation.
-/

namespace ScopeMachine

/-- Machine between two operations. -/
structure Machine where
  /-- Symbols, programs, global scope and hop limit. -/
  setting : Setting
  /-- Program whose nodes the host evaluates one by one. -/
  current : ProgramId
  /-- Scopes and printed text. -/
  state : State

namespace Machine

/-- Hop limit of a machine that is given no other. -/
def defaultHops : Nat := 10

/-- Bindings of the built-in functions, with their names entered. -/
def builtinBindings (symbols : SymbolTable) : SymbolMap Value × SymbolTable :=
  let (names, symbols) := symbols.internAll (builtins.map Prod.fst)
  let values := builtins.map fun (name, role) => Value.native ⟨name, role⟩
  (.ofList (names.zip values), symbols)

/-- Machine with an empty program and a global scope that binds the built-in functions. -/
def start (symbols : SymbolTable) (maxHops : Nat) (output : Sink) : Machine :=
  let (bindings, symbols) := builtinBindings symbols
  let (global, scopes) := Store.empty.allocate none bindings
  { setting := { symbols, programs := #[Program.empty], global, maxHops }
    current := ⟨0⟩
    state := { scopes, output } }

/-- Symbols entered so far. -/
def symbols (machine : Machine) : SymbolTable := machine.setting.symbols

/-- All scopes. -/
def scopes (machine : Machine) : Store := machine.state.scopes

/-- Current numbers of slots. -/
def occupancy (machine : Machine) : Occupancy := machine.scopes.occupancy

/-- Printed text that is kept. -/
def output (machine : Machine) : String := machine.state.output.output

/-- Drops the printed text that is kept. -/
def clearOutput (machine : Machine) : Machine :=
  { machine with state := { machine.state with output := machine.state.output.clear } }

/-- Machine with other symbols. -/
def withSymbols (machine : Machine) (symbols : SymbolTable) : Machine :=
  { machine with setting := { machine.setting with symbols } }

/-- Enters a text. -/
def intern (machine : Machine) (text : String) : Symbol × Machine :=
  let (symbol, symbols) := machine.symbols.intern text
  (symbol, machine.withSymbols symbols)

/-- Empty draft over the symbols of the machine. -/
def draft (machine : Machine) : Draft := .start machine.symbols

/-- Loads a finished draft and returns the number of its program. -/
def load (machine : Machine) (draft : Draft) : ProgramId × Machine :=
  let setting := machine.setting
  (⟨setting.programs.size⟩,
    { machine with
      setting := { setting with
        symbols := draft.symbols
        programs := setting.programs.push draft.program } })

/-- Builds trees as one program and loads it; the positions are those of the roots. -/
def build (machine : Machine) (trees : List Tree) : ProgramId × List NodeId × Machine :=
  let (units, draft) := (Tree.layoutAll .dummy trees).run machine.draft
  let (program, machine) := machine.load draft
  (program, units, machine)

/-- Result of an evaluation and the machine after it. -/
def perform {α : Type} (machine : Machine) (evaluation : Eval α) : Except Stop α × Machine :=
  match evaluation machine.state with
  | .ok value state => (.ok value, { machine with state })
  | .error stop state => (.error stop, { machine with state })

/-- Performs a task. -/
def performTask (machine : Machine) (host : Host) (depth : Nat) (task : Task) :
    Except Stop Value × Machine :=
  machine.perform (Eval.run machine.setting host depth task)

/-- Evaluates a node of the current program in a scope. -/
def evaluate (machine : Machine) (host : Host) (depth : Nat) (id : NodeId) (scope : Handle) :
    Except Stop Value × Machine :=
  machine.performTask host depth (.node machine.current id scope)

/-- Evaluates nodes of the current program in a scope, up to the first stop. -/
def evaluateAll (machine : Machine) (host : Host) (depth : Nat) (scope : Handle)
    (units : List NodeId) : Except Stop Value × Machine :=
  machine.perform
    (Eval.last (fun id => Eval.run machine.setting host depth (.node machine.current id scope))
      .void units)

/-- Machine in which another program is current. -/
def enter (machine : Machine) (program : ProgramId) : Machine :=
  { machine with current := program }

/-- Evaluates units of a program at the top level, up to the first stop; none give void. -/
def runProgram (machine : Machine) (host : Host) (depth : Nat) (program : ProgramId)
    (units : List NodeId) : Except Stop Value × Machine :=
  let machine := machine.enter program
  machine.evaluateAll host depth machine.setting.global units

/-- Evaluates nodes one after the other at the top level, whatever stops. -/
def evaluateEach (machine : Machine) (host : Host) (depth : Nat) :
    List NodeId → List (Except Stop Value) × Machine
  | [] => ([], machine)
  | id :: rest =>
    let (result, machine) := machine.evaluate host depth id machine.setting.global
    let (results, machine) := machine.evaluateEach host depth rest
    (result :: results, machine)

/-- Evaluates every unit of a program at the top level, whatever stops. -/
def runEach (machine : Machine) (host : Host) (depth : Nat) (program : ProgramId)
    (units : List NodeId) : List (Except Stop Value) × Machine :=
  (machine.enter program).evaluateEach host depth units

/-- Calls a value with arguments. -/
def call (machine : Machine) (host : Host) (depth : Nat) (callee : Value) (args : List Value) :
    Except Stop Value × Machine :=
  machine.performTask host depth (.call callee args)

/-- Follows references from a value. -/
def resolve (machine : Machine) (value : Value) : Except Failure Value :=
  machine.setting.resolve machine.scopes value

/-- Global binding as it is stored; a text that was never entered is not entered. -/
def global? (machine : Machine) (name : String) : Option Value :=
  match machine.symbols.find? name with
  | none => none
  | some symbol =>
    match machine.scopes.getOwn machine.setting.global symbol with
    | .ok value => value
    | .error _ => none

/-- Binds a name at the top level. -/
def bindGlobal (machine : Machine) (name : String) (value : Value) :
    Except Stop Unit × Machine :=
  let (symbol, machine) := machine.intern name
  machine.perform (Eval.declare machine.setting machine.setting.global symbol value)

/-- Reclaims the scopes that are reachable neither from the top level nor from values. -/
def collect (machine : Machine) (roots : List Value) : Occupancy × Machine :=
  let scopes := machine.setting.reclaim machine.scopes roots
  (scopes.occupancy, { machine with state := { machine.state with scopes } })

end Machine

end ScopeMachine
