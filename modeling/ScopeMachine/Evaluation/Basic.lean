import ScopeMachine.Failure
import ScopeMachine.Scope.Collection
import ScopeMachine.Sink
import ScopeMachine.Syntax.Program

/-!
# Evaluations

An evaluation reads a setting that stays fixed while it runs, changes the store of scopes and the
printed text, and ends with a result or stops early. What it has changed before it stops remains
changed. It stops for a failure of the program, or because a node is missing from its program, or
because the bound on the depth of evaluation is used up; only the first is an answer of the
language.
-/

namespace ScopeMachine

/-- What evaluation reads and never changes. -/
structure Setting where
  /-- Texts of symbols. -/
  symbols : SymbolTable
  /-- Programs by the number under which they were loaded. -/
  programs : Array Program
  /-- Scope of the top level. -/
  global : Handle
  /-- Most references that one reading follows. -/
  maxHops : Nat

/-- What evaluation changes. -/
structure State where
  /-- All scopes. -/
  scopes : Store
  /-- Printed text. -/
  output : Sink

/-- Reason why an evaluation stops early. -/
inductive Stop where
  /-- The program failed. -/
  | failure (failure : Failure)
  /-- A node, class or program does not exist. -/
  | missing
  /-- The bound on the evaluation is used up. -/
  | exhausted
deriving DecidableEq

/-- Evaluation with a result of type `α`. -/
abbrev Eval := EStateM Stop State

namespace Setting

/-- Text of a symbol. -/
def text (setting : Setting) (symbol : Symbol) : String := setting.symbols.text symbol

/-- Program loaded under a number. -/
def program? (setting : Setting) (id : ProgramId) : Option Program := setting.programs[id.index]?

/-- Stop that a failed operation on the scopes of a name leads to. -/
def scopeStop (setting : Setting) (name : Symbol) : ScopeError → Stop
  | .undefined => .failure (.unbound (setting.text name))
  | .dangling _ => .failure .reclaimedScope
  | .endless => .exhausted

/-- Stop that a failed assignment to a name leads to. -/
def assignStop (setting : Setting) (name : Symbol) : ScopeError → Stop
  | .undefined => .failure (.undeclared (setting.text name))
  | .dangling _ => .failure .reclaimedScope
  | .endless => .exhausted

/-- Reclaims the scopes that are reachable neither from the top level nor from values. -/
def reclaim (setting : Setting) (scopes : Store) (roots : List Value) : Store :=
  (scopes.collect (setting.global :: Value.handlesAll roots)).2

end Setting

namespace Eval

/-- Stops with a failure. -/
def fail {α : Type} (failure : Failure) : Eval α := throw (.failure failure)

/-- Continues with a result or stops with its failure. -/
def ofResult {α : Type} : Except Failure α → Eval α
  | .ok value => pure value
  | .error failure => fail failure

/-- Continues with what exists. -/
def existing {α : Type} : Option α → Eval α
  | some value => pure value
  | none => throw .missing

/-- Reads the store. -/
def query {α : Type} (stop : ScopeError → Stop) (read : Store → Except ScopeError α) : Eval α :=
  fun state =>
    match read state.scopes with
    | .ok value => .ok value state
    | .error error => .error (stop error) state

/-- Changes the store, or stops and leaves it as it was. -/
def update (stop : ScopeError → Stop) (write : Store → Except ScopeError Store) : Eval Unit :=
  fun state =>
    match write state.scopes with
    | .ok scopes => .ok () { state with scopes }
    | .error error => .error (stop error) state

/-- Allocates a scope. -/
def allocate (parent : Option Handle) : Eval Handle := fun state =>
  let (handle, scopes) := state.scopes.allocateEmpty parent
  .ok handle { state with scopes }

/-- Reads all scopes. -/
def scopes : Eval Store := fun state => .ok state.scopes state

/-- Changes the printed text. -/
def write (print : Sink → Sink) : Eval Unit := fun state =>
  .ok () { state with output := print state.output }

/-- Collects with values as roots. -/
def collect (setting : Setting) (roots : List Value) : Eval Occupancy := fun state =>
  let scopes := setting.reclaim state.scopes roots
  .ok scopes.occupancy { state with scopes }

/-- Gives a failure without a span the span of the node that it leaves. -/
def located {α : Type} (span : Span) (evaluation : Eval α) : Eval α := fun state =>
  match evaluation state with
  | .error (.failure failure) state => .error (.failure (failure.locateOnce span)) state
  | result => result

/-- Results of an evaluation for each member of a list, from left to right. -/
def each {α β : Type} (evaluate : α → Eval β) : List α → Eval (List β)
  | [] => pure []
  | item :: rest => do
    let result ← evaluate item
    let results ← each evaluate rest
    pure (result :: results)

/-- Last result of an evaluation for each member of a list, or a given one for an empty list. -/
def last {α β : Type} (evaluate : α → Eval β) (result : β) : List α → Eval β
  | [] => pure result
  | item :: rest => do
    let next ← evaluate item
    last evaluate next rest

/-- Binds a name in a scope. -/
def declare (setting : Setting) (scope : Handle) (name : Symbol) (value : Value) : Eval Unit :=
  update (setting.scopeStop name) fun store => store.set scope name value

end Eval

end ScopeMachine
