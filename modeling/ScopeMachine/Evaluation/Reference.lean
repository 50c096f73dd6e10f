import ScopeMachine.Evaluation.Basic

/-!
# References

A reference holds a variable, which may hold a reference again. Reading follows the chain to the
first value that is no reference; writing follows the same chain to the variable that holds that
value. Both follow no more variables than the setting allows, so a circle of references is a chain
too deep.
-/

namespace ScopeMachine

namespace Setting

/-- Value that a variable holds. -/
def stored (setting : Setting) (scopes : Store) (target : Location) : Except Failure Value :=
  match scopes.getOwn target.scope target.name with
  | .ok (some value) => .ok value
  | .ok none => .error (.unbound (setting.text target.name))
  | .error _ => .error .reclaimedScope

/-- First value that is no reference, with a number of hops left. -/
def follow (setting : Setting) (scopes : Store) : Nat → Value → Except Failure Value
  | 0, .reference _ => .error (.chainTooLong setting.maxHops)
  | hops + 1, .reference target => do
    let value ← setting.stored scopes target
    setting.follow scopes hops value
  | _, value => .ok value

/-- First value that is no reference. -/
def resolve (setting : Setting) (scopes : Store) (value : Value) : Except Failure Value :=
  setting.follow scopes setting.maxHops value

/-- Variable that holds the first value that is no reference, with a number of hops left. -/
def followLocation (setting : Setting) (scopes : Store) : Nat → Location → Except Failure Location
  | 0, _ => .error (.chainTooLong setting.maxHops)
  | hops + 1, target => do
    match ← setting.stored scopes target with
    | .reference next => setting.followLocation scopes hops next
    | _ => return target

/-- Variable that holds the first value that is no reference. -/
def resolveLocation (setting : Setting) (scopes : Store) (target : Location) :
    Except Failure Location :=
  setting.followLocation scopes setting.maxHops target

end Setting

namespace Eval

/-- Follows references from a value. -/
def resolve (setting : Setting) (value : Value) : Eval Value := do
  let scopes ← scopes
  ofResult (setting.resolve scopes value)

/-- Value of a name as it is stored. -/
def readRaw (setting : Setting) (scope : Handle) (name : Symbol) : Eval Value :=
  query (setting.scopeStop name) fun store => store.get scope name

/-- Value of a name with references followed. -/
def readName (setting : Setting) (scope : Handle) (name : Symbol) : Eval Value := do
  let value ← readRaw setting scope name
  resolve setting value

/-- Reference to the variable that a name stands for. -/
def referTo (setting : Setting) (scope : Handle) (name : Symbol) : Eval Value := do
  let target ← query (setting.scopeStop name) fun store => store.locate scope name
  pure (.reference target)

/-- Reference that a name holds. -/
def heldReference (setting : Setting) (scope : Handle) (name : Symbol) : Eval Location := do
  match ← readRaw setting scope name with
  | .reference target => pure target
  | _ => fail (.holdsNoReference (setting.text name))

/-- Writes to the variable at the end of a chain. -/
def writeThrough (setting : Setting) (first : Location) (value : Value) : Eval Unit := do
  let scopes ← scopes
  let target ← ofResult (setting.resolveLocation scopes first)
  declare setting target.scope target.name value

end Eval

end ScopeMachine
