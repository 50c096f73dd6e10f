import ScopeMachine.Value.Basic

/-!
# Scope handles inside values

The handles that a value holds are what keeps scopes reachable. An object holds its storage, the
scope of its class and the scopes of its methods; an array holds what its elements hold.
-/

namespace ScopeMachine.Value

mutual

/-- Handles that a value holds, in order and with repeats. -/
def handles : Value → List Handle
  | .array items => handlesAll items
  | .function value => [value.scope]
  | .reference target => [target.scope]
  | .classObject value => [value.scope]
  | .object value =>
    value.storage :: value.owner.scope :: value.methods.values.map Closure.scope
  | _ => []

/-- Handles that the values of a list hold. -/
def handlesAll : List Value → List Handle
  | [] => []
  | value :: rest => handles value ++ handlesAll rest

end

/-- The handles of a list are those of its members. -/
theorem mem_handlesAll {handle : Handle} {values : List Value} :
    handle ∈ handlesAll values ↔ ∃ value ∈ values, handle ∈ value.handles := by
  induction values with
  | nil => simp [handlesAll]
  | cons value rest ih => simp [handlesAll, ih]

end ScopeMachine.Value
