import ScopeMachine.Symbol.Table

/-!
# Scope handles

A scope is named by the slot that holds it and the generation of the slot when the scope was
allocated. The generation tells a scope from later ones in the same slot.
-/

namespace ScopeMachine

/-- Name of a scope: a slot and a generation of it. -/
structure Handle where
  /-- Position of the slot. -/
  index : Nat
  /-- Generation of the slot when the handle was issued. -/
  generation : UInt32
deriving DecidableEq

/-- Diagnostic text of a handle. -/
def Handle.describe (handle : Handle) : String :=
  s!"ScopeId({handle.index}v{handle.generation.toNat})"

/-- Variable: a name in one particular scope. -/
structure Location where
  /-- Scope that binds the name. -/
  scope : Handle
  /-- Name that is bound. -/
  name : Symbol
deriving DecidableEq

end ScopeMachine
