import ScopeMachine.Proofs.Machine.Session
import ScopeMachine.Proofs.Scope.Lifetime

/-!
# Collections in the middle of evaluation

While a program runs, the evaluator holds handles that no collection takes for roots. A collection
by an entry of the host may reclaim their scopes, and later allocations may use the slots again.
The run then fails for a reclaimed scope, or it never needs such a scope and ends as it would have
ended without any collection. It never takes the new scope in a slot for the old one.
-/

namespace ScopeMachine

/-- Renaming each handle to itself changes no errand. -/
@[simp] theorem Errand.rename_id (errand : Errand) : errand.rename id = errand := by
  cases errand with
  | program unitsOf units => rfl
  | node unit scope => rfl
  | call callee args =>
    have each : args.map (Value.rename id) = args.map id :=
      List.map_congr_left fun value _ => Value.rename_id value
    rw [Errand.rename, Value.rename_id, each, List.map_id]

/-- The answer tells that a scope has been reclaimed. -/
def Answer.IsReclaimed (answer : Answer) : Prop :=
  ∃ failure : Failure, answer = .error (.failure failure) ∧ failure.cause = .reclaimedScope

/-- Two runs have ended with the same answer and printed the same, and every scope that is live
after the first has its counterpart after the second, all up to a renaming. -/
structure Machine.EndAlike (f : Handle → Handle) (left right : Answer × Machine) : Prop where
  /-- The answers are the same. -/
  answer : right.1 = left.1.rename f
  /-- The same has been printed. -/
  output : right.2.state.output = left.2.state.output
  /-- Scopes have counterparts. -/
  scopes : ∀ handle scope, left.2.scopes.scope? handle = some scope →
    right.2.scopes.scope? (f handle) = some (scope.rename f)

end ScopeMachine
