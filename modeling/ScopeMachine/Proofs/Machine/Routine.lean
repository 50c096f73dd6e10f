import ScopeMachine.Machine

/-!
# Entries of a host as routines

An entry of a host that is called may look at the state, follow references, print, collect and call
values back, in any order and as often as it likes, and then ends with an answer or a failure. What
it does next depends on what it has found out so far, also on how a call has ended: it may recover
from a failure. It cannot recover from a missing node or from an evaluation that gives up.

A routine says what an entry does, apart from who performs the calls.
-/

namespace ScopeMachine

/-- What an entry of a host does when it is called. -/
inductive Routine where
  /-- It ends with an answer. -/
  | answer (value : Value)
  /-- It ends with a failure. -/
  | fail (failure : Failure)
  /-- It calls a value and goes on with how the call has ended. -/
  | call (callee : Value) (args : List Value) (next : Except Failure Value → Routine)
  /-- It follows references from a value. -/
  | resolve (value : Value) (next : Except Failure Value → Routine)
  /-- It collects with values as roots. -/
  | collect (roots : List Value) (next : Occupancy → Routine)
  /-- It looks at the state. -/
  | look (next : State → Routine)
  /-- It prints a text. -/
  | print (text : String) (next : Routine)

/-- Routines of a host: by the name of the entry, the setting and the arguments. -/
abbrev Routines := String → Setting → List Value → Routine

namespace Routine

variable {σ : Type}

/-- Goes on with the result of an evaluation or with its failure. -/
def attempt {α β : Type} (evaluation : EStateM Stop σ α)
    (next : Except Failure α → EStateM Stop σ β) : EStateM Stop σ β := fun state =>
  match evaluation state with
  | .ok value state => next (.ok value) state
  | .error (.failure failure) state => next (.error failure) state
  | .error stop state => .error stop state

/-- Performs a routine, given how to do by oneself what needs no call and how to call a value. -/
def perform (setting : Setting) (lift : ∀ {α : Type}, Eval α → EStateM Stop σ α)
    (callBack : Value → List Value → EStateM Stop σ Value) : Routine → EStateM Stop σ Value
  | answer value => pure value
  | fail failure => throw (.failure failure)
  | call callee args next =>
    attempt (callBack callee args) fun outcome => (next outcome).perform setting lift callBack
  | resolve value next => do
    let scopes ← lift Eval.scopes
    (next (setting.resolve scopes value)).perform setting lift callBack
  | collect roots next => do
    let occupancy ← lift (Eval.collect setting roots)
    (next occupancy).perform setting lift callBack
  | look next => do
    let state ← lift (fun state => .ok state state)
    (next state).perform setting lift callBack
  | print text next => do
    lift (Eval.write fun sink => sink.print text)
    next.perform setting lift callBack

/-- Ends as a call has ended. -/
def ofOutcome : Except Failure Value → Routine
  | .ok value => answer value
  | .error failure => fail failure

/-- A routine passes failures on: where a call or a chain of references fails, it ends with that
very failure. -/
def PassesOn : Routine → Prop
  | answer _ | fail _ => True
  | call _ _ next | resolve _ next =>
    (∀ failure, next (.error failure) = .fail failure) ∧ ∀ value, (next (.ok value)).PassesOn
  | collect _ next => ∀ occupancy, (next occupancy).PassesOn
  | look next => ∀ state, (next state).PassesOn
  | print _ next => next.PassesOn

end Routine

namespace Host

/-- Host whose entries perform routines. -/
def ofRoutines (routines : Routines) : Host := fun entry setting callBack args =>
  (routines entry setting args).perform setting (fun evaluation => evaluation) callBack

/-- Routines of the standard host. -/
def standardRoutines : Routines := fun entry _ args =>
  if entry = collectEntry then
    .collect args fun occupancy => .answer (.int (Int64.ofNat occupancy.live))
  else if entry = callEntry then
    match args with
    | [] => .call .void [] .ofOutcome
    | callee :: rest => .call callee rest .ofOutcome
  else
    .answer .void

/-- A call after which a routine ends as the call has ended is just the call. -/
theorem attempt_ofOutcome (evaluation : Eval Value) (setting : Setting) (callBack : Caller) :
    (Routine.attempt evaluation fun outcome =>
      (Routine.ofOutcome outcome).perform setting (fun evaluation => evaluation) callBack) =
        evaluation := by
  funext state
  unfold Routine.attempt
  cases evaluation state with
  | ok value final => rfl
  | error stop final => cases stop <;> rfl

/-- The standard host performs its routines. -/
theorem standard_eq_ofRoutines : standard = ofRoutines standardRoutines := by
  funext entry setting callBack args
  unfold standard ofRoutines standardRoutines
  split
  · rfl
  · split
    · cases args with
      | nil => exact (attempt_ofOutcome (callBack .void []) setting callBack).symm
      | cons callee rest => exact (attempt_ofOutcome (callBack callee rest) setting callBack).symm
    · rfl

end Host

end ScopeMachine
