import Mathlib.Data.List.Forall2
import ScopeMachine.Evaluation.Basic
import ScopeMachine.Proofs.Renaming.Store

/-!
# Simulation of evaluations

An evaluation simulates another under a renaming when the two, started in states that mirror each
other, end alike in states that mirror each other again, under an extension of the renaming. Where
losses are allowed the left evaluation may also end early because a scope is lost or because it
gives up; nothing is then said about the right one. In either case the left store is sound and has
unfolded from what it was.

Simulations compose along the sequence of evaluations, and every elementary evaluation simulates
itself.
-/

namespace ScopeMachine

/-- The evaluation has needed a scope that has been reclaimed, or has given up. -/
def Stop.IsLoss : Stop → Prop
  | .failure reason => reason.IsLoss
  | .missing => False
  | .exhausted => True

/-- A scope that has been reclaimed is a loss. -/
theorem Stop.isLoss_reclaimedScope : (Stop.failure .reclaimedScope).IsLoss := rfl

/-- Giving up is a loss. -/
theorem Stop.isLoss_exhausted : Stop.exhausted.IsLoss := trivial

/-- The scopes of the states mirror each other, and the same has been printed. -/
structure State.Mirrors (lossy : Prop) (pairs : Renaming) (left right : State) : Prop where
  /-- The stores mirror each other. -/
  scopes : left.scopes.Mirrors lossy pairs right.scopes
  /-- The printed texts are equal. -/
  output : left.output = right.output

namespace Eval

/-- Relation between the results of two evaluations, which may depend on a renaming. -/
abbrev Relation (α β : Type) := Renaming → α → β → Prop

/-- Two evaluations have ended alike, or the left one with a loss that is allowed. -/
inductive Agree {α β : Type} (lossy : Prop) (related : Relation α β) (pairs : Renaming)
    (before : State) : EStateM.Result Stop State α → EStateM.Result Stop State β → Prop where
  /-- Both have given related results. -/
  | ok {later : Renaming} {leftResult : α} {rightResult : β} {left right : State}
    (extended : later.Extends pairs) (mirrors : left.Mirrors lossy later right)
    (unfolds : before.scopes.Unfolds left.scopes) (both : related later leftResult rightResult) :
    Agree lossy related pairs before (.ok leftResult left) (.ok rightResult right)
  /-- Both have stopped for the same reason. -/
  | error {later : Renaming} {left right : State} (stop : Stop) (extended : later.Extends pairs)
    (mirrors : left.Mirrors lossy later right) (unfolds : before.scopes.Unfolds left.scopes) :
    Agree lossy related pairs before (.error stop left) (.error stop right)
  /-- The left one has stopped with a loss. -/
  | lost {stop : Stop} {left : State} {right : EStateM.Result Stop State β} (allowed : lossy)
    (loss : stop.IsLoss) (sound : left.scopes.Sound)
    (unfolds : before.scopes.Unfolds left.scopes) :
    Agree lossy related pairs before (.error stop left) right

/-- What agrees under an extended renaming after some steps agrees from the start. -/
theorem Agree.after {α β : Type} {lossy : Prop} {related : Relation α β} {pairs later : Renaming}
    {before middle : State} {left : EStateM.Result Stop State α}
    {right : EStateM.Result Stop State β} (agree : Agree lossy related later middle left right)
    (extended : later.Extends pairs) (unfolded : before.scopes.Unfolds middle.scopes) :
    Agree lossy related pairs before left right := by
  cases agree with
  | ok further mirrors unfolds both =>
    exact .ok (further.trans extended) mirrors (unfolded.trans unfolds) both
  | error stop further mirrors unfolds =>
    exact .error stop (further.trans extended) mirrors (unfolded.trans unfolds)
  | lost allowed loss sound unfolds => exact .lost allowed loss sound (unfolded.trans unfolds)

/-- Started in states that mirror each other, the evaluations end alike. -/
def Simulates {α β : Type} (lossy : Prop) (related : Relation α β) (pairs : Renaming)
    (left : Eval α) (right : Eval β) : Prop :=
  ∀ leftState rightState, leftState.Mirrors lossy pairs rightState →
    Agree lossy related pairs leftState (left leftState) (right rightState)

/-- A failed operation on a handle that is not live is reported as a reclaimed scope. -/
def ReportsLoss (stop : ScopeError → Stop) : Prop :=
  ∀ handle, stop (.dangling handle) = .failure .reclaimedScope

section Combinators

variable {α β γ δ : Type} {lossy : Prop} {related : Relation α β} {pairs : Renaming}

/-- Related results simulate each other. -/
theorem simulates_pure {left : α} {right : β} (both : related pairs left right) :
    Simulates lossy related pairs (pure left) (pure right) :=
  fun leftState _ mirrors => .ok (.refl pairs) mirrors (.refl leftState.scopes) both

/-- The same stop on both sides simulates itself. -/
theorem simulates_throw (stop : Stop) :
    Simulates lossy related pairs (throw stop) (throw stop) :=
  fun leftState _ mirrors => .error stop (.refl pairs) mirrors (.refl leftState.scopes)

/-- The same failure on both sides simulates itself. -/
theorem simulates_fail (failure : Failure) :
    Simulates lossy related pairs (fail failure) (fail failure) :=
  simulates_throw (.failure failure)

/-- A stop with a loss simulates every evaluation. -/
theorem simulates_of_isLoss {stop : Stop} (allowed : lossy) (loss : stop.IsLoss)
    (right : Eval β) : Simulates lossy related pairs (throw stop) right :=
  fun leftState _ mirrors =>
    .lost allowed loss mirrors.scopes.leftSound (.refl leftState.scopes)

/-- Simulations compose in sequence. -/
theorem Simulates.bind {after : Relation γ δ} {left : Eval α} {right : Eval β}
    {leftNext : α → Eval γ} {rightNext : β → Eval δ}
    (first : Simulates lossy related pairs left right)
    (next : ∀ later, later.Extends pairs → ∀ leftResult rightResult,
      related later leftResult rightResult →
      Simulates lossy after later (leftNext leftResult) (rightNext rightResult)) :
    Simulates lossy after pairs (left >>= leftNext) (right >>= rightNext) := by
  intro leftState rightState mirrors
  change Agree lossy after pairs leftState (EStateM.bind left leftNext leftState)
    (EStateM.bind right rightNext rightState)
  have ended := first leftState rightState mirrors
  unfold EStateM.bind
  generalize left leftState = leftEnd at ended ⊢
  generalize right rightState = rightEnd at ended ⊢
  cases ended with
  | ok extended middle unfolds both =>
    exact (next _ extended _ _ both _ _ middle).after extended unfolds
  | error stop extended middle unfolds => exact .error stop extended middle unfolds
  | lost allowed loss sound unfolds => exact .lost allowed loss sound unfolds

/-- Agreeing results simulate each other. -/
theorem simulates_ofResult {left : Except Failure α} {right : Except Failure β}
    (agree : ResultsAgree lossy (related pairs) left right) :
    Simulates lossy related pairs (ofResult left) (ofResult right) := by
  cases agree with
  | ok both => exact simulates_pure both
  | error same => exact same ▸ simulates_fail _
  | @lost failure _ allowed loss =>
    have stopped : (Stop.failure failure).IsLoss := loss
    exact simulates_of_isLoss allowed stopped _

/-- What exists on one side exists on the other. -/
theorem simulates_existing (found : Option α) :
    Simulates lossy (fun _ left right => left = right) pairs (existing found) (existing found) := by
  cases found with
  | none => exact simulates_throw .missing
  | some value => exact simulates_pure rfl

/-- Operations on the stores that fail alike stop alike. -/
theorem Agree.of_alike {stop : ScopeError → Stop} (reports : ReportsLoss stop)
    {leftState rightState : State} (mirrors : leftState.Mirrors lossy pairs rightState)
    {left right : ScopeError} (alike : left.Alike right) :
    Agree lossy related pairs leftState (.error (stop left) leftState)
      (.error (stop right) rightState) := by
  cases alike with
  | same => exact .error _ (.refl pairs) mirrors (.refl leftState.scopes)
  | dangling leftHandle rightHandle =>
    rw [reports leftHandle, reports rightHandle]
    exact .error _ (.refl pairs) mirrors (.refl leftState.scopes)

/-- An operation on the left store that fails for a loss stops with a loss. -/
theorem Agree.of_isLoss {stop : ScopeError → Stop} (reports : ReportsLoss stop)
    {leftState rightState : State} (mirrors : leftState.Mirrors lossy pairs rightState)
    (allowed : lossy) {error : ScopeError} (loss : error.IsLoss)
    {right : EStateM.Result Stop State β} :
    Agree lossy related pairs leftState (.error (stop error) leftState) right := by
  obtain ⟨handle, rfl⟩ := loss
  rw [reports handle]
  exact .lost allowed Stop.isLoss_reclaimedScope mirrors.scopes.leftSound (.refl leftState.scopes)

/-- Readings of the stores that agree simulate each other. -/
theorem simulates_query {stop : ScopeError → Stop} (reports : ReportsLoss stop)
    {readLeft : Store → Except ScopeError α} {readRight : Store → Except ScopeError β}
    (agree : ∀ left right, left.Mirrors lossy pairs right →
      ScopesAgree lossy (related pairs) (readLeft left) (readRight right)) :
    Simulates lossy related pairs (query stop readLeft) (query stop readRight) := by
  intro leftState rightState mirrors
  have ended := agree _ _ mirrors.scopes
  unfold query
  generalize readLeft leftState.scopes = leftEnd at ended ⊢
  generalize readRight rightState.scopes = rightEnd at ended ⊢
  cases ended with
  | ok both => exact .ok (.refl pairs) mirrors (.refl leftState.scopes) both
  | error same => exact .of_alike reports mirrors same
  | lost allowed loss => exact .of_isLoss reports mirrors allowed loss

/-- Changes of the stores that agree simulate each other. -/
theorem simulates_update {stop : ScopeError → Stop} (reports : ReportsLoss stop)
    {writeLeft writeRight : Store → Except ScopeError Store}
    (agree : ∀ left right, left.Mirrors lossy pairs right →
      ScopesAgree lossy
        (fun leftAfter rightAfter => leftAfter.Mirrors lossy pairs rightAfter ∧
          left.Unfolds leftAfter)
        (writeLeft left) (writeRight right)) :
    Simulates lossy (fun _ _ _ => True) pairs (update stop writeLeft) (update stop writeRight) := by
  intro leftState rightState mirrors
  have ended := agree _ _ mirrors.scopes
  unfold update
  generalize writeLeft leftState.scopes = leftEnd at ended ⊢
  generalize writeRight rightState.scopes = rightEnd at ended ⊢
  cases ended with
  | ok both => exact .ok (.refl pairs) ⟨both.1, mirrors.output⟩ both.2 trivial
  | error same => exact .of_alike reports mirrors same
  | lost allowed loss => exact .of_isLoss reports mirrors allowed loss

/-- Allocations inside corresponding scopes simulate each other. -/
theorem simulates_allocate {leftParent rightParent : Handle}
    (sends : pairs.SendsHandle leftParent rightParent) :
    Simulates lossy Renaming.SendsHandle pairs (allocate (some leftParent))
      (allocate (some rightParent)) := by
  intro leftState rightState mirrors
  obtain ⟨later, extended, new, after⟩ := mirrors.scopes.allocate_mirrors sends
  have unfolds := Store.unfolds_allocateEmpty mirrors.scopes.leftSound.tidy (some leftParent)
  exact .ok extended ⟨after, mirrors.output⟩ unfolds new

/-- The stores that are read mirror each other. -/
theorem simulates_scopes :
    Simulates lossy (fun later left right => left.Mirrors lossy later right) pairs scopes scopes :=
  fun leftState _ mirrors => .ok (.refl pairs) mirrors (.refl leftState.scopes) mirrors.scopes

/-- The same change of the printed text on both sides simulates itself. -/
theorem simulates_write (print : Sink → Sink) :
    Simulates lossy (fun _ _ _ => True) pairs (write print) (write print) := by
  intro leftState rightState mirrors
  refine .ok (.refl pairs) ⟨mirrors.scopes, ?_⟩ (.refl leftState.scopes) trivial
  exact congrArg print mirrors.output

/-- Giving failures a span keeps a simulation. -/
theorem Simulates.located {left : Eval α} {right : Eval β}
    (simulates : Simulates lossy related pairs left right) (span : Span) :
    Simulates lossy related pairs (left.located span) (right.located span) := by
  intro leftState rightState mirrors
  have ended := simulates leftState rightState mirrors
  unfold Eval.located
  generalize left leftState = leftEnd at ended ⊢
  generalize right rightState = rightEnd at ended ⊢
  cases ended with
  | ok extended middle unfolds both => exact .ok extended middle unfolds both
  | error stop extended middle unfolds =>
    cases stop with
    | failure failure => exact .error _ extended middle unfolds
    | missing => exact .error _ extended middle unfolds
    | exhausted => exact .error _ extended middle unfolds
  | @lost stop _ _ allowed loss sound unfolds =>
    cases stop with
    | failure failure =>
      refine .lost allowed ?_ sound unfolds
      have kept : (failure.locateOnce span).cause = failure.cause := by
        unfold Failure.locateOnce
        split <;> rfl
      exact kept.trans loss
    | missing => exact loss.elim
    | exhausted => exact .lost allowed loss sound unfolds

/-- Evaluations for each member of corresponding lists give corresponding lists. -/
theorem simulates_each (corresponds : α → β → Prop) {evaluateLeft : α → Eval Value}
    {evaluateRight : β → Eval Value} {lefts : List α} {rights : List β}
    (simulates : ∀ later, later.Extends pairs → ∀ left right, corresponds left right →
      Simulates lossy Renaming.Sends later (evaluateLeft left) (evaluateRight right))
    (items : List.Forall₂ corresponds lefts rights) :
    Simulates lossy Renaming.SendsAll pairs (each evaluateLeft lefts)
      (each evaluateRight rights) := by
  induction items generalizing pairs with
  | nil => exact simulates_pure .nil
  | cons item _ ih =>
    refine (simulates pairs (.refl pairs) _ _ item).bind fun later extended left right value => ?_
    have others := ih fun further more => simulates further (more.trans extended)
    refine others.bind fun final more lefts rights values => simulates_pure ?_
    exact .cons (value.extend more) values

/-- Evaluations one after the other give corresponding last results. -/
theorem simulates_last {evaluateLeft evaluateRight : α → Eval Value} {left right : Value}
    (items : List α) (value : pairs.Sends left right)
    (simulates : ∀ later, later.Extends pairs → ∀ item,
      Simulates lossy Renaming.Sends later (evaluateLeft item) (evaluateRight item)) :
    Simulates lossy Renaming.Sends pairs (last evaluateLeft left items)
      (last evaluateRight right items) := by
  induction items generalizing pairs left right with
  | nil => exact simulates_pure value
  | cons item rest ih =>
    refine (simulates pairs (.refl pairs) item).bind fun later extended left right next => ?_
    exact ih next fun further more => simulates further (more.trans extended)

end Combinators

/-- Bindings of corresponding values in corresponding scopes simulate each other. -/
theorem simulates_declare {lossy : Prop} {pairs : Renaming} (setting : Setting)
    {leftScope rightScope : Handle} (scope : pairs.SendsHandle leftScope rightScope) (name : Symbol)
    {left right : Value} (value : pairs.Sends left right) :
    Simulates lossy (fun _ _ _ => True) pairs (declare setting leftScope name left)
      (declare setting rightScope name right) :=
  simulates_update (fun _ => rfl) fun _ _ mirrors => mirrors.set_agrees name scope value

end Eval

end ScopeMachine
