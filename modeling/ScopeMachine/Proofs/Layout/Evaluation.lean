import ScopeMachine.Evaluation.Object
import ScopeMachine.Proofs.Layout.Store

/-!
# Evaluations that keep step

Two evaluations over two layouts keep step when, started in states that are alike, they end with
results that are alike or with the very same stop, in states that are alike again. Keeping step
composes along the sequence of evaluations. What the language does with references, functions and
classes keeps step on values that are alike, given that the evaluators of bodies do.
-/

namespace ScopeMachine

/-- The stores are alike, and the same has been printed. -/
structure State.Alike (left right : Setting) (a b : State) : Prop where
  /-- The stores are alike. -/
  scopes : a.scopes.Alike left right b.scopes
  /-- The printed texts are equal. -/
  output : a.output = b.output

/-- The tasks are the same up to the positions of names and of source. -/
inductive Task.Alike (left right : Setting) : Task → Task → Prop where
  /-- Corresponding nodes in the same scope. -/
  | node {leftId rightId : ProgramId} {a b : NodeId}
    (source : left.Corresponds right ⟨leftId, a⟩ ⟨rightId, b⟩) (scope : Handle) :
    Alike left right (.node leftId a scope) (.node rightId b scope)
  /-- Calls of values that are alike with arguments that are alike. -/
  | call {a b : Value} {lefts rights : List Value} (callee : Value.Alike left right a b)
    (args : List.Forall₂ (Value.Alike left right) lefts rights) :
    Alike left right (.call a lefts) (.call b rights)

namespace Eval

/-- Two evaluations have ended with related results or with the same stop. -/
inductive EndAlike {α β : Type} (left right : Setting) (related : α → β → Prop) :
    EStateM.Result Stop State α → EStateM.Result Stop State β → Prop where
  /-- Both have given related results. -/
  | ok {leftResult : α} {rightResult : β} {a b : State} (both : related leftResult rightResult)
    (states : a.Alike left right b) :
    EndAlike left right related (.ok leftResult a) (.ok rightResult b)
  /-- Both have stopped for the same reason. -/
  | error {a b : State} (stop : Stop) (states : a.Alike left right b) :
    EndAlike left right related (.error stop a) (.error stop b)

/-- Started in states that are alike, the evaluations end alike. -/
def KeepStep {α β : Type} (left right : Setting) (related : α → β → Prop) (first : Eval α)
    (second : Eval β) : Prop :=
  ∀ a b, a.Alike left right b → EndAlike left right related (first a) (second b)

end Eval

/-- The evaluators keep step on tasks that are alike. -/
def Evaluator.KeepStep (left right : Setting) (first second : Evaluator) : Prop :=
  ∀ leftTask rightTask, Task.Alike left right leftTask rightTask →
    Eval.KeepStep left right (Value.Alike left right) (first leftTask) (second rightTask)

namespace Eval

section Combinators

variable {α β γ δ : Type} {left right : Setting} {related : α → β → Prop}

/-- Related results keep step. -/
theorem keepStep_pure {a : α} {b : β} (both : related a b) :
    KeepStep left right related (pure a) (pure b) :=
  fun _ _ states => .ok both states

/-- The same stop on both sides keeps step. -/
theorem keepStep_throw (stop : Stop) : KeepStep left right related (throw stop) (throw stop) :=
  fun _ _ states => .error stop states

/-- The same failure on both sides keeps step. -/
theorem keepStep_fail (failure : Failure) :
    KeepStep left right related (fail failure) (fail failure) :=
  keepStep_throw (.failure failure)

/-- Evaluations that keep step, and continue to, keep step. -/
theorem KeepStep.bind {after : γ → δ → Prop} {first : Eval α} {second : Eval β}
    {leftNext : α → Eval γ} {rightNext : β → Eval δ}
    (start : KeepStep left right related first second)
    (next : ∀ a b, related a b → KeepStep left right after (leftNext a) (rightNext b)) :
    KeepStep left right after (first >>= leftNext) (second >>= rightNext) := by
  intro a b states
  change EndAlike left right after (EStateM.bind first leftNext a) (EStateM.bind second rightNext b)
  have ended := start a b states
  unfold EStateM.bind
  generalize first a = leftEnd at ended ⊢
  generalize second b = rightEnd at ended ⊢
  cases ended with
  | ok both states => exact next _ _ both _ _ states
  | error stop states => exact .error stop states

/-- Results that end alike keep step. -/
theorem keepStep_ofResult {first : Except Failure α} {second : Except Failure β}
    (both : BothEnd related first second) :
    KeepStep left right related (ofResult first) (ofResult second) := by
  cases both with
  | ok both => exact keepStep_pure both
  | error same => exact same ▸ keepStep_fail _
  | lost allowed _ => exact allowed.elim

/-- The same result on both sides keeps step. -/
theorem keepStep_ofResult_self (result : Except Failure α) :
    KeepStep left right Eq (ofResult result) (ofResult result) :=
  keepStep_ofResult (.of_self fun _ _ => rfl)

/-- What is known to exist keeps step. -/
theorem keepStep_existing {first : Option α} {second : Option β} {a : α} {b : β}
    (leftFound : first = some a) (rightFound : second = some b) :
    KeepStep left right (fun x y => x = a ∧ y = b) (existing first) (existing second) := by
  rw [leftFound, rightFound]
  exact keepStep_pure ⟨rfl, rfl⟩

/-- Readings of stores that end alike keep step. -/
theorem keepStep_query {leftStop rightStop : ScopeError → Stop} (stops : leftStop = rightStop)
    {leftRead : Store → Except ScopeError α} {rightRead : Store → Except ScopeError β}
    (reads : ∀ a b, a.Alike left right b → BothEnd related (leftRead a) (rightRead b)) :
    KeepStep left right related (query leftStop leftRead) (query rightStop rightRead) := by
  intro a b states
  have ended := reads _ _ states.scopes
  unfold query
  rw [stops]
  generalize leftRead a.scopes = leftEnd at ended ⊢
  generalize rightRead b.scopes = rightEnd at ended ⊢
  cases ended with
  | ok both => exact .ok both states
  | error same => exact same ▸ .error _ states
  | lost allowed _ => exact allowed.elim

/-- Changes of stores that end alike keep step. -/
theorem keepStep_update {leftStop rightStop : ScopeError → Stop} (stops : leftStop = rightStop)
    {leftWrite rightWrite : Store → Except ScopeError Store}
    (writes : ∀ a b, a.Alike left right b →
      BothEnd (Store.Alike left right) (leftWrite a) (rightWrite b)) :
    KeepStep left right Eq (update leftStop leftWrite) (update rightStop rightWrite) := by
  intro a b states
  have ended := writes _ _ states.scopes
  unfold update
  rw [stops]
  generalize leftWrite a.scopes = leftEnd at ended ⊢
  generalize rightWrite b.scopes = rightEnd at ended ⊢
  cases ended with
  | ok both => exact .ok rfl ⟨both, states.output⟩
  | error same => exact same ▸ .error _ states
  | lost allowed _ => exact allowed.elim

/-- Allocations inside the same scope keep step, and give the same handle. -/
theorem keepStep_allocate (parent : Option Handle) :
    KeepStep left right Eq (allocate parent) (allocate parent) := by
  intro a b states
  obtain ⟨handles, stores⟩ := states.scopes.allocate parent SymbolMap.alike_empty
  exact .ok handles ⟨stores, states.output⟩

/-- The stores that are read are alike. -/
theorem keepStep_scopes : KeepStep left right (Store.Alike left right) scopes scopes :=
  fun _ _ states => .ok states.scopes states

/-- The same change of the printed text keeps step. -/
theorem keepStep_write (print : Sink → Sink) :
    KeepStep left right Eq (write print) (write print) :=
  fun _ _ states => .ok rfl ⟨states.scopes, congrArg print states.output⟩

/-- Giving failures the same span keeps step. -/
theorem KeepStep.located {first : Eval α} {second : Eval β}
    (keeps : KeepStep left right related first second) (span : Span) :
    KeepStep left right related (first.located span) (second.located span) := by
  intro a b states
  have ended := keeps a b states
  unfold Eval.located
  generalize first a = leftEnd at ended ⊢
  generalize second b = rightEnd at ended ⊢
  cases ended with
  | ok both states => exact .ok both states
  | error stop states => cases stop <;> exact .error _ states

/-- Evaluations for each member of related lists keep step. -/
theorem keepStep_each {after : γ → δ → Prop} {first : α → Eval γ} {second : β → Eval δ}
    {lefts : List α} {rights : List β} (items : List.Forall₂ related lefts rights)
    (keeps : ∀ a b, related a b → KeepStep left right after (first a) (second b)) :
    KeepStep left right (List.Forall₂ after) (each first lefts) (each second rights) := by
  induction items with
  | nil => exact keepStep_pure .nil
  | cons item _ ih =>
    refine (keeps _ _ item).bind fun a b both => ?_
    refine ih.bind fun lefts rights all => keepStep_pure ?_
    exact .cons both all

/-- Evaluations one after the other keep step. -/
theorem keepStep_last {after : γ → δ → Prop} {first : α → Eval γ} {second : β → Eval δ}
    {lefts : List α} {rights : List β} (items : List.Forall₂ related lefts rights)
    (keeps : ∀ a b, related a b → KeepStep left right after (first a) (second b)) {c : γ} {d : δ}
    (given : after c d) :
    KeepStep left right after (last first c lefts) (last second d rights) := by
  induction items generalizing c d with
  | nil => exact keepStep_pure given
  | cons item _ ih => exact (keeps _ _ item).bind fun _ _ both => ih both

end Combinators

end Eval

variable {left right : Setting} (comparable : left.Comparable right)

/-- Failed operations on scopes of corresponding names lead to the same stop. -/
theorem Setting.SameName.scopeStop_eq {a b : Symbol} (same : left.SameName right a b) :
    left.scopeStop a = right.scopeStop b := by
  funext error
  cases error <;> simp only [scopeStop, same.text_eq]

/-- Failed assignments to corresponding names lead to the same stop. -/
theorem Setting.SameName.assignStop_eq {a b : Symbol} (same : left.SameName right a b) :
    left.assignStop a = right.assignStop b := by
  funext error
  cases error <;> simp only [assignStop, same.text_eq]

section References

include comparable

/-- Variables that are alike hold values that are alike. -/
theorem Setting.bothEnd_stored {a b : Store} (stores : a.Alike left right b) {x y : Location}
    (target : x.Alike left right y) :
    BothEnd (Value.Alike left right) (left.stored a x) (right.stored b y) := by
  have read := stores.getOwn comparable target.name x.scope
  unfold stored
  rw [← target.scope, target.name.text_eq]
  generalize a.getOwn x.scope x.name = leftRead at read ⊢
  generalize b.getOwn x.scope y.name = rightRead at read ⊢
  cases read with
  | ok found => exact optionRel_elim found (.error rfl) fun _ _ both => .ok both
  | error same => exact .error rfl
  | lost allowed _ => exact allowed.elim

/-- Chains of references from values that are alike end alike. -/
theorem Setting.bothEnd_follow {a b : Store} (stores : a.Alike left right b) (hops : Nat)
    {x y : Value} (values : Value.Alike left right x y) :
    BothEnd (Value.Alike left right) (left.follow a hops x) (right.follow b hops y) := by
  induction hops generalizing x y with
  | zero =>
    have same := values
    cases values with
    | reference both => exact .error (by rw [comparable.maxHops])
    | _ => exact .ok same
  | succ hops ih =>
    have same := values
    cases values with
    | reference target =>
      refine (bothEnd_stored comparable stores target).bind ?_
      exact fun leftNext rightNext next => ih next
    | _ => exact .ok same

/-- Chains of references from variables that are alike end in variables that are alike. -/
theorem Setting.bothEnd_followLocation {a b : Store} (stores : a.Alike left right b) (hops : Nat)
    {x y : Location} (target : x.Alike left right y) :
    BothEnd (Location.Alike left right) (left.followLocation a hops x)
      (right.followLocation b hops y) := by
  induction hops generalizing x y with
  | zero => exact .error (by rw [comparable.maxHops])
  | succ hops ih =>
    unfold followLocation
    refine (bothEnd_stored comparable stores target).bind fun leftNext rightNext next => ?_
    cases next with
    | reference both => exact ih both
    | _ => exact .ok target

namespace Eval

variable {a b : Symbol} (same : left.SameName right a b) (scope : Handle)

/-- Following references from values that are alike keeps step. -/
theorem keepStep_resolve {x y : Value} (values : Value.Alike left right x y) :
    KeepStep left right (Value.Alike left right) (resolve left x) (resolve right y) := by
  refine keepStep_scopes.bind fun leftStore rightStore stores => keepStep_ofResult ?_
  rw [Setting.resolve, Setting.resolve, comparable.maxHops]
  exact Setting.bothEnd_follow comparable stores _ values

include same

/-- Binding corresponding names to values that are alike keeps step. -/
theorem keepStep_declare {x y : Value} (values : Value.Alike left right x y) :
    KeepStep left right Eq (declare left scope a x) (declare right scope b y) :=
  keepStep_update same.scopeStop_eq fun _ _ stores => stores.set comparable same scope values

/-- Reading corresponding names keeps step. -/
theorem keepStep_readRaw :
    KeepStep left right (Value.Alike left right) (readRaw left scope a) (readRaw right scope b) :=
  keepStep_query same.scopeStop_eq fun _ _ stores => stores.get comparable same scope

/-- Reading corresponding names and following references keeps step. -/
theorem keepStep_readName :
    KeepStep left right (Value.Alike left right) (readName left scope a)
      (readName right scope b) := by
  refine (keepStep_readRaw comparable same scope).bind fun _ _ values => ?_
  exact keepStep_resolve comparable values

/-- Referring to corresponding names keeps step. -/
theorem keepStep_referTo :
    KeepStep left right (Value.Alike left right) (referTo left scope a) (referTo right scope b) := by
  have located : KeepStep left right (Location.Alike left right)
      (query (left.scopeStop a) fun store => store.locate scope a)
      (query (right.scopeStop b) fun store => store.locate scope b) :=
    keepStep_query same.scopeStop_eq fun _ _ stores => stores.locate comparable same scope
  exact located.bind fun _ _ target => keepStep_pure (.reference target)

/-- Reading references from corresponding names keeps step. -/
theorem keepStep_heldReference :
    KeepStep left right (Location.Alike left right) (heldReference left scope a)
      (heldReference right scope b) := by
  refine (keepStep_readRaw comparable same scope).bind fun x y values => ?_
  rw [same.text_eq]
  cases values with
  | reference target => exact keepStep_pure target
  | _ => exact keepStep_fail _

/-- Reading classes from corresponding names keeps step. -/
theorem keepStep_readClass :
    KeepStep left right (ClassObject.Alike left right) (readClass left scope a)
      (readClass right scope b) := by
  refine (keepStep_readName comparable same scope).bind fun x y values => ?_
  cases values with
  | classObject owner => exact keepStep_pure owner
  | _ => exact keepStep_fail _

/-- Assigning values that are alike to corresponding names keeps step. -/
theorem keepStep_assign {x y : Value} (values : Value.Alike left right x y) :
    KeepStep left right Eq
      (update (left.assignStop a) fun store => store.assign scope a x)
      (update (right.assignStop b) fun store => store.assign scope b y) :=
  keepStep_update same.assignStop_eq fun _ _ stores => stores.assign comparable same scope values

omit same

/-- Writing values that are alike through references that are alike keeps step. -/
theorem keepStep_writeThrough {first second : Location} (references : first.Alike left right second)
    {x y : Value} (values : Value.Alike left right x y) :
    KeepStep left right Eq (writeThrough left first x) (writeThrough right second y) := by
  refine keepStep_scopes.bind fun leftStore rightStore stores => ?_
  have chain := Setting.bothEnd_followLocation comparable stores left.maxHops references
  have found : KeepStep left right (Location.Alike left right)
      (ofResult (left.resolveLocation leftStore first))
      (ofResult (right.resolveLocation rightStore second)) := by
    rw [Setting.resolveLocation, Setting.resolveLocation, ← comparable.maxHops]
    exact keepStep_ofResult chain
  refine found.bind fun leftEnd rightEnd target => ?_
  rw [target.scope]
  exact keepStep_declare comparable target.name rightEnd.scope values

end Eval

end References

end ScopeMachine
