import ScopeMachine.Evaluation.Step
import ScopeMachine.Proofs.Machine.Routine

/-!
# Evaluation under two hop limits

The hop limit is read in two places only: where a value is read through references and where a
variable is written through them. Under a higher limit each of the two either ends as it did or had
stopped because the chain was too long. Since nothing in the language recovers from a failure, the
same holds of whole runs: an evaluation persists when, in every state, it stops because a chain is
too long or ends exactly as the other evaluation does.
-/

namespace ScopeMachine

/-- The setting with another hop limit. -/
def Setting.withHops (setting : Setting) (maxHops : Nat) : Setting := { setting with maxHops }

/-- The cause is a chain of references that is too long. -/
def Cause.IsChainTooLong (cause : Cause) : Prop := ∃ limit, cause = .chainTooLong limit

/-- The evaluation has stopped because a chain of references is too long. -/
def Stop.IsChainTooLong : Stop → Prop
  | .failure reason => reason.cause.IsChainTooLong
  | .missing | .exhausted => False

/-- The first result tells of a chain that is too long, or the second result is the same. -/
def ResultPersists {α : Type} (first second : Except Failure α) : Prop :=
  (∃ failure : Failure, first = .error failure ∧ failure.cause.IsChainTooLong) ∨ second = first

namespace Setting

variable (setting : Setting) (scopes : Store) {fewer more : Nat}

/-- A chain of references that ends within some hops ends alike within more hops. -/
theorem follow_persists {hops further : Nat} (within : hops ≤ further) (value : Value) :
    ResultPersists ((setting.withHops fewer).follow scopes hops value)
      ((setting.withHops more).follow scopes further value) := by
  induction hops generalizing further value with
  | zero =>
    cases value with
    | reference target => exact Or.inl ⟨_, rfl, fewer, rfl⟩
    | _ => cases further <;> exact Or.inr rfl
  | succ hops ih =>
    obtain ⟨rest, rfl⟩ : ∃ rest, further = rest + 1 := ⟨further - 1, by omega⟩
    cases value with
    | reference target =>
      have same : (setting.withHops more).stored scopes target =
          (setting.withHops fewer).stored scopes target := rfl
      simp only [follow, same]
      cases (setting.withHops fewer).stored scopes target with
      | error failure => exact Or.inr rfl
      | ok next => exact ih (Nat.le_of_succ_le_succ within) next
    | _ => exact Or.inr rfl

/-- A chain of variables that ends within some hops ends alike within more hops. -/
theorem followLocation_persists {hops further : Nat} (within : hops ≤ further)
    (target : Location) :
    ResultPersists ((setting.withHops fewer).followLocation scopes hops target)
      ((setting.withHops more).followLocation scopes further target) := by
  induction hops generalizing further target with
  | zero => exact Or.inl ⟨_, rfl, fewer, rfl⟩
  | succ hops ih =>
    obtain ⟨rest, rfl⟩ : ∃ rest, further = rest + 1 := ⟨further - 1, by omega⟩
    have same : (setting.withHops more).stored scopes target =
        (setting.withHops fewer).stored scopes target := rfl
    simp only [followLocation, same]
    cases (setting.withHops fewer).stored scopes target with
    | error failure => exact Or.inr rfl
    | ok value =>
      cases value with
      | reference next => exact ih (Nat.le_of_succ_le_succ within) next
      | _ => exact Or.inr rfl

end Setting

namespace Eval

/-- In every state the first evaluation stops because a chain is too long, or the second one ends
in the same way and leaves the same state. -/
def Persists {α : Type} (first second : Eval α) : Prop :=
  ∀ state, (∃ stop final, first state = .error stop final ∧ stop.IsChainTooLong) ∨
    second state = first state

section Combinators

variable {α β : Type}

/-- Every evaluation persists as itself. -/
theorem persists_refl (evaluation : Eval α) : Persists evaluation evaluation :=
  fun _ => Or.inr rfl

/-- Evaluations persist in sequence. -/
theorem Persists.bind {first second : Eval α} {next other : α → Eval β}
    (opening : Persists first second) (rest : ∀ value, Persists (next value) (other value)) :
    Persists (first >>= next) (second >>= other) := by
  intro state
  change (∃ stop final, EStateM.bind first next state = .error stop final ∧ _) ∨
    EStateM.bind second other state = EStateM.bind first next state
  unfold EStateM.bind
  rcases opening state with ⟨stop, final, stopped, tooLong⟩ | same
  · rw [stopped]
    exact Or.inl ⟨stop, final, rfl, tooLong⟩
  · rw [same]
    cases first state with
    | error stop final => exact Or.inr rfl
    | ok value final => exact rest value final

/-- Results that persist do so as evaluations. -/
theorem persists_ofResult {first second : Except Failure α} (persists : ResultPersists first second) :
    Persists (ofResult first) (ofResult second) := by
  rcases persists with ⟨failure, rfl, tooLong⟩ | rfl
  · exact fun state => Or.inl ⟨.failure failure, state, rfl, tooLong⟩
  · exact persists_refl _

/-- Giving failures a span changes no cause. -/
theorem Persists.located {first second : Eval α} (persists : Persists first second) (span : Span) :
    Persists (first.located span) (second.located span) := by
  intro state
  unfold Eval.located
  rcases persists state with ⟨stop, final, stopped, tooLong⟩ | same
  · left
    rw [stopped]
    cases stop with
    | failure failure =>
      have kept : (failure.locateOnce span).cause = failure.cause := by
        unfold Failure.locateOnce
        split <;> rfl
      refine ⟨_, final, rfl, ?_⟩
      rw [Stop.IsChainTooLong, kept]
      exact tooLong
    | missing => exact tooLong.elim
    | exhausted => exact tooLong.elim
  · right
    rw [same]

/-- Evaluations for each member of a list persist. -/
theorem persists_each {first second : β → Eval α}
    (persists : ∀ item, Persists (first item) (second item)) (items : List β) :
    Persists (each first items) (each second items) := by
  induction items with
  | nil => exact persists_refl _
  | cons item items ih =>
    refine (persists item).bind fun result => ?_
    exact ih.bind fun results => persists_refl _

/-- Evaluations one after the other persist. -/
theorem persists_last {first second : β → Eval α}
    (persists : ∀ item, Persists (first item) (second item)) (result : α) (items : List β) :
    Persists (last first result items) (last second result items) := by
  induction items generalizing result with
  | nil => exact persists_refl _
  | cons item items ih => exact (persists item).bind fun next => ih next

end Combinators

end Eval

/-- Every task persists. -/
def Evaluator.Persists (first second : Evaluator) : Prop :=
  ∀ task, Eval.Persists (first task) (second task)

/-- The entries of a host do not look at the hop limit and pass failures on. -/
structure Routines.PassOn (routines : Routines) : Prop where
  /-- The hop limit makes no difference. -/
  withHops : ∀ entry setting maxHops args,
    routines entry (setting.withHops maxHops) args = routines entry setting args
  /-- Failures are passed on. -/
  passesOn : ∀ entry setting args, (routines entry setting args).PassesOn

namespace Eval

variable {setting : Setting} {fewer more : Nat} (limits : fewer ≤ more)
include limits

section References

/-- Following references persists. -/
theorem persists_resolve (value : Value) :
    Persists (resolve (setting.withHops fewer) value) (resolve (setting.withHops more) value) :=
  (persists_refl scopes).bind fun store =>
    persists_ofResult (setting.follow_persists store limits value)

/-- Reading a name persists. -/
theorem persists_readName (scope : Handle) (name : Symbol) :
    Persists (readName (setting.withHops fewer) scope name)
      (readName (setting.withHops more) scope name) :=
  (persists_refl (readRaw setting scope name)).bind fun value => persists_resolve limits value

/-- Writing through references persists. -/
theorem persists_writeThrough (first : Location) (value : Value) :
    Persists (writeThrough (setting.withHops fewer) first value)
      (writeThrough (setting.withHops more) first value) := by
  refine (persists_refl scopes).bind fun store => ?_
  have chain : Persists (ofResult ((setting.withHops fewer).resolveLocation store first))
      (ofResult ((setting.withHops more).resolveLocation store first)) :=
    persists_ofResult (setting.followLocation_persists store limits first)
  exact chain.bind fun target => persists_refl (declare setting target.scope target.name value)

/-- Reading a class persists. -/
theorem persists_readClass (scope : Handle) (name : Symbol) :
    Persists (readClass (setting.withHops fewer) scope name)
      (readClass (setting.withHops more) scope name) :=
  (persists_readName limits scope name).bind fun _ => persists_refl _

/-- Reading a field persists. -/
theorem persists_readField (receiver : Object) (name : Symbol) :
    Persists (readField (setting.withHops fewer) receiver name)
      (readField (setting.withHops more) receiver name) := by
  refine (persists_refl (query (setting.scopeStop name) fun store =>
    store.getOwn receiver.storage name)).bind fun found => ?_
  cases found with
  | none => exact persists_refl _
  | some value => exact persists_resolve limits value

end References

section Calls

variable {first second : Evaluator} (evaluators : Evaluator.Persists first second)
include evaluators

omit limits in
/-- Calls of functions persist. -/
theorem persists_callClosure (function : Closure) (args : List Value) :
    Persists (callClosure (setting.withHops fewer) first function args)
      (callClosure (setting.withHops more) second function args) := by
  refine (persists_refl (checkArity (closureName setting function) function.arity
    args.length)).bind fun _ => ?_
  refine (persists_refl scopes).bind fun store => ?_
  split
  · refine (persists_refl (allocate (some function.scope))).bind fun frame => ?_
    exact (persists_refl _).bind fun _ => evaluators _
  · exact persists_refl _

omit limits in
/-- Calls on the elements of an array persist. -/
theorem persists_callMap (args : List Value) :
    Persists (callMap (fun callee args => first (.call callee args)) args)
      (callMap (fun callee args => second (.call callee args)) args) := by
  unfold callMap
  split
  · split
    · split
      · refine (persists_each (fun item => evaluators _) _).bind fun results => ?_
        exact persists_refl _
      · exact persists_refl _
    · exact persists_refl _
  · exact persists_refl _

/-- A routine that passes failures on persists. -/
theorem persists_perform {routine : Routine} (passes : routine.PassesOn) :
    Persists
      (routine.perform (setting.withHops fewer) (fun evaluation => evaluation)
        fun callee args => first (.call callee args))
      (routine.perform (setting.withHops more) (fun evaluation => evaluation)
        fun callee args => second (.call callee args)) := by
  induction routine with
  | answer value => exact persists_refl _
  | fail failure => exact persists_refl _
  | call callee args next ih =>
    intro state
    simp only [Routine.perform, Routine.attempt]
    rcases evaluators (.call callee args) state with ⟨stop, final, stopped, tooLong⟩ | same
    · cases stop with
      | failure failure =>
        rw [stopped]
        simp only [passes.1 failure]
        exact Or.inl ⟨.failure failure, final, rfl, tooLong⟩
      | missing => exact tooLong.elim
      | exhausted => exact tooLong.elim
    · rw [same]
      cases first (.call callee args) state with
      | ok value final => exact ih (.ok value) (passes.2 value) final
      | error stop final =>
        cases stop with
        | failure failure =>
          simp only [passes.1 failure]
          exact Or.inr rfl
        | missing => exact Or.inr rfl
        | exhausted => exact Or.inr rfl
  | resolve value next ih =>
    refine (persists_refl scopes).bind fun store => ?_
    have chain : ResultPersists ((setting.withHops fewer).resolve store value)
        ((setting.withHops more).resolve store value) :=
      setting.follow_persists store limits value
    rcases chain with ⟨failure, stopped, tooLong⟩ | same
    · rw [stopped, passes.1 failure]
      exact fun state => Or.inl ⟨.failure failure, state, rfl, tooLong⟩
    · rw [same]
      cases (setting.withHops fewer).resolve store value with
      | ok found => exact ih (.ok found) (passes.2 found)
      | error failure =>
        rw [passes.1 failure]
        exact persists_refl _
  | collect roots next ih =>
    exact (persists_refl (Eval.collect setting roots)).bind fun occupancy =>
      ih occupancy (passes occupancy)
  | look next ih =>
    exact (persists_refl _).bind fun state => ih state (passes state)
  | print text next ih => exact (persists_refl _).bind fun _ => ih passes

variable {routines : Routines} (passOn : routines.PassOn)
include passOn

/-- Calls of native functions persist. -/
theorem persists_callNative (role : NativeRole) (args : List Value) :
    Persists
      (callNative (setting.withHops fewer) (.ofRoutines routines)
        (fun callee args => first (.call callee args)) role args)
      (callNative (setting.withHops more) (.ofRoutines routines)
        (fun callee args => second (.call callee args)) role args) := by
  cases role with
  | map => exact persists_callMap evaluators args
  | len => exact persists_refl _
  | print => exact persists_refl _
  | println => exact persists_refl _
  | host entry =>
    simp only [callNative, Host.ofRoutines, passOn.withHops]
    exact persists_perform limits evaluators (passOn.passesOn entry setting args)

/-- Calls of values persist. -/
theorem persists_callAny (callee : Value) (args : List Value) :
    Persists (callAny (setting.withHops fewer) (.ofRoutines routines) first callee args)
      (callAny (setting.withHops more) (.ofRoutines routines) second callee args) := by
  cases callee with
  | function function => exact persists_callClosure evaluators function args
  | native native => exact persists_callNative limits evaluators passOn native.role args
  | _ => exact persists_refl _

end Calls

section Objects

variable {first second : Evaluator} (evaluators : Evaluator.Persists first second)
include evaluators

omit limits in
/-- The value of an omitted field persists. -/
theorem persists_omittedField (owner : ClassObject) (storage : Handle) (field : FieldDecl) :
    Persists (omittedField first owner storage field)
      (omittedField second owner storage field) := by
  unfold omittedField
  split
  · exact (persists_refl (allocate (some storage))).bind fun scope => evaluators _
  · exact persists_refl _

omit limits in
/-- Filling fields persists. -/
theorem persists_fillFields (owner : ClassObject) (storage : Handle) (fields : List FieldDecl)
    (values : List Value) :
    Persists (fillFields (setting.withHops fewer) first owner storage fields values)
      (fillFields (setting.withHops more) second owner storage fields values) := by
  induction fields generalizing values with
  | nil =>
    rw [fillFields, fillFields]
    exact persists_refl _
  | cons field fields ih =>
    cases values with
    | nil =>
      rw [fillFields, fillFields]
      refine (persists_omittedField evaluators owner storage field).bind fun value => ?_
      exact (persists_refl (declare setting storage field.name value)).bind fun _ => ih []
    | cons value values =>
      rw [fillFields, fillFields]
      refine (persists_refl (ofResult (checkTag (setting.text field.name) field.tag
        value))).bind fun _ => ?_
      exact (persists_refl (declare setting storage field.name value)).bind fun _ => ih values

omit limits in
/-- Making an object persists. -/
theorem persists_makeObject (owner : ClassObject) (values : List Value) :
    Persists (makeObject (setting.withHops fewer) first owner values)
      (makeObject (setting.withHops more) second owner values) := by
  refine (persists_refl (allocate (some owner.scope))).bind fun storage => ?_
  refine (persists_fillFields evaluators owner storage owner.fields values).bind fun _ => ?_
  exact persists_refl _

end Objects

section Step

variable {first second : Evaluator} (evaluators : Evaluator.Persists first second)
  {routines : Routines} (passOn : routines.PassOn)
include evaluators

omit limits in
/-- Evaluating the arguments of a node persists. -/
theorem persists_arguments (frame : Frame) (range : NodeRange) :
    Persists (arguments first frame range) (arguments second frame range) :=
  persists_each (fun _ => evaluators _) _

include passOn

/-- One step on a node persists. -/
theorem persists_stepKind (frame : Frame) (kind : NodeKind) :
    Persists (stepKind (setting.withHops fewer) (.ofRoutines routines) first frame kind)
      (stepKind (setting.withHops more) (.ofRoutines routines) second frame kind) := by
  cases kind with
  | int value => exact persists_refl _
  | float bits => exact persists_refl _
  | bool value => exact persists_refl _
  | string text => exact persists_refl _
  | read name => exact persists_readName limits frame.scope name
  | binary op left right =>
    refine (evaluators _).bind fun leftValue => ?_
    exact (evaluators _).bind fun rightValue => persists_refl _
  | branch condition thenBranch elseBranch =>
    refine (evaluators _).bind fun value => ?_
    refine (persists_refl (ofResult value.holds)).bind fun chosen => ?_
    cases chosen with
    | true => exact evaluators _
    | false =>
      cases elseBranch with
      | some elseBranch => exact evaluators _
      | none => exact persists_refl _
  | block body =>
    refine (persists_refl (allocate (some frame.scope))).bind fun inner => ?_
    exact persists_last (fun id => evaluators _) _ _
  | declare name tag value => exact (evaluators _).bind fun _ => persists_refl _
  | assign name value => exact (evaluators _).bind fun _ => persists_refl _
  | function name params body => exact persists_refl _
  | call callee args =>
    refine (persists_readName limits frame.scope callee).bind fun callee => ?_
    split
    · refine (persists_arguments evaluators frame args).bind fun values => ?_
      exact persists_callAny limits evaluators passOn callee values
    · exact persists_refl _
  | classDecl id => exact persists_refl _
  | construct owner args =>
    refine (persists_readClass limits frame.scope owner).bind fun owner => ?_
    refine (persists_refl (checkFieldCount setting owner args.length)).bind fun _ => ?_
    refine (persists_arguments evaluators frame args).bind fun values => ?_
    exact persists_makeObject evaluators owner values
  | methodCall receiver method args =>
    refine (evaluators _).bind fun value => ?_
    refine (persists_refl (expectObject value)).bind fun receiver => ?_
    refine (persists_refl (findMethod setting receiver method)).bind fun method => ?_
    refine (persists_arguments evaluators frame args).bind fun values => ?_
    exact persists_callClosure evaluators method values
  | field receiver name =>
    refine (evaluators _).bind fun value => ?_
    refine (persists_refl (expectObject value)).bind fun receiver => ?_
    exact persists_readField limits receiver name
  | array elements =>
    exact (persists_arguments evaluators frame elements).bind fun values => persists_refl _
  | index receiver position =>
    refine (evaluators _).bind fun receiverValue => ?_
    exact (evaluators _).bind fun positionValue => persists_refl _
  | lambda param body => exact persists_refl _
  | reference name => exact persists_refl _
  | assignThrough name value =>
    refine (persists_refl (heldReference setting frame.scope name)).bind fun target => ?_
    refine (evaluators _).bind fun value => ?_
    exact (persists_writeThrough limits target value).bind fun _ => persists_refl _

/-- One step on a task persists. -/
theorem persists_step :
    Evaluator.Persists (step (setting.withHops fewer) (.ofRoutines routines) first)
      (step (setting.withHops more) (.ofRoutines routines) second) := by
  intro task
  cases task with
  | node program id scope =>
    refine (persists_refl (existing (setting.program? program))).bind fun code => ?_
    refine (persists_refl (existing (code.node? id))).bind fun node => ?_
    exact (persists_stepKind limits evaluators passOn _ node.kind).located node.span
  | call callee args => exact persists_callAny limits evaluators passOn callee args

omit evaluators in
/-- Runs persist at every depth. -/
theorem persists_run (depth : Nat) :
    Evaluator.Persists (run (setting.withHops fewer) (.ofRoutines routines) depth)
      (run (setting.withHops more) (.ofRoutines routines) depth) := by
  induction depth with
  | zero => exact fun _ => persists_refl _
  | succ depth ih => exact persists_step limits ih passOn

end Step

end Eval

end ScopeMachine
