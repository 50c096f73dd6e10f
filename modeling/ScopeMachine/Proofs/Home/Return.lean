import ScopeMachine.Proofs.Home.Walk

/-!
# Walks come back

Only a call of a function and the default of a field enter another program, and both go back,
whatever happens in between. So a walk ends in the program that it started from, with a result or
with a stop, from every situation and for every host; and so do all walks inside it, which are walks
themselves.
-/

namespace ScopeMachine

namespace Walk

variable {α β : Type}

/-- Program that is current after a walk. -/
def currentAfter : EStateM.Result Stop Situation α → ProgramId
  | .ok _ ended => ended.current
  | .error _ ended => ended.current

/-- From every situation the walk ends in the program that it started from. -/
def Returns (walk : Walk α) : Prop :=
  ∀ situation, currentAfter (walk situation) = situation.current

section Combinators

/-- A result ends where it is. -/
theorem returns_pure (value : α) : Returns (pure value) := fun _ => rfl

/-- A stop ends where it is. -/
theorem returns_throw (stop : Stop) : Returns (throw stop : Walk α) := fun _ => rfl

/-- What needs no program enters none. -/
theorem returns_own (evaluation : Eval α) : Returns (own evaluation) := by
  intro situation
  unfold own
  cases evaluation situation.state <;> rfl

/-- Looking at the current program leaves it. -/
theorem returns_current : Returns current := fun _ => rfl

/-- Whatever happens inside another program, the walk goes back. -/
theorem returns_inside (program : ProgramId) (walk : Walk α) : Returns (inside program walk) := by
  intro situation
  unfold inside
  cases walk { situation with current := program } <;> rfl

/-- Walks that come back do so in sequence. -/
theorem Returns.bind {first : Walk α} {next : α → Walk β} (opening : Returns first)
    (rest : ∀ value, Returns (next value)) : Returns (first >>= next) := by
  intro situation
  have begun := opening situation
  change currentAfter (EStateM.bind first next situation) = _
  unfold EStateM.bind
  cases ended : first situation with
  | ok value middle =>
    rw [ended] at begun
    exact (rest value middle).trans begun
  | error stop middle =>
    rw [ended] at begun
    exact begun

/-- A choice between walks that come back comes back. -/
theorem returns_ite {condition : Prop} [Decidable condition] {first second : Walk α}
    (holds : Returns first) (fails : Returns second) :
    Returns (if condition then first else second) := by
  split
  · exact holds
  · exact fails

/-- Giving failures a span enters no program. -/
theorem Returns.located {walk : Walk α} (returns : Returns walk) (span : Span) :
    Returns (located span walk) := by
  intro situation
  have back := returns situation
  unfold Walk.located
  cases ended : walk situation with
  | ok value final =>
    rw [ended] at back
    exact back
  | error stop final =>
    rw [ended] at back
    cases stop <;> exact back

/-- Walks for each member of a list come back. -/
theorem returns_each {walk : β → Walk α} (returns : ∀ item, Returns (walk item)) (items : List β) :
    Returns (each walk items) := by
  induction items with
  | nil => exact returns_pure []
  | cons item items ih =>
    exact (returns item).bind fun result => ih.bind fun results => returns_pure _

/-- Walks one after the other come back. -/
theorem returns_last {walk : β → Walk α} (returns : ∀ item, Returns (walk item)) (result : α)
    (items : List β) : Returns (last walk result items) := by
  induction items generalizing result with
  | nil => exact returns_pure result
  | cons item items ih => exact (returns item).bind fun next => ih next

end Combinators

section Lookups

variable (setting : Setting)

/-- Looking up a child list enters no program. -/
theorem returns_nodes (range : NodeRange) : Returns (nodes setting range) :=
  (returns_current.bind fun _ => returns_own _).bind fun _ =>
    returns_ite (returns_pure _) (returns_throw _)

/-- Looking up a parameter list enters no program. -/
theorem returns_paramsOf (program : ProgramId) (range : ParamRange) :
    Returns (paramsOf setting program range) :=
  (returns_own _).bind fun _ => returns_ite (returns_pure _) (returns_throw _)

end Lookups

section Operations

variable {setting : Setting} {routines : Routines} {walker : Walker}
  (returns : ∀ stride, Returns (walker stride))
include returns

/-- Evaluating a child list comes back. -/
theorem returns_arguments (scope : Handle) (range : NodeRange) :
    Returns (arguments setting walker scope range) :=
  (returns_nodes setting range).bind fun ids => returns_each (fun _ => returns _) ids

omit returns in
/-- Calls of functions come back. -/
theorem returns_callClosure (function : Closure) (args : List Value) :
    Returns (callClosure setting walker function args) := by
  refine (returns_own _).bind fun _ => (returns_own _).bind fun store => ?_
  refine returns_ite ?_ (returns_own _)
  refine (returns_own _).bind fun frame => (returns_own _).bind fun _ => ?_
  exact returns_inside function.program _

/-- Calls on the elements of an array come back. -/
theorem returns_callMap (args : List Value) : Returns (callMap walker args) := by
  unfold callMap
  split
  · refine returns_ite ?_ (returns_own _)
    split
    · exact (returns_each (fun item => returns _) _).bind fun results => returns_pure _
    · exact returns_own _
  · exact returns_own _

/-- Whatever an entry of the host does, it comes back. -/
theorem returns_perform (routine : Routine) :
    Returns (routine.perform setting own fun callee args => walker (.call callee args)) := by
  induction routine with
  | answer value => exact returns_pure value
  | fail failure => exact returns_throw _
  | call callee args next ih =>
    intro situation
    have called := returns (.call callee args) situation
    simp only [Routine.perform, Routine.attempt]
    cases ended : walker (.call callee args) situation with
    | ok value final =>
      rw [ended] at called
      exact (ih (.ok value) final).trans called
    | error stop final =>
      rw [ended] at called
      cases stop with
      | failure failure => exact (ih (.error failure) final).trans called
      | missing => exact called
      | exhausted => exact called
  | resolve value next ih => exact (returns_own _).bind fun store => ih _
  | collect roots next ih => exact (returns_own _).bind fun occupancy => ih occupancy
  | look next ih => exact (returns_own _).bind fun state => ih state
  | print text next ih => exact (returns_own _).bind fun _ => ih

/-- Calls of values come back. -/
theorem returns_callAny (callee : Value) (args : List Value) :
    Returns (callAny setting routines walker callee args) := by
  cases callee with
  | function function => exact returns_callClosure function args
  | native native =>
    obtain ⟨name, role⟩ := native
    cases role with
    | map => exact returns_callMap returns args
    | len => exact returns_own _
    | print => exact returns_own _
    | println => exact returns_own _
    | host entry => exact returns_perform returns _
  | _ => exact returns_own (Eval.fail _)

omit returns in
/-- Filling fields comes back. -/
theorem returns_fillFields (owner : ClassObject) (storage : Handle) (fields : List FieldDecl)
    (values : List Value) : Returns (fillFields setting walker owner storage fields values) := by
  induction fields generalizing values with
  | nil =>
    rw [fillFields]
    exact returns_pure ()
  | cons field fields ih =>
    cases values with
    | cons value values =>
      rw [fillFields]
      exact (returns_own _).bind fun _ => (returns_own _).bind fun _ => ih values
    | nil =>
      rw [fillFields]
      have omitted : Returns (omittedField walker owner storage field) := by
        unfold omittedField
        split
        · exact (returns_own _).bind fun scope => returns_inside owner.program _
        · exact returns_pure _
      exact omitted.bind fun value => (returns_own _).bind fun _ => ih []

omit returns in
/-- Making an object comes back. -/
theorem returns_makeObject (owner : ClassObject) (values : List Value) :
    Returns (makeObject setting walker owner values) := by
  have methods : ∀ storage, Returns (bindMethods setting owner storage) := by
    intro storage
    refine (returns_each (fun entry => ?_) _).bind fun entries => returns_pure _
    exact (returns_paramsOf setting owner.program entry.2.params).bind fun params => returns_pure _
  refine (returns_own _).bind fun storage => ?_
  refine (returns_fillFields owner storage owner.fields values).bind fun _ => ?_
  exact (methods storage).bind fun bound => returns_pure _

/-- One step on a node comes back. -/
theorem returns_stepKind (scope : Handle) (kind : NodeKind) :
    Returns (stepKind setting routines walker scope kind) := by
  cases kind with
  | int value => exact returns_pure _
  | float bits => exact returns_pure _
  | bool value => exact returns_pure _
  | string text => exact returns_pure _
  | read name => exact returns_own _
  | binary op left right =>
    exact (returns _).bind fun left => (returns _).bind fun right => returns_own _
  | branch condition thenBranch elseBranch =>
    refine (returns _).bind fun value => (returns_own _).bind fun chosen => ?_
    refine returns_ite (returns _) ?_
    cases elseBranch with
    | some elseBranch => exact returns _
    | none => exact returns_pure _
  | block body =>
    refine (returns_own _).bind fun inner => (returns_nodes setting body).bind fun ids => ?_
    exact returns_last (fun id => returns _) _ ids
  | declare name tag value =>
    refine (returns _).bind fun value => (returns_own _).bind fun _ => ?_
    exact (returns_own _).bind fun _ => returns_pure _
  | assign name value =>
    exact (returns _).bind fun value => (returns_own _).bind fun _ => returns_pure _
  | function name params body =>
    refine returns_current.bind fun program => ?_
    refine (returns_paramsOf setting program params).bind fun names => ?_
    exact (returns_own _).bind fun _ => returns_pure _
  | call callee args =>
    refine (returns_own _).bind fun callee => returns_ite ?_ (returns_own _)
    exact (returns_arguments returns scope args).bind fun values => returns_callAny returns callee values
  | classDecl id =>
    refine returns_current.bind fun program => ?_
    refine (returns_current.bind fun _ => returns_own _).bind fun code => ?_
    exact (returns_own _).bind fun decl => (returns_own _).bind fun _ => returns_pure _
  | construct owner args =>
    refine (returns_own _).bind fun owner => (returns_own _).bind fun _ => ?_
    exact (returns_arguments returns scope args).bind fun values => returns_makeObject owner values
  | methodCall receiver method args =>
    refine (returns _).bind fun value => (returns_own _).bind fun receiver => ?_
    refine (returns_own _).bind fun method => ?_
    exact (returns_arguments returns scope args).bind fun values => returns_callClosure method values
  | field receiver name =>
    exact (returns _).bind fun value => (returns_own _).bind fun receiver => returns_own _
  | array elements =>
    exact (returns_arguments returns scope elements).bind fun values => returns_pure _
  | index receiver position =>
    exact (returns _).bind fun receiver => (returns _).bind fun position => returns_own _
  | lambda param body => exact returns_current.bind fun program => returns_pure _
  | reference name => exact returns_own _
  | assignThrough name value =>
    refine (returns_own _).bind fun first => (returns _).bind fun value => ?_
    exact (returns_own _).bind fun _ => returns_pure _

end Operations

/-- A walk ends in the program that it started from, however it ends. -/
theorem returns_run (setting : Setting) (routines : Routines) (depth : Nat) (stride : Stride) :
    Returns (run setting routines depth stride) := by
  induction depth generalizing stride with
  | zero => exact returns_throw _
  | succ depth ih =>
    cases stride with
    | node id scope =>
      refine (returns_current.bind fun _ => returns_own _).bind fun code => ?_
      exact (returns_own _).bind fun node => (returns_stepKind ih scope node.kind).located node.span
    | call callee args => exact returns_callAny ih callee args

end Walk

end ScopeMachine
