import ScopeMachine.Evaluation.Step
import ScopeMachine.Proofs.Evaluation.Course
import ScopeMachine.Proofs.Evaluation.Outcome
import ScopeMachine.Proofs.Machine.Host

/-!
# Candid work

What an evaluation does by itself fails without a span: operators, references, scopes and native
functions know no span. Whatever stops an evaluation that it has asked for, it passes on as it is.
Work of this kind is candid. One step on a node is candid until its failures get the span of the
node.
-/

namespace ScopeMachine

/-- A failure with the wrong number of arguments has no span. -/
@[simp] theorem Failure.span_wrongArity (name : String) (expected got : Nat) :
    (Failure.wrongArity name expected got).span = none := by
  by_cases unnamed : name = "" <;> simp [Failure.wrongArity, unnamed, Failure.note, Failure.wrongKind]

/-- The failure of a result, if it is one, has no span. -/
def Spanless {α : Type} (result : Except Failure α) : Prop :=
  ∀ failure, result = .error failure → failure.span = none

section Results

variable {α β : Type}

/-- A result that is no failure has no span. -/
theorem spanless_ok (value : α) : Spanless (.ok value) := nofun

/-- A failure without a span is one. -/
theorem spanless_error {failure : Failure} (plain : failure.span = none) :
    Spanless (.error failure : Except Failure α) := by
  rintro _ ⟨⟩
  exact plain

/-- Results without spans follow one another. -/
theorem Spanless.bind {first : Except Failure α} {next : α → Except Failure β}
    (plain : Spanless first) (rest : ∀ value, Spanless (next value)) :
    Spanless (first >>= next) := by
  cases first with
  | ok value => exact rest value
  | error failure => exact spanless_error (plain failure rfl)

/-- Integers that do not fit fail without a span. -/
theorem spanless_checkedInt (operation : String) (exact : Int) :
    Spanless (checkedInt operation exact) := fun _ failed =>
  (BinaryOp.outcome_checkedInt operation exact).span_eq_none failed

/-- Operators fail without a span. -/
theorem spanless_apply (op : BinaryOp) (left right : Value) : Spanless (op.apply left right) :=
  fun _ failed => (op.outcome_apply left right).span_eq_none failed

/-- Conditions fail without a span. -/
theorem spanless_holds (value : Value) : Spanless value.holds := by
  cases value <;> first | exact spanless_ok _ | exact spanless_error rfl

/-- Indexing fails without a span. -/
theorem spanless_element (receiver position : Value) : Spanless (receiver.element position) := by
  unfold Value.element
  split
  · split
    · split
      · exact spanless_ok _
      · exact spanless_error rfl
    · exact spanless_error rfl
  · exact spanless_error rfl

/-- Annotations fail without a span. -/
theorem spanless_checkTag (name : String) (tag : Option TypeTag) (value : Value) :
    Spanless (checkTag name tag value) := by
  unfold checkTag
  split
  · exact spanless_ok _
  · split
    · exact spanless_ok _
    · exact spanless_error rfl

/-- Reading a variable fails without a span. -/
theorem Setting.spanless_stored (setting : Setting) (scopes : Store) (target : Location) :
    Spanless (setting.stored scopes target) := by
  unfold Setting.stored
  split
  · exact spanless_ok _
  · exact spanless_error rfl
  · exact spanless_error rfl

/-- Following references fails without a span. -/
theorem Setting.spanless_follow (setting : Setting) (scopes : Store) (hops : Nat) (value : Value) :
    Spanless (setting.follow scopes hops value) := by
  induction hops generalizing value with
  | zero => cases value <;> first | exact spanless_ok _ | exact spanless_error rfl
  | succ hops ih =>
    cases value with
    | reference target => exact (setting.spanless_stored scopes target).bind fun next => ih next
    | _ => exact spanless_ok _

/-- Following variables fails without a span. -/
theorem Setting.spanless_followLocation (setting : Setting) (scopes : Store) (hops : Nat)
    (target : Location) : Spanless (setting.followLocation scopes hops target) := by
  induction hops generalizing target with
  | zero => exact spanless_error rfl
  | succ hops ih =>
    refine (setting.spanless_stored scopes target).bind fun value => ?_
    cases value with
    | reference next => exact ih next
    | _ => exact spanless_ok _

end Results

namespace Eval

variable {α β : Type}

/-- What an evaluation fails with has no span. -/
def Unplaced (evaluation : Eval α) : Prop :=
  ∀ state failure final, evaluation state = .error (.failure failure) final → failure.span = none

section Own

/-- A result is no failure. -/
theorem unplaced_pure (value : α) : Unplaced (pure value) := nofun

/-- A failure without a span is unplaced. -/
theorem unplaced_fail {failure : Failure} (plain : failure.span = none) :
    Unplaced (fail failure : Eval α) := by
  rintro _ _ _ ⟨⟩
  exact plain

/-- Unplaced evaluations follow one another. -/
theorem Unplaced.bind {first : Eval α} {next : α → Eval β} (plain : Unplaced first)
    (rest : ∀ value, Unplaced (next value)) : Unplaced (first >>= next) := by
  intro state failure final failed
  cases begun : first state with
  | ok value middle =>
    rw [bind_of_ok begun] at failed
    exact rest value middle failure final failed
  | error stop middle =>
    rw [bind_of_error begun] at failed
    cases failed
    exact plain state failure final begun

/-- Results without spans are unplaced. -/
theorem unplaced_ofResult {result : Except Failure α} (plain : Spanless result) :
    Unplaced (ofResult result) := by
  cases result with
  | ok value => exact unplaced_pure value
  | error failure => exact unplaced_fail (plain failure rfl)

/-- What is missing is no failure of the program. -/
theorem unplaced_existing (found : Option α) : Unplaced (existing found) := by
  cases found <;> nofun

/-- Operations on scopes lead to failures without a span. -/
def PlainStop (stop : ScopeError → Stop) : Prop :=
  ∀ error failure, stop error = .failure failure → failure.span = none

/-- A failed reading of a name has no span. -/
theorem plainStop_scopeStop (setting : Setting) (name : Symbol) :
    PlainStop (setting.scopeStop name) := by
  rintro (_ | _ | _) _ ⟨⟩ <;> rfl

/-- A failed assignment to a name has no span. -/
theorem plainStop_assignStop (setting : Setting) (name : Symbol) :
    PlainStop (setting.assignStop name) := by
  rintro (_ | _ | _) _ ⟨⟩ <;> rfl

/-- Readings of the store are unplaced. -/
theorem unplaced_query {stop : ScopeError → Stop} (plain : PlainStop stop)
    (read : Store → Except ScopeError α) : Unplaced (query stop read) := by
  intro state failure final failed
  unfold query at failed
  split at failed
  · exact nomatch failed
  · exact plain _ failure (EStateM.Result.error.inj failed).1

/-- Changes of the store are unplaced. -/
theorem unplaced_update {stop : ScopeError → Stop} (plain : PlainStop stop)
    (write : Store → Except ScopeError Store) : Unplaced (update stop write) := by
  intro state failure final failed
  unfold update at failed
  split at failed
  · exact nomatch failed
  · exact plain _ failure (EStateM.Result.error.inj failed).1

/-- Opening a scope does not fail. -/
theorem unplaced_allocate (parent : Option Handle) : Unplaced (allocate parent) := nofun

/-- Looking at the scopes does not fail. -/
theorem unplaced_scopes : Unplaced scopes := nofun

/-- Printing does not fail. -/
theorem unplaced_write (print : Sink → Sink) : Unplaced (write print) := nofun

/-- Declarations are unplaced. -/
theorem unplaced_declare (setting : Setting) (scope : Handle) (name : Symbol) (value : Value) :
    Unplaced (declare setting scope name value) :=
  unplaced_update (plainStop_scopeStop setting name) _

/-- Following references is unplaced. -/
theorem unplaced_resolve (setting : Setting) (value : Value) : Unplaced (resolve setting value) :=
  unplaced_scopes.bind fun store =>
    unplaced_ofResult (setting.spanless_follow store setting.maxHops value)

/-- Reading a name is unplaced. -/
theorem unplaced_readName (setting : Setting) (scope : Handle) (name : Symbol) :
    Unplaced (readName setting scope name) :=
  (unplaced_query (plainStop_scopeStop setting name) _).bind fun value =>
    unplaced_resolve setting value

/-- Referring to a name is unplaced. -/
theorem unplaced_referTo (setting : Setting) (scope : Handle) (name : Symbol) :
    Unplaced (referTo setting scope name) :=
  (unplaced_query (plainStop_scopeStop setting name) _).bind fun _ => unplaced_pure _

/-- Reading the reference that a name holds is unplaced. -/
theorem unplaced_heldReference (setting : Setting) (scope : Handle) (name : Symbol) :
    Unplaced (heldReference setting scope name) := by
  refine (unplaced_query (plainStop_scopeStop setting name) _).bind fun value => ?_
  split
  · exact unplaced_pure _
  · exact unplaced_fail rfl

/-- Writing through references is unplaced. -/
theorem unplaced_writeThrough (setting : Setting) (first : Location) (value : Value) :
    Unplaced (writeThrough setting first value) :=
  unplaced_scopes.bind fun store =>
    (unplaced_ofResult (setting.spanless_followLocation store setting.maxHops first)).bind
      fun target => unplaced_declare setting target.scope target.name value

/-- Checking the number of arguments is unplaced. -/
theorem unplaced_checkArity (name : String) (expected got : Nat) :
    Unplaced (checkArity name expected got) := by
  unfold checkArity
  split
  · exact unplaced_pure _
  · exact unplaced_fail (Failure.span_wrongArity name expected got)

/-- Counting is unplaced. -/
theorem unplaced_callLen (args : List Value) : Unplaced (callLen args) := by
  unfold callLen
  split
  · exact unplaced_ofResult (spanless_checkedInt _ _)
  · exact unplaced_ofResult (spanless_checkedInt _ _)
  · exact unplaced_fail rfl
  · exact unplaced_fail (Failure.span_wrongArity _ _ _)

/-- Printing a value is unplaced. -/
theorem unplaced_callPrint (setting : Setting) (name : String) (print : Sink → String → Sink)
    (args : List Value) : Unplaced (callPrint setting name print args) := by
  unfold callPrint
  split
  · exact (unplaced_write _).bind fun _ => unplaced_pure _
  · exact unplaced_fail (Failure.span_wrongArity _ _ _)

/-- Reading a class is unplaced. -/
theorem unplaced_readClass (setting : Setting) (scope : Handle) (name : Symbol) :
    Unplaced (readClass setting scope name) := by
  refine (unplaced_readName setting scope name).bind fun value => ?_
  split
  · exact unplaced_pure _
  · exact unplaced_fail rfl

/-- Checking the number of fields is unplaced. -/
theorem unplaced_checkFieldCount (setting : Setting) (owner : ClassObject) (got : Nat) :
    Unplaced (checkFieldCount setting owner got) := by
  unfold checkFieldCount
  split
  · exact unplaced_fail rfl
  · exact unplaced_pure _

/-- Expecting an object is unplaced. -/
theorem unplaced_expectObject (value : Value) : Unplaced (expectObject value) := by
  unfold expectObject
  split
  · exact unplaced_pure _
  · exact unplaced_fail rfl

/-- Reading a field is unplaced. -/
theorem unplaced_readField (setting : Setting) (receiver : Object) (name : Symbol) :
    Unplaced (readField setting receiver name) := by
  refine (unplaced_query (plainStop_scopeStop setting name) _).bind fun found => ?_
  split
  · exact unplaced_resolve setting _
  · exact unplaced_fail rfl

/-- Finding a method is unplaced. -/
theorem unplaced_findMethod (setting : Setting) (receiver : Object) (name : Symbol) :
    Unplaced (findMethod setting receiver name) := by
  unfold findMethod
  split
  · exact unplaced_pure _
  · exact unplaced_fail rfl

end Own

/-- The asks are what the work needs; it passes their stops on and has failures with a span from
nowhere else. -/
structure Candour (work : Evaluator → Eval α) (evaluate : Evaluator) (state : State)
    (asks : List Ask) : Prop where
  /-- The asks are what the work needs. -/
  dialogue : Dialogue work evaluate state asks
  /-- A stop of an ask is the stop of the work. -/
  passes : ∀ ask ∈ asks, ∀ stop final, evaluate ask.task ask.start = .error stop final →
    work evaluate state = .error stop final
  /-- A failure of the work has no span, or an ask has failed with it. -/
  origin : ∀ failure final, work evaluate state = .error (.failure failure) final →
    failure.span = none ∨
      ∃ ask ∈ asks, evaluate ask.task ask.start = .error (.failure failure) final

/-- Whatever the evaluator of inner tasks, the work passes failures on as they are and fails by
itself without a span. -/
def Candid (work : Evaluator → Eval α) : Prop :=
  ∀ evaluate state, ∃ asks, Candour work evaluate state asks

section Combinators

/-- Work that asks nothing is candid if it is unplaced. -/
theorem candid_own {evaluation : Eval α} (plain : Unplaced evaluation) :
    Candid fun _ => evaluation :=
  fun _ state => ⟨[], .own evaluation, by simp,
    fun failure final failed => Or.inl (plain state failure final failed)⟩

/-- Work that passes on a task is candid. -/
theorem candid_ask (task : Task) : Candid fun evaluate => evaluate task := by
  refine fun evaluate state => ⟨[⟨task, state⟩], .ask task, ?_, ?_⟩
  · intro ask listed stop final stopped
    rw [List.mem_singleton.1 listed] at stopped
    exact stopped
  · exact fun failure final failed => Or.inr ⟨_, List.mem_singleton_self _, failed⟩

/-- Candid work follows one another. -/
theorem Candid.bind {first : Evaluator → Eval α} {next : α → Evaluator → Eval β}
    (opening : Candid first) (rest : ∀ value, Candid (next value)) :
    Candid fun evaluate => first evaluate >>= fun value => next value evaluate := by
  intro evaluate state
  obtain ⟨asks, candour⟩ := opening evaluate state
  cases begun : first evaluate state with
  | ok value middle =>
    obtain ⟨more, continued⟩ := rest value evaluate middle
    refine ⟨asks ++ more, candour.dialogue.bind_ok begun continued.dialogue, ?_, ?_⟩
    · intro ask listed stop final stopped
      rw [bind_of_ok begun]
      rcases List.mem_append.1 listed with early | late
      · have whole := candour.passes ask early stop final stopped
        rw [begun] at whole
        exact nomatch whole
      · exact continued.passes ask late stop final stopped
    · intro failure final failed
      rw [bind_of_ok begun] at failed
      rcases continued.origin failure final failed with plain | ⟨ask, listed, inner⟩
      · exact Or.inl plain
      · exact Or.inr ⟨ask, List.mem_append_right _ listed, inner⟩
  | error stop middle =>
    refine ⟨asks, candour.dialogue.bind_error begun, ?_, ?_⟩
    · intro ask listed inner final stopped
      have whole := candour.passes ask listed inner final stopped
      rw [begun] at whole
      cases whole
      exact bind_of_error begun
    · intro failure final failed
      rw [bind_of_error begun] at failed
      cases failed
      exact candour.origin failure _ begun

/-- Candid work for each member of a list is candid. -/
theorem candid_each {work : β → Evaluator → Eval α} (candid : ∀ item, Candid (work item))
    (items : List β) : Candid fun evaluate => each (fun item => work item evaluate) items := by
  induction items with
  | nil => exact candid_own (unplaced_pure [])
  | cons item items ih =>
    refine (candid item).bind fun result => ?_
    exact ih.bind fun results => candid_own (unplaced_pure _)

/-- Candid work of one member after the other is candid. -/
theorem candid_last {work : β → Evaluator → Eval α} (candid : ∀ item, Candid (work item))
    (result : α) (items : List β) :
    Candid fun evaluate => last (fun item => work item evaluate) result items := by
  induction items generalizing result with
  | nil => exact candid_own (unplaced_pure result)
  | cons item items ih => exact (candid item).bind fun next => ih next

end Combinators

section Operations

variable (setting : Setting) (reply : Reply)

/-- Calls of functions are candid. -/
theorem candid_callClosure (function : Closure) (args : List Value) :
    Candid fun evaluate => callClosure setting evaluate function args := by
  refine (candid_own (unplaced_checkArity _ _ _)).bind fun _ => ?_
  refine (candid_own unplaced_scopes).bind fun store => ?_
  split
  · refine (candid_own (unplaced_allocate _)).bind fun frame => ?_
    refine (candid_own (unplaced_update ?_ _)).bind fun _ => candid_ask _
    rintro _ _ ⟨⟩
    rfl
  · exact candid_own (unplaced_fail rfl)

/-- Calls on the elements of an array are candid. -/
theorem candid_callMap (args : List Value) :
    Candid fun evaluate => callMap (fun callee args => evaluate (.call callee args)) args := by
  unfold callMap
  split
  · split
    · split
      · refine (candid_each (fun item => candid_ask _) _).bind fun results => ?_
        exact candid_own (unplaced_pure _)
      · exact candid_own (unplaced_fail rfl)
    · exact candid_own (unplaced_fail rfl)
  · exact candid_own (unplaced_fail (Failure.span_wrongArity _ _ _))

/-- Calls of values are candid. -/
theorem candid_callAny (callee : Value) (args : List Value) :
    Candid fun evaluate => callAny setting (.quiet reply) evaluate callee args := by
  cases callee with
  | function function => exact candid_callClosure setting function args
  | native native =>
    obtain ⟨name, role⟩ := native
    cases role with
    | map => exact candid_callMap args
    | len => exact candid_own (unplaced_callLen args)
    | print => exact candid_own (unplaced_callPrint setting _ _ args)
    | println => exact candid_own (unplaced_callPrint setting _ _ args)
    | host entry => exact candid_own (unplaced_pure _)
  | _ => exact candid_own (unplaced_fail rfl)

/-- Filling fields is candid. -/
theorem candid_fillFields (owner : ClassObject) (storage : Handle) (fields : List FieldDecl)
    (values : List Value) :
    Candid fun evaluate => fillFields setting evaluate owner storage fields values := by
  induction fields generalizing values with
  | nil =>
    simp only [fillFields]
    exact candid_own (unplaced_pure ())
  | cons field fields ih =>
    cases values with
    | cons value values =>
      simp only [fillFields]
      refine (candid_own (unplaced_ofResult (spanless_checkTag _ _ _))).bind fun _ => ?_
      exact (candid_own (unplaced_declare setting storage field.name value)).bind fun _ => ih values
    | nil =>
      simp only [fillFields]
      have omitted : Candid fun evaluate => omittedField evaluate owner storage field := by
        unfold omittedField
        split
        · exact (candid_own (unplaced_allocate _)).bind fun scope => candid_ask _
        · exact candid_own (unplaced_pure _)
      refine omitted.bind fun value => ?_
      exact (candid_own (unplaced_declare setting storage field.name value)).bind fun _ => ih []

/-- Making an object is candid. -/
theorem candid_makeObject (owner : ClassObject) (values : List Value) :
    Candid fun evaluate => makeObject setting evaluate owner values := by
  refine (candid_own (unplaced_allocate _)).bind fun storage => ?_
  refine (candid_fillFields setting owner storage owner.fields values).bind fun _ => ?_
  exact (candid_own (unplaced_existing _)).bind fun code => candid_own (unplaced_pure _)

/-- Evaluating the arguments of a node is candid. -/
theorem candid_arguments (frame : Frame) (range : NodeRange) :
    Candid fun evaluate => arguments evaluate frame range :=
  candid_each (fun _ => candid_ask _) _

/-- One step on a node, before failures get a span, is candid. -/
theorem candid_stepKind (frame : Frame) (kind : NodeKind) :
    Candid fun evaluate => stepKind setting (.quiet reply) evaluate frame kind := by
  cases kind with
  | int value => exact candid_own (unplaced_pure _)
  | float bits => exact candid_own (unplaced_pure _)
  | bool value => exact candid_own (unplaced_pure _)
  | string text => exact candid_own (unplaced_pure _)
  | read name => exact candid_own (unplaced_readName setting frame.scope name)
  | binary op left right =>
    refine (candid_ask _).bind fun leftValue => (candid_ask _).bind fun rightValue => ?_
    exact candid_own (unplaced_ofResult (spanless_apply op leftValue rightValue))
  | branch condition thenBranch elseBranch =>
    refine (candid_ask _).bind fun value => ?_
    refine (candid_own (unplaced_ofResult (spanless_holds value))).bind fun chosen => ?_
    cases chosen with
    | true => exact candid_ask _
    | false =>
      cases elseBranch with
      | some elseBranch => exact candid_ask _
      | none => exact candid_own (unplaced_pure _)
  | block body =>
    refine (candid_own (unplaced_allocate _)).bind fun inner => ?_
    exact candid_last (fun id => candid_ask _) _ _
  | declare name tag value =>
    refine (candid_ask _).bind fun value => candid_own ?_
    refine (unplaced_ofResult (spanless_checkTag _ _ _)).bind fun _ => ?_
    exact (unplaced_declare setting frame.scope name value).bind fun _ => unplaced_pure _
  | assign name value =>
    refine (candid_ask _).bind fun value => candid_own ?_
    exact (unplaced_update (plainStop_assignStop setting name) _).bind fun _ => unplaced_pure _
  | function name params body =>
    exact candid_own ((unplaced_declare setting _ _ _).bind fun _ => unplaced_pure _)
  | call callee args =>
    refine (candid_own (unplaced_readName setting frame.scope callee)).bind fun callee => ?_
    split
    · refine (candid_arguments frame args).bind fun values => ?_
      exact candid_callAny setting reply callee values
    · exact candid_own (unplaced_fail rfl)
  | classDecl id =>
    refine candid_own ((unplaced_existing _).bind fun decl => ?_)
    exact (unplaced_declare setting _ _ _).bind fun _ => unplaced_pure _
  | construct owner args =>
    refine (candid_own (unplaced_readClass setting frame.scope owner)).bind fun owner => ?_
    refine (candid_own (unplaced_checkFieldCount setting owner _)).bind fun _ => ?_
    refine (candid_arguments frame args).bind fun values => ?_
    exact candid_makeObject setting owner values
  | methodCall receiver method args =>
    refine (candid_ask _).bind fun value => ?_
    refine (candid_own (unplaced_expectObject value)).bind fun receiver => ?_
    refine (candid_own (unplaced_findMethod setting receiver method)).bind fun method => ?_
    refine (candid_arguments frame args).bind fun values => ?_
    exact candid_callClosure setting method values
  | field receiver name =>
    refine (candid_ask _).bind fun value => candid_own ?_
    exact (unplaced_expectObject value).bind fun receiver => unplaced_readField setting receiver name
  | array elements =>
    exact (candid_arguments frame elements).bind fun values => candid_own (unplaced_pure _)
  | index receiver position =>
    refine (candid_ask _).bind fun receiver => (candid_ask _).bind fun position => ?_
    exact candid_own (unplaced_ofResult (spanless_element receiver position))
  | lambda param body => exact candid_own (unplaced_pure _)
  | reference name => exact candid_own (unplaced_referTo setting frame.scope name)
  | assignThrough name value =>
    refine (candid_own (unplaced_heldReference setting frame.scope name)).bind fun first => ?_
    refine (candid_ask _).bind fun value => candid_own ?_
    exact (unplaced_writeThrough setting first value).bind fun _ => unplaced_pure _

end Operations

end Eval

end ScopeMachine
