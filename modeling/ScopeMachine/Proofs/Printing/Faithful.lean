import ScopeMachine.Proofs.Printing.Telling

/-!
# Sinks are written only

An evaluation that tells stands for the evaluations that print, one for every sink: each of them goes
through the same scopes, ends in the same way, and has the text of all that has been told printed
after what its sink had at the beginning. This holds for every operation of an evaluation if it does
for the evaluations of inner tasks, and by induction on the depth for whole runs.
-/

namespace ScopeMachine

namespace Sink

/-- Printing nothing changes nothing. -/
@[simp] theorem print_empty (sink : Sink) : sink.print "" = sink := by
  cases sink <;> simp [print]

/-- Printing one text after another is printing both as one. -/
@[simp] theorem print_print (sink : Sink) (first second : String) :
    (sink.print first).print second = sink.print (first ++ second) := by
  cases sink <;> simp [print, String.append_assoc]

end Sink

namespace Ledger

/-- What is told next is printed next. -/
theorem text_concat (symbols : SymbolTable) (scopes : Store) (told : List Utterance)
    (utterance : Utterance) :
    (Ledger.mk scopes (told ++ [utterance])).text symbols =
      (Ledger.mk scopes told).text symbols ++ utterance.text symbols := by
  simp [text, String.join]

/-- State with the scopes of a ledger, in which all that it has told has been printed into a sink. -/
def state (symbols : SymbolTable) (sink : Sink) (ledger : Ledger) : State :=
  ⟨ledger.scopes, sink.print (ledger.text symbols)⟩

end Ledger

namespace Eval

variable {α β : Type}

/-- The evaluation is the same whatever the sink is, and leaves the sink alone. -/
def Mute (evaluation : Eval α) : Prop :=
  ∀ scopes sink, evaluation ⟨scopes, sink⟩ =
    Telling.mapState (fun state => ⟨state.scopes, sink⟩) (evaluation ⟨scopes, .silent⟩)

section Combinators

/-- Giving a result is mute. -/
theorem mute_pure (value : α) : Mute (pure value) := fun _ _ => rfl

/-- Stopping is mute. -/
theorem mute_throw (stop : Stop) : Mute (throw stop : Eval α) := fun _ _ => rfl

/-- One mute evaluation after another is mute. -/
theorem Mute.bind {first : Eval α} {next : α → Eval β} (mute : first.Mute)
    (rest : ∀ value, (next value).Mute) : (first >>= next).Mute := by
  intro scopes sink
  change EStateM.bind first next _ = Telling.mapState _ (EStateM.bind first next _)
  rw [EStateM.bind, EStateM.bind, mute scopes sink]
  cases first ⟨scopes, .silent⟩ with
  | error stop middle => rfl
  | ok value middle =>
    simp only [Telling.mapState]
    rw [rest value middle.scopes sink, rest value middle.scopes middle.output]
    cases next value ⟨middle.scopes, .silent⟩ <;> rfl

/-- Continuing with a result is mute. -/
theorem mute_ofResult (result : Except Failure α) : Mute (ofResult result) := by
  cases result with
  | ok value => exact mute_pure value
  | error failure => exact mute_throw _

/-- Continuing with what exists is mute. -/
theorem mute_existing (found : Option α) : Mute (existing found) := by
  cases found with
  | some value => exact mute_pure value
  | none => exact mute_throw _

/-- Reading the store is mute. -/
theorem mute_query (stop : ScopeError → Stop) (read : Store → Except ScopeError α) :
    Mute (query stop read) := by
  intro scopes sink
  unfold query
  cases read scopes <;> rfl

/-- Changing the store is mute. -/
theorem mute_update (stop : ScopeError → Stop) (write : Store → Except ScopeError Store) :
    Mute (update stop write) := by
  intro scopes sink
  unfold update
  cases write scopes <;> rfl

/-- Allocating a scope is mute. -/
theorem mute_allocate (parent : Option Handle) : Mute (allocate parent) := fun _ _ => rfl

/-- Reading all scopes is mute. -/
theorem mute_scopes : Mute scopes := fun _ _ => rfl

end Combinators

section Operations

variable (setting : Setting)

/-- Binding a name is mute. -/
theorem mute_declare (scope : Handle) (name : Symbol) (value : Value) :
    Mute (declare setting scope name value) :=
  mute_update _ _

/-- Following references is mute. -/
theorem mute_resolve (value : Value) : Mute (resolve setting value) :=
  mute_scopes.bind fun _ => mute_ofResult _

/-- Reading a name is mute. -/
theorem mute_readName (scope : Handle) (name : Symbol) : Mute (readName setting scope name) :=
  (mute_query _ _).bind fun value => mute_resolve setting value

/-- Referring to a variable is mute. -/
theorem mute_referTo (scope : Handle) (name : Symbol) : Mute (referTo setting scope name) :=
  (mute_query _ _).bind fun _ => mute_pure _

/-- Reading a reference is mute. -/
theorem mute_heldReference (scope : Handle) (name : Symbol) :
    Mute (heldReference setting scope name) := by
  apply (mute_query _ _).bind
  intro value
  cases value with
  | reference target => exact mute_pure target
  | _ => exact mute_throw _

/-- Writing through references is mute. -/
theorem mute_writeThrough (first : Location) (value : Value) :
    Mute (writeThrough setting first value) := by
  apply mute_scopes.bind
  intro store
  exact (mute_ofResult _).bind fun target => mute_declare setting target.scope target.name value

/-- Checking the number of arguments is mute. -/
theorem mute_checkArity (name : String) (expected got : Nat) :
    Mute (checkArity name expected got) := by
  unfold checkArity
  split
  · exact mute_pure ()
  · exact mute_throw _

/-- Counting elements is mute. -/
theorem mute_callLen (args : List Value) : Mute (callLen args) := by
  unfold callLen
  split
  · exact mute_ofResult _
  · exact mute_ofResult _
  · exact mute_throw _
  · exact mute_throw _

/-- Reading a class is mute. -/
theorem mute_readClass (scope : Handle) (name : Symbol) : Mute (readClass setting scope name) := by
  apply (mute_readName setting scope name).bind
  intro value
  cases value with
  | classObject owner => exact mute_pure owner
  | _ => exact mute_throw _

/-- Checking the number of field values is mute. -/
theorem mute_checkFieldCount (owner : ClassObject) (got : Nat) :
    Mute (checkFieldCount setting owner got) := by
  unfold checkFieldCount
  split
  · exact mute_throw _
  · exact mute_pure ()

/-- Expecting an object is mute. -/
theorem mute_expectObject (value : Value) : Mute (expectObject value) := by
  cases value with
  | object object => exact mute_pure object
  | _ => exact mute_throw _

/-- Reading a field is mute. -/
theorem mute_readField (receiver : Object) (name : Symbol) :
    Mute (readField setting receiver name) := by
  apply (mute_query _ _).bind
  intro found
  cases found with
  | some value => exact mute_resolve setting value
  | none => exact mute_throw _

/-- Finding a method is mute. -/
theorem mute_findMethod (receiver : Object) (name : Symbol) :
    Mute (findMethod setting receiver name) := by
  unfold findMethod
  split
  · exact mute_pure _
  · exact mute_throw _

end Operations

end Eval

namespace Telling

variable {α β : Type}

/-- The evaluation that tells stands for the one that prints: whatever the sink is, the latter does
to the scopes what the former does, ends in the same way, and has printed what the former has told. -/
def Tells (symbols : SymbolTable) (telling : Telling α) (plain : Eval α) : Prop :=
  ∀ sink ledger, plain (Ledger.state symbols sink ledger) =
    mapState (Ledger.state symbols sink) (telling ledger)

section Combinators

variable {symbols : SymbolTable}

/-- A mute evaluation is told as it is. -/
theorem tells_own {evaluation : Eval α} (mute : evaluation.Mute) :
    Tells symbols (own evaluation) evaluation := by
  intro sink ledger
  rw [Ledger.state, own, mute]
  cases evaluation ⟨ledger.scopes, .silent⟩ <;> rfl

/-- A result is told as it is. -/
theorem tells_pure (value : α) : Tells symbols (pure value) (pure value) := fun _ _ => rfl

/-- A stop is told as it is. -/
theorem tells_throw (stop : Stop) : Tells symbols (throw stop : Telling α) (throw stop) :=
  fun _ _ => rfl

/-- What is told in sequence is printed in sequence; a stop keeps what has been told before it. -/
theorem Tells.bind {first : Telling α} {plainFirst : Eval α} {next : α → Telling β}
    {plainNext : α → Eval β} (tells : Tells symbols first plainFirst)
    (rest : ∀ value, Tells symbols (next value) (plainNext value)) :
    Tells symbols (first >>= next) (plainFirst >>= plainNext) := by
  intro sink ledger
  change EStateM.bind plainFirst plainNext _ = mapState _ (EStateM.bind first next ledger)
  rw [EStateM.bind, EStateM.bind, tells sink ledger]
  cases first ledger with
  | ok value middle => exact rest value sink middle
  | error stop middle => rfl

/-- Giving failures a span changes nothing that is told. -/
theorem Tells.located {telling : Telling α} {plain : Eval α} (tells : Tells symbols telling plain)
    (span : Span) : Tells symbols (telling.located span) (plain.located span) := by
  intro sink ledger
  rw [Eval.located, Telling.located, tells sink ledger]
  cases telling ledger with
  | ok value ended => rfl
  | error stop ended => cases stop <;> rfl

/-- Results for the members of a list are told one after the other. -/
theorem tells_each {telling : β → Telling α} {plain : β → Eval α}
    (tells : ∀ item, Tells symbols (telling item) (plain item)) (items : List β) :
    Tells symbols (each telling items) (Eval.each plain items) := by
  induction items with
  | nil => exact tells_pure []
  | cons item items ih =>
    apply (tells item).bind
    intro result
    exact ih.bind fun results => tells_pure (result :: results)

/-- Evaluations of the members of a list are told one after the other. -/
theorem tells_last {telling : β → Telling α} {plain : β → Eval α}
    (tells : ∀ item, Tells symbols (telling item) (plain item)) (result : α) (items : List β) :
    Tells symbols (last telling result items) (Eval.last plain result items) := by
  induction items generalizing result with
  | nil => exact tells_pure result
  | cons item items ih => exact (tells item).bind fun next => ih next

end Combinators

end Telling

/-- Every task is told as it is evaluated. -/
def Teller.Tells (symbols : SymbolTable) (teller : Teller) (evaluate : Evaluator) : Prop :=
  ∀ task, Telling.Tells symbols (teller task) (evaluate task)

namespace Telling

open Eval

variable {setting : Setting}

/-- Telling one value is printing its text, with the end of the line if there is one. -/
theorem tells_callPrint (name : String) (endsLine : Bool) (print : Sink → String → Sink)
    (prints : ∀ sink value, print sink (value.text setting.symbols) =
      sink.print (Utterance.text setting.symbols ⟨value, endsLine⟩)) (args : List Value) :
    Tells setting.symbols (callPrint name endsLine args)
      (Eval.callPrint setting name print args) := by
  match args with
  | [] => exact tells_own (mute_throw _)
  | [value] =>
    have told : Tells setting.symbols (tell ⟨value, endsLine⟩)
        (write fun sink => print sink (value.text setting.symbols)) := by
      intro sink ledger
      simp only [write, tell, mapState, Ledger.state, prints, Sink.print_print]
      rw [Ledger.text_concat]
    exact told.bind fun _ => tells_pure Value.void
  | _ :: _ :: _ => exact tells_own (mute_throw _)

variable {reply : Reply} {teller : Teller} {evaluate : Evaluator}
  (tells : teller.Tells setting.symbols evaluate)
include tells

section Calls

/-- Evaluating arguments is told. -/
theorem tells_arguments (frame : Frame) (range : NodeRange) :
    Tells setting.symbols (arguments teller frame range) (Eval.arguments evaluate frame range) :=
  tells_each (fun id => tells (frame.task id)) _

/-- Calls of functions are told. -/
theorem tells_callClosure (function : Closure) (args : List Value) :
    Tells setting.symbols (callClosure setting teller function args)
      (Eval.callClosure setting evaluate function args) := by
  apply (tells_own (mute_checkArity _ _ _)).bind
  intro _
  apply (tells_own mute_scopes).bind
  intro store
  split
  · apply (tells_own (mute_allocate _)).bind
    intro frame
    apply (tells_own (mute_update _ _)).bind
    intro _
    exact tells _
  · exact tells_own (mute_throw _)

/-- Calls on the elements of an array are told. -/
theorem tells_callMap (args : List Value) :
    Tells setting.symbols (callMap teller args)
      (Eval.callMap (fun callee args => evaluate (.call callee args)) args) := by
  match args with
  | [] => exact tells_own (mute_throw _)
  | [_] => exact tells_own (mute_throw _)
  | [callee, collection] =>
    by_cases callable : callee.isCallable = true
    · simp only [callMap, Eval.callMap, if_pos callable]
      cases collection with
      | array items =>
        apply (tells_each (fun item => tells _) items).bind
        intro results
        exact tells_pure (Value.array results)
      | _ => exact tells_own (mute_throw _)
    · simp only [callMap, Eval.callMap, if_neg callable]
      exact tells_own (mute_throw _)
  | _ :: _ :: _ :: _ => exact tells_own (mute_throw _)

/-- Calls of native functions are told. -/
theorem tells_callNative (role : NativeRole) (args : List Value) :
    Tells setting.symbols (callNative reply teller role args)
      (Eval.callNative setting (.quiet reply) (fun callee args => evaluate (.call callee args)) role
        args) := by
  cases role with
  | map => exact tells_callMap tells args
  | len => exact tells_own (mute_callLen args)
  | print =>
    apply tells_callPrint
    intro sink value
    simp [Utterance.text]
  | println =>
    apply tells_callPrint
    intro sink value
    simp [Utterance.text, Sink.println]
  | host entry => exact tells_pure (reply.answer entry args)

/-- Calls of values are told. -/
theorem tells_callAny (callee : Value) (args : List Value) :
    Tells setting.symbols (callAny setting reply teller callee args)
      (Eval.callAny setting (.quiet reply) evaluate callee args) := by
  cases callee with
  | function function => exact tells_callClosure tells function args
  | native native => exact tells_callNative tells native.role args
  | _ => exact tells_own (mute_throw _)

end Calls

section Objects

/-- The value of an omitted field is told. -/
theorem tells_omittedField (owner : ClassObject) (storage : Handle) (field : FieldDecl) :
    Tells setting.symbols (omittedField teller owner storage field)
      (Eval.omittedField evaluate owner storage field) := by
  unfold omittedField Eval.omittedField
  cases field.default with
  | some default =>
    apply (tells_own (mute_allocate _)).bind
    intro scope
    exact tells _
  | none => exact tells_pure _

/-- Filling fields is told. -/
theorem tells_fillFields (owner : ClassObject) (storage : Handle) (fields : List FieldDecl)
    (values : List Value) :
    Tells setting.symbols (fillFields setting teller owner storage fields values)
      (Eval.fillFields setting evaluate owner storage fields values) := by
  induction fields generalizing values with
  | nil =>
    rw [fillFields, Eval.fillFields]
    exact tells_pure ()
  | cons field fields ih =>
    cases values with
    | nil =>
      rw [fillFields, Eval.fillFields]
      apply (tells_omittedField tells owner storage field).bind
      intro value
      exact (tells_own (mute_declare _ _ _ _)).bind fun _ => ih []
    | cons value values =>
      rw [fillFields, Eval.fillFields]
      apply (tells_own (mute_ofResult _)).bind
      intro _
      exact (tells_own (mute_declare _ _ _ _)).bind fun _ => ih values

/-- Making an object is told. -/
theorem tells_makeObject (owner : ClassObject) (values : List Value) :
    Tells setting.symbols (makeObject setting teller owner values)
      (Eval.makeObject setting evaluate owner values) := by
  apply (tells_own (mute_allocate _)).bind
  intro storage
  apply (tells_fillFields tells owner storage owner.fields values).bind
  intro _
  exact (tells_own (mute_existing _)).bind fun code => tells_pure _

end Objects

section Step

/-- One step on a node is told. -/
theorem tells_stepKind (frame : Frame) (kind : NodeKind) :
    Tells setting.symbols (stepKind setting reply teller frame kind)
      (Eval.stepKind setting (.quiet reply) evaluate frame kind) := by
  cases kind with
  | int value => exact tells_pure _
  | float bits => exact tells_pure _
  | bool value => exact tells_pure _
  | string text => exact tells_pure _
  | read name => exact tells_own (mute_readName setting frame.scope name)
  | binary op left right =>
    apply (tells _).bind
    intro leftValue
    apply (tells _).bind
    intro rightValue
    exact tells_own (mute_ofResult _)
  | branch condition thenBranch elseBranch =>
    apply (tells _).bind
    intro value
    apply (tells_own (mute_ofResult value.holds)).bind
    intro chosen
    cases chosen with
    | true => exact tells _
    | false =>
      cases elseBranch with
      | some elseBranch => exact tells _
      | none => exact tells_pure _
  | block body =>
    apply (tells_own (mute_allocate _)).bind
    intro inner
    exact tells_last (fun id => tells _) _ _
  | declare name tag value =>
    apply (tells _).bind
    intro value
    apply (tells_own (mute_ofResult _)).bind
    intro _
    exact (tells_own (mute_declare _ _ _ _)).bind fun _ => tells_pure _
  | assign name value =>
    apply (tells _).bind
    intro value
    exact (tells_own (mute_update _ _)).bind fun _ => tells_pure _
  | function name params body =>
    exact (tells_own (mute_declare _ _ _ _)).bind fun _ => tells_pure _
  | call callee args =>
    apply (tells_own (mute_readName setting frame.scope callee)).bind
    intro callee
    split
    · apply (tells_arguments tells frame args).bind
      intro values
      exact tells_callAny tells callee values
    · exact tells_own (mute_throw _)
  | classDecl id =>
    apply (tells_own (mute_existing _)).bind
    intro decl
    exact (tells_own (mute_declare _ _ _ _)).bind fun _ => tells_pure _
  | construct owner args =>
    apply (tells_own (mute_readClass setting frame.scope owner)).bind
    intro owner
    apply (tells_own (mute_checkFieldCount setting owner args.length)).bind
    intro _
    apply (tells_arguments tells frame args).bind
    intro values
    exact tells_makeObject tells owner values
  | methodCall receiver method args =>
    apply (tells _).bind
    intro value
    apply (tells_own (mute_expectObject value)).bind
    intro receiver
    apply (tells_own (mute_findMethod setting receiver method)).bind
    intro method
    apply (tells_arguments tells frame args).bind
    intro values
    exact tells_callClosure tells method values
  | field receiver name =>
    apply (tells _).bind
    intro value
    apply (tells_own (mute_expectObject value)).bind
    intro receiver
    exact tells_own (mute_readField setting receiver name)
  | array elements =>
    apply (tells_arguments tells frame elements).bind
    intro values
    exact tells_pure _
  | index receiver position =>
    apply (tells _).bind
    intro receiverValue
    apply (tells _).bind
    intro positionValue
    exact tells_own (mute_ofResult _)
  | lambda param body => exact tells_pure _
  | reference name => exact tells_own (mute_referTo setting frame.scope name)
  | assignThrough name value =>
    apply (tells_own (mute_heldReference setting frame.scope name)).bind
    intro first
    apply (tells _).bind
    intro value
    exact (tells_own (mute_writeThrough setting first value)).bind fun _ => tells_pure _

/-- One step on a task is told. -/
theorem tells_step :
    (step setting reply teller).Tells setting.symbols
      (Eval.step setting (.quiet reply) evaluate) := by
  intro task
  cases task with
  | node program id scope =>
    apply (tells_own (mute_existing _)).bind
    intro code
    apply (tells_own (mute_existing _)).bind
    intro node
    exact (tells_stepKind tells _ node.kind).located node.span
  | call callee args => exact tells_callAny tells callee args

omit tells in
/-- Runs of every depth are told. -/
theorem tells_run (depth : Nat) :
    (run setting reply depth).Tells setting.symbols (Eval.run setting (.quiet reply) depth) := by
  induction depth with
  | zero => exact fun _ => tells_throw .exhausted
  | succ depth ih => exact tells_step ih

end Step

end Telling

end ScopeMachine
