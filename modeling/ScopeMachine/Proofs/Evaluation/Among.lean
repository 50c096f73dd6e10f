import ScopeMachine.Proofs.Evaluation.Outcome
import ScopeMachine.Proofs.Evaluation.Transcript
import ScopeMachine.Proofs.Home.Value
import ScopeMachine.Proofs.Machine.Host

/-!
# Evaluations among known values

Functions, classes and objects are made by nodes that declare or construct them, and by nothing
else: everything that an evaluation reads, passes on or puts into an array has been there before.
So whichever of them are known, one step that starts among known values ends among known values, if
what its own node makes is known and the evaluator of inner tasks stays among known values, too.
-/

namespace ScopeMachine

namespace Value

mutual

/-- Functions, classes and objects that a value is or holds in arrays. -/
def entities : Value → List Value
  | .array items => entitiesAll items
  | .function value => [.function value]
  | .classObject value => [.classObject value]
  | .object value => [.object value]
  | _ => []

/-- Functions, classes and objects in the values of a list. -/
def entitiesAll : List Value → List Value
  | [] => []
  | value :: rest => entities value ++ entitiesAll rest

end

/-- The entities of a list are those of its members in order. -/
@[simp] theorem entitiesAll_eq_flatMap (values : List Value) :
    entitiesAll values = values.flatMap entities := by
  induction values with
  | nil => rfl
  | cons value rest ih => rw [entitiesAll, ih, List.flatMap_cons]

/-- Every function, class and object in a value is known. -/
def Among (known : Value → Prop) (value : Value) : Prop := ∀ entity ∈ value.entities, known entity

section Among

variable {known : Value → Prop}

/-- A value without functions, classes and objects is among known values. -/
theorem among_of_entities_eq_nil {value : Value} (none : value.entities = []) :
    value.Among known := by
  intro entity listed
  rw [none] at listed
  exact absurd listed List.not_mem_nil

/-- A value that is among known ones stays so when more is known. -/
theorem Among.mono {value : Value} (among : value.Among known) {more : Value → Prop}
    (wider : ∀ entity, known entity → more entity) : value.Among more :=
  fun entity listed => wider entity (among entity listed)

/-- An array is among known values when its items are. -/
theorem among_array_iff {items : List Value} :
    (array items).Among known ↔ ∀ item ∈ items, item.Among known := by
  simp only [Among, entities, entitiesAll_eq_flatMap, List.mem_flatMap]
  constructor
  · intro all item listed entity inner
    exact all entity ⟨item, listed, inner⟩
  · rintro all entity ⟨item, listed, inner⟩
    exact all item listed entity inner

/-- A number, a truth value or a text is among known values. -/
theorem among_of_isScalar {value : Value} (plain : value.isScalar = true) : value.Among known := by
  cases value with
  | int | float | bool | string => exact among_of_entities_eq_nil rfl
  | _ => exact nomatch plain

/-- The default of an annotation is among known values. -/
theorem among_blankFor (tag : Option TypeTag) : (blankFor tag).Among known := by
  unfold blankFor
  split <;> exact among_of_isScalar rfl

/-- What is made of values among known ones is among them. -/
theorem MadeOf.among {given : Value → Prop} {value : Value} (made : value.MadeOf given)
    (all : ∀ value, given value → value.Among known) : value.Among known := by
  induction made with
  | given held => exact all _ held
  | plain data =>
    rcases data with scalar | rfl
    · exact among_of_isScalar scalar
    · exact among_of_entities_eq_nil rfl
  | native value => exact among_of_entities_eq_nil rfl
  | reference target => exact among_of_entities_eq_nil rfl
  | array _ ih => exact among_array_iff.2 ih
  | element _ inside ih => exact among_array_iff.1 ih _ inside

/-- An element of an array among known values is among them. -/
theorem Among.element {receiver position item : Value} (among : receiver.Among known)
    (found : receiver.element position = .ok item) : item.Among known := by
  unfold Value.element at found
  split at found
  · split at found
    · split at found
      · next inside =>
        obtain rfl := Except.ok.inj found
        split at inside
        · exact among_array_iff.1 among _ (List.mem_of_getElem? inside)
        · exact nomatch inside
      · exact nomatch found
    · exact nomatch found
  · exact nomatch found

end Among

end Value

/-- All values that the scopes bind are among known ones. -/
def State.Among (known : Value → Prop) (state : State) : Prop :=
  ∀ value, state.scopes.Holds value → value.Among known

/-- The values that a task is given are among known ones. -/
def Task.Among (known : Value → Prop) : Task → Prop
  | .node _ _ _ => True
  | .call callee args => ∀ value ∈ callee :: args, value.Among known

/-- Whether evaluation of the node makes a function, a class or an object. -/
def NodeKind.makes : NodeKind → Bool
  | .function _ _ _ | .lambda _ _ | .classDecl _ | .construct _ _ => true
  | _ => false

/-- The answers of a host are made of the arguments. -/
def Reply.Honest (reply : Reply) : Prop :=
  ∀ entry args, (reply.answer entry args).MadeOf (· ∈ args)

namespace Eval

/-- An evaluation has ended among known values, with a good result if it has one. -/
def Lands {α : Type} (known : Value → Prop) (good : α → Prop) : EStateM.Result Stop State α → Prop
  | .ok value final => good value ∧ final.Among known
  | .error _ final => final.Among known

/-- Among known values the evaluation ends among known values, with a good result. -/
def Stays {α : Type} (known : Value → Prop) (good : α → Prop) (evaluation : Eval α) : Prop :=
  ∀ state : State, state.Among known → Lands known good (evaluation state)

/-- What lands leaves a state among known values. -/
theorem Lands.after {α : Type} {known : Value → Prop} {good : α → Prop} {evaluation : Eval α}
    {state : State} (lands : Lands known good (evaluation state)) :
    (evaluation.after state).Among known := by
  cases ended : evaluation state with
  | ok value final =>
    rw [ended] at lands
    exact after_of_ok ended ▸ lands.2
  | error stop final =>
    rw [ended] at lands
    exact after_of_error ended ▸ lands

/-- The evaluator stays among known values with every task that is given known values. -/
def Reliable (known : Value → Prop) (evaluate : Evaluator) : Prop :=
  ∀ task : Task, task.Among known → Stays known (Value.Among known) (evaluate task)

section Combinators

variable {α β : Type} {known : Value → Prop} {good : α → Prop} {fine : β → Prop}

/-- A good result stays. -/
theorem stays_pure {value : α} (fit : good value) : Stays known good (pure value) :=
  fun _ among => ⟨fit, among⟩

/-- A stop stays. -/
theorem stays_throw (stop : Stop) : Stays known good (throw stop) := fun _ among => among

/-- A failure stays. -/
theorem stays_fail (failure : Failure) : Stays known good (fail failure) := stays_throw _

/-- Evaluations stay one after the other. -/
theorem Stays.bind {first : Eval α} {next : α → Eval β} (opening : Stays known good first)
    (rest : ∀ value, good value → Stays known fine (next value)) :
    Stays known fine (first >>= next) := by
  intro state among
  have begun := opening state among
  cases ended : first state with
  | ok value middle =>
    rw [ended] at begun
    rw [bind_of_ok ended]
    exact rest value begun.1 middle begun.2
  | error stop middle =>
    rw [ended] at begun
    rw [bind_of_error ended]
    exact begun

/-- A result or a failure stays. -/
theorem stays_ofResult {computed : Except Failure α}
    (fit : ∀ value, computed = .ok value → good value) :
    Stays known good (ofResult computed) := by
  cases computed with
  | ok value => exact stays_pure (fit value rfl)
  | error failure => exact stays_fail failure

/-- What exists stays. -/
theorem stays_existing (found : Option α) : Stays known (fun _ => True) (existing found) := by
  cases found with
  | none => exact stays_throw _
  | some value => exact stays_pure trivial

/-- Reading the store stays if what is read is good. -/
theorem stays_query {stop : ScopeError → Stop} {read : Store → Except ScopeError α}
    (fit : ∀ store value, read store = .ok value → (∀ held, store.Holds held → held.Among known) →
      good value) : Stays known good (query stop read) := by
  intro state among
  unfold query
  cases found : read state.scopes with
  | ok value => exact ⟨fit state.scopes value found among, among⟩
  | error error => exact among

/-- Changing the store stays if it then holds what it held and known values. -/
theorem stays_update {stop : ScopeError → Stop} {write : Store → Except ScopeError Store}
    (fit : ∀ store after held, write store = .ok after → after.Holds held →
      held.Among known ∨ store.Holds held) : Stays known (fun _ => True) (update stop write) := by
  intro state among
  unfold update
  cases written : write state.scopes with
  | ok scopes =>
    refine ⟨trivial, fun value held => ?_⟩
    exact (fit state.scopes scopes value written held).elim id (among value)
  | error error => exact among

/-- A change of the store that is refused leaves the state as it was. -/
theorem eq_of_update_eq_error {stop : ScopeError → Stop} {write : Store → Except ScopeError Store}
    {state final : State} {reason : Stop}
    (refused : update stop write state = .error reason final) :
    final = state := by
  unfold update at refused
  cases written : write state.scopes with
  | ok scopes =>
    rw [written] at refused
    cases refused
  | error error =>
    rw [written] at refused
    cases refused
    rfl

/-- Opening a scope stays. -/
theorem stays_allocate (parent : Option Handle) : Stays known (fun _ => True) (allocate parent) :=
  fun _ among => ⟨trivial, fun value held => among value (Store.holds_of_allocateEmpty held)⟩

/-- Reading all scopes finds known values. -/
theorem stays_scopes :
    Stays known (fun store => ∀ held, store.Holds held → held.Among known) scopes :=
  fun _ among => ⟨among, among⟩

/-- Printing stays. -/
theorem stays_write (print : Sink → Sink) : Stays known (fun _ => True) (write print) :=
  fun _ among => ⟨trivial, among⟩

/-- Collecting stays. -/
theorem stays_collect (setting : Setting) (roots : List Value) :
    Stays known (fun _ => True) (collect setting roots) :=
  fun _ among => ⟨trivial, fun value held => among value (Store.holds_of_collect held)⟩

/-- Giving failures a span changes nothing else. -/
theorem Lands.located {evaluation : Eval α} {state : State}
    (lands : Lands known good (evaluation state)) (span : Span) :
    Lands known good (evaluation.located span state) := by
  unfold Eval.located
  cases ended : evaluation state with
  | ok value final =>
    rw [ended] at lands
    exact lands
  | error stop final =>
    rw [ended] at lands
    cases stop <;> exact lands

/-- Results for each member of a list stay. -/
theorem stays_each {evaluate : β → Eval α} {items : List β}
    (stays : ∀ item ∈ items, Stays known good (evaluate item)) :
    Stays known (fun results => ∀ result ∈ results, good result) (each evaluate items) := by
  induction items with
  | nil => exact stays_pure (by simp)
  | cons item items ih =>
    obtain ⟨first, rest⟩ := List.forall_mem_cons.1 stays
    refine first.bind fun result fit => (ih rest).bind fun results all => ?_
    exact stays_pure (List.forall_mem_cons.2 ⟨fit, all⟩)

/-- The last result for the members of a list stays. -/
theorem stays_last {evaluate : β → Eval α} {result : α} (fit : good result) {items : List β}
    (stays : ∀ item ∈ items, Stays known good (evaluate item)) :
    Stays known good (last evaluate result items) := by
  induction items generalizing result with
  | nil => exact stays_pure fit
  | cons item items ih =>
    obtain ⟨first, rest⟩ := List.forall_mem_cons.1 stays
    exact first.bind fun next fits => ih fits rest

end Combinators

section Operations

variable {known : Value → Prop} (setting : Setting)

/-- Binding a known value stays. -/
theorem stays_declare (scope : Handle) (name : Symbol) {value : Value} (among : value.Among known) :
    Stays known (fun _ => True) (declare setting scope name value) := by
  refine stays_update fun store after held written bound => ?_
  rcases Store.holds_of_set written bound with rfl | earlier
  · exact Or.inl among
  · exact Or.inr earlier

/-- Assigning a known value stays. -/
theorem stays_assign (scope : Handle) (name : Symbol) {value : Value} (among : value.Among known) :
    Stays known (fun _ => True)
      (update (setting.assignStop name) fun store => store.assign scope name value) := by
  refine stays_update fun store after held written bound => ?_
  rcases Store.holds_of_assign written bound with rfl | earlier
  · exact Or.inl among
  · exact Or.inr earlier

/-- Following references from a known value stays. -/
theorem stays_resolve {value : Value} (among : value.Among known) :
    Stays known (Value.Among known) (resolve setting value) := by
  refine stays_scopes.bind fun store held => stays_ofResult fun last found => ?_
  rcases Setting.holds_of_follow found with rfl | inside
  · exact among
  · exact held last inside

/-- Reading a name as it is stored stays. -/
theorem stays_readRaw (scope : Handle) (name : Symbol) :
    Stays known (Value.Among known) (readRaw setting scope name) :=
  stays_query fun _ value found held => held value (Store.holds_of_get found)

/-- Reading a name stays. -/
theorem stays_readName (scope : Handle) (name : Symbol) :
    Stays known (Value.Among known) (readName setting scope name) :=
  (stays_readRaw setting scope name).bind fun _ among => stays_resolve setting among

/-- Reading a class stays. -/
theorem stays_readClass (scope : Handle) (name : Symbol) :
    Stays known (fun _ => True) (readClass setting scope name) := by
  refine (stays_readName setting scope name).bind fun value _ => ?_
  split
  · exact stays_pure trivial
  · exact stays_fail _

/-- Reading the reference that a name holds stays. -/
theorem stays_heldReference (scope : Handle) (name : Symbol) :
    Stays known (fun _ => True) (heldReference setting scope name) := by
  refine (stays_readRaw setting scope name).bind fun value _ => ?_
  split
  · exact stays_pure trivial
  · exact stays_fail _

/-- Writing a known value through references stays. -/
theorem stays_writeThrough (first : Location) {value : Value} (among : value.Among known) :
    Stays known (fun _ => True) (writeThrough setting first value) := by
  refine stays_scopes.bind fun store _ => ?_
  have resolved : Stays known (fun _ => True) (ofResult (setting.resolveLocation store first)) :=
    stays_ofResult fun _ _ => trivial
  exact resolved.bind fun target _ => stays_declare setting target.scope target.name among

/-- Reading a field stays. -/
theorem stays_readField (receiver : Object) (name : Symbol) :
    Stays known (Value.Among known) (readField setting receiver name) := by
  have read : Stays known (fun found => ∀ value, found = some value → value.Among known)
      (query (setting.scopeStop name) fun store => store.getOwn receiver.storage name) := by
    refine stays_query ?_
    rintro store found read held value rfl
    exact held value (Store.holds_of_getOwn read)
  refine read.bind fun found among => ?_
  split
  · exact stays_resolve setting (among _ rfl)
  · exact stays_fail _

/-- Looking a method up stays. -/
theorem stays_findMethod (receiver : Object) (name : Symbol) :
    Stays known (fun _ => True) (findMethod setting receiver name) := by
  unfold findMethod
  split
  · exact stays_pure trivial
  · exact stays_fail _

/-- Refusing what is no object stays. -/
theorem stays_expectObject (value : Value) : Stays known (fun _ => True) (expectObject value) := by
  unfold expectObject
  split
  · exact stays_pure trivial
  · exact stays_fail _

/-- The outcome of an operator stays. -/
theorem stays_outcome {computed : Except Failure Value} (outcome : BinaryOp.Outcome computed) :
    Stays known (Value.Among known) (ofResult computed) := by
  cases outcome with
  | scalar plain => exact stays_pure (Value.among_of_isScalar plain)
  | _ => exact stays_fail _

section Calls

variable {evaluate : Evaluator} (reliable : Reliable known evaluate)
include reliable

/-- A node that is passed on stays. -/
theorem Reliable.node (program : ProgramId) (id : NodeId) (scope : Handle) :
    Stays known (Value.Among known) (evaluate (.node program id scope)) :=
  reliable (.node program id scope) trivial

/-- Evaluated arguments stay. -/
theorem stays_arguments (frame : Frame) (range : NodeRange) :
    Stays known (fun values => ∀ value ∈ values, value.Among known)
      (arguments evaluate frame range) :=
  stays_each fun id _ => reliable.node frame.program id frame.scope

variable {args : List Value}

/-- Calling a function stays. -/
theorem stays_callClosure (function : Closure) (among : ∀ arg ∈ args, arg.Among known) :
    Stays known (Value.Among known) (callClosure setting evaluate function args) := by
  have checked : Stays known (fun _ => True)
      (checkArity (closureName setting function) function.arity args.length) := by
    unfold checkArity
    split
    · exact stays_pure trivial
    · exact stays_fail _
  refine checked.bind fun _ _ => stays_scopes.bind fun store _ => ?_
  split
  · refine (stays_allocate _).bind fun frame _ => ?_
    have bound : Stays known (fun _ => True)
        (update (fun _ => .failure .reclaimedScope) fun store =>
          store.setAll frame (function.params.zip args)) := by
      refine stays_update fun store after held written bound => ?_
      rcases Store.holds_of_setAll written bound with ⟨name, listed⟩ | earlier
      · exact Or.inl (among held (List.of_mem_zip listed).2)
      · exact Or.inr earlier
    exact bound.bind fun _ _ => reliable.node function.program function.body frame
  · exact stays_fail _

/-- Calling a function on the elements of an array stays. -/
theorem stays_callMap (among : ∀ arg ∈ args, arg.Among known) :
    Stays known (Value.Among known)
      (callMap (fun callee args => evaluate (.call callee args)) args) := by
  unfold callMap
  split
  · rename_i callee collection
    have calleeAmong := among callee (by simp)
    have collectionAmong := among collection (by simp)
    split
    · split
      · have items := Value.among_array_iff.1 collectionAmong
        refine (stays_each fun item listed => reliable (.call callee [item]) ?_).bind
          fun results all => stays_pure (Value.among_array_iff.2 all)
        exact List.forall_mem_cons.2 ⟨calleeAmong, List.forall_mem_singleton.2 (items item listed)⟩
      · exact stays_fail _
    · exact stays_fail _
  · exact stays_fail _

omit reliable in
/-- Counting stays. -/
theorem stays_callLen (args : List Value) : Stays known (Value.Among known) (callLen args) := by
  unfold callLen
  split
  · exact stays_outcome (BinaryOp.outcome_checkedInt _ _)
  · exact stays_outcome (BinaryOp.outcome_checkedInt _ _)
  · exact stays_fail _
  · exact stays_fail _

omit reliable in
/-- Printing a value stays. -/
theorem stays_callPrint (name : String) (print : Sink → String → Sink) (args : List Value) :
    Stays known (Value.Among known) (callPrint setting name print args) := by
  unfold callPrint
  split
  · exact (stays_write _).bind fun _ _ => stays_pure (Value.among_of_entities_eq_nil rfl)
  · exact stays_fail _

omit reliable in
/-- An entry of a host with honest answers stays. -/
theorem stays_watched {reply : Reply} (honest : reply.Honest) (plan : Plan) (entry : String)
    (callBack : Caller) (among : ∀ arg ∈ args, arg.Among known) :
    Stays known (Value.Among known) (Host.watched plan reply entry setting callBack args) := by
  have answer := (honest entry args).among among
  intro state held
  unfold Host.watched
  split
  · exact held
  · unfold Host.collecting
    split
    · exact ⟨answer, held⟩
    · exact ((stays_collect setting _).bind fun _ _ => stays_pure answer) state held

variable {reply : Reply} (honest : reply.Honest) (plan : Plan)
include honest

/-- Calling a value stays. -/
theorem stays_callAny (callee : Value) (among : ∀ arg ∈ args, arg.Among known) :
    Stays known (Value.Among known)
      (callAny setting (.watched plan reply) evaluate callee args) := by
  cases callee with
  | function function => exact stays_callClosure setting reliable function among
  | native function =>
    obtain ⟨name, role⟩ := function
    cases role with
    | map => exact stays_callMap reliable among
    | len => exact stays_callLen args
    | print => exact stays_callPrint setting _ _ args
    | println => exact stays_callPrint setting _ _ args
    | host entry => exact stays_watched setting honest plan entry _ among
  | _ => exact stays_fail _

omit honest in
/-- Filling the fields of an object stays. -/
theorem stays_fillFields (owner : ClassObject) (storage : Handle) (fields : List FieldDecl)
    {values : List Value} (among : ∀ value ∈ values, value.Among known) :
    Stays known (fun _ => True) (fillFields setting evaluate owner storage fields values) := by
  induction fields generalizing values with
  | nil => exact stays_pure trivial
  | cons field fields ih =>
    cases values with
    | cons value values =>
      obtain ⟨first, rest⟩ := List.forall_mem_cons.1 among
      have checked : Stays known (fun _ => True)
          (ofResult (checkTag (setting.text field.name) field.tag value)) :=
        stays_ofResult fun _ _ => trivial
      refine checked.bind fun _ _ => (stays_declare setting storage field.name first).bind ?_
      exact fun _ _ => ih rest
    | nil =>
      have omitted : Stays known (Value.Among known)
          (omittedField evaluate owner storage field) := by
        unfold omittedField
        split
        · exact (stays_allocate _).bind fun scope _ => reliable.node owner.program _ scope
        · exact stays_pure (Value.among_blankFor field.tag)
      refine omitted.bind fun value fit => (stays_declare setting storage field.name fit).bind ?_
      exact fun _ _ => ih among

omit honest in
/-- Constructing an object stays; nothing is said about the object. -/
theorem stays_construct (host : Host) (frame : Frame) (ownerName : Symbol) (range : NodeRange) :
    Stays known (fun _ => True)
      (stepKind setting host evaluate frame (.construct ownerName range)) := by
  refine (stays_readClass setting frame.scope ownerName).bind fun owner _ => ?_
  have counted : Stays known (fun _ => True) (checkFieldCount setting owner range.length) := by
    unfold checkFieldCount
    split
    · exact stays_fail _
    · exact stays_pure trivial
  refine counted.bind fun _ _ => (stays_arguments reliable frame range).bind fun values all => ?_
  refine (stays_allocate _).bind fun storage _ => ?_
  refine (stays_fillFields setting reliable owner storage owner.fields all).bind fun _ _ => ?_
  exact (stays_existing _).bind fun code _ => stays_pure trivial

omit reliable honest in
/-- Declaring a value and giving it lands among known values, if it is known once it is given. -/
theorem lands_declaring (scope : Handle) (name : Symbol) {value : Value} {state : State}
    (among : state.Among known)
    (made : ∀ final, declare setting scope name value state = .ok () final → value.Among known) :
    Lands known (Value.Among known)
      ((do
        declare setting scope name value
        pure value : Eval Value) state) := by
  cases declared : declare setting scope name value state with
  | ok _ final =>
    have fit := made final declared
    have landed := stays_declare setting scope name fit state among
    rw [declared] at landed
    rw [bind_of_ok declared]
    exact ⟨fit, landed.2⟩
  | error stop final =>
    rw [bind_of_error declared]
    obtain rfl := eq_of_update_eq_error declared
    exact among

/-- One step on a node lands among known values, if what the node makes is known. -/
theorem lands_stepKind (frame : Frame) (kind : NodeKind) {state : State}
    (among : state.Among known)
    (made : kind.makes = true → ∀ value final,
      stepKind setting (.watched plan reply) evaluate frame kind state = .ok value final →
        value.Among known) :
    Lands known (Value.Among known)
      (stepKind setting (.watched plan reply) evaluate frame kind state) := by
  have plain : ∀ {value : Value}, value.entities = [] →
      Stays known (Value.Among known) (pure value) :=
    fun none => stays_pure (Value.among_of_entities_eq_nil none)
  have child : ∀ id, Stays known (Value.Among known) (evaluate (frame.task id)) :=
    fun id => reliable.node frame.program id frame.scope
  cases kind with
  | int value => exact plain rfl state among
  | float bits => exact plain rfl state among
  | bool value => exact plain rfl state among
  | string text => exact plain rfl state among
  | read name => exact stays_readName setting frame.scope name state among
  | binary op left right =>
    refine ((child left).bind fun a _ => (child right).bind fun b _ => ?_) state among
    exact stays_outcome (BinaryOp.outcome_apply op a b)
  | branch condition thenBranch elseBranch =>
    have tested : ∀ value : Value, Stays known (fun _ => True) (ofResult value.holds) :=
      fun _ => stays_ofResult fun _ _ => trivial
    refine ((child condition).bind fun value _ => (tested value).bind fun holds _ => ?_) state among
    cases holds with
    | true => exact child thenBranch
    | false =>
      cases elseBranch with
      | none => exact plain rfl
      | some other => exact child other
  | block body =>
    refine ((stays_allocate _).bind fun inner _ => ?_) state among
    exact stays_last (Value.among_of_entities_eq_nil rfl) fun id _ =>
      reliable.node frame.program id inner
  | declare name tag valueId =>
    refine ((child valueId).bind fun value fit => ?_) state among
    have checked : Stays known (fun _ => True)
        (ofResult (checkTag (setting.text name) tag value)) := stays_ofResult fun _ _ => trivial
    refine checked.bind fun _ _ => (stays_declare setting frame.scope name fit).bind fun _ _ => ?_
    exact plain rfl
  | assign name valueId =>
    refine ((child valueId).bind fun value fit => ?_) state among
    exact (stays_assign setting frame.scope name fit).bind fun _ _ => plain rfl
  | call calleeName range =>
    refine ((stays_readName setting frame.scope calleeName).bind fun callee _ => ?_) state among
    split
    · exact (stays_arguments reliable frame range).bind fun values all =>
        stays_callAny setting reliable honest plan callee all
    · exact stays_fail _
  | methodCall receiverId methodName range =>
    refine ((child receiverId).bind fun value _ => ?_) state among
    refine (stays_expectObject value).bind fun receiver _ => ?_
    refine (stays_findMethod setting receiver methodName).bind fun method _ => ?_
    refine (stays_arguments reliable frame range).bind fun values all => ?_
    exact stays_callClosure setting reliable method all
  | field receiverId name =>
    refine ((child receiverId).bind fun value _ => ?_) state among
    cases value with
    | object receiver => exact stays_readField setting receiver name
    | _ => exact stays_fail _
  | array elements =>
    refine ((stays_arguments reliable frame elements).bind fun values all => ?_) state among
    exact stays_pure (Value.among_array_iff.2 all)
  | index receiverId positionId =>
    refine ((child receiverId).bind fun receiver fit => ?_) state among
    refine (child positionId).bind fun position _ => ?_
    exact stays_ofResult fun item found => fit.element found
  | reference name =>
    have located : Stays known (fun _ => True)
        (query (setting.scopeStop name) fun store => store.locate frame.scope name) :=
      stays_query fun _ _ _ _ => trivial
    exact (located.bind fun target _ => plain rfl) state among
  | assignThrough name valueId =>
    refine ((stays_heldReference setting frame.scope name).bind fun first _ => ?_) state among
    refine (child valueId).bind fun value fit => ?_
    exact (stays_writeThrough setting first fit).bind fun _ _ => plain rfl
  | lambda param body => exact ⟨made rfl _ state rfl, among⟩
  | function name params body =>
    refine lands_declaring setting frame.scope name among fun final declared => ?_
    exact made rfl _ final (bind_of_ok declared)
  | classDecl id =>
    cases found : frame.code.classDecl? id with
    | none =>
      simp only [stepKind, found, existing]
      exact among
    | some decl =>
      simp only [stepKind, found, existing, pure_bind] at made ⊢
      refine lands_declaring setting frame.scope decl.name among fun final declared => ?_
      exact made rfl _ final (bind_of_ok declared)
  | construct ownerName range =>
    have landed := stays_construct setting reliable (.watched plan reply) frame ownerName range
      state among
    cases ended : stepKind setting (.watched plan reply) evaluate frame (.construct ownerName range)
        state with
    | ok value final =>
      rw [ended] at landed
      exact ⟨made rfl value final ended, landed.2⟩
    | error stop final =>
      rw [ended] at landed
      exact landed

/-- One step on a task lands among known values, if what its node makes is known. -/
theorem lands_step {task : Task} (given : task.Among known) {state : State}
    (among : state.Among known)
    (made : ∀ kind, setting.taskKind? task = some kind → kind.makes = true → ∀ value final,
      step setting (.watched plan reply) evaluate task state = .ok value final →
        value.Among known) :
    Lands known (Value.Among known)
      (step setting (.watched plan reply) evaluate task state) := by
  cases task with
  | call callee args =>
    have all := (List.forall_mem_cons.1 given).2
    exact stays_callAny setting reliable honest plan callee all state among
  | node program id scope =>
    cases hasKind : setting.kind? program id with
    | none =>
      rw [step_missing hasKind]
      exact among
    | some kind =>
      obtain ⟨code, node, hasCode, hasNode, rfl⟩ := exists_node_of_kind? hasKind
      rw [step_node hasCode hasNode] at made ⊢
      refine Lands.located ?_ node.span
      refine lands_stepKind setting reliable honest plan _ node.kind among ?_
      intro makes value final ended
      refine made node.kind hasKind makes value final ?_
      simp only [located, ended]

end Calls

end Operations

end Eval

end ScopeMachine
