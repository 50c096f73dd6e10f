import ScopeMachine.Evaluation.Object
import ScopeMachine.Proofs.Evaluation.Course

/-!
# Courses of references, calls and objects

What the language does with names, references, functions and classes follows a course: it looks only
into scopes that are in hand, writes only values that are in hand, and declares only in frames. This
is said once for each operation, whatever evaluator performs the inner tasks and whatever host
answers the entries, as long as the entries follow courses themselves.
-/

namespace ScopeMachine

/-- A computation fails only for other reasons than a lost scope. -/
def Lossless {α : Type} (computed : Except Failure α) : Prop :=
  ∀ failure, computed = .error failure → ¬ failure.IsLoss

section Lossless

variable {α : Type}

/-- A result is no loss. -/
theorem lossless_ok {value : α} : Lossless (.ok value : Except Failure α) :=
  fun _ failed => nomatch failed

/-- A failure for another reason is no loss. -/
theorem lossless_error {failure : Failure} (other : ¬ failure.IsLoss) :
    Lossless (.error failure : Except Failure α) := by
  rintro _ ⟨⟩
  exact other

/-- A choice between computations without losses has none. -/
theorem lossless_ite {condition : Prop} [Decidable condition] {first second : Except Failure α}
    (left : Lossless first) (right : Lossless second) :
    Lossless (if condition then first else second) := by
  split
  · exact left
  · exact right

/-- A wrong number of arguments is no loss. -/
theorem Failure.not_isLoss_wrongArity (name : String) (expected got : Nat) :
    ¬ (wrongArity name expected got).IsLoss := by
  by_cases unnamed : name = ""
  · simp only [wrongArity, if_pos unnamed]
    nofun
  · simp only [wrongArity, if_neg unnamed]
    nofun

/-- Operators lose nothing. -/
theorem BinaryOp.Outcome.lossless {computed : Except Failure Value}
    (outcome : BinaryOp.Outcome computed) : Lossless computed := by
  cases outcome with
  | scalar => exact lossless_ok
  | _ => exact lossless_error nofun

/-- Conditions lose nothing. -/
theorem Value.lossless_holds (value : Value) : Lossless value.holds := by
  cases value with
  | bool value => exact lossless_ok
  | int value => exact lossless_ok
  | float value => exact lossless_ok
  | _ => exact lossless_error nofun

/-- Indexing loses nothing. -/
theorem Value.lossless_element (receiver position : Value) :
    Lossless (receiver.element position) := by
  unfold element
  split
  · split
    · split
      · exact lossless_ok
      · exact lossless_error nofun
    · exact lossless_error nofun
  · exact lossless_error nofun

/-- Checking an annotation loses nothing. -/
theorem lossless_checkTag (name : String) (tag : Option TypeTag) (value : Value) :
    Lossless (checkTag name tag value) := by
  cases tag with
  | none => exact lossless_ok
  | some tag => exact lossless_ite lossless_ok (lossless_error nofun)

end Lossless

namespace Setting

variable (setting : Setting)

/-- An operation on the scopes of a name reports a reclaimed scope only for a dangling handle. -/
theorem isLoss_of_scopeStop (name : Symbol) (error : ScopeError)
    (reclaimed : (setting.scopeStop name error).IsReclaimed) : error.IsLoss := by
  cases error with
  | dangling handle => exact ⟨handle, rfl⟩
  | undefined => exact nomatch reclaimed
  | endless => exact reclaimed.elim

/-- An assignment reports a reclaimed scope only for a dangling handle. -/
theorem isLoss_of_assignStop (name : Symbol) (error : ScopeError)
    (reclaimed : (setting.assignStop name error).IsReclaimed) : error.IsLoss := by
  cases error with
  | dangling handle => exact ⟨handle, rfl⟩
  | undefined => exact nomatch reclaimed
  | endless => exact reclaimed.elim

end Setting

/-- A scope that refuses a write is not live. -/
theorem Store.not_isLive_of_set_eq_error {store : Store} {handle : Handle} {name : Symbol}
    {value : Value} {error : ScopeError} (refused : store.set handle name value = .error error) :
    store.isLive handle = false := by
  rw [Bool.eq_false_iff]
  intro live
  obtain ⟨after, written⟩ := exists_set_of_isLive live name value
  rw [written] at refused
  exact nomatch refused

/-- A scope that refuses one of several writes is not live. -/
theorem Store.not_isLive_of_setAll_eq_error {store : Store} {handle : Handle}
    {entries : List (Symbol × Value)} {error : ScopeError}
    (refused : store.setAll handle entries = .error error) : store.isLive handle = false := by
  induction entries generalizing store with
  | nil => exact nomatch refused
  | cons entry entries ih =>
    rw [setAll] at refused
    cases written : store.set handle entry.1 entry.2 with
    | error first => exact not_isLive_of_set_eq_error written
    | ok after =>
      rw [written] at refused
      rw [← isLive_set written handle]
      exact ih refused

namespace Eval

variable {licence : Licence} {hold : Holding} {state : State} (setting : Setting)

section Reading

variable {handle : Handle} (known : handle ∈ hold.handles)

/-- A computation that loses nothing is a reading without looks. -/
theorem reads_of_lossless {α : Type} {computed : Except Failure α} {fits : Holding → α → Prop}
    (lossless : Lossless computed) (fit : ∀ value, computed = .ok value → fits hold value) :
    Reads licence hold state Failure.IsLoss computed fits := by
  cases computed with
  | ok value => exact reads_ok (fit value rfl)
  | error failure => exact reads_error (lossless failure rfl)

include known

/-- Walking along parents to the scope that binds a name looks into each of them. -/
theorem reads_ownerWithin (name : Symbol) (bound : Nat) :
    Reads licence hold state ScopeError.IsLoss (state.scopes.ownerWithin name bound handle)
      fun last owner => owner ∈ last.handles ∧ state.scopes.Binds owner name := by
  induction bound generalizing hold handle with
  | zero => exact reads_error (by rintro ⟨_, ⟨⟩⟩)
  | succ bound ih =>
    unfold Store.ownerWithin
    refine (reads_scope known).bind ?_
    rintro later scope more ⟨found, rfl⟩
    split
    · rename_i contained
      exact reads_ok ⟨more.2.1 known, scope, found, contained⟩
    · split
      · exact reads_error (by rintro ⟨_, ⟨⟩⟩)
      · rename_i parent link
        refine ih (Or.inr (List.mem_append_left _ ?_))
        rw [link]
        exact List.mem_singleton_self parent

/-- Finding the variable of a name refers to it. -/
theorem reads_locate (name : Symbol) :
    Reads licence hold state ScopeError.IsLoss (state.scopes.locate handle name)
      fun last target => last.Has (.reference target) := by
  refine (reads_ownerWithin known name _).bind fun later owner _ both => ?_
  have referred : Deed licence later state (later.addLocation ⟨owner, name⟩) state :=
    .refers both.1 (Or.inr both.2)
  refine fun _ => ⟨_, .deed referred .done, ?_, ?_⟩
  · rintro _ ⟨⟩
    exact Holding.has_reference_iff.2 ⟨both.1, Set.mem_insert _ _⟩
  · rintro _ ⟨⟩

/-- Reading a name in one scope looks into it. -/
theorem reads_getOwn (name : Symbol) :
    Reads licence hold state ScopeError.IsLoss (state.scopes.getOwn handle name)
      fun last found => ∀ value, found = some value →
        last.Has value ∧ state.scopes.Binds handle name := by
  refine (reads_scope known).bind ?_
  rintro later scope _ ⟨found, rfl⟩
  refine reads_ok fun value bound => ⟨?_, scope, found, ?_⟩
  · exact Holding.has_addScope (SymbolMap.mem_values_of_get? bound)
  · rw [SymbolMap.contains, bound]
    rfl

/-- Reading a name looks into the scopes on the way. -/
theorem reads_get (name : Symbol) :
    Reads licence hold state ScopeError.IsLoss (state.scopes.get handle name)
      fun last value => last.Has value := by
  refine (reads_ownerWithin known name _).bind fun later owner _ both => ?_
  refine (reads_getOwn both.1 name).bind fun last found _ has => ?_
  cases found with
  | some value => exact reads_ok (has value rfl).1
  | none => exact reads_error (by rintro ⟨_, ⟨⟩⟩)

end Reading

section References

/-- Reading a variable looks into its scope. -/
theorem reads_stored {target : Location} (has : hold.Has (.reference target)) :
    Reads licence hold state Failure.IsLoss (setting.stored state.scopes target)
      fun last value => last.Has value ∧ state.scopes.Binds target.scope target.name := by
  intro evaluate
  have known := (Holding.has_reference_iff.1 has).1
  obtain ⟨last, course, result, loss⟩ := @reads_getOwn licence hold state _ known target.name evaluate
  refine ⟨last, course, ?_⟩
  unfold Setting.stored
  cases ended : state.scopes.getOwn target.scope target.name with
  | error error =>
    refine ⟨nofun, fun _ _ _ => loss error ended ?_⟩
    rw [Store.getOwn] at ended
    cases found : state.scopes.scope? target.scope with
    | some scope =>
      rw [Store.scope_of_scope? found] at ended
      exact nomatch ended
    | none =>
      rw [Store.scope_of_not_isLive (Store.scope?_eq_none_iff.1 found)] at ended
      exact ⟨_, (Except.error.inj ended).symm⟩
  | ok found =>
    cases found with
    | none =>
      refine ⟨nofun, ?_⟩
      rintro _ ⟨⟩ reclaimed
      exact nomatch reclaimed
    | some value =>
      refine ⟨?_, nofun⟩
      rintro _ ⟨⟩
      exact result _ ended value rfl

/-- Following references from a value in hand looks into the scopes on the way. -/
theorem reads_follow (hops : Nat) {value : Value} (has : hold.Has value) :
    Reads licence hold state Failure.IsLoss (setting.follow state.scopes hops value)
      fun last result => last.Has result := by
  induction hops generalizing hold value with
  | zero =>
    cases value with
    | reference target => exact reads_error nofun
    | _ => exact reads_ok has
  | succ hops ih =>
    cases value with
    | reference target => exact (reads_stored setting has).bind fun _ _ _ both => ih both.1
    | _ => exact reads_ok has

/-- Following references to the last variable looks into the scopes on the way, and the variable is
bound. -/
theorem reads_followLocation (hops : Nat) {target : Location} (has : hold.Has (.reference target)) :
    Reads licence hold state Failure.IsLoss (setting.followLocation state.scopes hops target)
      fun last found => found.scope ∈ last.handles ∧
        state.scopes.Binds found.scope found.name := by
  induction hops generalizing hold target with
  | zero => exact reads_error nofun
  | succ hops ih =>
    refine (reads_stored setting has).bind fun later value more both => ?_
    cases value with
    | reference next => exact ih both.1
    | _ => exact reads_ok ⟨more.2.1 (Holding.has_reference_iff.1 has).1, both.2⟩

/-- Following references from a value in hand follows. -/
theorem follows_resolve {value : Value} (has : hold.Has value) :
    Follows licence hold state (fun _ => resolve setting value)
      fun last _ result => last.Has result := by
  refine follows_scopes.bind fun middle final store more same => ?_
  subst same
  exact follows_ofResult (reads_follow setting _ (has.mono more))

variable {scope : Handle} (known : scope ∈ hold.handles)
include known

/-- Reading a name as it is stored follows. -/
theorem follows_readRaw (name : Symbol) :
    Follows licence hold state (fun _ => readRaw setting scope name)
      fun last _ value => last.Has value :=
  follows_query (setting.isLoss_of_scopeStop name) (reads_get known name)

/-- Reading a name follows. -/
theorem follows_readName (name : Symbol) :
    Follows licence hold state (fun _ => readName setting scope name)
      fun last _ value => last.Has value :=
  (follows_readRaw setting known name).bind fun _ _ _ _ has => follows_resolve setting has

/-- Referring to a name follows. -/
theorem follows_referTo (name : Symbol) :
    Follows licence hold state (fun _ => referTo setting scope name)
      fun last _ value => last.Has value := by
  have located : Follows licence hold state
      (fun _ => query (setting.scopeStop name) fun store => store.locate scope name)
      fun last _ target => last.Has (.reference target) :=
    follows_query (setting.isLoss_of_scopeStop name) (reads_locate known name)
  exact located.bind fun _ _ _ _ has => follows_pure has

/-- Reading the reference that a name holds follows. -/
theorem follows_heldReference (name : Symbol) :
    Follows licence hold state (fun _ => heldReference setting scope name)
      fun last _ target => last.Has (.reference target) := by
  refine (follows_readRaw setting known name).bind fun middle final value _ has => ?_
  cases value with
  | reference target => exact follows_pure has
  | _ => exact follows_fail nofun

end References

section Writing

variable {value : Value} (has : hold.Has value)
include has

/-- Declaring in a frame follows. -/
theorem follows_declare {scope : Handle} (own : scope ∈ hold.frames) (name : Symbol) :
    Follows licence hold state (fun _ => declare setting scope name value) fun _ _ _ => True := by
  refine follows_update fun _ => ⟨hold, fun scopes written => ?_, fun error refused => ?_⟩
  · exact .deed (.declares own has written) .done
  · exact ⟨.done, fun _ =>
      ⟨scope, hold.frames_subset own, Store.not_isLive_of_set_eq_error refused⟩⟩

/-- Binding anew what is bound in a known scope follows. -/
theorem follows_rebind {target : Location} (known : target.scope ∈ hold.handles)
    (bound : state.scopes.Binds target.scope target.name) :
    Follows licence hold state (fun _ => declare setting target.scope target.name value)
      fun _ _ _ => True := by
  refine follows_update fun _ => ⟨hold, fun scopes written => ?_, fun error refused => ?_⟩
  · exact .deed (.rebinds known bound has written) .done
  · exact ⟨.done, fun _ => ⟨target.scope, known, Store.not_isLive_of_set_eq_error refused⟩⟩

/-- Assigning to a name looks for its variable and binds that anew. -/
theorem follows_assign {scope : Handle} (known : scope ∈ hold.handles) (name : Symbol) :
    Follows licence hold state
      (fun _ => update (setting.assignStop name) fun store => store.assign scope name value)
      fun _ _ _ => True := by
  refine follows_update fun evaluate => ?_
  obtain ⟨last, course, result, loss⟩ :=
    @reads_ownerWithin licence hold state _ known name _ evaluate
  refine ⟨last, fun scopes written => ?_, fun error refused => ⟨course, fun reclaimed => ?_⟩⟩
  · obtain ⟨owner, found, written⟩ := Store.exists_set_of_assign written
    obtain ⟨ownerKnown, bound⟩ := result owner found
    exact course.append
      (.deed (.rebinds ownerKnown bound (has.mono course.le) written) .done)
  · have lost := setting.isLoss_of_assignStop name error reclaimed
    unfold Store.assign at refused
    cases found : state.scopes.owner scope name with
    | error first =>
      rw [found] at refused
      obtain rfl : first = error := Except.error.inj refused
      exact loss first found lost
    | ok owner =>
      rw [found] at refused
      exact ⟨owner, (result owner found).1, Store.not_isLive_of_set_eq_error refused⟩

/-- Writing through a reference looks for the last variable and binds that anew. -/
theorem follows_writeThrough {first : Location} (held : hold.Has (.reference first)) :
    Follows licence hold state (fun _ => writeThrough setting first value) fun _ _ _ => True := by
  refine follows_scopes.bind fun middle final store more same => ?_
  subst same
  have chain : Follows licence middle final
      (fun _ => ofResult (setting.resolveLocation final.scopes first))
      fun last later target => later = final ∧ target.scope ∈ last.handles ∧
        final.scopes.Binds target.scope target.name :=
    follows_ofResult ((reads_followLocation setting _ (held.mono more)).mono
      fun _ _ _ both => ⟨rfl, both⟩)
  refine chain.bind ?_
  rintro last _ target further ⟨rfl, known, bound⟩
  exact follows_rebind setting ((has.mono more).mono further) known bound

end Writing

/-- Binding parameters in a frame declares them one by one. -/
theorem follows_setAll {frame : Handle} (own : frame ∈ hold.frames)
    {entries : List (Symbol × Value)} (has : ∀ entry ∈ entries, hold.Has entry.2) :
    Follows licence hold state
      (fun _ => update (fun _ => .failure .reclaimedScope) fun store => store.setAll frame entries)
      fun _ _ _ => True := by
  refine follows_update fun evaluate => ⟨hold, ?_, fun error refused => ⟨.done, fun _ =>
    ⟨frame, hold.frames_subset own, Store.not_isLive_of_setAll_eq_error refused⟩⟩⟩
  induction entries generalizing state with
  | nil =>
    rintro _ ⟨⟩
    exact .done
  | cons entry entries ih =>
    intro scopes written
    rw [Store.setAll] at written
    cases first : state.scopes.set frame entry.1 entry.2 with
    | error error =>
      rw [first] at written
      exact nomatch written
    | ok middle =>
      rw [first] at written
      have declared : Deed licence hold state hold { state with scopes := middle } :=
        .declares own (has entry List.mem_cons_self) first
      have rest : Course licence evaluate hold { state with scopes := middle } [] hold
          { state with scopes } :=
        ih (fun other listed => has other (List.mem_cons_of_mem entry listed)) scopes written
      exact .deed declared rest

end Eval

/-- The entries of the host follow courses: their answers are in hand if the arguments are. -/
def Host.Follows (licence : Eval.Licence) (setting : Setting) (host : Host) : Prop :=
  ∀ entry hold state args, (∀ arg ∈ args, hold.Has arg) →
    Eval.Follows licence hold state
      (fun evaluate => host entry setting (fun callee args => evaluate (.call callee args)) args)
      fun last _ value => last.Has value

namespace Eval

variable {licence : Licence} {hold : Holding} {state : State} (setting : Setting)

section Calls

/-- Checking the number of arguments follows. -/
theorem follows_checkArity (name : String) (expected got : Nat) :
    Follows licence hold state (fun _ => checkArity name expected got) fun _ _ _ => True := by
  unfold checkArity
  split
  · exact follows_pure trivial
  · exact follows_fail (Failure.not_isLoss_wrongArity _ _ _)

/-- Computing an outcome follows. -/
theorem follows_outcome {computed : Except Failure Value} (outcome : BinaryOp.Outcome computed) :
    Follows licence hold state (fun _ => ofResult computed) fun last _ value => last.Has value :=
  follows_ofResult (reads_of_lossless outcome.lossless fun value succeeded =>
    Holding.has_of_handles_eq_nil (outcome.plain value succeeded))

/-- Counting follows. -/
theorem follows_callLen (args : List Value) :
    Follows licence hold state (fun _ => callLen args) fun last _ value => last.Has value := by
  unfold callLen
  split
  · exact follows_outcome (BinaryOp.outcome_checkedInt _ _)
  · exact follows_outcome (BinaryOp.outcome_checkedInt _ _)
  · exact follows_fail nofun
  · exact follows_fail (Failure.not_isLoss_wrongArity _ _ _)

/-- Printing a value follows. -/
theorem follows_callPrint (name : String) (print : Sink → String → Sink) (args : List Value) :
    Follows licence hold state (fun _ => callPrint setting name print args)
      fun last _ value => last.Has value := by
  unfold callPrint
  split
  · exact (follows_write _).bind fun _ _ _ _ _ =>
      follows_pure (Holding.has_of_handles_eq_nil rfl)
  · exact follows_fail (Failure.not_isLoss_wrongArity _ _ _)

/-- A call of a function in hand opens a frame inside its scope. -/
theorem follows_callClosure {function : Closure} (known : function.scope ∈ hold.handles)
    {args : List Value} (has : ∀ arg ∈ args, hold.Has arg) :
    Follows licence hold state (fun evaluate => callClosure setting evaluate function args)
      fun last _ value => last.Has value := by
  unfold callClosure
  refine (follows_checkArity _ _ _).bind fun checked _ _ more _ => ?_
  refine follows_scopes.bind fun read current store further same => ?_
  subst same
  have reached := more.trans further
  cases live : current.scopes.isLive function.scope with
  | true =>
    refine (follows_allocate (reached.2.1 known)).bind fun framed _ frame opened own => ?_
    have bound : ∀ entry ∈ function.params.zip args, framed.Has entry.2 := fun entry listed =>
      (has entry.2 (List.of_mem_zip listed).2).mono (reached.trans opened)
    refine (follows_setAll own bound).bind fun last _ _ filled _ => ?_
    exact follows_ask (filled.1 own)
  | false =>
    refine follows_own fun _ => ⟨read, .done, ?_, ?_⟩
    · rintro _ _ ⟨⟩
    · rintro _ _ ⟨⟩ _
      exact ⟨function.scope, reached.2.1 known, live⟩

variable {args : List Value} (has : ∀ arg ∈ args, hold.Has arg)
include has

/-- Calling a value in hand on each element of an array asks for one call after the other. -/
theorem follows_callMap :
    Follows licence hold state
      (fun evaluate => callMap (fun callee args => evaluate (.call callee args)) args)
      fun last _ value => last.Has value := by
  match args with
  | [callee, collection] =>
    simp only [callMap]
    split
    · cases collection with
      | array items =>
        have members := Holding.has_array_iff.1 (has (.array items) (by simp))
        refine (follows_each fun item listed later next more => ?_).bind
          fun last _ values _ all => follows_pure (Holding.has_array_iff.2 all)
        have admitted : later.Admits (.call callee [item]) :=
          ⟨(has callee (by simp)).mono more, by simpa using (members item listed).mono more⟩
        exact follows_ask admitted
      | _ => exact follows_fail nofun
    · exact follows_fail nofun
  | [] => exact follows_fail (Failure.not_isLoss_wrongArity _ _ _)
  | [value] => exact follows_fail (Failure.not_isLoss_wrongArity _ _ _)
  | first :: second :: third :: rest =>
    exact follows_fail (Failure.not_isLoss_wrongArity _ _ _)

variable {host : Host} (hosts : host.Follows licence setting)
include hosts

/-- Calling a native function follows. -/
theorem follows_callNative (role : NativeRole) :
    Follows licence hold state
      (fun evaluate =>
        callNative setting host (fun callee args => evaluate (.call callee args)) role args)
      fun last _ value => last.Has value := by
  cases role with
  | map => exact follows_callMap has
  | len => exact follows_callLen args
  | print => exact follows_callPrint setting "print" Sink.print args
  | println => exact follows_callPrint setting "println" Sink.println args
  | host entry => exact hosts entry hold state args has

/-- Calling a value in hand with arguments in hand follows. -/
theorem follows_callAny {callee : Value} (held : hold.Has callee) :
    Follows licence hold state (fun evaluate => callAny setting host evaluate callee args)
      fun last _ value => last.Has value := by
  cases callee with
  | function function =>
    exact follows_callClosure setting (Holding.has_function_iff.1 held) has
  | native function => exact follows_callNative setting has hosts function.role
  | _ => exact follows_fail nofun

end Calls

section Objects

/-- Reading a class follows. -/
theorem follows_readClass {scope : Handle} (known : scope ∈ hold.handles) (name : Symbol) :
    Follows licence hold state (fun _ => readClass setting scope name)
      fun last _ owner => owner.scope ∈ last.handles := by
  refine (follows_readName setting known name).bind fun middle final value _ has => ?_
  cases value with
  | classObject owner => exact follows_pure (Holding.has_classObject_iff.1 has)
  | _ => exact follows_fail nofun

/-- Checking the number of constructor arguments follows. -/
theorem follows_checkFieldCount (owner : ClassObject) (got : Nat) :
    Follows licence hold state (fun _ => checkFieldCount setting owner got)
      fun _ _ _ => True := by
  unfold checkFieldCount
  split
  · exact follows_fail nofun
  · exact follows_pure trivial

/-- Expecting an object follows. -/
theorem follows_expectObject {value : Value} (has : hold.Has value) :
    Follows licence hold state (fun _ => expectObject value)
      fun last _ receiver => last.Has (.object receiver) := by
  cases value with
  | object receiver => exact follows_pure has
  | _ => exact follows_fail nofun

/-- Reading a field of an object in hand follows. -/
theorem follows_readField {receiver : Object} (has : hold.Has (.object receiver)) (name : Symbol) :
    Follows licence hold state (fun _ => readField setting receiver name)
      fun last _ value => last.Has value := by
  have storage : receiver.storage ∈ hold.handles := has.handles _ List.mem_cons_self
  have found : Follows licence hold state
      (fun _ => query (setting.scopeStop name) fun store => store.getOwn receiver.storage name)
      fun last _ found => ∀ value, found = some value → last.Has value :=
    follows_query (setting.isLoss_of_scopeStop name) ((reads_getOwn storage name).mono
      fun last found _ held value bound => (held value bound).1)
  refine found.bind fun middle final found _ held => ?_
  cases found with
  | some value => exact follows_resolve setting (held value rfl)
  | none => exact follows_fail nofun

/-- Finding a method of an object in hand follows. -/
theorem follows_findMethod {receiver : Object} (has : hold.Has (.object receiver)) (name : Symbol) :
    Follows licence hold state (fun _ => findMethod setting receiver name)
      fun last _ method => method.scope ∈ last.handles := by
  unfold findMethod
  split
  · rename_i method found
    have listed := SymbolMap.mem_values_of_get? found
    refine follows_pure (has.handles _ ?_)
    exact List.mem_cons_of_mem _ (List.mem_cons_of_mem _ (List.mem_map_of_mem listed))
  · exact follows_fail nofun

variable {owner : ClassObject} {storage : Handle}

/-- The default of an omitted field is evaluated in a frame inside the storage. -/
theorem follows_omittedField (known : storage ∈ hold.handles) (field : FieldDecl) :
    Follows licence hold state (fun evaluate => omittedField evaluate owner storage field)
      fun last _ value => last.Has value := by
  unfold omittedField
  split
  · refine (follows_allocate known).bind fun framed _ frame _ own => ?_
    exact follows_ask own
  · refine follows_pure (Holding.has_of_handles_eq_nil ?_)
    unfold Value.blankFor
    split <;> rfl

/-- Filling fields declares in the storage. -/
theorem follows_fillFields (own : storage ∈ hold.frames) (fields : List FieldDecl)
    {values : List Value} (has : ∀ value ∈ values, hold.Has value) :
    Follows licence hold state
      (fun evaluate => fillFields setting evaluate owner storage fields values)
      fun _ _ _ => True := by
  induction fields generalizing hold state values with
  | nil => exact follows_pure trivial
  | cons field fields ih =>
    cases values with
    | nil =>
      refine (follows_omittedField (hold.frames_subset own) field).bind
        fun middle _ value more held => ?_
      refine (follows_declare setting held (more.1 own) field.name).bind
        fun last _ _ further _ => ?_
      exact ih ((more.trans further).1 own) (by simp)
    | cons value values =>
      have checked : Follows licence hold state
          (fun _ => ofResult (checkTag (setting.text field.name) field.tag value))
          fun _ _ _ => True :=
        follows_ofResult (reads_of_lossless (lossless_checkTag _ _ _) fun _ _ => trivial)
      refine checked.bind fun middle _ _ more _ => ?_
      refine (follows_declare setting ((has value List.mem_cons_self).mono more) (more.1 own)
        field.name).bind fun last _ _ further _ => ?_
      exact ih ((more.trans further).1 own) fun other listed =>
        (has other (List.mem_cons_of_mem value listed)).mono (more.trans further)

/-- Making an object opens its storage as a frame inside the scope of the class. -/
theorem follows_makeObject (known : owner.scope ∈ hold.handles) {values : List Value}
    (has : ∀ value ∈ values, hold.Has value) :
    Follows licence hold state (fun evaluate => makeObject setting evaluate owner values)
      fun last _ value => last.Has value ∧
        ∃ object, value = .object object ∧ object.storage ∈ last.frames := by
  unfold makeObject
  refine (follows_allocate known).bind fun framed _ storage opened own => ?_
  refine (follows_fillFields setting own owner.fields
    fun value listed => (has value listed).mono opened).bind fun filled next _ more _ => ?_
  have code : Follows licence filled next (fun _ => existing (setting.program? owner.program))
      fun _ _ _ => True := follows_existing fun _ _ => trivial
  refine code.bind fun last _ code further _ => follows_pure ?_
  have frame : storage ∈ last.frames := further.1 (more.1 own)
  have inHand : storage ∈ last.handles := last.frames_subset frame
  refine ⟨Holding.has_of_references_eq_nil rfl fun handle held => ?_, _, rfl, frame⟩
  rw [Value.handles, List.mem_cons, List.mem_cons, SymbolMap.values_mapValues, List.map_map,
    List.mem_map] at held
  rcases held with rfl | rfl | ⟨method, _, rfl⟩
  · exact inHand
  · exact ((opened.trans more).trans further).2.1 known
  · exact inHand

end Objects

end Eval

end ScopeMachine
