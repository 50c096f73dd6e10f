import ScopeMachine.Proofs.Evaluation.Frames

/-!
# How objects are made

A construction that gives an object has opened its storage, a scope that is new, inside the scope of
the class and has declared all fields there. The defaults of omitted fields are evaluated in frames
of their own, so whatever they declare, assign or collect, the storage binds the names of the fields
filled so far and no others. The methods are those of the class, bound to the storage.
-/

namespace ScopeMachine

/-- Names of the fields of a class. -/
def ClassObject.fieldNames (owner : ClassObject) : Set Symbol :=
  {name | ∃ field ∈ owner.fields, field.name = name}

/-- The storage of an object is inside the scope of the class and binds the names of the fields. -/
def Store.Houses (store : Store) (object : Object) : Prop :=
  store.Shaped object.storage object.owner.scope object.owner.fieldNames

/-- The methods of the object are those of its class, bound to the storage. -/
def Object.Equipped (setting : Setting) (object : Object) : Prop :=
  ∃ code, setting.program? object.owner.program = some code ∧
    object.methods = object.owner.methods.mapValues
      (Eval.bindMethod code object.owner object.storage)

/-- The object has been made between two stores: its storage is new and as the class has it, and so
are the methods. -/
structure Object.Born (setting : Setting) (object : Object) (before after : Store) : Prop where
  /-- The methods are bound to the storage. -/
  equipped : object.Equipped setting
  /-- The storage is new. -/
  fresh : ¬ before.Issued object.storage
  /-- The storage binds the fields. -/
  houses : after.Houses object

namespace Eval

/-- A located evaluation gives a result only where the evaluation does. -/
theorem eq_ok_of_located {α : Type} {span : Span} {evaluation : Eval α} {state final : State}
    {value : α} (ended : located span evaluation state = .ok value final) :
    evaluation state = .ok value final := by
  unfold located at ended
  cases begun : evaluation state with
  | ok result later =>
    rw [begun] at ended
    exact ended
  | error stop later =>
    rw [begun] at ended
    cases stop <;> cases ended

/-- A located evaluation stops only where the evaluation does, and leaves the same state. -/
theorem exists_error_of_located {α : Type} {span : Span} {evaluation : Eval α}
    {state final : State} {stop : Stop} (ended : located span evaluation state = .error stop final) :
    ∃ reason, evaluation state = .error reason final := by
  unfold located at ended
  cases begun : evaluation state with
  | ok value later =>
    rw [begun] at ended
    cases ended
  | error reason later =>
    rw [begun] at ended
    cases reason <;> cases ended <;> exact ⟨_, rfl⟩

/-- What was expected to exist did exist. -/
theorem eq_some_of_existing {α : Type} {found : Option α} {state final : State} {value : α}
    (ended : existing found state = .ok value final) : found = some value ∧ final = state := by
  cases found with
  | none => cases ended
  | some other =>
    cases ended
    exact ⟨rfl, rfl⟩

/-- A declaration that succeeds has written its binding. -/
theorem exists_of_declare {setting : Setting} {scope : Handle} {name : Symbol} {value : Value}
    {state final : State} (ended : declare setting scope name value state = .ok () final) :
    ∃ scopes, state.scopes.set scope name value = .ok scopes ∧ final = { state with scopes } := by
  unfold declare update at ended
  cases written : state.scopes.set scope name value with
  | ok scopes =>
    simp only [written] at ended
    cases ended
    exact ⟨scopes, rfl, rfl⟩
  | error error =>
    simp only [written] at ended
    cases ended

section Making

variable {licence : Licence} {setting : Setting} {host : Host}
  (hosts : host.Follows licence setting) (depth : Nat)
include hosts

/-- Work that follows leaves a store in order and keeps parents and names outside its frames. -/
theorem keeps_of_follows {α : Type} {hold : Holding} {state final : State}
    {work : Evaluator → Eval α} {fits : Holding → State → α → Prop} {value : α}
    (follows : Follows licence hold state work fits) (tidy : state.scopes.Tidy)
    (ended : work (run setting host depth) state = .ok value final) :
    final.scopes.Tidy ∧ state.scopes.Keeps hold.frames final.scopes := by
  obtain ⟨last, _, passed, _⟩ := (conserves_keeping licence setting).follows hosts depth follows
  rw [after_of_ok ended] at passed
  exact ⟨(passed tidy).tidy, (passed tidy).keeps⟩

variable {owner : ClassObject} {storage : Handle}

/-- Filling a field declares it in the storage, after work that has no frame there. -/
theorem exists_of_fillFields_cons {field : FieldDecl} {fields : List FieldDecl}
    {values : List Value} {state final : State} (tidy : state.scopes.Tidy)
    (filled : fillFields setting (run setting host depth) owner storage (field :: fields) values
      state = .ok () final) :
    ∃ (value : Value) (before : State) (after : Store) (others : List Value),
      before.scopes.Tidy ∧ state.scopes.Keeps ∅ before.scopes ∧
      before.scopes.set storage field.name value = .ok after ∧
      fillFields setting (run setting host depth) owner storage fields others
        { before with scopes := after } = .ok () final := by
  let hold : Holding := ⟨∅, {storage}, ∅, Set.empty_subset _⟩
  cases values with
  | nil =>
    obtain ⟨value, before, omitted, declaring⟩ := exists_of_bind_eq_ok filled
    obtain ⟨_, _, declared, rest⟩ := exists_of_bind_eq_ok declaring
    obtain ⟨after, written, rfl⟩ := exists_of_declare declared
    have follows : Follows licence hold state
        (fun evaluate => omittedField evaluate owner storage field) _ :=
      follows_omittedField (Set.mem_singleton storage) field
    have kept := keeps_of_follows hosts depth follows tidy omitted
    exact ⟨value, before, after, [], kept.1, kept.2, written, rest⟩
  | cons value values =>
    obtain ⟨_, before, checked, declaring⟩ := exists_of_bind_eq_ok filled
    obtain ⟨_, _, declared, rest⟩ := exists_of_bind_eq_ok declaring
    obtain ⟨after, written, rfl⟩ := exists_of_declare declared
    have follows : Follows licence hold state
        (fun _ => ofResult (checkTag (setting.text field.name) field.tag value))
        fun _ _ _ => True :=
      follows_ofResult (reads_of_lossless (lossless_checkTag _ _ _) fun _ _ => trivial)
    have kept := keeps_of_follows hosts depth follows tidy checked
    exact ⟨value, before, after, values, kept.1, kept.2, written, rest⟩

/-- Filling fields adds their names to those that the storage binds. -/
theorem shaped_fillFields {fields : List FieldDecl} {values : List Value} {state final : State}
    {parent : Handle} {names : Set Symbol} (tidy : state.scopes.Tidy)
    (shaped : state.scopes.Shaped storage parent names)
    (filled : fillFields setting (run setting host depth) owner storage fields values state =
      .ok () final) :
    final.scopes.Shaped storage parent (names ∪ {name | ∃ field ∈ fields, field.name = name}) := by
  induction fields generalizing values state names with
  | nil =>
    cases filled
    simpa using shaped
  | cons field fields ih =>
    obtain ⟨value, before, after, others, tidyBefore, keeps, written, rest⟩ :=
      exists_of_fillFields_cons hosts depth tidy filled
    have declared := (shaped.keep keeps (Set.notMem_empty storage)).set written
    have result := ih (tidyBefore.set written) declared rest
    have sameNames : names ∪ {name | ∃ other ∈ field :: fields, other.name = name} =
        insert field.name names ∪ {name | ∃ other ∈ fields, other.name = name} := by
      ext name
      simp only [Set.mem_union, Set.mem_ofPred_eq, Set.mem_insert_iff, List.exists_mem_cons_iff]
      tauto
    rw [sameNames]
    exact result

/-- Making an object opens a new scope as its storage and fills it; the methods are bound to it. -/
theorem born_of_makeObject {values : List Value} {state final : State} {value : Value}
    (tidy : state.scopes.Tidy)
    (made : makeObject setting (run setting host depth) owner values state = .ok value final) :
    ∃ object, value = .object object ∧ object.Born setting state.scopes final.scopes := by
  obtain ⟨storage, opened, allocated, rest⟩ := exists_of_bind_eq_ok made
  obtain ⟨rfl, rfl⟩ : storage = (state.scopes.allocateEmpty (some owner.scope)).1 ∧
      opened = { state with scopes := (state.scopes.allocateEmpty (some owner.scope)).2 } := by
    cases allocated
    exact ⟨rfl, rfl⟩
  obtain ⟨_, filled, filling, rest⟩ := exists_of_bind_eq_ok rest
  obtain ⟨code, last, found, given⟩ := exists_of_bind_eq_ok rest
  obtain ⟨hasCode, rfl⟩ := eq_some_of_existing found
  cases given
  have empty := Store.shaped_allocateEmpty tidy owner.scope
  have shaped := shaped_fillFields hosts depth (tidy.allocate _ _ SymbolMap.distinct_empty) empty
    filling
  rw [Set.empty_union] at shaped
  exact ⟨_, rfl, ⟨code, hasCode, rfl⟩, Store.not_issued_allocate tidy _ _, shaped⟩

/-- A construction that gives a result has made an object. -/
theorem born_of_construct {program : ProgramId} {id : NodeId} {scope : Handle}
    {ownerName : Symbol} {args : NodeRange} {state final : State} {value : Value}
    (constructs : setting.kind? program id = some (.construct ownerName args))
    (tidy : state.scopes.Tidy)
    (ended : run setting host (depth + 1) (.node program id scope) state = .ok value final) :
    ∃ object, value = .object object ∧ object.Born setting state.scopes final.scopes := by
  obtain ⟨code, node, hasCode, hasNode, sameKind⟩ := exists_node_of_kind? constructs
  rw [run_succ, step_node hasCode hasNode, sameKind] at ended
  have constructed := eq_ok_of_located ended
  obtain ⟨found, first, readOwner, rest⟩ := exists_of_bind_eq_ok constructed
  obtain ⟨_, second, counted, rest⟩ := exists_of_bind_eq_ok rest
  obtain ⟨values, third, evaluated, made⟩ := exists_of_bind_eq_ok rest
  have own : scope ∈ (Holding.ofFrame scope).frames := Set.mem_singleton scope
  have afterRead := keeps_of_follows hosts depth
    (follows_readClass setting (Holding.frames_subset _ own) ownerName) tidy readOwner
  have counts : Follows licence (.ofFrame scope) first
      (fun _ => checkFieldCount setting found args.length) fun _ _ _ => True :=
    follows_checkFieldCount setting found args.length
  have afterCount := keeps_of_follows hosts depth counts afterRead.1 counted
  have afterArguments := keeps_of_follows hosts depth
    (follows_arguments own args) afterCount.1 evaluated
  obtain ⟨object, rfl, born⟩ := born_of_makeObject hosts depth afterArguments.1 made
  refine ⟨object, rfl, born.equipped, fun issued => born.fresh ?_, born.houses⟩
  exact afterArguments.2.evolves.issued _
    (afterCount.2.evolves.issued _ (afterRead.2.evolves.issued _ issued))

end Making

end Eval

end ScopeMachine
