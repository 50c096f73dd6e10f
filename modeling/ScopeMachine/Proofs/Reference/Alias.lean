import ScopeMachine.Proofs.Reference.Chain

/-!
# Aliases of a variable

Two stores that differ in the value of one variable, which both bind, have the same owners for all
names. When the variable holds no reference before and after, all chains stop where they stopped, so
the references that lead to the variable read the new value and all others read what they read
before. The same goes for names, by what they own.

Assignment through a reference leaves such a pair of stores: the state in which its operand ends, and
that state with the last variable of the chain rewritten.
-/

namespace ScopeMachine

namespace Store

/-- The second store has the value in the variable and is like the first in everything else. -/
structure Rewritten (store after : Store) (target : Location) (value : Value) : Prop where
  /-- There are as many slots. -/
  capacity : after.capacity = store.capacity
  /-- The same slots are free. -/
  free : after.free = store.free
  /-- Slots keep their generations. -/
  generation : ∀ index, after.generation index = store.generation index
  /-- The same handles are live, with the same parents. -/
  parent : ∀ handle, after.parent handle = store.parent handle
  /-- The variable has the value, and all others are as they were. -/
  getOwn : ∀ place : Location, after.getOwn place.scope place.name =
    if place = target then .ok (some value) else store.getOwn place.scope place.name

/-- A write rewrites one variable. -/
theorem rewritten_set {store after : Store} {target : Location} {value : Value}
    (written : store.set target.scope target.name value = .ok after) :
    store.Rewritten after target value where
  capacity := capacity_set written
  free := by
    obtain ⟨_, _, rfl⟩ := eq_of_set written
    rfl
  generation := generation_set written
  parent := parent_set written
  getOwn := by
    intro place
    have same : place = target ↔ place.scope = target.scope ∧ place.name = target.name := by
      cases place
      cases target
      simp
    rw [getOwn_set written]
    exact if_congr same.symm rfl rfl

/-- The search for an owner asks a scope for the name and, where the name is not bound, for the
parent. -/
theorem ownerWithin_succ (store : Store) (name : Symbol) (bound : Nat) (handle : Handle) :
    store.ownerWithin name (bound + 1) handle =
      match store.getOwn handle name, store.parent handle with
      | .error error, _ => .error error
      | .ok (some _), _ => .ok handle
      | .ok none, .ok (some above) => store.ownerWithin name bound above
      | .ok none, .ok none => .error .undefined
      | .ok none, .error error => .error error := by
  rw [ownerWithin, Store.getOwn, Store.parent, Store.scope]
  cases store.scope? handle with
  | none => rfl
  | some scope =>
    cases held : scope.bindings.get? name with
    | none =>
      cases link : scope.parent <;>
        simp [SymbolMap.contains, held, link, bind, Except.bind, pure, Except.pure, throw, throwThe,
          MonadExceptOf.throw]
    | some value => simp [SymbolMap.contains, held, bind, Except.bind, pure, Except.pure]

/-- The value of a name is the value of the variable that it stands for. -/
theorem get_eq_locate (store : Store) (handle : Handle) (name : Symbol) :
    store.get handle name = (do
      let place ← store.locate handle name
      match ← store.getOwn place.scope place.name with
      | some value => return value
      | none => throw .undefined) := by
  unfold get locate
  cases store.owner handle name <;> rfl

/-- A name has the value of the variable that it stands for. -/
theorem get_of_located {store : Store} {handle : Handle} {name : Symbol} {place : Location}
    {value : Value} (located : store.locate handle name = .ok place)
    (held : store.getOwn place.scope place.name = .ok (some value)) :
    store.get handle name = .ok value := by
  obtain ⟨same, owned⟩ := locate_eq_ok_iff.1 located
  subst same
  exact get_of_owner owned held

/-- A name with a value stands for a variable that holds it. -/
theorem exists_located_of_get {store : Store} {handle : Handle} {name : Symbol} {value : Value}
    (read : store.get handle name = .ok value) :
    ∃ place, store.locate handle name = .ok place ∧
      store.getOwn place.scope place.name = .ok (some value) := by
  rw [get_eq_locate] at read
  cases located : store.locate handle name with
  | error error =>
    rw [located] at read
    cases read
  | ok place =>
    rw [located] at read
    change (store.getOwn place.scope place.name >>= _) = _ at read
    refine ⟨place, rfl, ?_⟩
    cases held : store.getOwn place.scope place.name with
    | error error =>
      rw [held] at read
      cases read
    | ok content =>
      rw [held] at read
      cases content <;> cases read
      rfl

namespace Rewritten

variable {store after : Store} {target : Location} {value : Value}
  (rewritten : store.Rewritten after target value)
  (bound : store.Binds target.scope target.name)
include rewritten bound

/-- Names keep their owners. -/
theorem locate_eq (handle : Handle) (name : Symbol) :
    after.locate handle name = store.locate handle name := by
  have owners : ∀ steps handle,
      after.ownerWithin name steps handle = store.ownerWithin name steps handle := by
    intro steps
    induction steps with
    | zero => exact fun _ => rfl
    | succ steps ih =>
      intro handle
      have held := rewritten.getOwn ⟨handle, name⟩
      rw [ownerWithin_succ, ownerWithin_succ, rewritten.parent handle]
      by_cases same : (⟨handle, name⟩ : Location) = target
      · -- the variable is bound before and after, so the search ends at it both times
        subst same
        obtain ⟨old, read⟩ := binds_iff_getOwn.1 bound
        rw [if_pos rfl] at held
        rw [held, read]
      · rw [if_neg same] at held
        simp only [held, ih]
  simp only [locate, owner, rewritten.capacity, owners]

/-- A name that stands for the variable has the value. -/
theorem get_of_locate {handle : Handle} {name : Symbol}
    (located : store.locate handle name = .ok target) : after.get handle name = .ok value := by
  have same := (rewritten.locate_eq bound handle name).trans located
  refine get_of_located same ?_
  rw [rewritten.getOwn, if_pos rfl]

/-- Other names keep their values. -/
theorem get_of_locate_ne {handle : Handle} {name : Symbol}
    (other : store.locate handle name ≠ .ok target) :
    after.get handle name = store.get handle name := by
  rw [get_eq_locate, get_eq_locate, rewritten.locate_eq bound]
  cases located : store.locate handle name with
  | error error => rfl
  | ok place =>
    have apart : place ≠ target := by
      rintro rfl
      exact other located
    have held := rewritten.getOwn place
    rw [if_neg apart] at held
    simp only [bind, Except.bind, held]

end Rewritten

end Store

namespace Setting

variable (setting : Setting) {store after : Store} {target : Location} {value old : Value}
  (rewritten : store.Rewritten after target value)

include rewritten in
/-- All variables but one are read as before. -/
theorem stored_of_rewritten (place : Location) :
    setting.stored after place =
      if place = target then .ok value else setting.stored store place := by
  unfold stored
  rw [rewritten.getOwn]
  by_cases same : place = target
  · rw [if_pos same, if_pos same]
  · rw [if_neg same, if_neg same]

variable (held : store.getOwn target.scope target.name = .ok (some old))
  (plainBefore : old.isReference = false) (plain : value.isReference = false)
include rewritten held plainBefore plain

/-- With no reference in the variable before and after, chains stop where they stopped. -/
theorem followLocation_of_rewritten (hops : Nat) (first : Location) :
    setting.followLocation after hops first = setting.followLocation store hops first := by
  induction hops generalizing first with
  | zero => rfl
  | succ hops ih =>
    by_cases same : first = target
    · subst same
      have now : after.getOwn first.scope first.name = .ok (some value) := by
        rw [rewritten.getOwn, if_pos rfl]
      rw [Stops.followLocation_eq (.plain now plain), Stops.followLocation_eq (.plain held plainBefore)]
    · have read := setting.stored_of_rewritten rewritten first
      rw [if_neg same] at read
      rw [followLocation, followLocation, read]
      cases setting.stored store first with
      | error failure => rfl
      | ok other =>
        cases other with
        | reference next => exact ih next
        | _ => rfl

/-- References that lead to the variable read its value. -/
theorem resolve_of_alias {first : Location}
    (leads : setting.resolveLocation store first = .ok target) :
    setting.resolve after (.reference first) = .ok value := by
  have found : setting.resolveLocation after first = .ok target := by
    rw [resolveLocation, setting.followLocation_of_rewritten rewritten held plainBefore plain]
    exact leads
  rw [resolve_reference, found]
  change setting.stored after target = .ok value
  rw [setting.stored_of_rewritten rewritten, if_pos rfl]

/-- Other references read what they read before. -/
theorem resolve_of_not_alias {first : Location}
    (other : setting.resolveLocation store first ≠ .ok target) :
    setting.resolve after (.reference first) = setting.resolve store (.reference first) := by
  have found : setting.resolveLocation after first = setting.resolveLocation store first :=
    setting.followLocation_of_rewritten rewritten held plainBefore plain setting.maxHops first
  rw [resolve_reference, resolve_reference, found]
  cases ends : setting.resolveLocation store first with
  | error failure => rfl
  | ok last =>
    have apart : last ≠ target := by
      rintro rfl
      exact other ends
    change setting.stored after last = setting.stored store last
    rw [setting.stored_of_rewritten rewritten, if_neg apart]

end Setting

/-- The variable that a name stands for is the target, or holds a reference that leads to it. -/
def Setting.Denotes (setting : Setting) (store : Store) (scope : Handle) (name : Symbol)
    (target : Location) : Prop :=
  ∃ place, store.locate scope name = .ok place ∧
    (place = target ∨ ∃ first, store.getOwn place.scope place.name = .ok (some (.reference first)) ∧
      setting.resolveLocation store first = .ok target)

namespace Eval

/-- Result or stop of an evaluation, without the state that it leaves. -/
def answer {α : Type} (evaluation : Eval α) (state : State) : Except Stop α :=
  match evaluation state with
  | .ok value _ => .ok value
  | .error stop _ => .error stop

/-- A name that has no value is answered with the reason. -/
theorem answer_readName_of_error {setting : Setting} {scope : Handle} {name : Symbol}
    {state : State} {error : ScopeError} (failed : state.scopes.get scope name = .error error) :
    (readName setting scope name).answer state = .error (setting.scopeStop name error) := by
  rw [answer, readName, bind_of_error (readRaw_of_error failed)]

/-- A name that has a value is answered with what the value leads to. -/
theorem answer_readName_of_get {setting : Setting} {scope : Handle} {name : Symbol} {state : State}
    {value : Value} (held : state.scopes.get scope name = .ok value) :
    (readName setting scope name).answer state =
      (setting.resolve state.scopes value).mapError .failure := by
  rw [answer, readName_of_get held]
  cases setting.resolve state.scopes value <;> rfl

end Eval

/-- How the value of a variable is seen after it has been rewritten, from every reference and every
name. -/
structure Setting.Seen (setting : Setting) (before after : State) (target : Location)
    (value : Value) : Prop where
  /-- References that led to the variable read the value. -/
  reference : ∀ first, setting.resolveLocation before.scopes first = .ok target →
    setting.resolve after.scopes (.reference first) = .ok value
  /-- Other references read the value that they read before, or fail as before. -/
  otherReference : ∀ first, setting.resolveLocation before.scopes first ≠ .ok target →
    setting.resolve after.scopes (.reference first) =
      setting.resolve before.scopes (.reference first)
  /-- Names that stood for the variable or for a reference to it read the value. -/
  name : ∀ scope name, setting.Denotes before.scopes scope name target →
    (Eval.readName setting scope name).answer after = .ok value
  /-- Other names read the value that they read before, or fail as before. -/
  otherName : ∀ scope name, ¬ setting.Denotes before.scopes scope name target →
    (Eval.readName setting scope name).answer after =
      (Eval.readName setting scope name).answer before

section Rewriting

variable {setting : Setting} {before after : State} {target : Location} {value old : Value}
  (rewritten : before.scopes.Rewritten after.scopes target value)
  (held : before.scopes.getOwn target.scope target.name = .ok (some old))
  (plainBefore : old.isReference = false) (plain : value.isReference = false)
include rewritten held plainBefore plain

/-- A name that stood for the variable, or for a reference to it, reads the value. -/
theorem Setting.answer_readName_of_denotes {scope : Handle} {name : Symbol}
    (denotes : setting.Denotes before.scopes scope name target) :
    (Eval.readName setting scope name).answer after = .ok value := by
  have bound := Store.binds_iff_getOwn.2 ⟨old, held⟩
  obtain ⟨place, located, ends⟩ := denotes
  by_cases same : place = target
  · subst same
    have now := rewritten.get_of_locate bound located
    rw [Eval.answer_readName_of_get now, resolve,
      setting.follow_of_isReference_eq_false after.scopes setting.maxHops plain]
    rfl
  · obtain ⟨first, link, leads⟩ := ends.resolve_left same
    have other : before.scopes.locate scope name ≠ .ok target := by
      rw [located]
      exact fun equal => same (Except.ok.inj equal)
    have now : after.scopes.get scope name = .ok (.reference first) :=
      (rewritten.get_of_locate_ne bound other).trans (Store.get_of_located located link)
    rw [Eval.answer_readName_of_get now,
      setting.resolve_of_alias rewritten held plainBefore plain leads]
    rfl

/-- Other names read what they read before. -/
theorem Setting.answer_readName_of_not_denotes {scope : Handle} {name : Symbol}
    (apart : ¬ setting.Denotes before.scopes scope name target) :
    (Eval.readName setting scope name).answer after =
      (Eval.readName setting scope name).answer before := by
  have other : before.scopes.locate scope name ≠ .ok target :=
    fun located => apart ⟨target, located, Or.inl rfl⟩
  have same := rewritten.get_of_locate_ne (Store.binds_iff_getOwn.2 ⟨old, held⟩) other
  cases read : before.scopes.get scope name with
  | error error =>
    rw [Eval.answer_readName_of_error read, Eval.answer_readName_of_error (same.trans read)]
  | ok content =>
    rw [Eval.answer_readName_of_get read, Eval.answer_readName_of_get (same.trans read)]
    cases content with
    | reference first =>
      obtain ⟨place, located, link⟩ := Store.exists_located_of_get read
      have elsewhere : setting.resolveLocation before.scopes first ≠ .ok target :=
        fun leads => apart ⟨place, located, Or.inr ⟨first, link, leads⟩⟩
      rw [setting.resolve_of_not_alias rewritten held plainBefore plain elsewhere]
    | _ =>
      rw [resolve, resolve, setting.follow_of_isReference_eq_false after.scopes _ rfl,
        setting.follow_of_isReference_eq_false before.scopes _ rfl]

/-- A variable that held no reference and is rewritten to hold none is seen by exactly its
aliases. -/
theorem Setting.seen_of_rewritten : setting.Seen before after target value where
  reference := fun _ => setting.resolve_of_alias rewritten held plainBefore plain
  otherReference := fun _ => setting.resolve_of_not_alias rewritten held plainBefore plain
  name := fun _ _ => answer_readName_of_denotes rewritten held plainBefore plain
  otherName := fun _ _ => answer_readName_of_not_denotes rewritten held plainBefore plain

end Rewriting

namespace Eval

/-- A name that holds no reference gives none to write through, and nothing changes. -/
theorem exists_heldReference_eq_error {setting : Setting} {scope : Handle} {name : Symbol}
    {state : State} (none : ∀ first, state.scopes.get scope name ≠ .ok (.reference first)) :
    ∃ stop, heldReference setting scope name state = .error stop state := by
  cases held : state.scopes.get scope name with
  | error error =>
    rw [heldReference, bind_of_error (readRaw_of_error held)]
    exact ⟨_, rfl⟩
  | ok value =>
    rw [heldReference, bind_of_ok (readRaw_of_get held)]
    cases value with
    | reference first => exact absurd held (none first)
    | _ => exact ⟨_, rfl⟩

/-- Writing through a reference writes to the variable that it leads to. -/
theorem exists_of_writeThrough {setting : Setting} {first : Location} {value : Value}
    {state final : State} (ended : writeThrough setting first value state = .ok () final) :
    ∃ target, setting.resolveLocation state.scopes first = .ok target ∧
      final.output = state.output ∧ state.scopes.Rewritten final.scopes target value := by
  obtain ⟨target, found⟩ := (exists_writeThrough_iff value).1 ⟨final, ended⟩
  rw [writeThrough_of_ok found] at ended
  obtain ⟨scopes, written, rfl⟩ := exists_of_declare ended
  exact ⟨target, found, rfl, Store.rewritten_set written⟩

/-- Writing through a reference that fails changes nothing. -/
theorem eq_of_writeThrough_eq_error {setting : Setting} {first : Location} {value : Value}
    {state final : State} {stop : Stop}
    (ended : writeThrough setting first value state = .error stop final) : final = state := by
  cases found : setting.resolveLocation state.scopes first with
  | error failure =>
    rw [writeThrough_of_error found] at ended
    cases ended
    rfl
  | ok target =>
    obtain ⟨after, written⟩ := (exists_writeThrough_iff value).2 ⟨target, found⟩
    exact nomatch written.symm.trans ended

section Assignment

variable {setting : Setting} {host : Host} {evaluate : Evaluator} {frame : Frame}
  {name : Symbol} {operand : NodeId} {before after : State}

/-- An assignment through a reference reads the reference first, then evaluates its operand, and then
writes to the variable that the reference leads to. -/
theorem stepKind_assignThrough {first : Location}
    (held : before.scopes.get frame.scope name = .ok (.reference first)) :
    stepKind setting host evaluate frame (.assignThrough name operand) before =
      (evaluate (frame.task operand) >>= fun value =>
        writeThrough setting first value >>= fun _ => pure Value.void) before :=
  bind_of_ok (heldReference_of_get held)

/-- Where the name holds no reference, an assignment through it fails at once. -/
theorem stepKind_assignThrough_of_ne
    (none : ∀ first, before.scopes.get frame.scope name ≠ .ok (.reference first)) :
    ∃ stop, stepKind setting host evaluate frame (.assignThrough name operand) before =
      .error stop before := by
  obtain ⟨stop, failed⟩ := exists_heldReference_eq_error none
  exact ⟨stop, bind_of_error failed⟩

/-- An assignment through a reference that succeeds leaves the state in which its operand ends, with
the variable rewritten that the reference leads to there. -/
theorem exists_of_assignThrough {result : Value}
    (ended : stepKind setting host evaluate frame (.assignThrough name operand) before =
      .ok result after) :
    ∃ first value middle target,
      before.scopes.get frame.scope name = .ok (.reference first) ∧
      evaluate (frame.task operand) before = .ok value middle ∧
      setting.resolveLocation middle.scopes first = .ok target ∧
      result = .void ∧ after.output = middle.output ∧
      middle.scopes.Rewritten after.scopes target value := by
  by_cases holds : ∃ first, before.scopes.get frame.scope name = .ok (.reference first)
  · obtain ⟨first, held⟩ := holds
    rw [stepKind_assignThrough held] at ended
    obtain ⟨value, middle, evaluated, writing⟩ := exists_of_bind_eq_ok ended
    obtain ⟨_, final, written, done⟩ := exists_of_bind_eq_ok writing
    cases done
    obtain ⟨target, found, output, rewritten⟩ := exists_of_writeThrough written
    exact ⟨first, value, middle, target, held, evaluated, found, rfl, output, rewritten⟩
  · obtain ⟨stop, failed⟩ := stepKind_assignThrough_of_ne (not_exists.1 holds)
    exact nomatch failed.symm.trans ended

/-- An assignment through a reference that fails leaves the state in which its operand ends, or the
state before it when it does not come to its operand. -/
theorem of_assignThrough_eq_error {stop : Stop}
    (ended : stepKind setting host evaluate frame (.assignThrough name operand) before =
      .error stop after) :
    (∃ first, before.scopes.get frame.scope name = .ok (.reference first)) ∧
        after = (evaluate (frame.task operand)).after before ∨
      (∀ first, before.scopes.get frame.scope name ≠ .ok (.reference first)) ∧ after = before := by
  by_cases holds : ∃ first, before.scopes.get frame.scope name = .ok (.reference first)
  · refine Or.inl ⟨holds, ?_⟩
    obtain ⟨first, held⟩ := holds
    rw [stepKind_assignThrough held] at ended
    rcases of_bind_eq_error ended with failed | ⟨value, middle, evaluated, writing⟩
    · exact (after_of_error failed).symm
    · rw [after_of_ok evaluated]
      rcases of_bind_eq_error writing with failed | ⟨_, _, _, done⟩
      · exact eq_of_writeThrough_eq_error failed
      · exact nomatch done
  · obtain ⟨other, failed⟩ := stepKind_assignThrough_of_ne (not_exists.1 holds)
    cases failed.symm.trans ended
    exact Or.inr ⟨not_exists.1 holds, rfl⟩

end Assignment

/-- An assignment through a reference is seen by exactly the aliases of the variable written. For
every state and scope and every node that is such an assignment:

* when it succeeds, its name held a reference before the operand was evaluated, the operand has
  ended with a value, and the variable to which that reference leads in the state where the operand
  ended has the value now, while nothing else has changed; and when the value is no reference, it is
  read from exactly the references and names that led to the variable in that state, and all others
  read what they read there;
* when it fails, the state is the one in which the operand ended, or the one before when the name
  held no reference. -/
theorem assignThrough_seen_by_aliases {setting : Setting} {program : ProgramId} {id : NodeId}
    {name : Symbol} {operand : NodeId}
    (hasKind : setting.kind? program id = some (.assignThrough name operand)) (host : Host)
    (depth : Nat) (scope : Handle) (before : State) :
    (∀ result after,
      run setting host (depth + 1) (.node program id scope) before = .ok result after →
      ∃ first value middle target,
        before.scopes.get scope name = .ok (.reference first) ∧
        run setting host depth (.node program operand scope) before = .ok value middle ∧
        setting.resolveLocation middle.scopes first = .ok target ∧
        result = .void ∧ after.output = middle.output ∧
        middle.scopes.Rewritten after.scopes target value ∧
        (value.isReference = false → setting.Seen middle after target value)) ∧
    (∀ stop after,
      run setting host (depth + 1) (.node program id scope) before = .error stop after →
      (∃ first, before.scopes.get scope name = .ok (.reference first)) ∧
          after = (run setting host depth (.node program operand scope)).after before ∨
        (∀ first, before.scopes.get scope name ≠ .ok (.reference first)) ∧ after = before) := by
  obtain ⟨code, node, hasCode, hasNode, kind⟩ := exists_node_of_kind? hasKind
  rw [run_succ, step_node hasCode hasNode, kind]
  constructor
  · intro result after ended
    obtain ⟨first, value, middle, target, held, evaluated, found, void, output, rewritten⟩ :=
      exists_of_assignThrough (eq_ok_of_located ended)
    refine ⟨first, value, middle, target, held, evaluated, found, void, output, rewritten, ?_⟩
    intro plain
    obtain ⟨_, old, bound, plainBefore⟩ := Setting.resolveLocation_eq_ok_iff.1 found
    exact Setting.seen_of_rewritten rewritten bound plainBefore plain
  · intro stop after ended
    obtain ⟨reason, failed⟩ := exists_error_of_located ended
    exact of_assignThrough_eq_error failed

/-- Assignment through a name, whose operand is a block that makes the name refer to another variable
and ends with 7. -/
def redirectingProgram : Program :=
  { nodes := #[⟨.reference ⟨12⟩, .dummy⟩, ⟨.assign ⟨10⟩ ⟨0⟩, .dummy⟩, ⟨.int 7, .dummy⟩,
      ⟨.block ⟨0, 2⟩, .dummy⟩, ⟨.assignThrough ⟨10⟩ ⟨3⟩, .dummy⟩]
    lists := #[⟨1⟩, ⟨2⟩]
    params := #[]
    classes := #[] }

/-- Setting with the program and a limit of two hops. -/
def redirectingSetting : Setting := ⟨.initial, #[redirectingProgram], ⟨0, 0⟩, 2⟩

/-- State with a variable, two references to it and another variable. -/
def redirectingState : State :=
  { scopes := ⟨#[⟨0, some ⟨none, ⟨[(⟨9⟩, .int 1), (⟨10⟩, .reference ⟨⟨0, 0⟩, ⟨9⟩⟩),
      (⟨11⟩, .reference ⟨⟨0, 0⟩, ⟨9⟩⟩), (⟨12⟩, .int 5)]⟩⟩⟩], []⟩
    output := .silent }

/-- State in which the block ends. -/
def redirectedState : State :=
  { scopes := ⟨#[⟨0, some ⟨none, ⟨[(⟨9⟩, .int 1), (⟨10⟩, .reference ⟨⟨0, 0⟩, ⟨12⟩⟩),
      (⟨11⟩, .reference ⟨⟨0, 0⟩, ⟨9⟩⟩), (⟨12⟩, .int 5)]⟩⟩⟩, ⟨0, some ⟨some ⟨0, 0⟩, .empty⟩⟩], []⟩
    output := .silent }

/-- The variable that the name referred to at first is written: the other reference reads the value,
and the name, which refers to the other variable now, reads what that holds. -/
theorem assignThrough_seen_by_aliases_redirecting :
    ∃ after,
      run redirectingSetting Host.standard 4 (.node ⟨0⟩ ⟨4⟩ ⟨0, 0⟩) redirectingState =
        .ok .void after ∧
      (readName redirectingSetting ⟨0, 0⟩ ⟨11⟩).answer after = .ok (.int 7) ∧
      (readName redirectingSetting ⟨0, 0⟩ ⟨10⟩).answer after = .ok (.int 5) := by
  have hasKind : redirectingSetting.kind? ⟨0⟩ ⟨4⟩ = some (.assignThrough ⟨10⟩ ⟨3⟩) := rfl
  have ends : run redirectingSetting Host.standard 3 (.node ⟨0⟩ ⟨3⟩ ⟨0, 0⟩) redirectingState =
      .ok (.int 7) redirectedState := rfl
  obtain ⟨first, value, middle, target, held, evaluated, found, _, _, _, seen⟩ :=
    (assignThrough_seen_by_aliases hasKind Host.standard 3 ⟨0, 0⟩ redirectingState).1 _ _ rfl
  cases ends.symm.trans evaluated
  -- the reference read first and the variable that it leads to are the ones before the block
  cases (show Except.ok (Value.reference ⟨⟨0, 0⟩, ⟨9⟩⟩) = Except.ok (.reference first) from held)
  cases (show Except.ok (⟨⟨0, 0⟩, ⟨9⟩⟩ : Location) = Except.ok target from found)
  refine ⟨_, rfl, (seen rfl).name _ _ ⟨⟨⟨0, 0⟩, ⟨11⟩⟩, rfl, Or.inr ⟨_, rfl, rfl⟩⟩, ?_⟩
  refine ((seen rfl).otherName _ _ ?_).trans rfl
  rintro ⟨place, located, stands⟩
  cases (show Except.ok (⟨⟨0, 0⟩, ⟨10⟩⟩ : Location) = Except.ok place from located)
  rcases stands with here | ⟨next, link, leads⟩
  · exact absurd here (by decide)
  · cases (show Except.ok (some (Value.reference ⟨⟨0, 0⟩, ⟨12⟩⟩)) =
      Except.ok (some (.reference next)) from link)
    exact nomatch (show Except.ok (⟨⟨0, 0⟩, ⟨12⟩⟩ : Location) = Except.ok ⟨⟨0, 0⟩, ⟨9⟩⟩ from leads)

end Eval

end ScopeMachine
