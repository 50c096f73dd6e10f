import ScopeMachine.Proofs.Evaluation.Frames
import ScopeMachine.Proofs.Scope.Lookup
import ScopeMachine.Proofs.Symbol.Map

/-!
# Frames of calls

A call opens a frame inside the scope of the function and binds the parameters there one after the
other. That comes to the same as allocating the frame with all its bindings at once, so what is
known about allocations tells what the body finds: in the frame the parameters, of equal ones the
last, above it what the function finds, and everywhere else what was there before, also when the
frame takes the slot of a scope that has been reclaimed.
-/

namespace ScopeMachine

namespace SymbolMap

variable {α : Type}

/-- The last entry for a key gives its value. -/
theorem get?_ofList_append_cons {front back : List (Symbol × α)} {key : Symbol} {value : α}
    (last : key ∉ back.map Prod.fst) :
    (ofList (front ++ (key, value) :: back)).get? key = some value := by
  have none : (back.filter fun entry => entry.1 = key) = [] := by
    rw [List.filter_eq_nil_iff]
    intro entry listed same
    exact last (List.mem_map.2 ⟨entry, listed, by simpa using same⟩)
  rw [get?_ofList, List.filter_append, List.filter_cons_of_pos (by simp), none]
  simp

/-- Of names that are paired with values, the last place of a name gives its value. -/
theorem get?_ofList_zip {front back : List Symbol} {key : Symbol} {values : List α} {value : α}
    (last : key ∉ back) (held : values[front.length]? = some value) :
    (ofList ((front ++ key :: back).zip values)).get? key = some value := by
  obtain ⟨inside, rfl⟩ := List.getElem?_eq_some_iff.1 held
  have parts : values = values.take front.length ++
      values[front.length] :: values.drop (front.length + 1) := by
    simp
  have paired : (front ++ key :: back).zip values =
      front.zip (values.take front.length) ++
        (key, values[front.length]) :: back.zip (values.drop (front.length + 1)) := by
    nth_rewrite 1 [parts]
    rw [List.zip_append (by rw [List.length_take]; omega), List.zip_cons_cons]
  rw [paired]
  refine get?_ofList_append_cons fun listed => ?_
  obtain ⟨entry, member, rfl⟩ := List.mem_map.1 listed
  exact last (List.of_mem_zip member).1

/-- A map of a list contains the keys of the entries. -/
theorem contains_ofList (entries : List (Symbol × α)) (key : Symbol) :
    (ofList entries).contains key = true ↔ key ∈ entries.map Prod.fst := by
  rw [contains, get?_ofList, Option.isSome_map, List.getLast?_isSome, ne_eq,
    List.filter_eq_nil_iff]
  simp

end SymbolMap

namespace Store

section Allocation

variable {store : Store} (parent : Option Handle) (bindings : SymbolMap Value)

/-- Which handle an allocation returns does not depend on the bindings. -/
theorem fst_allocate (other : SymbolMap Value) :
    (store.allocate parent bindings).1 = (store.allocate parent other).1 := by
  unfold allocate
  cases store.free <;> rfl

variable (tidy : store.Tidy)
include tidy

/-- Writing to a new scope comes to the same as allocating it with the binding. -/
theorem set_allocate (name : Symbol) (value : Value) :
    (store.allocate parent bindings).2.set (store.allocate parent bindings).1 name value =
      .ok (store.allocate parent (bindings.insert name value)).2 := by
  obtain ⟨after, written⟩ :=
    exists_set_of_isLive (isLive_allocate tidy parent bindings) name value
  obtain ⟨scope, found, rfl⟩ := eq_of_set written
  rw [scope?_allocate parent bindings tidy, if_pos rfl] at found
  obtain rfl := Option.some.inj found
  rw [written]
  cases freed : store.free with
  | nil =>
    have overwritten : ∀ old new : Slot,
        (store.slots.push old).setIfInBounds store.slots.size new = store.slots.push new := by
      grind
    simp only [allocate_of_free_eq_nil freed, capacity, overwritten]
  | cons first rest => simp [allocate_of_free_eq_cons freed]

/-- Binding names in a new scope comes to the same as allocating it with the bindings. -/
theorem setAll_allocate (entries : List (Symbol × Value)) :
    (store.allocate parent bindings).2.setAll (store.allocate parent bindings).1 entries =
      .ok (store.allocate parent
        (entries.foldl (fun map entry => map.insert entry.1 entry.2) bindings)).2 := by
  induction entries generalizing bindings with
  | nil => rfl
  | cons entry entries ih =>
    rw [setAll, set_allocate parent bindings tidy]
    have rest := ih (bindings.insert entry.1 entry.2)
    rw [fst_allocate parent _ bindings] at rest
    exact rest

end Allocation

section Reading

variable {store : Store} (rooted : store.Rooted) (parent : Option Handle)
  (bindings : SymbolMap Value) {handle : Handle} (issued : store.Issued handle) (name : Symbol)
include rooted issued

/-- A search from a handle that has been issued does not notice an allocation. -/
theorem ownerWithin_allocate (bound : Nat) :
    (store.allocate parent bindings).2.ownerWithin name bound handle =
      store.ownerWithin name bound handle := by
  induction bound generalizing handle with
  | zero => rfl
  | succ bound ih =>
    have same := scope?_allocate_of_issued rooted.tidy parent bindings issued
    simp only [ownerWithin, Store.scope, same]
    cases found : store.scope? handle with
    | none => rfl
    | some scope =>
      simp only [bind, Except.bind]
      cases link : scope.parent with
      | none => rfl
      | some above => simp only [ih (rooted.issued found link)]

/-- The owner of a name, from a handle that has been issued, is the same after an allocation. -/
theorem owner_allocate :
    (store.allocate parent bindings).2.owner handle name = store.owner handle name := by
  have room := capacity_le_allocate store parent bindings
  rw [owner, ownerWithin_allocate rooted parent bindings issued]
  exact (rooted.owner_eq_ownerWithin handle name _ (by omega)).symm

/-- Reading from a handle that has been issued does not notice an allocation. -/
theorem get_allocate :
    (store.allocate parent bindings).2.get handle name = store.get handle name := by
  have sameOwner := owner_allocate rooted parent bindings issued name
  cases found : store.owner handle name with
  | error error => rw [get_of_owner_error found, get_of_owner_error (sameOwner.trans found)]
  | ok owner =>
    have bound := (rooted.owner_eq_ok_iff.1 found).2
    obtain ⟨value, held⟩ := binds_iff_getOwn.1 bound
    obtain ⟨scope, live, _⟩ := bound
    have ownerIssued := issued_of_isLive (isLive_iff.2 ⟨scope, live⟩)
    have heldAfter : (store.allocate parent bindings).2.getOwn owner name = .ok (some value) := by
      rw [getOwn, Store.scope, scope?_allocate_of_issued rooted.tidy parent bindings ownerIssued]
      exact held
    rw [get_of_owner found held, get_of_owner (sameOwner.trans found) heldAfter]

end Reading

section Frame

variable {store : Store} (rooted : store.Rooted) {above : Handle} (issued : store.Issued above)
  (bindings : SymbolMap Value) {name : Symbol}
include rooted

/-- A name that a new scope binds is read there. -/
theorem get_allocate_of_get? {value : Value} (bound : bindings.get? name = some value) :
    (store.allocate (some above) bindings).2.get (store.allocate (some above) bindings).1 name =
      .ok value := by
  have held : (store.allocate (some above) bindings).2.getOwn
      (store.allocate (some above) bindings).1 name = .ok (some value) := by
    rw [getOwn, Store.scope, scope?_allocate _ _ rooted.tidy, if_pos rfl]
    exact congrArg Except.ok bound
  exact get_of_owner (owner_of_binds (binds_iff_getOwn.2 ⟨value, held⟩)) held

include issued

/-- A name that a new scope does not bind is read there as from its parent. -/
theorem get_allocate_of_not_contains (distinct : bindings.Distinct)
    (absent : bindings.contains name = false) :
    (store.allocate (some above) bindings).2.get (store.allocate (some above) bindings).1 name =
      store.get above name := by
  let after := (store.allocate (some above) bindings).2
  let frame := (store.allocate (some above) bindings).1
  have found : after.scope? frame = some ⟨some above, bindings⟩ := by
    rw [scope?_allocate _ _ rooted.tidy, if_pos rfl]
  have rootedAfter : after.Rooted :=
    rooted.allocate distinct fun _ same => Option.some.inj same ▸ issued
  have unbound : ¬ after.Binds frame name := by
    rintro ⟨scope, again, contained⟩
    obtain rfl := Option.some.inj (found.symm.trans again)
    exact Bool.false_ne_true (absent.symm.trans contained)
  have sameOwner : after.owner frame name = after.owner above name :=
    rootedAfter.owner_of_hasParent (hasParent_iff.2 ⟨_, found, rfl⟩) unbound
  have passedOn : after.get frame name = after.get above name := by
    rw [Store.get, sameOwner, Store.get]
  exact passedOn.trans (get_allocate rooted _ bindings issued name)

end Frame

/-- The frame is new in the later store. Under the names of the parameters the arguments are read
there, of equal names the last, and under all other names what is read from the scope of the
function. What is read from handles that have been issued before, live or not, is the same. -/
structure Framed (before : Store) (function : Closure) (args : List Value) (frame : Handle)
    (after : Store) : Prop where
  /-- The frame has not been there before. -/
  fresh : ¬ before.Issued frame
  /-- The frame is there. -/
  isLive : after.isLive frame = true
  /-- The last parameter of a name stands for the argument at its place. -/
  param : ∀ front name back, function.params = front ++ name :: back → name ∉ back →
    ∃ value, args[front.length]? = some value ∧ after.get frame name = .ok value
  /-- Any other name is left to the scope of the function. -/
  other : ∀ name, name ∉ function.params →
    after.get frame name = before.get function.scope name
  /-- Nothing else is read differently. -/
  unchanged : ∀ handle name, before.Issued handle → after.get handle name = before.get handle name

/-- An allocation with the arguments under the names of the parameters makes a frame. -/
theorem Rooted.framed_allocate {store : Store} (rooted : store.Rooted) {function : Closure}
    (live : store.isLive function.scope = true) {args : List Value}
    (counted : function.arity = args.length) :
    let bindings := SymbolMap.ofList (function.params.zip args)
    store.Framed function args (store.allocate (some function.scope) bindings).1
      (store.allocate (some function.scope) bindings).2 := by
  intro bindings
  have issued := issued_of_isLive live
  have names : (function.params.zip args).map Prod.fst = function.params :=
    List.map_fst_zip (Nat.le_of_eq counted)
  constructor
  case fresh => exact not_issued_allocate rooted.tidy _ _
  case isLive => exact isLive_allocate rooted.tidy _ _
  case param =>
    intro front name back split last
    have inside : front.length < args.length := by
      rw [← counted, Closure.arity, split, List.length_append, List.length_cons]
      omega
    have held : args[front.length]? = some args[front.length] := List.getElem?_eq_getElem inside
    have bound : bindings.get? name = some args[front.length] := by
      change (SymbolMap.ofList (function.params.zip args)).get? name = _
      rw [split]
      exact SymbolMap.get?_ofList_zip last held
    exact ⟨args[front.length], held, get_allocate_of_get? rooted bindings bound⟩
  case other =>
    intro name foreign
    refine get_allocate_of_not_contains rooted issued bindings (SymbolMap.distinct_ofList _) ?_
    rw [Bool.eq_false_iff, ne_eq, SymbolMap.contains_ofList, names]
    exact foreign
  case unchanged =>
    intro handle name held
    exact get_allocate rooted _ bindings held name

end Store

namespace Eval

variable (setting : Setting) (evaluate : Evaluator) {function : Closure} {args : List Value}
  {state : State}

/-- A call with the wrong number of arguments is refused and changes nothing. -/
theorem callClosure_of_arity_ne (miscounted : function.arity ≠ args.length) :
    callClosure setting evaluate function args state =
      .error (.failure (.wrongArity (closureName setting function) function.arity args.length))
        state := by
  unfold callClosure checkArity
  rw [if_neg miscounted]
  rfl

/-- A call with the right number of arguments evaluates the body in a scope inside the scope of the
function that is allocated with the arguments under the names of the parameters. -/
theorem callClosure_of_arity_eq (tidy : state.scopes.Tidy)
    (live : state.scopes.isLive function.scope = true)
    (counted : function.arity = args.length) :
    let opened := state.scopes.allocate (some function.scope) (.ofList (function.params.zip args))
    callClosure setting evaluate function args state =
      evaluate (.node function.program function.body opened.1)
        { state with scopes := opened.2 } := by
  intro opened
  let frame := (state.scopes.allocateEmpty (some function.scope)).1
  let bare : State := { state with scopes := (state.scopes.allocateEmpty (some function.scope)).2 }
  have checked : checkArity (closureName setting function) function.arity args.length state =
      .ok () state := by
    rw [checkArity, if_pos counted]
    rfl
  have framed : allocate (some function.scope) state = .ok frame bare := rfl
  have bindAll : bare.scopes.setAll frame (function.params.zip args) = .ok opened.2 :=
    Store.setAll_allocate (some function.scope) .empty tidy _
  have filled : update (fun _ => .failure .reclaimedScope)
      (fun store => store.setAll frame (function.params.zip args)) bare =
        .ok () { state with scopes := opened.2 } := by
    simp only [update, bindAll]
    rfl
  have sameFrame : opened.1 = frame := Store.fst_allocate _ _ _
  unfold callClosure
  rw [bind_of_ok checked, bind_of_ok (show scopes state = .ok state.scopes state from rfl),
    if_pos live, bind_of_ok framed, bind_of_ok filled, sameFrame]

/-- A run of a body does not take its frame back: if the frame was not there before it was opened,
the store after the run is another one. -/
theorem scopes_run_ne_of_fresh {licence : Licence} {setting : Setting} {host : Host}
    (hosts : host.Follows licence setting) (depth : Nat) (task : Task) (start : State)
    (tidy : start.scopes.Tidy) {before : Store} {frame : Handle} (fresh : ¬ before.Issued frame)
    (live : start.scopes.isLive frame = true) :
    ((run setting host depth task).after start).scopes ≠ before := by
  have kept := ((conserves_keeping licence setting).run hosts depth task start tidy).keeps
  have issued := kept.evolves.issued frame (Store.issued_of_isLive live)
  rintro rfl
  exact fresh issued

/-- In every state whose store has a history in which parents are handles that earlier allocations
have returned and no slot is reclaimed 2 ^ 32 times, for a function whose scope is live:

* a call with another number of arguments than of parameters fails for that reason and changes
  nothing;
* no other call fails and leaves the store as it is, as long as the entries of the host do no more
  than runs do and reclaim no slot in its last generation;
* every other call evaluates the body in a frame for the arguments. -/
theorem call_frames_lexical {history : List Command} (founded : Store.empty.Founded [] history)
    (few : ∀ index, Store.empty.reclaims index history < 2 ^ 32) {state : State}
    (reached : state.scopes = Store.empty.replay history) {function : Closure}
    (live : state.scopes.isLive function.scope = true) (setting : Setting) (args : List Value) :
    (args.length ≠ function.params.length → ∀ evaluate,
      callClosure setting evaluate function args state =
        .error (.failure (.wrongArity (closureName setting function) function.params.length
          args.length)) state) ∧
    (∀ licence host depth, Host.Follows licence setting host →
      ((∃ stop final, final.scopes = state.scopes ∧
        callClosure setting (run setting host depth) function args state = .error stop final) ↔
          args.length ≠ function.params.length)) ∧
    (args.length = function.params.length → ∃ frame scopes,
      (∀ evaluate, callClosure setting evaluate function args state =
        evaluate (.node function.program function.body frame) { state with scopes }) ∧
      state.scopes.Framed function args frame scopes) := by
  have rooted : state.scopes.Rooted :=
    reached ▸ (@Store.Settled.replay _ _ [] history Store.settled_empty founded
      (Store.lasting_empty few)).2.1
  let opened := state.scopes.allocate (some function.scope) (.ofList (function.params.zip args))
  refine ⟨fun miscounted evaluate => ?refused, fun licence host depth hosts => ⟨?framed, ?kept⟩,
    fun counted => ?called⟩
  case refused => exact callClosure_of_arity_ne setting evaluate miscounted.symm
  case framed =>
    rintro ⟨stop, final, unchanged, ended⟩ counted
    have framed := rooted.framed_allocate live counted.symm
    rw [callClosure_of_arity_eq setting _ rooted.tidy live counted.symm] at ended
    have tidy : opened.2.Tidy := rooted.tidy.allocate _ _ (SymbolMap.distinct_ofList _)
    have changed := scopes_run_ne_of_fresh hosts depth
      (.node function.program function.body opened.1) { state with scopes := opened.2 } tidy
      framed.fresh framed.isLive
    rw [after_of_error ended] at changed
    exact changed unchanged
  case kept =>
    intro miscounted
    exact ⟨_, state, rfl, callClosure_of_arity_ne setting _ miscounted.symm⟩
  case called =>
    refine ⟨opened.1, opened.2, fun evaluate => ?_, rooted.framed_allocate live counted.symm⟩
    exact callClosure_of_arity_eq setting evaluate rooted.tidy live counted.symm

/-- A root binds a name, a scope inside it binds two others and is reclaimed. -/
def vacatingHistory : List Command :=
  [.allocate none [(⟨0⟩, .int 7)], .allocate (some ⟨0, 0⟩) [(⟨1⟩, .int 8), (⟨3⟩, .int 9)],
    .collect [⟨0, 0⟩]]

/-- The slot of the inner scope is free. Marking does not compute, so it is carried out by its
equations. -/
theorem perform_vacating :
    Store.perform
        ⟨#[⟨0, some ⟨none, ⟨[(⟨0⟩, .int 7)]⟩⟩⟩,
          ⟨0, some ⟨some ⟨0, 0⟩, ⟨[(⟨1⟩, .int 8), (⟨3⟩, .int 9)]⟩⟩⟩], []⟩ (.collect [⟨0, 0⟩]) =
      ⟨#[⟨0, some ⟨none, ⟨[(⟨0⟩, .int 7)]⟩⟩⟩, ⟨1, none⟩], [1]⟩ := by
  simp [Store.perform, Store.collect, Store.marks, Store.mark, Store.scope?, Scope.edges,
    SymbolMap.values, Value.handles, Store.capacity]
  rfl

/-- A function with two parameters of one name is called where a slot has been vacated. With one
argument too few the call is refused; with the right number it does not leave the store as it is. The
body finds the last argument of that name, the argument of the other and the name of the root, and
nothing of the scope that had the slot. -/
theorem call_frames_lexical_vacatingHistory :
    let scopes := Store.empty.replay vacatingHistory
    let state : State := ⟨scopes, .silent⟩
    let setting : Setting := ⟨.empty, #[], ⟨0, 0⟩, 10⟩
    let function : Closure := ⟨none, [⟨1⟩, ⟨2⟩, ⟨1⟩], ⟨0⟩, ⟨0, 0⟩, ⟨0⟩⟩
    let evaluate := run setting (.quiet .void) 3
    callClosure setting evaluate function [.int 1, .int 2] state =
      .error (.failure (.wrongArity "" 3 2)) state ∧
    (∀ stop final, callClosure setting evaluate function [.int 1, .int 2, .int 3] state =
      .error stop final → final.scopes ≠ scopes) ∧
    ∃ frame opened,
      callClosure setting evaluate function [.int 1, .int 2, .int 3] state =
        evaluate (.node ⟨0⟩ ⟨0⟩ frame) ⟨opened, .silent⟩ ∧
      opened.get frame ⟨1⟩ = .ok (.int 3) ∧ opened.get frame ⟨2⟩ = .ok (.int 2) ∧
      opened.get frame ⟨0⟩ = .ok (.int 7) ∧ opened.get frame ⟨3⟩ = .error .undefined := by
  intro scopes state setting function evaluate
  have now : scopes = ⟨#[⟨0, some ⟨none, ⟨[(⟨0⟩, .int 7)]⟩⟩⟩, ⟨1, none⟩], [1]⟩ := perform_vacating
  have founded : Store.empty.Founded [] vacatingHistory :=
    ⟨by decide, by decide, by decide, trivial⟩
  have few : ∀ index, Store.empty.reclaims index vacatingHistory < 2 ^ 32 := fun index =>
    Nat.lt_of_le_of_lt (Store.reclaims_le_length Store.empty index _) (by decide)
  have live : state.scopes.isLive function.scope = true := by
    change scopes.isLive ⟨0, 0⟩ = true
    rw [now]
    rfl
  have follows : Host.Follows ⟨False, True⟩ setting (.quiet .void) :=
    Host.quiet_follows (Or.inl trivial) setting
  obtain ⟨_, changes, calls⟩ :=
    call_frames_lexical founded few rfl live setting [.int 1, .int 2, .int 3]
  refine ⟨?_, fun stop final ended unchanged => ?_, ?_⟩
  · exact (call_frames_lexical founded few rfl live setting [.int 1, .int 2]).1 (by decide) evaluate
  · exact (changes _ _ 3 follows).1 ⟨stop, final, unchanged, ended⟩ rfl
  · obtain ⟨frame, opened, called, framed⟩ := calls rfl
    refine ⟨frame, opened, called evaluate, ?_, ?_, ?_, ?_⟩
    · obtain ⟨value, held, read⟩ := framed.param [⟨1⟩, ⟨2⟩] ⟨1⟩ [] rfl (by decide)
      obtain rfl := Option.some.inj held
      exact read
    · obtain ⟨value, held, read⟩ := framed.param [⟨1⟩] ⟨2⟩ [⟨1⟩] rfl (by decide)
      obtain rfl := Option.some.inj held
      exact read
    · rw [framed.other ⟨0⟩ (by decide)]
      change scopes.get ⟨0, 0⟩ ⟨0⟩ = _
      rw [now]
      rfl
    · rw [framed.other ⟨3⟩ (by decide)]
      change scopes.get ⟨0, 0⟩ ⟨3⟩ = _
      rw [now]
      rfl

end Eval

end ScopeMachine
