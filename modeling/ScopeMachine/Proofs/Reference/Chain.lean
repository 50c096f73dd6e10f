import ScopeMachine.Proofs.Evaluation.Birth
import ScopeMachine.Proofs.Scope.Lookup

/-!
# Chains of references

From a variable one follows references from variable to variable, as long as each holds one. The
chain stops at a variable that holds something else, that is not bound, or whose scope is not live;
or it never stops, as a circle does not.

Reading and writing through a reference walk the same chain: writing is to the variable where the
chain stops and reading reads that variable. Both come to it when fewer references lead there than
the hop limit, and both fail alike when it is not bound or lost, or when the chain goes on at the
limit.
-/

namespace ScopeMachine

/-- Whether a value is a reference. -/
def Value.isReference : Value → Bool
  | .reference _ => true
  | _ => false

namespace Store

/-- Variable that a variable holds a reference to. -/
def link? (store : Store) (place : Location) : Option Location :=
  match store.getOwn place.scope place.name with
  | .ok (some (.reference next)) => some next
  | _ => none

/-- Variable that a number of references leads to, as long as the variables before it hold
references. -/
def chain (store : Store) (first : Location) : Nat → Option Location
  | 0 => some first
  | hops + 1 => (store.chain first hops).bind store.link?

/-- Fewer references than the limit lead from the first variable to the last. -/
def Leads (store : Store) (limit : Nat) (first last : Location) : Prop :=
  ∃ hops < limit, store.chain first hops = some last

section Chains

variable {store : Store} {first last : Location}

/-- A chain goes on from each of its variables. -/
theorem chain_add (store : Store) (first : Location) (hops further : Nat) :
    store.chain first (hops + further) =
      (store.chain first hops).bind fun middle => store.chain middle further := by
  induction further with
  | zero => simp [chain]
  | succ further ih =>
    rw [← Nat.add_assoc, chain, ih, Option.bind_assoc]
    rfl

/-- A chain that goes far goes less far too. -/
theorem isSome_chain_of_le {hops further : Nat} (within : hops ≤ further)
    (long : (store.chain first further).isSome = true) : (store.chain first hops).isSome = true := by
  obtain ⟨rest, rfl⟩ := Nat.exists_eq_add_of_le within
  rw [chain_add] at long
  cases reached : store.chain first hops with
  | none => simp [reached] at long
  | some middle => rfl

/-- A chain that comes back to a variable goes on for ever. -/
theorem isSome_chain_of_repeat {early late : Nat} (later : early < late)
    (once : store.chain first early = some last) (again : store.chain first late = some last)
    (hops : Nat) : (store.chain first hops).isSome = true := by
  let period := late - early
  have round : store.chain last period = some last := by
    have split := chain_add store first early period
    rw [show early + period = late by omega, once, again] at split
    exact split.symm
  have rounds : ∀ count, store.chain last (period * count) = some last := by
    intro count
    induction count with
    | zero => rfl
    | succ count ih => rw [Nat.mul_succ, chain_add, ih, Option.bind_some, round]
  have far : store.chain first (early + period * hops) = some last := by
    rw [chain_add, once, Option.bind_some, rounds]
  have positive : 0 < period := Nat.sub_pos_of_lt later
  have within : hops ≤ early + period * hops :=
    Nat.le_trans (Nat.le_mul_of_pos_left hops positive) (Nat.le_add_left _ _)
  exact isSome_chain_of_le within (by rw [far]; rfl)

/-- A variable of a scope that is not live cannot be read. -/
theorem getOwn_eq_error_iff {handle : Handle} {name : Symbol} {error : ScopeError} :
    store.getOwn handle name = .error error ↔
      store.isLive handle = false ∧ error = .dangling handle := by
  unfold getOwn Store.scope isLive
  cases store.scope? handle with
  | none => simp [bind, Except.bind, eq_comm]
  | some scope => simp [bind, Except.bind, pure, Except.pure]

end Chains

end Store

namespace Setting

variable {setting : Setting} {store : Store} {first last : Location}

/-- A chain stops at the variable, with the result for whoever looks for the variable. -/
inductive Stops (setting : Setting) (store : Store) (last : Location) :
    Except Failure Location → Prop where
  /-- The variable holds a value that is no reference. -/
  | plain {value : Value} (held : store.getOwn last.scope last.name = .ok (some value))
    (plain : value.isReference = false) : Stops setting store last (.ok last)
  /-- The variable is not bound. -/
  | unbound (absent : store.getOwn last.scope last.name = .ok none) :
    Stops setting store last (.error (.unbound (setting.text last.name)))
  /-- The scope of the variable is not live. -/
  | lost (stale : store.isLive last.scope = false) :
    Stops setting store last (.error .reclaimedScope)

/-- A chain stops at a variable, or the variable holds a reference. -/
theorem stops_or_link (setting : Setting) (store : Store) (place : Location) :
    (∃ result, setting.Stops store place result) ∨ ∃ next, store.link? place = some next := by
  cases read : store.getOwn place.scope place.name with
  | error error => exact Or.inl ⟨_, .lost (Store.getOwn_eq_error_iff.1 read).1⟩
  | ok held =>
    cases held with
    | none => exact Or.inl ⟨_, .unbound read⟩
    | some value =>
      cases value with
      | reference next => exact Or.inr ⟨next, by simp [Store.link?, read]⟩
      | _ => exact Or.inl ⟨_, .plain read rfl⟩

/-- A variable that holds a reference is followed to the next one. -/
theorem followLocation_of_link {next : Location} (held : store.link? first = some next)
    (hops : Nat) :
    setting.followLocation store (hops + 1) first = setting.followLocation store hops next := by
  unfold Store.link? at held
  split at held
  · next target read =>
    cases held
    simp [followLocation, stored, read, bind, Except.bind]
  · cases held

/-- A variable at which the chain stops gives its result. -/
theorem Stops.followLocation_eq {result : Except Failure Location}
    (stops : setting.Stops store last result) (hops : Nat) :
    setting.followLocation store (hops + 1) last = result := by
  cases stops with
  | @plain value held plain =>
    have read : setting.stored store last = .ok value := by simp [stored, held]
    cases value with
    | reference next => cases plain
    | _ => simp [followLocation, read, bind, Except.bind, pure, Except.pure]
  | unbound absent => simp [followLocation, stored, absent, bind, Except.bind]
  | lost stale =>
    have read : store.getOwn last.scope last.name = .error (.dangling last.scope) :=
      Store.getOwn_eq_error_iff.2 ⟨stale, rfl⟩
    simp [followLocation, stored, read, bind, Except.bind]

/-- Along a chain the hops are used up. -/
theorem followLocation_of_chain {hops : Nat} (reached : store.chain first hops = some last)
    (further : Nat) :
    setting.followLocation store (hops + further) first =
      setting.followLocation store further last := by
  induction hops generalizing last further with
  | zero =>
    cases reached
    rw [Nat.zero_add]
  | succ hops ih =>
    obtain ⟨middle, before, held⟩ := Option.bind_eq_some_iff.1 reached
    rw [Nat.add_right_comm, Nat.add_assoc, ih before, followLocation_of_link held]

/-- Within a number of hops a chain stops or it is still going on. -/
theorem exists_stops_or_isSome (setting : Setting) (store : Store) (first : Location) (hops : Nat) :
    (∃ last result, store.Leads hops first last ∧ setting.Stops store last result) ∨
      (store.chain first hops).isSome = true := by
  induction hops with
  | zero => exact Or.inr rfl
  | succ hops ih =>
    rcases ih with ⟨last, result, ⟨count, few, reached⟩, stops⟩ | long
    · exact Or.inl ⟨last, result, ⟨count, Nat.lt_succ_of_lt few, reached⟩, stops⟩
    · obtain ⟨last, reached⟩ := Option.isSome_iff_exists.1 long
      rcases setting.stops_or_link store last with ⟨result, stops⟩ | ⟨next, held⟩
      · exact Or.inl ⟨last, result, ⟨hops, Nat.lt_succ_self hops, reached⟩, stops⟩
      · exact Or.inr (by simp [Store.chain, reached, held])

/-- The variable to write to is the one at which the chain stops below the limit, with the failure
there; a chain that goes on at the limit is too long. -/
theorem resolveLocation_eq_iff {result : Except Failure Location} :
    setting.resolveLocation store first = result ↔
      (∃ last, store.Leads setting.maxHops first last ∧ setting.Stops store last result) ∨
        (store.chain first setting.maxHops).isSome = true ∧
          result = .error (.chainTooLong setting.maxHops) := by
  have stopped : ∀ {last result}, store.Leads setting.maxHops first last →
      setting.Stops store last result → setting.resolveLocation store first = result := by
    rintro last result ⟨hops, few, reached⟩ stops
    obtain ⟨rest, same⟩ := Nat.exists_eq_add_of_lt few
    rw [resolveLocation, same, Nat.add_assoc, followLocation_of_chain reached,
      stops.followLocation_eq]
  have endless : (store.chain first setting.maxHops).isSome = true →
      setting.resolveLocation store first = .error (.chainTooLong setting.maxHops) := by
    intro long
    obtain ⟨last, reached⟩ := Option.isSome_iff_exists.1 long
    rw [resolveLocation]
    exact followLocation_of_chain reached 0
  constructor
  · rintro rfl
    rcases setting.exists_stops_or_isSome store first setting.maxHops with
      ⟨last, result, leads, stops⟩ | long
    · exact Or.inl ⟨last, leads, stopped leads stops ▸ stops⟩
    · exact Or.inr ⟨long, endless long⟩
  · rintro (⟨last, leads, stops⟩ | ⟨long, rfl⟩)
    · exact stopped leads stops
    · exact endless long

/-- A value that is no reference is not followed. -/
theorem follow_of_isReference_eq_false (setting : Setting) (store : Store) (hops : Nat)
    {value : Value} (plain : value.isReference = false) :
    setting.follow store hops value = .ok value := by
  cases value with
  | reference target => cases plain
  | _ => cases hops <;> rfl

/-- Reading through a reference reads the variable that would be written. -/
theorem follow_reference (setting : Setting) (store : Store) (hops : Nat) (first : Location) :
    setting.follow store hops (.reference first) =
      setting.followLocation store hops first >>= setting.stored store := by
  induction hops generalizing first with
  | zero => rfl
  | succ hops ih =>
    simp only [follow, followLocation]
    cases read : setting.stored store first with
    | error failure => rfl
    | ok value =>
      cases value with
      | reference next => exact ih next
      | _ =>
        change setting.follow store hops _ = setting.stored store first
        rw [follow_of_isReference_eq_false setting store hops rfl, read]

/-- Reading through a reference reads the variable that would be written. -/
theorem resolve_reference (setting : Setting) (store : Store) (first : Location) :
    setting.resolve store (.reference first) =
      setting.resolveLocation store first >>= setting.stored store :=
  setting.follow_reference store setting.maxHops first

/-- Where there is a variable to write to, it holds a value that is no reference. -/
theorem resolveLocation_eq_ok_iff :
    setting.resolveLocation store first = .ok last ↔
      store.Leads setting.maxHops first last ∧
        ∃ value, store.getOwn last.scope last.name = .ok (some value) ∧
          value.isReference = false := by
  rw [resolveLocation_eq_iff]
  constructor
  · rintro (⟨place, leads, stops⟩ | ⟨_, failed⟩)
    · cases stops with
      | @plain value held plain => exact ⟨leads, value, held, plain⟩
    · cases failed
  · rintro ⟨leads, value, held, plain⟩
    exact Or.inl ⟨last, leads, .plain held plain⟩

/-- Reading gives the value at which the chain stops. -/
theorem resolve_eq_ok_iff {value : Value} :
    setting.resolve store (.reference first) = .ok value ↔
      ∃ last, store.Leads setting.maxHops first last ∧
        store.getOwn last.scope last.name = .ok (some value) ∧ value.isReference = false := by
  rw [resolve_reference]
  constructor
  · intro read
    cases found : setting.resolveLocation store first with
    | error failure =>
      rw [found] at read
      cases read
    | ok last =>
      obtain ⟨leads, other, held, plain⟩ := resolveLocation_eq_ok_iff.1 found
      have same : setting.stored store last = .ok value := by rwa [found] at read
      rw [stored, held] at same
      cases same
      exact ⟨last, leads, held, plain⟩
  · rintro ⟨last, leads, held, plain⟩
    rw [resolveLocation_eq_ok_iff.2 ⟨leads, value, held, plain⟩]
    change setting.stored store last = .ok value
    rw [stored, held]

/-- Reading fails exactly as finding the variable to write to does. -/
theorem resolve_eq_error_iff {failure : Failure} :
    setting.resolve store (.reference first) = .error failure ↔
      setting.resolveLocation store first = .error failure := by
  cases found : setting.resolveLocation store first with
  | error other =>
    rw [resolve_reference, found]
    exact ⟨fun same => congrArg Except.error (Except.error.inj same),
      fun same => congrArg Except.error (Except.error.inj same)⟩
  | ok last =>
    obtain ⟨leads, value, held, plain⟩ := resolveLocation_eq_ok_iff.1 found
    rw [resolve_eq_ok_iff.2 ⟨last, leads, held, plain⟩]
    constructor
    · exact fun same => nomatch same
    · exact fun same => nomatch same

/-- Reading never gives a reference. -/
theorem isReference_of_resolve {value result : Value} (read : setting.resolve store value = .ok result) :
    result.isReference = false := by
  cases value with
  | reference first => exact (resolve_eq_ok_iff.1 read).elim fun _ both => both.2.2
  | _ =>
    rw [resolve, follow_of_isReference_eq_false setting store _ rfl] at read
    cases read
    rfl

/-- What reading and writing through a reference to a variable come to. -/
structure Walked (setting : Setting) (store : Store) (first : Location) : Prop where
  /-- Reading gives the value that is no reference in a variable below the limit. -/
  read : ∀ value, setting.resolve store (.reference first) = .ok value ↔
    ∃ last, store.Leads setting.maxHops first last ∧
      store.getOwn last.scope last.name = .ok (some value) ∧ value.isReference = false
  /-- Writing is to the same variable. -/
  written : ∀ last, setting.resolveLocation store first = .ok last ↔
    store.Leads setting.maxHops first last ∧
      ∃ value, store.getOwn last.scope last.name = .ok (some value) ∧ value.isReference = false
  /-- Writing fails as reading does. -/
  alike : ∀ failure, setting.resolveLocation store first = .error failure ↔
    setting.resolve store (.reference first) = .error failure
  /-- A variable below the limit is not bound in its live scope. -/
  unbound : ∀ text, setting.resolve store (.reference first) = .error (.unbound text) ↔
    ∃ last, store.Leads setting.maxHops first last ∧
      store.getOwn last.scope last.name = .ok none ∧ setting.text last.name = text
  /-- The scope of a variable below the limit is not live. -/
  lost : setting.resolve store (.reference first) = .error .reclaimedScope ↔
    ∃ last, store.Leads setting.maxHops first last ∧ store.isLive last.scope = false
  /-- All variables below the limit hold references. -/
  tooLong : setting.resolve store (.reference first) = .error (.chainTooLong setting.maxHops) ↔
    (store.chain first setting.maxHops).isSome = true
  /-- There is no other failure. -/
  only : ∀ failure, setting.resolve store (.reference first) = .error failure →
    (∃ text, failure = .unbound text) ∨ failure = .reclaimedScope ∨
      failure = .chainTooLong setting.maxHops

/-- Reading and writing through a reference walk one chain. -/
theorem walked (setting : Setting) (store : Store) (first : Location) :
    setting.Walked store first := by
  constructor
  case read => exact fun value => resolve_eq_ok_iff
  case written => exact fun last => resolveLocation_eq_ok_iff
  case alike => exact fun failure => resolve_eq_error_iff.symm
  case unbound =>
    intro text
    rw [resolve_eq_error_iff, resolveLocation_eq_iff]
    constructor
    · rintro (⟨last, leads, stops⟩ | ⟨_, failed⟩)
      · generalize same : Except.error (Failure.unbound text) = result at stops
        cases stops with
        | plain => cases same
        | unbound absent =>
          cases same
          exact ⟨last, leads, absent, rfl⟩
        | lost => cases same
      · cases failed
    · rintro ⟨last, leads, absent, rfl⟩
      exact Or.inl ⟨last, leads, .unbound absent⟩
  case lost =>
    rw [resolve_eq_error_iff, resolveLocation_eq_iff]
    constructor
    · rintro (⟨last, leads, stops⟩ | ⟨_, failed⟩)
      · generalize same : Except.error Failure.reclaimedScope = result at stops
        cases stops with
        | plain => cases same
        | unbound => cases same
        | lost stale => exact ⟨last, leads, stale⟩
      · cases failed
    · rintro ⟨last, leads, stale⟩
      exact Or.inl ⟨last, leads, .lost stale⟩
  case tooLong =>
    rw [resolve_eq_error_iff, resolveLocation_eq_iff]
    constructor
    · rintro (⟨last, leads, stops⟩ | ⟨long, _⟩)
      · generalize same : Except.error (Failure.chainTooLong setting.maxHops) = result at stops
        cases stops <;> cases same
      · exact long
    · exact fun long => Or.inr ⟨long, rfl⟩
  case only =>
    intro failure failed
    rw [resolve_eq_error_iff, resolveLocation_eq_iff] at failed
    rcases failed with ⟨last, leads, stops⟩ | ⟨_, same⟩
    · cases stops with
      | unbound absent => exact Or.inl ⟨_, rfl⟩
      | lost stale => exact Or.inr (Or.inl rfl)
    · cases same
      exact Or.inr (Or.inr rfl)

end Setting

namespace Eval

section Names

variable {setting : Setting} {scope : Handle} {name : Symbol} {state : State}

/-- A name that has a value is read as it is stored. -/
theorem readRaw_of_get {value : Value} (held : state.scopes.get scope name = .ok value) :
    readRaw setting scope name state = .ok value state := by
  simp [readRaw, query, held]

/-- A name that has no value stops with the reason. -/
theorem readRaw_of_error {error : ScopeError} (failed : state.scopes.get scope name = .error error) :
    readRaw setting scope name state = .error (setting.scopeStop name error) state := by
  simp [readRaw, query, failed]

/-- Reference that a name holds, when it holds one. -/
theorem heldReference_of_get {first : Location}
    (held : state.scopes.get scope name = .ok (.reference first)) :
    heldReference setting scope name state = .ok first state := by
  rw [heldReference, bind_of_ok (readRaw_of_get held)]
  rfl

/-- A name that holds a reference is read through it. -/
theorem readName_of_get {value : Value} (held : state.scopes.get scope name = .ok value) :
    readName setting scope name state =
      ofResult (setting.resolve state.scopes value) state := by
  rw [readName, bind_of_ok (readRaw_of_get held)]
  rfl

end Names

/-- Where there is a variable to write to, the value is written to it. -/
theorem writeThrough_of_ok {setting : Setting} {state : State} {first target : Location}
    (found : setting.resolveLocation state.scopes first = .ok target) (value : Value) :
    writeThrough setting first value state =
      declare setting target.scope target.name value state := by
  have read : scopes state = .ok state.scopes state := rfl
  have located : ofResult (setting.resolveLocation state.scopes first) state =
      .ok target state := by
    rw [found]
    rfl
  rw [writeThrough, bind_of_ok read, bind_of_ok located]

/-- Where there is none, nothing is written. -/
theorem writeThrough_of_error {setting : Setting} {state : State} {first : Location}
    {failure : Failure} (failed : setting.resolveLocation state.scopes first = .error failure)
    (value : Value) :
    writeThrough setting first value state = .error (.failure failure) state := by
  have read : scopes state = .ok state.scopes state := rfl
  have located : ofResult (setting.resolveLocation state.scopes first) state =
      .error (.failure failure) state := by
    rw [failed]
    rfl
  rw [writeThrough, bind_of_ok read, bind_of_error located]

/-- Where there is a variable to write to, every value can be written. -/
theorem exists_writeThrough_iff {setting : Setting} {state : State} {first : Location}
    (value : Value) :
    (∃ after, writeThrough setting first value state = .ok () after) ↔
      ∃ target, setting.resolveLocation state.scopes first = .ok target := by
  constructor
  · rintro ⟨after, written⟩
    cases found : setting.resolveLocation state.scopes first with
    | ok target => exact ⟨target, rfl⟩
    | error failure =>
      rw [writeThrough_of_error found] at written
      exact nomatch written
  · rintro ⟨target, found⟩
    obtain ⟨_, held, bound, _⟩ := Setting.resolveLocation_eq_ok_iff.1 found
    obtain ⟨scope, live, _⟩ := Store.binds_iff_getOwn.2 ⟨held, bound⟩
    obtain ⟨scopes, stored⟩ :=
      Store.exists_set_of_isLive (Store.isLive_iff.2 ⟨scope, live⟩) target.name value
    rw [writeThrough_of_ok found, declare, update, stored]
    exact ⟨_, rfl⟩

end Eval

/-- For every setting, whatever its hop limit is, every state and every variable:

* reading and writing through a reference to the variable walk one chain and end alike;
* a chain that comes back to one of its variables is too long;
* whatever is read, it is no reference;
* a name that holds the reference can be read exactly when it can be written through. -/
theorem Setting.references_read_as_written (setting : Setting) (state : State) (first : Location) :
    setting.Walked state.scopes first ∧
    (∀ early late place, early < late → state.scopes.chain first early = some place →
      state.scopes.chain first late = some place →
      setting.resolve state.scopes (.reference first) = .error (.chainTooLong setting.maxHops)) ∧
    (∀ value result, setting.resolve state.scopes value = .ok result →
      result.isReference = false) ∧
    (∀ scope name, state.scopes.get scope name = .ok (.reference first) →
      ((∃ value, Eval.readName setting scope name state = .ok value state) ↔
        ∀ value, ∃ after, (Eval.heldReference setting scope name >>= fun held =>
          Eval.writeThrough setting held value) state = .ok () after)) := by
  have walked := setting.walked state.scopes first
  refine ⟨walked, ?_, fun value result => isReference_of_resolve, ?_⟩
  · intro early late place later once again
    exact walked.tooLong.2 (Store.isSome_chain_of_repeat later once again setting.maxHops)
  · intro scope name held
    have writes : ∀ value, (∃ after, (Eval.heldReference setting scope name >>= fun held =>
        Eval.writeThrough setting held value) state = .ok () after) ↔
        ∃ target, setting.resolveLocation state.scopes first = .ok target := by
      intro value
      rw [Eval.bind_of_ok (Eval.heldReference_of_get held)]
      exact Eval.exists_writeThrough_iff value
    rw [Eval.readName_of_get held]
    constructor
    · rintro ⟨value, read⟩ other
      rw [writes]
      cases found : setting.resolveLocation state.scopes first with
      | ok target => exact ⟨target, rfl⟩
      | error failure =>
        rw [(walked.alike failure).1 found] at read
        exact nomatch read
    · intro all
      obtain ⟨target, found⟩ := (writes .void).1 (all .void)
      obtain ⟨leads, value, bound, plain⟩ := (walked.written target).1 found
      rw [(walked.read value).2 ⟨target, leads, bound, plain⟩]
      exact ⟨value, rfl⟩

end ScopeMachine
