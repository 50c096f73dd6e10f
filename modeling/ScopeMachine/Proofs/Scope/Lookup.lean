import ScopeMachine.Proofs.Scope.Ancestry
import ScopeMachine.Proofs.Scope.Keeping

/-!
# Lookup along parents

From a handle one sees a handle above it, for a name, when no scope on the way there binds the name.
What the name stands for is settled by the last handle that is seen: it binds the name, or it is a
root that does not, or it is not live. Reading, locating and assigning all end at that handle.

A write to a scope is noticed from exactly the handles that see the scope for the name written, and
an assignment from exactly the handles from which the name has the same owner.
-/

namespace ScopeMachine.Store

/-- The walk along parents from the first handle comes to the second, and no scope before the second
binds the name. The scopes before the second are live, since only a live scope has a parent. -/
inductive Sees (store : Store) (name : Symbol) : Handle → Handle → Prop where
  /-- A handle sees itself. -/
  | here (handle : Handle) : Sees store name handle handle
  /-- A scope that does not bind the name sees what its parent sees. -/
  | up {handle above last : Handle} (link : store.HasParent handle above)
    (unbound : ¬ store.Binds handle name) (rest : Sees store name above last) :
    Sees store name handle last

/-- The search for the owner of a name ends at the handle with the result. -/
inductive Settles (store : Store) (name : Symbol) (last : Handle) :
    Except ScopeError Handle → Prop where
  /-- The scope binds the name. -/
  | binds (bound : store.Binds last name) : Settles store name last (.ok last)
  /-- The scope is a root and does not bind the name. -/
  | root (top : store.parent last = .ok none) (unbound : ¬ store.Binds last name) :
    Settles store name last (.error .undefined)
  /-- The handle is not live. -/
  | dead (stale : store.isLive last = false) : Settles store name last (.error (.dangling last))

section Reading

variable {store : Store} {handle : Handle} {name : Symbol}

/-- A handle has no parent exactly when it names a root. -/
theorem parent_eq_none_iff :
    store.parent handle = .ok none ↔
      ∃ scope, store.scope? handle = some scope ∧ scope.parent = none := by
  unfold Store.parent Store.scope
  cases store.scope? handle with
  | none => simp [bind, Except.bind]
  | some scope => simp [bind, Except.bind, pure, Except.pure]

/-- Reading in one scope gives a value exactly where the handle binds the name. -/
theorem binds_iff_getOwn :
    store.Binds handle name ↔ ∃ value, store.getOwn handle name = .ok (some value) := by
  unfold Binds getOwn Store.scope
  cases store.scope? handle with
  | none => simp [bind, Except.bind]
  | some scope =>
    simp [bind, Except.bind, pure, Except.pure, SymbolMap.contains, Option.isSome_iff_exists]

/-- A scope that binds the name owns it. -/
theorem owner_of_binds (bound : store.Binds handle name) :
    store.owner handle name = .ok handle := by
  obtain ⟨scope, found, contained⟩ := bound
  simp [owner, ownerWithin, Store.scope, found, contained, bind, Except.bind, pure, Except.pure]

/-- At a root that does not bind the name it has no owner. -/
theorem owner_of_root (top : store.parent handle = .ok none) (unbound : ¬ store.Binds handle name) :
    store.owner handle name = .error .undefined := by
  obtain ⟨scope, found, link⟩ := parent_eq_none_iff.1 top
  have absent : scope.bindings.contains name = false := by
    rw [Bool.eq_false_iff]
    exact fun contained => unbound ⟨scope, found, contained⟩
  simp [owner, ownerWithin, Store.scope, found, absent, link, bind, Except.bind, throw, throwThe,
    MonadExceptOf.throw]

/-- At a handle that is not live the search for an owner fails with that handle. -/
theorem owner_of_not_isLive (stale : store.isLive handle = false) :
    store.owner handle name = .error (.dangling handle) := by
  simp [owner, ownerWithin, scope_of_not_isLive stale, bind, Except.bind]

/-- In a rooted store a scope that does not bind the name leaves it to its parent. -/
theorem Rooted.owner_of_hasParent (rooted : store.Rooted) {above : Handle}
    (link : store.HasParent handle above) (unbound : ¬ store.Binds handle name) :
    store.owner handle name = store.owner above name := by
  obtain ⟨scope, found, parent⟩ := hasParent_iff.1 link
  have absent : scope.bindings.contains name = false := by
    rw [Bool.eq_false_iff]
    exact fun contained => unbound ⟨scope, found, contained⟩
  -- one more step than the walk is given leaves the full bound for the parent
  rw [rooted.owner_eq_ownerWithin handle name (store.capacity + 2) (by omega)]
  simp only [ownerWithin, Store.scope, found, absent, parent, bind, Except.bind]
  rfl

/-- The result at the handle where a search ends. -/
theorem Settles.owner_eq {last : Handle} {result : Except ScopeError Handle}
    (settles : store.Settles name last result) : store.owner last name = result := by
  cases settles with
  | binds bound => exact owner_of_binds bound
  | root top unbound => exact owner_of_root top unbound
  | dead stale => exact owner_of_not_isLive stale

/-- A handle that ends no search has a parent and leaves the name to it. -/
theorem settles_or_hasParent (store : Store) (name : Symbol) (handle : Handle) :
    (∃ result, store.Settles name handle result) ∨
      ∃ above, store.HasParent handle above ∧ ¬ store.Binds handle name := by
  by_cases bound : store.Binds handle name
  · exact Or.inl ⟨_, .binds bound⟩
  · cases found : store.scope? handle with
    | none => exact Or.inl ⟨_, .dead (scope?_eq_none_iff.1 found)⟩
    | some scope =>
      cases link : scope.parent with
      | none => exact Or.inl ⟨_, .root (parent_eq_none_iff.2 ⟨scope, found, link⟩) bound⟩
      | some above => exact Or.inr ⟨above, hasParent_iff.2 ⟨scope, found, link⟩, bound⟩

/-- From where a walk along parents ends one sees a handle at which the search ends. -/
theorem Ends.exists_settles {steps : Nat} (ends : store.Ends steps handle) (name : Symbol) :
    ∃ last result, store.Sees name handle last ∧ store.Settles name last result := by
  induction ends with
  | @dead _ handle missing =>
    exact ⟨handle, _, .here handle, .dead (scope?_eq_none_iff.1 missing)⟩
  | @root _ handle scope found top =>
    rcases settles_or_hasParent store name handle with ⟨result, settles⟩ | ⟨above, link, _⟩
    · exact ⟨handle, result, .here handle, settles⟩
    · have parent := parent_eq_none_iff.2 ⟨scope, found, top⟩
      exact nomatch parent.symm.trans link
  | @up _ handle above scope found parent _ ih =>
    rcases settles_or_hasParent store name handle with ⟨result, settles⟩ | ⟨next, link, unbound⟩
    · exact ⟨handle, result, .here handle, settles⟩
    · have same : store.HasParent handle above := hasParent_iff.2 ⟨scope, found, parent⟩
      obtain ⟨last, result, sees, settles⟩ := ih
      exact ⟨last, result, .up same unbound sees, settles⟩

variable (rooted : store.Rooted)
include rooted

/-- A name has the same owner from every handle on the way. -/
theorem Sees.owner_eq {last : Handle} (sees : store.Sees name handle last) :
    store.owner handle name = store.owner last name := by
  induction sees with
  | here handle => rfl
  | up link unbound _ ih => rw [rooted.owner_of_hasParent link unbound, ih]

/-- The search for the owner of a name has the result of the handle where it ends. -/
theorem Rooted.owner_eq_iff {result : Except ScopeError Handle} :
    store.owner handle name = result ↔
      ∃ last, store.Sees name handle last ∧ store.Settles name last result := by
  constructor
  · rintro rfl
    obtain ⟨last, result, sees, settles⟩ := (rooted.ends handle).exists_settles name
    rw [sees.owner_eq rooted, settles.owner_eq]
    exact ⟨last, sees, settles⟩
  · rintro ⟨last, sees, settles⟩
    rw [sees.owner_eq rooted, settles.owner_eq]

end Reading

/-- What reading, locating and assigning a name from a handle come to. -/
structure Lookup (store : Store) (handle : Handle) (name : Symbol) : Prop where
  /-- Reading fails exactly as locating does. -/
  get_error : ∀ error, store.get handle name = .error error ↔ store.locate handle name = .error error
  /-- Assigning fails exactly as locating does. -/
  assign_error : ∀ value error,
    store.assign handle name value = .error error ↔ store.locate handle name = .error error
  /-- The name is undefined exactly when a root is seen that does not bind it. -/
  undefined : store.locate handle name = .error .undefined ↔
    ∃ root, store.Sees name handle root ∧ store.parent root = .ok none ∧ ¬ store.Binds root name
  /-- The failure names the first handle on the way that is not live, if that is seen. -/
  dangling : ∀ lost, store.locate handle name = .error (.dangling lost) ↔
    store.Sees name handle lost ∧ store.isLive lost = false
  /-- There is no other failure. -/
  ends : store.locate handle name ≠ .error .endless
  /-- The name stands for its variable in the nearest scope that binds it. -/
  nearest : ∀ place, store.locate handle name = .ok place ↔
    place.name = name ∧ store.Sees name handle place.scope ∧ store.Binds place.scope name
  /-- Reading gives the value of that variable. -/
  get : ∀ place, store.locate handle name = .ok place →
    ∃ value, store.getOwn place.scope name = .ok (some value) ∧ store.get handle name = .ok value

section Agreement

variable {store : Store} {handle : Handle} {name : Symbol}

/-- Without an owner reading fails as the search for it. -/
theorem get_of_owner_error {error : ScopeError} (failed : store.owner handle name = .error error) :
    store.get handle name = .error error := by
  simp [Store.get, failed, bind, Except.bind]

/-- Reading gives the value in the owner. -/
theorem get_of_owner {owner : Handle} {value : Value} (found : store.owner handle name = .ok owner)
    (held : store.getOwn owner name = .ok (some value)) : store.get handle name = .ok value := by
  simp [Store.get, found, held, bind, Except.bind, pure, Except.pure]

/-- Locating fails as the search for the owner. -/
theorem locate_eq_error_iff {error : ScopeError} :
    store.locate handle name = .error error ↔ store.owner handle name = .error error := by
  unfold locate
  cases store.owner handle name with
  | error other => simp [bind, Except.bind]
  | ok owner => simp [bind, Except.bind, pure, Except.pure]

/-- Locating finds the variable in the owner. -/
theorem locate_eq_ok_iff {place : Location} :
    store.locate handle name = .ok place ↔
      place.name = name ∧ store.owner handle name = .ok place.scope := by
  obtain ⟨scope, wanted⟩ := place
  unfold locate
  cases store.owner handle name with
  | error other => simp [bind, Except.bind]
  | ok owner =>
    simp only [bind, Except.bind, pure, Except.pure, Except.ok.injEq, Location.mk.injEq]
    exact ⟨fun both => ⟨both.2.symm, both.1⟩, fun both => ⟨both.2, both.1.symm⟩⟩

variable (rooted : store.Rooted)
include rooted

/-- The owner of a name is the nearest scope that binds it. -/
theorem Rooted.owner_eq_ok_iff {owner : Handle} :
    store.owner handle name = .ok owner ↔
      store.Sees name handle owner ∧ store.Binds owner name := by
  rw [rooted.owner_eq_iff]
  constructor
  · rintro ⟨last, sees, settles⟩
    cases settles with
    | binds bound => exact ⟨sees, bound⟩
  · rintro ⟨sees, bound⟩
    exact ⟨owner, sees, .binds bound⟩

/-- In a rooted store the laws of lookup hold. -/
theorem Rooted.lookup (handle : Handle) (name : Symbol) : store.Lookup handle name := by
  -- with an owner nothing fails
  have owned : ∀ {owner}, store.owner handle name = .ok owner →
      ∃ value, store.getOwn owner name = .ok (some value) ∧ store.get handle name = .ok value := by
    intro owner found
    obtain ⟨value, held⟩ := binds_iff_getOwn.1 (rooted.owner_eq_ok_iff.1 found).2
    exact ⟨value, held, get_of_owner found held⟩
  constructor
  case get_error =>
    intro error
    rw [locate_eq_error_iff]
    refine ⟨fun failed => ?_, get_of_owner_error⟩
    cases found : store.owner handle name with
    | error other =>
      rw [get_of_owner_error found] at failed
      exact congrArg Except.error (Except.error.inj failed)
    | ok owner =>
      obtain ⟨value, _, read⟩ := owned found
      exact nomatch read.symm.trans failed
  case assign_error =>
    intro value error
    rw [locate_eq_error_iff, assign]
    cases found : store.owner handle name with
    | error other => simp [bind, Except.bind]
    | ok owner =>
      obtain ⟨scope, live, _⟩ := (rooted.owner_eq_ok_iff.1 found).2
      obtain ⟨after, written⟩ := exists_set_of_isLive (isLive_iff.2 ⟨scope, live⟩) name value
      simp [bind, Except.bind, written]
  case undefined =>
    rw [locate_eq_error_iff, rooted.owner_eq_iff]
    constructor
    · rintro ⟨root, sees, settles⟩
      cases settles with
      | root top unbound => exact ⟨root, sees, top, unbound⟩
    · rintro ⟨root, sees, top, unbound⟩
      exact ⟨root, sees, .root top unbound⟩
  case dangling =>
    intro lost
    rw [locate_eq_error_iff, rooted.owner_eq_iff]
    constructor
    · rintro ⟨last, sees, settles⟩
      cases settles with
      | dead stale => exact ⟨sees, stale⟩
    · rintro ⟨sees, stale⟩
      exact ⟨lost, sees, .dead stale⟩
  case ends => exact (rooted.answers handle).locate name
  case nearest =>
    intro place
    rw [locate_eq_ok_iff, rooted.owner_eq_ok_iff]
  case get =>
    intro place located
    exact owned (locate_eq_ok_iff.1 located).2

end Agreement

section Writing

variable {store after : Store} {handle : Handle} {name : Symbol} {value : Value}
  (written : store.set handle name value = .ok after)
include written

/-- A write changes no parent. -/
theorem parent_set (other : Handle) : after.parent other = store.parent other := by
  unfold Store.parent Store.scope
  rw [scope?_set written]
  by_cases same : other = handle
  · subst same
    obtain ⟨scope, found⟩ := isLive_iff.1 (isLive_of_set written)
    simp [found, bind, Except.bind, pure, Except.pure]
  · rw [if_neg same]

/-- A write changes the value of one name in one scope. -/
theorem getOwn_set (other : Handle) (wanted : Symbol) :
    after.getOwn other wanted =
      if other = handle ∧ wanted = name then .ok (some value)
      else store.getOwn other wanted := by
  unfold getOwn Store.scope
  rw [scope?_set written]
  by_cases same : other = handle
  · subst same
    obtain ⟨scope, found⟩ := isLive_iff.1 (isLive_of_set written)
    by_cases own : wanted = name <;>
      simp [found, own, SymbolMap.get?_insert, bind, Except.bind, pure, Except.pure]
  · rw [if_neg same, if_neg fun both => same both.1]

/-- The scope binds the name that has been written. -/
theorem binds_set_self : after.Binds handle name := by
  rw [binds_iff_getOwn, getOwn_set written, if_pos ⟨rfl, rfl⟩]
  exact ⟨value, rfl⟩

/-- No other name is bound by the write, nor elsewhere. -/
theorem binds_set_of_ne {other : Handle} {wanted : Symbol}
    (apart : ¬ (other = handle ∧ wanted = name)) :
    after.Binds other wanted ↔ store.Binds other wanted := by
  rw [binds_iff_getOwn, binds_iff_getOwn, getOwn_set written, if_neg apart]

/-- The scope that is written to is seen as before. -/
theorem Sees.set_self {other : Handle} (sees : store.Sees name other handle) :
    after.Sees name other handle := by
  generalize final : handle = last at sees
  induction sees with
  | here other => exact .here other
  | @up other above last link unbound _ ih =>
    subst final
    -- a scope on the way that is the last one already is the end of a shorter way
    by_cases same : other = handle
    · subst same
      exact .here other
    · have link : after.HasParent other above := (parent_set written other).trans link
      exact .up link (fun bound => unbound ((binds_set_of_ne written fun both => same both.1).1 bound))
        (ih rfl)

/-- Handles that do not notice the write see as before. -/
theorem Sees.set_of_not_sees {other last : Handle} {wanted : Symbol}
    (sees : store.Sees wanted other last)
    (missed : ¬ (wanted = name ∧ store.Sees name other handle)) :
    after.Sees wanted other last ∧ ¬ (last = handle ∧ wanted = name) := by
  induction sees with
  | here other =>
    refine ⟨.here other, ?_⟩
    rintro ⟨rfl, own⟩
    exact missed ⟨own, .here other⟩
  | @up other above last link unbound _ ih =>
    have further : ¬ (wanted = name ∧ store.Sees name above handle) := by
      rintro ⟨rfl, sees⟩
      exact missed ⟨rfl, .up link unbound sees⟩
    have apart : ¬ (other = handle ∧ wanted = name) := by
      rintro ⟨rfl, own⟩
      exact missed ⟨own, .here other⟩
    obtain ⟨sees, ends⟩ := ih further
    exact ⟨.up ((parent_set written other).trans link)
      (fun bound => unbound ((binds_set_of_ne written apart).1 bound)) sees, ends⟩

/-- A search that does not end at the variable that is written ends as before. -/
theorem Settles.set {last : Handle} {wanted : Symbol} {result : Except ScopeError Handle}
    (settles : store.Settles wanted last result) (apart : ¬ (last = handle ∧ wanted = name)) :
    after.Settles wanted last result := by
  have same := binds_set_of_ne written apart
  cases settles with
  | binds bound => exact .binds (same.2 bound)
  | root top unbound =>
    exact .root ((parent_set written last).trans top) fun bound => unbound (same.1 bound)
  | dead stale => exact .dead ((isLive_set written last).trans stale)

variable (rooted : store.Rooted)
include rooted

/-- A write is read from every handle that sees its scope for its name. -/
theorem get_set_of_sees {other : Handle} (sees : store.Sees name other handle) :
    after.get other name = .ok value := by
  have owner : after.owner other name = .ok handle :=
    (rooted.set written).owner_eq_ok_iff.2 ⟨sees.set_self written, binds_set_self written⟩
  refine get_of_owner owner ?_
  rw [getOwn_set written, if_pos ⟨rfl, rfl⟩]

/-- A write changes nothing for other names, and nothing from handles that do not see its scope. -/
theorem get_set_of_not_sees {other : Handle} {wanted : Symbol}
    (missed : ¬ (wanted = name ∧ store.Sees name other handle)) :
    after.get other wanted = store.get other wanted := by
  obtain ⟨last, sees, settles⟩ := rooted.owner_eq_iff.1 (Eq.refl (store.owner other wanted))
  obtain ⟨seesAfter, apart⟩ := sees.set_of_not_sees written missed
  have owner : after.owner other wanted = store.owner other wanted :=
    (rooted.set written).owner_eq_iff.2 ⟨last, seesAfter, settles.set written apart⟩
  cases found : store.owner other wanted with
  | error error => rw [get_of_owner_error found, get_of_owner_error (owner.trans found)]
  | ok place =>
    rw [found] at settles
    cases settles with
    | binds bound =>
      obtain ⟨held, own⟩ := binds_iff_getOwn.1 bound
      have later : after.getOwn last wanted = .ok (some held) := by
        rw [getOwn_set written, if_neg apart, own]
      rw [get_of_owner found own, get_of_owner (owner.trans found) later]

end Writing

/-- In every store with a history in which parents are handles that earlier allocations have returned
and no slot is reclaimed 2 ^ 32 times, for all handles, live or not:

* reading, locating and assigning a name follow the laws of lookup;
* a write is read from exactly the handles that see its scope for its name, and nothing else changes;
* an assignment is read from exactly the handles from which the name has the same owner, and nothing
  else changes;
* a write or an assignment that fails changes nothing. -/
theorem lookup_laws {history : List Command} (founded : empty.Founded [] history)
    (few : ∀ index, empty.reclaims index history < 2 ^ 32) :
    let store := empty.replay history
    (∀ handle name, store.Lookup handle name) ∧
    (∀ handle name value after, store.set handle name value = .ok after → ∀ other wanted,
      (wanted = name ∧ store.Sees name other handle → after.get other wanted = .ok value) ∧
      (¬ (wanted = name ∧ store.Sees name other handle) →
        after.get other wanted = store.get other wanted)) ∧
    (∀ handle name value after, store.assign handle name value = .ok after →
      ∃ place, store.locate handle name = .ok place ∧ ∀ other wanted,
        (wanted = name ∧ store.locate other name = .ok place → after.get other wanted = .ok value) ∧
        (¬ (wanted = name ∧ store.locate other name = .ok place) →
          after.get other wanted = store.get other wanted)) ∧
    (∀ handle name value error, store.set handle name value = .error error →
      store.perform (.set handle name value) = store) ∧
    (∀ handle name value error, store.assign handle name value = .error error →
      store.perform (.assign handle name value) = store) := by
  intro store
  have rooted : store.Rooted := by
    have lasting := lasting_empty few
    rw [← List.append_nil history] at founded lasting
    exact (settled_empty.replay founded lasting).1
  have noticed : ∀ handle name value after, store.set handle name value = .ok after →
      ∀ other wanted,
        (wanted = name ∧ store.Sees name other handle → after.get other wanted = .ok value) ∧
        (¬ (wanted = name ∧ store.Sees name other handle) →
          after.get other wanted = store.get other wanted) := by
    intro handle name value after written other wanted
    refine ⟨?_, get_set_of_not_sees written rooted⟩
    rintro ⟨rfl, sees⟩
    exact get_set_of_sees written rooted sees
  refine ⟨rooted.lookup, noticed, ?_, ?_, ?_⟩
  · intro handle name value after assigned
    obtain ⟨owner, found, written⟩ := exists_set_of_assign assigned
    refine ⟨⟨owner, name⟩, locate_eq_ok_iff.2 ⟨rfl, found⟩, fun other wanted => ?_⟩
    -- the owner binds the name, so to see it is to have it as the owner
    have same : store.locate other name = .ok ⟨owner, name⟩ ↔ store.Sees name other owner := by
      rw [locate_eq_ok_iff, rooted.owner_eq_ok_iff]
      exact ⟨fun both => both.2.1, fun sees => ⟨rfl, sees, (rooted.owner_eq_ok_iff.1 found).2⟩⟩
    rw [same]
    exact noticed owner name value after written other wanted
  · intro handle name value error failed
    rw [perform, failed, orElse]
  · intro handle name value error failed
    rw [perform, failed, orElse]

/-- A root is made and reclaimed, a scope with the dead root as parent takes its slot and binds a
name, and that scope gets a child. -/
def shadowingHistory : List Command :=
  [.allocate none [], .collect [], .allocate (some ⟨0, 0⟩) [(⟨9⟩, .int 1)],
    .allocate (some ⟨0, 1⟩) []]

/-- The first collection empties the only slot. Marking does not compute, so it is carried out by its
equations. -/
theorem perform_collect_lone_root :
    Store.perform ⟨#[⟨0, some ⟨none, .empty⟩⟩], []⟩ (.collect []) = ⟨#[⟨1, none⟩], [0]⟩ := by
  simp only [perform, collect, marks, mark]
  rfl

/-- The scope and its child are in their slots. -/
theorem replay_shadowingHistory :
    empty.replay shadowingHistory =
      ⟨#[⟨1, some ⟨some ⟨0, 0⟩, ⟨[(⟨9⟩, .int 1)]⟩⟩⟩, ⟨0, some ⟨some ⟨0, 1⟩, .empty⟩⟩], []⟩ := by
  change ((Store.perform ⟨#[⟨0, some ⟨none, .empty⟩⟩], []⟩ (.collect [])).replay _) = _
  rw [perform_collect_lone_root]
  rfl

/-- From the child another name fails at the dead root. A write to the child shadows the name there
and leaves it above; an assignment from the child goes to the scope above. -/
theorem lookup_laws_shadowingHistory :
    let store := empty.replay shadowingHistory
    store.get ⟨1, 0⟩ ⟨10⟩ = .error (.dangling ⟨0, 0⟩) ∧
    (∃ after, store.set ⟨1, 0⟩ ⟨9⟩ (.int 2) = .ok after ∧
      after.get ⟨1, 0⟩ ⟨9⟩ = .ok (.int 2) ∧ after.get ⟨0, 1⟩ ⟨9⟩ = .ok (.int 1)) ∧
    (∃ after, store.assign ⟨1, 0⟩ ⟨9⟩ (.int 2) = .ok after ∧
      after.get ⟨0, 1⟩ ⟨9⟩ = .ok (.int 2)) := by
  intro store
  have founded : empty.Founded [] shadowingHistory := by
    refine ⟨by decide, by decide, ?_⟩
    change (Store.perform ⟨#[⟨0, some ⟨none, .empty⟩⟩], []⟩ (.collect [])).Founded _ _
    rw [perform_collect_lone_root]
    exact ⟨by decide, by decide, trivial⟩
  have few : ∀ index, empty.reclaims index shadowingHistory < 2 ^ 32 := fun index =>
    Nat.lt_of_le_of_lt (reclaims_le_length empty index _) (by decide)
  obtain ⟨lookup, written, assigned, _, _⟩ := lookup_laws founded few
  have now : store = _ := replay_shadowingHistory
  have upper : store.locate ⟨0, 1⟩ ⟨9⟩ = .ok ⟨⟨0, 1⟩, ⟨9⟩⟩ := by
    rw [now]
    rfl
  have lower : store.locate ⟨1, 0⟩ ⟨9⟩ = .ok ⟨⟨0, 1⟩, ⟨9⟩⟩ := by
    rw [now]
    rfl
  refine ⟨?_, ?_, ?_⟩
  · have lost : store.locate ⟨1, 0⟩ ⟨10⟩ = .error (.dangling ⟨0, 0⟩) := by
      rw [now]
      rfl
    exact ((lookup ⟨1, 0⟩ ⟨10⟩).get_error _).2 lost
  · have live : store.isLive ⟨1, 0⟩ = true := by
      rw [now]
      rfl
    obtain ⟨after, stored⟩ := exists_set_of_isLive live ⟨9⟩ (.int 2)
    have seen := written ⟨1, 0⟩ ⟨9⟩ (.int 2) after stored
    have hidden : ¬ store.Sees ⟨9⟩ ⟨0, 1⟩ ⟨1, 0⟩ := by
      intro sees
      cases sees with
      | up _ unbound _ => exact unbound (((lookup ⟨0, 1⟩ ⟨9⟩).nearest _).1 upper).2.2
    refine ⟨after, stored, (seen ⟨1, 0⟩ ⟨9⟩).1 ⟨rfl, .here _⟩, ?_⟩
    rw [(seen ⟨0, 1⟩ ⟨9⟩).2 fun both => hidden both.2]
    change store.get ⟨0, 1⟩ ⟨9⟩ = _
    rw [now]
    rfl
  · cases stored : store.assign ⟨1, 0⟩ ⟨9⟩ (.int 2) with
    | error error =>
      have failed := ((lookup ⟨1, 0⟩ ⟨9⟩).assign_error _ _).1 stored
      exact nomatch lower.symm.trans failed
    | ok after =>
      obtain ⟨place, located, seen⟩ := assigned ⟨1, 0⟩ ⟨9⟩ (.int 2) after stored
      have same : store.locate ⟨0, 1⟩ ⟨9⟩ = .ok place := upper.trans (lower.symm.trans located)
      exact ⟨after, rfl, (seen ⟨0, 1⟩ ⟨9⟩).1 ⟨rfl, same⟩⟩

end ScopeMachine.Store
