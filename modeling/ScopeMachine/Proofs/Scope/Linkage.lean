import ScopeMachine.Proofs.Evaluation.Holding
import ScopeMachine.Proofs.Scope.Keeping

/-!
# Stores without dangling links

A store supports a value when the handles in it name live scopes and the variables that it refers to
are bound. It is linked when all parents are live and it supports all bound values. Allocations and
writes keep it linked, and so do collections, since what a collection leaves leads only to scopes
that it leaves as well.
-/

namespace ScopeMachine.Store

/-- The handles in the value name live scopes, and the variables it refers to are bound. -/
structure Supports (store : Store) (value : Value) : Prop where
  /-- The handles are live. -/
  handles : ∀ handle ∈ value.handles, store.isLive handle = true
  /-- The variables are bound. -/
  references : ∀ target ∈ value.references, store.Binds target.scope target.name

/-- Parents are live, and bound values are supported. -/
structure Linked (store : Store) : Prop where
  /-- Parents are live. -/
  parents : ∀ {handle scope above}, store.scope? handle = some scope →
    scope.parent = some above → store.isLive above = true
  /-- Bound values are supported. -/
  values : ∀ {handle scope value}, store.scope? handle = some scope →
    value ∈ scope.bindings.values → store.Supports value

/-- Scopes stay live and names stay bound. -/
structure Retains (before after : Store) : Prop where
  /-- Scopes stay live. -/
  isLive : ∀ handle, before.isLive handle = true → after.isLive handle = true
  /-- Names stay bound. -/
  binds : ∀ handle name, before.Binds handle name → after.Binds handle name

/-- Values stay supported. -/
theorem Retains.supports {before after : Store} (retains : before.Retains after) {value : Value}
    (supports : before.Supports value) : after.Supports value :=
  ⟨fun handle held => retains.isLive handle (supports.handles handle held),
    fun target referred => retains.binds _ _ (supports.references target referred)⟩

/-- A value without handles is supported. -/
theorem supports_of_handles_eq_nil (store : Store) {value : Value} (none : value.handles = []) :
    store.Supports value where
  handles := by simp [none]
  references := by
    intro target referred
    have held := Value.scope_mem_handles referred
    rw [none] at held
    exact absurd held List.not_mem_nil

/-- A store that keeps names and in which scopes stay live retains. -/
theorem Keeps.retains {frames : Set Handle} {before after : Store} (keeps : before.Keeps frames after)
    (isLive : ∀ handle, before.isLive handle = true → after.isLive handle = true) :
    before.Retains after where
  isLive := isLive
  binds := by
    rintro handle name ⟨scope, found, contained⟩
    obtain ⟨later, again⟩ := isLive_iff.1 (isLive handle (isLive_iff.2 ⟨scope, found⟩))
    exact ⟨later, again, (keeps.grows found again).names name contained⟩

/-- A collection leaves a value supported whose handles it leaves live. -/
theorem Supports.collect {store : Store} (tidy : store.Tidy) {roots : List Handle} {value : Value}
    (supports : store.Supports value)
    (reached : ∀ handle ∈ value.handles, store.Reaches roots handle) :
    (store.collect roots).2.Supports value where
  handles := fun handle held => (isLive_collect tidy roots).2 (reached handle held)
  references := by
    intro target referred
    obtain ⟨scope, found, contained⟩ := supports.references target referred
    have kept := reached target.scope (Value.scope_mem_handles referred)
    exact ⟨scope, (scope?_collect tidy roots).2 ⟨kept, found⟩, contained⟩

namespace Linked

variable {store : Store} (linked : store.Linked)
include linked

/-- A linked store stays linked by an allocation inside a live scope. -/
theorem allocateEmpty (tidy : store.Tidy) {parent : Handle} (live : store.isLive parent = true) :
    (store.allocateEmpty (some parent)).2.Linked := by
  have retains := (keeps_allocate tidy (some parent) ∅).retains fun _ =>
    isLive_allocateEmpty tidy (some parent)
  have scopes := scope?_allocate (some parent) .empty tidy
  constructor
  · intro handle scope above found link
    rw [Store.allocateEmpty, scopes] at found
    split at found
    · obtain rfl := Option.some.inj found
      obtain rfl := Option.some.inj link
      exact retains.isLive _ live
    · exact retains.isLive _ (linked.parents found link)
  · intro handle scope value found bound
    rw [Store.allocateEmpty, scopes] at found
    split at found
    · obtain rfl := Option.some.inj found
      exact absurd bound List.not_mem_nil
    · exact retains.supports (linked.values found bound)

/-- A linked store stays linked by a write of a supported value. -/
theorem set {after : Store} {handle : Handle} {name : Symbol} {value : Value}
    (supports : store.Supports value) (written : store.set handle name value = .ok after) :
    after.Linked := by
  have retains := (keeps_set_of_mem written (Set.mem_singleton handle)).retains
    fun other live => (isLive_set written other).trans live
  have before : ∀ other later, after.scope? other = some later →
      ∃ scope, store.scope? other = some scope := fun other later found =>
    isLive_iff.1 ((isLive_set written other).symm.trans (isLive_iff.2 ⟨later, found⟩))
  constructor
  · intro other later above again link
    obtain ⟨scope, found⟩ := before other later again
    rw [(grows_set written found again).parent] at link
    exact retains.isLive _ (linked.parents found link)
  · intro other later bound again listed
    obtain ⟨scope, found⟩ := before other later again
    rcases scope?_set_cases written found again with ⟨rfl, rfl⟩ | rfl
    · rcases SymbolMap.mem_values_insert listed with rfl | old
      · exact retains.supports supports
      · exact retains.supports (linked.values found old)
    · exact retains.supports (linked.values found listed)

/-- What a live scope leads to is live. -/
theorem isLive_of_mem_edges {handle next : Handle} {scope : Scope}
    (found : store.scope? handle = some scope) (leads : next ∈ scope.edges) :
    store.isLive next = true := by
  rcases List.mem_append.1 leads with link | inValues
  · exact linked.parents found (Option.mem_toList.1 link)
  · obtain ⟨value, bound, inner⟩ := List.mem_flatMap.1 inValues
    exact (linked.values found bound).handles next inner

/-- A linked store stays linked by a collection. -/
theorem collect (tidy : store.Tidy) (roots : List Handle) : (store.collect roots).2.Linked := by
  have edge : ∀ handle scope next, (store.collect roots).2.scope? handle = some scope →
      next ∈ scope.edges → store.Reaches roots next := by
    intro handle scope next again leads
    obtain ⟨reached, found⟩ := (scope?_collect tidy roots).1 again
    exact reached.edge tidy found leads (linked.isLive_of_mem_edges found leads)
  constructor
  · intro handle scope above again link
    refine (isLive_collect tidy roots).2 (edge handle scope above again ?_)
    exact List.mem_append_left _ (Option.mem_toList.2 link)
  · intro handle scope value again bound
    have found := ((scope?_collect tidy roots).1 again).2
    refine (linked.values found bound).collect tidy fun next inner => ?_
    exact edge handle scope next again
      (List.mem_append_right _ (List.mem_flatMap.2 ⟨value, bound, inner⟩))

end Linked

end ScopeMachine.Store
