import Mathlib.Data.Set.Basic
import ScopeMachine.Proofs.Scope.Soundness

/-!
# Scopes that keep their parents and names

Along the life of a store a scope keeps its parent and never unbinds a name. It comes to bind new
names only by declarations, and those go to certain scopes, the frames of whoever declares. Scopes
come and go besides: an allocation makes one under a handle that has never been issued, and a
collection reclaims some. So the shape of a scope, its parent and the set of its names, stays as it
is while the scope is no frame.
-/

namespace ScopeMachine

/-- The later scope has the same parent and binds at least the same names. -/
structure Scope.Grows (scope later : Scope) : Prop where
  /-- The parent is the same. -/
  parent : later.parent = scope.parent
  /-- No name is unbound. -/
  names : ∀ name, scope.bindings.contains name = true → later.bindings.contains name = true

namespace Scope.Grows

/-- A scope grows to itself. -/
theorem refl (scope : Scope) : scope.Grows scope := ⟨rfl, fun _ bound => bound⟩

/-- Growth goes on. -/
theorem trans {first second third : Scope} (earlier : first.Grows second)
    (later : second.Grows third) : first.Grows third :=
  ⟨later.parent.trans earlier.parent, fun name bound => later.names name (earlier.names name bound)⟩

/-- A scope grows by a binding. -/
theorem insert (scope : Scope) (name : Symbol) (value : Value) :
    scope.Grows { scope with bindings := scope.bindings.insert name value } :=
  ⟨rfl, fun other bound => (SymbolMap.contains_insert _ name other value).2 (Or.inr bound)⟩

/-- A binding of a name that is bound already adds no name. -/
theorem of_insert {scope : Scope} {name : Symbol} (bound : scope.bindings.contains name = true)
    (value : Value) : Grows { scope with bindings := scope.bindings.insert name value } scope where
  parent := rfl
  names := by
    intro other held
    rcases (SymbolMap.contains_insert _ name other value).1 held with rfl | old
    · exact bound
    · exact old

end Scope.Grows

namespace Store

/-- The handle names a scope that binds the name. -/
def Binds (store : Store) (handle : Handle) (name : Symbol) : Prop :=
  ∃ scope, store.scope? handle = some scope ∧ scope.bindings.contains name = true

/-- The later store has evolved from the earlier one; scopes that are live in both have grown, and
those that are no frames have not come to bind more names. -/
structure Keeps (frames : Set Handle) (before after : Store) : Prop where
  /-- The store has evolved. -/
  evolves : before.Evolves after
  /-- Scopes have grown. -/
  grows : ∀ {handle scope later}, before.scope? handle = some scope →
    after.scope? handle = some later → scope.Grows later
  /-- Scopes that are no frames have no new names. -/
  only : ∀ {handle scope later}, before.scope? handle = some scope →
    after.scope? handle = some later → handle ∉ frames → later.Grows scope

variable {frames : Set Handle}

/-- A store keeps to itself. -/
theorem keeps_refl (frames : Set Handle) (store : Store) : store.Keeps frames store where
  evolves := .refl store
  grows := by
    intro handle scope later found again
    rw [found] at again
    exact Option.some.inj again ▸ .refl scope
  only := by
    intro handle scope later found again _
    rw [found] at again
    exact Option.some.inj again ▸ .refl scope

/-- Keeping goes on, also where later frames are scopes that are new since the beginning. -/
theorem Keeps.trans {more : Set Handle} {first second third : Store}
    (earlier : first.Keeps frames second) (later : second.Keeps more third)
    (fresh : ∀ handle ∈ more, first.Issued handle → handle ∈ frames) : first.Keeps frames third := by
  -- a scope that is live at both ends is live in between
  have between : ∀ handle scope last, first.scope? handle = some scope →
      third.scope? handle = some last → ∃ middle, second.scope? handle = some middle := by
    intro handle scope last found again
    have issued := issued_of_isLive (isLive_iff.2 ⟨scope, found⟩)
    exact isLive_iff.1 (later.evolves.isLive handle (earlier.evolves.issued handle issued)
      (isLive_iff.2 ⟨last, again⟩))
  refine ⟨earlier.evolves.trans later.evolves, ?_, ?_⟩
  · intro handle scope last found again
    obtain ⟨middle, inside⟩ := between handle scope last found again
    exact (earlier.grows found inside).trans (later.grows inside again)
  · intro handle scope last found again outside
    obtain ⟨middle, inside⟩ := between handle scope last found again
    have issued := issued_of_isLive (isLive_iff.2 ⟨scope, found⟩)
    exact (later.only inside again fun listed => outside (fresh handle listed issued)).trans
      (earlier.only found inside outside)

/-- A store that keeps with few frames keeps with more. -/
theorem Keeps.mono {more : Set Handle} {before after : Store} (keeps : before.Keeps frames after)
    (subset : frames ⊆ more) : before.Keeps more after :=
  ⟨keeps.evolves, keeps.grows, fun found again outside =>
    keeps.only found again fun listed => outside (subset listed)⟩

/-- An allocation changes nothing about handles that have been issued. -/
theorem scope?_allocate_of_issued {store : Store} (tidy : store.Tidy) (parent : Option Handle)
    (bindings : SymbolMap Value) {handle : Handle} (issued : store.Issued handle) :
    (store.allocate parent bindings).2.scope? handle = store.scope? handle := by
  have old : handle ≠ (store.allocate parent bindings).1 := by
    rintro rfl
    exact not_issued_allocate tidy parent bindings issued
  rw [scope?_allocate parent bindings tidy, if_neg old]

/-- An allocation without bindings changes nothing about handles that have been issued. -/
theorem scope?_allocateEmpty_of_issued {store : Store} (tidy : store.Tidy) (parent : Option Handle)
    {handle : Handle} (issued : store.Issued handle) :
    (store.allocateEmpty parent).2.scope? handle = store.scope? handle :=
  scope?_allocate_of_issued tidy parent .empty issued

/-- An allocation leaves live scopes live. -/
theorem isLive_allocateEmpty {store : Store} (tidy : store.Tidy) (parent : Option Handle)
    {handle : Handle} (live : store.isLive handle = true) :
    (store.allocateEmpty parent).2.isLive handle = true := by
  rw [isLive, scope?_allocateEmpty_of_issued tidy parent (issued_of_isLive live)]
  exact live

/-- An allocation changes no scope that was there. -/
theorem keeps_allocate {store : Store} (tidy : store.Tidy) (parent : Option Handle)
    (frames : Set Handle) : store.Keeps frames (store.allocateEmpty parent).2 := by
  have same : ∀ handle scope later, store.scope? handle = some scope →
      (store.allocateEmpty parent).2.scope? handle = some later → later = scope := by
    intro handle scope later found again
    have issued := issued_of_isLive (isLive_iff.2 ⟨scope, found⟩)
    rw [scope?_allocateEmpty_of_issued tidy parent issued, found] at again
    exact (Option.some.inj again).symm
  exact ⟨evolves_allocate tidy parent .empty,
    fun found again => same _ _ _ found again ▸ .refl _,
    fun found again _ => same _ _ _ found again ▸ .refl _⟩

section Writing

variable {store after : Store} {handle : Handle} {name : Symbol} {value : Value}
  (written : store.set handle name value = .ok after)
include written

/-- After a write the scopes are those before it, with the binding in its scope. -/
theorem scope?_set_cases {other : Handle} {scope later : Scope}
    (found : store.scope? other = some scope) (again : after.scope? other = some later) :
    other = handle ∧ later = { scope with bindings := scope.bindings.insert name value } ∨
      later = scope := by
  rw [scope?_set written] at again
  split at again
  · rename_i same
    subst same
    rw [found] at again
    exact Or.inl ⟨rfl, (Option.some.inj again).symm⟩
  · rw [found] at again
    exact Or.inr (Option.some.inj again).symm

/-- A write lets its scope grow and leaves the others. -/
theorem grows_set {other : Handle} {scope later : Scope} (found : store.scope? other = some scope)
    (again : after.scope? other = some later) : scope.Grows later := by
  rcases scope?_set_cases written found again with ⟨_, rfl⟩ | rfl
  · exact .insert scope name value
  · exact .refl _

/-- A declaration adds a name only to its frame. -/
theorem keeps_set_of_mem (own : handle ∈ frames) : store.Keeps frames after where
  evolves := evolves_set written
  grows := grows_set written
  only := by
    intro other scope later found again outside
    rcases scope?_set_cases written found again with ⟨rfl, _⟩ | rfl
    · exact absurd own outside
    · exact .refl _

/-- A binding of a name that is bound already adds none. -/
theorem keeps_set_of_binds (bound : store.Binds handle name) (frames : Set Handle) :
    store.Keeps frames after where
  evolves := evolves_set written
  grows := grows_set written
  only := by
    intro other scope later found again _
    rcases scope?_set_cases written found again with ⟨rfl, rfl⟩ | rfl
    · obtain ⟨scope', found', contained⟩ := bound
      rw [found] at found'
      obtain rfl := Option.some.inj found'
      exact .of_insert contained value
    · exact .refl _

end Writing

/-- A collection changes no scope that it leaves. -/
theorem keeps_collect {store : Store} (tidy : store.Tidy) {roots : List Handle}
    (lasting : store.wrapsOn roots = false) (frames : Set Handle) :
    store.Keeps frames (store.collect roots).2 := by
  have same : ∀ handle scope later, store.scope? handle = some scope →
      (store.collect roots).2.scope? handle = some later → later = scope := by
    intro handle scope later found again
    have kept := ((scope?_collect tidy roots).1 again).2
    rw [found] at kept
    exact (Option.some.inj kept).symm
  exact ⟨evolves_collect lasting tidy,
    fun found again => same _ _ _ found again ▸ .refl _,
    fun found again _ => same _ _ _ found again ▸ .refl _⟩

/-- The handle has been issued and, while its scope lives, that has the parent and binds exactly the
names. -/
structure Shaped (store : Store) (handle parent : Handle) (names : Set Symbol) : Prop where
  /-- The handle has been issued. -/
  issued : store.Issued handle
  /-- The scope has the parent. -/
  parent : ∀ {scope}, store.scope? handle = some scope → scope.parent = some parent
  /-- The scope binds exactly the names. -/
  names : ∀ {scope}, store.scope? handle = some scope →
    ∀ name, scope.bindings.contains name = true ↔ name ∈ names

/-- A new scope has its parent and binds no names. -/
theorem shaped_allocateEmpty {store : Store} (tidy : store.Tidy) (parent : Handle) :
    (store.allocateEmpty (some parent)).2.Shaped (store.allocateEmpty (some parent)).1 parent ∅ := by
  have found : (store.allocateEmpty (some parent)).2.scope? (store.allocateEmpty (some parent)).1 =
      some ⟨some parent, .empty⟩ := by
    rw [allocateEmpty, scope?_allocate (some parent) .empty tidy, if_pos rfl]
  refine ⟨issued_of_isLive (isLive_iff.2 ⟨_, found⟩), ?_, ?_⟩
  · intro scope again
    rw [found] at again
    exact Option.some.inj again ▸ rfl
  · intro scope again name
    rw [found] at again
    obtain rfl := Option.some.inj again
    exact ⟨fun bound => absurd bound Bool.false_ne_true, fun listed => listed.elim⟩

namespace Shaped

variable {store later : Store} {handle parent : Handle} {names : Set Symbol}
  (shaped : store.Shaped handle parent names)
include shaped

/-- A scope keeps its shape where it is no frame. -/
theorem keep (keeps : store.Keeps frames later) (outside : handle ∉ frames) :
    later.Shaped handle parent names := by
  have before : ∀ last, later.scope? handle = some last →
      ∃ scope, store.scope? handle = some scope := fun last again =>
    isLive_iff.1 (keeps.evolves.isLive handle shaped.issued (isLive_iff.2 ⟨last, again⟩))
  refine ⟨keeps.evolves.issued handle shaped.issued, ?_, ?_⟩
  · intro last again
    obtain ⟨scope, found⟩ := before last again
    rw [(keeps.grows found again).parent]
    exact shaped.parent found
  · intro last again name
    obtain ⟨scope, found⟩ := before last again
    rw [← shaped.names found name]
    exact ⟨(keeps.only found again outside).names name, (keeps.grows found again).names name⟩

/-- A declaration adds its name. -/
theorem set {name : Symbol} {value : Value} (written : store.set handle name value = .ok later) :
    later.Shaped handle parent (insert name names) := by
  have before : ∀ last, later.scope? handle = some last → ∃ scope,
      store.scope? handle = some scope ∧
        last = { scope with bindings := scope.bindings.insert name value } := by
    intro last again
    rw [scope?_set written, if_pos rfl, Option.map_eq_some_iff] at again
    obtain ⟨scope, found, same⟩ := again
    exact ⟨scope, found, same.symm⟩
  refine ⟨(evolves_set written).issued handle shaped.issued, ?_, ?_⟩
  · intro last again
    obtain ⟨scope, found, rfl⟩ := before last again
    have parent := shaped.parent found
    exact parent
  · intro last again other
    obtain ⟨scope, found, rfl⟩ := before last again
    rw [SymbolMap.contains_insert, shaped.names found, Set.mem_insert_iff]

end Shaped

end Store

end ScopeMachine
