import ScopeMachine.Symbol.Map
import ScopeMachine.Value.Basic

/-!
# The store of scopes

Scopes live in numbered slots. A slot carries a generation, which grows each time its scope is
reclaimed, and free slots are used again before new ones are made, the one freed last first. A
handle is live as long as its slot holds a scope of the handle's generation; every operation on a
handle that is not live fails and changes nothing.

A name is looked up along the parents of a scope. A walk stops at the first handle that is not live,
also when that is a parent. No walk along parents that were allocated before their children visits a
scope twice, so a walk longer than the number of slots is reported as endless.
-/

namespace ScopeMachine

/-- Bindings of one scope and the scope around it. -/
structure Scope where
  /-- Scope around this one; a root has none. -/
  parent : Option Handle
  /-- Values of the names declared here. -/
  bindings : SymbolMap Value

/-- Place for a scope. -/
structure Slot where
  /-- Number of scopes reclaimed from the slot, as a 32-bit word. -/
  generation : UInt32
  /-- Scope in the slot; a free slot has none. -/
  scope : Option Scope

/-- All slots, and the free ones among them. -/
structure Store where
  /-- Slots by position. -/
  slots : Array Slot
  /-- Free slots, the next to be used first. -/
  free : List Nat

/-- Reason why an operation on scopes fails. -/
inductive ScopeError where
  /-- No scope up to the root binds the name. -/
  | undefined
  /-- The handle, met first on the way, is not live. -/
  | dangling (handle : Handle)
  /-- The parents form a circle. -/
  | endless
deriving DecidableEq

/-- Numbers of slots in use, free and in total. -/
structure Occupancy where
  /-- Slots that hold a scope. -/
  live : Nat
  /-- Slots that hold none. -/
  free : Nat
  /-- All slots. -/
  capacity : Nat
deriving DecidableEq

namespace Store

/-- Store without slots. -/
def empty : Store := ⟨#[], []⟩

/-- Number of slots. -/
def capacity (store : Store) : Nat := store.slots.size

/-- Current numbers of slots. -/
def occupancy (store : Store) : Occupancy :=
  { live := store.capacity - store.free.length
    free := store.free.length
    capacity := store.capacity }

/-- Generation of a slot. -/
def generation (store : Store) (index : Nat) : UInt32 :=
  (store.slots[index]?.map Slot.generation).getD 0

/-- Scope that a live handle names. -/
def scope? (store : Store) (handle : Handle) : Option Scope :=
  match store.slots[handle.index]? with
  | some slot => if slot.generation = handle.generation then slot.scope else none
  | none => none

/-- Whether a handle still names a scope. -/
def isLive (store : Store) (handle : Handle) : Bool := (store.scope? handle).isSome

/-- Scope of a handle, or the failure of a handle that is not live. -/
def scope (store : Store) (handle : Handle) : Except ScopeError Scope :=
  match store.scope? handle with
  | some scope => .ok scope
  | none => .error (.dangling handle)

/-- Allocates a scope with bindings, in the slot freed last or else in a new slot. -/
def allocate (store : Store) (parent : Option Handle) (bindings : SymbolMap Value) :
    Handle × Store :=
  match store.free with
  | index :: rest =>
    let generation := store.generation index
    (⟨index, generation⟩,
      { slots := store.slots.setIfInBounds index ⟨generation, some ⟨parent, bindings⟩⟩
        free := rest })
  | [] =>
    (⟨store.capacity, 0⟩, { store with slots := store.slots.push ⟨0, some ⟨parent, bindings⟩⟩ })

/-- Allocates a scope without bindings. -/
def allocateEmpty (store : Store) (parent : Option Handle) : Handle × Store :=
  store.allocate parent .empty

/-- Scope around a scope. -/
def parent (store : Store) (handle : Handle) : Except ScopeError (Option Handle) := do
  let scope ← store.scope handle
  return scope.parent

/-- Number of parents above a scope, given a bound on the walk. -/
def depthWithin (store : Store) : Nat → Handle → Except ScopeError Nat
  | 0, _ => .error .endless
  | bound + 1, handle => do
    let scope ← store.scope handle
    match scope.parent with
    | none => return 0
    | some parent =>
      let above ← store.depthWithin bound parent
      return above + 1

/-- Number of parents above a scope. -/
def depth (store : Store) (handle : Handle) : Except ScopeError Nat :=
  store.depthWithin (store.capacity + 1) handle

/-- Nearest scope that binds a name, given a bound on the walk. -/
def ownerWithin (store : Store) (name : Symbol) : Nat → Handle → Except ScopeError Handle
  | 0, _ => .error .endless
  | bound + 1, handle => do
    let scope ← store.scope handle
    if scope.bindings.contains name then
      return handle
    else
      match scope.parent with
      | none => throw .undefined
      | some parent => store.ownerWithin name bound parent

/-- Nearest scope that binds a name, from a scope upwards. -/
def owner (store : Store) (handle : Handle) (name : Symbol) : Except ScopeError Handle :=
  store.ownerWithin name (store.capacity + 1) handle

/-- Value of a name in one scope, without its parents. -/
def getOwn (store : Store) (handle : Handle) (name : Symbol) :
    Except ScopeError (Option Value) := do
  let scope ← store.scope handle
  return scope.bindings.get? name

/-- Value of a name in the nearest scope that binds it. -/
def get (store : Store) (handle : Handle) (name : Symbol) : Except ScopeError Value := do
  let owner ← store.owner handle name
  match ← store.getOwn owner name with
  | some value => return value
  | none => throw .undefined

/-- Variable that a name stands for in a scope. -/
def locate (store : Store) (handle : Handle) (name : Symbol) : Except ScopeError Location := do
  let owner ← store.owner handle name
  return ⟨owner, name⟩

/-- Binds a name in one scope, over an earlier binding there. -/
def set (store : Store) (handle : Handle) (name : Symbol) (value : Value) :
    Except ScopeError Store := do
  let scope ← store.scope handle
  let bound : Scope := { scope with bindings := scope.bindings.insert name value }
  let slot : Slot := ⟨handle.generation, some bound⟩
  return { store with slots := store.slots.setIfInBounds handle.index slot }

/-- Binds a name anew in the nearest scope that binds it. -/
def assign (store : Store) (handle : Handle) (name : Symbol) (value : Value) :
    Except ScopeError Store := do
  let owner ← store.owner handle name
  store.set owner name value

/-- Binds names in one scope from left to right. -/
def setAll (store : Store) (handle : Handle) :
    List (Symbol × Value) → Except ScopeError Store
  | [] => .ok store
  | (name, value) :: rest => do
    let store ← store.set handle name value
    store.setAll handle rest

/-- A handle is live exactly when it names a scope. -/
theorem isLive_iff {store : Store} {handle : Handle} :
    store.isLive handle = true ↔ ∃ scope, store.scope? handle = some scope := by
  simp [isLive, Option.isSome_iff_exists]

/-- The scope of a live handle is found. -/
theorem scope_of_scope? {store : Store} {handle : Handle} {scope : Scope}
    (live : store.scope? handle = some scope) : store.scope handle = .ok scope := by
  simp [Store.scope, live]

/-- A handle that is not live is reported as dangling. -/
theorem scope_of_not_isLive {store : Store} {handle : Handle}
    (stale : store.isLive handle = false) : store.scope handle = .error (.dangling handle) := by
  simp only [isLive, Option.isSome_eq_false_iff, Option.isNone_iff_eq_none] at stale
  simp [Store.scope, stale]

/-- A handle names a scope exactly when its slot holds that scope at the handle's generation. -/
theorem scope?_eq_some_iff {store : Store} {handle : Handle} {scope : Scope} :
    store.scope? handle = some scope ↔
      store.slots[handle.index]? = some ⟨handle.generation, some scope⟩ := by
  simp only [scope?]
  cases found : store.slots[handle.index]? with
  | none => simp
  | some slot =>
    obtain ⟨generation, content⟩ := slot
    by_cases same : generation = handle.generation <;> simp [same]

/-- A successful write needs a live handle. -/
theorem isLive_of_set {store after : Store} {handle : Handle} {name : Symbol} {value : Value}
    (written : store.set handle name value = .ok after) : store.isLive handle = true := by
  cases live : store.scope? handle with
  | some scope => simp [isLive, live]
  | none => simp [set, Store.scope, live, bind, Except.bind] at written

/-- A write changes one binding of the scope it goes to and no other scope. -/
theorem scope?_set {store after : Store} {handle : Handle} {name : Symbol} {value : Value}
    (written : store.set handle name value = .ok after) (other : Handle) :
    after.scope? other =
      if other = handle then
        (store.scope? handle).map fun scope =>
          { scope with bindings := scope.bindings.insert name value }
      else store.scope? other := by
  obtain ⟨scope, live⟩ := isLive_iff.1 (isLive_of_set written)
  have found := scope?_eq_some_iff.1 live
  obtain ⟨inside, _⟩ := Array.getElem?_eq_some_iff.1 found
  simp only [set, Store.scope, live, bind, Except.bind, pure, Except.pure, Except.ok.injEq]
    at written
  subst written
  by_cases sameHandle : other = handle
  · subst sameHandle
    rw [if_pos rfl, live, Option.map_some, scope?_eq_some_iff]
    exact Array.getElem?_setIfInBounds_self_of_lt inside
  · rw [if_neg sameHandle]
    by_cases sameIndex : other.index = handle.index
    · have stale : handle.generation ≠ other.generation := by
        intro sameGeneration
        cases other
        cases handle
        simp_all
      simp only [scope?, sameIndex, Array.getElem?_setIfInBounds_self_of_lt inside, found,
        if_neg stale]
    · simp only [scope?, Array.getElem?_setIfInBounds_ne (Ne.symm sameIndex)]

/-- A write makes no slots and frees none. -/
theorem occupancy_set {store after : Store} {handle : Handle} {name : Symbol} {value : Value}
    (written : store.set handle name value = .ok after) : after.occupancy = store.occupancy := by
  obtain ⟨scope, live⟩ := isLive_iff.1 (isLive_of_set written)
  simp only [set, Store.scope, live, bind, Except.bind, pure, Except.pure, Except.ok.injEq]
    at written
  subst written
  simp [occupancy, capacity]

end Store

end ScopeMachine
