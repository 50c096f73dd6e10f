import ScopeMachine.Scope.Store
import ScopeMachine.Value.Handles

/-!
# Collection

A collection keeps the scopes that are reachable from its roots along parents and along the handles
in bound values, and reclaims every other scope. Handles that are not live lead nowhere. A reclaimed
slot moves to its next generation, so that no handle of the reclaimed scope names what comes after
it, and becomes the next slot to be used.

Marking works through a list of pending handles. Each step either marks a slot that was not marked
or shortens the list, which is why it ends.
-/

namespace ScopeMachine

/-- Handles that a scope leads to. -/
def Scope.edges (scope : Scope) : List Handle :=
  scope.parent.toList ++ scope.bindings.values.flatMap Value.handles

/-- Slot after its scope has been reclaimed. -/
def Slot.reclaimed (slot : Slot) : Slot := ⟨slot.generation + 1, none⟩

namespace Store

/-- Marking one more slot leaves fewer slots without a mark. -/
theorem count_false_setIfInBounds_true_lt {marked : Array Bool} {index : Nat}
    (unmarked : marked[index]? = some false) :
    (marked.setIfInBounds index true).count false < marked.count false := by
  obtain ⟨inside, value⟩ := Array.getElem?_eq_some_iff.1 unmarked
  have present : 0 < marked.count false :=
    Array.count_pos_iff.2 (value ▸ Array.getElem_mem inside)
  have counted : (marked.set index true inside).count false = marked.count false - 1 := by
    rw [Array.count_set inside, value]
    rfl
  rw [Array.setIfInBounds_def, dif_pos inside, counted]
  omega

/-- Marks what is reachable from pending handles. -/
def mark (store : Store) (marked : Array Bool) (pending : List Handle) : Array Bool :=
  match pending with
  | [] => marked
  | handle :: rest =>
    match store.scope? handle with
    | none => store.mark marked rest
    | some scope =>
      if _unmarked : marked[handle.index]? = some false then
        store.mark (marked.setIfInBounds handle.index true) (scope.edges ++ rest)
      else
        store.mark marked rest
termination_by (marked.count false, pending.length)
decreasing_by
  · exact Prod.Lex.right _ (by simp)
  · exact Prod.Lex.left _ _ (count_false_setIfInBounds_true_lt _unmarked)
  · exact Prod.Lex.right _ (by simp)

/-- Whether a slot holds a scope without a mark. -/
def isCondemned (marked : Array Bool) (index : Nat) (slot : Slot) : Bool :=
  slot.scope.isSome && !(marked[index]?.getD false)

/-- Slots that hold a scope without a mark, in increasing order. -/
def condemned (store : Store) (marked : Array Bool) : List Nat :=
  (List.range store.capacity).filter fun index =>
    store.slots[index]?.any (isCondemned marked index)

/-- Reclaims every scope without a mark. -/
def sweep (store : Store) (marked : Array Bool) : Store :=
  { slots := store.slots.mapIdx fun index slot =>
      if isCondemned marked index slot then slot.reclaimed else slot
    free := (store.condemned marked).reverse ++ store.free }

/-- Marks of the scopes reachable from the roots. -/
def marks (store : Store) (roots : List Handle) : Array Bool :=
  store.mark (Array.replicate store.capacity false) roots

/-- Reclaims every scope that is not reachable from the roots, and counts them. -/
def collect (store : Store) (roots : List Handle) : Nat × Store :=
  let marked := store.marks roots
  ((store.condemned marked).length, store.sweep marked)

/-- A collection makes no slots and removes none. -/
@[simp] theorem capacity_collect (store : Store) (roots : List Handle) :
    (store.collect roots).2.capacity = store.capacity := by
  simp [collect, sweep, capacity]

/-- Each reclaimed scope adds one free slot. -/
theorem length_free_collect (store : Store) (roots : List Handle) :
    (store.collect roots).2.free.length = (store.collect roots).1 + store.free.length := by
  simp [collect, sweep]

end Store

end ScopeMachine
