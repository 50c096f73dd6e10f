import ScopeMachine.Evaluation.Reference
import ScopeMachine.Proofs.Layout.Value
import ScopeMachine.Proofs.Scope.Exactness

/-!
# Stores that are alike

Stores of two layouts are alike when they have the same slots in the same generations, the same slots
are free in the same order, and the scopes in them have the same parents and bindings that are alike.
Operations on such stores with corresponding names and values that are alike end alike: they find the
same scopes, allocate the same handles and fail for the same reasons. A collection marks the same
scopes and reclaims the same slots.
-/

namespace ScopeMachine

section Alike

variable (left right : Setting)

/-- The scopes have the same parent and bindings that are alike. -/
structure Scope.Alike (a b : Scope) : Prop where
  /-- The parents are equal. -/
  parent : a.parent = b.parent
  /-- The bindings are alike. -/
  bindings : a.bindings.Alike (left.SameName right) (Value.Alike left right) b.bindings

/-- The slots are in the same generation, and what they hold is alike. -/
structure Slot.Alike (a b : Slot) : Prop where
  /-- The generations are equal. -/
  generation : a.generation = b.generation
  /-- The scopes are alike, or both slots are free. -/
  scope : Option.Rel (Scope.Alike left right) a.scope b.scope

/-- The stores have the same slots, free in the same order, and what they hold is alike. -/
structure Store.Alike (a b : Store) : Prop where
  /-- There are as many slots. -/
  capacity : a.capacity = b.capacity
  /-- The slots at a position are alike. -/
  slots : ∀ index : Nat, Option.Rel (Slot.Alike left right) a.slots[index]? b.slots[index]?
  /-- The same slots are free, in the same order. -/
  free : a.free = b.free

end Alike

variable {left right : Setting}

/-- Scopes that are alike lead to the same handles. -/
theorem Scope.Alike.edges_eq {a b : Scope} (alike : a.Alike left right b) : a.edges = b.edges := by
  have handles : a.bindings.values.map Value.handles = b.bindings.values.map Value.handles := by
    rw [← List.forall₂_eq_eq_eq, List.forall₂_map_left_iff, List.forall₂_map_right_iff]
    exact alike.bindings.values.imp fun _ _ value => value.handles_eq
  rw [Scope.edges, Scope.edges, alike.parent, List.flatMap_def, List.flatMap_def, handles]

/-- Slots that are alike are condemned by the same marks. -/
theorem Slot.Alike.isCondemned_eq {a b : Slot} (alike : a.Alike left right b)
    (marked : Array Bool) (index : Nat) :
    Store.isCondemned marked index a = Store.isCondemned marked index b := by
  unfold Store.isCondemned
  exact optionRel_elim alike.scope rfl fun _ _ _ => rfl

namespace Store

variable {a b : Store}

section Reading

variable (alike : a.Alike left right b)
include alike

/-- The numbers of slots in use, free and in total are the same. -/
theorem Alike.occupancy_eq : a.occupancy = b.occupancy := by
  rw [occupancy, occupancy, alike.capacity, alike.free]

/-- A slot is in the same generation. -/
theorem Alike.generation_eq (index : Nat) : a.generation index = b.generation index := by
  unfold generation
  exact optionRel_elim (alike.slots index) rfl fun _ _ both => both.generation

/-- A handle names scopes that are alike, or none. -/
theorem Alike.scope? (handle : Handle) :
    Option.Rel (Scope.Alike left right) (a.scope? handle) (b.scope? handle) := by
  unfold Store.scope?
  refine optionRel_elim (alike.slots handle.index) .none fun leftSlot rightSlot both => ?_
  simp only [both.generation]
  split
  · exact both.scope
  · exact .none

/-- The same handles are live. -/
theorem Alike.isLive_eq (handle : Handle) : a.isLive handle = b.isLive handle := by
  unfold isLive
  exact optionRel_elim (alike.scope? handle) rfl fun _ _ _ => rfl

/-- A handle names scopes that are alike, or is reported as dangling. -/
theorem Alike.scope (handle : Handle) :
    BothEnd (Scope.Alike left right) (a.scope handle) (b.scope handle) := by
  unfold Store.scope
  exact optionRel_elim (alike.scope? handle) (.error rfl) fun _ _ both => .ok both

end Reading

section Names

variable (comparable : left.Comparable right) (alike : a.Alike left right b) {x y : Symbol}
  (same : left.SameName right x y)
include comparable alike same

/-- The nearest scope that binds a name is the same. -/
theorem Alike.ownerWithin (bound : Nat) (handle : Handle) :
    BothEnd Eq (a.ownerWithin x bound handle) (b.ownerWithin y bound handle) := by
  induction bound generalizing handle with
  | zero => exact .error rfl
  | succ bound ih =>
    rw [Store.ownerWithin, Store.ownerWithin]
    refine (alike.scope handle).bind fun leftScope rightScope scopes => ?_
    rw [scopes.bindings.contains_eq comparable.biUnique same, scopes.parent]
    split
    · exact .ok rfl
    · split
      · exact .error rfl
      · exact ih _

/-- The nearest scope that binds a name, from a scope upwards, is the same. -/
theorem Alike.owner (handle : Handle) : BothEnd Eq (a.owner handle x) (b.owner handle y) := by
  rw [Store.owner, Store.owner, alike.capacity]
  exact alike.ownerWithin comparable same _ handle

/-- One scope binds names to values that are alike. -/
theorem Alike.getOwn (handle : Handle) :
    BothEnd (Option.Rel (Value.Alike left right)) (a.getOwn handle x) (b.getOwn handle y) := by
  refine (alike.scope handle).bind fun leftScope rightScope scopes => .ok ?_
  exact scopes.bindings.get? comparable.biUnique same

/-- Names are bound to values that are alike. -/
theorem Alike.get (handle : Handle) :
    BothEnd (Value.Alike left right) (a.get handle x) (b.get handle y) := by
  refine (alike.owner comparable same handle).bind fun leftOwner rightOwner owner => ?_
  subst owner
  refine (alike.getOwn comparable same leftOwner).bind fun leftFound rightFound found => ?_
  exact optionRel_elim found (.error rfl) fun _ _ both => .ok both

/-- Names stand for variables that are alike. -/
theorem Alike.locate (handle : Handle) :
    BothEnd (Location.Alike left right) (a.locate handle x) (b.locate handle y) := by
  refine (alike.owner comparable same handle).bind fun leftOwner rightOwner owner => .ok ?_
  exact ⟨owner, same⟩

/-- Binding names to values that are alike keeps stores alike. -/
theorem Alike.set (handle : Handle) {value other : Value}
    (values : Value.Alike left right value other) :
    BothEnd (Store.Alike left right) (a.set handle x value) (b.set handle y other) := by
  refine (alike.scope handle).bind fun leftScope rightScope scopes => .ok ?_
  refine ⟨by simpa [Store.capacity] using alike.capacity, fun index => ?_, alike.free⟩
  have size : a.slots.size = b.slots.size := alike.capacity
  simp only [Array.getElem?_setIfInBounds, size]
  split
  · split
    · refine .some ⟨rfl, .some ⟨scopes.parent, ?_⟩⟩
      exact scopes.bindings.insert comparable.biUnique same values
    · exact .none
  · exact alike.slots index

/-- Binding names anew to values that are alike keeps stores alike. -/
theorem Alike.assign (handle : Handle) {value other : Value}
    (values : Value.Alike left right value other) :
    BothEnd (Store.Alike left right) (a.assign handle x value) (b.assign handle y other) := by
  refine (alike.owner comparable same handle).bind fun leftOwner rightOwner owner => ?_
  subst owner
  exact alike.set comparable same leftOwner values

end Names

/-- Binding several names to values that are alike keeps stores alike. -/
theorem Alike.setAll (comparable : left.Comparable right) (alike : a.Alike left right b)
    (handle : Handle) {lefts rights : List (Symbol × Value)}
    (entries : List.Forall₂ (fun x y => left.SameName right x.1 y.1 ∧
      Value.Alike left right x.2 y.2) lefts rights) :
    BothEnd (Store.Alike left right) (a.setAll handle lefts) (b.setAll handle rights) := by
  induction entries generalizing a b with
  | nil => exact .ok alike
  | cons entry _ ih =>
    refine (alike.set comparable entry.1 handle entry.2).bind fun leftStore rightStore stores => ?_
    exact ih stores

/-- Empty stores are alike. -/
theorem alike_empty : empty.Alike left right empty := ⟨rfl, fun _ => .none, rfl⟩

/-- Stores that are alike allocate the same handle and stay alike. -/
theorem Alike.allocate (alike : a.Alike left right b) (parent : Option Handle)
    {leftBindings rightBindings : SymbolMap Value}
    (bindings : leftBindings.Alike (left.SameName right) (Value.Alike left right) rightBindings) :
    (a.allocate parent leftBindings).1 = (b.allocate parent rightBindings).1 ∧
      (a.allocate parent leftBindings).2.Alike left right (b.allocate parent rightBindings).2 := by
  have size : a.slots.size = b.slots.size := alike.capacity
  have scopes : Scope.Alike left right ⟨parent, leftBindings⟩ ⟨parent, rightBindings⟩ :=
    ⟨rfl, bindings⟩
  unfold Store.allocate
  rw [alike.free]
  cases b.free with
  | nil =>
    refine ⟨by rw [alike.capacity], by simpa [Store.capacity] using size, fun index => ?_, rfl⟩
    simp only [Array.getElem?_push, size]
    split
    · exact .some ⟨rfl, .some scopes⟩
    · exact alike.slots index
  | cons position rest =>
    refine ⟨congrArg (Handle.mk position) (alike.generation_eq position),
      by simpa [Store.capacity] using size, fun index => ?_, rfl⟩
    simp only [Array.getElem?_setIfInBounds, size]
    split
    · split
      · exact .some ⟨alike.generation_eq position, .some scopes⟩
      · exact .none
    · exact alike.slots index

section Growing

variable {laterLeft laterRight : Setting} (leftGrows : left.Grows laterLeft)
  (rightGrows : right.Grows laterRight)
include leftGrows rightGrows

/-- Stores that are alike stay alike when the settings grow. -/
theorem Alike.grow (alike : a.Alike left right b) : a.Alike laterLeft laterRight b := by
  refine ⟨alike.capacity, fun index => ?_, alike.free⟩
  refine optionRel_mono (fun _ _ slots => ⟨slots.generation, ?_⟩) (alike.slots index)
  refine optionRel_mono (fun _ _ scopes => ⟨scopes.parent, ?_⟩) slots.scope
  exact scopes.bindings.mono (fun _ _ same => same.grow leftGrows rightGrows)
    fun _ _ values => values.grow leftGrows rightGrows

end Growing

section Collecting

variable (alike : a.Alike left right b)
include alike

/-- The same slots are marked. -/
theorem Alike.mark_eq (marked : Array Bool) (pending : List Handle) :
    a.mark marked pending = b.mark marked pending := by
  fun_induction a.mark marked pending with
  | case1 marked => rw [mark]
  | case2 marked handle rest absent ih =>
    have found := alike.scope? handle
    rw [absent] at found
    generalize same : b.scope? handle = other at found
    cases found
    rw [mark, same]
    exact ih
  | case3 marked handle rest scope present unmarked ih =>
    have found := alike.scope? handle
    rw [present] at found
    generalize same : b.scope? handle = other at found
    cases found with
    | some scopes =>
      rw [mark, same]
      simp only [unmarked, dif_pos, ← scopes.edges_eq]
      exact ih
  | case4 marked handle rest scope present markedBefore ih =>
    have found := alike.scope? handle
    rw [present] at found
    generalize same : b.scope? handle = other at found
    cases found with
    | some scopes =>
      rw [mark, same]
      simp only [markedBefore, dif_neg, not_false_eq_true]
      exact ih

/-- Collections with the same roots keep stores alike. -/
theorem Alike.collect (roots : List Handle) :
    (a.collect roots).2.Alike left right (b.collect roots).2 := by
  have marks : a.marks roots = b.marks roots := by
    rw [Store.marks, Store.marks, alike.capacity, alike.mark_eq]
  have condemned : a.condemned (b.marks roots) = b.condemned (b.marks roots) :=
    condemned_congr alike.capacity fun index =>
      optionRel_elim (alike.slots index) rfl fun _ _ both => both.isCondemned_eq _ index
  rw [collect_eq, collect_eq, marks]
  refine ⟨by simpa [sweep, Store.capacity] using alike.capacity, fun index => ?_, ?_⟩
  · rw [slots_sweep, slots_sweep]
    refine optionRel_elim (alike.slots index) .none fun leftSlot rightSlot both => ?_
    rw [Option.map_some, Option.map_some, both.isCondemned_eq]
    split
    · exact .some ⟨congrArg (· + 1) both.generation, .none⟩
    · exact .some both
  · rw [free_sweep, free_sweep, condemned, alike.free]

end Collecting

end Store

end ScopeMachine
