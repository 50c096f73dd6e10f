import ScopeMachine.Proofs.Symbol.Map
import ScopeMachine.Scope.Collection

/-!
# Bookkeeping of the store

What each operation does to the slots, said once, and the invariant that every operation keeps: the
free list holds each slot without a scope once and nothing else, and no scope binds a name twice.
Everything else about liveness and generations is read off the slots.
-/

namespace ScopeMachine

attribute [ext] Handle Store

namespace Store

/-- Whether a slot holds a scope. -/
def isOccupied (store : Store) (index : Nat) : Bool := store.slots[index]?.any (·.scope.isSome)

/-- A slot is occupied exactly when it holds a scope at some generation. -/
theorem isOccupied_iff {store : Store} {index : Nat} :
    store.isOccupied index = true ↔
      ∃ generation scope, store.slots[index]? = some ⟨generation, some scope⟩ := by
  unfold isOccupied
  cases found : store.slots[index]? with
  | none => simp
  | some slot =>
    obtain ⟨generation, content⟩ := slot
    cases content <;> simp

/-- A slot that exists is at the generation it carries. -/
theorem generation_of_slot {store : Store} {index : Nat} {slot : Slot}
    (found : store.slots[index]? = some slot) : store.generation index = slot.generation := by
  simp [generation, found]

/-- A handle is live exactly when its slot is occupied and is at the handle's generation. -/
theorem isLive_iff_isOccupied {store : Store} {handle : Handle} :
    store.isLive handle = true ↔
      store.isOccupied handle.index = true ∧
        store.generation handle.index = handle.generation := by
  rw [isLive_iff, isOccupied_iff]
  constructor
  · rintro ⟨scope, live⟩
    have found := scope?_eq_some_iff.1 live
    exact ⟨⟨handle.generation, scope, found⟩, generation_of_slot found⟩
  · rintro ⟨⟨generation, scope, found⟩, same⟩
    rw [generation_of_slot found] at same
    subst same
    exact ⟨scope, scope?_eq_some_iff.2 found⟩

/-- The slot of a live handle exists. -/
theorem index_lt_of_isLive {store : Store} {handle : Handle}
    (live : store.isLive handle = true) : handle.index < store.capacity := by
  obtain ⟨scope, found⟩ := isLive_iff.1 live
  obtain ⟨inside, _⟩ := Array.getElem?_eq_some_iff.1 (scope?_eq_some_iff.1 found)
  exact inside

/-- Two live handles of one slot are the same. -/
theorem eq_of_isLive_of_index_eq {store : Store} {left right : Handle}
    (leftLive : store.isLive left = true) (rightLive : store.isLive right = true)
    (sameIndex : left.index = right.index) : left = right := by
  have leftGeneration := (isLive_iff_isOccupied.1 leftLive).2
  have rightGeneration := (isLive_iff_isOccupied.1 rightLive).2
  rw [sameIndex, rightGeneration] at leftGeneration
  exact Handle.ext sameIndex leftGeneration.symm

/-- A handle that is not live has no scope. -/
theorem scope?_eq_none_iff {store : Store} {handle : Handle} :
    store.scope? handle = none ↔ store.isLive handle = false := by
  simp [isLive]

/-- The free list and the bindings are in order. -/
structure Tidy (store : Store) : Prop where
  /-- No slot is free twice. -/
  nodup_free : store.free.Nodup
  /-- A slot is free exactly when it holds no scope. -/
  mem_free_iff : ∀ index,
    index ∈ store.free ↔ ∃ generation, store.slots[index]? = some ⟨generation, none⟩
  /-- No scope binds a name twice. -/
  distinct : ∀ (index : Nat) (generation : UInt32) (scope : Scope),
    store.slots[index]? = some ⟨generation, some scope⟩ → scope.bindings.Distinct

/-- The store without slots is in order. -/
theorem tidy_empty : empty.Tidy where
  nodup_free := List.nodup_nil
  mem_free_iff := by simp [empty]
  distinct := by simp [empty]

/-- Without free slots an allocation makes a new slot. -/
theorem allocate_of_free_eq_nil {store : Store} (full : store.free = []) (parent : Option Handle)
    (bindings : SymbolMap Value) :
    store.allocate parent bindings =
      (⟨store.capacity, 0⟩,
        ⟨store.slots.push ⟨0, some ⟨parent, bindings⟩⟩, []⟩) := by
  simp [allocate, full]

/-- With a free slot an allocation uses the first one at its generation. -/
theorem allocate_of_free_eq_cons {store : Store} {first : Nat} {rest : List Nat}
    (freed : store.free = first :: rest) (parent : Option Handle) (bindings : SymbolMap Value) :
    store.allocate parent bindings =
      (⟨first, store.generation first⟩,
        ⟨store.slots.setIfInBounds first ⟨store.generation first, some ⟨parent, bindings⟩⟩,
          rest⟩) := by
  simp [allocate, freed]

section Allocation

variable (store : Store) (parent : Option Handle) (bindings : SymbolMap Value)

/-- A new handle carries the generation of its slot. -/
theorem generation_allocate_before :
    (store.allocate parent bindings).1.generation =
      store.generation (store.allocate parent bindings).1.index := by
  cases freed : store.free with
  | nil =>
    rw [allocate_of_free_eq_nil freed]
    simp [generation, capacity]
  | cons first rest => rw [allocate_of_free_eq_cons freed]

/-- An allocation uses up the first free slot, if there is one. -/
theorem free_allocate : (store.allocate parent bindings).2.free = store.free.tail := by
  cases freed : store.free with
  | nil => rw [allocate_of_free_eq_nil freed, List.tail_nil]
  | cons first rest => rw [allocate_of_free_eq_cons freed, List.tail_cons]

/-- An allocation removes no slot. -/
theorem capacity_le_allocate :
    store.capacity ≤ (store.allocate parent bindings).2.capacity := by
  cases freed : store.free with
  | nil =>
    rw [allocate_of_free_eq_nil freed]
    simp [capacity]
  | cons first rest =>
    rw [allocate_of_free_eq_cons freed]
    simp [capacity]

variable {store} (tidy : store.Tidy)
include tidy

/-- An allocation fills the slot of the handle it returns and touches no other slot. -/
theorem slots_allocate (index : Nat) :
    (store.allocate parent bindings).2.slots[index]? =
      if index = (store.allocate parent bindings).1.index then
        some ⟨store.generation index, some ⟨parent, bindings⟩⟩
      else store.slots[index]? := by
  cases freed : store.free with
  | nil =>
    rw [allocate_of_free_eq_nil freed, Array.getElem?_push]
    by_cases new : index = store.slots.size <;> simp [new, capacity, generation]
  | cons first rest =>
    obtain ⟨generation, empty⟩ := (tidy.mem_free_iff first).1 (freed ▸ List.mem_cons_self)
    obtain ⟨inside, _⟩ := Array.getElem?_eq_some_iff.1 empty
    rw [allocate_of_free_eq_cons freed]
    by_cases same : index = first
    · subst same
      simp [Array.getElem?_setIfInBounds_self_of_lt inside]
    · simp [same, Array.getElem?_setIfInBounds_ne (Ne.symm same)]

/-- The slot that an allocation fills held no scope. -/
theorem isOccupied_allocate_before :
    store.isOccupied (store.allocate parent bindings).1.index = false := by
  cases freed : store.free with
  | nil =>
    rw [allocate_of_free_eq_nil freed]
    simp [isOccupied, capacity]
  | cons first rest =>
    obtain ⟨generation, empty⟩ := (tidy.mem_free_iff first).1 (freed ▸ List.mem_cons_self)
    rw [allocate_of_free_eq_cons freed]
    simp [isOccupied, empty]

/-- An allocation changes no generation. -/
theorem generation_allocate (index : Nat) :
    (store.allocate parent bindings).2.generation index = store.generation index := by
  have filled := slots_allocate parent bindings tidy index
  by_cases new : index = (store.allocate parent bindings).1.index
  · rw [if_pos new] at filled
    rw [generation_of_slot filled]
  · rw [if_neg new] at filled
    rw [generation, filled]
    rfl

/-- An allocation occupies the slot of the new handle and no other. -/
theorem isOccupied_allocate (index : Nat) :
    (store.allocate parent bindings).2.isOccupied index =
      (decide (index = (store.allocate parent bindings).1.index) || store.isOccupied index) := by
  unfold isOccupied
  rw [slots_allocate parent bindings tidy index]
  by_cases new : index = (store.allocate parent bindings).1.index <;> simp [new]

/-- An allocation gives the new handle its scope and leaves every other handle as it was. -/
theorem scope?_allocate (handle : Handle) :
    (store.allocate parent bindings).2.scope? handle =
      if handle = (store.allocate parent bindings).1 then some ⟨parent, bindings⟩
      else store.scope? handle := by
  have filled := slots_allocate parent bindings tidy handle.index
  have fresh := generation_allocate_before store parent bindings
  by_cases new : handle = (store.allocate parent bindings).1
  · rw [if_pos (congrArg Handle.index new)] at filled
    rw [if_pos new, scope?_eq_some_iff, filled, new, ← fresh]
  · rw [if_neg new]
    by_cases sameIndex : handle.index = (store.allocate parent bindings).1.index
    · have different : store.generation handle.index ≠ handle.generation := by
        intro same
        rw [sameIndex, ← fresh] at same
        exact new (Handle.ext sameIndex same.symm)
      have vacant := isOccupied_allocate_before parent bindings tidy
      rw [← sameIndex] at vacant
      have before : store.scope? handle = none := by
        rw [scope?_eq_none_iff, Bool.eq_false_iff, ne_eq, isLive_iff_isOccupied, vacant]
        simp
      rw [if_pos sameIndex] at filled
      rw [before, scope?, filled]
      exact if_neg different
    · rw [if_neg sameIndex] at filled
      simp [scope?, filled]

/-- An allocation takes its slot off the free list. -/
theorem mem_free_allocate (index : Nat) :
    index ∈ (store.allocate parent bindings).2.free ↔
      index ∈ store.free ∧ index ≠ (store.allocate parent bindings).1.index := by
  have nodup := tidy.nodup_free
  cases freed : store.free with
  | nil => simp [allocate_of_free_eq_nil freed]
  | cons first rest =>
    rw [freed, List.nodup_cons] at nodup
    rw [allocate_of_free_eq_cons freed, List.mem_cons]
    constructor
    · intro held
      refine ⟨Or.inr held, ?_⟩
      rintro rfl
      exact nodup.1 held
    · rintro ⟨same | held, different⟩
      · exact absurd same different
      · exact held

/-- An allocation keeps the store in order. -/
theorem Tidy.allocate (distinct : bindings.Distinct) :
    (store.allocate parent bindings).2.Tidy where
  nodup_free := by
    rw [free_allocate store parent bindings]
    exact tidy.nodup_free.sublist (List.tail_sublist store.free)
  mem_free_iff := by
    intro index
    rw [mem_free_allocate parent bindings tidy, slots_allocate parent bindings tidy,
      tidy.mem_free_iff]
    by_cases new : index = (store.allocate parent bindings).1.index <;> simp [new]
  distinct := by
    intro index generation scope found
    rw [slots_allocate parent bindings tidy] at found
    by_cases new : index = (store.allocate parent bindings).1.index
    · rw [if_pos new, Option.some.injEq, Slot.mk.injEq, Option.some.injEq] at found
      rw [← found.2]
      exact distinct
    · rw [if_neg new] at found
      exact tidy.distinct index generation scope found

end Allocation

section Writing

variable {store after : Store} {handle : Handle} {name : Symbol} {value : Value}

/-- A live handle can be written to. -/
theorem exists_set_of_isLive (live : store.isLive handle = true) (name : Symbol) (value : Value) :
    ∃ after, store.set handle name value = .ok after := by
  obtain ⟨scope, found⟩ := isLive_iff.1 live
  rw [set, scope_of_scope? found]
  exact ⟨_, rfl⟩

/-- A write puts the changed scope back into its slot. -/
theorem eq_of_set (written : store.set handle name value = .ok after) :
    ∃ scope, store.scope? handle = some scope ∧
      after =
        ⟨store.slots.setIfInBounds handle.index
          ⟨handle.generation, some ⟨scope.parent, scope.bindings.insert name value⟩⟩,
        store.free⟩ := by
  obtain ⟨scope, live⟩ := isLive_iff.1 (isLive_of_set written)
  simp only [set, Store.scope, live, bind, Except.bind, pure, Except.pure, Except.ok.injEq]
    at written
  exact ⟨scope, live, written.symm⟩

/-- A write replaces the scope in one slot and touches no other slot. -/
theorem slots_set (written : store.set handle name value = .ok after) :
    ∃ scope, store.scope? handle = some scope ∧ ∀ index : Nat,
      after.slots[index]? =
        if index = handle.index then
          some ⟨handle.generation, some ⟨scope.parent, scope.bindings.insert name value⟩⟩
        else store.slots[index]? := by
  obtain ⟨scope, live, rfl⟩ := eq_of_set written
  obtain ⟨inside, _⟩ := Array.getElem?_eq_some_iff.1 (scope?_eq_some_iff.1 live)
  refine ⟨scope, live, fun index => ?_⟩
  by_cases same : index = handle.index
  · subst same
    rw [if_pos rfl]
    exact Array.getElem?_setIfInBounds_self_of_lt inside
  · rw [if_neg same]
    exact Array.getElem?_setIfInBounds_ne (Ne.symm same)

/-- A write changes no generation. -/
theorem generation_set (written : store.set handle name value = .ok after) (index : Nat) :
    after.generation index = store.generation index := by
  obtain ⟨scope, live, slots⟩ := slots_set written
  have found := slots index
  by_cases same : index = handle.index
  · rw [if_pos same] at found
    rw [generation_of_slot found, same, generation_of_slot (scope?_eq_some_iff.1 live)]
  · rw [if_neg same] at found
    simp [generation, found]

/-- A write occupies no slot and empties none. -/
theorem isOccupied_set (written : store.set handle name value = .ok after) (index : Nat) :
    after.isOccupied index = store.isOccupied index := by
  obtain ⟨scope, live, slots⟩ := slots_set written
  have found := slots index
  by_cases same : index = handle.index
  · rw [if_pos same] at found
    rw [isOccupied, isOccupied, found, same, scope?_eq_some_iff.1 live]
    rfl
  · rw [if_neg same] at found
    simp [isOccupied, found]

/-- A write changes no liveness. -/
theorem isLive_set (written : store.set handle name value = .ok after) (other : Handle) :
    after.isLive other = store.isLive other := by
  rw [Bool.eq_iff_iff, isLive_iff_isOccupied, isLive_iff_isOccupied, isOccupied_set written,
    generation_set written]

/-- A write keeps the store in order. -/
theorem Tidy.set (tidy : store.Tidy) (written : store.set handle name value = .ok after) :
    after.Tidy := by
  obtain ⟨scope, live, slots⟩ := slots_set written
  have held := scope?_eq_some_iff.1 live
  have free : after.free = store.free := by
    obtain ⟨_, _, rfl⟩ := eq_of_set written
    rfl
  constructor
  · rw [free]
    exact tidy.nodup_free
  · intro index
    rw [free, tidy.mem_free_iff, slots index]
    by_cases same : index = handle.index
    · simp [same, held]
    · simp [same]
  · intro index generation other found
    rw [slots index] at found
    by_cases same : index = handle.index
    · rw [if_pos same, Option.some.injEq, Slot.mk.injEq, Option.some.injEq] at found
      rw [← found.2]
      exact (tidy.distinct _ _ _ held).insert name value
    · rw [if_neg same] at found
      exact tidy.distinct index generation other found

/-- An assignment is a write to the scope that owns the name. -/
theorem exists_set_of_assign (assigned : store.assign handle name value = .ok after) :
    ∃ owner, store.owner handle name = .ok owner ∧ store.set owner name value = .ok after := by
  unfold assign at assigned
  cases found : store.owner handle name with
  | error error => simp [found, bind, Except.bind] at assigned
  | ok owner =>
    rw [found] at assigned
    exact ⟨owner, rfl, assigned⟩

end Writing

section Sweeping

variable (store : Store) (marked : Array Bool)

/-- A sweep moves each condemned slot to its next generation and touches no other slot. -/
theorem slots_sweep (index : Nat) :
    (store.sweep marked).slots[index]? =
      store.slots[index]?.map fun slot =>
        if isCondemned marked index slot then slot.reclaimed else slot := by
  simp [sweep]

/-- A sweep puts the condemned slots before the free ones. -/
theorem free_sweep :
    (store.sweep marked).free = (store.condemned marked).reverse ++ store.free := rfl

/-- A collection sweeps what marking from the roots has left. -/
theorem collect_eq (roots : List Handle) :
    store.collect roots =
      ((store.condemned (store.marks roots)).length, store.sweep (store.marks roots)) := rfl

/-- The condemned slots are those that hold a scope without a mark. -/
theorem mem_condemned_iff {index : Nat} :
    index ∈ store.condemned marked ↔
      ∃ slot, store.slots[index]? = some slot ∧ isCondemned marked index slot = true := by
  simp only [condemned, List.mem_filter, List.mem_range, Option.any_eq_true]
  constructor
  · exact fun held => held.2
  · rintro ⟨slot, found, condemned⟩
    obtain ⟨inside, _⟩ := Array.getElem?_eq_some_iff.1 found
    exact ⟨inside, slot, found, condemned⟩

/-- No slot is condemned twice. -/
theorem nodup_condemned : (store.condemned marked).Nodup := List.nodup_range.filter _

/-- A sweep keeps the store in order. -/
theorem Tidy.sweep {store : Store} (tidy : store.Tidy) : (store.sweep marked).Tidy where
  nodup_free := by
    rw [free_sweep]
    refine List.nodup_append.2
      ⟨List.nodup_reverse.2 (nodup_condemned store marked), tidy.nodup_free, ?_⟩
    intro index added other held
    rintro rfl
    obtain ⟨slot, found, condemned⟩ :=
      (mem_condemned_iff store marked).1 (List.mem_reverse.1 added)
    obtain ⟨generation, vacant⟩ := (tidy.mem_free_iff index).1 held
    rw [found, Option.some.injEq] at vacant
    simp [vacant, isCondemned] at condemned
  mem_free_iff := by
    intro index
    rw [free_sweep, List.mem_append, List.mem_reverse, mem_condemned_iff, tidy.mem_free_iff,
      slots_sweep]
    cases found : store.slots[index]? with
    | none => simp
    | some slot =>
      obtain ⟨generation, content⟩ := slot
      by_cases condemned : isCondemned marked index ⟨generation, content⟩ = true
      · simp [condemned, Slot.reclaimed]
      · simp [condemned]
  distinct := by
    intro index generation scope found
    rw [slots_sweep] at found
    obtain ⟨slot, before, after⟩ := Option.map_eq_some_iff.1 found
    by_cases condemned : isCondemned marked index slot = true
    · rw [if_pos condemned] at after
      simp [Slot.reclaimed] at after
    · rw [if_neg condemned] at after
      exact tidy.distinct index generation scope (after ▸ before)

/-- A collection keeps the store in order. -/
theorem Tidy.collect {store : Store} (tidy : store.Tidy) (roots : List Handle) :
    (store.collect roots).2.Tidy := tidy.sweep (store.marks roots)

end Sweeping

end Store

end ScopeMachine
