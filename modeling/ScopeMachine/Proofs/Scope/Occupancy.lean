import Mathlib.Data.List.Infix
import Mathlib.Data.List.Nodup
import Mathlib.Order.Bounds.Defs
import ScopeMachine.Proofs.Scope.History

/-!
# Occupancy of a store

The live slots are not counted one by one: their number is that of all slots less the length of the
free list. In a store in order this is the number of slots that hold a scope. Since free slots are
used before new ones are made, the number of slots is the largest number of scopes that have been
live at the same time.
-/

namespace ScopeMachine.Store

/-- Positions of the slots that hold a scope, in increasing order. -/
def occupiedPositions (store : Store) : List Nat :=
  (List.range store.capacity).filter store.isOccupied

/-- The slots that hold a scope are as many as their positions. -/
theorem countP_slots (store : Store) :
    store.slots.countP (·.scope.isSome) = store.occupiedPositions.length := by
  have read : (List.range store.capacity).map (store.slots[·]?) = store.slots.toList.map some := by
    refine List.ext_getElem? fun index => ?_
    by_cases inside : index < store.capacity
    · have found : index < store.slots.size := inside
      simp [List.getElem?_range inside, found]
    · have beyond : store.slots.size ≤ index := Nat.le_of_not_lt inside
      simp [capacity, beyond]
  calc store.slots.countP (·.scope.isSome)
      = (store.slots.toList.map some).countP (Option.any (·.scope.isSome)) := by
        rw [List.countP_map, ← Array.countP_toList]
        rfl
    _ = ((List.range store.capacity).map (store.slots[·]?)).countP
          (Option.any (·.scope.isSome)) := by rw [read]
    _ = store.occupiedPositions.length := by
        rw [List.countP_map, List.countP_eq_length_filter]
        rfl

section Tidy

variable {store : Store} (tidy : store.Tidy)
include tidy

/-- A slot is free exactly when it exists and holds no scope. -/
theorem Tidy.mem_free_iff_not_isOccupied (index : Nat) :
    index ∈ store.free ↔ index < store.capacity ∧ store.isOccupied index = false := by
  rw [tidy.mem_free_iff, isOccupied]
  constructor
  · rintro ⟨generation, vacant⟩
    obtain ⟨inside, _⟩ := Array.getElem?_eq_some_iff.1 vacant
    exact ⟨inside, by simp [vacant]⟩
  · rintro ⟨inside, vacant⟩
    obtain ⟨⟨generation, content⟩, found⟩ : ∃ slot, store.slots[index]? = some slot :=
      ⟨_, Array.getElem?_eq_getElem inside⟩
    rw [found] at vacant
    cases content with
    | none => exact ⟨generation, found⟩
    | some scope => simp at vacant

/-- Each slot is either free or holds a scope. -/
theorem Tidy.length_free_add_occupied :
    store.free.length + store.occupiedPositions.length = store.capacity := by
  have same : store.free.Perm
      ((List.range store.capacity).filter fun index => !store.isOccupied index) := by
    rw [List.perm_ext_iff_of_nodup tidy.nodup_free (List.nodup_range.filter _)]
    intro index
    simp [tidy.mem_free_iff_not_isOccupied]
  have split := List.length_eq_length_filter_add (l := List.range store.capacity) store.isOccupied
  rw [List.length_range] at split
  rw [same.length_eq, occupiedPositions]
  omega

/-- The live slots are those that hold a scope. -/
theorem Tidy.live_eq_occupied : store.occupancy.live = store.occupiedPositions.length := by
  have total := tidy.length_free_add_occupied
  change store.capacity - store.free.length = _
  omega

/-- Live and free slots together are all slots. -/
theorem Tidy.live_add_free :
    store.occupancy.live + store.occupancy.free = store.occupancy.capacity := by
  have total := tidy.length_free_add_occupied
  change store.capacity - store.free.length + store.free.length = store.capacity
  omega

/-- An allocation makes one more slot live. -/
theorem Tidy.live_allocate (parent : Option Handle) (bindings : SymbolMap Value) :
    (store.allocate parent bindings).2.occupancy.live = store.occupancy.live + 1 := by
  cases freed : store.free with
  | nil =>
    rw [allocate_of_free_eq_nil freed]
    simp [occupancy, capacity, freed]
  | cons first rest =>
    have total := tidy.length_free_add_occupied
    rw [freed, List.length_cons] at total
    rw [allocate_of_free_eq_cons freed]
    simp only [occupancy, capacity, Array.size_setIfInBounds, freed, List.length_cons] at total ⊢
    omega

/-- A collection makes as many slots free as it counts. -/
theorem Tidy.live_collect (roots : List Handle) :
    (store.collect roots).2.occupancy.live + (store.collect roots).1 = store.occupancy.live := by
  have after := (tidy.collect roots).length_free_add_occupied
  rw [length_free_collect, capacity_collect] at after
  simp only [occupancy, capacity_collect, length_free_collect]
  omega

end Tidy

/-- A failed or successful write changes no numbers of slots. -/
theorem occupancy_perform_set (store : Store) (handle : Handle) (name : Symbol) (value : Value) :
    (store.perform (.set handle name value)).occupancy = store.occupancy := by
  rcases orElse_set_cases store handle name value with same | written
  · exact congrArg occupancy same
  · exact occupancy_set written

/-- A failed or successful assignment changes no numbers of slots. -/
theorem occupancy_perform_assign (store : Store) (handle : Handle) (name : Symbol)
    (value : Value) : (store.perform (.assign handle name value)).occupancy = store.occupancy := by
  rcases orElse_assign_cases store handle name value with same | ⟨owner, written⟩
  · exact congrArg occupancy same
  · exact occupancy_set written

/-- A command leaves the number of slots as it is, or makes a new slot when all are live. -/
theorem capacity_perform_cases (store : Store) (command : Command) :
    (store.perform command).capacity = store.capacity ∨
      store.capacity ≤ (store.perform command).capacity ∧
        (store.perform command).occupancy.live = (store.perform command).capacity := by
  cases command with
  | allocate parent bindings =>
    cases freed : store.free with
    | nil =>
      refine Or.inr ⟨capacity_le_allocate store parent _, ?_⟩
      simp [perform, occupancy, free_allocate, freed]
    | cons first rest =>
      left
      simp [perform, allocate_of_free_eq_cons freed, capacity]
  | set handle name value =>
    exact Or.inl (congrArg Occupancy.capacity (occupancy_perform_set store handle name value))
  | assign handle name value =>
    exact Or.inl (congrArg Occupancy.capacity (occupancy_perform_assign store handle name value))
  | collect roots => exact Or.inl (capacity_collect store roots)

/-- At no moment of a history are more slots live than there are in the end. -/
theorem live_le_capacity_replay {earlier history : List Command} (part : earlier <+: history) :
    (empty.replay earlier).occupancy.live ≤ (empty.replay history).capacity := by
  obtain ⟨later, rfl⟩ := part
  rw [replay_append]
  have grows : ∀ (later : List Command) (store : Store),
      store.capacity ≤ (store.replay later).capacity := by
    intro later
    induction later with
    | nil => exact fun store => Nat.le_refl store.capacity
    | cons command rest ih =>
      intro store
      have first : store.capacity ≤ (store.perform command).capacity := by
        rcases capacity_perform_cases store command with same | ⟨more, _⟩
        · exact Nat.le_of_eq same.symm
        · exact more
      exact Nat.le_trans first (ih (store.perform command))
  exact Nat.le_trans (Nat.sub_le _ _) (grows later _)

/-- At some moment of a history all slots that there are in the end have been live. -/
theorem exists_live_eq_capacity (history : List Command) :
    ∃ earlier, earlier <+: history ∧
      (empty.replay earlier).occupancy.live = (empty.replay history).capacity := by
  induction history using List.reverseRecOn with
  | nil => exact ⟨[], List.nil_prefix, rfl⟩
  | append_singleton history command ih =>
    have last : empty.replay (history ++ [command]) = (empty.replay history).perform command :=
      replay_append empty history [command]
    rcases capacity_perform_cases (empty.replay history) command with same | ⟨_, full⟩
    · obtain ⟨earlier, part, live⟩ := ih
      refine ⟨earlier, part.trans (List.prefix_append history [command]), ?_⟩
      rw [live, last, same]
    · exact ⟨history ++ [command], List.prefix_refl _, last ▸ full⟩

/-- Along every history of a store the free list holds each slot without a scope once and nothing
else, the live slots are those with a scope, live and free slots together are all slots, and there
are as many slots as have been live at the same time at most. An allocation makes one more slot
live, a collection as many less as it counts, and writes and assignments change no number. -/
theorem occupancy_balanced (history : List Command) :
    let store := empty.replay history
    store.free.Nodup ∧
    (∀ index, index ∈ store.free ↔ ∃ slot, store.slots[index]? = some slot ∧ slot.scope = none) ∧
    store.occupancy.live = store.slots.countP (·.scope.isSome) ∧
    store.occupancy.live + store.occupancy.free = store.occupancy.capacity ∧
    IsGreatest {live | ∃ earlier, earlier <+: history ∧
      (empty.replay earlier).occupancy.live = live} store.occupancy.capacity ∧
    (∀ parent bindings,
      (store.perform (.allocate parent bindings)).occupancy.live = store.occupancy.live + 1) ∧
    (∀ roots, (store.perform (.collect roots)).occupancy.live + (store.collect roots).1 =
      store.occupancy.live) ∧
    (∀ handle name value,
      (store.perform (.set handle name value)).occupancy = store.occupancy ∧
        (store.perform (.assign handle name value)).occupancy = store.occupancy) := by
  intro store
  have tidy : store.Tidy := tidy_replay_empty history
  refine ⟨tidy.nodup_free, ?_, ?_, tidy.live_add_free, ⟨exists_live_eq_capacity history, ?_⟩, ?_,
    tidy.live_collect, ?_⟩
  · intro index
    rw [tidy.mem_free_iff]
    constructor
    · rintro ⟨generation, vacant⟩
      exact ⟨_, vacant, rfl⟩
    · rintro ⟨⟨generation, content⟩, found, rfl⟩
      exact ⟨generation, found⟩
  · rw [tidy.live_eq_occupied, countP_slots]
  · rintro _ ⟨earlier, part, rfl⟩
    exact live_le_capacity_replay part
  · exact fun parent bindings => tidy.live_allocate parent (.ofList bindings)
  · exact fun handle name value => ⟨occupancy_perform_set store handle name value,
      occupancy_perform_assign store handle name value⟩

end ScopeMachine.Store
