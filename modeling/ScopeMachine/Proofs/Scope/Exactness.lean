import ScopeMachine.Proofs.Scope.History

/-!
# Exactness of collection

A collection of a store with a history keeps what the roots reach, unchanged, and empties every
other slot once. The outcome depends only on which live handles are among the roots and on what the
scopes bind, not on the order of either, and repeating a collection changes nothing.
-/

namespace ScopeMachine

/-- Related optional values are both absent, or both present and related. -/
theorem cases_of_rel {α β : Type} {related : α → β → Prop} {left : Option α} {right : Option β}
    (both : Option.Rel related left right) :
    (left = none ∧ right = none) ∨
      ∃ first second, left = some first ∧ right = some second ∧ related first second := by
  cases both with
  | none => exact Or.inl ⟨rfl, rfl⟩
  | some holds => exact Or.inr ⟨_, _, rfl, rfl, holds⟩

/-- Scopes with the same parent and the same bindings in some order. -/
structure Scope.Rearranges (left right : Scope) : Prop where
  /-- The parent is the same. -/
  parent : left.parent = right.parent
  /-- The entries are the same in some order. -/
  bindings : left.bindings.entries.Perm right.bindings.entries

/-- Slots of one generation whose scopes differ in the order of bindings only. -/
structure Slot.Rearranges (left right : Slot) : Prop where
  /-- The generation is the same. -/
  generation : left.generation = right.generation
  /-- Both are free, or both hold a scope. -/
  scope : Option.Rel Scope.Rearranges left.scope right.scope

namespace Store

/-- Stores that differ only in the order in which scopes keep their bindings. -/
structure Rearranges (left right : Store) : Prop where
  /-- The free list is the same. -/
  free : left.free = right.free
  /-- Slots differ in the order of bindings only. -/
  slots : ∀ index : Nat, Option.Rel Slot.Rearranges left.slots[index]? right.slots[index]?

/-- Stores that condemn the same slots have the same list of condemned slots. -/
theorem condemned_congr {left right : Store} {leftMarks rightMarks : Array Bool}
    (capacity : left.capacity = right.capacity)
    (agree : ∀ index : Nat, left.slots[index]?.any (isCondemned leftMarks index) =
      right.slots[index]?.any (isCondemned rightMarks index)) :
    left.condemned leftMarks = right.condemned rightMarks := by
  unfold condemned
  rw [capacity]
  exact List.filter_congr fun index _ => agree index

section Roots

variable {store : Store} (tidy : store.Tidy) (roots : List Handle) {others : List Handle}
include tidy

/-- Roots that reach the same handles condemn the same slots. -/
theorem isCondemned_congr
    (same : ∀ handle, store.Reaches others handle ↔ store.Reaches roots handle) {index : Nat}
    {slot : Slot} (found : store.slots[index]? = some slot) :
    isCondemned (store.marks others) index slot = isCondemned (store.marks roots) index slot := by
  rw [Bool.eq_iff_iff, isCondemned_marks_iff tidy others found,
    isCondemned_marks_iff tidy roots found, same]

/-- Roots that reach the same handles lead to the same collection. -/
theorem collect_congr (same : ∀ handle, store.Reaches others handle ↔ store.Reaches roots handle) :
    store.collect others = store.collect roots := by
  have condemned : store.condemned (store.marks others) = store.condemned (store.marks roots) := by
    refine condemned_congr rfl fun index => ?_
    cases found : store.slots[index]? with
    | none => rfl
    | some slot => exact isCondemned_congr tidy roots same found
  have swept : store.sweep (store.marks others) = store.sweep (store.marks roots) := by
    apply Store.ext
    · apply Array.ext_getElem?
      intro index
      rw [slots_sweep, slots_sweep]
      cases found : store.slots[index]? with
      | none => rfl
      | some slot => rw [Option.map_some, Option.map_some, isCondemned_congr tidy roots same found]
    · rw [free_sweep, free_sweep, condemned]
  rw [collect_eq, collect_eq, condemned, swept]

/-- Only the live handles among the roots matter. -/
theorem reaches_congr
    (same : ∀ handle, store.isLive handle = true → (handle ∈ others ↔ handle ∈ roots))
    (handle : Handle) : store.Reaches others handle ↔ store.Reaches roots handle := by
  constructor
  · refine Reaches.mem_of_closed tidy _ ?_ ?_
    · exact fun root listed live => .root ((same root live).1 listed) live
    · exact fun inner scope reached found next leads => reached.edge tidy found leads
  · refine Reaches.mem_of_closed tidy _ ?_ ?_
    · exact fun root listed live => .root ((same root live).2 listed) live
    · exact fun inner scope reached found next leads => reached.edge tidy found leads

/-- A scope that the roots do not reach leaves a free slot at the next generation. -/
theorem slots_collect_of_not_reaches {index : Nat} {generation : UInt32} {scope : Scope}
    (found : store.slots[index]? = some ⟨generation, some scope⟩)
    (unreached : ¬ store.Reaches roots ⟨index, generation⟩) :
    (store.collect roots).2.slots[index]? = some ⟨generation + 1, none⟩ := by
  have condemned := (isCondemned_marks_iff tidy roots found).2 ⟨rfl, unreached⟩
  rw [collect_eq, slots_sweep, found, Option.map_some, if_pos condemned]
  rfl

/-- A slot that is free or whose scope the roots reach stays as it is. -/
theorem slots_collect_of_reaches {index : Nat} {slot : Slot}
    (found : store.slots[index]? = some slot)
    (reached : slot.scope.isSome = true → store.Reaches roots ⟨index, slot.generation⟩) :
    (store.collect roots).2.slots[index]? = some slot := by
  rw [collect_eq, slots_sweep, found, Option.map_some, if_neg]
  intro condemned
  obtain ⟨occupied, unreached⟩ := (isCondemned_marks_iff tidy roots found).1 condemned
  exact unreached (reached occupied)

/-- After a collection the roots reach what they reached before. -/
theorem reaches_collect_iff (handle : Handle) :
    (store.collect roots).2.Reaches roots handle ↔ store.Reaches roots handle := by
  have after := tidy.collect roots
  constructor
  · intro reached
    exact (isLive_collect tidy roots).1 reached.isLive
  · refine Reaches.mem_of_closed tidy _ ?_ ?_
    · exact fun root listed live => .root listed ((isLive_collect tidy roots).2 (.root listed live))
    · intro inner scope reached found next leads live
      have kept := (isLive_collect tidy roots).1 reached.isLive
      exact reached.edge after ((scope?_collect tidy roots).2 ⟨kept, found⟩) leads
        ((isLive_collect tidy roots).2 (kept.edge tidy found leads live))

/-- A second collection with the same roots condemns no slot. -/
theorem condemned_collect_eq_nil :
    (store.collect roots).2.condemned ((store.collect roots).2.marks roots) = [] := by
  rw [List.eq_nil_iff_forall_not_mem]
  intro index held
  obtain ⟨slot, found, condemned⟩ := (mem_condemned_iff _ _).1 held
  obtain ⟨occupied, unreached⟩ :=
    (isCondemned_marks_iff (tidy.collect roots) roots found).1 condemned
  obtain ⟨scope, content⟩ := Option.isSome_iff_exists.1 occupied
  have live : (store.collect roots).2.isLive ⟨index, slot.generation⟩ = true := by
    refine isLive_iff.2 ⟨scope, scope?_eq_some_iff.2 ?_⟩
    rw [found, ← content]
  exact unreached ((reaches_collect_iff tidy roots _).2 ((isLive_collect tidy roots).1 live))

/-- A second collection with the same roots reclaims nothing and changes nothing. -/
theorem collect_collect :
    (store.collect roots).2.collect roots = (0, (store.collect roots).2) := by
  have untouched := condemned_collect_eq_nil tidy roots
  rw [collect_eq (store.collect roots).2, untouched, List.length_nil, Prod.mk.injEq]
  refine ⟨rfl, Store.ext ?_ ?_⟩
  · apply Array.ext_getElem?
    intro index
    rw [slots_sweep]
    cases found : (store.collect roots).2.slots[index]? with
    | none => rfl
    | some slot =>
      rw [Option.map_some, if_neg]
      intro condemned
      have held := (mem_condemned_iff _ _).2 ⟨slot, found, condemned⟩
      rw [untouched] at held
      exact List.not_mem_nil held
  · rw [free_sweep, untouched, List.reverse_nil, List.nil_append]

end Roots

end Store

/-- Rearranged scopes lead to the same handles. -/
theorem Scope.Rearranges.mem_edges_iff {left right : Scope} (rearranged : left.Rearranges right)
    (handle : Handle) : handle ∈ left.edges ↔ handle ∈ right.edges := by
  have values : left.bindings.values.Perm right.bindings.values :=
    rearranged.bindings.map Prod.snd
  unfold Scope.edges
  rw [List.mem_append, List.mem_append, rearranged.parent, List.mem_flatMap, List.mem_flatMap]
  simp only [values.mem_iff]

namespace Store

namespace Rearranges

variable {left right : Store} (rearranged : left.Rearranges right)
include rearranged

/-- Rearranging can be undone. -/
theorem symm : right.Rearranges left where
  free := rearranged.free.symm
  slots := by
    intro index
    rcases cases_of_rel (rearranged.slots index) with
      ⟨leftFound, rightFound⟩ | ⟨leftSlot, rightSlot, leftFound, rightFound, slot⟩
    · rw [leftFound, rightFound]
      exact .none
    · rw [leftFound, rightFound]
      refine .some ⟨slot.generation.symm, ?_⟩
      rcases cases_of_rel slot.scope with
        ⟨leftScope, rightScope⟩ | ⟨first, second, leftScope, rightScope, scope⟩
      · rw [leftScope, rightScope]
        exact .none
      · rw [leftScope, rightScope]
        exact .some ⟨scope.parent.symm, scope.bindings.symm⟩

/-- Rearranged stores have equally many slots. -/
theorem capacity_eq : left.capacity = right.capacity := by
  have le : ∀ {first second : Store}, first.Rearranges second →
      second.capacity ≤ first.capacity := by
    intro first second related
    by_contra shorter
    have inside : first.slots.size < second.slots.size := Nat.not_le.1 shorter
    rcases cases_of_rel (related.slots first.slots.size) with
      ⟨_, absent⟩ | ⟨_, _, present, _⟩
    · rw [Array.getElem?_eq_getElem inside] at absent
      exact Option.some_ne_none _ absent
    · rw [Array.getElem?_eq_none (Nat.le_refl _)] at present
      exact Option.some_ne_none _ present.symm
  exact Nat.le_antisymm (le rearranged.symm) (le rearranged)

/-- A handle names rearranged scopes in rearranged stores. -/
theorem scope?_rel (handle : Handle) :
    Option.Rel Scope.Rearranges (left.scope? handle) (right.scope? handle) := by
  unfold scope?
  rcases cases_of_rel (rearranged.slots handle.index) with
    ⟨leftFound, rightFound⟩ | ⟨leftSlot, rightSlot, leftFound, rightFound, slot⟩
  · rw [leftFound, rightFound]
    exact .none
  · simp only [leftFound, rightFound, slot.generation]
    split
    · exact slot.scope
    · exact .none

/-- The same handles are live in rearranged stores. -/
theorem isLive_eq (handle : Handle) : left.isLive handle = right.isLive handle := by
  unfold isLive
  rcases cases_of_rel (rearranged.scope?_rel handle) with
    ⟨leftFound, rightFound⟩ | ⟨_, _, leftFound, rightFound, _⟩
  · rw [leftFound, rightFound]
  · rw [leftFound, rightFound]
    rfl

/-- A rearranged store is in order too. -/
theorem tidy (leftTidy : left.Tidy) : right.Tidy where
  nodup_free := rearranged.free ▸ leftTidy.nodup_free
  mem_free_iff := by
    intro index
    rw [← rearranged.free, leftTidy.mem_free_iff]
    rcases cases_of_rel (rearranged.slots index) with
      ⟨leftFound, rightFound⟩ | ⟨leftSlot, rightSlot, leftFound, rightFound, slot⟩
    · simp [leftFound, rightFound]
    · obtain ⟨leftGeneration, leftContent⟩ := leftSlot
      obtain ⟨rightGeneration, rightContent⟩ := rightSlot
      rcases cases_of_rel slot.scope with
        ⟨leftScope, rightScope⟩ | ⟨_, _, leftScope, rightScope, _⟩
      · simp_all
      · simp_all
  distinct := by
    intro index generation scope found
    have after : right.scope? ⟨index, generation⟩ = some scope := scope?_eq_some_iff.2 found
    rcases cases_of_rel (rearranged.scope?_rel ⟨index, generation⟩) with
      ⟨_, absent⟩ | ⟨first, second, before, present, pair⟩
    · rw [absent] at after
      exact absurd after.symm (Option.some_ne_none scope)
    · rw [present, Option.some.injEq] at after
      rw [← after]
      exact (pair.bindings.map Prod.fst).nodup_iff.1 (leftTidy.distinct_of_scope? before)

/-- The roots reach in a rearranged store what they reach in the store. -/
theorem reaches_of_reaches (leftTidy : left.Tidy) {roots : List Handle} {handle : Handle}
    (reached : left.Reaches roots handle) : right.Reaches roots handle := by
  refine reached.mem_of_closed leftTidy _ ?_ ?_
  · exact fun root listed live => .root listed (rearranged.isLive_eq root ▸ live)
  · intro inner scope innerReached found next leads live
    rcases cases_of_rel (rearranged.scope?_rel inner) with
      ⟨absent, _⟩ | ⟨first, second, before, present, pair⟩
    · rw [absent] at found
      exact absurd found.symm (Option.some_ne_none scope)
    · rw [before, Option.some.injEq] at found
      exact innerReached.edge (rearranged.tidy leftTidy) present
        ((pair.mem_edges_iff next).1 (found ▸ leads)) (rearranged.isLive_eq next ▸ live)

/-- The roots reach the same in rearranged stores. -/
theorem reaches_iff (leftTidy : left.Tidy) {roots : List Handle} (handle : Handle) :
    left.Reaches roots handle ↔ right.Reaches roots handle :=
  ⟨rearranged.reaches_of_reaches leftTidy,
    rearranged.symm.reaches_of_reaches (rearranged.tidy leftTidy)⟩

/-- Rearranged stores condemn the same slots. -/
theorem isCondemned_eq (leftTidy : left.Tidy) (roots : List Handle) {index : Nat}
    {leftSlot rightSlot : Slot} (leftFound : left.slots[index]? = some leftSlot)
    (rightFound : right.slots[index]? = some rightSlot) (slot : leftSlot.Rearranges rightSlot) :
    isCondemned (left.marks roots) index leftSlot =
      isCondemned (right.marks roots) index rightSlot := by
  have occupied : leftSlot.scope.isSome = rightSlot.scope.isSome := by
    rcases cases_of_rel slot.scope with
      ⟨leftScope, rightScope⟩ | ⟨_, _, leftScope, rightScope, _⟩
    · rw [leftScope, rightScope]
    · rw [leftScope, rightScope]
      rfl
  rw [Bool.eq_iff_iff, isCondemned_marks_iff leftTidy roots leftFound,
    isCondemned_marks_iff (rearranged.tidy leftTidy) roots rightFound, occupied,
    slot.generation, rearranged.reaches_iff leftTidy]

/-- Collections of rearranged stores reclaim the same slots and leave rearranged stores. -/
theorem collect (leftTidy : left.Tidy) (roots : List Handle) :
    (left.collect roots).1 = (right.collect roots).1 ∧
      (left.collect roots).2.Rearranges (right.collect roots).2 := by
  have condemned :
      left.condemned (left.marks roots) = right.condemned (right.marks roots) := by
    refine condemned_congr rearranged.capacity_eq fun index => ?_
    rcases cases_of_rel (rearranged.slots index) with
      ⟨leftFound, rightFound⟩ | ⟨leftSlot, rightSlot, leftFound, rightFound, slot⟩
    · rw [leftFound, rightFound]
      rfl
    · rw [leftFound, rightFound]
      exact rearranged.isCondemned_eq leftTidy roots leftFound rightFound slot
  rw [collect_eq, collect_eq]
  refine ⟨congrArg List.length condemned, ?_, ?_⟩
  · rw [free_sweep, free_sweep, condemned, rearranged.free]
  · intro index
    rw [slots_sweep, slots_sweep]
    rcases cases_of_rel (rearranged.slots index) with
      ⟨leftFound, rightFound⟩ | ⟨leftSlot, rightSlot, leftFound, rightFound, slot⟩
    · rw [leftFound, rightFound]
      exact .none
    · have same := rearranged.isCondemned_eq leftTidy roots leftFound rightFound slot
      rw [leftFound, rightFound, Option.map_some, Option.map_some, same]
      refine .some ?_
      split
      · exact ⟨congrArg (· + 1) slot.generation, .none⟩
      · exact slot

end Rearranges

/-- A collection of a store with any history, from any roots, keeps live exactly the live handles
that the roots reach, each with its scope as it was. Every other scope leaves a free slot at the
next generation, which joins the free list once; the count returned is the number of slots emptied.
The outcome depends neither on order and repetition of the roots, nor on handles among them that are
not live, nor on the order of bindings, and a second collection reclaims and changes nothing. -/
theorem collect_exact (commands : List Command) (roots : List Handle) :
    let store := empty.replay commands
    let after := (store.collect roots).2
    (∀ handle, after.isLive handle = true ↔
      store.isLive handle = true ∧ store.Reaches roots handle) ∧
    (∀ handle, after.isLive handle = true → after.scope? handle = store.scope? handle) ∧
    (∀ (index : Nat) (slot : Slot), store.slots[index]? = some slot →
      (slot.scope.isSome = true → store.Reaches roots ⟨index, slot.generation⟩) →
      after.slots[index]? = some slot) ∧
    (∀ (index : Nat) (generation : UInt32) (scope : Scope),
      store.slots[index]? = some ⟨generation, some scope⟩ →
      ¬ store.Reaches roots ⟨index, generation⟩ →
      after.slots[index]? = some ⟨generation + 1, none⟩) ∧
    after.capacity = store.capacity ∧
    (∃ added : List Nat, after.free = added ++ store.free ∧ after.free.Nodup ∧
      (∀ index, index ∈ added ↔
        store.isOccupied index = true ∧ after.isOccupied index = false) ∧
      (store.collect roots).1 = added.length) ∧
    (∀ others : List Handle,
      (∀ handle, store.isLive handle = true → (handle ∈ others ↔ handle ∈ roots)) →
      store.collect others = store.collect roots) ∧
    (∀ other : Store, store.Rearranges other →
      (store.collect roots).1 = (other.collect roots).1 ∧
        after.Rearranges (other.collect roots).2) ∧
    after.collect roots = (0, after) := by
  intro store after
  have tidy : store.Tidy := tidy_replay_empty commands
  have live : ∀ handle, after.isLive handle = true ↔ store.Reaches roots handle :=
    fun handle => isLive_collect tidy roots
  refine ⟨?_, ?_, ?_, ?_, capacity_collect store roots, ?_, ?_, ?_, collect_collect tidy roots⟩
  · intro handle
    rw [live]
    exact ⟨fun reached => ⟨reached.isLive, reached⟩, fun both => both.2⟩
  · intro handle survives
    have reached := (live handle).1 survives
    obtain ⟨scope, found⟩ := isLive_iff.1 reached.isLive
    rw [found]
    exact (scope?_collect tidy roots).2 ⟨reached, found⟩
  · exact fun index slot found => slots_collect_of_reaches tidy roots found
  · exact fun index generation scope found => slots_collect_of_not_reaches tidy roots found
  · refine ⟨(store.condemned (store.marks roots)).reverse, rfl, (tidy.collect roots).nodup_free,
      ?_, ?_⟩
    · intro index
      rw [List.mem_reverse]
      exact mem_condemned_marks_iff store roots index
    · rw [collect_eq, List.length_reverse]
  · exact fun others same => collect_congr tidy roots (reaches_congr tidy roots same)
  · exact fun other rearranged => rearranged.collect tidy roots

end Store

end ScopeMachine
