import Mathlib.Data.Finset.Card
import ScopeMachine.Proofs.Scope.Occupancy

/-!
# Sound stores

A handle has been issued when its slot has held a scope at the handle's generation. As long as no
slot is reclaimed in its last generation, issued handles stay issued, and one that has died never
becomes live again: the store evolves, and along a steady history it does so at every step.

A store is rooted when it is in order, parents have been issued, and parents come before children in
some order. Then every walk along parents ends, after fewer steps than there are slots. A store is
sound when moreover every handle in a bound value has been issued. Operations that are handed issued
handles keep a store rooted and sound.
-/

namespace ScopeMachine.Store

/-- The slot of the handle has held a scope at the handle's generation. -/
def Issued (store : Store) (handle : Handle) : Prop :=
  handle.index < store.capacity ∧
    (handle.generation < store.generation handle.index ∨
      handle.generation = store.generation handle.index ∧
        store.isOccupied handle.index = true)

/-- Whether a collection would reclaim a slot in its last generation, for the 2 ^ 32-th time. -/
def wrapsOn (store : Store) (roots : List Handle) : Bool :=
  (store.condemned (store.marks roots)).any fun index => store.generation index + 1 == 0

/-- Whether no slot is in its last generation. -/
def isYoung (store : Store) : Bool := store.slots.all fun slot => slot.generation + 1 != 0

/-- Where no slot is in its last generation, no collection reclaims one there. -/
theorem wrapsOn_of_isYoung {store : Store} (young : store.isYoung = true) (roots : List Handle) :
    store.wrapsOn roots = false := by
  refine List.any_eq_false.2 fun index _ => ?_
  unfold generation
  cases found : store.slots[index]? with
  | none => simp
  | some slot =>
    obtain ⟨inside, rfl⟩ := Array.getElem?_eq_some_iff.1 found
    simpa using Array.all_eq_true.1 young index inside

/-- Live handles have been issued. -/
theorem issued_of_isLive {store : Store} {handle : Handle} (live : store.isLive handle = true) :
    store.Issued handle := by
  obtain ⟨occupied, generation⟩ := isLive_iff_isOccupied.1 live
  exact ⟨index_lt_of_isLive live, Or.inr ⟨generation.symm, occupied⟩⟩

/-- Issued handles stay issued, and those that have died stay dead. -/
structure Evolves (before after : Store) : Prop where
  /-- Issued handles stay issued. -/
  issued : ∀ handle, before.Issued handle → after.Issued handle
  /-- An issued handle is live afterwards only if it was live before. -/
  isLive : ∀ handle, before.Issued handle → after.isLive handle = true →
    before.isLive handle = true

namespace Evolves

/-- A store evolves into itself. -/
theorem refl (store : Store) : store.Evolves store := ⟨fun _ held => held, fun _ _ live => live⟩

/-- Evolutions compose. -/
theorem trans {first second third : Store} (earlier : first.Evolves second)
    (later : second.Evolves third) : first.Evolves third where
  issued := fun handle held => later.issued handle (earlier.issued handle held)
  isLive := fun handle held live =>
    earlier.isLive handle held (later.isLive handle (earlier.issued handle held) live)

end Evolves

/-- The store evolves at every step of the history. -/
def Steady (store : Store) : List Command → Prop
  | [] => True
  | command :: rest => store.Evolves (store.perform command) ∧ (store.perform command).Steady rest

/-- A history is steady when its parts are. -/
theorem steady_append {store : Store} {first second : List Command} :
    store.Steady (first ++ second) ↔ store.Steady first ∧ (store.replay first).Steady second := by
  induction first generalizing store with
  | nil => exact ⟨fun steady => ⟨trivial, steady⟩, fun both => both.2⟩
  | cons command rest ih =>
    rw [List.cons_append, Steady, Steady, ih, and_assoc]
    rfl

/-- A store evolves along a steady history. -/
theorem Steady.evolves {store : Store} {history : List Command} (steady : store.Steady history) :
    store.Evolves (store.replay history) := by
  induction history generalizing store with
  | nil => exact .refl store
  | cons command rest ih => exact steady.1.trans (ih steady.2)

/-- The later store has come about from the earlier one by a steady history. -/
def Unfolds (before after : Store) : Prop :=
  ∃ history : List Command, after = before.replay history ∧ before.Steady history

namespace Unfolds

/-- A store unfolds into itself. -/
theorem refl (store : Store) : store.Unfolds store := ⟨[], rfl, trivial⟩

/-- Unfoldings compose. -/
theorem trans {first second third : Store} (earlier : first.Unfolds second)
    (later : second.Unfolds third) : first.Unfolds third := by
  obtain ⟨before, rfl, steadyBefore⟩ := earlier
  obtain ⟨after, rfl, steadyAfter⟩ := later
  exact ⟨before ++ after, (replay_append first before after).symm,
    steady_append.2 ⟨steadyBefore, steadyAfter⟩⟩

/-- A store that unfolds evolves. -/
theorem evolves {before after : Store} (unfolds : before.Unfolds after) :
    before.Evolves after := by
  obtain ⟨history, rfl, steady⟩ := unfolds
  exact steady.evolves

/-- A command by which the store evolves unfolds it. -/
theorem of_perform {before after : Store} (command : Command)
    (performed : before.perform command = after) (evolves : before.Evolves after) :
    before.Unfolds after := by
  subst performed
  exact ⟨[command], rfl, evolves, trivial⟩

end Unfolds

section Allocation

variable {store : Store} (tidy : store.Tidy) (parent : Option Handle) (bindings : SymbolMap Value)
include tidy

/-- An allocation returns a handle that has not been issued. -/
theorem not_issued_allocate : ¬ store.Issued (store.allocate parent bindings).1 := by
  rintro ⟨inside, older | ⟨_, occupied⟩⟩
  · rw [generation_allocate_before] at older
    exact absurd older (UInt32.lt_irrefl _)
  · rw [isOccupied_allocate_before parent bindings tidy] at occupied
    exact Bool.false_ne_true occupied

/-- The handle that an allocation returns is live. -/
theorem isLive_allocate :
    (store.allocate parent bindings).2.isLive (store.allocate parent bindings).1 = true := by
  rw [isLive, scope?_allocate parent bindings tidy, if_pos rfl]
  rfl

/-- A store evolves by an allocation. -/
theorem evolves_allocate : store.Evolves (store.allocate parent bindings).2 where
  issued := by
    rintro handle ⟨inside, generation⟩
    refine ⟨Nat.lt_of_lt_of_le inside (capacity_le_allocate store parent bindings), ?_⟩
    rw [generation_allocate parent bindings tidy, isOccupied_allocate parent bindings tidy]
    refine generation.imp_right fun ⟨same, occupied⟩ => ⟨same, ?_⟩
    rw [occupied, Bool.or_true]
  isLive := by
    intro handle held live
    rw [isLive, scope?_allocate parent bindings tidy, if_neg] at live
    · exact live
    · rintro rfl
      exact not_issued_allocate tidy parent bindings held

end Allocation

/-- A store unfolds by an allocation without bindings. -/
theorem unfolds_allocateEmpty {store : Store} (tidy : store.Tidy) (parent : Option Handle) :
    store.Unfolds (store.allocateEmpty parent).2 :=
  .of_perform (.allocate parent []) rfl (evolves_allocate tidy parent .empty)

section Writing

variable {store after : Store} {handle : Handle} {name : Symbol} {value : Value}
  (written : store.set handle name value = .ok after)
include written

/-- A write makes no slots and removes none. -/
theorem capacity_set : after.capacity = store.capacity := by
  obtain ⟨_, _, rfl⟩ := eq_of_set written
  simp [capacity]

/-- A store evolves by a write. -/
theorem evolves_set : store.Evolves after where
  issued := by
    rintro other ⟨inside, generation⟩
    refine ⟨capacity_set written ▸ inside, ?_⟩
    rw [generation_set written, isOccupied_set written]
    exact generation
  isLive := by
    intro other _ live
    rw [← isLive_set written]
    exact live

/-- A store unfolds by a write. -/
theorem unfolds_set : store.Unfolds after := by
  refine .of_perform (.set handle name value) ?_ (evolves_set written)
  rw [perform, written, orElse]

end Writing

section Collecting

variable {store : Store} {roots : List Handle} (lasting : store.wrapsOn roots = false)
include lasting

/-- A slot that such a collection empties moves to a greater generation. -/
theorem generation_lt_collect {index : Nat} (occupied : store.isOccupied index = true)
    (vacant : (store.collect roots).2.isOccupied index = false) :
    store.generation index < (store.collect roots).2.generation index := by
  have condemned : index ∈ store.condemned (store.marks roots) :=
    (mem_condemned_marks_iff store roots index).2 ⟨occupied, vacant⟩
  have notLast : store.generation index + 1 ≠ 0 := by
    have kept := List.any_eq_false.1 lasting index condemned
    simpa using kept
  rw [generation_collect, if_pos ⟨occupied, vacant⟩, UInt32.lt_iff_toNat_lt, UInt32.toNat_add]
  have bound := (store.generation index).toNat_lt
  have next : (store.generation index).toNat + 1 ≠ 2 ^ 32 := by
    intro wrapped
    apply notLast
    rw [← UInt32.toNat_inj, UInt32.toNat_add]
    simp [wrapped]
  rw [Nat.mod_eq_of_lt (by simp; omega)]
  simp

/-- A store evolves by a collection that reclaims no slot in its last generation. -/
theorem evolves_collect (tidy : store.Tidy) : store.Evolves (store.collect roots).2 where
  issued := by
    rintro handle ⟨inside, generation⟩
    refine ⟨(capacity_collect store roots).symm ▸ inside, ?_⟩
    cases occupied : store.isOccupied handle.index with
    | false =>
      have stays : (store.collect roots).2.generation handle.index =
          store.generation handle.index := by
        rw [generation_collect, if_neg (by simp [occupied])]
      rw [stays]
      exact Or.inl (generation.resolve_right (by simp [occupied]))
    | true =>
      have atMost : handle.generation ≤ store.generation handle.index := by
        rcases generation with older | ⟨same, _⟩
        · exact UInt32.le_of_lt older
        · exact same ▸ UInt32.le_refl _
      cases after : (store.collect roots).2.isOccupied handle.index with
      | false =>
        exact Or.inl (UInt32.lt_of_le_of_lt atMost (generation_lt_collect lasting occupied after))
      | true =>
        rw [generation_collect, if_neg (by simp [after])]
        exact generation.imp_right fun both => ⟨both.1, rfl⟩
  isLive := by
    intro handle _ live
    exact ((isLive_collect tidy roots).1 live).isLive

/-- A store unfolds by a collection that reclaims no slot in its last generation. -/
theorem unfolds_collect (tidy : store.Tidy) : store.Unfolds (store.collect roots).2 :=
  .of_perform (.collect roots) rfl (evolves_collect lasting tidy)

end Collecting

/-- The store is in order, parents have been issued, and parents come before children. -/
structure Rooted (store : Store) : Prop where
  /-- The free list and the bindings are in order. -/
  tidy : store.Tidy
  /-- Every parent of a live scope has been issued. -/
  issued : ∀ {handle scope above}, store.scope? handle = some scope →
    scope.parent = some above → store.Issued above
  /-- Some order puts every live parent before its children. -/
  grounded : ∃ rank : Handle → Nat, ∀ handle scope above, store.scope? handle = some scope →
    scope.parent = some above → store.isLive above = true → rank above < rank handle

namespace Rooted

variable {store : Store} (rooted : store.Rooted)
include rooted

/-- An allocation with an issued parent keeps the store rooted. -/
theorem allocate {parent : Option Handle} {bindings : SymbolMap Value}
    (distinct : bindings.Distinct)
    (parentIssued : ∀ above, parent = some above → store.Issued above) :
    (store.allocate parent bindings).2.Rooted := by
  have evolves := evolves_allocate rooted.tidy parent bindings
  have fresh := not_issued_allocate rooted.tidy parent bindings
  refine ⟨Tidy.allocate parent bindings rooted.tidy distinct, ?_, ?_⟩
  · intro handle scope above found link
    apply evolves.issued
    rw [scope?_allocate parent bindings rooted.tidy] at found
    split at found
    · obtain rfl := Option.some.inj found
      exact parentIssued above link
    · exact rooted.issued found link
  · obtain ⟨rank, ordered⟩ := rooted.grounded
    have unused : ∀ above, store.Issued above → above ≠ (store.allocate parent bindings).1 := by
      rintro above held rfl
      exact fresh held
    refine ⟨fun handle => if handle = (store.allocate parent bindings).1 then
      (parent.map rank).getD 0 + 1 else rank handle, ?_⟩
    intro handle scope above found link live
    rw [scope?_allocate parent bindings rooted.tidy] at found
    by_cases new : handle = (store.allocate parent bindings).1
    · rw [if_pos new] at found
      obtain rfl := Option.some.inj found
      simp only [if_pos new, if_neg (unused above (parentIssued above link))]
      rw [show parent = some above from link]
      exact Nat.lt_succ_self _
    · rw [if_neg new] at found
      have held := rooted.issued found link
      simp only [if_neg new, if_neg (unused above held)]
      exact ordered handle scope above found link (evolves.isLive above held live)

/-- A write keeps the store rooted. -/
theorem set {after : Store} {handle : Handle} {name : Symbol} {value : Value}
    (written : store.set handle name value = .ok after) : after.Rooted := by
  have evolves := evolves_set written
  -- a scope after the write has the parent of the scope before it
  have before : ∀ {other scope}, after.scope? other = some scope →
      ∃ old, store.scope? other = some old ∧ old.parent = scope.parent := by
    intro other scope found
    rw [scope?_set written] at found
    split at found
    · rename_i same
      obtain ⟨old, held, rfl⟩ := Option.map_eq_some_iff.1 found
      exact ⟨old, same ▸ held, rfl⟩
    · exact ⟨scope, found, rfl⟩
  refine ⟨rooted.tidy.set written, ?_, ?_⟩
  · intro other scope above found link
    obtain ⟨old, held, same⟩ := before found
    exact evolves.issued above (rooted.issued held (same.trans link))
  · obtain ⟨rank, ordered⟩ := rooted.grounded
    refine ⟨rank, fun other scope above found link live => ?_⟩
    obtain ⟨old, held, same⟩ := before found
    rw [isLive_set written] at live
    exact ordered other old above held (same.trans link) live

/-- A collection that reclaims no slot in its last generation keeps the store rooted. -/
theorem collect {roots : List Handle} (lasting : store.wrapsOn roots = false) :
    (store.collect roots).2.Rooted := by
  have evolves := evolves_collect lasting rooted.tidy
  refine ⟨rooted.tidy.collect roots, ?_, ?_⟩
  · intro handle scope above found link
    have before := ((scope?_collect rooted.tidy roots).1 found).2
    exact evolves.issued above (rooted.issued before link)
  · obtain ⟨rank, ordered⟩ := rooted.grounded
    refine ⟨rank, fun handle scope above found link live => ?_⟩
    have before := ((scope?_collect rooted.tidy roots).1 found).2
    exact ordered handle scope above before link ((isLive_collect rooted.tidy roots).1 live).isLive

/-- Live scopes have heights below their number that fall along parents. -/
theorem exists_height :
    ∃ height : Handle → Nat,
      (∀ handle, store.isLive handle = true → height handle < store.occupancy.live) ∧
      ∀ handle scope above, store.scope? handle = some scope → scope.parent = some above →
        store.isLive above = true → height above < height handle := by
  obtain ⟨rank, ordered⟩ := rooted.grounded
  let slots : Finset Nat := store.occupiedPositions.toFinset
  have counted : slots.card = store.occupancy.live :=
    (List.toFinset_card_of_nodup (List.nodup_range.filter _)).trans
      rooted.tidy.live_eq_occupied.symm
  let below (handle : Handle) : Finset Nat :=
    slots.filter fun index => rank ⟨index, store.generation index⟩ < rank handle
  have occupies : ∀ handle, store.isLive handle = true → handle.index ∈ slots ∧
      (⟨handle.index, store.generation handle.index⟩ : Handle) = handle := by
    intro handle live
    obtain ⟨occupied, generation⟩ := isLive_iff_isOccupied.1 live
    refine ⟨?_, by rw [generation]⟩
    simp [slots, occupiedPositions, occupied, index_lt_of_isLive live]
  refine ⟨fun handle => (below handle).card, ?_, ?_⟩
  · intro handle live
    obtain ⟨held, named⟩ := occupies handle live
    have strict : below handle ⊂ slots := by
      refine Finset.filter_ssubset.2 ⟨handle.index, held, ?_⟩
      rw [named]
      exact Nat.lt_irrefl _
    exact counted ▸ Finset.card_lt_card strict
  · intro handle scope above found link live
    obtain ⟨held, named⟩ := occupies above live
    have lower := ordered handle scope above found link live
    refine Finset.card_lt_card (Finset.ssubset_iff_of_subset ?_ |>.2 ⟨above.index, ?_, ?_⟩)
    · exact Finset.monotone_filter_right _ fun index _ smaller => Nat.lt_trans smaller lower
    · refine Finset.mem_filter.2 ⟨held, ?_⟩
      rw [named]
      exact lower
    · intro again
      have smaller := (Finset.mem_filter.1 again).2
      rw [named] at smaller
      exact Nat.lt_irrefl _ smaller

end Rooted

/-- The walk along parents from the handle ends within the steps. -/
inductive Ends (store : Store) : Nat → Handle → Prop where
  /-- It stops at a handle that is not live. -/
  | dead {steps : Nat} {handle : Handle} (missing : store.scope? handle = none) :
    Ends store (steps + 1) handle
  /-- It stops at a root. -/
  | root {steps : Nat} {handle : Handle} {scope : Scope}
    (found : store.scope? handle = some scope) (top : scope.parent = none) :
    Ends store (steps + 1) handle
  /-- It goes on from the parent. -/
  | up {steps : Nat} {handle above : Handle} {scope : Scope}
    (found : store.scope? handle = some scope) (link : scope.parent = some above)
    (rest : Ends store steps above) : Ends store (steps + 1) handle

/-- In a rooted store every walk along parents ends. -/
theorem Rooted.ends {store : Store} (rooted : store.Rooted) (handle : Handle) :
    store.Ends (store.capacity + 1) handle := by
  obtain ⟨height, low, falls⟩ := rooted.exists_height
  -- the height of a live handle falls with every step, and one step is left for a dead one
  have general : ∀ (steps : Nat) (handle : Handle),
      (store.isLive handle = true → height handle + 1 ≤ steps) → store.Ends (steps + 1) handle := by
    intro steps
    induction steps with
    | zero =>
      intro handle high
      cases found : store.scope? handle with
      | none => exact .dead found
      | some scope => exact absurd (high (isLive_iff.2 ⟨scope, found⟩)) (by omega)
    | succ steps ih =>
      intro handle high
      cases found : store.scope? handle with
      | none => exact .dead found
      | some scope =>
        have remaining := high (isLive_iff.2 ⟨scope, found⟩)
        cases link : scope.parent with
        | none => exact .root found link
        | some above =>
          refine .up found link (ih above fun live => ?_)
          have lower := falls handle scope above found link live
          omega
  refine general store.capacity handle fun live => ?_
  have small := low handle live
  have total := rooted.tidy.live_add_free
  change store.occupancy.live + store.occupancy.free = store.capacity at total
  omega

/-- A search for the owner of a name along a walk that ends is not endless. -/
theorem Ends.ownerWithin_ne_endless {store : Store} {steps : Nat} {handle : Handle}
    (ends : store.Ends steps handle) (name : Symbol) :
    store.ownerWithin name steps handle ≠ .error .endless := by
  induction ends with
  | dead missing => simp [ownerWithin, Store.scope, missing, bind, Except.bind]
  | root found top =>
    simp only [ownerWithin, Store.scope, found, top, bind, Except.bind]
    split <;> simp [pure, Except.pure, throw, throwThe, MonadExceptOf.throw]
  | up found link _ ih =>
    simp only [ownerWithin, Store.scope, found, link, bind, Except.bind]
    split
    · simp [pure, Except.pure]
    · exact ih

/-- A search for the owner of a name along a walk that ends has the same result within all larger
bounds. -/
theorem Ends.ownerWithin_eq {store : Store} {steps : Nat} {handle : Handle}
    (ends : store.Ends steps handle) (name : Symbol) {bound : Nat} (enough : steps ≤ bound) :
    store.ownerWithin name bound handle = store.ownerWithin name steps handle := by
  induction ends generalizing bound with
  | dead missing =>
    obtain ⟨bound, rfl⟩ := Nat.exists_eq_succ_of_ne_zero (Nat.ne_zero_of_lt enough)
    simp [ownerWithin, Store.scope, missing, bind, Except.bind]
  | root found top =>
    obtain ⟨bound, rfl⟩ := Nat.exists_eq_succ_of_ne_zero (Nat.ne_zero_of_lt enough)
    simp [ownerWithin, Store.scope, found, top, bind, Except.bind]
  | up found link _ ih =>
    obtain ⟨bound, rfl⟩ := Nat.exists_eq_succ_of_ne_zero (Nat.ne_zero_of_lt enough)
    simp only [ownerWithin, Store.scope, found, link, bind, Except.bind]
    rw [ih (Nat.le_of_succ_le_succ enough)]

/-- In a rooted store the owner of a name is found within every bound above the number of slots. -/
theorem Rooted.owner_eq_ownerWithin {store : Store} (rooted : store.Rooted) (handle : Handle)
    (name : Symbol) (bound : Nat) (enough : store.capacity < bound) :
    store.owner handle name = store.ownerWithin name bound handle :=
  ((rooted.ends handle).ownerWithin_eq name enough).symm

/-- The store is in order, its handles have been issued, and parents come before children. -/
structure Sound (store : Store) : Prop where
  /-- The free list and the bindings are in order. -/
  tidy : store.Tidy
  /-- Every handle that a scope leads to has been issued. -/
  issued : ∀ handle scope, store.scope? handle = some scope →
    ∀ next ∈ scope.edges, store.Issued next
  /-- Some order puts every live parent before its children. -/
  grounded : ∃ rank : Handle → Nat, ∀ handle scope above, store.scope? handle = some scope →
    scope.parent = some above → store.isLive above = true → rank above < rank handle

namespace Sound

variable {store : Store} (sound : store.Sound)
include sound

/-- A sound store is rooted. -/
theorem rooted : store.Rooted where
  tidy := sound.tidy
  issued := fun found link => sound.issued _ _ found _
    ((Scope.mem_edges_iff (sound.tidy.distinct_of_scope? found)).2 (Or.inl link))
  grounded := sound.grounded

/-- An allocation with an issued parent and issued handles keeps the store sound. -/
theorem allocate {parent : Option Handle} {bindings : SymbolMap Value}
    (distinct : bindings.Distinct)
    (parentIssued : ∀ above, parent = some above → store.Issued above)
    (valuesIssued : ∀ value ∈ bindings.values, ∀ handle ∈ value.handles, store.Issued handle) :
    (store.allocate parent bindings).2.Sound := by
  have after := sound.rooted.allocate distinct parentIssued
  refine ⟨after.tidy, ?_, after.grounded⟩
  intro handle scope found next leads
  apply (evolves_allocate sound.tidy parent bindings).issued
  rw [scope?_allocate parent bindings sound.tidy] at found
  split at found
  · obtain rfl := Option.some.inj found
    rcases List.mem_append.1 leads with above | inner
    · exact parentIssued next (Option.mem_toList.1 above)
    · obtain ⟨value, bound, held⟩ := List.mem_flatMap.1 inner
      exact valuesIssued value bound next held
  · exact sound.issued handle scope found next leads

/-- A write of a value whose handles have been issued keeps the store sound. -/
theorem set {after : Store} {handle : Handle} {name : Symbol} {value : Value}
    (valueIssued : ∀ inner ∈ value.handles, store.Issued inner)
    (written : store.set handle name value = .ok after) : after.Sound := by
  have later := sound.rooted.set written
  refine ⟨later.tidy, ?_, later.grounded⟩
  intro other scope found next leads
  apply (evolves_set written).issued
  rw [scope?_set written] at found
  split at found
  · obtain ⟨old, before, rfl⟩ := Option.map_eq_some_iff.1 found
    rcases List.mem_append.1 leads with above | inner
    · exact sound.issued handle old before next (List.mem_append_left _ above)
    · obtain ⟨bound, listed, held⟩ := List.mem_flatMap.1 inner
      rcases SymbolMap.mem_values_insert listed with rfl | earlier
      · exact valueIssued next held
      · refine sound.issued handle old before next (List.mem_append_right _ ?_)
        exact List.mem_flatMap.2 ⟨bound, earlier, held⟩
  · exact sound.issued other scope found next leads

/-- A collection that reclaims no slot in its last generation keeps the store sound. -/
theorem collect {roots : List Handle} (lasting : store.wrapsOn roots = false) :
    (store.collect roots).2.Sound := by
  have after := sound.rooted.collect lasting
  refine ⟨after.tidy, ?_, after.grounded⟩
  intro handle scope found next leads
  have before := ((scope?_collect sound.tidy roots).1 found).2
  exact (evolves_collect lasting sound.tidy).issued next
    (sound.issued handle scope before next leads)

end Sound

end ScopeMachine.Store
