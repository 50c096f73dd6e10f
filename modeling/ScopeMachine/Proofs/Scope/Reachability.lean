import ScopeMachine.Proofs.Scope.Bookkeeping

/-!
# Reachability and marking

A scope is reachable from roots when a live root leads to it along parents and along the handles in
bound values, through live scopes only. Marking finds exactly the reachable scopes: whatever it
marks is reachable, and a slot that has been marked has everything its scope leads to marked or
still pending, so nothing is left out when nothing is pending. A collection therefore keeps the
reachable scopes as they are and drops every other scope.
-/

namespace ScopeMachine

/-- A scope leads to its parent and to the handles that its bound values hold. -/
theorem Scope.mem_edges_iff {scope : Scope} (distinct : scope.bindings.Distinct) {handle : Handle} :
    handle ∈ scope.edges ↔
      scope.parent = some handle ∨
        ∃ name value, scope.bindings.get? name = some value ∧ handle ∈ value.handles := by
  simp only [edges, List.mem_append, Option.mem_toList, List.mem_flatMap, distinct.mem_values_iff]
  constructor
  · rintro (above | ⟨value, ⟨name, bound⟩, held⟩)
    · exact Or.inl above
    · exact Or.inr ⟨name, value, bound, held⟩
  · rintro (above | ⟨name, value, bound, held⟩)
    · exact Or.inl above
    · exact Or.inr ⟨value, ⟨name, bound⟩, held⟩

namespace Store

/-- Live handles that live roots lead to. -/
inductive Reaches (store : Store) (roots : List Handle) : Handle → Prop where
  /-- A live root is reached. -/
  | root {handle : Handle} (listed : handle ∈ roots) (live : store.isLive handle = true) :
    Reaches store roots handle
  /-- The live parent of a reached scope is reached. -/
  | parent {handle above : Handle} {scope : Scope} (reached : Reaches store roots handle)
    (found : store.scope? handle = some scope) (link : scope.parent = some above)
    (live : store.isLive above = true) : Reaches store roots above
  /-- A live handle in a bound value of a reached scope is reached. -/
  | bound {handle inner : Handle} {scope : Scope} {name : Symbol} {value : Value}
    (reached : Reaches store roots handle) (found : store.scope? handle = some scope)
    (binding : scope.bindings.get? name = some value) (held : inner ∈ value.handles)
    (live : store.isLive inner = true) : Reaches store roots inner

/-- Only live handles are reached. -/
theorem Reaches.isLive {store : Store} {roots : List Handle} {handle : Handle}
    (reached : store.Reaches roots handle) : store.isLive handle = true := by
  cases reached <;> assumption

/-- The bindings of a live scope have distinct names. -/
theorem Tidy.distinct_of_scope? {store : Store} (tidy : store.Tidy) {handle : Handle}
    {scope : Scope} (found : store.scope? handle = some scope) : scope.bindings.Distinct :=
  tidy.distinct _ _ _ (scope?_eq_some_iff.1 found)

/-- What a reached scope leads to is reached if it is live. -/
theorem Reaches.edge {store : Store} (tidy : store.Tidy) {roots : List Handle}
    {handle next : Handle} {scope : Scope} (reached : store.Reaches roots handle)
    (found : store.scope? handle = some scope) (leads : next ∈ scope.edges)
    (live : store.isLive next = true) : store.Reaches roots next := by
  rcases (Scope.mem_edges_iff (tidy.distinct_of_scope? found)).1 leads with
    link | ⟨name, value, binding, held⟩
  · exact .parent reached found link live
  · exact .bound reached found binding held live

/-- A set of live handles that holds the live roots and is closed under leading holds all that is
reached. -/
theorem Reaches.mem_of_closed {store : Store} (tidy : store.Tidy) {roots : List Handle}
    (kept : Handle → Prop)
    (holdsRoots : ∀ handle ∈ roots, store.isLive handle = true → kept handle)
    (closed : ∀ handle scope, kept handle → store.scope? handle = some scope →
      ∀ next ∈ scope.edges, store.isLive next = true → kept next)
    {handle : Handle} (reached : store.Reaches roots handle) : kept handle := by
  induction reached with
  | root listed live => exact holdsRoots _ listed live
  | parent reached found link live ih =>
    have leads := (Scope.mem_edges_iff (tidy.distinct_of_scope? found)).2 (Or.inl link)
    exact closed _ _ ih found _ leads live
  | bound reached found binding held live ih =>
    have leads := (Scope.mem_edges_iff (tidy.distinct_of_scope? found)).2
      (Or.inr ⟨_, _, binding, held⟩)
    exact closed _ _ ih found _ leads live

section Marking

variable (store : Store)

/-- Marking a slot marks it and no other. -/
theorem getElem?_setIfInBounds_true {marked : Array Bool} {index : Nat}
    (unmarked : marked[index]? = some false) (other : Nat) :
    (marked.setIfInBounds index true)[other]? = some true ↔
      other = index ∨ marked[other]? = some true := by
  obtain ⟨inside, _⟩ := Array.getElem?_eq_some_iff.1 unmarked
  by_cases same : other = index
  · subst same
    simp [Array.getElem?_setIfInBounds_self_of_lt inside]
  · simp [same, Array.getElem?_setIfInBounds_ne (Ne.symm same)]

/-- Marking makes no marks disappear. -/
theorem mark_of_marked (marked : Array Bool) (pending : List Handle) (index : Nat)
    (held : marked[index]? = some true) : (store.mark marked pending)[index]? = some true := by
  fun_induction store.mark marked pending with
  | case1 marked => exact held
  | case2 marked handle rest stale ih => exact ih held
  | case3 marked handle rest scope live unmarked ih =>
    exact ih ((getElem?_setIfInBounds_true unmarked index).2 (Or.inr held))
  | case4 marked handle rest scope live unmarked ih => exact ih held

/-- Only slots of reached scopes are marked. -/
theorem reaches_of_mark {store : Store} (tidy : store.Tidy) {roots : List Handle}
    (marked : Array Bool) (pending : List Handle)
    (pendingReached : ∀ handle ∈ pending, store.isLive handle = true →
      store.Reaches roots handle)
    (markedReached : ∀ handle, store.isLive handle = true → marked[handle.index]? = some true →
      store.Reaches roots handle)
    (handle : Handle) (live : store.isLive handle = true)
    (found : (store.mark marked pending)[handle.index]? = some true) :
    store.Reaches roots handle := by
  fun_induction store.mark marked pending with
  | case1 marked => exact markedReached handle live found
  | case2 marked first rest stale ih =>
    exact ih (fun other later => pendingReached other (List.mem_cons_of_mem _ later))
      markedReached found
  | case3 marked first rest scope known unmarked ih =>
    have firstLive : store.isLive first = true := isLive_iff.2 ⟨scope, known⟩
    have firstReached := pendingReached first List.mem_cons_self firstLive
    apply ih _ _ found
    · intro other held otherLive
      rcases List.mem_append.1 held with leads | later
      · exact firstReached.edge tidy known leads otherLive
      · exact pendingReached other (List.mem_cons_of_mem _ later) otherLive
    · intro other otherLive otherMarked
      rcases (getElem?_setIfInBounds_true unmarked other.index).1 otherMarked with same | before
      · rw [eq_of_isLive_of_index_eq otherLive firstLive same]
        exact firstReached
      · exact markedReached other otherLive before
  | case4 marked first rest scope known alreadyMarked ih =>
    exact ih (fun other later => pendingReached other (List.mem_cons_of_mem _ later))
      markedReached found

/-- Whatever a marked scope leads to is marked or pending. -/
def Accounted (store : Store) (marked : Array Bool) (pending : List Handle) : Prop :=
  ∀ handle scope, store.scope? handle = some scope → marked[handle.index]? = some true →
    ∀ next ∈ scope.edges, store.isLive next = true →
      marked[next.index]? = some true ∨ next ∈ pending

/-- Marking ends with every live pending handle marked and nothing unaccounted for. -/
theorem mark_accounted (marked : Array Bool) (pending : List Handle)
    (size : marked.size = store.capacity) (accounted : store.Accounted marked pending) :
    (∀ handle ∈ pending, store.isLive handle = true →
      (store.mark marked pending)[handle.index]? = some true) ∧
    store.Accounted (store.mark marked pending) [] := by
  fun_induction store.mark marked pending with
  | case1 marked => exact ⟨by simp, accounted⟩
  | case2 marked first rest stale ih =>
    have firstStale := scope?_eq_none_iff.1 stale
    have inner := ih size (by
      intro handle scope known held next leads live
      refine (accounted handle scope known held next leads live).imp_right fun waiting => ?_
      rcases List.mem_cons.1 waiting with rfl | later
      · simp [firstStale] at live
      · exact later)
    refine ⟨fun handle held live => ?_, inner.2⟩
    rcases List.mem_cons.1 held with rfl | later
    · simp [firstStale] at live
    · exact inner.1 handle later live
  | case3 marked first rest scope known unmarked ih =>
    have firstLive : store.isLive first = true := isLive_iff.2 ⟨scope, known⟩
    have firstMarked := (getElem?_setIfInBounds_true unmarked first.index).2 (Or.inl rfl)
    have inner := ih (by rw [Array.size_setIfInBounds]; exact size) (by
      intro handle other otherKnown held next leads live
      rcases (getElem?_setIfInBounds_true unmarked handle.index).1 held with same | before
      · have sameHandle :=
          eq_of_isLive_of_index_eq (isLive_iff.2 ⟨other, otherKnown⟩) firstLive same
        subst sameHandle
        rw [known, Option.some.injEq] at otherKnown
        exact Or.inr (List.mem_append_left rest (otherKnown ▸ leads))
      · rcases accounted handle other otherKnown before next leads live with done | waiting
        · exact Or.inl ((getElem?_setIfInBounds_true unmarked next.index).2 (Or.inr done))
        · rcases List.mem_cons.1 waiting with rfl | later
          · exact Or.inl firstMarked
          · exact Or.inr (List.mem_append_right scope.edges later))
    refine ⟨fun handle held live => ?_, inner.2⟩
    rcases List.mem_cons.1 held with rfl | later
    · exact mark_of_marked store _ _ _ firstMarked
    · exact inner.1 handle (List.mem_append_right scope.edges later) live
  | case4 marked first rest scope known alreadyMarked ih =>
    have firstLive : store.isLive first = true := isLive_iff.2 ⟨scope, known⟩
    have inside := index_lt_of_isLive firstLive
    have firstMarked : marked[first.index]? = some true := by
      cases found : marked[first.index]? with
      | none =>
        rw [Array.getElem?_eq_none_iff, size] at found
        omega
      | some mark =>
        cases mark with
        | true => rfl
        | false => exact absurd found alreadyMarked
    have inner := ih size (by
      intro handle other otherKnown held next leads live
      rcases accounted handle other otherKnown held next leads live with done | waiting
      · exact Or.inl done
      · rcases List.mem_cons.1 waiting with rfl | later
        · exact Or.inl firstMarked
        · exact Or.inr later)
    refine ⟨fun handle held live => ?_, inner.2⟩
    rcases List.mem_cons.1 held with rfl | later
    · exact mark_of_marked store _ _ _ firstMarked
    · exact inner.1 handle later live

end Marking

section Collecting

variable {store : Store} (tidy : store.Tidy) (roots : List Handle)
include tidy

/-- A live handle has its slot marked exactly when the roots reach it. -/
theorem marks_iff_reaches {handle : Handle} (live : store.isLive handle = true) :
    (store.marks roots)[handle.index]? = some true ↔ store.Reaches roots handle := by
  have unmarked : ∀ index : Nat, (Array.replicate store.capacity false)[index]? ≠ some true := by
    intro index
    rw [Array.getElem?_replicate]
    split <;> simp
  have initial : store.Accounted (Array.replicate store.capacity false) roots :=
    fun handle scope known held => absurd held (unmarked handle.index)
  have final := mark_accounted store _ _ Array.size_replicate initial
  constructor
  · exact reaches_of_mark tidy _ _ (fun other listed otherLive => .root listed otherLive)
      (fun other _ held => absurd held (unmarked other.index)) handle live
  · refine Reaches.mem_of_closed tidy
      (fun handle => (store.marks roots)[handle.index]? = some true) final.1 ?_
    intro other scope held known next leads nextLive
    exact (final.2 other scope known held next leads nextLive).resolve_right List.not_mem_nil

/-- A slot is condemned exactly when the roots do not reach the scope in it. -/
theorem isCondemned_marks_iff {index : Nat} {slot : Slot}
    (found : store.slots[index]? = some slot) :
    isCondemned (store.marks roots) index slot = true ↔
      slot.scope.isSome = true ∧ ¬ store.Reaches roots ⟨index, slot.generation⟩ := by
  obtain ⟨generation, content⟩ := slot
  cases content with
  | none => simp [isCondemned]
  | some scope =>
    have live : store.isLive ⟨index, generation⟩ = true :=
      isLive_iff.2 ⟨scope, scope?_eq_some_iff.2 found⟩
    have reached := marks_iff_reaches tidy roots live
    simp only [isCondemned, Option.isSome_some, Bool.true_and, Bool.not_eq_true',
      Option.isSome_some, true_and]
    rw [← reached]
    cases (store.marks roots)[index]? with
    | none => simp
    | some mark => cases mark <;> simp

/-- A collection keeps exactly the reached scopes, each as it was. -/
theorem scope?_collect {handle : Handle} {scope : Scope} :
    (store.collect roots).2.scope? handle = some scope ↔
      store.Reaches roots handle ∧ store.scope? handle = some scope := by
  change (store.sweep (store.marks roots)).scope? handle = some scope ↔ _
  rw [scope?_eq_some_iff, scope?_eq_some_iff, slots_sweep]
  cases found : store.slots[handle.index]? with
  | none => simp
  | some slot =>
    have condemned := isCondemned_marks_iff tidy roots found
    by_cases dropped : isCondemned (store.marks roots) handle.index slot = true
    · have unreached := (condemned.1 dropped).2
      simp only [Option.map_some, dropped, if_true, Slot.reclaimed, Option.some.injEq,
        Slot.mk.injEq, reduceCtorEq, and_false, false_iff, not_and]
      rintro reached rfl
      exact unreached reached
    · rw [Option.map_some, if_neg dropped, Option.some.injEq]
      constructor
      · rintro rfl
        refine ⟨?_, rfl⟩
        by_contra unreached
        exact dropped (condemned.2 ⟨rfl, unreached⟩)
      · exact fun kept => kept.2

/-- The handles that are live after a collection are those the roots reach. -/
theorem isLive_collect {handle : Handle} :
    (store.collect roots).2.isLive handle = true ↔ store.Reaches roots handle := by
  rw [isLive_iff]
  constructor
  · rintro ⟨scope, found⟩
    exact ((scope?_collect tidy roots).1 found).1
  · intro reached
    obtain ⟨scope, found⟩ := isLive_iff.1 reached.isLive
    exact ⟨scope, (scope?_collect tidy roots).2 ⟨reached, found⟩⟩

end Collecting

/-- Only occupied slots are condemned. -/
theorem isSome_of_isCondemned {marked : Array Bool} {index : Nat} {slot : Slot}
    (condemned : isCondemned marked index slot = true) : slot.scope.isSome = true := by
  unfold isCondemned at condemned
  exact (Bool.and_eq_true_iff.1 condemned).1

/-- A slot is condemned exactly when the collection empties it. -/
theorem mem_condemned_marks_iff (store : Store) (roots : List Handle) (index : Nat) :
    index ∈ store.condemned (store.marks roots) ↔
      store.isOccupied index = true ∧ (store.collect roots).2.isOccupied index = false := by
  rw [mem_condemned_iff, collect_eq]
  unfold isOccupied
  rw [slots_sweep]
  cases found : store.slots[index]? with
  | none => simp
  | some slot =>
    by_cases condemned : isCondemned (store.marks roots) index slot = true
    · simp [condemned, isSome_of_isCondemned condemned, Slot.reclaimed]
    · simp [condemned, Option.isSome_iff_ne_none]

/-- A collection moves a slot to its next generation exactly when it empties it. -/
theorem generation_collect (store : Store) (roots : List Handle) (index : Nat) :
    (store.collect roots).2.generation index =
      if store.isOccupied index = true ∧ (store.collect roots).2.isOccupied index = false then
        store.generation index + 1
      else store.generation index := by
  simp only [← mem_condemned_marks_iff, mem_condemned_iff]
  rw [collect_eq]
  unfold generation
  rw [slots_sweep]
  cases found : store.slots[index]? with
  | none => simp
  | some slot =>
    by_cases condemned : isCondemned (store.marks roots) index slot = true <;>
    simp [condemned, Slot.reclaimed]

end Store

end ScopeMachine
