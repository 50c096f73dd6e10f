import ScopeMachine.Proofs.Renaming.Basic
import ScopeMachine.Proofs.Scope.Soundness

/-!
# Stores that mirror each other

A store mirrors another under a renaming when every scope of the first has its counterpart in the
second with the same bindings, renamed. The first may have lost scopes that the second still has,
if that is allowed; otherwise a handle is live in the first exactly when its counterpart is live in
the second. Reading, writing and allocating keep the two stores mirrors of each other and agree,
although the two may use entirely different slots. A collection of the first is a loss.
-/

namespace ScopeMachine

namespace Store

/-- The right store has the counterpart of every scope of the left one. -/
structure Mirrors (lossy : Prop) (pairs : Renaming) (left right : Store) : Prop where
  /-- The left store is sound. -/
  leftSound : left.Sound
  /-- The right store is sound. -/
  rightSound : right.Sound
  /-- Known handles have been issued on the left. -/
  leftIssued : ∀ handle ∈ pairs.domain, left.Issued handle
  /-- Their counterparts have been issued on the right. -/
  rightIssued : ∀ handle ∈ pairs.domain, right.Issued (pairs.image handle)
  /-- Live handles on the left are known. -/
  covers : ∀ handle, left.isLive handle = true → handle ∈ pairs.domain
  /-- What scopes on the left lead to is known. -/
  closed : ∀ handle scope, left.scope? handle = some scope →
    ∀ next ∈ scope.edges, next ∈ pairs.domain
  /-- The counterpart of a scope is the scope renamed. -/
  scopes : ∀ handle scope, left.scope? handle = some scope →
    right.scope? (pairs.image handle) = some (scope.rename pairs.image)
  /-- Unless scopes may be lost, a handle that is not live has a counterpart that is not live. -/
  missing : ∀ handle ∈ pairs.domain, left.scope? handle = none →
    lossy ∨ right.scope? (pairs.image handle) = none

namespace Mirrors

variable {lossy : Prop} {pairs : Renaming} {left right : Store}
  (mirrors : left.Mirrors lossy pairs right)
include mirrors

/-- Counterparts of handles name counterparts of scopes. -/
theorem scope_agrees {leftHandle rightHandle : Handle}
    (sends : pairs.SendsHandle leftHandle rightHandle) :
    ScopesAgree lossy (fun leftScope rightScope =>
        left.scope? leftHandle = some leftScope ∧ rightScope = leftScope.rename pairs.image)
      (left.scope leftHandle) (right.scope rightHandle) := by
  obtain ⟨known, rfl⟩ := sends
  cases found : left.scope? leftHandle with
  | some scope =>
    rw [scope_of_scope? found, scope_of_scope? (mirrors.scopes leftHandle scope found)]
    exact .ok ⟨rfl, rfl⟩
  | none =>
    rw [scope_of_not_isLive (scope?_eq_none_iff.1 found)]
    rcases mirrors.missing leftHandle known found with allowed | absent
    · exact .lost allowed ⟨leftHandle, rfl⟩
    · rw [scope_of_not_isLive (scope?_eq_none_iff.1 absent)]
      exact .error (.dangling _ _)

/-- Counterparts are live together, unless the left one is lost. -/
theorem isLive_agrees {leftHandle rightHandle : Handle}
    (sends : pairs.SendsHandle leftHandle rightHandle) :
    left.isLive leftHandle = true ∧ right.isLive rightHandle = true ∨
      left.isLive leftHandle = false ∧ (lossy ∨ right.isLive rightHandle = false) := by
  obtain ⟨known, rfl⟩ := sends
  cases found : left.scope? leftHandle with
  | some scope =>
    refine Or.inl ⟨isLive_iff.2 ⟨scope, found⟩, isLive_iff.2 ⟨_, mirrors.scopes _ _ found⟩⟩
  | none =>
    refine Or.inr ⟨scope?_eq_none_iff.1 found, ?_⟩
    exact (mirrors.missing leftHandle known found).imp_right scope?_eq_none_iff.1

/-- The parent of a live scope is known. -/
theorem parent_sends {handle above : Handle} {scope : Scope}
    (found : left.scope? handle = some scope) (link : scope.parent = some above) :
    pairs.SendsHandle above (pairs.image above) where
  known := by
    refine mirrors.closed handle scope found above ?_
    exact List.mem_append_left _ (Option.mem_toList.2 link)
  eq := rfl

/-- The handles in a bound value are known. -/
theorem value_sends {handle : Handle} {scope : Scope} {name : Symbol} {value : Value}
    (found : left.scope? handle = some scope) (bound : scope.bindings.get? name = some value) :
    pairs.Sends value (value.rename pairs.image) where
  known := by
    intro inner held
    refine mirrors.closed handle scope found inner (List.mem_append_right _ ?_)
    exact List.mem_flatMap.2 ⟨value, SymbolMap.mem_values_of_get? bound, held⟩
  eq := rfl

/-- Searches for the owner of a name agree within one bound. -/
theorem ownerWithin_agrees (name : Symbol) (bound : Nat) {leftHandle rightHandle : Handle}
    (sends : pairs.SendsHandle leftHandle rightHandle) :
    ScopesAgree lossy pairs.SendsHandle (left.ownerWithin name bound leftHandle)
      (right.ownerWithin name bound rightHandle) := by
  induction bound generalizing leftHandle rightHandle with
  | zero => exact .error (.same _)
  | succ bound ih =>
    unfold ownerWithin
    refine (mirrors.scope_agrees sends).bind ?_
    rintro scope _ ⟨found, rfl⟩
    simp only [Scope.rename, SymbolMap.contains_mapValues]
    split
    · exact .ok sends
    · cases link : scope.parent with
      | none => exact .error (.same _)
      | some above => exact ih (mirrors.parent_sends found link)

/-- Searches for the owner of a name agree. -/
theorem owner_agrees (name : Symbol) {leftHandle rightHandle : Handle}
    (sends : pairs.SendsHandle leftHandle rightHandle) :
    ScopesAgree lossy pairs.SendsHandle (left.owner leftHandle name)
      (right.owner rightHandle name) := by
  rw [mirrors.leftSound.rooted.owner_eq_ownerWithin leftHandle name
      (left.capacity + right.capacity + 1) (by omega),
    mirrors.rightSound.rooted.owner_eq_ownerWithin rightHandle name
      (left.capacity + right.capacity + 1) (by omega)]
  exact mirrors.ownerWithin_agrees name _ sends

/-- Readings in one scope agree. -/
theorem getOwn_agrees (name : Symbol) {leftHandle rightHandle : Handle}
    (sends : pairs.SendsHandle leftHandle rightHandle) :
    ScopesAgree lossy (Option.Rel pairs.Sends) (left.getOwn leftHandle name)
      (right.getOwn rightHandle name) := by
  unfold getOwn
  refine (mirrors.scope_agrees sends).bind ?_
  rintro scope _ ⟨found, rfl⟩
  simp only [Scope.rename, SymbolMap.get?_mapValues]
  cases bound : scope.bindings.get? name with
  | none => exact .ok .none
  | some value => exact .ok (.some (mirrors.value_sends found bound))

/-- Readings along parents agree. -/
theorem get_agrees (name : Symbol) {leftHandle rightHandle : Handle}
    (sends : pairs.SendsHandle leftHandle rightHandle) :
    ScopesAgree lossy pairs.Sends (left.get leftHandle name) (right.get rightHandle name) := by
  unfold Store.get
  refine (mirrors.owner_agrees name sends).bind fun leftOwner rightOwner owner => ?_
  refine (mirrors.getOwn_agrees name owner).bind ?_
  intro leftValue rightValue both
  cases both with
  | none => exact .error (.same _)
  | some value => exact .ok value

/-- Names stand for corresponding variables. -/
theorem locate_agrees (name : Symbol) {leftHandle rightHandle : Handle}
    (sends : pairs.SendsHandle leftHandle rightHandle) :
    ScopesAgree lossy (fun leftTarget rightTarget =>
        pairs.Sends (.reference leftTarget) (.reference rightTarget))
      (left.locate leftHandle name) (right.locate rightHandle name) := by
  unfold locate
  refine (mirrors.owner_agrees name sends).bind fun leftOwner rightOwner owner => .ok ?_
  exact Renaming.sends_reference_iff.2 ⟨owner.known, by rw [owner.eq]; rfl⟩

/-- Writes of corresponding values keep the stores mirrors of each other. -/
theorem set_mirrors {leftHandle rightHandle : Handle} {name : Symbol}
    {leftValue rightValue : Value} {leftAfter rightAfter : Store}
    (sends : pairs.SendsHandle leftHandle rightHandle) (value : pairs.Sends leftValue rightValue)
    (leftWritten : left.set leftHandle name leftValue = .ok leftAfter)
    (rightWritten : right.set rightHandle name rightValue = .ok rightAfter) :
    leftAfter.Mirrors lossy pairs rightAfter := by
  have leftEvolves := evolves_set leftWritten
  have rightEvolves := evolves_set rightWritten
  have sameHandle : ∀ handle ∈ pairs.domain,
      (pairs.image handle = rightHandle ↔ handle = leftHandle) := by
    intro handle known
    rw [sends.eq]
    exact pairs.injOn.eq_iff known sends.known
  constructor
  case leftSound =>
    exact mirrors.leftSound.set
      (fun inner held => mirrors.leftIssued inner (value.known inner held)) leftWritten
  case rightSound =>
    refine mirrors.rightSound.set (fun inner held => ?_) rightWritten
    rw [value.eq, Value.handles_rename] at held
    obtain ⟨source, inside, rfl⟩ := List.mem_map.1 held
    exact mirrors.rightIssued source (value.known source inside)
  case leftIssued =>
    exact fun handle known => leftEvolves.issued handle (mirrors.leftIssued handle known)
  case rightIssued =>
    exact fun handle known => rightEvolves.issued _ (mirrors.rightIssued handle known)
  case covers =>
    intro handle live
    rw [isLive_set leftWritten] at live
    exact mirrors.covers handle live
  case closed =>
    intro handle scope found next leads
    rw [scope?_set leftWritten] at found
    split at found
    · obtain ⟨old, before, rfl⟩ := Option.map_eq_some_iff.1 found
      rcases List.mem_append.1 leads with above | inner
      · exact mirrors.closed leftHandle old before next (List.mem_append_left _ above)
      · obtain ⟨bound, listed, held⟩ := List.mem_flatMap.1 inner
        rcases SymbolMap.mem_values_insert listed with rfl | earlier
        · exact value.known next held
        · refine mirrors.closed leftHandle old before next (List.mem_append_right _ ?_)
          exact List.mem_flatMap.2 ⟨bound, earlier, held⟩
    · exact mirrors.closed handle scope found next leads
  case scopes =>
    intro handle scope found
    have known : handle ∈ pairs.domain := by
      refine mirrors.covers handle ?_
      rw [← isLive_set leftWritten]
      exact isLive_iff.2 ⟨scope, found⟩
    rw [scope?_set leftWritten] at found
    rw [scope?_set rightWritten]
    by_cases same : handle = leftHandle
    · rw [if_pos same] at found
      obtain ⟨old, before, rfl⟩ := Option.map_eq_some_iff.1 found
      rw [if_pos ((sameHandle handle known).2 same), sends.eq,
        mirrors.scopes leftHandle old before, Option.map_some, value.eq]
      simp only [Scope.rename, SymbolMap.mapValues_insert]
    · rw [if_neg same] at found
      rw [if_neg (fun equal => same ((sameHandle handle known).1 equal))]
      exact mirrors.scopes handle scope found
  case missing =>
    intro handle known absent
    rw [scope?_eq_none_iff, isLive_set leftWritten, ← scope?_eq_none_iff] at absent
    refine (mirrors.missing handle known absent).imp_right fun gone => ?_
    rw [scope?_eq_none_iff, isLive_set rightWritten, ← scope?_eq_none_iff]
    exact gone

/-- Writes of corresponding values agree and keep the stores mirrors of each other. -/
theorem set_agrees (name : Symbol) {leftHandle rightHandle : Handle}
    {leftValue rightValue : Value} (sends : pairs.SendsHandle leftHandle rightHandle)
    (value : pairs.Sends leftValue rightValue) :
    ScopesAgree lossy
      (fun leftAfter rightAfter => leftAfter.Mirrors lossy pairs rightAfter ∧
        left.Unfolds leftAfter)
      (left.set leftHandle name leftValue) (right.set rightHandle name rightValue) := by
  cases found : left.scope? leftHandle with
  | some scope =>
    obtain ⟨leftAfter, leftWritten⟩ :=
      exists_set_of_isLive (isLive_iff.2 ⟨scope, found⟩) name leftValue
    have rightFound := mirrors.scopes leftHandle scope found
    rw [← sends.eq] at rightFound
    obtain ⟨rightAfter, rightWritten⟩ :=
      exists_set_of_isLive (isLive_iff.2 ⟨_, rightFound⟩) name rightValue
    rw [leftWritten, rightWritten]
    exact .ok ⟨mirrors.set_mirrors sends value leftWritten rightWritten, unfolds_set leftWritten⟩
  | none =>
    unfold set
    rw [scope_of_not_isLive (scope?_eq_none_iff.1 found)]
    rcases mirrors.missing leftHandle sends.known found with allowed | absent
    · exact .lost allowed ⟨leftHandle, rfl⟩
    · rw [← sends.eq] at absent
      rw [scope_of_not_isLive (scope?_eq_none_iff.1 absent)]
      exact .error (.dangling _ _)

/-- Assignments of corresponding values agree and keep the stores mirrors of each other. -/
theorem assign_agrees (name : Symbol) {leftHandle rightHandle : Handle}
    {leftValue rightValue : Value} (sends : pairs.SendsHandle leftHandle rightHandle)
    (value : pairs.Sends leftValue rightValue) :
    ScopesAgree lossy
      (fun leftAfter rightAfter => leftAfter.Mirrors lossy pairs rightAfter ∧
        left.Unfolds leftAfter)
      (left.assign leftHandle name leftValue) (right.assign rightHandle name rightValue) :=
  (mirrors.owner_agrees name sends).bind fun _ _ owner => mirrors.set_agrees name owner value

end Mirrors

/-- Writes of corresponding values to several names agree and keep the stores mirrors of each
other. -/
theorem Mirrors.setAll_agrees {lossy : Prop} {pairs : Renaming} {leftHandle rightHandle : Handle}
    (sends : pairs.SendsHandle leftHandle rightHandle) (names : List Symbol) {left right : Store}
    (mirrors : left.Mirrors lossy pairs right) {lefts rights : List Value}
    (values : pairs.SendsAll lefts rights) :
    ScopesAgree lossy
      (fun leftAfter rightAfter => leftAfter.Mirrors lossy pairs rightAfter ∧
        left.Unfolds leftAfter)
      (left.setAll leftHandle (names.zip lefts)) (right.setAll rightHandle (names.zip rights)) := by
  induction names generalizing left right lefts rights with
  | nil => exact .ok ⟨mirrors, .refl left⟩
  | cons name names ih =>
    cases lefts with
    | nil =>
      obtain rfl : rights = [] := values.eq
      exact .ok ⟨mirrors, .refl left⟩
    | cons leftValue lefts =>
      cases rights with
      | nil => exact absurd values.eq (by simp)
      | cons rightValue rights =>
        refine (mirrors.set_agrees name sends values.head).bind ?_
        rintro leftNext rightNext ⟨nextMirrors, unfolds⟩
        refine (ih nextMirrors values.tail).mono ?_
        rintro leftAfter rightAfter ⟨afterMirrors, later⟩
        exact ⟨afterMirrors, unfolds.trans later⟩

section Allocation

variable {lossy : Prop} {pairs : Renaming} {left right : Store}
  (mirrors : left.Mirrors lossy pairs right) {leftParent rightParent : Handle}
  (sends : pairs.SendsHandle leftParent rightParent)
include mirrors sends

/-- Allocations inside corresponding scopes give handles that can be made counterparts, and keep the
stores mirrors of each other. -/
theorem Mirrors.allocate_mirrors :
    ∃ later : Renaming, later.Extends pairs ∧
      later.SendsHandle (left.allocateEmpty (some leftParent)).1
        (right.allocateEmpty (some rightParent)).1 ∧
      (left.allocateEmpty (some leftParent)).2.Mirrors lossy later
        (right.allocateEmpty (some rightParent)).2 := by
  unfold allocateEmpty
  have leftTidy := mirrors.leftSound.tidy
  have rightTidy := mirrors.rightSound.tidy
  have leftEvolves := evolves_allocate leftTidy (some leftParent) .empty
  have rightEvolves := evolves_allocate rightTidy (some rightParent) .empty
  have leftScope := scope?_allocate (some leftParent) .empty leftTidy
  have rightScope := scope?_allocate (some rightParent) .empty rightTidy
  have fresh : (left.allocate (some leftParent) .empty).1 ∉ pairs.domain := fun known =>
    not_issued_allocate leftTidy (some leftParent) .empty (mirrors.leftIssued _ known)
  have unused : ∀ handle ∈ pairs.domain,
      pairs.image handle ≠ (right.allocate (some rightParent) .empty).1 := by
    intro handle known taken
    refine not_issued_allocate rightTidy (some rightParent) .empty ?_
    exact taken ▸ mirrors.rightIssued handle known
  have extended := Renaming.add_extends unused fresh
  have imageNew : (pairs.add _ _ unused).image (left.allocate (some leftParent) .empty).1 =
      (right.allocate (some rightParent) .empty).1 := if_pos rfl
  refine ⟨pairs.add _ _ unused, extended, ⟨Or.inl rfl, imageNew.symm⟩, ?_⟩
  constructor
  case leftSound =>
    refine mirrors.leftSound.allocate SymbolMap.distinct_empty ?_ (by simp [SymbolMap.values,
      SymbolMap.empty])
    rintro above ⟨⟩
    exact mirrors.leftIssued leftParent sends.known
  case rightSound =>
    refine mirrors.rightSound.allocate SymbolMap.distinct_empty ?_ (by simp [SymbolMap.values,
      SymbolMap.empty])
    rintro above ⟨⟩
    exact sends.eq ▸ mirrors.rightIssued leftParent sends.known
  case leftIssued =>
    rintro handle (rfl | known)
    · exact issued_of_isLive (isLive_allocate leftTidy (some leftParent) .empty)
    · exact leftEvolves.issued handle (mirrors.leftIssued handle known)
  case rightIssued =>
    rintro handle (rfl | known)
    · rw [imageNew]
      exact issued_of_isLive (isLive_allocate rightTidy (some rightParent) .empty)
    · rw [extended.image handle known]
      exact rightEvolves.issued _ (mirrors.rightIssued handle known)
  case covers =>
    intro handle live
    rw [isLive, leftScope] at live
    split at live
    · exact Or.inl ‹_›
    · exact Or.inr (mirrors.covers handle live)
  case closed =>
    intro handle scope found next leads
    rw [leftScope] at found
    split at found
    · obtain rfl := Option.some.inj found
      obtain rfl : next = leftParent := by
        simpa [Scope.edges, SymbolMap.values, SymbolMap.empty] using leads
      exact Or.inr sends.known
    · exact Or.inr (mirrors.closed handle scope found next leads)
  case scopes =>
    intro handle scope found
    rw [leftScope] at found
    rw [rightScope]
    split at found
    · rename_i new
      obtain rfl := Option.some.inj found
      rw [new, imageNew, if_pos rfl]
      simp only [Scope.rename, Option.map_some, extended.image leftParent sends.known, ← sends.eq]
      rfl
    · have known : handle ∈ pairs.domain := mirrors.covers handle (isLive_iff.2 ⟨scope, found⟩)
      rw [extended.image handle known, if_neg (unused handle known),
        mirrors.scopes handle scope found, Option.some.injEq]
      exact Scope.rename_congr fun next leads =>
        (extended.image next (mirrors.closed handle scope found next leads)).symm
  case missing =>
    intro handle known absent
    rw [leftScope] at absent
    split at absent
    · exact absurd absent (by simp)
    · rename_i old
      have before := known.resolve_left old
      rw [rightScope, extended.image handle before, if_neg (unused handle before)]
      exact mirrors.missing handle before absent

end Allocation

/-- A collection of the left store is a loss that the stores bear if losses are allowed. -/
theorem Mirrors.collect {lossy : Prop} {pairs : Renaming} {left right : Store}
    {roots : List Handle} (mirrors : left.Mirrors lossy pairs right) (allowed : lossy)
    (lasting : left.wrapsOn roots = false) :
    (left.collect roots).2.Mirrors lossy pairs right where
  leftSound := mirrors.leftSound.collect lasting
  rightSound := mirrors.rightSound
  leftIssued := fun handle known =>
    (evolves_collect lasting mirrors.leftSound.tidy).issued handle (mirrors.leftIssued handle known)
  rightIssued := mirrors.rightIssued
  covers := fun handle live =>
    mirrors.covers handle ((isLive_collect mirrors.leftSound.tidy roots).1 live).isLive
  closed := fun handle scope found =>
    mirrors.closed handle scope ((scope?_collect mirrors.leftSound.tidy roots).1 found).2
  scopes := fun handle scope found =>
    mirrors.scopes handle scope ((scope?_collect mirrors.leftSound.tidy roots).1 found).2
  missing := fun _ _ _ => Or.inl allowed

/-- A sound store mirrors itself, with the issued handles as their own counterparts. -/
theorem Sound.mirrors_self {store : Store} (sound : store.Sound) (lossy : Prop) :
    store.Mirrors lossy (.identity {handle | store.Issued handle}) store where
  leftSound := sound
  rightSound := sound
  leftIssued := fun _ known => known
  rightIssued := fun _ known => known
  covers := fun _ live => issued_of_isLive live
  closed := sound.issued
  scopes := fun handle scope found => by
    rw [Renaming.identity, Scope.rename_id]
    exact found
  missing := fun _ _ absent => Or.inr absent

/-- Issued handles that a collection does not kill. -/
def spared (store : Store) (roots : List Handle) : Set Handle :=
  {handle | store.Issued handle ∧
    (store.isLive handle = true → (store.collect roots).2.isLive handle = true)}

/-- After a collection that reclaims no slot in its last generation a store mirrors what it was
before, without any loss, as far as the handles go that the collection has not killed. -/
theorem Sound.collect_mirrors {store : Store} {roots : List Handle} (sound : store.Sound)
    (lasting : store.wrapsOn roots = false) :
    (store.collect roots).2.Mirrors False (.identity (store.spared roots)) store where
  leftSound := sound.collect lasting
  rightSound := sound
  leftIssued := fun handle known => (evolves_collect lasting sound.tidy).issued handle known.1
  rightIssued := fun _ known => known.1
  covers := fun handle live =>
    ⟨issued_of_isLive ((isLive_collect sound.tidy roots).1 live).isLive, fun _ => live⟩
  closed := by
    intro handle scope found next leads
    obtain ⟨reached, before⟩ := (scope?_collect sound.tidy roots).1 found
    refine ⟨sound.issued handle scope before next leads, fun live => ?_⟩
    exact (isLive_collect sound.tidy roots).2 (reached.edge sound.tidy before leads live)
  scopes := by
    intro handle scope found
    rw [Renaming.identity, Scope.rename_id]
    exact ((scope?_collect sound.tidy roots).1 found).2
  missing := by
    intro handle known absent
    refine Or.inr (scope?_eq_none_iff.2 (Bool.eq_false_iff.2 fun live => ?_))
    rw [scope?_eq_none_iff] at absent
    rw [known.2 live] at absent
    exact Bool.false_ne_true absent.symm

end Store

end ScopeMachine
