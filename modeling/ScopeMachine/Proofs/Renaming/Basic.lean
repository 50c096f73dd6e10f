import Mathlib.Data.Set.Function
import ScopeMachine.Proofs.Renaming.Value
import ScopeMachine.Scope.Collection

/-!
# One-to-one renamings

A renaming gives each handle of one store that is known so far its counterpart in another store, no
two handles the same one. It grows as scopes are allocated. What it says about handles carries over
to values, and nothing that it has said changes when it grows.

Two computations agree under a renaming when they end alike. Where one of the stores may have lost
scopes of the other, a computation on it that meets a lost scope agrees with anything.
-/

namespace ScopeMachine

/-- Scope with every handle replaced. -/
def Scope.rename (f : Handle → Handle) (scope : Scope) : Scope :=
  ⟨scope.parent.map f, scope.bindings.mapValues (Value.rename f)⟩

/-- Renamings that agree on what a scope leads to rename the scope alike. -/
theorem Scope.rename_congr {f g : Handle → Handle} {scope : Scope}
    (agree : ∀ handle ∈ scope.edges, f handle = g handle) : scope.rename f = scope.rename g := by
  unfold Scope.edges at agree
  simp only [Scope.rename, Scope.mk.injEq, SymbolMap.mapValues, SymbolMap.mk.injEq]
  constructor
  · cases link : scope.parent with
    | none => rfl
    | some above =>
      rw [Option.map_some, Option.map_some, agree above (by simp [link])]
  · refine List.map_congr_left fun entry held => ?_
    rw [Prod.mk.injEq]
    refine ⟨rfl, Value.rename_congr fun handle inner => agree handle ?_⟩
    exact List.mem_append_right _
      (List.mem_flatMap.2 ⟨entry.2, List.mem_map_of_mem held, inner⟩)

/-- Renaming each handle of a scope to itself changes nothing. -/
@[simp] theorem Scope.rename_id (scope : Scope) : scope.rename id = scope := by
  simp [Scope.rename, SymbolMap.mapValues]

/-- Counterparts of handles, no two the same. -/
structure Renaming where
  /-- Counterpart of a handle; what it is outside the domain does not matter. -/
  image : Handle → Handle
  /-- Handles that have a counterpart. -/
  domain : Set Handle
  /-- Different handles have different counterparts. -/
  injOn : Set.InjOn image domain

namespace Renaming

/-- The later renaming knows what the earlier one knows, and may know more. -/
structure Extends (later earlier : Renaming) : Prop where
  /-- What had a counterpart has one. -/
  domain : earlier.domain ⊆ later.domain
  /-- Counterparts do not change. -/
  image : ∀ handle ∈ earlier.domain, later.image handle = earlier.image handle

/-- A renaming extends itself. -/
theorem Extends.refl (pairs : Renaming) : pairs.Extends pairs :=
  ⟨fun _ held => held, fun _ _ => rfl⟩

/-- Extensions compose. -/
theorem Extends.trans {first second third : Renaming} (later : third.Extends second)
    (earlier : second.Extends first) : third.Extends first where
  domain := fun _ held => later.domain (earlier.domain held)
  image := fun handle held =>
    (later.image handle (earlier.domain held)).trans (earlier.image handle held)

/-- Each handle in a set is its own counterpart. -/
def identity (domain : Set Handle) : Renaming := ⟨id, domain, Function.injective_id.injOn⟩

/-- Renaming with one more pair. -/
def add (pairs : Renaming) (new counterpart : Handle)
    (unused : ∀ handle ∈ pairs.domain, pairs.image handle ≠ counterpart) : Renaming where
  image := fun handle => if handle = new then counterpart else pairs.image handle
  domain := {handle | handle = new ∨ handle ∈ pairs.domain}
  injOn := by
    intro left leftKnown right rightKnown same
    by_cases leftNew : left = new <;> by_cases rightNew : right = new
    · rw [leftNew, rightNew]
    · simp only [if_pos leftNew, if_neg rightNew] at same
      exact absurd same.symm (unused right (rightKnown.resolve_left rightNew))
    · simp only [if_neg leftNew, if_pos rightNew] at same
      exact absurd same (unused left (leftKnown.resolve_left leftNew))
    · simp only [if_neg leftNew, if_neg rightNew] at same
      exact pairs.injOn (leftKnown.resolve_left leftNew) (rightKnown.resolve_left rightNew) same

/-- A renaming with one more pair extends it. -/
theorem add_extends {pairs : Renaming} {new counterpart : Handle}
    (unused : ∀ handle ∈ pairs.domain, pairs.image handle ≠ counterpart)
    (fresh : new ∉ pairs.domain) : (pairs.add new counterpart unused).Extends pairs where
  domain := fun _ held => Or.inr held
  image := by
    intro handle held
    refine if_neg ?_
    rintro rfl
    exact fresh held

variable (pairs : Renaming)

/-- The right handle is the counterpart of the left one. -/
structure SendsHandle (left right : Handle) : Prop where
  /-- The left handle is known. -/
  known : left ∈ pairs.domain
  /-- The right one is its counterpart. -/
  eq : right = pairs.image left

/-- The right value is the left one with the counterparts of its handles. -/
structure Sends (left right : Value) : Prop where
  /-- The handles of the left value are known. -/
  known : ∀ handle ∈ left.handles, handle ∈ pairs.domain
  /-- The right value is the left one renamed. -/
  eq : right = left.rename pairs.image

/-- The right values are the left ones with the counterparts of their handles. -/
structure SendsAll (left right : List Value) : Prop where
  /-- The handles of the left values are known. -/
  known : ∀ handle ∈ left.flatMap Value.handles, handle ∈ pairs.domain
  /-- The right values are the left ones renamed. -/
  eq : right = left.map (Value.rename pairs.image)

variable {pairs}

/-- Counterparts of handles stay when a renaming is extended. -/
theorem SendsHandle.extend {later : Renaming} {left right : Handle}
    (sends : pairs.SendsHandle left right) (extended : later.Extends pairs) :
    later.SendsHandle left right where
  known := extended.domain sends.known
  eq := sends.eq.trans (extended.image left sends.known).symm

/-- Counterparts of values stay when a renaming is extended. -/
theorem Sends.extend {later : Renaming} {left right : Value} (sends : pairs.Sends left right)
    (extended : later.Extends pairs) : later.Sends left right where
  known := fun handle held => extended.domain (sends.known handle held)
  eq := sends.eq.trans
    (Value.rename_congr fun handle held => (extended.image handle (sends.known handle held)).symm)

/-- No values correspond to no values. -/
theorem SendsAll.nil : pairs.SendsAll [] [] := ⟨by simp, rfl⟩

/-- Lists correspond when their first members and their rests do. -/
theorem SendsAll.cons {left right : Value} {lefts rights : List Value}
    (first : pairs.Sends left right) (rest : pairs.SendsAll lefts rights) :
    pairs.SendsAll (left :: lefts) (right :: rights) where
  known := by
    intro handle held
    rw [List.flatMap_cons, List.mem_append] at held
    exact held.elim (first.known handle) (rest.known handle)
  eq := by rw [first.eq, rest.eq, List.map_cons]

/-- The first members of corresponding lists correspond. -/
theorem SendsAll.head {left right : Value} {lefts rights : List Value}
    (all : pairs.SendsAll (left :: lefts) (right :: rights)) : pairs.Sends left right where
  known := fun handle held => all.known handle (by simp [held])
  eq := (List.cons.inj all.eq).1

/-- The rests of corresponding lists correspond. -/
theorem SendsAll.tail {left right : Value} {lefts rights : List Value}
    (all : pairs.SendsAll (left :: lefts) (right :: rights)) :
    pairs.SendsAll lefts rights where
  known := fun handle held => all.known handle (by
    rw [List.flatMap_cons, List.mem_append]
    exact Or.inr held)
  eq := (List.cons.inj all.eq).2

/-- Counterparts of lists stay when a renaming is extended. -/
theorem SendsAll.extend {later : Renaming} {left right : List Value}
    (all : pairs.SendsAll left right) (extended : later.Extends pairs) :
    later.SendsAll left right where
  known := fun handle held => extended.domain (all.known handle held)
  eq := all.eq.trans (List.map_congr_left fun value listed => Value.rename_congr fun handle held =>
    (extended.image handle (all.known handle (List.mem_flatMap.2 ⟨value, listed, held⟩))).symm)

/-- A value without handles corresponds to itself. -/
theorem sends_self {value : Value} (none : value.handles = []) : pairs.Sends value value where
  known := by simp [none]
  eq := by
    conv_lhs => rw [← Value.rename_id value]
    exact Value.rename_congr (by simp [none])

/-- Values of a kind with one handle correspond when the right one is the left one renamed. -/
theorem sends_iff_of_single {γ : Type} (make : γ → Value) (scope : γ → Handle) (rename : γ → γ)
    (injective : Function.Injective make) {left right : γ}
    (handles : (make left).handles = [scope left])
    (renames : (make left).rename pairs.image = make (rename left)) :
    pairs.Sends (make left) (make right) ↔
      scope left ∈ pairs.domain ∧ right = rename left := by
  constructor
  · rintro ⟨known, eq⟩
    rw [renames] at eq
    exact ⟨known (scope left) (by simp [handles]), injective eq⟩
  · rintro ⟨known, rfl⟩
    exact ⟨by simpa [handles] using known, renames.symm⟩

/-- References correspond when the right one is the left one renamed. -/
theorem sends_reference_iff {left right : Location} :
    pairs.Sends (.reference left) (.reference right) ↔
      left.scope ∈ pairs.domain ∧ right = left.rename pairs.image :=
  sends_iff_of_single Value.reference Location.scope (Location.rename pairs.image)
    (fun _ _ => Value.reference.inj) (by simp [Value.handles]) (by simp [Value.rename])

/-- Functions correspond when the right one is the left one renamed. -/
theorem sends_function_iff {left right : Closure} :
    pairs.Sends (.function left) (.function right) ↔
      left.scope ∈ pairs.domain ∧ right = left.rename pairs.image :=
  sends_iff_of_single Value.function Closure.scope (Closure.rename pairs.image)
    (fun _ _ => Value.function.inj) (by simp [Value.handles]) (by simp [Value.rename])

/-- Classes correspond when the right one is the left one renamed. -/
theorem sends_classObject_iff {left right : ClassObject} :
    pairs.Sends (.classObject left) (.classObject right) ↔
      left.scope ∈ pairs.domain ∧ right = left.rename pairs.image :=
  sends_iff_of_single Value.classObject ClassObject.scope (ClassObject.rename pairs.image)
    (fun _ _ => Value.classObject.inj) (by simp [Value.handles]) (by simp [Value.rename])

/-- Objects correspond when the right one is the left one renamed. -/
theorem sends_object_iff {left right : Object} :
    pairs.Sends (.object left) (.object right) ↔
      (left.storage ∈ pairs.domain ∧ left.owner.scope ∈ pairs.domain ∧
        ∀ method ∈ left.methods.values, method.scope ∈ pairs.domain) ∧
      right = left.rename pairs.image := by
  constructor
  · rintro ⟨known, eq⟩
    refine ⟨⟨known _ (by simp [Value.handles]), known _ (by simp [Value.handles]), ?_⟩, ?_⟩
    · intro method held
      exact known _ (by simpa [Value.handles] using Or.inr (Or.inr ⟨method, held, rfl⟩))
    · simpa [Value.rename] using eq
  · rintro ⟨⟨storage, owner, methods⟩, rfl⟩
    refine ⟨?_, by simp [Value.rename]⟩
    simpa [Value.handles] using ⟨storage, owner, methods⟩

/-- Arrays of corresponding values correspond. -/
theorem sends_array {lefts rights : List Value} (values : pairs.SendsAll lefts rights) :
    pairs.Sends (.array lefts) (.array rights) where
  known := by simpa [Value.handles] using values.known
  eq := by simp [Value.rename, values.eq]

end Renaming

/-- Two computations end alike, or the first has lost what it needs and may. -/
inductive Agreement {ε α β : Type} (lossy : Prop) (lost : ε → Prop) (alike : ε → ε → Prop)
    (related : α → β → Prop) : Except ε α → Except ε β → Prop where
  /-- Both give related results. -/
  | ok {left : α} {right : β} (both : related left right) :
    Agreement lossy lost alike related (.ok left) (.ok right)
  /-- Both fail alike. -/
  | error {left right : ε} (same : alike left right) :
    Agreement lossy lost alike related (.error left) (.error right)
  /-- The first fails for a loss. -/
  | lost {left : ε} {right : Except ε β} (allowed : lossy) (loss : lost left) :
    Agreement lossy lost alike related (.error left) right

/-- Agreeing computations that continue in agreement agree. -/
theorem Agreement.bind {ε α β γ δ : Type} {lossy : Prop} {lost : ε → Prop} {alike : ε → ε → Prop}
    {related : α → β → Prop} {after : γ → δ → Prop} {left : Except ε α} {right : Except ε β}
    {leftNext : α → Except ε γ} {rightNext : β → Except ε δ}
    (first : Agreement lossy lost alike related left right)
    (next : ∀ leftResult rightResult, related leftResult rightResult →
      Agreement lossy lost alike after (leftNext leftResult) (rightNext rightResult)) :
    Agreement lossy lost alike after (left >>= leftNext) (right >>= rightNext) := by
  cases first with
  | ok both => exact next _ _ both
  | error same => exact .error same
  | lost allowed loss => exact .lost allowed loss

/-- Results that are related in one way may be related in another. -/
theorem Agreement.mono {ε α β : Type} {lossy : Prop} {lost : ε → Prop} {alike : ε → ε → Prop}
    {related weaker : α → β → Prop} {left : Except ε α} {right : Except ε β}
    (agreement : Agreement lossy lost alike related left right)
    (weaken : ∀ leftResult rightResult, related leftResult rightResult →
      weaker leftResult rightResult) : Agreement lossy lost alike weaker left right := by
  cases agreement with
  | ok both => exact .ok (weaken _ _ both)
  | error same => exact .error same
  | lost allowed loss => exact .lost allowed loss

/-- Agreeing computations agree after functions that keep results related. -/
theorem Agreement.map {ε α β γ δ : Type} {lossy : Prop} {lost : ε → Prop} {alike : ε → ε → Prop}
    {related : α → β → Prop} {after : γ → δ → Prop} {left : Except ε α} {right : Except ε β}
    (agreement : Agreement lossy lost alike related left right) {f : α → γ} {g : β → δ}
    (keeps : ∀ leftResult rightResult, related leftResult rightResult →
      after (f leftResult) (g rightResult)) :
    Agreement lossy lost alike after (left.map f) (right.map g) := by
  cases agreement with
  | ok both => exact .ok (keeps _ _ both)
  | error same => exact .error same
  | lost allowed loss => exact .lost allowed loss

/-- A computation that fails for the same reasons agrees with itself if its results are related to
themselves. -/
theorem Agreement.of_self {ε α : Type} {lossy : Prop} {lost : ε → Prop} {related : α → α → Prop}
    {computed : Except ε α} (self : ∀ result, computed = .ok result → related result result) :
    Agreement lossy lost Eq related computed computed := by
  cases computed with
  | ok result => exact .ok (self result rfl)
  | error reason => exact .error rfl

/-- The failure comes from a handle that is not live. -/
def ScopeError.IsLoss (error : ScopeError) : Prop := ∃ handle, error = .dangling handle

/-- The errors differ at most in the handle that is not live. -/
inductive ScopeError.Alike : ScopeError → ScopeError → Prop where
  /-- An error is like itself. -/
  | same (error : ScopeError) : Alike error error
  /-- Handles that are not live are alike. -/
  | dangling (left right : Handle) : Alike (.dangling left) (.dangling right)

/-- Two operations on stores end alike, or the first has lost a scope and may. -/
abbrev ScopesAgree {α β : Type} (lossy : Prop) (related : α → β → Prop) :
    Except ScopeError α → Except ScopeError β → Prop :=
  Agreement lossy ScopeError.IsLoss ScopeError.Alike related

/-- The failure comes from a scope that has been reclaimed. -/
def Failure.IsLoss (failure : Failure) : Prop := failure.cause = .reclaimedScope

/-- Two computations end in related results or the same failure, or the first has lost a scope and
may. -/
abbrev ResultsAgree {α β : Type} (lossy : Prop) (related : α → β → Prop) :
    Except Failure α → Except Failure β → Prop :=
  Agreement lossy Failure.IsLoss Eq related

/-- Elements of corresponding arrays at corresponding positions correspond. -/
theorem Renaming.element_agrees {lossy : Prop} {pairs : Renaming}
    {left right leftPosition rightPosition : Value} (receiver : pairs.Sends left right)
    (position : pairs.Sends leftPosition rightPosition) :
    ResultsAgree lossy pairs.Sends (left.element leftPosition) (right.element rightPosition) := by
  rw [receiver.eq, position.eq, Value.element_rename]
  cases found : left.element leftPosition with
  | ok item =>
    exact .ok ⟨fun handle held => receiver.known handle (Value.handles_element found held), rfl⟩
  | error failure => exact .error rfl

/-- Plain computations agree with themselves. -/
theorem Plain.agrees {lossy : Prop} {pairs : Renaming} {computed : Except Failure Value}
    (plain : Plain computed) : ResultsAgree lossy pairs.Sends computed computed :=
  .of_self fun result found => Renaming.sends_self (plain result found)

end ScopeMachine
