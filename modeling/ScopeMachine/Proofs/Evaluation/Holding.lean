import Mathlib.Data.Set.Insert
import Mathlib.Order.Basic
import ScopeMachine.Evaluation.Task
import ScopeMachine.Proofs.Renaming.Value

/-!
# What an evaluation has in hand

While it performs a task, an evaluation has certain scopes in hand: those in which it declares, its
frames, and those that it knows by handles in values it has met. It also knows variables that values
refer to. It starts with what its task gives it and comes by more when it opens a scope, looks into
one, or is given a value.
-/

namespace ScopeMachine

namespace Value

mutual

/-- Variables that a value refers to, in order and with repeats. -/
def references : Value → List Location
  | .array items => referencesAll items
  | .reference target => [target]
  | _ => []

/-- Variables that the values of a list refer to. -/
def referencesAll : List Value → List Location
  | [] => []
  | value :: rest => references value ++ referencesAll rest

end

/-- The variables of a list are those of its members in order. -/
@[simp] theorem referencesAll_eq_flatMap (values : List Value) :
    referencesAll values = values.flatMap references := by
  induction values with
  | nil => rfl
  | cons value rest ih => rw [referencesAll, ih, List.flatMap_cons]

/-- The scope of a variable that a value refers to is among the handles of the value. -/
theorem scope_mem_handles {value : Value} {target : Location}
    (referred : target ∈ value.references) : target.scope ∈ value.handles := by
  induction value using arrayInduction with
  | array items ih =>
    rw [references, referencesAll_eq_flatMap] at referred
    obtain ⟨item, listed, inner⟩ := List.mem_flatMap.1 referred
    rw [handles, handlesAll_eq_flatMap]
    exact List.mem_flatMap.2 ⟨item, listed, ih item listed inner⟩
  | flat value plain =>
    cases value with
    | reference other =>
      rw [references, List.mem_singleton] at referred
      rw [referred, handles]
      exact List.mem_singleton_self _
    | array items => exact absurd rfl (plain items)
    | _ => exact absurd referred List.not_mem_nil

/-- An element refers to no variables that its array does not refer to. -/
theorem references_element {receiver position item : Value}
    (found : receiver.element position = .ok item) {target : Location}
    (referred : target ∈ item.references) : target ∈ receiver.references := by
  unfold element at found
  split at found
  · rename_i items
    split at found
    · rename_i index
      split at found
      · rename_i element listed
        obtain rfl := Except.ok.inj found
        split at listed
        · rw [references, referencesAll_eq_flatMap]
          exact List.mem_flatMap.2 ⟨element, List.mem_of_getElem? listed, referred⟩
        · simp at listed
      · simp at found
    · simp at found
  · simp at found

end Value

/-- Kind of a node, if it exists. -/
def Setting.kind? (setting : Setting) (program : ProgramId) (id : NodeId) : Option NodeKind :=
  (setting.program? program).bind fun code => (code.node? id).map Node.kind

/-- Scopes in which a task may declare: a node does in the scope in which it is evaluated, unless it
is a block, which has a scope of its own. -/
def Task.frames (setting : Setting) : Task → Set Handle
  | .node program id scope =>
    {handle | handle = scope ∧ ∀ body, setting.kind? program id ≠ some (.block body)}
  | .call _ _ => ∅

/-- Handles that a task gives. -/
def Task.handles : Task → List Handle
  | .node _ _ scope => [scope]
  | .call callee args => (callee :: args).flatMap Value.handles

/-- Variables that the values of a task refer to. -/
def Task.references : Task → List Location
  | .node _ _ _ => []
  | .call callee args => (callee :: args).flatMap Value.references

/-- Scopes and variables that an evaluation has in hand. -/
structure Holding where
  /-- Scopes in which it declares. -/
  frames : Set Handle
  /-- Scopes that it knows. -/
  handles : Set Handle
  /-- Variables that it knows references to. -/
  locations : Set Location
  /-- It knows its frames. -/
  frames_subset : frames ⊆ handles

namespace Holding

/-- One holding is part of another. -/
instance : Preorder Holding where
  le first second := first.frames ⊆ second.frames ∧ first.handles ⊆ second.handles ∧
    first.locations ⊆ second.locations
  le_refl _ := ⟨subset_rfl, subset_rfl, subset_rfl⟩
  le_trans _ _ _ earlier later := ⟨earlier.1.trans later.1, earlier.2.1.trans later.2.1,
    earlier.2.2.trans later.2.2⟩

/-- Holding with one frame. -/
def ofFrame (frame : Handle) : Holding := ⟨{frame}, {frame}, ∅, subset_rfl⟩

/-- What a task gives to its evaluation. -/
def ofTask (setting : Setting) (task : Task) : Holding where
  frames := task.frames setting
  handles := {handle | handle ∈ task.handles}
  locations := {target | target ∈ task.references}
  frames_subset := by
    intro handle own
    cases task with
    | node program id scope => exact List.mem_singleton.2 own.1
    | call callee args => exact own.elim

/-- The handles and references of a value are in hand. -/
structure Has (hold : Holding) (value : Value) : Prop where
  /-- The handles are known. -/
  handles : ∀ handle ∈ value.handles, handle ∈ hold.handles
  /-- The variables are known. -/
  locations : ∀ target ∈ value.references, target ∈ hold.locations

/-- A task can be asked for: a node in a frame, or a call of a value in hand with such arguments. -/
def Admits (hold : Holding) : Task → Prop
  | .node _ _ scope => scope ∈ hold.frames
  | .call callee args => hold.Has callee ∧ ∀ arg ∈ args, hold.Has arg

/-- Holding with one more frame. -/
def addFrame (hold : Holding) (frame : Handle) : Holding where
  frames := insert frame hold.frames
  handles := insert frame hold.handles
  locations := hold.locations
  frames_subset := Set.insert_subset_insert hold.frames_subset

/-- Holding with what a scope leads and refers to. -/
def addScope (hold : Holding) (scope : Scope) : Holding where
  frames := hold.frames
  handles := hold.handles ∪ {handle | handle ∈ scope.edges}
  locations := hold.locations ∪ {target | ∃ value ∈ scope.bindings.values,
    target ∈ value.references}
  frames_subset := hold.frames_subset.trans Set.subset_union_left

/-- Holding with one more variable. -/
def addLocation (hold : Holding) (target : Location) : Holding :=
  { hold with locations := insert target hold.locations }

/-- Holding with a value. -/
def addValue (hold : Holding) (value : Value) : Holding where
  frames := hold.frames
  handles := hold.handles ∪ {handle | handle ∈ value.handles}
  locations := hold.locations ∪ {target | target ∈ value.references}
  frames_subset := hold.frames_subset.trans Set.subset_union_left

/-- Holding after an evaluation that was asked for has ended. -/
def learn (hold : Holding) : EStateM.Result Stop State Value → Holding
  | .ok value _ => hold.addValue value
  | .error _ _ => hold

variable {hold later : Holding}

/-- A new frame comes on top. -/
theorem le_addFrame (frame : Handle) : hold ≤ hold.addFrame frame :=
  ⟨Set.subset_insert _ _, Set.subset_insert _ _, subset_rfl⟩

/-- What a scope holds comes on top. -/
theorem le_addScope (scope : Scope) : hold ≤ hold.addScope scope :=
  ⟨subset_rfl, Set.subset_union_left, Set.subset_union_left⟩

/-- A new variable comes on top. -/
theorem le_addLocation (target : Location) : hold ≤ hold.addLocation target :=
  ⟨subset_rfl, subset_rfl, Set.subset_insert _ _⟩

/-- A value comes on top. -/
theorem le_addValue (value : Value) : hold ≤ hold.addValue value :=
  ⟨subset_rfl, Set.subset_union_left, Set.subset_union_left⟩

/-- What has been learned comes on top. -/
theorem le_learn (outcome : EStateM.Result Stop State Value) : hold ≤ hold.learn outcome := by
  cases outcome with
  | ok value state => exact le_addValue value
  | error stop state => exact le_refl hold

/-- What has been learned adds no frames. -/
@[simp] theorem frames_learn (outcome : EStateM.Result Stop State Value) :
    (hold.learn outcome).frames = hold.frames := by
  cases outcome <;> rfl

/-- What has been learned is in hand where the value is. -/
theorem learn_le {outcome : EStateM.Result Stop State Value} (more : hold ≤ later)
    (has : ∀ value state, outcome = .ok value state → later.Has value) :
    hold.learn outcome ≤ later := by
  cases outcome with
  | ok value state =>
    have held := has value state rfl
    exact ⟨more.1, Set.union_subset more.2.1 held.handles,
      Set.union_subset more.2.2 held.locations⟩
  | error stop state => exact more

/-- What is in hand stays in hand. -/
theorem Has.mono {value : Value} (has : hold.Has value) (more : hold ≤ later) : later.Has value :=
  ⟨fun handle held => more.2.1 (has.handles handle held),
    fun target held => more.2.2 (has.locations target held)⟩

/-- An added value is in hand. -/
theorem has_addValue (value : Value) : (hold.addValue value).Has value :=
  ⟨fun _ held => Or.inr held, fun _ held => Or.inr held⟩

/-- A value without handles is always in hand. -/
theorem has_of_handles_eq_nil {value : Value} (none : value.handles = []) : hold.Has value where
  handles := by simp [none]
  locations := by
    intro target referred
    have held := Value.scope_mem_handles referred
    rw [none] at held
    exact absurd held List.not_mem_nil

/-- A value that refers to no variable is in hand when its handles are. -/
theorem has_of_references_eq_nil {value : Value} (none : value.references = [])
    (known : ∀ handle ∈ value.handles, handle ∈ hold.handles) : hold.Has value :=
  ⟨known, by simp [none]⟩

/-- A function is in hand when its scope is. -/
theorem has_function_iff {function : Closure} :
    hold.Has (.function function) ↔ function.scope ∈ hold.handles :=
  ⟨fun has => has.handles _ (List.mem_singleton_self _),
    fun known => has_of_references_eq_nil rfl (by simpa [Value.handles] using known)⟩

/-- A class is in hand when its scope is. -/
theorem has_classObject_iff {owner : ClassObject} :
    hold.Has (.classObject owner) ↔ owner.scope ∈ hold.handles :=
  ⟨fun has => has.handles _ (List.mem_singleton_self _),
    fun known => has_of_references_eq_nil rfl (by simpa [Value.handles] using known)⟩

/-- A reference is in hand when its variable is, with the scope. -/
theorem has_reference_iff {target : Location} :
    hold.Has (.reference target) ↔ target.scope ∈ hold.handles ∧ target ∈ hold.locations :=
  ⟨fun has => ⟨has.handles _ (List.mem_singleton_self _),
      has.locations _ (List.mem_singleton_self _)⟩,
    fun known => ⟨by simpa [Value.handles] using known.1, by simpa [Value.references] using known.2⟩⟩

/-- An array is in hand when its elements are. -/
theorem has_array_iff {items : List Value} :
    hold.Has (.array items) ↔ ∀ item ∈ items, hold.Has item := by
  constructor
  · intro has item listed
    refine ⟨fun handle held => has.handles handle ?_, fun target held => has.locations target ?_⟩
    · rw [Value.handles, Value.handlesAll_eq_flatMap]
      exact List.mem_flatMap.2 ⟨item, listed, held⟩
    · rw [Value.references, Value.referencesAll_eq_flatMap]
      exact List.mem_flatMap.2 ⟨item, listed, held⟩
  · intro each
    constructor
    · intro handle held
      rw [Value.handles, Value.handlesAll_eq_flatMap] at held
      obtain ⟨item, listed, inner⟩ := List.mem_flatMap.1 held
      exact (each item listed).handles handle inner
    · intro target held
      rw [Value.references, Value.referencesAll_eq_flatMap] at held
      obtain ⟨item, listed, inner⟩ := List.mem_flatMap.1 held
      exact (each item listed).locations target inner

/-- A value bound in a scope is in hand after a look into the scope. -/
theorem has_addScope {scope : Scope} {value : Value} (bound : value ∈ scope.bindings.values) :
    (hold.addScope scope).Has value where
  handles := fun _ held =>
    Or.inr (List.mem_append_right _ (List.mem_flatMap.2 ⟨value, bound, held⟩))
  locations := fun _ held => Or.inr ⟨value, bound, held⟩

/-- The values of a call are in hand for its evaluation. -/
theorem has_ofTask_call (setting : Setting) (callee : Value) (args : List Value) :
    ∀ value ∈ callee :: args, (ofTask setting (.call callee args)).Has value :=
  fun value listed => ⟨fun _ held => List.mem_flatMap.2 ⟨value, listed, held⟩,
    fun _ held => List.mem_flatMap.2 ⟨value, listed, held⟩⟩

/-- A task that gives no more than what is in hand has a smaller holding. -/
theorem ofTask_le (setting : Setting) {task : Task} (admitted : hold.Admits task) :
    ofTask setting task ≤ hold := by
  cases task with
  | node program id scope =>
    have own : scope ∈ hold.frames := admitted
    refine ⟨?_, ?_, ?_⟩
    · rintro _ ⟨rfl, _⟩
      exact own
    · intro handle held
      rw [List.mem_singleton.1 held]
      exact hold.frames_subset own
    · exact fun target held => absurd held List.not_mem_nil
  | call callee args =>
    have each : ∀ value ∈ callee :: args, hold.Has value := List.forall_mem_cons.2 admitted
    refine ⟨fun handle own => own.elim, fun handle held => ?_, fun target held => ?_⟩
    · obtain ⟨value, listed, inner⟩ := List.mem_flatMap.1 held
      exact (each value listed).handles handle inner
    · obtain ⟨value, listed, inner⟩ := List.mem_flatMap.1 held
      exact (each value listed).locations target inner

end Holding

end ScopeMachine
