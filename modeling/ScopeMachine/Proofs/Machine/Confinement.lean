import ScopeMachine.Proofs.Machine.Declarations

/-!
# What an evaluation can touch

From the handles that a task gives, an evaluation comes by further ones only along parents and bound
values, and by opening scopes. So it leaves every scope that is not to be met that way exactly as it
was, and whatever handle it returns or stores was to be met that way before, or names a scope that is
new. Stale handles are met like others; nothing lies beyond them.
-/

namespace ScopeMachine

namespace Store

/-- Handles that are met from some handles along the parents and bound values of live scopes. -/
inductive Mentions (store : Store) (seeds : Set Handle) : Handle → Prop where
  /-- The seeds are met. -/
  | seed {handle : Handle} (given : handle ∈ seeds) : Mentions store seeds handle
  /-- What a scope that is met leads to is met. -/
  | edge {handle next : Handle} {scope : Scope} (met : Mentions store seeds handle)
    (found : store.scope? handle = some scope) (leads : next ∈ scope.edges) :
    Mentions store seeds next

/-- More handles are met from more seeds. -/
theorem Mentions.mono {store : Store} {seeds more : Set Handle} (subset : seeds ⊆ more)
    {handle : Handle} (met : store.Mentions seeds handle) : store.Mentions more handle := by
  induction met with
  | seed given => exact .seed (subset given)
  | edge _ found leads ih => exact .edge ih found leads

/-- A property of the seeds that scopes pass on holds of all handles that are met. -/
theorem Mentions.of_closed {store : Store} {seeds : Set Handle} (property : Handle → Prop)
    (given : ∀ handle ∈ seeds, property handle)
    (closed : ∀ handle scope, property handle → store.scope? handle = some scope →
      ∀ next ∈ scope.edges, property next) {handle : Handle} (met : store.Mentions seeds handle) :
    property handle := by
  induction met with
  | seed held => exact given _ held
  | edge _ found leads ih => exact closed _ _ ih found _ leads

/-- From issued handles only issued ones are met. -/
theorem Mentions.issued {store : Store} (sound : store.Sound) {seeds : Set Handle}
    (given : ∀ handle ∈ seeds, store.Issued handle) {handle : Handle}
    (met : store.Mentions seeds handle) : store.Issued handle :=
  met.of_closed store.Issued given fun handle scope _ found next leads =>
    sound.issued handle scope found next leads

/-- The handle was to be met before, or it names a scope that has been allocated since. -/
def Accounts (before after : Store) (seeds : Set Handle) (handle : Handle) : Prop :=
  before.Mentions seeds handle ∨ ¬ before.Issued handle ∧ after.isLive handle = true

end Store

namespace Eval

/-- What is in hand, and what the scopes that it leads to hold, was to be met before or is new, and
all other scopes are as they were. -/
structure Confinement (hold : Holding) (state : State) (last : Holding) (final : State) : Prop where
  /-- The store is in order. -/
  tidy : final.scopes.Tidy
  /-- The store has evolved. -/
  evolves : state.scopes.Evolves final.scopes
  /-- Scopes stay live. -/
  isLive : ∀ handle, state.scopes.isLive handle = true → final.scopes.isLive handle = true
  /-- What is in hand was to be met before or is new. -/
  handles : ∀ handle ∈ last.handles, state.scopes.Accounts final.scopes hold.handles handle
  /-- The same goes for what scopes lead to that were to be met before or are new. -/
  edges : ∀ handle scope, state.scopes.Accounts final.scopes hold.handles handle →
    final.scopes.scope? handle = some scope →
      ∀ next ∈ scope.edges, state.scopes.Accounts final.scopes hold.handles next
  /-- Other scopes are as they were. -/
  unchanged : ∀ handle, state.scopes.Issued handle → ¬ state.scopes.Mentions hold.handles handle →
    final.scopes.scope? handle = state.scopes.scope? handle

namespace Confinement

/-- What changes no scope is confined if it learns only what is to be met. -/
theorem of_eq {hold last : Holding} {state final : State} (tidy : state.scopes.Tidy)
    (same : final.scopes = state.scopes)
    (met : ∀ handle ∈ last.handles, state.scopes.Mentions hold.handles handle) :
    Confinement hold state last final where
  tidy := same ▸ tidy
  evolves := same ▸ .refl _
  isLive := fun _ live => same ▸ live
  handles := fun handle held => Or.inl (met handle held)
  edges := by
    rw [same]
    rintro handle scope (known | ⟨new, live⟩) found next leads
    · exact Or.inl (known.edge found leads)
    · exact absurd (Store.issued_of_isLive live) new
  unchanged := fun _ _ _ => by rw [same]

/-- Writing a value in hand into a scope in hand is confined. -/
theorem of_set {hold : Holding} {state : State} {handle : Handle} {name : Symbol} {value : Value}
    {scopes : Store} (tidy : state.scopes.Tidy) (known : handle ∈ hold.handles)
    (has : hold.Has value) (written : state.scopes.set handle name value = .ok scopes) :
    Confinement hold state hold { state with scopes } where
  tidy := tidy.set written
  evolves := Store.evolves_set written
  isLive := fun other live => (Store.isLive_set written other).trans live
  handles := fun other held => Or.inl (.seed held)
  edges := by
    intro other later accounted again next leads
    have live : state.scopes.isLive other = true :=
      (Store.isLive_set written other).symm.trans (Store.isLive_iff.2 ⟨later, again⟩)
    obtain ⟨scope, found⟩ := Store.isLive_iff.1 live
    have met : state.scopes.Mentions hold.handles other :=
      accounted.resolve_right fun new => new.1 (Store.issued_of_isLive live)
    refine Or.inl ?_
    rcases Store.scope?_set_cases written found again with ⟨rfl, rfl⟩ | rfl
    · -- the scope that is written to: its parent, the value and the values it had
      rcases List.mem_append.1 leads with link | inValues
      · exact met.edge found (List.mem_append_left _ link)
      · obtain ⟨bound, listed, inner⟩ := List.mem_flatMap.1 inValues
        rcases SymbolMap.mem_values_insert listed with rfl | old
        · exact .seed (has.handles next inner)
        · exact met.edge found (List.mem_append_right _ (List.mem_flatMap.2 ⟨bound, old, inner⟩))
    · exact met.edge found leads
  unchanged := by
    intro other _ unmet
    have different : other ≠ handle := by
      rintro rfl
      exact unmet (.seed known)
    rw [Store.scope?_set written, if_neg different]

/-- Opening a scope inside one in hand is confined. -/
theorem of_allocate {hold : Holding} {state : State} {parent : Handle} (tidy : state.scopes.Tidy)
    (known : parent ∈ hold.handles) :
    Confinement hold state (hold.addFrame (state.scopes.allocateEmpty (some parent)).1)
      { state with scopes := (state.scopes.allocateEmpty (some parent)).2 } := by
  have new := Store.not_issued_allocate tidy (some parent) .empty
  have born := Store.isLive_allocate tidy (some parent) .empty
  have scopes := Store.scope?_allocate (some parent) .empty tidy
  refine ⟨tidy.allocate _ _ SymbolMap.distinct_empty, Store.evolves_allocate tidy _ _,
    fun _ => Store.isLive_allocateEmpty tidy (some parent), ?_, ?_, ?_⟩
  · rintro handle (rfl | held)
    · exact Or.inr ⟨new, born⟩
    · exact Or.inl (.seed held)
  · intro handle scope accounted found next leads
    rw [Store.allocateEmpty, scopes] at found
    split at found
    · obtain rfl := Option.some.inj found
      refine Or.inl (.seed ?_)
      rw [List.mem_singleton.1 leads]
      exact known
    · have live : state.scopes.isLive handle = true := Store.isLive_iff.2 ⟨scope, found⟩
      have met : state.scopes.Mentions hold.handles handle :=
        accounted.resolve_right fun fresh => fresh.1 (Store.issued_of_isLive live)
      exact Or.inl (met.edge found leads)
  · exact fun handle issued _ => Store.scope?_allocateEmpty_of_issued tidy (some parent) issued

/-- What is met at the end was to be met before or is new. -/
theorem accounts {hold last : Holding} {state final : State}
    (confined : Confinement hold state last final) {handle : Handle}
    (met : final.scopes.Mentions last.handles handle) :
    state.scopes.Accounts final.scopes hold.handles handle :=
  met.of_closed _ confined.handles confined.edges

/-- Confinement goes on. -/
theorem trans {first second third : Holding} {begun middle final : State}
    (earlier : Confinement first begun second middle)
    (later : Confinement second middle third final) : Confinement first begun third final := by
  have accounts : ∀ handle, middle.scopes.Accounts final.scopes second.handles handle →
      begun.scopes.Accounts final.scopes first.handles handle := by
    rintro handle (met | ⟨new, live⟩)
    · exact (earlier.accounts met).imp_right fun fresh => ⟨fresh.1, later.isLive handle fresh.2⟩
    · exact Or.inr ⟨fun old => new (earlier.evolves.issued handle old), live⟩
  refine ⟨later.tidy, earlier.evolves.trans later.evolves,
    fun handle live => later.isLive handle (earlier.isLive handle live),
    fun handle held => accounts handle (later.handles handle held), ?_, ?_⟩
  · intro handle scope accounted found next leads
    by_cases met : middle.scopes.Mentions second.handles handle
    · exact accounts next (later.edges handle scope (Or.inl met) found next leads)
    by_cases issued : middle.scopes.Issued handle
    · -- the scope is as it was in the middle
      rw [later.unchanged handle issued met] at found
      have between : begun.scopes.Accounts middle.scopes first.handles handle :=
        accounted.imp_right fun fresh => ⟨fresh.1, Store.isLive_iff.2 ⟨scope, found⟩⟩
      exact (earlier.edges handle scope between found next leads).imp_right fun fresh =>
        ⟨fresh.1, later.isLive next fresh.2⟩
    · have live : final.scopes.isLive handle = true := Store.isLive_iff.2 ⟨scope, found⟩
      exact accounts next (later.edges handle scope (Or.inr ⟨issued, live⟩) found next leads)
  · intro handle issued unmet
    rw [later.unchanged handle (earlier.evolves.issued handle issued), earlier.unchanged handle issued
      unmet]
    intro met
    rcases earlier.accounts met with before | ⟨new, _⟩
    · exact unmet before
    · exact new issued

/-- What is confined to part of what is in hand is confined to the whole. -/
theorem ask {hold part : Holding} {state final : State} {outcome : EStateM.Result Stop State Value}
    (smaller : part ≤ hold) (inner : Confinement part state (part.learn outcome) final) :
    Confinement hold state (hold.learn outcome) final := by
  have accounts : ∀ handle, state.scopes.Accounts final.scopes part.handles handle →
      state.scopes.Accounts final.scopes hold.handles handle :=
    fun handle accounted => accounted.imp_left (.mono smaller.2.1)
  refine ⟨inner.tidy, inner.evolves, inner.isLive, ?_, ?_, ?_⟩
  · intro handle held
    cases outcome with
    | error stop after => exact Or.inl (.seed held)
    | ok value after =>
      rcases held with old | learned
      · exact Or.inl (.seed old)
      · exact accounts handle (inner.handles handle (Or.inr learned))
  · intro handle scope accounted found next leads
    by_cases within : state.scopes.Accounts final.scopes part.handles handle
    · exact accounts next (inner.edges handle scope within found next leads)
    · -- the inner evaluation cannot have touched the scope, which is therefore an old one
      have issued : state.scopes.Issued handle := by
        by_contra new
        exact within (Or.inr ⟨new, Store.isLive_iff.2 ⟨scope, found⟩⟩)
      have met := accounted.resolve_right fun fresh => fresh.1 issued
      rw [inner.unchanged handle issued fun part => within (Or.inl part)] at found
      exact Or.inl (met.edge found leads)
  · intro handle issued unmet
    exact inner.unchanged handle issued fun met => unmet (met.mono smaller.2.1)

end Confinement

/-- Where nobody may collect, runs are confined to what their tasks give. -/
theorem conserves_confinement (forges : Prop) (setting : Setting) :
    Conserves ⟨False, forges⟩ setting fun hold state last final =>
      state.scopes.Tidy → Confinement hold state last final where
  done := fun hold state tidy => .of_eq tidy rfl fun _ held => .seed held
  trans := fun earlier later tidy =>
    (earlier tidy).trans (later (earlier tidy).tidy)
  deed := by
    intro hold last state final deed tidy
    cases deed with
    | opens known => exact .of_allocate tidy known
    | declares own has written => exact .of_set tidy (hold.frames_subset own) has written
    | rebinds known bound has written => exact .of_set tidy known has written
    | looks known found =>
      refine .of_eq tidy rfl fun handle held => ?_
      rcases held with old | seen
      · exact .seed old
      · exact .edge (.seed known) found seen
    | refers known bound => exact .of_eq tidy rfl fun _ held => .seed held
    | prints output => exact .of_eq tidy rfl fun _ held => .seed held
    | collects allowed lasting => exact allowed.elim
  ask := fun admitted inner tidy => (inner tidy).ask (Holding.ofTask_le setting admitted)
  forget := by
    intro hold last less state final passed smaller tidy
    have confined := passed tidy
    exact { confined with handles := fun handle held => confined.handles handle (smaller.2.1 held) }

end Eval

namespace Machine

/-- With a quiet host, however a task ends, it has left every scope as it was that is not to be met
from the handles that the task gives. The handles of the answer, and those in bindings that have
changed, were to be met before or name new scopes. In particular nothing has changed for whoever
holds issued handles from which nothing is met that the task could meet. -/
theorem effects_confined {machine : Machine} (reached : machine.Reachable) (reply : Reply)
    (depth : Nat) (task : Task) :
    let before := machine.scopes
    let ended := machine.performTask (.quiet reply) depth task
    let after := ended.2.scopes
    let given := {handle | handle ∈ task.handles}
    (∀ handle, before.isLive handle = true → ¬ before.Mentions given handle →
      after.scope? handle = before.scope? handle) ∧
    (∀ handle ∈ Answer.handles ended.1,
      before.Mentions given handle ∨ ¬ before.Issued handle ∧ after.isLive handle = true) ∧
    (∀ holder scope name value, after.scope? holder = some scope →
      scope.bindings.get? name = some value →
      ((before.scope? holder).bind fun earlier => earlier.bindings.get? name) ≠ some value →
      ∀ handle ∈ value.handles,
        before.Mentions given handle ∨ ¬ before.Issued handle ∧ after.isLive handle = true) ∧
    ∀ others : Set Handle, (∀ handle ∈ others, before.Issued handle) →
      (∀ handle, before.Mentions others handle → ¬ before.Mentions given handle) →
      ∀ handle, (after.Mentions others handle ↔ before.Mentions others handle) ∧
        (before.Mentions others handle → after.scope? handle = before.scope? handle) := by
  intro before ended after given
  have sound := reached.sound.scopes
  have hosts : Host.Follows ⟨False, True⟩ machine.setting (.quiet reply) :=
    Host.quiet_follows (Or.inl trivial) machine.setting
  have confined := (Eval.conserves_confinement True machine.setting).run hosts depth task
    machine.state sound.tidy
  have leaves : (Eval.run machine.setting (.quiet reply) depth task).after machine.state =
      ended.2.state := (state_perform _ _).symm
  rw [leaves] at confined
  refine ⟨fun handle live => confined.unchanged handle (Store.issued_of_isLive live), ?_, ?_, ?_⟩
  · intro handle held
    refine confined.handles handle ?_
    have answer : ended.1 = (machine.perform (Eval.run machine.setting (.quiet reply) depth task)).1 :=
      rfl
    rw [answer, Machine.perform] at held
    cases outcome : Eval.run machine.setting (.quiet reply) depth task machine.state with
    | ok value final =>
      rw [outcome] at held
      exact Or.inr held
    | error stop final =>
      rw [outcome] at held
      exact absurd held List.not_mem_nil
  · intro holder scope name value found bound changed handle inner
    have accounted : before.Accounts after given holder := by
      by_contra outside
      have issued : before.Issued holder := by
        by_contra new
        exact outside (Or.inr ⟨new, Store.isLive_iff.2 ⟨scope, found⟩⟩)
      have same := confined.unchanged holder issued fun met => outside (Or.inl met)
      rw [show before.scope? holder = some scope from same ▸ found] at changed
      exact changed bound
    refine confined.edges holder scope accounted found handle ?_
    exact List.mem_append_right _
      (List.mem_flatMap.2 ⟨value, SymbolMap.mem_values_of_get? bound, inner⟩)
  · intro others issued disjoint
    have same : ∀ handle, before.Mentions others handle →
        after.scope? handle = before.scope? handle := fun handle met =>
      confined.unchanged handle (met.issued sound issued) (disjoint handle met)
    refine fun handle => ⟨⟨fun met => ?_, fun met => ?_⟩, same handle⟩
    · refine met.of_closed _ (fun _ held => .seed held) fun holder scope known found next leads => ?_
      exact known.edge (same holder known ▸ found) leads
    · induction met with
      | seed held => exact .seed held
      | edge known found leads ih => exact ih.edge ((same _ known).trans found) leads

end Machine

/-- Program of a block that declares a counter and gives a function that sets it. -/
def countingBlock : Program :=
  { nodes := #[⟨.int 0, .dummy⟩, ⟨.declare ⟨9⟩ none ⟨0⟩, .dummy⟩, ⟨.int 1, .dummy⟩,
      ⟨.assign ⟨9⟩ ⟨2⟩, .dummy⟩, ⟨.lambda .blank ⟨3⟩, .dummy⟩, ⟨.block ⟨0, 2⟩, .dummy⟩]
    lists := #[⟨1⟩, ⟨4⟩]
    params := #[]
    classes := #[] }

/-- Machine in which the block has been evaluated twice. -/
def countersMachine : Machine :=
  let host := Host.collecting .prudent .void
  let start := Machine.start .initial Machine.defaultHops (.buffer "")
  let loaded := start.operate host (.load ⟨(SymbolTable.initial.intern "n").2, countingBlock⟩)
  (loaded.2.operate host (.runEach ⟨1⟩ [⟨5⟩, ⟨5⟩] 3)).2

/-- A host can have made that machine. -/
theorem countersMachine_reachable : countersMachine.Reachable := by
  have started := Machine.Reachable.start .initial Machine.defaultHops (.buffer "")
  have loaded := started.operate .prudent .void
    (.load ⟨(SymbolTable.initial.intern "n").2, countingBlock⟩)
    (fun _ held => absurd held List.not_mem_nil) rfl
  exact loaded.operate .prudent .void (.runEach ⟨1⟩ [⟨5⟩, ⟨5⟩] 3)
    (fun _ held => absurd held List.not_mem_nil) (by rw [Host.watched_prudent])

/-- A call of the function of the first counter meets the top level but not the second counter, and
leaves that as it was. -/
theorem Machine.effects_confined_countersMachine :
    let task := Task.call (.function ⟨none, [.blank], ⟨3⟩, ⟨1, 0⟩, ⟨1⟩⟩) [.void]
    let ended := countersMachine.performTask (.quiet .void) 3 task
    countersMachine.Reachable ∧ ended.1.toOption.isSome = true ∧
    countersMachine.scopes.isLive ⟨2, 0⟩ = true ∧
    ¬ countersMachine.scopes.Mentions {handle | handle ∈ task.handles} ⟨2, 0⟩ ∧
    ended.2.scopes.scope? ⟨2, 0⟩ = countersMachine.scopes.scope? ⟨2, 0⟩ := by
  intro task ended
  have answered : ended.1.toOption.isSome = true := by decide +kernel
  have live : countersMachine.scopes.isLive ⟨2, 0⟩ = true := by decide +kernel
  have inside : (countersMachine.scopes.scope? ⟨1, 0⟩).map Scope.edges = some [⟨0, 0⟩] := by
    decide +kernel
  have top : (countersMachine.scopes.scope? ⟨0, 0⟩).map Scope.edges = some [] := by
    decide +kernel
  have unmet : ¬ countersMachine.scopes.Mentions {handle | handle ∈ task.handles} ⟨2, 0⟩ := by
    intro met
    have few : (⟨2, 0⟩ : Handle) = ⟨1, 0⟩ ∨ (⟨2, 0⟩ : Handle) = ⟨0, 0⟩ := by
      refine met.of_closed (fun handle => handle = ⟨1, 0⟩ ∨ handle = ⟨0, 0⟩) ?_ ?_
      · intro handle given
        exact Or.inl (List.mem_singleton.1 given)
      · rintro handle scope (rfl | rfl) found next leads
        · rw [found] at inside
          rw [Option.some.inj inside] at leads
          exact Or.inr (List.mem_singleton.1 leads)
        · rw [found] at top
          rw [Option.some.inj top] at leads
          exact absurd leads List.not_mem_nil
    revert few
    decide
  exact ⟨countersMachine_reachable, answered, live, unmet,
    (effects_confined countersMachine_reachable .void 3 task).1 ⟨2, 0⟩ live unmet⟩

end ScopeMachine
