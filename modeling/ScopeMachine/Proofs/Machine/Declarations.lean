import ScopeMachine.Proofs.Evaluation.Frames
import ScopeMachine.Proofs.Machine.Errand

/-!
# Where declarations go

An evaluation declares in its own frame and in scopes that it opens. Whatever it does besides, every
other scope keeps its parent and the set of names that it binds; a block and a call leave even the
scope in which they are carried out with the names that it had.
-/

namespace ScopeMachine

namespace Machine

/-- With a quiet host, a task keeps scopes live, with their parents and names; only the frame of its
node may come to bind more names. -/
theorem keeping_performTask {machine : Machine} (tidy : machine.scopes.Tidy) (reply : Reply)
    (depth : Nat) (task : Task) {handle : Handle} {scope : Scope}
    (found : machine.scopes.scope? handle = some scope) :
    ∃ later, (machine.performTask (.quiet reply) depth task).2.scopes.scope? handle = some later ∧
      scope.Grows later ∧ (handle ∉ task.frames machine.setting → later.Grows scope) := by
  have hosts : Host.Follows ⟨False, True⟩ machine.setting (.quiet reply) :=
    Host.quiet_follows (Or.inl trivial) machine.setting
  have kept := (Eval.conserves_keeping ⟨False, True⟩ machine.setting).run hosts depth task
    machine.state tidy
  have live : machine.scopes.isLive handle = true := Store.isLive_iff.2 ⟨scope, found⟩
  obtain ⟨later, again⟩ := Store.isLive_iff.1 (kept.isLive id handle live)
  rw [Machine.scopes, performTask, state_perform]
  exact ⟨later, again, kept.keeps.grows found again, kept.keeps.only found again⟩

/-- However the evaluation of a node ends, every scope stays live with its parent and names. Scopes
other than the one in which the node is evaluated bind no further names, and that one does not
either if the node is a block. A call leaves all scopes with exactly the names that they had. -/
theorem declarations_stay {machine : Machine} (reached : machine.Reachable) (reply : Reply)
    (depth : Nat) {handle : Handle} {scope : Scope}
    (found : machine.scopes.scope? handle = some scope) :
    (∀ id current,
      ∃ later, (machine.evaluate (.quiet reply) depth id current).2.scopes.scope? handle =
          some later ∧
        later.parent = scope.parent ∧
        (∀ name, scope.bindings.contains name = true → later.bindings.contains name = true) ∧
        (handle ≠ current ∨ (∃ body, machine.setting.kind? machine.current id = some (.block body)) →
          ∀ name, later.bindings.contains name = scope.bindings.contains name)) ∧
    ∀ callee args,
      ∃ later, (machine.call (.quiet reply) depth callee args).2.scopes.scope? handle =
          some later ∧
        later.parent = scope.parent ∧
        ∀ name, later.bindings.contains name = scope.bindings.contains name := by
  have tidy := reached.sound.scopes.tidy
  constructor
  · intro id current
    obtain ⟨later, again, grows, only⟩ :=
      keeping_performTask tidy reply depth (.node machine.current id current) found
    refine ⟨later, again, grows.parent, grows.names, fun outside name => ?_⟩
    rw [Bool.eq_iff_iff]
    refine ⟨(only ?_).names name, grows.names name⟩
    rintro ⟨same, noBlock⟩
    rcases outside with other | ⟨body, block⟩
    · exact other same
    · exact noBlock body block
  · intro callee args
    obtain ⟨later, again, grows, only⟩ :=
      keeping_performTask tidy reply depth (.call callee args) found
    refine ⟨later, again, grows.parent, fun name => ?_⟩
    rw [Bool.eq_iff_iff]
    exact ⟨(only id).names name, grows.names name⟩

end Machine

/-- Program of a block that declares a name. -/
def declaringBlock : Program :=
  { nodes := #[⟨.int 2, .dummy⟩, ⟨.declare ⟨9⟩ none ⟨0⟩, .dummy⟩, ⟨.block ⟨0, 1⟩, .dummy⟩]
    lists := #[⟨1⟩]
    params := #[]
    classes := #[] }

/-- Machine in which the block has been evaluated. -/
def declaringMachine : Machine :=
  let host := Host.collecting .prudent .void
  let start := Machine.start .initial Machine.defaultHops (.buffer "")
  let loaded := start.operate host (.load ⟨(SymbolTable.initial.intern "x").2, declaringBlock⟩)
  (loaded.2.operate host (.carryOut (.program ⟨1⟩ [⟨2⟩]) 3)).2

/-- A host can have made that machine. -/
theorem declaringMachine_reachable : declaringMachine.Reachable := by
  have started := Machine.Reachable.start .initial Machine.defaultHops (.buffer "")
  have loaded := started.operate .prudent .void
    (.load ⟨(SymbolTable.initial.intern "x").2, declaringBlock⟩)
    (fun _ held => absurd held List.not_mem_nil) rfl
  exact loaded.operate .prudent .void (.carryOut (.program ⟨1⟩ [⟨2⟩]) 3)
    (fun _ held => absurd held List.not_mem_nil) (by rw [Host.watched_prudent])

/-- The block, evaluated once more, ends with a value, and the top level binds the names that it
did. -/
theorem Machine.declarations_stay_declaringMachine :
    let ended := declaringMachine.evaluate (.quiet .void) 3 ⟨2⟩ ⟨0, 0⟩
    declaringMachine.Reachable ∧ ended.1.toOption.isSome = true ∧
    ∃ scope, declaringMachine.scopes.scope? ⟨0, 0⟩ = some scope ∧
      ∃ later, ended.2.scopes.scope? ⟨0, 0⟩ = some later ∧ later.parent = scope.parent ∧
        ∀ name, later.bindings.contains name = scope.bindings.contains name := by
  intro ended
  have answered : ended.1.toOption.isSome = true := by decide +kernel
  have live : declaringMachine.scopes.isLive ⟨0, 0⟩ = true := by decide +kernel
  have block : declaringMachine.setting.kind? declaringMachine.current ⟨2⟩ =
      some (.block ⟨0, 1⟩) := by decide +kernel
  obtain ⟨scope, found⟩ := Store.isLive_iff.1 live
  obtain ⟨later, again, parent, _, names⟩ :=
    (declarations_stay declaringMachine_reachable .void 3 found).1 ⟨2⟩ ⟨0, 0⟩
  exact ⟨declaringMachine_reachable, answered, scope, found, later, again, parent,
    names (Or.inr ⟨_, block⟩)⟩

end ScopeMachine
