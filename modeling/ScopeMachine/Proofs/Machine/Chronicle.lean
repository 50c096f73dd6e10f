import ScopeMachine.Proofs.Evaluation.Sequel
import ScopeMachine.Proofs.Machine.Errand

/-!
# Chronicles of machines

A chronicle of a machine lists, from its start on, the beginnings and the ends of all evaluations in
it, at every depth. The host has programs, nodes and calls carried out and collects as it likes; it
only does not have a node evaluated in the storage of an object. Every operation is recorded in
exactly one way.
-/

namespace ScopeMachine

/-- What watched hosts may do: they collect, and they may make up references. -/
abbrev Eval.Licence.full : Eval.Licence := ⟨True, True⟩

/-- A watched host does no more than that. -/
theorem Host.watched_follows_full (plan : Plan) (reply : Reply) (setting : Setting) :
    Host.Follows .full setting (.watched plan reply) :=
  watched_follows trivial (Or.inl trivial) plan setting

namespace Machine

/-- The moments are those of an errand. -/
def RecordsErrand (machine : Machine) (host : Host) (depth : Nat) (errand : Errand)
    (moments : List Eval.Moment) : Prop :=
  Eval.Recorded (Eval.Transcript machine.setting host depth) (Eval.run machine.setting host depth)
    (errand.work machine.setting machine.current) machine.state moments

/-- The moments are those of nodes that are evaluated one after the other at the top level. -/
def RecordsEach (machine : Machine) (host : Host) (depth : Nat) :
    List NodeId → List Eval.Moment → Prop
  | [], moments => moments = []
  | unit :: units, moments => ∃ first rest,
    machine.RecordsErrand host depth (.node unit machine.setting.global) first ∧
      (machine.evaluate host depth unit machine.setting.global).2.RecordsEach host depth units rest ∧
      moments = first ++ rest

/-- The moments are those of an operation. -/
def Records (machine : Machine) (host : Host) : Operation → List Eval.Moment → Prop
  | .load _, moments | .bindGlobal _ _, moments => moments = []
  | .carryOut errand depth, moments => machine.RecordsErrand host depth errand moments
  | .runEach program units depth, moments =>
    (machine.enter program).RecordsEach host depth units moments

/-- What a host makes of a machine, with entries that may collect while programs run but give up
before a slot is reclaimed for the 2 ^ 32-th time, and the moments on the way; it has no node
evaluated in the storage of an object. -/
inductive Chronicle : Machine → List Eval.Moment → Prop where
  /-- A machine at its start. -/
  | start (symbols : SymbolTable) (maxHops : Nat) (output : Sink) :
    Chronicle (.start symbols maxHops output) []
  /-- A machine after an operation. -/
  | operate {machine : Machine} {journal moments : List Eval.Moment}
    (before : Chronicle machine journal) (plan : Plan) (reply : Reply) (operation : Operation)
    (issued : ∀ handle ∈ operation.handles, machine.scopes.Issued handle)
    (apart : ∀ id scope depth, operation = .carryOut (.node id scope) depth →
      ∀ moment ∈ journal, ∀ object, moment.Bears object → scope ≠ object.storage)
    (recorded : machine.Records (.watched plan reply) operation moments) :
    Chronicle (machine.operate (.watched plan reply) operation).2 (journal ++ moments)
  /-- A machine after a collection. -/
  | collect {machine : Machine} {journal : List Eval.Moment} (before : Chronicle machine journal)
    (roots : List Value)
    (lasting : machine.scopes.wrapsOn (machine.setting.rootHandles roots) = false) :
    Chronicle (machine.collect roots).2 journal

/-- Every errand is recorded. -/
theorem exists_recordsErrand (machine : Machine) (plan : Plan) (reply : Reply) (depth : Nat)
    (errand : Errand) :
    ∃ moments, machine.RecordsErrand (.watched plan reply) depth errand moments := by
  have hosts := Host.watched_follows_full plan reply machine.setting
  have follows := @Errand.follows_work .full machine.setting machine.current errand machine.state
  exact Eval.exists_recorded follows _ (Eval.exists_transcript hosts depth)

/-- Nodes that are evaluated one after the other are recorded. -/
theorem exists_recordsEach (machine : Machine) (plan : Plan) (reply : Reply) (depth : Nat)
    (units : List NodeId) :
    ∃ moments, machine.RecordsEach (.watched plan reply) depth units moments := by
  induction units generalizing machine with
  | nil => exact ⟨[], rfl⟩
  | cons unit units ih =>
    obtain ⟨first, begun⟩ :=
      machine.exists_recordsErrand plan reply depth (.node unit machine.setting.global)
    obtain ⟨rest, continued⟩ := ih (machine.evaluate _ depth unit machine.setting.global).2
    exact ⟨first ++ rest, first, rest, begun, continued, rfl⟩

/-- Every operation is recorded. -/
theorem exists_records (machine : Machine) (plan : Plan) (reply : Reply) (operation : Operation) :
    ∃ moments, machine.Records (.watched plan reply) operation moments := by
  cases operation with
  | load draft => exact ⟨[], rfl⟩
  | carryOut errand depth => exact machine.exists_recordsErrand plan reply depth errand
  | runEach program units depth =>
    exact (machine.enter program).exists_recordsEach plan reply depth units
  | bindGlobal name value => exact ⟨[], rfl⟩

/-- Nodes that are evaluated one after the other are recorded in one way. -/
theorem RecordsEach.unique {machine : Machine} {host : Host} {depth : Nat} {units : List NodeId}
    {moments others : List Eval.Moment} (recorded : machine.RecordsEach host depth units moments)
    (again : machine.RecordsEach host depth units others) : moments = others := by
  induction units generalizing machine moments others with
  | nil => exact Eq.trans recorded (Eq.symm again)
  | cons unit units ih =>
    obtain ⟨first, rest, begun, continued, rfl⟩ := recorded
    obtain ⟨first', rest', begun', continued', rfl⟩ := again
    rw [Eval.Recorded.unique (Eval.Transcript.unique _ _ depth) begun begun', ih continued continued']

/-- An operation is recorded in one way. -/
theorem Records.unique {machine : Machine} {host : Host} {operation : Operation}
    {moments others : List Eval.Moment} (recorded : machine.Records host operation moments)
    (again : machine.Records host operation others) : moments = others := by
  cases operation with
  | load draft => exact Eq.trans recorded (Eq.symm again)
  | bindGlobal name value => exact Eq.trans recorded (Eq.symm again)
  | carryOut errand depth =>
    exact Eval.Recorded.unique (Eval.Transcript.unique _ _ depth) recorded again
  | runEach program units depth => exact RecordsEach.unique recorded again

namespace Chronicle

variable {machine : Machine} {journal : List Eval.Moment} (history : machine.Chronicle journal)
include history

/-- A machine with a chronicle is sound. -/
theorem sound : machine.Sound := by
  induction history with
  | start symbols maxHops output => exact sound_start symbols maxHops output
  | operate _ plan reply operation issued _ _ ih =>
    exact (Progress.operate ih plan reply operation issued).sound ih
  | collect _ roots lasting ih => exact ih.collect lasting

/-- A node that the host has evaluated adds its beginning, what happens inside and its end. -/
theorem exists_evaluated (plan : Plan) (reply : Reply) (depth : Nat) (id : NodeId) {scope : Handle}
    (issued : machine.scopes.Issued scope)
    (apart : ∀ moment ∈ journal, ∀ object, moment.Bears object → scope ≠ object.storage) :
    let ask : Eval.Ask := ⟨.node machine.current id scope, machine.state⟩
    ∃ inner, (machine.evaluate (.watched plan reply) (depth + 1) id scope).2.Chronicle
      ((journal ++ .begins ask :: inner) ++ [.ends ask (machine.setting.taskKind? ask.task)
        (Eval.run machine.setting (.watched plan reply) (depth + 1) ask.task ask.start)]) := by
  intro ask
  have hosts := Host.watched_follows_full plan reply machine.setting
  obtain ⟨moments, transcript⟩ := Eval.exists_transcript hosts (depth + 1) ask
  have recorded : machine.Records (.watched plan reply) (.carryOut (.node id scope) (depth + 1))
      moments :=
    ⟨[ask], [moments], List.nodup_singleton _, .ask _, .cons transcript .nil, by simp⟩
  have others : ∀ otherId other bound, Operation.carryOut (.node id scope) (depth + 1) =
      .carryOut (.node otherId other) bound →
        ∀ moment ∈ journal, ∀ object, moment.Bears object → other ≠ object.storage := by
    intro otherId other bound same
    cases same
    exact apart
  have whole := history.operate plan reply (.carryOut (.node id scope) (depth + 1))
    (List.forall_mem_singleton.2 issued) others recorded
  obtain ⟨inner, _, rfl⟩ := transcript
  refine ⟨inner, ?_⟩
  rw [List.append_assoc]
  exact whole

end Chronicle

end Machine

end ScopeMachine
