import ScopeMachine.Proofs.Evaluation.Step
import ScopeMachine.Proofs.Machine.Session
import ScopeMachine.Proofs.Scope.Ancestry
import ScopeMachine.Proofs.Syntax.Builder

/-!
# Code without calls terminates

The value of a node is computed from the values of its operands; bodies of functions, defaults of
fields and bodies of methods wait for a call. The evaluated part of a node is made up of its
operands, their operands, and so on. Where no node there calls or constructs, evaluation goes from
node to operand only, and a builder that is passed positions it has returned puts operands before
the nodes that they belong to. So a depth above the position of the node is enough: the evaluation
ends by itself, with a value or a failure, and all larger depths give the same.

Along the way every walk from a scope to its parents ends as well, since stores stay rooted while
blocks open scopes inside scopes that have been issued.
-/

namespace ScopeMachine

namespace NodeKind

/-- Whether evaluation of the node goes on in a body or a default that is not an operand of it. -/
def calls : NodeKind → Bool
  | .call _ _ | .construct _ _ | .methodCall _ _ _ => true
  | _ => false

end NodeKind

namespace Program

/-- Nodes from whose values the value of a node is computed. -/
def operands (program : Program) : NodeKind → List NodeId
  | .int _ | .float _ | .bool _ | .string _ | .read _ | .reference _ => []
  | .function _ _ _ | .lambda _ _ | .classDecl _ => []
  | .binary _ left right | .index left right => [left, right]
  | .branch condition thenBranch elseBranch => condition :: thenBranch :: elseBranch.toList
  | .block range | .call _ range | .construct _ range | .array range => program.nodeList range
  | .declare _ _ value | .assign _ value | .assignThrough _ value | .field value _ => [value]
  | .methodCall receiver _ args => receiver :: program.nodeList args

/-- The second node is an operand of the first. -/
def HasOperand (program : Program) (id operand : NodeId) : Prop :=
  ∃ node, program.node? id = some node ∧ operand ∈ program.operands node.kind

/-- No node in the evaluated part of a node calls. -/
def CallFree (program : Program) (id : NodeId) : Prop :=
  ∀ part node, Relation.ReflTransGen program.HasOperand id part →
    program.node? part = some node → node.kind.calls = false

/-- A node mentions its operands. -/
theorem HasOperand.hasChild {program : Program} {id operand : NodeId}
    (has : program.HasOperand id operand) : program.HasChild id operand := by
  obtain ⟨node, found, listed⟩ := has
  refine ⟨node, found, ?_⟩
  cases kind : node.kind <;> rw [kind] at listed <;>
    first | exact listed | exact absurd listed List.not_mem_nil

/-- The evaluated part of an operand belongs to that of the node. -/
theorem CallFree.operand {program : Program} {id operand : NodeId} (free : program.CallFree id)
    (has : program.HasOperand id operand) : program.CallFree operand :=
  fun part node path => free part node (.head has path)

/-- Nodes that do not call and have all their operands among them are free of calls. -/
theorem callFree_of_mem {program : Program} (parts : List NodeId)
    (inside : ∀ part ∈ parts, ∀ node ∈ program.node? part,
      node.kind.calls = false ∧ ∀ operand ∈ program.operands node.kind, operand ∈ parts)
    {id : NodeId} (listed : id ∈ parts) : program.CallFree id := by
  have within : ∀ part, Relation.ReflTransGen program.HasOperand id part → part ∈ parts := by
    intro part path
    induction path with
    | refl => exact listed
    | tail _ link ih =>
      obtain ⟨node, found, held⟩ := link
      exact (inside _ ih node found).2 _ held
  intro part node path found
  exact (inside part (within part path) node found).1

end Program

/-- Where children come before their parents, the class that a node declares exists. -/
theorem Builder.Ordered.exists_classDecl {builder : Builder} {returned : List NodeId}
    (ordered : builder.Ordered returned) {id : NodeId} {node : Node} {owner : ClassId}
    (found : builder.draft.program.node? id = some node) (kind : node.kind = .classDecl owner) :
    ∃ decl, builder.draft.program.classDecl? owner = some decl := by
  have below : id.index < builder.size := (Array.getElem?_eq_some_iff.1 found).1
  obtain ⟨span, form, read, _⟩ := ordered.children id below
  obtain ⟨other, again, rest⟩ := Option.bind_eq_some_iff.1 read
  cases found.symm.trans again
  obtain ⟨_, readForm, _⟩ := Option.bind_eq_some_iff.1 rest
  rw [kind] at readForm
  obtain ⟨decl, present, _⟩ := Option.bind_eq_some_iff.1 readForm
  exact ⟨decl, present⟩

/-- Looking up a handle is no walk. -/
theorem Store.scope_ne_endless (store : Store) (handle : Handle) :
    store.scope handle ≠ .error .endless := by
  unfold Store.scope
  split <;> simp

namespace Eval

/-- Both evaluations end alike from a state, with a result or with a failure, and leave a rooted
store that has evolved from the one in the state. -/
inductive Finishes {α : Type} (state : State) (first second : Eval α) : Prop where
  /-- They end with a result. -/
  | result {value : α} {final : State} (ended : first state = .ok value final)
    (same : second state = .ok value final) (rooted : final.scopes.Rooted)
    (evolves : state.scopes.Evolves final.scopes)
  /-- They end with a failure. -/
  | failure {reason : Failure} {final : State}
    (ended : first state = .error (.failure reason) final)
    (same : second state = .error (.failure reason) final) (rooted : final.scopes.Rooted)
    (evolves : state.scopes.Evolves final.scopes)

/-- Every error of the store but an endless walk leads to a failure. -/
def Fails (stop : ScopeError → Stop) : Prop :=
  ∀ error, error ≠ .endless → ∃ reason, stop error = .failure reason

/-- A failed operation on the scopes of a name leads to a failure. -/
theorem fails_scopeStop (setting : Setting) (name : Symbol) : Fails (setting.scopeStop name) := by
  intro error ends
  cases error with
  | undefined => exact ⟨_, rfl⟩
  | dangling handle => exact ⟨_, rfl⟩
  | endless => exact absurd rfl ends

/-- A failed assignment leads to a failure. -/
theorem fails_assignStop (setting : Setting) (name : Symbol) : Fails (setting.assignStop name) := by
  intro error ends
  cases error with
  | undefined => exact ⟨_, rfl⟩
  | dangling handle => exact ⟨_, rfl⟩
  | endless => exact absurd rfl ends

section Combinators

variable {α β : Type} {state : State}

/-- A sequence finishes when its parts do. -/
theorem Finishes.bind {first second : Eval α} {next other : α → Eval β}
    (opening : Finishes state first second)
    (rest : ∀ value middle, first state = .ok value middle → middle.scopes.Rooted →
      state.scopes.Evolves middle.scopes → Finishes middle (next value) (other value)) :
    Finishes state (first >>= next) (second >>= other) := by
  cases opening with
  | @result value middle ended same rooted evolves =>
    have continued := rest value middle ended rooted evolves
    cases continued with
    | result finished again later further =>
      exact .result ((bind_of_ok ended).trans finished) ((bind_of_ok same).trans again) later
        (evolves.trans further)
    | failure finished again later further =>
      exact .failure ((bind_of_ok ended).trans finished) ((bind_of_ok same).trans again) later
        (evolves.trans further)
  | failure ended same rooted evolves =>
    exact .failure (bind_of_error ended) (bind_of_error same) rooted evolves

/-- Giving failures a span changes nothing else. -/
theorem Finishes.located {first second : Eval α} (finishes : Finishes state first second)
    (span : Span) : Finishes state (first.located span) (second.located span) := by
  cases finishes with
  | @result value final ended same rooted evolves =>
    have located : ∀ evaluation : Eval α, evaluation state = .ok value final →
        evaluation.located span state = .ok value final := by
      intro evaluation ends
      simp only [Eval.located, ends]
    exact .result (located first ended) (located second same) rooted evolves
  | @failure reason final ended same rooted evolves =>
    have located : ∀ evaluation : Eval α, evaluation state = .error (.failure reason) final →
        evaluation.located span state = .error (.failure (reason.locateOnce span)) final := by
      intro evaluation ends
      simp only [Eval.located, ends]
    exact .failure (located first ended) (located second same) rooted evolves

variable (rooted : state.scopes.Rooted)
include rooted

/-- A result finishes. -/
theorem finishes_pure (value : α) : Finishes state (pure value) (pure value) :=
  .result rfl rfl rooted (.refl _)

/-- A failure finishes. -/
theorem finishes_fail (reason : Failure) : Finishes state (fail reason : Eval α) (fail reason) :=
  .failure rfl rfl rooted (.refl _)

/-- A computed result finishes. -/
theorem finishes_ofResult (computed : Except Failure α) :
    Finishes state (ofResult computed) (ofResult computed) := by
  cases computed with
  | ok value => exact finishes_pure rooted value
  | error reason => exact finishes_fail rooted reason

/-- Reading all scopes finishes. -/
theorem finishes_scopes : Finishes state scopes scopes := .result rfl rfl rooted (.refl _)

/-- A reading of the store that ends finishes. -/
theorem finishes_query {stop : ScopeError → Stop} (fails : Fails stop)
    {read : Store → Except ScopeError α} (ends : read state.scopes ≠ .error .endless) :
    Finishes state (query stop read) (query stop read) := by
  cases found : read state.scopes with
  | ok value =>
    have ended : query stop read state = .ok value state := by simp only [query, found]
    exact .result ended ended rooted (.refl _)
  | error error =>
    obtain ⟨reason, failure⟩ := fails error fun same => ends (same ▸ found)
    have ended : query stop read state = .error (.failure reason) state := by
      simp only [query, found, failure]
    exact .failure ended ended rooted (.refl _)

/-- A change of the store that ends and amounts to one write finishes. -/
theorem finishes_update {stop : ScopeError → Stop} (fails : Fails stop)
    {write : Store → Except ScopeError Store} (ends : write state.scopes ≠ .error .endless)
    (writes : ∀ after, write state.scopes = .ok after →
      ∃ handle name value, state.scopes.set handle name value = .ok after) :
    Finishes state (update stop write) (update stop write) := by
  cases written : write state.scopes with
  | ok after =>
    obtain ⟨handle, name, value, set⟩ := writes after written
    have ended : update stop write state = .ok () { state with scopes := after } := by
      simp only [update, written]
    exact .result ended ended (rooted.set set) (Store.evolves_set set)
  | error error =>
    obtain ⟨reason, failure⟩ := fails error fun same => ends (same ▸ written)
    have ended : update stop write state = .error (.failure reason) state := by
      simp only [update, written, failure]
    exact .failure ended ended rooted (.refl _)

/-- Binding a name in a scope finishes. -/
theorem finishes_declare (setting : Setting) (scope : Handle) (name : Symbol) (value : Value) :
    Finishes state (declare setting scope name value) (declare setting scope name value) := by
  refine finishes_update rooted (fails_scopeStop setting name) ?_
    fun after written => ⟨scope, name, value, written⟩
  exact Store.bind_ne_error (Store.scope_ne_endless _ scope) fun held => nofun

/-- Assigning to a name finishes. -/
theorem finishes_assign (setting : Setting) (scope : Handle) (name : Symbol) (value : Value) :
    Finishes state
      (update (setting.assignStop name) fun store => store.assign scope name value)
      (update (setting.assignStop name) fun store => store.assign scope name value) := by
  refine finishes_update rooted (fails_assignStop setting name)
    ((rooted.answers scope).assign name value) fun after written => ?_
  obtain ⟨owner, _, set⟩ := Store.exists_set_of_assign written
  exact ⟨owner, name, value, set⟩

/-- Following references from a value finishes. -/
theorem finishes_resolve (setting : Setting) (value : Value) :
    Finishes state (resolve setting value) (resolve setting value) :=
  (finishes_scopes rooted).bind fun _ _ _ rooted _ => finishes_ofResult rooted _

/-- Reading the stored value of a name finishes. -/
theorem finishes_readRaw (setting : Setting) (scope : Handle) (name : Symbol) :
    Finishes state (readRaw setting scope name) (readRaw setting scope name) :=
  finishes_query rooted (fails_scopeStop setting name) ((rooted.answers scope).get name)

/-- Reading the reference that a name holds finishes. -/
theorem finishes_heldReference (setting : Setting) (scope : Handle) (name : Symbol) :
    Finishes state (heldReference setting scope name) (heldReference setting scope name) := by
  refine (finishes_readRaw rooted setting scope name).bind fun value _ _ rooted _ => ?_
  cases value with
  | reference target => exact finishes_pure rooted target
  | _ => exact finishes_fail rooted _

/-- Writing through a reference finishes. -/
theorem finishes_writeThrough (setting : Setting) (first : Location) (value : Value) :
    Finishes state (writeThrough setting first value) (writeThrough setting first value) := by
  refine (finishes_scopes rooted).bind fun _ _ _ rooted _ => ?_
  refine (finishes_ofResult rooted _).bind fun target _ _ rooted _ => ?_
  exact finishes_declare rooted setting target.scope target.name value

/-- Reading a field finishes. -/
theorem finishes_readField (setting : Setting) (receiver : Object) (name : Symbol) :
    Finishes state (readField setting receiver name) (readField setting receiver name) := by
  have ends : state.scopes.getOwn receiver.storage name ≠ .error .endless :=
    Store.bind_ne_error (Store.scope_ne_endless _ _) fun held => nofun
  refine (finishes_query rooted (fails_scopeStop setting name) ends).bind
    fun found _ _ rooted _ => ?_
  cases found with
  | some value => exact finishes_resolve rooted setting value
  | none => exact finishes_fail rooted _

end Combinators

section Nodes

variable {left right : Evaluator} {program : ProgramId}

/-- Both evaluators finish alike with a node, in every rooted store and scope that has been
issued. -/
def FinishNode (left right : Evaluator) (program : ProgramId) (id : NodeId) : Prop :=
  ∀ scope state, state.scopes.Rooted → state.scopes.Issued scope →
    Finishes state (left (.node program id scope)) (right (.node program id scope))

variable {state : State} (rooted : state.scopes.Rooted) {scope : Handle}
  (issued : state.scopes.Issued scope)
include rooted issued

/-- Where evaluators finish with nodes they finish with them one after the other, for all
results. -/
theorem finishes_each {ids : List NodeId} (nodes : ∀ id ∈ ids, FinishNode left right program id) :
    Finishes state (each (fun id => left (.node program id scope)) ids)
      (each (fun id => right (.node program id scope)) ids) := by
  induction ids generalizing state with
  | nil => exact finishes_pure rooted []
  | cons id ids ih =>
    obtain ⟨first, rest⟩ := List.forall_mem_cons.1 nodes
    refine (first scope state rooted issued).bind fun value middle _ rooted evolves => ?_
    refine (ih rooted (evolves.issued scope issued) rest).bind fun values _ _ rooted _ => ?_
    exact finishes_pure rooted (value :: values)

/-- Where evaluators finish with nodes they finish with them one after the other, for the last
result. -/
theorem finishes_last {ids : List NodeId} (nodes : ∀ id ∈ ids, FinishNode left right program id)
    (result : Value) :
    Finishes state (last (fun id => left (.node program id scope)) result ids)
      (last (fun id => right (.node program id scope)) result ids) := by
  induction ids generalizing state result with
  | nil => exact finishes_pure rooted result
  | cons id ids ih =>
    obtain ⟨first, rest⟩ := List.forall_mem_cons.1 nodes
    refine (first scope state rooted issued).bind fun value middle _ rooted evolves => ?_
    exact ih rooted (evolves.issued scope issued) rest value

/-- A step on a node that does not call finishes when the evaluators finish with its operands. -/
theorem finishes_stepKind (setting : Setting) (host : Host) {code : Program} {kind : NodeKind}
    (quiet : kind.calls = false)
    (operands : ∀ id ∈ code.operands kind, FinishNode left right program id)
    (declared : ∀ owner, kind = .classDecl owner → ∃ decl, code.classDecl? owner = some decl) :
    Finishes state (stepKind setting host left ⟨program, code, scope⟩ kind)
      (stepKind setting host right ⟨program, code, scope⟩ kind) := by
  cases kind with
  | int value => exact finishes_pure rooted _
  | float bits => exact finishes_pure rooted _
  | bool value => exact finishes_pure rooted _
  | string text => exact finishes_pure rooted _
  | lambda param body => exact finishes_pure rooted _
  | read name =>
    refine (finishes_readRaw rooted setting scope name).bind fun value _ _ rooted _ => ?_
    exact finishes_resolve rooted setting value
  | reference name =>
    have ends := (rooted.answers scope).locate name
    refine (finishes_query rooted (fails_scopeStop setting name) ends).bind
      fun target _ _ rooted _ => ?_
    exact finishes_pure rooted _
  | binary op first second | index first second =>
    have opening := operands first List.mem_cons_self
    have closing := operands second (List.mem_cons_of_mem _ List.mem_cons_self)
    refine (opening scope state rooted issued).bind fun a middle _ rooted evolves => ?_
    refine (closing scope middle rooted (evolves.issued scope issued)).bind fun b _ _ rooted _ => ?_
    exact finishes_ofResult rooted _
  | branch condition thenBranch elseBranch =>
    have test := operands condition List.mem_cons_self
    refine (test scope state rooted issued).bind fun value middle _ rooted evolves => ?_
    refine (finishes_ofResult rooted _).bind fun holds last _ rooted further => ?_
    have still := (evolves.trans further).issued scope issued
    cases holds with
    | true =>
      exact operands thenBranch (by simp [Program.operands]) scope last rooted still
    | false =>
      cases elseBranch with
      | none => exact finishes_pure rooted _
      | some other => exact operands other (by simp [Program.operands]) scope last rooted still
  | block body =>
    have tidy := rooted.tidy
    have opened : Finishes state (allocate (some scope)) (allocate (some scope)) :=
      .result rfl rfl (rooted.allocate SymbolMap.distinct_empty (by rintro _ ⟨⟩; exact issued))
        (Store.evolves_allocate tidy _ _)
    refine opened.bind fun inner middle allocated rooted _ => ?_
    have live : middle.scopes.isLive inner = true := by
      cases allocated
      exact Store.isLive_allocate tidy (some scope) .empty
    exact finishes_last rooted (Store.issued_of_isLive live) operands .void
  | declare name tag value =>
    have child := operands value List.mem_cons_self
    refine (child scope state rooted issued).bind fun value _ _ rooted _ => ?_
    refine (finishes_ofResult rooted _).bind fun _ _ _ rooted _ => ?_
    refine (finishes_declare rooted setting scope name value).bind fun _ _ _ rooted _ => ?_
    exact finishes_pure rooted _
  | assign name value =>
    have child := operands value List.mem_cons_self
    refine (child scope state rooted issued).bind fun value _ _ rooted _ => ?_
    refine (finishes_assign rooted setting scope name value).bind fun _ _ _ rooted _ => ?_
    exact finishes_pure rooted _
  | assignThrough name value =>
    have child := operands value List.mem_cons_self
    refine (finishes_heldReference rooted setting scope name).bind
      fun first middle _ rooted evolves => ?_
    refine (child scope middle rooted (evolves.issued scope issued)).bind
      fun value _ _ rooted _ => ?_
    refine (finishes_writeThrough rooted setting first value).bind fun _ _ _ rooted _ => ?_
    exact finishes_pure rooted _
  | function name params body =>
    refine (finishes_declare rooted setting scope name _).bind fun _ _ _ rooted _ => ?_
    exact finishes_pure rooted _
  | classDecl owner =>
    obtain ⟨decl, found⟩ := declared owner rfl
    have present : Finishes state (existing (code.classDecl? owner))
        (existing (code.classDecl? owner)) := found ▸ finishes_pure rooted decl
    refine present.bind fun decl _ _ rooted _ => ?_
    refine (finishes_declare rooted setting scope decl.name _).bind fun _ _ _ rooted _ => ?_
    exact finishes_pure rooted _
  | field receiver name =>
    have child := operands receiver List.mem_cons_self
    refine (child scope state rooted issued).bind fun value _ _ rooted _ => ?_
    cases value with
    | object receiver => exact finishes_readField rooted setting receiver name
    | _ => exact finishes_fail rooted _
  | array elements =>
    refine (finishes_each rooted issued operands).bind fun values _ _ rooted _ => ?_
    exact finishes_pure rooted _
  | call | construct | methodCall => exact nomatch quiet

end Nodes

/-- Where a builder puts children before their parents, runs finish alike with a node without calls
at all depths above its position. -/
theorem finishNode_run {builder : Builder} {returned : List NodeId}
    (ordered : builder.Ordered returned) {setting : Setting} {program : ProgramId}
    (loaded : setting.program? program = some builder.draft.program) (host : Host) {id : NodeId}
    (has : builder.draft.program.HasNode id) (free : builder.draft.program.CallFree id)
    {depth other : Nat} (enough : id.index < depth) (also : id.index < other) :
    FinishNode (run setting host depth) (run setting host other) program id := by
  -- operands come before their node, so every depth falls no faster than the position
  induction depth generalizing id other with
  | zero => exact absurd enough (Nat.not_lt_zero _)
  | succ depth ih =>
    obtain ⟨other, rfl⟩ := Nat.exists_eq_add_of_lt also
    let node := builder.draft.program.nodes[id.index]
    have found : builder.draft.program.node? id = some node := Array.getElem?_eq_getElem has
    have operands : ∀ operand ∈ builder.draft.program.operands node.kind,
        FinishNode (run setting host depth) (run setting host (id.index + other)) program
          operand := by
      intro operand listed
      have part : builder.draft.program.HasOperand id operand := ⟨node, found, listed⟩
      have before := ordered.index_lt part.hasChild
      exact ih (Nat.lt_trans before has) (free.operand part) (by omega) (by omega)
    intro scope state rooted issued
    rw [run_succ, run_succ, step_node loaded found, step_node loaded found]
    refine Finishes.located ?_ node.span
    exact finishes_stepKind rooted issued setting host (free id node .refl found) operands
      fun owner kind => ordered.exists_classDecl found kind

end Eval

namespace Machine

/-- Code without calls terminates. Take a program that a builder has made from positions it had
returned before, and a node of it in whose evaluated part nothing is called and no object is
constructed. In every machine that a host can have come to, with that program current, whatever its
hop limit, and in every scope that it has issued, live or not, the evaluation of the node ends with
a value or a failure: the same one for all bounds on the depth above the position of the node. -/
theorem callFree_terminates {machine : Machine} (reached : machine.Reachable) (host : Host)
    {symbols : SymbolTable} {calls : List Builder.Call}
    (founded : (Builder.start symbols).Founded [] calls)
    (loaded : machine.setting.program? machine.current =
      some ((Builder.start symbols).replay calls).draft.program)
    {id : NodeId} (has : ((Builder.start symbols).replay calls).draft.program.HasNode id)
    (free : ((Builder.start symbols).replay calls).draft.program.CallFree id)
    {scope : Handle} (issued : machine.scopes.Issued scope) :
    ∃ answer after, ((∃ value, answer = .ok value) ∨ ∃ reason, answer = .error (.failure reason)) ∧
      ∀ depth, id.index < depth → machine.evaluate host depth id scope = (answer, after) := by
  obtain ⟨returned, ordered⟩ := (Builder.ordered_start symbols).replay founded
  have rooted := reached.sound.scopes.rooted
  have finish : ∀ depth, id.index < depth →
      Eval.Finishes machine.state
        (Eval.run machine.setting host (id.index + 1) (.node machine.current id scope))
        (Eval.run machine.setting host depth (.node machine.current id scope)) := fun depth enough =>
    Eval.finishNode_run ordered loaded host has free (Nat.lt_succ_self _) enough scope machine.state
      rooted issued
  refine ⟨(machine.evaluate host (id.index + 1) id scope).1,
    (machine.evaluate host (id.index + 1) id scope).2, ?_, ?_⟩
  · cases finish (id.index + 1) (Nat.lt_succ_self _) with
    | result ended => exact Or.inl ⟨_, by rw [evaluate, performTask, perform, ended]⟩
    | failure ended => exact Or.inr ⟨_, by rw [evaluate, performTask, perform, ended]⟩
  · intro depth enough
    cases finish depth enough with
    | result ended same => simp only [evaluate, performTask, perform, ended, same]
    | failure ended same => simp only [evaluate, performTask, perform, ended, same]

end Machine

/-- Block that declares a function that calls itself, makes a name hold a reference to itself, and
reads the name. -/
def circularCalls : List Builder.Call :=
  [.add (.call "f" []), .add (.function "f" [] ⟨0⟩), .add (.int 1), .add (.declare "r" none ⟨2⟩),
    .add (.reference "r"), .add (.assign "r" ⟨4⟩), .place ⟨3, 9⟩, .add (.read "r"),
    .add (.block [⟨1⟩, ⟨3⟩, ⟨5⟩, ⟨6⟩])]

/-- Draft that those calls make. -/
def circularDraft : Draft := ((Builder.start .initial).replay circularCalls).draft

/-- Machine that has entered the program of the draft. -/
def circularMachine : Machine :=
  let host := Host.collecting .prudent .void
  let start := Machine.start .initial Machine.defaultHops (.buffer "")
  let loaded := start.operate host (.load circularDraft)
  (loaded.2.operate host (.carryOut (.program ⟨1⟩ []) 0)).2

/-- The block ends with a failure at every depth above its position: the function is not called, and
reading the name takes no more hops than the limit. -/
theorem Machine.callFree_terminates_circularMachine :
    circularMachine.Reachable ∧ circularDraft.program.CallFree ⟨7⟩ ∧
      ∃ after, ∀ depth, 7 < depth →
        circularMachine.evaluate .standard depth ⟨7⟩ circularMachine.setting.global =
          (.error (.failure { cause := .chainTooLong 10, span := some ⟨3, 9⟩ }), after) := by
  have started := Machine.Reachable.start .initial Machine.defaultHops (.buffer "")
  have loaded := started.operate .prudent .void (.load circularDraft)
    (fun _ held => absurd held List.not_mem_nil) rfl
  have reached : circularMachine.Reachable :=
    loaded.operate .prudent .void (.carryOut (.program ⟨1⟩ []) 0)
      (fun _ held => absurd held List.not_mem_nil) rfl
  have free : circularDraft.program.CallFree ⟨7⟩ :=
    Program.callFree_of_mem [⟨1⟩, ⟨2⟩, ⟨3⟩, ⟨4⟩, ⟨5⟩, ⟨6⟩, ⟨7⟩] (by decide +kernel) (by decide)
  have founded : (Builder.start .initial).Founded [] circularCalls := by decide +kernel
  have has : circularDraft.program.HasNode ⟨7⟩ := by decide +kernel
  obtain ⟨answer, after, _, same⟩ := callFree_terminates reached .standard founded rfl has free
    reached.sound.global
  have found : (circularMachine.evaluate .standard 8 ⟨7⟩ circularMachine.setting.global).1 =
      .error (.failure { cause := .chainTooLong 10, span := some ⟨3, 9⟩ }) := rfl
  have first := same 8 (by decide)
  rw [first] at found
  subst found
  exact ⟨reached, free, after, same⟩

end ScopeMachine
