import ScopeMachine.Machine
import ScopeMachine.Proofs.Evaluation.Candour
import ScopeMachine.Proofs.Evaluation.Transcript

/-!
# Where failures come from

The evaluation of a node gives a failure a span once, on the way out, and changes nothing else about
it. So a failure that leaves a node is either the very failure of an evaluation that the node has
started, or the node has failed by itself and the span is its own. Going down from node to node as
long as the former holds leads to the innermost node that has failed.

The evaluations that a node starts are those of its children, of bodies and of defaults. A native
function that calls back stands in between for a moment: the bodies that its calls start count as
started by the node.
-/

namespace ScopeMachine

/-- Node of a program, if it exists. -/
def Setting.node? (setting : Setting) (program : ProgramId) (id : NodeId) : Option Node :=
  (setting.program? program).bind fun code => code.node? id

/-- The stop is no failure without a span. -/
def Stop.IsPlaced : Stop → Prop
  | .failure reason => reason.span ≠ none
  | .missing | .exhausted => True

/-- Span that a task gives to a failure without one: that of its node. -/
def Setting.ownSpan? (setting : Setting) : Task → Option Span
  | .node program id _ => (setting.node? program id).map Node.span
  | .call _ _ => none

namespace Eval

/-- Outcome of a run of what is asked for. -/
def Ask.outcome (setting : Setting) (host : Host) (depth : Nat) (ask : Ask) :
    EStateM.Result Stop State Value :=
  run setting host depth ask.task ask.start

/-- The second ask, within its depth, is for a node that the evaluation of the first one starts
directly: the step asks for it, or asks for a call that does. -/
inductive Starts (setting : Setting) (host : Host) : Nat → Ask → Nat → Ask → Prop where
  /-- The step asks for the node. -/
  | node {depth : Nat} {ask inner : Ask} {asks : List Ask} {program : ProgramId} {id : NodeId}
    {scope : Handle}
    (dialogue : Dialogue (fun evaluate => step setting host evaluate ask.task)
      (run setting host depth) ask.start asks)
    (listed : inner ∈ asks) (isNode : inner.task = .node program id scope) :
    Starts setting host (depth + 1) ask depth inner
  /-- The step asks for a call, and the call starts the node. -/
  | call {depth below : Nat} {ask middle inner : Ask} {asks : List Ask} {callee : Value}
    {args : List Value}
    (dialogue : Dialogue (fun evaluate => step setting host evaluate ask.task)
      (run setting host depth) ask.start asks)
    (listed : middle ∈ asks) (isCall : middle.task = .call callee args)
    (starts : Starts setting host depth middle below inner) :
    Starts setting host (depth + 1) ask below inner

/-- The failure goes from the second ask up to the first, from node to node that have started each
other, and is the failure of each of them. -/
inductive Rises (setting : Setting) (host : Host) (failure : Failure) (final : State) :
    Nat → Ask → Nat → Ask → Prop where
  /-- It stays where it is. -/
  | here {depth : Nat} {ask : Ask}
    (failed : ask.outcome setting host depth = .error (.failure failure) final) :
    Rises setting host failure final depth ask depth ask
  /-- It goes from a node to the one that has started it. -/
  | up {depth middle below : Nat} {ask next inner : Ask}
    (failed : ask.outcome setting host depth = .error (.failure failure) final)
    (starts : Starts setting host depth ask middle next)
    (rises : Rises setting host failure final middle next below inner) :
    Rises setting host failure final depth ask below inner

/-- Every evaluation that the ask has started has ended with a value. -/
def AllStartedEnd (setting : Setting) (host : Host) (depth : Nat) (ask : Ask) : Prop :=
  ∀ below inner, Starts setting host depth ask below inner →
    ∃ value final, inner.outcome setting host below = .ok value final

/-- What is started is a node. -/
theorem Starts.exists_node {setting : Setting} {host : Host} {depth below : Nat} {ask inner : Ask}
    (starts : Starts setting host depth ask below inner) :
    ∃ program id scope, inner.task = .node program id scope := by
  induction starts with
  | node dialogue listed isNode => exact ⟨_, _, _, isNode⟩
  | call dialogue listed isCall _ ih => exact ih

/-- A failure rises to a node from a node. -/
theorem Rises.exists_node {setting : Setting} {host : Host} {failure : Failure} {final : State}
    {depth below : Nat} {ask inner : Ask}
    (rises : Rises setting host failure final depth ask below inner)
    (isNode : ∃ program id scope, ask.task = .node program id scope) :
    ∃ program id scope, inner.task = .node program id scope := by
  induction rises with
  | here failed => exact isNode
  | up failed starts _ ih => exact ih starts.exists_node

/-- What is started is evaluated within a smaller depth. -/
theorem Starts.lt {setting : Setting} {host : Host} {depth below : Nat} {ask inner : Ask}
    (starts : Starts setting host depth ask below inner) : below < depth := by
  induction starts with
  | node dialogue listed isNode => exact Nat.lt_succ_self _
  | call dialogue listed isCall _ ih => exact Nat.lt_succ_of_lt ih

/-- All dialogues of the same work hold the same asks. -/
theorem Dialogue.subset {α : Type} {work : Evaluator → Eval α} {evaluate : Evaluator} {state : State}
    {asks more : List Ask} (dialogue : Dialogue work evaluate state asks)
    (other : Dialogue work evaluate state more) : asks ⊆ more := by
  intro ask listed
  rcases forall_or_exists_first (· ≠ ask) asks with all | ⟨before, first, after, rfl, early, here⟩
  · exact absurd rfl (all ask listed)
  · obtain rfl : first = ask := not_not.1 here
    have new : first ∉ before := fun stands => early first stands rfl
    obtain ⟨prior, rest, rfl, _⟩ := dialogue.exists_next new other
    exact List.mem_append_right _ List.mem_cons_self

/-- Giving failures a span leaves alone every stop but a failure without one. -/
theorem located_of_error {α : Type} {evaluation : Eval α} {state final : State} {stop : Stop}
    (span : Span) (stopped : evaluation state = .error stop final) (placed : stop.IsPlaced) :
    evaluation.located span state = .error stop final := by
  unfold located
  rw [stopped]
  cases stop with
  | failure failure =>
    obtain ⟨own, located⟩ := Option.ne_none_iff_exists'.1 placed
    simp only [Failure.locateOnce_of_span_eq_some span located]
  | missing => rfl
  | exhausted => rfl

/-- A failure that leaves a node with a span comes from one before, which has it already or has had
none. -/
theorem exists_of_located_eq_error {α : Type} {evaluation : Eval α} {state final : State}
    {failure : Failure} {span : Span}
    (failed : evaluation.located span state = .error (.failure failure) final) :
    ∃ inner, evaluation state = .error (.failure inner) final ∧ failure = inner.locateOnce span := by
  unfold located at failed
  split at failed
  · cases failed
    exact ⟨_, ‹_›, rfl⟩
  · next other => exact absurd failed (other failure final)

section Runs

variable {setting : Setting} {reply : Reply}

/-- A node whose evaluation fails exists. -/
theorem exists_node_of_failed {host : Host} {depth : Nat} {program : ProgramId} {id : NodeId}
    {scope : Handle} {state final : State} {failure : Failure}
    (failed : run setting host depth (.node program id scope) state =
      .error (.failure failure) final) :
    ∃ below code node, depth = below + 1 ∧ setting.program? program = some code ∧
      code.node? id = some node := by
  cases depth with
  | zero => exact nomatch failed
  | succ below =>
    cases hasKind : setting.kind? program id with
    | none =>
      rw [run_succ, step_missing hasKind state] at failed
      exact nomatch failed
    | some kind =>
      obtain ⟨code, node, hasCode, hasNode, _⟩ := exists_node_of_kind? hasKind
      exact ⟨below, code, node, rfl, hasCode, hasNode⟩

/-- The evaluation of a node fails with a span. -/
theorem span_of_node_failed {host : Host} {depth : Nat} {program : ProgramId} {id : NodeId}
    {scope : Handle} {state final : State} {failure : Failure}
    (failed : run setting host depth (.node program id scope) state =
      .error (.failure failure) final) : failure.span ≠ none := by
  obtain ⟨below, code, node, rfl, hasCode, hasNode⟩ := exists_node_of_failed failed
  rw [run_succ, step_node hasCode hasNode] at failed
  obtain ⟨inner, _, rfl⟩ := exists_of_located_eq_error failed
  rw [Failure.span_locateOnce]
  exact Option.some_ne_none _

/-- The asks are what one step needs. It passes on their stops, failures without a span apart; and
what it fails with, an ask has failed with, or no ask has stopped otherwise than without a span and
the span is the step's own. -/
structure StepCandour (setting : Setting) (reply : Reply) (task : Task) (evaluate : Evaluator)
    (state : State) (asks : List Ask) : Prop where
  /-- The asks are what the step needs. -/
  dialogue : Dialogue (fun evaluate => step setting (.quiet reply) evaluate task) evaluate state asks
  /-- A stop of an ask is the stop of the step, unless it needs a span. -/
  passes : ∀ ask ∈ asks, ∀ stop final, evaluate ask.task ask.start = .error stop final →
    stop.IsPlaced → step setting (.quiet reply) evaluate task state = .error stop final
  /-- A failure of the step is that of an ask, or the step's own. -/
  origin : ∀ failure final,
    step setting (.quiet reply) evaluate task state = .error (.failure failure) final →
    (failure.span ≠ none ∧
      ∃ ask ∈ asks, evaluate ask.task ask.start = .error (.failure failure) final) ∨
    (∀ ask ∈ asks, ∀ stop later, evaluate ask.task ask.start = .error stop later →
      ¬ stop.IsPlaced) ∧ failure.span = setting.ownSpan? task

/-- Where candid work fails without a span, no ask has stopped otherwise. -/
theorem Candour.not_isPlaced {work : Evaluator → Eval Value} {evaluate : Evaluator}
    {state final : State} {asks : List Ask} (candour : Candour work evaluate state asks)
    {failure : Failure} (failed : work evaluate state = .error (.failure failure) final)
    (plain : failure.span = none) :
    ∀ ask ∈ asks, ∀ stop later, evaluate ask.task ask.start = .error stop later →
      ¬ stop.IsPlaced := by
  intro ask listed stop later stopped placed
  have whole := candour.passes ask listed stop later stopped
  rw [failed] at whole
  cases whole
  exact placed plain

/-- Every step has such asks. -/
theorem exists_stepCandour (setting : Setting) (reply : Reply) (task : Task) (evaluate : Evaluator)
    (state : State) : ∃ asks, StepCandour setting reply task evaluate state asks := by
  cases task with
  | node program id scope =>
    cases hasKind : setting.kind? program id with
    | none =>
      have stops : ∀ evaluate : Evaluator,
          step setting (.quiet reply) evaluate (.node program id scope) state =
            .error .missing state := fun _ => step_missing hasKind state
      refine ⟨[], ⟨fun _ _ => (stops _).trans (stops _).symm, by simp⟩, by simp, ?_⟩
      intro failure final failed
      rw [stops] at failed
      exact nomatch failed
    | some kind =>
      obtain ⟨code, node, hasCode, hasNode, rfl⟩ := exists_node_of_kind? hasKind
      have own : setting.ownSpan? (.node program id scope) = some node.span := by
        simp [Setting.ownSpan?, Setting.node?, hasCode, hasNode]
      have eq : ∀ evaluate : Evaluator, step setting (.quiet reply) evaluate (.node program id scope) =
          located node.span
            (stepKind setting (.quiet reply) evaluate ⟨program, code, scope⟩ node.kind) :=
        fun _ => step_node hasCode hasNode
      obtain ⟨asks, candour⟩ :=
        candid_stepKind setting reply ⟨program, code, scope⟩ node.kind evaluate state
      refine ⟨asks, ?_, ?_, ?_⟩
      · simp only [eq]
        exact candour.dialogue.located node.span
      · intro ask listed stop final stopped placed
        rw [eq]
        exact located_of_error node.span (candour.passes ask listed stop final stopped) placed
      · intro failure final failed
        rw [eq] at failed
        obtain ⟨inner, inside, rfl⟩ := exists_of_located_eq_error failed
        cases has : inner.span with
        | none =>
          refine Or.inr ⟨candour.not_isPlaced inside has, ?_⟩
          rw [Failure.span_locateOnce, has, own]
          rfl
        | some span =>
          rw [Failure.locateOnce_of_span_eq_some node.span has]
          have placed : inner.span ≠ none := by simp [has]
          rcases candour.origin inner final inside with plain | asked
          · exact absurd plain placed
          · exact Or.inl ⟨placed, asked⟩
  | call callee args =>
    obtain ⟨asks, candour⟩ := candid_callAny setting reply callee args evaluate state
    refine ⟨asks, candour.dialogue, fun ask listed stop final stopped _ =>
      candour.passes ask listed stop final stopped, ?_⟩
    intro failure final failed
    by_cases plain : failure.span = none
    · exact Or.inr ⟨candour.not_isPlaced failed plain, plain⟩
    · rcases candour.origin failure final failed with none | asked
      · exact absurd none plain
      · exact Or.inl ⟨plain, asked⟩

/-- What a node has started stops placed, if it stops. -/
theorem Starts.isPlaced {host : Host} {depth below : Nat} {ask inner : Ask}
    (starts : Starts setting host depth ask below inner) {stop : Stop} {final : State}
    (stopped : inner.outcome setting host below = .error stop final) : stop.IsPlaced := by
  induction starts with
  | node dialogue listed isNode =>
    cases stop with
    | failure failure =>
      unfold Ask.outcome at stopped
      rw [isNode] at stopped
      exact span_of_node_failed stopped
    | missing => trivial
    | exhausted => trivial
  | call dialogue listed isCall _ ih => exact ih stopped

/-- A stop of what a node has started is the stop of the node. -/
theorem Starts.passes {depth below : Nat} {ask inner : Ask}
    (starts : Starts setting (.quiet reply) depth ask below inner) {stop : Stop} {final : State}
    (stopped : inner.outcome setting (.quiet reply) below = .error stop final) :
    ask.outcome setting (.quiet reply) depth = .error stop final := by
  have placed := starts.isPlaced stopped
  induction starts with
  | @node depth ask inner _ _ _ _ dialogue listed isNode =>
    obtain ⟨asks, candour⟩ := exists_stepCandour setting reply ask.task
      (run setting (.quiet reply) depth) ask.start
    exact candour.passes inner (dialogue.subset candour.dialogue listed) stop final stopped placed
  | @call depth _ ask middle _ _ _ _ dialogue listed isCall _ ih =>
    obtain ⟨asks, candour⟩ := exists_stepCandour setting reply ask.task
      (run setting (.quiet reply) depth) ask.start
    exact candour.passes middle (dialogue.subset candour.dialogue listed) stop final
      (ih stopped) placed

/-- A failure is that of an evaluation that has been started, or none of those has stopped and the
span is that of the task. -/
theorem failure_origin {depth : Nat} {ask : Ask} {failure : Failure} {final : State}
    (failed : ask.outcome setting (.quiet reply) depth = .error (.failure failure) final) :
    (∃ below inner, Starts setting (.quiet reply) depth ask below inner ∧
      inner.outcome setting (.quiet reply) below = .error (.failure failure) final) ∨
    AllStartedEnd setting (.quiet reply) depth ask ∧
      failure.span = setting.ownSpan? ask.task := by
  induction depth generalizing ask with
  | zero => exact nomatch failed
  | succ depth ih =>
    obtain ⟨asks, candour⟩ := exists_stepCandour setting reply ask.task
      (run setting (.quiet reply) depth) ask.start
    rcases candour.origin failure final failed with ⟨placed, inner, listed, same⟩ | ⟨plain, own⟩
    · cases task : inner.task with
      | node program id scope =>
        exact Or.inl ⟨depth, inner, .node candour.dialogue listed task, same⟩
      | call callee args =>
        rcases ih same with ⟨below, innermost, starts, again⟩ | ⟨_, span⟩
        · exact Or.inl ⟨below, innermost, .call candour.dialogue listed task starts, again⟩
        · rw [task] at span
          exact absurd span placed
    · refine Or.inr ⟨fun below inner starts => ?_, own⟩
      cases outcome : inner.outcome setting (.quiet reply) below with
      | ok value later => exact ⟨value, later, rfl⟩
      | error stop later =>
        -- what has been started stops with a span or for no failure, an ask of the step does not
        have placed := starts.isPlaced outcome
        cases starts with
        | node dialogue listed isNode =>
          have inside := dialogue.subset candour.dialogue listed
          exact absurd placed (plain _ inside stop later outcome)
        | call dialogue listed isCall starts =>
          have inside := dialogue.subset candour.dialogue listed
          exact absurd placed (plain _ inside stop later (starts.passes outcome))

/-- A failure has risen from an innermost evaluation that has failed by itself, and has the span of
that one. -/
theorem exists_innermost {depth : Nat} {ask : Ask} {failure : Failure} {final : State}
    (failed : ask.outcome setting (.quiet reply) depth = .error (.failure failure) final) :
    ∃ below innermost, Rises setting (.quiet reply) failure final depth ask below innermost ∧
      AllStartedEnd setting (.quiet reply) below innermost ∧
      failure.span = setting.ownSpan? innermost.task := by
  induction depth using Nat.strong_induction_on generalizing ask with
  | _ depth ih =>
    rcases failure_origin failed with ⟨below, inner, starts, same⟩ | ⟨ended, own⟩
    · obtain ⟨last, innermost, rises, ended, own⟩ := ih below starts.lt same
      exact ⟨last, innermost, .up failed starts rises, ended, own⟩
    · exact ⟨depth, ask, .here failed, ended, own⟩

/-- A failure of a node has a span, and its message is the one of its cause. It is the very failure
of an evaluation that the node has started; or none of those has stopped, and the span is that of the
node. If one of them has stopped, the node has stopped in the same way. The span is that of the
innermost node that has failed, from which the failure has risen unchanged. -/
theorem failure_provenance {depth : Nat} {program : ProgramId} {id : NodeId} {scope : Handle}
    {state final : State} {failure : Failure}
    (failed : run setting (.quiet reply) depth (.node program id scope) state =
      .error (.failure failure) final) :
    let ask : Ask := ⟨.node program id scope, state⟩
    failure.span.isSome = true ∧ failure.message = failure.cause.message ∧
    ((∃ below inner, Starts setting (.quiet reply) depth ask below inner ∧
        inner.outcome setting (.quiet reply) below = .error (.failure failure) final) ∨
      AllStartedEnd setting (.quiet reply) depth ask ∧
        ∃ node, setting.node? program id = some node ∧ failure.span = some node.span) ∧
    (∀ below inner, Starts setting (.quiet reply) depth ask below inner → ∀ stop later,
      inner.outcome setting (.quiet reply) below = .error stop later →
      stop = .failure failure ∧ later = final) ∧
    ∃ below innermost innerProgram innerId innerScope node,
      Rises setting (.quiet reply) failure final depth ask below innermost ∧
      innermost.task = .node innerProgram innerId innerScope ∧
      AllStartedEnd setting (.quiet reply) below innermost ∧
      setting.node? innerProgram innerId = some node ∧ failure.span = some node.span := by
  intro ask
  have askFailed : ask.outcome setting (.quiet reply) depth = .error (.failure failure) final := failed
  have placed : failure.span.isSome = true := Option.isSome_iff_ne_none.2 (span_of_node_failed failed)
  -- the span of a node, once it is known, is that of a node that exists
  have exists_node : ∀ {program id scope}, failure.span = setting.ownSpan? (.node program id scope) →
      ∃ node, setting.node? program id = some node ∧ failure.span = some node.span := by
    intro program id scope own
    obtain ⟨span, has⟩ := Option.isSome_iff_exists.1 placed
    obtain ⟨node, hasNode, rfl⟩ := Option.map_eq_some_iff.1 (own.symm.trans has)
    exact ⟨node, hasNode, has⟩
  refine ⟨placed, rfl, ?_, ?_, ?_⟩
  · exact (failure_origin askFailed).imp_right fun own => ⟨own.1, exists_node own.2⟩
  · intro below inner starts stop later stopped
    have whole := starts.passes stopped
    rw [askFailed] at whole
    cases whole
    exact ⟨rfl, rfl⟩
  · obtain ⟨below, innermost, rises, ended, own⟩ := exists_innermost askFailed
    obtain ⟨innerProgram, innerId, innerScope, isNode⟩ := rises.exists_node ⟨_, _, _, rfl⟩
    rw [isNode] at own
    obtain ⟨node, hasNode, same⟩ := exists_node own
    exact ⟨below, innermost, innerProgram, innerId, innerScope, node, rises, isNode, ended, hasNode,
      same⟩

end Runs

/-- Reason for which an evaluation has stopped, if it has. -/
def stopOf? : EStateM.Result Stop State Value → Option Stop
  | .ok _ _ => none
  | .error stop _ => some stop

/-- An outcome with a reason to stop is a stop. -/
theorem exists_of_stopOf? {outcome : EStateM.Result Stop State Value} {stop : Stop}
    (stopped : stopOf? outcome = some stop) : ∃ final, outcome = .error stop final := by
  cases outcome with
  | ok value final => exact nomatch stopped
  | error reason final => exact ⟨final, congrArg (EStateM.Result.error · final) (Option.some.inj stopped)⟩

end Eval

/-- Program of a call of `map` with a function that divides by zero. -/
def dividingProgram : Program :=
  { nodes := #[⟨.read ⟨9⟩, ⟨10, 11⟩⟩, ⟨.int 0, ⟨14, 15⟩⟩, ⟨.binary .div ⟨0⟩ ⟨1⟩, ⟨10, 15⟩⟩,
      ⟨.lambda ⟨9⟩ ⟨2⟩, ⟨5, 15⟩⟩, ⟨.int 1, ⟨18, 19⟩⟩, ⟨.array ⟨0, 1⟩, ⟨17, 20⟩⟩,
      ⟨.call ⟨1⟩ ⟨1, 2⟩, ⟨0, 21⟩⟩]
    lists := #[⟨4⟩, ⟨3⟩, ⟨5⟩]
    params := #[]
    classes := #[] }

/-- Machine with that program loaded. -/
def dividingMachine : Machine :=
  ((Machine.start .initial Machine.defaultHops (.buffer "")).load
    ⟨(SymbolTable.initial.intern "x").2, dividingProgram⟩).2

/-- The call fails with the span of the division, from which the failure has risen. -/
theorem Eval.failure_provenance_dividingMachine :
    let setting := dividingMachine.setting
    let ask : Ask := ⟨.node ⟨1⟩ ⟨6⟩ ⟨0, 0⟩, dividingMachine.state⟩
    ∃ failure final, run setting (.quiet .void) 6 ask.task ask.start =
        .error (.failure failure) final ∧
      failure.span = some ⟨10, 15⟩ ∧
      ∃ below innermost program id scope node,
        Rises setting (.quiet .void) failure final 6 ask below innermost ∧
        innermost.task = .node program id scope ∧ setting.node? program id = some node ∧
        node.span = ⟨10, 15⟩ := by
  intro setting ask
  have stopped : stopOf? (run setting (.quiet .void) 6 ask.task ask.start) =
      some (.failure { cause := .divisionByZero, span := some ⟨10, 15⟩ }) := by decide +kernel
  obtain ⟨final, failed⟩ := exists_of_stopOf? stopped
  obtain ⟨_, _, _, _, below, innermost, program, id, scope, node, rises, isNode, _, hasNode, span⟩ :=
    failure_provenance failed
  exact ⟨_, final, failed, rfl, below, innermost, program, id, scope, node, rises, isNode, hasNode,
    (Option.some.inj span).symm⟩

end ScopeMachine
