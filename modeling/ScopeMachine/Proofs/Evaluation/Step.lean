import ScopeMachine.Evaluation.Step
import ScopeMachine.Proofs.Evaluation.Operations
import ScopeMachine.Proofs.Machine.Host

/-!
# Courses of steps and runs

One step of evaluation follows a course that starts with what its task gives, node kind by node kind.
A node declares in the scope in which it is evaluated; only a block does not, since it opens a scope
of its own.

The entries of hosts follow courses, too: a quiet host answers from the arguments, and a watched one
may collect before it answers.

Hence whatever single deeds conserve, and inner evaluations for the evaluation that asks for them,
whole runs conserve.
-/

namespace ScopeMachine

namespace Eval

variable {licence : Licence} {hold : Holding} {state : State} {setting : Setting} {host : Host}

section Step

variable {program : ProgramId} {code : Program} {scope : Handle}

/-- A child of a node is evaluated in the frame of the node. -/
theorem follows_child (own : scope ∈ hold.frames) (id : NodeId) :
    Follows licence hold state (fun evaluate => evaluate (Frame.task ⟨program, code, scope⟩ id))
      fun last _ value => last.Has value := follows_ask own

/-- The arguments of a node are evaluated in the frame of the node. -/
theorem follows_arguments (own : scope ∈ hold.frames) (range : NodeRange) :
    Follows licence hold state (fun evaluate => arguments evaluate ⟨program, code, scope⟩ range)
      fun last _ values => ∀ value ∈ values, last.Has value :=
  follows_each fun id _ _ _ more => follows_child (more.1 own) id

/-- A block opens a frame of its own inside a known scope. -/
theorem follows_block (known : scope ∈ hold.handles) (body : NodeRange) :
    Follows licence hold state
      (fun evaluate => stepKind setting host evaluate ⟨program, code, scope⟩ (.block body))
      fun last _ value => last.Has value := by
  refine (follows_allocate known).bind fun framed _ inner _ own => ?_
  exact follows_last (Holding.has_of_handles_eq_nil rfl) fun id _ later _ more =>
    follows_ask (more.1 own)

/-- A construction opens the storage of its object as a frame. -/
theorem follows_construct (own : scope ∈ hold.frames) (ownerName : Symbol) (args : NodeRange) :
    Follows licence hold state
      (fun evaluate =>
        stepKind setting host evaluate ⟨program, code, scope⟩ (.construct ownerName args))
      fun last _ value => last.Has value ∧
        ∃ object, value = .object object ∧ object.storage ∈ last.frames := by
  have known := hold.frames_subset own
  refine (follows_readClass setting known ownerName).bind fun found _ owner more held => ?_
  refine (follows_checkFieldCount setting owner args.length).bind fun checked _ _ further _ => ?_
  have inner := (more.trans further).1 own
  refine (follows_arguments inner args).bind fun last _ values later has => ?_
  exact follows_makeObject setting ((further.trans later).2.1 held) has

/-- One step on a node follows. -/
theorem follows_stepKind (hosts : host.Follows licence setting) (known : scope ∈ hold.handles)
    (kind : NodeKind) (frame : (∀ body, kind ≠ .block body) → scope ∈ hold.frames) :
    Follows licence hold state
      (fun evaluate => stepKind setting host evaluate ⟨program, code, scope⟩ kind)
      fun last _ value => last.Has value := by
  have void : ∀ later : Holding, later.Has .void := fun _ => Holding.has_of_handles_eq_nil rfl
  cases kind with
  | block body => exact follows_block known body
  | int value => exact follows_pure (Holding.has_of_handles_eq_nil rfl)
  | float bits => exact follows_pure (Holding.has_of_handles_eq_nil rfl)
  | bool value => exact follows_pure (Holding.has_of_handles_eq_nil rfl)
  | string text => exact follows_pure (Holding.has_of_handles_eq_nil rfl)
  | read name => exact follows_readName setting known name
  | binary op leftId rightId =>
    have own := frame nofun
    refine (follows_child own leftId).bind fun middle _ left more _ => ?_
    refine (follows_child (more.1 own) rightId).bind fun last _ right _ _ => ?_
    exact follows_outcome (op.outcome_apply left right)
  | branch condition thenBranch elseBranch =>
    have own := frame nofun
    refine (follows_child own condition).bind fun middle next value more _ => ?_
    have holds : Follows licence middle next (fun _ => ofResult value.holds) fun _ _ _ => True :=
      follows_ofResult (reads_of_lossless value.lossless_holds fun _ _ => trivial)
    refine holds.bind fun later _ chosen further _ => ?_
    have inner := (more.trans further).1 own
    cases chosen with
    | true => exact follows_child inner thenBranch
    | false =>
      cases elseBranch with
      | some elseBranch => exact follows_child inner elseBranch
      | none => exact follows_pure (void _)
  | declare name tag valueId =>
    have own := frame nofun
    refine (follows_child own valueId).bind fun middle next value more has => ?_
    have checked : Follows licence middle next
        (fun _ => ofResult (checkTag (setting.text name) tag value)) fun _ _ _ => True :=
      follows_ofResult (reads_of_lossless (lossless_checkTag _ _ _) fun _ _ => trivial)
    refine checked.bind fun later _ _ further _ => ?_
    exact (follows_declare setting (has.mono further) ((more.trans further).1 own) name).bind
      fun _ _ _ _ _ => follows_pure (void _)
  | assign name valueId =>
    refine (follows_child (frame nofun) valueId).bind fun middle _ value more has => ?_
    exact (follows_assign setting has (more.2.1 known) name).bind fun _ _ _ _ _ =>
      follows_pure (void _)
  | function name params body =>
    have has : hold.Has
        (.function ⟨some name, code.paramList params, body, scope, program⟩) :=
      Holding.has_function_iff.2 known
    exact (follows_declare setting has (frame nofun) name).bind fun _ _ _ more _ =>
      follows_pure (has.mono more)
  | call calleeName args =>
    have own := frame nofun
    refine (follows_readName setting known calleeName).bind fun middle _ callee more held => ?_
    cases callee.isCallable with
    | true =>
      refine (follows_arguments (more.1 own) args).bind fun last _ values further has => ?_
      exact follows_callAny setting has hosts (held.mono further)
    | false => exact follows_fail nofun
  | classDecl id =>
    have declared : Follows licence hold state (fun _ => existing (code.classDecl? id))
        fun _ _ _ => True := follows_existing fun _ _ => trivial
    refine declared.bind fun middle _ decl more _ => ?_
    have has : middle.Has (.classObject (.ofDecl decl scope program)) :=
      Holding.has_classObject_iff.2 (more.2.1 known)
    exact (follows_declare setting has (more.1 (frame nofun)) decl.name).bind
      fun _ _ _ further _ => follows_pure (has.mono further)
  | construct ownerName args =>
    exact (follows_construct (frame nofun) ownerName args).mono fun _ _ _ _ both => both.1
  | methodCall receiverId methodName args =>
    have own := frame nofun
    refine (follows_child own receiverId).bind fun first _ value more has => ?_
    refine (follows_expectObject has).bind fun second _ receiver further held => ?_
    refine (follows_findMethod setting held methodName).bind fun third _ method later inside => ?_
    have reached := (more.trans further).trans later
    refine (follows_arguments (reached.1 own) args).bind fun last _ values final all => ?_
    exact follows_callClosure setting (final.2.1 inside) all
  | field receiverId name =>
    refine (follows_child (frame nofun) receiverId).bind fun first _ value _ has => ?_
    refine (follows_expectObject has).bind fun second _ receiver _ held => ?_
    exact follows_readField setting held name
  | array elements =>
    exact (follows_arguments (frame nofun) elements).bind fun _ _ _ _ all =>
      follows_pure (Holding.has_array_iff.2 all)
  | index receiverId positionId =>
    have own := frame nofun
    refine (follows_child own receiverId).bind fun middle _ receiver more has => ?_
    refine (follows_child (more.1 own) positionId).bind fun last _ position further _ => ?_
    refine follows_ofResult (reads_of_lossless (receiver.lossless_element position)
      fun item found => ?_)
    have held := has.mono further
    exact ⟨fun handle inner => held.handles handle (Value.handles_element found inner),
      fun target inner => held.locations target (Value.references_element found inner)⟩
  | lambda param body => exact follows_pure (Holding.has_function_iff.2 known)
  | reference name => exact follows_referTo setting known name
  | assignThrough name valueId =>
    refine (follows_heldReference setting known name).bind fun middle _ first more held => ?_
    refine (follows_child (more.1 (frame nofun)) valueId).bind fun last _ value further has => ?_
    exact (follows_writeThrough setting has (held.mono further)).bind fun _ _ _ _ _ =>
      follows_pure (void _)

/-- A step on a node that exists is the step on its kind, with the span of the node. -/
theorem step_node {evaluate : Evaluator} {id : NodeId} {node : Node}
    (hasCode : setting.program? program = some code) (hasNode : code.node? id = some node) :
    step setting host evaluate (.node program id scope) =
      located node.span (stepKind setting host evaluate ⟨program, code, scope⟩ node.kind) := by
  simp only [step, hasCode, existing, pure_bind, hasNode]

/-- A step on a node that does not exist stops. -/
theorem step_missing {evaluate : Evaluator} {id : NodeId}
    (missing : setting.kind? program id = none) (state : State) :
    step setting host evaluate (.node program id scope) state = .error .missing state := by
  cases hasCode : setting.program? program with
  | none =>
    simp only [step, hasCode, existing]
    rfl
  | some code =>
    have hasNode : code.node? id = none := by
      rw [Setting.kind?, hasCode, Option.bind_some] at missing
      exact Option.map_eq_none_iff.1 missing
    simp only [step, hasCode, existing, pure_bind, hasNode]
    rfl

/-- A node whose kind is known exists. -/
theorem exists_node_of_kind? {id : NodeId} {kind : NodeKind}
    (hasKind : setting.kind? program id = some kind) :
    ∃ code node, setting.program? program = some code ∧ code.node? id = some node ∧
      node.kind = kind := by
  obtain ⟨code, hasCode, inside⟩ := Option.bind_eq_some_iff.1 hasKind
  obtain ⟨node, hasNode, same⟩ := Option.map_eq_some_iff.1 inside
  exact ⟨code, node, hasCode, hasNode, same⟩

/-- A step on a node follows as the step on its kind does. -/
theorem follows_node {id : NodeId} {fits : Holding → State → Value → Prop}
    (kinds : ∀ code kind, setting.kind? program id = some kind →
      Follows licence hold state
        (fun evaluate => stepKind setting host evaluate ⟨program, code, scope⟩ kind) fits) :
    Follows licence hold state
      (fun evaluate => step setting host evaluate (.node program id scope)) fits := by
  cases hasKind : setting.kind? program id with
  | none =>
    have stops : Follows licence hold state (fun _ => (throw .missing : Eval Value)) fits :=
      follows_throw fun reclaimed => reclaimed
    exact stops.congr fun _ => step_missing hasKind state
  | some kind =>
    obtain ⟨code, node, hasCode, hasNode, rfl⟩ := exists_node_of_kind? hasKind
    refine ((kinds code node.kind hasKind).located node.span).congr fun _ => ?_
    rw [step_node hasCode hasNode]

end Step

/-- One step on a task follows, from what the task gives. -/
theorem follows_step (hosts : host.Follows licence setting) (task : Task) (state : State) :
    Follows licence (.ofTask setting task) state (fun evaluate => step setting host evaluate task)
      fun last _ value => last.Has value := by
  cases task with
  | node program id scope =>
    refine follows_node fun code kind hasKind => ?_
    refine follows_stepKind hosts (List.mem_singleton_self scope) kind fun noBlock => ⟨rfl, ?_⟩
    intro body
    rw [hasKind]
    exact fun same => noBlock body (Option.some.inj same)
  | call callee args =>
    obtain ⟨held, all⟩ := List.forall_mem_cons.1 (Holding.has_ofTask_call setting callee args)
    exact follows_callAny setting all hosts held

end Eval

/-- The host makes up no references: its answers refer to what the arguments refer to. -/
def Reply.Composes (reply : Reply) : Prop :=
  ∀ entry args, ∀ target ∈ (reply.answer entry args).references,
    target ∈ args.flatMap Value.references

namespace Eval

variable {licence : Licence} {hold : Holding} {state : State}

/-- Where references may be made up, known scopes can be referred to under all names. -/
theorem exists_course_refers (forges : licence.forges) (evaluate : Evaluator)
    (targets : List Location) (known : ∀ target ∈ targets, target.scope ∈ hold.handles) :
    ∃ last, Course licence evaluate hold state [] last state ∧
      ∀ target ∈ targets, target ∈ last.locations := by
  induction targets generalizing hold with
  | nil => exact ⟨hold, .done, by simp⟩
  | cons target targets ih =>
    obtain ⟨knownHere, knownThere⟩ := List.forall_mem_cons.1 known
    obtain ⟨last, course, all⟩ := @ih (hold.addLocation target) knownThere
    refine ⟨last, .deed (.refers knownHere (Or.inl forges)) course, ?_⟩
    exact List.forall_mem_cons.2 ⟨course.le.2.2 (Set.mem_insert _ _), all⟩

/-- An answer to arguments in hand follows. -/
theorem follows_answer {reply : Reply} (allowed : licence.forges ∨ reply.Composes) (entry : String)
    {args : List Value} (has : ∀ arg ∈ args, hold.Has arg) :
    Follows licence hold state (fun _ => (pure (reply.answer entry args) : Eval Value))
      fun last _ value => last.Has value := by
  have known : ∀ handle ∈ (reply.answer entry args).handles, handle ∈ hold.handles := by
    intro handle held
    obtain ⟨arg, listed, inner⟩ := List.mem_flatMap.1 (reply.handles_answer held)
    exact (has arg listed).handles handle inner
  rcases allowed with forges | composes
  · refine follows_own fun evaluate => ?_
    obtain ⟨last, course, all⟩ := @exists_course_refers licence hold state forges evaluate
      (reply.answer entry args).references fun target referred =>
        known _ (Value.scope_mem_handles referred)
    refine ⟨last, course, ?_, ?_⟩
    · rintro _ _ ⟨⟩
      exact ⟨fun handle held => course.le.2.1 (known handle held), all⟩
    · rintro _ _ ⟨⟩
  · refine follows_pure ⟨known, fun target referred => ?_⟩
    obtain ⟨arg, listed, inner⟩ := List.mem_flatMap.1 (composes entry args target referred)
    exact (has arg listed).locations target inner

/-- A collection that reclaims no slot in its last generation follows where it is allowed. -/
theorem follows_collect (allowed : licence.collects) (setting : Setting) {roots : List Value}
    (lasting : state.scopes.wrapsOn (setting.rootHandles roots) = false) :
    Follows licence hold state (fun _ => collect setting roots) fun _ _ _ => True := by
  refine follows_own fun _ => ⟨hold, .deed (.collects allowed lasting) .done,
    fun _ _ _ => trivial, ?_⟩
  rintro _ _ ⟨⟩

end Eval

namespace Host

variable {licence : Eval.Licence} {reply : Reply}

/-- A quiet host follows. -/
theorem quiet_follows (allowed : licence.forges ∨ reply.Composes) (setting : Setting) :
    Host.Follows licence setting (quiet reply) :=
  fun entry _ _ _ has => Eval.follows_answer allowed entry has

/-- A watched host follows where collections are allowed. -/
theorem watched_follows (collects : licence.collects) (allowed : licence.forges ∨ reply.Composes)
    (plan : Plan) (setting : Setting) : Host.Follows licence setting (watched plan reply) := by
  intro entry hold state args has
  cases wraps : planWraps plan entry setting args state with
  | true =>
    refine (Eval.follows_throw (id : ¬ Stop.exhausted.IsReclaimed)).congr fun _ => ?_
    exact if_pos wraps
  | false =>
    have unwatched : ∀ evaluate : Evaluator,
        watched plan reply entry setting (fun callee args => evaluate (.call callee args)) args
            state =
          collecting plan reply entry setting (fun callee args => evaluate (.call callee args)) args
            state :=
      fun _ => if_neg (Bool.eq_false_iff.1 wraps)
    cases planned : plan entry setting state args with
    | none =>
      refine (Eval.follows_answer allowed entry has).congr fun evaluate => ?_
      rw [unwatched, collecting, planned]
      rfl
    | some roots =>
      have lasting : state.scopes.wrapsOn (setting.rootHandles roots) = false := by
        rw [planWraps, planned, Option.any_some] at wraps
        exact wraps
      refine ((Eval.follows_collect collects setting lasting).bind fun later _ _ more _ =>
        Eval.follows_answer allowed entry fun arg listed => (has arg listed).mono more).congr
        fun evaluate => ?_
      rw [unwatched, collecting, planned]

end Host

namespace Eval

/-- Relation between two moments of an evaluation, with what is in hand at each. -/
abbrev Passage := Holding → State → Holding → State → Prop

/-- The relation holds along deeds and, if it does along inner evaluations, along whole courses. -/
structure Conserves (licence : Licence) (setting : Setting) (passage : Passage) : Prop where
  /-- It holds where nothing is done. -/
  done : ∀ hold state, passage hold state hold state
  /-- It holds along what is done in sequence. -/
  trans : ∀ {first second third : Holding} {begun middle final : State},
    passage first begun second middle → passage second middle third final →
      passage first begun third final
  /-- It holds along deeds. -/
  deed : ∀ {hold last : Holding} {state final : State},
    Deed licence hold state last final → passage hold state last final
  /-- It holds around an inner evaluation along which it holds. -/
  ask : ∀ {hold : Holding} {task : Task} {state final : State}
    {outcome : EStateM.Result Stop State Value}, hold.Admits task →
      passage (.ofTask setting task) state ((Holding.ofTask setting task).learn outcome) final →
        passage hold state (hold.learn outcome) final
  /-- It holds when something is put out of hand. -/
  forget : ∀ {hold last less : Holding} {state final : State},
    passage hold state last final → less ≤ last → passage hold state less final

namespace Conserves

variable {licence : Licence} {setting : Setting} {passage : Passage} {host : Host}
  (conserves : Conserves licence setting passage)
include conserves

/-- What an evaluator conserves is conserved along courses over it. -/
theorem course {evaluate : Evaluator} {hold last : Holding} {state final : State} {asks : List Ask}
    (inner : ∀ task state, passage (.ofTask setting task) state
      ((Holding.ofTask setting task).learn (evaluate task state)) ((evaluate task).after state))
    (course : Course licence evaluate hold state asks last final) :
    passage hold state last final := by
  induction course with
  | done => exact conserves.done _ _
  | deed first _ ih => exact conserves.trans (conserves.deed first) ih
  | ask admitted _ ih => exact conserves.trans (conserves.ask admitted (inner _ _)) ih

/-- What an evaluator conserves is conserved up to every ask of a course over it. -/
theorem ask_of_mem {evaluate : Evaluator} {hold last : Holding} {state final : State}
    {asks : List Ask}
    (inner : ∀ task state, passage (.ofTask setting task) state
      ((Holding.ofTask setting task).learn (evaluate task state)) ((evaluate task).after state))
    (course : Course licence evaluate hold state asks last final) {ask : Ask} (listed : ask ∈ asks) :
    ∃ middle : Holding, middle.Admits ask.task ∧ passage hold state middle ask.start := by
  induction course with
  | done => exact absurd listed List.not_mem_nil
  | deed first _ ih =>
    obtain ⟨middle, admitted, passed⟩ := ih listed
    exact ⟨middle, admitted, conserves.trans (conserves.deed first) passed⟩
  | ask admitted _ ih =>
    rcases List.mem_cons.1 listed with rfl | later
    · exact ⟨_, admitted, conserves.done _ _⟩
    · obtain ⟨middle, admittedLater, passed⟩ := ih later
      exact ⟨middle, admittedLater,
        conserves.trans (conserves.ask admitted (inner _ _)) passed⟩

/-- What deeds conserve is conserved by runs of every depth. -/
theorem run (hosts : host.Follows licence setting) (depth : Nat) (task : Task) (state : State) :
    passage (.ofTask setting task) state
      ((Holding.ofTask setting task).learn (Eval.run setting host depth task state))
      ((Eval.run setting host depth task).after state) := by
  induction depth generalizing task state with
  | zero => exact conserves.done _ _
  | succ depth ih =>
    obtain ⟨asks, last, account⟩ := follows_step hosts task state (Eval.run setting host depth)
    refine conserves.forget (conserves.course ih account.course) ?_
    exact Holding.learn_le account.course.le account.result

/-- What deeds conserve is conserved by work over runs, and its result fits what is then in hand. -/
theorem follows {α : Type} {hold : Holding} {state : State} {work : Evaluator → Eval α}
    {fits : Holding → State → α → Prop} (hosts : host.Follows licence setting) (depth : Nat)
    (follows : Follows licence hold state work fits) :
    ∃ last, hold ≤ last ∧
      passage hold state last ((work (Eval.run setting host depth)).after state) ∧
      ∀ value final, work (Eval.run setting host depth) state = .ok value final →
        fits last final value := by
  obtain ⟨asks, last, account⟩ := follows (Eval.run setting host depth)
  exact ⟨last, account.course.le, conserves.course (conserves.run hosts depth) account.course,
    account.result⟩

end Conserves

end Eval

end ScopeMachine
