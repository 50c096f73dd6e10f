import ScopeMachine.Proofs.Evaluation.Step
import ScopeMachine.Proofs.Home.Homely
import ScopeMachine.Proofs.Home.Walk

/-!
# Walks track evaluations

A walk from a program tracks an evaluation if, whenever all values in the scopes are at home, it ends
in the same way and in the same state, in the program that it started from, not because something is
missing, and with values that are at home again. One step of a walk tracks one step of the evaluation
whose tasks name their program, given that walks further down do; so do whole walks.

Whatever the scopes hold, a walk ends in the program that it started from.
-/

namespace ScopeMachine

namespace Routine

/-- A routine hands over only what is made of given values, of results of its calls and of values that
it has seen bound in scopes. -/
def Honest : (Value → Prop) → Routine → Prop
  | given, answer value => value.MadeOf given
  | _, fail _ => True
  | given, call callee args next =>
    callee.MadeOf given ∧ (∀ arg ∈ args, arg.MadeOf given) ∧
      (∀ failure, (next (.error failure)).Honest given) ∧
      ∀ result, (next (.ok result)).Honest fun value => given value ∨ value = result
  | given, resolve value next =>
    value.MadeOf given ∧ (∀ failure, (next (.error failure)).Honest given) ∧
      ∀ result, (next (.ok result)).Honest fun value => given value ∨ value = result
  | given, collect _ next => ∀ occupancy, (next occupancy).Honest given
  | given, look next =>
    ∀ state : State, (next state).Honest fun value => given value ∨ state.scopes.Holds value
  | given, print _ next => next.Honest given

end Routine

/-- The entries of a host hand over only what is made of what they have been given or have seen. -/
def Routines.Honest (routines : Routines) : Prop :=
  ∀ entry setting args, (routines entry setting args).Honest (· ∈ args)

namespace Walk

variable {α β : Type} {setting : Setting} {program : ProgramId}

/-- A walk has ended in a program as an evaluation has: with a good result, or not for something that
is missing, and among values at home. -/
inductive Beside (setting : Setting) (program : ProgramId) (good : α → Prop) :
    EStateM.Result Stop Situation α → EStateM.Result Stop State α → Prop where
  /-- Both have the same result. -/
  | ok {value : α} {state : State} (fit : good value) (home : state.AtHome setting) :
    Beside setting program good (.ok value ⟨state, program⟩) (.ok value state)
  /-- Both have stopped for the same reason. -/
  | error {stop : Stop} {state : State} (present : stop ≠ .missing) (home : state.AtHome setting) :
    Beside setting program good (.error stop ⟨state, program⟩) (.error stop state)

/-- Among values at home a walk from a program ends as an evaluation does. -/
def Tracks (setting : Setting) (program : ProgramId) (good : α → Prop) (walk : Walk α)
    (plain : Eval α) : Prop :=
  ∀ state : State, state.AtHome setting →
    Beside setting program good (walk ⟨state, program⟩) (plain state)

/-- In a program a walk changes nothing and has a result. -/
def Finds (program : ProgramId) (walk : Walk α) (value : α) : Prop :=
  ∀ state, walk ⟨state, program⟩ = .ok value ⟨state, program⟩

section Combinators

variable {good : α → Prop} {fine : β → Prop}

/-- A good result is tracked. -/
theorem tracks_pure {value : α} (fit : good value) :
    Tracks setting program good (pure value) (pure value) := fun _ home => .ok fit home

/-- What needs no program is tracked if it is homely. -/
theorem tracks_own {plain : Eval α} (homely : Eval.Homely setting good plain) :
    Tracks setting program good (own plain) plain := by
  intro state home
  obtain ⟨results, stops⟩ := homely state home
  unfold own
  cases ended : plain state with
  | ok value final =>
    obtain ⟨fit, finalHome⟩ := results value final ended
    exact .ok fit finalHome
  | error stop final =>
    obtain ⟨present, finalHome⟩ := stops stop final ended
    exact .error present finalHome

/-- Walks track evaluations in sequence. -/
theorem Tracks.bind {first : Walk α} {plain : Eval α} {next : α → Walk β} {rest : α → Eval β}
    (opening : Tracks setting program good first plain)
    (continued : ∀ value, good value → Tracks setting program fine (next value) (rest value)) :
    Tracks setting program fine (first >>= next) (plain >>= rest) := by
  intro state home
  have begun := opening state home
  change Beside setting program fine (EStateM.bind first next ⟨state, program⟩)
    (EStateM.bind plain rest state)
  unfold EStateM.bind
  generalize first ⟨state, program⟩ = walked at begun ⊢
  generalize plain state = ended at begun ⊢
  cases begun with
  | ok fit middle => exact continued _ fit _ middle
  | error present middle => exact .error present middle

/-- A lookup that finds something can be left out on the other side. -/
theorem Finds.bind {first : Walk α} {value : α} {next : α → Walk β} {plain : Eval β}
    (found : Finds program first value) (continued : Tracks setting program fine (next value) plain) :
    Tracks setting program fine (first >>= next) plain := by
  intro state home
  have begun := continued state home
  change Beside setting program fine (EStateM.bind first next ⟨state, program⟩) (plain state)
  unfold EStateM.bind
  rw [found state]
  exact begun

/-- One lookup after another finds something. -/
theorem Finds.next {first : Walk α} {value : α} {next : α → Walk β} {result : β}
    (found : Finds program first value) (continued : Finds program (next value) result) :
    Finds program (first >>= next) result := by
  intro state
  change EStateM.bind first next ⟨state, program⟩ = _
  unfold EStateM.bind
  rw [found state]
  exact continued state

/-- Lookups for each member of a list find something. -/
theorem finds_each {walk : β → Walk α} {found : β → α} {items : List β}
    (finds : ∀ item ∈ items, Finds program (walk item) (found item)) :
    Finds program (each walk items) (items.map found) := by
  induction items with
  | nil => exact fun _ => rfl
  | cons item items ih =>
    obtain ⟨first, rest⟩ := List.forall_mem_cons.1 finds
    exact first.next ((ih rest).next fun _ => rfl)

/-- Entering another program is tracked from there. -/
theorem Tracks.inside {other : ProgramId} {walk : Walk α} {plain : Eval α}
    (tracks : Tracks setting other good walk plain) :
    Tracks setting program good (inside other walk) plain := by
  intro state home
  have ended := tracks state home
  unfold Walk.inside
  generalize plain state = after at ended ⊢
  change Beside setting other good (walk ⟨state, other⟩) after at ended
  generalize walk ⟨state, other⟩ = walked at ended ⊢
  cases ended with
  | ok fit final => exact .ok fit final
  | error present final => exact .error present final

/-- Giving failures a span is tracked. -/
theorem Tracks.located {walk : Walk α} {plain : Eval α}
    (tracks : Tracks setting program good walk plain) (span : Span) :
    Tracks setting program good (located span walk) (plain.located span) := by
  intro state home
  have ended := tracks state home
  unfold Walk.located Eval.located
  generalize walk ⟨state, program⟩ = walked at ended ⊢
  generalize plain state = after at ended ⊢
  cases ended with
  | ok fit final => exact .ok fit final
  | @error stop _ present final =>
    cases stop with
    | failure failure => exact .error nofun final
    | missing => exact absurd rfl present
    | exhausted => exact .error nofun final

/-- Walks for each member of a list are tracked. -/
theorem tracks_each {walk : β → Walk α} {plain : β → Eval α} {items : List β}
    (tracks : ∀ item ∈ items, Tracks setting program good (walk item) (plain item)) :
    Tracks setting program (fun results => ∀ result ∈ results, good result) (each walk items)
      (Eval.each plain items) := by
  induction items with
  | nil => exact tracks_pure (by simp)
  | cons item items ih =>
    obtain ⟨first, rest⟩ := List.forall_mem_cons.1 tracks
    refine first.bind fun result fit => ?_
    exact (ih rest).bind fun results all => tracks_pure (List.forall_mem_cons.2 ⟨fit, all⟩)

/-- Walks one after the other are tracked. -/
theorem tracks_last {walk : β → Walk α} {plain : β → Eval α} {items : List β} {result : α}
    (fit : good result)
    (tracks : ∀ item ∈ items, Tracks setting program good (walk item) (plain item)) :
    Tracks setting program good (last walk result items) (Eval.last plain result items) := by
  induction items generalizing result with
  | nil => exact tracks_pure fit
  | cons item items ih =>
    obtain ⟨first, rest⟩ := List.forall_mem_cons.1 tracks
    exact first.bind fun next fit => ih fit rest

end Combinators

section Lookups

/-- The current program is the one that a walk starts from. -/
theorem finds_current : Finds program current program := fun _ => rfl

/-- What exists is found. -/
theorem finds_existing {found : Option α} {value : α} (present : found = some value) :
    Finds program (own (Eval.existing found)) value := by
  subst present
  exact fun _ => rfl

variable {code : Program} (hasCode : setting.program? program = some code)
include hasCode

/-- A program that exists is found from everywhere. -/
theorem finds_codeOf (other : ProgramId) : Finds other (codeOf setting program) code :=
  finds_existing hasCode

/-- The current program is found. -/
theorem finds_code : Finds program (Walk.code setting) code := finds_codeOf hasCode program

/-- A child list that belongs to the current program is found. -/
theorem finds_nodes {range : NodeRange} (has : code.HasList range) :
    Finds program (nodes setting range) (code.nodeList range) := by
  refine (finds_code hasCode).next fun state => ?_
  rw [if_pos has]
  rfl

/-- A parameter list that belongs to a program is found from everywhere. -/
theorem finds_paramsOf (other : ProgramId) {range : ParamRange} (has : code.HasParams range) :
    Finds other (paramsOf setting program range) (code.paramList range) := by
  refine (finds_codeOf hasCode other).next fun state => ?_
  rw [if_pos has]
  rfl

end Lookups

/-- Walks of nodes that belong to their program and calls of values at home are tracked. -/
structure Alongside (setting : Setting) (walker : Walker) (evaluate : Evaluator) : Prop where
  /-- Nodes are tracked from their program. -/
  node : ∀ {program : ProgramId} {id : NodeId} {code : Program},
    setting.program? program = some code → code.HasNode id → ∀ scope,
    Tracks setting program (Value.AtHome setting) (walker (.node id scope))
      (evaluate (.node program id scope))
  /-- Calls are tracked from everywhere. -/
  call : ∀ (program : ProgramId) {callee : Value} {args : List Value}, callee.AtHome setting →
    (∀ arg ∈ args, arg.AtHome setting) →
    Tracks setting program (Value.AtHome setting) (walker (.call callee args))
      (evaluate (.call callee args))

section Calls

variable {walker : Walker} {evaluate : Evaluator} (alongside : Alongside setting walker evaluate)
  {args : List Value} (home : ∀ arg ∈ args, arg.AtHome setting)
include alongside home

/-- Calls of functions at home are tracked. -/
theorem tracks_callClosure (closed : setting.Closed) {function : Closure}
    (atHome : function.AtHome setting) :
    Tracks setting program (Value.AtHome setting) (callClosure setting walker function args)
      (Eval.callClosure setting evaluate function args) := by
  obtain ⟨code, hasCode, declared⟩ := atHome
  have body := declared.hasNode (closed _ code hasCode)
  refine (tracks_own (Eval.homely_checkArity _ _ _)).bind fun _ _ => ?_
  refine (tracks_own Eval.homely_scopes).bind fun store _ => ?_
  split
  · refine (tracks_own (Eval.homely_allocate _)).bind fun frame _ => ?_
    have bound : Eval.Homely setting (fun _ => True)
        (Eval.update (fun _ => .failure .reclaimedScope) fun store =>
          store.setAll frame (function.params.zip args)) := by
      refine Eval.homely_update (fun _ => nofun) fun store after held written bound => ?_
      rcases Store.holds_of_setAll written bound with ⟨name, listed⟩ | earlier
      · exact Or.inl (home held (List.of_mem_zip listed).2)
      · exact Or.inr earlier
    exact (tracks_own bound).bind fun _ _ => (alongside.node hasCode body frame).inside
  · exact tracks_own (Eval.homely_fail _)

/-- Calls on the elements of an array are tracked. -/
theorem tracks_callMap :
    Tracks setting program (Value.AtHome setting) (callMap walker args)
      (Eval.callMap (fun callee args => evaluate (.call callee args)) args) := by
  match args, home with
  | [callee, collection], home =>
    have calleeHome := home callee (by simp)
    have collectionHome := home collection (by simp)
    by_cases callable : callee.isCallable = true
    · simp only [callMap, Eval.callMap, if_pos callable]
      cases collectionHome with
      | @array items all =>
        have calls : ∀ item ∈ items, Tracks setting program (Value.AtHome setting)
            (walker (.call callee [item])) (evaluate (.call callee [item])) := fun item listed =>
          alongside.call program calleeHome (by simpa using all item listed)
        exact (tracks_each calls).bind fun results all => tracks_pure (Value.AtHome.array all)
      | _ => exact tracks_own (Eval.homely_fail _)
    · simp only [callMap, Eval.callMap, if_neg callable]
      exact tracks_own (Eval.homely_fail _)
  | [], _ | [_], _ | _ :: _ :: _ :: _, _ => exact tracks_own (Eval.homely_fail _)

end Calls

section Hosts

variable {walker : Walker} {evaluate : Evaluator} (alongside : Alongside setting walker evaluate)
include alongside

/-- A routine that hands over only what is made of values at home is tracked. -/
theorem tracks_perform {routine : Routine} {given : Value → Prop} (honest : routine.Honest given)
    (home : ∀ value, given value → value.AtHome setting) :
    Tracks setting program (Value.AtHome setting)
      (routine.perform setting own fun callee args => walker (.call callee args))
      (routine.perform setting (fun evaluation => evaluation) fun callee args =>
        evaluate (.call callee args)) := by
  induction routine generalizing given with
  | answer value => exact tracks_pure (honest.atHome home)
  | fail failure => exact tracks_own (Eval.homely_fail failure)
  | call callee args next ih =>
    obtain ⟨calleeMade, argsMade, failed, answered⟩ := honest
    have calls := alongside.call program (calleeMade.atHome home)
      fun arg listed => (argsMade arg listed).atHome home
    intro state stateHome
    have ended := calls state stateHome
    simp only [Routine.perform, Routine.attempt]
    generalize walker (.call callee args) ⟨state, program⟩ = walked at ended ⊢
    generalize evaluate (.call callee args) state = plain at ended ⊢
    cases ended with
    | @ok result final fit finalHome =>
      refine ih (.ok result) (answered result) ?_ final finalHome
      rintro value (known | rfl)
      · exact home value known
      · exact fit
    | @error stop final present finalHome =>
      cases stop with
      | failure failure => exact ih (.error failure) (failed failure) home final finalHome
      | missing => exact absurd rfl present
      | exhausted => exact .error nofun finalHome
  | resolve value next ih =>
    obtain ⟨made, failed, answered⟩ := honest
    refine (tracks_own Eval.homely_scopes).bind fun store held => ?_
    cases found : setting.resolve store value with
    | error failure => exact ih (.error failure) (failed failure) home
    | ok result =>
      refine ih (.ok result) (answered result) ?_
      rintro other (known | rfl)
      · exact home other known
      · rcases Setting.holds_of_follow found with rfl | inside
        · exact made.atHome home
        · exact held _ inside
  | collect roots next ih =>
    refine (tracks_own (Eval.homely_collect roots)).bind fun occupancy _ => ?_
    exact ih occupancy (honest occupancy) home
  | look next ih =>
    have looks : Eval.Homely setting (fun state : State => state.AtHome setting)
        (fun state => .ok state state) := by
      refine fun state stateHome => ⟨?_, nofun⟩
      rintro _ _ ⟨⟩
      exact ⟨stateHome, stateHome⟩
    refine (tracks_own looks).bind fun state stateHome => ?_
    refine ih state (honest state) ?_
    rintro value (known | held)
    · exact home value known
    · exact stateHome value held
  | print text next ih =>
    exact (tracks_own (Eval.homely_write _)).bind fun _ _ => ih honest home

variable {routines : Routines} (honest : routines.Honest) (closed : setting.Closed)
include honest closed

/-- Calls of values at home are tracked. -/
theorem tracks_callAny {callee : Value} (calleeHome : callee.AtHome setting) {args : List Value}
    (home : ∀ arg ∈ args, arg.AtHome setting) :
    Tracks setting program (Value.AtHome setting) (callAny setting routines walker callee args)
      (Eval.callAny setting (.ofRoutines routines) evaluate callee args) := by
  cases calleeHome with
  | function atHome => exact tracks_callClosure alongside home closed atHome
  | native native =>
    obtain ⟨name, role⟩ := native
    cases role with
    | map => exact tracks_callMap alongside home
    | len => exact tracks_own (Eval.homely_callLen args)
    | print => exact tracks_own (Eval.homely_callPrint _ _ args)
    | println => exact tracks_own (Eval.homely_callPrint _ _ args)
    | host entry => exact tracks_perform alongside (honest entry setting args) home
  | _ => exact tracks_own (Eval.homely_fail _)

end Hosts

section Objects

variable {walker : Walker} {evaluate : Evaluator} (alongside : Alongside setting walker evaluate)
include alongside

/-- Filling fields of a class at home is tracked. -/
theorem tracks_fillFields {owner : ClassObject} {code : Program}
    (hasCode : setting.program? owner.program = some code) (storage : Handle)
    {fields : List FieldDecl} (within : ∀ field ∈ fields, field.Within code) {values : List Value}
    (home : ∀ value ∈ values, value.AtHome setting) :
    Tracks setting program (fun _ => True) (fillFields setting walker owner storage fields values)
      (Eval.fillFields setting evaluate owner storage fields values) := by
  induction fields generalizing values with
  | nil =>
    rw [fillFields, Eval.fillFields]
    exact tracks_pure trivial
  | cons field fields ih =>
    obtain ⟨first, rest⟩ := List.forall_mem_cons.1 within
    cases values with
    | cons value values =>
      obtain ⟨valueHome, valuesHome⟩ := List.forall_mem_cons.1 home
      rw [fillFields, Eval.fillFields]
      have checked : Eval.Homely setting (fun _ => True)
          (Eval.ofResult (checkTag (setting.text field.name) field.tag value)) :=
        Eval.homely_ofResult fun _ _ => trivial
      refine (tracks_own checked).bind fun _ _ => ?_
      exact (tracks_own (Eval.homely_declare storage field.name valueHome)).bind fun _ _ =>
        ih rest valuesHome
    | nil =>
      rw [fillFields, Eval.fillFields]
      have omitted : Tracks setting program (Value.AtHome setting)
          (omittedField walker owner storage field)
          (Eval.omittedField evaluate owner storage field) := by
        cases has : field.default with
        | some default =>
          simp only [omittedField, Eval.omittedField, has]
          refine (tracks_own (Eval.homely_allocate _)).bind fun scope _ => ?_
          exact (alongside.node hasCode (first default has) scope).inside
        | none =>
          simp only [omittedField, Eval.omittedField, has]
          exact tracks_pure (Value.atHome_blankFor field.tag)
      refine omitted.bind fun value valueHome => ?_
      exact (tracks_own (Eval.homely_declare storage field.name valueHome)).bind fun _ _ =>
        ih rest home

omit alongside in
/-- The methods of a class at home are found. -/
theorem finds_bindMethods {owner : ClassObject} {code : Program}
    (hasCode : setting.program? owner.program = some code) (storage : Handle)
    (within : ∀ method ∈ owner.methods.values, method.Within code) :
    Finds program (bindMethods setting owner storage)
      (owner.methods.mapValues (Eval.bindMethod code owner storage)) := by
  have entries : Finds program
      (each (fun entry : Symbol × MethodDecl => do
        let params ← paramsOf setting owner.program entry.2.params
        pure (entry.1, Closure.mk (some entry.2.name) params entry.2.body storage owner.program))
        owner.methods.entries)
      (owner.methods.entries.map fun entry =>
        (entry.1, Eval.bindMethod code owner storage entry.2)) := by
    refine finds_each fun entry listed => ?_
    have inside : entry.2.Within code := within entry.2 (List.mem_map_of_mem listed)
    exact (finds_paramsOf hasCode program inside.1).next fun _ => rfl
  exact entries.next fun _ => rfl

/-- Making an object of a class at home is tracked. -/
theorem tracks_makeObject (closed : setting.Closed) {owner : ClassObject}
    (atHome : owner.AtHome setting) {values : List Value} (home : ∀ value ∈ values, value.AtHome setting) :
    Tracks setting program (Value.AtHome setting) (makeObject setting walker owner values)
      (Eval.makeObject setting evaluate owner values) := by
  have ownerHome := atHome
  obtain ⟨code, id, decl, hasCode, found, isDecl⟩ := atHome
  have within := (closed _ code hasCode).classes id decl found
  have listed : ∀ method ∈ owner.methods.values, method ∈ decl.methods := fun method held =>
    ClassObject.mem_of_mem_methods (isDecl ▸ held)
  have fields : ∀ field ∈ owner.fields, field.Within code := by
    rw [isDecl]
    exact within.fields
  refine (tracks_own (Eval.homely_allocate _)).bind fun storage _ => ?_
  refine (tracks_fillFields alongside hasCode storage fields home).bind fun _ _ => ?_
  refine (finds_bindMethods hasCode storage fun method held =>
    within.methods method (listed method held)).bind ?_
  simp only [hasCode, Eval.existing, pure_bind]
  refine tracks_pure (.object ownerHome fun bound held => ?_)
  rw [SymbolMap.values_mapValues] at held
  obtain ⟨method, inside, rfl⟩ := List.mem_map.1 held
  exact ⟨code, hasCode, .method found (listed method inside)⟩

end Objects

section Steps

variable {walker : Walker} {evaluate : Evaluator} (alongside : Alongside setting walker evaluate)
  (closed : setting.Closed) {code : Program} (hasCode : setting.program? program = some code)
include alongside closed hasCode

/-- Evaluating a child list of the current program is tracked. -/
theorem tracks_arguments (scope : Handle) {range : NodeRange} (has : code.HasList range) :
    Tracks setting program (fun values => ∀ value ∈ values, value.AtHome setting)
      (arguments setting walker scope range) (Eval.arguments evaluate ⟨program, code, scope⟩ range) :=
  (finds_nodes hasCode has).bind
    (tracks_each fun _ listed =>
      alongside.node hasCode ((closed _ code hasCode).hasNode_of_mem listed) scope)

variable {routines : Routines} (honest : routines.Honest)
include honest

/-- One step on a node of the current program is tracked. -/
theorem tracks_stepKind (scope : Handle) {position : NodeId} {kind : NodeKind} {span : Span}
    (found : code.node? position = some ⟨kind, span⟩) :
    Tracks setting program (Value.AtHome setting) (stepKind setting routines walker scope kind)
      (Eval.stepKind setting (.ofRoutines routines) evaluate ⟨program, code, scope⟩ kind) := by
  have closedCode := closed _ code hasCode
  have within : kind.Within code := closedCode.nodes position _ found
  have child : ∀ {id : NodeId}, code.HasNode id → Tracks setting program (Value.AtHome setting)
      (walker (.node id scope)) (evaluate (.node program id scope)) :=
    fun has => alongside.node hasCode has scope
  cases kind with
  | int value => exact tracks_pure (.int value)
  | float bits => exact tracks_pure (.float _)
  | bool value => exact tracks_pure (.bool value)
  | string text => exact tracks_pure (.string _)
  | read name => exact tracks_own (Eval.homely_readName scope name)
  | binary op left right =>
    refine (child within.1).bind fun leftValue _ => (child within.2).bind fun rightValue _ => ?_
    exact tracks_own (Eval.homely_outcome (op.outcome_apply leftValue rightValue))
  | branch condition thenBranch elseBranch =>
    refine (child within.1).bind fun value _ => ?_
    have decided : Eval.Homely setting (fun _ => True) (Eval.ofResult value.holds) :=
      Eval.homely_ofResult fun _ _ => trivial
    refine (tracks_own decided).bind fun chosen _ => ?_
    cases chosen with
    | true => exact child within.2.1
    | false =>
      cases elseBranch with
      | some elseBranch => exact child (within.2.2 elseBranch rfl)
      | none => exact tracks_pure .void
  | block body =>
    refine (tracks_own (Eval.homely_allocate _)).bind fun inner _ => ?_
    refine (finds_nodes hasCode within).bind (tracks_last .void fun id listed => ?_)
    exact alongside.node hasCode (closedCode.hasNode_of_mem listed) inner
  | declare name tag value =>
    refine (child within).bind fun value home => ?_
    have checked : Eval.Homely setting (fun _ => True)
        (Eval.ofResult (checkTag (setting.text name) tag value)) :=
      Eval.homely_ofResult fun _ _ => trivial
    refine (tracks_own checked).bind fun _ _ => ?_
    exact (tracks_own (Eval.homely_declare scope name home)).bind fun _ _ => tracks_pure .void
  | assign name value =>
    refine (child within).bind fun value home => ?_
    have assigned : Eval.Homely setting (fun _ => True)
        (Eval.update (setting.assignStop name) fun store => store.assign scope name value) := by
      refine Eval.homely_update (Eval.assignStop_ne_missing setting name) fun _ _ held written bound => ?_
      rcases Store.holds_of_assign written bound with rfl | earlier
      · exact Or.inl home
      · exact Or.inr earlier
    exact (tracks_own assigned).bind fun _ _ => tracks_pure .void
  | function name params body =>
    have home : (Value.function
        ⟨some name, code.paramList params, body, scope, program⟩).AtHome setting :=
      .function ⟨code, hasCode, .named found⟩
    refine finds_current.bind ((finds_paramsOf hasCode program within.1).bind ?_)
    exact (tracks_own (Eval.homely_declare scope name home)).bind fun _ _ => tracks_pure home
  | call callee args =>
    refine (tracks_own (Eval.homely_readName scope callee)).bind fun callee calleeHome => ?_
    split
    · refine (tracks_arguments alongside closed hasCode scope within).bind fun values home => ?_
      exact tracks_callAny alongside honest closed calleeHome home
    · exact tracks_own (Eval.homely_fail _)
  | classDecl id =>
    obtain ⟨decl, declared⟩ := Program.hasClass_iff.1 within
    have home : (Value.classObject (.ofDecl decl scope program)).AtHome setting :=
      .classObject ⟨code, id, decl, hasCode, declared, rfl⟩
    refine finds_current.bind ((finds_code hasCode).bind ((finds_existing declared).bind ?_))
    simp only [Eval.stepKind, declared, Eval.existing, pure_bind]
    exact (tracks_own (Eval.homely_declare scope decl.name home)).bind fun _ _ => tracks_pure home
  | construct owner args =>
    refine (tracks_own (Eval.homely_readClass scope owner)).bind fun owner ownerHome => ?_
    refine (tracks_own (Eval.homely_checkFieldCount owner _)).bind fun _ _ => ?_
    refine (tracks_arguments alongside closed hasCode scope within).bind fun values home => ?_
    exact tracks_makeObject alongside closed ownerHome home
  | methodCall receiver method args =>
    refine (child within.1).bind fun value valueHome => ?_
    refine (tracks_own (Eval.homely_expectObject valueHome)).bind fun receiver methods => ?_
    refine (tracks_own (Eval.homely_findMethod methods method)).bind fun method methodHome => ?_
    refine (tracks_arguments alongside closed hasCode scope within.2).bind fun values home => ?_
    exact tracks_callClosure alongside home closed methodHome
  | field receiver name =>
    refine (child within).bind fun value valueHome => ?_
    refine (tracks_own (Eval.homely_expectObject valueHome)).bind fun receiver _ => ?_
    exact tracks_own (Eval.homely_readField receiver name)
  | array elements =>
    refine (tracks_arguments alongside closed hasCode scope within).bind fun values home => ?_
    exact tracks_pure (Value.AtHome.array home)
  | index receiver position =>
    refine (child within.1).bind fun receiver home => (child within.2).bind fun position _ => ?_
    exact tracks_own (Eval.homely_element home position)
  | lambda param body =>
    exact finds_current.bind (tracks_pure (.function ⟨code, hasCode, .unnamed found⟩))
  | reference name => exact tracks_own (Eval.homely_referTo scope name)
  | assignThrough name value =>
    refine (tracks_own (Eval.homely_heldReference scope name)).bind fun first _ => ?_
    refine (child within).bind fun value home => ?_
    exact (tracks_own (Eval.homely_writeThrough first home)).bind fun _ _ => tracks_pure .void

end Steps

/-- Walks track evaluations at every depth. -/
theorem alongside_run (closed : setting.Closed) {routines : Routines} (honest : routines.Honest)
    (depth : Nat) :
    Alongside setting (run setting routines depth) (Eval.run setting (.ofRoutines routines) depth) := by
  induction depth with
  | zero => exact ⟨fun _ _ _ _ home => .error nofun home, fun _ _ _ _ _ _ home => .error nofun home⟩
  | succ depth ih =>
    refine ⟨fun {program id code} hasCode hasNode scope => ?_, fun program callee args home all => ?_⟩
    · obtain ⟨node, found⟩ := Program.hasNode_iff.1 hasNode
      have stepped := (tracks_stepKind ih closed hasCode honest scope found).located node.span
      rw [Eval.run_succ, Eval.step_node hasCode found]
      exact (finds_code hasCode).bind ((finds_existing found).bind stepped)
    · exact tracks_callAny ih honest closed home all

end Walk

end ScopeMachine
