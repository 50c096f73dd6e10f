import ScopeMachine.Proofs.Evaluation.Among
import ScopeMachine.Proofs.Evaluation.Sequel

/-!
# Where functions, classes and objects come from

Work that stays among known values asks for inner evaluations among known values only. So in a run
that starts among known values all evaluations, at every depth, do so and yield known values, if
what the making nodes among them make is known. And what a node makes is what it declares: a
function has the parameters and the body of its node, a class is that of its declaration, and an
object comes from a construction.
-/

namespace ScopeMachine

namespace Program

/-- Parameters and body of the function that a node declares. -/
def functionAt? (code : Program) (id : NodeId) : Option (List Symbol × NodeId) :=
  match (code.node? id).map Node.kind with
  | some (.function _ params body) => some (code.paramList params, body)
  | some (.lambda param body) => some ([param], body)
  | _ => none

/-- Class that a node declares. -/
def classAt? (code : Program) (id : NodeId) : Option ClassDecl :=
  match (code.node? id).map Node.kind with
  | some (.classDecl declared) => code.classDecl? declared
  | _ => none

end Program

/-- The node of its program declares the function. -/
def Closure.StemsFrom (setting : Setting) (id : NodeId) (function : Closure) : Prop :=
  ∃ code, setting.program? function.program = some code ∧
    code.functionAt? id = some (function.params, function.body)

/-- The node of its program declares the class. -/
def ClassObject.StemsFrom (setting : Setting) (id : NodeId) (owner : ClassObject) : Prop :=
  ∃ code decl, setting.program? owner.program = some code ∧ code.classAt? id = some decl ∧
    owner = .ofDecl decl owner.scope owner.program

namespace Eval

/-- An ask is given known values and starts among known values. -/
structure Ask.Among (known : Value → Prop) (ask : Ask) : Prop where
  /-- The values that the task is given are known. -/
  task : ask.task.Among known
  /-- The values in the scopes are known. -/
  start : ask.start.Among known

/-- If a value is not among known ones, there is a state that is not. -/
theorem exists_not_among {known : Value → Prop} {value : Value} (strange : ¬ value.Among known) :
    ∃ state : State, ¬ state.Among known := by
  let scope : Scope := ⟨none, SymbolMap.empty.insert .blank value⟩
  refine ⟨⟨⟨#[⟨0, some scope⟩], []⟩, .silent⟩, fun among => strange (among value ?_)⟩
  exact ⟨⟨0, some scope⟩, by simp, scope, rfl, List.mem_singleton_self value⟩

/-- If an ask is not among known values, there is a state that is not. -/
theorem Ask.exists_not_among {known : Value → Prop} {ask : Ask} (strange : ¬ ask.Among known) :
    ∃ state : State, ¬ state.Among known := by
  by_cases start : ask.start.Among known
  · have task : ¬ ask.task.Among known := fun task => strange ⟨task, start⟩
    cases given : ask.task with
    | node program id scope =>
      rw [given] at task
      exact absurd trivial task
    | call callee args =>
      rw [given] at task
      simp only [Task.Among, not_forall] at task
      obtain ⟨value, _, unknown⟩ := task
      exact Eval.exists_not_among unknown
  · exact ⟨ask.start, start⟩

section Dialogues

variable {α : Type} {known : Value → Prop} {work : Evaluator → Eval α} {evaluate : Evaluator}
  {state : State} {asks : List Ask}

/-- Work that stays among known values when evaluators do asks for evaluations among known values
only. -/
theorem Dialogue.among (dialogue : Dialogue work evaluate state asks)
    (stays : ∀ other, Reliable known other → ∀ stop final, work other state = .error stop final →
      final.Among known)
    (answered : ∀ ask ∈ asks, ask.Among known →
      Lands known (Value.Among known) (evaluate ask.task ask.start)) :
    ∀ ask ∈ asks, ask.Among known := by
  classical
  by_contra strange
  obtain all | ⟨earlier, ask, later, split, before, first⟩ :=
    forall_or_exists_first (Ask.Among known) asks
  · exact strange all
  · -- an evaluator that answers the earlier asks, stops at others where they start if they are
    -- among known values, and stops in a strange state if they are not
    obtain ⟨mark, marked⟩ := Ask.exists_not_among first
    let stopping : Evaluator := fun task start =>
      if (⟨task, start⟩ : Ask) ∈ earlier then evaluate task start
      else if (⟨task, start⟩ : Ask).Among known then .error .missing start
      else .error .missing mark
    have reliable : Reliable known stopping := by
      intro task given start among
      have fits : (⟨task, start⟩ : Ask).Among known := ⟨given, among⟩
      by_cases listed : (⟨task, start⟩ : Ask) ∈ earlier
      · have same : stopping task start = evaluate task start := if_pos listed
        rw [same]
        exact answered ⟨task, start⟩ (split ▸ List.mem_append_left _ listed) fits
      · have same : stopping task start = .error .missing start :=
          (if_neg listed).trans (if_pos fits)
        rw [same]
        exact among
    have new : ask ∉ earlier := fun listed => first (before ask listed)
    have stopped : stopping ask.task ask.start = .error .missing mark :=
      (if_neg new).trans (if_neg first)
    obtain ⟨reported, ended⟩ := dialogue.needs earlier ask later split stopping
      (fun prior listed => if_pos listed) .missing mark stopped
    exact marked (stays stopping reliable reported mark ended)

/-- Work that asks for evaluations among known values only is done alike by a reliable evaluator. -/
theorem Dialogue.exists_reliable (dialogue : Dialogue work evaluate state asks)
    (answered : ∀ ask ∈ asks, Lands known (Value.Among known) (evaluate ask.task ask.start)) :
    ∃ other, Reliable known other ∧ work other state = work evaluate state := by
  classical
  let other : Evaluator := fun task start =>
    if (⟨task, start⟩ : Ask) ∈ asks then evaluate task start else .error .missing start
  refine ⟨other, ?_, dialogue.settles other fun ask listed => if_pos listed⟩
  intro task given start among
  by_cases listed : (⟨task, start⟩ : Ask) ∈ asks
  · have same : other task start = evaluate task start := if_pos listed
    rw [same]
    exact answered ⟨task, start⟩ listed
  · have same : other task start = .error .missing start := if_neg listed
    rw [same]
    exact among

end Dialogues

/-- The moment is the end of an evaluation that gives the value. -/
def Moment.Yields (moment : Moment) (value : Value) : Prop :=
  ∃ ask kind final, moment = .ends ask kind (.ok value final)

/-- The moment is the end of an evaluation of a node that makes the value. -/
def Moment.Makes (moment : Moment) (value : Value) : Prop :=
  ∃ ask kind final, kind.makes = true ∧ moment = .ends ask (some kind) (.ok value final)

/-- What evaluations in a list of moments make is known. -/
def MakesKnown (known : Value → Prop) (moments : List Moment) : Prop :=
  ∀ moment ∈ moments, ∀ value, moment.Makes value → value.Among known

/-- What evaluations in a list of moments yield is known. -/
def YieldsKnown (known : Value → Prop) (moments : List Moment) : Prop :=
  ∀ moment ∈ moments, ∀ value, moment.Yields value → value.Among known

/-- Evaluations that are asked for among known values yield known values and end among them, if
what is made on the way is known. -/
def Traces (known : Value → Prop) (transcribes : Ask → List Moment → Prop)
    (evaluate : Evaluator) : Prop :=
  ∀ ask moments, transcribes ask moments → ask.Among known → MakesKnown known moments →
    YieldsKnown known moments ∧ Lands known (Value.Among known) (evaluate ask.task ask.start)

/-- Members of lists that are related member by member have related members. -/
theorem exists_of_forall₂ {α β : Type} {related : α → β → Prop} {lefts : List α} {rights : List β}
    (all : List.Forall₂ related lefts rights) :
    (∀ left ∈ lefts, ∃ right ∈ rights, related left right) ∧
      ∀ right ∈ rights, ∃ left ∈ lefts, related left right := by
  induction all with
  | nil => simp
  | cons first _ ih =>
    simp only [List.forall_mem_cons, List.exists_mem_cons_iff]
    exact ⟨⟨Or.inl first, fun left listed => Or.inr (ih.1 left listed)⟩, Or.inl first,
      fun right listed => Or.inr (ih.2 right listed)⟩

/-- Recorded work over evaluations that yield known values yields known values, and a reliable
evaluator does it alike. -/
theorem Recorded.among {α : Type} {known : Value → Prop} {transcribes : Ask → List Moment → Prop}
    {evaluate : Evaluator} {work : Evaluator → Eval α} {state : State} {moments : List Moment}
    (traces : Traces known transcribes evaluate)
    (recorded : Recorded transcribes evaluate work state moments)
    (stays : ∀ other, Reliable known other → ∀ stop final, work other state = .error stop final →
      final.Among known) (makes : MakesKnown known moments) :
    YieldsKnown known moments ∧
      ∃ other, Reliable known other ∧ work other state = work evaluate state := by
  obtain ⟨asks, parts, _, dialogue, transcribed, rfl⟩ := recorded
  obtain ⟨partOf, askOf⟩ := exists_of_forall₂ transcribed
  have inside : ∀ inner ∈ parts, MakesKnown known inner := fun inner listed moment held =>
    makes moment (List.mem_flatten.2 ⟨inner, listed, held⟩)
  have answered : ∀ ask ∈ asks, ask.Among known →
      Lands known (Value.Among known) (evaluate ask.task ask.start) := by
    intro ask listed among
    obtain ⟨inner, part, transcript⟩ := partOf ask listed
    exact (traces ask inner transcript among (inside inner part)).2
  have among := dialogue.among stays answered
  refine ⟨?_, dialogue.exists_reliable fun ask listed => answered ask listed (among ask listed)⟩
  intro moment held
  obtain ⟨inner, part, held⟩ := List.mem_flatten.1 held
  obtain ⟨ask, listed, transcript⟩ := askOf inner part
  exact (traces ask inner transcript (among ask listed) (inside inner part)).1 moment held

/-- With its beginning and its end an evaluation yields known values, if it does inside and has
landed among known values. -/
theorem YieldsKnown.around {known : Value → Prop} {inner : List Moment}
    (yields : YieldsKnown known inner) (ask : Ask) (kind : Option NodeKind)
    {outcome : EStateM.Result Stop State Value}
    (landed : Lands known (Value.Among known) outcome) :
    YieldsKnown known (.begins ask :: inner ++ [.ends ask kind outcome]) := by
  rintro moment listed value ⟨_, _, final, rfl⟩
  rcases List.mem_append.1 listed with before | last
  · rcases List.mem_cons.1 before with begins | inside
    · cases begins
    · exact yields _ inside value ⟨_, _, final, rfl⟩
  · cases List.mem_singleton.1 last
    exact landed.1

/-- Runs of every depth yield known values and end among them, if what is made on the way is
known. -/
theorem traces_run {known : Value → Prop} {reply : Reply} (honest : reply.Honest) (plan : Plan)
    (setting : Setting) (depth : Nat) :
    Traces known (Transcript setting (.watched plan reply) depth)
      (run setting (.watched plan reply) depth) := by
  induction depth with
  | zero =>
    rintro ask moments rfl among _
    have nothing : YieldsKnown known [] := by simp [YieldsKnown]
    exact ⟨nothing.around ask _ among.start, among.start⟩
  | succ depth ih =>
    rintro ask moments ⟨inner, recorded, rfl⟩ among makes
    have inside : MakesKnown known inner := fun moment held => makes moment (by simp [held])
    have stays : ∀ other, Reliable known other → ∀ stop final,
        step setting (.watched plan reply) other ask.task ask.start = .error stop final →
          final.Among known := by
      intro other reliable stop final stopped
      have landed := lands_step setting reliable honest plan among.task among.start
        fun _ _ _ _ _ ended => nomatch stopped.symm.trans ended
      rw [stopped] at landed
      exact landed
    obtain ⟨yields, other, reliable, same⟩ := recorded.among ih stays inside
    have landed : Lands known (Value.Among known)
        (run setting (.watched plan reply) (depth + 1) ask.task ask.start) := by
      rw [run_succ, ← same]
      refine lands_step setting reliable honest plan among.task among.start ?_
      intro kind hasKind making value final ended
      refine makes _ (List.mem_append_right _ (List.mem_singleton_self _)) value ?_
      exact ⟨ask, kind, final, making, by rw [hasKind, run_succ, ← same, ended]⟩
    exact ⟨yields.around ask _ landed, landed⟩

/-- What a moment brings into being: a function or a class that a node declares, or an object that
has been constructed. -/
inductive Moment.Creates (setting : Setting) (moment : Moment) : Value → Prop where
  /-- A node declares the function. -/
  | function {function : Closure} {id : NodeId} (stems : function.StemsFrom setting id) :
    Creates setting moment (.function function)
  /-- A node declares the class. -/
  | classObject {owner : ClassObject} {id : NodeId} (stems : owner.StemsFrom setting id) :
    Creates setting moment (.classObject owner)
  /-- The object has been constructed. -/
  | object {object : Object} (bears : moment.Bears object) : Creates setting moment (.object object)

/-- What a moment brings into being is a single function, class or object. -/
theorem Moment.Creates.entities_eq {setting : Setting} {moment : Moment} {value : Value}
    (creates : moment.Creates setting value) : value.entities = [value] := by
  cases creates <;> rfl

/-- What has been brought into being stays declared when programs are added. -/
theorem Moment.Creates.mono {setting later : Setting} (keeps : setting.Keeps later)
    {moment : Moment} {value : Value} (creates : moment.Creates setting value) : moment.Creates later value := by
  cases creates with
  | function stems =>
    obtain ⟨code, hasCode, declared⟩ := stems
    exact .function ⟨code, keeps _ code hasCode, declared⟩
  | classObject stems =>
    obtain ⟨code, decl, hasCode, declared⟩ := stems
    exact .classObject ⟨code, decl, keeps _ code hasCode, declared⟩
  | object bears => exact .object bears

/-- A construction gives an object. -/
theorem exists_object_of_construct {setting : Setting} {host : Host} {evaluate : Evaluator}
    {frame : Frame} {ownerName : Symbol} {range : NodeRange} {state final : State} {value : Value}
    (ended : stepKind setting host evaluate frame (.construct ownerName range) state =
      .ok value final) : ∃ object, value = .object object := by
  obtain ⟨owner, _, _, rest⟩ := exists_of_bind_eq_ok ended
  obtain ⟨_, _, _, rest⟩ := exists_of_bind_eq_ok rest
  obtain ⟨values, _, _, made⟩ := exists_of_bind_eq_ok rest
  obtain ⟨storage, _, _, rest⟩ := exists_of_bind_eq_ok made
  obtain ⟨_, _, _, rest⟩ := exists_of_bind_eq_ok rest
  obtain ⟨code, _, _, given⟩ := exists_of_bind_eq_ok rest
  cases given
  exact ⟨_, rfl⟩

/-- What a step makes is what the node declares or constructs. -/
theorem creates_of_step {setting : Setting} {host : Host} {evaluate : Evaluator} {task : Task}
    {kind : NodeKind} {state final : State} {value : Value}
    (hasKind : setting.taskKind? task = some kind) (makes : kind.makes = true)
    (ended : step setting host evaluate task state = .ok value final) (ask : Ask) :
    (Moment.ends ask (some kind) (.ok value final)).Creates setting value := by
  cases task with
  | call callee args => cases hasKind
  | node program id scope =>
    obtain ⟨code, node, hasCode, hasNode, rfl⟩ := exists_node_of_kind? hasKind
    rw [step_node hasCode hasNode] at ended
    have stepped := eq_ok_of_located ended
    obtain ⟨kind, span⟩ := node
    cases kind with
    | lambda param body =>
      cases stepped
      have declares : code.functionAt? id = some ([param], body) := by
        simp only [Program.functionAt?, hasNode, Option.map_some]
      exact .function ⟨code, hasCode, declares⟩
    | function name params body =>
      obtain ⟨_, _, _, given⟩ := exists_of_bind_eq_ok stepped
      cases given
      have declares : code.functionAt? id = some (code.paramList params, body) := by
        simp only [Program.functionAt?, hasNode, Option.map_some]
      exact .function ⟨code, hasCode, declares⟩
    | classDecl declared =>
      obtain ⟨decl, _, found, rest⟩ := exists_of_bind_eq_ok stepped
      obtain ⟨_, _, _, given⟩ := exists_of_bind_eq_ok rest
      cases given
      have declares : code.classAt? id = some decl := by
        simp only [Program.classAt?, hasNode, Option.map_some]
        exact (eq_some_of_existing found).1
      exact .classObject ⟨code, decl, hasCode, declares, rfl⟩
    | construct ownerName range =>
      obtain ⟨object, rfl⟩ := exists_object_of_construct stepped
      exact .object (Moment.bears_ends_iff.2 ⟨⟨ownerName, range, rfl⟩, final, rfl⟩)
    | _ => exact nomatch makes

/-- What moments make, they bring into being. -/
def Genuine (setting : Setting) (moments : List Moment) : Prop :=
  ∀ moment ∈ moments, ∀ value, moment.Makes value → moment.Creates setting value

/-- Recorded work brings into being what the evaluations do that it asks for. -/
theorem Recorded.genuine {α : Type} {setting : Setting} {transcribes : Ask → List Moment → Prop}
    {evaluate : Evaluator} {work : Evaluator → Eval α} {state : State} {moments : List Moment}
    (inner : ∀ ask moments, transcribes ask moments → Genuine setting moments)
    (recorded : Recorded transcribes evaluate work state moments) : Genuine setting moments := by
  obtain ⟨asks, parts, _, _, transcribed, rfl⟩ := recorded
  intro moment held
  obtain ⟨part, listed, held⟩ := List.mem_flatten.1 held
  obtain ⟨ask, _, transcript⟩ := (exists_of_forall₂ transcribed).2 part listed
  exact inner ask part transcript moment held

/-- What runs make, they bring into being. -/
theorem genuine_run (setting : Setting) (host : Host) (depth : Nat) (ask : Ask)
    (moments : List Moment) (transcript : Transcript setting host depth ask moments) :
    Genuine setting moments := by
  induction depth generalizing ask moments with
  | zero =>
    subst transcript
    rintro moment listed value ⟨other, kind, final, _, rfl⟩
    rcases List.mem_cons.1 listed with begins | last
    · cases begins
    · obtain ⟨_, _, ended⟩ := Moment.ends.inj (List.mem_singleton.1 last)
      exact nomatch ended
  | succ depth ih =>
    obtain ⟨inner, recorded, rfl⟩ := transcript
    rintro moment listed value ⟨other, kind, final, makes, rfl⟩
    rcases List.mem_append.1 listed with before | last
    · rcases List.mem_cons.1 before with begins | inside
      · cases begins
      · exact recorded.genuine ih _ inside value ⟨other, kind, final, makes, rfl⟩
    · obtain ⟨rfl, hasKind, ended⟩ := Moment.ends.inj (List.mem_singleton.1 last)
      exact creates_of_step hasKind.symm makes ended.symm other

end Eval

end ScopeMachine
