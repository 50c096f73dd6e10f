import ScopeMachine.Machine
import ScopeMachine.Proofs.Machine.Host
import ScopeMachine.Proofs.Simulation.Run

/-!
# Sessions of a host with a machine

A host loads programs, has programs, nodes and calls carried out, binds names at the top level and
collects, in any order. The handles in what it hands over are handles that the machine has issued:
it has come by them in answers, which hold no others. Between operations a machine is sound: its
store is, and the handle of its top level has been issued.

Machines that mirror each other answer alike and go on mirroring each other.
-/

namespace ScopeMachine

/-- Answer of a machine: a value, or the reason why there is none. -/
abbrev Answer := Except Stop Value

/-- Answer with every handle replaced. -/
def Answer.rename (f : Handle → Handle) (answer : Answer) : Answer := answer.map (Value.rename f)

/-- Handles that an answer holds. -/
def Answer.handles : Answer → List Handle
  | .ok value => value.handles
  | .error _ => []

/-- Renaming answers renames their handles in their places. -/
theorem Answer.flatMap_handles_rename (f : Handle → Handle) (answers : List Answer) :
    (answers.map (Answer.rename f)).flatMap Answer.handles =
      (answers.flatMap Answer.handles).map f := by
  rw [List.flatMap_map, List.map_flatMap]
  refine List.flatMap_congr fun answer _ => ?_
  cases answer with
  | error stop => rfl
  | ok value => exact Value.handles_rename f value

/-- The right answers are the left ones with the counterparts of their handles. -/
structure Renaming.SendsAnswers (pairs : Renaming) (left right : List Answer) : Prop where
  /-- The handles of the left answers are known. -/
  known : ∀ handle ∈ left.flatMap Answer.handles, handle ∈ pairs.domain
  /-- The right answers are the left ones renamed. -/
  eq : right = left.map (Answer.rename pairs.image)

namespace Renaming.SendsAnswers

variable {pairs : Renaming}

/-- Counterparts of answers stay when a renaming is extended. -/
theorem extend {later : Renaming} {left right : List Answer}
    (answers : pairs.SendsAnswers left right) (extended : later.Extends pairs) :
    later.SendsAnswers left right where
  known := fun handle held => extended.domain (answers.known handle held)
  eq := by
    rw [answers.eq]
    refine List.map_congr_left fun answer listed => ?_
    cases answer with
    | error stop => rfl
    | ok value =>
      refine congrArg Except.ok (Value.rename_congr fun handle held => ?_)
      have inside := answers.known handle (List.mem_flatMap.2 ⟨.ok value, listed, held⟩)
      exact (extended.image handle inside).symm

/-- Answers correspond when their first members and their rests do. -/
theorem append {left right lefts rights : List Answer} (first : pairs.SendsAnswers left right)
    (rest : pairs.SendsAnswers lefts rights) :
    pairs.SendsAnswers (left ++ lefts) (right ++ rights) where
  known := by
    intro handle held
    rw [List.flatMap_append, List.mem_append] at held
    exact held.elim (first.known handle) (rest.known handle)
  eq := by rw [first.eq, rest.eq, List.map_append]

/-- Values that correspond and stops that are equal are corresponding answers. -/
theorem of_agreement {left right : Answer}
    (agree : Agreement False (fun _ => False) Eq pairs.Sends left right) :
    pairs.SendsAnswers [left] [right] := by
  cases agree with
  | ok value =>
    refine ⟨by simpa [Answer.handles] using value.known, ?_⟩
    rw [value.eq]
    rfl
  | error same =>
    subst same
    exact ⟨by simp [Answer.handles], rfl⟩
  | lost allowed _ => exact allowed.elim

end Renaming.SendsAnswers

/-- Work that ends with one answer. -/
inductive Errand where
  /-- Units of a program at the top level. -/
  | program (id : ProgramId) (units : List NodeId)
  /-- Node of the current program in a scope. -/
  | node (id : NodeId) (scope : Handle)
  /-- Call of a value. -/
  | call (callee : Value) (args : List Value)

namespace Errand

/-- Handles that the host hands over. -/
def handles : Errand → List Handle
  | program _ _ => []
  | node _ scope => [scope]
  | call callee args => (callee :: args).flatMap Value.handles

/-- Errand with every handle replaced. -/
def rename (f : Handle → Handle) : Errand → Errand
  | program id units => program id units
  | node id scope => node id (f scope)
  | call callee args => call (callee.rename f) (args.map (Value.rename f))

/-- Evaluation that the errand asks for. -/
def evaluation (setting : Setting) (current : ProgramId) (host : Host) (depth : Nat) :
    Errand → Eval Value
  | program id units =>
    Eval.last (fun unit => Eval.run setting host depth (.node id unit setting.global)) .void units
  | node id scope => Eval.run setting host depth (.node current id scope)
  | call callee args => Eval.run setting host depth (.call callee args)

/-- Program that is current while the errand is carried out, and afterwards. -/
def entered (current : ProgramId) : Errand → ProgramId
  | program id _ => id
  | node _ _ | call _ _ => current

end Errand

/-- One thing that a host does with a machine, collections apart. -/
inductive Operation where
  /-- Load a program. -/
  | load (draft : Draft)
  /-- Have an errand carried out within a depth. -/
  | carryOut (errand : Errand) (depth : Nat)
  /-- Have every unit of a program carried out at the top level within a depth. -/
  | runEach (program : ProgramId) (units : List NodeId) (depth : Nat)
  /-- Bind a name at the top level. -/
  | bindGlobal (name : String) (value : Value)

namespace Operation

/-- Handles that the host hands over. -/
def handles : Operation → List Handle
  | load _ | runEach _ _ _ => []
  | carryOut errand _ => errand.handles
  | bindGlobal _ value => value.handles

/-- Operation with every handle replaced. -/
def rename (f : Handle → Handle) : Operation → Operation
  | load draft => load draft
  | carryOut errand depth => carryOut (errand.rename f) depth
  | runEach program units depth => runEach program units depth
  | bindGlobal name value => bindGlobal name (value.rename f)

/-- Renaming an operation renames its handles in their places. -/
theorem handles_rename (f : Handle → Handle) (operation : Operation) :
    (operation.rename f).handles = operation.handles.map f := by
  cases operation with
  | load draft => rfl
  | carryOut errand depth =>
    cases errand with
    | program id units => rfl
    | node id scope => rfl
    | call callee args =>
      simp [rename, handles, Errand.rename, Errand.handles, List.flatMap_map, List.map_flatMap]
  | runEach program units depth => rfl
  | bindGlobal name value => simp [rename, handles]

/-- Renaming twice is renaming by the composition. -/
theorem rename_rename (f g : Handle → Handle) (operation : Operation) :
    (operation.rename f).rename g = operation.rename (g ∘ f) := by
  cases operation with
  | load draft => rfl
  | carryOut errand depth =>
    cases errand with
    | program id units => rfl
    | node id scope => rfl
    | call callee args => simp [rename, Errand.rename, Value.rename_rename, Function.comp_def]
  | runEach program units depth => rfl
  | bindGlobal name value => simp [rename, Value.rename_rename]

end Operation

namespace Machine

/-- Carries out an errand within a depth. -/
def carryOut (machine : Machine) (host : Host) (depth : Nat) : Errand → Answer × Machine
  | .program id units => machine.runProgram host depth id units
  | .node id scope => machine.evaluate host depth id scope
  | .call callee args => machine.call host depth callee args

/-- Answers to an operation and the machine after it. -/
def operate (machine : Machine) (host : Host) : Operation → List Answer × Machine
  | .load draft => ([], (machine.load draft).2)
  | .carryOut errand depth =>
    let (answer, after) := machine.carryOut host depth errand
    ([answer], after)
  | .runEach program units depth => machine.runEach host depth program units
  | .bindGlobal name value =>
    let (answer, after) := machine.bindGlobal name value
    ([answer.map fun _ => .void], after)

/-- An errand is an evaluation with some program current. -/
theorem carryOut_eq (machine : Machine) (host : Host) (depth : Nat) (errand : Errand) :
    machine.carryOut host depth errand =
      (machine.enter (errand.entered machine.current)).perform
        (errand.evaluation machine.setting machine.current host depth) := by
  cases errand <;> rfl

/-- What a host can have made of a machine, with entries that may collect while programs run, if no
slot is reclaimed 2 ^ 32 times. -/
inductive Reachable : Machine → Prop where
  /-- A machine at its start. -/
  | start (symbols : SymbolTable) (maxHops : Nat) (output : Sink) :
    Reachable (.start symbols maxHops output)
  /-- A machine after an operation. -/
  | operate {machine : Machine} (reached : Reachable machine) (plan : Plan) (reply : Reply)
    (operation : Operation) (issued : ∀ handle ∈ operation.handles, machine.scopes.Issued handle)
    (lasting : machine.operate (.watched plan reply) operation =
      machine.operate (.collecting plan reply) operation) :
    Reachable (machine.operate (.collecting plan reply) operation).2
  /-- A machine after a collection. -/
  | collect {machine : Machine} (reached : Reachable machine) (roots : List Value)
    (lasting : machine.scopes.wrapsOn (machine.setting.rootHandles roots) = false) :
    Reachable (machine.collect roots).2

/-- The store is sound and the handle of the top level has been issued. -/
structure Sound (machine : Machine) : Prop where
  /-- The store is sound. -/
  scopes : machine.scopes.Sound
  /-- The handle of the top level has been issued. -/
  global : machine.scopes.Issued machine.setting.global

/-- The later machine has a sound store that has unfolded from the earlier one, and the same top
level; what it has answered on the way holds issued handles only. -/
structure Progress (before : Machine) (answers : List Answer) (after : Machine) : Prop where
  /-- The later store is sound. -/
  scopes : after.scopes.Sound
  /-- The store has unfolded. -/
  unfolds : before.scopes.Unfolds after.scopes
  /-- The top level is the same. -/
  global : after.setting.global = before.setting.global
  /-- The handles in the answers have been issued. -/
  issued : ∀ handle ∈ answers.flatMap Answer.handles, after.scopes.Issued handle

/-- Progress from a sound machine ends in a sound machine. -/
theorem Progress.sound {before after : Machine} {answers : List Answer}
    (progress : before.Progress answers after) (sound : before.Sound) : after.Sound where
  scopes := progress.scopes
  global := progress.global ▸ progress.unfolds.evolves.issued _ sound.global

/-- Progress composes. -/
theorem Progress.trans {first second third : Machine} {answers more : List Answer}
    (earlier : first.Progress answers second) (later : second.Progress more third) :
    first.Progress (answers ++ more) third where
  scopes := later.scopes
  unfolds := earlier.unfolds.trans later.unfolds
  global := later.global.trans earlier.global
  issued := by
    intro handle held
    rw [List.flatMap_append, List.mem_append] at held
    rcases held with before | after
    · exact later.unfolds.evolves.issued handle (earlier.issued handle before)
    · exact later.issued handle after

/-- The machines differ at most in their stores, which mirror each other and know the top level. -/
structure Mirrors (lossy : Prop) (pairs : Renaming) (left right : Machine) : Prop where
  /-- The settings are equal. -/
  setting : right.setting = left.setting
  /-- The current programs are equal. -/
  current : right.current = left.current
  /-- The states mirror each other. -/
  state : left.state.Mirrors lossy pairs right.state
  /-- The handle of the top level is its own counterpart. -/
  global : pairs.SendsHandle left.setting.global left.setting.global

section Performing

variable {α β : Type} {lossy : Prop} {related : Eval.Relation α β} {pairs : Renaming}
  {left right : Machine} {leftEvaluation : Eval α} {rightEvaluation : Eval β}
  (simulates : Eval.Simulates lossy related pairs leftEvaluation rightEvaluation)
include simulates

/-- An evaluation that simulates another makes progress. -/
theorem Progress.perform {other : State} (mirrors : left.state.Mirrors lossy pairs other)
    (answer : Except Stop α → Answer)
    (known : ∀ later leftResult rightResult, related later leftResult rightResult →
      ∀ handle ∈ (answer (.ok leftResult)).handles, handle ∈ later.domain)
    (plain : ∀ stop, (answer (.error stop)).handles = []) :
    left.Progress [answer (left.perform leftEvaluation).1] (left.perform leftEvaluation).2 := by
  have ended := simulates left.state other mirrors
  unfold Machine.perform
  generalize leftEvaluation left.state = leftEnd at ended ⊢
  generalize rightEvaluation other = rightEnd at ended
  cases ended with
  | ok _ middle unfolds both =>
    refine ⟨middle.scopes.leftSound, unfolds, rfl, fun handle held => ?_⟩
    rw [List.flatMap_singleton] at held
    exact middle.scopes.leftIssued handle (known _ _ _ both handle held)
  | error stop _ middle unfolds =>
    exact ⟨middle.scopes.leftSound, unfolds, rfl, by simp [plain]⟩
  | lost _ _ sound unfolds => exact ⟨sound, unfolds, rfl, by simp [plain]⟩

/-- Evaluations that simulate each other give machines that mirror each other the same answer, and
keep them mirrors, unless there is a loss. -/
theorem Mirrors.perform (mirrors : left.Mirrors lossy pairs right) :
    (∃ later : Renaming, later.Extends pairs ∧
      (left.perform leftEvaluation).2.Mirrors lossy later (right.perform rightEvaluation).2 ∧
      Agreement False (fun _ => False) Eq (related later)
        (left.perform leftEvaluation).1 (right.perform rightEvaluation).1) ∨
    lossy ∧ ∃ stop : Stop, (left.perform leftEvaluation).1 = .error stop ∧ stop.IsLoss := by
  have ended := simulates left.state right.state mirrors.state
  unfold Machine.perform
  generalize leftEvaluation left.state = leftEnd at ended ⊢
  generalize rightEvaluation right.state = rightEnd at ended ⊢
  cases ended with
  | @ok later _ _ _ _ extended middle unfolds both =>
    refine Or.inl ⟨later, extended, ?_, .ok both⟩
    exact ⟨mirrors.setting, mirrors.current, middle, mirrors.global.extend extended⟩
  | @error later _ _ stop extended middle unfolds =>
    refine Or.inl ⟨later, extended, ?_, .error rfl⟩
    exact ⟨mirrors.setting, mirrors.current, middle, mirrors.global.extend extended⟩
  | lost allowed loss sound unfolds => exact Or.inr ⟨allowed, _, rfl, loss⟩

end Performing

end Machine

/-- Evaluations of corresponding errands simulate each other. -/
theorem Errand.simulates_evaluation {lossy : Prop} {pairs : Renaming} {setting : Setting}
    {leftHost rightHost : Host} (hosts : Host.Simulates lossy setting leftHost rightHost)
    (global : pairs.SendsHandle setting.global setting.global) (current : ProgramId) (depth : Nat)
    (errand : Errand) (known : ∀ handle ∈ errand.handles, handle ∈ pairs.domain) :
    Eval.Simulates lossy Renaming.Sends pairs (errand.evaluation setting current leftHost depth)
      ((errand.rename pairs.image).evaluation setting current rightHost depth) := by
  have runs := Eval.simulates_run hosts depth
  cases errand with
  | program id units =>
    refine Eval.simulates_last units (Renaming.sends_self rfl) fun later extended unit => ?_
    exact runs later _ _ (.node (global.extend extended))
  | node id scope =>
    exact runs pairs _ _ (.node ⟨known scope (List.mem_singleton.2 rfl), rfl⟩)
  | call callee args =>
    have all : pairs.SendsAll (callee :: args) ((callee :: args).map _) := ⟨known, rfl⟩
    exact runs pairs _ _ (.call all.head all.tail)

namespace Machine

section Binary

variable {lossy : Prop} {pairs : Renaming} {left right : Machine}
  (mirrors : left.Mirrors lossy pairs right)
include mirrors

/-- Machines that mirror each other do so in whichever program they enter. -/
theorem Mirrors.enter (program : ProgramId) :
    (left.enter program).Mirrors lossy pairs (right.enter program) :=
  ⟨mirrors.setting, rfl, mirrors.state, mirrors.global⟩

/-- Binding corresponding values at the top level simulates itself. -/
theorem Mirrors.simulates_bindGlobal (name : String) {leftValue rightValue : Value}
    (value : pairs.Sends leftValue rightValue) :
    Eval.Simulates lossy (fun _ _ _ => True) pairs
      (Eval.declare (left.intern name).2.setting left.setting.global (left.intern name).1 leftValue)
      (Eval.declare (left.intern name).2.setting left.setting.global (left.intern name).1
        rightValue) :=
  Eval.simulates_declare _ mirrors.global _ value

/-- Machines that mirror each other carry out corresponding errands alike, unless there is a
loss. -/
theorem Mirrors.carryOut {leftHost rightHost : Host}
    (hosts : Host.Simulates lossy left.setting leftHost rightHost) (depth : Nat) (errand : Errand)
    (known : ∀ handle ∈ errand.handles, handle ∈ pairs.domain) :
    (∃ later : Renaming, later.Extends pairs ∧
      (left.carryOut leftHost depth errand).2.Mirrors lossy later
        (right.carryOut rightHost depth (errand.rename pairs.image)).2 ∧
      Agreement False (fun _ => False) Eq later.Sends (left.carryOut leftHost depth errand).1
        (right.carryOut rightHost depth (errand.rename pairs.image)).1) ∨
    lossy ∧ ∃ stop : Stop, (left.carryOut leftHost depth errand).1 = .error stop ∧ stop.IsLoss := by
  have sameEntry : (errand.rename pairs.image).entered left.current =
      errand.entered left.current := by
    cases errand <;> rfl
  have simulates := errand.simulates_evaluation hosts mirrors.global left.current depth known
  rw [carryOut_eq, carryOut_eq, mirrors.setting, mirrors.current, sameEntry]
  exact (mirrors.enter _).perform simulates

end Binary

/-- The built-in functions are native. -/
theorem exists_native_of_mem_builtinBindings {symbols : SymbolTable} {value : Value}
    (bound : value ∈ (builtinBindings symbols).1.values) : ∃ native, value = .native native := by
  obtain ⟨name, listed⟩ := SymbolMap.mem_of_mem_values_ofList bound
  obtain ⟨builtin, _, rfl⟩ := List.mem_map.1 (List.of_mem_zip listed).2
  exact ⟨_, rfl⟩

/-- The built-in functions hold no handles. -/
theorem handles_of_mem_builtinBindings {symbols : SymbolTable} {value : Value}
    (bound : value ∈ (builtinBindings symbols).1.values) : value.handles = [] := by
  obtain ⟨native, rfl⟩ := exists_native_of_mem_builtinBindings bound
  rfl

/-- A machine at its start is sound. -/
theorem sound_start (symbols : SymbolTable) (maxHops : Nat) (output : Sink) :
    (start symbols maxHops output).Sound := by
  have emptySound : Store.empty.Sound := by
    refine ⟨Store.tidy_empty, ?_, fun _ => 0, ?_⟩
    · intro handle scope found
      simp [Store.scope?, Store.empty] at found
    · intro handle scope above found
      simp [Store.scope?, Store.empty] at found
  have scopes : (start symbols maxHops output).scopes.Sound := by
    refine emptySound.allocate (SymbolMap.distinct_ofList _) (by simp) ?_
    intro value held handle inner
    rw [handles_of_mem_builtinBindings held] at inner
    exact absurd inner List.not_mem_nil
  exact ⟨scopes, Store.issued_of_isLive (Store.isLive_allocate Store.tidy_empty none _)⟩

section Unary

variable {machine : Machine} (sound : machine.Sound)
include sound

/-- A collection leaves a machine sound. -/
theorem Sound.collect {roots : List Value}
    (lasting : machine.scopes.wrapsOn (machine.setting.rootHandles roots) = false) :
    (machine.collect roots).2.Sound :=
  ⟨sound.scopes.collect lasting,
    (Store.evolves_collect lasting sound.scopes.tidy).issued _ sound.global⟩

/-- A sound machine mirrors itself, with the issued handles as their own counterparts. -/
theorem Sound.mirrors_self (lossy : Prop) :
    machine.Mirrors lossy (.identity {handle | machine.scopes.Issued handle}) machine where
  setting := rfl
  current := rfl
  state := ⟨sound.scopes.mirrors_self lossy, rfl⟩
  global := ⟨sound.global, rfl⟩

/-- A machine makes progress by an errand, with a watched host. -/
theorem Progress.carryOut (plan : Plan) (reply : Reply) (depth : Nat) (errand : Errand)
    (issued : ∀ handle ∈ errand.handles, machine.scopes.Issued handle) :
    machine.Progress [(machine.carryOut (.watched plan reply) depth errand).1]
      (machine.carryOut (.watched plan reply) depth errand).2 := by
  have mirrors := sound.mirrors_self True
  have simulates := errand.simulates_evaluation (Host.watched_simulates machine.setting plan reply)
    mirrors.global machine.current depth issued
  rw [carryOut_eq]
  have progress := Progress.perform simulates
    (mirrors.enter (errand.entered machine.current)).state id
    (fun _ _ _ value => value.known) (fun _ => rfl)
  exact ⟨progress.scopes, progress.unfolds, progress.global, progress.issued⟩

/-- A machine makes progress by one node after the other, with a watched host. -/
theorem Progress.evaluateEach (plan : Plan) (reply : Reply) (depth : Nat) (units : List NodeId) :
    machine.Progress (machine.evaluateEach (.watched plan reply) depth units).1
      (machine.evaluateEach (.watched plan reply) depth units).2 := by
  induction units generalizing machine with
  | nil => exact ⟨sound.scopes, .refl machine.scopes, rfl, by simp [Machine.evaluateEach]⟩
  | cons unit units ih =>
    have atTop : ∀ handle ∈ (Errand.node unit machine.setting.global).handles,
        machine.scopes.Issued handle := by
      simpa [Errand.handles] using sound.global
    have first := Progress.carryOut sound plan reply depth _ atTop
    exact first.trans (ih (first.sound sound))

/-- A machine makes progress by every operation, with a watched host. -/
theorem Progress.operate (plan : Plan) (reply : Reply) (operation : Operation)
    (issued : ∀ handle ∈ operation.handles, machine.scopes.Issued handle) :
    machine.Progress (machine.operate (.watched plan reply) operation).1
      (machine.operate (.watched plan reply) operation).2 := by
  cases operation with
  | load draft => exact ⟨sound.scopes, .refl machine.scopes, rfl, by simp [Machine.operate]⟩
  | carryOut errand depth => exact Progress.carryOut sound plan reply depth errand issued
  | runEach program units depth =>
    have entered : (machine.enter program).Sound := ⟨sound.scopes, sound.global⟩
    have progress := Progress.evaluateEach entered plan reply depth units
    exact ⟨progress.scopes, progress.unfolds, progress.global, progress.issued⟩
  | bindGlobal name value =>
    have mirrors := sound.mirrors_self False
    have simulates := mirrors.simulates_bindGlobal name ⟨issued, rfl⟩
    have interned : (machine.intern name).2.state.Mirrors False _ machine.state := mirrors.state
    have progress := Progress.perform simulates interned (fun answer => answer.map fun _ => .void)
      (fun _ _ _ _ handle held => absurd held List.not_mem_nil) (fun _ => rfl)
    exact ⟨progress.scopes, progress.unfolds, progress.global, progress.issued⟩

end Unary

/-- Whatever a host does, the machine is sound. -/
theorem Reachable.sound {machine : Machine} (reached : machine.Reachable) : machine.Sound := by
  induction reached with
  | start symbols maxHops output => exact sound_start symbols maxHops output
  | operate _ plan reply operation issued lasting ih =>
    rw [← lasting]
    exact (Progress.operate ih plan reply operation issued).sound ih
  | collect _ roots lasting ih => exact ih.collect lasting

/-- A machine hands out no handles but those it has issued. -/
theorem Reachable.issued_answers {machine : Machine} (reached : machine.Reachable) (plan : Plan)
    (reply : Reply) (operation : Operation)
    (issued : ∀ handle ∈ operation.handles, machine.scopes.Issued handle)
    (lasting : machine.operate (.watched plan reply) operation =
      machine.operate (.collecting plan reply) operation) :
    ∀ handle ∈ (machine.operate (.collecting plan reply) operation).1.flatMap Answer.handles,
      (machine.operate (.collecting plan reply) operation).2.scopes.Issued handle := by
  have progress := Progress.operate reached.sound plan reply operation issued
  rw [lasting] at progress
  exact progress.issued

end Machine

end ScopeMachine
