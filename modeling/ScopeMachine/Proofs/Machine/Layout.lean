import ScopeMachine.Proofs.Layout.Run
import ScopeMachine.Proofs.Machine.Errand

/-!
# Layouts cannot be told apart

Two hosts build the same source, each in its own way, and have the same units evaluated one after the
other on fresh machines with the same hop limit and the same sink. The ways of building differ in all
that the layout of programs and the history of a symbol table can differ in: only the units that are
run in turn have to correspond. What the two hosts see is the same after every turn: the text of the
value and the value itself, up to the positions of names and of source, or the very same stop, the
printed text, the numbers of slots, and the scopes with their handles.
-/

namespace ScopeMachine

/-- One thing that a host does in a session. -/
inductive Turn where
  /-- Load a program, with the symbol table that it has been built over. -/
  | load (draft : Draft)
  /-- Have units of a program evaluated at the top level, up to the first stop. -/
  | run (program : ProgramId) (units : List NodeId)
  /-- Collect. -/
  | collect

/-- Two hosts run corresponding units in turn, and load what they like in between. -/
inductive InStep : Setting → Setting → List Turn → List Turn → Prop where
  /-- Both are done. -/
  | done (left right : Setting) : InStep left right [] []
  /-- The host on the left loads a program that it has built over its symbols. -/
  | loadLeft {left right : Setting} {draft : Draft} {turns others : List Turn}
    (built : left.symbols.Grows draft.symbols) (rest : InStep (left.loaded draft) right turns others) :
    InStep left right (.load draft :: turns) others
  /-- The host on the right loads a program that it has built over its symbols. -/
  | loadRight {left right : Setting} {draft : Draft} {turns others : List Turn}
    (built : right.symbols.Grows draft.symbols)
    (rest : InStep left (right.loaded draft) turns others) :
    InStep left right turns (.load draft :: others)
  /-- Both run units that correspond one by one. -/
  | run {left right : Setting} {leftId rightId : ProgramId} {lefts rights : List NodeId}
    {turns others : List Turn}
    (units : List.Forall₂ (fun a b => left.Corresponds right ⟨leftId, a⟩ ⟨rightId, b⟩) lefts rights)
    (rest : InStep left right turns others) :
    InStep left right (.run leftId lefts :: turns) (.run rightId rights :: others)
  /-- Both collect. -/
  | collect {left right : Setting} {turns others : List Turn}
    (rest : InStep left right turns others) :
    InStep left right (.collect :: turns) (.collect :: others)

/-- The answers are values that are alike and have the same text, or the very same stop. -/
inductive Answer.Same (left right : Setting) : Answer → Answer → Prop where
  /-- Both are values. -/
  | value {a b : Value} (alike : Value.Alike left right a b)
    (text : a.text left.symbols = b.text right.symbols) : Same left right (.ok a) (.ok b)
  /-- Both have stopped for the same reason. -/
  | stop (reason : Stop) : Same left right (.error reason) (.error reason)

namespace Machine

/-- Answers of a session to its runs, each with the machine after the run. -/
def reports (machine : Machine) (host : Host) (depth : Nat) : List Turn → List (Answer × Machine)
  | [] => []
  | .load draft :: turns => (machine.load draft).2.reports host depth turns
  | .run program units :: turns =>
    let report := machine.runProgram host depth program units
    report :: report.2.reports host depth turns
  | .collect :: turns => (machine.collect []).2.reports host depth turns

/-- The machines differ only in the layouts of what they have loaded. -/
structure Alike (left right : Machine) : Prop where
  /-- The settings can be compared. -/
  settings : left.setting.Comparable right.setting
  /-- The states are alike. -/
  states : left.state.Alike left.setting right.setting right.state

/-- The reports cannot be told apart, and the machines behind them neither. -/
structure SameReport (left right : Answer × Machine) : Prop where
  /-- The answers are the same. -/
  answer : Answer.Same left.2.setting right.2.setting left.1 right.1
  /-- The same has been printed. -/
  output : left.2.state.output = right.2.state.output
  /-- The numbers of slots are equal. -/
  occupancy : left.2.occupancy = right.2.occupancy
  /-- The same handles are live. -/
  isLive : ∀ handle, left.2.scopes.isLive handle = right.2.scopes.isLive handle
  /-- Beside the layouts nothing differs. -/
  machines : left.2.Alike right.2

/-- Machines that differ only in layouts report the same about evaluations that keep step. -/
theorem Alike.perform {left right : Machine} (alike : left.Alike right) {first second : Eval Value}
    (keeps : Eval.KeepStep left.setting right.setting
      (Value.Alike left.setting right.setting) first second) :
    SameReport (left.perform first) (right.perform second) := by
  have ended := keeps _ _ alike.states
  have same : ∀ {a b : State} {answer other : Answer},
      Answer.Same left.setting right.setting answer other →
      a.Alike left.setting right.setting b →
      SameReport (answer, { left with state := a }) (other, { right with state := b }) :=
    fun answers states =>
      ⟨answers, states.output, states.scopes.occupancy_eq, states.scopes.isLive_eq,
        alike.settings, states⟩
  unfold Machine.perform
  generalize first left.state = leftEnd at ended ⊢
  generalize second right.state = rightEnd at ended ⊢
  cases ended with
  | ok both states => exact same (.value both both.text_eq) states
  | error stop states => exact same (.stop stop) states

/-- Running units that correspond is reported the same. -/
theorem Alike.runProgram {left right : Machine} (alike : left.Alike right) (leftHost rightHost : Host)
    (depth : Nat) {leftId rightId : ProgramId} {lefts rights : List NodeId}
    (units : List.Forall₂ (fun a b =>
      left.setting.Corresponds right.setting ⟨leftId, a⟩ ⟨rightId, b⟩) lefts rights) :
    SameReport (left.runProgram leftHost depth leftId lefts)
      (right.runProgram rightHost depth rightId rights) := by
  have entered : (left.enter leftId).Alike (right.enter rightId) := ⟨alike.settings, alike.states⟩
  refine entered.perform (Eval.keepStep_last units (fun a b source => ?_) .void)
  have global : right.setting.global = left.setting.global := alike.settings.global.symm
  refine Eval.keepStep_run alike.settings leftHost rightHost depth _ _ ?_
  exact global ▸ .node source _

/-- Loading a program grows the setting. -/
theorem grows_loaded {setting : Setting} {draft : Draft}
    (built : setting.symbols.Grows draft.symbols) : setting.Grows (setting.loaded draft) where
  programs := fun _ _ found => Setting.program?_loaded found draft
  symbols := built
  global := rfl
  maxHops := rfl

/-- Machines that differ only in layouts still do when the settings have grown. -/
theorem Alike.grow {left right laterLeft laterRight : Machine} (alike : left.Alike right)
    (leftGrows : left.setting.Grows laterLeft.setting)
    (rightGrows : right.setting.Grows laterRight.setting) (leftState : laterLeft.state = left.state)
    (rightState : laterRight.state = right.state) : laterLeft.Alike laterRight where
  settings := alike.settings.grow leftGrows rightGrows
  states := by
    rw [leftState, rightState]
    exact ⟨alike.states.scopes.grow leftGrows rightGrows, alike.states.output⟩

/-- Collections keep machines that differ only in layouts so. -/
theorem Alike.collect {left right : Machine} (alike : left.Alike right) :
    (left.collect []).2.Alike (right.collect []).2 where
  settings := alike.settings
  states := by
    refine ⟨?_, alike.states.output⟩
    simp only [Machine.collect, Setting.reclaim, alike.settings.global]
    exact alike.states.scopes.collect _

/-- Sessions in step on machines that differ only in layouts report the same. -/
theorem Alike.reports {left right : Machine} (alike : left.Alike right) (leftHost rightHost : Host)
    (depth : Nat) {turns others : List Turn}
    (inStep : InStep left.setting right.setting turns others) :
    List.Forall₂ SameReport (left.reports leftHost depth turns)
      (right.reports rightHost depth others) := by
  generalize leftEq : left.setting = leftSetting at inStep
  generalize rightEq : right.setting = rightSetting at inStep
  induction inStep generalizing left right with
  | done => exact .nil
  | @loadLeft _ _ draft _ _ built _ ih =>
    subst leftEq rightEq
    have grown : (left.load draft).2.Alike right :=
      alike.grow (grows_loaded built) (.refl _) rfl rfl
    exact ih grown rfl rfl
  | @loadRight _ _ draft _ _ built _ ih =>
    subst leftEq rightEq
    have grown : left.Alike (right.load draft).2 :=
      alike.grow (.refl _) (grows_loaded built) rfl rfl
    exact ih grown rfl rfl
  | @run _ _ leftId rightId lefts rights _ _ units _ ih =>
    subst leftEq rightEq
    have report := alike.runProgram leftHost rightHost depth units
    refine .cons report (ih report.machines ?_ ?_)
    · exact setting_perform _ _
    · exact setting_perform _ _
  | collect _ ih => exact ih alike.collect leftEq rightEq

/-- No built-in function is one of the host. -/
theorem builtins_own {name : String} {role : NativeRole} (listed : (name, role) ∈ builtins)
    (entry : String) : role ≠ .host entry := by
  rintro rfl
  simp [builtins] at listed

/-- The built-in functions are bound alike. -/
theorem alike_builtinBindings {left right : Setting} (comparable : left.Comparable right)
    {leftBefore rightBefore : SymbolTable}
    (leftSymbols : left.symbols = (builtinBindings leftBefore).2)
    (rightSymbols : right.symbols = (builtinBindings rightBefore).2) :
    (builtinBindings leftBefore).1.Alike (left.SameName right) (Value.Alike left right)
      (builtinBindings rightBefore).1 := by
  have leftSpells := leftBefore.spells_internAll (builtins.map Prod.fst)
  have rightSpells := rightBefore.spells_internAll (builtins.map Prod.fst)
  have names := Setting.forall₂_sameName (leftSymbols ▸ leftSpells) (rightSymbols ▸ rightSpells)
  let value : String × NativeRole → Value := fun builtin => .native ⟨builtin.1, builtin.2⟩
  have values : List.Forall₂ (Value.Alike left right) (builtins.map value)
      (builtins.map value) := by
    rw [List.forall₂_map_left_iff, List.forall₂_map_right_iff, List.forall₂_same]
    exact fun _ listed => .native _ (builtins_own listed)
  exact SymbolMap.alike_ofList comparable.biUnique (forall₂_zip names values)

/-- Fresh machine over a symbol table in which texts have been entered. -/
def fresh (texts : List String) (maxHops : Nat) (output : Sink) : Machine :=
  start (SymbolTable.initial.internAll texts).2 maxHops output

/-- Fresh machines with the same configuration differ only in layouts, whatever texts have been entered
before. -/
theorem alike_fresh (leftTexts rightTexts : List String) (maxHops : Nat) (output : Sink) :
    (fresh leftTexts maxHops output).Alike (fresh rightTexts maxHops output) := by
  have distinct : ∀ texts, (fresh texts maxHops output).symbols.Distinct :=
    fun texts => (SymbolTable.distinct_initial.internAll texts).internAll (builtins.map Prod.fst)
  have comparable : (fresh leftTexts maxHops output).setting.Comparable
      (fresh rightTexts maxHops output).setting :=
    ⟨distinct leftTexts, distinct rightTexts, rfl, rfl⟩
  have bindings := alike_builtinBindings comparable rfl rfl
  exact ⟨comparable, (Store.alike_empty.allocate none bindings).2, rfl⟩

/-- Running one unit of a program is evaluating it at the top level. -/
theorem runProgram_singleton (machine : Machine) (host : Host) (depth : Nat) (program : ProgramId)
    (unit : NodeId) :
    machine.runProgram host depth program [unit] =
      (machine.enter program).evaluate host depth unit machine.setting.global := by
  have alone : ∀ evaluation : Eval Value, (evaluation >>= fun value => pure value) = evaluation :=
    fun evaluation => bind_pure evaluation
  simp only [runProgram, evaluateAll, evaluate, performTask, Eval.last, alone]
  rfl

/-- Entering the program that is current changes nothing. -/
theorem enter_of_current_eq {machine : Machine} {program : ProgramId}
    (current : machine.current = program) : machine.enter program = machine := by
  subst current
  rfl

/-- Evaluating every unit of a program at the top level answers what a session does that runs the units
one by one. -/
theorem runEach_eq_reports (machine : Machine) (host : Host) (depth : Nat) (program : ProgramId)
    (units : List NodeId) :
    (machine.runEach host depth program units).1 =
      (machine.reports host depth (units.map fun unit => .run program [unit])).map Prod.fst := by
  induction units generalizing machine with
  | nil => rfl
  | cons unit units ih =>
    have first := machine.runProgram_singleton host depth program unit
    let ended := ((machine.enter program).evaluate host depth unit machine.setting.global).2
    have stays : ended.current = program := current_perform (machine.enter program) _
    have rest := ih ended
    rw [runEach, enter_of_current_eq stays] at rest
    simp only [List.map_cons, reports, first]
    exact congrArg (List.cons _) rest

/-- Whatever the layouts and the histories of the symbol tables are, hosts that run corresponding units
in turn on fresh machines with the same configuration get the same reports. -/
theorem reports_alike (leftTexts rightTexts : List String) (maxHops : Nat) (output : Sink)
    (leftHost rightHost : Host) (depth : Nat) {turns others : List Turn}
    (inStep : InStep (fresh leftTexts maxHops output).setting
      (fresh rightTexts maxHops output).setting turns others) :
    List.Forall₂ SameReport
      ((fresh leftTexts maxHops output).reports leftHost depth turns)
      ((fresh rightTexts maxHops output).reports rightHost depth others) :=
  (alike_fresh leftTexts rightTexts maxHops output).reports leftHost rightHost depth inStep

end Machine

/-- Program that declares a function, whose body uses one node twice, and calls it two times. -/
def sharingProgram : Program where
  nodes := #[
    ⟨.read ⟨9⟩, ⟨10, 11⟩⟩,
    ⟨.binary .add ⟨0⟩ ⟨0⟩, ⟨10, 15⟩⟩,
    ⟨.function ⟨10⟩ ⟨0, 1⟩ ⟨1⟩, ⟨0, 16⟩⟩,
    ⟨.int 3, ⟨26, 27⟩⟩,
    ⟨.call ⟨10⟩ ⟨0, 1⟩, ⟨20, 28⟩⟩,
    ⟨.bool true, ⟨36, 40⟩⟩,
    ⟨.call ⟨10⟩ ⟨1, 1⟩, ⟨30, 41⟩⟩]
  lists := #[⟨3⟩, ⟨5⟩]
  params := #[⟨9⟩]
  classes := #[]

/-- Program that declares the same function with two nodes for the two uses, before its body and
beside a node that nothing uses. -/
def repeatingProgram : Program where
  nodes := #[
    ⟨.int 7, .dummy⟩,
    ⟨.read ⟨11⟩, ⟨10, 11⟩⟩,
    ⟨.function ⟨9⟩ ⟨0, 1⟩ ⟨4⟩, ⟨0, 16⟩⟩,
    ⟨.read ⟨11⟩, ⟨10, 11⟩⟩,
    ⟨.binary .add ⟨1⟩ ⟨3⟩, ⟨10, 15⟩⟩]
  lists := #[]
  params := #[⟨11⟩]
  classes := #[]

/-- Program of the two calls, in another order. -/
def callingProgram : Program where
  nodes := #[
    ⟨.bool true, ⟨36, 40⟩⟩,
    ⟨.call ⟨9⟩ ⟨0, 1⟩, ⟨30, 41⟩⟩,
    ⟨.call ⟨9⟩ ⟨1, 1⟩, ⟨20, 28⟩⟩,
    ⟨.int 3, ⟨26, 27⟩⟩]
  lists := #[⟨0⟩, ⟨3⟩]
  params := #[]
  classes := #[]

/-- Machine over a table in which the names of the first program have been entered. -/
def sharingMachine : Machine := .fresh ["x", "twice"] Machine.defaultHops (.buffer "")

/-- Machine over a table in which the names have been entered in another order, with one between. -/
def repeatingMachine : Machine := .fresh ["twice", "spare", "x"] Machine.defaultHops (.buffer "")

/-- Draft of the one program. -/
def sharingDraft : Draft := ⟨sharingMachine.symbols, sharingProgram⟩

/-- Draft of the first of the two programs. -/
def repeatingDraft : Draft := ⟨repeatingMachine.symbols, repeatingProgram⟩

/-- Draft of the second of the two programs. -/
def callingDraft : Draft := ⟨repeatingMachine.symbols, callingProgram⟩

/-- Session that loads one program, runs its units and collects. -/
def sharingTurns : List Turn :=
  [.load sharingDraft, .run ⟨1⟩ [⟨2⟩], .run ⟨1⟩ [⟨4⟩], .run ⟨1⟩ [⟨6⟩], .collect]

/-- Session that loads two programs one after the other and does the same. -/
def repeatingTurns : List Turn :=
  [.load repeatingDraft, .run ⟨1⟩ [⟨2⟩], .load callingDraft, .run ⟨2⟩ [⟨2⟩], .run ⟨2⟩ [⟨1⟩],
    .collect]

/-- Places of one program beside places of another. -/
def Bond.ofPairs (left right : ProgramId) (pairs : List (NodeId × NodeId)) : Bond :=
  fun a b => a.program = left ∧ b.program = right ∧ (a.node, b.node) ∈ pairs

/-- Pairs of nodes of two programs are a bond if the nodes of each pair match. -/
theorem Setting.bonded_ofPairs {left right : Setting} {leftId rightId : ProgramId}
    {leftCode rightCode : Program} (leftLoaded : left.program? leftId = some leftCode)
    (rightLoaded : right.program? rightId = some rightCode) {pairs : List (NodeId × NodeId)}
    (matched : ∀ pair ∈ pairs, ∃ leftNode rightNode, leftCode.node? pair.1 = some leftNode ∧
      rightCode.node? pair.2 = some rightNode ∧ leftNode.span = rightNode.span ∧
      (left.pairing right (.ofPairs leftId rightId pairs) leftId rightId leftCode rightCode).Kinds
        leftNode.kind rightNode.kind) :
    left.Bonded right (.ofPairs leftId rightId pairs) := by
  rintro ⟨_, a⟩ ⟨_, b⟩ ⟨rfl, rfl, listed⟩
  obtain ⟨leftNode, rightNode, leftFound, rightFound, span, kind⟩ := matched _ listed
  exact ⟨leftCode, rightCode, leftNode, rightNode, leftLoaded, rightLoaded, leftFound, rightFound,
    span, kind⟩

/-- The declarations of the function correspond. -/
theorem sharingProgram_corresponds_repeatingProgram :
    (sharingMachine.setting.loaded sharingDraft).Corresponds
      (repeatingMachine.setting.loaded repeatingDraft) ⟨⟨1⟩, ⟨2⟩⟩ ⟨⟨1⟩, ⟨2⟩⟩ := by
  let pairs : List (NodeId × NodeId) := [(⟨2⟩, ⟨2⟩), (⟨1⟩, ⟨4⟩), (⟨0⟩, ⟨1⟩), (⟨0⟩, ⟨3⟩)]
  have x : (sharingMachine.setting.loaded sharingDraft).SameName
      (repeatingMachine.setting.loaded repeatingDraft) ⟨9⟩ ⟨11⟩ :=
    ⟨"x", by decide +kernel, by decide +kernel⟩
  have twice : (sharingMachine.setting.loaded sharingDraft).SameName
      (repeatingMachine.setting.loaded repeatingDraft) ⟨10⟩ ⟨9⟩ :=
    ⟨"twice", by decide +kernel, by decide +kernel⟩
  refine ⟨.ofPairs ⟨1⟩ ⟨1⟩ pairs, Setting.bonded_ofPairs rfl rfl ?_, rfl, rfl, by decide⟩
  simp only [pairs, List.forall_mem_cons]
  refine ⟨?declaration, ?body, ?first, ?second, by simp⟩
  case declaration =>
    exact ⟨_, _, rfl, rfl, rfl, .function twice (.cons x .nil) ⟨rfl, rfl, by decide⟩⟩
  case body =>
    exact ⟨_, _, rfl, rfl, rfl, .binary .add ⟨rfl, rfl, by decide⟩ ⟨rfl, rfl, by decide⟩⟩
  case first => exact ⟨_, _, rfl, rfl, rfl, .read x⟩
  case second => exact ⟨_, _, rfl, rfl, rfl, .read x⟩

/-- The calls of the function correspond. -/
theorem sharingProgram_corresponds_callingProgram :
    ∀ pair ∈ [((⟨4⟩ : NodeId), (⟨2⟩ : NodeId)), (⟨6⟩, ⟨1⟩)],
      (sharingMachine.setting.loaded sharingDraft).Corresponds
        ((repeatingMachine.setting.loaded repeatingDraft).loaded callingDraft)
        ⟨⟨1⟩, pair.1⟩ ⟨⟨2⟩, pair.2⟩ := by
  let pairs : List (NodeId × NodeId) := [(⟨4⟩, ⟨2⟩), (⟨6⟩, ⟨1⟩), (⟨3⟩, ⟨3⟩), (⟨5⟩, ⟨0⟩)]
  have twice : (sharingMachine.setting.loaded sharingDraft).SameName
      ((repeatingMachine.setting.loaded repeatingDraft).loaded callingDraft) ⟨10⟩ ⟨9⟩ :=
    ⟨"twice", by decide +kernel, by decide +kernel⟩
  have bonded : (sharingMachine.setting.loaded sharingDraft).Bonded
      ((repeatingMachine.setting.loaded repeatingDraft).loaded callingDraft)
      (.ofPairs ⟨1⟩ ⟨2⟩ pairs) := by
    refine Setting.bonded_ofPairs rfl rfl ?_
    simp only [pairs, List.forall_mem_cons]
    refine ⟨?sum, ?failing, ?three, ?truth, by simp⟩
    case sum =>
      exact ⟨_, _, rfl, rfl, rfl, .call twice ⟨rfl, .cons ⟨rfl, rfl, by decide⟩ .nil⟩⟩
    case failing =>
      exact ⟨_, _, rfl, rfl, rfl, .call twice ⟨rfl, .cons ⟨rfl, rfl, by decide⟩ .nil⟩⟩
    case three => exact ⟨_, _, rfl, rfl, rfl, .int 3⟩
    case truth => exact ⟨_, _, rfl, rfl, rfl, .bool true⟩
  intro pair listed
  refine ⟨_, bonded, rfl, rfl, ?_⟩
  exact List.mem_append_left [(⟨3⟩, ⟨3⟩), (⟨5⟩, ⟨0⟩)] listed

/-- The sessions are in step. -/
theorem sharingTurns_inStep :
    InStep sharingMachine.setting repeatingMachine.setting sharingTurns repeatingTurns := by
  have declaration := sharingProgram_corresponds_repeatingProgram
  have calls := sharingProgram_corresponds_callingProgram
  refine .loadLeft ⟨[], rfl⟩ (.loadRight ⟨[], rfl⟩ (.run (.cons declaration .nil) ?_))
  refine .loadRight ⟨[], rfl⟩ (.run (.cons (calls (⟨4⟩, ⟨2⟩) (by decide)) .nil) ?_)
  exact .run (.cons (calls (⟨6⟩, ⟨1⟩) (by decide)) .nil) (.collect (.done _ _))

/-- The sessions get the same reports: the function, a sum, and a failure inside the body of the
function. -/
theorem Machine.reports_alike_sharingTurns :
    let left := sharingMachine.reports Host.standard 4 sharingTurns
    List.Forall₂ SameReport left (repeatingMachine.reports Host.standard 4 repeatingTurns) ∧
    left.map (fun report => report.1.map (Value.text report.2.symbols)) =
      [.ok "<function twice>", .ok "6",
        .error (.failure ((Failure.unsupportedOperands .add "bool" "bool").locate ⟨10, 15⟩))] :=
  ⟨reports_alike _ _ _ _ _ _ _ sharingTurns_inStep, by decide +kernel⟩

end ScopeMachine
