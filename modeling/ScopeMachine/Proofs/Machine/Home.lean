import ScopeMachine.Proofs.Home.Return
import ScopeMachine.Proofs.Home.Tracking
import ScopeMachine.Proofs.Machine.Discipline

/-!
# Sessions in which every position is looked up at home

In an orderly session the programs come from built drafts, the units of a program are positions that
its draft has returned, and whatever the host and its entries hand over is made of values that they
have been given. Then every value that the machine holds is at home. A machine that looks every
position up in its current program, and checks that it belongs there, does what the machine does
whose tasks name their program, and finds everything.
-/

namespace ScopeMachine

/-- The host is given the values among the answers. -/
theorem Answer.mem_flatMap_values {answers : List Answer} {value : Value} :
    value ∈ answers.flatMap Answer.values ↔ .ok value ∈ answers := by
  rw [List.mem_flatMap]
  constructor
  · rintro ⟨answer, listed, held⟩
    cases answer with
    | ok other =>
      cases List.mem_singleton.1 held
      exact listed
    | error stop => exact absurd held List.not_mem_nil
  · exact fun listed => ⟨_, listed, List.mem_singleton_self _⟩

/-- What a host asks for is its own: programs come from built drafts, units belong to their program,
and values are made of held ones. -/
def Operation.Proper (machine : Machine) (held : List Value) : Operation → Prop
  | .load draft => ∃ returned, draft.Built returned
  | .carryOut (.program id units) _ | .runEach id units _ =>
    ∃ code, machine.setting.program? id = some code ∧ ∀ unit ∈ units, code.HasNode unit
  | .carryOut (.node id _) _ =>
    ∃ code, machine.setting.program? machine.current = some code ∧ code.HasNode id
  | .carryOut (.call callee args) _ => ∀ value ∈ callee :: args, value.MadeOf (· ∈ held)
  | .bindGlobal _ value => value.MadeOf (· ∈ held)

namespace Machine

/-- Result of a walk and the machine after it. -/
def walk {α : Type} (machine : Machine) (walk : Walk α) : Except Stop α × Machine :=
  match walk ⟨machine.state, machine.current⟩ with
  | .ok value ended => (.ok value, { machine with state := ended.state, current := ended.current })
  | .error stop ended =>
    (.error stop, { machine with state := ended.state, current := ended.current })

/-- Carries out an errand by walking. -/
def walkOut (machine : Machine) (routines : Routines) (depth : Nat) : Errand → Answer × Machine
  | .program id units =>
    (machine.enter id).walk
      (Walk.last (fun unit => Walk.run machine.setting routines depth (.node unit machine.setting.global))
        .void units)
  | .node id scope => machine.walk (Walk.run machine.setting routines depth (.node id scope))
  | .call callee args => machine.walk (Walk.run machine.setting routines depth (.call callee args))

/-- Evaluates nodes of the current program one after the other by walking, whatever stops. -/
def walkEach (machine : Machine) (routines : Routines) (depth : Nat) :
    List NodeId → List Answer × Machine
  | [] => ([], machine)
  | id :: rest =>
    let (answer, machine) := machine.walkOut routines depth (.node id machine.setting.global)
    let (answers, machine) := machine.walkEach routines depth rest
    (answer :: answers, machine)

/-- Answers to an operation, by walking where nodes are evaluated, and the machine after it. -/
def walkThrough (machine : Machine) (routines : Routines) : Operation → List Answer × Machine
  | .load draft => machine.operate (.ofRoutines routines) (.load draft)
  | .carryOut errand depth =>
    let (answer, after) := machine.walkOut routines depth errand
    ([answer], after)
  | .runEach program units depth => (machine.enter program).walkEach routines depth units
  | .bindGlobal name value => machine.operate (.ofRoutines routines) (.bindGlobal name value)

/-- What a host with honest entries can have made of a machine, and the values that it has been given
on the way. -/
inductive Orderly : Machine → List Value → Prop where
  /-- A machine at its start. -/
  | start (symbols : SymbolTable) (maxHops : Nat) (output : Sink) :
    Orderly (.start symbols maxHops output) []
  /-- A machine after an operation; the host holds the answers. -/
  | operate {machine : Machine} {held : List Value} (orderly : Orderly machine held)
    {routines : Routines} (honest : routines.Honest) (operation : Operation)
    (proper : operation.Proper machine held) :
    Orderly (machine.operate (.ofRoutines routines) operation).2
      (held ++ (machine.operate (.ofRoutines routines) operation).1.flatMap Answer.values)
  /-- A machine after a collection. -/
  | collect {machine : Machine} {held : List Value} (orderly : Orderly machine held)
    (roots : List Value) : Orderly (machine.collect roots).2 held
  /-- The host has read a value from a scope. -/
  | look {machine : Machine} {held : List Value} (orderly : Orderly machine held) {value : Value}
    (bound : machine.scopes.Holds value) : Orderly machine (value :: held)

/-- All programs are closed, and all values in the scopes and in the hands of the host are at home. -/
structure AtHome (machine : Machine) (held : List Value) : Prop where
  /-- The programs are closed. -/
  closed : machine.setting.Closed
  /-- The values in the scopes are at home. -/
  state : machine.state.AtHome machine.setting
  /-- The held values are at home. -/
  held : ∀ value ∈ held, value.AtHome machine.setting

/-- A walk has given the answers and the machine of an operation, has missed nothing, and leaves all
values at home. -/
structure Homecoming (held : List Value) (walked ended : List Answer × Machine) : Prop where
  /-- The answers and the machine are the same. -/
  same : walked = ended
  /-- Nothing has been missing. -/
  present : ∀ answer ∈ ended.1, answer ≠ .error .missing
  /-- The machine leaves all values at home. -/
  home : ended.2.AtHome held
  /-- The answers are at home. -/
  answers : ∀ value, .ok value ∈ ended.1 → value.AtHome ended.2.setting

section Performing

variable {machine : Machine} {held : List Value} (home : machine.AtHome held)
include home

/-- A walk that tracks an evaluation comes home. -/
theorem AtHome.walk {walk : Walk Value} {plain : Eval Value}
    (tracks : Walk.Tracks machine.setting machine.current (Value.AtHome machine.setting) walk plain) :
    Homecoming held ([(machine.walk walk).1], (machine.walk walk).2)
      ([(machine.perform plain).1], (machine.perform plain).2) := by
  have ended := tracks machine.state home.state
  unfold Machine.walk Machine.perform
  generalize walk ⟨machine.state, machine.current⟩ = walked at ended ⊢
  generalize plain machine.state = final at ended ⊢
  cases ended with
  | ok fit stateHome =>
    refine ⟨rfl, by simp, ⟨home.closed, stateHome, home.held⟩, fun value listed => ?_⟩
    cases List.mem_singleton.1 listed
    exact fit
  | error present stateHome =>
    refine ⟨rfl, ?_, ⟨home.closed, stateHome, home.held⟩, by simp⟩
    intro answer listed same
    rw [List.mem_singleton.1 listed] at same
    exact present (Except.error.inj same)

/-- A proper errand comes home. -/
theorem AtHome.carryOut {routines : Routines} (honest : routines.Honest) {errand : Errand}
    {depth : Nat} (proper : (Operation.carryOut errand depth).Proper machine held) :
    Homecoming held
      ([(machine.walkOut routines depth errand).1], (machine.walkOut routines depth errand).2)
      ([(machine.carryOut (.ofRoutines routines) depth errand).1],
        (machine.carryOut (.ofRoutines routines) depth errand).2) := by
  have alongside := Walk.alongside_run home.closed honest depth
  cases errand with
  | program id units =>
    obtain ⟨code, hasCode, has⟩ := proper
    have entered : (machine.enter id).AtHome held := ⟨home.closed, home.state, home.held⟩
    refine entered.walk (Walk.tracks_last .void fun unit listed => ?_)
    exact alongside.node hasCode (has unit listed) machine.setting.global
  | node id scope =>
    obtain ⟨code, hasCode, has⟩ := proper
    exact home.walk (alongside.node hasCode has scope)
  | call callee args =>
    have handed : ∀ value ∈ callee :: args, value.AtHome machine.setting := fun value listed =>
      (proper value listed).atHome home.held
    obtain ⟨calleeHome, argsHome⟩ := List.forall_mem_cons.1 handed
    exact home.walk (alongside.call machine.current calleeHome argsHome)

end Performing

/-- Nodes of the current program, one after the other, come home. -/
theorem AtHome.evaluateEach {machine : Machine} {held : List Value} (home : machine.AtHome held)
    {routines : Routines} (honest : routines.Honest) (depth : Nat) {code : Program}
    (hasCode : machine.setting.program? machine.current = some code) {units : List NodeId}
    (has : ∀ unit ∈ units, code.HasNode unit) :
    Homecoming held (machine.walkEach routines depth units)
      (machine.evaluateEach (.ofRoutines routines) depth units) := by
  induction units generalizing machine held with
  | nil => exact ⟨rfl, by simp [Machine.evaluateEach], home, by simp [Machine.evaluateEach]⟩
  | cons unit units ih =>
    obtain ⟨here, later⟩ := List.forall_mem_cons.1 has
    let errand := Errand.node unit machine.setting.global
    let ended := machine.carryOut (.ofRoutines routines) depth errand
    have proper : (Operation.carryOut errand depth).Proper machine held := ⟨code, hasCode, here⟩
    have first := home.carryOut honest proper
    have walked : machine.walkOut routines depth errand = ended := by
      obtain ⟨sameAnswer, sameMachine⟩ := Prod.mk.inj first.same
      exact Prod.ext (List.cons.inj sameAnswer).1 sameMachine
    have sameSetting : ended.2.setting = machine.setting := setting_perform machine _
    have sameCurrent : ended.2.current = machine.current := current_perform machine _
    have middleCode : ended.2.setting.program? ended.2.current = some code := by
      rw [sameSetting, sameCurrent]
      exact hasCode
    have rest : Homecoming held (ended.2.walkEach routines depth units)
        (ended.2.evaluateEach (.ofRoutines routines) depth units) :=
      ih first.home middleCode later
    have restSetting : (ended.2.evaluateEach (.ofRoutines routines) depth units).2.setting =
        ended.2.setting := setting_evaluateEach ended.2 _ depth units
    have whole : machine.evaluateEach (.ofRoutines routines) depth (unit :: units) =
        (ended.1 :: (ended.2.evaluateEach (.ofRoutines routines) depth units).1,
          (ended.2.evaluateEach (.ofRoutines routines) depth units).2) := rfl
    rw [whole]
    refine ⟨?_, ?_, rest.home, ?_⟩
    · have parts : machine.walkEach routines depth (unit :: units) =
          ((machine.walkOut routines depth errand).1 ::
            ((machine.walkOut routines depth errand).2.walkEach routines depth units).1,
          ((machine.walkOut routines depth errand).2.walkEach routines depth units).2) := rfl
      rw [parts, walked, rest.same]
    · exact List.forall_mem_cons.2 ⟨first.present _ (List.mem_singleton_self _), rest.present⟩
    · intro value listed
      rcases List.mem_cons.1 listed with same | later
      · rw [restSetting]
        exact first.answers value (List.mem_singleton.2 same)
      · exact rest.answers value later

/-- The programs of a machine are kept when a program is loaded. -/
theorem keeps_load (machine : Machine) (draft : Draft) :
    machine.setting.Keeps (machine.load draft).2.setting :=
  fun _ _ found => machine.program?_operate .standard (.load draft) found

section Operating

variable {machine : Machine} {held : List Value} (home : machine.AtHome held)
include home

/-- Loading a built draft leaves all values at home. -/
theorem AtHome.load {draft : Draft} {returned : List NodeId} (built : draft.Built returned) :
    (machine.load draft).2.AtHome held where
  closed := by
    intro id code found
    change (machine.setting.programs.push draft.program)[id.index]? = some code at found
    rw [Array.getElem?_push] at found
    split at found
    · cases found
      exact built.closed.1
    · exact home.closed id code found
  state := fun value bound => (home.state value bound).mono (machine.keeps_load draft)
  held := fun value listed => (home.held value listed).mono (machine.keeps_load draft)

/-- Binding a value at home at the top level leaves all values at home. -/
theorem AtHome.bindGlobal (name : String) {value : Value} (atHome : value.AtHome machine.setting) :
    Homecoming held
      ([(machine.bindGlobal name value).1.map fun _ => .void], (machine.bindGlobal name value).2)
      ([(machine.bindGlobal name value).1.map fun _ => .void],
        (machine.bindGlobal name value).2) := by
  let entered := (machine.intern name).2
  have keeps : machine.setting.Keeps entered.setting := fun _ _ found => found
  have enteredState : entered.state.AtHome entered.setting := fun value bound =>
    (home.state value bound).mono keeps
  have heldHome : ∀ value ∈ held, value.AtHome entered.setting := fun value listed =>
    (home.held value listed).mono keeps
  have homely := Eval.homely_declare machine.setting.global (machine.intern name).1
    (atHome.mono keeps)
  obtain ⟨results, stops⟩ := homely entered.state enteredState
  have performed : machine.bindGlobal name value = entered.perform
      (Eval.declare entered.setting machine.setting.global (machine.intern name).1 value) := rfl
  rw [performed]
  unfold Machine.perform
  cases ended : Eval.declare entered.setting machine.setting.global (machine.intern name).1 value
      entered.state with
  | ok _ final =>
    refine ⟨rfl, by simp [Except.map], ⟨home.closed, (results _ final ended).2, heldHome⟩, ?_⟩
    intro other listed
    cases List.mem_singleton.1 listed
    exact .void
  | error stop final =>
    obtain ⟨present, finalHome⟩ := stops stop final ended
    exact ⟨rfl, by simpa [Except.map] using present, ⟨home.closed, finalHome, heldHome⟩,
      by simp [Except.map]⟩

/-- A proper operation comes home. -/
theorem AtHome.operate {routines : Routines} (honest : routines.Honest) {operation : Operation}
    (proper : operation.Proper machine held) :
    Homecoming held (machine.walkThrough routines operation)
      (machine.operate (.ofRoutines routines) operation) := by
  cases operation with
  | load draft =>
    obtain ⟨returned, built⟩ := proper
    exact ⟨rfl, by simp [Machine.operate], home.load built, by simp [Machine.operate]⟩
  | carryOut errand depth => exact home.carryOut honest proper
  | runEach program units depth =>
    obtain ⟨code, hasCode, has⟩ := proper
    have entered : (machine.enter program).AtHome held := ⟨home.closed, home.state, home.held⟩
    exact entered.evaluateEach honest depth hasCode has
  | bindGlobal name value => exact home.bindGlobal name (proper.atHome home.held)

/-- A collection leaves all values at home. -/
theorem AtHome.collect (roots : List Value) : (machine.collect roots).2.AtHome held :=
  ⟨home.closed, fun value bound => home.state value (Store.holds_of_collect bound), home.held⟩

end Operating

/-- At the start all values are at home. -/
theorem atHome_start (symbols : SymbolTable) (maxHops : Nat) (output : Sink) :
    (start symbols maxHops output).AtHome [] where
  closed := by
    intro id code found
    have single := Array.mem_of_getElem? found
    rw [List.mem_singleton.1 (Array.mem_toList_iff.2 single)]
    exact Program.closed_empty
  state := by
    intro value held
    obtain ⟨native, rfl⟩ :=
      exists_native_of_mem_builtinBindings (Store.holds_of_allocate_empty held)
    exact .native native
  held := by simp

/-- In an orderly session all values are at home. -/
theorem Orderly.atHome {machine : Machine} {held : List Value} (orderly : Orderly machine held) :
    machine.AtHome held := by
  induction orderly with
  | start symbols maxHops output => exact atHome_start symbols maxHops output
  | operate _ honest operation proper ih =>
    have homecoming := ih.operate honest proper
    refine ⟨homecoming.home.closed, homecoming.home.state, fun value listed => ?_⟩
    rcases List.mem_append.1 listed with before | given
    · exact homecoming.home.held value before
    · exact homecoming.answers value (Answer.mem_flatMap_values.1 given)
  | collect _ roots ih => exact ih.collect roots
  | look _ bound ih => exact ⟨ih.closed, ih.state, List.forall_mem_cons.2 ⟨ih.state _ bound, ih.held⟩⟩

/-- In an orderly session a machine whose walks look every position up in their current program, and
check that it belongs there, gives the same answers and is the same machine afterwards, also in what
is current, and misses nothing. All values that it holds and hands out are at home. And from every
situation a walk ends in the program that was current when it started, with a value or a stop. -/
theorem positions_at_home {machine : Machine} {held : List Value} (orderly : Orderly machine held)
    {routines : Routines} (honest : routines.Honest) {operation : Operation}
    (proper : operation.Proper machine held) :
    let walked := machine.walkThrough routines operation
    walked = machine.operate (.ofRoutines routines) operation ∧
    (∀ answer ∈ walked.1, answer ≠ .error .missing) ∧
    (∀ value, walked.2.scopes.Holds value → value.AtHome walked.2.setting) ∧
    (∀ value, .ok value ∈ walked.1 → value.AtHome walked.2.setting) ∧
    ∀ depth stride situation,
      Walk.currentAfter (Walk.run machine.setting routines depth stride situation) =
        situation.current := by
  intro walked
  have homecoming := orderly.atHome.operate honest proper
  have same : walked = machine.operate (.ofRoutines routines) operation := homecoming.same
  rw [same]
  exact ⟨rfl, homecoming.present, homecoming.home.state, homecoming.answers,
    Walk.returns_run machine.setting routines⟩

end Machine

/-- The standard host hands over only what it has been given. -/
theorem Host.standardRoutines_honest : Host.standardRoutines.Honest := by
  intro entry setting args
  unfold Host.standardRoutines
  split
  · exact fun occupancy => .plain (Or.inl rfl)
  · split
    · cases args with
      | nil =>
        refine ⟨.plain (Or.inr rfl), by simp, fun _ => trivial, fun result => ?_⟩
        exact .given (Or.inr rfl)
      | cons callee rest =>
        refine ⟨.given List.mem_cons_self, fun arg listed => ?_, fun _ => trivial, fun result => ?_⟩
        · exact .given (List.mem_cons_of_mem callee listed)
        · exact .given (Or.inr rfl)
    · exact .plain (Or.inr rfl)

/-- Draft of a program that declares a function. -/
def identityDraft : Draft :=
  let body := (Draft.add .dummy (.read "x")).run (.start .initial)
  ((Draft.add .dummy (.function "f" ["x"] body.1)).run body.2).2

/-- Draft of a program that calls the function on the elements of an array. -/
def mappingDraft : Draft :=
  let callee := (Draft.add .dummy (.read "f")).run (.start identityDraft.symbols)
  let item := (Draft.add .dummy (.int 1)).run callee.2
  let items := (Draft.add .dummy (.array [item.1])).run item.2
  ((Draft.add .dummy (.call "map" [callee.1, items.1])).run items.2).2

/-- The first draft is built. -/
theorem identityDraft_built : identityDraft.Built [⟨1⟩, ⟨0⟩] := by
  have body := (Draft.Built.start .initial).add .dummy (.read "x") (by simp [Form.children])
  exact body.add .dummy (.function "f" ["x"] ⟨0⟩) (by decide)

/-- The second draft is built. -/
theorem mappingDraft_built : mappingDraft.Built [⟨3⟩, ⟨2⟩, ⟨1⟩, ⟨0⟩] := by
  have callee := (Draft.Built.start identityDraft.symbols).add .dummy (.read "f")
    (by simp [Form.children])
  have item := callee.add .dummy (.int 1) (by simp [Form.children])
  have items := item.add .dummy (.array [⟨1⟩]) (by decide)
  exact items.add .dummy (.call "map" [⟨0⟩, ⟨2⟩]) (by decide)

/-- Machine in which the first program has been run and the second one has been loaded. -/
def mappingMachine : Machine :=
  let host := Host.ofRoutines Host.standardRoutines
  let start := Machine.start .initial Machine.defaultHops (.buffer "")
  let loaded := (start.operate host (.load identityDraft)).2
  let declared := (loaded.operate host (.carryOut (.program ⟨1⟩ [⟨1⟩]) 3)).2
  (declared.operate host (.load mappingDraft)).2

/-- The session has been orderly. -/
theorem mappingMachine_orderly : ∃ held, mappingMachine.Orderly held := by
  have honest := Host.standardRoutines_honest
  have started := Machine.Orderly.start .initial Machine.defaultHops (.buffer "")
  have loaded := started.operate honest (.load identityDraft) ⟨_, identityDraft_built⟩
  have declared := loaded.operate honest (.carryOut (.program ⟨1⟩ [⟨1⟩]) 3)
    ⟨identityDraft.program, rfl, by decide⟩
  exact ⟨_, declared.operate honest (.load mappingDraft) ⟨_, mappingDraft_built⟩⟩

/-- The call of the function of the first program from the second one is walked through, with a
value. -/
theorem Machine.positions_at_home_mappingMachine :
    let operation := Operation.carryOut (.program ⟨2⟩ [⟨3⟩]) 6
    let walked := mappingMachine.walkThrough Host.standardRoutines operation
    walked = mappingMachine.operate (.ofRoutines Host.standardRoutines) operation ∧
    (∀ answer ∈ walked.1, answer.toOption.isSome = true) ∧
    (∀ answer ∈ walked.1, answer ≠ .error .missing) ∧
    walked.2.current = ⟨2⟩ := by
  intro operation walked
  obtain ⟨held, orderly⟩ := mappingMachine_orderly
  have proper : operation.Proper mappingMachine held := ⟨mappingDraft.program, rfl, by decide⟩
  obtain ⟨same, present, _⟩ := positions_at_home orderly Host.standardRoutines_honest proper
  have answered : ∀ answer ∈ walked.1, answer.toOption.isSome = true := by decide +kernel
  have current : walked.2.current = ⟨2⟩ := by decide +kernel
  exact ⟨same, answered, present, current⟩

end ScopeMachine
