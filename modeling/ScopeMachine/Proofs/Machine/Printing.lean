import ScopeMachine.Proofs.Machine.Session
import ScopeMachine.Proofs.Printing.Faithful

/-!
# Machines with different sinks

Machines that differ only in their sinks answer alike and go on differing only in their sinks. What
an operation prints is settled by the operation, the scopes and the programs: it is the text of the
calls of `print` and `println` that are completed, in order, and every sink is given it after what it
had before, also by an operation that stops halfway.
-/

namespace ScopeMachine

/-- Evaluation that tells, for an errand. -/
def Errand.telling (setting : Setting) (current : ProgramId) (reply : Reply) (depth : Nat) :
    Errand → Telling Value
  | program id units =>
    Telling.last (fun unit => Telling.run setting reply depth (.node id unit setting.global)) .void
      units
  | node id scope => Telling.run setting reply depth (.node current id scope)
  | call callee args => Telling.run setting reply depth (.call callee args)

/-- The evaluation of an errand is told. -/
theorem Errand.tells_evaluation (setting : Setting) (current : ProgramId) (reply : Reply)
    (depth : Nat) (errand : Errand) :
    Telling.Tells setting.symbols (errand.telling setting current reply depth)
      (errand.evaluation setting current (.quiet reply) depth) := by
  have runs : Teller.Tells setting.symbols (Telling.run setting reply depth)
      (Eval.run setting (.quiet reply) depth) := Telling.tells_run depth
  cases errand with
  | program id units => exact Telling.tells_last (fun unit => runs _) _ units
  | node id scope => exact runs _
  | call callee args => exact runs _

namespace Ledger

/-- Result of an evaluation that tells, and the ledger after it. -/
def perform {α : Type} (ledger : Ledger) (telling : Telling α) : Except Stop α × Ledger :=
  match telling ledger with
  | .ok value ended => (.ok value, ended)
  | .error stop ended => (.error stop, ended)

/-- Evaluates nodes of a program one after the other at the top level, whatever stops. -/
def evaluateEach (setting : Setting) (current : ProgramId) (reply : Reply) (depth : Nat)
    (ledger : Ledger) : List NodeId → List Answer × Ledger
  | [] => ([], ledger)
  | id :: rest =>
    let (answer, ledger) :=
      ledger.perform (Telling.run setting reply depth (.node current id setting.global))
    let (answers, ledger) := evaluateEach setting current reply depth ledger rest
    (answer :: answers, ledger)

/-- Where nothing has been told, a sink is as it was. -/
theorem state_of_told_eq_nil {ledger : Ledger} (nothing : ledger.told = [])
    (symbols : SymbolTable) (sink : Sink) : ledger.state symbols sink = ⟨ledger.scopes, sink⟩ := by
  simp [state, text, nothing, String.join]

/-- What prints nothing tells nothing. -/
theorem told_perform_own {α : Type} (ledger : Ledger) (evaluation : Eval α) :
    (ledger.perform (Telling.own evaluation)).2.told = ledger.told := by
  unfold perform Telling.own
  cases evaluation ⟨ledger.scopes, .silent⟩ <;> rfl

end Ledger

namespace Machine

/-- The machine with another sink. -/
def withOutput (machine : Machine) (sink : Sink) : Machine :=
  { machine with state := { machine.state with output := sink } }

/-- The machine with the scopes of a ledger, in which all that it has told has been printed into a
sink. -/
def withLedger (machine : Machine) (sink : Sink) (ledger : Ledger) : Machine :=
  { machine with state := ledger.state machine.symbols sink }

/-- Answers to an operation, the scopes after it, and what is printed during it. -/
def tell (machine : Machine) (reply : Reply) (operation : Operation) : List Answer × Ledger :=
  let start : Ledger := ⟨machine.scopes, []⟩
  match operation with
  | .load _ => ([], start)
  | .carryOut errand depth =>
    let (answer, ledger) :=
      start.perform (errand.telling machine.setting machine.current reply depth)
    ([answer], ledger)
  | .runEach program units depth => start.evaluateEach machine.setting program reply depth units
  | .bindGlobal name value =>
    let (symbol, entered) := machine.intern name
    let (answer, ledger) :=
      start.perform
        (Telling.own (Eval.declare entered.setting entered.setting.global symbol value))
    ([answer.map fun _ => .void], ledger)

section Telling

variable (machine : Machine) (sink : Sink)

/-- At the beginning nothing has been told. -/
theorem withOutput_eq_withLedger :
    machine.withOutput sink = machine.withLedger sink ⟨machine.scopes, []⟩ := by
  rw [withLedger, Ledger.state_of_told_eq_nil rfl]
  rfl

/-- What tells has the same result as what prints, and leaves the same machine. -/
theorem perform_withLedger {α : Type} (ledger : Ledger) {telling : Telling α}
    {plain : Eval α} (tells : Telling.Tells machine.symbols telling plain) :
    (machine.withLedger sink ledger).perform plain =
      ((ledger.perform telling).1, machine.withLedger sink (ledger.perform telling).2) := by
  have printed : plain (machine.withLedger sink ledger).state = _ := tells sink ledger
  rw [perform, Ledger.perform, printed]
  cases telling ledger <;> rfl

/-- Nodes that are evaluated one after the other print what they tell. -/
theorem evaluateEach_withLedger (ledger : Ledger) (reply : Reply) (depth : Nat)
    (units : List NodeId) :
    (machine.withLedger sink ledger).evaluateEach (.quiet reply) depth units =
      ((ledger.evaluateEach machine.setting machine.current reply depth units).1,
        machine.withLedger sink
          (ledger.evaluateEach machine.setting machine.current reply depth units).2) := by
  induction units generalizing ledger with
  | nil => rfl
  | cons unit units ih =>
    let ended := ledger.perform
      (Telling.run machine.setting reply depth (.node machine.current unit machine.setting.global))
    have first : (machine.withLedger sink ledger).evaluate (.quiet reply) depth unit
        (machine.withLedger sink ledger).setting.global = (ended.1, machine.withLedger sink ended.2) :=
      machine.perform_withLedger sink ledger (Telling.tells_run depth _)
    simp only [evaluateEach, Ledger.evaluateEach, first, ih]
    rfl

end Telling

/-- Whatever the sink is, the answers and the scopes are those that are told, the sink has been given
what is told, and nothing else depends on it. -/
theorem exists_operate_withOutput (machine : Machine) (reply : Reply) (operation : Operation) :
    ∃ after : Machine, ∀ sink, (machine.withOutput sink).operate (.quiet reply) operation =
      ((machine.tell reply operation).1,
        { after with state := (machine.tell reply operation).2.state machine.symbols sink }) := by
  let start : Ledger := ⟨machine.scopes, []⟩
  cases operation with
  | load draft =>
    refine ⟨(machine.load draft).2, fun sink => ?_⟩
    have silent : start.state machine.symbols sink = ⟨machine.scopes, sink⟩ :=
      Ledger.state_of_told_eq_nil rfl machine.symbols sink
    change _ = (_, { (machine.load draft).2 with state := start.state machine.symbols sink })
    rw [silent]
    rfl
  | carryOut errand depth =>
    let entered := machine.enter (errand.entered machine.current)
    refine ⟨entered, fun sink => ?_⟩
    have told := errand.tells_evaluation machine.setting machine.current reply depth
    have carried := entered.perform_withLedger sink start told
    rw [withOutput_eq_withLedger, operate, carryOut_eq]
    exact congrArg (fun ended => ([ended.1], ended.2)) carried
  | runEach program units depth =>
    refine ⟨machine.enter program, fun sink => ?_⟩
    rw [withOutput_eq_withLedger]
    exact (machine.enter program).evaluateEach_withLedger sink start reply depth units
  | bindGlobal name value =>
    let entered := (machine.intern name).2
    let binding := Eval.declare entered.setting entered.setting.global (machine.intern name).1 value
    refine ⟨entered, fun sink => ?_⟩
    have told : Telling.Tells entered.symbols (Telling.own binding) binding :=
      Telling.tells_own (Eval.mute_declare _ _ _ _)
    have bound : (entered.withOutput sink).perform binding = _ :=
      (congrArg (perform · binding) (entered.withOutput_eq_withLedger sink)).trans
        (entered.perform_withLedger sink start told)
    -- the name that is entered changes no text, since nothing is told
    have silent := Ledger.state_of_told_eq_nil (start.told_perform_own binding)
    rw [withLedger, silent entered.symbols, ← silent machine.symbols] at bound
    exact congrArg (fun ended => ([ended.1.map fun _ => Value.void], ended.2)) bound

/-- Whatever a host has a machine do, the answers, the scopes and everything else but the sink are the
same for all sinks. Every sink is given, after what it had before, the texts of the values for which
a call of `print` or `println` has been completed, in their order and with a line end after those of
`println`; so a buffer keeps what it had and has that text after it, and a silent sink stays
silent. -/
theorem sink_write_only (machine : Machine) (reply : Reply) (operation : Operation) :
    let answers := (machine.tell reply operation).1
    let ledger := (machine.tell reply operation).2
    let text := String.join (ledger.told.map (Utterance.text machine.symbols))
    let ended (sink : Sink) := (machine.withOutput sink).operate (.quiet reply) operation
    (∀ sink, (ended sink).1 = answers ∧ (ended sink).2.scopes = ledger.scopes ∧
      (ended sink).2.state.output = sink.print text) ∧
    (∀ first second, (ended first).2.withOutput (second.print text) = (ended second).2) ∧
    (∀ kept, (ended (.buffer kept)).2.output = kept ++ text) ∧
    (ended .silent).2.state.output = .silent := by
  intro answers ledger text ended
  obtain ⟨after, same⟩ := machine.exists_operate_withOutput reply operation
  have ends : ∀ sink, ended sink =
      (answers, { after with state := ⟨ledger.scopes, sink.print text⟩ }) := same
  simp only [ends]
  exact ⟨fun sink => ⟨trivial, rfl, trivial⟩, fun first second => rfl, fun kept => rfl, rfl⟩

-- a program prints a number with a line end and then divides it by zero
example :
    let program : Program :=
      { nodes := #[⟨.int 1, .dummy⟩, ⟨.call ⟨4⟩ ⟨0, 1⟩, .dummy⟩, ⟨.int 0, .dummy⟩,
          ⟨.binary .div ⟨0⟩ ⟨2⟩, .dummy⟩]
        lists := #[⟨0⟩]
        params := #[]
        classes := #[] }
    let machine := ((start .initial defaultHops .silent).load ⟨.initial, program⟩).2
    let told := machine.tell .void (.carryOut (.program ⟨1⟩ [⟨1⟩, ⟨3⟩]) 3)
    told.1.map (fun answer => answer.toOption.isSome) = [false] ∧
      told.2.text machine.symbols = "1\n" := by
  decide +kernel

end Machine

end ScopeMachine
