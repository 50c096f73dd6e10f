import ScopeMachine.Proofs.Evaluation.HopLimit
import ScopeMachine.Proofs.Machine.Errand

/-!
# Raising the hop limit of a machine

The hop limit of a machine decides which chains of references are too long and nothing else. Whatever
a machine answers under one limit, a failure for a chain that is too long apart, it answers under
every higher limit, and it leaves the same scopes and the same printed text.
-/

namespace ScopeMachine

/-- The answer tells of a chain of references that is too long. -/
def Answer.IsChainTooLong (answer : Answer) : Prop :=
  ∃ stop : Stop, answer = .error stop ∧ stop.IsChainTooLong

/-- The evaluation of an errand persists. -/
theorem Errand.persists_evaluation {routines : Routines} {setting : Setting} {more : Nat}
    (limits : setting.maxHops ≤ more) (passOn : routines.PassOn) (current : ProgramId) (depth : Nat)
    (errand : Errand) :
    Eval.Persists (errand.evaluation setting current (.ofRoutines routines) depth)
      (errand.evaluation (setting.withHops more) current (.ofRoutines routines) depth) := by
  have runs : Evaluator.Persists (Eval.run setting (.ofRoutines routines) depth)
      (Eval.run (setting.withHops more) (.ofRoutines routines) depth) :=
    Eval.persists_run limits passOn depth
  cases errand with
  | program id units => exact Eval.persists_last (fun unit => runs _) _ units
  | node id scope => exact runs _
  | call callee args => exact runs _

namespace Machine

/-- The machine with another hop limit. -/
def withHops (machine : Machine) (maxHops : Nat) : Machine :=
  { machine with setting := machine.setting.withHops maxHops }

/-- A result that tells of no chain too long is the result of every evaluation that persists. -/
theorem perform_withHops {α : Type} (machine : Machine) (more : Nat) {first second : Eval α}
    (persists : Eval.Persists first second)
    (short : ∀ stop : Stop, (machine.perform first).1 = .error stop → ¬ stop.IsChainTooLong) :
    (machine.withHops more).perform second =
      ((machine.perform first).1, (machine.perform first).2.withHops more) := by
  have sameState : (machine.withHops more).state = machine.state := rfl
  unfold Machine.perform at short ⊢
  rw [sameState]
  rcases persists machine.state with ⟨stop, final, stopped, tooLong⟩ | same
  · rw [stopped] at short
    exact absurd tooLong (short stop rfl)
  · rw [same]
    cases first machine.state with
    | ok value final => rfl
    | error stop final => rfl

section Runs

variable {routines : Routines} {more : Nat} (passOn : routines.PassOn) {machine : Machine}
  (limits : machine.setting.maxHops ≤ more)
include passOn limits

/-- An errand that does not meet a chain too long is carried out alike under a higher limit. -/
theorem carryOut_withHops (depth : Nat) (errand : Errand)
    (short : ¬ (machine.carryOut (.ofRoutines routines) depth errand).1.IsChainTooLong) :
    (machine.withHops more).carryOut (.ofRoutines routines) depth errand =
      ((machine.carryOut (.ofRoutines routines) depth errand).1,
        (machine.carryOut (.ofRoutines routines) depth errand).2.withHops more) := by
  have persists := errand.persists_evaluation limits passOn machine.current depth
  rw [carryOut_eq] at short
  rw [carryOut_eq, carryOut_eq]
  exact (machine.enter (errand.entered machine.current)).perform_withHops more persists
    fun stop stopped tooLong => short ⟨stop, stopped, tooLong⟩

/-- Nodes that do not meet a chain too long are evaluated alike under a higher limit. -/
theorem evaluateEach_withHops (depth : Nat) (units : List NodeId)
    (short : ∀ answer ∈ (machine.evaluateEach (.ofRoutines routines) depth units).1,
      ¬ Answer.IsChainTooLong answer) :
    (machine.withHops more).evaluateEach (.ofRoutines routines) depth units =
      ((machine.evaluateEach (.ofRoutines routines) depth units).1,
        (machine.evaluateEach (.ofRoutines routines) depth units).2.withHops more) := by
  induction units generalizing machine with
  | nil => rfl
  | cons unit units ih =>
    obtain ⟨here, later⟩ := List.forall_mem_cons.1 short
    let middle := (machine.evaluate (.ofRoutines routines) depth unit machine.setting.global).2
    have sameSetting : middle.setting = machine.setting := setting_perform machine _
    have middleLimits : middle.setting.maxHops ≤ more := by
      rw [sameSetting]
      exact limits
    have first : (machine.withHops more).evaluate (.ofRoutines routines) depth unit
        (machine.withHops more).setting.global = (_, middle.withHops more) :=
      carryOut_withHops passOn limits depth (.node unit machine.setting.global) here
    have rest := ih middleLimits later
    simp only [evaluateEach, first, rest]
    rfl

/-- Whatever a machine answers under its hop limit, a failure for a chain of references that is too
long apart, it answers under every higher limit; and it is then the same machine, the limit apart. -/
theorem operate_withHops (operation : Operation)
    (short : ∀ answer ∈ (machine.operate (.ofRoutines routines) operation).1,
      ¬ answer.IsChainTooLong) :
    (machine.withHops more).operate (.ofRoutines routines) operation =
      ((machine.operate (.ofRoutines routines) operation).1,
        (machine.operate (.ofRoutines routines) operation).2.withHops more) := by
  cases operation with
  | load draft => rfl
  | carryOut errand depth =>
    have same := carryOut_withHops passOn limits depth errand (short _ (List.mem_singleton_self _))
    exact congrArg (fun ended => ([ended.1], ended.2)) same
  | runEach program units depth =>
    have enteredLimits : (machine.enter program).setting.maxHops ≤ more := limits
    exact evaluateEach_withHops passOn enteredLimits depth units short
  | bindGlobal name value =>
    let entered := (machine.intern name).2
    have same := entered.perform_withHops more
      (Eval.persists_refl
        (Eval.declare entered.setting machine.setting.global (machine.intern name).1 value))
      fun stop stopped tooLong => short _ (List.mem_singleton_self _)
        ⟨stop, congrArg (Except.map fun _ => Value.void) stopped, tooLong⟩
    exact congrArg (fun ended => ([ended.1.map fun _ => Value.void], ended.2)) same

end Runs

end Machine

/-- The standard host does not look at the hop limit and passes failures on. -/
theorem Host.standardRoutines_passOn : Host.standardRoutines.PassOn where
  withHops := fun _ _ _ _ => rfl
  passesOn := by
    intro entry setting args
    unfold Host.standardRoutines
    split
    · exact fun _ => trivial
    · split
      · split <;> exact ⟨fun _ => rfl, fun _ => trivial⟩
      · trivial

/-- Program that declares a name, declares a reference to it, and reads the reference. -/
def chainedProgram : Program :=
  { nodes := #[⟨.int 1, .dummy⟩, ⟨.declare ⟨9⟩ none ⟨0⟩, .dummy⟩, ⟨.reference ⟨9⟩, .dummy⟩,
      ⟨.declare ⟨10⟩ none ⟨2⟩, .dummy⟩, ⟨.read ⟨10⟩, .dummy⟩]
    lists := #[]
    params := #[]
    classes := #[] }

/-- Machine that follows one reference at most, with the program loaded. -/
def chainedMachine : Machine :=
  ((Machine.start .initial 1 (.buffer "")).load
    ⟨(SymbolTable.initial.internAll ["x", "r"]).2, chainedProgram⟩).2

/-- The program ends with values under a limit of one, and with the same ones under a limit of
ten. -/
theorem Machine.operate_withHops_chainedMachine :
    let operation := Operation.runEach ⟨1⟩ [⟨1⟩, ⟨3⟩, ⟨4⟩] 3
    let ended := chainedMachine.operate (.ofRoutines Host.standardRoutines) operation
    chainedMachine.setting.maxHops ≤ 10 ∧
    (∀ answer ∈ ended.1, answer.toOption.isSome = true) ∧
    (chainedMachine.withHops 10).operate (.ofRoutines Host.standardRoutines) operation =
      (ended.1, ended.2.withHops 10) := by
  intro operation ended
  have limits : chainedMachine.setting.maxHops ≤ 10 := by decide +kernel
  have answered : ∀ answer ∈ ended.1, answer.toOption.isSome = true := by decide +kernel
  have short : ∀ answer ∈ ended.1, ¬ answer.IsChainTooLong := by
    rintro answer listed ⟨stop, rfl, -⟩
    exact absurd (answered _ listed) (by simp [Except.toOption])
  exact ⟨limits, answered,
    operate_withHops Host.standardRoutines_passOn limits operation short⟩

end ScopeMachine
