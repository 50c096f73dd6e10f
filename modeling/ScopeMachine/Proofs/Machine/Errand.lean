import ScopeMachine.Proofs.Evaluation.Step
import ScopeMachine.Proofs.Machine.Session

/-!
# Courses of errands

An errand is work over runs: it asks for one task after the other. It follows a course that starts
with what the host hands over, or with the top level as its frame. What is carried out changes neither
the setting nor what has been loaded, and a load keeps what has been loaded before.
-/

namespace ScopeMachine

namespace Errand

/-- Work of an errand, over an evaluator of its tasks. -/
def work (setting : Setting) (current : ProgramId) (errand : Errand) (evaluate : Evaluator) :
    Eval Value :=
  match errand with
  | program id units => Eval.last (fun unit => evaluate (.node id unit setting.global)) .void units
  | node id scope => evaluate (.node current id scope)
  | call callee args => evaluate (.call callee args)

/-- What an errand starts with. -/
def holding (setting : Setting) : Errand → Holding
  | program _ _ => .ofFrame setting.global
  | node _ scope => .ofFrame scope
  | call callee args => .ofTask setting (.call callee args)

/-- The evaluation of an errand is its work over runs. -/
theorem evaluation_eq_work (setting : Setting) (current : ProgramId) (host : Host) (depth : Nat)
    (errand : Errand) :
    errand.evaluation setting current host depth =
      errand.work setting current (Eval.run setting host depth) := by
  cases errand <;> rfl

/-- The work of an errand follows. -/
theorem follows_work {licence : Eval.Licence} (setting : Setting) (current : ProgramId)
    (errand : Errand) (state : State) :
    Eval.Follows licence (errand.holding setting) state (errand.work setting current)
      fun last _ value => last.Has value := by
  cases errand with
  | program id units =>
    refine Eval.follows_last (Holding.has_of_handles_eq_nil rfl) fun unit _ later _ more => ?_
    exact Eval.follows_ask (more.1 (Set.mem_singleton _))
  | node id scope => exact Eval.follows_ask (Set.mem_singleton scope)
  | call callee args =>
    exact Eval.follows_ask (List.forall_mem_cons.1 (Holding.has_ofTask_call setting callee args))

end Errand

/-- The state of a machine after an evaluation is the one that the evaluation leaves. -/
@[simp] theorem Machine.state_perform {α : Type} (machine : Machine) (evaluation : Eval α) :
    (machine.perform evaluation).2.state = evaluation.after machine.state := by
  unfold perform Eval.after
  cases evaluation machine.state <;> rfl

/-- An evaluation does not change the setting of its machine. -/
@[simp] theorem Machine.setting_perform {α : Type} (machine : Machine) (evaluation : Eval α) :
    (machine.perform evaluation).2.setting = machine.setting := by
  unfold perform
  cases evaluation machine.state <;> rfl

/-- An evaluation does not change the current program of its machine. -/
@[simp] theorem Machine.current_perform {α : Type} (machine : Machine) (evaluation : Eval α) :
    (machine.perform evaluation).2.current = machine.current := by
  unfold perform
  cases evaluation machine.state <;> rfl

/-- Setting after a program has been loaded. -/
def Setting.loaded (setting : Setting) (draft : Draft) : Setting :=
  { setting with
    symbols := draft.symbols
    programs := setting.programs.push draft.program }

/-- Programs stay where they are when another one is loaded. -/
theorem Setting.program?_loaded {setting : Setting} {id : ProgramId} {code : Program}
    (found : setting.program? id = some code) (draft : Draft) :
    (setting.loaded draft).program? id = some code := by
  obtain ⟨inside, same⟩ := Array.getElem?_eq_some_iff.1 found
  exact (Array.getElem?_push_lt inside).trans (congrArg some same)

namespace Machine

/-- An errand does not change the setting. -/
theorem setting_carryOut (machine : Machine) (host : Host) (depth : Nat) (errand : Errand) :
    (machine.carryOut host depth errand).2.setting = machine.setting := by
  rw [carryOut_eq, setting_perform]
  rfl

/-- Nodes that are evaluated one after the other do not change the setting. -/
theorem setting_evaluateEach (machine : Machine) (host : Host) (depth : Nat) (units : List NodeId) :
    (machine.evaluateEach host depth units).2.setting = machine.setting := by
  induction units generalizing machine with
  | nil => rfl
  | cons unit units ih =>
    exact (ih _).trans (machine.setting_carryOut host depth (.node unit machine.setting.global))

/-- Programs stay where an operation finds them. -/
theorem program?_operate (machine : Machine) (host : Host) (operation : Operation) {id : ProgramId}
    {code : Program} (found : machine.setting.program? id = some code) :
    (machine.operate host operation).2.setting.program? id = some code := by
  cases operation with
  | load draft => exact Setting.program?_loaded found draft
  | carryOut errand depth =>
    have same := machine.setting_carryOut host depth errand
    exact same.symm ▸ found
  | runEach program units depth =>
    have same := (machine.enter program).setting_evaluateEach host depth units
    exact same.symm ▸ found
  | bindGlobal name value =>
    have same := (machine.intern name).2.setting_perform
      (Eval.declare (machine.intern name).2.setting machine.setting.global (machine.intern name).1
        value)
    exact same.symm ▸ found

end Machine

end ScopeMachine
