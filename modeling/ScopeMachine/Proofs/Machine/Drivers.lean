import ScopeMachine.Proofs.Machine.Home
import ScopeMachine.Proofs.Machine.Layout

/-!
# The two ways of running units

A host has units run up to the first stop, or one after the other whatever stops. Both ways advance
the machine by the same steps, and a step that stops leaves a machine that goes on in the same
program. So running up to the first stop is running every unit of the shortest beginning that ends
in a stop, and runs of two lists of units in a row are runs of both lists as one.
-/

namespace ScopeMachine

/-- The last answer is a stop. -/
def Answer.EndInStop (answers : List Answer) : Prop :=
  ∃ stop, answers.getLast? = some (.error stop)

/-- No answers do not end in a stop. -/
theorem Answer.not_endInStop_nil : ¬ Answer.EndInStop [] := fun ⟨_, last⟩ => nomatch last

/-- Units that are tried when the first stop ends a run, told by the answers that every beginning of
the units gives when nothing ends it. -/
inductive Tried (answers : List NodeId → List Answer) (units : List NodeId) :
    List NodeId → Prop where
  /-- The shortest beginning whose last unit stops. -/
  | stopped {part : List NodeId} (begins : part <+: units) (stops : Answer.EndInStop (answers part))
    (shortest : ∀ other, other <+: units → Answer.EndInStop (answers other) →
      part.length ≤ other.length) : Tried answers units part
  /-- All units, when none stops. -/
  | all (smooth : ∀ part, part <+: units → ¬ Answer.EndInStop (answers part)) :
    Tried answers units units

/-- Only one list of units is tried. -/
theorem Tried.unique {answers : List NodeId → List Answer} {units first second : List NodeId}
    (one : Tried answers units first) (other : Tried answers units second) : first = second := by
  cases one with
  | all smooth =>
    cases other with
    | all => rfl
    | stopped begins stops => exact absurd stops (smooth _ begins)
  | stopped begins stops shortest =>
    cases other with
    | all smooth => exact absurd stops (smooth _ begins)
    | stopped begins' stops' shortest' =>
      have shorter := shortest _ begins' stops'
      have longer := shortest' _ begins stops
      exact (List.prefix_of_prefix_length_le begins begins' shorter).eq_of_length_le longer

/-- Running up to the first stop and running every unit agree on a machine. -/
structure Machine.DriversAgree (runProgram : Machine → List NodeId → Answer × Machine)
    (runEach : Machine → List NodeId → List Answer × Machine) (machine : Machine) : Prop where
  /-- Some units are tried. -/
  exists_tried : ∀ units, ∃ tried, Tried (fun part => (runEach machine part).1) units tried
  /-- A run up to the first stop gives the last answer to the units that are tried, or void, and
  leaves the machine that they leave. -/
  program_eq : ∀ units tried, Tried (fun part => (runEach machine part).1) units tried →
    runProgram machine units =
      ((runEach machine tried).1.getLast?.getD (.ok .void), (runEach machine tried).2)
  /-- A run up to the first stop goes on where a first part of it has ended without a stop. -/
  program_append : ∀ front back, runProgram machine (front ++ back) =
    match runProgram machine front with
    | (.ok value, after) => if back = [] then (.ok value, after) else runProgram after back
    | (.error stop, after) => (.error stop, after)
  /-- A run of every unit goes on where a first part of it has ended, whatever has stopped. -/
  each_append : ∀ front back, runEach machine (front ++ back) =
    ((runEach machine front).1 ++ (runEach (runEach machine front).2 back).1,
      (runEach (runEach machine front).2 back).2)

/-- Evaluation of one unit: its answer and the machine after it. -/
abbrev Advance := Machine → NodeId → Answer × Machine

namespace Advance

variable (advance : Advance)

/-- Last answer up to the first stop, or a value for no units, and the machine after it. -/
def upToStop (machine : Machine) (value : Value) : List NodeId → Answer × Machine
  | [] => (.ok value, machine)
  | unit :: rest =>
    match advance machine unit with
    | (.ok next, after) => upToStop after next rest
    | (.error stop, after) => (.error stop, after)

/-- Answers to all units and the machine after them. -/
def throughout (machine : Machine) : List NodeId → List Answer × Machine
  | [] => ([], machine)
  | unit :: rest =>
    let (answer, after) := advance machine unit
    let (answers, last) := throughout after rest
    (answer :: answers, last)

/-- Units up to the first one that stops, which is the last of them. -/
def attempted (machine : Machine) : List NodeId → List NodeId
  | [] => []
  | unit :: rest =>
    match advance machine unit with
    | (.ok _, after) => unit :: attempted after rest
    | (.error _, _) => [unit]

variable {advance}

/-- A run through the units goes on where a first part of it has ended. -/
theorem throughout_append (machine : Machine) (front back : List NodeId) :
    advance.throughout machine (front ++ back) =
      ((advance.throughout machine front).1 ++
          (advance.throughout (advance.throughout machine front).2 back).1,
        (advance.throughout (advance.throughout machine front).2 back).2) := by
  induction front generalizing machine with
  | nil => rfl
  | cons unit front ih => simp only [List.cons_append, throughout, ih]

/-- A run up to the first stop goes on where a first part of it has ended without a stop. -/
theorem upToStop_append (machine : Machine) (value : Value) (front back : List NodeId) :
    advance.upToStop machine value (front ++ back) =
      match advance.upToStop machine value front with
      | (.ok value, after) => advance.upToStop after value back
      | (.error stop, after) => (.error stop, after) := by
  induction front generalizing machine value with
  | nil => rfl
  | cons unit front ih =>
    rw [List.cons_append, upToStop, upToStop]
    rcases advance machine unit with ⟨_ | next, after⟩
    · rfl
    · exact ih after next

/-- What a run starts with is its answer only for no units. -/
theorem upToStop_eq_ite (machine : Machine) (value other : Value) (units : List NodeId) :
    advance.upToStop machine value units =
      if units = [] then (.ok value, machine) else advance.upToStop machine other units := by
  cases units with
  | nil => rfl
  | cons unit rest => rfl

/-- A run up to the first stop gives the last answer to the attempted units and leaves the machine
that they leave. -/
theorem upToStop_eq_attempted (machine : Machine) (value : Value) (units : List NodeId) :
    advance.upToStop machine value units =
      ((advance.throughout machine (advance.attempted machine units)).1.getLast?.getD (.ok value),
        (advance.throughout machine (advance.attempted machine units)).2) := by
  induction units generalizing machine value with
  | nil => rfl
  | cons unit rest ih =>
    rw [upToStop, attempted]
    rcases step : advance machine unit with ⟨stop | next, after⟩
    · simp only [throughout, step]
      rfl
    · simp only [throughout, step, ih, List.getLast?_cons]
      rfl

/-- After a unit that does not stop, a run ends in a stop when its rest does. -/
theorem endInStop_throughout_cons {machine after : Machine} {unit : NodeId} {value : Value}
    (step : advance machine unit = (.ok value, after)) (rest : List NodeId) :
    Answer.EndInStop (advance.throughout machine (unit :: rest)).1 ↔
      Answer.EndInStop (advance.throughout after rest).1 := by
  simp only [throughout, step, Answer.EndInStop, List.getLast?_cons]
  cases (advance.throughout after rest).1.getLast? <;> simp

/-- After a unit that does not stop, what is tried of the rest is tried with the unit. -/
theorem tried_cons {machine after : Machine} {unit : NodeId} {value : Value}
    {rest tried : List NodeId} (step : advance machine unit = (.ok value, after))
    (later : Tried (fun part => (advance.throughout after part).1) rest tried) :
    Tried (fun part => (advance.throughout machine part).1) (unit :: rest) (unit :: tried) := by
  -- A beginning that ends in a stop is the unit followed by such a beginning of the rest.
  have split : ∀ part, part <+: unit :: rest →
      Answer.EndInStop (advance.throughout machine part).1 →
      ∃ tail, part = unit :: tail ∧ tail <+: rest ∧
        Answer.EndInStop (advance.throughout after tail).1 := by
    intro part begins stops
    obtain rfl | ⟨tail, rfl, tailBegins⟩ := List.prefix_cons_iff.1 begins
    · exact absurd stops Answer.not_endInStop_nil
    · exact ⟨tail, rfl, tailBegins, (endInStop_throughout_cons step tail).1 stops⟩
  cases later with
  | stopped begins stops shortest =>
    refine .stopped (List.prefix_cons_inj unit |>.2 begins)
      ((endInStop_throughout_cons step _).2 stops) fun other otherBegins otherStops => ?_
    obtain ⟨tail, rfl, tailBegins, tailStops⟩ := split other otherBegins otherStops
    exact Nat.succ_le_succ (shortest tail tailBegins tailStops)
  | all smooth =>
    refine .all fun part begins stops => ?_
    obtain ⟨tail, rfl, tailBegins, tailStops⟩ := split part begins stops
    exact smooth tail tailBegins tailStops

/-- The attempted units are tried. -/
theorem tried_attempted (machine : Machine) (units : List NodeId) :
    Tried (fun part => (advance.throughout machine part).1) units
      (advance.attempted machine units) := by
  induction units generalizing machine with
  | nil =>
    refine .all fun part begins stops => ?_
    rw [List.prefix_nil.1 begins] at stops
    exact Answer.not_endInStop_nil stops
  | cons unit rest ih =>
    rw [attempted]
    rcases step : advance machine unit with ⟨stop | value, after⟩
    · refine .stopped (List.prefix_append [unit] rest) ⟨stop, by simp [throughout, step]⟩ ?_
      intro other _ stops
      refine List.length_pos_iff.2 fun empty => ?_
      rw [empty] at stops
      exact Answer.not_endInStop_nil stops
    · exact tried_cons step (ih after)

/-- A run up to the first stop leaves the program that is current. -/
theorem current_upToStop
    (stays : ∀ machine unit, (advance machine unit).2.current = machine.current)
    (machine : Machine) (value : Value) (units : List NodeId) :
    (advance.upToStop machine value units).2.current = machine.current := by
  induction units generalizing machine value with
  | nil => rfl
  | cons unit rest ih =>
    have kept := stays machine unit
    rw [upToStop]
    rcases step : advance machine unit with ⟨stop | next, after⟩ <;> rw [step] at kept
    · exact kept
    · exact (ih after next).trans kept

/-- A run through all units leaves the program that is current. -/
theorem current_throughout
    (stays : ∀ machine unit, (advance machine unit).2.current = machine.current)
    (machine : Machine) (units : List NodeId) :
    (advance.throughout machine units).2.current = machine.current := by
  induction units generalizing machine with
  | nil => rfl
  | cons unit rest ih => exact (ih _).trans (stays machine unit)

variable (advance) in
/-- Two ways of running units agree when both advance by the same steps in the program that is
entered, and the steps stay in it. -/
theorem driversAgree {runProgram : Machine → List NodeId → Answer × Machine}
    {runEach : Machine → List NodeId → List Answer × Machine} {program : ProgramId}
    (stays : ∀ machine unit, (advance machine unit).2.current = machine.current)
    (upTo : ∀ machine units,
      runProgram machine units = advance.upToStop (machine.enter program) .void units)
    (through : ∀ machine units,
      runEach machine units = advance.throughout (machine.enter program) units)
    (machine : Machine) : Machine.DriversAgree runProgram runEach machine where
  exists_tried := fun units => by
    simp only [through]
    exact ⟨_, tried_attempted (machine.enter program) units⟩
  program_eq := fun units tried attempt => by
    simp only [through] at attempt
    rw [upTo, through, upToStop_eq_attempted, attempt.unique (tried_attempted _ units)]
  program_append := fun front back => by
    have kept : (advance.upToStop (machine.enter program) .void front).2.current = program :=
      current_upToStop stays (machine.enter program) .void front
    rw [upTo, upTo, upToStop_append]
    rcases ended : advance.upToStop (machine.enter program) .void front with ⟨stop | value, after⟩
    · rfl
    · rw [ended] at kept
      simp only [upTo, Machine.enter_of_current_eq kept]
      exact upToStop_eq_ite after value .void back
  each_append := fun front back => by
    have kept : (advance.throughout (machine.enter program) front).2.current = program :=
      current_throughout stays (machine.enter program) front
    simp only [through, throughout_append, Machine.enter_of_current_eq kept]

end Advance

namespace Machine

/-- Evaluation of a unit of the current program at the top level. -/
def topLevel (host : Host) (depth : Nat) : Advance := fun machine unit =>
  machine.evaluate host depth unit machine.setting.global

/-- Walk through a unit of the current program at the top level. -/
def topLevelWalk (routines : Routines) (depth : Nat) : Advance := fun machine unit =>
  machine.walkOut routines depth (.node unit machine.setting.global)

/-- A sequence is performed part by part, unless the first part stops. -/
theorem perform_bind {α β : Type} (machine : Machine) (first : Eval α) (next : α → Eval β) :
    machine.perform (first >>= next) =
      match machine.perform first with
      | (.ok value, after) => after.perform (next value)
      | (.error stop, after) => (.error stop, after) := by
  unfold perform
  cases ended : first machine.state with
  | ok value state => rw [Eval.bind_of_ok ended]
  | error stop state => rw [Eval.bind_of_error ended]

/-- A sequence is walked part by part, unless the first part stops. -/
theorem walk_bind {α β : Type} (machine : Machine) (first : Walk α) (next : α → Walk β) :
    machine.walk (first >>= next) =
      match machine.walk first with
      | (.ok value, after) => after.walk (next value)
      | (.error stop, after) => (.error stop, after) := by
  change machine.walk (EStateM.bind first next) = _
  unfold walk EStateM.bind
  cases first ⟨machine.state, machine.current⟩ <;> rfl

/-- A walk does not change the setting of its machine. -/
theorem setting_walk {α : Type} (machine : Machine) (steps : Walk α) :
    (machine.walk steps).2.setting = machine.setting := by
  unfold walk
  cases steps ⟨machine.state, machine.current⟩ <;> rfl

/-- Units are evaluated in sequence by evaluating them at the top level up to the first stop. -/
theorem perform_last (host : Host) (depth : Nat) (machine : Machine) (value : Value)
    (units : List NodeId) :
    machine.perform
        (Eval.last (fun unit => Eval.run machine.setting host depth
          (.node machine.current unit machine.setting.global)) value units) =
      (topLevel host depth).upToStop machine value units := by
  induction units generalizing machine value with
  | nil => rfl
  | cons unit rest ih =>
    rw [Eval.last, perform_bind, Advance.upToStop, topLevel, evaluate, performTask]
    rcases ended : machine.perform (Eval.run machine.setting host depth
        (.node machine.current unit machine.setting.global)) with ⟨stop | next, after⟩
    · rfl
    · have sameSetting : after.setting = machine.setting := by
        rw [← machine.setting_perform, ended]
      have sameProgram : after.current = machine.current := by
        rw [← machine.current_perform, ended]
      have rest := ih after next
      rw [sameSetting, sameProgram] at rest
      exact rest

/-- Units are walked through in sequence by walking through them at the top level up to the first
stop. -/
theorem walk_last (routines : Routines) (depth : Nat) (machine : Machine) (value : Value)
    (units : List NodeId) :
    machine.walk
        (Walk.last (fun unit => Walk.run machine.setting routines depth
          (.node unit machine.setting.global)) value units) =
      (topLevelWalk routines depth).upToStop machine value units := by
  induction units generalizing machine value with
  | nil => rfl
  | cons unit rest ih =>
    rw [Walk.last, walk_bind, Advance.upToStop, topLevelWalk, walkOut]
    rcases ended : machine.walk (Walk.run machine.setting routines depth
        (.node unit machine.setting.global)) with ⟨stop | next, after⟩
    · rfl
    · have sameSetting : after.setting = machine.setting := by
        rw [← machine.setting_walk, ended]
      have rest := ih after next
      rw [sameSetting] at rest
      exact rest

/-- A run of every unit evaluates them at the top level one after the other. -/
theorem evaluateEach_eq_throughout (host : Host) (depth : Nat) (machine : Machine)
    (units : List NodeId) :
    machine.evaluateEach host depth units = (topLevel host depth).throughout machine units := by
  induction units generalizing machine with
  | nil => rfl
  | cons unit rest ih => simp only [evaluateEach, Advance.throughout, topLevel, ih]

/-- A walk through every unit walks through them at the top level one after the other. -/
theorem walkEach_eq_throughout (routines : Routines) (depth : Nat) (machine : Machine)
    (units : List NodeId) :
    machine.walkEach routines depth units =
      (topLevelWalk routines depth).throughout machine units := by
  induction units generalizing machine with
  | nil => rfl
  | cons unit rest ih => simp only [walkEach, Advance.throughout, topLevelWalk, ih]

/-- A walk through a unit comes back to the program it started from, with an answer or a stop. -/
theorem current_topLevelWalk (routines : Routines) (depth : Nat) (machine : Machine)
    (unit : NodeId) : (topLevelWalk routines depth machine unit).2.current = machine.current := by
  have back := Walk.returns_run machine.setting routines depth (.node unit machine.setting.global)
    ⟨machine.state, machine.current⟩
  rw [topLevelWalk, walkOut, walk]
  cases ended : Walk.run machine.setting routines depth (.node unit machine.setting.global)
      ⟨machine.state, machine.current⟩ <;> rw [ended] at back <;> exact back

/-- Running the units of a program up to the first stop and running every unit agree on every
machine, with every host. So they do on a machine that walks through the units and enters and leaves
programs on the way. -/
theorem run_drivers_agree (program : ProgramId) (depth : Nat) (machine : Machine) :
    (∀ host : Host, DriversAgree (fun machine => machine.runProgram host depth program)
      (fun machine => machine.runEach host depth program) machine) ∧
    ∀ routines : Routines,
      DriversAgree (fun machine units => machine.walkOut routines depth (.program program units))
        (fun machine => (machine.enter program).walkEach routines depth) machine := by
  refine ⟨fun host => ?evaluated, fun routines => ?walked⟩
  case evaluated =>
    exact (topLevel host depth).driversAgree (fun _ _ => current_perform _ _)
      (fun machine units => perform_last host depth (machine.enter program) .void units)
      (fun machine units => evaluateEach_eq_throughout host depth (machine.enter program) units)
      machine
  case walked =>
    exact (topLevelWalk routines depth).driversAgree (current_topLevelWalk routines depth)
      (fun machine units => walk_last routines depth (machine.enter program) .void units)
      (fun machine units => walkEach_eq_throughout routines depth (machine.enter program) units)
      machine

end Machine

end ScopeMachine
