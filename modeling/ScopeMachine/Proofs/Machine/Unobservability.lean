import ScopeMachine.Proofs.Machine.Session

/-!
# Collections between operations

A host that collects between two operations, with the values it still uses as roots, cannot tell
afterwards that it did. It observes the answers to its operations and the printed text. What it
hands over later is built from its roots and from later answers, so a script says for each handle
only where among those the handle stands.
-/

namespace ScopeMachine

/-- What a host observes of one operation. -/
@[ext] structure Observation where
  /-- Answers to the operation. -/
  answers : List Answer
  /-- Printed text after the operation. -/
  output : Sink

namespace Observation

/-- Handles that the host obtains. -/
def handles (observation : Observation) : List Handle :=
  observation.answers.flatMap Answer.handles

/-- Observation with every handle replaced. -/
def rename (f : Handle → Handle) (observation : Observation) : Observation :=
  { observation with answers := observation.answers.map (Answer.rename f) }

/-- Renaming an observation renames its handles in their places. -/
theorem handles_rename (f : Handle → Handle) (observation : Observation) :
    (observation.rename f).handles = observation.handles.map f :=
  Answer.flatMap_handles_rename f observation.answers

end Observation

/-- The right observation is the left one with the counterparts of its handles. -/
structure Renaming.SendsObservation (pairs : Renaming) (left right : Observation) : Prop where
  /-- The handles of the left observation are known. -/
  known : ∀ handle ∈ left.handles, handle ∈ pairs.domain
  /-- The right observation is the left one renamed. -/
  eq : right = left.rename pairs.image

/-- Counterparts of observations stay when a renaming is extended. -/
theorem Renaming.SendsObservation.extend {pairs later : Renaming} {left right : Observation}
    (observation : pairs.SendsObservation left right) (extended : later.Extends pairs) :
    later.SendsObservation left right := by
  have answers : pairs.SendsAnswers left.answers right.answers :=
    ⟨observation.known, congrArg Observation.answers observation.eq⟩
  have sameOutput : right.output = left.output := by
    rw [observation.eq]
    rfl
  have extendedAnswers := answers.extend extended
  exact ⟨extendedAnswers.known, Observation.ext extendedAnswers.eq sameOutput⟩

namespace Machine

/-- Handle at a position among those that a host has; beyond them the handle of the top level. -/
def select (machine : Machine) (held : List Handle) (position : Handle) : Handle :=
  held.getD position.index machine.setting.global

/-- What a host selects is among what it has, or the top level. -/
theorem select_mem (machine : Machine) {held : List Handle} {kept : Set Handle}
    (global : machine.setting.global ∈ kept) (known : ∀ handle ∈ held, handle ∈ kept)
    (position : Handle) : machine.select held position ∈ kept := by
  unfold select
  rw [List.getD_eq_getElem?_getD]
  cases found : held[position.index]? with
  | none => exact global
  | some handle => exact known handle (List.mem_of_getElem? found)

/-- What a host observes of one operation of a script, and the machine after it. In a script the
slot number of a handle is a position among the handles that the host has. -/
def observeOne (machine : Machine) (host : Host) (held : List Handle) (operation : Operation) :
    Observation × Machine :=
  let (answers, after) := machine.operate host (operation.rename (machine.select held))
  (⟨answers, after.state.output⟩, after)

/-- What a host observes while it goes through a script. Each operation gives it more handles. -/
def observe (machine : Machine) (host : Host) (held : List Handle) :
    List Operation → List Observation
  | [] => []
  | operation :: rest =>
    let (observation, after) := machine.observeOne host held operation
    observation :: after.observe host (held ++ observation.handles) rest

section Lossless

variable {pairs : Renaming} {left right : Machine} (mirrors : left.Mirrors False pairs right)
  (reply : Reply)
include mirrors

/-- Without losses, machines that mirror each other carry out corresponding errands alike. -/
theorem Mirrors.carryOut_quiet (depth : Nat) (errand : Errand)
    (known : ∀ handle ∈ errand.handles, handle ∈ pairs.domain) :
    ∃ later : Renaming, later.Extends pairs ∧
      (left.carryOut (.quiet reply) depth errand).2.Mirrors False later
        (right.carryOut (.quiet reply) depth (errand.rename pairs.image)).2 ∧
      later.SendsAnswers [(left.carryOut (.quiet reply) depth errand).1]
        [(right.carryOut (.quiet reply) depth (errand.rename pairs.image)).1] := by
  have hosts := Host.quiet_simulates False left.setting reply
  rcases mirrors.carryOut hosts depth errand known with
    ⟨later, extended, after, answers⟩ | ⟨allowed, _⟩
  · exact ⟨later, extended, after, .of_agreement answers⟩
  · exact allowed.elim

/-- Without losses, machines that mirror each other evaluate nodes at the top level alike. -/
theorem Mirrors.evaluateEach (depth : Nat) (units : List NodeId) :
    ∃ later : Renaming, later.Extends pairs ∧
      (left.evaluateEach (.quiet reply) depth units).2.Mirrors False later
        (right.evaluateEach (.quiet reply) depth units).2 ∧
      later.SendsAnswers (left.evaluateEach (.quiet reply) depth units).1
        (right.evaluateEach (.quiet reply) depth units).1 := by
  induction units generalizing pairs left right with
  | nil => exact ⟨pairs, .refl pairs, mirrors, by simp [Machine.evaluateEach], rfl⟩
  | cons unit units ih =>
    have atTop : ∀ handle ∈ (Errand.node unit left.setting.global).handles,
        handle ∈ pairs.domain := by
      simpa [Errand.handles] using mirrors.global.known
    obtain ⟨middle, extended, first, answer⟩ := mirrors.carryOut_quiet reply depth _ atTop
    have sameScope : (Errand.node unit left.setting.global).rename pairs.image =
        .node unit right.setting.global := by
      rw [Errand.rename, ← mirrors.global.eq, mirrors.setting]
    rw [sameScope] at first answer
    obtain ⟨later, more, after, answers⟩ := ih first
    exact ⟨later, more.trans extended, after, (answer.extend more).append answers⟩

/-- Without losses, machines that mirror each other answer corresponding operations alike and go on
mirroring each other. -/
theorem Mirrors.operate (operation : Operation)
    (known : ∀ handle ∈ operation.handles, handle ∈ pairs.domain) :
    ∃ later : Renaming, later.Extends pairs ∧
      (left.operate (.quiet reply) operation).2.Mirrors False later
        (right.operate (.quiet reply) (operation.rename pairs.image)).2 ∧
      later.SendsAnswers (left.operate (.quiet reply) operation).1
        (right.operate (.quiet reply) (operation.rename pairs.image)).1 := by
  cases operation with
  | load draft =>
    refine ⟨pairs, .refl pairs, ⟨?_, mirrors.current, mirrors.state, mirrors.global⟩, ?_⟩
    · simp only [Machine.operate, Operation.rename, Machine.load, mirrors.setting]
    · exact ⟨by simp [Machine.operate], rfl⟩
  | carryOut errand depth => exact mirrors.carryOut_quiet reply depth errand known
  | runEach program units depth => exact (mirrors.enter program).evaluateEach reply depth units
  | bindGlobal name value =>
    have simulates := mirrors.simulates_bindGlobal name ⟨known, rfl⟩
    have interned : (left.intern name).2.Mirrors False pairs (right.intern name).2 := by
      refine ⟨?_, mirrors.current, mirrors.state, mirrors.global⟩
      simp only [Machine.intern, Machine.withSymbols, Machine.symbols, mirrors.setting]
    have sameBinding : right.bindGlobal name (value.rename pairs.image) =
        (right.intern name).2.perform (Eval.declare (left.intern name).2.setting
          left.setting.global (left.intern name).1 (value.rename pairs.image)) := by
      simp only [Machine.bindGlobal, Machine.intern, Machine.withSymbols, Machine.symbols,
        mirrors.setting]
    rcases interned.perform simulates with ⟨later, extended, after, answer⟩ | ⟨allowed, _⟩
    · rw [← sameBinding] at after answer
      refine ⟨later, extended, after, .of_agreement ?_⟩
      exact answer.map fun _ _ _ => Renaming.sends_self rfl
    · exact allowed.elim

/-- Without losses, hosts of machines that mirror each other observe the same of one operation, up
to an extended renaming. -/
theorem Mirrors.observeOne (operation : Operation) {leftHeld rightHeld : List Handle}
    (known : ∀ handle ∈ leftHeld, handle ∈ pairs.domain)
    (sameHeld : rightHeld = leftHeld.map pairs.image) :
    ∃ later : Renaming, later.Extends pairs ∧
      (left.observeOne (.quiet reply) leftHeld operation).2.Mirrors False later
        (right.observeOne (.quiet reply) rightHeld operation).2 ∧
      later.SendsObservation (left.observeOne (.quiet reply) leftHeld operation).1
        (right.observeOne (.quiet reply) rightHeld operation).1 := by
  have selected : right.select rightHeld = pairs.image ∘ left.select leftHeld := by
    funext position
    rw [Function.comp_apply, select, select, sameHeld, mirrors.setting,
      List.getD_eq_getElem?_getD, List.getD_eq_getElem?_getD, List.getElem?_map]
    cases leftHeld[position.index]? with
    | none => exact mirrors.global.eq
    | some handle => rfl
  have sameOperation : operation.rename (right.select rightHeld) =
      (operation.rename (left.select leftHeld)).rename pairs.image := by
    rw [Operation.rename_rename, selected]
  have handed : ∀ handle ∈ (operation.rename (left.select leftHeld)).handles,
      handle ∈ pairs.domain := by
    intro handle held
    rw [Operation.handles_rename] at held
    obtain ⟨position, _, rfl⟩ := List.mem_map.1 held
    exact left.select_mem mirrors.global.known known position
  obtain ⟨later, extended, after, answers⟩ := mirrors.operate reply _ handed
  rw [← sameOperation] at after answers
  exact ⟨later, extended, after, answers.known, Observation.ext answers.eq after.state.output.symm⟩

/-- Without losses, hosts of machines that mirror each other observe the same all along a script, up
to an extended renaming. -/
theorem Mirrors.observe (script : List Operation) {leftHeld rightHeld : List Handle}
    (known : ∀ handle ∈ leftHeld, handle ∈ pairs.domain)
    (sameHeld : rightHeld = leftHeld.map pairs.image) :
    ∃ later : Renaming, later.Extends pairs ∧
      List.Forall₂ later.SendsObservation (left.observe (.quiet reply) leftHeld script)
        (right.observe (.quiet reply) rightHeld script) := by
  induction script generalizing pairs left right leftHeld rightHeld with
  | nil => exact ⟨pairs, .refl pairs, .nil⟩
  | cons operation script ih =>
    obtain ⟨middle, extended, after, first⟩ := mirrors.observeOne reply operation known sameHeld
    have knownAfter : ∀ handle ∈
        leftHeld ++ (left.observeOne (.quiet reply) leftHeld operation).1.handles,
        handle ∈ middle.domain := by
      intro handle held
      rcases List.mem_append.1 held with earlier | new
      · exact extended.domain (known handle earlier)
      · exact first.known handle new
    have heldAfter : rightHeld ++ (right.observeOne (.quiet reply) rightHeld operation).1.handles =
        (leftHeld ++ (left.observeOne (.quiet reply) leftHeld operation).1.handles).map
          middle.image := by
      rw [first.eq, Observation.handles_rename, List.map_append, sameHeld]
      congr 1
      exact List.map_congr_left fun handle held => (extended.image handle (known handle held)).symm
    obtain ⟨later, more, rest⟩ := ih after knownAfter heldAfter
    exact ⟨later, more.trans extended, .cons (first.extend more) rest⟩

end Lossless

/-- A collection that kills no root mirrors the machine before it without losses. -/
theorem Sound.collect_mirrors {machine : Machine} (sound : machine.Sound) {roots : List Value}
    (lasting : machine.scopes.wrapsOn (machine.setting.rootHandles roots) = false) :
    (machine.collect roots).2.Mirrors False
      (.identity (machine.scopes.spared (machine.setting.rootHandles roots))) machine where
  setting := rfl
  current := rfl
  state := ⟨sound.scopes.collect_mirrors lasting, rfl⟩
  global := by
    refine ⟨⟨sound.global, fun live => ?_⟩, rfl⟩
    exact (Store.isLive_collect sound.scopes.tidy _).2 (.root List.mem_cons_self live)

/-- A collection is not observed: whatever a host does afterwards with what it has kept as roots and
with what it obtains later, each operation gives the same answers and prints the same as without the
collection, up to a one-to-one renaming of handles, which leaves those in the roots as they are. -/
theorem observe_collect {machine : Machine} (reached : machine.Reachable) (roots : List Value)
    (issued : ∀ handle ∈ Value.handlesAll roots, machine.scopes.Issued handle)
    (lasting : machine.scopes.wrapsOn (machine.setting.rootHandles roots) = false)
    (reply : Reply) (script : List Operation) :
    let held := Value.handlesAll roots
    let collected := (machine.collect roots).2.observe (.quiet reply) held script
    let plain := machine.observe (.quiet reply) held script
    ∃ f : Handle → Handle,
      Set.InjOn f {handle | handle ∈ held ∨ ∃ observation ∈ collected,
        handle ∈ observation.handles} ∧
      (∀ handle ∈ held, f handle = handle) ∧
      plain = collected.map (Observation.rename f) := by
  intro held collected plain
  have sound := reached.sound
  have mirrors := sound.collect_mirrors lasting
  have spared : ∀ handle ∈ held,
      handle ∈ machine.scopes.spared (machine.setting.rootHandles roots) := by
    refine fun handle listed => ⟨issued handle listed, fun live => ?_⟩
    exact (Store.isLive_collect sound.scopes.tidy _).2
      (.root (List.mem_cons_of_mem _ listed) live)
  obtain ⟨later, extended, same⟩ :=
    mirrors.observe reply script spared (List.map_id held).symm
  have pointwise : List.Forall₂ (fun left right =>
      (∀ handle ∈ left.handles, handle ∈ later.domain) ∧ left.rename later.image = right)
      collected plain := same.imp fun _ _ sends => ⟨sends.known, sends.eq.symm⟩
  obtain ⟨known, renamed⟩ := (List.forall₂_and_left _ _).1 pointwise
  rw [← List.forall₂_map_left_iff, List.forall₂_eq_eq_eq] at renamed
  refine ⟨later.image, later.injOn.mono ?_, ?_, renamed.symm⟩
  · rintro handle (root | ⟨observation, listed, inside⟩)
    · exact extended.domain (spared handle root)
    · exact known observation listed handle inside
  · exact fun handle root => extended.image handle (spared handle root)

end Machine

/-- Program of a block that gives a function. -/
def functionBlock : Program :=
  { nodes := #[⟨.int 1, .dummy⟩, ⟨.lambda .blank ⟨0⟩, .dummy⟩, ⟨.block ⟨0, 1⟩, .dummy⟩]
    lists := #[⟨1⟩]
    params := #[]
    classes := #[] }

/-- Function that the block gives, by the handle of its scope. -/
def functionIn (scope : Handle) : Value := .function ⟨none, [.blank], ⟨0⟩, scope, ⟨1⟩⟩

/-- Machine in which the block has been evaluated twice. -/
def twiceMachine : Machine :=
  let host := Host.collecting .prudent .void
  let start := Machine.start .initial Machine.defaultHops (.buffer "")
  let loaded := start.operate host (.load ⟨.initial, functionBlock⟩)
  (loaded.2.operate host (.runEach ⟨1⟩ [⟨2⟩, ⟨2⟩] 3)).2

/-- A host can have made that machine. -/
theorem twiceMachine_reachable : twiceMachine.Reachable := by
  have started := Machine.Reachable.start .initial Machine.defaultHops (.buffer "")
  have loaded := started.operate .prudent .void (.load ⟨.initial, functionBlock⟩)
    (fun _ held => absurd held List.not_mem_nil) rfl
  exact loaded.operate .prudent .void (.runEach ⟨1⟩ [⟨2⟩, ⟨2⟩] 3)
    (fun _ held => absurd held List.not_mem_nil) (by rw [Host.watched_prudent])

/-- A host that keeps the first function only, collects, makes a third one and calls the first and
the third observes the same as one that does not collect. -/
theorem Machine.observe_collect_twiceMachine :
    let roots := [functionIn ⟨1, 0⟩]
    let held := Value.handlesAll roots
    let script := [Operation.carryOut (.program ⟨1⟩ [⟨2⟩]) 3,
      .carryOut (.call (functionIn ⟨0, 0⟩) [.void]) 3, .carryOut (.call (functionIn ⟨1, 0⟩) []) 3]
    let collected := (twiceMachine.collect roots).2.observe (.quiet .void) held script
    twiceMachine.Reachable ∧
    (∀ handle ∈ held, twiceMachine.scopes.Issued handle) ∧
    twiceMachine.scopes.wrapsOn (twiceMachine.setting.rootHandles roots) = false ∧
    ∃ f : Handle → Handle,
      Set.InjOn f {handle | handle ∈ held ∨ ∃ observation ∈ collected,
        handle ∈ observation.handles} ∧
      (∀ handle ∈ held, f handle = handle) ∧
      twiceMachine.observe (.quiet .void) held script =
        collected.map (Observation.rename f) := by
  intro roots held script collected
  have young : twiceMachine.scopes.isYoung = true := by decide +kernel
  have live : twiceMachine.scopes.isLive ⟨1, 0⟩ = true := by decide +kernel
  have lasting := Store.wrapsOn_of_isYoung young (twiceMachine.setting.rootHandles roots)
  have issued : ∀ handle ∈ held, twiceMachine.scopes.Issued handle := by
    intro handle listed
    rw [List.mem_singleton.1 listed]
    exact Store.issued_of_isLive live
  exact ⟨twiceMachine_reachable, issued, lasting,
    observe_collect twiceMachine_reachable roots issued lasting .void script⟩

end ScopeMachine
