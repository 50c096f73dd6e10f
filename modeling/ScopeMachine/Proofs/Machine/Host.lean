import Mathlib.Data.Fintype.EquivFin
import ScopeMachine.Proofs.Simulation.Operations

/-!
# Hosts that collect while a program runs

The entries of such a host collect when and with which roots they like, and then answer their call.
An answer is made from the arguments and treats handles as mere names, so it does not depend on the
store. The same host without its collections is quiet, and a watched host gives up before a
collection that would reclaim a slot for the 2 ^ 32-th time.

Up to losses a watched host simulates the quiet one, and a quiet host simulates itself without any.
-/

namespace ScopeMachine

/-- Answers of a host to calls of its entries, made from the arguments alone. -/
structure Reply where
  /-- Answer to a call of an entry. -/
  answer : String → List Value → Value
  /-- Renaming the handles of the arguments one to one renames those of the answer. -/
  natural : ∀ (f : Handle → Handle) (entry : String) (args : List Value),
    Set.InjOn f {handle | handle ∈ args.flatMap Value.handles} →
    answer entry (args.map (Value.rename f)) = (answer entry args).rename f

/-- There are infinitely many handles. -/
instance : Infinite Handle :=
  Infinite.of_injective (fun index : Nat => (⟨index, 0⟩ : Handle)) fun _ _ same =>
    congrArg Handle.index same

/-- The handles of an answer come from the arguments. -/
theorem Reply.handles_answer (reply : Reply) {entry : String} {args : List Value} {handle : Handle}
    (held : handle ∈ (reply.answer entry args).handles) :
    handle ∈ args.flatMap Value.handles := by
  by_contra foreign
  obtain ⟨fresh, unused⟩ :=
    Infinite.exists_notMem_finset (reply.answer entry args).handles.toFinset
  rw [List.mem_toFinset] at unused
  let f (other : Handle) : Handle := if other ∈ args.flatMap Value.handles then other else fresh
  have fixes : ∀ other ∈ args.flatMap Value.handles, f other = other := fun _ listed =>
    if_pos listed
  have sameArgs : args.map (Value.rename f) = args := by
    conv_rhs => rw [← List.map_id args]
    refine List.map_congr_left fun value listed => ?_
    rw [id, ← Value.rename_id value, Value.rename_rename]
    exact Value.rename_congr fun other inner =>
      fixes other (List.mem_flatMap.2 ⟨value, listed, inner⟩)
  have injective : Set.InjOn f {other | other ∈ args.flatMap Value.handles} := by
    intro left leftListed right rightListed same
    rwa [fixes left leftListed, fixes right rightListed] at same
  have sameAnswer := reply.natural f entry args injective
  rw [sameArgs] at sameAnswer
  have moved : f handle ∈ (reply.answer entry args).handles := by
    rw [sameAnswer, Value.handles_rename]
    exact List.mem_map_of_mem held
  rw [show f handle = fresh from if_neg foreign] at moved
  exact unused moved

/-- Answers to corresponding arguments correspond. -/
theorem Reply.sends_answer (reply : Reply) {pairs : Renaming} (entry : String)
    {lefts rights : List Value} (args : pairs.SendsAll lefts rights) :
    pairs.Sends (reply.answer entry lefts) (reply.answer entry rights) where
  known := fun handle held => args.known handle (reply.handles_answer held)
  eq := by
    rw [args.eq]
    exact reply.natural pairs.image entry lefts (pairs.injOn.mono args.known)

/-- Answers every call with void. -/
def Reply.void : Reply := ⟨fun _ _ => .void, fun _ _ _ _ => rfl⟩

/-- Roots of the collection that a call of an entry makes; a call may also make none. -/
abbrev Plan := String → Setting → State → List Value → Option (List Value)

/-- Roots of a collection by values: the top level and what the values hold. -/
def Setting.rootHandles (setting : Setting) (roots : List Value) : List Handle :=
  setting.global :: Value.handlesAll roots

/-- Collects without further roots, as long as no slot is in its last generation. -/
def Plan.prudent : Plan := fun _ _ state _ => if state.scopes.isYoung then some [] else none

namespace Host

/-- Answers without collecting. -/
def quiet (reply : Reply) : Host := fun entry _ _ args => pure (reply.answer entry args)

/-- Collects as planned and answers. -/
def collecting (plan : Plan) (reply : Reply) : Host := fun entry setting _ args state =>
  match plan entry setting state args with
  | none => .ok (reply.answer entry args) state
  | some roots =>
    (do
      let _ ← Eval.collect setting roots
      pure (reply.answer entry args) : Eval Value) state

/-- Whether a planned collection would reclaim a slot in its last generation. -/
def planWraps (plan : Plan) (entry : String) (setting : Setting) (args : List Value)
    (state : State) : Bool :=
  (plan entry setting state args).any fun roots => state.scopes.wrapsOn (setting.rootHandles roots)

/-- Collects as planned and answers, but gives up before a collection that would reclaim a slot in
its last generation. -/
def watched (plan : Plan) (reply : Reply) : Host := fun entry setting callBack args state =>
  if planWraps plan entry setting args state then
    .error .exhausted state
  else
    collecting plan reply entry setting callBack args state

/-- A prudent host need not be watched. -/
theorem watched_prudent (reply : Reply) :
    watched Plan.prudent reply = collecting Plan.prudent reply := by
  funext entry setting callBack args state
  have lasting : planWraps Plan.prudent entry setting args state = false := by
    unfold planWraps Plan.prudent
    cases young : state.scopes.isYoung with
    | false => rfl
    | true => exact Store.wrapsOn_of_isYoung young _
  unfold watched
  rw [lasting, if_neg Bool.false_ne_true]

/-- A quiet host simulates itself. -/
theorem quiet_simulates (lossy : Prop) (setting : Setting) (reply : Reply) :
    Host.Simulates lossy setting (quiet reply) (quiet reply) :=
  fun entry _ _ _ _ _ _ args => Eval.simulates_pure (reply.sends_answer entry args)

/-- A watched host simulates the quiet one up to losses. -/
theorem watched_simulates (setting : Setting) (plan : Plan) (reply : Reply) :
    Host.Simulates True setting (watched plan reply) (quiet reply) := by
  intro entry pairs leftEvaluate rightEvaluate lefts rights _ args left right mirrors
  have answers := reply.sends_answer entry args
  unfold watched
  cases wraps : planWraps plan entry setting lefts left with
  | true =>
    rw [if_pos rfl]
    exact .lost trivial Stop.isLoss_exhausted mirrors.scopes.leftSound (.refl left.scopes)
  | false =>
    rw [if_neg Bool.false_ne_true]
    unfold collecting
    unfold planWraps at wraps
    cases planned : plan entry setting left lefts with
    | none => exact .ok (.refl pairs) mirrors (.refl left.scopes) answers
    | some roots =>
      rw [planned, Option.any_some] at wraps
      change Eval.Agree True Renaming.Sends pairs left
        (.ok (reply.answer entry lefts)
          { left with scopes := (left.scopes.collect (setting.rootHandles roots)).2 })
        (.ok (reply.answer entry rights) right)
      have unfolds := Store.unfolds_collect wraps mirrors.scopes.leftSound.tidy
      have after := mirrors.scopes.collect trivial wraps
      exact .ok (.refl pairs) ⟨after, mirrors.output⟩ unfolds answers

end Host

end ScopeMachine
