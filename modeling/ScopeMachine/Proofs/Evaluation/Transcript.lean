import Mathlib.Data.List.Forall2
import Mathlib.Data.List.Nodup
import ScopeMachine.Proofs.Evaluation.Step

/-!
# Transcripts of runs

The moments of a run are the beginnings and the ends of all evaluations in it, at every depth and in
their order. Which evaluations a step has asked for, and in which order, is told by its dialogue. An
evaluation that is asked for again in the very same state ends the same way, and a dialogue without
repeats lists it once; such a dialogue is determined by the step.
-/

namespace ScopeMachine

/-- Kind of the node that a task evaluates. -/
def Setting.taskKind? (setting : Setting) : Task → Option NodeKind
  | .node program id _ => setting.kind? program id
  | .call _ _ => none

namespace Eval

/-- State in which an evaluation has ended. -/
def finalState : EStateM.Result Stop State Value → State
  | .ok _ final => final
  | .error _ final => final

/-- The state that an evaluation leaves is the one in which it ends. -/
theorem finalState_eq_after (evaluation : Eval Value) (state : State) :
    finalState (evaluation state) = evaluation.after state := by
  unfold after
  cases evaluation state <;> rfl

/-- Beginning or end of an evaluation. -/
inductive Moment where
  /-- An evaluation begins. -/
  | begins (ask : Ask)
  /-- An evaluation, of a node of a kind or of a call, ends. -/
  | ends (ask : Ask) (kind : Option NodeKind) (outcome : EStateM.Result Stop State Value)

/-- Scopes at a moment. -/
def Moment.scopes : Moment → Store
  | .begins ask => ask.start.scopes
  | .ends _ _ outcome => (finalState outcome).scopes

/-- The moments are those of the evaluations that the work asks for, one after the other. -/
def Recorded {α : Type} (transcribes : Ask → List Moment → Prop) (evaluate : Evaluator)
    (work : Evaluator → Eval α) (state : State) (moments : List Moment) : Prop :=
  ∃ asks parts, asks.Nodup ∧ Dialogue work evaluate state asks ∧
    List.Forall₂ transcribes asks parts ∧ moments = parts.flatten

/-- The moments are those of a run of a task, from its beginning to its end. -/
def Transcript (setting : Setting) (host : Host) : Nat → Ask → List Moment → Prop
  | 0, ask, moments =>
    moments = [.begins ask,
      .ends ask (setting.taskKind? ask.task) (run setting host 0 ask.task ask.start)]
  | depth + 1, ask, moments =>
    ∃ inner, Recorded (Transcript setting host depth) (run setting host depth)
        (fun evaluate => step setting host evaluate ask.task) ask.start inner ∧
      moments = .begins ask :: inner ++
        [.ends ask (setting.taskKind? ask.task) (run setting host (depth + 1) ask.task ask.start)]

/-- There are different states. -/
instance : Nontrivial State :=
  ⟨⟨⟨.empty, .buffer ""⟩, ⟨.empty, .buffer "."⟩, by simp⟩⟩

/-- All members of a list have a property, or there is a first one that has not. -/
theorem forall_or_exists_first {α : Type} (property : α → Prop) (list : List α) :
    (∀ item ∈ list, property item) ∨
      ∃ before item after, list = before ++ item :: after ∧
        (∀ earlier ∈ before, property earlier) ∧ ¬ property item := by
  induction list with
  | nil => exact Or.inl (by simp)
  | cons head tail ih =>
    by_cases fits : property head
    · rcases ih with all | ⟨before, item, after, rfl, earlier, first⟩
      · exact Or.inl (List.forall_mem_cons.2 ⟨fits, all⟩)
      · exact Or.inr ⟨head :: before, item, after, rfl, List.forall_mem_cons.2 ⟨fits, earlier⟩,
          first⟩
    · exact Or.inr ⟨[], head, tail, rfl, by simp, fits⟩

/-- A list with repeats has a member that stands before already. -/
theorem exists_repeat {α : Type} {list : List α} (repeats : ¬ list.Nodup) :
    ∃ before item after, list = before ++ item :: after ∧ item ∈ before := by
  induction list with
  | nil => exact absurd List.nodup_nil repeats
  | cons head tail ih =>
    by_cases again : head ∈ tail
    · obtain ⟨before, after, rfl⟩ := List.append_of_mem again
      exact ⟨head :: before, head, after, rfl, List.mem_cons_self⟩
    · have inTail : ¬ tail.Nodup := fun nodup => repeats (List.nodup_cons.2 ⟨again, nodup⟩)
      obtain ⟨before, item, after, rfl, stands⟩ := ih inTail
      exact ⟨head :: before, item, after, rfl, List.mem_cons_of_mem head stands⟩

namespace Dialogue

variable {α : Type} {work : Evaluator → Eval α} {evaluate : Evaluator} {state : State}
  {asks more : List Ask}

/-- In every dialogue of the same work, the first ask that does not stand among the earlier ones of
a dialogue is its next one. -/
theorem exists_next {earlier later : List Ask} {ask : Ask}
    (dialogue : Dialogue work evaluate state (earlier ++ ask :: later)) (new : ask ∉ earlier)
    (other : Dialogue work evaluate state more) :
    ∃ before after, more = before ++ ask :: after ∧ ∀ prior ∈ before, prior ∈ earlier := by
  classical
  -- an evaluator that answers the earlier asks, and stops at others in a state that tells the ask
  let stopping (mark : State) : Evaluator := fun task start =>
    if (⟨task, start⟩ : Ask) ∈ earlier then evaluate task start
    else if (⟨task, start⟩ : Ask) = ask then .error .missing mark else .error .missing state
  have answers : ∀ mark, ∀ prior ∈ earlier, prior.SameFor evaluate (stopping mark) :=
    fun mark prior listed => if_pos listed
  have atAsk : ∀ mark, stopping mark ask.task ask.start = .error .missing mark :=
    fun mark => (if_neg new).trans (if_pos rfl)
  have stops : ∀ mark, ∃ reported, work (stopping mark) state = .error reported mark :=
    fun mark => dialogue.needs earlier ask later rfl (stopping mark) (answers mark) .missing mark
      (atAsk mark)
  obtain ⟨mark, different⟩ := exists_ne state
  obtain ⟨reported, stopped⟩ := stops mark
  rcases forall_or_exists_first (· ∈ earlier) more with all | ⟨before, first, after, rfl, known, new'⟩
  · -- then the other dialogue would be settled, whatever the mark
    have settled : ∀ mark, work (stopping mark) state = work evaluate state := fun mark =>
      other.settles (stopping mark) fun prior listed => answers mark prior (all prior listed)
    obtain ⟨again, stoppedAgain⟩ := stops state
    rw [settled] at stopped stoppedAgain
    rw [stopped] at stoppedAgain
    cases stoppedAgain
    exact absurd rfl different
  · by_cases same : first = ask
    · exact ⟨before, after, by rw [same], known⟩
    · have atFirst : stopping mark first.task first.start = .error .missing state :=
        (if_neg new').trans (if_neg same)
      obtain ⟨again, stoppedAgain⟩ := other.needs before first after rfl (stopping mark)
        (fun prior listed => answers mark prior (known prior listed)) .missing state atFirst
      rw [stopped] at stoppedAgain
      cases stoppedAgain
      exact absurd rfl different

/-- A dialogue without repeats is part of every dialogue of the same work. -/
theorem sublist (dialogue : Dialogue work evaluate state asks) (nodup : asks.Nodup)
    (other : Dialogue work evaluate state more) : asks.Sublist more := by
  have general : ∀ rest earlier before after : List Ask, asks = earlier ++ rest →
      more = before ++ after → (∀ prior ∈ before, prior ∈ earlier) → rest.Sublist after := by
    intro rest
    induction rest with
    | nil => exact fun _ _ after _ _ _ => List.nil_sublist after
    | cons ask rest ih =>
      intro earlier before after whole split known
      subst whole
      have new : ask ∉ earlier := fun stands =>
        (List.nodup_append.1 nodup).2.2 ask stands ask List.mem_cons_self rfl
      obtain ⟨found, remaining, position, priors⟩ := dialogue.exists_next new other
      have extended : earlier ++ ask :: rest = (earlier ++ [ask]) ++ rest := by simp
      -- the ask stands after what has been passed already
      obtain ⟨between, rfl, rfl⟩ : ∃ between, found = before ++ between ∧
          after = between ++ ask :: remaining := by
        have both : before ++ after = found ++ ask :: remaining := split.symm.trans position
        rcases List.append_eq_append_iff.1 both with ⟨between, rfl, tail⟩ | ⟨between, head, tail⟩
        · exact ⟨between, rfl, tail⟩
        · cases between with
          | nil =>
            rw [List.append_nil] at head
            exact ⟨[], by rw [head, List.append_nil], tail.symm⟩
          | cons first between =>
            obtain ⟨rfl, _⟩ := List.cons.inj tail
            have stands : ask ∈ before := head ▸ List.mem_append_right _ List.mem_cons_self
            exact absurd (known ask stands) new
      have rest := ih (earlier ++ [ask]) ((before ++ between) ++ [ask]) remaining extended
        (by rw [position]; simp) (by
          intro prior listed
          rcases List.mem_append.1 listed with old | last
          · exact List.mem_append_left _ (priors prior old)
          · exact List.mem_append_right _ last)
      exact (rest.cons_cons ask).trans (List.sublist_append_right between (ask :: remaining))
  exact general asks [] [] more rfl rfl (by simp)

/-- A repeated ask can be left out. -/
theorem drop_repeat {before after : List Ask} {ask : Ask} (stands : ask ∈ before)
    (dialogue : Dialogue work evaluate state (before ++ ask :: after)) :
    Dialogue work evaluate state (before ++ after) where
  settles := by
    intro other same
    refine dialogue.settles other fun prior listed => same prior ?_
    rcases List.mem_append.1 listed with early | late
    · exact List.mem_append_left _ early
    · rcases List.mem_cons.1 late with rfl | later
      · exact List.mem_append_left _ stands
      · exact List.mem_append_right _ later
  needs := by
    intro earlier first later split other same stop final stopped
    rcases List.append_eq_append_iff.1 split with ⟨inner, rfl, inAfter⟩ | ⟨inner, inBefore, tail⟩
    · -- the repeated ask has been answered already
      refine dialogue.needs (before ++ ask :: inner) first later ?_ other ?_ stop final stopped
      · rw [inAfter]
        simp
      · intro prior listed
        rcases List.mem_append.1 listed with early | late
        · exact same prior (List.mem_append_left _ early)
        · rcases List.mem_cons.1 late with rfl | inside
          · exact same prior (List.mem_append_left _ stands)
          · exact same prior (List.mem_append_right _ inside)
    · cases inner with
      | nil =>
        rw [List.append_nil] at inBefore
        subst inBefore
        refine dialogue.needs (before ++ [ask]) first later ?_ other ?_ stop final stopped
        · rw [show after = first :: later from tail.symm]
          simp
        · intro prior listed
          rcases List.mem_append.1 listed with early | last
          · exact same prior early
          · exact same prior (List.mem_singleton.1 last ▸ stands)
      | cons head inner =>
        obtain ⟨rfl, _⟩ := List.cons.inj tail
        refine dialogue.needs earlier first (inner ++ ask :: after) ?_ other same stop final stopped
        rw [inBefore]
        simp

/-- A dialogue has one without repeats. -/
theorem exists_nodup (dialogue : Dialogue work evaluate state asks) :
    ∃ distinct : List Ask, distinct.Nodup ∧ Dialogue work evaluate state distinct := by
  generalize size : asks.length = length
  induction length using Nat.strong_induction_on generalizing asks with
  | _ length ih =>
    by_cases nodup : asks.Nodup
    · exact ⟨asks, nodup, dialogue⟩
    · obtain ⟨before, ask, after, rfl, stands⟩ := exists_repeat nodup
      have shorter : (before ++ after).length < length := by
        rw [← size]
        simp
      exact ih _ shorter (dialogue.drop_repeat stands) rfl

end Dialogue

/-- Work that follows is recorded, if the evaluations it can ask for have transcripts. -/
theorem exists_recorded {α : Type} {licence : Licence} {hold : Holding} {state : State}
    {work : Evaluator → Eval α} {fits : Holding → State → α → Prop}
    (follows : Follows licence hold state work fits) (evaluate : Evaluator)
    {transcribes : Ask → List Moment → Prop} (inner : ∀ ask, ∃ moments, transcribes ask moments) :
    ∃ moments, Recorded transcribes evaluate work state moments := by
  obtain ⟨asks, last, account⟩ := follows evaluate
  obtain ⟨distinct, nodup, dialogue⟩ := account.dialogue.exists_nodup
  have parts : ∃ parts, List.Forall₂ transcribes distinct parts := by
    clear dialogue nodup
    induction distinct with
    | nil => exact ⟨[], .nil⟩
    | cons ask rest ih =>
      obtain ⟨moments, transcribed⟩ := inner ask
      obtain ⟨parts, others⟩ := ih
      exact ⟨moments :: parts, .cons transcribed others⟩
  obtain ⟨parts, transcribed⟩ := parts
  exact ⟨parts.flatten, distinct, parts, nodup, dialogue, transcribed, rfl⟩

/-- Work is recorded in one way, if the evaluations it can ask for have one transcript each. -/
theorem Recorded.unique {α : Type} {transcribes : Ask → List Moment → Prop} {evaluate : Evaluator}
    {work : Evaluator → Eval α} {state : State} {moments others : List Moment}
    (inner : Relator.RightUnique transcribes)
    (first : Recorded transcribes evaluate work state moments)
    (second : Recorded transcribes evaluate work state others) : moments = others := by
  obtain ⟨asks, parts, nodup, dialogue, transcribed, rfl⟩ := first
  obtain ⟨asks', parts', nodup', dialogue', transcribed', rfl⟩ := second
  obtain rfl : asks = asks' :=
    (dialogue.sublist nodup dialogue').antisymm (dialogue'.sublist nodup' dialogue)
  rw [inner.forall₂ transcribed transcribed']

/-- A run has one transcript at most. -/
theorem Transcript.unique (setting : Setting) (host : Host) (depth : Nat) :
    Relator.RightUnique (Transcript setting host depth) := by
  induction depth with
  | zero =>
    intro ask moments others first second
    exact Eq.trans first (Eq.symm second)
  | succ depth ih =>
    rintro ask moments others ⟨inner, recorded, rfl⟩ ⟨inner', recorded', rfl⟩
    rw [recorded.unique ih recorded']

/-- Every run has a transcript. -/
theorem exists_transcript {licence : Licence} {setting : Setting} {host : Host}
    (hosts : host.Follows licence setting) (depth : Nat) (ask : Ask) :
    ∃ moments, Transcript setting host depth ask moments := by
  induction depth generalizing ask with
  | zero => exact ⟨_, rfl⟩
  | succ depth ih =>
    have follows := follows_step hosts ask.task ask.start
    obtain ⟨inner, recorded⟩ := exists_recorded follows (run setting host depth) ih
    exact ⟨_, inner, recorded, rfl⟩

end Eval

end ScopeMachine
