import ScopeMachine.Proofs.Evaluation.Holding
import ScopeMachine.Proofs.Renaming.Basic
import ScopeMachine.Proofs.Scope.Keeping

/-!
# Courses of evaluations

Whatever an evaluation does to the scopes, it does by a few kinds of deeds: it opens a scope inside
one that it knows, declares in a frame of its own, binds anew a name that is bound already, looks
into a scope that it knows, and refers to a variable there. It prints, and an entry of the host may
collect. In between it asks for other evaluations and goes on from the states in which they end. A
course is such a sequence, with what is in hand along the way.

What is asked for shows from outside. Whoever answers the same asks alike settles the evaluation,
and whoever stops at one of them, having answered those before, stops the evaluation there: the asks
in order are the dialogue that the evaluation has with the evaluator of inner tasks.

An evaluation follows a course when it comes about by one, asks what the course asks, ends with a
result that is in hand, and reports a reclaimed scope only where a scope in hand is not live or
where an evaluation that it has asked for reports one.
-/

namespace ScopeMachine

/-- The stop reports that a scope has been reclaimed. -/
def Stop.IsReclaimed : Stop → Prop
  | .failure reason => reason.IsLoss
  | .missing | .exhausted => False

namespace Eval

/-- State that an evaluation leaves, however it ends. -/
def after {α : Type} (evaluation : Eval α) (state : State) : State :=
  match evaluation state with
  | .ok _ final => final
  | .error _ final => final

/-- An evaluation leaves the state with which it gives a result. -/
theorem after_of_ok {α : Type} {evaluation : Eval α} {state final : State} {value : α}
    (ended : evaluation state = .ok value final) : evaluation.after state = final := by
  rw [after, ended]

/-- An evaluation leaves the state in which it stops. -/
theorem after_of_error {α : Type} {evaluation : Eval α} {state final : State} {stop : Stop}
    (ended : evaluation state = .error stop final) : evaluation.after state = final := by
  rw [after, ended]

/-- A sequence goes on after a result. -/
theorem bind_of_ok {α β : Type} {first : Eval α} {next : α → Eval β} {state middle : State}
    {value : α} (ended : first state = .ok value middle) :
    (first >>= next) state = next value middle := by
  change EStateM.bind first next state = _
  rw [EStateM.bind, ended]

/-- A sequence ends with the first stop. -/
theorem bind_of_error {α β : Type} {first : Eval α} {next : α → Eval β} {state middle : State}
    {stop : Stop} (ended : first state = .error stop middle) :
    (first >>= next) state = .error stop middle := by
  change EStateM.bind first next state = _
  rw [EStateM.bind, ended]

/-- A sequence that gives a result has given one at its first part. -/
theorem exists_of_bind_eq_ok {α β : Type} {first : Eval α} {next : α → Eval β}
    {state final : State} {result : β} (ended : (first >>= next) state = .ok result final) :
    ∃ value middle, first state = .ok value middle ∧ next value middle = .ok result final := by
  cases begun : first state with
  | ok value middle =>
    rw [bind_of_ok begun] at ended
    exact ⟨value, middle, rfl, ended⟩
  | error stop middle =>
    rw [bind_of_error begun] at ended
    exact nomatch ended

/-- A sequence stops at its first part or goes on and stops later. -/
theorem of_bind_eq_error {α β : Type} {first : Eval α} {next : α → Eval β} {state final : State}
    {stop : Stop} (ended : (first >>= next) state = .error stop final) :
    first state = .error stop final ∨
      ∃ value middle, first state = .ok value middle ∧ next value middle = .error stop final := by
  cases begun : first state with
  | ok value middle =>
    rw [bind_of_ok begun] at ended
    exact Or.inr ⟨value, middle, rfl, ended⟩
  | error reason middle =>
    rw [bind_of_error begun] at ended
    cases ended
    exact Or.inl rfl

/-- What entries of the host may do besides answering from their arguments. -/
structure Licence where
  /-- They may collect. -/
  collects : Prop
  /-- They may answer with references to variables that nothing has referred to. -/
  forges : Prop

/-- Something that an evaluation does by itself, with what is in hand before and after it. -/
inductive Deed (licence : Licence) : Holding → State → Holding → State → Prop where
  /-- It opens a frame inside a scope that it knows. -/
  | opens {hold : Holding} {state : State} {parent : Handle} (known : parent ∈ hold.handles) :
    Deed licence hold state (hold.addFrame (state.scopes.allocateEmpty (some parent)).1)
      { state with scopes := (state.scopes.allocateEmpty (some parent)).2 }
  /-- It binds a name in a frame. -/
  | declares {hold : Holding} {state : State} {handle : Handle} {name : Symbol} {value : Value}
    {scopes : Store} (own : handle ∈ hold.frames) (has : hold.Has value)
    (written : state.scopes.set handle name value = .ok scopes) :
    Deed licence hold state hold { state with scopes }
  /-- It binds anew a name that a scope it knows binds already. -/
  | rebinds {hold : Holding} {state : State} {handle : Handle} {name : Symbol} {value : Value}
    {scopes : Store} (known : handle ∈ hold.handles) (bound : state.scopes.Binds handle name)
    (has : hold.Has value) (written : state.scopes.set handle name value = .ok scopes) :
    Deed licence hold state hold { state with scopes }
  /-- It looks into a scope that it knows. -/
  | looks {hold : Holding} {state : State} {handle : Handle} {scope : Scope}
    (known : handle ∈ hold.handles) (found : state.scopes.scope? handle = some scope) :
    Deed licence hold state (hold.addScope scope) state
  /-- It refers to a variable that a scope it knows binds. -/
  | refers {hold : Holding} {state : State} {target : Location}
    (known : target.scope ∈ hold.handles)
    (bound : licence.forges ∨ state.scopes.Binds target.scope target.name) :
    Deed licence hold state (hold.addLocation target) state
  /-- It prints. -/
  | prints {hold : Holding} {state : State} (output : Sink) :
    Deed licence hold state hold { state with output }
  /-- It collects, and reclaims no slot in its last generation. -/
  | collects {hold : Holding} {state : State} {roots : List Handle} (allowed : licence.collects)
    (lasting : state.scopes.wrapsOn roots = false) :
    Deed licence hold state hold { state with scopes := (state.scopes.collect roots).2 }

/-- Task that is asked for, and the state in which it is. -/
@[ext] structure Ask where
  /-- The task. -/
  task : Task
  /-- State in which its evaluation starts. -/
  start : State

/-- Deeds and asks from one state to another, with what is in hand at either end. -/
inductive Course (licence : Licence) (evaluate : Evaluator) :
    Holding → State → List Ask → Holding → State → Prop where
  /-- Nothing is left to do. -/
  | done {hold : Holding} {state : State} : Course licence evaluate hold state [] hold state
  /-- A deed comes first. -/
  | deed {hold middle last : Holding} {state next final : State} {asks : List Ask}
    (first : Deed licence hold state middle next)
    (rest : Course licence evaluate middle next asks last final) :
    Course licence evaluate hold state asks last final
  /-- An ask comes first; its value is in hand afterwards. -/
  | ask {hold last : Holding} {state final : State} {task : Task} {asks : List Ask}
    (admitted : hold.Admits task)
    (rest : Course licence evaluate (hold.learn (evaluate task state))
      ((evaluate task).after state) asks last final) :
    Course licence evaluate hold state (⟨task, state⟩ :: asks) last final

/-- A deed puts nothing out of hand. -/
theorem Deed.le {licence : Licence} {hold last : Holding} {state final : State}
    (deed : Deed licence hold state last final) : hold ≤ last := by
  cases deed with
  | opens known => exact Holding.le_addFrame _
  | looks known found => exact Holding.le_addScope _
  | refers known bound => exact Holding.le_addLocation _
  | _ => exact le_refl hold

/-- A course puts nothing out of hand. -/
theorem Course.le {licence : Licence} {evaluate : Evaluator} {hold last : Holding}
    {state final : State} {asks : List Ask}
    (course : Course licence evaluate hold state asks last final) : hold ≤ last := by
  induction course with
  | done => exact le_refl _
  | deed first _ ih => exact first.le.trans ih
  | ask _ _ ih => exact (Holding.le_learn _).trans ih

/-- One course continues another. -/
theorem Course.append {licence : Licence} {evaluate : Evaluator} {hold middle last : Holding}
    {state next final : State} {asks more : List Ask}
    (first : Course licence evaluate hold state asks middle next)
    (second : Course licence evaluate middle next more last final) :
    Course licence evaluate hold state (asks ++ more) last final := by
  induction first with
  | done => exact second
  | deed first _ ih => exact .deed first (ih second)
  | ask admitted _ ih => exact .ask admitted (ih second)

/-- Two evaluators answer alike. -/
def Ask.SameFor (ask : Ask) (evaluate other : Evaluator) : Prop :=
  other ask.task ask.start = evaluate ask.task ask.start

/-- The asks, in order, are what the work needs from the evaluator of inner tasks. -/
structure Dialogue {α : Type} (work : Evaluator → Eval α) (evaluate : Evaluator) (state : State)
    (asks : List Ask) : Prop where
  /-- Whoever answers them alike gets the same done. -/
  settles : ∀ other : Evaluator, (∀ ask ∈ asks, ask.SameFor evaluate other) →
    work other state = work evaluate state
  /-- Whoever stops at one of them, having answered those before, stops the work there. -/
  needs : ∀ earlier ask later, asks = earlier ++ ask :: later → ∀ other : Evaluator,
    (∀ prior ∈ earlier, prior.SameFor evaluate other) → ∀ stop final,
    other ask.task ask.start = .error stop final →
    ∃ reported, work other state = .error reported final

namespace Dialogue

variable {α β : Type} {evaluate : Evaluator} {state middle : State} {asks more : List Ask}

/-- Work that does not depend on the evaluator asks nothing. -/
theorem own (evaluation : Eval α) : Dialogue (fun _ => evaluation) evaluate state [] where
  settles := fun _ _ => rfl
  needs := by simp

/-- Work that passes on a task asks for it. -/
theorem ask (task : Task) :
    Dialogue (fun evaluate => evaluate task) evaluate state [⟨task, state⟩] where
  settles := fun other same => same _ (List.mem_singleton_self _)
  needs := by
    intro earlier ask later split other _ stop final stopped
    obtain ⟨rfl, rfl, rfl⟩ : earlier = [] ∧ ask = ⟨task, state⟩ ∧ later = [] := by
      rcases List.singleton_eq_append_iff.1 split with ⟨none, rest⟩ | ⟨_, rest⟩
      · exact ⟨none, (List.cons.inj rest).1, (List.cons.inj rest).2⟩
      · exact nomatch rest
    exact ⟨stop, stopped⟩

section Sequence

variable {first : Evaluator → Eval α} {next : α → Evaluator → Eval β}

/-- A sequence asks what its parts ask. -/
theorem bind_ok (opening : Dialogue first evaluate state asks) {value : α}
    (ended : first evaluate state = .ok value middle)
    (rest : Dialogue (next value) evaluate middle more) :
    Dialogue (fun evaluate => first evaluate >>= fun value => next value evaluate) evaluate state
      (asks ++ more) where
  settles := by
    intro other same
    have begun : first other state = .ok value middle := by
      rw [opening.settles other fun ask listed => same ask (List.mem_append_left _ listed), ended]
    rw [bind_of_ok begun, bind_of_ok ended]
    exact rest.settles other fun ask listed => same ask (List.mem_append_right _ listed)
  needs := by
    intro earlier ask later split other same stop final stopped
    rcases List.append_eq_append_iff.1 split with ⟨inner, rfl, inRest⟩ | ⟨inner, inFirst, tail⟩
    · have begun : first other state = .ok value middle := by
        rw [opening.settles other fun ask listed => same ask (List.mem_append_left _ listed), ended]
      rw [bind_of_ok begun]
      exact rest.needs inner ask later inRest other
        (fun prior listed => same prior (List.mem_append_right _ listed)) stop final stopped
    · cases inner with
      | nil =>
        -- the ask is the first one of the rest
        rw [List.append_nil] at inFirst
        subst inFirst
        have begun : first other state = .ok value middle := by
          rw [opening.settles other same, ended]
        rw [bind_of_ok begun]
        exact rest.needs [] ask later tail.symm other (by simp) stop final stopped
      | cons head inner =>
        obtain ⟨rfl, _⟩ := List.cons.inj tail
        obtain ⟨reported, stopped⟩ :=
          opening.needs earlier ask inner inFirst other same stop final stopped
        exact ⟨reported, bind_of_error stopped⟩

/-- A sequence that stops in its first part asks what that asks. -/
theorem bind_error (opening : Dialogue first evaluate state asks) {stop : Stop}
    (ended : first evaluate state = .error stop middle) :
    Dialogue (fun evaluate => first evaluate >>= fun value => next value evaluate) evaluate state
      asks where
  settles := by
    intro other same
    have begun : first other state = .error stop middle := by rw [opening.settles other same, ended]
    rw [bind_of_error begun, bind_of_error ended]
  needs := by
    intro earlier ask later split other same stop final stopped
    obtain ⟨reported, stopped⟩ := opening.needs earlier ask later split other same stop final stopped
    exact ⟨reported, bind_of_error stopped⟩

end Sequence

/-- Giving failures a span changes no asks. -/
theorem located {work : Evaluator → Eval α} (dialogue : Dialogue work evaluate state asks)
    (span : Span) : Dialogue (fun evaluate => (work evaluate).located span) evaluate state asks where
  settles := by
    intro other same
    simp only [Eval.located, dialogue.settles other same]
  needs := by
    intro earlier ask later split other same stop final stopped
    obtain ⟨reported, stopped⟩ := dialogue.needs earlier ask later split other same stop final stopped
    simp only [Eval.located, stopped]
    cases reported with
    | failure failure => exact ⟨_, rfl⟩
    | missing => exact ⟨_, rfl⟩
    | exhausted => exact ⟨_, rfl⟩

end Dialogue

/-- The work comes about by a course and asks what the course asks; its result fits what is in hand
at the end, and it reports no loss of its own without a dead scope in hand. -/
structure Account {α : Type} (licence : Licence) (evaluate : Evaluator) (hold : Holding)
    (state : State) (work : Evaluator → Eval α) (fits : Holding → State → α → Prop)
    (asks : List Ask) (last : Holding) : Prop where
  /-- It comes about by a course. -/
  course : Course licence evaluate hold state asks last ((work evaluate).after state)
  /-- It asks what the course asks. -/
  dialogue : Dialogue work evaluate state asks
  /-- Its result fits what is in hand. -/
  result : ∀ value final, work evaluate state = .ok value final → fits last final value
  /-- It reports a reclaimed scope only for a dead scope in hand, or because an ask does. -/
  loss : ∀ stop final, work evaluate state = .error stop final → stop.IsReclaimed →
    (∃ handle ∈ last.handles, final.scopes.isLive handle = false) ∨
      ∃ ask ∈ asks, ∃ inner later, evaluate ask.task ask.start = .error inner later ∧
        inner.IsReclaimed

/-- Whatever the evaluator of inner tasks, the work has an account. -/
def Follows {α : Type} (licence : Licence) (hold : Holding) (state : State)
    (work : Evaluator → Eval α) (fits : Holding → State → α → Prop) : Prop :=
  ∀ evaluate, ∃ asks last, Account licence evaluate hold state work fits asks last

/-- A reading fails, or its result fits what is in hand after some looks; where it fails because a
scope is lost, a scope is then in hand that is not live. -/
def Reads {ε α : Type} (licence : Licence) (hold : Holding) (state : State) (lost : ε → Prop)
    (read : Except ε α) (fits : Holding → α → Prop) : Prop :=
  ∀ evaluate, ∃ last, Course licence evaluate hold state [] last state ∧
    (∀ value, read = .ok value → fits last value) ∧
    ∀ error, read = .error error → lost error →
      ∃ handle ∈ last.handles, state.scopes.isLive handle = false

section Reading

variable {ε α β : Type} {licence : Licence} {hold : Holding} {state : State} {lost : ε → Prop}
  {fits : Holding → α → Prop}

/-- What fits already needs no look. -/
theorem reads_ok {value : α} (fit : fits hold value) :
    Reads licence hold state lost (.ok value) fits := by
  refine fun _ => ⟨hold, .done, ?_, ?_⟩
  · rintro _ ⟨⟩
    exact fit
  · rintro _ ⟨⟩

/-- A failure that is no loss needs no look. -/
theorem reads_error {error : ε} (other : ¬ lost error) :
    Reads licence hold state lost (.error error) fits := by
  refine fun _ => ⟨hold, .done, ?_, ?_⟩
  · rintro _ ⟨⟩
  · rintro _ ⟨⟩ loss
    exact absurd loss other

/-- One reading after another. -/
theorem Reads.bind {after : Holding → β → Prop} {first : Except ε α} {next : α → Except ε β}
    (reads : Reads licence hold state lost first fits)
    (rest : ∀ later value, hold ≤ later → fits later value →
      Reads licence later state lost (next value) after) :
    Reads licence hold state lost (first >>= next) after := by
  intro evaluate
  obtain ⟨later, course, result, loss⟩ := reads evaluate
  cases first with
  | ok value =>
    obtain ⟨last, more, ends⟩ := rest later value course.le (result value rfl) evaluate
    exact ⟨last, course.append more, ends⟩
  | error error =>
    refine ⟨later, course, ?_, ?_⟩
    · rintro _ ⟨⟩
    · rintro _ ⟨⟩ lost
      exact loss error rfl lost

/-- A weaker requirement on the result is fulfilled with a stronger one. -/
theorem Reads.mono {weaker : Holding → α → Prop} {read : Except ε α}
    (reads : Reads licence hold state lost read fits)
    (implied : ∀ last value, hold ≤ last → fits last value → weaker last value) :
    Reads licence hold state lost read weaker := by
  intro evaluate
  obtain ⟨last, course, result, loss⟩ := reads evaluate
  exact ⟨last, course, fun value found => implied last value course.le (result value found), loss⟩

/-- A look into a known scope puts in hand what it leads to and what it binds. -/
theorem reads_scope {handle : Handle} (known : handle ∈ hold.handles) :
    Reads licence hold state ScopeError.IsLoss (state.scopes.scope handle) fun last scope =>
      state.scopes.scope? handle = some scope ∧ last = hold.addScope scope := by
  intro evaluate
  cases found : state.scopes.scope? handle with
  | some scope =>
    rw [Store.scope_of_scope? found]
    refine ⟨_, .deed (.looks known found) .done, ?_, ?_⟩
    · rintro _ ⟨⟩
      exact ⟨rfl, rfl⟩
    · rintro _ ⟨⟩
  | none =>
    have dead := Store.scope?_eq_none_iff.1 found
    rw [Store.scope_of_not_isLive dead]
    refine ⟨hold, .done, ?_, fun _ _ _ => ⟨handle, known, dead⟩⟩
    rintro _ ⟨⟩

end Reading

section Combinators

variable {α β : Type} {licence : Licence} {hold : Holding} {state : State}
  {fits : Holding → State → α → Prop}

/-- A weaker requirement on the result is fulfilled with a stronger one. -/
theorem Follows.mono {work : Evaluator → Eval α} {weaker : Holding → State → α → Prop}
    (follows : Follows licence hold state work fits)
    (implied : ∀ last final value, hold ≤ last → fits last final value → weaker last final value) :
    Follows licence hold state work weaker := by
  intro evaluate
  obtain ⟨asks, last, account⟩ := follows evaluate
  exact ⟨asks, last, account.course, account.dialogue,
    fun value final ended =>
      implied last final value account.course.le (account.result value final ended),
    account.loss⟩

/-- Work that does not depend on the evaluator follows its own deeds. -/
theorem follows_own {evaluation : Eval α}
    (deeds : ∀ evaluate, ∃ last,
      Course licence evaluate hold state [] last (evaluation.after state) ∧
      (∀ value final, evaluation state = .ok value final → fits last final value) ∧
      (∀ stop final, evaluation state = .error stop final → stop.IsReclaimed →
        ∃ handle ∈ last.handles, final.scopes.isLive handle = false)) :
    Follows licence hold state (fun _ => evaluation) fits := by
  intro evaluate
  obtain ⟨last, course, result, loss⟩ := deeds evaluate
  exact ⟨[], last, course, .own evaluation, result,
    fun stop final ended reclaimed => Or.inl (loss stop final ended reclaimed)⟩

/-- A result that fits follows. -/
theorem follows_pure {value : α} (fit : fits hold state value) :
    Follows licence hold state (fun _ => (pure value : Eval α)) fits := by
  refine follows_own fun _ => ⟨hold, .done, ?_, ?_⟩
  · rintro _ _ ⟨⟩
    exact fit
  · rintro _ _ ⟨⟩

/-- A stop that reports no reclaimed scope follows. -/
theorem follows_throw {stop : Stop} (other : ¬ stop.IsReclaimed) :
    Follows licence hold state (fun _ => (throw stop : Eval α)) fits := by
  refine follows_own fun _ => ⟨hold, .done, ?_, ?_⟩
  · rintro _ _ ⟨⟩
  · rintro _ _ ⟨⟩ reclaimed
    exact absurd reclaimed other

/-- A failure for another cause than a reclaimed scope follows. -/
theorem follows_fail {failure : Failure} (other : ¬ failure.IsLoss) :
    Follows licence hold state (fun _ => (fail failure : Eval α)) fits :=
  follows_throw other

/-- What exists is in hand. -/
theorem follows_existing {found : Option α}
    (fit : ∀ value, found = some value → fits hold state value) :
    Follows licence hold state (fun _ => existing found) fits := by
  cases found with
  | none => exact follows_throw id
  | some value => exact follows_pure (fit value rfl)

/-- A computed result fits when its reading does. -/
theorem follows_ofResult {computed : Except Failure α}
    (reads : Reads licence hold state Failure.IsLoss computed fun last value =>
      fits last state value) :
    Follows licence hold state (fun _ => ofResult computed) fits := by
  refine follows_own fun evaluate => ?_
  obtain ⟨last, course, result, loss⟩ := reads evaluate
  cases computed with
  | ok value =>
    refine ⟨last, course, ?_, ?_⟩
    · rintro _ _ ⟨⟩
      exact result value rfl
    · rintro _ _ ⟨⟩
  | error failure =>
    refine ⟨last, course, ?_, ?_⟩
    · rintro _ _ ⟨⟩
    · rintro _ _ ⟨⟩ reclaimed
      exact loss failure rfl reclaimed

/-- What the store is asked fits when its reading does. -/
theorem follows_query {stop : ScopeError → Stop} {read : Store → Except ScopeError α}
    (stops : ∀ error, (stop error).IsReclaimed → error.IsLoss)
    (reads : Reads licence hold state ScopeError.IsLoss (read state.scopes) fun last value =>
      fits last state value) :
    Follows licence hold state (fun _ => query stop read) fits := by
  refine follows_own fun evaluate => ?_
  obtain ⟨last, course, result, loss⟩ := reads evaluate
  cases ended : read state.scopes with
  | ok value =>
    have finished : query stop read state = .ok value state := by simp only [query, ended]
    refine ⟨last, (after_of_ok finished).symm ▸ course, ?_, ?_⟩ <;> rw [finished]
    · rintro _ _ ⟨⟩
      exact result value ended
    · rintro _ _ ⟨⟩
  | error error =>
    have finished : query stop read state = .error (stop error) state := by
      simp only [query, ended]
    refine ⟨last, (after_of_error finished).symm ▸ course, ?_, ?_⟩ <;> rw [finished]
    · rintro _ _ ⟨⟩
    · rintro _ _ ⟨⟩ reclaimed
      exact loss error ended (stops error reclaimed)

/-- A change of the store follows when its writes do. -/
theorem follows_update {stop : ScopeError → Stop} {write : Store → Except ScopeError Store}
    (deeds : ∀ evaluate, ∃ last,
      (∀ scopes, write state.scopes = .ok scopes →
        Course licence evaluate hold state [] last { state with scopes }) ∧
      (∀ error, write state.scopes = .error error →
        Course licence evaluate hold state [] last state ∧
          ((stop error).IsReclaimed →
            ∃ handle ∈ last.handles, state.scopes.isLive handle = false))) :
    Follows licence hold state (fun _ => update stop write) fun _ _ _ => True := by
  refine follows_own fun evaluate => ?_
  obtain ⟨last, written, refused⟩ := deeds evaluate
  cases ended : write state.scopes with
  | ok scopes =>
    have finished : update stop write state = .ok () { state with scopes } := by
      simp only [update, ended]
    refine ⟨last, (after_of_ok finished).symm ▸ written scopes ended, fun _ _ _ => trivial, ?_⟩
    rw [finished]
    rintro _ _ ⟨⟩
  | error error =>
    have finished : update stop write state = .error (stop error) state := by
      simp only [update, ended]
    refine ⟨last, (after_of_error finished).symm ▸ (refused error ended).1,
      fun _ _ _ => trivial, ?_⟩
    rw [finished]
    rintro _ _ ⟨⟩ reclaimed
    exact (refused error ended).2 reclaimed

/-- A new scope inside a known one becomes a frame. -/
theorem follows_allocate {parent : Handle} (known : parent ∈ hold.handles) :
    Follows licence hold state (fun _ => allocate (some parent))
      fun last _ handle => handle ∈ last.frames := by
  refine follows_own fun evaluate => ⟨_, .deed (.opens known) .done, ?_, ?_⟩
  · rintro _ _ ⟨⟩
    exact Set.mem_insert _ _
  · rintro _ _ ⟨⟩

/-- The store that is read is the current one. -/
theorem follows_scopes :
    Follows licence hold state (fun _ => scopes) fun _ final store => store = final.scopes := by
  refine follows_own fun evaluate => ⟨hold, .done, ?_, ?_⟩
  · rintro _ _ ⟨⟩
    rfl
  · rintro _ _ ⟨⟩

/-- Printing follows. -/
theorem follows_write (print : Sink → Sink) :
    Follows licence hold state (fun _ => write print) fun _ _ _ => True := by
  refine follows_own fun evaluate => ⟨hold, .deed (.prints _) .done, fun _ _ _ => trivial, ?_⟩
  rintro _ _ ⟨⟩

/-- A task that is admitted can be passed on, and its value is in hand. -/
theorem follows_ask {task : Task} (admitted : hold.Admits task) :
    Follows licence hold state (fun evaluate => evaluate task) fun last _ value =>
      last.Has value := by
  refine fun evaluate => ⟨[⟨task, state⟩], hold.learn (evaluate task state),
    .ask admitted .done, .ask task, ?_, ?_⟩
  · intro value final ended
    rw [ended]
    exact Holding.has_addValue value
  · intro stop final ended reclaimed
    exact Or.inr ⟨_, List.mem_singleton_self _, stop, final, ended, reclaimed⟩

/-- A sequence follows when its parts do. -/
theorem Follows.bind {after : Holding → State → β → Prop} {first : Evaluator → Eval α}
    {next : α → Evaluator → Eval β} (opening : Follows licence hold state first fits)
    (rest : ∀ middle final value, hold ≤ middle → fits middle final value →
      Follows licence middle final (next value) after) :
    Follows licence hold state (fun evaluate => first evaluate >>= fun value => next value evaluate)
      after := by
  intro evaluate
  obtain ⟨asks, middle, account⟩ := opening evaluate
  cases ended : first evaluate state with
  | ok value final =>
    have course := account.course
    rw [after_of_ok ended] at course
    obtain ⟨more, last, continued⟩ :=
      rest middle final value course.le (account.result value final ended) evaluate
    refine ⟨asks ++ more, last, ?_, account.dialogue.bind_ok ended continued.dialogue, ?_, ?_⟩
    · rw [Eval.after, bind_of_ok ended]
      exact course.append continued.course
    · intro result final finished
      rw [bind_of_ok ended] at finished
      exact continued.result result final finished
    · intro stop final stopped reclaimed
      rw [bind_of_ok ended] at stopped
      rcases continued.loss stop final stopped reclaimed with dead | ⟨ask, listed, inner⟩
      · exact Or.inl dead
      · exact Or.inr ⟨ask, List.mem_append_right _ listed, inner⟩
  | error stop final =>
    refine ⟨asks, middle, ?_, account.dialogue.bind_error ended, ?_, ?_⟩
    · rw [Eval.after, bind_of_error ended]
      exact after_of_error ended ▸ account.course
    · intro result final finished
      rw [bind_of_error ended] at finished
      exact nomatch finished
    · intro reported final stopped reclaimed
      rw [bind_of_error ended] at stopped
      cases stopped
      exact account.loss stop _ ended reclaimed

/-- Work that does the same in a state follows there, too. -/
theorem Follows.congr {work same : Evaluator → Eval α}
    (follows : Follows licence hold state work fits)
    (agree : ∀ evaluate, same evaluate state = work evaluate state) :
    Follows licence hold state same fits := by
  intro evaluate
  obtain ⟨asks, last, account⟩ := follows evaluate
  refine ⟨asks, last, ?_, ⟨?_, ?_⟩, ?_, ?_⟩
  · rw [Eval.after, agree]
    exact account.course
  · intro other alike
    rw [agree, agree]
    exact account.dialogue.settles other alike
  · intro earlier ask later split other alike
    rw [agree]
    exact account.dialogue.needs earlier ask later split other alike
  · rw [agree]
    exact account.result
  · rw [agree]
    exact account.loss

/-- Giving failures a span changes neither deeds nor asks nor causes. -/
theorem Follows.located {work : Evaluator → Eval α} (follows : Follows licence hold state work fits)
    (span : Span) :
    Follows licence hold state (fun evaluate => (work evaluate).located span) fits := by
  intro evaluate
  obtain ⟨asks, last, account⟩ := follows evaluate
  refine ⟨asks, last, ?_, account.dialogue.located span, ?_, ?_⟩
  · have course := account.course
    unfold Eval.after Eval.located at *
    cases ended : work evaluate state with
    | ok value final =>
      rw [ended] at course
      exact course
    | error stop final =>
      rw [ended] at course
      cases stop <;> exact course
  · intro value final finished
    unfold Eval.located at finished
    cases ended : work evaluate state with
    | ok inner later =>
      rw [ended] at finished
      cases finished
      exact account.result value final ended
    | error stop later =>
      rw [ended] at finished
      cases stop <;> exact nomatch finished
  · intro stop final stopped reclaimed
    unfold Eval.located at stopped
    cases ended : work evaluate state with
    | ok inner later =>
      rw [ended] at stopped
      exact nomatch stopped
    | error inner later =>
      rw [ended] at stopped
      cases inner with
      | failure failure =>
        cases stopped
        refine account.loss _ final ended ?_
        have kept : (failure.locateOnce span).cause = failure.cause := by
          unfold Failure.locateOnce
          split <;> rfl
        exact kept.symm.trans reclaimed
      | missing =>
        cases stopped
        exact reclaimed.elim
      | exhausted =>
        cases stopped
        exact reclaimed.elim

/-- Results for each member of a list are all in hand at the end. -/
theorem follows_each {work : β → Evaluator → Eval Value} {items : List β}
    (follows : ∀ item ∈ items, ∀ later next, hold ≤ later →
      Follows licence later next (work item) fun last _ value => last.Has value) :
    Follows licence hold state (fun evaluate => each (fun item => work item evaluate) items)
      fun last _ values => ∀ value ∈ values, last.Has value := by
  induction items generalizing hold state with
  | nil => exact follows_pure (by simp)
  | cons item items ih =>
    refine (follows item List.mem_cons_self hold state (le_refl hold)).bind
      fun middle final value more has => ?_
    refine (ih fun other listed later next further =>
      follows other (List.mem_cons_of_mem item listed) later next (more.trans further)).bind
      fun last _ values further all => follows_pure ?_
    exact List.forall_mem_cons.2 ⟨has.mono further, all⟩

/-- The last of several results is in hand at the end. -/
theorem follows_last {work : β → Evaluator → Eval Value} {items : List β} {value : Value}
    (has : hold.Has value)
    (follows : ∀ item ∈ items, ∀ later next, hold ≤ later →
      Follows licence later next (work item) fun last _ value => last.Has value) :
    Follows licence hold state (fun evaluate => last (fun item => work item evaluate) value items)
      fun last _ value => last.Has value := by
  induction items generalizing hold state value with
  | nil => exact follows_pure has
  | cons item items ih =>
    refine (follows item List.mem_cons_self hold state (le_refl hold)).bind
      fun middle final next more found => ?_
    exact ih found fun other listed later state further =>
      follows other (List.mem_cons_of_mem item listed) later state (more.trans further)

end Combinators

end Eval

end ScopeMachine
