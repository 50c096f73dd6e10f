import ScopeMachine.Proofs.Evaluation.Birth
import ScopeMachine.Proofs.Evaluation.Transcript

/-!
# What becomes of objects

Among the moments of a run are the ends of constructions that have given an object. The storage of
such an object is new since the run began. Nothing that comes later in the run has it as a frame, so
at all later moments it is as it was made, and no other construction gives it again.
-/

namespace ScopeMachine

namespace Object.Born

variable {setting : Setting} {object : Object} {before middle after : Store}

/-- An object that has been made stays equipped when programs are added. -/
theorem extend {later : Setting} (born : object.Born setting before after)
    (more : ∀ id code, setting.program? id = some code → later.program? id = some code) :
    object.Born later before after := by
  obtain ⟨code, hasCode, methods⟩ := born.equipped
  exact ⟨⟨code, more _ _ hasCode, methods⟩, born.fresh, born.houses⟩

/-- What has been made since some store has been made since earlier ones. -/
theorem since (born : object.Born setting middle after) (evolves : before.Evolves middle) :
    object.Born setting before after :=
  ⟨born.equipped, fun issued => born.fresh (evolves.issued _ issued), born.houses⟩

end Object.Born

namespace Eval

/-- The moment is the end of a construction that gives the object. -/
def Moment.Bears (moment : Moment) (object : Object) : Prop :=
  ∃ ask ownerName args final,
    moment = .ends ask (some (.construct ownerName args)) (.ok (.object object) final)

/-- A beginning gives no object. -/
theorem Moment.not_bears_begins (ask : Ask) (object : Object) : ¬ (begins ask).Bears object := by
  rintro ⟨_, _, _, _, same⟩
  cases same

/-- An end gives an object when it is one of a construction, with the object as its result. -/
theorem Moment.bears_ends_iff {ask : Ask} {kind : Option NodeKind}
    {outcome : EStateM.Result Stop State Value} {object : Object} :
    (ends ask kind outcome).Bears object ↔
      (∃ ownerName args, kind = some (.construct ownerName args)) ∧
        ∃ final, outcome = .ok (.object object) final := by
  constructor
  · rintro ⟨_, ownerName, args, final, same⟩
    cases same
    exact ⟨⟨ownerName, args, rfl⟩, final, rfl⟩
  · rintro ⟨⟨ownerName, args, rfl⟩, final, rfl⟩
    exact ⟨ask, ownerName, args, final, rfl⟩

/-- From one store to another, with moments in between, other scopes than the frames keep parents
and names. Objects have new storages, which differ, and stay as they were made. -/
structure Sequel (setting : Setting) (frames : Set Handle) (begun : Store) (moments : List Moment)
    (final : Store) : Prop where
  /-- The store at the end is in order. -/
  tidy : final.Tidy
  /-- Scopes keep parents and names to the end. -/
  keeps : begun.Keeps frames final
  /-- Scopes keep parents and names to every moment. -/
  visited : ∀ moment ∈ moments, begun.Keeps frames moment.scopes
  /-- Objects have been made since the beginning. -/
  born : ∀ moment ∈ moments, ∀ object, moment.Bears object →
    object.Born setting begun moment.scopes
  /-- The storages of objects are as they were made, also at the end. -/
  housed : ∀ moment ∈ moments, ∀ object, moment.Bears object → final.Houses object
  /-- At later moments the storages are so, too, and no other object has one of them. -/
  later : moments.Pairwise fun moment next => ∀ object, moment.Bears object →
    next.scopes.Houses object ∧ ∀ other, next.Bears other → other.storage ≠ object.storage

namespace Sequel

variable {setting : Setting} {frames more : Set Handle} {begun middle final : Store}
  {moments others : List Moment}

/-- Without moments between two stores no object is made. -/
theorem quiet (tidy : final.Tidy) (keeps : begun.Keeps frames final) :
    Sequel setting frames begun [] final :=
  ⟨tidy, keeps, by simp, by simp, by simp, .nil⟩

/-- A sequel with few frames is one with more. -/
theorem mono (sequel : Sequel setting frames begun moments final) (subset : frames ⊆ more) :
    Sequel setting more begun moments final :=
  ⟨sequel.tidy, sequel.keeps.mono subset,
    fun moment listed => (sequel.visited moment listed).mono subset, sequel.born, sequel.housed,
    sequel.later⟩

/-- A sequel stays one when programs are added. -/
theorem extend {later : Setting} (sequel : Sequel setting frames begun moments final)
    (more : ∀ id code, setting.program? id = some code → later.program? id = some code) :
    Sequel later frames begun moments final :=
  { sequel with
    born := fun moment listed object bears =>
      (sequel.born moment listed object bears).extend more }

/-- One sequel continues another, if its frames are old ones or new since the beginning and no
storages of objects. -/
theorem append (earlier : Sequel setting frames begun moments middle)
    (later : Sequel setting more middle others final)
    (old : ∀ handle ∈ more, begun.Issued handle → handle ∈ frames)
    (apart : ∀ moment ∈ moments, ∀ object, moment.Bears object → object.storage ∉ more) :
    Sequel setting frames begun (moments ++ others) final := by
  have evolves := earlier.keeps.evolves
  refine ⟨later.tidy, earlier.keeps.trans later.keeps old, ?_, ?_, ?_, ?_⟩
  · refine List.forall_mem_append.2 ⟨earlier.visited, fun moment listed => ?_⟩
    exact earlier.keeps.trans (later.visited moment listed) old
  · refine List.forall_mem_append.2 ⟨earlier.born, fun moment listed object bears => ?_⟩
    exact (later.born moment listed object bears).since evolves
  · refine List.forall_mem_append.2 ⟨fun moment listed object bears => ?_, later.housed⟩
    have housed := earlier.housed moment listed object bears
    exact housed.keep later.keeps (apart moment listed object bears)
  · refine List.pairwise_append.2 ⟨earlier.later, later.later, ?_⟩
    intro moment listed next follows object bears
    have housed := earlier.housed moment listed object bears
    refine ⟨housed.keep (later.visited next follows) (apart moment listed object bears), ?_⟩
    intro other bearsOther same
    -- the storage of the later object is not even issued when the later part begins
    exact (later.born next follows other bearsOther).fresh (same ▸ housed.issued)

/-- A moment at the end adds an object with a new storage at most. -/
theorem concat (sequel : Sequel setting frames begun moments final) {moment : Moment}
    (atEnd : moment.scopes = final)
    (born : ∀ object, moment.Bears object → object.Born setting begun final)
    (apart : ∀ object, moment.Bears object → ∀ prior ∈ moments, ∀ other, prior.Bears other →
      object.storage ≠ other.storage) :
    Sequel setting frames begun (moments ++ [moment]) final := by
  subst atEnd
  refine ⟨sequel.tidy, sequel.keeps, ?_, ?_, ?_, ?_⟩
  · exact List.forall_mem_append.2 ⟨sequel.visited, List.forall_mem_singleton.2 sequel.keeps⟩
  · exact List.forall_mem_append.2 ⟨sequel.born, List.forall_mem_singleton.2 born⟩
  · exact List.forall_mem_append.2 ⟨sequel.housed,
      List.forall_mem_singleton.2 fun object bears => (born object bears).houses⟩
  · refine List.pairwise_append.2 ⟨sequel.later, List.pairwise_singleton _ _, ?_⟩
    intro prior listed next last object bears
    obtain rfl := List.mem_singleton.1 last
    exact ⟨sequel.housed prior listed object bears, fun other bearsOther =>
      apart other bearsOther prior listed object bears⟩

/-- Where an evaluation begins, nothing has happened yet. -/
theorem begins {ask : Ask} (tidy : ask.start.scopes.Tidy) :
    Sequel setting frames ask.start.scopes [.begins ask] ask.start.scopes :=
  (quiet tidy (Store.keeps_refl frames _)).concat rfl
    (fun object bears => absurd bears (Moment.not_bears_begins ask object))
    fun object bears => absurd bears (Moment.not_bears_begins ask object)

end Sequel

/-- What is asked for starts with a store in order, in a frame that has been issued. -/
structure Ask.Ready (setting : Setting) (ask : Ask) : Prop where
  /-- The store is in order. -/
  tidy : ask.start.scopes.Tidy
  /-- Frames have been issued. -/
  issued : ∀ handle ∈ ask.task.frames setting, ask.start.scopes.Issued handle

/-- Runs of a depth leave a sequel of what was there and of the objects that they make. -/
def KeepsObjects (setting : Setting) (host : Host) (depth : Nat) : Prop :=
  ∀ ask moments, Transcript setting host depth ask moments → ask.Ready setting →
    Sequel setting (ask.task.frames setting) ask.start.scopes moments
      ((run setting host depth ask.task).after ask.start).scopes

/-- Frames have been issued after a deed if they had been before it. -/
theorem Deed.issued_frames {licence : Licence} {hold last : Holding} {state final : State}
    (deed : Deed licence hold state last final) (tidy : state.scopes.Tidy)
    (issued : ∀ handle ∈ hold.frames, state.scopes.Issued handle) :
    ∀ handle ∈ last.frames, final.scopes.Issued handle := by
  have evolves := (deed.keeping tidy).keeps.evolves
  have before : ∀ handle ∈ hold.frames, final.scopes.Issued handle := fun handle own =>
    evolves.issued handle (issued handle own)
  cases deed with
  | @opens parent known =>
    rintro handle (rfl | own)
    · exact (Store.shaped_allocateEmpty tidy parent).issued
    · exact before handle own
  | _ => exact before

section Runs

variable {licence : Licence} {setting : Setting} {host : Host}
  (hosts : host.Follows licence setting) {depth : Nat}
include hosts

/-- What inner runs make of objects, work over them makes of objects; their storages are no frames
of the work. -/
theorem Course.sequel {hold last : Holding} {state final : State} {asks chosen : List Ask}
    {parts : List (List Moment)}
    (course : Course licence (run setting host depth) hold state asks last final)
    (inner : KeepsObjects setting host depth)
    (part : chosen.Sublist asks)
    (transcribed : List.Forall₂ (Transcript setting host depth) chosen parts)
    (tidy : state.scopes.Tidy) (issued : ∀ handle ∈ hold.frames, state.scopes.Issued handle) :
    Sequel setting hold.frames state.scopes parts.flatten final.scopes ∧
      ∀ moment ∈ parts.flatten, ∀ object, moment.Bears object → object.storage ∉ last.frames := by
  induction course generalizing chosen parts with
  | done =>
    obtain rfl := List.sublist_nil.1 part
    cases transcribed
    exact ⟨.quiet tidy (Store.keeps_refl _ _), by simp⟩
  | deed first _ ih =>
    have kept := first.keeping tidy
    obtain ⟨rest, apart⟩ := ih part transcribed kept.tidy (first.issued_frames tidy issued)
    exact ⟨(Sequel.quiet kept.tidy kept.keeps).append rest kept.fresh (by simp), apart⟩
  | @ask hold last state final task asks admitted course ih =>
    have kept := (conserves_keeping licence setting).ask admitted
      ((conserves_keeping licence setting).run hosts depth task state) tidy
    have smaller := Holding.ofTask_le setting admitted
    have issuedAfter : ∀ handle ∈ (hold.learn (run setting host depth task state)).frames,
        ((run setting host depth task).after state).scopes.Issued handle := by
      rw [Holding.frames_learn]
      exact fun handle own => kept.keeps.evolves.issued handle (issued handle own)
    cases part with
    | cons _ part =>
      -- a repeat: its moments are those of the first time
      obtain ⟨rest, apart⟩ := ih part transcribed kept.tidy issuedAfter
      exact ⟨(Sequel.quiet kept.tidy kept.keeps).append rest kept.fresh (by simp), apart⟩
    | cons_cons _ part =>
      obtain ⟨moments, others, first, following, rfl⟩ := List.forall₂_cons_left_iff.1 transcribed
      have ready : (⟨task, state⟩ : Ask).Ready setting :=
        ⟨tidy, fun handle own => issued handle (smaller.1 own)⟩
      have begun := (inner _ _ first ready).mono smaller.1
      obtain ⟨rest, apart⟩ := ih part following kept.tidy issuedAfter
      -- frames have been issued before the ask, and storages of its objects have not
      have new : ∀ moment ∈ moments, ∀ object, moment.Bears object →
          object.storage ∉ (hold.learn (run setting host depth task state)).frames := by
        intro moment listed object bears own
        rw [Holding.frames_learn] at own
        exact (begun.born moment listed object bears).fresh (issued _ own)
      have keptLater := (conserves_keeping licence setting).course
        ((conserves_keeping licence setting).run hosts depth) course kept.tidy
      refine ⟨begun.append rest kept.fresh new, ?_⟩
      rw [List.flatten_cons]
      refine List.forall_mem_append.2 ⟨fun moment listed object bears own => ?_, apart⟩
      have issuedBetween := (begun.housed moment listed object bears).issued
      exact new moment listed object bears (keptLater.fresh _ own issuedBetween)

/-- Recorded work over inner runs makes of objects what they do, and the storages are no frames of
it. -/
theorem Recorded.sequel {α : Type} {hold : Holding} {state : State} {work : Evaluator → Eval α}
    {fits : Holding → State → α → Prop} {moments : List Moment}
    (inner : KeepsObjects setting host depth)
    (follows : Follows licence hold state work fits)
    (recorded : Recorded (Transcript setting host depth) (run setting host depth) work state moments)
    (tidy : state.scopes.Tidy) (issued : ∀ handle ∈ hold.frames, state.scopes.Issued handle) :
    ∃ last : Holding,
      Sequel setting hold.frames state.scopes moments
        ((work (run setting host depth)).after state).scopes ∧
      (∀ moment ∈ moments, ∀ object, moment.Bears object → object.storage ∉ last.frames) ∧
      ∀ value final, work (run setting host depth) state = .ok value final →
        fits last final value := by
  obtain ⟨chosen, parts, nodup, dialogue, transcribed, rfl⟩ := recorded
  obtain ⟨asks, last, account⟩ := follows (run setting host depth)
  have part := dialogue.sublist nodup account.dialogue
  obtain ⟨sequel, apart⟩ := account.course.sequel hosts inner part transcribed tidy issued
  exact ⟨last, sequel, apart, account.result⟩

/-- A step follows; the storage of an object that it constructs is then a frame. -/
theorem follows_step_storage (task : Task) (state : State) :
    Follows licence (.ofTask setting task) state (fun evaluate => step setting host evaluate task)
      fun last _ value => ∀ ownerName args,
        setting.taskKind? task = some (.construct ownerName args) →
          ∃ object, value = .object object ∧ object.storage ∈ last.frames := by
  by_cases constructs : ∃ ownerName args, setting.taskKind? task = some (.construct ownerName args)
  · obtain ⟨ownerName, args, hasKind⟩ := constructs
    cases task with
    | call callee args => cases hasKind
    | node program id scope =>
      refine follows_node fun code kind found => ?_
      obtain rfl := Option.some.inj (found.symm.trans hasKind)
      have own : scope ∈ (Holding.ofTask setting (.node program id scope)).frames := by
        refine ⟨rfl, fun body block => ?_⟩
        rw [found] at block
        cases block
      exact (follows_construct own ownerName args).mono fun _ _ _ _ both _ _ _ => both.2
  · exact (follows_step hosts task state).mono fun _ _ _ _ _ ownerName args hasKind =>
      absurd ⟨ownerName, args, hasKind⟩ constructs

/-- What a task constructs has been made by it. -/
theorem born_of_task {task : Task} {ownerName : Symbol} {args : NodeRange} {state final : State}
    {object : Object} (constructs : setting.taskKind? task = some (.construct ownerName args))
    (tidy : state.scopes.Tidy)
    (ended : run setting host (depth + 1) task state = .ok (.object object) final) :
    object.Born setting state.scopes final.scopes := by
  cases task with
  | call callee args => cases constructs
  | node program id scope =>
    obtain ⟨_, same, born⟩ := born_of_construct hosts depth constructs tidy ended
    cases same
    exact born

/-- Runs of every depth keep the objects that they make. -/
theorem keepsObjects_run (depth : Nat) : KeepsObjects setting host depth := by
  induction depth with
  | zero =>
    intro ask moments transcript ready
    subst transcript
    have noneAtEnd : ∀ object, ¬ (Moment.ends ask (setting.taskKind? ask.task)
        (run setting host 0 ask.task ask.start)).Bears object := by
      intro object bears
      obtain ⟨_, final, ended⟩ := Moment.bears_ends_iff.1 bears
      cases ended
    exact (Sequel.begins ready.tidy).concat rfl (fun object bears => absurd bears (noneAtEnd object))
      fun object bears => absurd bears (noneAtEnd object)
  | succ depth ih =>
    rintro ask moments ⟨inner, recorded, rfl⟩ ready
    obtain ⟨last, sequel, apart, storage⟩ := recorded.sequel hosts ih
      (follows_step_storage hosts ask.task ask.start) ready.tidy ready.issued
    have noneBefore : ∀ prior ∈ [Moment.begins ask], ∀ other, ¬ prior.Bears other :=
      List.forall_mem_singleton.2 (Moment.not_bears_begins ask)
    have inside := (Sequel.begins ready.tidy).append sequel (fun _ own _ => own)
      fun prior listed other bears => absurd bears (noneBefore prior listed other)
    refine inside.concat (congrArg State.scopes (finalState_eq_after _ _)) ?_ ?_
    · intro object bears
      obtain ⟨⟨ownerName, args, constructs⟩, final, ended⟩ := Moment.bears_ends_iff.1 bears
      have born := born_of_task hosts constructs ready.tidy ended
      exact after_of_ok ended ▸ born
    · intro object bears
      obtain ⟨⟨ownerName, args, constructs⟩, final, ended⟩ := Moment.bears_ends_iff.1 bears
      -- the storage is a frame of this construction, and no object made inside has a frame
      have own : object.storage ∈ last.frames := by
        obtain ⟨_, same, frame⟩ := storage _ final ended ownerName args constructs
        cases same
        exact frame
      have differs : ∀ prior ∈ inner, ∀ other, prior.Bears other → object.storage ≠ other.storage :=
        fun prior listed other born same => apart prior listed other born (same ▸ own)
      exact List.forall_mem_append.2
        ⟨fun prior listed other born => absurd born (noneBefore prior listed other), differs⟩

end Runs

end Eval

end ScopeMachine
