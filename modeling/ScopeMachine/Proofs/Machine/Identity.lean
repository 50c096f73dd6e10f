import Mathlib.Data.List.Pairwise
import ScopeMachine.Proofs.Evaluation.Makers
import ScopeMachine.Proofs.Machine.Objects
import ScopeMachine.Proofs.Syntax.Builder
import ScopeMachine.Value.Equality

/-!
# What equal functions, classes and objects have in common

The annals of a machine list the moments of everything that a host has had done, whose entries
answer honestly and which hands over nothing but what it has been given. Every function, class and
object that an evaluation in them has given has been made by an evaluation in them.

Objects with one storage are one object. Functions are compared by body, scope and program, and
classes by name, scope and program. If these agree, the rest agrees, too, unless two nodes of the
program declare functions over one body or classes of one name. Such nodes make values that are
equal and yet differ.
-/

namespace ScopeMachine

/-- Values that a host hands over with an errand. -/
def Errand.values : Errand → List Value
  | program _ _ | node _ _ => []
  | call callee args => callee :: args

/-- Values that a host hands over with an operation. -/
def Operation.values : Operation → List Value
  | load _ | runEach _ _ _ => []
  | carryOut errand _ => errand.values
  | bindGlobal _ value => [value]

/-- The values agree in all that makes a difference to their use. -/
def Value.Interchangeable : Value → Value → Prop
  | function f, function g =>
    f.params = g.params ∧ f.body = g.body ∧ f.scope = g.scope ∧ f.program = g.program
  | classObject c, classObject d => c.name = d.name ∧ c.fields = d.fields ∧ c.methods = d.methods
  | object o, object p => o.owner = p.owner ∧ o.methods = p.methods ∧ o.storage = p.storage
  | _, _ => False

/-- Two nodes of one program declare the values, as functions over one body or as classes of one
name. -/
def Value.Confusable (setting : Setting) : Value → Value → Prop
  | function f, function g => f.program = g.program ∧ f.body = g.body ∧
    ∃ id other, id ≠ other ∧ f.StemsFrom setting id ∧ g.StemsFrom setting other
  | classObject c, classObject d => c.program = d.program ∧ c.name = d.name ∧
    ∃ id other, id ≠ other ∧ c.StemsFrom setting id ∧ d.StemsFrom setting other
  | _, _ => False

namespace Eval

/-- An evaluation has made the value. -/
def Made (journal : List Moment) (value : Value) : Prop := ∃ moment ∈ journal, moment.Makes value

/-- An evaluation has given the function, class or object, alone or in an array. -/
def Shown (journal : List Moment) (entity : Value) : Prop :=
  ∃ moment ∈ journal, ∃ value, moment.Yields value ∧ entity ∈ value.entities

/-- The objects of two constructions have different storages. -/
def Moment.BearsApart (moment next : Moment) : Prop :=
  ∀ object, moment.Bears object → ∀ other, next.Bears other → object.storage ≠ other.storage

/-- It does not matter which construction is the first one. -/
instance : Std.Symm Moment.BearsApart :=
  ⟨fun _ _ apart object bears other bearsOther => (apart other bearsOther object bears).symm⟩

/-- What is made stays made. -/
theorem Made.append {journal : List Moment} {value : Value} (made : Made journal value)
    (moments : List Moment) : Made (journal ++ moments) value := by
  obtain ⟨moment, listed, makes⟩ := made
  exact ⟨moment, List.mem_append_left _ listed, makes⟩

/-- What genuine moments make is made by them, as a whole. -/
theorem Genuine.makesKnown {setting : Setting} {moments : List Moment}
    (genuine : Genuine setting moments) {known : Value → Prop}
    (all : ∀ value, Made moments value → known value) : MakesKnown known moments := by
  intro moment listed value makes entity held
  rw [(genuine moment listed value makes).entities_eq, List.mem_singleton] at held
  exact held ▸ all value ⟨moment, listed, makes⟩

/-- What genuine moments have made has been shown. -/
theorem Made.shown {setting : Setting} {journal : List Moment} (genuine : Genuine setting journal)
    {value : Value} (made : Made journal value) : Shown journal value := by
  obtain ⟨moment, listed, makes⟩ := made
  have single := (genuine moment listed value makes).entities_eq
  obtain ⟨ask, kind, final, _, rfl⟩ := makes
  refine ⟨_, listed, value, ⟨ask, some kind, final, rfl⟩, ?_⟩
  rw [single]
  exact List.mem_singleton_self value

/-- What has been shown has been made, if what evaluations yield is made of what they make. -/
theorem Shown.made {journal : List Moment} {entity : Value} (shown : Shown journal entity)
    (yields : YieldsKnown (Made journal) journal) : Made journal entity := by
  obtain ⟨moment, listed, value, given, held⟩ := shown
  exact yields moment listed value given entity held

end Eval

section Equality

variable {setting : Setting} {id other : NodeId}

/-- Equal functions are interchangeable, or two nodes declare them. -/
theorem Closure.interchangeable_or_confusable {f g : Closure} (stems : f.StemsFrom setting id)
    (stemsOther : g.StemsFrom setting other) (same : f.same g = true) :
    (Value.function f).Interchangeable (.function g) ∨
      (Value.function f).Confusable setting (.function g) := by
  simp only [Closure.same, Bool.and_eq_true, beq_iff_eq] at same
  obtain ⟨⟨body, scope⟩, program⟩ := same
  by_cases one : id = other
  · subst one
    obtain ⟨code, hasCode, declares⟩ := stems
    obtain ⟨again, hasAgain, declaresAgain⟩ := stemsOther
    rw [← program, hasCode] at hasAgain
    cases hasAgain
    rw [declares] at declaresAgain
    exact Or.inl ⟨(Prod.mk.inj (Option.some.inj declaresAgain)).1, body, scope, program⟩
  · exact Or.inr ⟨program, body, id, other, one, stems, stemsOther⟩

/-- Equal classes are interchangeable, or two nodes declare them. -/
theorem ClassObject.interchangeable_or_confusable {c d : ClassObject}
    (stems : c.StemsFrom setting id) (stemsOther : d.StemsFrom setting other)
    (same : c.same d = true) :
    (Value.classObject c).Interchangeable (.classObject d) ∨
      (Value.classObject c).Confusable setting (.classObject d) := by
  simp only [ClassObject.same, Bool.and_eq_true, beq_iff_eq] at same
  obtain ⟨⟨name, scope⟩, program⟩ := same
  by_cases one : id = other
  · subst one
    obtain ⟨code, decl, hasCode, declares, made⟩ := stems
    obtain ⟨again, declAgain, hasAgain, declaresAgain, madeAgain⟩ := stemsOther
    rw [← program, hasCode] at hasAgain
    cases hasAgain
    rw [declares] at declaresAgain
    cases declaresAgain
    have whole : c = d := by rw [made, madeAgain, scope, program]
    exact Or.inl ⟨name, whole ▸ rfl, whole ▸ rfl⟩
  · exact Or.inr ⟨program, name, id, other, one, stems, stemsOther⟩

end Equality

/-- The work of an errand stays among known values, if it is given known values. -/
theorem Errand.stays_work {known : Value → Prop} {evaluate : Evaluator}
    (reliable : Eval.Reliable known evaluate) (setting : Setting) (current : ProgramId)
    {errand : Errand} (given : ∀ value ∈ errand.values, value.Among known) :
    Eval.Stays known (Value.Among known) (errand.work setting current evaluate) := by
  cases errand with
  | program id units =>
    exact Eval.stays_last (Value.among_of_entities_eq_nil rfl) fun unit _ =>
      reliable.node id unit setting.global
  | node id scope => exact reliable.node current id scope
  | call callee args => exact reliable (.call callee args) given

namespace Machine

/-- The answers and the machine that an operation leaves are among known values. -/
structure Leaves (known : Value → Prop) (ended : List Answer × Machine) : Prop where
  /-- The values in the answers are known. -/
  answers : ∀ value, .ok value ∈ ended.1 → value.Among known
  /-- The values in the scopes are known. -/
  state : ended.2.state.Among known

/-- An evaluation that lands among known values leaves them. -/
theorem leaves_perform {machine : Machine} {known : Value → Prop} {evaluation : Eval Value}
    (lands : Eval.Lands known (Value.Among known) (evaluation machine.state)) :
    Leaves known ([(machine.perform evaluation).1], (machine.perform evaluation).2) := by
  unfold perform
  cases ended : evaluation machine.state with
  | ok value final =>
    rw [ended] at lands
    refine ⟨fun other answered => ?_, lands.2⟩
    cases List.mem_singleton.1 answered
    exact lands.1
  | error stop final =>
    rw [ended] at lands
    exact ⟨by simp, lands⟩

section Recording

variable {machine : Machine} {host : Host} {depth : Nat} {moments : List Eval.Moment}

/-- What nodes make that are evaluated one after the other, they bring into being. -/
theorem RecordsEach.genuine {units : List NodeId}
    (recorded : machine.RecordsEach host depth units moments) :
    Eval.Genuine machine.setting moments := by
  induction units generalizing machine moments with
  | nil =>
    subst recorded
    simp [Eval.Genuine]
  | cons unit units ih =>
    obtain ⟨first, rest, begun, continued, rfl⟩ := recorded
    have following := ih continued
    have same := machine.setting_carryOut host depth (.node unit machine.setting.global)
    rw [show (machine.evaluate host depth unit machine.setting.global).2.setting =
      machine.setting from same] at following
    exact List.forall_mem_append.2
      ⟨Eval.Recorded.genuine (Eval.genuine_run machine.setting host depth) begun, following⟩

/-- What an operation makes, it brings into being. -/
theorem Records.genuine {operation : Operation}
    (recorded : machine.Records host operation moments) :
    Eval.Genuine machine.setting moments := by
  cases operation with
  | load draft =>
    subst recorded
    simp [Eval.Genuine]
  | carryOut errand depth =>
    exact Eval.Recorded.genuine (Eval.genuine_run machine.setting host depth) recorded
  | runEach program units depth =>
    have each : (machine.enter program).RecordsEach host depth units moments := recorded
    exact each.genuine
  | bindGlobal name value =>
    subst recorded
    simp [Eval.Genuine]

variable {known : Value → Prop} {plan : Plan} {reply : Reply} (honest : reply.Honest)
  (begun : machine.state.Among known)
include honest begun

/-- An errand that is given known values yields known values and leaves them, if it makes known
ones. -/
theorem RecordsErrand.among {errand : Errand} (given : ∀ value ∈ errand.values, value.Among known)
    (recorded : machine.RecordsErrand (.watched plan reply) depth errand moments)
    (makes : Eval.MakesKnown known moments) :
    Eval.YieldsKnown known moments ∧
      Leaves known ([(machine.carryOut (.watched plan reply) depth errand).1],
        (machine.carryOut (.watched plan reply) depth errand).2) := by
  have lands : ∀ other, Eval.Reliable known other → Eval.Lands known (Value.Among known)
      (errand.work machine.setting machine.current other machine.state) := fun other reliable =>
    Errand.stays_work reliable machine.setting machine.current given machine.state begun
  have stops : ∀ other, Eval.Reliable known other → ∀ stop final,
      errand.work machine.setting machine.current other machine.state = .error stop final →
        final.Among known := by
    intro other reliable stop final stopped
    have landed := lands other reliable
    rw [stopped] at landed
    exact landed
  obtain ⟨yields, other, reliable, same⟩ := Eval.Recorded.among
    (Eval.traces_run honest plan machine.setting depth) recorded stops makes
  have landed := lands other reliable
  rw [same, ← Errand.evaluation_eq_work] at landed
  rw [carryOut_eq]
  exact ⟨yields, leaves_perform landed⟩

/-- Nodes that are evaluated one after the other yield known values and leave them, if they make
known ones. -/
theorem RecordsEach.among {units : List NodeId}
    (recorded : machine.RecordsEach (.watched plan reply) depth units moments)
    (makes : Eval.MakesKnown known moments) :
    Eval.YieldsKnown known moments ∧
      Leaves known (machine.evaluateEach (.watched plan reply) depth units) := by
  induction units generalizing machine moments with
  | nil =>
    subst recorded
    exact ⟨by simp [Eval.YieldsKnown], by simp [evaluateEach], begun⟩
  | cons unit units ih =>
    obtain ⟨first, rest, opened, continued, rfl⟩ := recorded
    obtain ⟨makesFirst, makesRest⟩ := List.forall_mem_append.1 makes
    have opening := RecordsErrand.among honest begun (by simp [Errand.values]) opened makesFirst
    have following := ih opening.2.state continued makesRest
    refine ⟨List.forall_mem_append.2 ⟨opening.1, following.1⟩, ?_, following.2.state⟩
    intro value answered
    rcases List.mem_cons.1 answered with now | later
    · exact opening.2.answers value (List.mem_singleton.2 now)
    · exact following.2.answers value later

/-- An operation that is given known values yields known values and leaves them, if it makes known
ones. -/
theorem Records.among {operation : Operation}
    (given : ∀ value ∈ operation.values, value.Among known)
    (recorded : machine.Records (.watched plan reply) operation moments)
    (makes : Eval.MakesKnown known moments) :
    Eval.YieldsKnown known moments ∧
      Leaves known (machine.operate (.watched plan reply) operation) := by
  cases operation with
  | load draft =>
    subst recorded
    exact ⟨by simp [Eval.YieldsKnown], by simp [Machine.operate], begun⟩
  | carryOut errand depth => exact RecordsErrand.among honest begun given recorded makes
  | runEach program units depth =>
    have entered : (machine.enter program).state.Among known := begun
    exact RecordsEach.among honest entered recorded makes
  | bindGlobal name value =>
    subst recorded
    have declared := Eval.stays_declare (machine.intern name).2.setting machine.setting.global
      (machine.intern name).1 (List.forall_mem_singleton.1 given) machine.state begun
    have after := (machine.intern name).2.state_perform
      (Eval.declare (machine.intern name).2.setting machine.setting.global (machine.intern name).1
        value)
    refine ⟨by simp [Eval.YieldsKnown], fun other answered => ?_, after.symm ▸ declared.after⟩
    have void : .ok other = (machine.bindGlobal name value).1.map fun _ => Value.void :=
      List.mem_singleton.1 answered
    cases bound : (machine.bindGlobal name value).1 with
    | ok _ =>
      rw [bound] at void
      cases void
      exact Value.among_of_entities_eq_nil rfl
    | error stop =>
      rw [bound] at void
      cases void

end Recording

/-- What a host makes of a machine, with entries that may collect while programs run but give up
before a slot is reclaimed for the 2 ^ 32-th time, and the moments on the way. What the host and its
entries hand over is put together from values that evaluations have given or scopes bind. -/
inductive Annals : Machine → List Eval.Moment → Prop where
  /-- A machine at its start. -/
  | start (symbols : SymbolTable) (maxHops : Nat) (output : Sink) :
    Annals (.start symbols maxHops output) []
  /-- A machine after an operation. -/
  | operate {machine : Machine} {journal moments : List Eval.Moment}
    (before : Annals machine journal) (plan : Plan) {reply : Reply} (honest : reply.Honest)
    (operation : Operation)
    (issued : ∀ handle ∈ operation.handles, machine.scopes.Issued handle)
    (given : ∀ value ∈ operation.values, value.MadeOf fun part =>
      machine.scopes.Holds part ∨ ∃ moment ∈ journal, moment.Yields part)
    (recorded : machine.Records (.watched plan reply) operation moments) :
    Annals (machine.operate (.watched plan reply) operation).2 (journal ++ moments)
  /-- A machine after a collection. -/
  | collect {machine : Machine} {journal : List Eval.Moment} (before : Annals machine journal)
    (roots : List Value)
    (lasting : machine.scopes.wrapsOn (machine.setting.rootHandles roots) = false) :
    Annals (machine.collect roots).2 journal

/-- Whatever the machine holds has been made in the journal. Functions and classes have been made by
nodes that declare them, and objects in storages that differ. -/
structure Accounted (machine : Machine) (journal : List Eval.Moment) : Prop where
  /-- The machine is sound. -/
  sound : machine.Sound
  /-- What has been made has been declared or constructed. -/
  genuine : Eval.Genuine machine.setting journal
  /-- What the scopes bind has been made. -/
  state : machine.state.Among (Eval.Made journal)
  /-- What evaluations have given has been made. -/
  yields : Eval.YieldsKnown (Eval.Made journal) journal
  /-- Storages of objects have been issued. -/
  issued : ∀ moment ∈ journal, ∀ object, moment.Bears object → machine.scopes.Issued object.storage
  /-- Storages of objects differ. -/
  distinct : journal.Pairwise Eval.Moment.BearsApart

namespace Accounted

/-- At the start nothing has been made. -/
theorem start (symbols : SymbolTable) (maxHops : Nat) (output : Sink) :
    (Machine.start symbols maxHops output).Accounted [] where
  sound := sound_start symbols maxHops output
  genuine := by simp [Eval.Genuine]
  state := by
    intro value held
    obtain ⟨native, rfl⟩ :=
      exists_native_of_mem_builtinBindings (Store.holds_of_allocate_empty held)
    exact Value.among_of_entities_eq_nil rfl
  yields := by simp [Eval.YieldsKnown]
  issued := by simp
  distinct := .nil

variable {machine : Machine} {journal moments : List Eval.Moment}
  (accounted : machine.Accounted journal)
include accounted

/-- What an operation of an honest host yields and leaves has been made, before or by it. -/
theorem among (plan : Plan) {reply : Reply} (honest : reply.Honest) {operation : Operation}
    (given : ∀ value ∈ operation.values, value.MadeOf fun part =>
      machine.scopes.Holds part ∨ ∃ moment ∈ journal, moment.Yields part)
    (recorded : machine.Records (.watched plan reply) operation moments) :
    Eval.YieldsKnown (Eval.Made (journal ++ moments)) (journal ++ moments) ∧
      Leaves (Eval.Made (journal ++ moments))
        (machine.operate (.watched plan reply) operation) := by
  have earlier : ∀ value : Value, value.Among (Eval.Made journal) →
      value.Among (Eval.Made (journal ++ moments)) := fun value among =>
    among.mono fun _ made => made.append moments
  have handed : ∀ value ∈ operation.values, value.Among (Eval.Made (journal ++ moments)) := by
    intro value listed
    refine (given value listed).among fun part origin => earlier part ?_
    rcases origin with bound | ⟨moment, held, yielded⟩
    · exact accounted.state part bound
    · exact accounted.yields moment held part yielded
  have makes : Eval.MakesKnown (Eval.Made (journal ++ moments)) moments := by
    refine (Records.genuine recorded).makesKnown ?_
    rintro value ⟨moment, listed, makes⟩
    exact ⟨moment, List.mem_append_right _ listed, makes⟩
  obtain ⟨yields, leaves⟩ := Records.among honest
    (fun value bound => earlier value (accounted.state value bound)) handed recorded makes
  refine ⟨List.forall_mem_append.2 ⟨fun moment listed value yielded => ?_, yields⟩, leaves⟩
  exact earlier value (accounted.yields moment listed value yielded)

/-- An operation of an honest host keeps account. -/
theorem operate (plan : Plan) {reply : Reply} (honest : reply.Honest) {operation : Operation}
    (issued : ∀ handle ∈ operation.handles, machine.scopes.Issued handle)
    (given : ∀ value ∈ operation.values, value.MadeOf fun part =>
      machine.scopes.Holds part ∨ ∃ moment ∈ journal, moment.Yields part)
    (recorded : machine.Records (.watched plan reply) operation moments) :
    (machine.operate (.watched plan reply) operation).2.Accounted (journal ++ moments) := by
  have progress := Progress.operate accounted.sound plan reply operation issued
  have sequel := Records.sequel accounted.sound issued recorded
  have keeps : machine.setting.Keeps (machine.operate (.watched plan reply) operation).2.setting :=
    fun _ _ => machine.program?_operate _ operation
  obtain ⟨yields, leaves⟩ := accounted.among plan honest given recorded
  constructor
  case sound => exact progress.sound accounted.sound
  case genuine =>
    intro moment listed value made
    rcases List.mem_append.1 listed with before | after
    · exact (accounted.genuine moment before value made).mono keeps
    · exact (Records.genuine recorded moment after value made).mono keeps
  case state => exact leaves.state
  case yields => exact yields
  case issued =>
    refine List.forall_mem_append.2 ⟨fun moment listed object bears => ?_, ?_⟩
    · exact progress.unfolds.evolves.issued _ (accounted.issued moment listed object bears)
    · exact fun moment listed object bears => (sequel.housed moment listed object bears).issued
  case distinct =>
    refine List.pairwise_append.2 ⟨accounted.distinct, ?_, ?_⟩
    · refine sequel.later.imp fun apart object bears other bearsOther => ?_
      exact ((apart object bears).2 other bearsOther).symm
    · intro moment listed next follows object bears other bearsOther same
      -- the storage of the later object is new, that of the earlier one is not
      have old := accounted.issued moment listed object bears
      exact (sequel.born next follows other bearsOther).fresh (same ▸ old)

/-- A collection keeps account. -/
theorem collect {roots : List Value}
    (lasting : machine.scopes.wrapsOn (machine.setting.rootHandles roots) = false) :
    (machine.collect roots).2.Accounted journal where
  sound := accounted.sound.collect lasting
  genuine := accounted.genuine
  state := fun value bound => accounted.state value (Store.holds_of_collect bound)
  yields := accounted.yields
  issued := fun moment listed object bears =>
    (Store.unfolds_collect lasting accounted.sound.scopes.tidy).evolves.issued _
      (accounted.issued moment listed object bears)
  distinct := accounted.distinct

/-- Objects with one storage are one object. -/
theorem eq_of_storage_eq {first second : Eval.Moment} (firstListed : first ∈ journal)
    (secondListed : second ∈ journal) {object other : Object} (bears : first.Bears object)
    (bearsOther : second.Bears other) (same : object.storage = other.storage) : object = other := by
  by_cases once : first = second
  · subst once
    obtain ⟨_, _, _, _, rfl⟩ := bears
    obtain ⟨_, _, _, _, again⟩ := bearsOther
    cases again
    rfl
  · have apart := accounted.distinct.forall firstListed secondListed once
    exact absurd same (apart object bears other bearsOther)

end Accounted

/-- Whatever is in the annals of a machine is accounted for. -/
theorem Annals.accounted {machine : Machine} {journal : List Eval.Moment}
    (annals : machine.Annals journal) : machine.Accounted journal := by
  induction annals with
  | start symbols maxHops output => exact .start symbols maxHops output
  | operate _ plan honest _ issued given recorded ih =>
    exact ih.operate plan honest issued given recorded
  | collect _ roots lasting ih => exact ih.collect lasting

/-- A host can have an operation done. What is in the answers is then shown in the annals, as is all
that has been shown before. -/
theorem Annals.exists_operated {machine : Machine} {journal : List Eval.Moment}
    (annals : machine.Annals journal) (plan : Plan) {reply : Reply} (honest : reply.Honest)
    (operation : Operation) (issued : ∀ handle ∈ operation.handles, machine.scopes.Issued handle)
    (given : ∀ value ∈ operation.values, value.MadeOf fun part =>
      machine.scopes.Holds part ∨ ∃ moment ∈ journal, moment.Yields part) :
    ∃ later, (machine.operate (.watched plan reply) operation).2.Annals later ∧
      (∀ entity, Eval.Shown journal entity → Eval.Shown later entity) ∧
      ∀ value, .ok value ∈ (machine.operate (.watched plan reply) operation).1 →
        ∀ entity ∈ value.entities, Eval.Shown later entity := by
  obtain ⟨moments, recorded⟩ := machine.exists_records plan reply operation
  have after := annals.operate plan honest operation issued given recorded
  have leaves := (annals.accounted.among plan honest given recorded).2
  refine ⟨_, after, ?_, fun value answered entity held => ?_⟩
  · rintro entity ⟨moment, listed, value, yielded, held⟩
    exact ⟨moment, List.mem_append_left _ listed, value, yielded, held⟩
  · exact (leaves.answers value answered entity held).shown after.accounted.genuine

/-- Take two functions, classes or objects that evaluations in the life of a machine have given. If
they are one, they are equal. If they are equal, they are interchangeable: functions have the same
parameters, body, scope and program, classes the same name, fields and methods, and objects the same
class, methods and storage; or else they are declared by two nodes of one program, as functions over
one body or as classes of one name. -/
theorem same_identifies {machine : Machine} {journal : List Eval.Moment}
    (annals : machine.Annals journal) {first second : Value} (shown : Eval.Shown journal first)
    (shownToo : Eval.Shown journal second) :
    (first = second → first.same second = true) ∧
      (first.same second = true →
        first.Interchangeable second ∨ first.Confusable machine.setting second) := by
  have accounted := annals.accounted
  obtain ⟨moment, listed, makes⟩ := shown.made accounted.yields
  obtain ⟨next, listedToo, makesToo⟩ := shownToo.made accounted.yields
  have creates := accounted.genuine moment listed first makes
  have createsToo := accounted.genuine next listedToo second makesToo
  constructor
  · rintro rfl
    cases creates <;> simp [Value.same, Closure.same, ClassObject.same]
  · intro same
    cases creates with
    | function stems =>
      cases createsToo with
      | function stemsToo =>
        rw [Value.same] at same
        exact Closure.interchangeable_or_confusable stems stemsToo same
      | _ => simp [Value.same] at same
    | classObject stems =>
      cases createsToo with
      | classObject stemsToo =>
        rw [Value.same] at same
        exact ClassObject.interchangeable_or_confusable stems stemsToo same
      | _ => simp [Value.same] at same
    | object bears =>
      cases createsToo with
      | object bearsToo =>
        rw [Value.same, beq_iff_eq] at same
        obtain rfl := accounted.eq_of_storage_eq listed listedToo bears bearsToo same
        exact Or.inl ⟨rfl, rfl, rfl⟩
      | _ => simp [Value.same] at same

end Machine

/-- Two functions over one body, and two classes of one name. -/
def namesakeCalls : List Builder.Call :=
  [.add (.int 1), .add (.function "f" ["x"] ⟨0⟩), .add (.function "g" ["x", "y"] ⟨0⟩),
    .declare "C" [.field ⟨"x", none, none⟩], .declare "C" [.field ⟨"y", none, none⟩]]

/-- Machine that has the program of those calls. -/
def loadedMachine : Machine :=
  ((Machine.start .initial Machine.defaultHops (.buffer "")).operate (.watched .prudent .void)
    (.load ((Builder.start .initial).replay namesakeCalls).draft)).2

/-- Answers to the declarations of the program, and the machine after them. -/
def namesakes : List Answer × Machine :=
  loadedMachine.operate (.watched .prudent .void) (.runEach ⟨1⟩ [⟨1⟩, ⟨2⟩, ⟨3⟩, ⟨4⟩] 1)

/-- The answers are two functions that are equal and differ in their parameters, and two classes
that are equal and differ in their fields. -/
theorem exists_answers_namesakes :
    ∃ f g c d, namesakes.1 =
        [.ok (.function f), .ok (.function g), .ok (.classObject c), .ok (.classObject d)] ∧
      (f.same g = true ∧ f.params ≠ g.params) ∧ c.same d = true ∧ c.fields ≠ d.fields := by
  let first : ClassDecl := ⟨⟨13⟩, [⟨⟨10⟩, none, none⟩], [], .dummy⟩
  let second : ClassDecl := ⟨⟨13⟩, [⟨⟨12⟩, none, none⟩], [], .dummy⟩
  exact ⟨⟨some ⟨9⟩, [⟨10⟩], ⟨0⟩, ⟨0, 0⟩, ⟨1⟩⟩, ⟨some ⟨11⟩, [⟨10⟩, ⟨12⟩], ⟨0⟩, ⟨0, 0⟩, ⟨1⟩⟩,
    .ofDecl first ⟨0, 0⟩ ⟨1⟩, .ofDecl second ⟨0, 0⟩ ⟨1⟩, rfl, by decide, by decide⟩

/-- The annals of the machine show those functions and classes. -/
theorem exists_annals_namesakes :
    ∃ journal f g c d, namesakes.2.Annals journal ∧
      (Eval.Shown journal (.function f) ∧ Eval.Shown journal (.function g) ∧
        Eval.Shown journal (.classObject c) ∧ Eval.Shown journal (.classObject d)) ∧
      ((Value.function f).same (.function g) = true ∧ f.params ≠ g.params) ∧
      (Value.classObject c).same (.classObject d) = true ∧ c.fields ≠ d.fields := by
  have honest : Reply.void.Honest := fun _ _ => .plain (Or.inr rfl)
  have started := Machine.Annals.start .initial Machine.defaultHops (.buffer "")
  have loaded := started.operate .prudent honest
    (.load ((Builder.start .initial).replay namesakeCalls).draft)
    (fun _ held => absurd held List.not_mem_nil) (fun _ held => absurd held List.not_mem_nil) rfl
  obtain ⟨journal, annals, _, shown⟩ := loaded.exists_operated .prudent honest
    (.runEach ⟨1⟩ [⟨1⟩, ⟨2⟩, ⟨3⟩, ⟨4⟩] 1) (fun _ held => absurd held List.not_mem_nil)
    (fun _ held => absurd held List.not_mem_nil)
  obtain ⟨f, g, c, d, answers, functions, classes⟩ := exists_answers_namesakes
  have answered : ∀ value, .ok value ∈ namesakes.1 → ∀ entity ∈ value.entities,
      Eval.Shown journal entity := shown
  rw [answers] at answered
  refine ⟨journal, f, g, c, d, annals, ⟨?_, ?_, ?_, ?_⟩, ?_, ?_⟩
  · exact answered (.function f) (by simp) _ (List.mem_singleton_self _)
  · exact answered (.function g) (by simp) _ (List.mem_singleton_self _)
  · exact answered (.classObject c) (by simp) _ (List.mem_singleton_self _)
  · exact answered (.classObject d) (by simp) _ (List.mem_singleton_self _)
  · rw [Value.same]
    exact functions
  · rw [Value.same]
    exact classes

/-- The two functions and the two classes are equal, and different nodes declare them. -/
theorem Machine.same_identifies_namesakes :
    ∃ journal f g c d, namesakes.2.Annals journal ∧
      (Eval.Shown journal (.function f) ∧ Eval.Shown journal (.function g) ∧
        Eval.Shown journal (.classObject c) ∧ Eval.Shown journal (.classObject d)) ∧
      (Value.function f).same (.function f) = true ∧
      (Value.function f).Confusable namesakes.2.setting (.function g) ∧
      (Value.classObject c).Confusable namesakes.2.setting (.classObject d) := by
  obtain ⟨journal, f, g, c, d, annals, shown, ⟨functions, params⟩, classes, fields⟩ :=
    exists_annals_namesakes
  have itself := (Machine.same_identifies annals shown.1 shown.1).1 rfl
  have twoFunctions := (Machine.same_identifies annals shown.1 shown.2.1).2 functions
  have twoClasses := (Machine.same_identifies annals shown.2.2.1 shown.2.2.2).2 classes
  exact ⟨journal, f, g, c, d, annals, shown, itself,
    twoFunctions.resolve_left fun alike => params alike.1,
    twoClasses.resolve_left fun alike => fields alike.2.1⟩

/-- Equal values need not be interchangeable: neither functions over one body nor classes of one
name, in a program that a builder has made from positions it had returned before. -/
theorem Machine.exists_same_not_interchangeable :
    (Builder.start .initial).Founded [] namesakeCalls ∧
    ∃ journal f g c d, namesakes.2.Annals journal ∧
      (Eval.Shown journal (.function f) ∧ Eval.Shown journal (.function g) ∧
        Eval.Shown journal (.classObject c) ∧ Eval.Shown journal (.classObject d)) ∧
      ((Value.function f).same (.function g) = true ∧
        ¬(Value.function f).Interchangeable (.function g)) ∧
      (Value.classObject c).same (.classObject d) = true ∧
        ¬(Value.classObject c).Interchangeable (.classObject d) := by
  have founded : (Builder.start .initial).Founded [] namesakeCalls := by decide +kernel
  obtain ⟨journal, f, g, c, d, annals, shown, ⟨functions, params⟩, classes, fields⟩ :=
    exists_annals_namesakes
  exact ⟨founded, journal, f, g, c, d, annals, shown, ⟨functions, fun alike => params alike.1⟩,
    classes, fun alike => fields alike.2.1⟩

end ScopeMachine
