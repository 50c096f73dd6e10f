import ScopeMachine.Proofs.Machine.Chronicle

/-!
# Objects over the life of a machine

Whenever a construction has ended with an object of a declared class, its methods are the last
declarations of their names, bound to the storage. At all later moments and in the machine at the
end, if the storage is live, it is inside the scope of the declaration and binds exactly the
declared fields. No other construction has given an object with the same storage.
-/

namespace ScopeMachine

/-- Last declaration of a method with a name. -/
def ClassDecl.method? (decl : ClassDecl) (name : Symbol) : Option MethodDecl :=
  (decl.methods.filter fun method => method.name = name).getLast?

/-- The class of a declaration has the last declaration of each method. -/
theorem ClassObject.get?_methods_ofDecl (decl : ClassDecl) (scope : Handle) (program : ProgramId)
    (name : Symbol) :
    (ofDecl decl scope program).methods.get? name = decl.method? name := by
  have entries : ((decl.methods.map fun method => (method.name, method)).filter
      fun entry => entry.1 = name) =
        (decl.methods.filter fun method => method.name = name).map
          fun method => (method.name, method) := by
    rw [List.filter_map]
    rfl
  rw [ofDecl, SymbolMap.get?_ofList, entries, List.getLast?_map, Option.map_map]
  exact Option.map_id'

/-- Scopes in which an operation may declare. -/
def Operation.frames (setting : Setting) : Operation → Set Handle
  | load _ => ∅
  | carryOut errand _ => (errand.holding setting).frames
  | runEach _ _ _ | bindGlobal _ _ => {setting.global}

/-- Operations declare at the top level, apart from nodes that the host has evaluated elsewhere. -/
theorem Operation.eq_global_or_node_of_mem_frames {setting : Setting} {operation : Operation}
    {handle : Handle} (own : handle ∈ operation.frames setting) :
    handle = setting.global ∨ ∃ id depth, operation = .carryOut (.node id handle) depth := by
  cases operation with
  | load draft => exact own.elim
  | carryOut errand depth =>
    cases errand with
    | program id units => exact Or.inl own
    | node id scope => exact Or.inr ⟨id, depth, by rw [Set.mem_singleton_iff.1 own]⟩
    | call callee args => exact own.elim
  | runEach program units depth => exact Or.inl own
  | bindGlobal name value => exact Or.inl own

namespace Machine

/-- Binding a name at the top level declares nothing elsewhere. -/
theorem keeps_bindGlobal {machine : Machine} (tidy : machine.scopes.Tidy) (name : String)
    (value : Value) :
    (machine.bindGlobal name value).2.scopes.Tidy ∧
      machine.scopes.Keeps {machine.setting.global} (machine.bindGlobal name value).2.scopes := by
  let declaration := Eval.declare (machine.intern name).2.setting machine.setting.global
    (machine.intern name).1 value
  have scopes : (machine.bindGlobal name value).2.scopes =
      (declaration.after machine.state).scopes :=
    congrArg State.scopes ((machine.intern name).2.state_perform declaration)
  rw [scopes]
  cases written : machine.state.scopes.set machine.setting.global (machine.intern name).1 value with
  | ok after =>
    have ended : declaration machine.state = .ok () { machine.state with scopes := after } := by
      simp only [declaration, Eval.declare, Eval.update, written]
    rw [Eval.after_of_ok ended]
    exact ⟨tidy.set written, Store.keeps_set_of_mem written (Set.mem_singleton _)⟩
  | error error =>
    obtain ⟨stop, ended⟩ : ∃ stop, declaration machine.state = .error stop machine.state := by
      simp only [declaration, Eval.declare, Eval.update, written]
      exact ⟨_, rfl⟩
    rw [Eval.after_of_error ended]
    exact ⟨tidy, Store.keeps_refl _ _⟩

section Operating

variable {machine : Machine} (sound : machine.Sound) {plan : Plan} {reply : Reply} {depth : Nat}
  {moments : List Eval.Moment}
include sound

/-- What becomes of the objects of an errand. -/
theorem RecordsErrand.sequel {errand : Errand}
    (issued : ∀ handle ∈ errand.handles, machine.scopes.Issued handle)
    (recorded : machine.RecordsErrand (.watched plan reply) depth errand moments) :
    Eval.Sequel machine.setting (errand.holding machine.setting).frames machine.scopes moments
      (machine.carryOut (.watched plan reply) depth errand).2.scopes := by
  have hosts := Host.watched_follows_full plan reply machine.setting
  have issuedFrames : ∀ handle ∈ (errand.holding machine.setting).frames,
      machine.scopes.Issued handle := by
    cases errand with
    | program id units =>
      rintro _ rfl
      exact sound.global
    | node id scope =>
      rintro _ rfl
      exact issued _ (List.mem_singleton_self _)
    | call callee args => exact fun _ none => none.elim
  obtain ⟨_, sequel, _⟩ := Eval.Recorded.sequel hosts (Eval.keepsObjects_run hosts depth)
    (errand.follows_work machine.setting machine.current machine.state) recorded
    sound.scopes.tidy issuedFrames
  rw [carryOut_eq, Machine.scopes, Machine.scopes, state_perform, Errand.evaluation_eq_work]
  exact sequel

/-- What becomes of the objects of nodes that are evaluated one after the other. -/
theorem RecordsEach.sequel {units : List NodeId}
    (recorded : machine.RecordsEach (.watched plan reply) depth units moments) :
    Eval.Sequel machine.setting {machine.setting.global} machine.scopes moments
      (machine.evaluateEach (.watched plan reply) depth units).2.scopes := by
  induction units generalizing machine moments with
  | nil =>
    subst recorded
    exact .quiet sound.scopes.tidy (Store.keeps_refl _ _)
  | cons unit units ih =>
    obtain ⟨first, rest, begun, continued, rfl⟩ := recorded
    have atTop : ∀ handle ∈ (Errand.node unit machine.setting.global).handles,
        machine.scopes.Issued handle := by
      simpa [Errand.handles] using sound.global
    have opening := RecordsErrand.sequel sound atTop begun
    have soundAfter := (Progress.carryOut sound plan reply depth _ atTop).sound sound
    have following := ih soundAfter continued
    rw [setting_carryOut] at following
    refine opening.append following (fun _ own _ => own) fun moment listed object bears own => ?_
    -- the top level has been issued before, and the storage of the object has not
    refine (opening.born moment listed object bears).fresh ?_
    rw [Set.mem_singleton_iff.1 own]
    exact sound.global

/-- What becomes of the objects of an operation. -/
theorem Records.sequel {operation : Operation}
    (issued : ∀ handle ∈ operation.handles, machine.scopes.Issued handle)
    (recorded : machine.Records (.watched plan reply) operation moments) :
    Eval.Sequel machine.setting (operation.frames machine.setting) machine.scopes moments
      (machine.operate (.watched plan reply) operation).2.scopes := by
  have tidy := sound.scopes.tidy
  cases operation with
  | load draft =>
    subst recorded
    exact .quiet tidy (Store.keeps_refl _ _)
  | carryOut errand depth => exact RecordsErrand.sequel sound issued recorded
  | runEach program units depth =>
    have entered : (machine.enter program).Sound := ⟨sound.scopes, sound.global⟩
    exact RecordsEach.sequel entered recorded
  | bindGlobal name value =>
    subst recorded
    obtain ⟨tidyAfter, keeps⟩ := keeps_bindGlobal tidy name value
    exact .quiet tidyAfter keeps

end Operating

namespace Chronicle

variable {machine : Machine} {journal : List Eval.Moment}

/-- What has become of the objects since the start of the machine. -/
theorem sequel (history : machine.Chronicle journal) :
    ∃ begun, begun.Issued machine.setting.global ∧
      Eval.Sequel machine.setting Set.univ begun journal machine.scopes := by
  induction history with
  | start symbols maxHops output =>
    have sound := sound_start symbols maxHops output
    exact ⟨_, sound.global, .quiet sound.scopes.tidy (Store.keeps_refl _ _)⟩
  | @operate machine journal moments before plan reply operation issued apart recorded ih =>
    obtain ⟨begun, global, earlier⟩ := ih
    have progress := Progress.operate before.sound plan reply operation issued
    have later := Records.sequel before.sound issued recorded
    -- no frame of the operation is the storage of an object
    have outside : ∀ moment ∈ journal, ∀ object, moment.Bears object →
        object.storage ∉ operation.frames machine.setting := by
      intro moment listed object bears own
      rcases Operation.eq_global_or_node_of_mem_frames own with atTop | ⟨id, depth, node⟩
      · exact (earlier.born moment listed object bears).fresh (atTop ▸ global)
      · exact apart id _ depth node moment listed object bears rfl
    refine ⟨begun, progress.global ▸ global, ?_⟩
    exact (earlier.append later (fun _ _ _ => trivial) outside).extend fun _ _ =>
      machine.program?_operate _ operation
  | @collect machine journal before roots lasting ih =>
    obtain ⟨begun, global, earlier⟩ := ih
    have tidy := before.sound.scopes.tidy
    have later : Eval.Sequel machine.setting ∅ machine.scopes [] (machine.collect roots).2.scopes :=
      .quiet (tidy.collect _) (Store.keeps_collect tidy lasting _)
    have whole := earlier.append later (fun _ none => none.elim) fun _ _ _ _ none => none.elim
    rw [List.append_nil] at whole
    exact ⟨begun, global, whole⟩

/-- The storage of an object is not the top level. -/
theorem storage_ne_global (history : machine.Chronicle journal) {moment : Eval.Moment}
    (listed : moment ∈ journal) {object : Object} (bears : moment.Bears object) :
    object.storage ≠ machine.setting.global := by
  obtain ⟨begun, global, sequel⟩ := history.sequel
  exact fun same => (sequel.born moment listed object bears).fresh (same ▸ global)

end Chronicle

/-- Let a construction in the life of a machine have given an object of a declared class. For every
name it has the method that was declared last, with its parameters and body, in the program of the
class and closed over the storage. From then on the storage, whenever it is live, has the scope of
the declaration as its parent and binds exactly the names of the declared fields. No later
construction gives an object with the same storage. -/
theorem objects_keep_shape {machine : Machine} {journal earlier later : List Eval.Moment}
    {moment : Eval.Moment} {object : Object} {decl : ClassDecl} {scope : Handle}
    {program : ProgramId} (history : machine.Chronicle journal)
    (split : journal = earlier ++ moment :: later) (bears : moment.Bears object)
    (declared : object.owner = .ofDecl decl scope program) :
    (∃ code, machine.setting.program? program = some code ∧
      ∀ name, object.methods.get? name = (decl.method? name).map fun method =>
        ⟨some method.name, code.paramList method.params, method.body, object.storage, program⟩) ∧
    (∀ scopes ∈ moment.scopes :: later.map Eval.Moment.scopes ++ [machine.scopes],
      ∀ storage, scopes.scope? object.storage = some storage →
        storage.parent = some scope ∧
        ∀ name, storage.bindings.contains name = true ↔ ∃ field ∈ decl.fields, field.name = name) ∧
    ∀ next ∈ later, ∀ other, next.Bears other → other.storage ≠ object.storage := by
  subst split
  obtain ⟨begun, _, sequel⟩ := history.sequel
  have listed : moment ∈ earlier ++ moment :: later := by simp
  have afterwards := (List.pairwise_cons.1 (List.pairwise_append.1 sequel.later).2.1).1
  have born := sequel.born moment listed object bears
  refine ⟨?_, ?_, fun next follows => (afterwards next follows object bears).2⟩
  · obtain ⟨code, hasCode, methods⟩ := born.equipped
    rw [declared] at hasCode methods
    refine ⟨code, hasCode, fun name => ?_⟩
    rw [methods, SymbolMap.get?_mapValues, ClassObject.get?_methods_ofDecl]
    rfl
  · have houses : ∀ scopes ∈ moment.scopes :: later.map Eval.Moment.scopes ++ [machine.scopes],
        scopes.Houses object := by
      refine List.forall_mem_append.2 ⟨List.forall_mem_cons.2 ⟨born.houses, ?_⟩,
        List.forall_mem_singleton.2 (sequel.housed moment listed object bears)⟩
      exact List.forall_mem_map.2 fun next follows => (afterwards next follows object bears).1
    intro scopes among storage found
    have shaped := houses scopes among
    rw [Store.Houses, declared] at shaped
    exact ⟨shaped.parent found, shaped.names found⟩

end Machine

/-- Class with a field that has a default, and with two methods of one name. -/
def counterClass : ClassDecl :=
  { name := ⟨9⟩
    fields := [⟨⟨10⟩, none, some ⟨2⟩⟩]
    methods := [⟨⟨11⟩, ⟨0, 0⟩, ⟨2⟩⟩, ⟨⟨11⟩, ⟨0, 0⟩, ⟨3⟩⟩]
    span := .dummy }

/-- Program that declares the class and constructs an object of it. -/
def counterProgram : Program :=
  { nodes := #[⟨.classDecl ⟨0⟩, .dummy⟩, ⟨.construct ⟨9⟩ ⟨0, 0⟩, .dummy⟩, ⟨.int 2, .dummy⟩,
      ⟨.read ⟨10⟩, .dummy⟩]
    lists := #[]
    params := #[]
    classes := #[counterClass] }

/-- Symbols of the program. -/
def counterSymbols : SymbolTable := (SymbolTable.initial.internAll ["Counter", "count", "get"]).2

/-- Machine in which the class has been declared. -/
def counterMachine : Machine :=
  let host := Host.watched .prudent .void
  let start := Machine.start .initial Machine.defaultHops (.buffer "")
  let loaded := start.operate host (.load ⟨counterSymbols, counterProgram⟩)
  (loaded.2.operate host (.carryOut (.program ⟨1⟩ [⟨0⟩]) 2)).2

/-- The machine has a chronicle. -/
theorem exists_chronicle_counterMachine : ∃ journal, counterMachine.Chronicle journal := by
  have started := Machine.Chronicle.start .initial Machine.defaultHops (.buffer "")
  have loaded := started.operate .prudent .void (.load ⟨counterSymbols, counterProgram⟩)
    (fun _ held => absurd held List.not_mem_nil) (by simp) rfl
  obtain ⟨moments, recorded⟩ := Machine.exists_records _ .prudent .void
    (.carryOut (.program ⟨1⟩ [⟨0⟩]) 2)
  exact ⟨_, loaded.operate .prudent .void (.carryOut (.program ⟨1⟩ [⟨0⟩]) 2)
    (fun _ held => absurd held List.not_mem_nil) (by simp) recorded⟩

/-- The construction gives an object of the class, with a live storage. -/
theorem exists_construct_counterMachine :
    ∃ object final, Eval.run counterMachine.setting (.watched .prudent .void) 3
        (.node counterMachine.current ⟨1⟩ ⟨0, 0⟩) counterMachine.state =
          .ok (.object object) final ∧
      object.owner = .ofDecl counterClass ⟨0, 0⟩ ⟨1⟩ ∧
      final.scopes.isLive object.storage = true := by
  let construction := Eval.run counterMachine.setting (.watched .prudent .void) 3
    (.node counterMachine.current ⟨1⟩ ⟨0, 0⟩)
  have answer : (counterMachine.perform (construction >>= Eval.expectObject)).1.toOption.map
      (fun object => (object.owner, object.storage)) =
        some (.ofDecl counterClass ⟨0, 0⟩ ⟨1⟩, ⟨1, 0⟩) := by decide +kernel
  have live : (counterMachine.perform construction).2.scopes.isLive ⟨1, 0⟩ = true := by
    decide +kernel
  cases ended : construction counterMachine.state with
  | error stop final =>
    rw [Machine.perform, Eval.bind_of_error ended] at answer
    cases answer
  | ok value final =>
    rw [Machine.perform, Eval.bind_of_ok ended] at answer
    rw [Machine.scopes, Machine.state_perform, Eval.after_of_ok ended] at live
    cases value with
    | object object =>
      obtain ⟨owner, storage⟩ := Prod.mk.inj (Option.some.inj answer)
      exact ⟨object, final, ended, owner, storage ▸ live⟩
    | _ => cases answer

/-- An object of the class is constructed at the top level: it has the second method, and its storage
is live with the field as its only name. -/
theorem Machine.objects_keep_shape_counterMachine :
    let machine := (counterMachine.evaluate (.watched .prudent .void) 3 ⟨1⟩ ⟨0, 0⟩).2
    ∃ earlier moment object, machine.Chronicle (earlier ++ [moment]) ∧ moment.Bears object ∧
      object.methods.get? ⟨11⟩ = some ⟨some ⟨11⟩, [], ⟨3⟩, object.storage, ⟨1⟩⟩ ∧
      ∃ storage, machine.scopes.scope? object.storage = some storage ∧
        storage.parent = some ⟨0, 0⟩ ∧
        ∀ name, storage.bindings.contains name = true ↔ name = ⟨10⟩ := by
  intro machine
  obtain ⟨object, final, ended, owner, live⟩ := exists_construct_counterMachine
  obtain ⟨journal, history⟩ := exists_chronicle_counterMachine
  let ask : Eval.Ask := ⟨.node counterMachine.current ⟨1⟩ ⟨0, 0⟩, counterMachine.state⟩
  let birth : Eval.Moment := .ends ask (counterMachine.setting.taskKind? ask.task)
    (Eval.run counterMachine.setting (.watched .prudent .void) 3 ask.task ask.start)
  have bears : birth.Bears object :=
    Eval.Moment.bears_ends_iff.2 ⟨⟨⟨9⟩, ⟨0, 0⟩, rfl⟩, final, ended⟩
  obtain ⟨inner, chronicle⟩ : ∃ inner,
      machine.Chronicle ((journal ++ .begins ask :: inner) ++ [birth]) :=
    history.exists_evaluated .prudent .void 2 ⟨1⟩ history.sound.global
      fun moment listed other bears => (history.storage_ne_global listed bears).symm
  obtain ⟨⟨code, _, methods⟩, shaped, _⟩ := objects_keep_shape chronicle rfl bears owner
  have scopes : machine.scopes = final.scopes :=
    congrArg State.scopes ((counterMachine.state_perform _).trans (Eval.after_of_ok ended))
  obtain ⟨storage, found⟩ := Store.isLive_iff.1 live
  obtain ⟨parent, names⟩ := shaped machine.scopes (by simp) storage (scopes ▸ found)
  refine ⟨_, birth, object, chronicle, bears, ?_, storage, scopes ▸ found, parent, fun name => ?_⟩
  · have noParams : code.paramList ⟨0, 0⟩ = [] := by simp [Program.paramList]
    rw [methods, ← noParams]
    rfl
  · rw [names]
    simp [counterClass, eq_comm]

end ScopeMachine
