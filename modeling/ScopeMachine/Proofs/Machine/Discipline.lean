import ScopeMachine.Proofs.Machine.Declarations
import ScopeMachine.Proofs.Machine.FailSafety
import ScopeMachine.Proofs.Scope.Linkage

/-!
# Hosts that keep what they hold

A disciplined host makes up no handles and no references: what it hands over is composed of plain
data and of what it has been given. It collects between operations only, with everything that it
goes on using as roots. Under such a host nothing ever dangles: the top level stays live, the store
stays linked, and the store supports all values that the host holds. So no operation needs a scope
that has been reclaimed.
-/

namespace ScopeMachine

/-- What is in hand is live and bound. -/
structure Holding.SupportedBy (hold : Holding) (store : Store) : Prop where
  /-- The handles are live. -/
  handles : ∀ handle ∈ hold.handles, store.isLive handle = true
  /-- The variables are bound. -/
  locations : ∀ target ∈ hold.locations, store.Binds target.scope target.name

namespace Holding.SupportedBy

variable {hold : Holding} {store : Store}

/-- A store that retains goes on supporting. -/
theorem retain {later : Store} (supported : hold.SupportedBy store) (retains : store.Retains later) :
    hold.SupportedBy later :=
  ⟨fun handle held => retains.isLive handle (supported.handles handle held),
    fun target held => retains.binds _ _ (supported.locations target held)⟩

/-- Part of what is supported is supported. -/
theorem mono {part : Holding} (supported : hold.SupportedBy store) (smaller : part ≤ hold) :
    part.SupportedBy store :=
  ⟨fun handle held => supported.handles handle (smaller.2.1 held),
    fun target held => supported.locations target (smaller.2.2 held)⟩

/-- A value in hand is supported. -/
theorem supports {value : Value} (supported : hold.SupportedBy store) (has : hold.Has value) :
    store.Supports value :=
  ⟨fun handle held => supported.handles handle (has.handles handle held),
    fun target held => supported.locations target (has.locations target held)⟩

/-- A supported value can be taken in hand. -/
theorem addValue {value : Value} (supported : hold.SupportedBy store)
    (supports : store.Supports value) : (hold.addValue value).SupportedBy store where
  handles := fun handle held => held.elim (supported.handles handle) (supports.handles handle)
  locations := fun target held =>
    held.elim (supported.locations target) (supports.references target)

end Holding.SupportedBy

/-- Values whose handles are live and whose references are bound can be called. -/
theorem Holding.supportedBy_ofTask_call {store : Store} (setting : Setting) {callee : Value}
    {args : List Value} (supports : ∀ value ∈ callee :: args, store.Supports value) :
    (Holding.ofTask setting (.call callee args)).SupportedBy store where
  handles := by
    intro handle held
    obtain ⟨value, listed, inner⟩ := List.mem_flatMap.1 held
    exact (supports value listed).handles handle inner
  locations := by
    intro target held
    obtain ⟨value, listed, inner⟩ := List.mem_flatMap.1 held
    exact (supports value listed).references target inner

/-- A live scope can be a frame. -/
theorem Holding.supportedBy_ofFrame {store : Store} {frame : Handle}
    (live : store.isLive frame = true) : (Holding.ofFrame frame).SupportedBy store where
  handles := fun _ held => Set.mem_singleton_iff.1 held ▸ live
  locations := fun _ held => held.elim

/-- Following references from a supported value in a linked store gives a supported value or goes on
for too long. -/
theorem Setting.follow_supported (setting : Setting) {store : Store} (linked : store.Linked)
    (hops : Nat) {value : Value} (supports : store.Supports value) :
    (∃ result, setting.follow store hops value = .ok result ∧ store.Supports result) ∨
      setting.follow store hops value = .error (.chainTooLong setting.maxHops) := by
  induction hops generalizing value with
  | zero =>
    cases value with
    | reference target => exact Or.inr rfl
    | _ => exact Or.inl ⟨_, rfl, supports⟩
  | succ hops ih =>
    cases value with
    | reference target =>
      obtain ⟨scope, found, contained⟩ := supports.references target (List.mem_singleton_self target)
      obtain ⟨next, bound⟩ := Option.isSome_iff_exists.1 contained
      have read : store.getOwn target.scope target.name = .ok (some next) := by
        rw [Store.getOwn, Store.scope_of_scope? found, ← bound]
        rfl
      have stored : setting.stored store target = .ok next := by rw [stored, read]
      have supportsNext := linked.values found (SymbolMap.mem_values_of_get? bound)
      rw [follow, stored]
      exact ih supportsNext
    | _ => exact Or.inl ⟨_, rfl, supports⟩

namespace Eval

/-- What hosts that answer from their arguments may do: neither collect nor make up references. -/
abbrev Licence.plain : Licence := ⟨False, False⟩

/-- Deeds keep a linked store linked, and what is in hand supported. -/
theorem Deed.linked {hold last : Holding} {state final : State}
    (deed : Deed .plain hold state last final) (tidy : state.scopes.Tidy)
    (linked : state.scopes.Linked) (supported : hold.SupportedBy state.scopes) :
    final.scopes.Linked ∧ last.SupportedBy final.scopes := by
  have kept := deed.keeping tidy
  have stays := supported.retain (kept.keeps.retains (kept.isLive id))
  cases deed with
  | @opens parent known =>
    refine ⟨linked.allocateEmpty tidy (supported.handles parent known), ?_, stays.locations⟩
    rintro handle (rfl | old)
    · exact Store.isLive_allocate tidy (some parent) .empty
    · exact stays.handles handle old
  | declares own has written => exact ⟨linked.set (supported.supports has) written, stays⟩
  | rebinds known bound has written => exact ⟨linked.set (supported.supports has) written, stays⟩
  | looks known found =>
    refine ⟨linked, fun handle held => ?_, fun target held => ?_⟩
    · exact held.elim (supported.handles handle) (linked.isLive_of_mem_edges found)
    · rcases held with old | ⟨value, bound, referred⟩
      · exact supported.locations target old
      · exact (linked.values found bound).references target referred
  | @refers target known bound =>
    refine ⟨linked, supported.handles, ?_⟩
    rintro other (rfl | old)
    · exact bound.resolve_left id
    · exact supported.locations other old
  | prints output => exact ⟨linked, supported⟩
  | collects allowed lasting => exact allowed.elim

/-- Runs keep a linked store linked, and what is in hand supported. -/
theorem conserves_linked (setting : Setting) :
    Conserves .plain setting fun hold state last final => state.scopes.Tidy →
      Keeping .plain hold state last final ∧
      (state.scopes.Linked → hold.SupportedBy state.scopes →
        final.scopes.Linked ∧ last.SupportedBy final.scopes) := by
  have keeping := conserves_keeping .plain setting
  constructor
  case done => exact fun hold state tidy => ⟨keeping.done hold state tidy, .intro⟩
  case trans =>
    intro first second third begun middle final earlier later tidy
    have before := earlier tidy
    have after := later before.1.tidy
    refine ⟨keeping.trans (fun _ => before.1) (fun _ => after.1) tidy, fun linked supported => ?_⟩
    obtain ⟨linked, supported⟩ := before.2 linked supported
    exact after.2 linked supported
  case deed => exact fun deed tidy => ⟨deed.keeping tidy, deed.linked tidy⟩
  case ask =>
    intro hold task state final outcome admitted inner tidy
    have smaller := Holding.ofTask_le setting admitted
    have passed := inner tidy
    refine ⟨keeping.ask admitted (fun _ => passed.1) tidy, fun linked supported => ?_⟩
    obtain ⟨linked, learned⟩ := passed.2 linked (supported.mono smaller)
    have stays := supported.retain (passed.1.keeps.retains (passed.1.isLive id))
    refine ⟨linked, ?_⟩
    cases outcome with
    | ok value after => exact stays.addValue (learned.supports (Holding.has_addValue value))
    | error stop after => exact stays
  case forget =>
    intro hold last less state final passed smaller tidy
    refine ⟨keeping.forget (fun _ => (passed tidy).1) smaller tidy, fun linked supported => ?_⟩
    obtain ⟨linked, supported⟩ := (passed tidy).2 linked supported
    exact ⟨linked, supported.mono smaller⟩

section Support

variable {setting : Setting} {host : Host} (hosts : host.Follows .plain setting)
include hosts

/-- Started in a linked store that supports what is in hand, work over runs reports no reclaimed
scope if the runs do not. -/
theorem Account.not_isReclaimed {depth : Nat} {hold last : Holding} {state : State}
    {work : Evaluator → Eval Value} {fits : Holding → State → Value → Prop} {asks : List Ask}
    (account : Account .plain (run setting host depth) hold state work fits asks last)
    (inner : ∀ task state, state.scopes.Tidy → state.scopes.Linked →
      (Holding.ofTask setting task).SupportedBy state.scopes → ∀ stop final,
        run setting host depth task state = .error stop final → ¬ stop.IsReclaimed)
    (tidy : state.scopes.Tidy) (linked : state.scopes.Linked)
    (supported : hold.SupportedBy state.scopes) {stop : Stop} {final : State}
    (ended : work (run setting host depth) state = .error stop final) : ¬ stop.IsReclaimed := by
  intro reclaimed
  have conserves := conserves_linked setting
  have runs := conserves.run hosts depth
  rcases account.loss stop final ended reclaimed with ⟨handle, known, dead⟩ | ⟨ask, listed, reported⟩
  · -- all that is in hand at the end is live
    have passed := conserves.course runs account.course tidy
    have live := (passed.2 linked supported).2.handles handle known
    rw [after_of_error ended, dead] at live
    exact Bool.false_ne_true live
  · -- an inner evaluation starts in a linked store that supports its task, too
    obtain ⟨middle, admitted, passed⟩ := conserves.ask_of_mem runs account.course listed
    obtain ⟨reason, later, stopped, lost⟩ := reported
    have between := (passed tidy).2 linked supported
    exact inner ask.task ask.start (passed tidy).1.tidy between.1
      (between.2.mono (Holding.ofTask_le setting admitted)) reason later stopped lost

/-- Started in a linked store that supports its task, a run never reports a reclaimed scope. -/
theorem run_not_isReclaimed (depth : Nat) (task : Task) (state : State)
    (tidy : state.scopes.Tidy) (linked : state.scopes.Linked)
    (supported : (Holding.ofTask setting task).SupportedBy state.scopes) (stop : Stop)
    (final : State) (ended : run setting host depth task state = .error stop final) :
    ¬ stop.IsReclaimed := by
  induction depth generalizing task state stop final with
  | zero =>
    cases ended
    exact id
  | succ depth ih =>
    obtain ⟨asks, last, account⟩ := follows_step hosts task state (run setting host depth)
    exact account.not_isReclaimed hosts ih tidy linked supported ended

end Support

end Eval

/-- Values that the host is given by an answer. -/
def Answer.values : Answer → List Value
  | .ok value => [value]
  | .error _ => []

/-- The value is composed of plain data and parts of values that are held: handles and references
come from there. -/
structure Value.ComposedOf (value : Value) (held : List Value) : Prop where
  /-- Handles come from what is held. -/
  handles : ∀ handle ∈ value.handles, handle ∈ handlesAll held
  /-- References come from what is held. -/
  references : ∀ target ∈ value.references, target ∈ referencesAll held

/-- What the host hands over is composed of what it holds; it may name the top level. -/
def Operation.ComposedOf (global : Handle) (held : List Value) : Operation → Prop
  | load _ | runEach _ _ _ | carryOut (.program _ _) _ => True
  | carryOut (.node _ scope) _ => scope = global ∨ scope ∈ Value.handlesAll held
  | carryOut (.call callee args) _ => ∀ value ∈ callee :: args, value.ComposedOf held
  | bindGlobal _ value => value.ComposedOf held

/-- What is composed of supported values is supported. -/
theorem Value.ComposedOf.supports {value : Value} {held : List Value} (composed : value.ComposedOf held)
    {store : Store} (supports : ∀ value ∈ held, store.Supports value) : store.Supports value where
  handles := by
    intro handle inner
    obtain ⟨holder, listed, within⟩ := Value.mem_handlesAll.1 (composed.handles handle inner)
    exact (supports holder listed).handles handle within
  references := by
    intro target referred
    have within := composed.references target referred
    rw [referencesAll_eq_flatMap] at within
    obtain ⟨holder, listed, inner⟩ := List.mem_flatMap.1 within
    exact (supports holder listed).references target inner

namespace Machine

/-- What a disciplined host can have made of a machine, and the values that it holds. -/
inductive Disciplined : Machine → List Value → Prop where
  /-- A machine at its start. -/
  | start (symbols : SymbolTable) (maxHops : Nat) (output : Sink) :
    Disciplined (.start symbols maxHops output) []
  /-- An operation, after which the host also holds the values answered. -/
  | operate {machine : Machine} {held : List Value} (before : Disciplined machine held)
    {reply : Reply} (composes : reply.Composes) (operation : Operation)
    (composed : operation.ComposedOf machine.setting.global held) :
    Disciplined (machine.operate (.quiet reply) operation).2
      (held ++ (machine.operate (.quiet reply) operation).1.flatMap Answer.values)
  /-- Following references, after which the host also holds the result. -/
  | resolve {machine : Machine} {held : List Value} (before : Disciplined machine held)
    {value result : Value} (composed : value.ComposedOf held)
    (resolved : machine.resolve value = .ok result) : Disciplined machine (held ++ [result])
  /-- A collection, after which the host holds nothing but its roots. -/
  | collect {machine : Machine} {held : List Value} (before : Disciplined machine held)
    {roots : List Value} (composed : ∀ root ∈ roots, root.ComposedOf held)
    (lasting : machine.scopes.wrapsOn (machine.setting.rootHandles roots) = false) :
    Disciplined (machine.collect roots).2 roots

/-- Nothing dangles: the store is linked, the top level is live and held values are supported. -/
structure Supported (machine : Machine) (held : List Value) : Prop where
  /-- The store is in order. -/
  tidy : machine.scopes.Tidy
  /-- The store is linked. -/
  linked : machine.scopes.Linked
  /-- The top level is live. -/
  global : machine.scopes.isLive machine.setting.global = true
  /-- Held values are supported. -/
  held : ∀ value ∈ held, machine.scopes.Supports value

namespace Supported

/-- At its start a machine supports a host that holds nothing. -/
theorem start (symbols : SymbolTable) (maxHops : Nat) (output : Sink) :
    (Machine.start symbols maxHops output).Supported [] := by
  have scopes := Store.scope?_allocate none (builtinBindings symbols).1 Store.tidy_empty
  have only : ∀ handle scope, (Machine.start symbols maxHops output).scopes.scope? handle =
      some scope → scope = ⟨none, (builtinBindings symbols).1⟩ := by
    intro handle scope found
    rw [show (Machine.start symbols maxHops output).scopes.scope? handle = _ from scopes handle]
      at found
    split at found
    · exact (Option.some.inj found).symm
    · simp [Store.scope?, Store.empty] at found
  refine ⟨(sound_start symbols maxHops output).scopes.tidy, ⟨?_, ?_⟩,
    Store.isLive_allocate Store.tidy_empty none _, by simp⟩
  · intro handle scope above found link
    rw [only handle scope found] at link
    cases link
  · intro handle scope value found bound
    rw [only handle scope found] at bound
    exact Store.supports_of_handles_eq_nil _ (handles_of_mem_builtinBindings bound)

variable {machine : Machine} {held : List Value} (supported : machine.Supported held)
include supported

/-- Machine after work over runs that was started with what is supported. -/
theorem perform {reply : Reply} (composes : reply.Composes) {hold : Holding}
    {work : Evaluator → Eval Value}
    (follows : Eval.Follows .plain hold machine.state work fun last _ value => last.Has value)
    (holds : hold.SupportedBy machine.scopes) (depth : Nat) :
    let ended := machine.perform (work (Eval.run machine.setting (.quiet reply) depth))
    ended.2.Supported (held ++ Answer.values ended.1) ∧ ¬ Answer.IsReclaimed ended.1 := by
  have hosts : Host.Follows .plain machine.setting (.quiet reply) :=
    Host.quiet_follows (Or.inr composes) machine.setting
  have conserves := Eval.conserves_linked machine.setting
  obtain ⟨asks, last, account⟩ := follows (Eval.run machine.setting (.quiet reply) depth)
  have passed := conserves.course (conserves.run hosts depth) account.course supported.tidy
  obtain ⟨linked, inHand⟩ := passed.2 supported.linked holds
  have retains := passed.1.keeps.retains (passed.1.isLive id)
  have stay : ∀ value ∈ held, _ := fun value listed =>
    retains.supports (supported.held value listed)
  unfold Machine.perform
  cases ended : work (Eval.run machine.setting (.quiet reply) depth) machine.state with
  | ok value final =>
    rw [Eval.after_of_ok ended] at passed linked inHand retains stay
    refine ⟨⟨passed.1.tidy, linked, retains.isLive _ supported.global, ?_⟩, ?_⟩
    · intro other listed
      rcases List.mem_append.1 listed with old | new
      · exact stay other old
      · rw [List.mem_singleton.1 new]
        exact inHand.supports (account.result value final ended)
    · rintro ⟨failure, ⟨⟩, _⟩
  | error stop final =>
    rw [Eval.after_of_error ended] at passed linked inHand retains stay
    refine ⟨⟨passed.1.tidy, linked, retains.isLive _ supported.global, ?_⟩, ?_⟩
    · intro other listed
      exact stay other ((List.append_nil held).symm ▸ listed)
    · rintro ⟨failure, ⟨⟩, reclaimed⟩
      exact account.not_isReclaimed hosts (Eval.run_not_isReclaimed hosts depth) supported.tidy
        supported.linked holds ended reclaimed

/-- Machine after an errand that is composed of what is held. -/
theorem carryOut {reply : Reply} (composes : reply.Composes) (depth : Nat) {errand : Errand}
    (composed : (Operation.carryOut errand depth).ComposedOf machine.setting.global held) :
    let ended := machine.carryOut (.quiet reply) depth errand
    ended.2.Supported (held ++ Answer.values ended.1) ∧ ¬ ended.1.IsReclaimed := by
  have entered : (machine.enter (errand.entered machine.current)).Supported held :=
    ⟨supported.tidy, supported.linked, supported.global, supported.held⟩
  have holds : (errand.holding machine.setting).SupportedBy machine.scopes := by
    cases errand with
    | program id units => exact Holding.supportedBy_ofFrame supported.global
    | node id scope =>
      refine Holding.supportedBy_ofFrame ?_
      rcases composed with rfl | inside
      · exact supported.global
      · obtain ⟨value, listed, inner⟩ := Value.mem_handlesAll.1 inside
        exact (supported.held value listed).handles scope inner
    | call callee args =>
      exact Holding.supportedBy_ofTask_call machine.setting fun value listed =>
        (composed value listed).supports supported.held
  rw [carryOut_eq, Errand.evaluation_eq_work]
  exact entered.perform composes (errand.follows_work machine.setting machine.current _) holds depth

/-- Machine after nodes evaluated one after the other at the top level. -/
theorem evaluateEach {reply : Reply} (composes : reply.Composes) (depth : Nat)
    (units : List NodeId) :
    let ended := machine.evaluateEach (.quiet reply) depth units
    ended.2.Supported (held ++ ended.1.flatMap Answer.values) ∧
      ∀ answer ∈ ended.1, ¬ Answer.IsReclaimed answer := by
  induction units generalizing machine held with
  | nil => exact ⟨by simpa [Machine.evaluateEach] using supported, by simp [Machine.evaluateEach]⟩
  | cons unit units ih =>
    have atTop : (Operation.carryOut (.node unit machine.setting.global) depth).ComposedOf
        machine.setting.global held := Or.inl rfl
    have first := supported.carryOut composes depth atTop
    have rest := ih first.1
    refine ⟨?_, List.forall_mem_cons.2 ⟨first.2, rest.2⟩⟩
    have all := rest.1
    rw [List.append_assoc] at all
    exact all

/-- A disciplined host can bind what it holds at the top level. -/
theorem bindGlobal (name : String) {value : Value} (composed : value.ComposedOf held) :
    (machine.bindGlobal name value).1 = .ok () ∧ (machine.bindGlobal name value).2.Supported held := by
  obtain ⟨after, written⟩ := Store.exists_set_of_isLive supported.global (machine.intern name).1 value
  have declared : Eval.declare (machine.intern name).2.setting machine.setting.global
      (machine.intern name).1 value machine.state =
        .ok () { machine.state with scopes := after } := by
    rw [Machine.scopes] at written
    simp only [Eval.declare, Eval.update, written]
  have retains := (Store.keeps_set_of_mem written (Set.mem_singleton _)).retains
    fun other live => (Store.isLive_set written other).trans live
  have performed : machine.bindGlobal name value =
      (.ok (), { (machine.intern name).2 with state := { machine.state with scopes := after } }) := by
    change (machine.intern name).2.perform (Eval.declare (machine.intern name).2.setting
      machine.setting.global (machine.intern name).1 value) = _
    have sameState : (machine.intern name).2.state = machine.state := rfl
    rw [Machine.perform, sameState, declared]
  rw [performed]
  refine ⟨rfl, supported.tidy.set written, ?_, retains.isLive _ supported.global, ?_⟩
  · exact supported.linked.set (composed.supports supported.held) written
  · exact fun other listed => retains.supports (supported.held other listed)

/-- Machine after an operation that is composed of what is held. -/
theorem operate {reply : Reply} (composes : reply.Composes) {operation : Operation}
    (composed : operation.ComposedOf machine.setting.global held) :
    let ended := machine.operate (.quiet reply) operation
    ended.2.Supported (held ++ ended.1.flatMap Answer.values) ∧
      ∀ answer ∈ ended.1, ¬ answer.IsReclaimed := by
  cases operation with
  | load draft =>
    refine ⟨?_, by simp [Machine.operate]⟩
    exact ⟨supported.tidy, supported.linked, supported.global, fun value listed =>
      supported.held value (by simpa [Machine.operate] using listed)⟩
  | carryOut errand depth =>
    have ended := supported.carryOut composes depth composed
    exact ⟨by simpa [Machine.operate] using ended.1, by simpa [Machine.operate] using ended.2⟩
  | runEach program units depth =>
    have entered : (machine.enter program).Supported held :=
      ⟨supported.tidy, supported.linked, supported.global, supported.held⟩
    exact entered.evaluateEach composes depth units
  | bindGlobal name value =>
    obtain ⟨accepted, after⟩ := supported.bindGlobal name composed
    have answers : (machine.operate (.quiet reply) (.bindGlobal name value)).1 = [.ok .void] := by
      simp [Machine.operate, accepted, Except.map]
    intro ended
    rw [answers]
    refine ⟨⟨after.tidy, after.linked, after.global, ?_⟩, ?_⟩
    · intro other listed
      rcases List.mem_append.1 listed with old | new
      · exact after.held other old
      · rw [List.mem_singleton.1 new]
        exact Store.supports_of_handles_eq_nil _ rfl
    · rintro answer listed ⟨failure, stopped, _⟩
      rw [List.mem_singleton.1 listed] at stopped
      cases stopped

/-- Machine after a collection with roots composed of what is held. -/
theorem collect {roots : List Value} (composed : ∀ root ∈ roots, root.ComposedOf held) :
    (machine.collect roots).2.Supported roots where
  tidy := supported.tidy.collect _
  linked := supported.linked.collect supported.tidy _
  global := (Store.isLive_collect supported.tidy _).2
    (.root List.mem_cons_self supported.global)
  held := by
    intro root listed
    have supports := (composed root listed).supports supported.held
    refine supports.collect supported.tidy fun handle inner => .root ?_ (supports.handles handle inner)
    exact List.mem_cons_of_mem _ (Value.mem_handlesAll.2 ⟨root, listed, inner⟩)

end Supported

/-- Under a disciplined host nothing dangles. -/
theorem Disciplined.supported {machine : Machine} {held : List Value}
    (disciplined : machine.Disciplined held) : machine.Supported held := by
  induction disciplined with
  | start symbols maxHops output => exact .start symbols maxHops output
  | operate _ composes operation composed ih => exact (ih.operate composes composed).1
  | @resolve machine held value result _ composed resolved ih =>
    refine ⟨ih.tidy, ih.linked, ih.global, fun other listed => ?_⟩
    rcases List.mem_append.1 listed with old | new
    · exact ih.held other old
    · rw [List.mem_singleton.1 new]
      rcases machine.setting.follow_supported ih.linked machine.setting.maxHops
        (composed.supports ih.held) with ⟨found, ended, supports⟩ | ended
      · obtain rfl := Except.ok.inj (ended.symm.trans resolved)
        exact supports
      · exact nomatch ended.symm.trans resolved
  | collect _ composed lasting ih => exact ih.collect composed

/-- Following references from a supported value can fail only by going on for too long. -/
theorem Supported.resolve {machine : Machine} {held : List Value}
    (supported : machine.Supported held) {value : Value} (supports : machine.scopes.Supports value) :
    (∃ result, machine.resolve value = .ok result) ∨
      machine.resolve value = .error (.chainTooLong machine.setting.maxHops) :=
  (machine.setting.follow_supported supported.linked machine.setting.maxHops supports).imp_left
    fun ⟨result, ended, _⟩ => ⟨result, ended⟩

/-- Under a disciplined host the top level is live, all parents are, and so are all scopes whose
handles are in bound or held values; what such values refer to is bound. So no operation reports a
reclaimed scope, names can always be bound at the top level, and following references can fail only
by going on for too long. -/
theorem nothing_dangles {machine : Machine} {held : List Value}
    (disciplined : machine.Disciplined held) :
    machine.scopes.isLive machine.setting.global = true ∧
    (∀ handle scope above, machine.scopes.scope? handle = some scope →
      scope.parent = some above → machine.scopes.isLive above = true) ∧
    (∀ value, value ∈ held ∨ (∃ handle scope name,
        machine.scopes.scope? handle = some scope ∧ scope.bindings.get? name = some value) →
      (∀ handle ∈ value.handles, machine.scopes.isLive handle = true) ∧
      (∀ target ∈ value.references, ∃ scope, machine.scopes.scope? target.scope = some scope ∧
        scope.bindings.contains target.name = true) ∧
      ((∃ result, machine.resolve value = .ok result) ∨
        machine.resolve value = .error (.chainTooLong machine.setting.maxHops))) ∧
    (∀ reply : Reply, reply.Composes → ∀ operation : Operation,
      operation.ComposedOf machine.setting.global held →
        ∀ answer ∈ (machine.operate (.quiet reply) operation).1, ¬ answer.IsReclaimed) ∧
    ∀ value : Value, value.ComposedOf held →
      (∀ name, (machine.bindGlobal name value).1 = .ok ()) ∧
      ((∃ result, machine.resolve value = .ok result) ∨
        machine.resolve value = .error (.chainTooLong machine.setting.maxHops)) := by
  have supported := disciplined.supported
  refine ⟨supported.global, fun _ _ _ => supported.linked.parents, ?_, ?_, ?_⟩
  · intro value known
    have supports : machine.scopes.Supports value := by
      rcases known with listed | ⟨handle, scope, name, found, bound⟩
      · exact supported.held value listed
      · exact supported.linked.values found (SymbolMap.mem_values_of_get? bound)
    exact ⟨supports.handles, supports.references, supported.resolve supports⟩
  · exact fun reply composes operation composed => (supported.operate composes composed).2
  · exact fun value composed => ⟨fun name => (supported.bindGlobal name composed).1,
      supported.resolve (composed.supports supported.held)⟩

end Machine

/-- Program of a block that declares a name and gives a reference to it. -/
def referringBlock : Program :=
  { nodes := #[⟨.int 7, .dummy⟩, ⟨.declare ⟨9⟩ none ⟨0⟩, .dummy⟩, ⟨.reference ⟨9⟩, .dummy⟩,
      ⟨.block ⟨0, 2⟩, .dummy⟩]
    lists := #[⟨1⟩, ⟨2⟩]
    params := #[]
    classes := #[] }

/-- Machine that has loaded the block. -/
def referringMachine : Machine :=
  ((Machine.start .initial Machine.defaultHops (.buffer "")).operate (.quiet .void)
    (.load ⟨(SymbolTable.initial.intern "x").2, referringBlock⟩)).2

/-- A host that keeps the reference from the block over a collection finds the variable bound, in a
scope that lives on only for the reference. -/
theorem Machine.nothing_dangles_referringMachine :
    let held := [Value.reference ⟨⟨1, 0⟩, ⟨9⟩⟩]
    let ended := referringMachine.operate (.quiet .void) (.carryOut (.program ⟨1⟩ [⟨3⟩]) 3)
    let machine := (ended.2.collect held).2
    machine.Disciplined held ∧ machine.scopes.isLive ⟨1, 0⟩ = true ∧
    (∃ scope, machine.scopes.scope? ⟨1, 0⟩ = some scope ∧
      scope.bindings.contains ⟨9⟩ = true) ∧
    ((∃ result, machine.resolve (.reference ⟨⟨1, 0⟩, ⟨9⟩⟩) = .ok result) ∨
      machine.resolve (.reference ⟨⟨1, 0⟩, ⟨9⟩⟩) =
        .error (.chainTooLong machine.setting.maxHops)) := by
  intro held ended machine
  have composes : Reply.void.Composes := fun _ _ _ referred => absurd referred List.not_mem_nil
  have started := Disciplined.start .initial Machine.defaultHops (.buffer "")
  have loaded := started.operate composes
    (.load ⟨(SymbolTable.initial.intern "x").2, referringBlock⟩) trivial
  have run := loaded.operate composes (.carryOut (.program ⟨1⟩ [⟨3⟩]) 3) trivial
  have handles : Value.handlesAll (ended.1.flatMap Answer.values) = [⟨1, 0⟩] := by decide +kernel
  have references : Value.referencesAll (ended.1.flatMap Answer.values) =
      [⟨⟨1, 0⟩, ⟨9⟩⟩] := by decide +kernel
  have young : ended.2.scopes.isYoung = true := by decide +kernel
  have disciplined : machine.Disciplined held := by
    refine run.collect (fun root listed => ?_) (Store.wrapsOn_of_isYoung young _)
    rw [List.mem_singleton.1 listed]
    exact ⟨fun handle inner => handles ▸ inner, fun target inner => references ▸ inner⟩
  obtain ⟨_, _, values, _⟩ := nothing_dangles disciplined
  obtain ⟨live, bound, resolved⟩ := values _ (Or.inl (List.mem_singleton_self _))
  exact ⟨disciplined, live _ (List.mem_singleton_self _), bound _ (List.mem_singleton_self _),
    resolved⟩

end ScopeMachine
