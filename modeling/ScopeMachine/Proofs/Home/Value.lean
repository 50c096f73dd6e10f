import ScopeMachine.Evaluation.Reference
import ScopeMachine.Proofs.Scope.Bookkeeping
import ScopeMachine.Proofs.Syntax.Closed

/-!
# Values at home

A function names a program and a body, a class names a program, defaults and methods. Such a value is
at home when the program that it names declares it, so that the body, the defaults and the methods
belong to that very program. A value is made of others when it is put together from them and from plain data, without any
function, class or object that has not been there before.

The values that a store holds are those bound in its scopes. Reading returns values that the store
holds; nothing but a write of a value makes a store hold it.
-/

namespace ScopeMachine

/-- A program declares a function with such a name, such parameters and such a body: by a node of its
own or as a method of a class. -/
inductive Program.DeclaresFunction (code : Program) : Option Symbol → List Symbol → NodeId → Prop where
  /-- A node declares a named function. -/
  | named {id : NodeId} {name : Symbol} {params : ParamRange} {body : NodeId} {span : Span}
    (found : code.node? id = some ⟨.function name params body, span⟩) :
    DeclaresFunction code (some name) (code.paramList params) body
  /-- A node is an unnamed function. -/
  | unnamed {id : NodeId} {param : Symbol} {body : NodeId} {span : Span}
    (found : code.node? id = some ⟨.lambda param body, span⟩) :
    DeclaresFunction code none [param] body
  /-- A class declares a method. -/
  | method {id : ClassId} {decl : ClassDecl} {method : MethodDecl}
    (found : code.classDecl? id = some decl) (listed : method ∈ decl.methods) :
    DeclaresFunction code (some method.name) (code.paramList method.params) method.body

/-- The program that a function names declares it. -/
def Closure.AtHome (setting : Setting) (function : Closure) : Prop :=
  ∃ code, setting.program? function.program = some code ∧
    code.DeclaresFunction function.name function.params function.body

/-- The program that a class names declares it. -/
def ClassObject.AtHome (setting : Setting) (owner : ClassObject) : Prop :=
  ∃ code id decl, setting.program? owner.program = some code ∧ code.classDecl? id = some decl ∧
    owner = .ofDecl decl owner.scope owner.program

/-- All functions and classes inside a value are at home. -/
inductive Value.AtHome (setting : Setting) : Value → Prop where
  | int (value : Int64) : AtHome setting (.int value)
  | float (value : Float) : AtHome setting (.float value)
  | bool (value : Bool) : AtHome setting (.bool value)
  | void : AtHome setting .void
  | string (text : String) : AtHome setting (.string text)
  | native (value : Native) : AtHome setting (.native value)
  | reference (target : Location) : AtHome setting (.reference target)
  | array {items : List Value} (all : ∀ item ∈ items, AtHome setting item) :
    AtHome setting (.array items)
  | function {value : Closure} (home : value.AtHome setting) : AtHome setting (.function value)
  | classObject {value : ClassObject} (home : value.AtHome setting) :
    AtHome setting (.classObject value)
  | object {value : Object} (owner : value.owner.AtHome setting)
    (methods : ∀ method ∈ value.methods.values, method.AtHome setting) :
    AtHome setting (.object value)

/-- A value is put together from given values and plain data. -/
inductive Value.MadeOf (given : Value → Prop) : Value → Prop where
  /-- It is given. -/
  | given {value : Value} (known : given value) : MadeOf given value
  /-- It is a number, a truth value, a text or void. -/
  | plain {value : Value} (data : value.isScalar = true ∨ value = .void) : MadeOf given value
  /-- It is a native function. -/
  | native (value : Native) : MadeOf given (.native value)
  /-- It is a reference. -/
  | reference (target : Location) : MadeOf given (.reference target)
  /-- It is an array of such values. -/
  | array {items : List Value} (all : ∀ item ∈ items, MadeOf given item) :
    MadeOf given (.array items)
  /-- It is an element of such an array. -/
  | element {items : List Value} {item : Value} (whole : MadeOf given (.array items))
    (inside : item ∈ items) : MadeOf given item

/-- The later setting has all programs of the earlier one under their numbers. -/
def Setting.Keeps (earlier later : Setting) : Prop :=
  ∀ id code, earlier.program? id = some code → later.program? id = some code

/-- Every program of the setting is closed. -/
def Setting.Closed (setting : Setting) : Prop :=
  ∀ id code, setting.program? id = some code → code.Closed

/-- A setting keeps its programs. -/
theorem Setting.Keeps.refl (setting : Setting) : setting.Keeps setting := fun _ _ found => found

section Values

variable {setting : Setting}

/-- The default of an annotation is at home. -/
theorem Value.atHome_blankFor (tag : Option TypeTag) : (Value.blankFor tag).AtHome setting := by
  unfold Value.blankFor
  split <;> constructor

/-- What is made of values at home is at home. -/
theorem Value.MadeOf.atHome {given : Value → Prop} {value : Value} (made : value.MadeOf given)
    (home : ∀ value, given value → value.AtHome setting) : value.AtHome setting := by
  induction made with
  | given known => exact home _ known
  | @plain value data =>
    cases value with
    | int | float | bool | void | string => constructor
    | _ => rcases data with scalar | void <;> contradiction
  | native value => exact .native value
  | reference target => exact .reference target
  | array all ih => exact .array ih
  | element whole inside ih =>
    cases ih with
    | array all => exact all _ inside

/-- The body of a function that a closed program declares belongs to it. -/
theorem Program.DeclaresFunction.hasNode {code : Program} (closed : code.Closed)
    {name : Option Symbol} {params : List Symbol} {body : NodeId}
    (declared : code.DeclaresFunction name params body) : code.HasNode body := by
  cases declared with
  | named found => exact (closed.nodes _ _ found).2
  | unnamed found => exact closed.nodes _ _ found
  | method found listed => exact ((closed.classes _ _ found).methods _ listed).2

/-- The methods of a class come from its declaration. -/
theorem ClassObject.mem_of_mem_methods {decl : ClassDecl} {scope : Handle} {program : ProgramId}
    {method : MethodDecl} (held : method ∈ (ClassObject.ofDecl decl scope program).methods.values) :
    method ∈ decl.methods := by
  obtain ⟨key, listed⟩ := SymbolMap.mem_of_mem_values_ofList held
  obtain ⟨declared, inside, same⟩ := List.mem_map.1 listed
  cases same
  exact inside

section Keeping

variable {later : Setting} (keeps : setting.Keeps later)
include keeps

/-- A function at home stays so when programs are added. -/
theorem Closure.AtHome.mono {function : Closure} (home : function.AtHome setting) :
    function.AtHome later := by
  obtain ⟨code, hasCode, body⟩ := home
  exact ⟨code, keeps _ code hasCode, body⟩

/-- A class at home stays so when programs are added. -/
theorem ClassObject.AtHome.mono {owner : ClassObject} (home : owner.AtHome setting) :
    owner.AtHome later := by
  obtain ⟨code, id, decl, hasCode, declared⟩ := home
  exact ⟨code, id, decl, keeps _ code hasCode, declared⟩

/-- A value at home stays so when programs are added. -/
theorem Value.AtHome.mono {value : Value} (home : value.AtHome setting) : value.AtHome later := by
  induction home with
  | array all ih => exact .array ih
  | function home => exact .function (home.mono keeps)
  | classObject home => exact .classObject (home.mono keeps)
  | object owner methods =>
    exact .object (owner.mono keeps) fun method held => (methods method held).mono keeps
  | _ => constructor

end Keeping

end Values

namespace Store

/-- A scope of the store binds the value. -/
def Holds (store : Store) (value : Value) : Prop :=
  ∃ slot ∈ store.slots, ∃ scope, slot.scope = some scope ∧ value ∈ scope.bindings.values

variable {store after : Store} {value : Value}

/-- The values of a scope that is found are held. -/
theorem holds_of_scope? {handle : Handle} {scope : Scope}
    (found : store.scope? handle = some scope) (bound : value ∈ scope.bindings.values) :
    store.Holds value :=
  ⟨_, Array.mem_of_getElem? (scope?_eq_some_iff.1 found), scope, rfl, bound⟩

/-- A value that is found in a scope is held. -/
theorem holds_of_getOwn {handle : Handle} {name : Symbol}
    (found : store.getOwn handle name = .ok (some value)) : store.Holds value := by
  cases live : store.scope? handle with
  | none => simp [getOwn, Store.scope, live, bind, Except.bind] at found
  | some scope =>
    rw [getOwn, scope_of_scope? live] at found
    exact holds_of_scope? live (SymbolMap.mem_values_of_get? (Except.ok.inj found))

/-- A value that a name has is held. -/
theorem holds_of_get {handle : Handle} {name : Symbol} (found : store.get handle name = .ok value) :
    store.Holds value := by
  unfold get at found
  cases owned : store.owner handle name with
  | error error => simp [owned, bind, Except.bind] at found
  | ok owner =>
    cases own : store.getOwn owner name with
    | error error => simp [owned, own, bind, Except.bind] at found
    | ok bound =>
      cases bound with
      | none => simp [owned, own, bind, Except.bind, throw, throwThe, MonadExceptOf.throw] at found
      | some other =>
        have same : other = value := by
          simpa [owned, own, bind, Except.bind, pure, Except.pure] using found
        exact holds_of_getOwn (same ▸ own)

/-- A new scope without bindings holds nothing. -/
theorem holds_of_allocateEmpty {parent : Option Handle}
    (held : (store.allocateEmpty parent).2.Holds value) : store.Holds value := by
  obtain ⟨slot, listed, scope, content, bound⟩ := held
  have fresh : ∀ generation, slot = ⟨generation, some ⟨parent, .empty⟩⟩ → False := by
    rintro generation rfl
    cases content
    exact absurd bound List.not_mem_nil
  cases freed : store.free with
  | nil =>
    rw [allocateEmpty, allocate_of_free_eq_nil freed] at listed
    rcases Array.mem_push.1 listed with old | new
    · exact ⟨slot, old, scope, content, bound⟩
    · exact (fresh _ new).elim
  | cons first rest =>
    rw [allocateEmpty, allocate_of_free_eq_cons freed] at listed
    rcases Array.mem_or_eq_of_mem_setIfInBounds listed with old | new
    · exact ⟨slot, old, scope, content, bound⟩
    · exact (fresh _ new).elim

/-- A store with one scope holds what that scope binds. -/
theorem holds_of_allocate_empty {parent : Option Handle} {bindings : SymbolMap Value}
    (held : (Store.empty.allocate parent bindings).2.Holds value) : value ∈ bindings.values := by
  obtain ⟨slot, listed, scope, content, bound⟩ := held
  have only : slot = ⟨0, some ⟨parent, bindings⟩⟩ :=
    List.mem_singleton.1 (Array.mem_toList_iff.2 listed)
  subst only
  cases content
  exact bound

/-- After a write a store holds the written value and what it held. -/
theorem holds_of_set {handle : Handle} {name : Symbol} {written : Value}
    (wrote : store.set handle name written = .ok after) (held : after.Holds value) :
    value = written ∨ store.Holds value := by
  obtain ⟨slot, listed, scope, content, bound⟩ := held
  obtain ⟨before, found, rfl⟩ := eq_of_set wrote
  rcases Array.mem_or_eq_of_mem_setIfInBounds listed with old | rfl
  · exact Or.inr ⟨slot, old, scope, content, bound⟩
  · cases content
    exact (SymbolMap.mem_values_insert bound).imp_right fun earlier => holds_of_scope? found earlier

/-- After an assignment a store holds the assigned value and what it held. -/
theorem holds_of_assign {handle : Handle} {name : Symbol} {written : Value}
    (wrote : store.assign handle name written = .ok after) (held : after.Holds value) :
    value = written ∨ store.Holds value := by
  obtain ⟨owner, _, wrote⟩ := exists_set_of_assign wrote
  exact holds_of_set wrote held

/-- After several writes a store holds the written values and what it held. -/
theorem holds_of_setAll {handle : Handle} {entries : List (Symbol × Value)}
    (wrote : store.setAll handle entries = .ok after) (held : after.Holds value) :
    (∃ name, (name, value) ∈ entries) ∨ store.Holds value := by
  induction entries generalizing store with
  | nil =>
    cases wrote
    exact Or.inr held
  | cons entry entries ih =>
    obtain ⟨name, written⟩ := entry
    cases first : store.set handle name written with
    | error error => simp [setAll, first, bind, Except.bind] at wrote
    | ok middle =>
      have rest : middle.setAll handle entries = .ok after := by
        simpa [setAll, first, bind, Except.bind] using wrote
      rcases ih rest with ⟨other, listed⟩ | earlier
      · exact Or.inl ⟨other, List.mem_cons_of_mem _ listed⟩
      · rcases holds_of_set first earlier with rfl | before
        · exact Or.inl ⟨name, List.mem_cons_self⟩
        · exact Or.inr before

/-- A collection makes a store hold nothing new. -/
theorem holds_of_collect {roots : List Handle} (held : (store.collect roots).2.Holds value) :
    store.Holds value := by
  obtain ⟨slot, listed, scope, content, bound⟩ := held
  obtain ⟨index, found⟩ := Array.mem_iff_getElem?.1 listed
  rw [collect_eq, slots_sweep] at found
  obtain ⟨before, was, rfl⟩ := Option.map_eq_some_iff.1 found
  split at content
  · exact nomatch content
  · exact ⟨before, Array.mem_of_getElem? was, scope, content, bound⟩

end Store

/-- All values that the scopes hold are at home. -/
def State.AtHome (setting : Setting) (state : State) : Prop :=
  ∀ value, state.scopes.Holds value → value.AtHome setting

namespace Setting

variable {setting : Setting} {scopes : Store}

/-- A value that a variable holds is held. -/
theorem holds_of_stored {target : Location} {value : Value}
    (found : setting.stored scopes target = .ok value) : scopes.Holds value := by
  unfold stored at found
  split at found
  · next held =>
    cases found
    exact Store.holds_of_getOwn held
  · exact nomatch found
  · exact nomatch found

/-- A value at the end of a chain is the first one or is held. -/
theorem holds_of_follow {hops : Nat} {value last : Value}
    (found : setting.follow scopes hops value = .ok last) : last = value ∨ scopes.Holds last := by
  induction hops generalizing value with
  | zero => cases value <;> simp_all [follow]
  | succ hops ih =>
    cases value with
    | reference target =>
      cases held : setting.stored scopes target with
      | error failure => simp [follow, held, bind, Except.bind] at found
      | ok next =>
        have rest : setting.follow scopes hops next = .ok last := by
          simpa [follow, held, bind, Except.bind] using found
        rcases ih rest with rfl | inside
        · exact Or.inr (holds_of_stored held)
        · exact Or.inr inside
    | _ => simp_all [follow]

end Setting

end ScopeMachine
