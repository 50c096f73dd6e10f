import ScopeMachine.Evaluation.Object
import ScopeMachine.Proofs.Evaluation.Course
import ScopeMachine.Proofs.Evaluation.Outcome
import ScopeMachine.Proofs.Home.Value

/-!
# Evaluations among values at home

Where all values in the scopes are at home, what an evaluation does by itself leaves such scopes, has
results that are at home and stops for nothing that is missing.
-/

namespace ScopeMachine

namespace Eval

variable {α β : Type} {setting : Setting}

/-- Among scopes that hold values at home the evaluation ends among such scopes, with a good result,
and stops for nothing that is missing. -/
def Homely (setting : Setting) (good : α → Prop) (evaluation : Eval α) : Prop :=
  ∀ state : State, state.AtHome setting →
    (∀ value final, evaluation state = .ok value final → good value ∧ final.AtHome setting) ∧
    ∀ stop final, evaluation state = .error stop final → stop ≠ .missing ∧ final.AtHome setting

section Homely

variable {good : α → Prop} {fine : β → Prop}

/-- A good result is homely. -/
theorem homely_pure {value : α} (fit : good value) : Homely setting good (pure value) := by
  refine fun state home => ⟨?_, nofun⟩
  rintro _ _ ⟨⟩
  exact ⟨fit, home⟩

/-- A failure is homely. -/
theorem homely_fail (failure : Failure) : Homely setting good (fail failure) := by
  refine fun state home => ⟨nofun, ?_⟩
  rintro _ _ ⟨⟩
  exact ⟨nofun, home⟩

/-- Homely evaluations follow one another. -/
theorem Homely.bind {first : Eval α} {next : α → Eval β} (opening : Homely setting good first)
    (rest : ∀ value, good value → Homely setting fine (next value)) :
    Homely setting fine (first >>= next) := by
  intro state home
  obtain ⟨results, stops⟩ := opening state home
  cases begun : first state with
  | ok value middle =>
    rw [bind_of_ok begun]
    obtain ⟨fit, middleHome⟩ := results value middle begun
    exact rest value fit middle middleHome
  | error stop middle =>
    rw [bind_of_error begun]
    refine ⟨nofun, ?_⟩
    rintro _ _ ⟨⟩
    exact stops stop middle begun

/-- A result is homely if it is good. -/
theorem homely_ofResult {result : Except Failure α} (fit : ∀ value, result = .ok value → good value) :
    Homely setting good (ofResult result) := by
  cases result with
  | ok value => exact homely_pure (fit value rfl)
  | error failure => exact homely_fail failure

/-- Reading the store is homely if what is read from values at home is good. -/
theorem homely_query {stop : ScopeError → Stop} {read : Store → Except ScopeError α}
    (present : ∀ error, stop error ≠ .missing)
    (fit : ∀ (store : Store) value, (∀ held, store.Holds held → held.AtHome setting) →
      read store = .ok value → good value) : Homely setting good (query stop read) := by
  intro state home
  unfold query
  cases found : read state.scopes with
  | ok value =>
    refine ⟨?_, nofun⟩
    rintro _ _ ⟨⟩
    exact ⟨fit state.scopes value home found, home⟩
  | error error =>
    refine ⟨nofun, ?_⟩
    rintro _ _ ⟨⟩
    exact ⟨present error, home⟩

/-- Changing the store is homely if it then holds what it held and values at home. -/
theorem homely_update {stop : ScopeError → Stop} {write : Store → Except ScopeError Store}
    (present : ∀ error, stop error ≠ .missing)
    (fit : ∀ (store after : Store) held, write store = .ok after → after.Holds held →
      held.AtHome setting ∨ store.Holds held) :
    Homely setting (fun _ => True) (update stop write) := by
  intro state home
  unfold update
  cases written : write state.scopes with
  | ok scopes =>
    refine ⟨?_, nofun⟩
    rintro _ _ ⟨⟩
    refine ⟨trivial, fun value held => ?_⟩
    exact (fit state.scopes scopes value written held).elim id (home value)
  | error error =>
    refine ⟨nofun, ?_⟩
    rintro _ _ ⟨⟩
    exact ⟨present error, home⟩

/-- Opening a scope is homely. -/
theorem homely_allocate (parent : Option Handle) :
    Homely setting (fun _ => True) (allocate parent) := by
  refine fun state home => ⟨?_, nofun⟩
  rintro _ _ ⟨⟩
  exact ⟨trivial, fun value held => home value (Store.holds_of_allocateEmpty held)⟩

/-- The scopes that are looked at hold values at home. -/
theorem homely_scopes :
    Homely setting (fun store => ∀ held, store.Holds held → held.AtHome setting) scopes := by
  refine fun state home => ⟨?_, nofun⟩
  rintro _ _ ⟨⟩
  exact ⟨home, home⟩

/-- Printing is homely. -/
theorem homely_write (print : Sink → Sink) : Homely setting (fun _ => True) (write print) := by
  refine fun state home => ⟨?_, nofun⟩
  rintro _ _ ⟨⟩
  exact ⟨trivial, home⟩

/-- Collecting is homely. -/
theorem homely_collect (roots : List Value) :
    Homely setting (fun _ => True) (collect setting roots) := by
  refine fun state home => ⟨?_, nofun⟩
  rintro _ _ ⟨⟩
  exact ⟨trivial, fun value held => home value (Store.holds_of_collect held)⟩

/-- A failed operation on scopes does not stop for something missing. -/
theorem scopeStop_ne_missing (setting : Setting) (name : Symbol) (error : ScopeError) :
    setting.scopeStop name error ≠ .missing := by
  cases error <;> exact nofun

/-- A failed assignment does not stop for something missing. -/
theorem assignStop_ne_missing (setting : Setting) (name : Symbol) (error : ScopeError) :
    setting.assignStop name error ≠ .missing := by
  cases error <;> exact nofun

/-- Declaring a value at home is homely. -/
theorem homely_declare (scope : Handle) (name : Symbol) {value : Value}
    (home : value.AtHome setting) :
    Homely setting (fun _ => True) (declare setting scope name value) :=
  homely_update (scopeStop_ne_missing setting name) fun _ _ _ written held => by
    rcases Store.holds_of_set written held with rfl | earlier
    · exact Or.inl home
    · exact Or.inr earlier

/-- Following references from a value at home is homely. -/
theorem homely_resolve {value : Value} (home : value.AtHome setting) :
    Homely setting (Value.AtHome setting) (resolve setting value) := by
  refine homely_scopes.bind fun store held => homely_ofResult fun last found => ?_
  rcases Setting.holds_of_follow found with rfl | inside
  · exact home
  · exact held last inside

/-- Reading a name as it is stored is homely. -/
theorem homely_readRaw (scope : Handle) (name : Symbol) :
    Homely setting (Value.AtHome setting) (readRaw setting scope name) :=
  homely_query (scopeStop_ne_missing setting name) fun _ value held found =>
    held value (Store.holds_of_get found)

/-- Reading a name is homely. -/
theorem homely_readName (scope : Handle) (name : Symbol) :
    Homely setting (Value.AtHome setting) (readName setting scope name) :=
  (homely_readRaw scope name).bind fun _ home => homely_resolve home

/-- Referring to a name is homely. -/
theorem homely_referTo (scope : Handle) (name : Symbol) :
    Homely setting (Value.AtHome setting) (referTo setting scope name) :=
  have located : Homely setting (fun _ => True)
      (query (setting.scopeStop name) fun store => store.locate scope name) :=
    homely_query (scopeStop_ne_missing setting name) fun _ _ _ _ => trivial
  located.bind fun target _ => homely_pure (.reference target)

/-- Reading the reference that a name holds is homely. -/
theorem homely_heldReference (scope : Handle) (name : Symbol) :
    Homely setting (fun _ => True) (heldReference setting scope name) := by
  refine (homely_readRaw scope name).bind fun value _ => ?_
  split
  · exact homely_pure trivial
  · exact homely_fail _

/-- Writing a value at home through references is homely. -/
theorem homely_writeThrough (first : Location) {value : Value} (home : value.AtHome setting) :
    Homely setting (fun _ => True) (writeThrough setting first value) := by
  refine homely_scopes.bind fun store _ => ?_
  have resolved : Homely setting (fun _ => True) (ofResult (setting.resolveLocation store first)) :=
    homely_ofResult fun _ _ => trivial
  exact resolved.bind fun target _ => homely_declare target.scope target.name home

/-- Checking the number of arguments is homely. -/
theorem homely_checkArity (name : String) (expected got : Nat) :
    Homely setting (fun _ => True) (checkArity name expected got) := by
  unfold checkArity
  split
  · exact homely_pure trivial
  · exact homely_fail _

/-- Outcomes of operators are homely. -/
theorem homely_outcome {result : Except Failure Value} (outcome : BinaryOp.Outcome result) :
    Homely setting (Value.AtHome setting) (ofResult result) := by
  cases outcome with
  | scalar plain => exact homely_pure (Value.MadeOf.atHome (.plain (Or.inl plain)) (fun _ => False.elim))
  | _ => exact homely_fail _

/-- Counting is homely. -/
theorem homely_callLen (args : List Value) :
    Homely setting (Value.AtHome setting) (callLen args) := by
  unfold callLen
  split
  · exact homely_outcome (BinaryOp.outcome_checkedInt _ _)
  · exact homely_outcome (BinaryOp.outcome_checkedInt _ _)
  · exact homely_fail _
  · exact homely_fail _

/-- Printing a value is homely. -/
theorem homely_callPrint (name : String) (print : Sink → String → Sink) (args : List Value) :
    Homely setting (Value.AtHome setting) (callPrint setting name print args) := by
  unfold callPrint
  split
  · exact (homely_write _).bind fun _ _ => homely_pure .void
  · exact homely_fail _

/-- Reading a class is homely. -/
theorem homely_readClass (scope : Handle) (name : Symbol) :
    Homely setting (ClassObject.AtHome setting) (readClass setting scope name) := by
  refine (homely_readName scope name).bind fun value home => ?_
  split
  · cases home with
    | classObject home => exact homely_pure home
  · exact homely_fail _

/-- Checking the number of fields is homely. -/
theorem homely_checkFieldCount (owner : ClassObject) (got : Nat) :
    Homely setting (fun _ => True) (checkFieldCount setting owner got) := by
  unfold checkFieldCount
  split
  · exact homely_fail _
  · exact homely_pure trivial

/-- An object at home has methods at home. -/
theorem homely_expectObject {value : Value} (home : value.AtHome setting) :
    Homely setting
      (fun receiver : Object => ∀ method ∈ receiver.methods.values, method.AtHome setting)
      (expectObject value) := by
  unfold expectObject
  split
  · cases home with
    | object _ methods => exact homely_pure methods
  · exact homely_fail _

/-- Reading a field is homely. -/
theorem homely_readField (receiver : Object) (name : Symbol) :
    Homely setting (Value.AtHome setting) (readField setting receiver name) := by
  have read : Homely setting (fun found => ∀ value, found = some value → value.AtHome setting)
      (query (setting.scopeStop name) fun store => store.getOwn receiver.storage name) := by
    refine homely_query (scopeStop_ne_missing setting name) ?_
    rintro store found held read value rfl
    exact held value (Store.holds_of_getOwn read)
  refine read.bind fun found home => ?_
  split
  · exact homely_resolve (home _ rfl)
  · exact homely_fail _

/-- Finding a method is homely. -/
theorem homely_findMethod {receiver : Object}
    (home : ∀ method ∈ receiver.methods.values, method.AtHome setting) (name : Symbol) :
    Homely setting (Closure.AtHome setting) (findMethod setting receiver name) := by
  unfold findMethod
  split
  · next found => exact homely_pure (home _ (SymbolMap.mem_values_of_get? found))
  · exact homely_fail _

/-- The elements of arrays at home are at home. -/
theorem homely_element {receiver : Value} (home : receiver.AtHome setting) (position : Value) :
    Homely setting (Value.AtHome setting) (ofResult (receiver.element position)) := by
  refine homely_ofResult fun item found => ?_
  unfold Value.element at found
  split at found
  · cases home with
    | array all =>
      split at found
      · split at found
        · next index _ inside =>
          cases found
          split at inside
          · exact all item (List.mem_of_getElem? inside)
          · exact nomatch inside
        · exact nomatch found
      · exact nomatch found
  · exact nomatch found

end Homely

end Eval

end ScopeMachine
