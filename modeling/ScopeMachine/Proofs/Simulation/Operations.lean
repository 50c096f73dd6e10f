import ScopeMachine.Evaluation.Object
import ScopeMachine.Proofs.Simulation.Basic

/-!
# Simulation of references, calls and objects

What the language does with references, functions and classes simulates itself on corresponding
values, given that the evaluators of bodies and the entries of the hosts on the two sides simulate
each other. Nothing here looks at the slots behind handles.
-/

namespace ScopeMachine

/-- The tasks are the same up to a renaming. -/
inductive Task.Sends (pairs : Renaming) : Task → Task → Prop where
  /-- The same node in corresponding scopes. -/
  | node {program : ProgramId} {id : NodeId} {left right : Handle}
    (scope : pairs.SendsHandle left right) :
    Sends pairs (.node program id left) (.node program id right)
  /-- Calls of corresponding values with corresponding arguments. -/
  | call {left right : Value} {lefts rights : List Value} (callee : pairs.Sends left right)
    (args : pairs.SendsAll lefts rights) : Sends pairs (.call left lefts) (.call right rights)

/-- The evaluators perform corresponding tasks alike. -/
def Evaluator.Simulates (lossy : Prop) (left right : Evaluator) : Prop :=
  ∀ pairs leftTask rightTask, Task.Sends pairs leftTask rightTask →
    Eval.Simulates lossy Renaming.Sends pairs (left leftTask) (right rightTask)

/-- The entries of the hosts do alike, if the evaluators they may call back do. -/
def Host.Simulates (lossy : Prop) (setting : Setting) (left right : Host) : Prop :=
  ∀ entry pairs (leftEvaluate rightEvaluate : Evaluator) lefts rights,
    Evaluator.Simulates lossy leftEvaluate rightEvaluate → pairs.SendsAll lefts rights →
    Eval.Simulates lossy Renaming.Sends pairs
      (left entry setting (fun callee args => leftEvaluate (.call callee args)) lefts)
      (right entry setting (fun callee args => rightEvaluate (.call callee args)) rights)

namespace Setting

variable {lossy : Prop} {pairs : Renaming} {left right : Store} (setting : Setting)
  (mirrors : left.Mirrors lossy pairs right)
include mirrors

/-- Corresponding variables hold corresponding values. -/
theorem stored_agrees {leftTarget rightTarget : Location}
    (target : pairs.Sends (.reference leftTarget) (.reference rightTarget)) :
    ResultsAgree lossy pairs.Sends (setting.stored left leftTarget)
      (setting.stored right rightTarget) := by
  obtain ⟨known, rfl⟩ := Renaming.sends_reference_iff.1 target
  have read := mirrors.getOwn_agrees leftTarget.name ⟨known, rfl⟩
  simp only [stored, Location.rename]
  generalize left.getOwn leftTarget.scope leftTarget.name = leftRead at read ⊢
  generalize right.getOwn (pairs.image leftTarget.scope) leftTarget.name = rightRead at read ⊢
  cases read with
  | ok both =>
    cases both with
    | none => exact .error rfl
    | some value => exact .ok value
  | error same => exact .error rfl
  | lost allowed loss => exact .lost allowed rfl

/-- Chains of references from corresponding values end in corresponding values. -/
theorem follow_agrees (hops : Nat) {leftValue rightValue : Value}
    (value : pairs.Sends leftValue rightValue) :
    ResultsAgree lossy pairs.Sends (setting.follow left hops leftValue)
      (setting.follow right hops rightValue) := by
  induction hops generalizing leftValue rightValue with
  | zero =>
    obtain ⟨known, rfl⟩ := value
    cases leftValue with
    | reference target => exact .error rfl
    | _ => exact .ok ⟨known, rfl⟩
  | succ hops ih =>
    obtain ⟨known, rfl⟩ := value
    cases leftValue with
    | reference target =>
      refine (setting.stored_agrees mirrors ⟨known, rfl⟩).bind ?_
      exact fun leftNext rightNext next => ih next
    | _ => exact .ok ⟨known, rfl⟩

/-- Chains of references from corresponding variables end in corresponding variables. -/
theorem followLocation_agrees (hops : Nat) {leftTarget rightTarget : Location}
    (target : pairs.Sends (.reference leftTarget) (.reference rightTarget)) :
    ResultsAgree lossy
      (fun leftEnd rightEnd => pairs.Sends (.reference leftEnd) (.reference rightEnd))
      (setting.followLocation left hops leftTarget)
      (setting.followLocation right hops rightTarget) := by
  induction hops generalizing leftTarget rightTarget with
  | zero => exact .error rfl
  | succ hops ih =>
    unfold followLocation
    refine (setting.stored_agrees mirrors target).bind fun leftNext rightNext next => ?_
    obtain ⟨known, rfl⟩ := next
    cases leftNext with
    | reference inner => exact ih ⟨known, rfl⟩
    | _ => exact .ok target

end Setting

namespace Eval

variable {lossy : Prop} {pairs : Renaming} (setting : Setting)

section References

variable {leftScope rightScope : Handle} (scope : pairs.SendsHandle leftScope rightScope)

/-- Following references from corresponding values simulates itself. -/
theorem simulates_resolve {left right : Value} (value : pairs.Sends left right) :
    Simulates lossy Renaming.Sends pairs (resolve setting left) (resolve setting right) := by
  refine simulates_scopes.bind fun later extended leftStore rightStore mirrors => ?_
  exact simulates_ofResult (setting.follow_agrees mirrors _ (value.extend extended))

/-- Writing through corresponding references simulates itself. -/
theorem simulates_writeThrough {leftFirst rightFirst : Location}
    (first : pairs.Sends (.reference leftFirst) (.reference rightFirst)) {left right : Value}
    (value : pairs.Sends left right) :
    Simulates lossy (fun _ _ _ => True) pairs (writeThrough setting leftFirst left)
      (writeThrough setting rightFirst right) := by
  refine simulates_scopes.bind fun later extended leftStore rightStore mirrors => ?_
  have chain := setting.followLocation_agrees mirrors setting.maxHops (first.extend extended)
  have found : Simulates lossy (fun renamed leftEnd rightEnd =>
      renamed.Sends (.reference leftEnd) (.reference rightEnd)) later
      (ofResult (setting.resolveLocation leftStore leftFirst))
      (ofResult (setting.resolveLocation rightStore rightFirst)) := simulates_ofResult chain
  refine found.bind fun final more leftEnd rightEnd target => ?_
  obtain ⟨known, rfl⟩ := Renaming.sends_reference_iff.1 target
  exact simulates_declare setting ⟨known, rfl⟩ leftEnd.name ((value.extend extended).extend more)

include scope

/-- Reading a name in corresponding scopes simulates itself. -/
theorem simulates_readRaw (name : Symbol) :
    Simulates lossy Renaming.Sends pairs (readRaw setting leftScope name)
      (readRaw setting rightScope name) :=
  simulates_query (fun _ => rfl) fun _ _ mirrors => mirrors.get_agrees name scope

/-- Reading a name and following references simulates itself. -/
theorem simulates_readName (name : Symbol) :
    Simulates lossy Renaming.Sends pairs (readName setting leftScope name)
      (readName setting rightScope name) := by
  refine (simulates_readRaw setting scope name).bind fun later extended left right value => ?_
  exact simulates_resolve setting value

/-- Referring to a name in corresponding scopes simulates itself. -/
theorem simulates_referTo (name : Symbol) :
    Simulates lossy Renaming.Sends pairs (referTo setting leftScope name)
      (referTo setting rightScope name) := by
  have located : Simulates lossy (fun renamed left right =>
      renamed.Sends (.reference left) (.reference right)) pairs
      (query (setting.scopeStop name) fun store => store.locate leftScope name)
      (query (setting.scopeStop name) fun store => store.locate rightScope name) :=
    simulates_query (fun _ => rfl) fun _ _ mirrors => mirrors.locate_agrees name scope
  exact located.bind fun later extended left right target => simulates_pure target

/-- Reading a reference from a name simulates itself. -/
theorem simulates_heldReference (name : Symbol) :
    Simulates lossy (fun renamed left right =>
        renamed.Sends (.reference left) (.reference right)) pairs
      (heldReference setting leftScope name) (heldReference setting rightScope name) := by
  refine (simulates_readRaw setting scope name).bind fun later extended left right value => ?_
  obtain ⟨known, rfl⟩ := value
  cases left with
  | reference target => exact simulates_pure ⟨known, rfl⟩
  | _ => exact simulates_fail _

end References

section Calls

/-- A check of the number of arguments simulates itself. -/
theorem simulates_checkArity (name : String) (expected got : Nat) :
    Simulates lossy (fun _ _ _ => True) pairs (checkArity name expected got)
      (checkArity name expected got) := by
  unfold checkArity
  split
  · exact simulates_pure trivial
  · exact simulates_fail _

/-- Counting values simulates itself on corresponding arguments. -/
theorem simulates_callLen {lefts rights : List Value} (args : pairs.SendsAll lefts rights) :
    Simulates lossy Renaming.Sends pairs (callLen lefts) (callLen rights) := by
  obtain ⟨known, rfl⟩ := args
  match lefts with
  | [] => exact simulates_fail _
  | [value] =>
    cases value with
    | array items =>
      simp only [List.map, Value.rename, Value.renameAll_eq_map, callLen, List.length_map]
      exact simulates_ofResult (BinaryOp.outcome_checkedInt _ _).plain.agrees
    | string text => exact simulates_ofResult (BinaryOp.outcome_checkedInt _ _).plain.agrees
    | _ => exact simulates_fail _
  | first :: second :: rest =>
    rw [List.map_cons, List.map_cons, callLen_cons_cons, callLen_cons_cons, List.length_map]
    exact simulates_fail _

/-- Printing simulates itself on corresponding arguments. -/
theorem simulates_callPrint (name : String) (print : Sink → String → Sink)
    {lefts rights : List Value} (args : pairs.SendsAll lefts rights) :
    Simulates lossy Renaming.Sends pairs (callPrint setting name print lefts)
      (callPrint setting name print rights) := by
  obtain ⟨known, rfl⟩ := args
  match lefts with
  | [] => exact simulates_fail _
  | [value] =>
    simp only [List.map, callPrint, Value.text_rename]
    refine (simulates_write _).bind fun later extended _ _ _ => ?_
    exact simulates_pure (Renaming.sends_self rfl)
  | first :: second :: rest =>
    simp only [List.map, callPrint, List.length_cons, List.length_map]
    exact simulates_fail _

variable {leftHost rightHost : Host} {leftEvaluate rightEvaluate : Evaluator}
  (evaluators : Evaluator.Simulates lossy leftEvaluate rightEvaluate)
include evaluators

/-- Calls of corresponding functions with corresponding arguments simulate each other. -/
theorem simulates_callClosure {left right : Closure}
    (function : pairs.Sends (.function left) (.function right)) {lefts rights : List Value}
    (args : pairs.SendsAll lefts rights) :
    Simulates lossy Renaming.Sends pairs (callClosure setting leftEvaluate left lefts)
      (callClosure setting rightEvaluate right rights) := by
  obtain ⟨known, rfl⟩ := Renaming.sends_function_iff.1 function
  have sameLength : rights.length = lefts.length := by rw [args.eq, List.length_map]
  unfold callClosure
  rw [sameLength]
  refine (simulates_checkArity _ _ _).bind fun checked more _ _ _ => ?_
  refine simulates_scopes.bind fun later further leftStore rightStore mirrors => ?_
  have extended := further.trans more
  have scope : later.SendsHandle left.scope (left.rename pairs.image).scope :=
    Renaming.SendsHandle.extend ⟨known, rfl⟩ extended
  rcases mirrors.isLive_agrees scope with ⟨leftLive, rightLive⟩ | ⟨leftDead, lossOrDead⟩
  · rw [if_pos leftLive, if_pos rightLive]
    refine (simulates_allocate scope).bind fun framed opened leftFrame rightFrame frame => ?_
    have values := args.extend (opened.trans extended)
    refine (simulates_update (fun _ => rfl) fun _ _ inner =>
      inner.setAll_agrees frame left.params values).bind fun final last _ _ _ => ?_
    exact evaluators final _ _ (.node (frame.extend last))
  · rw [if_neg (by simp [leftDead])]
    rcases lossOrDead with allowed | rightDead
    · exact simulates_of_isLoss allowed Stop.isLoss_reclaimedScope _
    · rw [if_neg (by simp [rightDead])]
      exact simulates_fail _

/-- Calling corresponding values on the elements of corresponding arrays simulates itself. -/
theorem simulates_callMap {lefts rights : List Value} (args : pairs.SendsAll lefts rights) :
    Simulates lossy Renaming.Sends pairs
      (callMap (fun callee args => leftEvaluate (.call callee args)) lefts)
      (callMap (fun callee args => rightEvaluate (.call callee args)) rights) := by
  obtain ⟨known, rfl⟩ := args
  match lefts with
  | [] => exact simulates_fail _
  | [value] => exact simulates_fail _
  | [callee, collection] =>
    have callees : pairs.Sends callee (callee.rename pairs.image) :=
      ⟨fun handle held => known handle (by simp [held]), rfl⟩
    simp only [List.map, callMap, Value.isCallable_rename, Value.kindName_rename]
    split
    · cases collection with
      | array items =>
        have members : List.Forall₂ pairs.Sends items (items.map (Value.rename pairs.image)) := by
          rw [List.forall₂_map_right_iff, List.forall₂_same]
          refine fun item listed => ⟨fun handle held => known handle ?_, rfl⟩
          simp only [List.flatMap_cons, List.mem_append, Value.handles,
            Value.handlesAll_eq_flatMap, List.mem_flatMap]
          exact Or.inr (Or.inl ⟨item, listed, held⟩)
        simp only [Value.rename, Value.renameAll_eq_map]
        refine (simulates_each pairs.Sends (fun later extended left right item => ?_) members).bind
          fun later extended leftResults rightResults values => simulates_pure ?_
        · exact evaluators later _ _
            (.call (callees.extend extended) (.cons (item.extend extended) .nil))
        · exact Renaming.sends_array values
      | _ => exact simulates_fail _
    · exact simulates_fail _
  | first :: second :: third :: rest =>
    simp only [List.map, callMap, List.length_cons, List.length_map]
    exact simulates_fail _

/-- Calls of native functions with corresponding arguments simulate each other. -/
theorem simulates_callNative (hosts : Host.Simulates lossy setting leftHost rightHost)
    (role : NativeRole) {lefts rights : List Value} (args : pairs.SendsAll lefts rights) :
    Simulates lossy Renaming.Sends pairs
      (callNative setting leftHost (fun callee args => leftEvaluate (.call callee args)) role lefts)
      (callNative setting rightHost (fun callee args => rightEvaluate (.call callee args)) role
        rights) := by
  cases role with
  | map => exact simulates_callMap evaluators args
  | len => exact simulates_callLen args
  | print => exact simulates_callPrint setting "print" Sink.print args
  | println => exact simulates_callPrint setting "println" Sink.println args
  | host entry => exact hosts entry pairs leftEvaluate rightEvaluate lefts rights evaluators args

/-- Calls of corresponding values with corresponding arguments simulate each other. -/
theorem simulates_callAny (hosts : Host.Simulates lossy setting leftHost rightHost)
    {left right : Value} (callee : pairs.Sends left right) {lefts rights : List Value}
    (args : pairs.SendsAll lefts rights) :
    Simulates lossy Renaming.Sends pairs (callAny setting leftHost leftEvaluate left lefts)
      (callAny setting rightHost rightEvaluate right rights) := by
  obtain ⟨known, rfl⟩ := callee
  cases left with
  | function function => exact simulates_callClosure setting evaluators ⟨known, rfl⟩ args
  | native function => exact simulates_callNative setting evaluators hosts function.role args
  | _ => exact simulates_fail _

end Calls

section Objects

/-- Finding a class by name in corresponding scopes simulates itself. -/
theorem simulates_readClass {leftScope rightScope : Handle}
    (scope : pairs.SendsHandle leftScope rightScope) (name : Symbol) :
    Simulates lossy (fun renamed left right =>
        renamed.Sends (.classObject left) (.classObject right)) pairs
      (readClass setting leftScope name) (readClass setting rightScope name) := by
  refine (simulates_readName setting scope name).bind fun later extended left right value => ?_
  obtain ⟨known, rfl⟩ := value
  cases left with
  | classObject owner => exact simulates_pure ⟨known, rfl⟩
  | _ => exact simulates_fail _

/-- Checking the number of constructor arguments simulates itself. -/
theorem simulates_checkFieldCount {left right : ClassObject}
    (owner : pairs.Sends (.classObject left) (.classObject right)) (got : Nat) :
    Simulates lossy (fun _ _ _ => True) pairs (checkFieldCount setting left got)
      (checkFieldCount setting right got) := by
  obtain ⟨known, rfl⟩ := Renaming.sends_classObject_iff.1 owner
  unfold checkFieldCount
  by_cases tooMany : left.fields.length < got
  · rw [if_pos tooMany]
    exact (if_pos tooMany).symm ▸ simulates_fail _
  · rw [if_neg tooMany]
    exact (if_neg tooMany).symm ▸ simulates_pure trivial

/-- Expecting an object simulates itself on corresponding values. -/
theorem simulates_expectObject {left right : Value} (value : pairs.Sends left right) :
    Simulates lossy (fun renamed left right =>
        renamed.Sends (.object left) (.object right)) pairs
      (expectObject left) (expectObject right) := by
  obtain ⟨known, rfl⟩ := value
  cases left with
  | object receiver => exact simulates_pure ⟨known, rfl⟩
  | _ => exact simulates_fail _

/-- Reading a field of corresponding objects simulates itself. -/
theorem simulates_readField {left right : Object}
    (receiver : pairs.Sends (.object left) (.object right)) (name : Symbol) :
    Simulates lossy Renaming.Sends pairs (readField setting left name)
      (readField setting right name) := by
  obtain ⟨⟨storage, _, _⟩, rfl⟩ := Renaming.sends_object_iff.1 receiver
  have found : Simulates lossy (fun renamed => Option.Rel renamed.Sends) pairs
      (query (setting.scopeStop name) fun store => store.getOwn left.storage name)
      (query (setting.scopeStop name) fun store =>
        store.getOwn (left.rename pairs.image).storage name) :=
    simulates_query (fun _ => rfl) fun _ _ mirrors => mirrors.getOwn_agrees name ⟨storage, rfl⟩
  refine found.bind fun later extended leftFound rightFound both => ?_
  cases both with
  | none => exact simulates_fail _
  | some value => exact simulates_resolve setting value

/-- Finding a method of corresponding objects simulates itself. -/
theorem simulates_findMethod {left right : Object}
    (receiver : pairs.Sends (.object left) (.object right)) (name : Symbol) :
    Simulates lossy (fun renamed left right =>
        renamed.Sends (.function left) (.function right)) pairs
      (findMethod setting left name) (findMethod setting right name) := by
  obtain ⟨⟨_, _, methods⟩, rfl⟩ := Renaming.sends_object_iff.1 receiver
  simp only [findMethod, Object.rename, SymbolMap.get?_mapValues]
  cases found : left.methods.get? name with
  | none => exact simulates_fail _
  | some method =>
    refine simulates_pure (Renaming.sends_function_iff.2 ⟨?_, rfl⟩)
    exact methods method (SymbolMap.mem_values_of_get? found)

variable {leftEvaluate rightEvaluate : Evaluator}
  (evaluators : Evaluator.Simulates lossy leftEvaluate rightEvaluate)
include evaluators

/-- Evaluating omitted fields of corresponding classes simulates itself. -/
theorem simulates_omittedField {left right : ClassObject}
    (owner : pairs.Sends (.classObject left) (.classObject right))
    {leftStorage rightStorage : Handle} (storage : pairs.SendsHandle leftStorage rightStorage)
    (field : FieldDecl) :
    Simulates lossy Renaming.Sends pairs (omittedField leftEvaluate left leftStorage field)
      (omittedField rightEvaluate right rightStorage field) := by
  obtain ⟨known, rfl⟩ := Renaming.sends_classObject_iff.1 owner
  unfold omittedField
  cases field.default with
  | some default =>
    refine (simulates_allocate storage).bind fun later extended leftScope rightScope scope => ?_
    exact evaluators later _ _ (.node scope)
  | none =>
    refine simulates_pure (Renaming.sends_self ?_)
    rcases field.tag with _ | tag
    · rfl
    · cases tag <;> rfl

/-- Filling the fields of corresponding objects from corresponding arguments simulates itself. -/
theorem simulates_fillFields {left right : ClassObject}
    (owner : pairs.Sends (.classObject left) (.classObject right))
    {leftStorage rightStorage : Handle} (storage : pairs.SendsHandle leftStorage rightStorage)
    (fields : List FieldDecl) {lefts rights : List Value} (values : pairs.SendsAll lefts rights) :
    Simulates lossy (fun _ _ _ => True) pairs
      (fillFields setting leftEvaluate left leftStorage fields lefts)
      (fillFields setting rightEvaluate right rightStorage fields rights) := by
  induction fields generalizing pairs lefts rights with
  | nil =>
    rw [fillFields, fillFields]
    exact simulates_pure trivial
  | cons field fields ih =>
    obtain ⟨known, rfl⟩ := values
    cases lefts with
    | nil =>
      rw [List.map_nil, fillFields, fillFields]
      refine (simulates_omittedField evaluators owner storage field).bind
        fun later extended left right value => ?_
      refine (simulates_declare setting (storage.extend extended) field.name value).bind
        fun final more _ _ _ => ?_
      have further := more.trans extended
      exact ih (owner.extend further) (storage.extend further) .nil
    | cons leftValue lefts =>
      have all : pairs.SendsAll (leftValue :: lefts) ((leftValue :: lefts).map _) := ⟨known, rfl⟩
      rw [List.map_cons, fillFields, fillFields, Value.checkTag_rename]
      have checked : Simulates lossy (fun _ left right => left = right) pairs
          (ofResult (checkTag (setting.text field.name) field.tag leftValue))
          (ofResult (checkTag (setting.text field.name) field.tag leftValue)) :=
        simulates_ofResult (.of_self fun _ _ => rfl)
      refine checked.bind fun later extended _ _ _ => ?_
      refine (simulates_declare setting (storage.extend extended) field.name
        (all.head.extend extended)).bind fun final more _ _ _ => ?_
      have further := more.trans extended
      exact ih (owner.extend further) (storage.extend further) (all.tail.extend further)

/-- Making objects of corresponding classes from corresponding arguments simulates itself. -/
theorem simulates_makeObject {left right : ClassObject}
    (owner : pairs.Sends (.classObject left) (.classObject right)) {lefts rights : List Value}
    (values : pairs.SendsAll lefts rights) :
    Simulates lossy Renaming.Sends pairs (makeObject setting leftEvaluate left lefts)
      (makeObject setting rightEvaluate right rights) := by
  obtain ⟨known, rfl⟩ := Renaming.sends_classObject_iff.1 owner
  refine (simulates_allocate ⟨known, rfl⟩).bind
    fun later extended leftStorage rightStorage storage => ?_
  refine (simulates_fillFields setting evaluators (owner.extend extended) storage left.fields
    (values.extend extended)).bind fun filled more _ _ _ => ?_
  refine (simulates_existing (setting.program? left.program)).bind
    fun final last code _ same => simulates_pure ?_
  subst same
  have further := last.trans more
  obtain ⟨ownerKnown, ownerEq⟩ :=
    Renaming.sends_classObject_iff.1 (owner.extend (further.trans extended))
  obtain ⟨storageKnown, rfl⟩ := storage.extend further
  rw [ownerEq]
  refine Renaming.sends_object_iff.2 ⟨⟨storageKnown, ownerKnown, ?_⟩, ?_⟩
  · intro method held
    rw [SymbolMap.values_mapValues] at held
    obtain ⟨declared, _, rfl⟩ := List.mem_map.1 held
    exact storageKnown
  · simp only [Object.rename, ClassObject.rename, SymbolMap.mapValues, List.map_map]
    rfl

end Objects

end Eval

end ScopeMachine
