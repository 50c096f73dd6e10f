import ScopeMachine.Evaluation.Call
import ScopeMachine.Evaluation.Reference

/-!
# Classes and objects

An object keeps its fields in a storage scope inside the scope of its class. Constructor arguments
fill the fields in order; an omitted field takes its default, evaluated in a scope of its own inside
the storage so that nothing the default declares becomes a field, or else the default of its
annotation. Methods are functions that close over the storage.
-/

namespace ScopeMachine.Eval

/-- Value of an omitted field. -/
def omittedField (evaluate : Evaluator) (owner : ClassObject) (storage : Handle)
    (field : FieldDecl) : Eval Value :=
  match field.default with
  | some default => do
    let scope ← allocate (some storage)
    evaluate (.node owner.program default scope)
  | none => pure (.blankFor field.tag)

/-- Fills fields in order, from the arguments as long as there are any. -/
def fillFields (setting : Setting) (evaluate : Evaluator) (owner : ClassObject) (storage : Handle) :
    List FieldDecl → List Value → Eval Unit
  | [], _ => pure ()
  | field :: fields, value :: values => do
    ofResult (checkTag (setting.text field.name) field.tag value)
    declare setting storage field.name value
    fillFields setting evaluate owner storage fields values
  | field :: fields, [] => do
    let value ← omittedField evaluate owner storage field
    declare setting storage field.name value
    fillFields setting evaluate owner storage fields []

/-- Method of a class bound to a storage. -/
def bindMethod (code : Program) (owner : ClassObject) (storage : Handle) (method : MethodDecl) :
    Closure :=
  { name := some method.name
    params := code.paramList method.params
    body := method.body
    scope := storage
    program := owner.program }

/-- Makes an object of a class from evaluated arguments. -/
def makeObject (setting : Setting) (evaluate : Evaluator) (owner : ClassObject)
    (values : List Value) : Eval Value := do
  let storage ← allocate (some owner.scope)
  fillFields setting evaluate owner storage owner.fields values
  let code ← existing (setting.program? owner.program)
  pure (.object ⟨owner, storage, owner.methods.mapValues (bindMethod code owner storage)⟩)

/-- Class that a name stands for. -/
def readClass (setting : Setting) (scope : Handle) (name : Symbol) : Eval ClassObject := do
  match ← readName setting scope name with
  | .classObject owner => pure owner
  | other => fail (.wrongKind "class" other.kindName)

/-- Refuses more arguments than a class has fields. -/
def checkFieldCount (setting : Setting) (owner : ClassObject) (got : Nat) : Eval Unit :=
  if owner.fields.length < got then
    fail (.tooManyFieldValues (setting.text owner.name) owner.fields.length got)
  else
    pure ()

/-- Refuses a value that is no object. -/
def expectObject : Value → Eval Object
  | .object value => pure value
  | other => fail (.wrongKind "instance" other.kindName)

/-- Value of a field of an object with references followed. -/
def readField (setting : Setting) (receiver : Object) (name : Symbol) : Eval Value := do
  let found ← query (setting.scopeStop name) fun store => store.getOwn receiver.storage name
  match found with
  | some value => resolve setting value
  | none => fail (.noSuchField (setting.text name) (setting.text receiver.owner.name))

/-- Method of an object. -/
def findMethod (setting : Setting) (receiver : Object) (name : Symbol) :
    Eval Closure :=
  match receiver.methods.get? name with
  | some method => pure method
  | none => fail (.noSuchMethod (setting.text name) (setting.text receiver.owner.name))

end ScopeMachine.Eval
