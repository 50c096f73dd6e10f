import ScopeMachine.Syntax.Program

/-!
# Forms and drafts

A form is one node in the words of the source: names are texts, lists are lists, and the children
are of any type. A form whose children are node positions can be added to a draft, which enters its
texts in the symbol table, appends its lists to the side tables and allocates exactly one node. A
draft never changes what it already holds.
-/

namespace ScopeMachine

/-- Field of a class in the words of the source. -/
structure FieldForm (α : Type) where
  /-- Name of the field. -/
  name : String
  /-- Annotation, if any. -/
  tag : Option TypeTag
  /-- Expression for the value of an omitted argument, if any. -/
  default : Option α

/-- Method of a class in the words of the source. -/
structure MethodForm (α : Type) where
  /-- Name of the method. -/
  name : String
  /-- Names of its parameters. -/
  params : List String
  /-- Its body. -/
  body : α

/-- One node in the words of the source, with children of type `α`. -/
inductive Form (α : Type) where
  /-- Integer literal. -/
  | int (value : Int64)
  /-- Float literal, by its 64-bit encoding. -/
  | float (bits : UInt64)
  /-- Boolean literal. -/
  | bool (value : Bool)
  /-- String literal. -/
  | string (text : String)
  /-- Reading of a name. -/
  | read (name : String)
  /-- Binary operation. -/
  | binary (op : BinaryOp) (left right : α)
  /-- Choice of a branch. -/
  | branch (condition thenBranch : α) (elseBranch : Option α)
  /-- Sequence in a scope of its own. -/
  | block (body : List α)
  /-- Declaration of a name. -/
  | declare (name : String) (tag : Option TypeTag) (value : α)
  /-- Assignment to a declared name. -/
  | assign (name : String) (value : α)
  /-- Declaration of a named function. -/
  | function (name : String) (params : List String) (body : α)
  /-- Call of a function by name. -/
  | call (callee : String) (args : List α)
  /-- Declaration of a class. -/
  | classDecl (name : String) (fields : List (FieldForm α)) (methods : List (MethodForm α))
  /-- Construction of an object. -/
  | construct (owner : String) (args : List α)
  /-- Call of a method. -/
  | methodCall (receiver : α) (method : String) (args : List α)
  /-- Reading of a field. -/
  | field (receiver : α) (name : String)
  /-- Array of elements. -/
  | array (elements : List α)
  /-- Element of an array. -/
  | index (receiver position : α)
  /-- Unnamed function of one parameter. -/
  | lambda (param : String) (body : α)
  /-- Reference to the variable that a name stands for. -/
  | reference (name : String)
  /-- Assignment through the reference that a name holds. -/
  | assignThrough (name : String) (value : α)

/-- Program under construction with the symbol table that its names are entered in. -/
structure Draft where
  /-- Texts entered so far. -/
  symbols : SymbolTable
  /-- Tables built so far. -/
  program : Program

namespace Draft

/-- Draft of an empty program over a symbol table. -/
def start (symbols : SymbolTable) : Draft := ⟨symbols, Program.empty⟩

/-- Enters a text. -/
def name (text : String) : StateM Draft Symbol := fun draft =>
  let (symbol, symbols) := draft.symbols.intern text
  (symbol, { draft with symbols })

/-- Enters several texts from left to right. -/
def names (texts : List String) : StateM Draft (List Symbol) := fun draft =>
  let (entered, symbols) := draft.symbols.internAll texts
  (entered, { draft with symbols })

/-- Appends a child list. -/
def list (ids : List NodeId) : StateM Draft NodeRange := fun draft =>
  let (range, program) := draft.program.addList ids
  (range, { draft with program })

/-- Enters parameter names and appends them as a parameter list. -/
def params (texts : List String) : StateM Draft ParamRange := do
  let symbols ← names texts
  fun draft =>
    let (range, program) := draft.program.addParams symbols
    (range, { draft with program })

/-- Enters the names of fields. -/
def fields : List (FieldForm NodeId) → StateM Draft (List FieldDecl)
  | [] => pure []
  | form :: rest => do
    let symbol ← name form.name
    let decls ← fields rest
    pure (⟨symbol, form.tag, form.default⟩ :: decls)

/-- Enters, method by method, the name and then the parameters. -/
def methods : List (MethodForm NodeId) → StateM Draft (List MethodDecl)
  | [] => pure []
  | form :: rest => do
    let symbol ← name form.name
    let range ← params form.params
    let decls ← methods rest
    pure (⟨symbol, range, form.body⟩ :: decls)

/-- Enters the texts and lists of a form in the order in which the form writes them. -/
def kind (span : Span) : Form NodeId → StateM Draft NodeKind
  | .int value => pure (.int value)
  | .float bits => pure (.float bits)
  | .bool value => pure (.bool value)
  | .string text => do
    let symbol ← name text
    pure (.string symbol)
  | .read text => do
    let symbol ← name text
    pure (.read symbol)
  | .binary op left right => pure (.binary op left right)
  | .branch condition thenBranch elseBranch => pure (.branch condition thenBranch elseBranch)
  | .block body => do
    let range ← list body
    pure (.block range)
  | .declare text tag value => do
    let symbol ← name text
    pure (.declare symbol tag value)
  | .assign text value => do
    let symbol ← name text
    pure (.assign symbol value)
  | .function text texts body => do
    let symbol ← name text
    let range ← params texts
    pure (.function symbol range body)
  | .call text args => do
    let symbol ← name text
    let range ← list args
    pure (.call symbol range)
  | .classDecl text fieldForms methodForms => do
    let symbol ← name text
    let fieldDecls ← fields fieldForms
    let methodDecls ← methods methodForms
    fun draft =>
      let (id, program) := draft.program.addClass ⟨symbol, fieldDecls, methodDecls, span⟩
      (.classDecl id, { draft with program })
  | .construct text args => do
    let symbol ← name text
    let range ← list args
    pure (.construct symbol range)
  | .methodCall receiver text args => do
    let symbol ← name text
    let range ← list args
    pure (.methodCall receiver symbol range)
  | .field receiver text => do
    let symbol ← name text
    pure (.field receiver symbol)
  | .array elements => do
    let range ← list elements
    pure (.array range)
  | .index receiver position => pure (.index receiver position)
  | .lambda text body => do
    let symbol ← name text
    pure (.lambda symbol body)
  | .reference text => do
    let symbol ← name text
    pure (.reference symbol)
  | .assignThrough text value => do
    let symbol ← name text
    pure (.assignThrough symbol value)

/-- Adds one node of a given form and span and returns its position. -/
def add (span : Span) (form : Form NodeId) : StateM Draft NodeId := do
  let kind ← kind span form
  fun draft =>
    let (id, program) := draft.program.addNode ⟨kind, span⟩
    (id, { draft with program })

end Draft

end ScopeMachine
