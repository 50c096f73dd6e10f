import ScopeMachine.Proofs.Symbol.Table
import ScopeMachine.Proofs.Syntax.Closed

/-!
# Reading programs back

From a draft one reads the form of a node back: texts from the symbol table, children and parameters
from the side tables, and the members of a class from its declaration. A reading fails when something
is missing: a symbol under which no text is entered, a range that its table does not reach, a
declaration that is not there or has another span than its node.

What can be read from a draft is read alike from every draft that it grows into. Adding a form to a
draft makes a node from which the form is read back.
-/

namespace ScopeMachine

/-- What the first reading gives, the second gives too. -/
def Confirms {α : Type} (first second : Option α) : Prop :=
  ∀ value, first = some value → second = some value

namespace Confirms

variable {α β : Type} {first second : Option α}

/-- A reading confirms itself. -/
theorem refl (reading : Option α) : Confirms reading reading := fun _ found => found

/-- Confirmation composes. -/
theorem trans {third : Option α} (earlier : Confirms first second) (later : Confirms second third) :
    Confirms first third :=
  fun value found => later value (earlier value found)

/-- Readings one after the other confirm each other part by part. -/
theorem bind {next later : α → Option β} (opening : Confirms first second)
    (rest : ∀ value, Confirms (next value) (later value)) :
    Confirms (first >>= next) (second >>= later) := by
  intro result found
  obtain ⟨value, begun, ended⟩ := Option.bind_eq_some_iff.1 found
  exact Option.bind_eq_some_iff.2 ⟨value, opening value begun, rest value result ended⟩

/-- Readings of lists confirm each other member by member. -/
theorem mapM {read reread : α → Option β} (each : ∀ item, Confirms (read item) (reread item))
    (items : List α) : Confirms (items.mapM read) (items.mapM reread) := by
  induction items with
  | nil => exact refl _
  | cons item items ih =>
    rw [List.mapM_cons, List.mapM_cons]
    exact (each item).bind fun _ => ih.bind fun _ => refl _

/-- A list that is read is read with one more member. -/
theorem mapM_concat {read reread : α → Option β} (each : ∀ item, Confirms (read item) (reread item))
    {items : List α} {forms : List β} (found : items.mapM read = some forms) {item : α} {form : β}
    (last : reread item = some form) :
    (items ++ [item]).mapM reread = some (forms ++ [form]) := by
  rw [List.mapM_append, Confirms.mapM each items forms found, List.mapM_cons, last]
  rfl

end Confirms

/-- What each member of a list has in common with what is read for it, the whole list has. -/
theorem map_eq_of_mapM {α β γ : Type} {read : α → Option β} {first : α → γ} {second : β → γ}
    (each : ∀ item form, read item = some form → first item = second form) {items : List α}
    {forms : List β} (found : items.mapM read = some forms) :
    items.map first = forms.map second := by
  induction items generalizing forms with
  | nil =>
    cases found
    rfl
  | cons item items ih =>
    rw [List.mapM_cons] at found
    obtain ⟨form, head, rest⟩ := Option.bind_eq_some_iff.1 found
    obtain ⟨others, tail, same⟩ := Option.bind_eq_some_iff.1 rest
    cases same
    rw [List.map_cons, List.map_cons, each item form head, ih tail]

namespace SymbolTable

/-- Text that is entered under a symbol: the symbol has the text, and the text leads to the symbol. -/
def entered? (table : SymbolTable) (symbol : Symbol) : Option String :=
  table.texts[symbol.index]?.filter fun text => table.find? text = some symbol

/-- A text is entered under the symbol that is found for it. -/
theorem entered?_eq_some_iff {table : SymbolTable} {symbol : Symbol} {text : String} :
    table.entered? symbol = some text ↔ table.find? text = some symbol := by
  rw [entered?, Option.filter_eq_some_iff]
  constructor
  · rintro ⟨_, found⟩
    exact of_decide_eq_true found
  · intro found
    exact ⟨table.sound text symbol found, decide_eq_true found⟩

/-- Entering a text keeps what is entered. -/
theorem confirms_intern (table : SymbolTable) (text : String) (symbol : Symbol) :
    Confirms (table.entered? symbol) ((table.intern text).2.entered? symbol) := by
  intro held entered
  have found := entered?_eq_some_iff.1 entered
  refine entered?_eq_some_iff.2 ?_
  unfold SymbolTable.intern
  split
  · exact found
  · next absent =>
    -- the text is new, so it is not the one that was found
    have different : (held == text) = false := by
      rw [beq_eq_false_iff_ne]
      rintro rfl
      exact nomatch absent.symm.trans found
    rw [find?, enter, List.lookup_cons, different]
    exact found

/-- A text that has been entered is read back. -/
theorem entered?_intern (table : SymbolTable) (text : String) :
    (table.intern text).2.entered? (table.intern text).1 = some text := by
  rw [entered?_eq_some_iff]
  unfold SymbolTable.intern
  split
  · next found => exact found
  · rw [find?, enter, List.lookup_cons, beq_self_eq_true]

/-- Entering texts keeps what is entered. -/
theorem confirms_internAll (table : SymbolTable) (texts : List String) (symbol : Symbol) :
    Confirms (table.entered? symbol) ((table.internAll texts).2.entered? symbol) := by
  induction texts generalizing table with
  | nil => exact .refl _
  | cons text texts ih => exact (table.confirms_intern text symbol).trans (ih _)

/-- Texts that have been entered are read back in their order. -/
theorem mapM_entered?_internAll (table : SymbolTable) (texts : List String) :
    (table.internAll texts).1.mapM (table.internAll texts).2.entered? = some texts := by
  induction texts generalizing table with
  | nil => rfl
  | cons text texts ih =>
    have first : (table.internAll (text :: texts)).2.entered? (table.intern text).1 = some text :=
      confirms_internAll _ texts _ _ (table.entered?_intern text)
    have rest := ih (table.intern text).2
    change ((table.intern text).1 :: ((table.intern text).2.internAll texts).1).mapM _ = _
    rw [List.mapM_cons, first]
    change ((((table.intern text).2.internAll texts).1.mapM
      ((table.intern text).2.internAll texts).2.entered?) >>= _) = _
    rw [rest]
    rfl

end SymbolTable

namespace Program

/-- Nodes of a range, if the table of lists reaches that far. -/
def listAt? (program : Program) (range : NodeRange) : Option (List NodeId) :=
  if program.HasList range then some (program.nodeList range) else none

/-- Parameters of a range, if the table of parameters reaches that far. -/
def paramsAt? (program : Program) (range : ParamRange) : Option (List Symbol) :=
  if program.HasParams range then some (program.paramList range) else none

/-- A list that is read is the one of its range. -/
theorem nodeList_of_listAt? {program : Program} {range : NodeRange} {ids : List NodeId}
    (read : program.listAt? range = some ids) : program.nodeList range = ids := by
  unfold listAt? at read
  split at read
  · exact Option.some.inj read
  · cases read

/-- A stretch that an array reaches is read alike after a list has been appended. -/
theorem confirms_appendList {α : Type} (array : Array α) (list : List α) (start length : Nat) :
    Confirms
      (if start + length ≤ array.size then
        some (array.extract start (start + length)).toList else none)
      (if start + length ≤ (array ++ list).size then
        some ((array ++ list).extract start (start + length)).toList else none) := by
  intro found read
  have size := size_appendList array list
  by_cases reached : start + length ≤ array.size
  · rw [if_pos reached] at read
    rw [if_pos (by omega), ← read]
    apply congrArg some
    apply List.ext_getElem?
    intro position
    rw [Array.getElem?_toList, Array.getElem?_toList, Array.getElem?_extract,
      Array.getElem?_extract, size]
    by_cases within : position < length
    · have below : start + position < array.toList.length := by
        rw [Array.length_toList]
        omega
      rw [if_pos (by omega), if_pos (by omega), ← Array.getElem?_toList, Array.toList_appendList,
        List.getElem?_append_left below, Array.getElem?_toList]
    · rw [if_neg (by omega), if_neg (by omega)]
  · rw [if_neg reached] at read
    cases read

/-- What can be read of the first program can be read of the second. -/
structure Keeps (earlier later : Program) : Prop where
  /-- Nodes. -/
  node : ∀ id, Confirms (earlier.node? id) (later.node? id)
  /-- Child lists. -/
  list : ∀ range, Confirms (earlier.listAt? range) (later.listAt? range)
  /-- Parameter lists. -/
  params : ∀ range, Confirms (earlier.paramsAt? range) (later.paramsAt? range)
  /-- Class declarations. -/
  classDecl : ∀ id, Confirms (earlier.classDecl? id) (later.classDecl? id)

/-- A program keeps what it has. -/
theorem Keeps.refl (program : Program) : program.Keeps program :=
  ⟨fun _ => .refl _, fun _ => .refl _, fun _ => .refl _, fun _ => .refl _⟩

/-- Keeping composes. -/
theorem Keeps.trans {first second third : Program} (earlier : first.Keeps second)
    (later : second.Keeps third) : first.Keeps third where
  node := fun id => (earlier.node id).trans (later.node id)
  list := fun range => (earlier.list range).trans (later.list range)
  params := fun range => (earlier.params range).trans (later.params range)
  classDecl := fun id => (earlier.classDecl id).trans (later.classDecl id)

/-- What an array holds it holds after a push. -/
theorem confirms_push {α : Type} (array : Array α) (item : α) (index : Nat) :
    Confirms array[index]? (array.push item)[index]? := by
  intro value found
  obtain ⟨inside, same⟩ := Array.getElem?_eq_some_iff.1 found
  rw [Array.getElem?_push_lt inside, same]

section Adding

variable (program : Program)

/-- Adding a node keeps what can be read. -/
theorem keeps_addNode (node : Node) : program.Keeps (program.addNode node).2 :=
  { Keeps.refl program with node := fun id => confirms_push program.nodes node id.index }

/-- Adding a class declaration keeps what can be read. -/
theorem keeps_addClass (decl : ClassDecl) : program.Keeps (program.addClass decl).2 :=
  { Keeps.refl program with classDecl := fun id => confirms_push program.classes decl id.index }

/-- Adding a child list keeps what can be read. -/
theorem keeps_addList (ids : List NodeId) : program.Keeps (program.addList ids).2 :=
  { Keeps.refl program with
    list := fun range => confirms_appendList program.lists ids range.start range.length }

/-- Adding a parameter list keeps what can be read. -/
theorem keeps_addParams (names : List Symbol) : program.Keeps (program.addParams names).2 :=
  { Keeps.refl program with
    params := fun range => confirms_appendList program.params names range.start range.length }

/-- A child list that has been added is read back. -/
theorem listAt?_addList (ids : List NodeId) :
    (program.addList ids).2.listAt? (program.addList ids).1 = some ids := by
  have has : (program.addList ids).2.HasList (program.addList ids).1 := by
    simp [HasList, addList, size_appendList]
  rw [listAt?, if_pos has, nodeList_addList]

/-- A parameter list that has been added is read back. -/
theorem paramsAt?_addParams (names : List Symbol) :
    (program.addParams names).2.paramsAt? (program.addParams names).1 = some names := by
  have has : (program.addParams names).2.HasParams (program.addParams names).1 := by
    simp [HasParams, addParams, size_appendList]
  rw [paramsAt?, if_pos has, paramList_addParams]

end Adding

/-- Positions that a node mentions: its own children, the members of its list, and the defaults and
bodies of its class. -/
def mentions (program : Program) : NodeKind → List NodeId
  | .int _ | .float _ | .bool _ | .string _ | .read _ | .reference _ => []
  | .binary _ left right | .index left right => [left, right]
  | .branch condition thenBranch elseBranch => condition :: thenBranch :: elseBranch.toList
  | .block range | .call _ range | .construct _ range | .array range => program.nodeList range
  | .declare _ _ value | .assign _ value | .function _ _ value | .lambda _ value
  | .assignThrough _ value | .field value _ => [value]
  | .classDecl id =>
    (program.classDecl? id).elim [] fun decl =>
      decl.fields.flatMap (fun field => field.default.toList) ++ decl.methods.map MethodDecl.body
  | .methodCall receiver _ args => receiver :: program.nodeList args

end Program

/-- A node mentions another. -/
def Program.HasChild (program : Program) (parent child : NodeId) : Prop :=
  ∃ node, program.node? parent = some node ∧ child ∈ program.mentions node.kind

namespace Draft

section Readers

variable (draft : Draft)

/-- Text of a symbol. -/
def text? (symbol : Symbol) : Option String := draft.symbols.entered? symbol

/-- Texts of the parameters of a range. -/
def texts? (range : ParamRange) : Option (List String) := do
  let symbols ← draft.program.paramsAt? range
  symbols.mapM draft.text?

/-- Field of a class as it was written. -/
def fieldForm? (decl : FieldDecl) : Option (FieldForm NodeId) := do
  let name ← draft.text? decl.name
  some ⟨name, decl.tag, decl.default⟩

/-- Method of a class as it was written. -/
def methodForm? (decl : MethodDecl) : Option (MethodForm NodeId) := do
  let name ← draft.text? decl.name
  let params ← draft.texts? decl.params
  some ⟨name, params, decl.body⟩

/-- Class declaration as it was written, if it has the span. -/
def classForm? (span : Span) (decl : ClassDecl) : Option (Form NodeId) :=
  if decl.span = span then do
    let name ← draft.text? decl.name
    let fields ← decl.fields.mapM draft.fieldForm?
    let methods ← decl.methods.mapM draft.methodForm?
    some (.classDecl name fields methods)
  else none

/-- Form of a node with a span. -/
def form? (span : Span) : NodeKind → Option (Form NodeId)
  | .int value => some (.int value)
  | .float bits => some (.float bits)
  | .bool value => some (.bool value)
  | .string symbol => do
    let text ← draft.text? symbol
    some (.string text)
  | .read symbol => do
    let name ← draft.text? symbol
    some (.read name)
  | .binary op left right => some (.binary op left right)
  | .branch condition thenBranch elseBranch => some (.branch condition thenBranch elseBranch)
  | .block range => do
    let body ← draft.program.listAt? range
    some (.block body)
  | .declare symbol tag value => do
    let name ← draft.text? symbol
    some (.declare name tag value)
  | .assign symbol value => do
    let name ← draft.text? symbol
    some (.assign name value)
  | .function symbol range body => do
    let name ← draft.text? symbol
    let params ← draft.texts? range
    some (.function name params body)
  | .call symbol range => do
    let callee ← draft.text? symbol
    let args ← draft.program.listAt? range
    some (.call callee args)
  | .classDecl id => do
    let decl ← draft.program.classDecl? id
    draft.classForm? span decl
  | .construct symbol range => do
    let owner ← draft.text? symbol
    let args ← draft.program.listAt? range
    some (.construct owner args)
  | .methodCall receiver symbol range => do
    let method ← draft.text? symbol
    let args ← draft.program.listAt? range
    some (.methodCall receiver method args)
  | .field receiver symbol => do
    let name ← draft.text? symbol
    some (.field receiver name)
  | .array range => do
    let elements ← draft.program.listAt? range
    some (.array elements)
  | .index receiver position => some (.index receiver position)
  | .lambda symbol body => do
    let param ← draft.text? symbol
    some (.lambda param body)
  | .reference symbol => do
    let name ← draft.text? symbol
    some (.reference name)
  | .assignThrough symbol value => do
    let name ← draft.text? symbol
    some (.assignThrough name value)

/-- Span and form of the node at a position. -/
def read? (id : NodeId) : Option (Span × Form NodeId) := do
  let node ← draft.program.node? id
  let form ← draft.form? node.span node.kind
  some (node.span, form)

end Readers

section Parts

variable {draft : Draft}

/-- A field is read back from its name. -/
theorem fieldForm?_of_text? {symbol : Symbol} {form : FieldForm NodeId}
    (named : draft.text? symbol = some form.name) :
    draft.fieldForm? ⟨symbol, form.tag, form.default⟩ = some form := by
  simp only [fieldForm?, named]
  rfl

/-- A method is read back from its name and its parameters. -/
theorem methodForm?_of_text? {symbol : Symbol} {range : ParamRange} {form : MethodForm NodeId}
    (named : draft.text? symbol = some form.name) (params : draft.texts? range = some form.params) :
    draft.methodForm? ⟨symbol, range, form.body⟩ = some form := by
  simp only [methodForm?, named, params]
  rfl

/-- The node of a class is read back from the parts of the declaration. -/
theorem form?_classDecl {id : ClassId} {decl : ClassDecl} {name : String}
    {fields : List (FieldForm NodeId)} {methods : List (MethodForm NodeId)}
    (found : draft.program.classDecl? id = some decl) (named : draft.text? decl.name = some name)
    (readFields : decl.fields.mapM draft.fieldForm? = some fields)
    (readMethods : decl.methods.mapM draft.methodForm? = some methods) :
    draft.form? decl.span (.classDecl id) = some (.classDecl name fields methods) := by
  simp only [form?, found, Option.bind_eq_bind, Option.bind_some, classForm?, if_true, named,
    readFields, readMethods]

end Parts

/-- What can be read of the first draft can be read of the second. -/
structure Keeps (earlier later : Draft) : Prop where
  /-- Texts of symbols. -/
  text : ∀ symbol, Confirms (earlier.text? symbol) (later.text? symbol)
  /-- Tables of the program. -/
  program : earlier.program.Keeps later.program

namespace Keeps

/-- A draft keeps what it has. -/
theorem refl (draft : Draft) : draft.Keeps draft := ⟨fun _ => .refl _, .refl _⟩

/-- Keeping composes. -/
theorem trans {first second third : Draft} (earlier : first.Keeps second)
    (later : second.Keeps third) : first.Keeps third :=
  ⟨fun symbol => (earlier.text symbol).trans (later.text symbol),
    earlier.program.trans later.program⟩

variable {draft later : Draft} (keeps : draft.Keeps later)
include keeps

/-- Parameters are kept. -/
theorem texts (range : ParamRange) : Confirms (draft.texts? range) (later.texts? range) :=
  (keeps.program.params range).bind fun symbols => Confirms.mapM keeps.text symbols

/-- Fields are kept. -/
theorem fieldForm (decl : FieldDecl) : Confirms (draft.fieldForm? decl) (later.fieldForm? decl) :=
  (keeps.text decl.name).bind fun _ => .refl _

/-- Methods are kept. -/
theorem methodForm (decl : MethodDecl) :
    Confirms (draft.methodForm? decl) (later.methodForm? decl) :=
  (keeps.text decl.name).bind fun _ => (keeps.texts decl.params).bind fun _ => .refl _

/-- Class declarations are kept. -/
theorem classForm (span : Span) (decl : ClassDecl) :
    Confirms (draft.classForm? span decl) (later.classForm? span decl) := by
  unfold classForm?
  by_cases same : decl.span = span
  · rw [if_pos same, if_pos same]
    exact (keeps.text decl.name).bind fun _ =>
      (Confirms.mapM keeps.fieldForm decl.fields).bind fun _ =>
        (Confirms.mapM keeps.methodForm decl.methods).bind fun _ => .refl _
  · rw [if_neg same, if_neg same]
    exact .refl _

/-- Forms are kept. -/
theorem form (span : Span) (kind : NodeKind) :
    Confirms (draft.form? span kind) (later.form? span kind) := by
  cases kind with
  | int | float | bool | binary | branch | index => exact .refl _
  | string symbol | read symbol | declare symbol | assign symbol | lambda symbol
  | reference symbol | assignThrough symbol | field _ symbol =>
    exact (keeps.text symbol).bind fun _ => .refl _
  | block range | array range => exact (keeps.program.list range).bind fun _ => .refl _
  | function symbol range =>
    exact (keeps.text symbol).bind fun _ => (keeps.texts range).bind fun _ => .refl _
  | call symbol range | construct symbol range | methodCall _ symbol range =>
    exact (keeps.text symbol).bind fun _ => (keeps.program.list range).bind fun _ => .refl _
  | classDecl id => exact (keeps.program.classDecl id).bind (keeps.classForm span)

/-- Nodes are read alike. -/
theorem read (id : NodeId) : Confirms (draft.read? id) (later.read? id) :=
  (keeps.program.node id).bind fun node => (keeps.form node.span node.kind).bind fun _ => .refl _

end Keeps

/-- A class declaration mentions the children of its form. -/
theorem children_of_classForm? {draft : Draft} {span : Span} {decl : ClassDecl} {form : Form NodeId}
    (read : draft.classForm? span decl = some form) :
    decl.fields.flatMap (fun field => field.default.toList) ++ decl.methods.map MethodDecl.body =
      form.children := by
  unfold classForm? at read
  split at read
  · obtain ⟨name, _, rest⟩ := Option.bind_eq_some_iff.1 read
    obtain ⟨fields, fieldsRead, rest⟩ := Option.bind_eq_some_iff.1 rest
    obtain ⟨methods, methodsRead, same⟩ := Option.bind_eq_some_iff.1 rest
    cases same
    have defaults : decl.fields.map (fun field => field.default.toList) =
        fields.map fun field => field.default.toList := by
      refine map_eq_of_mapM (fun field form read => ?_) fieldsRead
      obtain ⟨_, _, same⟩ := Option.bind_eq_some_iff.1 read
      cases same
      rfl
    have bodies : decl.methods.map MethodDecl.body = methods.map MethodForm.body := by
      refine map_eq_of_mapM (fun method form read => ?_) methodsRead
      obtain ⟨_, _, rest⟩ := Option.bind_eq_some_iff.1 read
      obtain ⟨_, _, same⟩ := Option.bind_eq_some_iff.1 rest
      cases same
      rfl
    rw [List.flatMap_def, defaults, bodies, ← List.flatMap_def, Form.children]
  · cases read

/-- A node mentions the children of its form. -/
theorem mentions_of_form? {draft : Draft} {span : Span} {kind : NodeKind} {form : Form NodeId}
    (read : draft.form? span kind = some form) : draft.program.mentions kind = form.children := by
  cases kind with
  | int | float | bool | binary | branch | index =>
    cases read
    rfl
  | string | read | declare | assign | lambda | reference | assignThrough | field =>
    obtain ⟨_, _, same⟩ := Option.bind_eq_some_iff.1 read
    cases same
    rfl
  | block | array =>
    obtain ⟨ids, listed, same⟩ := Option.bind_eq_some_iff.1 read
    cases same
    exact Program.nodeList_of_listAt? listed
  | function =>
    obtain ⟨_, _, rest⟩ := Option.bind_eq_some_iff.1 read
    obtain ⟨_, _, same⟩ := Option.bind_eq_some_iff.1 rest
    cases same
    rfl
  | call | construct =>
    obtain ⟨_, _, rest⟩ := Option.bind_eq_some_iff.1 read
    obtain ⟨ids, listed, same⟩ := Option.bind_eq_some_iff.1 rest
    cases same
    exact Program.nodeList_of_listAt? listed
  | methodCall receiver =>
    obtain ⟨_, _, rest⟩ := Option.bind_eq_some_iff.1 read
    obtain ⟨ids, listed, same⟩ := Option.bind_eq_some_iff.1 rest
    cases same
    exact congrArg (receiver :: ·) (Program.nodeList_of_listAt? listed)
  | classDecl id =>
    obtain ⟨decl, found, rest⟩ := Option.bind_eq_some_iff.1 read
    rw [Program.mentions, found, Option.elim_some]
    exact children_of_classForm? rest

/-- The action adds no node and keeps what can be read, and its result can be read afterwards. -/
structure Writes {α : Type} (action : StateM Draft α) (draft : Draft)
    (shown : Draft → α → Prop) : Prop where
  /-- What could be read before can be read afterwards. -/
  keeps : draft.Keeps (action.run draft).2
  /-- The nodes are the same. -/
  nodes : (action.run draft).2.program.nodes = draft.program.nodes
  /-- The result can be read. -/
  shown : shown (action.run draft).2 (action.run draft).1

section Actions

variable {α β : Type} {draft : Draft}

/-- A result that can be read needs no action. -/
theorem writes_pure {shown : Draft → α → Prop} {value : α} (fits : shown draft value) :
    Writes (pure value) draft shown :=
  ⟨.refl draft, rfl, fits⟩

/-- Actions write one after the other. -/
theorem Writes.bind {first : StateM Draft α} {next : α → StateM Draft β}
    {shown : Draft → α → Prop} {after : Draft → β → Prop} (opening : Writes first draft shown)
    (rest : ∀ value middle, draft.Keeps middle → shown middle value →
      Writes (next value) middle after) :
    Writes (first >>= next) draft after := by
  have continued := rest (first.run draft).1 (first.run draft).2 opening.keeps opening.shown
  exact ⟨opening.keeps.trans continued.keeps, continued.nodes.trans opening.nodes,
    continued.shown⟩

/-- A text that is entered is read under its symbol. -/
theorem writes_name (draft : Draft) (text : String) :
    Writes (name text) draft fun later symbol => later.text? symbol = some text where
  keeps := ⟨draft.symbols.confirms_intern text, .refl _⟩
  nodes := rfl
  shown := draft.symbols.entered?_intern text

/-- A child list that is appended is read in its range. -/
theorem writes_list (draft : Draft) (ids : List NodeId) :
    Writes (list ids) draft fun later range => later.program.listAt? range = some ids where
  keeps := ⟨fun _ => .refl _, draft.program.keeps_addList ids⟩
  nodes := rfl
  shown := draft.program.listAt?_addList ids

/-- Parameters that are appended are read in their range. -/
theorem writes_params (draft : Draft) (texts : List String) :
    Writes (params texts) draft fun later range => later.texts? range = some texts where
  keeps := ⟨draft.symbols.confirms_internAll texts, draft.program.keeps_addParams _⟩
  nodes := rfl
  shown := by
    change (((draft.program.addParams _).2.paramsAt? (draft.program.addParams _).1) >>= fun symbols =>
      symbols.mapM (draft.symbols.internAll texts).2.entered?) = _
    rw [Program.paramsAt?_addParams]
    exact draft.symbols.mapM_entered?_internAll texts

/-- Entering the texts and lists of a form gives a kind from which the form is read. A class
declaration comes about by more than one call, and is left to its builder. -/
theorem writes_kind (draft : Draft) (span : Span) {form : Form NodeId}
    (single : ∀ name fields methods, form ≠ .classDecl name fields methods) :
    Writes (kind span form) draft fun later kind => later.form? span kind = some form := by
  cases form with
  | int | float | bool | binary | branch | index => exact writes_pure rfl
  | string text | read text | declare text | assign text | lambda text | reference text
  | assignThrough text | field _ text =>
    refine (writes_name draft text).bind fun symbol last _ named => writes_pure ?_
    simp [form?, named]
  | block items | array items =>
    refine (writes_list draft items).bind fun range last _ listed => writes_pure ?_
    simp [form?, listed]
  | function text texts =>
    refine (writes_name draft text).bind fun symbol middle _ named => ?_
    refine (writes_params middle texts).bind fun range last keeps params => writes_pure ?_
    simp [form?, keeps.text _ _ named, params]
  | call text items | construct text items | methodCall _ text items =>
    refine (writes_name draft text).bind fun symbol middle _ named => ?_
    refine (writes_list middle items).bind fun range last keeps listed => writes_pure ?_
    simp [form?, keeps.text _ _ named, listed]
  | classDecl name fields methods => exact absurd rfl (single name fields methods)

end Actions

/-- A node that is added at the end is read back, and everything else is kept. -/
theorem read?_addNode {draft : Draft} {span : Span} {kind : NodeKind} {form : Form NodeId}
    (read : draft.form? span kind = some form) :
    let added := draft.program.addNode ⟨kind, span⟩
    let later : Draft := { draft with program := added.2 }
    draft.Keeps later ∧ added.1 = ⟨draft.program.size⟩ ∧
      later.program.size = draft.program.size + 1 ∧ later.read? added.1 = some (span, form) := by
  intro added later
  have keeps : draft.Keeps later := ⟨fun _ => .refl _, draft.program.keeps_addNode ⟨kind, span⟩⟩
  have found : later.program.node? added.1 = some ⟨kind, span⟩ :=
    draft.program.node?_addNode ⟨kind, span⟩
  refine ⟨keeps, rfl, Array.size_push _, ?_⟩
  rw [read?, found]
  change (later.form? span kind >>= _) = _
  rw [keeps.form span kind form read]
  rfl

end Draft

end ScopeMachine
