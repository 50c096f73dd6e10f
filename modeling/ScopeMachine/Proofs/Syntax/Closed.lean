import ScopeMachine.Syntax.Form

/-!
# Closed programs

A position or a range belongs to a program when the program's table reaches that far. A program is
closed when everything that its nodes, its child lists and its class declarations name belongs to it.

A draft is built when each of its nodes has been added with children that the draft has returned
before. The positions that a built draft has returned are those of its nodes, and its program is
closed.
-/

namespace ScopeMachine

namespace Program

/-- The node has been added to the program. -/
def HasNode (program : Program) (id : NodeId) : Prop := id.index < program.nodes.size

/-- The child list has been added to the program. -/
def HasList (program : Program) (range : NodeRange) : Prop :=
  range.start + range.length ≤ program.lists.size

/-- The parameter list has been added to the program. -/
def HasParams (program : Program) (range : ParamRange) : Prop :=
  range.start + range.length ≤ program.params.size

/-- The class declaration has been added to the program. -/
def HasClass (program : Program) (id : ClassId) : Prop := id.index < program.classes.size

/-- Membership of a node can be decided. -/
instance (program : Program) (id : NodeId) : Decidable (program.HasNode id) :=
  inferInstanceAs (Decidable (id.index < program.nodes.size))

/-- Membership of a child list can be decided. -/
instance (program : Program) (range : NodeRange) : Decidable (program.HasList range) :=
  inferInstanceAs (Decidable (range.start + range.length ≤ program.lists.size))

/-- Membership of a parameter list can be decided. -/
instance (program : Program) (range : ParamRange) : Decidable (program.HasParams range) :=
  inferInstanceAs (Decidable (range.start + range.length ≤ program.params.size))

/-- Every table of the later program reaches at least as far. -/
structure Reaches (earlier later : Program) : Prop where
  /-- The nodes do. -/
  nodes : earlier.nodes.size ≤ later.nodes.size
  /-- The child lists do. -/
  lists : earlier.lists.size ≤ later.lists.size
  /-- The parameter lists do. -/
  params : earlier.params.size ≤ later.params.size
  /-- The class declarations do. -/
  classes : earlier.classes.size ≤ later.classes.size

/-- A program reaches as far as itself. -/
theorem Reaches.refl (program : Program) : program.Reaches program :=
  ⟨Nat.le_refl _, Nat.le_refl _, Nat.le_refl _, Nat.le_refl _⟩

/-- Reaching further composes. -/
theorem Reaches.trans {first second third : Program} (earlier : first.Reaches second)
    (later : second.Reaches third) : first.Reaches third :=
  ⟨Nat.le_trans earlier.nodes later.nodes, Nat.le_trans earlier.lists later.lists,
    Nat.le_trans earlier.params later.params, Nat.le_trans earlier.classes later.classes⟩

end Program

/-- The default of a field belongs to a program. -/
def FieldDecl.Within (field : FieldDecl) (program : Program) : Prop :=
  ∀ id ∈ field.default, program.HasNode id

/-- The parameters and the body of a method belong to a program. -/
def MethodDecl.Within (method : MethodDecl) (program : Program) : Prop :=
  program.HasParams method.params ∧ program.HasNode method.body

/-- What a class declaration names belongs to a program. -/
structure ClassDecl.Within (decl : ClassDecl) (program : Program) : Prop where
  /-- The defaults of the fields belong to it. -/
  fields : ∀ field ∈ decl.fields, field.Within program
  /-- The methods belong to it. -/
  methods : ∀ method ∈ decl.methods, method.Within program

/-- What a node names belongs to a program. -/
def NodeKind.Within (program : Program) : NodeKind → Prop
  | .int _ | .float _ | .bool _ | .string _ | .read _ | .reference _ => True
  | .binary _ left right | .index left right => program.HasNode left ∧ program.HasNode right
  | .branch condition thenBranch elseBranch =>
    program.HasNode condition ∧ program.HasNode thenBranch ∧ ∀ id ∈ elseBranch, program.HasNode id
  | .block range | .call _ range | .construct _ range | .array range => program.HasList range
  | .declare _ _ value | .assign _ value | .lambda _ value | .assignThrough _ value
  | .field value _ => program.HasNode value
  | .function _ params body => program.HasParams params ∧ program.HasNode body
  | .classDecl id => program.HasClass id
  | .methodCall receiver _ args => program.HasNode receiver ∧ program.HasList args

section Reaching

variable {earlier later : Program} (reaches : earlier.Reaches later)
include reaches

/-- What belongs to a program belongs to one that reaches further. -/
theorem Program.HasNode.mono {id : NodeId} (has : earlier.HasNode id) : later.HasNode id :=
  Nat.lt_of_lt_of_le has reaches.nodes

/-- What belongs to a program belongs to one that reaches further. -/
theorem Program.HasList.mono {range : NodeRange} (has : earlier.HasList range) :
    later.HasList range :=
  Nat.le_trans has reaches.lists

/-- What belongs to a program belongs to one that reaches further. -/
theorem Program.HasParams.mono {range : ParamRange} (has : earlier.HasParams range) :
    later.HasParams range :=
  Nat.le_trans has reaches.params

/-- A class declaration that belongs to a program belongs to one that reaches further. -/
theorem ClassDecl.Within.mono {decl : ClassDecl} (within : decl.Within earlier) :
    decl.Within later where
  fields := fun field listed id default => (within.fields field listed id default).mono reaches
  methods := fun method listed =>
    ⟨(within.methods method listed).1.mono reaches, (within.methods method listed).2.mono reaches⟩

/-- A kind that belongs to a program belongs to one that reaches further. -/
theorem NodeKind.Within.mono {kind : NodeKind} (within : kind.Within earlier) :
    kind.Within later := by
  cases kind with
  | int | float | bool | string | read | reference => trivial
  | binary | index => exact ⟨within.1.mono reaches, within.2.mono reaches⟩
  | branch =>
    exact ⟨within.1.mono reaches, within.2.1.mono reaches,
      fun id chosen => (within.2.2 id chosen).mono reaches⟩
  | block | call | construct | array => exact Program.HasList.mono reaches within
  | declare | assign | lambda | assignThrough | field => exact Program.HasNode.mono reaches within
  | function => exact ⟨within.1.mono reaches, within.2.mono reaches⟩
  | classDecl => exact Nat.lt_of_lt_of_le within reaches.classes
  | methodCall => exact ⟨within.1.mono reaches, within.2.mono reaches⟩

end Reaching

/-- Everything that a program names belongs to it. -/
structure Program.Closed (program : Program) : Prop where
  /-- What a node names belongs to it. -/
  nodes : ∀ id node, program.node? id = some node → node.kind.Within program
  /-- The members of child lists belong to it. -/
  lists : ∀ id ∈ program.lists, program.HasNode id
  /-- What a class declaration names belongs to it. -/
  classes : ∀ id decl, program.classDecl? id = some decl → decl.Within program

namespace Program

/-- A program has exactly the nodes that belong to it. -/
theorem hasNode_iff {program : Program} {id : NodeId} :
    program.HasNode id ↔ ∃ node, program.node? id = some node := by
  simp only [HasNode, node?, Array.getElem?_eq_some_iff]
  constructor
  · intro inside
    exact ⟨_, inside, rfl⟩
  · rintro ⟨_, inside, _⟩
    exact inside

/-- A program has exactly the class declarations that belong to it. -/
theorem hasClass_iff {program : Program} {id : ClassId} :
    program.HasClass id ↔ ∃ decl, program.classDecl? id = some decl := by
  simp only [HasClass, classDecl?, Array.getElem?_eq_some_iff]
  constructor
  · intro inside
    exact ⟨_, inside, rfl⟩
  · rintro ⟨_, inside, _⟩
    exact inside

/-- The members of a child list of a closed program belong to it. -/
theorem Closed.hasNode_of_mem {program : Program} (closed : program.Closed) {range : NodeRange}
    {id : NodeId} (listed : id ∈ program.nodeList range) : program.HasNode id := by
  refine closed.lists id (Array.mem_iff_getElem?.2 ?_)
  obtain ⟨position, found⟩ := List.mem_iff_getElem?.1 listed
  rw [nodeList, Array.getElem?_toList, Array.getElem?_extract] at found
  split at found
  · exact ⟨_, found⟩
  · contradiction

/-- A program without nodes is closed. -/
theorem closed_empty : empty.Closed where
  nodes := by simp [empty, node?]
  lists := by simp [empty]
  classes := by simp [empty, classDecl?]

/-- Appending a list to an array adds up the sizes. -/
theorem size_appendList {α : Type} (array : Array α) (list : List α) :
    (array ++ list).size = array.size + list.length := by
  rw [← Array.length_toList, Array.toList_appendList, List.length_append, Array.length_toList]

section Adding

variable {program : Program} (closed : program.Closed)
include closed

/-- A child list of nodes that belong to a program can be added. -/
theorem Closed.addList {ids : List NodeId} (has : ∀ id ∈ ids, program.HasNode id) :
    (program.addList ids).2.Closed ∧ program.Reaches (program.addList ids).2 ∧
      (program.addList ids).2.HasList (program.addList ids).1 := by
  have reaches : program.Reaches (program.addList ids).2 :=
    ⟨Nat.le_refl _, by simp [Program.addList, size_appendList], Nat.le_refl _, Nat.le_refl _⟩
  refine ⟨⟨fun id node found => (closed.nodes id node found).mono reaches, ?_,
    fun id decl found => (closed.classes id decl found).mono reaches⟩, reaches, ?_⟩
  · intro id listed
    rw [Program.addList, ← Array.mem_toList_iff, Array.toList_appendList, List.mem_append] at listed
    rcases listed with old | new
    · exact closed.lists id (Array.mem_toList_iff.1 old)
    · exact has id new
  · simp [HasList, Program.addList, size_appendList]

/-- A parameter list can be added. -/
theorem Closed.addParams (names : List Symbol) :
    (program.addParams names).2.Closed ∧ program.Reaches (program.addParams names).2 ∧
      (program.addParams names).2.HasParams (program.addParams names).1 := by
  have reaches : program.Reaches (program.addParams names).2 :=
    ⟨Nat.le_refl _, Nat.le_refl _, by simp [Program.addParams, size_appendList], Nat.le_refl _⟩
  refine ⟨⟨fun id node found => (closed.nodes id node found).mono reaches, closed.lists,
    fun id decl found => (closed.classes id decl found).mono reaches⟩, reaches, ?_⟩
  simp [HasParams, Program.addParams, size_appendList]

/-- A class declaration that belongs to a program can be added. -/
theorem Closed.addClass {decl : ClassDecl} (within : decl.Within program) :
    (program.addClass decl).2.Closed ∧ program.Reaches (program.addClass decl).2 ∧
      (program.addClass decl).2.HasClass (program.addClass decl).1 := by
  have reaches : program.Reaches (program.addClass decl).2 :=
    ⟨Nat.le_refl _, Nat.le_refl _, Nat.le_refl _, by simp [Program.addClass]⟩
  refine ⟨⟨fun id node found => (closed.nodes id node found).mono reaches, closed.lists, ?_⟩,
    reaches, by simp [HasClass, Program.addClass]⟩
  intro id other found
  simp only [classDecl?, Program.addClass, Array.getElem?_push] at found
  split at found
  · cases found
    exact within.mono reaches
  · exact (closed.classes id other found).mono reaches

/-- A node that belongs to a program can be added. -/
theorem Closed.addNode {node : Node} (within : node.kind.Within program) :
    (program.addNode node).2.Closed ∧ program.Reaches (program.addNode node).2 := by
  have reaches : program.Reaches (program.addNode node).2 :=
    ⟨by simp [Program.addNode], Nat.le_refl _, Nat.le_refl _, Nat.le_refl _⟩
  refine ⟨⟨?_, fun id listed => (closed.lists id listed).mono reaches,
    fun id decl found => (closed.classes id decl found).mono reaches⟩, reaches⟩
  intro id other found
  simp only [node?, Program.addNode, Array.getElem?_push] at found
  split at found
  · cases found
    exact within.mono reaches
  · exact (closed.nodes id other found).mono reaches

end Adding

end Program

/-- Children of a form. -/
def Form.children {α : Type} : Form α → List α
  | .int _ | .float _ | .bool _ | .string _ | .read _ | .reference _ => []
  | .binary _ left right | .index left right => [left, right]
  | .branch condition thenBranch elseBranch => condition :: thenBranch :: elseBranch.toList
  | .block items | .call _ items | .construct _ items | .array items => items
  | .declare _ _ value | .assign _ value | .function _ _ value | .lambda _ value
  | .assignThrough _ value | .field value _ => [value]
  | .classDecl _ fields methods =>
    fields.flatMap (fun field => field.default.toList) ++ methods.map MethodForm.body
  | .methodCall receiver _ args => receiver :: args

namespace Draft

/-- The draft has been built up and has returned the positions, the latest first: every node has been
added with children that had been returned before. In between, texts may be entered elsewhere in the
same symbol table. -/
inductive Built : Draft → List NodeId → Prop where
  /-- Nothing has been added. -/
  | start (symbols : SymbolTable) : Built (.start symbols) []
  /-- Texts have been entered. -/
  | enter {draft : Draft} {returned : List NodeId} (built : Built draft returned)
    (symbols : SymbolTable) : Built { draft with symbols } returned
  /-- A node has been added. -/
  | add {draft : Draft} {returned : List NodeId} (built : Built draft returned) (span : Span)
    (form : Form NodeId) (known : ∀ id ∈ form.children, id ∈ returned) :
    Built ((Draft.add span form).run draft).2 (((Draft.add span form).run draft).1 :: returned)

/-- The action adds no node, keeps the program closed, reaches further, and its result belongs to the
program. -/
structure Extends {α : Type} (action : StateM Draft α) (draft : Draft)
    (belongs : Program → α → Prop) : Prop where
  /-- The program is closed. -/
  closed : (action.run draft).2.program.Closed
  /-- It reaches further. -/
  reaches : draft.program.Reaches (action.run draft).2.program
  /-- It has the same nodes. -/
  nodes : (action.run draft).2.program.nodes = draft.program.nodes
  /-- The result belongs to it. -/
  result : belongs (action.run draft).2.program (action.run draft).1

section Actions

variable {α β : Type} {draft : Draft}

/-- A result that belongs to a closed program needs no action. -/
theorem extends_pure {belongs : Program → α → Prop} (closed : draft.program.Closed) {value : α}
    (fits : belongs draft.program value) : Extends (pure value) draft belongs :=
  ⟨closed, .refl _, rfl, fits⟩

/-- Actions extend one after the other. -/
theorem Extends.bind {first : StateM Draft α} {next : α → StateM Draft β}
    {belongs : Program → α → Prop} {after : Program → β → Prop}
    (opening : Extends first draft belongs)
    (rest : ∀ value middle, middle.program.Closed → draft.program.Reaches middle.program →
      belongs middle.program value → Extends (next value) middle after) :
    Extends (first >>= next) draft after := by
  have continued := rest (first.run draft).1 (first.run draft).2 opening.closed opening.reaches
    opening.result
  exact ⟨continued.closed, opening.reaches.trans continued.reaches,
    continued.nodes.trans opening.nodes, continued.result⟩

variable (closed : draft.program.Closed)
include closed

/-- Entering a text changes no program. -/
theorem extends_name (text : String) : Extends (name text) draft fun _ _ => True :=
  ⟨closed, .refl _, rfl, trivial⟩

/-- Appending a child list extends. -/
theorem extends_list {ids : List NodeId} (has : ∀ id ∈ ids, draft.program.HasNode id) :
    Extends (list ids) draft Program.HasList := by
  obtain ⟨closed, reaches, has⟩ := closed.addList has
  exact ⟨closed, reaches, rfl, has⟩

/-- Appending a parameter list extends. -/
theorem extends_params (texts : List String) :
    Extends (params texts) draft Program.HasParams := by
  obtain ⟨closed, reaches, has⟩ := closed.addParams (draft.symbols.internAll texts).1
  exact ⟨closed, reaches, rfl, has⟩

/-- Entering fields extends. -/
theorem extends_fields {forms : List (FieldForm NodeId)}
    (has : ∀ form ∈ forms, ∀ id ∈ form.default, draft.program.HasNode id) :
    Extends (fields forms) draft fun program decls => ∀ decl ∈ decls, decl.Within program := by
  induction forms generalizing draft with
  | nil => exact extends_pure closed (by simp)
  | cons form forms ih =>
    obtain ⟨first, rest⟩ := List.forall_mem_cons.1 has
    refine (extends_name closed form.name).bind fun symbol middle closed reaches _ => ?_
    refine (ih closed fun other listed id default =>
      (rest other listed id default).mono reaches).bind fun decls last closed further all => ?_
    refine extends_pure closed (List.forall_mem_cons.2 ⟨?_, all⟩)
    exact fun id default => (first id default).mono (reaches.trans further)

/-- Entering methods extends. -/
theorem extends_methods {forms : List (MethodForm NodeId)}
    (has : ∀ form ∈ forms, draft.program.HasNode form.body) :
    Extends (methods forms) draft fun program decls => ∀ decl ∈ decls, decl.Within program := by
  induction forms generalizing draft with
  | nil => exact extends_pure closed (by simp)
  | cons form forms ih =>
    obtain ⟨first, rest⟩ := List.forall_mem_cons.1 has
    refine (extends_name closed form.name).bind fun symbol named closed toNamed _ => ?_
    refine (extends_params closed form.params).bind fun range middle closed toMiddle has => ?_
    refine (ih closed fun other listed =>
      (rest other listed).mono (toNamed.trans toMiddle)).bind fun decls last closed toLast all => ?_
    refine extends_pure closed (List.forall_mem_cons.2 ⟨⟨has.mono toLast, ?_⟩, all⟩)
    exact first.mono ((toNamed.trans toMiddle).trans toLast)

/-- Entering the texts and lists of a form extends. -/
theorem extends_kind (span : Span) {form : Form NodeId}
    (has : ∀ id ∈ form.children, draft.program.HasNode id) :
    Extends (kind span form) draft fun program kind => kind.Within program := by
  cases form with
  | int | float | bool => exact extends_pure closed trivial
  | string text | read text | reference text =>
    exact (extends_name closed text).bind fun _ _ closed _ _ => extends_pure closed trivial
  | binary op left right | index left right =>
    exact extends_pure closed ⟨has left (by simp [Form.children]), has right (by simp [Form.children])⟩
  | branch condition thenBranch elseBranch =>
    refine extends_pure closed ⟨has condition (by simp [Form.children]),
      has thenBranch (by simp [Form.children]), fun id chosen => has id ?_⟩
    simpa [Form.children] using Or.inr (Or.inr chosen)
  | block items | array items =>
    exact (extends_list closed has).bind fun _ _ closed _ has => extends_pure closed has
  | declare text tag value =>
    refine (extends_name closed text).bind fun _ _ closed reaches _ => extends_pure closed ?_
    exact (has value List.mem_cons_self).mono reaches
  | assign text value | lambda text value | assignThrough text value | field value text =>
    refine (extends_name closed text).bind fun _ _ closed reaches _ => extends_pure closed ?_
    exact (has value List.mem_cons_self).mono reaches
  | function text texts body =>
    refine (extends_name closed text).bind fun _ _ closed toNamed _ => ?_
    refine (extends_params closed texts).bind fun _ _ closed toLast params => ?_
    exact extends_pure closed
      ⟨params, (has body List.mem_cons_self).mono (toNamed.trans toLast)⟩
  | call text items | construct text items =>
    refine (extends_name closed text).bind fun _ _ closed reaches _ => ?_
    refine (extends_list closed fun id listed => (has id listed).mono reaches).bind
      fun _ _ closed _ has => extends_pure closed has
  | methodCall receiver text items =>
    obtain ⟨first, rest⟩ := List.forall_mem_cons.1 has
    refine (extends_name closed text).bind fun _ _ closed reaches _ => ?_
    refine (extends_list closed fun id listed => (rest id listed).mono reaches).bind
      fun _ _ closed further list => extends_pure closed ?_
    exact ⟨first.mono (reaches.trans further), list⟩
  | classDecl text fieldForms methodForms =>
    have defaults : ∀ form ∈ fieldForms, ∀ id ∈ form.default, draft.program.HasNode id := by
      intro form listed id default
      refine has id (List.mem_append_left _ (List.mem_flatMap.2 ⟨form, listed, ?_⟩))
      exact Option.mem_toList.2 default
    have bodies : ∀ form ∈ methodForms, draft.program.HasNode form.body := fun form listed =>
      has form.body (List.mem_append_right _ (List.mem_map_of_mem listed))
    refine (extends_name closed text).bind fun symbol named closed toNamed _ => ?_
    refine (extends_fields closed fun form listed id default =>
      (defaults form listed id default).mono toNamed).bind
      fun fieldDecls middle closed toMiddle fields => ?_
    refine (extends_methods closed fun form listed =>
      (bodies form listed).mono (toNamed.trans toMiddle)).bind
      fun methodDecls last closed toLast methods => ?_
    have within : (ClassDecl.mk symbol fieldDecls methodDecls span).Within last.program :=
      ⟨fun field listed id default => (fields field listed id default).mono toLast, methods⟩
    obtain ⟨closed, reaches, has⟩ := closed.addClass within
    exact ⟨closed, reaches, rfl, has⟩

end Actions

/-- A node is added at the next position; the program stays closed and reaches further. -/
theorem closed_add {draft : Draft} (closed : draft.program.Closed) (span : Span)
    {form : Form NodeId} (has : ∀ id ∈ form.children, draft.program.HasNode id) :
    ((Draft.add span form).run draft).2.program.Closed ∧
      ((Draft.add span form).run draft).1 = ⟨draft.program.nodes.size⟩ ∧
      ((Draft.add span form).run draft).2.program.nodes.size = draft.program.nodes.size + 1 := by
  have extended := extends_kind closed span has
  let entered := ((kind span form).run draft).2
  have sameNodes : entered.program.nodes = draft.program.nodes := extended.nodes
  have added : ((Draft.add span form).run draft).2.program =
      (entered.program.addNode ⟨((kind span form).run draft).1, span⟩).2 := rfl
  have returned : ((Draft.add span form).run draft).1 = ⟨entered.program.nodes.size⟩ := rfl
  refine ⟨added ▸ (extended.closed.addNode extended.result).1, ?_, ?_⟩
  · rw [returned, sameNodes]
  · rw [added, Program.addNode, Array.size_push, sameNodes]

/-- A built draft has a closed program, whose nodes are at the positions that it has returned. -/
theorem Built.closed {draft : Draft} {returned : List NodeId} (built : Built draft returned) :
    draft.program.Closed ∧ ∀ id, draft.program.HasNode id ↔ id ∈ returned := by
  induction built with
  | start symbols => exact ⟨Program.closed_empty, by simp [Draft.start, Program.HasNode, Program.empty]⟩
  | enter built symbols ih => exact ih
  | @add draft returned built span form known ih =>
    obtain ⟨closed, nodes⟩ := ih
    obtain ⟨closedAfter, position, size⟩ :=
      closed_add closed span fun id listed => (nodes id).2 (known id listed)
    refine ⟨closedAfter, fun id => ?_⟩
    rw [Program.HasNode, size, position, List.mem_cons, ← nodes id, Program.HasNode,
      Nat.lt_succ_iff_lt_or_eq]
    constructor
    · rintro (below | last)
      · exact Or.inr below
      · exact Or.inl (congrArg NodeId.mk last)
    · rintro (rfl | below)
      · exact Or.inr rfl
      · exact Or.inl below

end Draft

end ScopeMachine
