import Mathlib.Logic.Relation
import ScopeMachine.Proofs.Syntax.ReadBack
import ScopeMachine.Syntax.Builder

/-!
# Builders are faithful

Every call on a builder that returns a position adds one node, at the next position, from which the
form of the call is read back under the span in force. No later call changes that. A class is read
back with its fields and its methods in the order of the calls, however the two are mixed.

When the children that are passed to calls are positions returned before, every node mentions only
nodes before it, so the program has no cycle.
-/

namespace ScopeMachine

namespace Member

/-- Form of a field. -/
def field? : Member → Option (FieldForm NodeId)
  | .field form => some form
  | .method _ => none

/-- Form of a method. -/
def method? : Member → Option (MethodForm NodeId)
  | .field _ => none
  | .method form => some form

/-- Form of a class with members: its fields in order and its methods in order. -/
def classForm (name : String) (members : List Member) : Form NodeId :=
  .classDecl name (members.filterMap field?) (members.filterMap method?)

/-- Fields first and methods after them are the fields and the methods of the class. -/
theorem classForm_append (name : String) (fields : List (FieldForm NodeId))
    (methods : List (MethodForm NodeId)) :
    classForm name (fields.map .field ++ methods.map .method) = .classDecl name fields methods := by
  simp [classForm, List.filterMap_map, Function.comp_def, field?, method?]

end Member

/-- The second builder has added one node at the returned position, from which the form is read back
under the span in force, and has kept everything else. -/
structure Builder.Adds (before : Builder) (form : Form NodeId) (result : NodeId × Builder) :
    Prop where
  /-- What could be read can be read. -/
  keeps : before.draft.Keeps result.2.draft
  /-- The position is the next one. -/
  position : result.1 = ⟨before.size⟩
  /-- There is one node more. -/
  size : result.2.size = before.size + 1
  /-- The span stays in force. -/
  span : result.2.span = before.span
  /-- The form is read back. -/
  read : result.2.draft.read? result.1 = some (before.span, form)

/-- A node that is added after the parts of its form have been written is read back. -/
theorem Builder.adds_addNode {before last : Builder} {kind : NodeKind} {form : Form NodeId}
    (keeps : before.draft.Keeps last.draft)
    (nodes : last.draft.program.nodes = before.draft.program.nodes)
    (span : last.span = before.span) (read : last.draft.form? last.span kind = some form) :
    let (id, program) := last.draft.program.addNode ⟨kind, last.span⟩
    before.Adds form (id, { last with draft := { last.draft with program } }) := by
  have size : last.draft.program.size = before.size := congrArg Array.size nodes
  obtain ⟨further, position, grown, back⟩ := Draft.read?_addNode read
  constructor
  case keeps => exact keeps.trans further
  case position => exact position.trans (congrArg NodeId.mk size)
  case size => exact grown.trans (congrArg (· + 1) size)
  case span => exact span
  case read => exact back.trans (by rw [span])

namespace ClassBuilder

/-- The builder of a class has been started on a builder with a name and has declared members. -/
structure Shows (opened : ClassBuilder) (before : Builder) (name : String)
    (members : List Member) : Prop where
  /-- What could be read can be read. -/
  keeps : before.draft.Keeps opened.builder.draft
  /-- No node has been added. -/
  nodes : opened.builder.draft.program.nodes = before.draft.program.nodes
  /-- The span stays in force. -/
  span : opened.builder.span = before.span
  /-- The declaration has that span. -/
  declSpan : opened.decl.span = before.span
  /-- The name of the class is read back. -/
  name : opened.builder.draft.text? opened.decl.name = some name
  /-- The fields are read back in their order. -/
  fields : opened.decl.fields.mapM opened.builder.draft.fieldForm? =
    some (members.filterMap Member.field?)
  /-- The methods are read back in their order. -/
  methods : opened.decl.methods.mapM opened.builder.draft.methodForm? =
    some (members.filterMap Member.method?)

/-- A class that has been started has no members. -/
theorem shows_declare (builder : Builder) (name : String) :
    (builder.declare name).Shows builder name [] := by
  have written := Draft.writes_name builder.draft name
  exact ⟨written.keeps, written.nodes, rfl, rfl, written.shown, rfl, rfl⟩

variable {opened : ClassBuilder} {before : Builder} {name : String} {declared : List Member}

/-- A declared field comes after the fields before it. -/
theorem Shows.field (shown : opened.Shows before name declared) (form : FieldForm NodeId) :
    (opened.field form).Shows before name (declared ++ [.field form]) := by
  have written := Draft.writes_name opened.builder.draft form.name
  constructor
  case keeps => exact shown.keeps.trans written.keeps
  case nodes => exact written.nodes.trans shown.nodes
  case span => exact shown.span
  case declSpan => exact shown.declSpan
  case name => exact written.keeps.text _ _ shown.name
  case fields =>
    rw [List.filterMap_append]
    exact Confirms.mapM_concat written.keeps.fieldForm shown.fields (Draft.fieldForm?_of_text? written.shown)
  case methods =>
    rw [List.filterMap_append]
    refine (Confirms.mapM written.keeps.methodForm _ _ shown.methods).trans ?_
    exact congrArg some (List.append_nil _).symm

/-- A declared method comes after the methods before it. -/
theorem Shows.method (shown : opened.Shows before name declared) (form : MethodForm NodeId) :
    (opened.method form).Shows before name (declared ++ [.method form]) := by
  have named := Draft.writes_name opened.builder.draft form.name
  have params := Draft.writes_params ((Draft.name form.name).run opened.builder.draft).2 form.params
  have keeps := named.keeps.trans params.keeps
  constructor
  case keeps => exact shown.keeps.trans keeps
  case nodes => exact params.nodes.trans (named.nodes.trans shown.nodes)
  case span => exact shown.span
  case declSpan => exact shown.declSpan
  case name => exact keeps.text _ _ shown.name
  case fields =>
    rw [List.filterMap_append]
    refine (Confirms.mapM keeps.fieldForm _ _ shown.fields).trans ?_
    exact congrArg some (List.append_nil _).symm
  case methods =>
    rw [List.filterMap_append]
    exact Confirms.mapM_concat keeps.methodForm shown.methods
      (Draft.methodForm?_of_text? (params.keeps.text _ _ named.shown) params.shown)

/-- Declared members come after the members before them. -/
theorem Shows.members (shown : opened.Shows before name declared) (list : List Member) :
    (opened.members list).Shows before name (declared ++ list) := by
  induction list generalizing opened declared with
  | nil =>
    rw [List.append_nil]
    exact shown
  | cons member list ih =>
    rw [List.append_cons]
    cases member with
    | field form => exact ih (shown.field form)
    | method form => exact ih (shown.method form)

/-- A class that has been started and has declared members shows them. -/
theorem shows_members (builder : Builder) (name : String) (members : List Member) :
    ((builder.declare name).members members).Shows builder name members :=
  (shows_declare builder name).members members

/-- A finished class is read back. -/
theorem Shows.finish (shown : opened.Shows before name declared) :
    before.Adds (Member.classForm name declared) opened.finish := by
  let draft := opened.builder.draft
  let later : Draft := { draft with program := (draft.program.addClass opened.decl).2 }
  have keeps : draft.Keeps later := ⟨fun _ => .refl _, draft.program.keeps_addClass opened.decl⟩
  have read : later.form? opened.decl.span (.classDecl (draft.program.addClass opened.decl).1) =
      some (Member.classForm name declared) :=
    Draft.form?_classDecl (draft.program.classDecl?_addClass opened.decl)
      (keeps.text _ _ shown.name) (Confirms.mapM keeps.fieldForm _ _ shown.fields)
      (Confirms.mapM keeps.methodForm _ _ shown.methods)
  rw [shown.declSpan, ← shown.span] at read
  let last : Builder := { opened.builder with draft := later }
  have nodes : last.draft.program.nodes = before.draft.program.nodes := shown.nodes
  exact Builder.adds_addNode (shown.keeps.trans keeps) nodes shown.span read

/-- Fields that are declared one by one are those entered together. -/
theorem members_field (opened : ClassBuilder) (forms : List (FieldForm NodeId)) :
    let entered := (Draft.fields forms).run opened.builder.draft
    opened.members (forms.map .field) =
      ⟨{ opened.builder with draft := entered.2 },
        { opened.decl with fields := opened.decl.fields ++ entered.1 }⟩ := by
  induction forms generalizing opened with
  | nil =>
    change opened = ⟨_, { opened.decl with fields := opened.decl.fields ++ [] }⟩
    rw [List.append_nil]
    rfl
  | cons form forms ih =>
    refine (ih (opened.field form)).trans ?_
    change ClassBuilder.mk _
      { opened.decl with fields := (opened.decl.fields ++ [_]) ++ _ } = _
    rw [List.append_assoc]
    rfl

/-- Methods that are declared one by one are those entered together. -/
theorem members_method (opened : ClassBuilder) (forms : List (MethodForm NodeId)) :
    let entered := (Draft.methods forms).run opened.builder.draft
    opened.members (forms.map .method) =
      ⟨{ opened.builder with draft := entered.2 },
        { opened.decl with methods := opened.decl.methods ++ entered.1 }⟩ := by
  induction forms generalizing opened with
  | nil =>
    change opened = ⟨_, { opened.decl with methods := opened.decl.methods ++ [] }⟩
    rw [List.append_nil]
    rfl
  | cons form forms ih =>
    refine (ih (opened.method form)).trans ?_
    change ClassBuilder.mk _
      { opened.decl with methods := (opened.decl.methods ++ [_]) ++ _ } = _
    rw [List.append_assoc]
    rfl

end ClassBuilder

namespace Builder

/-- A class that is added as one form is declared with its fields first and its methods after
them. -/
theorem add_classDecl (builder : Builder) (name : String) (fields : List (FieldForm NodeId))
    (methods : List (MethodForm NodeId)) :
    builder.add (.classDecl name fields methods) =
      ((builder.declare name).members (fields.map .field ++ methods.map .method)).finish := by
  rw [ClassBuilder.members, List.foldl_append, ← ClassBuilder.members, ← ClassBuilder.members,
    ClassBuilder.members_field, ClassBuilder.members_method]
  rfl

/-- The form of an added node is read back. -/
theorem adds_add (builder : Builder) (form : Form NodeId) :
    builder.Adds form (builder.add form) := by
  by_cases single : ∀ name fields methods, form ≠ .classDecl name fields methods
  · have written := Draft.writes_kind builder.draft builder.span single
    let last : Builder := { builder with draft := ((Draft.kind builder.span form).run builder.draft).2 }
    have span : last.span = builder.span := rfl
    exact adds_addNode written.keeps written.nodes span written.shown
  · push Not at single
    obtain ⟨name, fields, methods, rfl⟩ := single
    have declared := (ClassBuilder.shows_members builder name
      (fields.map .field ++ methods.map .method)).finish
    rw [Member.classForm_append] at declared
    rw [add_classDecl]
    exact declared

namespace Call

/-- Form of the node that a call adds. -/
def form? : Call → Option (Form NodeId)
  | .add form => some form
  | .declare text members => some (Member.classForm text members)
  | .place _ | .name _ | .drop _ _ => none

/-- Span that a call puts in force. -/
def span? : Call → Option Span
  | .place span => some span
  | .name _ | .add _ | .declare _ _ | .drop _ _ => none

/-- Positions that are passed to a call. -/
def children : Call → List NodeId
  | .add form => form.children
  | .declare text members | .drop text members => (Member.classForm text members).children
  | .place _ | .name _ => []

end Call

/-- Span that the last call to put one in force has put in force. -/
def spanAfter (calls : List Call) : Span := (calls.filterMap Call.span?).getLast?.getD .dummy

/-- Every position that is passed to a call has been returned before. -/
def Founded (builder : Builder) (returned : List NodeId) : List Call → Prop
  | [] => True
  | call :: rest =>
    (∀ id ∈ call.children, id ∈ returned) ∧
      (builder.perform call).2.Founded ((builder.perform call).1.toList ++ returned) rest

/-- Decision whether calls are founded, call by call. -/
def decidableFounded (builder : Builder) (returned : List NodeId) :
    (calls : List Call) → Decidable (builder.Founded returned calls)
  | [] => .isTrue trivial
  | call :: rest =>
    have := decidableFounded (builder.perform call).2 ((builder.perform call).1.toList ++ returned) rest
    inferInstanceAs (Decidable (_ ∧ _))

/-- Whether calls are founded can be decided. -/
instance (builder : Builder) (returned : List NodeId) (calls : List Call) :
    Decidable (builder.Founded returned calls) :=
  decidableFounded builder returned calls

/-- A call with a form adds it. -/
theorem adds_perform (builder : Builder) {call : Call} {form : Form NodeId}
    (asked : call.form? = some form) :
    ∃ id, (builder.perform call).1 = some id ∧
      builder.Adds form (id, (builder.perform call).2) := by
  cases call with
  | add other =>
    cases asked
    exact ⟨_, rfl, builder.adds_add form⟩
  | declare name members =>
    cases asked
    exact ⟨_, rfl, (ClassBuilder.shows_members builder name members).finish⟩
  | place | name | drop => cases asked

/-- A call without a form returns nothing, adds no node, and keeps what can be read. -/
theorem perform_of_form?_eq_none (builder : Builder) {call : Call} (asked : call.form? = none) :
    (builder.perform call).1 = none ∧ (builder.perform call).2.size = builder.size ∧
      builder.draft.Keeps (builder.perform call).2.draft := by
  cases call with
  | place span => exact ⟨rfl, rfl, .refl _⟩
  | name text => exact ⟨rfl, rfl, (Draft.writes_name builder.draft text).keeps⟩
  | drop name members =>
    have shown := ClassBuilder.shows_members builder name members
    exact ⟨rfl, congrArg Array.size shown.nodes, shown.keeps⟩
  | add | declare => cases asked

/-- A call keeps what can be read. -/
theorem keeps_perform (builder : Builder) (call : Call) :
    builder.draft.Keeps (builder.perform call).2.draft := by
  cases asked : call.form? with
  | none => exact (builder.perform_of_form?_eq_none asked).2.2
  | some form => exact (builder.adds_perform asked).elim fun _ both => both.2.keeps

/-- Calls keep what can be read. -/
theorem keeps_replay (builder : Builder) (calls : List Call) :
    builder.draft.Keeps (builder.replay calls).draft := by
  induction calls generalizing builder with
  | nil => exact .refl _
  | cons call calls ih => exact (builder.keeps_perform call).trans (ih _)

/-- A call leaves the span that it puts in force, or else the span before it. -/
theorem span_perform (builder : Builder) (call : Call) :
    (builder.perform call).2.span = call.span?.getD builder.span := by
  cases call with
  | place | name | add => rfl
  | declare name members => exact (ClassBuilder.shows_members builder name members).finish.span
  | drop name members => exact (ClassBuilder.shows_members builder name members).span

/-- Calls leave the last span that they put in force, or else the span before them. -/
theorem span_replay (builder : Builder) (calls : List Call) :
    (builder.replay calls).span = (calls.filterMap Call.span?).getLast?.getD builder.span := by
  induction calls generalizing builder with
  | nil => rfl
  | cons call calls ih =>
    refine (ih (builder.perform call).2).trans ?_
    rw [span_perform, List.filterMap_cons]
    cases call.span? with
    | none => rfl
    | some span => simp [List.getLast?_cons]

/-- The children of a form that a call adds are passed to the call. -/
theorem Call.children_of_form? {call : Call} {form : Form NodeId} (asked : call.form? = some form) :
    call.children = form.children := by
  cases call <;> cases asked <;> rfl

/-- The positions returned so far are those of nodes, and every node is read back with children
before it. -/
structure Ordered (builder : Builder) (returned : List NodeId) : Prop where
  /-- Returned positions are those of nodes. -/
  returned : ∀ id ∈ returned, id.index < builder.size
  /-- Children come before their parents. -/
  children : ∀ id : NodeId, id.index < builder.size → ∃ span form,
    builder.draft.read? id = some (span, form) ∧ ∀ child ∈ form.children, child.index < id.index

/-- At the start there are no nodes. -/
theorem ordered_start (symbols : SymbolTable) : (start symbols).Ordered [] where
  returned := nofun
  children := fun _ below => absurd below (Nat.not_lt_zero _)

section Ordering

variable {builder : Builder} {returned : List NodeId} (ordered : builder.Ordered returned)
include ordered

/-- A call to which only returned positions are passed keeps children before their parents. -/
theorem Ordered.perform {call : Call} (known : ∀ id ∈ call.children, id ∈ returned) :
    (builder.perform call).2.Ordered ((builder.perform call).1.toList ++ returned) := by
  have keeps := builder.keeps_perform call
  have old : ∀ id : NodeId, id.index < builder.size → ∃ span form,
      (builder.perform call).2.draft.read? id = some (span, form) ∧
        ∀ child ∈ form.children, child.index < id.index := by
    intro id below
    obtain ⟨span, form, read, before⟩ := ordered.children id below
    exact ⟨span, form, keeps.read id _ read, before⟩
  cases asked : call.form? with
  | none =>
    obtain ⟨nothing, size, _⟩ := builder.perform_of_form?_eq_none asked
    rw [nothing]
    constructor
    case returned =>
      intro id listed
      rw [size]
      exact ordered.returned id listed
    case children =>
      intro id below
      exact old id (size ▸ below)
  | some form =>
    obtain ⟨id, same, adds⟩ := builder.adds_perform asked
    have position : id = ⟨builder.size⟩ := adds.position
    have size : (builder.perform call).2.size = builder.size + 1 := adds.size
    rw [same]
    constructor
    case returned =>
      intro other listed
      rw [size]
      rcases List.mem_cons.1 listed with rfl | earlier
      · rw [position]
        exact Nat.lt_succ_self _
      · exact Nat.lt_succ_of_lt (ordered.returned other earlier)
    case children =>
      intro other below
      rw [size] at below
      rcases Nat.lt_succ_iff_lt_or_eq.1 below with earlier | last
      · exact old other earlier
      · have new : other = id := by
          rw [position]
          exact congrArg NodeId.mk last
        subst new
        refine ⟨builder.span, form, adds.read, fun child listed => ?_⟩
        rw [← Call.children_of_form? asked] at listed
        rw [last]
        exact ordered.returned child (known child listed)

/-- Founded calls keep children before their parents. -/
theorem Ordered.replay {calls : List Call} (founded : builder.Founded returned calls) :
    ∃ more, (builder.replay calls).Ordered more := by
  induction calls generalizing builder returned with
  | nil => exact ⟨returned, ordered⟩
  | cons call calls ih => exact ih (ordered.perform founded.1) founded.2

end Ordering

/-- Where children come before their parents, a node mentions only nodes before it. -/
theorem Ordered.index_lt {builder : Builder} {returned : List NodeId}
    (ordered : builder.Ordered returned) {parent child : NodeId}
    (mentioned : builder.draft.program.HasChild parent child) : child.index < parent.index := by
  obtain ⟨node, found, listed⟩ := mentioned
  have below : parent.index < builder.size := (Array.getElem?_eq_some_iff.1 found).1
  obtain ⟨span, form, read, before⟩ := ordered.children parent below
  obtain ⟨other, again, rest⟩ := Option.bind_eq_some_iff.1 read
  cases found.symm.trans again
  obtain ⟨_, readForm, same⟩ := Option.bind_eq_some_iff.1 rest
  cases same
  rw [Draft.mentions_of_form? readForm] at listed
  exact before child listed

/-- Where children come before their parents, there is no cycle. -/
theorem Ordered.acyclic {builder : Builder} {returned : List NodeId}
    (ordered : builder.Ordered returned) (id : NodeId) :
    ¬ Relation.TransGen builder.draft.program.HasChild id id := by
  have descends : ∀ {first last}, Relation.TransGen builder.draft.program.HasChild first last →
      last.index < first.index := by
    intro first last path
    induction path with
    | single link => exact ordered.index_lt link
    | tail _ link ih => exact Nat.lt_trans (ordered.index_lt link) ih
  exact fun path => Nat.lt_irrefl _ (descends path)

/-- For every symbol table and all calls on a builder that passes only positions it has returned
before:

* a call with a form returns the next position, adds exactly one node, and in the end, after all later
  calls, the node at that position is read back with the span in force at the call and exactly the
  form: its kind, its children, its names and its members, in their order;
* every other call returns nothing and adds no node;
* in the end every node mentions only nodes before it, and there is no cycle. -/
theorem replay_faithful (symbols : SymbolTable) {calls : List Call}
    (founded : (start symbols).Founded [] calls) :
    let final := ((start symbols).replay calls).draft
    (∀ earlier call later, calls = earlier ++ call :: later →
      let before := (start symbols).replay earlier
      let result := before.perform call
      (∀ form, call.form? = some form →
        result.1 = some ⟨before.size⟩ ∧ result.2.size = before.size + 1 ∧
          final.read? ⟨before.size⟩ = some (spanAfter earlier, form)) ∧
      (call.form? = none → result.1 = none ∧ result.2.size = before.size)) ∧
    (∀ parent child, final.program.HasChild parent child → child.index < parent.index) ∧
    ∀ id, ¬ Relation.TransGen final.program.HasChild id id := by
  intro final
  obtain ⟨returned, ordered⟩ := (ordered_start symbols).replay founded
  refine ⟨?_, fun parent child => ordered.index_lt, ordered.acyclic⟩
  rintro earlier call later rfl before result
  constructor
  · intro form asked
    obtain ⟨id, same, adds⟩ := before.adds_perform asked
    have position : id = ⟨before.size⟩ := adds.position
    subst position
    have ends : final = (result.2.replay later).draft := by
      change ((start symbols).replay (earlier ++ call :: later)).draft = _
      rw [replay, List.foldl_append]
      rfl
    have span : before.span = spanAfter earlier := span_replay (start symbols) earlier
    have kept := (result.2.keeps_replay later).read _ _ adds.read
    rw [← ends, span] at kept
    exact ⟨same, adds.size, kept⟩
  · intro asked
    have unchanged := before.perform_of_form?_eq_none asked
    exact ⟨unchanged.1, unchanged.2.1⟩

/-- Class whose field comes between its methods, started after two nodes and followed by a class that
is dropped and by a node with children. -/
def interleavedCalls : List Call :=
  [.add (.int 0), .place ⟨3, 9⟩, .add (.read "x"),
    .declare "Acct" [.method ⟨"get", ["a", "b"], ⟨1⟩⟩, .field ⟨"x", some .int, some ⟨0⟩⟩,
      .method ⟨"set", ["a"], ⟨1⟩⟩],
    .drop "Lost" [.method ⟨"get", ["c"], ⟨2⟩⟩], .place .dummy, .add (.block [⟨2⟩, ⟨1⟩, ⟨2⟩])]

/-- After all calls the class is read back with its span, its field and its methods. -/
theorem replay_faithful_interleavedCalls :
    (start .initial).Founded [] interleavedCalls ∧
    ((start .initial).replay interleavedCalls).draft.read? ⟨2⟩ =
      some (⟨3, 9⟩, .classDecl "Acct" [⟨"x", some .int, some ⟨0⟩⟩]
        [⟨"get", ["a", "b"], ⟨1⟩⟩, ⟨"set", ["a"], ⟨1⟩⟩]) := by
  have founded : (start .initial).Founded [] interleavedCalls := by decide +kernel
  have returned := ((replay_faithful .initial founded).1 (interleavedCalls.take 3) _
    (interleavedCalls.drop 4) rfl).1 _ rfl
  exact ⟨founded, returned.2.2⟩

end Builder

end ScopeMachine
