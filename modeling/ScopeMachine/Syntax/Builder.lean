import ScopeMachine.Syntax.Form

/-!
# Builders

A builder makes a program by one call after the other. It keeps a span, which every node gets that is
added while the span is in force. A class is declared by several calls on a builder of its own, whose
fields and methods may come in any order. That builder has the builder of the program to itself until
it is finished or dropped, so no other call comes between its calls.
-/

namespace ScopeMachine

/-- Builder of a program. -/
structure Builder where
  /-- What has been built. -/
  draft : Draft
  /-- Span of the nodes that are added from now on. -/
  span : Span

/-- Builder of a class declaration. -/
structure ClassBuilder where
  /-- Builder of the program. -/
  builder : Builder
  /-- Declaration so far. -/
  decl : ClassDecl

/-- Member of a class in the words of the source. -/
inductive Member where
  /-- Field, with or without a default. -/
  | field (form : FieldForm NodeId)
  /-- Method. -/
  | method (form : MethodForm NodeId)

namespace Builder

/-- Builder of an empty program over a symbol table. -/
def start (symbols : SymbolTable) : Builder := ⟨.start symbols, .dummy⟩

/-- Number of nodes added. -/
def size (builder : Builder) : Nat := builder.draft.program.size

/-- Puts a span in force. -/
def place (builder : Builder) (span : Span) : Builder := { builder with span }

/-- Enters a text. -/
def name (builder : Builder) (text : String) : Symbol × Builder :=
  let (symbol, draft) := (Draft.name text).run builder.draft
  (symbol, { builder with draft })

/-- Adds one node of a given form under the span in force. -/
def add (builder : Builder) (form : Form NodeId) : NodeId × Builder :=
  let (id, draft) := (Draft.add builder.span form).run builder.draft
  (id, { builder with draft })

/-- Starts a class declaration under the span in force. -/
def declare (builder : Builder) (text : String) : ClassBuilder :=
  let (symbol, builder) := builder.name text
  ⟨builder, ⟨symbol, [], [], builder.span⟩⟩

end Builder

namespace ClassBuilder

/-- Declares a field. -/
def field (opened : ClassBuilder) (form : FieldForm NodeId) : ClassBuilder :=
  let (symbol, builder) := opened.builder.name form.name
  let field : FieldDecl := ⟨symbol, form.tag, form.default⟩
  ⟨builder, { opened.decl with fields := opened.decl.fields ++ [field] }⟩

/-- Declares a method. -/
def method (opened : ClassBuilder) (form : MethodForm NodeId) : ClassBuilder :=
  let (symbol, builder) := opened.builder.name form.name
  let (range, draft) := (Draft.params form.params).run builder.draft
  let method : MethodDecl := ⟨symbol, range, form.body⟩
  ⟨{ builder with draft }, { opened.decl with methods := opened.decl.methods ++ [method] }⟩

/-- Declares a member. -/
def member (opened : ClassBuilder) : Member → ClassBuilder
  | .field form => opened.field form
  | .method form => opened.method form

/-- Declares members in their order. -/
def members (opened : ClassBuilder) (list : List Member) : ClassBuilder :=
  list.foldl member opened

/-- Adds the declaration and its node. -/
def finish (opened : ClassBuilder) : NodeId × Builder :=
  let builder := opened.builder
  let (owner, program) := builder.draft.program.addClass opened.decl
  let (id, program) := program.addNode ⟨.classDecl owner, builder.span⟩
  (id, { builder with draft := { builder.draft with program } })

end ClassBuilder

namespace Builder

/-- Calls on a builder. The calls on the builder of a class are taken together, since no others come
between them. -/
inductive Call where
  /-- Put a span in force. -/
  | place (span : Span)
  /-- Enter a text, for this program or for another over the same symbol table. -/
  | name (text : String)
  /-- Add a node. -/
  | add (form : Form NodeId)
  /-- Declare a class with members. -/
  | declare (name : String) (members : List Member)
  /-- Start to declare a class, declare members, and drop the declaration. -/
  | drop (name : String) (members : List Member)

/-- Carries out a call, which may return the position of a node. -/
def perform (builder : Builder) : Call → Option NodeId × Builder
  | .place span => (none, builder.place span)
  | .name text => (none, (builder.name text).2)
  | .add form =>
    let (id, builder) := builder.add form
    (some id, builder)
  | .declare name members =>
    let (id, builder) := ((builder.declare name).members members).finish
    (some id, builder)
  | .drop name members => (none, ((builder.declare name).members members).builder)

/-- Carries out calls in their order. -/
def replay (builder : Builder) (calls : List Call) : Builder :=
  calls.foldl (fun builder call => (builder.perform call).2) builder

end Builder

end ScopeMachine
