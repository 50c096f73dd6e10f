import ScopeMachine.Syntax.Form

/-!
# Trees and their layout

A tree is a form whose children are trees. Laying a tree out adds its nodes to a draft, children
before parents and from left to right; in a class the defaults of the fields come before the bodies
of the methods. A child may also be a node that the draft already holds, which is how layouts share
subtrees.
-/

namespace ScopeMachine

/-- Nested source of a node. -/
inductive Tree where
  /-- A node of the draft, by position. -/
  | existing (id : NodeId)
  /-- A tree with a span, which holds for every descendant without a span of its own. -/
  | spanned (span : Span) (tree : Tree)
  /-- A form over trees. -/
  | node (form : Form Tree)

namespace Tree

mutual

/-- Adds the nodes of a tree under the span in force and returns the position of its root. -/
def layout (span : Span) : Tree → StateM Draft NodeId
  | .existing id => pure id
  | .spanned own tree => layout own tree
  | .node form => do
    let form ← layoutForm span form
    Draft.add span form

/-- Adds the children of a form and puts their positions in their places. -/
def layoutForm (span : Span) : Form Tree → StateM Draft (Form NodeId)
  | .int value => pure (.int value)
  | .float bits => pure (.float bits)
  | .bool value => pure (.bool value)
  | .string text => pure (.string text)
  | .read name => pure (.read name)
  | .binary op left right => do
    let left ← layout span left
    let right ← layout span right
    pure (.binary op left right)
  | .branch condition thenBranch elseBranch => do
    let condition ← layout span condition
    let thenBranch ← layout span thenBranch
    let elseBranch ← layoutOptional span elseBranch
    pure (.branch condition thenBranch elseBranch)
  | .block body => do
    let body ← layoutAll span body
    pure (.block body)
  | .declare name tag value => do
    let value ← layout span value
    pure (.declare name tag value)
  | .assign name value => do
    let value ← layout span value
    pure (.assign name value)
  | .function name params body => do
    let body ← layout span body
    pure (.function name params body)
  | .call callee args => do
    let args ← layoutAll span args
    pure (.call callee args)
  | .classDecl name fields methods => do
    let fields ← layoutFields span fields
    let methods ← layoutMethods span methods
    pure (.classDecl name fields methods)
  | .construct owner args => do
    let args ← layoutAll span args
    pure (.construct owner args)
  | .methodCall receiver method args => do
    let receiver ← layout span receiver
    let args ← layoutAll span args
    pure (.methodCall receiver method args)
  | .field receiver name => do
    let receiver ← layout span receiver
    pure (.field receiver name)
  | .array elements => do
    let elements ← layoutAll span elements
    pure (.array elements)
  | .index receiver position => do
    let receiver ← layout span receiver
    let position ← layout span position
    pure (.index receiver position)
  | .lambda param body => do
    let body ← layout span body
    pure (.lambda param body)
  | .reference name => pure (.reference name)
  | .assignThrough name value => do
    let value ← layout span value
    pure (.assignThrough name value)

/-- Adds trees from left to right. -/
def layoutAll (span : Span) : List Tree → StateM Draft (List NodeId)
  | [] => pure []
  | tree :: rest => do
    let id ← layout span tree
    let ids ← layoutAll span rest
    pure (id :: ids)

/-- Adds a tree if there is one. -/
def layoutOptional (span : Span) : Option Tree → StateM Draft (Option NodeId)
  | none => pure none
  | some tree => do
    let id ← layout span tree
    pure (some id)

/-- Adds the default of one field. -/
def layoutField (span : Span) : FieldForm Tree → StateM Draft (FieldForm NodeId)
  | ⟨name, tag, default⟩ => do
    let default ← layoutOptional span default
    pure ⟨name, tag, default⟩

/-- Adds the defaults of fields from left to right. -/
def layoutFields (span : Span) : List (FieldForm Tree) → StateM Draft (List (FieldForm NodeId))
  | [] => pure []
  | field :: rest => do
    let form ← layoutField span field
    let forms ← layoutFields span rest
    pure (form :: forms)

/-- Adds the body of one method. -/
def layoutMethod (span : Span) : MethodForm Tree → StateM Draft (MethodForm NodeId)
  | ⟨name, params, body⟩ => do
    let body ← layout span body
    pure ⟨name, params, body⟩

/-- Adds the bodies of methods from left to right. -/
def layoutMethods (span : Span) : List (MethodForm Tree) → StateM Draft (List (MethodForm NodeId))
  | [] => pure []
  | method :: rest => do
    let form ← layoutMethod span method
    let forms ← layoutMethods span rest
    pure (form :: forms)

end

end Tree

end ScopeMachine
