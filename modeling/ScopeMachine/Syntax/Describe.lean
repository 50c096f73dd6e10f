import ScopeMachine.Syntax.Program
import ScopeMachine.Text.Record

/-!
# Diagnostic texts of programs

Every part of a program has a diagnostic text, in which names and children appear by position. The
text of a node ends with its span.
-/

namespace ScopeMachine

open Text (applied bracketed optional record truth)

/-- Diagnostic text of a symbol. -/
def Symbol.describe (symbol : Symbol) : String := applied "Name" (toString symbol.index)

/-- Diagnostic text of a node position. -/
def NodeId.describe (id : NodeId) : String :=
  if id.isValid then applied "ExprId" (toString id.index) else "ExprId::INVALID"

/-- Diagnostic text of a class position. -/
def ClassId.describe (id : ClassId) : String := applied "ClassId" (toString id.index)

/-- Diagnostic text of a range of nodes. -/
def NodeRange.describe (range : NodeRange) : String :=
  record "ExprRange" [("start", toString range.start), ("len", toString range.length)]

/-- Diagnostic text of a range of parameters. -/
def ParamRange.describe (range : ParamRange) : String :=
  record "ParamRange" [("start", toString range.start), ("len", toString range.length)]

/-- Diagnostic text of an annotation or its absence. -/
def describeTag (tag : Option TypeTag) : String := optional (tag.map TypeTag.label)

/-- Diagnostic text of a node position or its absence. -/
def describeOptionalNode (id : Option NodeId) : String := optional (id.map NodeId.describe)

/-- Diagnostic text of a node without its span. -/
def NodeKind.describe : NodeKind → String
  | .int value => applied "Int" (toString value.toInt)
  | .float bits => applied "Float" (toString bits.toNat)
  | .bool value => applied "Bool" (truth value)
  | .string text => applied "String" text.describe
  | .read name => applied "Ident" name.describe
  | .binary op left right =>
    record "Binary" [("op", op.label), ("left", left.describe), ("right", right.describe)]
  | .branch condition thenBranch elseBranch =>
    record "If" [("cond", condition.describe), ("then_branch", thenBranch.describe),
      ("else_branch", describeOptionalNode elseBranch)]
  | .block body => applied "Block" body.describe
  | .declare name tag value =>
    record "Let" [("name", name.describe), ("ty", describeTag tag), ("init", value.describe)]
  | .assign name value => record "Assign" [("name", name.describe), ("value", value.describe)]
  | .function name params body =>
    record "Function" [("name", name.describe), ("params", params.describe),
      ("body", body.describe)]
  | .call callee args => record "Call" [("func", callee.describe), ("args", args.describe)]
  | .classDecl id => applied "Class" id.describe
  | .construct owner args => record "New" [("class", owner.describe), ("args", args.describe)]
  | .methodCall receiver method args =>
    record "MethodCall" [("receiver", receiver.describe), ("method", method.describe),
      ("args", args.describe)]
  | .field receiver name =>
    record "FieldAccess" [("receiver", receiver.describe), ("field", name.describe)]
  | .array elements => applied "Array" elements.describe
  | .index receiver position =>
    record "Index" [("receiver", receiver.describe), ("index", position.describe)]
  | .lambda param body => record "Lambda" [("param", param.describe), ("body", body.describe)]
  | .reference name => applied "Ref" name.describe
  | .assignThrough name value =>
    record "AssignRef" [("name", name.describe), ("value", value.describe)]

/-- Diagnostic text of a node. -/
def Node.describe (node : Node) : String := node.kind.describe ++ " @ " ++ node.span.text

/-- Diagnostic text of a field declaration. -/
def FieldDecl.describe (decl : FieldDecl) : String :=
  record "FieldDecl" [("name", decl.name.describe), ("ty", describeTag decl.tag),
    ("default", describeOptionalNode decl.default)]

/-- Diagnostic text of a method declaration. -/
def MethodDecl.describe (decl : MethodDecl) : String :=
  record "MethodDecl" [("name", decl.name.describe), ("params", decl.params.describe),
    ("body", decl.body.describe)]

/-- Diagnostic text of a class declaration. -/
def ClassDecl.describe (decl : ClassDecl) : String :=
  record "ClassDecl" [("name", decl.name.describe),
    ("fields", bracketed (decl.fields.map FieldDecl.describe)),
    ("methods", bracketed (decl.methods.map MethodDecl.describe)),
    ("span", decl.span.text)]

/-- Diagnostic text of a list of node positions. -/
def describeNodes (ids : List NodeId) : String := bracketed (ids.map NodeId.describe)

end ScopeMachine
