import ScopeMachine.Syntax.Node

/-!
# Programs

The tables of one program. Every addition goes to the end of its table, so what has been added keeps
its position and its contents.
-/

namespace ScopeMachine

/-- Number under which a program has been loaded. -/
structure ProgramId where
  /-- Number of programs loaded before it. -/
  index : Nat
deriving DecidableEq

/-- Tables of a program. -/
structure Program where
  /-- Nodes by position. -/
  nodes : Array Node
  /-- Child lists, one after the other. -/
  lists : Array NodeId
  /-- Parameter lists, one after the other. -/
  params : Array Symbol
  /-- Class declarations by position. -/
  classes : Array ClassDecl
deriving DecidableEq

namespace Program

/-- Program without nodes. -/
def empty : Program := ⟨#[], #[], #[], #[]⟩

/-- Node at a position. -/
def node? (program : Program) (id : NodeId) : Option Node := program.nodes[id.index]?

/-- Class declaration at a position. -/
def classDecl? (program : Program) (id : ClassId) : Option ClassDecl := program.classes[id.index]?

/-- Nodes of a range. -/
def nodeList (program : Program) (range : NodeRange) : List NodeId :=
  (program.lists.extract range.start (range.start + range.length)).toList

/-- Parameters of a range. -/
def paramList (program : Program) (range : ParamRange) : List Symbol :=
  (program.params.extract range.start (range.start + range.length)).toList

/-- Number of nodes. -/
def size (program : Program) : Nat := program.nodes.size

/-- Whether there are no nodes. -/
def isEmpty (program : Program) : Bool := program.size == 0

/-- Program with a node at the end, and the node's position. -/
def addNode (program : Program) (node : Node) : NodeId × Program :=
  (⟨program.nodes.size⟩, { program with nodes := program.nodes.push node })

/-- Program with a child list at the end, and its range. -/
def addList (program : Program) (ids : List NodeId) : NodeRange × Program :=
  (⟨program.lists.size, ids.length⟩, { program with lists := program.lists ++ ids })

/-- Program with a parameter list at the end, and its range. -/
def addParams (program : Program) (names : List Symbol) : ParamRange × Program :=
  (⟨program.params.size, names.length⟩, { program with params := program.params ++ names })

/-- Program with a class declaration at the end, and its position. -/
def addClass (program : Program) (decl : ClassDecl) : ClassId × Program :=
  (⟨program.classes.size⟩, { program with classes := program.classes.push decl })

/-- An added node is found at the position returned for it. -/
@[simp] theorem node?_addNode (program : Program) (node : Node) :
    (program.addNode node).2.node? (program.addNode node).1 = some node := by
  simp [addNode, node?]

/-- An added child list is read back from the range returned for it. -/
@[simp] theorem nodeList_addList (program : Program) (ids : List NodeId) :
    (program.addList ids).2.nodeList (program.addList ids).1 = ids := by
  simp [addList, nodeList]

/-- An added parameter list is read back from the range returned for it. -/
@[simp] theorem paramList_addParams (program : Program) (names : List Symbol) :
    (program.addParams names).2.paramList (program.addParams names).1 = names := by
  simp [addParams, paramList]

/-- An added class declaration is found at the position returned for it. -/
@[simp] theorem classDecl?_addClass (program : Program) (decl : ClassDecl) :
    (program.addClass decl).2.classDecl? (program.addClass decl).1 = some decl := by
  simp [addClass, classDecl?]

end Program

end ScopeMachine
