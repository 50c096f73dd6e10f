import Mathlib.Data.Option.Basic
import Mathlib.Logic.Relator
import ScopeMachine.Proofs.Home.Value
import ScopeMachine.Proofs.Symbol.Table

/-!
# Corresponding nodes

The same source can be laid out in many ways: its nodes stand in another order, a node that occurs
twice is shared or repeated, other nodes stand between, the units are spread over other programs, and
the names have other positions in another symbol table. What remains the same is a bond between the
places of the two layouts under which bonded nodes have the same span and the same kind, with the same
literals and the same texts, and with bonded children. Nodes correspond when some such bond relates
them; the bond need not relate anything else, and may relate one node to several.

Loading further programs and entering further texts, on either side, keeps what corresponds.
-/

namespace ScopeMachine

/-- What corresponds between two programs. -/
structure Pairing where
  /-- Names that correspond. -/
  names : Symbol → Symbol → Prop
  /-- Nodes that correspond. -/
  nodes : NodeId → NodeId → Prop
  /-- Program on the left. -/
  left : Program
  /-- Program on the right. -/
  right : Program

namespace Pairing

variable (pairing : Pairing)

/-- The ranges have the same length and hold corresponding nodes one by one. -/
structure Lists (left right : NodeRange) : Prop where
  /-- The lengths are equal. -/
  length : left.length = right.length
  /-- The nodes correspond. -/
  nodes : List.Forall₂ pairing.nodes (pairing.left.nodeList left) (pairing.right.nodeList right)

/-- The ranges hold corresponding parameters one by one. -/
def Params (left right : ParamRange) : Prop :=
  List.Forall₂ pairing.names (pairing.left.paramList left) (pairing.right.paramList right)

/-- The fields have corresponding names, the same annotation and corresponding defaults. -/
structure Fields (left right : FieldDecl) : Prop where
  /-- The names correspond. -/
  name : pairing.names left.name right.name
  /-- The annotations are equal. -/
  tag : left.tag = right.tag
  /-- The defaults correspond, or there is none. -/
  default : Option.Rel pairing.nodes left.default right.default

/-- The methods have corresponding names, parameters and bodies. -/
structure Methods (left right : MethodDecl) : Prop where
  /-- The names correspond. -/
  name : pairing.names left.name right.name
  /-- The parameters correspond. -/
  params : pairing.Params left.params right.params
  /-- The bodies correspond. -/
  body : pairing.nodes left.body right.body

/-- The classes have corresponding names, fields and methods. -/
structure Classes (left right : ClassDecl) : Prop where
  /-- The names correspond. -/
  name : pairing.names left.name right.name
  /-- The fields correspond in order. -/
  fields : List.Forall₂ pairing.Fields left.fields right.fields
  /-- The methods correspond in order. -/
  methods : List.Forall₂ pairing.Methods left.methods right.methods

/-- The kinds are the same, with the same literals and with corresponding names and children. -/
inductive Kinds : NodeKind → NodeKind → Prop where
  | int (value : Int64) : Kinds (.int value) (.int value)
  | float (bits : UInt64) : Kinds (.float bits) (.float bits)
  | bool (value : Bool) : Kinds (.bool value) (.bool value)
  | string {a b : Symbol} (text : pairing.names a b) : Kinds (.string a) (.string b)
  | read {a b : Symbol} (name : pairing.names a b) : Kinds (.read a) (.read b)
  | binary (op : BinaryOp) {a b c d : NodeId} (first : pairing.nodes a b)
    (second : pairing.nodes c d) : Kinds (.binary op a c) (.binary op b d)
  | branch {a b c d : NodeId} {e f : Option NodeId} (condition : pairing.nodes a b)
    (thenBranch : pairing.nodes c d) (elseBranch : Option.Rel pairing.nodes e f) :
    Kinds (.branch a c e) (.branch b d f)
  | block {a b : NodeRange} (body : pairing.Lists a b) : Kinds (.block a) (.block b)
  | declare {a b : Symbol} (tag : Option TypeTag) {c d : NodeId} (name : pairing.names a b)
    (value : pairing.nodes c d) : Kinds (.declare a tag c) (.declare b tag d)
  | assign {a b : Symbol} {c d : NodeId} (name : pairing.names a b)
    (value : pairing.nodes c d) : Kinds (.assign a c) (.assign b d)
  | function {a b : Symbol} {c d : ParamRange} {e f : NodeId} (name : pairing.names a b)
    (params : pairing.Params c d) (body : pairing.nodes e f) :
    Kinds (.function a c e) (.function b d f)
  | call {a b : Symbol} {c d : NodeRange} (callee : pairing.names a b)
    (args : pairing.Lists c d) : Kinds (.call a c) (.call b d)
  | classDecl {a b : ClassId} {c d : ClassDecl} (leftFound : pairing.left.classDecl? a = some c)
    (rightFound : pairing.right.classDecl? b = some d) (decl : pairing.Classes c d) :
    Kinds (.classDecl a) (.classDecl b)
  | construct {a b : Symbol} {c d : NodeRange} (owner : pairing.names a b)
    (args : pairing.Lists c d) : Kinds (.construct a c) (.construct b d)
  | methodCall {a b : NodeId} {c d : Symbol} {e f : NodeRange} (receiver : pairing.nodes a b)
    (method : pairing.names c d) (args : pairing.Lists e f) :
    Kinds (.methodCall a c e) (.methodCall b d f)
  | field {a b : NodeId} {c d : Symbol} (receiver : pairing.nodes a b)
    (name : pairing.names c d) : Kinds (.field a c) (.field b d)
  | array {a b : NodeRange} (elements : pairing.Lists a b) : Kinds (.array a) (.array b)
  | index {a b c d : NodeId} (receiver : pairing.nodes a b) (position : pairing.nodes c d) :
    Kinds (.index a c) (.index b d)
  | lambda {a b : Symbol} {c d : NodeId} (param : pairing.names a b)
    (body : pairing.nodes c d) : Kinds (.lambda a c) (.lambda b d)
  | reference {a b : Symbol} (name : pairing.names a b) : Kinds (.reference a) (.reference b)
  | assignThrough {a b : Symbol} {c d : NodeId} (name : pairing.names a b)
    (value : pairing.nodes c d) : Kinds (.assignThrough a c) (.assignThrough b d)

/-- The later pairing is about the same programs and pairs at least as much. -/
structure Weaker (earlier later : Pairing) : Prop where
  /-- Names that correspond still do. -/
  names : ∀ a b, earlier.names a b → later.names a b
  /-- Nodes that correspond still do. -/
  nodes : ∀ a b, earlier.nodes a b → later.nodes a b
  /-- The programs on the left are equal. -/
  left : earlier.left = later.left
  /-- The programs on the right are equal. -/
  right : earlier.right = later.right

end Pairing

/-- What holds of related members, and where there are none, holds of members that may be absent. -/
@[elab_as_elim] theorem optionRel_elim {α β : Type} {related : α → β → Prop}
    {motive : Option α → Option β → Prop} {left : Option α} {right : Option β}
    (both : Option.Rel related left right) (none : motive none none)
    (some : ∀ a b, related a b → motive (some a) (some b)) : motive left right := by
  cases both with
  | none => exact none
  | some both => exact some _ _ both

/-- Members that may be absent stay related when the relation grows. -/
theorem optionRel_mono {α β : Type} {related weaker : α → β → Prop}
    (weaken : ∀ a b, related a b → weaker a b) {left : Option α} {right : Option β}
    (both : Option.Rel related left right) : Option.Rel weaker left right := by
  cases both with
  | none => exact .none
  | some both => exact .some (weaken _ _ both)

namespace Pairing

section Weakening

variable {earlier later : Pairing} (weaker : earlier.Weaker later)
include weaker

/-- Child lists that correspond still do. -/
theorem Lists.mono {left right : NodeRange} (lists : earlier.Lists left right) :
    later.Lists left right where
  length := lists.length
  nodes := by
    rw [← weaker.left, ← weaker.right]
    exact lists.nodes.imp weaker.nodes

/-- Parameter lists that correspond still do. -/
theorem Params.mono {left right : ParamRange} (params : earlier.Params left right) :
    later.Params left right := by
  unfold Params
  rw [← weaker.left, ← weaker.right]
  exact List.Forall₂.imp weaker.names params

/-- Fields that correspond still do. -/
theorem Fields.mono {left right : FieldDecl} (fields : earlier.Fields left right) :
    later.Fields left right :=
  ⟨weaker.names _ _ fields.name, fields.tag, optionRel_mono weaker.nodes fields.default⟩

/-- Methods that correspond still do. -/
theorem Methods.mono {left right : MethodDecl} (methods : earlier.Methods left right) :
    later.Methods left right :=
  ⟨weaker.names _ _ methods.name, methods.params.mono weaker, weaker.nodes _ _ methods.body⟩

/-- Classes that correspond still do. -/
theorem Classes.mono {left right : ClassDecl} (classes : earlier.Classes left right) :
    later.Classes left right :=
  ⟨weaker.names _ _ classes.name, classes.fields.imp fun _ _ => Fields.mono weaker,
    classes.methods.imp fun _ _ => Methods.mono weaker⟩

/-- Kinds that correspond still do. -/
theorem Kinds.mono {left right : NodeKind} (kinds : earlier.Kinds left right) :
    later.Kinds left right := by
  have names := weaker.names
  have nodes := weaker.nodes
  cases kinds with
  | int value => exact .int value
  | float bits => exact .float bits
  | bool value => exact .bool value
  | string text => exact .string (names _ _ text)
  | read name => exact .read (names _ _ name)
  | binary op first second => exact .binary op (nodes _ _ first) (nodes _ _ second)
  | branch condition thenBranch elseBranch =>
    exact .branch (nodes _ _ condition) (nodes _ _ thenBranch) (optionRel_mono nodes elseBranch)
  | block body => exact .block (body.mono weaker)
  | declare tag name value => exact .declare tag (names _ _ name) (nodes _ _ value)
  | assign name value => exact .assign (names _ _ name) (nodes _ _ value)
  | function name params body =>
    exact .function (names _ _ name) (params.mono weaker) (nodes _ _ body)
  | call callee args => exact .call (names _ _ callee) (args.mono weaker)
  | classDecl leftFound rightFound decl =>
    exact .classDecl (weaker.left ▸ leftFound) (weaker.right ▸ rightFound) (decl.mono weaker)
  | construct owner args => exact .construct (names _ _ owner) (args.mono weaker)
  | methodCall receiver method args =>
    exact .methodCall (nodes _ _ receiver) (names _ _ method) (args.mono weaker)
  | field receiver name => exact .field (nodes _ _ receiver) (names _ _ name)
  | array elements => exact .array (elements.mono weaker)
  | index receiver position => exact .index (nodes _ _ receiver) (nodes _ _ position)
  | lambda param body => exact .lambda (names _ _ param) (nodes _ _ body)
  | reference name => exact .reference (names _ _ name)
  | assignThrough name value => exact .assignThrough (names _ _ name) (nodes _ _ value)

end Weakening

end Pairing

/-- Place of a node among the programs of a setting. -/
structure Place where
  /-- Number of the program. -/
  program : ProgramId
  /-- Position in the program. -/
  node : NodeId
deriving DecidableEq

/-- Relation between the places of two settings. -/
abbrev Bond := Place → Place → Prop

namespace Setting

/-- The symbols are held on their sides, with the same text. -/
def SameName (left right : Setting) (a b : Symbol) : Prop :=
  ∃ text, left.symbols.Spells a text ∧ right.symbols.Spells b text

/-- What corresponds between two loaded programs under a bond. -/
def pairing (left right : Setting) (bond : Bond) (leftId rightId : ProgramId)
    (leftCode rightCode : Program) : Pairing where
  names := left.SameName right
  nodes := fun a b => bond ⟨leftId, a⟩ ⟨rightId, b⟩
  left := leftCode
  right := rightCode

/-- Two places hold nodes with the same span whose kinds correspond under a bond. -/
structure Match (left right : Setting) (bond : Bond) (a b : Place) (leftCode rightCode : Program)
    (leftNode rightNode : Node) : Prop where
  /-- The program on the left has been loaded. -/
  leftLoaded : left.program? a.program = some leftCode
  /-- The program on the right has been loaded. -/
  rightLoaded : right.program? b.program = some rightCode
  /-- It has the node on the left. -/
  leftFound : leftCode.node? a.node = some leftNode
  /-- It has the node on the right. -/
  rightFound : rightCode.node? b.node = some rightNode
  /-- The spans are equal. -/
  span : leftNode.span = rightNode.span
  /-- The kinds correspond. -/
  kind : (left.pairing right bond a.program b.program leftCode rightCode).Kinds leftNode.kind
    rightNode.kind

/-- Bonded places hold nodes with the same span whose kinds correspond under the bond. -/
def Bonded (left right : Setting) (bond : Bond) : Prop :=
  ∀ a b, bond a b → ∃ leftCode rightCode leftNode rightNode,
    left.Match right bond a b leftCode rightCode leftNode rightNode

/-- The places hold the same source: a bond relates them. -/
def Corresponds (left right : Setting) (a b : Place) : Prop :=
  ∃ bond : Bond, left.Bonded right bond ∧ bond a b

/-- With more names and more bonds more corresponds between the same programs. -/
theorem pairing_weaker {left right laterLeft laterRight : Setting} {bond later : Bond}
    (names : ∀ a b, left.SameName right a b → laterLeft.SameName laterRight a b)
    (bonds : ∀ a b, bond a b → later a b) (leftId rightId : ProgramId)
    (leftCode rightCode : Program) :
    (left.pairing right bond leftId rightId leftCode rightCode).Weaker
      (laterLeft.pairing laterRight later leftId rightId leftCode rightCode) :=
  ⟨names, fun _ _ => bonds _ _, rfl, rfl⟩

/-- Matching places match under a larger bond and with more names that correspond. -/
theorem Match.mono {left right laterLeft laterRight : Setting} {bond later : Bond} {a b : Place}
    {leftCode rightCode : Program} {leftNode rightNode : Node}
    (held : left.Match right bond a b leftCode rightCode leftNode rightNode)
    (leftKeeps : left.Keeps laterLeft) (rightKeeps : right.Keeps laterRight)
    (names : ∀ a b, left.SameName right a b → laterLeft.SameName laterRight a b)
    (bonds : ∀ a b, bond a b → later a b) :
    laterLeft.Match laterRight later a b leftCode rightCode leftNode rightNode where
  leftLoaded := leftKeeps _ _ held.leftLoaded
  rightLoaded := rightKeeps _ _ held.rightLoaded
  leftFound := held.leftFound
  rightFound := held.rightFound
  span := held.span
  kind := held.kind.mono (pairing_weaker names bonds _ _ _ _)

/-- Correspondence is itself a bond, the largest one. -/
theorem bonded_corresponds (left right : Setting) : left.Bonded right (left.Corresponds right) := by
  rintro a b ⟨bond, bonded, related⟩
  obtain ⟨leftCode, rightCode, leftNode, rightNode, held⟩ := bonded a b related
  refine ⟨leftCode, rightCode, leftNode, rightNode, ?_⟩
  exact held.mono (.refl left) (.refl right) (fun _ _ same => same)
    fun a b related => ⟨bond, bonded, related⟩

/-- The later setting has the programs and the symbols of the earlier one, and perhaps more. -/
structure Grows (earlier later : Setting) : Prop where
  /-- Programs stay under their numbers. -/
  programs : earlier.Keeps later
  /-- The symbol table has grown. -/
  symbols : earlier.symbols.Grows later.symbols
  /-- The top level is the same. -/
  global : later.global = earlier.global
  /-- The hop limit is the same. -/
  maxHops : later.maxHops = earlier.maxHops

/-- A setting grows from itself. -/
theorem Grows.refl (setting : Setting) : setting.Grows setting :=
  ⟨.refl setting, ⟨[], rfl⟩, rfl, rfl⟩

section Growing

variable {left right laterLeft laterRight : Setting} (leftGrows : left.Grows laterLeft)
  (rightGrows : right.Grows laterRight)
include leftGrows rightGrows

/-- Symbols with the same text keep it. -/
theorem SameName.grow {a b : Symbol} (same : left.SameName right a b) :
    laterLeft.SameName laterRight a b := by
  obtain ⟨text, leftSpells, rightSpells⟩ := same
  exact ⟨text, leftGrows.symbols.spells leftSpells, rightGrows.symbols.spells rightSpells⟩

/-- Places that correspond still do. -/
theorem Corresponds.grow {a b : Place} (corresponds : left.Corresponds right a b) :
    laterLeft.Corresponds laterRight a b := by
  obtain ⟨bond, bonded, related⟩ := corresponds
  refine ⟨bond, fun a b related => ?_, related⟩
  obtain ⟨leftCode, rightCode, leftNode, rightNode, held⟩ := bonded a b related
  refine ⟨leftCode, rightCode, leftNode, rightNode, ?_⟩
  exact held.mono leftGrows.programs rightGrows.programs
    (fun a b same => same.grow leftGrows rightGrows) fun _ _ related => related

end Growing

/-- The settings differ only in their programs and in the positions of their symbols: neither holds a
text twice, and the top level and the hop limit are the same. -/
structure Comparable (left right : Setting) : Prop where
  /-- The table on the left holds no text twice. -/
  leftDistinct : left.symbols.Distinct
  /-- The table on the right holds no text twice. -/
  rightDistinct : right.symbols.Distinct
  /-- The top levels have the same handle. -/
  global : left.global = right.global
  /-- The hop limits are equal. -/
  maxHops : left.maxHops = right.maxHops

/-- Settings that can be compared can still be compared when they have grown. -/
theorem Comparable.grow {left right laterLeft laterRight : Setting}
    (comparable : left.Comparable right) (leftGrows : left.Grows laterLeft)
    (rightGrows : right.Grows laterRight) : laterLeft.Comparable laterRight where
  leftDistinct := leftGrows.symbols.distinct comparable.leftDistinct
  rightDistinct := rightGrows.symbols.distinct comparable.rightDistinct
  global := leftGrows.global.trans (comparable.global.trans rightGrows.global.symm)
  maxHops := leftGrows.maxHops.trans (comparable.maxHops.trans rightGrows.maxHops.symm)

/-- Symbols with the same text determine each other. -/
theorem Comparable.biUnique {left right : Setting} (comparable : left.Comparable right) :
    Relator.BiUnique (left.SameName right) := by
  constructor
  · rintro a b c ⟨text, first, held⟩ ⟨other, second, again⟩
    obtain rfl : text = other := Option.some.inj (held.symm.trans again)
    exact comparable.leftDistinct.eq_of_spells first second
  · rintro a b c ⟨text, held, first⟩ ⟨other, again, second⟩
    obtain rfl : text = other := Option.some.inj (held.symm.trans again)
    exact comparable.rightDistinct.eq_of_spells first second

/-- Symbols that are held with the same texts one by one correspond. -/
theorem forall₂_sameName {left right : Setting} {lefts rights : List Symbol} {texts : List String}
    (first : List.Forall₂ left.symbols.Spells lefts texts)
    (second : List.Forall₂ right.symbols.Spells rights texts) :
    List.Forall₂ (left.SameName right) lefts rights := by
  induction first generalizing rights with
  | nil =>
    cases second
    exact .nil
  | cons spells _ ih =>
    cases second with
    | cons other rest => exact .cons ⟨_, spells, other⟩ (ih rest)

/-- Symbols that correspond have the same text. -/
theorem SameName.text_eq {left right : Setting} {a b : Symbol} (same : left.SameName right a b) :
    left.text a = right.text b := by
  obtain ⟨text, leftSpells, rightSpells⟩ := same
  exact leftSpells.text_eq.trans rightSpells.text_eq.symm

end Setting

end ScopeMachine
