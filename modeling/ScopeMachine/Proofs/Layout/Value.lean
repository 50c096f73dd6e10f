import ScopeMachine.Proofs.Evaluation.Outcome
import ScopeMachine.Proofs.Layout.Correspondence
import ScopeMachine.Proofs.Renaming.Basic

/-!
# Values that are alike

Values of two layouts are alike when they are the same up to the positions of names and to where the
source of functions and classes stands: functions have bodies that correspond, classes have fields and
methods that correspond, and everything else, the handles of scopes among it, is equal. Nothing that
the language can see tells values that are alike apart: kinds, texts, truth, operators and annotations
are the same.

The functions of the machine itself are alike; those of a host are not values of a program that has
been given none.
-/

namespace ScopeMachine

/-- Two computations end with related results or with the same failure. -/
abbrev BothEnd {ε α β : Type} (related : α → β → Prop) : Except ε α → Except ε β → Prop :=
  Agreement False (fun _ => False) Eq related

/-- Entries put together from related keys and related values are related. -/
theorem forall₂_zip {α β γ δ : Type} {keys : α → β → Prop} {related : γ → δ → Prop}
    {leftKeys : List α} {rightKeys : List β} {lefts : List γ} {rights : List δ}
    (first : List.Forall₂ keys leftKeys rightKeys) (second : List.Forall₂ related lefts rights) :
    List.Forall₂ (fun a b => keys a.1 b.1 ∧ related a.2 b.2) (leftKeys.zip lefts)
      (rightKeys.zip rights) := by
  induction first generalizing lefts rights with
  | nil => exact .nil
  | cons key _ ih =>
    cases second with
    | nil => exact .nil
    | cons value values => exact .cons ⟨key, value⟩ (ih values)

/-- Members of related lists at the same position are related, or there are none. -/
theorem optionRel_getElem? {α β : Type} {related : α → β → Prop} {lefts : List α}
    {rights : List β} (all : List.Forall₂ related lefts rights) (position : Nat) :
    Option.Rel related lefts[position]? rights[position]? := by
  induction all generalizing position with
  | nil => exact .none
  | cons both _ ih =>
    cases position with
    | zero => exact .some both
    | succ position => simpa using ih position

namespace SymbolMap

variable {α β γ δ : Type}

/-- The maps have corresponding keys in the same order, with related values. -/
def Alike (names : Symbol → Symbol → Prop) (related : α → β → Prop) (left : SymbolMap α)
    (right : SymbolMap β) : Prop :=
  List.Forall₂ (fun a b => names a.1 b.1 ∧ related a.2 b.2) left.entries right.entries

variable {names : Symbol → Symbol → Prop} {related : α → β → Prop} {left : SymbolMap α}
  {right : SymbolMap β}

/-- Empty maps are alike. -/
theorem alike_empty : Alike names related (empty : SymbolMap α) (empty : SymbolMap β) := .nil

/-- Maps that are alike are alike under weaker relations. -/
theorem Alike.mono {weakerNames : Symbol → Symbol → Prop} {weaker : α → β → Prop}
    (alike : Alike names related left right) (keys : ∀ a b, names a b → weakerNames a b)
    (values : ∀ a b, related a b → weaker a b) : Alike weakerNames weaker left right :=
  alike.imp fun _ _ entry => ⟨keys _ _ entry.1, values _ _ entry.2⟩

/-- The values of maps that are alike are related one by one. -/
theorem Alike.values (alike : Alike names related left right) :
    List.Forall₂ related left.values right.values := by
  unfold SymbolMap.values
  rw [List.forall₂_map_left_iff, List.forall₂_map_right_iff]
  exact alike.imp fun _ _ entry => entry.2

/-- Functions that keep values related keep maps alike. -/
theorem Alike.mapValues {after : γ → δ → Prop} {f : α → γ} {g : β → δ}
    (alike : Alike names related left right)
    (keeps : ∀ a b, related a b → after (f a) (g b)) :
    Alike names after (left.mapValues f) (right.mapValues g) := by
  unfold Alike SymbolMap.mapValues
  rw [List.forall₂_map_left_iff, List.forall₂_map_right_iff]
  exact alike.imp fun _ _ entry => ⟨entry.1, keeps _ _ entry.2⟩

section Keys

variable (unique : Relator.BiUnique names) {a b : Symbol} (same : names a b)
include unique

/-- Two keys are equal exactly when the corresponding ones are. -/
theorem eq_iff_of_biUnique {c d : Symbol} (same : names a b) (other : names c d) :
    c = a ↔ d = b := by
  constructor
  · rintro rfl
    exact unique.2 other same
  · rintro rfl
    exact unique.1 other same

include same

/-- Reading corresponding keys of maps that are alike gives related values. -/
theorem Alike.get? (alike : Alike names related left right) :
    Option.Rel related (left.get? a) (right.get? b) := by
  obtain ⟨lefts⟩ := left
  obtain ⟨rights⟩ := right
  unfold Alike at alike
  simp only [SymbolMap.get?] at alike ⊢
  induction alike with
  | nil => exact .none
  | @cons leftEntry rightEntry _ _ entry _ ih =>
    have keys := eq_iff_of_biUnique unique same entry.1
    rw [lookup, lookup]
    by_cases found : leftEntry.1 = a
    · rw [if_pos found, if_pos (keys.1 found)]
      exact .some entry.2
    · rw [if_neg found, if_neg (mt keys.2 found)]
      exact ih

/-- A key is present exactly when the corresponding one is. -/
theorem Alike.contains_eq (alike : Alike names related left right) :
    left.contains a = right.contains b := by
  unfold SymbolMap.contains
  exact optionRel_elim (alike.get? unique same) rfl fun _ _ _ => rfl

/-- Writing related values at corresponding keys keeps maps alike. -/
theorem Alike.insert (alike : Alike names related left right) {value : α} {other : β}
    (values : related value other) :
    Alike names related (left.insert a value) (right.insert b other) := by
  obtain ⟨lefts⟩ := left
  obtain ⟨rights⟩ := right
  unfold Alike at alike ⊢
  simp only [SymbolMap.insert] at alike ⊢
  induction alike with
  | nil => exact .cons ⟨same, values⟩ .nil
  | @cons leftEntry rightEntry _ _ entry rest ih =>
    have keys := eq_iff_of_biUnique unique same entry.1
    rw [update, update]
    by_cases found : leftEntry.1 = a
    · rw [if_pos found, if_pos (keys.1 found)]
      exact .cons ⟨entry.1, values⟩ rest
    · rw [if_neg found, if_neg (mt keys.2 found)]
      exact .cons entry ih

end Keys

/-- Lists of corresponding entries make maps that are alike. -/
theorem alike_ofList (unique : Relator.BiUnique names) {lefts : List (Symbol × α)}
    {rights : List (Symbol × β)}
    (entries : List.Forall₂ (fun a b => names a.1 b.1 ∧ related a.2 b.2) lefts rights) :
    Alike names related (ofList lefts) (ofList rights) := by
  have general : ∀ (left : SymbolMap α) (right : SymbolMap β), Alike names related left right →
      Alike names related (lefts.foldl (fun map entry => map.insert entry.1 entry.2) left)
        (rights.foldl (fun map entry => map.insert entry.1 entry.2) right) := by
    induction entries with
    | nil => exact fun _ _ alike => alike
    | cons entry _ ih => exact fun _ _ alike => ih _ _ (alike.insert unique entry.1 entry.2)
  exact general empty empty alike_empty

end SymbolMap

/-- The classes have corresponding names, fields and methods, and the same scope. -/
structure Pairing.ClassObjects (pairing : Pairing) (left right : ClassObject) : Prop where
  /-- The names correspond. -/
  name : pairing.names left.name right.name
  /-- The fields correspond in order. -/
  fields : List.Forall₂ pairing.Fields left.fields right.fields
  /-- The methods correspond in order. -/
  methods : left.methods.Alike pairing.names pairing.Methods right.methods
  /-- The scopes are equal. -/
  scope : left.scope = right.scope

section Alike

variable (left right : Setting)

/-- What corresponds between two loaded programs. -/
abbrev Setting.sources (leftId rightId : ProgramId) (leftCode rightCode : Program) : Pairing :=
  left.pairing right (left.Corresponds right) leftId rightId leftCode rightCode

/-- The functions have corresponding names, parameters and bodies, and the same scope. -/
structure Closure.Alike (a b : Closure) : Prop where
  /-- The names correspond, or there is none. -/
  name : Option.Rel (left.SameName right) a.name b.name
  /-- The parameters correspond. -/
  params : List.Forall₂ (left.SameName right) a.params b.params
  /-- The bodies correspond. -/
  body : left.Corresponds right ⟨a.program, a.body⟩ ⟨b.program, b.body⟩
  /-- The scopes are equal. -/
  scope : a.scope = b.scope

/-- The programs of the classes have been loaded, and the classes correspond. -/
def ClassObject.Alike (a b : ClassObject) : Prop :=
  ∃ leftCode rightCode, left.program? a.program = some leftCode ∧
    right.program? b.program = some rightCode ∧
    (left.sources right a.program b.program leftCode rightCode).ClassObjects a b

/-- The objects have classes and methods that are alike, and the same storage. -/
structure Object.Alike (a b : Object) : Prop where
  /-- The classes are alike. -/
  owner : a.owner.Alike left right b.owner
  /-- The storages are equal. -/
  storage : a.storage = b.storage
  /-- The methods are alike. -/
  methods : a.methods.Alike (left.SameName right) (Closure.Alike left right) b.methods

/-- The variables have corresponding names in the same scope. -/
structure Location.Alike (a b : Location) : Prop where
  /-- The scopes are equal. -/
  scope : a.scope = b.scope
  /-- The names correspond. -/
  name : left.SameName right a.name b.name

/-- The values are the same up to the positions of names and of source. -/
inductive Value.Alike : Value → Value → Prop where
  | int (value : Int64) : Alike (.int value) (.int value)
  | float (value : Float) : Alike (.float value) (.float value)
  | bool (value : Bool) : Alike (.bool value) (.bool value)
  | void : Alike .void .void
  | string (text : String) : Alike (.string text) (.string text)
  | array {lefts rights : List Value} (length : lefts.length = rights.length)
    (items : ∀ a b, (a, b) ∈ lefts.zip rights → Alike a b) : Alike (.array lefts) (.array rights)
  | function {a b : Closure} (both : a.Alike left right b) : Alike (.function a) (.function b)
  | native (value : Native) (own : ∀ entry, value.role ≠ .host entry) :
    Alike (.native value) (.native value)
  | reference {a b : Location} (both : a.Alike left right b) : Alike (.reference a) (.reference b)
  | classObject {a b : ClassObject} (both : a.Alike left right b) :
    Alike (.classObject a) (.classObject b)
  | object {a b : Object} (both : a.Alike left right b) : Alike (.object a) (.object b)

end Alike

namespace Value

variable {left right : Setting}

/-- Arrays are alike when their elements are, one by one. -/
theorem alike_array_iff {lefts rights : List Value} :
    Alike left right (.array lefts) (.array rights) ↔
      List.Forall₂ (Alike left right) lefts rights := by
  rw [List.forall₂_iff_zip]
  constructor
  · rintro (_ | _ | _ | _ | _ | ⟨length, items⟩)
    exact ⟨length, items _ _⟩
  · rintro ⟨length, items⟩
    exact .array length fun _ _ => items

/-- A scalar is like itself. -/
theorem alike_of_isScalar {value : Value} (plain : value.isScalar = true) :
    Alike left right value value := by
  cases value <;> first | contradiction | constructor

/-- The default of an annotation is like itself. -/
theorem alike_blankFor (tag : Option TypeTag) :
    Alike left right (blankFor tag) (blankFor tag) := by
  refine alike_of_isScalar ?_
  rcases tag with _ | tag
  · rfl
  · cases tag <;> rfl

section Seen

variable {a b : Value} (alike : Alike left right a b)
include alike

/-- Values that are alike are of the same kind. -/
theorem Alike.kindName_eq : a.kindName = b.kindName := by
  cases alike <;> rfl

/-- Values that are alike can both be called, or neither. -/
theorem Alike.isCallable_eq : a.isCallable = b.isCallable := by
  cases alike <;> rfl

/-- Values that are alike satisfy the same annotations. -/
theorem Alike.hasTag_eq (tag : TypeTag) : a.hasTag tag = b.hasTag tag := by
  cases alike <;> cases tag <;> rfl

/-- Values that are alike both hold as conditions, or neither. -/
theorem Alike.holds_eq : a.holds = b.holds := by
  cases alike <;> rfl

/-- Values that are alike pass the same annotations. -/
theorem Alike.checkTag_eq (name : String) (tag : Option TypeTag) :
    checkTag name tag a = checkTag name tag b := by
  unfold checkTag
  rw [alike.kindName_eq]
  cases tag with
  | none => rfl
  | some tag => simp only [alike.hasTag_eq tag]

/-- Operators do not tell values that are alike apart. -/
theorem Alike.apply_eq (op : BinaryOp) {c d : Value} (second : Alike left right c d) :
    op.apply a c = op.apply b d := by
  cases alike <;> cases second <;> rfl

/-- Values that are alike have the same text. -/
theorem Alike.text_eq : a.text left.symbols = b.text right.symbols := by
  induction alike with
  | int | float | bool | void | string | native => rfl
  | @array lefts rights length items ih =>
    have texts : lefts.map (text left.symbols) = rights.map (text right.symbols) := by
      rw [← List.forall₂_eq_eq_eq, List.forall₂_map_left_iff, List.forall₂_map_right_iff,
        List.forall₂_iff_zip]
      exact ⟨length, ih _ _⟩
    rw [text, text, texts_eq_map, texts_eq_map, texts]
  | @function a b both =>
    rw [text, text]
    refine optionRel_elim both.name rfl fun a b same => ?_
    have equal : left.symbols.text a = right.symbols.text b := same.text_eq
    simp only [equal]
  | @reference a b both =>
    have equal : left.symbols.text a.name = right.symbols.text b.name := both.name.text_eq
    rw [text, text, equal]
  | @classObject a b both =>
    obtain ⟨_, _, _, _, same⟩ := both
    have equal : left.symbols.text a.name = right.symbols.text b.name :=
      Setting.SameName.text_eq same.name
    rw [text, text, equal]
  | @object a b both =>
    obtain ⟨_, _, _, _, same⟩ := both.owner
    have equal : left.symbols.text a.owner.name = right.symbols.text b.owner.name :=
      Setting.SameName.text_eq same.name
    rw [text, text, equal]

/-- Values that are alike hold the same handles. -/
theorem Alike.handles_eq : a.handles = b.handles := by
  induction alike with
  | int | float | bool | void | string | native => rfl
  | @array lefts rights length items ih =>
    have handles : lefts.map handles = rights.map handles := by
      rw [← List.forall₂_eq_eq_eq, List.forall₂_map_left_iff, List.forall₂_map_right_iff,
        List.forall₂_iff_zip]
      exact ⟨length, ih _ _⟩
    rw [Value.handles, Value.handles, handlesAll_eq_flatMap, handlesAll_eq_flatMap,
      List.flatMap_def, List.flatMap_def, handles]
  | function both => rw [Value.handles, Value.handles, both.scope]
  | reference both => rw [Value.handles, Value.handles, both.scope]
  | classObject both =>
    obtain ⟨_, _, _, _, same⟩ := both
    rw [Value.handles, Value.handles, same.scope]
  | @object a b both =>
    obtain ⟨_, _, _, _, same⟩ := both.owner
    have scopes : a.methods.values.map Closure.scope = b.methods.values.map Closure.scope := by
      rw [← List.forall₂_eq_eq_eq, List.forall₂_map_left_iff, List.forall₂_map_right_iff]
      exact both.methods.values.imp fun _ _ method => method.scope
    rw [Value.handles, Value.handles, both.storage, same.scope, scopes]

/-- Elements of arrays that are alike are alike, at the same positions. -/
theorem Alike.element {c d : Value} (position : Alike left right c d) :
    BothEnd (Alike left right) (a.element c) (b.element d) := by
  cases alike with
  | @array lefts rights length items =>
    cases position with
    | int index =>
      have found := optionRel_getElem? (alike_array_iff.1 (.array length items)) index.toInt.toNat
      simp only [Value.element, length]
      by_cases inside : 0 ≤ index.toInt
      · simp only [inside, if_true]
        exact optionRel_elim found (.error rfl) fun _ _ both => .ok both
      · simp only [inside, if_false]
        exact .error rfl
    | _ => exact .error rfl
  | _ => exact .error rfl

end Seen

end Value

/-- The outcome of an operator is like itself. -/
theorem BinaryOp.Outcome.bothEnd {left right : Setting} {computed : Except Failure Value}
    (outcome : BinaryOp.Outcome computed) :
    BothEnd (Value.Alike left right) computed computed := by
  refine .of_self fun result found => ?_
  rw [found] at outcome
  cases outcome with
  | scalar plain => exact Value.alike_of_isScalar plain

/-- Operators on values that are alike end alike. -/
theorem BinaryOp.bothEnd_apply {left right : Setting} (op : BinaryOp) {a b c d : Value}
    (first : Value.Alike left right a b) (second : Value.Alike left right c d) :
    BothEnd (Value.Alike left right) (op.apply a c) (op.apply b d) := by
  rw [first.apply_eq op second]
  exact (outcome_apply op b d).bothEnd

/-- Corresponding declarations in one scope make classes that are alike. -/
theorem ClassObject.alike_ofDecl {left right : Setting} (comparable : left.Comparable right)
    {leftId rightId : ProgramId} {leftCode rightCode : Program}
    (leftLoaded : left.program? leftId = some leftCode)
    (rightLoaded : right.program? rightId = some rightCode) {a b : ClassDecl}
    (decls : (left.sources right leftId rightId leftCode rightCode).Classes a b) (scope : Handle) :
    (ofDecl a scope leftId).Alike left right (ofDecl b scope rightId) := by
  refine ⟨leftCode, rightCode, leftLoaded, rightLoaded, decls.name, decls.fields, ?_, rfl⟩
  refine SymbolMap.alike_ofList comparable.biUnique ?_
  rw [List.forall₂_map_left_iff, List.forall₂_map_right_iff]
  exact decls.methods.imp fun _ _ method => ⟨method.name, method⟩

section Growing

variable {left right laterLeft laterRight : Setting} (leftGrows : left.Grows laterLeft)
  (rightGrows : right.Grows laterRight)
include leftGrows rightGrows

/-- Functions that are alike stay alike when the settings grow. -/
theorem Closure.Alike.grow {a b : Closure} (alike : a.Alike left right b) :
    a.Alike laterLeft laterRight b where
  name := optionRel_mono (fun _ _ same => same.grow leftGrows rightGrows) alike.name
  params := alike.params.imp fun _ _ same => same.grow leftGrows rightGrows
  body := alike.body.grow leftGrows rightGrows
  scope := alike.scope

/-- Classes that are alike stay alike when the settings grow. -/
theorem ClassObject.Alike.grow {a b : ClassObject} (alike : a.Alike left right b) :
    a.Alike laterLeft laterRight b := by
  obtain ⟨leftCode, rightCode, leftLoaded, rightLoaded, same⟩ := alike
  have weaker : (left.sources right a.program b.program leftCode rightCode).Weaker
      (laterLeft.sources laterRight a.program b.program leftCode rightCode) :=
    Setting.pairing_weaker (fun _ _ same => same.grow leftGrows rightGrows)
      (fun _ _ same => same.grow leftGrows rightGrows) _ _ _ _
  refine ⟨leftCode, rightCode, leftGrows.programs _ _ leftLoaded,
    rightGrows.programs _ _ rightLoaded, weaker.names _ _ same.name, ?_, ?_, same.scope⟩
  · exact same.fields.imp fun _ _ field => field.mono weaker
  · exact same.methods.mono weaker.names fun _ _ method => method.mono weaker

/-- Values that are alike stay alike when the settings grow. -/
theorem Value.Alike.grow {a b : Value} (alike : Value.Alike left right a b) :
    Value.Alike laterLeft laterRight a b := by
  induction alike with
  | int value => exact .int value
  | float value => exact .float value
  | bool value => exact .bool value
  | void => exact .void
  | string text => exact .string text
  | array length _ ih => exact .array length ih
  | function both => exact .function (both.grow leftGrows rightGrows)
  | native value own => exact .native value own
  | reference both => exact .reference ⟨both.scope, both.name.grow leftGrows rightGrows⟩
  | classObject both => exact .classObject (both.grow leftGrows rightGrows)
  | object both =>
    refine .object ⟨both.owner.grow leftGrows rightGrows, both.storage, ?_⟩
    exact both.methods.mono (fun _ _ same => same.grow leftGrows rightGrows)
      fun _ _ method => method.grow leftGrows rightGrows

end Growing

end ScopeMachine
