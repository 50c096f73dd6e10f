import ScopeMachine.Proofs.Evaluation.Outcome
import ScopeMachine.Proofs.Symbol.Map
import ScopeMachine.Value.Handles
import ScopeMachine.Value.Text

/-!
# Renaming of handles in values

Replacing the handles of a value changes nothing that the language can see: kinds, texts, truth,
operators and annotations are the same before and after. Renamings compose, and only their effect on
the handles that occur matters.
-/

namespace ScopeMachine

/-- Variable with the handle of its scope replaced. -/
def Location.rename (f : Handle → Handle) (target : Location) : Location :=
  { target with scope := f target.scope }

/-- Function with the handle of its scope replaced. -/
def Closure.rename (f : Handle → Handle) (function : Closure) : Closure :=
  { function with scope := f function.scope }

/-- Class with the handle of its scope replaced. -/
def ClassObject.rename (f : Handle → Handle) (owner : ClassObject) : ClassObject :=
  { owner with scope := f owner.scope }

/-- Object with the handles of its class, its storage and its methods replaced. -/
def Object.rename (f : Handle → Handle) (object : Object) : Object :=
  { owner := object.owner.rename f
    storage := f object.storage
    methods := object.methods.mapValues (Closure.rename f) }

namespace Value

mutual

/-- Value with every handle replaced. -/
def rename (f : Handle → Handle) : Value → Value
  | .array items => .array (renameAll f items)
  | .function value => .function (value.rename f)
  | .reference target => .reference (target.rename f)
  | .classObject value => .classObject (value.rename f)
  | .object value => .object (value.rename f)
  | .int value => .int value
  | .float value => .float value
  | .bool value => .bool value
  | .void => .void
  | .string text => .string text
  | .native value => .native value

/-- Values with every handle replaced. -/
def renameAll (f : Handle → Handle) : List Value → List Value
  | [] => []
  | value :: rest => rename f value :: renameAll f rest

end

/-- Values of a list are renamed one by one. -/
@[simp] theorem renameAll_eq_map (f : Handle → Handle) (values : List Value) :
    renameAll f values = values.map (rename f) := by
  induction values with
  | nil => rfl
  | cons value rest ih => rw [renameAll, ih, List.map_cons]

/-- The handles of a list are those of its members in order. -/
@[simp] theorem handlesAll_eq_flatMap (values : List Value) :
    handlesAll values = values.flatMap handles := by
  induction values with
  | nil => rfl
  | cons value rest ih => rw [handlesAll, ih, List.flatMap_cons]

/-- The texts of a list are those of its members in order. -/
@[simp] theorem texts_eq_map (symbols : SymbolTable) (values : List Value) :
    texts symbols values = values.map (text symbols) := by
  induction values with
  | nil => rfl
  | cons value rest ih => rw [texts, ih, List.map_cons]

/-- Induction on the nesting of arrays. -/
@[elab_as_elim] theorem arrayInduction {motive : Value → Prop}
    (array : ∀ items : List Value, (∀ item ∈ items, motive item) → motive (.array items))
    (flat : ∀ value : Value, (∀ items, value ≠ .array items) → motive value) (value : Value) :
    motive value := by
  refine @Value.rec motive (fun items => ∀ item ∈ items, motive item) ?int ?float ?bool ?void
    ?string ?array ?function ?native ?reference ?classObject ?object ?nil ?cons value
  case array => exact array
  case nil => simp
  case cons =>
    intro head tail headHolds tailHolds item held
    rcases List.mem_cons.1 held with rfl | later
    · exact headHolds
    · exact tailHolds item later
  all_goals
    intros
    apply flat
    simp

section Renaming

variable (f g : Handle → Handle)

/-- Renaming a value renames its handles in their places. -/
@[simp] theorem handles_rename (value : Value) :
    (value.rename f).handles = value.handles.map f := by
  induction value using arrayInduction with
  | array items ih =>
    simp only [rename, handles, renameAll_eq_map, handlesAll_eq_flatMap, List.flatMap_map,
      List.map_flatMap]
    exact List.flatMap_congr ih
  | flat value plain =>
    cases value <;>
      simp_all [rename, handles, Closure.rename, Location.rename, ClassObject.rename,
        Object.rename, Function.comp_def]

/-- Renamings that agree on the handles of a value rename it alike. -/
theorem rename_congr {f g : Handle → Handle} {value : Value}
    (agree : ∀ handle ∈ value.handles, f handle = g handle) : value.rename f = value.rename g := by
  induction value using arrayInduction with
  | array items ih =>
    simp only [handles, handlesAll_eq_flatMap, List.mem_flatMap, forall_exists_index,
      and_imp] at agree
    simp only [rename, renameAll_eq_map, Value.array.injEq]
    exact List.map_congr_left fun item held =>
      ih item held fun handle inner => agree handle item held inner
  | flat value plain =>
    cases value with
    | object value =>
      simp only [handles, List.mem_cons, List.mem_map, forall_eq_or_imp] at agree
      obtain ⟨storage, owner, methods⟩ := agree
      have sameMethods : value.methods.mapValues (Closure.rename f) =
          value.methods.mapValues (Closure.rename g) := by
        simp only [SymbolMap.mapValues, SymbolMap.mk.injEq]
        refine List.map_congr_left fun entry held => ?_
        have same := methods entry.2.scope ⟨entry.2, List.mem_map_of_mem held, rfl⟩
        simp [Closure.rename, same]
      simp [rename, Object.rename, ClassObject.rename, storage, owner, sameMethods]
    | _ =>
      simp_all [rename, handles, Closure.rename, Location.rename, ClassObject.rename]

/-- Renaming twice is renaming by the composition. -/
theorem rename_rename (value : Value) : (value.rename f).rename g = value.rename (g ∘ f) := by
  induction value using arrayInduction with
  | array items ih =>
    simp only [rename, renameAll_eq_map, List.map_map, Value.array.injEq]
    exact List.map_congr_left ih
  | flat value plain =>
    cases value <;>
      simp_all [rename, Closure.rename, Location.rename, ClassObject.rename, Object.rename,
        SymbolMap.mapValues]

/-- Renaming each handle to itself changes nothing. -/
@[simp] theorem rename_id (value : Value) : value.rename id = value := by
  induction value using arrayInduction with
  | array items ih =>
    simp only [rename, renameAll_eq_map, Value.array.injEq]
    have each : items.map (rename id) = items.map id := List.map_congr_left ih
    rw [each, List.map_id]
  | flat value plain =>
    cases value <;>
      simp_all [rename, Closure.rename, Location.rename, ClassObject.rename, Object.rename,
        SymbolMap.mapValues]

/-- Renaming keeps the kind of a value. -/
@[simp] theorem kindName_rename (value : Value) : (value.rename f).kindName = value.kindName := by
  cases value <;> rfl

/-- Renaming keeps whether a value can be called. -/
@[simp] theorem isCallable_rename (value : Value) :
    (value.rename f).isCallable = value.isCallable := by
  cases value <;> rfl

/-- Renaming keeps which annotations a value satisfies. -/
@[simp] theorem hasTag_rename (value : Value) (tag : TypeTag) :
    (value.rename f).hasTag tag = value.hasTag tag := by
  cases value <;> cases tag <;> rfl

/-- Renaming keeps whether a value holds as a condition. -/
@[simp] theorem holds_rename (value : Value) : (value.rename f).holds = value.holds := by
  cases value <;> rfl

/-- Renaming keeps the text of a value. -/
@[simp] theorem text_rename (symbols : SymbolTable) (value : Value) :
    (value.rename f).text symbols = value.text symbols := by
  induction value using arrayInduction with
  | array items ih =>
    simp only [rename, text, renameAll_eq_map, texts_eq_map, List.map_map]
    exact congrArg Text.bracketed (List.map_congr_left ih)
  | flat value plain =>
    cases value <;>
      simp_all [rename, text, Closure.rename, Location.rename, ClassObject.rename, Object.rename]

/-- Renaming keeps whether a value passes an annotation. -/
@[simp] theorem checkTag_rename (name : String) (tag : Option TypeTag) (value : Value) :
    checkTag name tag (value.rename f) = checkTag name tag value := by
  cases tag <;> simp [checkTag]

/-- Taking an element and renaming commute. -/
theorem element_rename (receiver position : Value) :
    (receiver.rename f).element (position.rename f) =
      (receiver.element position).map (rename f) := by
  cases receiver with
  | array items =>
    cases position with
    | int index =>
      simp only [rename, renameAll_eq_map, element, List.length_map, List.getElem?_map]
      by_cases inside : 0 ≤ index.toInt
      · simp only [inside, if_true]
        cases items[index.toInt.toNat]? <;> rfl
      · simp only [inside, if_false]
        rfl
    | _ => rfl
  | _ => rfl

/-- An element holds no handles that its array does not hold. -/
theorem handles_element {receiver position item : Value}
    (found : receiver.element position = .ok item) {handle : Handle}
    (held : handle ∈ item.handles) : handle ∈ receiver.handles := by
  unfold element at found
  split at found
  · rename_i items
    split at found
    · rename_i index
      split at found
      · rename_i element listed
        obtain rfl := Except.ok.inj found
        split at listed
        · rw [handles, handlesAll_eq_flatMap]
          exact List.mem_flatMap.2 ⟨element, List.mem_of_getElem? listed, held⟩
        · simp at listed
      · simp at found
    · simp at found
  · simp at found

end Renaming

/-- Scalars hold no handles. -/
theorem handles_eq_nil_of_isScalar {value : Value} (data : value.isScalar = true) :
    value.handles = [] := by
  cases value <;> first | rfl | exact nomatch data

end Value

/-- The computation fails or gives a value without handles. -/
def Plain (computed : Except Failure Value) : Prop :=
  ∀ result, computed = .ok result → result.handles = []

namespace BinaryOp

/-- Operators do not depend on handles. -/
theorem apply_rename (f : Handle → Handle) (op : BinaryOp) (left right : Value) :
    op.apply (left.rename f) (right.rename f) = op.apply left right := by
  cases left <;> cases right <;> rfl

/-- Outcomes of operators are plain. -/
theorem Outcome.plain {computed : Except Failure Value} (outcome : Outcome computed) :
    Plain computed := by
  intro result succeeded
  cases outcome with
  | scalar data =>
    obtain rfl := Except.ok.inj succeeded
    exact Value.handles_eq_nil_of_isScalar data
  | _ => exact nomatch succeeded

end BinaryOp

end ScopeMachine
