import ScopeMachine.Proofs.Evaluation.Comparison
import ScopeMachine.Proofs.Renaming.Value
import ScopeMachine.Value.Equality

/-!
# Equality of values as a partial equivalence

Every value that contains no float without a number has an identity: data is what it looks like, and
functions, classes and objects are where they were made. Two values are equal exactly when they have
one identity in common, so equality is symmetric and transitive, and it is reflexive on the values
that have an identity and on no others.
-/

open Float.Model (UnpackedFloat)

namespace ScopeMachine

/-- Number that a float stands for: both zeros stand for one, and what is no number for none. -/
def numeral? (value : Float) : Option UnpackedFloat :=
  match value.toModel.unpack with
  | .notANumber => none
  | .zero _ => some (.zero .positive)
  | number => some number

/-- A float stands for a number unless it is none. -/
theorem numeral?_eq_none_iff (value : Float) : numeral? value = none ↔ value.isNaN = true := by
  change _ ↔ value.toModel.unpack.isNaN = true
  unfold numeral?
  cases value.toModel.unpack with
  | notANumber => exact iff_of_true rfl rfl
  | _ => exact iff_of_false (Option.some_ne_none _) Bool.false_ne_true

/-- Two floats are equal when they stand for one number. -/
theorem float_beq_iff (a b : Float) :
    (a == b) = true ↔ ∃ number, numeral? a = some number ∧ numeral? b = some number := by
  change (a.toModel.unpack.compare b.toModel.unpack == some .eq) = true ↔ _
  unfold numeral?
  cases a.toModel.unpack with
  | notANumber => exact iff_of_false Bool.false_ne_true (by rintro ⟨_, ⟨⟩, _⟩)
  | infinity sign =>
    cases b.toModel.unpack with
    | infinity other =>
      cases sign <;> cases other
      case negative.negative | positive.positive => exact iff_of_true rfl ⟨_, rfl, rfl⟩
      all_goals exact iff_of_false Bool.false_ne_true (by rintro ⟨_, ⟨⟩, ⟨⟩⟩)
    | _ => cases sign <;> exact iff_of_false Bool.false_ne_true (by rintro ⟨_, ⟨⟩, ⟨⟩⟩)
  | zero sign =>
    cases b.toModel.unpack with
    | zero other => exact iff_of_true rfl ⟨_, rfl, rfl⟩
    | notANumber => exact iff_of_false Bool.false_ne_true (by rintro ⟨_, _, ⟨⟩⟩)
    | infinity other | finite other =>
      cases other <;> exact iff_of_false Bool.false_ne_true (by rintro ⟨_, ⟨⟩, ⟨⟩⟩)
  | finite sign m e pos =>
    cases b.toModel.unpack with
    | zero other => cases sign <;> exact iff_of_false Bool.false_ne_true (by rintro ⟨_, ⟨⟩, ⟨⟩⟩)
    | notANumber => cases sign <;> exact iff_of_false Bool.false_ne_true (by rintro ⟨_, _, ⟨⟩⟩)
    | infinity other =>
      cases other <;> exact iff_of_false Bool.false_ne_true (by rintro ⟨_, ⟨⟩, ⟨⟩⟩)
    | finite other m' e' pos' =>
      have magnitudes : (compare e e').then (compare m m') = .eq ↔ e = e' ∧ m = m' := by
        rw [Ordering.then_eq_eq, compare_eq_iff_eq, compare_eq_iff_eq]
      have together : ∀ both : UnpackedFloat.Sign, e = e' ∧ m = m' ↔
          ∃ number, some (UnpackedFloat.finite both m e pos) = some number ∧
            some (UnpackedFloat.finite both m' e' pos') = some number := by
        refine fun both => ⟨?_, ?_⟩
        · rintro ⟨rfl, rfl⟩
          exact ⟨_, rfl, rfl⟩
        · rintro ⟨_, ⟨⟩, ⟨⟩⟩
          exact ⟨rfl, rfl⟩
      cases sign <;> cases other
      case negative.negative =>
        change (some ((compare e e').then (compare m m')).swap == some .eq) = true ↔ _
        rw [beq_iff_eq, Option.some_inj, Ordering.swap_eq_eq, magnitudes]
        exact together .negative
      case positive.positive =>
        change (some ((compare e e').then (compare m m')) == some .eq) = true ↔ _
        rw [beq_iff_eq, Option.some_inj, magnitudes]
        exact together .positive
      all_goals exact iff_of_false Bool.false_ne_true (by rintro ⟨_, ⟨⟩, ⟨⟩⟩)

/-- What equality reads off a value. -/
inductive Identity where
  /-- Integer. -/
  | int (value : Int64)
  /-- Number that a float stands for. -/
  | float (numeral : UnpackedFloat)
  /-- Truth value. -/
  | bool (value : Bool)
  /-- No result. -/
  | void
  /-- Text. -/
  | string (text : String)
  /-- Identities of the elements in order. -/
  | array (items : List Identity)
  /-- Body, scope and program of a function. -/
  | function (body : NodeId) (scope : Handle) (program : ProgramId)
  /-- Name of a native function. -/
  | native (name : String)
  /-- Variable that a reference names. -/
  | reference (target : Location)
  /-- Name, scope and program of a class. -/
  | classObject (name : Symbol) (scope : Handle) (program : ProgramId)
  /-- Storage of an object. -/
  | object (storage : Handle)

namespace Value

mutual

/-- Identity of a value; a value with a float that is no number has none. -/
def identity? : Value → Option Identity
  | .int value => some (.int value)
  | .float value => (numeral? value).map .float
  | .bool value => some (.bool value)
  | .void => some .void
  | .string text => some (.string text)
  | .array items => (identities? items).map .array
  | .function value => some (.function value.body value.scope value.program)
  | .native value => some (.native value.name)
  | .reference target => some (.reference target)
  | .classObject value => some (.classObject value.name value.scope value.program)
  | .object value => some (.object value.storage)

/-- Identities of all values of a list, if every one has an identity. -/
def identities? : List Value → Option (List Identity)
  | [] => some []
  | value :: rest =>
    match identity? value, identities? rest with
    | some first, some others => some (first :: others)
    | _, _ => none

end

/-- A float that is no number occurs in the value, be it deep inside its arrays. -/
inductive HasNaN : Value → Prop where
  /-- The value itself is a float that is no number. -/
  | float {value : Float} (undefined : value.isNaN = true) : HasNaN (.float value)
  /-- An element of the array contains one. -/
  | item {value : Value} {items : List Value} (member : value ∈ items) (inside : value.HasNaN) :
    HasNaN (.array items)

/-- The empty list has the empty list of identities. -/
theorem identities?_nil : identities? [] = some [] := by rw [identities?]

/-- A list has identities when its first element and the rest have. -/
theorem identities?_cons_eq_some_iff (value : Value) (rest : List Value) (ids : List Identity) :
    identities? (value :: rest) = some ids ↔
      ∃ first others, value.identity? = some first ∧ identities? rest = some others ∧
        ids = first :: others := by
  rw [identities?]
  cases value.identity? <;> cases identities? rest <;> simp [eq_comm]

/-- The elements of a list have identities when each of them has one. -/
theorem isSome_identities? (values : List Value) :
    (identities? values).isSome = true ↔ ∀ value ∈ values, value.identity?.isSome = true := by
  induction values with
  | nil => simp [identities?]
  | cons value rest ih =>
    rw [List.forall_mem_cons, ← ih, identities?]
    cases value.identity? <;> cases identities? rest <;> simp

/-- Two lists are equal element by element when they have their identities in common. -/
theorem sameAll_iff_identities? {lefts : List Value}
    (each : ∀ left ∈ lefts, ∀ right, left.same right = true ↔
      ∃ id, left.identity? = some id ∧ right.identity? = some id) (rights : List Value) :
    sameAll lefts rights = true ↔
      ∃ ids, identities? lefts = some ids ∧ identities? rights = some ids := by
  induction lefts generalizing rights with
  | nil =>
    cases rights with
    | nil => simp [sameAll, identities?]
    | cons right rights => simp [sameAll, identities?_cons_eq_some_iff, identities?_nil]
  | cons left lefts ih =>
    obtain ⟨first, later⟩ := List.forall_mem_cons.1 each
    cases rights with
    | nil => simp [sameAll, identities?_cons_eq_some_iff, identities?_nil]
    | cons right rights =>
      simp only [sameAll, Bool.and_eq_true, first, ih later, identities?_cons_eq_some_iff]
      grind

/-- Two values are equal when they have one identity in common. -/
theorem same_iff_identity? (left right : Value) :
    left.same right = true ↔ ∃ id, left.identity? = some id ∧ right.identity? = some id := by
  induction left using arrayInduction generalizing right with
  | array lefts ih =>
    cases right with
    | array rights => simp [same, identity?, sameAll_iff_identities? ih]
    | _ => simp [same, identity?]
  | flat left plain =>
    cases left with
    | array items => exact absurd rfl (plain items)
    | float a =>
      cases right with
      | float b => simp [same, identity?, float_beq_iff]
      | _ => simp [same, identity?]
    | _ =>
      -- values of two kinds have no identity in common
      cases right <;> simp [same, identity?, Closure.same, ClassObject.same] <;> grind

/-- Exactly the values without an occurrence of what is no number have an identity. -/
theorem isSome_identity? (value : Value) : value.identity?.isSome = true ↔ ¬ value.HasNaN := by
  induction value using arrayInduction with
  | array items ih =>
    have listed : (array items).HasNaN ↔ ∃ value ∈ items, value.HasNaN :=
      ⟨fun | .item member inside => ⟨_, member, inside⟩,
        fun ⟨_, member, inside⟩ => .item member inside⟩
    rw [identity?, Option.isSome_map, isSome_identities?, listed]
    push Not
    exact forall₂_congr ih
  | flat value plain =>
    cases value with
    | array items => exact absurd rfl (plain items)
    | float a =>
      have here : (float a).HasNaN ↔ a.isNaN = true := ⟨fun | .float undefined => undefined, .float⟩
      rw [identity?, Option.isSome_map, here, ← numeral?_eq_none_iff, Option.isSome_iff_ne_none]
    | _ =>
      simp only [identity?, Option.isSome_some, true_iff]
      exact nofun

/-- Two lists are equal element by element when they are equally long and equal at each place. -/
theorem sameAll_iff_forall (lefts rights : List Value) :
    sameAll lefts rights = true ↔ lefts.length = rights.length ∧
      ∀ (place : Nat) (left right : Value), lefts[place]? = some left →
        rights[place]? = some right → left.same right = true := by
  induction lefts generalizing rights with
  | nil => cases rights <;> simp [sameAll]
  | cons left lefts ih =>
    cases rights with
    | nil => simp [sameAll]
    | cons right rights =>
      rw [← Nat.and_forall_add_one, sameAll, Bool.and_eq_true, ih]
      simp only [List.length_cons, Nat.add_right_cancel_iff, List.getElem?_cons_zero,
        List.getElem?_cons_succ, Option.some.injEq]
      grind

/-- Equality of values is symmetric and transitive, and a value equals itself exactly when no float
that is no number occurs in it. Arrays are equal when they are equally long and equal at each
place. -/
theorem same_partial_equivalence :
    (∀ left right : Value, left.same right = right.same left) ∧
    (∀ left middle right : Value,
      left.same middle = true → middle.same right = true → left.same right = true) ∧
    (∀ value : Value, value.same value = true ↔ ¬ value.HasNaN) ∧
    (∀ lefts rights : List Value, (array lefts).same (array rights) = true ↔
      lefts.length = rights.length ∧
        ∀ (place : Nat) (left right : Value), lefts[place]? = some left →
          rights[place]? = some right → left.same right = true) := by
  refine ⟨fun left right => ?_, fun left middle right first second => ?_, fun value => ?_,
    fun lefts rights => ?_⟩
  · rw [Bool.eq_iff_iff, same_iff_identity?, same_iff_identity?]
    exact exists_congr fun _ => and_comm
  · obtain ⟨id, ofLeft, ofMiddle⟩ := (same_iff_identity? _ _).1 first
    obtain ⟨other, ofMiddle', ofRight⟩ := (same_iff_identity? _ _).1 second
    obtain rfl : id = other := Option.some.inj (ofMiddle.symm.trans ofMiddle')
    exact (same_iff_identity? _ _).2 ⟨id, ofLeft, ofRight⟩
  · rw [same_iff_identity?, ← isSome_identity?, Option.isSome_iff_exists]
    simp only [and_self]
  · rw [same, sameAll_iff_forall]

end Value

end ScopeMachine
