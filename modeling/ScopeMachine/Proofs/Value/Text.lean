import Mathlib.Algebra.Order.BigOperators.Group.List
import Mathlib.Algebra.Order.Group.Nat
import ScopeMachine.Proofs.Renaming.Value

/-!
# The two texts of a value

The plain and the named text of a value are written from one and the same sequence of pieces:
brackets, commas and the texts of data, which are fixed, and titles, which stand for named
functions, references, classes and objects. The plain text shows a title by its kind alone and the
named text by its name too, so the texts are equal exactly when no title occurs.
-/

namespace ScopeMachine

/-- What a text can show by its kind or by its name. -/
inductive Title where
  /-- Function that was declared under a name. -/
  | function (name : Symbol)
  /-- Reference to a variable of a name. -/
  | reference (name : Symbol)
  /-- Class of a name. -/
  | classObject (name : Symbol)
  /-- Object of a class of a name. -/
  | object (owner : Symbol)

namespace Title

/-- Text of a title without its name. -/
def plain : Title → String
  | function _ => "<function>"
  | reference _ => "<ref>"
  | classObject _ => "<class>"
  | object _ => "<instance>"

/-- Text of a title with its name. -/
def named (symbols : SymbolTable) : Title → String
  | function name => "<function " ++ symbols.text name ++ ">"
  | reference name => "<ref " ++ symbols.text name ++ ">"
  | classObject name => "<class " ++ symbols.text name ++ ">"
  | object owner => "<" ++ symbols.text owner ++ " instance>"

/-- A title is longer with its name than without, even if the name is empty. -/
theorem length_plain_lt_length_named (symbols : SymbolTable) (title : Title) :
    title.plain.length < (title.named symbols).length := by
  cases title <;>
    rw [plain, named, String.length_append, String.length_append, Nat.add_right_comm] <;>
    exact Nat.lt_add_right _ (by decide)

end Title

/-- Piece of a text. -/
inductive Piece where
  /-- Bracket, comma or text of data. -/
  | fixed (text : String)
  /-- Place for a title. -/
  | titled (title : Title)

namespace Piece

/-- Text of a piece when titles are shown by their captions. -/
def text (caption : Title → String) : Piece → String
  | fixed text => text
  | titled title => caption title

/-- Text of pieces, one after the other. -/
def write (caption : Title → String) (pieces : List Piece) : String :=
  String.join (pieces.map (text caption))

variable (caption : Title → String)

/-- The text of two sequences is the text of the first and then of the second. -/
theorem write_append (front back : List Piece) :
    write caption (front ++ back) = write caption front ++ write caption back := by
  rw [write, List.map_append, String.join_append, write, write]

/-- The text of one fixed piece is that piece. -/
theorem write_fixed (text : String) : write caption [fixed text] = text := by
  simp [write, Piece.text]

/-- The text of one title is its caption. -/
theorem write_titled (title : Title) : write caption [titled title] = caption title := by
  simp [write, Piece.text]

/-- Pieces divided by a fixed piece are written as texts divided by it. -/
theorem write_intercalate (separator : String) (rows : List (List Piece)) :
    write caption ([fixed separator].intercalate rows) =
      separator.intercalate (rows.map (write caption)) := by
  induction rows with
  | nil => rfl
  | cons row rows ih =>
    cases rows with
    | nil => simp
    | cons next rows =>
      rw [List.intercalate_cons_cons, write_append, write_append, write_fixed, ih, List.map_cons,
        List.map_cons, List.map_cons, String.intercalate_cons_cons]

/-- The text with named titles is the text with plain titles exactly when there is no title. -/
theorem write_named_eq_iff (symbols : SymbolTable) (pieces : List Piece) :
    write (Title.named symbols) pieces = write Title.plain pieces ↔
      ¬ ∃ title, titled title ∈ pieces := by
  constructor
  · rintro same ⟨title, member⟩
    have longer : (write Title.plain pieces).length <
        (write (Title.named symbols) pieces).length := by
      simp only [write, String.length_join, List.map_map]
      refine List.sum_lt_sum _ _ (fun piece _ => ?_)
        ⟨titled title, member, title.length_plain_lt_length_named symbols⟩
      cases piece with
      | fixed text => exact Nat.le_refl _
      | titled title => exact (title.length_plain_lt_length_named symbols).le
    exact longer.ne (congrArg String.length same.symm)
  · intro untitled
    refine congrArg String.join (List.map_congr_left fun piece member => ?_)
    cases piece with
    | fixed text => rfl
    | titled title => exact absurd ⟨title, member⟩ untitled

/-- The titles in divided pieces are the titles in the rows. -/
theorem titled_mem_intercalate {title : Title} {separator : String} {rows : List (List Piece)} :
    titled title ∈ [fixed separator].intercalate rows ↔ ∃ row ∈ rows, titled title ∈ row := by
  induction rows with
  | nil => simp
  | cons row rows ih =>
    cases rows with
    | nil => simp
    | cons next rows => simp [List.intercalate_cons_cons, ih]

end Piece

namespace Value

/-- Title under which a value appears in texts; data and lambdas have none. -/
def title? : Value → Option Title
  | .function value => value.name.map .function
  | .reference target => some (.reference target.name)
  | .classObject value => some (.classObject value.name)
  | .object value => some (.object value.owner.name)
  | _ => none

/-- A value with a title occurs in the value, be it deep inside its arrays. -/
inductive HasTitle : Value → Prop where
  /-- The value itself has a title. -/
  | here {value : Value} {title : Title} (titled : value.title? = some title) : value.HasTitle
  /-- An element of the array contains one. -/
  | item {value : Value} {items : List Value} (member : value ∈ items) (inside : value.HasTitle) :
    HasTitle (.array items)

/-- Pieces of the text of a value that is no array. -/
def flatPieces (value : Value) : List Piece :=
  match value.title? with
  | some title => [.titled title]
  | none => [.fixed value.plainText]

mutual

/-- Pieces of the text of a value. -/
def pieces : Value → List Piece
  | .array items => [.fixed "["] ++ [.fixed ", "].intercalate (piecesAll items) ++ [.fixed "]"]
  | value => value.flatPieces

/-- Pieces of the texts of the elements of an array. -/
def piecesAll : List Value → List (List Piece)
  | [] => []
  | value :: rest => pieces value :: piecesAll rest

end

/-- The pieces of the elements of an array are taken element by element. -/
@[simp] theorem piecesAll_eq_map (values : List Value) : piecesAll values = values.map pieces := by
  induction values with
  | nil => rfl
  | cons value rest ih => rw [piecesAll, ih, List.map_cons]

/-- The pieces of a value that is no array are its title or its text. -/
theorem pieces_of_flat {value : Value} (plain : ∀ items, value ≠ .array items) :
    value.pieces = value.flatPieces := by
  cases value with
  | array items => exact absurd rfl (plain items)
  | _ => rfl

/-- Titles occur among the pieces of a value exactly when one occurs in the value. -/
theorem hasTitle_iff (value : Value) :
    value.HasTitle ↔ ∃ title, .titled title ∈ value.pieces := by
  induction value using arrayInduction with
  | array items ih =>
    have listed : (array items).HasTitle ↔ ∃ value ∈ items, value.HasTitle :=
      ⟨fun | .item member inside => ⟨_, member, inside⟩,
        fun ⟨_, member, inside⟩ => .item member inside⟩
    have inside : ∀ title, .titled title ∈ (array items).pieces ↔
        ∃ value ∈ items, .titled title ∈ value.pieces := by
      simp [pieces, Piece.titled_mem_intercalate]
    simp only [listed, inside]
    grind
  | flat value plain =>
    have here : value.HasTitle ↔ ∃ title, value.title? = some title :=
      ⟨fun | .here titled => ⟨_, titled⟩ | .item _ _ => absurd rfl (plain _),
        fun ⟨_, titled⟩ => .here titled⟩
    rw [here, pieces_of_flat plain, flatPieces]
    cases value.title? <;> simp

/-- A text that brackets arrays, captions titles and leaves data alone is written from the
pieces. -/
theorem eq_write_pieces {render : Value → String} {caption : Title → String}
    (array : ∀ items, render (.array items) = Text.bracketed (items.map render))
    (titled : ∀ value title, value.title? = some title → render value = caption title)
    (data : ∀ value, (∀ items, value ≠ .array items) → value.title? = none →
      render value = value.plainText) (value : Value) :
    render value = Piece.write caption value.pieces := by
  induction value using arrayInduction with
  | array items ih =>
    have each : items.map render = (items.map pieces).map (Piece.write caption) := by
      rw [List.map_map]
      exact List.map_congr_left ih
    rw [array, Text.bracketed, each, pieces, piecesAll_eq_map, Piece.write_append,
      Piece.write_append, Piece.write_fixed, Piece.write_fixed, Piece.write_intercalate]
  | flat value plain =>
    rw [pieces_of_flat plain, flatPieces]
    cases found : value.title? with
    | some title => exact (titled value title found).trans (Piece.write_titled caption title).symm
    | none => exact (data value plain found).trans (Piece.write_fixed caption _).symm

/-- The commas after the first element stand between the elements. -/
theorem plainItems_eq_intercalate (values : List Value) :
    plainItems values = ", ".intercalate (values.map plainText) := by
  cases values with
  | nil => rfl
  | cons value rest =>
    induction rest generalizing value with
    | nil => simp [plainItems, plainTail]
    | cons next rest ih =>
      have later : ", ".intercalate ((next :: rest).map plainText) =
          next.plainText ++ plainTail rest := by
        rw [← ih, plainItems]
      rw [List.map_cons, List.map_cons, String.intercalate_cons_cons, ← List.map_cons, later,
        plainItems, plainTail]
      simp only [String.append_assoc]

/-- A value with a title is shown by it. -/
theorem texts_of_title? (symbols : SymbolTable) {value : Value} {title : Title}
    (found : value.title? = some title) :
    value.plainText = title.plain ∧ value.text symbols = title.named symbols := by
  cases value with
  | function value =>
    obtain ⟨name, named, rfl⟩ := Option.map_eq_some_iff.1 found
    rw [plainText, text, named]
    exact ⟨rfl, rfl⟩
  | reference | classObject | object =>
    obtain rfl := Option.some.inj found
    exact ⟨rfl, rfl⟩
  | _ => cases found

/-- A value without a title that is no array has one text. -/
theorem text_of_title?_eq_none (symbols : SymbolTable) {value : Value}
    (plain : ∀ items, value ≠ .array items) (untitled : value.title? = none) :
    value.text symbols = value.plainText := by
  cases value with
  | array items => exact absurd rfl (plain items)
  | function value =>
    have lambda : value.name = none := Option.map_eq_none_iff.1 untitled
    rw [text, plainText, lambda]
    rfl
  | reference | classObject | object => cases untitled
  | _ => rfl

/-- The plain text is written from the pieces with plain titles. -/
theorem plainText_eq_write (value : Value) :
    value.plainText = Piece.write Title.plain value.pieces := by
  refine eq_write_pieces (fun items => ?_) (fun _ _ found => (texts_of_title? .empty found).1)
    (fun _ _ _ => rfl) value
  rw [plainText, plainItems_eq_intercalate, Text.bracketed]

/-- The named text is written from the pieces with named titles. -/
theorem text_eq_write (symbols : SymbolTable) (value : Value) :
    value.text symbols = Piece.write (Title.named symbols) value.pieces := by
  refine eq_write_pieces (fun items => ?_) (fun _ _ found => (texts_of_title? symbols found).2)
    (fun _ plain untitled => text_of_title?_eq_none symbols plain untitled) value
  rw [text, texts_eq_map]

/-- Both texts of a value are written from its pieces, the plain one with plain and the named one
with named titles, and they are equal exactly when no title occurs in the value. -/
theorem texts_differ_in_titles (symbols : SymbolTable) (value : Value) :
    (value.text symbols = value.plainText ↔ ¬ value.HasTitle) ∧
    value.plainText = Piece.write Title.plain value.pieces ∧
    value.text symbols = Piece.write (Title.named symbols) value.pieces := by
  refine ⟨?_, value.plainText_eq_write, value.text_eq_write symbols⟩
  rw [text_eq_write, plainText_eq_write, hasTitle_iff]
  exact Piece.write_named_eq_iff symbols value.pieces

end Value

end ScopeMachine
