import Mathlib.Data.List.Forall2
import Mathlib.Data.List.Nodup
import ScopeMachine.Symbol.Table

/-!
# Laws of symbol tables

Tables that grow from the table of the reserved texts hold no text twice, so that in such a table a
symbol and its text determine each other. Growing keeps the texts of the symbols that the table had.
-/

namespace ScopeMachine.SymbolTable

/-- The symbol is held by the table, with this text. -/
def Spells (table : SymbolTable) (symbol : Symbol) (text : String) : Prop :=
  table.texts[symbol.index]? = some text

/-- Whether a symbol is held with a text can be decided. -/
instance (table : SymbolTable) (symbol : Symbol) (text : String) :
    Decidable (table.Spells symbol text) :=
  inferInstanceAs (Decidable (table.texts[symbol.index]? = some text))

/-- No text is held twice. -/
def Distinct (table : SymbolTable) : Prop := table.texts.toList.Nodup

/-- The later table comes from the earlier one by entering texts. -/
def Grows (earlier later : SymbolTable) : Prop := ∃ texts, (earlier.internAll texts).2 = later

/-- A symbol that the table holds has its text there. -/
theorem Spells.text_eq {table : SymbolTable} {symbol : Symbol} {text : String}
    (spells : table.Spells symbol text) : table.text symbol = text := by
  rw [SymbolTable.text, spells, Option.getD_some]

/-- Where no text is held twice, symbols with one text are one symbol. -/
theorem Distinct.eq_of_spells {table : SymbolTable} (distinct : table.Distinct)
    {first second : Symbol} {text : String} (left : table.Spells first text)
    (right : table.Spells second text) : first = second := by
  unfold Spells at left right
  rw [← Array.getElem?_toList] at left right
  obtain ⟨inside, _⟩ := List.getElem?_eq_some_iff.1 left
  have same := (List.getElem?_inj inside distinct).1 (left.trans right.symm)
  cases first
  cases second
  exact congrArg Symbol.mk same

/-- A text that is found is held by the symbol that is returned. -/
theorem spells_of_find? {table : SymbolTable} {text : String} {symbol : Symbol}
    (held : table.find? text = some symbol) : table.Spells symbol text :=
  table.sound text symbol held

/-- A text is not found exactly when the table does not hold it. -/
theorem find?_eq_none_iff {table : SymbolTable} {text : String} :
    table.find? text = none ↔ text ∉ table.texts.toList := by
  rw [Array.mem_toList_iff]
  constructor
  · intro absent held
    have found := table.complete text held
    rw [show table.symbols.lookup text = none from absent] at found
    exact Bool.false_ne_true found
  · intro absent
    by_contra found
    obtain ⟨symbol, held⟩ := Option.ne_none_iff_exists'.1 found
    exact absent (Array.mem_of_getElem? (spells_of_find? held))

section Entering

variable {table : SymbolTable}

/-- Entering a text keeps the texts of symbols. -/
theorem Spells.intern {symbol : Symbol} {held : String} (spells : table.Spells symbol held)
    (text : String) : (table.intern text).2.Spells symbol held := by
  unfold SymbolTable.intern
  split
  · exact spells
  · obtain ⟨inside, same⟩ := Array.getElem?_eq_some_iff.1 spells
    exact (Array.getElem?_push_lt inside).trans (congrArg some same)

/-- The symbol that is returned for a text is held with it. -/
theorem spells_intern (table : SymbolTable) (text : String) :
    (table.intern text).2.Spells (table.intern text).1 text := by
  unfold SymbolTable.intern
  split
  · exact spells_of_find? ‹_›
  · exact Array.getElem?_push_size

/-- Entering a text makes no text held twice. -/
theorem Distinct.intern (distinct : table.Distinct) (text : String) :
    (table.intern text).2.Distinct := by
  unfold SymbolTable.intern
  split
  · exact distinct
  · rename_i absent
    have new := find?_eq_none_iff.1 absent
    rw [Distinct, enter, Array.toList_push]
    exact distinct.append (List.nodup_singleton text) (by simpa using new)

/-- Entering texts keeps the texts of symbols. -/
theorem Spells.internAll {symbol : Symbol} {held : String} (spells : table.Spells symbol held)
    (texts : List String) : (table.internAll texts).2.Spells symbol held := by
  induction texts generalizing table with
  | nil => exact spells
  | cons text texts ih => exact ih (spells.intern text)

/-- Entering texts makes no text held twice. -/
theorem Distinct.internAll (distinct : table.Distinct) (texts : List String) :
    (table.internAll texts).2.Distinct := by
  induction texts generalizing table with
  | nil => exact distinct
  | cons text texts ih => exact ih (distinct.intern text)

/-- The symbols that are returned for texts are held with them. -/
theorem spells_internAll (table : SymbolTable) (texts : List String) :
    List.Forall₂ (table.internAll texts).2.Spells (table.internAll texts).1 texts := by
  induction texts generalizing table with
  | nil => exact .nil
  | cons text texts ih => exact .cons ((table.spells_intern text).internAll texts) (ih _)

end Entering

/-- The table of the reserved texts holds none of them twice. -/
theorem distinct_initial : initial.Distinct := by
  have distinct : empty.Distinct := List.nodup_nil
  exact distinct.internAll reserved

/-- Growth keeps the texts of symbols. -/
theorem Grows.spells {earlier later : SymbolTable} (grows : earlier.Grows later) {symbol : Symbol}
    {text : String} (spells : earlier.Spells symbol text) : later.Spells symbol text := by
  obtain ⟨texts, rfl⟩ := grows
  exact spells.internAll texts

/-- Growth makes no text held twice. -/
theorem Grows.distinct {earlier later : SymbolTable} (grows : earlier.Grows later)
    (distinct : earlier.Distinct) : later.Distinct := by
  obtain ⟨texts, rfl⟩ := grows
  exact distinct.internAll texts

end ScopeMachine.SymbolTable
