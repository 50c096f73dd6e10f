/-!
# Symbols and the symbol table

A text that a program mentions is entered once in a symbol table and is known by its position from
then on. The table only grows: entering a text that is already held changes nothing, and a symbol
keeps its text for ever. Finding a text never enters it.
-/

namespace ScopeMachine

/-- Position of a text in a symbol table. -/
structure Symbol where
  /-- Number of texts entered before this one. -/
  index : Nat
deriving DecidableEq

/-- Symbol of the empty text, which every table holds first. -/
def Symbol.blank : Symbol := ⟨0⟩

/-- Texts in the order in which they were first entered, and the way back from a text to its symbol.
Both sides grow together: a text leads to a symbol that has it, and every text leads to one. -/
structure SymbolTable where
  /-- Text of each symbol, by position. -/
  texts : Array String
  /-- Symbol of each text, the newest first. -/
  symbols : List (String × Symbol)
  /-- The symbol of a text has that text. -/
  sound : ∀ text symbol, symbols.lookup text = some symbol → texts[symbol.index]? = some text
  /-- Every text has a symbol. -/
  complete : ∀ text ∈ texts, (symbols.lookup text).isSome
deriving DecidableEq

/-- Refusal to enter a text because positions have run out. -/
structure TableFull where
  /-- Number of texts held when the entry was refused. -/
  count : Nat
deriving DecidableEq

namespace SymbolTable

/-- Largest position a symbol can have. -/
def lastPosition : Nat := 4294967295

/-- Texts that every new table holds: the empty text, the built-in functions and the type tags. -/
def reserved : List String :=
  ["", "map", "len", "print", "println", "int", "float", "bool", "string"]

/-- Table without texts. -/
def empty : SymbolTable := ⟨#[], [], nofun, nofun⟩

/-- Number of texts held. -/
def size (table : SymbolTable) : Nat := table.texts.size

/-- A table with nothing but the empty text counts as empty. -/
def isEmpty (table : SymbolTable) : Bool := table.size ≤ 1

/-- Symbol of a text that has been entered. -/
def find? (table : SymbolTable) (text : String) : Option Symbol := table.symbols.lookup text

/-- Text of a symbol; a symbol of another table has the empty text. -/
def text (table : SymbolTable) (symbol : Symbol) : String :=
  table.texts[symbol.index]?.getD ""

/-- Table with a text at the next position. -/
def enter (table : SymbolTable) (text : String) : SymbolTable where
  texts := table.texts.push text
  symbols := (text, ⟨table.size⟩) :: table.symbols
  sound := by
    intro other symbol found
    rw [List.lookup_cons] at found
    split at found
    · rename_i same
      rw [← Option.some.inj found, eq_of_beq same]
      exact Array.getElem?_push_size
    · obtain ⟨inside, same⟩ := Array.getElem?_eq_some_iff.1 (table.sound other symbol found)
      rw [Array.getElem?_push_lt inside, same]
  complete := by
    intro other held
    rw [List.lookup_cons]
    split
    · rfl
    · rename_i different
      rcases Array.mem_push.1 held with old | rfl
      · exact table.complete other old
      · simp at different

/-- Symbol of a text, which is entered at the end of the table if it is new. -/
def intern (table : SymbolTable) (text : String) : Symbol × SymbolTable :=
  match table.find? text with
  | some symbol => (symbol, table)
  | none => (⟨table.size⟩, table.enter text)

/-- Symbols of several texts, entered from left to right. -/
def internAll (table : SymbolTable) : List String → List Symbol × SymbolTable
  | [] => ([], table)
  | text :: rest =>
    let (symbol, table) := table.intern text
    let (symbols, table) := table.internAll rest
    (symbol :: symbols, table)

/-- Table of the reserved texts. -/
def initial : SymbolTable := (empty.internAll reserved).2

/-- Symbol of a text, refused when the text is new and no position is left for it. -/
def tryIntern (table : SymbolTable) (text : String) : Except TableFull (Symbol × SymbolTable) :=
  if (table.find? text).isNone ∧ lastPosition < table.size then
    .error ⟨table.size⟩
  else
    .ok (table.intern text)

/-- Entering a text that the table holds changes nothing. -/
theorem intern_of_find?_eq_some {table : SymbolTable} {text : String} {symbol : Symbol}
    (held : table.find? text = some symbol) : table.intern text = (symbol, table) := by
  simp [intern, held]

/-- A new text takes the next position. -/
theorem intern_of_find?_eq_none {table : SymbolTable} {text : String}
    (fresh : table.find? text = none) :
    table.intern text = (⟨table.size⟩, table.enter text) := by
  simp [intern, fresh]

/-- A found symbol has the text that was looked for. -/
theorem text_of_find?_eq_some {table : SymbolTable} {text : String} {symbol : Symbol}
    (held : table.find? text = some symbol) : table.text symbol = text := by
  rw [SymbolTable.text, table.sound text symbol held, Option.getD_some]

/-- The symbol that entering a text returns has that text. -/
@[simp] theorem text_intern (table : SymbolTable) (text : String) :
    (table.intern text).2.text (table.intern text).1 = text := by
  cases held : table.find? text with
  | some symbol => simpa [intern, held] using text_of_find?_eq_some held
  | none => simp [intern, held, SymbolTable.text, enter, size]

end SymbolTable

/-- Sentence that reports a full table. -/
def TableFull.message (full : TableFull) : String :=
  s!"interner exceeded capacity: {full.count} strings, max is {SymbolTable.lastPosition}"

end ScopeMachine
