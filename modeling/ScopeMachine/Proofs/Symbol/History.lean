import Mathlib.Algebra.Group.Nat.Defs
import Mathlib.Data.Finset.Card
import Mathlib.Data.List.Nodup
import ScopeMachine.Proofs.Symbol.Table

/-!
# Histories of symbol tables

A table starts with the reserved texts and is then asked to enter texts and to find texts, in any
order. What it holds at any moment is read off the history alone: the texts that have been entered,
each at the place of its first mention. Symbols and texts determine each other from then on.
-/

namespace ScopeMachine.SymbolTable

/-- What is asked of a table. -/
inductive Request where
  /-- The symbol of a text, which is entered if it is new. -/
  | intern (text : String)
  /-- The symbol of a text, which is entered if it is new and there is a position left. -/
  | tryIntern (text : String)
  /-- The symbol of a text if it has been entered. -/
  | find (text : String)

/-- Text that a request is about. -/
def Request.text : Request → String
  | .intern text | .tryIntern text | .find text => text

/-- Text that a request may enter. -/
def Request.entry? : Request → Option String
  | .intern text | .tryIntern text => some text
  | .find _ => none

/-- Symbol that a request returns, and the table after it. -/
def perform (table : SymbolTable) : Request → Option Symbol × SymbolTable
  | .intern text =>
    let (symbol, table) := table.intern text
    (some symbol, table)
  | .tryIntern text =>
    match table.tryIntern text with
    | .ok (symbol, table) => (some symbol, table)
    | .error _ => (none, table)
  | .find text => (table.find? text, table)

/-- Table after requests from first to last. -/
def replay (table : SymbolTable) (history : List Request) : SymbolTable :=
  history.foldl (fun table request => (table.perform request).2) table

/-- The reserved texts and those that a history may enter, in the order of their mention and with
repetitions. -/
def mentioned (history : List Request) : List String :=
  reserved ++ history.filterMap Request.entry?

section Inverse

variable {table : SymbolTable} (distinct : table.Distinct)
include distinct

/-- Where no text is held twice, finding inverts spelling. -/
theorem Distinct.find?_eq_some_iff {text : String} {symbol : Symbol} :
    table.find? text = some symbol ↔ table.Spells symbol text := by
  constructor
  · exact spells_of_find?
  · intro spells
    have held : text ∈ table.texts.toList := by
      rw [Array.mem_toList_iff]
      exact Array.mem_of_getElem? spells
    cases found : table.find? text with
    | none => exact absurd held (find?_eq_none_iff.1 found)
    | some other => rw [distinct.eq_of_spells (spells_of_find? found) spells]

/-- Of all texts only its own is given a symbol that the table holds. -/
theorem Distinct.intern_eq_iff {text : String} {symbol : Symbol}
    (spells : table.Spells symbol text) (other : String) :
    (table.intern other).1 = symbol ↔ other = text := by
  constructor
  · rintro rfl
    have new := table.spells_intern other
    have old := spells.intern other
    exact Option.some.inj (new.symm.trans old)
  · rintro rfl
    rw [intern_of_find?_eq_some (distinct.find?_eq_some_iff.2 spells)]

end Inverse

section Run

/-- Entering on trial either enters the text or changes nothing. -/
theorem perform_tryIntern (table : SymbolTable) (text : String) :
    table.perform (.tryIntern text) = table.perform (.intern text) ∨
      table.perform (.tryIntern text) = (none, table) := by
  by_cases full : (table.find? text).isNone ∧ lastPosition < table.size
  · right
    simp only [perform, tryIntern, if_pos full]
  · left
    simp only [perform, tryIntern, if_neg full]

/-- A property of tables that entering a text keeps is kept by every request. -/
theorem perform_induction {motive : SymbolTable → Prop}
    (step : ∀ table text, motive table → motive (table.intern text).2) {table : SymbolTable}
    (start : motive table) (request : Request) : motive (table.perform request).2 := by
  cases request with
  | intern text => exact step table text start
  | tryIntern text =>
    rcases table.perform_tryIntern text with entered | refused
    · rw [entered]
      exact step table text start
    · rw [refused]
      exact start
  | find text => exact start

/-- A property of tables that entering a text keeps is kept by every history. -/
theorem replay_induction {motive : SymbolTable → Prop}
    (step : ∀ table text, motive table → motive (table.intern text).2) {table : SymbolTable}
    (start : motive table) (history : List Request) : motive (table.replay history) := by
  induction history generalizing table with
  | nil => exact start
  | cons request rest ih => exact ih (perform_induction step start request)

/-- No history takes a symbol's text away. -/
theorem Spells.replay {table : SymbolTable} {symbol : Symbol} {text : String}
    (spells : table.Spells symbol text) (history : List Request) :
    (table.replay history).Spells symbol text :=
  replay_induction (motive := fun table => table.Spells symbol text)
    (fun _ entered held => held.intern entered) spells history

/-- No history makes a text be held twice. -/
theorem Distinct.replay {table : SymbolTable} (distinct : table.Distinct)
    (history : List Request) : (table.replay history).Distinct :=
  replay_induction (fun _ entered held => held.intern entered) distinct history

/-- A symbol that a request returns has the text of the request. -/
theorem spells_of_perform {table : SymbolTable} {request : Request} {symbol : Symbol}
    (returned : (table.perform request).1 = some symbol) :
    (table.perform request).2.Spells symbol request.text := by
  cases request with
  | intern text =>
    rw [← Option.some.inj returned]
    exact table.spells_intern text
  | tryIntern text =>
    rcases table.perform_tryIntern text with entered | refused
    · rw [entered] at returned ⊢
      rw [← Option.some.inj returned]
      exact table.spells_intern text
    · rw [refused] at returned
      cases returned
  | find text => exact spells_of_find? returned

end Run

/-- The table holds the texts of a list, each at the place of its first mention. -/
structure Holds (table : SymbolTable) (texts : List String) : Prop where
  /-- No text is held twice. -/
  distinct : table.Distinct
  /-- Positions follow the order of first mention. -/
  order : table.texts.toList = texts.eraseDups

namespace Holds

/-- A new table holds the reserved texts. -/
theorem initial : SymbolTable.initial.Holds reserved where
  distinct := distinct_initial
  order := by decide

variable {table : SymbolTable} {texts : List String} (holds : table.Holds texts)
include holds

/-- A text is found exactly when it is among the texts. -/
theorem find?_eq_none_iff {text : String} : table.find? text = none ↔ text ∉ texts := by
  rw [SymbolTable.find?_eq_none_iff, holds.order, List.mem_eraseDups]

/-- There are as many symbols as different texts. -/
theorem size_eq : table.size = texts.toFinset.card := by
  have same : table.texts.toList.toFinset = texts.toFinset := by
    ext text
    rw [holds.order, List.mem_toFinset, List.mem_eraseDups, List.mem_toFinset]
  rw [← same, List.toFinset_card_of_nodup holds.distinct, Array.length_toList, size]

/-- Entering one of the texts changes nothing. -/
theorem intern_of_mem {text : String} (mentioned : text ∈ texts) :
    (table.intern text).2 = table := by
  cases found : table.find? text with
  | none => exact absurd mentioned (holds.find?_eq_none_iff.1 found)
  | some symbol => rw [intern_of_find?_eq_some found]

/-- Entering a text mentions it once more. -/
theorem intern (text : String) : (table.intern text).2.Holds (texts ++ [text]) where
  distinct := holds.distinct.intern text
  order := by
    rw [List.eraseDups_append]
    by_cases mentioned : text ∈ texts
    · have again : [text].removeAll texts = [] := by simp [List.removeAll, mentioned]
      rw [holds.intern_of_mem mentioned, again, List.eraseDups_nil, List.append_nil, holds.order]
    · have first : [text].removeAll texts = [text] := by simp [List.removeAll, mentioned]
      have absent := holds.find?_eq_none_iff.2 mentioned
      rw [intern_of_find?_eq_none absent, first, enter, Array.toList_push, holds.order]
      simp [List.eraseDups_cons]

/-- The symbol of a text is the number of different texts that are mentioned before it. -/
theorem index_intern (text : String) :
    (table.intern text).1.index = (texts ++ [text]).eraseDups.idxOf text := by
  have after := holds.intern text
  have spells := table.spells_intern text
  unfold Spells at spells
  rw [← Array.getElem?_toList] at spells
  obtain ⟨inside, same⟩ := List.getElem?_eq_some_iff.1 spells
  have place := List.Nodup.idxOf_getElem after.distinct _ inside
  rw [same, after.order] at place
  exact place.symm

/-- With a position left, no text is refused. -/
theorem tryIntern_eq (few : texts.toFinset.card < 2 ^ 32) (text : String) :
    table.tryIntern text = .ok (table.intern text) := by
  have room : ¬ lastPosition < table.size := by
    rw [holds.size_eq, lastPosition]
    omega
  rw [tryIntern, if_neg fun refused => room refused.2]

/-- With positions left, a request mentions the text that it may enter. -/
theorem perform (few : texts.toFinset.card < 2 ^ 32) (request : Request) :
    (table.perform request).2.Holds (texts ++ request.entry?.toList) := by
  cases request with
  | intern text => exact holds.intern text
  | tryIntern text =>
    simp only [SymbolTable.perform, holds.tryIntern_eq few text]
    exact holds.intern text
  | find text =>
    rw [Request.entry?, Option.toList_none, List.append_nil]
    exact holds

/-- With positions left at the end, a history mentions the texts that it may enter. -/
theorem replay {history : List Request}
    (few : (texts ++ history.filterMap Request.entry?).toFinset.card < 2 ^ 32) :
    (table.replay history).Holds (texts ++ history.filterMap Request.entry?) := by
  induction history generalizing table texts with
  | nil =>
    rw [List.filterMap_nil, List.append_nil]
    exact holds
  | cons request rest ih =>
    have split : texts ++ (request :: rest).filterMap Request.entry? =
        texts ++ request.entry?.toList ++ rest.filterMap Request.entry? := by
      cases entry : request.entry? with
      | none => simp [entry]
      | some text => simp [entry]
    rw [split] at few ⊢
    have fewer : texts.toFinset.card ≤ (texts ++ request.entry?.toList ++
        rest.filterMap Request.entry?).toFinset.card := by
      apply Finset.card_le_card
      intro text held
      simp only [List.toFinset_append, Finset.mem_union]
      exact Or.inl (Or.inl held)
    exact ih (holds.perform (Nat.lt_of_le_of_lt fewer few) request) few

end Holds

/-- After every history that mentions fewer than 2 ^ 32 different texts:

* a text has the symbol that is given for it now, through all further requests, and no other text
  is given that symbol;
* whatever symbol a request returns has the text of the request, through all further requests;
* exactly the mentioned texts are found, by the symbol that entering them returns;
* positions follow the order of first mention without a gap, also for the next text;
* the size is the number of different texts mentioned;
* no text is refused;
* finding a text, and entering a text again, change nothing. -/
theorem symbols_stable (history : List Request)
    (few : (mentioned history).toFinset.card < 2 ^ 32) :
    let table := initial.replay history
    (∀ text later,
      let (symbol, grown) := table.intern text
      (grown.replay later).text symbol = text ∧
        ∀ other, ((grown.replay later).intern other).1 = symbol ↔ other = text) ∧
    (∀ request symbol later, (table.perform request).1 = some symbol →
      ((table.perform request).2.replay later).text symbol = request.text) ∧
    (∀ text symbol, table.find? text = some symbol ↔
      text ∈ mentioned history ∧ (table.intern text).1 = symbol) ∧
    (table.texts.toList = (mentioned history).eraseDups ∧
      ∀ text, (table.intern text).1.index = (mentioned history ++ [text]).eraseDups.idxOf text) ∧
    table.size = (mentioned history).toFinset.card ∧
    (∀ text, table.tryIntern text = .ok (table.intern text)) ∧
    (∀ text, (table.perform (.find text)).2 = table ∧
      (text ∈ mentioned history → (table.intern text).2 = table)) := by
  intro table
  have holds : table.Holds (mentioned history) := Holds.initial.replay few
  refine ⟨?_, ?_, ?_, ⟨holds.order, holds.index_intern⟩, holds.size_eq, holds.tryIntern_eq few, ?_⟩
  · intro text later
    have spells := (table.spells_intern text).replay later
    have distinct := (holds.distinct.intern text).replay later
    exact ⟨spells.text_eq, distinct.intern_eq_iff spells⟩
  · intro request symbol later returned
    exact ((spells_of_perform returned).replay later).text_eq
  · intro text symbol
    cases found : table.find? text with
    | none =>
      have absent := holds.find?_eq_none_iff.1 found
      simp [absent]
    | some held =>
      have present : text ∈ mentioned history := by
        by_contra absent
        rw [holds.find?_eq_none_iff.2 absent] at found
        cases found
      rw [intern_of_find?_eq_some found]
      simp [present]
  · intro text
    exact ⟨rfl, holds.intern_of_mem⟩

/-- A text is entered, looked for, entered again on trial and found: it is the first one after the
reserved texts, and the text that was only looked for comes after it. -/
theorem symbols_stable_two_texts :
    let history : List Request :=
      [.intern "x", .find "y", .tryIntern "x", .intern "map", .intern "y"]
    let table := initial.replay history
    table.size = reserved.length + 2 ∧ table.find? "x" = some ⟨9⟩ ∧ table.find? "y" = some ⟨10⟩ ∧
      table.find? "z" = none := by
  intro history table
  have few : (mentioned history).toFinset.card < 2 ^ 32 :=
    Nat.lt_of_le_of_lt (List.toFinset_card_le _) (by decide)
  obtain ⟨_, _, found, ⟨_, place⟩, size, _, _⟩ := symbols_stable history few
  have symbol : ∀ text index, (mentioned history ++ [text]).eraseDups.idxOf text = index →
      (table.intern text).1 = ⟨index⟩ :=
    fun text index same => congrArg Symbol.mk ((place text).trans same)
  refine ⟨size.trans (by decide), (found _ _).2 ⟨by decide, symbol _ _ (by decide)⟩,
    (found _ _).2 ⟨by decide, symbol _ _ (by decide)⟩, ?_⟩
  rw [Option.eq_none_iff_forall_ne_some]
  intro other held
  exact absurd ((found _ _).1 held).1 (by decide)

end ScopeMachine.SymbolTable
