import ScopeMachine.Symbol.Table

/-!
# Maps keyed by symbols

Bindings of a scope and methods of a class are finite maps from symbols. A map keeps its keys in the
order in which they first appeared; writing a key again replaces its value where it stands.
-/

namespace ScopeMachine

/-- Finite map from symbols, as entries in order of first appearance. -/
structure SymbolMap (α : Type) where
  /-- Keys with their values. -/
  entries : List (Symbol × α)
deriving DecidableEq

namespace SymbolMap

variable {α β : Type}

/-- Value of the first entry for a key. -/
def lookup (key : Symbol) : List (Symbol × α) → Option α
  | [] => none
  | (other, value) :: rest => if other = key then some value else lookup key rest

/-- Entries with a key's value replaced, or with a new entry at the end. -/
def update (key : Symbol) (value : α) : List (Symbol × α) → List (Symbol × α)
  | [] => [(key, value)]
  | (other, old) :: rest =>
    if other = key then (other, value) :: rest else (other, old) :: update key value rest

/-- Map without keys. -/
def empty : SymbolMap α := ⟨[]⟩

/-- Value of a key. -/
def get? (map : SymbolMap α) (key : Symbol) : Option α := lookup key map.entries

/-- Whether a key has a value. -/
def contains (map : SymbolMap α) (key : Symbol) : Bool := (map.get? key).isSome

/-- Map with a key's value set. -/
def insert (map : SymbolMap α) (key : Symbol) (value : α) : SymbolMap α :=
  ⟨update key value map.entries⟩

/-- Map of a list of entries, in which a later entry for a key wins. -/
def ofList (entries : List (Symbol × α)) : SymbolMap α :=
  entries.foldl (fun map entry => map.insert entry.1 entry.2) empty

/-- Keys in order of first appearance. -/
def keys (map : SymbolMap α) : List Symbol := map.entries.map Prod.fst

/-- Values in order of their keys. -/
def values (map : SymbolMap α) : List α := map.entries.map Prod.snd

/-- Number of keys. -/
def size (map : SymbolMap α) : Nat := map.entries.length

/-- Map with a function applied to every value. -/
def mapValues (f : α → β) (map : SymbolMap α) : SymbolMap β :=
  ⟨map.entries.map fun entry => (entry.1, f entry.2)⟩

/-- The empty map has no values. -/
@[simp] theorem get?_empty (key : Symbol) : (empty : SymbolMap α).get? key = none := rfl

/-- Lookup after an update sees the new value at its key and the old ones elsewhere. -/
theorem lookup_update (key other : Symbol) (value : α) (entries : List (Symbol × α)) :
    lookup other (update key value entries) =
      if other = key then some value else lookup other entries := by
  induction entries with
  | nil => simp [update, lookup, eq_comm]
  | cons entry rest ih => grind [update, lookup]

/-- Reading after a write sees the written value at its key and the old ones elsewhere. -/
theorem get?_insert (map : SymbolMap α) (key other : Symbol) (value : α) :
    (map.insert key value).get? other = if other = key then some value else map.get? other :=
  lookup_update key other value map.entries

/-- A function on the values passes through reading. -/
@[simp] theorem get?_mapValues (f : α → β) (map : SymbolMap α) (key : Symbol) :
    (map.mapValues f).get? key = (map.get? key).map f := by
  obtain ⟨entries⟩ := map
  simp only [get?, mapValues]
  induction entries with
  | nil => rfl
  | cons entry rest ih => by_cases same : entry.1 = key <;> simp [lookup, same, ih]

end SymbolMap

end ScopeMachine
