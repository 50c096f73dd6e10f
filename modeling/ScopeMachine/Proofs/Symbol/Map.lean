import Mathlib.Data.List.Induction
import Mathlib.Data.List.Nodup
import ScopeMachine.Symbol.Map

/-!
# Laws of maps keyed by symbols

Maps that are built from the empty map by writing have distinct keys. In such a map the values are
exactly what reading returns, so the order of the entries carries no information about them.
-/

namespace ScopeMachine.SymbolMap

variable {α β : Type}

/-- No key has two entries. -/
def Distinct (map : SymbolMap α) : Prop := map.keys.Nodup

/-- An update adds its key at the end unless the key is there already. -/
theorem map_fst_update (key : Symbol) (value : α) (entries : List (Symbol × α)) :
    (update key value entries).map Prod.fst =
      if key ∈ entries.map Prod.fst then entries.map Prod.fst
      else entries.map Prod.fst ++ [key] := by
  induction entries with
  | nil => rfl
  | cons entry rest ih =>
    by_cases same : entry.1 = key
    · simp [update, same]
    · by_cases later : key ∈ rest.map Prod.fst
      · rw [if_pos later] at ih
        rw [if_pos (by simp [later]), update, if_neg same, List.map_cons, ih, List.map_cons]
      · rw [if_neg later] at ih
        have absent : key ∉ (entry :: rest).map Prod.fst := by
          rw [List.map_cons, List.mem_cons, not_or]
          exact ⟨fun equal => same equal.symm, later⟩
        rw [if_neg absent, update, if_neg same, List.map_cons, ih, List.map_cons, List.cons_append]

/-- The empty map has distinct keys. -/
theorem distinct_empty : (empty : SymbolMap α).Distinct := List.nodup_nil

/-- Writing keeps keys distinct. -/
theorem Distinct.insert {map : SymbolMap α} (distinct : map.Distinct) (key : Symbol) (value : α) :
    (map.insert key value).Distinct := by
  have keys := map_fst_update key value map.entries
  unfold Distinct SymbolMap.insert SymbolMap.keys
  rw [keys]
  by_cases present : key ∈ map.entries.map Prod.fst
  · rw [if_pos present]
    exact distinct
  · rw [if_neg present]
    refine List.nodup_append.2 ⟨distinct, List.nodup_singleton key, ?_⟩
    intro other held last final
    rw [List.mem_singleton] at final
    rintro rfl
    exact present (final ▸ held)

/-- A map of a list of entries has distinct keys. -/
theorem distinct_ofList (entries : List (Symbol × α)) : (ofList entries).Distinct := by
  have general : ∀ (map : SymbolMap α), map.Distinct →
      (entries.foldl (fun map entry => map.insert entry.1 entry.2) map).Distinct := by
    induction entries with
    | nil => exact fun map distinct => distinct
    | cons entry rest ih => exact fun map distinct => ih _ (distinct.insert entry.1 entry.2)
  exact general empty distinct_empty

/-- What an entry holds is read back, when no key has two entries. -/
theorem lookup_eq_some_of_mem {entries : List (Symbol × α)} {key : Symbol} {value : α}
    (distinct : (entries.map Prod.fst).Nodup) (held : (key, value) ∈ entries) :
    lookup key entries = some value := by
  induction entries with
  | nil => simp at held
  | cons entry rest ih =>
    rw [List.map_cons, List.nodup_cons] at distinct
    rcases List.mem_cons.1 held with rfl | later
    · simp [lookup]
    · have different : entry.1 ≠ key := by
        intro same
        exact distinct.1 (same ▸ List.mem_map_of_mem later)
      rw [lookup, if_neg different]
      exact ih distinct.2 later

/-- What reading returns stands in an entry. -/
theorem mem_of_lookup_eq_some {entries : List (Symbol × α)} {key : Symbol} {value : α}
    (found : lookup key entries = some value) : (key, value) ∈ entries := by
  induction entries with
  | nil => simp [lookup] at found
  | cons entry rest ih =>
    by_cases same : entry.1 = key
    · rw [lookup, if_pos same, Option.some.injEq] at found
      rw [← same, ← found]
      exact List.mem_cons_self
    · rw [lookup, if_neg same] at found
      exact List.mem_cons_of_mem entry (ih found)

/-- A map with distinct keys reads a value at a key exactly when it has that entry. -/
theorem Distinct.get?_eq_some_iff {map : SymbolMap α} (distinct : map.Distinct) {key : Symbol}
    {value : α} : map.get? key = some value ↔ (key, value) ∈ map.entries :=
  ⟨mem_of_lookup_eq_some, lookup_eq_some_of_mem distinct⟩

/-- The values of a map with distinct keys are what reading returns. -/
theorem Distinct.mem_values_iff {map : SymbolMap α} (distinct : map.Distinct) {value : α} :
    value ∈ map.values ↔ ∃ key, map.get? key = some value := by
  simp only [distinct.get?_eq_some_iff, SymbolMap.values, List.mem_map, Prod.exists,
    exists_eq_right]

/-- What reading returns is a value of the map. -/
theorem mem_values_of_get? {map : SymbolMap α} {key : Symbol} {value : α}
    (found : map.get? key = some value) : value ∈ map.values :=
  List.mem_map.2 ⟨(key, value), mem_of_lookup_eq_some found, rfl⟩

/-- After a write every value is the written one or an earlier one. -/
theorem mem_values_insert {map : SymbolMap α} {key : Symbol} {written value : α}
    (held : value ∈ (map.insert key written).values) : value = written ∨ value ∈ map.values := by
  obtain ⟨entries⟩ := map
  simp only [SymbolMap.insert, SymbolMap.values] at held ⊢
  induction entries with
  | nil => exact Or.inl (by simpa [update] using held)
  | cons entry rest ih =>
    by_cases same : entry.1 = key
    · rw [update, if_pos same, List.map_cons, List.mem_cons] at held
      exact held.imp_right fun later => List.mem_cons_of_mem _ later
    · rw [update, if_neg same, List.map_cons, List.mem_cons] at held
      rcases held with first | later
      · exact Or.inr (first ▸ List.mem_cons_self)
      · exact (ih later).imp_right fun earlier => List.mem_cons_of_mem _ earlier

/-- The values of a map of a list of entries come from the entries. -/
theorem mem_of_mem_values_ofList {entries : List (Symbol × α)} {value : α}
    (held : value ∈ (ofList entries).values) : ∃ key, (key, value) ∈ entries := by
  have general : ∀ (map : SymbolMap α),
      value ∈ (entries.foldl (fun map entry => map.insert entry.1 entry.2) map).values →
      value ∈ map.values ∨ ∃ key, (key, value) ∈ entries := by
    clear held
    induction entries with
    | nil => exact fun map held => Or.inl held
    | cons entry rest ih =>
      intro map held
      rcases ih _ held with written | ⟨key, later⟩
      · rcases mem_values_insert written with rfl | earlier
        · exact Or.inr ⟨entry.1, List.mem_cons_self⟩
        · exact Or.inl earlier
      · exact Or.inr ⟨key, List.mem_cons_of_mem entry later⟩
  rcases general empty held with absent | listed
  · simp [SymbolMap.values, empty] at absent
  · exact listed

/-- A map of a list of entries reads the last entry for a key. -/
theorem get?_ofList (entries : List (Symbol × α)) (key : Symbol) :
    (ofList entries).get? key =
      ((entries.filter fun entry => entry.1 = key).getLast?).map Prod.snd := by
  induction entries using List.reverseRecOn with
  | nil => rfl
  | append_singleton entries entry ih =>
    have added : ofList (entries ++ [entry]) = (ofList entries).insert entry.1 entry.2 := by
      simp [ofList]
    rw [added, get?_insert, ih, List.filter_append]
    by_cases same : key = entry.1
    · simp [same]
    · have absent : ([entry].filter fun other => other.1 = key) = [] := by
        simp [Ne.symm same]
      rw [if_neg same, absent, List.append_nil]

/-- A function on the values applies to each of them. -/
@[simp] theorem values_mapValues (f : α → β) (map : SymbolMap α) :
    (map.mapValues f).values = map.values.map f := by
  simp [SymbolMap.values, mapValues, Function.comp_def]

/-- After a write its key is present, beside those present before. -/
theorem contains_insert (map : SymbolMap α) (key other : Symbol) (value : α) :
    (map.insert key value).contains other = true ↔ other = key ∨ map.contains other = true := by
  rw [SymbolMap.contains, SymbolMap.contains, get?_insert]
  split
  · rename_i same
    simp [same]
  · rename_i different
    simp [different]

/-- A function on the values does not change which keys are present. -/
@[simp] theorem contains_mapValues (f : α → β) (map : SymbolMap α) (key : Symbol) :
    (map.mapValues f).contains key = map.contains key := by
  simp [SymbolMap.contains]

/-- A function on the values passes through writing. -/
theorem mapValues_insert (f : α → β) (map : SymbolMap α) (key : Symbol) (value : α) :
    (map.insert key value).mapValues f = (map.mapValues f).insert key (f value) := by
  obtain ⟨entries⟩ := map
  simp only [SymbolMap.insert, mapValues, SymbolMap.mk.injEq]
  induction entries with
  | nil => rfl
  | cons entry rest ih =>
    by_cases same : entry.1 = key
    · simp [update, same]
    · simp [update, same, ih]

end ScopeMachine.SymbolMap
