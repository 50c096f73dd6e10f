import ScopeMachine.Proofs.Scope.Reachability

/-!
# Histories of a store

A store changes by allocations, writes, assignments and collections only. A history is a list of
such commands; a command that fails changes nothing. Along a history the number of times a slot has
been reclaimed is counted without regard to generations, and the generation of the slot turns out to
be that count as a 32-bit word.
-/

namespace ScopeMachine

/-- Change of a store. -/
inductive Command where
  /-- Allocate a scope; later entries for a name win, and no entries give no bindings. -/
  | allocate (parent : Option Handle) (bindings : List (Symbol × Value))
  /-- Bind a name in one scope. -/
  | set (handle : Handle) (name : Symbol) (value : Value)
  /-- Bind a name anew in the nearest scope that binds it. -/
  | assign (handle : Handle) (name : Symbol) (value : Value)
  /-- Reclaim what the roots do not reach. -/
  | collect (roots : List Handle)

namespace Store

/-- Store after a write, or the store before it if the write fails. -/
def orElse (store : Store) : Except ScopeError Store → Store
  | .ok after => after
  | .error _ => store

/-- Store after a command. -/
def perform (store : Store) : Command → Store
  | .allocate parent bindings => (store.allocate parent (.ofList bindings)).2
  | .set handle name value => store.orElse (store.set handle name value)
  | .assign handle name value => store.orElse (store.assign handle name value)
  | .collect roots => (store.collect roots).2

/-- Store after commands from left to right. -/
def replay (store : Store) (commands : List Command) : Store := commands.foldl perform store

/-- Number of times that commands empty a slot. -/
def reclaims (store : Store) (index : Nat) : List Command → Nat
  | [] => 0
  | command :: rest =>
    (if store.isOccupied index = true ∧ (store.perform command).isOccupied index = false
      then 1 else 0) + (store.perform command).reclaims index rest

/-- What a failed or successful write may have done: nothing, or the write. -/
theorem orElse_set_cases (store : Store) (handle : Handle) (name : Symbol) (value : Value) :
    store.orElse (store.set handle name value) = store ∨
      store.set handle name value = .ok (store.orElse (store.set handle name value)) := by
  cases store.set handle name value with
  | error error => exact Or.inl rfl
  | ok after => exact Or.inr rfl

/-- What a failed or successful assignment may have done: nothing, or one write. -/
theorem orElse_assign_cases (store : Store) (handle : Handle) (name : Symbol) (value : Value) :
    store.orElse (store.assign handle name value) = store ∨
      ∃ owner, store.set owner name value =
        .ok (store.orElse (store.assign handle name value)) := by
  cases assigned : store.assign handle name value with
  | error error => exact Or.inl rfl
  | ok after =>
    obtain ⟨owner, _, written⟩ := exists_set_of_assign assigned
    exact Or.inr ⟨owner, written⟩

/-- Every command is an allocation, a successful write, a collection, or no change. -/
theorem perform_cases (store : Store) (command : Command) :
    (∃ parent bindings, command = .allocate parent bindings ∧
      store.perform command = (store.allocate parent (.ofList bindings)).2) ∨
    (∃ handle name value, store.set handle name value = .ok (store.perform command)) ∨
    (∃ roots, command = .collect roots ∧ store.perform command = (store.collect roots).2) ∨
    store.perform command = store := by
  cases command with
  | allocate parent bindings => exact Or.inl ⟨parent, bindings, rfl, rfl⟩
  | set handle name value =>
    rcases orElse_set_cases store handle name value with same | written
    · exact Or.inr (Or.inr (Or.inr same))
    · exact Or.inr (Or.inl ⟨handle, name, value, written⟩)
  | assign handle name value =>
    rcases orElse_assign_cases store handle name value with same | ⟨owner, written⟩
    · exact Or.inr (Or.inr (Or.inr same))
    · exact Or.inr (Or.inl ⟨owner, name, value, written⟩)
  | collect roots => exact Or.inr (Or.inr (Or.inl ⟨roots, rfl, rfl⟩))

/-- A command keeps the store in order. -/
theorem Tidy.perform {store : Store} (tidy : store.Tidy) (command : Command) :
    (store.perform command).Tidy := by
  rcases perform_cases store command with
    ⟨parent, bindings, _, changed⟩ | ⟨handle, name, value, written⟩ | ⟨roots, _, changed⟩ | changed
  · rw [changed]
    exact Tidy.allocate parent _ tidy (SymbolMap.distinct_ofList bindings)
  · exact tidy.set written
  · rw [changed]
    exact tidy.collect roots
  · rw [changed]
    exact tidy

/-- Commands keep the store in order. -/
theorem Tidy.replay {store : Store} (tidy : store.Tidy) (commands : List Command) :
    (store.replay commands).Tidy := by
  induction commands generalizing store with
  | nil => exact tidy
  | cons command rest ih => exact ih (tidy.perform command)

/-- Every store with a history is in order. -/
theorem tidy_replay_empty (commands : List Command) : (empty.replay commands).Tidy :=
  tidy_empty.replay commands

/-- A longer history continues a shorter one. -/
theorem replay_append (store : Store) (first second : List Command) :
    store.replay (first ++ second) = (store.replay first).replay second := List.foldl_append

/-- Reclamations along a history add up. -/
theorem reclaims_append (store : Store) (index : Nat) (first second : List Command) :
    store.reclaims index (first ++ second) =
      store.reclaims index first + (store.replay first).reclaims index second := by
  induction first generalizing store with
  | nil => simp [reclaims, replay]
  | cons command rest ih =>
    rw [List.cons_append, reclaims, ih, reclaims, Nat.add_assoc]
    rfl

/-- A command moves a slot to its next generation exactly when it empties the slot. -/
theorem generation_perform {store : Store} (tidy : store.Tidy) (command : Command) (index : Nat) :
    (store.perform command).generation index =
      if store.isOccupied index = true ∧ (store.perform command).isOccupied index = false then
        store.generation index + 1
      else store.generation index := by
  rcases perform_cases store command with
    ⟨parent, bindings, _, changed⟩ | ⟨handle, name, value, written⟩ | ⟨roots, _, changed⟩ | changed
  · rw [changed, generation_allocate parent _ tidy, isOccupied_allocate parent _ tidy, if_neg]
    rintro ⟨occupied, vacant⟩
    simp [occupied] at vacant
  · rw [generation_set written, isOccupied_set written]
    simp
  · rw [changed]
    exact generation_collect store roots index
  · rw [changed]
    simp

/-- Along a history the generation of a slot grows by the number of its reclamations, as a word. -/
theorem generation_replay {store : Store} (tidy : store.Tidy) (commands : List Command)
    (index : Nat) :
    (store.replay commands).generation index =
      store.generation index + UInt32.ofNat (store.reclaims index commands) := by
  induction commands generalizing store with
  | nil => simp [replay, reclaims]
  | cons command rest ih =>
    have step := generation_perform tidy command index
    have later := ih (tidy.perform command)
    change ((store.perform command).replay rest).generation index = _
    rw [later, step, reclaims]
    by_cases emptied :
        store.isOccupied index = true ∧ (store.perform command).isOccupied index = false
    · rw [if_pos emptied, if_pos emptied, UInt32.ofNat_add, UInt32.add_assoc]
      rfl
    · rw [if_neg emptied, if_neg emptied, Nat.zero_add]

/-- A slot that is not reclaimed stays occupied. -/
theorem isOccupied_replay_of_reclaims_eq_zero {store : Store} {index : Nat}
    (occupied : store.isOccupied index = true) (commands : List Command)
    (kept : store.reclaims index commands = 0) :
    (store.replay commands).isOccupied index = true := by
  induction commands generalizing store with
  | nil => exact occupied
  | cons command rest ih =>
    rw [reclaims, Nat.add_eq_zero_iff] at kept
    have stays : (store.perform command).isOccupied index = true := by
      by_contra vacant
      rw [Bool.not_eq_true] at vacant
      simp [occupied, vacant] at kept
    exact ih stays kept.2

end Store

end ScopeMachine
