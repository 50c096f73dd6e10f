import Mathlib.Algebra.Group.Nat.Defs
import Mathlib.Data.List.Chain
import Mathlib.Logic.Relation
import ScopeMachine.Proofs.Scope.Soundness

/-!
# Ancestry of scopes

Whoever allocates names as the parent a handle that an earlier allocation has returned, which may
have died since, or no parent. Values that are written may hold any handles. As long as no slot is
reclaimed 2 ^ 32 times, a parent is older than its child: a dead parent stays dead, and a live one
is never the younger scope of a reused slot. So no walk along parents comes back to a scope.

A live scope keeps its parent, and it keeps its ancestors alive, since a collection reaches them
from it. What its parent and its depth are does not change during its life.
-/

namespace ScopeMachine

/-- Parent that a command gives to a new scope. -/
def Command.parent? : Command → Option Handle
  | .allocate parent _ => parent
  | .set _ _ _ | .assign _ _ _ | .collect _ => none

namespace Store

/-- Handle that a command returns. -/
def returned? (store : Store) : Command → Option Handle
  | .allocate parent bindings => some (store.allocate parent (.ofList bindings)).1
  | .set _ _ _ | .assign _ _ _ | .collect _ => none

/-- Every parent in the history is among the known handles or has been returned before in the
history. -/
def Founded (store : Store) (known : List Handle) : List Command → Prop
  | [] => True
  | command :: rest =>
    (∀ above ∈ command.parent?, above ∈ known) ∧
      (store.perform command).Founded (known ++ (store.returned? command).toList) rest

/-- Along the history no slot is reclaimed in its last generation. -/
def Lasting (store : Store) (history : List Command) : Prop :=
  ∀ index, (store.generation index).toNat + store.reclaims index history < 2 ^ 32

/-- A history in which no slot is reclaimed 2 ^ 32 times is lasting from the start. -/
theorem lasting_empty {history : List Command}
    (few : ∀ index, empty.reclaims index history < 2 ^ 32) : empty.Lasting history := by
  intro index
  have first : empty.generation index = 0 := by simp [generation, empty]
  rw [first]
  simpa using few index

/-- A slot is reclaimed at most once by each command. -/
theorem reclaims_le_length (store : Store) (index : Nat) (history : List Command) :
    store.reclaims index history ≤ history.length := by
  induction history generalizing store with
  | nil => exact Nat.le_refl 0
  | cons command rest ih =>
    have later := ih (store.perform command)
    rw [reclaims, List.length_cons]
    split <;> omega

section Step

variable {store : Store} {command : Command} {rest : List Command}
  (lasting : store.Lasting (command :: rest))
include lasting

/-- A slot that the command empties is not in its last generation. -/
theorem Lasting.toNat_generation_lt {index : Nat} (occupied : store.isOccupied index = true)
    (vacant : (store.perform command).isOccupied index = false) :
    (store.generation index).toNat + 1 < 2 ^ 32 := by
  have total := lasting index
  rw [reclaims, if_pos ⟨occupied, vacant⟩] at total
  omega

/-- A collection in a lasting history reclaims no slot in its last generation. -/
theorem Lasting.wrapsOn_eq_false {roots : List Handle} (collects : command = .collect roots) :
    store.wrapsOn roots = false := by
  subst collects
  refine List.any_eq_false.2 fun index condemned => ?_
  obtain ⟨occupied, vacant⟩ := (mem_condemned_marks_iff store roots index).1 condemned
  have small := lasting.toNat_generation_lt occupied vacant
  rw [beq_iff_eq, ← UInt32.toNat_inj, UInt32.toNat_add]
  simp only [UInt32.toNat_one, UInt32.toNat_zero]
  omega

/-- What is left of a lasting history is lasting. -/
theorem Lasting.perform (tidy : store.Tidy) : (store.perform command).Lasting rest := by
  intro index
  have total := lasting index
  rw [reclaims] at total
  rw [generation_perform tidy command index]
  by_cases emptied :
      store.isOccupied index = true ∧ (store.perform command).isOccupied index = false
  · have small := lasting.toNat_generation_lt emptied.1 emptied.2
    rw [if_pos emptied] at total ⊢
    rw [UInt32.toNat_add, UInt32.toNat_one, Nat.mod_eq_of_lt small]
    omega
  · rw [if_neg emptied] at total ⊢
    omega

end Step

/-- Live scopes keep their parents and keep their ancestors alive. -/
structure Upholds (before after : Store) : Prop where
  /-- The store has evolved. -/
  evolves : before.Evolves after
  /-- Scopes have the same parents. -/
  parent : ∀ {handle scope later}, before.scope? handle = some scope →
    after.scope? handle = some later → later.parent = scope.parent
  /-- A live parent of a scope that stays live stays live. -/
  above : ∀ {handle scope above}, before.scope? handle = some scope →
    after.isLive handle = true → scope.parent = some above → before.isLive above = true →
    after.isLive above = true

namespace Upholds

/-- A store upholds itself. -/
theorem refl (store : Store) : store.Upholds store where
  evolves := .refl store
  parent := by
    intro handle scope later found again
    rw [found] at again
    exact Option.some.inj again ▸ rfl
  above := fun _ _ _ live => live

/-- What is upheld twice is upheld. -/
theorem trans {first second third : Store} (earlier : first.Upholds second)
    (later : second.Upholds third) : first.Upholds third := by
  -- a scope that is live at both ends is live in between
  have between : ∀ {handle scope}, first.scope? handle = some scope →
      third.isLive handle = true → ∃ middle, second.scope? handle = some middle := by
    intro handle scope found live
    have issued := issued_of_isLive (isLive_iff.2 ⟨scope, found⟩)
    exact isLive_iff.1 (later.evolves.isLive handle (earlier.evolves.issued handle issued) live)
  refine ⟨earlier.evolves.trans later.evolves, ?_, ?_⟩
  · intro handle scope last found again
    obtain ⟨middle, inside⟩ := between found (isLive_iff.2 ⟨last, again⟩)
    rw [later.parent inside again, earlier.parent found inside]
  · intro handle scope above found live link aboveLive
    obtain ⟨middle, inside⟩ := between found live
    have still := earlier.above found (isLive_iff.2 ⟨middle, inside⟩) link aboveLive
    exact later.above inside live ((earlier.parent found inside).trans link) still

/-- An allocation upholds. -/
theorem allocate {store : Store} (tidy : store.Tidy) (parent : Option Handle)
    (bindings : SymbolMap Value) : store.Upholds (store.allocate parent bindings).2 := by
  have same : ∀ {handle}, store.isLive handle = true →
      (store.allocate parent bindings).2.scope? handle = store.scope? handle := by
    intro handle live
    rw [scope?_allocate parent bindings tidy, if_neg]
    rintro rfl
    exact not_issued_allocate tidy parent bindings (issued_of_isLive live)
  refine ⟨evolves_allocate tidy parent bindings, ?_, ?_⟩
  · intro handle scope later found again
    rw [same (isLive_iff.2 ⟨scope, found⟩), found] at again
    exact Option.some.inj again ▸ rfl
  · intro handle scope above _ _ _ live
    rw [isLive, same live]
    exact live

/-- A write upholds. -/
theorem set {store after : Store} {handle : Handle} {name : Symbol} {value : Value}
    (written : store.set handle name value = .ok after) : store.Upholds after := by
  refine ⟨evolves_set written, ?_, ?_⟩
  · intro other scope later found again
    rw [scope?_set written] at again
    split at again
    · rename_i same
      subst same
      rw [found] at again
      exact Option.some.inj again ▸ rfl
    · rw [found] at again
      exact Option.some.inj again ▸ rfl
  · intro other scope above _ _ _ live
    rw [isLive_set written]
    exact live

/-- A collection that reclaims no slot in its last generation upholds. -/
theorem collect {store : Store} (tidy : store.Tidy) {roots : List Handle}
    (lasting : store.wrapsOn roots = false) : store.Upholds (store.collect roots).2 := by
  refine ⟨evolves_collect lasting tidy, ?_, ?_⟩
  · intro handle scope later found again
    have kept := ((scope?_collect tidy roots).1 again).2
    rw [found] at kept
    exact Option.some.inj kept ▸ rfl
  · intro handle scope above found live link aboveLive
    have reached := (isLive_collect tidy roots).1 live
    have leads : above ∈ scope.edges :=
      (Scope.mem_edges_iff (tidy.distinct_of_scope? found)).2 (Or.inl link)
    exact (isLive_collect tidy roots).2 (reached.edge tidy found leads aboveLive)

end Upholds

/-- A store along a history: it is rooted, and the handles that the history may name as parents have
been issued. -/
structure Settled (store : Store) (known : List Handle) : Prop where
  /-- The store is rooted. -/
  rooted : store.Rooted
  /-- The known handles have been issued. -/
  issued : ∀ handle ∈ known, store.Issued handle

/-- The store without slots is settled. -/
theorem settled_empty : empty.Settled [] where
  rooted :=
    { tidy := tidy_empty
      issued := by simp [scope?, empty]
      grounded := ⟨fun _ => 0, by simp [scope?, empty]⟩ }
  issued := by simp

/-- A store that has been upheld and is rooted is settled again, with the new handles known. -/
theorem Settled.extend {store after : Store} {known new : List Handle}
    (settled : store.Settled known) (rooted : after.Rooted) (upholds : store.Upholds after)
    (issued : ∀ handle ∈ new, after.Issued handle) :
    after.Settled (known ++ new) ∧ store.Upholds after := by
  refine ⟨⟨rooted, fun handle listed => ?_⟩, upholds⟩
  rcases List.mem_append.1 listed with old | last
  · exact upholds.evolves.issued handle (settled.issued handle old)
  · exact issued handle last

/-- A command keeps a store settled and upholds it. -/
theorem Settled.perform {store : Store} {known : List Handle} {command : Command}
    {rest : List Command} (settled : store.Settled known)
    (founded : store.Founded known (command :: rest))
    (lasting : store.Lasting (command :: rest)) :
    (store.perform command).Settled (known ++ (store.returned? command).toList) ∧
      store.Upholds (store.perform command) := by
  have tidy := settled.rooted.tidy
  -- only an allocation returns a handle
  have silent : ∀ {after : Store}, after.Rooted → store.Upholds after →
      after.Settled (known ++ []) ∧ store.Upholds after :=
    fun rooted upholds => settled.extend rooted upholds nofun
  cases command with
  | allocate parent bindings =>
    have distinct := SymbolMap.distinct_ofList bindings
    have rooted := settled.rooted.allocate distinct fun above named =>
      settled.issued above (founded.1 above named)
    apply settled.extend rooted (.allocate tidy parent _)
    intro handle returned
    rw [List.mem_singleton.1 returned]
    exact issued_of_isLive (isLive_allocate tidy parent _)
  | set handle name value =>
    rcases orElse_set_cases store handle name value with same | written
    · rw [show store.perform (.set handle name value) = store from same]
      exact silent settled.rooted (.refl store)
    · exact silent (settled.rooted.set written) (.set written)
  | assign handle name value =>
    rcases orElse_assign_cases store handle name value with same | ⟨owner, written⟩
    · rw [show store.perform (.assign handle name value) = store from same]
      exact silent settled.rooted (.refl store)
    · exact silent (settled.rooted.set written) (.set written)
  | collect roots =>
    have unwrapped := lasting.wrapsOn_eq_false rfl
    exact silent (settled.rooted.collect unwrapped) (.collect tidy unwrapped)

/-- Along a history a store stays rooted, and from each moment on scopes keep their parents and
their ancestors. -/
theorem Settled.replay {store : Store} {known : List Handle} {earlier later : List Command}
    (settled : store.Settled known) (founded : store.Founded known (earlier ++ later))
    (lasting : store.Lasting (earlier ++ later)) :
    (store.replay earlier).Rooted ∧ (store.replay (earlier ++ later)).Rooted ∧
      (store.replay earlier).Upholds (store.replay (earlier ++ later)) := by
  induction earlier generalizing store known with
  | cons command rest ih =>
    obtain ⟨next, _⟩ := settled.perform founded lasting
    exact ih next founded.2 (lasting.perform settled.rooted.tidy)
  | nil =>
    induction later generalizing store known with
    | nil => exact ⟨settled.rooted, settled.rooted, .refl store⟩
    | cons command rest ih =>
      obtain ⟨next, upholds⟩ := settled.perform founded lasting
      obtain ⟨_, last, further⟩ := ih next founded.2 (lasting.perform settled.rooted.tidy)
      exact ⟨settled.rooted, last, upholds.trans further⟩

/-- The second handle is the parent of the scope that the first one names. -/
def HasParent (store : Store) (handle above : Handle) : Prop :=
  store.parent handle = .ok (some above)

/-- A handle has a parent exactly when it names a scope with that parent. -/
theorem hasParent_iff {store : Store} {handle above : Handle} :
    store.HasParent handle above ↔
      ∃ scope, store.scope? handle = some scope ∧ scope.parent = some above := by
  unfold HasParent Store.parent Store.scope
  cases store.scope? handle with
  | none => simp [bind, Except.bind]
  | some scope => simp [bind, Except.bind, pure, Except.pure]

/-- A walk along parents in a rooted store lists no handle twice. -/
theorem Rooted.nodup_of_isChain {store : Store} (rooted : store.Rooted) {path : List Handle}
    (walk : path.IsChain store.HasParent) : path.Nodup := by
  obtain ⟨rank, ordered⟩ := rooted.grounded
  -- every handle but the last has a parent, hence is live
  have falls : ∀ {first last}, Relation.TransGen store.HasParent first last →
      store.isLive last = true → rank last < rank first := by
    intro first last climbs
    induction climbs with
    | single link =>
      obtain ⟨scope, found, parent⟩ := hasParent_iff.1 link
      exact ordered _ scope _ found parent
    | tail _ link ih =>
      intro live
      obtain ⟨scope, found, parent⟩ := hasParent_iff.1 link
      exact Nat.lt_trans (ordered _ scope _ found parent live) (ih (isLive_iff.2 ⟨scope, found⟩))
  have apart : ∀ {first last}, Relation.TransGen store.HasParent first last → first ≠ last := by
    rintro first _ climbs rfl
    obtain ⟨above, link, _⟩ := Relation.TransGen.head'_iff.1 climbs
    obtain ⟨scope, found, _⟩ := hasParent_iff.1 link
    exact Nat.lt_irrefl _ (falls climbs (isLive_iff.2 ⟨scope, found⟩))
  have climbing : path.Pairwise (Relation.TransGen store.HasParent) :=
    List.isChain_iff_pairwise.1 (walk.imp fun _ _ link => .single link)
  exact climbing.imp apart

section Depth

variable {store : Store} {handle : Handle}

/-- A handle that is not live has no depth. -/
theorem depthWithin_of_dead (missing : store.scope? handle = none) (bound : Nat) :
    store.depthWithin (bound + 1) handle = .error (.dangling handle) := by
  simp [depthWithin, Store.scope, missing, bind, Except.bind]

/-- A scope without a parent has depth zero. -/
theorem depthWithin_of_root {scope : Scope} (found : store.scope? handle = some scope)
    (top : scope.parent = none) (bound : Nat) : store.depthWithin (bound + 1) handle = .ok 0 := by
  simp [depthWithin, Store.scope, found, top, bind, Except.bind, pure, Except.pure]

/-- A scope is one deeper than its parent, and where that has no depth it has none either. -/
theorem depthWithin_of_parent {scope : Scope} {above : Handle}
    (found : store.scope? handle = some scope) (link : scope.parent = some above) (bound : Nat) :
    store.depthWithin (bound + 1) handle = (store.depthWithin bound above).map (· + 1) := by
  simp only [depthWithin, Store.scope, found, link, bind, Except.bind]
  cases store.depthWithin bound above <;> rfl

/-- The depth along a walk that ends is not endless. -/
theorem Ends.depthWithin_ne_endless {steps : Nat} (ends : store.Ends steps handle) :
    store.depthWithin steps handle ≠ .error .endless := by
  induction ends with
  | dead missing => simp [depthWithin_of_dead missing]
  | root found top => simp [depthWithin_of_root found top]
  | @up steps handle above scope found link _ ih =>
    rw [depthWithin_of_parent found link]
    cases inner : store.depthWithin steps above with
    | ok depth => exact fun same => nomatch same
    | error error => exact fun same => ih (inner.trans same)

/-- The depth along a walk that ends is the same within all larger bounds. -/
theorem Ends.depthWithin_eq {steps : Nat} (ends : store.Ends steps handle) {bound : Nat}
    (enough : steps ≤ bound) : store.depthWithin bound handle = store.depthWithin steps handle := by
  induction ends generalizing bound with
  | dead missing =>
    obtain ⟨bound, rfl⟩ := Nat.exists_eq_succ_of_ne_zero (Nat.ne_zero_of_lt enough)
    rw [depthWithin_of_dead missing, depthWithin_of_dead missing]
  | root found top =>
    obtain ⟨bound, rfl⟩ := Nat.exists_eq_succ_of_ne_zero (Nat.ne_zero_of_lt enough)
    rw [depthWithin_of_root found top, depthWithin_of_root found top]
  | up found link _ ih =>
    obtain ⟨bound, rfl⟩ := Nat.exists_eq_succ_of_ne_zero (Nat.ne_zero_of_lt enough)
    rw [depthWithin_of_parent found link, depthWithin_of_parent found link,
      ih (Nat.le_of_succ_le_succ enough)]

variable (rooted : store.Rooted)
include rooted

/-- In a rooted store the depth is found within every bound above the number of slots. -/
theorem Rooted.depth_eq_depthWithin (handle : Handle) (bound : Nat)
    (enough : store.capacity < bound) : store.depth handle = store.depthWithin bound handle :=
  ((rooted.ends handle).depthWithin_eq enough).symm

/-- In a rooted store the depth of a scope is smaller than the number of live scopes. -/
theorem Rooted.depth_lt_live {depth : Nat} (found : store.depth handle = .ok depth) :
    depth < store.occupancy.live := by
  obtain ⟨height, low, falls⟩ := rooted.exists_height
  -- a depth is at most the height, which falls along the same walk
  have general : ∀ (bound : Nat) (handle : Handle) (depth : Nat),
      store.depthWithin bound handle = .ok depth →
      store.isLive handle = true ∧ depth ≤ height handle := by
    intro bound
    induction bound with
    | zero => exact fun handle depth ended => nomatch ended
    | succ bound ih =>
      intro handle depth ended
      cases held : store.scope? handle with
      | none => simp [depthWithin_of_dead held] at ended
      | some scope =>
        have live : store.isLive handle = true := isLive_iff.2 ⟨scope, held⟩
        cases link : scope.parent with
        | none =>
          rw [depthWithin_of_root held link] at ended
          cases ended
          exact ⟨live, Nat.zero_le _⟩
        | some above =>
          rw [depthWithin_of_parent held link] at ended
          cases inner : store.depthWithin bound above with
          | error error => simp [inner, Except.map] at ended
          | ok below =>
            rw [inner] at ended
            cases ended
            obtain ⟨aboveLive, small⟩ := ih above below inner
            have lower := falls handle scope above held link aboveLive
            exact ⟨live, Nat.lt_of_le_of_lt small lower⟩
  obtain ⟨live, small⟩ := general (store.capacity + 1) handle depth found
  exact Nat.lt_of_le_of_lt small (low handle live)

end Depth

section Lifetime

variable {before after : Store} (upholds : before.Upholds after)
include upholds

/-- A scope has the same parent as long as it lives. -/
theorem Upholds.parent_eq {handle : Handle} (live : before.isLive handle = true)
    (still : after.isLive handle = true) : after.parent handle = before.parent handle := by
  obtain ⟨scope, found⟩ := isLive_iff.1 live
  obtain ⟨later, again⟩ := isLive_iff.1 still
  simp [Store.parent, Store.scope, found, again, upholds.parent found again, bind, Except.bind]

/-- A handle that has been issued and has not died in between has the same depth, within every
bound. -/
theorem Upholds.depthWithin_eq (rooted : before.Rooted) (bound : Nat) {handle : Handle}
    (issued : before.Issued handle)
    (still : before.isLive handle = true → after.isLive handle = true) :
    after.depthWithin bound handle = before.depthWithin bound handle := by
  induction bound generalizing handle with
  | zero => rfl
  | succ bound ih =>
    cases found : before.scope? handle with
    | none =>
      have dead := scope?_eq_none_iff.1 found
      have stays : after.isLive handle = false := by
        by_contra revived
        have live := upholds.evolves.isLive handle issued (by simpa using revived)
        rw [dead] at live
        exact Bool.false_ne_true live
      rw [depthWithin_of_dead found, depthWithin_of_dead (scope?_eq_none_iff.2 stays)]
    | some scope =>
      have live := isLive_iff.2 ⟨scope, found⟩
      obtain ⟨later, again⟩ := isLive_iff.1 (still live)
      have same := upholds.parent found again
      cases link : scope.parent with
      | none => rw [depthWithin_of_root found link, depthWithin_of_root again (same.trans link)]
      | some above =>
        have inner := ih (rooted.issued found link) (upholds.above found (still live) link)
        rw [depthWithin_of_parent found link, depthWithin_of_parent again (same.trans link), inner]

/-- A scope has the same depth, or the same dead ancestor, as long as it lives. -/
theorem Upholds.depth_eq (rooted : before.Rooted) (later : after.Rooted) {handle : Handle}
    (live : before.isLive handle = true) (still : after.isLive handle = true) :
    after.depth handle = before.depth handle := by
  let bound := before.capacity + after.capacity + 1
  calc after.depth handle
      = after.depthWithin bound handle := later.depth_eq_depthWithin handle bound (by omega)
    _ = before.depthWithin bound handle :=
        upholds.depthWithin_eq rooted bound (issued_of_isLive live) fun _ => still
    _ = before.depth handle := (rooted.depth_eq_depthWithin handle bound (by omega)).symm

end Lifetime

/-- Reading, locating, assigning and measuring depth all end by themselves. -/
structure Answers (store : Store) (handle : Handle) : Prop where
  /-- The owner of a name is the same within all bounds on the walk that are large enough. -/
  owner : ∀ name bound, store.capacity < bound →
    store.ownerWithin name bound handle = store.owner handle name
  /-- The depth is the same within all bounds on the walk that are large enough. -/
  depthWithin : ∀ bound, store.capacity < bound →
    store.depthWithin bound handle = store.depth handle
  /-- Reading a name ends. -/
  get : ∀ name, store.get handle name ≠ .error .endless
  /-- Locating a name ends. -/
  locate : ∀ name, store.locate handle name ≠ .error .endless
  /-- Assigning to a name ends. -/
  assign : ∀ name value, store.assign handle name value ≠ .error .endless
  /-- Measuring the depth ends. -/
  depth : store.depth handle ≠ .error .endless

/-- A computation whose steps do not end with an error does not end with it. -/
theorem bind_ne_error {α β : Type} {error : ScopeError} {first : Except ScopeError α}
    {next : α → Except ScopeError β} (start : first ≠ .error error)
    (rest : ∀ result, next result ≠ .error error) : (first >>= next) ≠ .error error := by
  cases first with
  | error other =>
    intro same
    exact start (congrArg Except.error (Except.error.inj same))
  | ok result => exact rest result

/-- In a rooted store every walk along parents ends by itself. -/
theorem Rooted.answers {store : Store} (rooted : store.Rooted) (handle : Handle) :
    store.Answers handle := by
  have ends := rooted.ends handle
  have owner : ∀ name, store.owner handle name ≠ .error .endless :=
    fun name => ends.ownerWithin_ne_endless name
  have scope : ∀ other : Handle, store.scope other ≠ .error .endless := by
    intro other
    unfold Store.scope
    split <;> simp
  constructor
  case owner =>
    intro name bound enough
    exact (rooted.owner_eq_ownerWithin handle name bound enough).symm
  case depthWithin =>
    intro bound enough
    exact (rooted.depth_eq_depthWithin handle bound enough).symm
  case get =>
    intro name
    refine bind_ne_error (owner name) fun place => ?_
    have own : store.getOwn place name ≠ .error .endless :=
      bind_ne_error (scope place) fun held => nofun
    refine bind_ne_error own fun held => ?_
    cases held with
    | none => exact fun same => nomatch same
    | some value => exact fun same => nomatch same
  case locate =>
    intro name
    exact bind_ne_error (owner name) fun place => nofun
  case assign =>
    intro name value
    exact bind_ne_error (owner name) fun place => bind_ne_error (scope place) fun held => nofun
  case depth => exact ends.depthWithin_ne_endless

/-- Along every history in which parents are handles that earlier allocations have returned and no
slot is reclaimed 2 ^ 32 times: no walk along parents visits a scope twice, reading, locating,
assigning and measuring depth end for every handle, a depth is smaller than the number of live
scopes, and what the parent and the depth of a live scope are stays the same as long as the scope
lives. -/
theorem ancestry_stable {earlier later : List Command}
    (founded : empty.Founded [] (earlier ++ later))
    (few : ∀ index, empty.reclaims index (earlier ++ later) < 2 ^ 32) :
    let before := empty.replay earlier
    let now := empty.replay (earlier ++ later)
    (∀ path : List Handle, path.IsChain now.HasParent → path.Nodup) ∧
    (∀ handle, now.Answers handle) ∧
    (∀ handle depth, now.depth handle = .ok depth → depth < now.occupancy.live) ∧
    (∀ handle, before.isLive handle = true → now.isLive handle = true →
      now.parent handle = before.parent handle ∧ now.depth handle = before.depth handle) := by
  intro before now
  obtain ⟨rooted, later, upholds⟩ := settled_empty.replay founded (lasting_empty few)
  refine ⟨fun path walk => later.nodup_of_isChain walk, later.answers,
    fun handle depth found => later.depth_lt_live found, fun handle live still => ?_⟩
  exact ⟨upholds.parent_eq live still, upholds.depth_eq rooted later live still⟩

/-- The parent of a new scope has died, and the scope takes its slot. Its depth fails at the dead
parent, before and after a collection that reclaims a child of the scope. -/
theorem ancestry_stable_stale_parent :
    let earlier : List Command := [.allocate none [], .collect [], .allocate (some ⟨0, 0⟩) []]
    let later : List Command := [.allocate (some ⟨0, 1⟩) [], .collect [⟨0, 1⟩]]
    (empty.replay earlier).depth ⟨0, 1⟩ = .error (.dangling ⟨0, 0⟩) ∧
      (empty.replay (earlier ++ later)).depth ⟨0, 1⟩ = .error (.dangling ⟨0, 0⟩) ∧
      (empty.replay (earlier ++ later)).occupancy = ⟨1, 1, 2⟩ := by
  intro earlier later
  let first : Store := ⟨#[⟨0, some ⟨none, .empty⟩⟩], []⟩
  let second : Slot := ⟨1, some ⟨some ⟨0, 0⟩, .empty⟩⟩
  let child : Slot := ⟨0, some ⟨some ⟨0, 1⟩, .empty⟩⟩
  -- marking does not compute, so the two collections are carried out by its equations
  have cleared : first.perform (.collect []) = ⟨#[⟨1, none⟩], [0]⟩ := by
    simp only [perform, collect, marks, mark]
    rfl
  have reclaimed : Store.perform ⟨#[second, child], []⟩ (.collect [⟨0, 1⟩]) =
      ⟨#[second, ⟨1, none⟩], [1]⟩ := by
    simp [perform, collect, marks, mark, scope?, second, Scope.edges, SymbolMap.values,
      SymbolMap.empty, capacity]
    rfl
  have before : empty.replay earlier = ⟨#[second], []⟩ := by
    change (first.perform (.collect [])).perform (.allocate (some ⟨0, 0⟩) []) = _
    rw [cleared]
    rfl
  have now : empty.replay (earlier ++ later) = ⟨#[second, ⟨1, none⟩], [1]⟩ := by
    rw [replay_append, before]
    exact reclaimed
  have founded : empty.Founded [] (earlier ++ later) := by
    refine ⟨by decide, by decide, ?_⟩
    change (first.perform (.collect [])).Founded _ _
    rw [cleared]
    exact ⟨by decide, by decide, by decide, trivial⟩
  have few : ∀ index, empty.reclaims index (earlier ++ later) < 2 ^ 32 := fun index =>
    Nat.lt_of_le_of_lt (reclaims_le_length empty index _) (by decide)
  have start : (empty.replay earlier).depth ⟨0, 1⟩ = .error (.dangling ⟨0, 0⟩) := by
    rw [before]
    rfl
  obtain ⟨_, _, _, stable⟩ := ancestry_stable founded few
  have same := (stable ⟨0, 1⟩ (by rw [before]; rfl) (by rw [now]; rfl)).2
  exact ⟨start, same.trans start, by rw [now]; rfl⟩

end Store

end ScopeMachine
