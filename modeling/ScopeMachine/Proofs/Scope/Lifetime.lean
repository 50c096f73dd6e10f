import Mathlib.Algebra.Group.Nat.Defs
import ScopeMachine.Proofs.Scope.History
import ScopeMachine.Proofs.Scope.Soundness

/-!
# The life of a handle

A handle is live from its allocation until its slot is reclaimed, and again whenever the slot is
occupied after a multiple of 2 ^ 32 further reclamations, because generations are 32-bit words.
Before that many reclamations a handle neither comes back to life nor is issued a second time. An
operation on a handle that is not live fails with that handle and changes nothing, whichever scope
is in the slot now.
-/

namespace ScopeMachine.Store

/-- Adding a count to a generation gives the generation back exactly at the multiples of 2 ^ 32. -/
theorem add_ofNat_eq_self_iff (generation : UInt32) (count : Nat) :
    generation + UInt32.ofNat count = generation ↔ 2 ^ 32 ∣ count := by
  rw [UInt32.add_eq_left, ← UInt32.toNat_inj, UInt32.toNat_ofNat', Nat.dvd_iff_mod_eq_zero]
  rfl

section Later

variable {store : Store} (tidy : store.Tidy) {handle : Handle} (live : store.isLive handle = true)
include tidy live

/-- A live handle is live later exactly when its slot is occupied then and has been reclaimed a
multiple of 2 ^ 32 times. -/
theorem isLive_replay_iff (later : List Command) :
    (store.replay later).isLive handle = true ↔
      (store.replay later).isOccupied handle.index = true ∧
        2 ^ 32 ∣ store.reclaims handle.index later := by
  have generation := (isLive_iff_isOccupied.1 live).2
  rw [isLive_iff_isOccupied, generation_replay tidy, generation, add_ofNat_eq_self_iff]

/-- A handle that has died has had its slot reclaimed. -/
theorem reclaims_pos_of_not_isLive {later : List Command}
    (dead : (store.replay later).isLive handle = false) :
    0 < store.reclaims handle.index later := by
  by_contra none
  have zero := Nat.eq_zero_of_not_pos none
  have occupied := isOccupied_replay_of_reclaims_eq_zero (isLive_iff_isOccupied.1 live).1 later zero
  have revived := (isLive_replay_iff tidy live later).2 ⟨occupied, zero ▸ Nat.dvd_zero _⟩
  rw [dead] at revived
  exact Bool.false_ne_true revived

/-- A handle that has died stays dead as long as its slot has been reclaimed less than 2 ^ 32
times. -/
theorem not_isLive_replay_append {later further : List Command}
    (few : store.reclaims handle.index (later ++ further) < 2 ^ 32)
    (dead : (store.replay later).isLive handle = false) :
    (store.replay (later ++ further)).isLive handle = false := by
  have positive := reclaims_pos_of_not_isLive tidy live dead
  have total := reclaims_append store handle.index later further
  rw [Bool.eq_false_iff, ne_eq, isLive_replay_iff tidy live]
  rintro ⟨_, multiple⟩
  have zero := Nat.eq_zero_of_dvd_of_lt multiple few
  omega

/-- A live handle is not issued again as long as its slot has been reclaimed less than 2 ^ 32
times. -/
theorem allocate_ne_of_reclaims_lt {later : List Command}
    (few : store.reclaims handle.index later < 2 ^ 32) (parent : Option Handle)
    (bindings : SymbolMap Value) :
    ((store.replay later).allocate parent bindings).1 ≠ handle := by
  intro again
  have vacant := isOccupied_allocate_before parent bindings (tidy.replay later)
  have generation := generation_allocate_before (store.replay later) parent bindings
  rw [again] at vacant generation
  rw [generation_replay tidy, (isLive_iff_isOccupied.1 live).2] at generation
  have multiple := (add_ofNat_eq_self_iff _ _).1 generation.symm
  have zero := Nat.eq_zero_of_dvd_of_lt multiple few
  have occupied := isOccupied_replay_of_reclaims_eq_zero (isLive_iff_isOccupied.1 live).1 later zero
  rw [vacant] at occupied
  exact Bool.false_ne_true occupied

end Later

/-- Every operation on a handle fails with that handle and changes nothing. -/
structure Refuses (store : Store) (handle : Handle) : Prop where
  /-- Reading along parents fails. -/
  get : ∀ name, store.get handle name = .error (.dangling handle)
  /-- Reading in the scope alone fails. -/
  getOwn : ∀ name, store.getOwn handle name = .error (.dangling handle)
  /-- Locating a name fails. -/
  locate : ∀ name, store.locate handle name = .error (.dangling handle)
  /-- Asking for the parent fails. -/
  parent : store.parent handle = .error (.dangling handle)
  /-- Asking for the depth fails. -/
  depth : store.depth handle = .error (.dangling handle)
  /-- Writing fails. -/
  set : ∀ name value, store.set handle name value = .error (.dangling handle)
  /-- Assigning fails. -/
  assign : ∀ name value, store.assign handle name value = .error (.dangling handle)
  /-- The failed write changes nothing. -/
  perform_set : ∀ name value, store.perform (.set handle name value) = store
  /-- The failed assignment changes nothing. -/
  perform_assign : ∀ name value, store.perform (.assign handle name value) = store

/-- A handle that is not live is refused, whichever scope is in its slot. -/
theorem refuses_of_not_isLive {store : Store} {handle : Handle}
    (dead : store.isLive handle = false) : store.Refuses handle := by
  have failed := scope_of_not_isLive dead
  have ownerFailed : ∀ name, store.owner handle name = .error (.dangling handle) := by
    intro name
    simp [owner, ownerWithin, failed, bind, Except.bind]
  have setFailed : ∀ name value, store.set handle name value = .error (.dangling handle) := by
    intro name value
    simp [set, failed, bind, Except.bind]
  have assignFailed :
      ∀ name value, store.assign handle name value = .error (.dangling handle) := by
    intro name value
    simp [assign, ownerFailed, bind, Except.bind]
  constructor
  case get => exact fun name => by simp [get, ownerFailed, bind, Except.bind]
  case getOwn => exact fun name => by simp [getOwn, failed, bind, Except.bind]
  case locate => exact fun name => by simp [locate, ownerFailed, bind, Except.bind]
  case parent => simp [Store.parent, failed, bind, Except.bind]
  case depth => simp [depth, depthWithin, failed, bind, Except.bind]
  case set => exact setFailed
  case assign => exact assignFailed
  case perform_set => exact fun name value => by rw [perform, setFailed, orElse]
  case perform_assign => exact fun name value => by rw [perform, assignFailed, orElse]

/-- Along every history of a store, a handle is live exactly while its slot is occupied after a
multiple of 2 ^ 32 reclamations since it was issued. So before the slot has been reclaimed 2 ^ 32
times a dead handle stays dead and no allocation returns the handle again; and a handle that is not
live is refused by every operation, without effect. -/
theorem handle_lifetime (before : List Command) (parent : Option Handle)
    (bindings : List (Symbol × Value)) (later : List Command) :
    let start := empty.replay before
    let handle := (start.allocate parent (.ofList bindings)).1
    let issued := start.perform (.allocate parent bindings)
    let now := issued.replay later
    (now.isLive handle = true ↔
      now.isOccupied handle.index = true ∧ 2 ^ 32 ∣ issued.reclaims handle.index later) ∧
    (∀ further : List Command,
      issued.reclaims handle.index (later ++ further) < 2 ^ 32 →
      now.isLive handle = false → (now.replay further).isLive handle = false) ∧
    (issued.reclaims handle.index later < 2 ^ 32 →
      ∀ nextParent nextBindings, (now.allocate nextParent nextBindings).1 ≠ handle) ∧
    (now.isLive handle = false → now.Refuses handle) := by
  intro start handle issued now
  have tidyStart := tidy_replay_empty before
  have tidy : issued.Tidy := tidyStart.perform (.allocate parent bindings)
  have live : issued.isLive handle = true := isLive_allocate tidyStart parent (.ofList bindings)
  refine ⟨isLive_replay_iff tidy live later, ?_, ?_, ?_⟩
  · intro further few dead
    rw [← replay_append]
    exact not_isLive_replay_append tidy live few dead
  · exact fun few => allocate_ne_of_reclaims_lt tidy live few
  · exact refuses_of_not_isLive

end ScopeMachine.Store
