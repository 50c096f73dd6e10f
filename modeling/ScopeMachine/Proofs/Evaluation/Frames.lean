import ScopeMachine.Proofs.Evaluation.Step

/-!
# Frames of evaluations

An evaluation declares in the frames that its task gives and in those that it opens. Along its course
all other scopes keep their parents and names, and where nobody collects they stay live.
-/

namespace ScopeMachine

namespace Eval

/-- A store in order stays so and keeps parents and names outside frames, and frames that have come
on top are new; where nobody may collect, scopes stay live. -/
structure Keeping (licence : Licence) (hold : Holding) (state : State) (last : Holding)
    (final : State) : Prop where
  /-- The store is in order. -/
  tidy : final.scopes.Tidy
  /-- Parents and names outside frames are kept. -/
  keeps : state.scopes.Keeps hold.frames final.scopes
  /-- Further frames are new. -/
  fresh : ∀ handle ∈ last.frames, state.scopes.Issued handle → handle ∈ hold.frames
  /-- Scopes stay live. -/
  isLive : ¬ licence.collects → ∀ handle, state.scopes.isLive handle = true →
    final.scopes.isLive handle = true

/-- Deeds keep parents and names outside frames. -/
theorem Deed.keeping {licence : Licence} {hold last : Holding} {state final : State}
    (deed : Deed licence hold state last final) (tidy : state.scopes.Tidy) :
    Keeping licence hold state last final := by
  cases deed with
  | @opens parent known =>
    refine ⟨tidy.allocate _ _ SymbolMap.distinct_empty, Store.keeps_allocate tidy _ _, ?_, ?_⟩
    · rintro handle (rfl | old) issued
      · exact absurd issued (Store.not_issued_allocate tidy _ _)
      · exact old
    · exact fun _ handle live => Store.isLive_allocateEmpty tidy (some parent) live
  | declares own has written =>
    exact ⟨tidy.set written, Store.keeps_set_of_mem written own, fun _ own _ => own,
      fun _ handle live => (Store.isLive_set written handle).trans live⟩
  | rebinds known bound has written =>
    exact ⟨tidy.set written, Store.keeps_set_of_binds written bound _, fun _ own _ => own,
      fun _ handle live => (Store.isLive_set written handle).trans live⟩
  | looks known found => exact ⟨tidy, Store.keeps_refl _ _, fun _ own _ => own, fun _ _ live => live⟩
  | refers known bound =>
    exact ⟨tidy, Store.keeps_refl _ _, fun _ own _ => own, fun _ _ live => live⟩
  | prints output => exact ⟨tidy, Store.keeps_refl _ _, fun _ own _ => own, fun _ _ live => live⟩
  | @collects roots allowed lasting =>
    exact ⟨tidy.collect roots, Store.keeps_collect tidy lasting _, fun _ own _ => own,
      fun forbidden => absurd allowed forbidden⟩

/-- Runs keep parents and names outside the frames of their tasks. -/
theorem conserves_keeping (licence : Licence) (setting : Setting) :
    Conserves licence setting fun hold state last final =>
      state.scopes.Tidy → Keeping licence hold state last final where
  done := fun hold state tidy =>
    ⟨tidy, Store.keeps_refl _ _, fun _ own _ => own, fun _ _ live => live⟩
  trans := by
    intro first second third begun middle final earlier later tidy
    have before := earlier tidy
    have after := later before.tidy
    refine ⟨after.tidy, before.keeps.trans after.keeps before.fresh, ?_, ?_⟩
    · intro handle own issued
      have between := before.keeps.evolves.issued handle issued
      exact before.fresh handle (after.fresh handle own between) issued
    · intro forbidden handle live
      exact after.isLive forbidden handle (before.isLive forbidden handle live)
  deed := fun deed tidy => deed.keeping tidy
  ask := by
    intro hold task state final outcome admitted inner tidy
    have kept := inner tidy
    refine ⟨kept.tidy, kept.keeps.mono (Holding.ofTask_le setting admitted).1, ?_, kept.isLive⟩
    intro handle own _
    rw [Holding.frames_learn] at own
    exact own
  forget := by
    intro hold last less state final passed smaller tidy
    have kept := passed tidy
    exact ⟨kept.tidy, kept.keeps, fun handle own => kept.fresh handle (smaller.1 own), kept.isLive⟩

end Eval

end ScopeMachine
