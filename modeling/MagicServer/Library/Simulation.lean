import MagicServer.Library.Machine

/-!
# Lock-step comparison of two machines

An implementation tracks a specification along a list of actions when, as long
as the specification can take the actions, the implementation takes the same
ones and the two states stay related. The rules below reduce this to one step,
and say exactly along which actions it holds when a step that breaks a given
condition visibly leaves the relation.
-/

namespace Machine

variable {Concrete Abstract Action : Type*}
  (implementation : Machine Concrete Action) (specification : Machine Abstract Action)
  (related : Concrete → Abstract → Prop)

/-- Related states before the first action and after every action that the
specification takes. -/
def Tracks : Concrete → Abstract → List Action → Prop
  | concrete, abstracted, [] => related concrete abstracted
  | concrete, abstracted, action :: rest =>
      related concrete abstracted ∧
        ∀ abstracted', specification.step abstracted action = some abstracted' →
          ∃ concrete', implementation.step concrete action = some concrete' ∧
            Tracks concrete' abstracted' rest

variable {implementation specification related}

theorem Tracks.start {concrete : Concrete} {abstracted : Abstract} {actions : List Action}
    (tracks : implementation.Tracks specification related concrete abstracted actions) :
    related concrete abstracted := by
  cases actions with
  | nil => exact tracks
  | cons action rest => exact tracks.1

/-- Where a run of the specification ends, the tracking implementation has run
to a related state. -/
theorem Tracks.run {concrete : Concrete} {abstracted final : Abstract} {actions : List Action}
    (tracks : implementation.Tracks specification related concrete abstracted actions)
    (ran : specification.run abstracted actions = some final) :
    ∃ concrete', implementation.run concrete actions = some concrete' ∧
      related concrete' final := by
  induction actions generalizing concrete abstracted with
  | nil =>
      cases ran
      exact ⟨concrete, rfl, tracks⟩
  | cons action rest ih =>
      obtain ⟨next, taken, onward⟩ := specification.run_cons_eq_some.mp ran
      obtain ⟨middle, stepped, tracked⟩ := tracks.2 next taken
      obtain ⟨concrete', reached, holds⟩ := ih tracked onward
      exact ⟨concrete', implementation.run_cons_eq_some.mpr ⟨middle, stepped, reached⟩, holds⟩

/-- Tracking holds exactly along the actions whose steps all meet `condition`,
when such a step keeps a coupling that gives the relation, and any other step
leaves the relation at once. -/
theorem tracks_iff_steps (coupled : Concrete → Abstract → Prop)
    {condition : Abstract → Action → Prop}
    (gives : ∀ concrete abstracted, coupled concrete abstracted → related concrete abstracted)
    (keeps : ∀ concrete abstracted abstracted' action, coupled concrete abstracted →
      specification.step abstracted action = some abstracted' → condition abstracted action →
      ∃ concrete', implementation.step concrete action = some concrete' ∧
        coupled concrete' abstracted')
    (leaves : ∀ concrete abstracted abstracted' action, coupled concrete abstracted →
      specification.step abstracted action = some abstracted' → ¬ condition abstracted action →
      ∀ concrete', implementation.step concrete action = some concrete' →
        ¬ related concrete' abstracted')
    {concrete : Concrete} {abstracted : Abstract} (start : coupled concrete abstracted)
    (actions : List Action) :
    implementation.Tracks specification related concrete abstracted actions ↔
      specification.Steps condition abstracted actions := by
  induction actions generalizing concrete abstracted with
  | nil => exact iff_of_true (gives concrete abstracted start) trivial
  | cons action rest ih =>
      constructor
      · rintro ⟨_, tracks⟩ abstracted' taken
        obtain ⟨concrete', stepped, tracked⟩ := tracks abstracted' taken
        have here : condition abstracted action := by
          by_contra broken
          exact leaves _ _ _ _ start taken broken _ stepped tracked.start
        obtain ⟨other, stepped', next⟩ := keeps _ _ _ _ start taken here
        cases stepped.symm.trans stepped'
        exact ⟨here, (ih next).mp tracked⟩
      · intro steps
        refine ⟨gives concrete abstracted start, fun abstracted' taken => ?_⟩
        obtain ⟨here, later⟩ := steps abstracted' taken
        obtain ⟨concrete', stepped, next⟩ := keeps _ _ _ _ start taken here
        exact ⟨concrete', stepped, (ih next).mpr later⟩

end Machine
