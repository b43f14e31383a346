import Mathlib.Data.List.Basic

/-!
# Machines of guarded steps

A machine takes one labelled action at a time, and an action that cannot be
taken in a state has no successor there. All nondeterminism is in the choice of
the next action, so a run is a list of actions and can be evaluated. A law about
every run is proved here once, from what a single step preserves.
-/

/-- `step state action` is the state that `action` leads to, or `none` when
`action` cannot be taken in `state`. -/
structure Machine (State Action : Type*) where
  step : State → Action → Option State

namespace Machine

variable {State Action : Type*} (M : Machine State Action)

/-- Take the actions one after the other; `none` as soon as one cannot be taken. -/
def run (state : State) : List Action → Option State
  | [] => some state
  | action :: rest => (M.step state action).bind fun next => run next rest

@[simp] theorem run_nil (state : State) : M.run state [] = some state := rfl

@[simp] theorem run_cons (state : State) (action : Action) (rest : List Action) :
    M.run state (action :: rest) =
      (M.step state action).bind fun next => M.run next rest := rfl

theorem run_append (state : State) (first second : List Action) :
    M.run state (first ++ second) =
      (M.run state first).bind fun middle => M.run middle second := by
  induction first generalizing state with
  | nil => rfl
  | cons action rest ih =>
      rw [List.cons_append, run_cons, run_cons, Option.bind_assoc]
      exact congrArg _ (funext fun next => ih next)

/-- A run is its first part followed by a run of its second part. -/
theorem run_append_eq_some {state final : State} {first second : List Action} :
    M.run state (first ++ second) = some final ↔
      ∃ middle, M.run state first = some middle ∧ M.run middle second = some final := by
  rw [run_append, Option.bind_eq_some_iff]

theorem run_cons_eq_some {state final : State} {action : Action} {rest : List Action} :
    M.run state (action :: rest) = some final ↔
      ∃ next, M.step state action = some next ∧ M.run next rest = some final := by
  rw [run_cons, Option.bind_eq_some_iff]

/-- Extend a run by one more step. -/
theorem run_concat {state middle final : State} {actions : List Action} {action : Action}
    (before : M.run state actions = some middle) (taken : M.step middle action = some final) :
    M.run state (actions ++ [action]) = some final :=
  M.run_append_eq_some.mpr ⟨middle, before, M.run_cons_eq_some.mpr ⟨final, taken, rfl⟩⟩

/-- Every step that the run takes meets `condition`, which sees the state the
step is taken in and its action. -/
def Steps (condition : State → Action → Prop) : State → List Action → Prop
  | _, [] => True
  | state, action :: rest =>
      ∀ next, M.step state action = some next →
        condition state action ∧ Steps condition next rest

@[simp] theorem steps_nil (condition : State → Action → Prop) (state : State) :
    M.Steps condition state [] := trivial

theorem steps_cons {condition : State → Action → Prop} {state next : State} {action : Action}
    {rest : List Action} (taken : M.step state action = some next) :
    M.Steps condition state (action :: rest) ↔
      condition state action ∧ M.Steps condition next rest := by
  constructor
  · intro steps
    exact steps next taken
  · rintro ⟨here, later⟩ other reached
    cases taken.symm.trans reached
    exact ⟨here, later⟩

/-- A condition that can be decided can be checked along a run. -/
instance decidableSteps {condition : State → Action → Prop}
    [∀ state action, Decidable (condition state action)] :
    (state : State) → (actions : List Action) → Decidable (M.Steps condition state actions)
  | _, [] => isTrue trivial
  | state, action :: rest =>
      match taken : M.step state action with
      | none => isTrue fun _ reached => nomatch taken.symm.trans reached
      | some next =>
          have : Decidable (M.Steps condition next rest) := decidableSteps next rest
          decidable_of_iff (condition state action ∧ M.Steps condition next rest)
            (M.steps_cons taken).symm

/-- The steps of a run are the steps of its parts. -/
theorem steps_append {condition : State → Action → Prop} {state middle : State}
    {first second : List Action} (before : M.run state first = some middle) :
    M.Steps condition state (first ++ second) ↔
      M.Steps condition state first ∧ M.Steps condition middle second := by
  induction first generalizing state with
  | nil =>
      cases before
      simp only [List.nil_append, steps_nil, true_and]
  | cons action rest ih =>
      obtain ⟨next, taken, onward⟩ := M.run_cons_eq_some.mp before
      rw [List.cons_append, M.steps_cons taken, M.steps_cons taken, ih onward, and_assoc]

/-- A condition that holds wherever the run can be split at a step holds of
every step of the run. -/
theorem steps_of_split {condition : State → Action → Prop} {state : State}
    {actions : List Action}
    (split : ∀ earlier action later middle next, actions = earlier ++ action :: later →
      M.run state earlier = some middle → M.step middle action = some next →
      condition middle action) : M.Steps condition state actions := by
  induction actions generalizing state with
  | nil => trivial
  | cons action rest ih =>
      intro next taken
      refine ⟨split [] action rest state next rfl rfl taken, ih ?_⟩
      intro earlier action' later middle next' whole before taken'
      exact split (action :: earlier) action' later middle next' (by rw [whole]; rfl)
        (M.run_cons_eq_some.mpr ⟨next, taken, before⟩) taken'

/-- A condition that an action meets in every state. -/
theorem steps_of_forall {condition : State → Action → Prop} {state : State}
    {actions : List Action} (met : ∀ action ∈ actions, ∀ state, condition state action) :
    M.Steps condition state actions :=
  M.steps_of_split fun _ action _ middle _ whole _ _ =>
    met action (whole ▸ List.mem_append_right _ List.mem_cons_self) middle

/-- What one step gives from an invariant and a condition, a run gives from the
invariant at its start and the condition at each of its steps. -/
theorem steps_mono {condition law : State → Action → Prop} {invariant : State → Prop}
    (preserved : ∀ state action next, invariant state → condition state action →
      M.step state action = some next → invariant next)
    (gives : ∀ state action next, invariant state → condition state action →
      M.step state action = some next → law state action)
    {state : State} {actions : List Action} (start : invariant state)
    (met : M.Steps condition state actions) : M.Steps law state actions := by
  induction actions generalizing state with
  | nil => trivial
  | cons action rest ih =>
      intro next taken
      obtain ⟨here, later⟩ := met next taken
      exact ⟨gives state action next start here taken,
        ih (preserved state action next start here taken) later⟩

/-- Two conditions that agree wherever an invariant holds are met by the steps of
the same runs. -/
theorem steps_congr {first second : State → Action → Prop} (invariant : State → Prop)
    (preserved : ∀ state action next, invariant state →
      M.step state action = some next → invariant next)
    (agree : ∀ state action, invariant state → (first state action ↔ second state action))
    {state : State} {actions : List Action} (start : invariant state) :
    M.Steps first state actions ↔ M.Steps second state actions := by
  induction actions generalizing state with
  | nil => exact Iff.rfl
  | cons action rest ih =>
      apply forall₂_congr
      intro next taken
      exact and_congr (agree state action start) (ih (preserved state action next start taken))

/-- The invariant rule: an invariant that every step meeting `condition`
preserves holds at the end of every run whose steps all meet `condition`. -/
theorem run_invariant {condition : State → Action → Prop} (invariant : State → Prop)
    (preserved : ∀ state action next, invariant state → condition state action →
      M.step state action = some next → invariant next)
    {state final : State} {actions : List Action} (start : invariant state)
    (met : M.Steps condition state actions) (reached : M.run state actions = some final) :
    invariant final := by
  induction actions generalizing state with
  | nil =>
      cases reached
      exact start
  | cons action rest ih =>
      obtain ⟨next, taken, onward⟩ := M.run_cons_eq_some.mp reached
      obtain ⟨here, later⟩ := met next taken
      exact ih (preserved state action next start here taken) later onward

/-- The invariant rule for an invariant that also sees the actions taken so far. -/
theorem run_history {condition : State → Action → Prop} (invariant : List Action → State → Prop)
    (preserved : ∀ earlier state action next, invariant earlier state → condition state action →
      M.step state action = some next → invariant (earlier ++ [action]) next)
    {state final : State} {actions : List Action} (start : invariant [] state)
    (met : M.Steps condition state actions) (reached : M.run state actions = some final) :
    invariant actions final := by
  suffices onward : ∀ earlier, invariant earlier state → invariant (earlier ++ actions) final from
    onward [] start
  clear start
  induction actions generalizing state with
  | nil =>
      intro earlier holds
      cases reached
      rwa [List.append_nil]
  | cons action rest ih =>
      intro earlier holds
      obtain ⟨next, taken, onward⟩ := M.run_cons_eq_some.mp reached
      obtain ⟨here, later⟩ := met next taken
      have extended := ih later onward (earlier ++ [action])
        (preserved earlier state action next holds here taken)
      rwa [List.append_assoc, List.singleton_append] at extended

/-- Where every step that meets the condition keeps a rank or lowers it, and each
step of a kind lowers it, a run of such steps has no more steps of the kind than
its rank is high. -/
theorem length_filter_le {costs : Action → Prop} [DecidablePred costs]
    {condition : State → Action → Prop} (domain : State → Prop) (rank : State → Nat)
    (preserved : ∀ state action next, domain state → condition state action →
      M.step state action = some next →
      domain next ∧ rank next + (if costs action then 1 else 0) ≤ rank state)
    {state final : State} {actions : List Action} (start : domain state)
    (met : M.Steps condition state actions) (ran : M.run state actions = some final) :
    domain final ∧ (actions.filter costs).length + rank final ≤ rank state := by
  induction actions generalizing state with
  | nil =>
      cases ran
      exact ⟨start, Nat.le_of_eq (Nat.zero_add _)⟩
  | cons action rest ih =>
      obtain ⟨next, taken, onward⟩ := M.run_cons_eq_some.mp ran
      obtain ⟨here, rest⟩ := met next taken
      obtain ⟨inside, lowered⟩ := preserved state action next start here taken
      obtain ⟨ended, later⟩ := ih inside rest onward
      refine ⟨ended, ?_⟩
      by_cases dear : costs action
      · rw [if_pos dear] at lowered
        rw [List.filter_cons_of_pos (by simpa using dear), List.length_cons]
        omega
      · rw [if_neg dear] at lowered
        rw [List.filter_cons_of_neg (by simpa using dear)]
        omega

@[simp] theorem steps_true (state : State) (actions : List Action) :
    M.Steps (fun _ _ => True) state actions :=
  M.steps_of_forall fun _ _ _ => trivial

/-- Steps that meet two conditions meet both. -/
theorem steps_and {first second : State → Action → Prop} {state : State} {actions : List Action}
    (one : M.Steps first state actions) (other : M.Steps second state actions) :
    M.Steps (fun state action => first state action ∧ second state action) state actions := by
  induction actions generalizing state with
  | nil => trivial
  | cons action rest ih =>
      intro next taken
      obtain ⟨here, later⟩ := one next taken
      obtain ⟨here', later'⟩ := other next taken
      exact ⟨⟨here, here'⟩, ih later later'⟩

/-- A condition on the actions alone is met by the steps of a run exactly when
every action meets it. -/
theorem steps_iff_forall {condition : Action → Prop} {state final : State} {actions : List Action}
    (ran : M.run state actions = some final) :
    M.Steps (fun _ => condition) state actions ↔ ∀ action ∈ actions, condition action := by
  induction actions generalizing state with
  | nil => exact iff_of_true trivial nofun
  | cons action rest ih =>
      obtain ⟨next, taken, onward⟩ := M.run_cons_eq_some.mp ran
      rw [M.steps_cons taken, ih onward, List.forall_mem_cons]

/-- A run all of whose steps meet `condition` keeps what such steps keep; any
other run ends in a state that a step not meeting it has led to, or one that the
steps after it have. -/
theorem kept_or_broken {domain condition : State → Action → Prop} (kept broken : State → Prop)
    (keeps : ∀ state action next, kept state → domain state action → condition state action →
      M.step state action = some next → kept next)
    (breaks : ∀ state action next, kept state → domain state action → ¬ condition state action →
      M.step state action = some next → broken next)
    (stays : ∀ state action next, broken state → domain state action →
      M.step state action = some next → broken next)
    {state final : State} {actions : List Action} (start : kept state)
    (inside : M.Steps domain state actions) (ran : M.run state actions = some final) :
    (M.Steps condition state actions ∧ kept final) ∨
      (¬ M.Steps condition state actions ∧ broken final) := by
  induction actions generalizing state with
  | nil =>
      cases ran
      exact Or.inl ⟨trivial, start⟩
  | cons action rest ih =>
      obtain ⟨next, taken, onward⟩ := M.run_cons_eq_some.mp ran
      obtain ⟨here, later⟩ := inside next taken
      rw [M.steps_cons taken]
      by_cases met : condition state action
      · simp only [met, true_and]
        exact ih (keeps state action next start here met taken) later onward
      · have lost : broken final := M.run_invariant broken
          (fun state action next => stays state action next)
          (breaks state action next start here met taken) later onward
        exact Or.inr ⟨fun steps => met steps.1, lost⟩

/-- What holds at the end of a run exactly when all of its steps meet
`condition`: such steps keep a state in which the law holds, and any other step
leads to states in which it does not and which no step leaves. -/
theorem law_iff_steps {domain condition : State → Action → Prop} {law : State → Prop}
    (kept broken : State → Prop)
    (keeps : ∀ state action next, kept state → domain state action → condition state action →
      M.step state action = some next → kept next)
    (breaks : ∀ state action next, kept state → domain state action → ¬ condition state action →
      M.step state action = some next → broken next)
    (stays : ∀ state action next, broken state → domain state action →
      M.step state action = some next → broken next)
    (gives : ∀ state, kept state → law state) (refutes : ∀ state, broken state → ¬ law state)
    {state final : State} {actions : List Action} (start : kept state)
    (inside : M.Steps domain state actions) (ran : M.run state actions = some final) :
    law final ↔ M.Steps condition state actions := by
  rcases M.kept_or_broken kept broken keeps breaks stays start inside ran with
    ⟨steps, holds⟩ | ⟨violated, lost⟩
  · exact iff_of_true (gives final holds) steps
  · exact iff_of_false (refutes final lost) violated

/-- The law holds in every state that the run passes. -/
def Always (law : State → Prop) (state : State) (actions : List Action) : Prop :=
  ∀ earlier middle, earlier <+: actions → M.run state earlier = some middle → law middle

theorem always_cons {law : State → Prop} {state next : State} {action : Action}
    {rest : List Action} (taken : M.step state action = some next) :
    M.Always law state (action :: rest) ↔ law state ∧ M.Always law next rest := by
  constructor
  · intro always
    refine ⟨always [] state List.nil_prefix rfl, fun earlier middle part ran => ?_⟩
    exact always (action :: earlier) middle (List.cons_prefix_cons.mpr ⟨rfl, part⟩)
      (M.run_cons_eq_some.mpr ⟨next, taken, ran⟩)
  · rintro ⟨here, later⟩ earlier middle part ran
    cases earlier with
    | nil =>
        cases ran
        exact here
    | cons first earlier =>
        obtain ⟨rfl, shorter⟩ := List.cons_prefix_cons.mp part
        obtain ⟨other, taken', onward⟩ := M.run_cons_eq_some.mp ran
        cases taken.symm.trans taken'
        exact later earlier middle shorter onward

/-- A run that cannot take its first step passes no other state. -/
theorem always_of_stuck {law : State → Prop} {state : State} {action : Action}
    {rest : List Action} (stuck : M.step state action = none) (here : law state) :
    M.Always law state (action :: rest) := by
  intro earlier middle part ran
  cases earlier with
  | nil =>
      cases ran
      exact here
  | cons first earlier =>
      obtain ⟨rfl, _⟩ := List.cons_prefix_cons.mp part
      rw [run_cons, stuck] at ran
      cases ran

theorem always_nil {law : State → Prop} {state : State} :
    M.Always law state [] ↔ law state := by
  constructor
  · intro always
    exact always [] state List.nil_prefix rfl
  · intro here earlier middle part ran
    cases List.prefix_nil.mp part
    cases ran
    exact here

/-- A law that can be decided can be checked along a run. -/
instance decidableAlways {law : State → Prop} [DecidablePred law] :
    (state : State) → (actions : List Action) → Decidable (M.Always law state actions)
  | state, [] => decidable_of_iff (law state) M.always_nil.symm
  | state, action :: rest =>
      match taken : M.step state action with
      | none => decidable_of_iff (law state)
          ⟨M.always_of_stuck taken, fun always => always [] state List.nil_prefix rfl⟩
      | some next =>
          have : Decidable (M.Always law next rest) := decidableAlways next rest
          decidable_of_iff (law state ∧ M.Always law next rest) (M.always_cons taken).symm

/-- What holds in every state that a run passes exactly when all of its steps meet
`condition`: such steps keep a state in which the law holds, and any other step
leads to a state in which it does not. -/
theorem always_iff_steps {domain condition : State → Action → Prop} {law : State → Prop}
    (kept : State → Prop)
    (keeps : ∀ state action next, kept state → domain state action → condition state action →
      M.step state action = some next → kept next)
    (breaks : ∀ state action next, kept state → domain state action → ¬ condition state action →
      M.step state action = some next → ¬ law next)
    (gives : ∀ state, kept state → law state)
    {state : State} {actions : List Action} (start : kept state)
    (inside : M.Steps domain state actions) :
    M.Always law state actions ↔ M.Steps condition state actions := by
  induction actions generalizing state with
  | nil => exact iff_of_true (M.always_nil.mpr (gives state start)) trivial
  | cons action rest ih =>
      cases taken : M.step state action with
      | none =>
          exact iff_of_true (M.always_of_stuck taken (gives state start))
            fun next reached => nomatch taken.symm.trans reached
      | some next =>
          obtain ⟨here, later⟩ := inside next taken
          rw [M.always_cons taken, M.steps_cons taken]
          by_cases met : condition state action
          · have onward := ih (keeps state action next start here met taken) later
            simp only [gives state start, met, true_and, onward]
          · refine iff_of_false (fun always => ?_) fun steps => met steps.1
            exact breaks state action next start here met taken
              (always.2 [] next List.nil_prefix rfl)

/-- What an invariant gives holds in every state of a run whose steps all meet the
condition under which they preserve it. -/
theorem always_of_invariant {condition : State → Action → Prop} {law : State → Prop}
    (invariant : State → Prop)
    (preserved : ∀ state action next, invariant state → condition state action →
      M.step state action = some next → invariant next)
    (gives : ∀ state, invariant state → law state) {state : State} {actions : List Action}
    (start : invariant state) (met : M.Steps condition state actions) :
    M.Always law state actions := by
  rintro earlier middle ⟨later, rfl⟩ ran
  exact gives middle
    (M.run_invariant invariant preserved start ((M.steps_append ran).mp met).1 ran)

/-- A state that some run from `start` ends in. -/
def Reachable (start final : State) : Prop :=
  ∃ actions, M.run start actions = some final

namespace Reachable

variable {M}

theorem refl (state : State) : M.Reachable state state := ⟨[], rfl⟩

theorem step {start state next : State} {action : Action} (reached : M.Reachable start state)
    (taken : M.step state action = some next) : M.Reachable start next := by
  obtain ⟨actions, before⟩ := reached
  exact ⟨actions ++ [action], M.run_concat before taken⟩

theorem trans {start middle final : State} (first : M.Reachable start middle)
    (second : M.Reachable middle final) : M.Reachable start final := by
  obtain ⟨before, reached⟩ := first
  obtain ⟨after, onward⟩ := second
  exact ⟨before ++ after, M.run_append_eq_some.mpr ⟨middle, reached, onward⟩⟩

/-- The invariant rule for reachable states. -/
theorem invariant (invariant : State → Prop)
    (preserved : ∀ state action next, invariant state →
      M.step state action = some next → invariant next)
    {start final : State} (initial : invariant start) (reached : M.Reachable start final) :
    invariant final := by
  obtain ⟨actions, ran⟩ := reached
  induction actions generalizing start with
  | nil =>
      cases ran
      exact initial
  | cons action rest ih =>
      obtain ⟨next, taken, onward⟩ := M.run_cons_eq_some.mp ran
      exact ih (preserved start action next initial taken) onward

end Reachable

/-- Two machines that take the same actions in step. -/
def pair {Other : Type*} (M : Machine State Action) (N : Machine Other Action) :
    Machine (State × Other) Action where
  step both action := (M.step both.1 action).bind fun first =>
    (N.step both.2 action).map fun second => (first, second)

section Pair

variable {Other : Type*} {M} {N : Machine Other Action} {state final : State}
  {other last : Other}

theorem pair_step_eq_some {action : Action} :
    (pair M N).step (state, other) action = some (final, last) ↔
      M.step state action = some final ∧ N.step other action = some last := by
  simp only [pair, Option.bind_eq_some_iff, Option.map_eq_some_iff, Prod.mk.injEq]
  constructor
  · rintro ⟨_, first, _, second, rfl, rfl⟩
    exact ⟨first, second⟩
  · rintro ⟨first, second⟩
    exact ⟨final, first, last, second, rfl, rfl⟩

/-- Two runs with the same actions are one run of the pair. -/
theorem pair_run {actions : List Action} (first : M.run state actions = some final)
    (second : N.run other actions = some last) :
    (pair M N).run (state, other) actions = some (final, last) := by
  induction actions generalizing state other with
  | nil =>
      cases first
      cases second
      rfl
  | cons action rest ih =>
      obtain ⟨next, taken, onward⟩ := M.run_cons_eq_some.mp first
      obtain ⟨beside, taken', onward'⟩ := N.run_cons_eq_some.mp second
      exact (pair M N).run_cons_eq_some.mpr
        ⟨(next, beside), pair_step_eq_some.mpr ⟨taken, taken'⟩, ih onward onward'⟩

/-- What the steps of two runs meet, the steps of their pair meet. -/
theorem pair_steps {first : State → Action → Prop} {second : Other → Action → Prop}
    {actions : List Action} (one : M.Steps first state actions)
    (two : N.Steps second other actions) :
    (pair M N).Steps (fun both action => first both.1 action ∧ second both.2 action)
      (state, other) actions := by
  induction actions generalizing state other with
  | nil => trivial
  | cons action rest ih =>
      rintro ⟨next, beside⟩ taken
      obtain ⟨taken, taken'⟩ := pair_step_eq_some.mp taken
      obtain ⟨here, later⟩ := one next taken
      obtain ⟨here', later'⟩ := two beside taken'
      exact ⟨⟨here, here'⟩, ih later later'⟩

end Pair

/-- The machine whose actions have a guard and, where it holds, one effect. -/
def guarded (enabled : State → Action → Prop)
    [∀ state action, Decidable (enabled state action)] (effect : State → Action → State) :
    Machine State Action where
  step state action := if enabled state action then some (effect state action) else none

theorem guarded_step {enabled : State → Action → Prop}
    [∀ state action, Decidable (enabled state action)] {effect : State → Action → State}
    {state next : State} {action : Action} :
    (guarded enabled effect).step state action = some next ↔
      enabled state action ∧ effect state action = next :=
  Option.ite_none_right_eq_some.trans (and_congr_right fun _ => Option.some_inj)

end Machine
