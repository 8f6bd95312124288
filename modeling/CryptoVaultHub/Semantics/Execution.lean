import Mathlib

/-!
# Guarded transition systems

One executable step function serves replay and proof: `TransitionSystem.step`
is `none` exactly when an action is not enabled. `Steps` restricts a suffix to
actions which satisfy a condition on the state before them, so a result can be
stated for every run whose steps avoid a described branch. `run` replays a
concrete action list and `run_steps` turns a successful replay into a suffix.
-/

namespace CryptoVaultHub

universe u v

/-- An executable transition system over explicit states and actions. -/
structure TransitionSystem (State : Type u) (Action : Type v) where
  Initial : State → Prop
  step : State → Action → Option State

namespace TransitionSystem

variable {State : Type u} {Action : Type v}

/-- The condition which every action meets. -/
@[reducible] def Unrestricted : State → Action → Prop := fun _ _ => True

/-- Zero or more enabled actions, each allowed in the state before it. -/
inductive Steps (system : TransitionSystem State Action) (Allowed : State → Action → Prop) :
    State → State → Prop where
  | refl {state} : Steps system Allowed state state
  | step {start state action next}
      (prior : Steps system Allowed start state)
      (allowed : Allowed state action)
      (transition : system.step state action = some next) :
      Steps system Allowed start next

/-- The frontier of an allowed run from some initial state. -/
def Reachable (system : TransitionSystem State Action) (Allowed : State → Action → Prop)
    (state : State) : Prop :=
  ∃ start, system.Initial start ∧ system.Steps Allowed start state

variable {system : TransitionSystem State Action} {Allowed : State → Action → Prop}

/-- Compose two suffixes that meet at one state. -/
theorem Steps.trans {start middle finish : State}
    (first : system.Steps Allowed start middle) (suffix : system.Steps Allowed middle finish) :
    system.Steps Allowed start finish := by
  induction suffix with
  | refl => exact first
  | step _ allowed transition ih =>
    exact .step ih allowed transition

/-- A property kept by every allowed action holds along every allowed suffix. -/
theorem Steps.invariant {property : State → Prop} {start finish : State}
    (steps : system.Steps Allowed start finish) (holds : property start)
    (preserved : ∀ state action next, property state → Allowed state action →
      system.step state action = some next → property next) :
    property finish := by
  induction steps with
  | refl => exact holds
  | step _ allowed transition ih =>
    exact preserved _ _ _ ih allowed transition

/-- A property of initial states kept by every allowed action holds wherever an
allowed run can arrive. -/
theorem Reachable.invariant {property : State → Prop} {state : State}
    (reachable : system.Reachable Allowed state)
    (initial : ∀ start, system.Initial start → property start)
    (preserved : ∀ state action next, property state → Allowed state action →
      system.step state action = some next → property next) :
    property state := by
  obtain ⟨start, valid, steps⟩ := reachable
  exact steps.invariant (initial start valid) preserved

/-- If an action is allowed exactly when it keeps a property, and a property that is lost stays
so, then the property holds exactly of what allowed runs reach. -/
theorem Reachable.property_iff {property : State → Prop} {state : State}
    (reachable : system.Reachable Unrestricted state)
    (initial : ∀ start, system.Initial start → property start)
    (kept : ∀ state action next, system.Reachable Allowed state → property state →
      system.step state action = some next → (property next ↔ Allowed state action))
    (earlier : ∀ state action next, system.step state action = some next → property next →
      property state) : property state ↔ system.Reachable Allowed state := by
  obtain ⟨start, valid, steps⟩ := reachable
  induction steps with
  | refl => exact ⟨fun _ => ⟨_, valid, .refl⟩, fun _ => initial _ valid⟩
  | step prior _ transition ih =>
    constructor
    · intro holds
      have before := earlier _ _ _ transition holds
      obtain ⟨origin, isInitial, allowed⟩ := ih.mp before
      refine ⟨origin, isInitial, allowed.step ?_ transition⟩
      exact (kept _ _ _ ⟨origin, isInitial, allowed⟩ before transition).mp holds
    · intro allowed
      have holds : ∀ last, system.Reachable Allowed last → property last := by
        rintro last ⟨origin, isInitial, path⟩
        induction path with
        | refl => exact initial _ isInitial
        | step before permitted moved heldBefore =>
          exact (kept _ _ _ ⟨_, isInitial, before⟩ heldBefore moved).mpr permitted
      exact holds _ allowed

/-- A run whose steps meet one condition meets every weaker one. -/
theorem Reachable.mono {Weaker : State → Action → Prop} {state : State}
    (reachable : system.Reachable Allowed state)
    (weaker : ∀ state action, Allowed state action → Weaker state action) :
    system.Reachable Weaker state := by
  obtain ⟨start, valid, steps⟩ := reachable
  refine ⟨start, valid, ?_⟩
  induction steps with
  | refl => exact .refl
  | step _ allowed transition ih =>
    exact .step ih (weaker _ _ allowed) transition

theorem Reachable.unrestricted {state : State} (reachable : system.Reachable Allowed state) :
    system.Reachable Unrestricted state :=
  reachable.mono fun _ _ _ => trivial

/-- An initial state is reached by the empty run. -/
theorem Reachable.initial {state : State} (valid : system.Initial state) :
    system.Reachable Allowed state :=
  ⟨state, valid, .refl⟩

/-- Extend a reachable frontier by an allowed suffix. -/
theorem Reachable.append {state finish : State} (reachable : system.Reachable Allowed state)
    (suffix : system.Steps Allowed state finish) : system.Reachable Allowed finish := by
  obtain ⟨start, valid, steps⟩ := reachable
  exact ⟨start, valid, steps.trans suffix⟩

/-- Replay actions in order; `none` when one is disabled or not allowed. -/
def run (system : TransitionSystem State Action) (Allowed : State → Action → Prop)
    [∀ state action, Decidable (Allowed state action)] : State → List Action → Option State
  | state, [] => some state
  | state, action :: rest =>
    if Allowed state action then
      (system.step state action).bind fun next => run system Allowed next rest
    else none

/-- A successful replay is an allowed suffix. -/
theorem run_steps [∀ state action, Decidable (Allowed state action)] {state finish : State}
    {actions : List Action} (replayed : system.run Allowed state actions = some finish) :
    system.Steps Allowed state finish := by
  induction actions generalizing state with
  | nil =>
    simp only [run, Option.some.injEq] at replayed
    exact replayed ▸ .refl
  | cons action rest ih =>
    simp only [run] at replayed
    split at replayed
    · rename_i allowed
      obtain ⟨next, transition, continued⟩ := Option.bind_eq_some_iff.mp replayed
      exact (Steps.step .refl allowed transition).trans (ih continued)
    · cases replayed

/-- A replay whose frontier passes a check is a suffix to a state which passes it. -/
theorem exists_steps_of_run [∀ state action, Decidable (Allowed state action)]
    {start : State} (actions : List Action) (check : State → Bool)
    (passed : (system.run Allowed start actions).any check = true) :
    ∃ state, system.Steps Allowed start state ∧ check state = true := by
  cases replayed : system.run Allowed start actions with
  | none => simp [replayed] at passed
  | some state =>
    refine ⟨state, run_steps replayed, ?_⟩
    simpa [replayed] using passed

/-- Two replays in a row whose frontiers pass their checks. -/
theorem exists_steps_of_runs [∀ state action, Decidable (Allowed state action)]
    {start : State} (first second : List Action) (middle last : State → Bool)
    (passed : (system.run Allowed start first).any (fun state =>
      middle state && (system.run Allowed state second).any last) = true) :
    ∃ state later, system.Steps Allowed start state ∧ system.Steps Allowed state later ∧
      middle state = true ∧ last later = true := by
  obtain ⟨state, steps, both⟩ := exists_steps_of_run first _ passed
  obtain ⟨holds, continued⟩ := (Bool.and_eq_true _ _).mp both
  obtain ⟨later, suffix, ends⟩ := exists_steps_of_run second last continued
  exact ⟨state, later, steps, suffix, holds, ends⟩

/-- Such a replay from an initial state reaches a state which passes the check. -/
theorem exists_reachable_of_run [∀ state action, Decidable (Allowed state action)]
    {start : State} (valid : system.Initial start) (actions : List Action) (check : State → Bool)
    (passed : (system.run Allowed start actions).any check = true) :
    ∃ state, system.Reachable Allowed state ∧ check state = true := by
  obtain ⟨state, steps, holds⟩ := exists_steps_of_run actions check passed
  exact ⟨state, ⟨start, valid, steps⟩, holds⟩

/-- A run replayed by evaluation, whose state has a property. -/
theorem exists_reachable [∀ state action, Decidable (Allowed state action)] {start : State}
    {Property : State → Prop} [DecidablePred Property] (valid : system.Initial start)
    (actions : List Action)
    (passed : (system.run Allowed start actions).any (fun state => Property state) = true) :
    ∃ state, system.Reachable Allowed state ∧ Property state := by
  obtain ⟨state, reached, found⟩ :=
    exists_reachable_of_run valid actions (fun state => Property state) passed
  exact ⟨state, reached, of_decide_eq_true found⟩

end TransitionSystem

end CryptoVaultHub
