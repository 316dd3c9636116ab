import Mathlib.Logic.Relation

/-!
# Guarded transition systems

A system is an initial state and a guarded, executable step function.  The same
function replays a concrete schedule (`run`) and carries the proofs about every
schedule (`Reachable`).  A schedule may be restricted by a predicate on the
steps it takes, so that assumptions on the environment stay outside the system.
-/

namespace Transition

universe u v

/-- An initial state and a step function that is defined where the action is
enabled. -/
structure System (State : Type u) (Action : Type v) where
  init : State
  step : State → Action → Option State

namespace System

variable {State : Type u} {Action : Type v} (system : System State Action)

/-- Replay a schedule; `none` when one of its actions is not enabled. -/
def runFrom (state : State) : List Action → Option State
  | [] => some state
  | action :: rest => (system.step state action).bind fun next => runFrom next rest

/-- Replay a schedule from the initial state. -/
def run (actions : List Action) : Option State :=
  system.runFrom system.init actions

/-- States reachable by steps that all satisfy `allowed`. -/
inductive ReachableBy (allowed : State → Action → Prop) : State → Prop where
  | init : ReachableBy allowed system.init
  | step {state next : State} {action : Action} :
      ReachableBy allowed state → allowed state action →
      system.step state action = some next → ReachableBy allowed next

/-- States reachable by any schedule. -/
abbrev Reachable : State → Prop :=
  system.ReachableBy fun _ _ => True

variable {system}

/-- A predicate that holds initially and is kept by every allowed step holds of
every state reachable by allowed steps. -/
theorem ReachableBy.invariant {allowed : State → Action → Prop} {holds : State → Prop}
    (initial : holds system.init)
    (preserved : ∀ state action next, holds state → allowed state action →
      system.step state action = some next → holds next)
    {state : State} (reachable : system.ReachableBy allowed state) : holds state := by
  induction reachable with
  | init => exact initial
  | step _ permitted taken ih => exact preserved _ _ _ ih permitted taken

/-- Restricting the steps restricts the reachable states. -/
theorem ReachableBy.mono {narrow wide : State → Action → Prop}
    (weaker : ∀ state action, narrow state action → wide state action)
    {state : State} (reachable : system.ReachableBy narrow state) :
    system.ReachableBy wide state := by
  induction reachable with
  | init => exact .init
  | step _ permitted taken ih => exact .step ih (weaker _ _ permitted) taken

/-- The second state can follow the first one, after any number of steps. -/
def Leads (system : System State Action) : State → State → Prop :=
  Relation.ReflTransGen fun state next => ∃ action, system.step state action = some next

/-- How many steps of a schedule are of a kind. -/
def occurrences (system : System State Action) (kind : State → State → Bool) (state : State) :
    List Action → Nat
  | [] => 0
  | action :: rest =>
      match system.step state action with
      | none => 0
      | some next => (if kind state next then 1 else 0) + occurrences system kind next rest

/-- A measure that grows by one with every step of a kind counts these steps. -/
theorem measure_eq_occurrences (kind : State → State → Bool) (measure : State → Nat)
    (holds : State → Prop)
    (preserved : ∀ state action next, holds state → system.step state action = some next →
      holds next ∧ measure next = measure state + if kind state next then 1 else 0)
    {start finish : State} {actions : List Action} (initial : holds start)
    (replay : system.runFrom start actions = some finish) :
    measure finish = measure start + system.occurrences kind start actions := by
  induction actions generalizing start with
  | nil =>
      cases replay
      rfl
  | cons action rest ih =>
      simp only [runFrom] at replay
      rcases Option.bind_eq_some_iff.mp replay with ⟨next, taken, replayed⟩
      rcases preserved start action next initial taken with ⟨later, grown⟩
      rw [ih later replayed, grown, occurrences, taken, Nat.add_assoc]

/-- Replay checked against a decidable restriction on the steps. -/
def runBy (system : System State Action) (allowed : State → Action → Bool)
    (state : State) : List Action → Option State
  | [] => some state
  | action :: rest =>
      if allowed state action then
        (system.step state action).bind fun next => runBy system allowed next rest
      else
        none

theorem runBy_reachableBy {allowed : State → Action → Bool} {start finish : State}
    {actions : List Action}
    (reachable : system.ReachableBy (fun state action => allowed state action = true) start)
    (replay : system.runBy allowed start actions = some finish) :
    system.ReachableBy (fun state action => allowed state action = true) finish := by
  induction actions generalizing start with
  | nil =>
      simp only [runBy, Option.some.injEq] at replay
      exact replay ▸ reachable
  | cons action rest ih =>
      simp only [runBy] at replay
      split at replay
      · next permitted =>
        obtain ⟨next, taken, replayed⟩ := Option.bind_eq_some_iff.mp replay
        exact ih (.step reachable permitted taken) replayed
      · cases replay

/-- A restricted replay leads where it ends. -/
theorem runBy_leads {allowed : State → Action → Bool} {start finish : State}
    {actions : List Action} (replay : system.runBy allowed start actions = some finish) :
    system.Leads start finish := by
  induction actions generalizing start with
  | nil =>
      simp only [runBy, Option.some.injEq] at replay
      exact replay ▸ .refl
  | cons action rest ih =>
      simp only [runBy] at replay
      split at replay
      · obtain ⟨next, taken, replayed⟩ := Option.bind_eq_some_iff.mp replay
        exact .head ⟨action, taken⟩ (ih replayed)
      · cases replay

theorem runFrom_reachable {start finish : State} {actions : List Action}
    (reachable : system.Reachable start)
    (replay : system.runFrom start actions = some finish) : system.Reachable finish := by
  induction actions generalizing start with
  | nil =>
      simp only [runFrom, Option.some.injEq] at replay
      exact replay ▸ reachable
  | cons action rest ih =>
      simp only [runFrom] at replay
      obtain ⟨next, taken, replayed⟩ := Option.bind_eq_some_iff.mp replay
      exact ih (.step reachable trivial taken) replayed

/-- The end of a successful replay is reachable. -/
theorem run_reachable {actions : List Action} {finish : State}
    (replay : system.run actions = some finish) : system.Reachable finish :=
  runFrom_reachable .init replay

/-- The state a replay that succeeds ends in. -/
theorem get_run_reachable (system : System State Action) (actions : List Action)
    (succeeds : (system.run actions).isSome = true) :
    system.Reachable ((system.run actions).get succeeds) :=
  run_reachable (Option.some_get succeeds).symm

/-- The state a restricted replay that succeeds ends in. -/
theorem get_runBy_reachableBy (system : System State Action) (allowed : State → Action → Bool)
    (actions : List Action)
    (succeeds : (system.runBy allowed system.init actions).isSome = true) :
    system.ReachableBy (fun state action => allowed state action = true)
      ((system.runBy allowed system.init actions).get succeeds) :=
  runBy_reachableBy .init (Option.some_get succeeds).symm

end System

end Transition
