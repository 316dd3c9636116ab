import WorkflowEngine.Foundations.Transition

/-!
# Two systems in step

An implementation and its specification take the same actions.  When a relation between
their states holds initially and is kept by every action, which both enable or neither
does, then it holds after every schedule, and what a related pair has in common is the
same along both runs.
-/

namespace Transition

universe u v w x

namespace System

variable {State : Type u} {Abstract : Type v} {Action : Type w}

/-- The specification takes every step of the implementation, and no other. -/
structure InStep (related : State → Abstract → Prop) (implementation : System State Action)
    (specification : System Abstract Action) : Prop where
  init : related implementation.init specification.init
  step : ∀ {state : State} {abstract : Abstract}, related state abstract → ∀ action : Action,
    Option.Rel related (implementation.step state action) (specification.step abstract action)

variable {related : State → Abstract → Prop} {implementation : System State Action}
  {specification : System Abstract Action}

theorem InStep.runFrom (inStep : InStep related implementation specification) {state : State}
    {abstract : Abstract} (start : related state abstract) (actions : List Action) :
    Option.Rel related (implementation.runFrom state actions)
      (specification.runFrom abstract actions) := by
  induction actions generalizing state abstract with
  | nil => exact .some start
  | cons action rest ih =>
      have taken := inStep.step start action
      rw [System.runFrom, System.runFrom]
      generalize implementation.step state action = next at taken ⊢
      generalize specification.step abstract action = nextAbstract at taken ⊢
      cases taken with
      | none => exact .none
      | some kept => exact ih kept

theorem InStep.run (inStep : InStep related implementation specification)
    (actions : List Action) :
    Option.Rel related (implementation.run actions) (specification.run actions) :=
  inStep.runFrom inStep.init actions

/-- What related states show alike, both runs show alike. -/
theorem InStep.map_run {Shown : Type x} {shows : State → Shown}
    {showsAbstract : Abstract → Shown}
    (inStep : InStep related implementation specification)
    (alike : ∀ state abstract, related state abstract → shows state = showsAbstract abstract)
    (actions : List Action) :
    (implementation.run actions).map shows = (specification.run actions).map showsAbstract := by
  have both := inStep.run actions
  generalize implementation.run actions = finish at both ⊢
  generalize specification.run actions = finishAbstract at both ⊢
  cases both with
  | none => rfl
  | some kept => exact congrArg some (alike _ _ kept)

end System

end Transition
