import WorkflowEngine.Foundations.Transition

/-!
# Purged schedules

A schedule without the steps of a kind, and when what is left does the same: if a step
that is left out changes nothing of a part of the state, and a step that is kept can be
taken on that part alone.
-/

namespace Transition

namespace System

universe u v

variable {State : Type u} {Action : Type v}

/-- The steps of a schedule that are kept. -/
def purge (system : System State Action) (keeps : State → Action → Bool) (state : State) :
    List Action → List Action
  | [] => []
  | action :: rest =>
      match system.step state action with
      | none => []
      | some next =>
          if keeps state action then action :: purge system keeps next rest
          else purge system keeps next rest

/-- Steps that are kept depend on a part of the state only, which the others leave alone. -/
structure Unwinds (system : System State Action) (keeps allowed : State → Action → Bool)
    (holds : State → Prop) (part : State → State) : Prop where
  preserved : ∀ state action next, holds state → allowed state action = true →
    system.step state action = some next → holds next
  kept : ∀ state action next, holds state → allowed state action = true →
    system.step state action = some next → keeps state action = true →
      system.step (part state) action = some (part next)
  hidden : ∀ state action next, holds state → allowed state action = true →
    system.step state action = some next → keeps state action = false → part next = part state

variable {system : System State Action} {keeps allowed : State → Action → Bool}
  {holds : State → Prop} {part : State → State}

/-- The purged schedule leads to the part of the state that the whole one leads to. -/
theorem Unwinds.runFrom_purge (unwinds : system.Unwinds keeps allowed holds part)
    {start finish : State} {actions : List Action} (initial : holds start)
    (replay : system.runBy allowed start actions = some finish) :
    system.runFrom (part start) (system.purge keeps start actions) = some (part finish) := by
  induction actions generalizing start with
  | nil =>
      simp only [runBy, Option.some.injEq] at replay
      rw [← replay]
      rfl
  | cons action rest ih =>
      simp only [runBy] at replay
      split at replay
      · next permitted =>
        obtain ⟨next, taken, replayed⟩ := Option.bind_eq_some_iff.mp replay
        have later := ih (unwinds.preserved _ _ _ initial permitted taken) replayed
        simp only [purge, taken]
        cases isKept : keeps start action with
        | true =>
            rw [if_pos rfl, runFrom, unwinds.kept _ _ _ initial permitted taken isKept]
            exact later
        | false =>
            rw [if_neg Bool.false_ne_true, ← unwinds.hidden _ _ _ initial permitted taken isKept]
            exact later
      · cases replay

end System

end Transition
