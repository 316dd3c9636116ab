import WorkflowEngine.Workflow.Throws

/-!
# Errors that cannot happen

Whatever the processes do, no call ever throws because a transition is not in the tables,
because a document that must exist is missing, or because a decision comes too late for
its task.
-/

namespace WorkflowEngine

open DocStore

variable {Val : Type} [Mixed Val]

/-- A unique index refused an insertion, a definition is not a valid graph, or an approval
request has no title. -/
def EngineError.Refusal (thrown : EngineError) : Prop :=
  thrown = .duplicateKey ∨
    (∃ dag, (validateDag dag).valid = false ∧
      thrown = .invalidWorkflowGraph (validateDag dag).errors) ∨
    thrown = .requiredPath "ApprovalRequest" "title"

namespace Sys

variable {sys next : Sys Val} {action : Action Val} {label : Option (Reply Val)}

theorem Stepped.refusals (stepped : sys.Stepped action next label)
    (before : ∀ thrown, .threw thrown ∈ sys.log → thrown.Refusal) :
    ∀ thrown, .threw thrown ∈ next.log → thrown.Refusal := by
  have frames := stepped.inv.frames
  have inv := stepped.inv.db
  cases stepped.took with
  | invoke => exact before
  | crash => exact before
  | @ran call env frame rest outcome found ran =>
      intro thrown membership
      rcases List.mem_append.mp membership with new | old
      · have gives := frame.gives ran new
        cases gives with
        | @callback op _ _ answers => cases op <;> cases answers
      · exact before thrown old
  | @threw call env frame rest thrown found threw =>
      intro other membership
      rcases List.mem_cons.mp membership with new | old
      · cases new
        have ok := frames _ (List.mem_of_getElem? found) frame List.mem_cons_self
        rcases (frame.step_throws inv ok threw).1 with duplicate | ⟨op, isOp, refused⟩
        · exact .inl duplicate
        · cases refused with
          | graph invalid => exact .inr (.inl ⟨_, invalid, rfl⟩)
          | title untitled => exact .inr (.inr rfl)
      · exact before other old

end Sys

/-- In every reachable state: all that calls have thrown are refusals, a step that throws
anything but a duplicate key refuses what its own operation was called with, and with fresh
event ids no step throws that inserts nothing but events. -/
theorem throws_refusals_only {sys : Sys Val} (reachable : (engineSystem Val).Reachable sys) :
    (∀ thrown, .threw thrown ∈ sys.log → thrown.Refusal) ∧
      ∀ (call : Nat) (env : Env) (frame : Frame Val) (rest : List (Frame Val)),
        sys.calls[call]? = some (frame :: rest) →
          (∀ thrown, frame.step env sys.db = .error thrown → thrown = .duplicateKey ∨
            ∃ op, frame.op? = some op ∧ RefusedInput op thrown) ∧
          (frame.insertsOther = false → env.Fresh (frame.outbox sys.db) →
            ∃ outcome, frame.step env sys.db = .ok outcome) := by
  constructor
  · have both : sys.Inv ∧ ∀ thrown, .threw thrown ∈ sys.log → thrown.Refusal := by
      apply reachable.invariant
      · constructor
        · exact Sys.inv_init
        · intro thrown absurdity
          cases absurdity
      · intro state action next held _ taken
        rcases held.1.stepped taken with ⟨label, stepped⟩
        exact ⟨stepped.later, stepped.refusals held.2⟩
    exact both.2
  · intro call env frame rest found
    have inv := Sys.inv_of_reachableBy reachable
    have ok := inv.frames _ (List.mem_of_getElem? found) frame List.mem_cons_self
    refine ⟨fun thrown threw => (frame.step_throws inv.db ok threw).1, ?_⟩
    intro events fresh
    cases ran : frame.step env sys.db with
    | ok outcome => exact ⟨outcome, rfl⟩
    | error thrown => exact absurd fresh ((frame.step_throws inv.db ok ran).2 events)

namespace Schedule

/-- A definition whose only task depends on itself is started. -/
def selfDependent : List (Action Plain) :=
  start [definition "A" ["A"]] :: steps 0 [1, 2]

end Schedule

theorem throws_refusals_only_selfDependent :
    ∃ sys : Sys Plain, ∃ thrown, .threw thrown ∈ sys.log ∧ thrown.Refusal := by
  let sys := Schedule.after Schedule.selfDependent (by decide)
  have reachable : (engineSystem Plain).Reachable sys :=
    Schedule.after_reachable Schedule.selfDependent (by decide)
  have threw : ∃ thrown, Reply.threw thrown ∈ sys.log := ⟨_, List.mem_of_getLast? rfl⟩
  rcases threw with ⟨thrown, membership⟩
  exact ⟨sys, thrown, membership, (throws_refusals_only reachable).1 thrown membership⟩

end WorkflowEngine
