import Mathlib.Data.List.Basic

/-!
# State machines of executions and tasks

The two transition tables and the checks made against them.  A status change
that the tables do not list is a bug and is reported as an error.
-/

namespace WorkflowEngine

inductive ExecutionStatus where
  | pending | running | paused | waitingForApproval | completed | failed | cancelled
  deriving DecidableEq, Repr

inductive TaskStatus where
  /-- waiting for dependencies -/
  | pending
  /-- all dependencies done, not yet handed to the queue -/
  | ready
  /-- in the queue, waiting for a worker -/
  | queued
  /-- a worker holds it -/
  | running
  /-- failed, waiting for its backoff delay -/
  | retrying
  | waitingForApproval
  | completed
  /-- failed for good: non-retryable or retries exhausted -/
  | failed
  /-- parked for a human to inspect -/
  | deadLetter
  | cancelled
  deriving DecidableEq, Repr

/-- The two state machines. -/
inductive Machine where
  | execution | task
  deriving DecidableEq, Repr

/-- Statuses of a machine. -/
@[reducible] def Machine.Status : Machine → Type
  | .execution => ExecutionStatus
  | .task => TaskStatus

instance : (machine : Machine) → DecidableEq machine.Status
  | .execution => inferInstanceAs (DecidableEq ExecutionStatus)
  | .task => inferInstanceAs (DecidableEq TaskStatus)

/-- Allowed next states of an execution. -/
def executionTransitions : ExecutionStatus → List ExecutionStatus
  | .pending => [.running, .cancelled]
  | .running => [.paused, .waitingForApproval, .completed, .failed, .cancelled]
  -- A task can fail for good while paused: tasks already running finish.
  | .paused => [.running, .failed, .cancelled]
  | .waitingForApproval => [.running, .failed, .cancelled]
  | .completed => []
  | .failed => []
  | .cancelled => []

/-- Allowed next states of a task. -/
def taskTransitions : TaskStatus → List TaskStatus
  | .pending => [.ready, .cancelled]
  | .ready => [.queued, .cancelled]
  | .queued => [.running, .ready, .cancelled]
  | .running => [.completed, .failed, .retrying, .waitingForApproval, .queued, .cancelled]
  | .retrying => [.queued, .cancelled]
  | .waitingForApproval => [.completed, .failed, .cancelled]
  | .failed => [.deadLetter]
  | .completed => []
  | .deadLetter => []
  | .cancelled => []

/-- `TRANSITIONS` -/
def transitions : (machine : Machine) → machine.Status → List machine.Status
  | .execution => executionTransitions
  | .task => taskTransitions

def canTransition (machine : Machine) (source target : machine.Status) : Bool :=
  target ∈ transitions machine source

/-- A terminal state has no outgoing transitions. -/
def isTerminal (machine : Machine) (status : machine.Status) : Bool :=
  (transitions machine status).isEmpty

/-- A terminal state is never left. -/
theorem canTransition_of_isTerminal {machine : Machine} {source target : machine.Status}
    (terminal : isTerminal machine source = true) :
    canTransition machine source target = false := by
  have none : transitions machine source = [] := List.isEmpty_iff.mp terminal
  simp [canTransition, none]

namespace TaskStatus

/-- The task still counts in `pendingTasks`: it is not COMPLETED, FAILED,
DEAD_LETTER or CANCELLED. -/
def unfinished : TaskStatus → Bool
  | .completed | .failed | .deadLetter | .cancelled => false
  | _ => true

/-- PENDING, READY, QUEUED or RETRYING: nothing runs the task now. -/
def unstarted : TaskStatus → Bool
  | .pending | .ready | .queued | .retrying => true
  | _ => false

end TaskStatus

namespace ExecutionStatus

/-- RUNNING or PAUSED. -/
def live : ExecutionStatus → Bool
  | .running | .paused => true
  | _ => false

end ExecutionStatus

end WorkflowEngine
