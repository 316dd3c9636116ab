import Mathlib.Logic.Relation
import WorkflowEngine.Workflow.Run.Counter

/-!
# Paths of the transition tables

Most statements change statuses without consulting the tables.  What a step makes
of a status is a path of its table all the same.
-/

namespace WorkflowEngine

variable {Val : Type}

/-- A path of the transition table. -/
def Machine.Path (machine : Machine) : machine.Status → machine.Status → Prop :=
  Relation.ReflTransGen fun source target => canTransition machine source target = true

namespace Machine.Path

variable {machine : Machine} {source middle target : machine.Status}

theorem refl (status : machine.Status) : machine.Path status status :=
  Relation.ReflTransGen.refl

theorem single (listed : canTransition machine source target = true) :
    machine.Path source target :=
  Relation.ReflTransGen.single listed

theorem trans (before : machine.Path source middle) (after : machine.Path middle target) :
    machine.Path source target :=
  Relation.ReflTransGen.trans before after

/-- No path leaves a terminal status. -/
theorem eq_of_isTerminal (path : machine.Path source target)
    (terminal : isTerminal machine source = true) : target = source := by
  cases path.cases_head with
  | inl same => exact same.symm
  | inr first =>
      rcases first with ⟨_, listed, _⟩
      rw [canTransition_of_isTerminal terminal] at listed
      cases listed

end Machine.Path

/-! ## Steps -/

/-- Whatever is unfinished can be cancelled. -/
theorem Machine.Path.cancellable {status : TaskStatus} (unfinished : status.unfinished = true) :
    Machine.task.Path status .cancelled := by
  cases status with
  | completed | failed | deadLetter | cancelled => cases unfinished
  | pending | ready | queued | running | retrying | waitingForApproval => exact .single rfl

/-- A live run can fail. -/
theorem Machine.Path.fails {status : ExecutionStatus} (live : status.live = true) :
    Machine.execution.Path status .failed := by
  cases status with
  | running | paused => exact .single rfl
  | pending | waitingForApproval | completed | failed | cancelled => cases live

variable [Mixed Val]

/-- The status of a task moves along the table. -/
theorem Task.Moves.path {label : Option (Reply Val)} {task later : Task Val}
    (moves : Task.Moves label task later) : Machine.task.Path task.status later.status := by
  cases moves with
  | rest | renewed => exact .refl _
  | promoted _ pending =>
      rw [pending]
      exact .single rfl
  | cancelled _ unstarted => exact .cancellable (TaskStatus.unfinished_of_unstarted unstarted)
  | aborted unfinished => exact .cancellable unfinished
  | dispatched ready =>
      rw [ready]
      exact .single rfl
  | @claimed _ workerId leaseMs now free =>
      change Machine.task.Path task.status .running
      cases status : task.status with
      | queued => exact .single rfl
      | retrying =>
          have requeued : Machine.task.Path .retrying .queued := .single rfl
          exact requeued.trans (.single rfl)
      | running =>
          have requeued : Machine.task.Path .running .queued := .single rfl
          exact requeued.trans (.single rfl)
      | _ => rw [claimable, status] at free; cases free
  | completed running | retried running | suspended running =>
      rw [running]
      exact .single rfl
  | @failed _ error now running =>
      rw [running]
      change Machine.task.Path .running (failureOutcome task (isRetryable error)).status
      cases failureOutcome task (isRetryable error) with
      | failed => exact .single rfl
      | deadLetter =>
          have failed : Machine.task.Path .running .failed := .single rfl
          exact failed.trans (.single rfl)
  | approved waiting | rejected waiting =>
      rw [waiting]
      exact .single rfl

namespace Run

omit [Mixed Val] in
theorem counted_path (now : Time) (execution : WorkflowExecution Val) :
    Machine.execution.Path execution.status (counted now execution).status := by
  unfold counted
  split
  · next last =>
    simp only [done, Bool.and_eq_true, decide_eq_true_eq] at last
    rw [last.1]
    exact .single rfl
  · exact .refl _

omit [Mixed Val] in
theorem fail_path (task : Task Val) (outcome : FailureOutcome) (message : String)
    (retryable : Bool) (missed : Key → Bool) (now : Time) (run : Run Val)
    {execution : WorkflowExecution Val} (same : run.execution = execution) :
    Machine.execution.Path execution.status
      (Run.fail task outcome message retryable missed now run).execution.status := by
  subst same
  unfold Run.fail
  split
  · next live => exact .fails live
  · exact .refl _

/-- The status of an execution moves along the table. -/
theorem Step.path {missed : Key → Bool} {label : Option (Reply Val)} {run next : Run Val}
    (step : Step missed label run next) :
    Machine.execution.Path run.execution.status next.execution.status := by
  cases step with
  | dispatch | claim | renew | announce | retry | suspend => exact .refl _
  | pause running =>
      rw [running]
      exact .single rfl
  | resume paused =>
      have resumes : Machine.execution.Path .paused .running := .single rfl
      rw [paused]
      simp only [emit, resumed]
      split
      · exact resumes.trans (.single rfl)
      · exact resumes
  | cancel live =>
      cases status : run.execution.status with
      | running | paused => exact .single rfl
      | pending | waitingForApproval | completed | failed | cancelled =>
          rw [status] at live
          cases live
  | complete | approve => exact counted_path _ _
  | fail => exact fail_path _ _ _ _ _ _ _ rfl
  | reject => exact fail_path _ _ _ _ _ _ _ rfl

end Run

end WorkflowEngine
