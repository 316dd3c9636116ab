import WorkflowEngine.Workflow.System

/-!
# Running one task

A worker runs the handler of a task that `startTask` gave it and reports once what
the handler returned or threw.
-/

namespace WorkflowEngine

variable {Val : Type}

/-- How a handler ends. -/
inductive HandlerResult (Val : Type) where
  | returned (output : Val)
  | awaitApproval (request : ApprovalParams Val)
  /-- also a timeout, and a task type without a handler -/
  | threw (error : Option Thrown)

/-- The report on a started task. -/
def runTask [Mixed Val] (claimed : Started Val) : HandlerResult Val → Op Val
  | .returned output => .completeTask claimed.task.id claimed.task.leaseToken output
  | .awaitApproval request =>
      .suspendForApproval claimed.task.id claimed.task.leaseToken request
  | .threw error =>
      if isFailure error then
        .failTask claimed.task.id claimed.task.leaseToken error
      else
        -- nothing was returned: `output ?? null`
        .completeTask claimed.task.id claimed.task.leaseToken Mixed.null

theorem runTask_eq_completeTask [Mixed Val] {claimed : Started Val} {result : HandlerResult Val}
    {taskId : TaskId} {leaseToken : Nat} {output : Val} :
    runTask claimed result = .completeTask taskId leaseToken output ↔
      claimed.task.id = taskId ∧ claimed.task.leaseToken = leaseToken ∧
        (result = .returned output ∨
          (∃ error, result = .threw error ∧ isFailure error = false) ∧ Mixed.null = output) := by
  cases result with
  | returned value => simp [runTask]
  | awaitApproval request => simp [runTask]
  | threw error =>
      cases failed : isFailure error with
      | true => simp [runTask, failed]
      | false => simp [runTask, failed]

/-- Handlers whose output depends on nothing but the configuration of the task, the input
of the run and the outputs of the parents.  The defaults of `config` and `output` are part
of it. -/
abbrev Handlers (Val : Type) := String → Val → Val → (Key → Option Val) → Val

/-- What the handler of a started task returns. -/
def Handlers.output (handlers : Handlers Val) (claimed : Started Val) : Val :=
  handlers claimed.task.type claimed.task.config claimed.input fun key =>
    List.lookup key claimed.parents

/-- What calls of `startTask` returned. -/
def startedIn (log : List (Reply Val)) : List (Started Val) :=
  log.filterMap fun
    | .startTask _ started => started
    | _ => none

theorem mem_startedIn {log : List (Reply Val)} {claimed : Started Val} :
    claimed ∈ startedIn log ↔ ∃ taskId, .startTask taskId (some claimed) ∈ log := by
  rw [startedIn, List.mem_filterMap]
  constructor
  · rintro ⟨reply, membership, isStarted⟩
    split at isStarted
    · cases isStarted
      exact ⟨_, membership⟩
    · cases isStarted
  · rintro ⟨taskId, membership⟩
    exact ⟨_, membership, rfl⟩

end WorkflowEngine
