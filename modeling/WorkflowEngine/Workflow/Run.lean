import WorkflowEngine.Workflow.System

/-!
# One run as a transition system

What the engine's operations do to one run, without snapshots, frames or the
other runs of the database.  A run steps under a label, the reply of the call
that committed the step.  Two steps keep what is left of snapshot isolation: a
retry does not look at the status of the execution, and fail-fast may miss tasks
that its snapshot showed RUNNING and that wait for a retry by now.
-/

namespace WorkflowEngine

open DocStore

namespace Reply

variable {Val : Type}

/-- The task whose document the reply reports as changed. -/
def about : Reply Val → Option TaskId
  | .completeTask taskId _ _ true => some taskId
  | .failTask taskId _ _ (some _) => some taskId
  | .suspendForApproval taskId _ true => some taskId
  | .resolveApproval _ _ taskId => taskId
  | .renewLease taskId _ true => some taskId
  | .dispatchTask taskId true => some taskId
  | .claimTask task => some task.id
  | _ => none

/-- The execution whose run the reply reports as new or changed. -/
def target : Reply Val → Option ExecutionId
  | .startExecution _ execution => some execution.id
  | .pauseExecution executionId true => some executionId
  | .resumeExecution executionId true => some executionId
  | .cancelExecution executionId true => some executionId
  | reply => reply.about.map (·.executionId)

/-- The reply reports no change of a run and no new run. -/
def idle (reply : Reply Val) : Bool := reply.target.isNone

end Reply

/-- An execution with everything the engine stores about it. -/
structure Run (Val : Type) where
  execution : WorkflowExecution Val
  tasks : List (Task Val)
  approvals : List (ApprovalRequest Val)
  events : List (EventType × EventPayload)

/-- What an outbox row says. -/
def OutboxEvent.content (event : OutboxEvent) : EventType × EventPayload :=
  (event.type, event.payload)

variable {Val : Type}

/-- The run of an execution in a database. -/
def Db.runOf (db : Db Val) (execution : WorkflowExecution Val) : Run Val :=
  { execution
    tasks := db.tasks.values.filter fun task => task.executionId == execution.id
    approvals := db.approvals.values.filter fun request => request.executionId == execution.id
    events := (db.outbox.values.filter fun event => event.aggregateId == execution.id).map
      OutboxEvent.content }

namespace Run

/-- Put a task in the place of the one with its key. -/
def replaceIn (task : Task Val) (tasks : List (Task Val)) : List (Task Val) :=
  tasks.map fun other => if other.key = task.key then task else other

def replace (task : Task Val) (run : Run Val) : Run Val :=
  { run with tasks := replaceIn task run.tasks }

def emit (events : List (EventType × EventPayload)) (run : Run Val) : Run Val :=
  { run with events := run.events ++ events }

/-! ## After a task succeeded -/

/-- What a parent's success does to a task of a run with this status. -/
def released (status : ExecutionStatus) (parent : Task Val) (now : Time) (task : Task Val) :
    Task Val :=
  if status.live then
    let counted := (decrementChildren parent.executionId parent.dependents).onValue task
    if status = .running then
      (promoteChildren parent.executionId parent.dependents now).onValue counted
    else
      counted
  else
    task

/-- The last task of a RUNNING run completes it. -/
def done (execution : WorkflowExecution Val) : Bool :=
  decide (execution.status = .running) && decide (execution.pendingTasks = 1)

def counted (now : Time) (execution : WorkflowExecution Val) : WorkflowExecution Val :=
  let decremented := { execution with pendingTasks := execution.pendingTasks - 1 }
  if done execution then
    { decremented with status := .completed, completedAt := some now }
  else
    decremented

def succeed (task : Task Val) (now : Time) (run : Run Val) : Run Val :=
  { execution := counted now run.execution
    tasks := run.tasks.map (released run.execution.status task now)
    approvals := run.approvals
    events := run.events ++
      (if done run.execution then [(.executionCompleted, .empty)] else []) ++
        [(.taskCompleted, .taskCompleted task.id task.key task.attempt
          (task.startedAt.map fun started => now - started))] }

/-! ## After a task failed for good -/

/-- Fail-fast cancels the task.  `missed` are the tasks its snapshot showed
RUNNING. -/
def hit (missed : Key → Bool) (task : Task Val) : Bool :=
  task.status.unstarted && !(missed task.key && decide (task.status = .retrying))

/-- The fail-fast cancellation of one task. -/
def failedFast (missed : Key → Bool) (now : Time) (task : Task Val) : Task Val :=
  if hit missed task then
    { task with status := .cancelled, completedAt := some now }
  else
    task

def fail (task : Task Val) (outcome : FailureOutcome) (message : String) (retryable : Bool)
    (missed : Key → Bool) (now : Time) (run : Run Val) : Run Val :=
  let report := (outcome.eventType,
    .taskFailed task.id task.key task.attempt message retryable)
  if run.execution.status.live then
    { execution :=
        { run.execution with
          status := .failed
          error := some (failureText task outcome message)
          completedAt := some now
          pendingTasks := run.execution.pendingTasks - 1 - run.tasks.countP (hit missed) }
      tasks := run.tasks.map (failedFast missed now)
      approvals := run.approvals
      events := run.events ++ [(.executionFailed, .executionFailed task.key message), report] }
  else
    { run with
      execution := { run.execution with pendingTasks := run.execution.pendingTasks - 1 }
      events := run.events ++ [report] }

/-! ## Resume -/

def resumed (now : Time) (execution : WorkflowExecution Val) : WorkflowExecution Val :=
  if execution.pendingTasks = 0 then
    { execution with status := .completed, completedAt := some now }
  else
    { execution with status := .running }

/-! ## Steps -/

/-- The committed steps of a run. -/
inductive Step [Mixed Val] (missed : Key → Bool) :
    Option (Reply Val) → Run Val → Run Val → Prop where
  | pause {run : Run Val} :
      run.execution.status = .running →
      Step missed (some (.pauseExecution run.execution.id true)) run
        (emit [(.executionPaused, .empty)]
          { run with execution := { run.execution with status := .paused } })
  | resume {run : Run Val} {now : Time} :
      run.execution.status = .paused →
      Step missed (some (.resumeExecution run.execution.id true)) run
        (emit ((.executionResumed, .empty) ::
            if run.execution.pendingTasks = 0 then [(.executionCompleted, .empty)] else [])
          { run with
            execution := resumed now run.execution
            tasks := run.tasks.map (promotePending run.execution.id now).onValue })
  | cancel {run : Run Val} {now : Time} :
      run.execution.status.live = true →
      Step missed (some (.cancelExecution run.execution.id true)) run
        (emit [(.executionCancelled,
            .executionCancelled (run.tasks.countP fun task => task.status.unfinished))]
          { run with
            execution :=
              { run.execution with
                status := .cancelled
                completedAt := some now
                error := some "Cancelled by user"
                pendingTasks := run.execution.pendingTasks -
                  run.tasks.countP fun task => task.status.unfinished }
            tasks := run.tasks.map (cancelUnfinished run.execution.id now).onValue
            approvals := run.approvals.map (cancelApprovals run.execution.id now).onValue })
  | dispatch {run : Run Val} {task : Task Val} {now : Time} :
      task ∈ run.tasks → task.status = .ready →
      Step missed (some (.dispatchTask task.id true)) run
        (run.replace (moved .queued (queueing now) task))
  | claim {run : Run Val} {task : Task Val} {workerId : String} {leaseMs : Int} {now : Time} :
      task ∈ run.tasks → claimable now task = true →
      Step missed (some (.claimTask ((WorkflowEngine.claim workerId leaseMs now).set task))) run
        (run.replace ((WorkflowEngine.claim workerId leaseMs now).set task))
  | renew {run : Run Val} {task : Task Val} {leaseMs : Int} {now : Time} :
      task ∈ run.tasks → task.status = .running →
      Step missed (some (.renewLease task.id task.leaseToken true)) run
        (run.replace ((renewal task.leaseToken leaseMs now).set task))
  | announce {run : Run Val} {task : Task Val} {workerId : String} :
      Step missed none run
        (emit [(.taskStarted, .taskStarted task.id task.key task.attempt workerId)] run)
  | complete {run : Run Val} {task : Task Val} {output : Val} {now : Time} :
      task ∈ run.tasks → task.status = .running →
      Step missed (some (.completeTask task.id task.leaseToken output true)) run
        (succeed (moved .completed (completion task.leaseToken output now) task) now
          (run.replace (moved .completed (completion task.leaseToken output now) task)))
  | retry {run : Run Val} {task : Task Val} {error : Option Thrown} {delayMs : Nat}
        {now : Time} :
      task ∈ run.tasks → task.status = .running →
      isRetryable error = true → task.attempt < task.maxAttempts →
      Step missed (some (.failTask task.id task.leaseToken error (some (.retrying delayMs)))) run
        (emit [(.taskRetrying,
            .taskRetrying task.id task.key task.attempt delayMs (failureMessage error))]
          (run.replace (moved .retrying
            (postponement task.leaseToken (failureMessage error) (now + delayMs)) task)))
  | fail {run : Run Val} {task : Task Val} {error : Option Thrown} {now : Time} :
      task ∈ run.tasks → task.status = .running →
      (isRetryable error = true → task.attempt < task.maxAttempts →
        run.execution.status.live = false) →
      Step missed (some (.failTask task.id task.leaseToken error
          (some (.forGood (failureOutcome task (isRetryable error)))))) run
        (Run.fail task (failureOutcome task (isRetryable error)) (failureMessage error)
          (isRetryable error) missed now
          (run.replace (moved (failureOutcome task (isRetryable error)).status
            (failure task.leaseToken (failureMessage error) now) task)))
  | suspend {run : Run Val} {task : Task Val} {env : Env} {request : ApprovalParams Val} :
      task ∈ run.tasks → task.status = .running →
      (∀ other ∈ run.approvals, other.taskId ≠ task.id) →
      (∀ other ∈ run.approvals, other.id ≠ env.objectId) →
      Step missed (some (.suspendForApproval task.id task.leaseToken true)) run
        (emit [(.approvalRequested, .approvalRequested env.objectId task.id task.key
            (newApproval env task request).expiresAt)]
          { run.replace (moved .waitingForApproval (suspension task.leaseToken) task) with
            approvals := run.approvals ++ [newApproval env task request] })
  | approve {run : Run Val} {task : Task Val} {request : ApprovalRequest Val}
        {params : ResolveParams} {now : Time} :
      task ∈ run.tasks → task.status = .waitingForApproval →
      request ∈ run.approvals → request.status = .pending →
      request.id = params.approvalId → request.taskId = task.id → params.decision = .approved →
      Step missed (some (.resolveApproval params now (some task.id))) run
        (emit [(.approvalDecided params.decision,
            .approvalDecided request.id task.key params.decidedBy)]
          (succeed (moved .completed (approvedTask params now) task) now
            { run.replace (moved .completed (approvedTask params now) task) with
              approvals := run.approvals.map fun other =>
                if other.id = params.approvalId then (recordDecision params now).set other
                else other }))
  | reject {run : Run Val} {task : Task Val} {request : ApprovalRequest Val}
        {params : ResolveParams} {now : Time} :
      task ∈ run.tasks → task.status = .waitingForApproval →
      request ∈ run.approvals → request.status = .pending →
      request.id = params.approvalId → request.taskId = task.id → params.decision ≠ .approved →
      Step missed (some (.resolveApproval params now (some task.id))) run
        (emit [(.approvalDecided params.decision,
            .approvalDecided request.id task.key params.decidedBy)]
          (Run.fail task .failed (rejectionText params.decision params.comment) false missed now
            { run.replace (moved .failed (rejectedTask params now) task) with
              approvals := run.approvals.map fun other =>
                if other.id = params.approvalId then (recordDecision params now).set other
                else other }))

/-- The run `startExecution` creates. -/
def start [Mixed Val] (env : Env) (params : StartParams Val) : Run Val :=
  { execution := newExecution env params
    tasks := params.workflow.tasks.map (newTask env.objectId params.workflow env.now)
    approvals := []
    events := [(.executionStarted, .started params.workflow.id params.workflow.version
      params.workflow.tasks.length params.triggeredBy params.trigger)] }

/-- The runs of a definition that the engine accepts, under any schedule. -/
inductive Reached [Mixed Val] (params : StartParams Val) : Run Val → Prop where
  | start {env : Env} :
      (validateDag (params.workflow.tasks.map TaskDefinition.toDagTask)).valid = true →
      Reached params (start env params)
  | step {missed : Key → Bool} {label : Option (Reply Val)} {run next : Run Val} :
      Reached params run → Step missed label run next → Reached params next

end Run

end WorkflowEngine
