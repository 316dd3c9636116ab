import WorkflowEngine.Repositories.Task
import WorkflowEngine.Workers.Retry

/-!
# The workflow engine

The callbacks of the engine's transactions, each as a session on the view of the
database that the transaction works on.  Everything a callback takes from its
process (clock readings, generated identifiers, the jittered backoff) is in `Env`,
fresh for every run of the callback.  One callback reads the clock once: the
source reads it again only within the same callback.
-/

namespace WorkflowEngine

open DocStore

/-- What the process and its clients supply to one step. -/
structure Env where
  /-- the clock of the process or of the server that runs the step -/
  now : Time
  /-- how long a claim is valid without a heartbeat -/
  leaseMs : Int
  /-- the ObjectId generated for a new document -/
  objectId : ObjectId
  /-- the ids `randomUUID` draws in this step -/
  randomUUID : Nat → Nat
  /-- `backoff(attempt, baseDelayMs)` -/
  backoff : Nat → Nat → Nat
  /-- Redis answers -/
  redisUp : Bool

variable {Val : Type}

/-- Record a lifecycle event in the session of the change it describes. -/
def emit (env : Env) (type : EventType) (executionId : ExecutionId)
    (payload : EventPayload) : Txn Val Unit := do
  let db ← get
  Session.create .duplicateKey
    { eventId := env.randomUUID db.outbox.length
      type, aggregateId := executionId, payload
      occurredAt := env.now, publishedAt := none : OutboxEvent }

/-- `{ $inc: { pendingTasks: -1 } }` -/
def decrementPending : Update (WorkflowExecution Val) where
  filter _ := true
  set execution := { execution with pendingTasks := execution.pendingTasks - 1 }
  id_set _ := rfl

/-- `{ status: source } -> { $set: { status: target } }` and further changes. -/
def moveExecution (source target : ExecutionStatus)
    (set : WorkflowExecution Val → WorkflowExecution Val)
    (id_set : ∀ execution, (set execution).id = execution.id) :
    Update (WorkflowExecution Val) where
  filter execution := decide (execution.status = source)
  set execution := { set execution with status := target }
  id_set execution := id_set execution

/-- Close the record of an attempt. -/
def closeAttempt (status : AttemptStatus) (startedAt : Option Time) (finishedAt : Time)
    (error : Option AttemptError) : Update TaskExecution where
  filter _ := true
  set record :=
    { record with
      status, finishedAt := some finishedAt
      durationMs := startedAt.map fun started => finishedAt - started
      error := error.orElse fun _ => record.error }
  id_set _ := rfl

/-- One parent of the task is done. -/
def decrementChildren (executionId : ExecutionId) (dependents : List Key) :
    Update (Task Val) where
  filter task := task.executionId == executionId && decide (task.key ∈ dependents)
  set task := { task with remainingDeps := task.remainingDeps - 1 }
  id_set _ := rfl

def promoteChildren (executionId : ExecutionId) (dependents : List Key) (now : Time) :
    Update (Task Val) where
  filter task :=
    task.executionId == executionId && decide (task.key ∈ dependents) &&
      decide (task.status = .pending) && task.remainingDeps == 0
  set task := { task with status := .ready, readyAt := some now }
  id_set _ := rfl

/-- The children's counters, inside the transaction of the parent's success. -/
def releaseChildren (task : Task Val) (execution : WorkflowExecution Val)
    (finishedAt : Time) : Txn Val Unit :=
  if execution.status.live && decide (task.dependents.length > 0) then do
    let _ ← Session.updateMany
      (decrementChildren task.executionId task.dependents : Update (Task Val))
    -- While PAUSED, children keep remainingDeps 0 but stay PENDING.
    if execution.status = .running then do
      assertTransition .task .pending .ready
      let _ ← Session.updateMany
        (promoteChildren task.executionId task.dependents finishedAt : Update (Task Val))
      return ()
    else
      return ()
  else
    return ()

/-- Complete the run when its last task has finished. -/
def completeRun (env : Env) (execution : WorkflowExecution Val) (finishedAt : Time) :
    Txn Val Unit :=
  if execution.status = .running ∧ execution.pendingTasks = 0 then do
    assertTransition .execution .running .completed
    let _ ← Session.updateOne execution.id
      (moveExecution .running .completed
        (fun found => { found with completedAt := some finishedAt }) fun _ => rfl :
        Update (WorkflowExecution Val))
    emit env .executionCompleted execution.id .empty
  else
    return ()

/-- Everything that follows a task succeeding. -/
def afterTaskSucceeded (env : Env) (task : Task Val) (finishedAt : Time) : Txn Val Unit := do
  let some execution ← Session.findOneAndUpdate task.executionId
      (decrementPending : Update (WorkflowExecution Val))
    | throw .typeError
  releaseChildren task execution finishedAt
  completeRun env execution finishedAt
  emit env .taskCompleted task.executionId
    (.taskCompleted task.id task.key task.attempt
      (task.startedAt.map fun started => finishedAt - started))

/-- Fail-fast: the unstarted tasks of a run. -/
def cancelUnstarted (executionId : ExecutionId) (now : Time) : Update (Task Val) where
  filter task := task.executionId == executionId && task.status.unstarted
  set task := { task with status := .cancelled, completedAt := some now }
  id_set _ := rfl

/-- The two outcomes that end a run. -/
inductive FailureOutcome where
  | failed | deadLetter
  deriving DecidableEq, Repr

def FailureOutcome.status : FailureOutcome → TaskStatus
  | .failed => .failed
  | .deadLetter => .deadLetter

/-- Why the execution failed, for its `error` field. -/
def failureText (task : Task Val) (outcome : FailureOutcome) (message : String) : String :=
  let key := task.key
  let attempt := task.attempt
  let why := match outcome with
    | .deadLetter => s!"failed after {attempt} attempt(s) and was dead-lettered"
    | .failed => "failed"
  s!"Task \"{key}\" {why}: {message}"

/-- Cancel what has not started and fail the run. -/
def failRun (env : Env) (task : Task Val) (updated : WorkflowExecution Val)
    (outcome : FailureOutcome) (message : String) (finishedAt : Time) : Txn Val Unit :=
  if updated.status.live then do
    let modifiedCount ← Session.updateMany
      (cancelUnstarted task.executionId finishedAt : Update (Task Val))
    assertTransition .execution updated.status .failed
    let _ ← Session.updateOne updated.id
      (moveExecution updated.status .failed
        (fun found =>
          { found with
            error := some (failureText task outcome message)
            completedAt := some finishedAt
            pendingTasks := found.pendingTasks - modifiedCount })
        fun _ => rfl : Update (WorkflowExecution Val))
    emit env .executionFailed updated.id (.executionFailed task.key message)
  else
    return ()

def FailureOutcome.eventType : FailureOutcome → EventType
  | .failed => .taskFailed
  | .deadLetter => .taskDeadLettered

/-- Everything that follows a task failing for good. -/
def afterTaskFailedForGood (env : Env) (task : Task Val) (outcome : FailureOutcome)
    (message : String) (retryable : Bool) (finishedAt : Time) : Txn Val Unit := do
  let some updated ← Session.findOneAndUpdate task.executionId
      (decrementPending : Update (WorkflowExecution Val))
    | throw .typeError
  failRun env task updated outcome message finishedAt
  emit env outcome.eventType task.executionId
    (.taskFailed task.id task.key task.attempt message retryable)

/-! ## Pause, resume, cancel -/

/-- PAUSE; `false` when the run was not RUNNING. -/
def pauseExecution (env : Env) (executionId : ExecutionId) : Txn Val Bool := do
  assertTransition .execution .running .paused
  let modifiedCount ← Session.updateOne executionId
    (moveExecution .running .paused id fun _ => rfl : Update (WorkflowExecution Val))
  if modifiedCount ≠ 1 then
    return false
  else do
    emit env .executionPaused executionId .empty
    return true

/-- Children that became ready while the run was paused. -/
def promotePending (executionId : ExecutionId) (now : Time) : Update (Task Val) where
  filter task :=
    task.executionId == executionId && decide (task.status = .pending) &&
      task.remainingDeps == 0
  set task := { task with status := .ready, readyAt := some now }
  id_set _ := rfl

/-- RESUME; `false` when the run was not PAUSED. -/
def resumeExecution (env : Env) (executionId : ExecutionId) : Txn Val Bool := do
  assertTransition .execution .paused .running
  let some execution ← Session.findOneAndUpdate executionId
      (moveExecution .paused .running id fun _ => rfl : Update (WorkflowExecution Val))
    | return false
  emit env .executionResumed executionId .empty
  let _ ← Session.updateMany (promotePending executionId env.now : Update (Task Val))
  if execution.pendingTasks = 0 then do
    let _ ← Session.updateOne executionId
      (moveExecution .running .completed
        (fun found => { found with completedAt := some env.now }) fun _ => rfl :
        Update (WorkflowExecution Val))
    emit env .executionCompleted executionId .empty
    return true
  else
    return true

def cancelUnfinished (executionId : ExecutionId) (now : Time) : Update (Task Val) where
  filter task := task.executionId == executionId && task.status.unfinished
  set task :=
    { task with
      status := .cancelled, completedAt := some now
      leaseOwner := none, leaseExpiresAt := none }
  id_set _ := rfl

def cancelApprovals (executionId : ExecutionId) (now : Time) :
    Update (ApprovalRequest Val) where
  filter request := request.executionId == executionId && decide (request.status = .pending)
  set request := { request with status := .cancelled, decidedAt := some now }
  id_set _ := rfl

/-- CANCEL; `false` when the run was already finished. -/
def cancelExecution (env : Env) (executionId : ExecutionId) : Txn Val Bool := do
  let some execution ← Session.findById (WorkflowExecution Val) executionId
    | return false
  if execution.status.live then do
    assertTransition .execution execution.status .cancelled
    let modifiedCount ← Session.updateMany
      (cancelUnfinished executionId env.now : Update (Task Val))
    let _ ← Session.updateOne executionId
      (moveExecution execution.status .cancelled
        (fun found =>
          { found with
            completedAt := some env.now
            error := some "Cancelled by user"
            pendingTasks := found.pendingTasks - modifiedCount })
        fun _ => rfl : Update (WorkflowExecution Val))
    let _ ← Session.updateMany
      (cancelApprovals executionId env.now : Update (ApprovalRequest Val))
    emit env .executionCancelled executionId (.executionCancelled modifiedCount)
    return true
  else
    return false

/-! ## Starting a run -/

structure StartParams (Val : Type) where
  workflow : Workflow Val
  input : Val
  triggeredBy : Option UserId
  trigger : Trigger
  idempotencyKey : Option String
  requestHash : Option String

/-- Children lists: who to notify when a task completes. -/
def dependents (tasks : List (TaskDefinition Val)) : KeyMap (List Key) :=
  tasks.foldl
    (fun map task => task.dependsOn.foldl
      (fun map dep => map.set dep (map dep ++ [task.key])) map)
    fun _ => []

/-- The task document created for one definition. -/
def newTask [Mixed Val] (executionId : ExecutionId) (workflow : Workflow Val)
    (startedAt : Time) (definition : TaskDefinition Val) : Task Val :=
  let isRoot := decide (definition.dependsOn.length = 0)
  { executionId
    ownerId := workflow.ownerId
    key := definition.key
    type := definition.type
    config := definition.config
    dependsOn := definition.dependsOn
    dependents := dependents workflow.tasks definition.key
    remainingDeps := definition.dependsOn.length
    status := if isRoot then .ready else .pending
    readyAt := if isRoot then some startedAt else none
    -- the schema's defaults
    attempt := 0
    maxAttempts := (definition.retryPolicy.bind (·.maxAttempts)).getD 3
    baseDelayMs := (definition.retryPolicy.bind (·.baseDelayMs)).getD 1000
    timeoutMs := definition.timeoutMs.getD 30000
    leaseOwner := none, leaseToken := 0, leaseExpiresAt := none
    output := Mixed.null, error := none
    retryAt := none, queuedAt := none, startedAt := none, completedAt := none }

/-- The execution document created for one start. -/
def newExecution (env : Env) (params : StartParams Val) : WorkflowExecution Val :=
  { id := env.objectId
    workflowId := params.workflow.id
    ownerId := params.workflow.ownerId
    workflowVersion := params.workflow.version
    status := .running
    input := params.input
    triggeredBy := params.triggeredBy
    trigger := params.trigger
    idempotencyKey := params.idempotencyKey
    requestHash := params.requestHash
    startedAt := some env.now
    taskCount := params.workflow.tasks.length
    pendingTasks := params.workflow.tasks.length
    completedAt := none
    error := none }

/-- Start a run: the execution and all its tasks, or nothing. -/
def startExecution [Mixed Val] (env : Env) (params : StartParams Val) :
    Txn Val (WorkflowExecution Val) := do
  let workflow := params.workflow
  let check := validateDag (workflow.tasks.map TaskDefinition.toDagTask)
  if check.valid then do
    let execution := newExecution env params
    Session.create .duplicateKey execution
    Session.insertMany .duplicateKey
      (workflow.tasks.map (newTask execution.id workflow env.now))
    emit env .executionStarted execution.id
      (.started workflow.id workflow.version workflow.tasks.length params.triggeredBy
        params.trigger)
    return execution
  else
    throw (.invalidWorkflowGraph check.errors)

/-! ## Reports of a worker -/

/-- The report carries the token of the current lease. -/
def completion (leaseToken : Nat) (output : Val) (finishedAt : Time) : Update (Task Val) where
  filter task := task.leaseToken == leaseToken
  set task :=
    { task with
      output, completedAt := some finishedAt, leaseOwner := none, leaseExpiresAt := none }
  id_set _ := rfl

/-- A task finished successfully; `none` when the report was not applied, else the
run whose READY tasks are dispatched after the commit. -/
def completeTask (env : Env) (taskId : TaskId) (leaseToken : Nat) (output : Val) :
    Txn Val (Option ExecutionId) := do
  let won ← transitionTask taskId .running .completed
    (completion leaseToken output env.now)
  if won then do
    let some task ← Session.findById (Task Val) taskId
      | throw .typeError
    let _ ← Session.updateOne (taskId, task.attempt)
      (closeAttempt .succeeded task.startedAt env.now none)
    afterTaskSucceeded env task env.now
    return some task.executionId
  else
    return none

/-- What `failTask` reports when it was applied. -/
inductive FailResult where
  | retrying (delayMs : Nat)
  | forGood (outcome : FailureOutcome)
  deriving DecidableEq, Repr

def postponement (leaseToken : Nat) (message : String) (retryAt : Time) :
    Update (Task Val) where
  filter task := task.leaseToken == leaseToken
  set task :=
    { task with
      error := some message, leaseOwner := none, leaseExpiresAt := none
      retryAt := some retryAt }
  id_set _ := rfl

/-- RETRY: the task is not finished, so `pendingTasks` is untouched. -/
def retryTask (env : Env) (task : Task Val) (leaseToken : Nat) (message : String) :
    Txn Val (Option FailResult) := do
  let delayMs := env.backoff task.attempt task.baseDelayMs
  let won ← transitionTask task.id .running .retrying
    (postponement leaseToken message (env.now + delayMs))
  if won then do
    emit env .taskRetrying task.executionId
      (.taskRetrying task.id task.key task.attempt delayMs message)
    return some (.retrying delayMs)
  else
    return none

/-- No extra condition and no extra change. -/
def unconditional : Update (Task Val) where
  filter _ := true
  set task := task
  id_set _ := rfl

def failure (leaseToken : Nat) (message : String) (finishedAt : Time) :
    Update (Task Val) where
  filter task := task.leaseToken == leaseToken
  set task :=
    { task with
      error := some message, completedAt := some finishedAt
      leaseOwner := none, leaseExpiresAt := none }
  id_set _ := rfl

/-- RUNNING -> FAILED, and on to DEAD_LETTER when the attempts are exhausted. -/
def failForGood (env : Env) (task : Task Val) (leaseToken : Nat) (outcome : FailureOutcome)
    (message : String) (retryable : Bool) : Txn Val (Option FailResult) := do
  let won ← transitionTask task.id .running .failed (failure leaseToken message env.now)
  if won then do
    if outcome = .deadLetter then do
      let _ ← transitionTask task.id .failed .deadLetter (unconditional : Update (Task Val))
      afterTaskFailedForGood env task outcome message retryable env.now
      return some (.forGood outcome)
    else do
      afterTaskFailedForGood env task outcome message retryable env.now
      return some (.forGood outcome)
  else
    return none

/-- The attempt's record for an error. -/
def attemptStatusOf (error : Option Thrown) : AttemptStatus :=
  if (error.bind (·.name)) = some "TimeoutError" then .timedOut else .failed

/-- DEAD_LETTER when a transient error exhausted the attempts, else FAILED. -/
def failureOutcome (task : Task Val) (retryable : Bool) : FailureOutcome :=
  if retryable && !decide (task.attempt < task.maxAttempts) then .deadLetter else .failed

/-- A task attempt failed; `none` when the report was not applied. -/
def failTask (env : Env) (taskId : TaskId) (leaseToken : Nat) (error : Option Thrown) :
    Txn Val (Option FailResult) := do
  let message := failureMessage error
  let retryable := isRetryable error
  -- The first read is conditional: a duplicate or stale report matches nothing.
  let found ← Session.findById (Task Val) taskId
  let some task := found.filter fun task =>
      decide (task.status = .running) && task.leaseToken == leaseToken
    | return none
  let _ ← Session.updateOne (taskId, task.attempt)
    (closeAttempt (attemptStatusOf error) task.startedAt env.now
      (some { message, retryable }))
  let some execution ← Session.findById (WorkflowExecution Val) task.executionId
    | throw .typeError
  let attemptsLeft := decide (task.attempt < task.maxAttempts)
  if retryable && attemptsLeft && execution.status.live then
    retryTask env task leaseToken message
  else
    failForGood env task leaseToken (failureOutcome task retryable) message retryable

/-! ## Approvals -/

/-- What a handler asks a human. -/
structure ApprovalParams (Val : Type) where
  title : String
  message : Option String
  context : Option Val
  timeoutMs : Int

/-- The request of a task that was just suspended. -/
def newApproval [Mixed Val] (env : Env) (task : Task Val) (request : ApprovalParams Val) :
    ApprovalRequest Val :=
  { id := env.objectId
    taskId := task.id
    executionId := task.executionId
    ownerId := task.ownerId
    taskKey := task.key
    title := request.title
    message := request.message.getD ""
    context := request.context.getD Mixed.emptyObject
    expiresAt := env.now + request.timeoutMs
    status := .pending, decidedBy := none, decidedAt := none, comment := none }

/-- `ApprovalRequest.create`: the schema requires a title. -/
def createApproval (approval : ApprovalRequest Val) : Txn Val Unit :=
  if approval.title = "" then throw (.requiredPath "ApprovalRequest" "title")
  else Session.create .duplicateKey approval

def suspension (leaseToken : Nat) : Update (Task Val) where
  filter task := task.leaseToken == leaseToken
  set task := { task with leaseOwner := none, leaseExpiresAt := none }
  id_set _ := rfl

/-- The handler asked for approval; `false` when the report was not applied. -/
def suspendForApproval [Mixed Val] (env : Env) (taskId : TaskId) (leaseToken : Nat)
    (request : ApprovalParams Val) : Txn Val Bool := do
  let won ← transitionTask taskId .running .waitingForApproval (suspension leaseToken)
  if won then do
    let some task ← Session.findById (Task Val) taskId
      | throw .typeError
    let _ ← Session.updateOne (taskId, task.attempt)
      (closeAttempt .suspended task.startedAt env.now none)
    let approval := newApproval env task request
    createApproval approval
    emit env .approvalRequested task.executionId
      (.approvalRequested approval.id task.id task.key approval.expiresAt)
    return true
  else
    return false

structure ResolveParams where
  approvalId : ObjectId
  decision : Decision
  decidedBy : Option UserId
  comment : Option String
  /-- the owner the caller may decide for; `none` is an unscoped call -/
  scope : Option UserId
  deriving DecidableEq, Repr

/-- That the approval timed out, or who rejected it and why. -/
def rejectionText (decision : Decision) (comment : Option String) : String :=
  match decision, comment with
  | .expired, _ => "Approval timed out"
  | _, none => "Rejected by approver"
  | _, some text =>
      -- an empty comment is falsy
      if text = "" then "Rejected by approver" else s!"Rejected by approver: {text}"

/-- Record the decision, if the request is still PENDING and in the caller's scope. -/
def recordDecision (params : ResolveParams) (decidedAt : Time) : Update (ApprovalRequest Val) where
  filter request :=
    decide (request.status = .pending) &&
      params.scope.all fun ownerId => request.ownerId == ownerId
  set request :=
    { request with
      status := params.decision.status, decidedBy := params.decidedBy
      decidedAt := some decidedAt, comment := params.comment }
  id_set _ := rfl

/-- The waiting task after an approval. -/
def approvedTask [Mixed Val] (params : ResolveParams) (decidedAt : Time) :
    Update (Task Val) where
  filter _ := true
  set task :=
    { task with
      output := Mixed.approval params.decidedBy params.comment decidedAt
      completedAt := some decidedAt }
  id_set _ := rfl

/-- The waiting task after a rejection or a timeout. -/
def rejectedTask (params : ResolveParams) (decidedAt : Time) : Update (Task Val) where
  filter _ := true
  set task :=
    { task with
      error := some (rejectionText params.decision params.comment)
      completedAt := some decidedAt }
  id_set _ := rfl

/-- A decision or the timeout; `none` when the request was already decided, else
the task that was waiting for it. -/
def resolveApproval [Mixed Val] (env : Env) (params : ResolveParams) :
    Txn Val (Option TaskId) := do
  let decidedAt := env.now
  let some approval ← Session.findOneAndUpdate params.approvalId
      (recordDecision params decidedAt : Update (ApprovalRequest Val))
    | return none
  let approved := decide (params.decision = .approved)
  let won ← transitionTask approval.taskId .waitingForApproval
    (if approved then .completed else .failed)
    (if approved then approvedTask params decidedAt else rejectedTask params decidedAt)
  if won then do
    let some task ← Session.findById (Task Val) approval.taskId
      | throw .typeError
    if approved then
      afterTaskSucceeded env task decidedAt
    else
      afterTaskFailedForGood env task .failed (task.error.getD "null") false decidedAt
    emit env (.approvalDecided params.decision) task.executionId
      (.approvalDecided approval.id task.key params.decidedBy)
    return some task.id
  else
    throw .approvalNotActionable

end WorkflowEngine
