import WorkflowEngine.Foundations.Session
import WorkflowEngine.Workflow.States
import WorkflowEngine.Workflow.Dag

/-!
# Documents

The five collections the engine reads and writes.  A field is present when some
modelled function reads or writes it; the schemas' `createdAt` and `updatedAt`
are represented by the revision of a stored document.

`Val` is the type of mixed values (task configurations, inputs and outputs).  The
engine passes them on and never looks inside.
-/

namespace WorkflowEngine

open DocStore

abbrev ObjectId := Nat
abbrev UserId := ObjectId
abbrev ExecutionId := ObjectId

/-- Milliseconds since the epoch. -/
abbrev Time := Int

/-- Mixed values: the ones the engine and the schemas build themselves. -/
class Mixed (Val : Type) where
  null : Val
  emptyObject : Val
  /-- `{ approved: true, decidedBy, comment, decidedAt }` -/
  approval : (decidedBy : Option UserId) → (comment : Option String) → (decidedAt : Time) → Val

/-- The simplest mixed values, for schedules that are written out. -/
inductive Plain where
  | null | emptyObject
  | number (value : Nat)
  | approval (decidedBy : Option UserId) (comment : Option String) (decidedAt : Time)
  deriving DecidableEq, Repr

instance : Mixed Plain where
  null := .null
  emptyObject := .emptyObject
  approval := .approval

/-- Identity of a task.  The unique index on `{ executionId, key }` makes the pair
and the document's `_id` interchangeable; the model uses the pair. -/
structure TaskId where
  executionId : ExecutionId
  key : Key
  deriving DecidableEq, Repr

/-! ## Workflow definitions -/

structure RetryPolicy where
  maxAttempts : Option Nat
  baseDelayMs : Option Nat
  deriving DecidableEq, Repr

/-- One task definition inside a workflow. -/
structure TaskDefinition (Val : Type) where
  key : Key
  type : String
  dependsOn : List Key
  config : Val
  retryPolicy : Option RetryPolicy
  timeoutMs : Option Nat

def TaskDefinition.toDagTask {Val : Type} (definition : TaskDefinition Val) : DagTask :=
  { key := definition.key, dependsOn := some definition.dependsOn }

structure Workflow (Val : Type) where
  id : ObjectId
  ownerId : UserId
  version : Nat
  tasks : List (TaskDefinition Val)

/-! ## Executions and tasks -/

inductive Trigger where
  | manual | schedule
  deriving DecidableEq, Repr

/-- One run of a workflow. -/
structure WorkflowExecution (Val : Type) where
  id : ExecutionId
  workflowId : ObjectId
  ownerId : UserId
  workflowVersion : Nat
  status : ExecutionStatus
  input : Val
  taskCount : Nat
  /-- tasks not finished yet; adjusted by `$inc`, so an integer -/
  pendingTasks : Int
  triggeredBy : Option UserId
  trigger : Trigger
  idempotencyKey : Option String
  requestHash : Option String
  startedAt : Option Time
  completedAt : Option Time
  error : Option String
  deriving DecidableEq

/-- One task instance inside one execution. -/
structure Task (Val : Type) where
  executionId : ExecutionId
  ownerId : UserId
  key : Key
  type : String
  config : Val
  /-- parents -/
  dependsOn : List Key
  /-- children, who to notify on completion -/
  dependents : List Key
  /-- parents not yet COMPLETED -/
  remainingDeps : Int
  status : TaskStatus
  attempt : Nat
  maxAttempts : Nat
  baseDelayMs : Nat
  timeoutMs : Nat
  leaseOwner : Option String
  /-- fencing token, incremented on every claim -/
  leaseToken : Nat
  leaseExpiresAt : Option Time
  output : Val
  error : Option String
  readyAt : Option Time
  retryAt : Option Time
  queuedAt : Option Time
  startedAt : Option Time
  completedAt : Option Time
  deriving DecidableEq

def Task.id {Val : Type} (task : Task Val) : TaskId := ⟨task.executionId, task.key⟩

inductive AttemptStatus where
  | running | succeeded | failed | timedOut | abandoned | suspended
  deriving DecidableEq, Repr

/-- The error recorded with an attempt. -/
structure AttemptError where
  message : String
  retryable : Bool
  deriving DecidableEq, Repr

/-- One attempt of one task. -/
structure TaskExecution where
  taskId : TaskId
  executionId : ExecutionId
  attempt : Nat
  workerId : String
  leaseToken : Nat
  status : AttemptStatus
  startedAt : Option Time
  finishedAt : Option Time
  durationMs : Option Int
  error : Option AttemptError
  deriving DecidableEq, Repr

/-! ## Approvals -/

inductive ApprovalStatus where
  | pending | approved | rejected | expired | cancelled
  deriving DecidableEq, Repr

/-- What `resolveApproval` is called with: two decisions of a human and the
reconciler's timeout. -/
inductive Decision where
  | approved | rejected | expired
  deriving DecidableEq, Repr

def Decision.status : Decision → ApprovalStatus
  | .approved => .approved
  | .rejected => .rejected
  | .expired => .expired

structure ApprovalRequest (Val : Type) where
  id : ObjectId
  taskId : TaskId
  executionId : ExecutionId
  ownerId : UserId
  taskKey : Key
  title : String
  message : String
  context : Val
  status : ApprovalStatus
  decidedBy : Option UserId
  decidedAt : Option Time
  comment : Option String
  expiresAt : Time
  deriving DecidableEq

/-! ## Outbox -/

inductive EventType where
  | executionStarted | executionPaused | executionResumed
  | executionCompleted | executionFailed | executionCancelled
  | taskStarted | taskCompleted | taskFailed | taskDeadLettered | taskRetrying
  | approvalRequested | approvalDecided (decision : Decision)
  deriving DecidableEq, Repr

inductive EventPayload where
  | empty
  | started (workflowId : ObjectId) (workflowVersion taskCount : Nat)
      (triggeredBy : Option UserId) (trigger : Trigger)
  | executionFailed (failedTask : Key) (error : String)
  | executionCancelled (cancelledTasks : Nat)
  | taskStarted (taskId : TaskId) (key : Key) (attempt : Nat) (workerId : String)
  | taskCompleted (taskId : TaskId) (key : Key) (attempt : Nat) (durationMs : Option Int)
  | taskFailed (taskId : TaskId) (key : Key) (attempt : Nat) (error : String)
      (retryable : Bool)
  | taskRetrying (taskId : TaskId) (key : Key) (attempt : Nat) (delayMs : Nat)
      (error : String)
  | approvalRequested (approvalId : ObjectId) (taskId : TaskId) (key : Key)
      (expiresAt : Time)
  | approvalDecided (approvalId : ObjectId) (key : Key) (decidedBy : Option UserId)
  deriving DecidableEq, Repr

structure OutboxEvent where
  eventId : Nat
  type : EventType
  aggregateId : ExecutionId
  payload : EventPayload
  occurredAt : Time
  publishedAt : Option Time
  deriving DecidableEq, Repr

/-! ## Collections -/

variable {Val : Type}

/-- One execution per user and idempotency key; runs without a key are
unconstrained. -/
instance : Document (WorkflowExecution Val) ExecutionId where
  id := WorkflowExecution.id
  clash left right :=
    left.idempotencyKey.isSome && left.idempotencyKey == right.idempotencyKey &&
      left.triggeredBy == right.triggeredBy

instance : Document (Task Val) TaskId where
  id := Task.id
  clash _ _ := false

/-- One record per task and attempt. -/
instance : Document TaskExecution (TaskId × Nat) where
  id record := (record.taskId, record.attempt)
  clash _ _ := false

/-- One request per task. -/
instance : Document (ApprovalRequest Val) ObjectId where
  id := ApprovalRequest.id
  clash left right := left.taskId == right.taskId

instance : Document OutboxEvent Nat where
  id := OutboxEvent.eventId
  clash _ _ := false

@[simp] theorem document_id_execution (execution : WorkflowExecution Val) :
    Document.id execution = execution.id := rfl

@[simp] theorem document_id_task (task : Task Val) : Document.id task = task.id := rfl

@[simp] theorem document_id_approval (request : ApprovalRequest Val) :
    Document.id request = request.id := rfl

/-- The database. -/
structure Db (Val : Type) where
  executions : Collection (WorkflowExecution Val)
  tasks : Collection (Task Val)
  attempts : Collection TaskExecution
  approvals : Collection (ApprovalRequest Val)
  outbox : Collection OutboxEvent

instance : Holds (Db Val) (WorkflowExecution Val) where
  get := Db.executions
  set db executions := { db with executions }
  get_set _ _ := rfl
  set_get _ := rfl

instance : Holds (Db Val) (Task Val) where
  get := Db.tasks
  set db tasks := { db with tasks }
  get_set _ _ := rfl
  set_get _ := rfl

instance : Holds (Db Val) TaskExecution where
  get := Db.attempts
  set db attempts := { db with attempts }
  get_set _ _ := rfl
  set_get _ := rfl

instance : Holds (Db Val) (ApprovalRequest Val) where
  get := Db.approvals
  set db approvals := { db with approvals }
  get_set _ _ := rfl
  set_get _ := rfl

instance : Holds (Db Val) OutboxEvent where
  get := Db.outbox
  set db outbox := { db with outbox }
  get_set _ _ := rfl
  set_get _ := rfl

def Db.empty : Db Val :=
  { executions := [], tasks := [], attempts := [], approvals := [], outbox := [] }

/-- Commit a transaction's view into the committed database: every collection it
wrote is checked and rebased, all of them or none. -/
def Db.commit (committed snapshot view : Db Val) : Option (Db Val) := do
  let executions ← committed.executions.rebase snapshot.executions view.executions
  let tasks ← committed.tasks.rebase snapshot.tasks view.tasks
  let attempts ← committed.attempts.rebase snapshot.attempts view.attempts
  let approvals ← committed.approvals.rebase snapshot.approvals view.approvals
  let outbox ← committed.outbox.rebase snapshot.outbox view.outbox
  return { executions, tasks, attempts, approvals, outbox }

end WorkflowEngine
