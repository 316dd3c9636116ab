import WorkflowEngine.Models

/-!
# Task repository

Compare-and-set on a task's status, the claim of a task by a worker and the
renewal of its lease.  Each of them is one atomic update of one document.
-/

namespace WorkflowEngine

open DocStore

/-- Errors the engine's operations throw. -/
inductive EngineError where
  | invalidTransition (machine : Machine) (source target : machine.Status)
  /-- 400 INVALID_WORKFLOW_GRAPH -/
  | invalidWorkflowGraph (details : List DagError)
  /-- 409 APPROVAL_NOT_ACTIONABLE -/
  | approvalNotActionable
  | duplicateKey
  /-- a ValidationError: a required string of a document is empty -/
  | requiredPath (model path : String)
  /-- a property of a document that was not found -/
  | typeError

abbrev Txn (Val : Type) := Session (Db Val) EngineError

variable {Val : Type}

def assertTransition (machine : Machine) (source target : machine.Status) : Txn Val Unit :=
  if canTransition machine source target then
    pure ()
  else
    throw (.invalidTransition machine source target)

/-- An update's changes together with the new status. -/
def moved (target : TaskStatus) (update : Update (Task Val)) (task : Task Val) : Task Val :=
  { update.set task with status := target }

/-- The update `transitionTask` performs. -/
def transition (source target : TaskStatus) (update : Update (Task Val)) :
    Update (Task Val) where
  filter task := update.filter task && decide (task.status = source)
  set := moved target update
  id_set task := update.id_set task

/-- Move a task from `source` to `target`, only if it is still in `source` and
matches the update's own filter.  The result says whether we performed it. -/
def transitionTask (taskId : TaskId) (source target : TaskStatus)
    (update : Update (Task Val)) : Txn Val Bool := do
  assertTransition .task source target
  let modifiedCount ← Session.updateOne taskId (transition source target update)
  return modifiedCount == 1

/-- `{ $lt: ["$leaseExpiresAt", "$$NOW"] }`, where null sorts before every date. -/
def leaseExpired (now : Time) : Option Time → Bool
  | none => true
  | some expiresAt => decide (expiresAt < now)

/-- QUEUED, RETRYING, or RUNNING with an expired lease. -/
def claimable (now : Time) (task : Task Val) : Bool :=
  match task.status with
  | .queued => true
  | .retrying => true
  | .running => leaseExpired now task.leaseExpiresAt
  | _ => false

/-- A new attempt under a new lease, with the next fencing token. -/
def claim (workerId : String) (leaseMs : Int) (now : Time) : Update (Task Val) where
  filter := claimable now
  set task :=
    { task with
      status := .running
      leaseOwner := some workerId
      startedAt := some now
      attempt := task.attempt + 1
      leaseToken := task.leaseToken + 1
      leaseExpiresAt := some (now + leaseMs) }
  id_set _ := rfl

/-- A worker claims a task.  `now` is the server's clock. -/
def claimTask (taskId : TaskId) (workerId : String) (leaseMs : Int) (now : Time) :
    Txn Val (Option (Task Val)) := do
  assertTransition .task .queued .running
  assertTransition .task .running .queued -- takeover path
  assertTransition .task .retrying .queued -- retry path
  Session.findOneAndUpdate taskId (claim workerId leaseMs now)

def renewal (leaseToken : Nat) (leaseMs : Int) (now : Time) : Update (Task Val) where
  filter task := decide (task.status = .running) && task.leaseToken == leaseToken
  set task := { task with leaseExpiresAt := some (now + leaseMs) }
  id_set _ := rfl

/-- Heartbeat: push the lease out if this worker still owns the task. -/
def renewTaskLease (taskId : TaskId) (leaseToken : Nat) (leaseMs : Int) (now : Time) :
    Txn Val Bool := do
  let matchedCount ← Session.updateOne taskId
    (renewal leaseToken leaseMs now : Update (Task Val))
  return matchedCount == 1

end WorkflowEngine
