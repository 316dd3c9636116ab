import WorkflowEngine.Foundations.Transition
import WorkflowEngine.Workflow.Engine

/-!
# Processes on a shared database

Any number of processes call the engine's functions.  A call in progress is a
stack of frames; one step performs one store operation of its top frame.  A
transaction takes two steps, the start of its callback on a snapshot and the
commit; in between every other call may run.  A process may crash between any two
steps, which abandons the rest of its calls.

The log records what calls returned and is not read by any of them.
-/

namespace WorkflowEngine

open DocStore

/-- A call of a function that runs one transaction. -/
inductive Op (Val : Type) where
  | startExecution (params : StartParams Val)
  | pauseExecution (executionId : ExecutionId)
  | resumeExecution (executionId : ExecutionId)
  | cancelExecution (executionId : ExecutionId)
  | completeTask (taskId : TaskId) (leaseToken : Nat) (output : Val)
  | failTask (taskId : TaskId) (leaseToken : Nat) (error : Option Thrown)
  | suspendForApproval (taskId : TaskId) (leaseToken : Nat) (request : ApprovalParams Val)
  | resolveApproval (params : ResolveParams)

/-- What `startTask` gives a worker. -/
structure Started (Val : Type) where
  task : Task Val
  input : Val
  parents : List (Key × Val)

/-- What a call returned, or what one of its steps did. -/
inductive Reply (Val : Type) where
  | startExecution (params : StartParams Val) (execution : WorkflowExecution Val)
  | pauseExecution (executionId : ExecutionId) (paused : Bool)
  | resumeExecution (executionId : ExecutionId) (resumed : Bool)
  | cancelExecution (executionId : ExecutionId) (cancelled : Bool)
  | completeTask (taskId : TaskId) (leaseToken : Nat) (output : Val) (applied : Bool)
  | failTask (taskId : TaskId) (leaseToken : Nat) (error : Option Thrown)
      (result : Option FailResult)
  | suspendForApproval (taskId : TaskId) (leaseToken : Nat) (applied : Bool)
  /-- `taskId` is the waiting task when the decision was recorded -/
  | resolveApproval (params : ResolveParams) (decidedAt : Time) (taskId : Option TaskId)
  | renewLease (taskId : TaskId) (leaseToken : Nat) (renewed : Bool)
  | dispatchTask (taskId : TaskId) (won : Bool)
  | enqueue (taskId : TaskId) (reached : Bool)
  | enqueueDelayed (taskId : TaskId) (delayMs : Nat) (reached : Bool)
  | claimTask (task : Task Val)
  | startTask (taskId : TaskId) (started : Option (Started Val))
  | threw (error : EngineError)

/-- One frame of a call in progress. -/
inductive Frame (Val : Type) where
  /-- about to start a transaction -/
  | transaction (op : Op Val)
  /-- its callback runs on this snapshot -/
  | callback (op : Op Val) (snapshot : Db Val)
  | renewLease (taskId : TaskId) (leaseToken : Nat)
  | dispatchReady (executionId : ExecutionId)
  | findReady (executionId : ExecutionId)
  | dispatchTask (taskId : TaskId)
  | enqueue (taskId : TaskId)
  | enqueueDelayed (taskId : TaskId) (delayMs : Nat)
  | startTask (taskId : TaskId) (workerId : String)
  | abandonAttempts (task : Task Val)
  | recordAttempt (task : Task Val) (workerId : String)
  | announce (task : Task Val) (workerId : String)
  | checkBudget (task : Task Val)
  | refuse (taskId : TaskId)
  | gatherInput (task : Task Val)
  | gatherParents (task : Task Val) (input : Val)
  | reconcile (staleMs : Int) (limit : Nat)
  | sweepReady (cutoff : Time) (limit : Nat)
  | redispatch (stuck : List TaskId) (statusOf : List (ExecutionId × Option ExecutionStatus))
  | sweepQueued (cutoff : Time) (limit : Nat)
  | sweepRunning (limit : Nat)
  | sweepRetrying (cutoff : Time) (limit : Nat)
  | sweepApprovals (limit : Nat)
  | expire (approvalId : ObjectId)

variable {Val : Type}

namespace Op

/-- The transaction's callback. -/
def run [Mixed Val] (env : Env) : Op Val → Txn Val (Reply Val)
  | .startExecution params => do
      let execution ← WorkflowEngine.startExecution env params
      return .startExecution params execution
  | .pauseExecution executionId => do
      let paused ← WorkflowEngine.pauseExecution env executionId
      return .pauseExecution executionId paused
  | .resumeExecution executionId => do
      let resumed ← WorkflowEngine.resumeExecution env executionId
      return .resumeExecution executionId resumed
  | .cancelExecution executionId => do
      let cancelled ← WorkflowEngine.cancelExecution env executionId
      return .cancelExecution executionId cancelled
  | .completeTask taskId leaseToken output => do
      let executionId ← WorkflowEngine.completeTask env taskId leaseToken output
      return .completeTask taskId leaseToken output executionId.isSome
  | .failTask taskId leaseToken error => do
      let result ← WorkflowEngine.failTask env taskId leaseToken error
      return .failTask taskId leaseToken error result
  | .suspendForApproval taskId leaseToken request => do
      let applied ← WorkflowEngine.suspendForApproval env taskId leaseToken request
      return .suspendForApproval taskId leaseToken applied
  | .resolveApproval params => do
      let taskId ← WorkflowEngine.resolveApproval env params
      return .resolveApproval params env.now taskId

end Op

namespace Reply

/-- What the caller does after the commit. -/
def after : Reply Val → List (Frame Val)
  | .startExecution _ execution => [.dispatchReady execution.id]
  | .resumeExecution executionId true => [.dispatchReady executionId]
  | .completeTask taskId _ _ true => [.dispatchReady taskId.executionId]
  | .failTask taskId _ _ (some (.retrying delayMs)) => [.enqueueDelayed taskId delayMs]
  | .resolveApproval params _ (some taskId) =>
      if params.decision = .approved then [.dispatchReady taskId.executionId] else []
  | _ => []

end Reply

/-- `.limit(limit)`, where 0 is no limit. -/
def limited {α : Type} (limit : Nat) (found : List α) : List α :=
  if limit = 0 then found else found.take limit

/-! ## The reconciler's filters -/

/-- `{ [field]: { $lt: cutoff } }`, which no null matches. -/
def before (cutoff : Time) (field : Option Time) : Bool :=
  field.any fun time => decide (time < cutoff)

def isStuckReady (cutoff : Time) (task : Task Val) : Bool :=
  decide (task.status = .ready) && before cutoff task.readyAt

def isStaleQueued (cutoff : Time) (task : Task Val) : Bool :=
  decide (task.status = .queued) && before cutoff task.queuedAt

def isExpiredRunning (now : Time) (task : Task Val) : Bool :=
  decide (task.status = .running) && leaseExpired now task.leaseExpiresAt

def isOverdueRetry (cutoff : Time) (task : Task Val) : Bool :=
  decide (task.status = .retrying) && before cutoff task.retryAt

def isOverdueApproval (now : Time) (request : ApprovalRequest Val) : Bool :=
  decide (request.status = .pending) && decide (request.expiresAt < now)

/-! ## One step of a frame -/

structure Outcome (Val : Type) where
  db : Db Val
  /-- what the call does next -/
  next : List (Frame Val)
  replies : List (Reply Val)

/-- Mark the records of earlier attempts that are still RUNNING. -/
def abandonment (task : Task Val) (now : Time) : Update TaskExecution where
  filter record :=
    decide (record.taskId = task.id) && decide (record.attempt < task.attempt) &&
      decide (record.status = .running)
  set record := { record with status := .abandoned, finishedAt := some now }
  id_set _ := rfl

def newAttempt (task : Task Val) (workerId : String) (now : Time) : TaskExecution :=
  { taskId := task.id
    executionId := task.executionId
    attempt := task.attempt
    workerId
    leaseToken := task.leaseToken
    status := .running
    startedAt := some now
    finishedAt := none, durationMs := none, error := none }

/-- The error a poisonous task is failed with. -/
def budgetError (maxAttempts : Nat) : Thrown :=
  .error s!"Exceeded {maxAttempts} attempts (previous attempts were abandoned by lost workers)"

def queueing (now : Time) : Update (Task Val) where
  filter _ := true
  set task := { task with queuedAt := some now }
  id_set _ := rfl

namespace Frame

/-- The calls any process may make at any time. -/
def isCall : Frame Val → Bool
  | .transaction _ | .renewLease _ _ | .dispatchReady _ | .dispatchTask _
  | .startTask _ _ | .reconcile _ _ => true
  | _ => false

/-- `reconcile` catches what `resolveApproval` throws and goes on. -/
def catches : Frame Val → Bool
  | .expire _ => true
  | _ => false

/-- One store operation on the committed database. -/
def step [Mixed Val] (env : Env) (db : Db Val) :
    Frame Val → Except EngineError (Outcome Val)
  | .transaction op => .ok ⟨db, [.callback op db], []⟩
  | .callback op snapshot => do
      let (reply, view) ← (op.run env).run snapshot
      match db.commit snapshot view with
      | some committed => .ok ⟨committed, reply.after, [reply]⟩
      -- a write conflict: the callback is retried on a new snapshot
      | none => .ok ⟨db, [.transaction op], []⟩
  | .renewLease taskId leaseToken => do
      let (renewed, db) ← (renewTaskLease taskId leaseToken env.leaseMs env.now).run db
      .ok ⟨db, [], [.renewLease taskId leaseToken renewed]⟩
  | .dispatchReady executionId =>
      match db.executions.findById executionId with
      | some execution =>
          .ok ⟨db, if execution.status = .running then [.findReady executionId] else [], []⟩
      | none => .ok ⟨db, [], []⟩
  | .findReady executionId =>
      let ready := db.tasks.find fun task =>
        decide (task.executionId = executionId) && decide (task.status = .ready)
      .ok ⟨db, ready.map fun task => .dispatchTask task.id, []⟩
  | .dispatchTask taskId => do
      let (won, db) ← (transitionTask taskId .ready .queued (queueing env.now)).run db
      .ok ⟨db, if won then [.enqueue taskId] else [], [.dispatchTask taskId won]⟩
  | .enqueue taskId => .ok ⟨db, [], [.enqueue taskId env.redisUp]⟩
  | .enqueueDelayed taskId delayMs =>
      .ok ⟨db, [], [.enqueueDelayed taskId delayMs env.redisUp]⟩
  | .startTask taskId workerId => do
      let (claimed, db) ← (claimTask taskId workerId env.leaseMs env.now).run db
      match claimed with
      | none => .ok ⟨db, [], [.startTask taskId none]⟩
      | some task =>
          .ok ⟨db, [.abandonAttempts task, .recordAttempt task workerId,
            .announce task workerId, .checkBudget task], [.claimTask task]⟩
  | .abandonAttempts task => do
      let (_, db) ← (Session.updateMany (abandonment task env.now) : Txn Val Nat).run db
      .ok ⟨db, [], []⟩
  | .recordAttempt task workerId => do
      let (_, db) ← (Session.create .duplicateKey (newAttempt task workerId env.now) :
        Txn Val Unit).run db
      .ok ⟨db, [], []⟩
  | .announce task workerId => do
      let (_, db) ← (emit env .taskStarted task.executionId
        (.taskStarted task.id task.key task.attempt workerId)).run db
      .ok ⟨db, [], []⟩
  | .checkBudget task =>
      -- Past maxAttempts: dead-letter the task without running it again.
      if task.maxAttempts < task.attempt then
        .ok ⟨db, [.transaction (.failTask task.id task.leaseToken
          (some (budgetError task.maxAttempts))), .refuse task.id], []⟩
      else
        .ok ⟨db, [.gatherInput task], []⟩
  | .refuse taskId => .ok ⟨db, [], [.startTask taskId none]⟩
  | .gatherInput task =>
      let input := (db.executions.findById task.executionId).elim Mixed.emptyObject (·.input)
      .ok ⟨db, [.gatherParents task input], []⟩
  | .gatherParents task input =>
      let parents := db.tasks.find fun parent =>
        decide (parent.executionId = task.executionId) && decide (parent.key ∈ task.dependsOn)
      .ok ⟨db, [], [.startTask task.id
        (some ⟨task, input, parents.map fun parent => (parent.key, parent.output)⟩)]⟩
  | .reconcile staleMs limit =>
      let cutoff := env.now - staleMs
      .ok ⟨db, [.sweepReady cutoff limit, .sweepQueued cutoff limit, .sweepRunning limit,
        .sweepRetrying cutoff limit, .sweepApprovals limit], []⟩
  | .sweepReady cutoff limit =>
      let stuckReady := limited limit (db.tasks.find (isStuckReady cutoff))
      .ok ⟨db, [.redispatch (stuckReady.map Task.id) []], []⟩
  | .redispatch [] _ => .ok ⟨db, [], []⟩
  | .redispatch (taskId :: rest) statusOf =>
      match statusOf.lookup taskId.executionId with
      | none =>
          let status := (db.executions.findById taskId.executionId).map (·.status)
          .ok ⟨db, [.redispatch (taskId :: rest)
            ((taskId.executionId, status) :: statusOf)], []⟩
      | some status =>
          if status = some .running then
            .ok ⟨db, [.dispatchTask taskId, .redispatch rest statusOf], []⟩
          else
            .ok ⟨db, [.redispatch rest statusOf], []⟩
  | .sweepQueued cutoff limit =>
      let staleQueued := limited limit (db.tasks.find (isStaleQueued cutoff))
      .ok ⟨db, staleQueued.map fun task => .enqueue task.id, []⟩
  | .sweepRunning limit =>
      let expiredRunning := limited limit (db.tasks.find (isExpiredRunning env.now))
      .ok ⟨db, expiredRunning.map fun task => .enqueue task.id, []⟩
  | .sweepRetrying cutoff limit =>
      let overdueRetries := limited limit (db.tasks.find (isOverdueRetry cutoff))
      .ok ⟨db, overdueRetries.map fun task => .enqueue task.id, []⟩
  | .sweepApprovals limit =>
      let overdue := limited limit (db.approvals.find (isOverdueApproval env.now))
      .ok ⟨db, overdue.map fun request => .expire request.id, []⟩
  | .expire approvalId =>
      .ok ⟨db, [.transaction (.resolveApproval
        { approvalId, decision := .expired, decidedBy := none, comment := none
          scope := none })], []⟩

end Frame

/-! ## The system -/

structure Sys (Val : Type) where
  /-- the committed database -/
  db : Db Val
  /-- the calls in progress, each a stack of frames -/
  calls : List (List (Frame Val))
  /-- newest first -/
  log : List (Reply Val)

inductive Action (Val : Type) where
  /-- some process calls a function of the engine -/
  | invoke (frame : Frame Val)
  /-- a call performs its next step -/
  | advance (call : Nat) (env : Env)
  /-- the process of a call stops -/
  | crash (call : Nat)

namespace Sys

def init : Sys Val := { db := .empty, calls := [], log := [] }

/-- What is left of a call after a throw. -/
def unwind (stack : List (Frame Val)) : List (Frame Val) :=
  stack.dropWhile fun frame => !frame.catches

def step [Mixed Val] (sys : Sys Val) : Action Val → Option (Sys Val)
  | .invoke frame =>
      if frame.isCall then some { sys with calls := sys.calls ++ [[frame]] } else none
  | .advance call env =>
      match sys.calls[call]? with
      | some (frame :: rest) =>
          match frame.step env sys.db with
          | .ok outcome =>
              some { db := outcome.db
                     calls := sys.calls.set call (outcome.next ++ rest)
                     log := outcome.replies ++ sys.log }
          | .error thrown =>
              some { sys with
                calls := sys.calls.set call (unwind rest), log := .threw thrown :: sys.log }
      | _ => none
  | .crash call => some { sys with calls := sys.calls.set call [] }

end Sys

/-- The engine's processes on one database, which is empty at first. -/
def engineSystem (Val : Type) [Mixed Val] : Transition.System (Sys Val) (Action Val) where
  init := Sys.init
  step := Sys.step

/-! ## Schedules that are written out -/

namespace Schedule

/-- A definition of one task. -/
def definition (key : Key) (dependsOn : List Key) : TaskDefinition Plain :=
  { key, type := "noop", dependsOn, config := .null, retryPolicy := none, timeoutMs := none }

/-- What a step at this time gets from its process.  Identifiers come from the clock. -/
def env (now : Nat) : Env :=
  { now, leaseMs := 100, objectId := now, randomUUID := fun drawn => 1000 * now + drawn
    backoff := fun _ _ => 5, redisUp := true }

/-- Start a run of these tasks. -/
def start (tasks : List (TaskDefinition Plain)) : Action Plain :=
  .invoke (.transaction (.startExecution
    { workflow := { id := 1, ownerId := 1, version := 1, tasks }, input := .number 7
      triggeredBy := none, trigger := .manual, idempotencyKey := none, requestHash := none }))

/-- Some process reports to the engine or controls a run. -/
def call (op : Op Plain) : Action Plain := .invoke (.transaction op)

/-- A call performs steps, one at each of the given times. -/
def steps (call : Nat) (times : List Nat) : List (Action Plain) :=
  times.map fun now => .advance call (env now)

/-- Where a schedule ends. -/
def after (actions : List (Action Plain))
    (runs : ((engineSystem Plain).run actions).isSome = true) : Sys Plain :=
  ((engineSystem Plain).run actions).get runs

theorem run_after (actions : List (Action Plain))
    (runs : ((engineSystem Plain).run actions).isSome = true) :
    (engineSystem Plain).run actions = some (after actions runs) :=
  (Option.some_get runs).symm

theorem after_reachable (actions : List (Action Plain))
    (runs : ((engineSystem Plain).run actions).isSome = true) :
    (engineSystem Plain).Reachable (after actions runs) :=
  Transition.System.get_run_reachable (engineSystem Plain) actions runs

/-- Where a schedule of allowed actions ends. -/
def afterBy (allowed : Sys Plain → Action Plain → Bool) (actions : List (Action Plain))
    (runs : ((engineSystem Plain).runBy allowed Sys.init actions).isSome = true) : Sys Plain :=
  ((engineSystem Plain).runBy allowed Sys.init actions).get runs

theorem afterBy_reachable (allowed : Sys Plain → Action Plain → Bool)
    (actions : List (Action Plain))
    (runs : ((engineSystem Plain).runBy allowed Sys.init actions).isSome = true) :
    (engineSystem Plain).ReachableBy (fun sys action => allowed sys action = true)
      (afterBy allowed actions runs) :=
  Transition.System.get_runBy_reachableBy (engineSystem Plain) allowed actions runs

/-- What a handler throws that must not be retried. -/
def fatal : Option Thrown := some { Thrown.error "fatal" with nonRetryableError := true }

/-- What a handler throws that may be retried. -/
def busy : Option Thrown := some (.error "busy")

/-- A run of one task, which is started. -/
def oneStarted : List (Action Plain) :=
  start [definition "A" []] :: steps 0 [1, 2, 3, 4, 5, 6] ++
    .invoke (.startTask ⟨2, "A"⟩ "w") :: steps 1 [7, 8, 9, 10, 11, 12, 13]

/-- A run of two independent tasks that are both started. -/
def twoStarted : List (Action Plain) :=
  start [definition "A" [], definition "B" []] :: steps 0 [1, 2, 3, 4, 5, 6, 7, 8] ++
    .invoke (.startTask ⟨2, "A"⟩ "w") :: steps 1 [9, 10, 11, 12, 13, 14, 15] ++
    .invoke (.startTask ⟨2, "B"⟩ "w") :: steps 2 [16, 17, 18, 19, 20, 21, 22]

end Schedule

end WorkflowEngine
