import WorkflowEngine.Services.Workflow

/-!
# The platform

The services that users call and the scheduler, on the collection of workflows and the
engine's database.  A request is worked off by a job, one operation on a store at a time;
in between every other job and every call of the engine may run.  A job that has called
the engine waits until that call ends.

The log records what requests were answered and is not read by any of them.
-/

namespace WorkflowEngine

open DocStore

/-- What the processes are configured with. -/
structure Deployment where
  cron : CronParser
  /-- the hexadecimal digest of a text -/
  sha256 : String → String
  /-- how many due workflows one tick reads -/
  batchSize : Nat
  /-- the timestamps that the store keeps with documents -/
  createdAt : ObjectId → Time

/-- What is done to an execution that the user owns. -/
inductive ControlAction where
  | pause | resume | cancel
  deriving DecidableEq, Repr

inductive Request (Val : Type) where
  | createWorkflow (user : User) (body : DefinitionBody Val)
  | listWorkflows (user : User) (limit page : Nat)
  | getWorkflow (user : User) (id : ObjectId)
  | setSchedule (user : User) (id : ObjectId) (body : ScheduleBody Val)
  | clearSchedule (user : User) (id : ObjectId)
  | updateWorkflow (user : User) (id : ObjectId) (version : Nat) (body : DefinitionBody Val)
  | run (user : User) (workflowId : ObjectId) (input : Val)
      (idempotencyKey : Option IdempotencyKey)
  | control (user : User) (executionId : ExecutionId) (action : ControlAction)
  | getExecution (user : User) (executionId : ExecutionId)
  | listApprovals (user : User) (status : Option ApprovalStatus)
  | getApproval (user : User) (id : ObjectId)
  /-- approve or reject -/
  | resolve (user : User) (id : ObjectId) (approve : Bool) (comment : Option String)
  /-- a tick of the scheduler -/
  | runDue

inductive Answer (Val : Type) where
  | workflow (workflow : WorkflowDocument Val)
  | workflows (items : List (WorkflowDocument Val)) (page limit total : Nat)
  | ran (execution : WorkflowExecution Val) (replayed : Bool)
  | execution (execution : Option (WorkflowExecution Val))
  | tasks (execution : WorkflowExecution Val) (tasks : List (Task Val))
  | approval (approval : Option (ApprovalRequest Val))
  | approvals (approvals : List (ApprovalRequest Val))
  | started (runs : Nat)

/-- A workflow that a tick of the scheduler has found due. -/
structure Due (Val : Type) where
  workflow : WorkflowDocument Val
  /-- its schedule as it was read -/
  schedule : WorkflowSchedule Val

/-- What a tick of the scheduler knows. -/
structure Tick (Val : Type) where
  /-- its reading of the clock -/
  current : Time
  /-- the workflow it works on -/
  due : Due Val
  rest : List (Due Val)
  started : Nat
  /-- how long the log was when the due workflows were read; the code does not have it -/
  seen : Nat

/-- The next operation of a job. -/
inductive Operation (Val : Type) where
  | first (request : Request Val)
  | replaceSchedule (user : User) (id : ObjectId) (schedule : WorkflowSchedule Val)
  | explainConflict (user : User) (id : ObjectId) (version : Nat)
  | findExisting (user : User) (workflowId : ObjectId) (input : Val) (key : IdempotencyKey)
  | rereadExecution (executionId : ExecutionId)
  | findTasks (execution : WorkflowExecution Val)
  | recordDecision (user : User) (approvalId : ObjectId) (approve : Bool)
      (comment : Option String)
  | rereadApproval (approvalId : ObjectId) (lost : Bool)
  | findDue (current : Time)
  | advance (tick : Tick Val) (lastError : Option String)

/-- What a job does when its call of the engine has ended. -/
inductive Waiting (Val : Type) where
  | run (user : User) (workflowId : ObjectId) (input : Val)
      (idempotencyKey : Option IdempotencyKey)
  | control (execution : WorkflowExecution Val) (action : ControlAction)
  | resolve (approvalId : ObjectId)
  | slot (tick : Tick Val)

inductive JobState (Val : Type) where
  | ready (operation : Operation Val)
  /-- the reply is what the call has given so far -/
  | waiting (waiting : Waiting Val) (call : Nat) (reply : Option (Reply Val))
  /-- it has answered, or its process has stopped -/
  | ended

structure Job (Val : Type) where
  request : Request Val
  state : JobState Val

/-- How a job goes on. -/
inductive Next (Val : Type) where
  | operation (operation : Operation Val)
  | call (op : Op Val) (waiting : Waiting Val)
  | answer (answer : Except ServiceError (Answer Val))

/-- An answered request. -/
structure Answered (Val : Type) where
  request : Request Val
  answer : Except ServiceError (Answer Val)

structure Platform (Val : Type) where
  /-- the engine's calls and its database -/
  sys : Sys Val
  workflows : Collection (WorkflowDocument Val)
  now : Time
  jobs : List (Job Val)
  /-- newest first -/
  log : List (Answered Val)

variable {Val : Type}

namespace Platform

section Operations

variable [ToJson Val] (deployment : Deployment)

/-- The hash stored with an execution that was started with a key. -/
def requestHash (workflowId : ObjectId) (input : Val) (idempotencyKey : Option IdempotencyKey) :
    Option String :=
  idempotencyKey.map fun _ => deployment.sha256 (requestText workflowId input)

/-- `engine.startExecution` as `run` calls it. -/
def runParams (user : User) (workflow : Workflow Val) (input : Val)
    (idempotencyKey : Option IdempotencyKey) : StartParams Val :=
  { workflow, input
    triggeredBy := some user.id
    trigger := .manual
    idempotencyKey := idempotencyKey.map (·.text)
    requestHash := requestHash deployment workflow.id input idempotencyKey }

omit [ToJson Val] in
/-- `engine.startExecution` as the scheduler calls it. -/
def slotParams (due : Due Val) : StartParams Val :=
  { workflow := due.workflow.toWorkflow
    input := due.schedule.input
    -- runs on behalf of the owner
    triggeredBy := some due.workflow.ownerId
    trigger := .schedule
    idempotencyKey := some (slotKey due.workflow.id due.schedule.nextRunAt)
    requestHash := none }

omit [ToJson Val] in
/-- The scheduler goes on to the next due workflow. -/
def startNext (current : Time) (started seen : Nat) : List (Due Val) → Next Val
  | [] => .answer (.ok (.started started))
  | due :: rest =>
      .call (.startExecution (slotParams due)) (.slot { current, due, rest, started, seen })

def controlOp (executionId : ExecutionId) : ControlAction → Op Val
  | .pause => .pauseExecution executionId
  | .resume => .resumeExecution executionId
  | .cancel => .cancelExecution executionId

def ControlAction.text : ControlAction → String
  | .pause => "pause"
  | .resume => "resume"
  | .cancel => "cancel"

omit [ToJson Val] in
def findExecution (db : Db Val) (user : User) (id : ExecutionId) :
    Option (WorkflowExecution Val) :=
  (db.executions.findById id).filter fun execution => inScope (ownerScope user) execution.ownerId

omit [ToJson Val] in
def findApproval (db : Db Val) (user : User) (id : ObjectId) : Option (ApprovalRequest Val) :=
  (db.approvals.findById id).filter fun approval => inScope (ownerScope user) approval.ownerId

def executionNotFound : ServiceError := .app (notFoundError "Execution not found")

def approvalNotFound : ServiceError := .app (notFoundError "Approval not found")

def alreadyDecided (status : ApprovalStatus) : ServiceError :=
  .app (conflictError s!"Approval is already {status.text}" "ALREADY_DECIDED"
    (.approvalStatus status))

def keyReused : ServiceError :=
  .app { message := "Idempotency-Key was already used with a different request"
         statusCode := 422, code := "IDEMPOTENCY_KEY_REUSED", details := .none }

omit [ToJson Val] in
/-- The permission that a route of the approvals requires. -/
def require (user : User) (permission : Permission) (next : Next Val) : Next Val :=
  if hasPermission user.role permission then next
  else .answer (.error (.app (forbiddenError permission)))

/-- The first operation of a request. -/
def begin (env : Env) (now : Time) (workflows : Collection (WorkflowDocument Val)) (db : Db Val) :
    Request Val → Collection (WorkflowDocument Val) × Next Val
  | .createWorkflow user body =>
      match (createWorkflow user env.objectId body).run workflows with
      | .ok (workflow, workflows) => (workflows, .answer (.ok (.workflow workflow)))
      | .error thrown => (workflows, .answer (.error thrown))
  | .listWorkflows user limit page =>
      match (listWorkflows deployment.createdAt user limit page).run workflows with
      | .ok ((items, total), _) => (workflows, .answer (.ok (.workflows items page limit total)))
      | .error thrown => (workflows, .answer (.error thrown))
  | .getWorkflow user id =>
      match (getWorkflow user id).run workflows with
      | .ok (workflow, _) => (workflows, .answer (.ok (.workflow workflow)))
      | .error thrown => (workflows, .answer (.error thrown))
  | .setSchedule user id body =>
      match assertValidCron deployment.cron body.cron body.timezone with
      | .ok () => (workflows, .operation
          (.replaceSchedule user id (newSchedule deployment.cron now body)))
      | .error thrown => (workflows, .answer (.error thrown))
  | .clearSchedule user id =>
      match (replaceSchedule user id none).run workflows with
      | .ok (workflow, workflows) => (workflows, .answer (.ok (.workflow workflow)))
      | .error thrown => (workflows, .answer (.error thrown))
  | .updateWorkflow user id version body =>
      match (updateWorkflow user id version body).run workflows with
      | .ok (some workflow, workflows) => (workflows, .answer (.ok (.workflow workflow)))
      | .ok (none, _) => (workflows, .operation (.explainConflict user id version))
      | .error thrown => (workflows, .answer (.error thrown))
  | .run user workflowId input idempotencyKey =>
      match (getWorkflow user workflowId).run workflows with
      | .ok (workflow, _) => (workflows, .call
          (.startExecution
            (runParams deployment user workflow.toWorkflow input idempotencyKey))
          (.run user workflowId input idempotencyKey))
      | .error thrown => (workflows, .answer (.error thrown))
  | .control user executionId action =>
      match findExecution db user executionId with
      | some execution =>
          (workflows, .call (controlOp execution.id action) (.control execution action))
      | none => (workflows, .answer (.error executionNotFound))
  | .getExecution user executionId =>
      match findExecution db user executionId with
      | some execution => (workflows, .operation (.findTasks execution))
      | none => (workflows, .answer (.error executionNotFound))
  | .listApprovals user status =>
      let found := db.approvals.find fun approval =>
        inScope (ownerScope user) approval.ownerId && status.all fun status =>
          decide (approval.status = status)
      let sorted := newestFirst deployment.createdAt (fun approval => approval.id) found
      (workflows, require user .workflowRead (.answer (.ok (.approvals (limited 100 sorted)))))
  | .getApproval user id =>
      (workflows, require user .workflowRead
        (match findApproval db user id with
        | some approval => .answer (.ok (.approval (some approval)))
        | none => .answer (.error approvalNotFound)))
  | .resolve user id approve comment =>
      (workflows, require user .approvalDecide
        (match findApproval db user id with
        | some existing =>
            if existing.status = .pending then
              .operation (.recordDecision user existing.id approve comment)
            else
              .answer (.error (alreadyDecided existing.status))
        | none => .answer (.error approvalNotFound)))
  | .runDue => (workflows, .operation (.findDue now))

/-- One operation of a job. -/
def perform (env : Env) (now : Time) (workflows : Collection (WorkflowDocument Val)) (db : Db Val)
    (seen : Nat) : Operation Val → Collection (WorkflowDocument Val) × Next Val
  | .first request => begin deployment env now workflows db request
  | .replaceSchedule user id schedule =>
      match (replaceSchedule user id (some schedule)).run workflows with
      | .ok (workflow, workflows) => (workflows, .answer (.ok (.workflow workflow)))
      | .error thrown => (workflows, .answer (.error thrown))
  | .explainConflict user id version =>
      match (explainConflict user id version : Definitions Val (Answer Val)).run workflows with
      | .ok (answer, _) => (workflows, .answer (.ok answer))
      | .error thrown => (workflows, .answer (.error thrown))
  | .findExisting user workflowId input key =>
      -- The unique index said "this key was already used by this user".
      match (db.executions.find fun execution =>
          execution.triggeredBy == some user.id && execution.idempotencyKey == some key.text) with
      | existing :: _ =>
          if existing.requestHash = requestHash deployment workflowId input (some key) then
            (workflows, .answer (.ok (.ran existing true)))
          else
            (workflows, .answer (.error keyReused))
      | [] => (workflows, .answer (.error (.engine .typeError)))
  | .rereadExecution executionId =>
      (workflows, .answer (.ok (.execution (db.executions.findById executionId))))
  | .findTasks execution =>
      let tasks := db.tasks.find fun task => decide (task.executionId = execution.id)
      (workflows, .answer (.ok (.tasks execution tasks)))
  | .recordDecision user approvalId approve comment =>
      (workflows, .call
        (.resolveApproval
          { approvalId
            decision := if approve then .approved else .rejected
            decidedBy := some user.id
            comment
            scope := ownerScope user })
        (.resolve approvalId))
  | .rereadApproval approvalId lost =>
      match db.approvals.findById approvalId with
      | some approval =>
          if lost then (workflows, .answer (.error (alreadyDecided approval.status)))
          else (workflows, .answer (.ok (.approval (some approval))))
      | none =>
          if lost then (workflows, .answer (.error (.engine .typeError)))
          else (workflows, .answer (.ok (.approval none)))
  | .findDue current =>
      match (findDue deployment.batchSize current).run workflows with
      | .ok (found, _) =>
          (workflows, startNext current 0 seen (found.map fun due => ⟨due.1, due.2⟩))
      | .error thrown => (workflows, .answer (.error thrown))
  | .advance tick lastError =>
      match (advanceSchedule deployment.cron tick.due.workflow.id tick.current tick.due.schedule
          lastError).run workflows with
      | .ok (_, workflows) => (workflows, startNext tick.current tick.started tick.seen tick.rest)
      | .error thrown => (workflows, .answer (.error thrown))

end Operations

end Platform

/-- The reply that the caller of a transaction acts upon. -/
def Reply.returns : Reply Val → Bool
  | .startExecution .. | .pauseExecution .. | .resumeExecution .. | .cancelExecution ..
  | .resolveApproval .. | .threw _ => true
  | _ => false

namespace Waiting

/-- `engine.startExecution` has thrown, for the caller `run`. -/
def refused (user : User) (workflowId : ObjectId) (input : Val)
    (idempotencyKey : Option IdempotencyKey) (thrown : ServiceError) : Next Val :=
  match thrown, idempotencyKey with
  | .engine .duplicateKey, some key => .operation (.findExisting user workflowId input key)
  | thrown, _ => .answer (.error thrown)

def controlled (execution : WorkflowExecution Val) (action : ControlAction) (changed : Bool) :
    Next Val :=
  if changed then
    .operation (.rereadExecution execution.id)
  else
    let status := execution.status
    .answer (.error (.app
      { message := s!"Cannot {Platform.ControlAction.text action} an execution that is {status.text}"
        statusCode := 409, code := "INVALID_STATE", details := .executionStatus status }))

/-- The call of the engine has thrown. -/
def threw (thrown : ServiceError) : Waiting Val → Next Val
  | .run user workflowId input idempotencyKey =>
      refused user workflowId input idempotencyKey thrown
  | .slot tick =>
      .operation (.advance tick
        (match thrown with
        -- the scheduled slot was already started
        | .engine .duplicateKey => none
        | thrown => some thrown.message))
  | _ => .answer (.error thrown)

/-- The call of the engine has ended with this reply. -/
def resume (waiting : Waiting Val) (reply : Reply Val) : Next Val :=
  match waiting, reply with
  | waiting, .threw thrown => waiting.threw (.engine thrown)
  | .run .., .startExecution _ execution => .answer (.ok (.ran execution false))
  | .slot tick, .startExecution .. =>
      .operation (.advance { tick with started := tick.started + 1 } none)
  | .control execution action, .pauseExecution _ changed => controlled execution action changed
  | .control execution action, .resumeExecution _ changed => controlled execution action changed
  | .control execution action, .cancelExecution _ changed => controlled execution action changed
  | .resolve approvalId, .resolveApproval _ _ outcome =>
      .operation (.rereadApproval approvalId outcome.isNone)
  | waiting, _ => waiting.threw (.engine .typeError)

end Waiting

namespace Platform

inductive Action (Val : Type) where
  /-- time passes -/
  | tick (ms : Nat)
  | submit (request : Request Val)
  /-- a job performs its next operation -/
  | perform (job : Nat) (env : Env)
  /-- the operation of a job throws; a call of the engine may still take effect -/
  | fail (job : Nat) (message : String)
  /-- the process of a job stops -/
  | stop (job : Nat)
  /-- a worker or the reconciler calls the engine -/
  | invoke (frame : Frame Val)
  /-- a call of the engine performs its next step -/
  | advance (call : Nat) (env : Env)
  | crash (call : Nat)

variable [Mixed Val] [ToJson Val]

/-- A job goes on like this. -/
def settle (platform : Platform Val) (index : Nat) (request : Request Val) :
    Next Val → Option (Platform Val)
  | .operation operation =>
      some { platform with jobs := platform.jobs.set index ⟨request, .ready operation⟩ }
  | .call op waiting =>
      (platform.sys.step (.invoke (.transaction op))).map fun sys =>
        { platform with
          sys
          jobs := platform.jobs.set index
            ⟨request, .waiting waiting platform.sys.calls.length none⟩ }
  | .answer answer =>
      some { platform with
        jobs := platform.jobs.set index ⟨request, .ended⟩
        log := ⟨request, answer⟩ :: platform.log }

/-- A generated id is new. -/
def drawsFresh (platform : Platform Val) (call : Nat) (env : Env) : Bool :=
  match platform.sys.calls[call]? with
  | some (.callback (.startExecution _) snapshot :: _) =>
      !snapshot.executions.ids.contains env.objectId &&
        !snapshot.outbox.ids.contains (env.randomUUID snapshot.outbox.length)
  | _ => true

omit [ToJson Val] in
/-- A frame that starts a run; only the services and the scheduler call for it. -/
def startsRun : Frame Val → Bool
  | .transaction (.startExecution _) => true
  | _ => false

/-- The jobs after a step of a call of the engine.  A job whose call has ended goes on. -/
def Job.resumed (call : Nat) (reply : Option (Reply Val)) (ended : Bool) (job : Job Val) :
    Job Val × List (Answered Val) :=
  match job.state with
  | .waiting waiting pending before =>
      if pending = call then
        let known := reply.orElse fun _ => before
        match ended, known with
        | true, some reply =>
            match waiting.resume reply with
            | .operation operation => (⟨job.request, .ready operation⟩, [])
            | .answer answer => (⟨job.request, .ended⟩, [⟨job.request, answer⟩])
            | .call _ _ => (⟨job.request, .ended⟩, [])
        | _, known => (⟨job.request, .waiting waiting pending known⟩, [])
      else
        (job, [])
  | _ => (job, [])

/-- A step of the engine has led here. -/
def advanced (platform : Platform Val) (call : Nat) (sys : Sys Val) : Platform Val :=
  let replies := sys.log.take (sys.log.length - platform.sys.log.length)
  let ended := sys.calls[call]?.any List.isEmpty
  let resumed := platform.jobs.map (Job.resumed call (replies.find? Reply.returns) ended)
  { platform with
    sys
    jobs := resumed.map Prod.fst
    log := resumed.flatMap Prod.snd ++ platform.log }

def step (deployment : Deployment) (platform : Platform Val) :
    Action Val → Option (Platform Val)
  | .tick ms => some { platform with now := platform.now + ms }
  | .submit request =>
      some { platform with jobs := platform.jobs ++ [⟨request, .ready (.first request)⟩] }
  | .perform index env =>
      match platform.jobs[index]? with
      | some ⟨request, .ready operation⟩ =>
          if platform.workflows.ids.contains env.objectId then
            none
          else
            let (workflows, next) := perform deployment env platform.now platform.workflows
              platform.sys.db platform.log.length operation
            settle { platform with workflows } index request next
      | _ => none
  | .fail index message =>
      match platform.jobs[index]? with
      | some ⟨request, .ready _⟩ =>
          settle platform index request (.answer (.error (.store message)))
      | some ⟨request, .waiting waiting _ _⟩ =>
          settle platform index request (waiting.threw (.store message))
      | _ => none
  | .stop index =>
      (platform.jobs[index]?).map fun job =>
        { platform with jobs := platform.jobs.set index ⟨job.request, .ended⟩ }
  | .invoke frame =>
      if startsRun frame then
        none
      else
        (platform.sys.step (.invoke frame)).map fun sys => { platform with sys }
  | .advance call env =>
      if platform.drawsFresh call env then
        (platform.sys.step (.advance call env)).map (platform.advanced call)
      else
        none
  | .crash call =>
      (platform.sys.step (.crash call)).map fun sys => { platform with sys }

end Platform

/-- Stored definitions, each under an id of its own. -/
structure Library (Val : Type) where
  workflows : Collection (WorkflowDocument Val)
  nodup : workflows.ids.Nodup

/-- The platform on definitions that were stored before, and without runs. -/
def platformSystem (Val : Type) [Mixed Val] [ToJson Val] (deployment : Deployment)
    (library : Library Val) (start : Time) :
    Transition.System (Platform Val) (Platform.Action Val) where
  init := { sys := Sys.init, workflows := library.workflows, now := start, jobs := [], log := [] }
  step := Platform.step deployment

/-! ## Schedules that are written out -/

namespace Schedule

/-- The daily and the hourly expression, in UTC. -/
def cron : CronParser where
  knownTimezone timezone := timezone == "UTC"
  parseError _ _ := none
  next expr after _ :=
    let period := if expr = "0 0 * * *" then 86400000 else 3600000
    (after / period + 1) * period
  lt_next expr after _ := by
    apply Int.lt_ediv_add_one_mul_self
    split
    · decide
    · decide

/-- Nothing is hashed in these schedules. -/
def deployment : Deployment where
  cron
  sha256 text := text
  batchSize := 50
  createdAt id := id

def noLibrary : Library Plain := ⟨[], .nil⟩

def user : User := ⟨1, .operator⟩

/-- A definition of one task. -/
def body (config : Nat) : DefinitionBody Plain where
  name := "workflow"
  description := ""
  tasks := [{ definition "A" [] with config := .number config }]

/-- A job performs its next operation; a new document gets this id. -/
def perform (job objectId : Nat) : Platform.Action Plain :=
  .perform job { env objectId with objectId }

/-- A call of the engine performs steps, one at each of the given times. -/
def advances (call : Nat) (times : List Nat) : List (Platform.Action Plain) :=
  times.map fun now => .advance call (env now)

/-- Where a schedule ends that starts at 1970-01-01T00:30Z. -/
def platformAfter (deployment : Deployment) (library : Library Plain)
    (actions : List (Platform.Action Plain))
    (runs : ((platformSystem Plain deployment library 1800000).run actions).isSome = true) :
    Platform Plain :=
  ((platformSystem Plain deployment library 1800000).run actions).get runs

theorem platformAfter_reachable (deployment : Deployment) (library : Library Plain)
    (actions : List (Platform.Action Plain))
    (runs : ((platformSystem Plain deployment library 1800000).run actions).isSome = true) :
    (platformSystem Plain deployment library 1800000).Reachable
      (platformAfter deployment library actions runs) :=
  Transition.System.get_run_reachable _ actions runs

/-- Where a schedule ends all of whose steps avoid something. -/
def platformAvoiding (avoided : Platform Plain → Platform.Action Plain → Bool)
    (deployment : Deployment) (library : Library Plain) (actions : List (Platform.Action Plain))
    (runs : ((platformSystem Plain deployment library 1800000).runBy
      (fun platform action => !avoided platform action)
      (platformSystem Plain deployment library 1800000).init actions).isSome = true) :
    Platform Plain :=
  ((platformSystem Plain deployment library 1800000).runBy
    (fun platform action => !avoided platform action)
    (platformSystem Plain deployment library 1800000).init actions).get runs

theorem platformAvoiding_reachable (avoided : Platform Plain → Platform.Action Plain → Bool)
    (deployment : Deployment) (library : Library Plain) (actions : List (Platform.Action Plain))
    (runs : ((platformSystem Plain deployment library 1800000).runBy
      (fun platform action => !avoided platform action)
      (platformSystem Plain deployment library 1800000).init actions).isSome = true) :
    (platformSystem Plain deployment library 1800000).ReachableBy
      (fun platform action => avoided platform action = false)
      (platformAvoiding avoided deployment library actions runs) :=
  (Transition.System.get_runBy_reachableBy _ _ actions runs).mono fun _ _ permitted =>
    Bool.not_eq_eq_eq_not.mp permitted

/-- A schedule that runs every hour, or every day. -/
def every (expr : String) : ScheduleBody Plain where
  cron := expr
  timezone := "UTC"
  enabled := true
  input := .null

/-- At half past eleven a user creates a workflow that runs every hour. -/
def hourly : List (Platform.Action Plain) :=
  [.submit (.createWorkflow user (body 1)), perform 0 10, .tick 82800000,
    .submit (.setSchedule user 10 (every "0 * * * *")), perform 1 11, perform 1 12]

end Schedule

end WorkflowEngine
