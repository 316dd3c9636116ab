import WorkflowEngine.Scheduler.Cron
import WorkflowEngine.Workflow.System

/-!
# Workflow definitions

The documents that users edit and that runs are started from.  Every operation below is
one operation on the collection; those of one request are put together in the platform.
-/

namespace WorkflowEngine

open DocStore

/-- The cron schedule of a workflow. -/
structure WorkflowSchedule (Val : Type) where
  cron : String
  timezone : String
  enabled : Bool
  /-- input of the scheduled runs -/
  input : Val
  nextRunAt : Time
  lastRunAt : Option Time
  lastError : Option String

/-- A workflow as it is stored; the engine reads the part that it extends. -/
structure WorkflowDocument (Val : Type) extends Workflow Val where
  name : String
  description : String
  /-- absent for manual runs only -/
  schedule : Option (WorkflowSchedule Val)

variable {Val : Type}

instance : Document (WorkflowDocument Val) ObjectId where
  id workflow := workflow.id
  clash _ _ := false

@[simp] theorem document_id_workflow (workflow : WorkflowDocument Val) :
    Document.id workflow = workflow.id := rfl

instance : Holds (Collection (WorkflowDocument Val)) (WorkflowDocument Val) where
  get := id
  set _ workflows := workflows
  get_set _ _ := rfl
  set_get _ := rfl

/-- An operation on the collection of workflows. -/
abbrev Definitions (Val : Type) := Session (Collection (WorkflowDocument Val)) ServiceError

/-- What a client sends to create a workflow or to replace its definition. -/
structure DefinitionBody (Val : Type) where
  name : String
  description : String
  tasks : List (TaskDefinition Val)

/-- What a client sends to schedule a workflow. -/
structure ScheduleBody (Val : Type) where
  cron : String
  timezone : String
  enabled : Bool
  input : Val

/-- Reject a definition whose task graph is not a valid DAG. -/
def assertValidGraph (tasks : List (TaskDefinition Val)) : Except ServiceError Unit :=
  let result := validateDag (tasks.map TaskDefinition.toDagTask)
  if result.valid then
    .ok ()
  else
    .error (.app (validationError "Workflow task graph is invalid" "INVALID_WORKFLOW_GRAPH"
      (.graph result.errors)))

def workflowNotFound : ServiceError := .app (notFoundError "Workflow not found")

def newWorkflow (user : User) (id : ObjectId) (body : DefinitionBody Val) : WorkflowDocument Val :=
  { id
    -- ownerId comes from the authenticated user, never from the body
    ownerId := user.id
    name := body.name
    description := body.description
    tasks := body.tasks
    version := 1
    schedule := none }

def createWorkflow (user : User) (objectId : ObjectId) (body : DefinitionBody Val) :
    Definitions Val (WorkflowDocument Val) := do
  assertValidGraph body.tasks
  let workflow := newWorkflow user objectId body
  Session.create (.engine .duplicateKey) workflow
  return workflow

/-- `findOne({ _id: id, ...ownerScope(user) })` -/
def findWorkflow (user : User) (id : ObjectId) : Definitions Val (Option (WorkflowDocument Val)) := do
  let found ← Session.findById (WorkflowDocument Val) id
  return found.filter fun workflow => inScope (ownerScope user) workflow.ownerId

def getWorkflow (user : User) (id : ObjectId) : Definitions Val (WorkflowDocument Val) := do
  let some workflow ← findWorkflow user id
    | throw workflowNotFound
  return workflow

/-- Newest first; `createdAt` is the timestamp that the store keeps with a document. -/
def newestFirst {α : Type} (createdAt : ObjectId → Time) (id : α → ObjectId) (found : List α) :
    List α :=
  found.insertionSort fun left right =>
    createdAt (id right) < createdAt (id left) ∨
      createdAt (id right) = createdAt (id left) ∧ id right ≤ id left

/-- One page of the workflows in scope, and how many there are. -/
def listWorkflows (createdAt : ObjectId → Time) (user : User) (limit page : Nat) :
    Definitions Val (List (WorkflowDocument Val) × Nat) := do
  let found ← Session.find (WorkflowDocument Val) fun workflow =>
    inScope (ownerScope user) workflow.ownerId
  let sorted := newestFirst createdAt (fun workflow => workflow.id) found
  return (limited limit (sorted.drop ((page - 1) * limit)), found.length)

/-- `$set: { schedule }` -/
def attachment (user : User) (schedule : Option (WorkflowSchedule Val)) :
    Update (WorkflowDocument Val) where
  filter workflow := inScope (ownerScope user) workflow.ownerId
  set workflow := { workflow with schedule }
  id_set _ := rfl

/-- The schedule that `setSchedule` stores when it reads this time. -/
def newSchedule (parser : CronParser) (now : Time) (body : ScheduleBody Val) :
    WorkflowSchedule Val :=
  { cron := body.cron
    timezone := body.timezone
    enabled := body.enabled
    input := body.input
    nextRunAt := nextRunAfter parser body.cron now body.timezone
    lastRunAt := none
    lastError := none }

/-- Attach or replace the schedule, or remove it. -/
def replaceSchedule (user : User) (id : ObjectId) (schedule : Option (WorkflowSchedule Val)) :
    Definitions Val (WorkflowDocument Val) := do
  let some workflow ← Session.findOneAndUpdate id (attachment user schedule)
    | throw workflowNotFound
  return workflow

/-- `$set: { name, description, tasks }, $inc: { version: 1 }`, if `version` is current. -/
def replacement (user : User) (version : Nat) (body : DefinitionBody Val) :
    Update (WorkflowDocument Val) where
  filter workflow :=
    inScope (ownerScope user) workflow.ownerId && workflow.version == version
  set workflow :=
    { workflow with
      name := body.name, description := body.description, tasks := body.tasks
      version := workflow.version + 1 }
  id_set _ := rfl

/-- Replace the definition; `none` when nothing matched. -/
def updateWorkflow (user : User) (id : ObjectId) (version : Nat) (body : DefinitionBody Val) :
    Definitions Val (Option (WorkflowDocument Val)) := do
  assertValidGraph body.tasks
  Session.findOneAndUpdate id (replacement user version body)

/-- Why an update matched nothing. -/
def explainConflict {α : Type} (user : User) (id : ObjectId) (version : Nat) :
    Definitions Val α := do
  let some current ← findWorkflow user id
    | throw workflowNotFound
  let currentVersion := current.version
  let versions := s!"you sent version {version}, current is {currentVersion}"
  throw (.app (conflictError
    s!"Workflow was modified by someone else ({versions}). Reload and retry."
    "VERSION_CONFLICT" (.currentVersion currentVersion)))

/-! ## The scheduler's operations -/

/-- Enabled schedules due now, oldest first. -/
def findDue (batchSize : Nat) (current : Time) :
    Definitions Val (List (WorkflowDocument Val × WorkflowSchedule Val)) := do
  let found ← Session.find (WorkflowDocument Val) fun workflow =>
    workflow.schedule.any fun schedule =>
      schedule.enabled && decide (schedule.nextRunAt ≤ current)
  let due := found.filterMap fun workflow =>
    workflow.schedule.map fun schedule => (workflow, schedule)
  return limited batchSize (due.insertionSort fun left right =>
    left.2.nextRunAt ≤ right.2.nextRunAt)

/-- Move the schedule on, if it is still at the slot that was handled. -/
def advancement (parser : CronParser) (current : Time) (handled : WorkflowSchedule Val)
    (lastError : Option String) : Update (WorkflowDocument Val) where
  filter workflow := workflow.schedule.any fun schedule => schedule.nextRunAt == handled.nextRunAt
  set workflow :=
    -- no backfill of missed slots
    let base := if handled.nextRunAt > current then handled.nextRunAt else current
    { workflow with
      schedule := workflow.schedule.map fun schedule =>
        { schedule with
          nextRunAt := nextRunAfter parser handled.cron base handled.timezone
          lastRunAt := some current
          lastError } }
  id_set _ := rfl

def advanceSchedule (parser : CronParser) (id : ObjectId) (current : Time)
    (handled : WorkflowSchedule Val) (lastError : Option String) : Definitions Val Nat :=
  Session.updateOne id (advancement parser current handled lastError)

end WorkflowEngine
