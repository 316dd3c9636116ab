import WorkflowEngine.Repositories.Task

/-!
# Roles, ownership and errors

Which role may do what, which documents a user may touch, and the errors that a
client is shown.
-/

namespace WorkflowEngine

inductive Role where
  | admin | operator | viewer
  deriving DecidableEq, Repr

inductive Permission where
  | workflowCreate | workflowRead | workflowRun | approvalDecide | analyticsRead | userManage
  deriving DecidableEq, Repr

/-- `ROLE_PERMISSIONS` -/
def rolePermissions : Role → List Permission
  | .admin => [.workflowCreate, .workflowRead, .workflowRun, .approvalDecide, .analyticsRead,
      .userManage]
  | .operator => [.workflowCreate, .workflowRead, .workflowRun, .approvalDecide, .analyticsRead]
  | .viewer => [.workflowRead, .analyticsRead]

def hasPermission (role : Role) (permission : Permission) : Bool :=
  permission ∈ rolePermissions role

structure User where
  id : UserId
  role : Role
  deriving DecidableEq, Repr

/-- The owner whose documents the user may see; admins see everything. -/
def ownerScope (user : User) : Option UserId :=
  if user.role = .admin then none else some user.id

/-- `{ ...scope }` merged into a filter on an owned document. -/
def inScope (scope : Option UserId) (ownerId : UserId) : Bool :=
  scope.all fun id => ownerId == id

theorem inScope_ownerScope {user : User} (tenant : user.role ≠ .admin) {ownerId : UserId} :
    inScope (ownerScope user) ownerId = true ↔ ownerId = user.id := by
  rw [ownerScope, if_neg tenant]
  exact beq_iff_eq

/-- What is sent with an error. -/
inductive ErrorDetails where
  | none
  | required (permission : Permission)
  | graph (errors : List DagError)
  | currentVersion (version : Nat)
  | executionStatus (status : ExecutionStatus)
  | approvalStatus (status : ApprovalStatus)
  deriving DecidableEq, Repr

/-- An error that is expected and described to the client. -/
structure AppError where
  message : String
  statusCode : Nat
  code : String
  details : ErrorDetails
  deriving DecidableEq, Repr

def validationError (message code : String) (details : ErrorDetails) : AppError :=
  { message, statusCode := 400, code, details }

def forbiddenError (permission : Permission) : AppError :=
  { message := "You do not have permission to perform this action"
    statusCode := 403, code := "FORBIDDEN", details := .required permission }

def notFoundError (message : String) : AppError :=
  { message, statusCode := 404, code := "NOT_FOUND", details := .none }

def conflictError (message code : String) (details : ErrorDetails) : AppError :=
  { message, statusCode := 409, code, details }

/-- What an operation of a service throws. -/
inductive ServiceError where
  | app (error : AppError)
  /-- as the engine threw it -/
  | engine (error : EngineError)
  /-- an operation on a store failed -/
  | store (message : String)

/-- The statuses as they are stored. -/
def ExecutionStatus.text : ExecutionStatus → String
  | .pending => "PENDING"
  | .running => "RUNNING"
  | .paused => "PAUSED"
  | .waitingForApproval => "WAITING_FOR_APPROVAL"
  | .completed => "COMPLETED"
  | .failed => "FAILED"
  | .cancelled => "CANCELLED"

def TaskStatus.text : TaskStatus → String
  | .pending => "PENDING"
  | .ready => "READY"
  | .queued => "QUEUED"
  | .running => "RUNNING"
  | .retrying => "RETRYING"
  | .waitingForApproval => "WAITING_FOR_APPROVAL"
  | .completed => "COMPLETED"
  | .failed => "FAILED"
  | .deadLetter => "DEAD_LETTER"
  | .cancelled => "CANCELLED"

def ApprovalStatus.text : ApprovalStatus → String
  | .pending => "PENDING"
  | .approved => "APPROVED"
  | .rejected => "REJECTED"
  | .expired => "EXPIRED"
  | .cancelled => "CANCELLED"

/-- `err.message` -/
def EngineError.message : EngineError → String
  | .invalidTransition .execution source target =>
      s!"Invalid execution transition: {source.text} -> {target.text}"
  | .invalidTransition .task source target =>
      s!"Invalid task transition: {source.text} -> {target.text}"
  | .invalidWorkflowGraph _ => "Workflow task graph is invalid"
  | .approvalNotActionable => "This task is no longer waiting for approval"
  | .duplicateKey => "E11000 duplicate key error collection"
  | .requiredPath model path => s!"{model} validation failed: {path}: Path `{path}` is required."
  | .typeError => "Cannot read properties of null"

def ServiceError.message : ServiceError → String
  | .app error => error.message
  | .engine error => error.message
  | .store message => message

end WorkflowEngine
