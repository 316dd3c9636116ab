import WorkflowEngine.Services.Inserts
import WorkflowEngine.Workflow.TwinCalls

/-!
# What a user has in scope

A user who is not an admin has the documents in scope that they own.  Operations of theirs
on the workflows do the same on two collections that show them the same, and change no
workflow of another owner.
-/

namespace WorkflowEngine

open DocStore Session

variable {Val : Type}

/-- Workflows that show a user the same; those of other owners are as they were. -/
abbrev Definitions.Alike (user : UserId) (leftOld rightOld left right :
    Collection (WorkflowDocument Val)) : Prop :=
  Collection.Alike (fun workflow => workflow.ownerId == user)
    (fun workflow => workflow.ownerId != user) leftOld rightOld left right

namespace Definitions

variable {user : User} {leftOld rightOld left right : Collection (WorkflowDocument Val)}

instance {owner : UserId} : Tracks (Definitions.Alike owner leftOld rightOld) (WorkflowDocument Val)
    (fun workflow => workflow.ownerId == owner) (fun workflow => workflow.ownerId != owner)
    leftOld rightOld where
  covers _ notSpared := owner_of_not_spared notSpared
  alike holds := holds
  set _ alike := alike

/-- The operation does the same on both collections. -/
abbrev SameOnBoth {α : Type} (owner : UserId)
    (leftOld rightOld : Collection (WorkflowDocument Val)) (session : Definitions Val α) : Prop :=
  Lockstep (Definitions.Alike owner leftOld rightOld)
    (fun _ => Definitions.Alike owner leftOld rightOld) session

theorem owned (owner : UserId) (leftOld rightOld : Collection (WorkflowDocument Val)) :
    Lockstep.Owned (fun workflow : WorkflowDocument Val => workflow.ownerId != owner) leftOld
      rightOld fun workflow => workflow.ownerId = owner :=
  ⟨fun _ _ isOwner => not_spared_of_owner isOwner, fun _ _ isOwner => not_spared_of_owner isOwner⟩

theorem assertValidGraph_same {tasks : List (TaskDefinition Val)} :
    SameOnBoth user.id leftOld rightOld (liftM (assertValidGraph tasks)) := by
  intro left right alike
  cases assertValidGraph tasks with
  | ok value => exact .inl ⟨value, left, right, rfl, rfl, alike⟩
  | error thrown => exact .inr ⟨thrown, rfl, rfl⟩

theorem createWorkflow_same {objectId : ObjectId} {body : DefinitionBody Val}
    (leftFresh : objectId ∉ leftOld.ids) (rightFresh : objectId ∉ rightOld.ids) :
    SameOnBoth user.id leftOld rightOld (createWorkflow user objectId body) := by
  apply Lockstep.bind assertValidGraph_same
  intro _
  apply Lockstep.bind
  · apply Lockstep.create
    · exact not_spared_of_owner rfl
    · intro left right alike other membership violates
      have isId : other.id = objectId := by
        rcases Bool.or_eq_true_iff.mp violates with isId | clash
        · exact of_decide_eq_true isId
        · cases clash
      have absent : ∀ {old : Collection (WorkflowDocument Val)}, objectId ∉ old.ids →
          ∀ workflow ∈ old.values, workflow.id = objectId → (workflow.ownerId != user.id) = false :=
        fun fresh workflow workflowMem same =>
          absurd (Collection.mem_ids.mpr ⟨workflow, workflowMem, same⟩) fresh
      apply owner_of_not_spared
      rcases membership with isLeft | isRight
      · exact Collection.not_spared alike.leftSpares (absent leftFresh) other isLeft isId
      · exact Collection.not_spared alike.rightSpares (absent rightFresh) other isRight isId
  · intro _
    exact .stay

section Tenant

variable (tenant : user.role ≠ .admin)
include tenant

theorem findWorkflow_same {id : ObjectId} :
    Lockstep (Definitions.Alike user.id leftOld rightOld)
      (fun found left right => Definitions.Alike user.id leftOld rightOld left right ∧
        ∀ workflow ∈ found, workflow.ownerId = user.id)
      (findWorkflow user id : Definitions Val (Option (WorkflowDocument Val))) := by
  intro left right alike
  have scope : (fun workflow : WorkflowDocument Val =>
      inScope (ownerScope user) workflow.ownerId) = fun workflow => workflow.ownerId == user.id := by
    funext workflow
    rw [ownerScope, if_neg tenant]
    rfl
  have same : (left.findById id).filter (fun workflow =>
      inScope (ownerScope user) workflow.ownerId) =
        (right.findById id).filter fun workflow => inScope (ownerScope user) workflow.ownerId := by
    rw [scope, Collection.findById_filter alike.leftNodup, Collection.findById_filter
      alike.rightNodup, alike.agree]
  refine .inl ⟨_, left, right, rfl, ?_, alike, ?_⟩
  · exact congrArg (fun found => Except.ok (found, right)) same.symm
  · intro workflow found
    exact (inScope_ownerScope tenant).mp (Option.filter_eq_some_iff.mp found).2

theorem getWorkflow_same {id : ObjectId} :
    Lockstep (Definitions.Alike user.id leftOld rightOld)
      (fun workflow left right => Definitions.Alike user.id leftOld rightOld left right ∧
        workflow.ownerId = user.id)
      (getWorkflow user id : Definitions Val (WorkflowDocument Val)) := by
  apply Lockstep.bindOption (findWorkflow_same tenant)
  · exact .throw
  · intro workflow isOwner
    exact .pure fun _ _ alike => ⟨alike, isOwner⟩

theorem listWorkflows_same {createdAt : ObjectId → Time} {limit page : Nat} :
    SameOnBoth user.id leftOld rightOld
      (listWorkflows createdAt user limit page :
        Definitions Val (List (WorkflowDocument Val) × Nat)) := by
  have finds : SameOnBoth user.id leftOld rightOld
      (Session.find (WorkflowDocument Val) fun workflow =>
        inScope (ownerScope user) workflow.ownerId) := by
    intro left right alike
    have scope : ∀ workflow : WorkflowDocument Val,
        inScope (ownerScope user) workflow.ownerId = true → (workflow.ownerId == user.id) = true :=
      fun workflow isIn => beq_iff_eq.mpr ((inScope_ownerScope tenant).mp isIn)
    have same := alike.find (fun workflow _ => scope workflow) fun workflow _ => scope workflow
    refine .inl ⟨_, left, right, rfl, ?_, alike⟩
    rw [run_find]
    exact congrArg (fun found => Except.ok (found, right)) same.symm
  apply Lockstep.bind finds
  intro _
  exact .stay

theorem replaceSchedule_same {id : ObjectId} {schedule : Option (WorkflowSchedule Val)} :
    SameOnBoth user.id leftOld rightOld (replaceSchedule user id schedule) := by
  apply Lockstep.bindOption
  · apply Lockstep.findOneAndUpdate (owned user.id leftOld rightOld)
    · intro workflow _ matched
      exact (inScope_ownerScope tenant).mp matched
    · exact fun _ => rfl
    · exact fun _ => rfl
  · exact .throw
  · intro workflow _
    exact .stay

theorem updateWorkflow_same {id : ObjectId} {version : Nat} {body : DefinitionBody Val} :
    SameOnBoth user.id leftOld rightOld (updateWorkflow user id version body) := by
  apply Lockstep.bind assertValidGraph_same
  intro _
  have replaces : Lockstep (Definitions.Alike user.id leftOld rightOld)
      (fun found left right => Definitions.Alike user.id leftOld rightOld left right ∧
        ∀ workflow ∈ found, Document.id workflow = id)
      (Session.findOneAndUpdate id (replacement user version body) :
        Definitions Val (Option (WorkflowDocument Val))) := by
    apply Lockstep.findOneAndUpdate (owned user.id leftOld rightOld)
    · intro workflow _ matched
      exact (inScope_ownerScope tenant).mp (Bool.and_eq_true_iff.mp matched).1
    · exact fun _ => rfl
    · exact fun _ => rfl
  exact replaces.weaken (fun _ _ alike => alike) fun _ _ _ both => both.1

theorem explainConflict_same {α : Type} {id : ObjectId} {version : Nat} :
    SameOnBoth user.id leftOld rightOld (explainConflict user id version : Definitions Val α) := by
  apply Lockstep.bindOption (findWorkflow_same tenant)
  · exact .throw
  · intro workflow _
    exact .throw

end Tenant

end Definitions

/-! ## Operations of a user -/

/-- Who makes the request; nobody makes a tick of the scheduler. -/
def Request.user? : Request Val → Option User
  | .createWorkflow user _ | .listWorkflows user _ _ | .getWorkflow user _
  | .setSchedule user _ _ | .clearSchedule user _ | .updateWorkflow user _ _ _
  | .run user _ _ _ | .control user _ _ | .getExecution user _ | .listApprovals user _
  | .getApproval user _ | .resolve user _ _ _ => some user
  | .runDue => none

namespace Db

/-- Whoever the execution with this id belongs to is the user. -/
def HoldsRun (db : Db Val) (user : UserId) (executionId : ExecutionId) : Prop :=
  ∀ execution ∈ db.executions.values, execution.id = executionId → execution.ownerId = user

/-- Whoever the request with this id belongs to is the user. -/
def HoldsApproval (db : Db Val) (user : UserId) (approvalId : ObjectId) : Prop :=
  ∀ request ∈ db.approvals.values, request.id = approvalId → request.ownerId = user

end Db

/-- An operation of a request of the user. -/
def Operation.OfUser (user : User) (db : Db Val) : Operation Val → Prop
  | .first request => request.user? = some user
  | .replaceSchedule other _ _ | .explainConflict other _ _ | .findExisting other _ _ _ =>
      other = user
  | .rereadExecution executionId => db.HoldsRun user.id executionId
  | .findTasks execution => db.HoldsRun user.id execution.id
  | .recordDecision other approvalId _ _ => other = user ∧ db.HoldsApproval user.id approvalId
  | .rereadApproval approvalId _ => db.HoldsApproval user.id approvalId
  | .findDue _ | .advance _ _ => False

/-- A request of the user waits. -/
def Waiting.OfUser (user : User) (db : Db Val) : Waiting Val → Prop
  | .run other _ _ _ => other = user
  | .control execution _ => db.HoldsRun user.id execution.id
  | .resolve approvalId => db.HoldsApproval user.id approvalId
  | .slot _ => False

/-- A request of the user goes on. -/
def Next.OfUser (user : User) (db : Db Val) : Next Val → Prop
  | .operation first => first.OfUser user db
  | .call op waiting => op.OfUser user.id db ∧ waiting.OfUser user db
  | .answer _ => True

namespace Db.Agrees

variable {user : User} {left right : Db Val} (tenant : user.role ≠ .admin)
  (leftKeyed : left.Keyed) (rightKeyed : right.Keyed) (agrees : left.Agrees user.id right)
include tenant leftKeyed rightKeyed agrees

/-- The execution that the user has asked for. -/
theorem findExecution (id : ExecutionId) :
    Platform.findExecution left user id = Platform.findExecution right user id := by
  have scope : (fun execution : WorkflowExecution Val =>
      inScope (ownerScope user) execution.ownerId) =
        fun execution => execution.ownerId == user.id := by
    funext execution
    rw [ownerScope, if_neg tenant]
    rfl
  rw [Platform.findExecution, Platform.findExecution, scope,
    Collection.findById_filter leftKeyed.executions,
    Collection.findById_filter rightKeyed.executions, find_owned, find_owned, agrees.executions]

/-- The request for approval that the user has asked for. -/
theorem findApproval (id : ObjectId) :
    Platform.findApproval left user id = Platform.findApproval right user id := by
  have scope : (fun request : ApprovalRequest Val =>
      inScope (ownerScope user) request.ownerId) = fun request => request.ownerId == user.id := by
    funext request
    rw [ownerScope, if_neg tenant]
    rfl
  rw [Platform.findApproval, Platform.findApproval, scope,
    Collection.findById_filter leftKeyed.approvals,
    Collection.findById_filter rightKeyed.approvals, agrees.approvals]

end Db.Agrees

theorem holdsRun_of_findExecution {user : User} (tenant : user.role ≠ .admin) {db : Db Val}
    (keyed : db.Keyed) {id : ExecutionId} {execution : WorkflowExecution Val}
    (found : Platform.findExecution db user id = some execution) :
    db.HoldsRun user.id execution.id := by
  rcases Option.filter_eq_some_iff.mp found with ⟨isStored, isIn⟩
  intro other otherMem isId
  rw [Collection.value_eq_of_id_eq keyed.executions otherMem
    ((Collection.findById_eq_some keyed.executions).mp isStored).1 isId]
  exact (inScope_ownerScope tenant).mp isIn

theorem holdsApproval_of_findApproval {user : User} (tenant : user.role ≠ .admin) {db : Db Val}
    (keyed : db.Keyed) {id : ObjectId} {request : ApprovalRequest Val}
    (found : Platform.findApproval db user id = some request) :
    db.HoldsApproval user.id request.id := by
  rcases Option.filter_eq_some_iff.mp found with ⟨isStored, isIn⟩
  intro other otherMem isId
  rw [Collection.value_eq_of_id_eq keyed.approvals otherMem
    ((Collection.findById_eq_some keyed.approvals).mp isStored).1 isId]
  exact (inScope_ownerScope tenant).mp isIn

end WorkflowEngine
