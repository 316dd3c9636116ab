import WorkflowEngine.Services.Tenants

/-!
# The operations of one user

On two stores that show a user the same, every operation of a request of theirs goes on in
the same way, and what it goes on with is theirs again.
-/

namespace WorkflowEngine

open DocStore

variable {Val : Type}

namespace Platform

variable [Mixed Val] [ToJson Val] {deployment : Deployment}

/-- Stores that show a user the same, before an operation that draws new ids. -/
structure Views (env : Env) (user : User) (left right : Collection (WorkflowDocument Val))
    (leftDb rightDb : Db Val) : Prop where
  tenant : user.role ≠ .admin
  workflows : Definitions.Alike user.id left right left right
  db : Db.Peers env user.id leftDb rightDb
  leftFresh : env.objectId ∉ left.ids
  rightFresh : env.objectId ∉ right.ids

/-- From both stores the operation goes on in the same way. -/
def SameGoal (deployment : Deployment) (env : Env) (now : Time) (user : User)
    (left right : Collection (WorkflowDocument Val)) (leftDb rightDb : Db Val)
    (operation : Operation Val) : Prop :=
  ∀ leftSeen rightSeen, ∃ leftNext rightNext goal,
    perform deployment env now left leftDb leftSeen operation = (leftNext, goal) ∧
    perform deployment env now right rightDb rightSeen operation = (rightNext, goal) ∧
    Definitions.Alike user.id left right leftNext rightNext ∧
    goal.OfUser user leftDb ∧ goal.OfUser user rightDb

variable {env : Env} {now : Time} {user : User} {left right : Collection (WorkflowDocument Val)}
  {leftDb rightDb : Db Val} (views : Views env user left right leftDb rightDb)
include views

/-! ## Requests for workflows -/

theorem sameGoal_createWorkflow {body : DefinitionBody Val} :
    SameGoal deployment env now user left right leftDb rightDb
      (.first (.createWorkflow user body)) := by
  intro leftSeen rightSeen
  have same : Definitions.SameOnBoth user.id left right
      (createWorkflow user env.objectId body) :=
    Definitions.createWorkflow_same views.leftFresh views.rightFresh
  rcases same left right views.workflows with
    ⟨workflow, leftNext, rightNext, ranLeft, ranRight, later⟩ | ⟨thrown, threwLeft, threwRight⟩
  · refine ⟨leftNext, rightNext, .answer (.ok (.workflow workflow)), ?_, ?_, later, trivial,
      trivial⟩
    · simp only [perform, begin, ranLeft]
    · simp only [perform, begin, ranRight]
  · refine ⟨left, right, .answer (.error thrown), ?_, ?_, views.workflows, trivial, trivial⟩
    · simp only [perform, begin, threwLeft]
    · simp only [perform, begin, threwRight]

theorem sameGoal_listWorkflows {limit page : Nat} :
    SameGoal deployment env now user left right leftDb rightDb
      (.first (.listWorkflows user limit page)) := by
  intro leftSeen rightSeen
  have same : Definitions.SameOnBoth user.id left right
      (listWorkflows deployment.createdAt user limit page :
        Definitions Val (List (WorkflowDocument Val) × Nat)) :=
    Definitions.listWorkflows_same views.tenant
  rcases same left right views.workflows with
    ⟨⟨items, total⟩, leftNext, rightNext, ranLeft, ranRight, _⟩ | ⟨thrown, threwLeft, threwRight⟩
  · refine ⟨left, right, .answer (.ok (.workflows items page limit total)), ?_, ?_, views.workflows,
      trivial, trivial⟩
    · simp only [perform, begin, ranLeft]
    · simp only [perform, begin, ranRight]
  · refine ⟨left, right, .answer (.error thrown), ?_, ?_, views.workflows, trivial, trivial⟩
    · simp only [perform, begin, threwLeft]
    · simp only [perform, begin, threwRight]

omit [ToJson Val] in
/-- What both stores show of one workflow. -/
theorem getWorkflow_cases (id : ObjectId) :
    (∃ workflow leftNext rightNext, (getWorkflow user id).run left = .ok (workflow, leftNext) ∧
        (getWorkflow user id).run right = .ok (workflow, rightNext) ∧
        workflow.ownerId = user.id) ∨
      ∃ thrown, (getWorkflow user id).run left = .error thrown ∧
        (getWorkflow user id).run right = .error thrown := by
  rcases Definitions.getWorkflow_same views.tenant left right views.workflows with
    ⟨workflow, leftNext, rightNext, ranLeft, ranRight, _, owner⟩ | threw
  · exact .inl ⟨workflow, leftNext, rightNext, ranLeft, ranRight, owner⟩
  · exact .inr threw

theorem sameGoal_getWorkflow {id : ObjectId} :
    SameGoal deployment env now user left right leftDb rightDb
      (.first (.getWorkflow user id)) := by
  intro leftSeen rightSeen
  rcases getWorkflow_cases views id with
    ⟨workflow, leftNext, rightNext, ranLeft, ranRight, _⟩ | ⟨thrown, threwLeft, threwRight⟩
  · refine ⟨left, right, .answer (.ok (.workflow workflow)), ?_, ?_, views.workflows, trivial, trivial⟩
    · simp only [perform, begin, ranLeft]
    · simp only [perform, begin, ranRight]
  · refine ⟨left, right, .answer (.error thrown), ?_, ?_, views.workflows, trivial, trivial⟩
    · simp only [perform, begin, threwLeft]
    · simp only [perform, begin, threwRight]

theorem sameGoal_setSchedule {id : ObjectId} {body : ScheduleBody Val} :
    SameGoal deployment env now user left right leftDb rightDb
      (.first (.setSchedule user id body)) := by
  intro leftSeen rightSeen
  cases check : assertValidCron deployment.cron body.cron body.timezone with
  | ok _ =>
      refine ⟨left, right, .operation
        (.replaceSchedule user id (newSchedule deployment.cron now body)), ?_, ?_, views.workflows, rfl, rfl⟩
      · simp only [perform, begin, check]
      · simp only [perform, begin, check]
  | error thrown =>
      refine ⟨left, right, .answer (.error thrown), ?_, ?_, views.workflows, trivial, trivial⟩
      · simp only [perform, begin, check]
      · simp only [perform, begin, check]

theorem sameGoal_clearSchedule {id : ObjectId} :
    SameGoal deployment env now user left right leftDb rightDb
      (.first (.clearSchedule user id)) := by
  intro leftSeen rightSeen
  have same : Definitions.SameOnBoth user.id left right
      (replaceSchedule user id none : Definitions Val (WorkflowDocument Val)) :=
    Definitions.replaceSchedule_same views.tenant
  rcases same left right views.workflows with
    ⟨workflow, leftNext, rightNext, ranLeft, ranRight, later⟩ | ⟨thrown, threwLeft, threwRight⟩
  · refine ⟨leftNext, rightNext, .answer (.ok (.workflow workflow)), ?_, ?_, later, trivial,
      trivial⟩
    · simp only [perform, begin, ranLeft]
    · simp only [perform, begin, ranRight]
  · refine ⟨left, right, .answer (.error thrown), ?_, ?_, views.workflows, trivial, trivial⟩
    · simp only [perform, begin, threwLeft]
    · simp only [perform, begin, threwRight]

theorem sameGoal_replaceSchedule {id : ObjectId} {schedule : WorkflowSchedule Val} :
    SameGoal deployment env now user left right leftDb rightDb
      (.replaceSchedule user id schedule) := by
  intro leftSeen rightSeen
  have same : Definitions.SameOnBoth user.id left right
      (replaceSchedule user id (some schedule)) :=
    Definitions.replaceSchedule_same views.tenant
  rcases same left right views.workflows with
    ⟨workflow, leftNext, rightNext, ranLeft, ranRight, later⟩ | ⟨thrown, threwLeft, threwRight⟩
  · refine ⟨leftNext, rightNext, .answer (.ok (.workflow workflow)), ?_, ?_, later, trivial,
      trivial⟩
    · simp only [perform, ranLeft]
    · simp only [perform, ranRight]
  · refine ⟨left, right, .answer (.error thrown), ?_, ?_, views.workflows, trivial, trivial⟩
    · simp only [perform, threwLeft]
    · simp only [perform, threwRight]

theorem sameGoal_updateWorkflow {id : ObjectId} {version : Nat} {body : DefinitionBody Val} :
    SameGoal deployment env now user left right leftDb rightDb
      (.first (.updateWorkflow user id version body)) := by
  intro leftSeen rightSeen
  have same : Definitions.SameOnBoth user.id left right (updateWorkflow user id version body) :=
    Definitions.updateWorkflow_same views.tenant
  rcases same left right views.workflows with
    ⟨found, leftNext, rightNext, ranLeft, ranRight, later⟩ | ⟨thrown, threwLeft, threwRight⟩
  · cases found with
    | some workflow =>
        refine ⟨leftNext, rightNext, .answer (.ok (.workflow workflow)), ?_, ?_, later, trivial,
          trivial⟩
        · simp only [perform, begin, ranLeft]
        · simp only [perform, begin, ranRight]
    | none =>
        refine ⟨left, right, .operation (.explainConflict user id version), ?_, ?_, views.workflows, rfl,
          rfl⟩
        · simp only [perform, begin, ranLeft]
        · simp only [perform, begin, ranRight]
  · refine ⟨left, right, .answer (.error thrown), ?_, ?_, views.workflows, trivial, trivial⟩
    · simp only [perform, begin, threwLeft]
    · simp only [perform, begin, threwRight]

theorem sameGoal_explainConflict {id : ObjectId} {version : Nat} :
    SameGoal deployment env now user left right leftDb rightDb
      (.explainConflict user id version) := by
  intro leftSeen rightSeen
  have same : Definitions.SameOnBoth user.id left right
      (explainConflict user id version : Definitions Val (Answer Val)) :=
    Definitions.explainConflict_same views.tenant
  rcases same left right views.workflows with
    ⟨answer, leftNext, rightNext, ranLeft, ranRight, _⟩ | ⟨thrown, threwLeft, threwRight⟩
  · refine ⟨left, right, .answer (.ok answer), ?_, ?_, views.workflows, trivial, trivial⟩
    · simp only [perform, ranLeft]
    · simp only [perform, ranRight]
  · refine ⟨left, right, .answer (.error thrown), ?_, ?_, views.workflows, trivial, trivial⟩
    · simp only [perform, threwLeft]
    · simp only [perform, threwRight]

/-! ## Requests for runs -/

theorem sameGoal_run {workflowId : ObjectId} {input : Val} {key : Option IdempotencyKey} :
    SameGoal deployment env now user left right leftDb rightDb
      (.first (.run user workflowId input key)) := by
  intro leftSeen rightSeen
  rcases getWorkflow_cases views workflowId with
    ⟨workflow, leftNext, rightNext, ranLeft, ranRight, owner⟩ | ⟨thrown, threwLeft, threwRight⟩
  · refine ⟨left, right, .call
      (.startExecution (runParams deployment user workflow.toWorkflow input key))
      (.run user workflowId input key), ?_, ?_, views.workflows, ⟨⟨owner, rfl⟩, rfl⟩, ⟨⟨owner, rfl⟩, rfl⟩⟩
    · simp only [perform, begin, ranLeft]
    · simp only [perform, begin, ranRight]
  · refine ⟨left, right, .answer (.error thrown), ?_, ?_, views.workflows, trivial, trivial⟩
    · simp only [perform, begin, threwLeft]
    · simp only [perform, begin, threwRight]

theorem sameGoal_findExisting {workflowId : ObjectId} {input : Val} {key : IdempotencyKey} :
    SameGoal deployment env now user left right leftDb rightDb
      (.findExisting user workflowId input key) := by
  intro leftSeen rightSeen
  have concerns : ∀ execution : WorkflowExecution Val,
      (execution.triggeredBy == some user.id && execution.idempotencyKey == some key.text) = true →
        execution.concerns user.id = true :=
    fun execution matched => Bool.or_eq_true_iff.mpr (.inr (Bool.and_eq_true_iff.mp matched).1)
  have same := views.db.twins.executions.find (fun execution _ => concerns execution)
    fun execution _ => concerns execution
  cases found : leftDb.executions.find fun execution =>
      execution.triggeredBy == some user.id && execution.idempotencyKey == some key.text with
  | nil =>
      refine ⟨left, right, .answer (.error (.engine .typeError)), ?_, ?_, views.workflows, trivial, trivial⟩
      · simp only [perform, found]
      · simp only [perform, ← same, found]
  | cons existing rest =>
      refine ⟨left, right, .answer
        (if existing.requestHash = requestHash deployment workflowId input (some key) then
          .ok (.ran existing true)
        else
          .error keyReused), ?_, ?_, views.workflows, trivial, trivial⟩
      · simp only [perform, found]
        split <;> rfl
      · simp only [perform, ← same, found]
        split <;> rfl

omit [ToJson Val] in
theorem findExecution_cases (id : ExecutionId) :
    (∃ execution, findExecution leftDb user id = some execution ∧
        findExecution rightDb user id = some execution ∧
        leftDb.HoldsRun user.id execution.id ∧ rightDb.HoldsRun user.id execution.id) ∨
      findExecution leftDb user id = none ∧ findExecution rightDb user id = none := by
  have leftKeyed := views.db.leftInv.keyed
  have rightKeyed := views.db.rightInv.keyed
  have same := views.db.agrees.findExecution views.tenant leftKeyed rightKeyed id
  cases found : findExecution leftDb user id with
  | none => exact .inr ⟨rfl, same.symm.trans found⟩
  | some execution =>
      rw [found] at same
      exact .inl ⟨execution, rfl, same.symm, holdsRun_of_findExecution views.tenant leftKeyed found,
        holdsRun_of_findExecution views.tenant rightKeyed same.symm⟩

theorem sameGoal_control {id : ExecutionId} {action : ControlAction} :
    SameGoal deployment env now user left right leftDb rightDb
      (.first (.control user id action)) := by
  intro leftSeen rightSeen
  rcases findExecution_cases views id with
    ⟨execution, leftFound, rightFound, leftHolds, rightHolds⟩ | ⟨leftNone, rightNone⟩
  · have ofUser : ∀ {db : Db Val}, db.HoldsRun user.id execution.id →
        (controlOp execution.id action : Op Val).OfUser user.id db := by
      intro db holds
      cases action with
      | pause | resume | cancel => exact holds
    refine ⟨left, right, .call (controlOp execution.id action) (.control execution action), ?_, ?_,
      views.workflows, ⟨ofUser leftHolds, leftHolds⟩, ⟨ofUser rightHolds, rightHolds⟩⟩
    · simp only [perform, begin, leftFound]
    · simp only [perform, begin, rightFound]
  · refine ⟨left, right, .answer (.error executionNotFound), ?_, ?_, views.workflows, trivial, trivial⟩
    · simp only [perform, begin, leftNone]
    · simp only [perform, begin, rightNone]

theorem sameGoal_rereadExecution {id : ExecutionId} (leftHolds : leftDb.HoldsRun user.id id)
    (rightHolds : rightDb.HoldsRun user.id id) :
    SameGoal deployment env now user left right leftDb rightDb (.rereadExecution id) := by
  intro leftSeen rightSeen
  have concerns : ∀ execution : WorkflowExecution Val, execution.ownerId = user.id →
      execution.concerns user.id = true :=
    fun execution isOwner => Bool.or_eq_true_iff.mpr (.inl (beq_iff_eq.mpr isOwner))
  have same : leftDb.executions.findById id = rightDb.executions.findById id := by
    apply views.db.twins.executions.findById
    · exact fun execution membership isId =>
        concerns execution (leftHolds execution membership isId)
    · exact fun execution membership isId =>
        concerns execution (rightHolds execution membership isId)
  refine ⟨left, right, .answer (.ok (.execution (leftDb.executions.findById id))), rfl, ?_, views.workflows,
    trivial, trivial⟩
  simp only [perform, same]

theorem sameGoal_getExecution {id : ExecutionId} :
    SameGoal deployment env now user left right leftDb rightDb
      (.first (.getExecution user id)) := by
  intro leftSeen rightSeen
  rcases findExecution_cases views id with
    ⟨execution, leftFound, rightFound, leftHolds, rightHolds⟩ | ⟨leftNone, rightNone⟩
  · refine ⟨left, right, .operation (.findTasks execution), ?_, ?_, views.workflows, leftHolds, rightHolds⟩
    · simp only [perform, begin, leftFound]
    · simp only [perform, begin, rightFound]
  · refine ⟨left, right, .answer (.error executionNotFound), ?_, ?_, views.workflows, trivial, trivial⟩
    · simp only [perform, begin, leftNone]
    · simp only [perform, begin, rightNone]

theorem sameGoal_findTasks {execution : WorkflowExecution Val}
    (leftHolds : leftDb.HoldsRun user.id execution.id)
    (rightHolds : rightDb.HoldsRun user.id execution.id) :
    SameGoal deployment env now user left right leftDb rightDb (.findTasks execution) := by
  intro leftSeen rightSeen
  have own := views.db.bothOwn leftHolds rightHolds
  have same : (leftDb.tasks.find fun task => decide (task.executionId = execution.id)) =
      rightDb.tasks.find fun task => decide (task.executionId = execution.id) := by
    apply views.db.twins.tasks.find
    · exact fun task membership home =>
        beq_iff_eq.mpr (own.left.tasks task membership (of_decide_eq_true home))
    · exact fun task membership home =>
        beq_iff_eq.mpr (own.right.tasks task membership (of_decide_eq_true home))
  refine ⟨left, right, .answer (.ok (.tasks execution
    (leftDb.tasks.find fun task => decide (task.executionId = execution.id)))), rfl, ?_, views.workflows,
    trivial, trivial⟩
  simp only [perform, same]

/-! ## Requests for approvals -/

theorem sameGoal_listApprovals {status : Option ApprovalStatus} :
    SameGoal deployment env now user left right leftDb rightDb
      (.first (.listApprovals user status)) := by
  intro leftSeen rightSeen
  have owned : ∀ request : ApprovalRequest Val,
      (inScope (ownerScope user) request.ownerId && status.all fun status =>
        decide (request.status = status)) = true → (request.ownerId == user.id) = true :=
    fun request matched => beq_iff_eq.mpr
      ((inScope_ownerScope views.tenant).mp (Bool.and_eq_true_iff.mp matched).1)
  have same := views.db.twins.approvals.find (fun request _ => owned request)
    fun request _ => owned request
  simp only [perform, begin, same, require]
  split
  · exact ⟨left, right, _, rfl, rfl, views.workflows, trivial, trivial⟩
  · exact ⟨left, right, _, rfl, rfl, views.workflows, trivial, trivial⟩

omit [ToJson Val] in
theorem findApproval_cases (id : ObjectId) :
    (∃ request, findApproval leftDb user id = some request ∧
        findApproval rightDb user id = some request ∧
        leftDb.HoldsApproval user.id request.id ∧ rightDb.HoldsApproval user.id request.id) ∨
      findApproval leftDb user id = none ∧ findApproval rightDb user id = none := by
  have leftKeyed := views.db.leftInv.keyed
  have rightKeyed := views.db.rightInv.keyed
  have same := views.db.agrees.findApproval views.tenant leftKeyed rightKeyed id
  cases found : findApproval leftDb user id with
  | none => exact .inr ⟨rfl, same.symm.trans found⟩
  | some request =>
      rw [found] at same
      exact .inl ⟨request, rfl, same.symm, holdsApproval_of_findApproval views.tenant leftKeyed found,
        holdsApproval_of_findApproval views.tenant rightKeyed same.symm⟩

theorem sameGoal_getApproval {id : ObjectId} :
    SameGoal deployment env now user left right leftDb rightDb
      (.first (.getApproval user id)) := by
  intro leftSeen rightSeen
  rcases findApproval_cases views id with
    ⟨request, leftFound, rightFound, _, _⟩ | ⟨leftNone, rightNone⟩
  · simp only [perform, begin, leftFound, rightFound, require]
    split
    · exact ⟨left, right, _, rfl, rfl, views.workflows, trivial, trivial⟩
    · exact ⟨left, right, _, rfl, rfl, views.workflows, trivial, trivial⟩
  · simp only [perform, begin, leftNone, rightNone, require]
    split
    · exact ⟨left, right, _, rfl, rfl, views.workflows, trivial, trivial⟩
    · exact ⟨left, right, _, rfl, rfl, views.workflows, trivial, trivial⟩

theorem sameGoal_resolve {id : ObjectId} {approve : Bool} {comment : Option String} :
    SameGoal deployment env now user left right leftDb rightDb
      (.first (.resolve user id approve comment)) := by
  intro leftSeen rightSeen
  rcases findApproval_cases views id with
    ⟨request, leftFound, rightFound, leftHolds, rightHolds⟩ | ⟨leftNone, rightNone⟩
  · simp only [perform, begin, leftFound, rightFound, require]
    split
    · split
      · exact ⟨left, right, .operation (.recordDecision user request.id approve comment), rfl, rfl,
          views.workflows, ⟨rfl, leftHolds⟩, ⟨rfl, rightHolds⟩⟩
      · exact ⟨left, right, _, rfl, rfl, views.workflows, trivial, trivial⟩
    · exact ⟨left, right, _, rfl, rfl, views.workflows, trivial, trivial⟩
  · simp only [perform, begin, leftNone, rightNone, require]
    split
    · exact ⟨left, right, _, rfl, rfl, views.workflows, trivial, trivial⟩
    · exact ⟨left, right, _, rfl, rfl, views.workflows, trivial, trivial⟩

theorem sameGoal_rereadApproval {id : ObjectId} {lost : Bool}
    (leftHolds : leftDb.HoldsApproval user.id id) (rightHolds : rightDb.HoldsApproval user.id id) :
    SameGoal deployment env now user left right leftDb rightDb (.rereadApproval id lost) := by
  intro leftSeen rightSeen
  have same : leftDb.approvals.findById id = rightDb.approvals.findById id := by
    apply views.db.twins.approvals.findById
    · exact fun request membership isId => beq_iff_eq.mpr (leftHolds request membership isId)
    · exact fun request membership isId => beq_iff_eq.mpr (rightHolds request membership isId)
  simp only [perform, same]
  cases rightDb.approvals.findById id with
  | none => cases lost <;> exact ⟨left, right, _, rfl, rfl, views.workflows, trivial, trivial⟩
  | some request => cases lost <;> exact ⟨left, right, _, rfl, rfl, views.workflows, trivial, trivial⟩

/-! ## All operations -/

/-- An operation of the user goes on in the same way. -/
theorem sameGoal {operation : Operation Val} (leftOf : operation.OfUser user leftDb)
    (rightOf : operation.OfUser user rightDb) :
    SameGoal deployment env now user left right leftDb rightDb operation := by
  cases operation with
  | first request =>
      cases request with
      | createWorkflow =>
          cases leftOf
          exact sameGoal_createWorkflow views
      | listWorkflows =>
          cases leftOf
          exact sameGoal_listWorkflows views
      | getWorkflow =>
          cases leftOf
          exact sameGoal_getWorkflow views
      | setSchedule =>
          cases leftOf
          exact sameGoal_setSchedule views
      | clearSchedule =>
          cases leftOf
          exact sameGoal_clearSchedule views
      | updateWorkflow =>
          cases leftOf
          exact sameGoal_updateWorkflow views
      | run =>
          cases leftOf
          exact sameGoal_run views
      | control =>
          cases leftOf
          exact sameGoal_control views
      | getExecution =>
          cases leftOf
          exact sameGoal_getExecution views
      | listApprovals =>
          cases leftOf
          exact sameGoal_listApprovals views
      | getApproval =>
          cases leftOf
          exact sameGoal_getApproval views
      | resolve =>
          cases leftOf
          exact sameGoal_resolve views
      | runDue => cases leftOf
  | replaceSchedule =>
      cases leftOf
      exact sameGoal_replaceSchedule views
  | explainConflict =>
      cases leftOf
      exact sameGoal_explainConflict views
  | findExisting =>
      cases leftOf
      exact sameGoal_findExisting views
  | rereadExecution => exact sameGoal_rereadExecution views leftOf rightOf
  | findTasks => exact sameGoal_findTasks views leftOf rightOf
  | recordDecision other approvalId approve comment =>
      rcases leftOf with ⟨rfl, leftHolds⟩
      rcases rightOf with ⟨_, rightHolds⟩
      exact fun _ _ => ⟨left, right, _, rfl, rfl, views.workflows, ⟨leftHolds, leftHolds⟩,
        ⟨rightHolds, rightHolds⟩⟩
  | rereadApproval => exact sameGoal_rereadApproval views leftOf rightOf
  | findDue | advance => cases leftOf

end Platform

end WorkflowEngine
