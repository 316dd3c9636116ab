import WorkflowEngine.Foundations.Lockstep
import WorkflowEngine.Workflow.Owners

/-!
# The transactions of one user

The transactions that a user's requests ask for, on two databases that show the user the
same documents.  They do the same on both, and neither changes a document of another owner.
-/

namespace WorkflowEngine

open DocStore Session

variable {Val : Type}

/-- The user owns the execution or has triggered it. -/
def WorkflowExecution.concerns (user : UserId) (execution : WorkflowExecution Val) : Bool :=
  execution.ownerId == user || execution.triggeredBy == some user

namespace Db

/-- The databases show the same to a user. -/
structure Agrees (user : UserId) (left right : Db Val) : Prop where
  executions : left.executions.find (fun execution => execution.concerns user) =
    right.executions.find fun execution => execution.concerns user
  tasks : left.tasks.find (fun task => task.ownerId == user) =
    right.tasks.find fun task => task.ownerId == user
  approvals : left.approvals.find (fun request => request.ownerId == user) =
    right.approvals.find fun request => request.ownerId == user

/-- The documents of other owners are as they were. -/
structure Spares (user : UserId) (old db : Db Val) : Prop where
  executions : db.executions.find (fun execution => execution.ownerId != user) =
    old.executions.find fun execution => execution.ownerId != user
  tasks : db.tasks.find (fun task => task.ownerId != user) =
    old.tasks.find fun task => task.ownerId != user
  approvals : db.approvals.find (fun request => request.ownerId != user) =
    old.approvals.find fun request => request.ownerId != user

/-- The ids that are drawn next for events are new. -/
def Draws (env : Env) (db : Db Val) : Prop :=
  Function.Injective env.randomUUID ∧
    ∀ drawn, db.outbox.length ≤ drawn → env.randomUUID drawn ∉ db.outbox.ids

/-- Later versions of two databases that show the same to a user. -/
structure Twins (env : Env) (user : UserId) (leftOld rightOld left right : Db Val) : Prop where
  executions : Collection.Alike (fun execution => execution.concerns user)
    (fun execution => execution.ownerId != user) leftOld.executions rightOld.executions
      left.executions right.executions
  tasks : Collection.Alike (fun task => task.ownerId == user) (fun task => task.ownerId != user)
    leftOld.tasks rightOld.tasks left.tasks right.tasks
  approvals : Collection.Alike (fun request => request.ownerId == user)
    (fun request => request.ownerId != user) leftOld.approvals rightOld.approvals
      left.approvals right.approvals
  leftDraws : left.Draws env
  rightDraws : right.Draws env

theorem find_owned {executions : Collection (WorkflowExecution Val)} {user : UserId} :
    executions.find (fun execution => execution.ownerId == user) =
      (executions.find fun execution => execution.concerns user).filter
        fun execution => execution.ownerId == user :=
  Collection.find_of_within fun _ _ owned => Bool.or_eq_true_iff.mpr (.inl owned)

namespace Spares

variable {user : UserId} {first second third : Db Val}

theorem refl (db : Db Val) : db.Spares user db := ⟨rfl, rfl, rfl⟩

theorem trans (before : first.Spares user second) (after : second.Spares user third) :
    first.Spares user third :=
  ⟨after.executions.trans before.executions, after.tasks.trans before.tasks,
    after.approvals.trans before.approvals⟩

end Spares

namespace Twins

variable {env : Env} {user : UserId} {leftOld rightOld left right : Db Val}

theorem start (leftKeyed : left.Keyed) (rightKeyed : right.Keyed) (agrees : left.Agrees user right)
    (leftDraws : left.Draws env) (rightDraws : right.Draws env) :
    Twins env user left right left right :=
  { executions := ⟨leftKeyed.executions, rightKeyed.executions, agrees.executions, rfl, rfl⟩
    tasks := ⟨leftKeyed.tasks, rightKeyed.tasks, agrees.tasks, rfl, rfl⟩
    approvals := ⟨leftKeyed.approvals, rightKeyed.approvals, agrees.approvals, rfl, rfl⟩
    leftDraws
    rightDraws }

theorem agrees (twins : Twins env user leftOld rightOld left right) : left.Agrees user right :=
  ⟨twins.executions.agree, twins.tasks.agree, twins.approvals.agree⟩

theorem leftSpares (twins : Twins env user leftOld rightOld left right) :
    Spares user leftOld left :=
  ⟨twins.executions.leftSpares, twins.tasks.leftSpares, twins.approvals.leftSpares⟩

theorem rightSpares (twins : Twins env user leftOld rightOld left right) :
    Spares user rightOld right :=
  ⟨twins.executions.rightSpares, twins.tasks.rightSpares, twins.approvals.rightSpares⟩

end Twins

end Db

theorem owner_of_not_spared {ownerId user : UserId} (notSpared : (ownerId != user) = false) :
    (ownerId == user) = true := by
  rw [beq_iff_eq]
  simpa using notSpared

theorem not_spared_of_owner {ownerId user : UserId} (isOwner : ownerId = user) :
    (ownerId != user) = false := by
  rw [isOwner, bne_self_eq_false]

section Operations

variable {env : Env} {user : UserId} {leftOld rightOld : Db Val}

instance : Tracks (Db.Twins env user leftOld rightOld) (WorkflowExecution Val)
    (fun execution => execution.concerns user) (fun execution => execution.ownerId != user)
    leftOld.executions rightOld.executions where
  covers _ notSpared := Bool.or_eq_true_iff.mpr (.inl (owner_of_not_spared notSpared))
  alike twins := twins.executions
  set twins alike := { twins with executions := alike }

instance : Tracks (Db.Twins env user leftOld rightOld) (Task Val)
    (fun task => task.ownerId == user) (fun task => task.ownerId != user)
    leftOld.tasks rightOld.tasks where
  covers _ notSpared := owner_of_not_spared notSpared
  alike twins := twins.tasks
  set twins alike := { twins with tasks := alike }

instance : Tracks (Db.Twins env user leftOld rightOld) (ApprovalRequest Val)
    (fun request => request.ownerId == user) (fun request => request.ownerId != user)
    leftOld.approvals rightOld.approvals where
  covers _ notSpared := owner_of_not_spared notSpared
  alike twins := twins.approvals
  set twins alike := { twins with approvals := alike }

/-- The session does the same on both databases. -/
abbrev SameOnBoth {α : Type} (env : Env) (user : UserId) (leftOld rightOld : Db Val)
    (session : Txn Val α) : Prop :=
  Lockstep (Db.Twins env user leftOld rightOld) (fun _ => Db.Twins env user leftOld rightOld)
    session

theorem assertTransition_same {machine : Machine} {source target : machine.Status} :
    SameOnBoth env user leftOld rightOld (assertTransition machine source target) :=
  .ite (fun _ => .stay) fun _ => .throw

/-- An event is inserted, whatever the outbox holds. -/
theorem Db.Draws.emit {db : Db Val} (draws : db.Draws env) {type : EventType}
    {executionId : ExecutionId} {payload : EventPayload} :
    ∃ row, (WorkflowEngine.emit env type executionId payload).run db =
        .ok ((), { db with outbox := db.outbox ++ [⟨0, row⟩] }) ∧
      Db.Draws env { db with outbox := db.outbox ++ [⟨0, row⟩] } := by
  refine ⟨_, bind_eq_ok.mpr ⟨db, db, rfl, create_eq_ok.mpr ⟨?_, rfl⟩⟩, draws.1, ?_⟩
  · exact Db.unique_event (draws.2 _ (Nat.le_refl _))
  · intro drawn longer present
    rw [List.length_append] at longer
    rw [Collection.ids, List.map_append, List.mem_append] at present
    rcases present with old | new
    · exact draws.2 drawn (Nat.le_of_succ_le longer) old
    · have same := draws.1 (List.mem_singleton.mp new)
      exact absurd longer (by rw [same]; exact Nat.not_succ_le_self _)

theorem emit_same {type : EventType} {executionId : ExecutionId} {payload : EventPayload} :
    SameOnBoth env user leftOld rightOld (emit env type executionId payload) := by
  intro left right twins
  rcases twins.leftDraws.emit with ⟨leftRow, ranLeft, leftDraws⟩
  rcases twins.rightDraws.emit with ⟨rightRow, ranRight, rightDraws⟩
  exact .inl ⟨(), _, _, ranLeft, ranRight,
    { twins with leftDraws := leftDraws, rightDraws := rightDraws }⟩

/-! ## Transactions on one execution -/

/-- Both databases hold the execution for the user, if they hold it at all. -/
structure BothOwn (user : UserId) (executionId : ExecutionId) (leftOld rightOld : Db Val) :
    Prop where
  left : leftOld.Owns user executionId
  right : rightOld.Owns user executionId

variable {executionId : ExecutionId}

namespace BothOwn

variable (own : BothOwn user executionId leftOld rightOld)
include own

theorem executions : Lockstep.Owned (fun execution => execution.ownerId != user)
    leftOld.executions rightOld.executions fun execution => execution.id = executionId :=
  ⟨fun execution membership isId =>
      not_spared_of_owner (own.left.executions execution membership isId),
    fun execution membership isId =>
      not_spared_of_owner (own.right.executions execution membership isId)⟩

theorem tasks : Lockstep.Owned (fun task => task.ownerId != user)
    leftOld.tasks rightOld.tasks fun task => task.executionId = executionId :=
  ⟨fun task membership home => not_spared_of_owner (own.left.tasks task membership home),
    fun task membership home => not_spared_of_owner (own.right.tasks task membership home)⟩

theorem approvals : Lockstep.Owned (fun request => request.ownerId != user)
    leftOld.approvals rightOld.approvals fun request => request.executionId = executionId :=
  ⟨fun request membership home => not_spared_of_owner (own.left.approvals request membership home),
    fun request membership home =>
      not_spared_of_owner (own.right.approvals request membership home)⟩

theorem transitionTask_same {taskId : TaskId} {source target : TaskStatus}
    {update : Update (Task Val)} (home : taskId.executionId = executionId)
    (keepsOwner : ∀ task, (update.set task).ownerId = task.ownerId) :
    SameOnBoth env user leftOld rightOld (transitionTask taskId source target update) := by
  apply Lockstep.bind assertTransition_same
  intro _
  apply Lockstep.bind
  · apply Lockstep.updateOne own.tasks
    · intro task isId _
      exact (congrArg TaskId.executionId isId).trans home
    · intro task
      exact congrArg (· == user) (keepsOwner task)
    · intro task
      exact congrArg (· != user) (keepsOwner task)
  · intro _
    exact .stay

theorem releaseChildren_same {task : Task Val} {execution : WorkflowExecution Val}
    {finishedAt : Time} (home : task.executionId = executionId) :
    SameOnBoth env user leftOld rightOld (releaseChildren task execution finishedAt) := by
  apply Lockstep.ite
  · intro _
    apply Lockstep.bind
    · apply Lockstep.updateMany own.tasks
      · intro child matched
        exact (beq_iff_eq.mp (Bool.and_eq_true_iff.mp matched).1).trans home
      · exact fun _ => rfl
      · exact fun _ => rfl
    · intro _
      apply Lockstep.ite
      · intro _
        apply Lockstep.bind assertTransition_same
        intro _
        apply Lockstep.bind
        · apply Lockstep.updateMany own.tasks
          · intro child matched
            simp only [promoteChildren, Bool.and_eq_true, beq_iff_eq] at matched
            exact matched.1.1.1.trans home
          · exact fun _ => rfl
          · exact fun _ => rfl
        · intro _
          exact .stay
      · intro _
        exact .stay
  · intro _
    exact .stay

theorem moveExecution_same {source target : ExecutionStatus}
    {set : WorkflowExecution Val → WorkflowExecution Val}
    {id_set : ∀ execution, (set execution).id = execution.id}
    (keepsShape : ∀ execution, (set execution).shape = execution.shape) :
    SameOnBoth env user leftOld rightOld
      (Session.updateOne executionId (moveExecution source target set id_set)) := by
  have owner : ∀ execution, (set execution).ownerId = execution.ownerId :=
    fun execution => congrArg ExecutionShape.ownerId (keepsShape execution)
  have trigger : ∀ execution, (set execution).triggeredBy = execution.triggeredBy :=
    fun execution => congrArg ExecutionShape.triggeredBy (keepsShape execution)
  apply Lockstep.updateOne own.executions
  · exact fun _ isId _ => isId
  · intro execution
    show ((set execution).ownerId == user || (set execution).triggeredBy == some user) = _
    rw [owner, trigger]
    rfl
  · intro execution
    exact congrArg (· != user) (owner execution)

theorem completeRun_same {execution : WorkflowExecution Val} {finishedAt : Time}
    (isId : execution.id = executionId) :
    SameOnBoth env user leftOld rightOld (completeRun env execution finishedAt) := by
  apply Lockstep.ite
  · intro _
    apply Lockstep.bind assertTransition_same
    intro _
    apply Lockstep.bind
    · rw [isId]
      exact own.moveExecution_same fun _ => rfl
    · intro _
      exact emit_same
  · intro _
    exact .stay

/-- The counter of the run goes down. -/
theorem decrementPending_same {Result : Type}
    {next : Option (WorkflowExecution Val) → Txn Val Result}
    (whenNone : SameOnBoth env user leftOld rightOld (next none))
    (whenSome : ∀ execution, execution.id = executionId →
      SameOnBoth env user leftOld rightOld (next (some execution))) :
    SameOnBoth env user leftOld rightOld
      (Session.findOneAndUpdate executionId decrementPending >>= next) := by
  apply Lockstep.bindOption
  · apply Lockstep.findOneAndUpdate own.executions
    · exact fun _ isId _ => isId
    · exact fun _ => rfl
    · exact fun _ => rfl
  · exact whenNone
  · exact whenSome

theorem afterTaskSucceeded_same {task : Task Val} {finishedAt : Time}
    (home : task.executionId = executionId) :
    SameOnBoth env user leftOld rightOld (afterTaskSucceeded env task finishedAt) := by
  unfold afterTaskSucceeded
  rw [home]
  apply own.decrementPending_same
  · exact .throw
  · intro execution isId
    apply Lockstep.bind (own.releaseChildren_same home)
    intro _
    apply Lockstep.bind (own.completeRun_same isId)
    intro _
    exact emit_same

theorem failRun_same {task : Task Val} {updated : WorkflowExecution Val}
    {outcome : FailureOutcome} {message : String} {finishedAt : Time}
    (home : task.executionId = executionId) (isId : updated.id = executionId) :
    SameOnBoth env user leftOld rightOld
      (failRun env task updated outcome message finishedAt) := by
  apply Lockstep.ite
  · intro _
    apply Lockstep.bind
    · apply Lockstep.updateMany own.tasks
      · intro other matched
        exact (beq_iff_eq.mp (Bool.and_eq_true_iff.mp matched).1).trans home
      · exact fun _ => rfl
      · exact fun _ => rfl
    · intro _
      apply Lockstep.bind assertTransition_same
      intro _
      apply Lockstep.bind
      · rw [isId]
        exact own.moveExecution_same fun _ => rfl
      · intro _
        exact emit_same
  · intro _
    exact .stay

theorem afterTaskFailedForGood_same {task : Task Val} {outcome : FailureOutcome}
    {message : String} {retryable : Bool} {finishedAt : Time}
    (home : task.executionId = executionId) :
    SameOnBoth env user leftOld rightOld
      (afterTaskFailedForGood env task outcome message retryable finishedAt) := by
  unfold afterTaskFailedForGood
  rw [home]
  apply own.decrementPending_same
  · exact .throw
  · intro execution isId
    apply Lockstep.bind (own.failRun_same home isId)
    intro _
    exact emit_same

/-! ## Controlling a run -/

theorem pauseExecution_same :
    SameOnBoth env user leftOld rightOld (pauseExecution env executionId) := by
  apply Lockstep.bind assertTransition_same
  intro _
  apply Lockstep.bind (own.moveExecution_same fun _ => rfl)
  intro _
  apply Lockstep.ite
  · intro _
    exact .stay
  · intro _
    exact Lockstep.bind emit_same fun _ => .stay

theorem resumeExecution_same :
    SameOnBoth env user leftOld rightOld (resumeExecution env executionId) := by
  apply Lockstep.bind assertTransition_same
  intro _
  apply Lockstep.bindOption
  · apply Lockstep.findOneAndUpdate own.executions
    · exact fun _ isId _ => isId
    · exact fun _ => rfl
    · exact fun _ => rfl
  · exact .stay
  · intro execution _
    apply Lockstep.bind emit_same
    intro _
    apply Lockstep.bind
    · apply Lockstep.updateMany own.tasks
      · intro task matched
        simp only [promotePending, Bool.and_eq_true, beq_iff_eq] at matched
        exact matched.1.1
      · exact fun _ => rfl
      · exact fun _ => rfl
    · intro _
      apply Lockstep.ite
      · intro _
        apply Lockstep.bind
        · exact own.moveExecution_same fun _ => rfl
        · intro _
          exact Lockstep.bind emit_same fun _ => .stay
      · intro _
        exact .stay

theorem cancelExecution_same :
    SameOnBoth env user leftOld rightOld (cancelExecution env executionId) := by
  apply Lockstep.bindOption
  · exact Lockstep.findById own.executions fun _ isId => isId
  · exact .stay
  · intro execution _
    apply Lockstep.ite
    · intro _
      apply Lockstep.bind assertTransition_same
      intro _
      apply Lockstep.bind
      · apply Lockstep.updateMany own.tasks
        · intro task matched
          exact beq_iff_eq.mp (Bool.and_eq_true_iff.mp matched).1
        · exact fun _ => rfl
        · exact fun _ => rfl
      · intro _
        apply Lockstep.bind
        · exact own.moveExecution_same fun _ => rfl
        · intro _
          apply Lockstep.bind
          · apply Lockstep.updateMany own.approvals
            · intro request matched
              exact beq_iff_eq.mp (Bool.and_eq_true_iff.mp matched).1
            · exact fun _ => rfl
            · exact fun _ => rfl
          · intro _
            exact Lockstep.bind emit_same fun _ => .stay
    · intro _
      exact .stay

/-! ## Starting a run -/

/-- The id of the execution is new to both databases. -/
theorem startExecution_same [Mixed Val] {params : StartParams Val} (isNew : env.objectId = executionId)
    (owner : params.workflow.ownerId = user) (triggeredBy : params.triggeredBy = some user) :
    Lockstep (Db.Twins env user leftOld rightOld)
      (fun execution left right => Db.Twins env user leftOld rightOld left right ∧
        execution.id = executionId) (startExecution env params) := by
  have covers : ∀ execution : WorkflowExecution Val, (execution.ownerId != user) = false →
      execution.concerns user = true :=
    fun _ notSpared => Bool.or_eq_true_iff.mpr (.inl (owner_of_not_spared notSpared))
  apply Lockstep.ite
  · intro _
    apply Lockstep.bind
    · apply Lockstep.create
      · exact not_spared_of_owner owner
      · intro left right twins other membership violates
        rcases Bool.or_eq_true_iff.mp violates with isId | clash
        · have same : other.id = executionId := (of_decide_eq_true isId).trans isNew
          rcases membership with isLeft | isRight
          · exact covers other (Collection.not_spared twins.executions.leftSpares
              own.executions.1 other isLeft same)
          · exact covers other (Collection.not_spared twins.executions.rightSpares
              own.executions.2 other isRight same)
        · have trigger : (other.triggeredBy == params.triggeredBy) = true :=
            (Bool.and_eq_true_iff.mp clash).2
          rw [triggeredBy] at trigger
          exact Bool.or_eq_true_iff.mpr (.inr trigger)
    · intro _
      apply Lockstep.bind
      · apply Lockstep.insertMany
        · intro task membership
          rcases List.mem_map.mp membership with ⟨definition, _, rfl⟩
          exact not_spared_of_owner owner
        · intro task membership left right twins other otherMem violates
          rcases List.mem_map.mp membership with ⟨definition, _, rfl⟩
          rcases Bool.or_eq_true_iff.mp violates with isId | clash
          · have home : other.executionId = executionId :=
              (congrArg TaskId.executionId (of_decide_eq_true isId)).trans isNew
            rcases otherMem with isLeft | isRight
            · exact owner_of_not_spared (Collection.not_spared twins.tasks.leftSpares
                own.tasks.1 other isLeft home)
            · exact owner_of_not_spared (Collection.not_spared twins.tasks.rightSpares
                own.tasks.2 other isRight home)
          · cases clash
      · intro _
        exact Lockstep.bind emit_same fun _ => .pure fun _ _ twins => ⟨twins, isNew⟩
  · intro _
    exact .throw

/-! ## Deciding on a request -/

/-- The user may see the request that is decided, and the run that it belongs to. -/
theorem resolveApproval_same [Mixed Val] {params : ResolveParams}
    (requests : Lockstep.Owned (fun request => request.ownerId != user) leftOld.approvals
      rightOld.approvals fun request => request.id = params.approvalId)
    (home : ∀ request ∈ leftOld.approvals.values, request.id = params.approvalId →
      request.taskId.executionId = executionId) :
    Lockstep (fun left right => left = leftOld ∧ Db.Twins env user leftOld rightOld left right)
      (fun waiting left right => Db.Twins env user leftOld rightOld left right ∧
        ∀ taskId ∈ waiting, taskId.executionId = executionId) (resolveApproval env params) := by
  have decides : Lockstep
      (fun left right => left = leftOld ∧ Db.Twins env user leftOld rightOld left right)
      (fun found left right => Db.Twins env user leftOld rightOld left right ∧
        ∀ request ∈ found, request.taskId.executionId = executionId)
      (Session.findOneAndUpdate params.approvalId (recordDecision params env.now) :
        Txn Val (Option (ApprovalRequest Val))) := by
    rintro left right ⟨rfl, twins⟩
    have finds : Lockstep (Db.Twins env user left rightOld)
        (fun found left' right' => Db.Twins env user left rightOld left' right' ∧
          ∀ request ∈ found, Document.id request = params.approvalId)
        (Session.findOneAndUpdate params.approvalId (recordDecision params env.now) :
          Txn Val (Option (ApprovalRequest Val))) := by
      apply Lockstep.findOneAndUpdate requests
      · exact fun _ isId _ => isId
      · exact fun _ => rfl
      · exact fun _ => rfl
    rcases finds left right twins with
      ⟨found, left', right', ranLeft, ranRight, later, _⟩ | threw
    · refine .inl ⟨found, left', right', ranLeft, ranRight, later, ?_⟩
      intro request isFound
      rcases findOneAndUpdate_eq_ok twins.approvals.leftNodup ranLeft with
        ⟨rfl, _⟩ | ⟨source, search, _, rfl, _⟩
      · cases isFound
      · cases isFound
        rcases (Collection.findById_eq_some twins.approvals.leftNodup).mp search with
          ⟨membership, isId⟩
        exact home source membership isId
    · exact .inr threw
  apply Lockstep.bindOption decides
  · exact .pure fun _ _ twins => ⟨twins, fun _ absurdity => by cases absurdity⟩
  · intro request requestHome
    apply Lockstep.bind
    · apply own.transitionTask_same requestHome
      intro task
      split <;> rfl
    · intro won
      apply Lockstep.ite
      · intro _
        apply Lockstep.bindOption
        · apply Lockstep.findById own.tasks
          intro task isId
          exact (congrArg TaskId.executionId isId).trans requestHome
        · exact .throw
        · intro task isId
          have taskHome : task.executionId = executionId :=
            (congrArg TaskId.executionId isId).trans requestHome
          have isHome : ∀ taskId ∈ some task.id, taskId.executionId = executionId := by
            rintro _ ⟨⟩
            exact taskHome
          apply Lockstep.ite
          · intro _
            apply Lockstep.bind (own.afterTaskSucceeded_same taskHome)
            intro _
            exact Lockstep.bind emit_same fun _ => .pure fun _ _ twins => ⟨twins, isHome⟩
          · intro _
            apply Lockstep.bind (own.afterTaskFailedForGood_same taskHome)
            intro _
            exact Lockstep.bind emit_same fun _ => .pure fun _ _ twins => ⟨twins, isHome⟩
      · intro _
        exact .throw

end BothOwn

end Operations

end WorkflowEngine
