import WorkflowEngine.Workflow.Writes

/-!
# Identifiers stay unique

Every insertion of a callback is checked against the view, so a callback that
returns leaves a view without duplicate identifiers.  Hence what it inserted was
not in its snapshot.
-/

namespace WorkflowEngine

open DocStore

variable {Val : Type}

namespace Db

instance : Session.KeepsKeys (@Keyed Val) (WorkflowExecution Val) where
  nodup keyed := keyed.executions
  set keyed nodup := { keyed with executions := nodup }

instance : Session.KeepsKeys (@Keyed Val) (Task Val) where
  nodup keyed := keyed.tasks
  set keyed nodup := { keyed with tasks := nodup }

instance : Session.KeepsKeys (@Keyed Val) TaskExecution where
  nodup keyed := keyed.attempts
  set keyed nodup := { keyed with attempts := nodup }

instance : Session.KeepsKeys (@Keyed Val) (ApprovalRequest Val) where
  nodup keyed := keyed.approvals
  set keyed nodup := { keyed with approvals := nodup }

instance : Session.KeepsKeys (@Keyed Val) OutboxEvent where
  nodup keyed := keyed.outbox
  set keyed nodup := { keyed with outbox := nodup }

end Db

/-- A session that leaves identifiers unique and does not report an approval as no
longer actionable. -/
abbrev KeepsKeyed {α : Type} (session : Txn Val α) : Prop :=
  Session.Preserves Db.Keyed (· ≠ .approvalNotActionable) session

theorem assertTransition_keyed {machine : Machine} {source target : machine.Status} :
    KeepsKeyed (assertTransition machine source target : Txn Val Unit) :=
  .ite .pure (.throw nofun)

theorem emit_keyed {env : Env} {type : EventType} {executionId : ExecutionId}
    {payload : EventPayload} : KeepsKeyed (emit env type executionId payload : Txn Val Unit) :=
  .bind .get fun _ => .create nofun

theorem transitionTask_keyed {taskId : TaskId} {source target : TaskStatus}
    {update : Update (Task Val)} : KeepsKeyed (transitionTask taskId source target update) :=
  .bind assertTransition_keyed fun _ => .bind .updateOne fun _ => .pure

section Operations

variable {env : Env}

theorem releaseChildren_keyed {task : Task Val} {execution : WorkflowExecution Val}
    {finishedAt : Time} : KeepsKeyed (releaseChildren task execution finishedAt) :=
  .ite
    (.bind .updateMany fun _ =>
      .ite (.bind assertTransition_keyed fun _ => .bind .updateMany fun _ => .pure) .pure)
    .pure

theorem completeRun_keyed {execution : WorkflowExecution Val} {finishedAt : Time} :
    KeepsKeyed (completeRun env execution finishedAt) :=
  .ite (.bind assertTransition_keyed fun _ => .bind .updateOne fun _ => emit_keyed) .pure

theorem afterTaskSucceeded_keyed {task : Task Val} {finishedAt : Time} :
    KeepsKeyed (afterTaskSucceeded env task finishedAt) := by
  refine .bind .findOneAndUpdate fun found => ?_
  cases found with
  | none => exact .throw nofun
  | some execution =>
      exact .bind releaseChildren_keyed fun _ => .bind completeRun_keyed fun _ => emit_keyed

theorem failRun_keyed {task : Task Val} {updated : WorkflowExecution Val}
    {outcome : FailureOutcome} {message : String} {finishedAt : Time} :
    KeepsKeyed (failRun env task updated outcome message finishedAt) :=
  .ite
    (.bind .updateMany fun _ => .bind assertTransition_keyed fun _ =>
      .bind .updateOne fun _ => emit_keyed)
    .pure

theorem afterTaskFailedForGood_keyed {task : Task Val} {outcome : FailureOutcome}
    {message : String} {retryable : Bool} {finishedAt : Time} :
    KeepsKeyed (afterTaskFailedForGood env task outcome message retryable finishedAt) := by
  refine .bind .findOneAndUpdate fun found => ?_
  cases found with
  | none => exact .throw nofun
  | some updated => exact .bind failRun_keyed fun _ => emit_keyed

theorem pauseExecution_keyed {executionId : ExecutionId} :
    KeepsKeyed (pauseExecution env executionId : Txn Val Bool) :=
  .bind assertTransition_keyed fun _ => .bind .updateOne fun _ =>
    .ite .pure (.bind emit_keyed fun _ => .pure)

theorem resumeExecution_keyed {executionId : ExecutionId} :
    KeepsKeyed (resumeExecution env executionId : Txn Val Bool) := by
  refine .bind assertTransition_keyed fun _ => .bind .findOneAndUpdate fun found => ?_
  cases found with
  | none => exact .pure
  | some execution =>
      exact .bind emit_keyed fun _ => .bind .updateMany fun _ =>
        .ite (.bind .updateOne fun _ => .bind emit_keyed fun _ => .pure) .pure

theorem cancelExecution_keyed {executionId : ExecutionId} :
    KeepsKeyed (cancelExecution env executionId : Txn Val Bool) := by
  refine .bind .findById fun found => ?_
  cases found with
  | none => exact .pure
  | some execution =>
      exact .ite
        (.bind assertTransition_keyed fun _ => .bind .updateMany fun _ =>
          .bind .updateOne fun _ => .bind .updateMany fun _ => .bind emit_keyed fun _ => .pure)
        .pure

theorem startExecution_keyed [Mixed Val] {params : StartParams Val} :
    KeepsKeyed (startExecution env params) :=
  .ite
    (.bind (.create nofun) fun _ => .bind (.insertMany nofun) fun _ =>
      .bind emit_keyed fun _ => .pure)
    (.throw nofun)

theorem completeTask_keyed {taskId : TaskId} {leaseToken : Nat} {output : Val} :
    KeepsKeyed (completeTask env taskId leaseToken output) := by
  refine .bind transitionTask_keyed fun _ => .ite (.bind .findById fun found => ?_) .pure
  cases found with
  | none => exact .throw nofun
  | some task =>
      exact .bind .updateOne fun _ => .bind afterTaskSucceeded_keyed fun _ => .pure

theorem retryTask_keyed {task : Task Val} {leaseToken : Nat} {message : String} :
    KeepsKeyed (retryTask env task leaseToken message) :=
  .bind transitionTask_keyed fun _ => .ite (.bind emit_keyed fun _ => .pure) .pure

theorem failForGood_keyed {task : Task Val} {leaseToken : Nat} {outcome : FailureOutcome}
    {message : String} {retryable : Bool} :
    KeepsKeyed (failForGood env task leaseToken outcome message retryable) :=
  .bind transitionTask_keyed fun _ =>
    .ite
      (.ite
        (.bind transitionTask_keyed fun _ => .bind afterTaskFailedForGood_keyed fun _ => .pure)
        (.bind afterTaskFailedForGood_keyed fun _ => .pure))
      .pure

theorem failTask_keyed {taskId : TaskId} {leaseToken : Nat} {error : Option Thrown} :
    KeepsKeyed (failTask env taskId leaseToken error : Txn Val (Option FailResult)) := by
  refine .bind .findById fun found => ?_
  cases found.filter fun task =>
      decide (task.status = .running) && task.leaseToken == leaseToken with
  | none => exact .pure
  | some task =>
      refine .bind .updateOne fun _ => .bind .findById fun execution => ?_
      cases execution with
      | none => exact .throw nofun
      | some execution => exact .ite retryTask_keyed failForGood_keyed

theorem createApproval_keyed {approval : ApprovalRequest Val} :
    KeepsKeyed (createApproval approval) :=
  .ite (.throw nofun) (.create nofun)

theorem suspendForApproval_keyed [Mixed Val] {taskId : TaskId} {leaseToken : Nat}
    {request : ApprovalParams Val} :
    KeepsKeyed (suspendForApproval env taskId leaseToken request) := by
  refine .bind transitionTask_keyed fun _ => .ite (.bind .findById fun found => ?_) .pure
  cases found with
  | none => exact .throw nofun
  | some task =>
      exact .bind .updateOne fun _ => .bind createApproval_keyed fun _ =>
        .bind emit_keyed fun _ => .pure

/-- Identifiers stay unique, whatever the callback throws. -/
theorem anyThrow {α : Type} {session : Txn Val α} (keeps : KeepsKeyed session) :
    Session.Preserves Db.Keyed (fun _ => True) session :=
  keeps.weaken fun _ _ => trivial

theorem resolveApproval_keyed [Mixed Val] {params : ResolveParams} :
    Session.Preserves Db.Keyed (fun _ => True)
      (resolveApproval env params : Txn Val (Option TaskId)) := by
  refine .bind .findOneAndUpdate fun found => ?_
  cases found with
  | none => exact .pure
  | some approval =>
      refine .bind (anyThrow transitionTask_keyed) fun _ =>
        .ite (.bind .findById fun waiting => ?_) (.throw trivial)
      cases waiting with
      | none => exact .throw trivial
      | some task =>
          exact .ite
            (.bind (anyThrow afterTaskSucceeded_keyed) fun _ =>
              .bind (anyThrow emit_keyed) fun _ => .pure)
            (.bind (anyThrow afterTaskFailedForGood_keyed) fun _ =>
              .bind (anyThrow emit_keyed) fun _ => .pure)

/-- A callback leaves the identifiers of its view unique. -/
theorem Op.run_keyed [Mixed Val] (op : Op Val) :
    Session.Preserves Db.Keyed (fun _ => True) (op.run env) := by
  cases op with
  | startExecution => exact .bind (anyThrow startExecution_keyed) fun _ => .pure
  | pauseExecution => exact .bind (anyThrow pauseExecution_keyed) fun _ => .pure
  | resumeExecution => exact .bind (anyThrow resumeExecution_keyed) fun _ => .pure
  | cancelExecution => exact .bind (anyThrow cancelExecution_keyed) fun _ => .pure
  | completeTask => exact .bind (anyThrow completeTask_keyed) fun _ => .pure
  | failTask => exact .bind (anyThrow failTask_keyed) fun _ => .pure
  | suspendForApproval => exact .bind (anyThrow suspendForApproval_keyed) fun _ => .pure
  | resolveApproval => exact .bind resolveApproval_keyed fun _ => .pure

end Operations

end WorkflowEngine
