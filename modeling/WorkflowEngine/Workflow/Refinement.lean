import WorkflowEngine.Workflow.Refinement.Control
import WorkflowEngine.Workflow.Refinement.Failure

/-!
# Every committed transaction is a step

The refinement theorem: a callback that returned on a snapshot and was committed
into a later database advances the runs of that database by one step of the
abstract system, or starts a run, or changes nothing.
-/

namespace WorkflowEngine

open DocStore

variable {Val : Type}

namespace Db.Commits

variable [Mixed Val] {snapshot db next : Db Val} {patch : Patch Val} {env : Env}
  {reply : Reply Val}

theorem advances_nothing (commits : Commits snapshot db {} next) (idle : reply.idle = true) :
    Advances snapshot.sawRunning (some reply) db next := by
  have same : next = db := by
    have executions := commits.executions.eq_of_nil
    have tasks := commits.tasks.eq_of_nil
    have attempts := commits.attempts.eq_of_nil
    have approvals := commits.approvals.eq_of_nil
    have outbox := commits.outbox.eq_of_nil
    simp only [List.map_nil, List.append_nil] at executions tasks attempts approvals outbox
    cases next
    simp only at executions tasks attempts approvals outbox
    rw [executions, tasks, attempts, approvals, outbox]
  rw [same]
  exact .unchanged commits.inv (Option.isNone_iff_eq_none.mp idle)

/-- A committed start adds the run and nothing else. -/
theorem advances_start {params : StartParams Val} {rows : List OutboxEvent}
    (commits : Commits snapshot db
      { newExecutions := [newExecution env params]
        newTasks := (Run.start env params).tasks
        newEvents := rows } next)
    (accepted : (validateDag (params.workflow.tasks.map TaskDefinition.toDagTask)).valid = true)
    (describes : Describes env.objectId (Run.start env params).events rows) :
    Advances snapshot.sawRunning (some (.startExecution params (newExecution env params)))
      db next := by
  have inv := commits.inv
  have executions := commits.executions.values_of_nil
  have executionIds := commits.executions.ids_result
  have tasks := commits.tasks.values_of_nil
  have approvals := commits.approvals.values_of_nil
  have outbox := commits.outbox.values_of_nil
  rw [List.append_nil] at approvals
  have fresh : env.objectId ∉ db.executions.ids :=
    commits.executions.fresh_id List.mem_cons_self
  have newHome : ∀ task ∈ (Run.start env params).tasks, task.executionId = env.objectId := by
    intro task membership
    rcases List.mem_map.mp membership with ⟨definition, _, rfl⟩
    rfl
  -- documents of other executions
  have old : ∀ execution ∈ db.executions.values, next.runOf execution = db.runOf execution := by
    intro execution membership
    have different : execution.id ≠ env.objectId := by
      intro same
      exact fresh (Collection.mem_ids.mpr ⟨execution, membership, same⟩)
    have noTasks : (Run.start env params).tasks.filter (fun task =>
        task.executionId == execution.id) = [] := by
      apply List.filter_eq_nil_iff.mpr
      intro task taskMem same
      exact different ((beq_iff_eq.mp same).symm.trans (newHome task taskMem))
    have noRows : rows.filter (fun row => row.aggregateId == execution.id) = [] := by
      apply List.filter_eq_nil_iff.mpr
      intro row rowMem same
      exact different ((beq_iff_eq.mp same).symm.trans (describes.about row rowMem))
    simp only [runOf, tasks, approvals, outbox, List.filter_append, noTasks, noRows,
      List.append_nil]
  have new : next.runOf (newExecution env params) = Run.start env params := by
    have noTasks : db.tasks.values.filter (fun task => task.executionId == env.objectId) = [] := by
      apply List.filter_eq_nil_iff.mpr
      intro task taskMem same
      exact fresh (beq_iff_eq.mp same ▸ inv.taskHome task taskMem)
    have noApprovals : db.approvals.values.filter (fun request =>
        request.executionId == env.objectId) = [] := by
      apply List.filter_eq_nil_iff.mpr
      intro request requestMem same
      exact fresh (beq_iff_eq.mp same ▸ inv.approvalHome request requestMem)
    have noRows : db.outbox.values.filter (fun row => row.aggregateId == env.objectId) = [] := by
      apply List.filter_eq_nil_iff.mpr
      intro row rowMem same
      exact fresh (beq_iff_eq.mp same ▸ inv.eventHome row rowMem)
    have allTasks : (Run.start env params).tasks.filter (fun task =>
        task.executionId == env.objectId) = (Run.start env params).tasks :=
      List.filter_eq_self.mpr fun task membership => beq_iff_eq.mpr (newHome task membership)
    have allRows : rows.filter (fun row => row.aggregateId == env.objectId) = rows :=
      List.filter_eq_self.mpr fun row membership => beq_iff_eq.mpr (describes.about row membership)
    rw [runOf, show (newExecution env params).id = env.objectId from rfl, tasks, approvals, outbox,
      List.filter_append, List.filter_append, noTasks, noApprovals, noRows, allTasks, allRows,
      List.nil_append, List.nil_append, describes.contents]
    rfl
  have cases : ∀ execution ∈ next.executions.values,
      execution ∈ db.executions.values ∨ execution = newExecution env params := by
    intro execution membership
    rw [executions] at membership
    rcases List.mem_append.mp membership with isOld | isNew
    · exact .inl isOld
    · exact .inr (List.mem_singleton.mp isNew)
  have oldIds : ∀ i ∈ db.executions.ids, i ∈ next.executions.ids := by
    intro i membership
    rw [executionIds]
    exact List.mem_append_left _ membership
  have newId : env.objectId ∈ next.executions.ids := by
    rw [executionIds]
    exact List.mem_append_right _ List.mem_cons_self
  refine ⟨⟨commits.nextKeyed, ?_, ?_, ?_, ?_⟩, ⟨commits.grows, ?_⟩, ?_, ?_⟩
  · intro task membership
    rw [tasks] at membership
    rcases List.mem_append.mp membership with isOld | isNew
    · exact oldIds _ (inv.taskHome task isOld)
    · exact newHome task isNew ▸ newId
  · intro request membership
    rw [approvals] at membership
    exact oldIds _ (inv.approvalHome request membership)
  · intro row membership
    rw [outbox] at membership
    rcases List.mem_append.mp membership with isOld | isNew
    · exact oldIds _ (inv.eventHome row isOld)
    · exact describes.about row isNew ▸ newId
  · intro execution membership
    rcases cases execution membership with isOld | rfl
    · rw [old execution isOld]
      exact inv.reached execution isOld
    · rw [new]
      exact ⟨params, .start accepted⟩
  · intro execution membership
    refine ⟨execution, ?_, rfl, ?_⟩
    · rw [executions]
      exact List.mem_append_left _ membership
    · rw [old execution membership]
      exact .refl _
  · intro executionId named
    exact Option.some.inj named ▸ newId
  · intro execution membership
    rcases cases execution membership with isOld | rfl
    · rw [old execution isOld]
      refine .same isOld ?_
      intro named
      exact fresh (Collection.mem_ids.mpr ⟨execution, isOld, (Option.some.inj named).symm⟩)
    · rw [new]
      exact .start rfl accepted fresh

/-- Whatever an operation wrote, its commit is a step. -/
theorem advances (commits : Commits snapshot db patch next)
    (writes : Writes env snapshot reply patch) :
    Advances snapshot.sawRunning (some reply) db next := by
  cases writes with
  | nothing idle => exact commits.advances_nothing idle
  | start accepted describes => exact commits.advances_start accepted describes
  | pause found running describes => exact commits.advances_pause found running describes
  | resume found paused describes => exact commits.advances_resume found paused describes
  | cancel found live describes => exact commits.advances_cancel found live rfl describes
  | complete found running foundExecution describes =>
      exact commits.advances_complete found running foundExecution describes
  | retry found running _ retryable attemptsLeft _ describes =>
      exact commits.advances_retry found running retryable attemptsLeft describes
  | fail found running foundExecution isOutcome final describes =>
      exact commits.advances_fail found running foundExecution isOutcome final rfl describes
  | suspend found running describes => exact commits.advances_suspend found running describes
  | approve foundRequest matched isTask decision found waiting foundExecution describes =>
      exact commits.advances_approve foundRequest matched isTask decision found waiting
        foundExecution describes
  | reject foundRequest matched isTask decision found waiting foundExecution describes =>
      exact commits.advances_reject foundRequest matched isTask decision found waiting
        foundExecution rfl describes

end Db.Commits

variable [Mixed Val] {env : Env} {snapshot db view next : Db Val} {op : Op Val}
  {reply : Reply Val}

/-- A committed transaction is a step. -/
theorem Db.commit_advances (snapshotInv : snapshot.Inv) (inv : db.Inv) (since : Since snapshot db)
    (returned : (op.run env).run snapshot = .ok (reply, view))
    (committed : db.commit snapshot view = some next) :
    Advances snapshot.sawRunning (some reply) db next := by
  have keyed := (Op.run_keyed op).final snapshotInv.keyed returned
  rcases Op.run_ok snapshotInv.keyed returned with ⟨patch, writes, rfl⟩
  exact (commits_of_commit snapshotInv inv since keyed committed).advances writes

end WorkflowEngine
