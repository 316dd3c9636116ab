import WorkflowEngine.Workflow.Run

/-!
# What the callbacks write

A callback that does not throw is described by the documents it found and by a
patch: for every collection the update statements it ran, in order, and the
documents it inserted.  The commit of a patch no longer depends on the code that
produced it.
-/

namespace WorkflowEngine

open DocStore

variable {Val : Type}

structure Patch (Val : Type) where
  executions : Script (WorkflowExecution Val) := []
  tasks : Script (Task Val) := []
  attempts : Script TaskExecution := []
  approvals : Script (ApprovalRequest Val) := []
  newExecutions : List (WorkflowExecution Val) := []
  newTasks : List (Task Val) := []
  newAttempts : List TaskExecution := []
  newApprovals : List (ApprovalRequest Val) := []
  newEvents : List OutboxEvent := []

namespace Patch

/-- One patch after the other. -/
instance : Append (Patch Val) where
  append first second :=
    { executions := first.executions ++ second.executions
      tasks := first.tasks ++ second.tasks
      attempts := first.attempts ++ second.attempts
      approvals := first.approvals ++ second.approvals
      newExecutions := first.newExecutions ++ second.newExecutions
      newTasks := first.newTasks ++ second.newTasks
      newAttempts := first.newAttempts ++ second.newAttempts
      newApprovals := first.newApprovals ++ second.newApprovals
      newEvents := first.newEvents ++ second.newEvents }

theorem append_eq (first second : Patch Val) :
    first ++ second =
      { executions := first.executions ++ second.executions
        tasks := first.tasks ++ second.tasks
        attempts := first.attempts ++ second.attempts
        approvals := first.approvals ++ second.approvals
        newExecutions := first.newExecutions ++ second.newExecutions
        newTasks := first.newTasks ++ second.newTasks
        newAttempts := first.newAttempts ++ second.newAttempts
        newApprovals := first.newApprovals ++ second.newApprovals
        newEvents := first.newEvents ++ second.newEvents } := rfl

/-- The patch inserts nothing but events. -/
structure Rewrites (patch : Patch Val) : Prop where
  executions : patch.newExecutions = []
  tasks : patch.newTasks = []
  attempts : patch.newAttempts = []
  approvals : patch.newApprovals = []

/-- The patch rewrites nothing. -/
structure Inserts (patch : Patch Val) : Prop where
  executions : patch.executions = []
  tasks : patch.tasks = []
  attempts : patch.attempts = []
  approvals : patch.approvals = []

end Patch

namespace Db

/-- The database as a patch leaves it. -/
def patch (db : Db Val) (patch : Patch Val) : Db Val :=
  { executions := db.executions.rewrite patch.executions patch.newExecutions
    tasks := db.tasks.rewrite patch.tasks patch.newTasks
    attempts := db.attempts.rewrite patch.attempts patch.newAttempts
    approvals := db.approvals.rewrite patch.approvals patch.newApprovals
    outbox := db.outbox.rewrite [] patch.newEvents }

theorem patch_empty (db : Db Val) : db.patch {} = db := by
  simp only [patch, Collection.rewrite_nil_nil]

theorem patch_append {db : Db Val} {first second : Patch Val} (rewrites : first.Rewrites) :
    (db.patch first).patch second = db.patch (first ++ second) := by
  simp only [patch, Collection.rewrite_rewrite _ (.inl rewrites.executions),
    Collection.rewrite_rewrite _ (.inl rewrites.tasks),
    Collection.rewrite_rewrite _ (.inl rewrites.attempts),
    Collection.rewrite_rewrite _ (.inl rewrites.approvals),
    Collection.rewrite_rewrite _ (.inr rfl)]
  rfl

/-- Insertions may follow any patch. -/
theorem patch_append_inserts {db : Db Val} {first second : Patch Val} (inserts : second.Inserts) :
    (db.patch first).patch second = db.patch (first ++ second) := by
  simp only [patch, Collection.rewrite_rewrite _ (.inr inserts.executions),
    Collection.rewrite_rewrite _ (.inr inserts.tasks),
    Collection.rewrite_rewrite _ (.inr inserts.attempts),
    Collection.rewrite_rewrite _ (.inr inserts.approvals),
    Collection.rewrite_rewrite _ (.inr rfl)]
  rfl

theorem patch_append_events {db : Db Val} {first : Patch Val} {rows : List OutboxEvent} :
    (db.patch first).patch { newEvents := rows } = db.patch (first ++ { newEvents := rows }) :=
  patch_append_inserts ⟨rfl, rfl, rfl, rfl⟩

theorem patch_executions {db : Db Val} {patch : Patch Val} (script : patch.executions = [])
    (inserted : patch.newExecutions = []) : (db.patch patch).executions = db.executions := by
  rw [Db.patch, script, inserted, Collection.rewrite_nil_nil]

theorem patch_tasks {db : Db Val} {patch : Patch Val} (script : patch.tasks = [])
    (inserted : patch.newTasks = []) : (db.patch patch).tasks = db.tasks := by
  rw [Db.patch, script, inserted, Collection.rewrite_nil_nil]

theorem findById_patch_tasks {db : Db Val} {patch : Patch Val} (inserted : patch.newTasks = [])
    (taskId : TaskId) :
    (db.patch patch).tasks.findById taskId =
      (db.tasks.findById taskId).map (Script.onValue patch.tasks) := by
  rw [Db.patch, inserted, Collection.findById_rewrite]

theorem ids_patch_tasks {db : Db Val} {patch : Patch Val} (inserted : patch.newTasks = []) :
    (db.patch patch).tasks.ids = db.tasks.ids := by
  rw [Db.patch, inserted, Collection.ids_rewrite, List.map_nil, List.append_nil]

/-- No two documents of a collection have one identifier. -/
structure Keyed (db : Db Val) : Prop where
  executions : db.executions.ids.Nodup
  tasks : db.tasks.ids.Nodup
  attempts : db.attempts.ids.Nodup
  approvals : db.approvals.ids.Nodup
  outbox : db.outbox.ids.Nodup

end Db

/-- The rows are about one execution and say these things. -/
structure Describes (executionId : ExecutionId) (contents : List (EventType × EventPayload))
    (rows : List OutboxEvent) : Prop where
  about : ∀ row ∈ rows, row.aggregateId = executionId
  contents : rows.map OutboxEvent.content = contents

namespace Describes

theorem nil {executionId : ExecutionId} : Describes executionId [] [] :=
  ⟨fun _ membership => absurd membership List.not_mem_nil, rfl⟩

theorem append {executionId : ExecutionId} {first second : List (EventType × EventPayload)}
    {rows later : List OutboxEvent} (describes : Describes executionId first rows)
    (describes' : Describes executionId second later) :
    Describes executionId (first ++ second) (rows ++ later) := by
  refine ⟨?_, by rw [List.map_append, describes.contents, describes'.contents]⟩
  intro row membership
  rcases List.mem_append.mp membership with old | new
  · exact describes.about row old
  · exact describes'.about row new

end Describes

/-! ## Single statements -/

section Statements

variable {db final : Db Val}

theorem set_executions (update : Update (WorkflowExecution Val)) :
    Holds.set db ((Holds.get db).updateMany update) = db.patch { executions := [update] } := by
  simp only [Db.patch, Collection.rewrite_nil_nil]
  rw [← Collection.updateMany_eq_rewrite]
  rfl

theorem set_tasks (update : Update (Task Val)) :
    Holds.set db ((Holds.get db).updateMany update) = db.patch { tasks := [update] } := by
  simp only [Db.patch, Collection.rewrite_nil_nil]
  rw [← Collection.updateMany_eq_rewrite]
  rfl

theorem set_attempts (update : Update TaskExecution) :
    Holds.set db ((Holds.get db).updateMany update) = db.patch { attempts := [update] } := by
  simp only [Db.patch, Collection.rewrite_nil_nil]
  rw [← Collection.updateMany_eq_rewrite]
  rfl

theorem set_approvals (update : Update (ApprovalRequest Val)) :
    Holds.set db ((Holds.get db).updateMany update) = db.patch { approvals := [update] } := by
  simp only [Db.patch, Collection.rewrite_nil_nil]
  rw [← Collection.updateMany_eq_rewrite]
  rfl

theorem set_newApproval (request : ApprovalRequest Val) :
    Holds.set db (Holds.get db ++ [⟨0, request⟩]) = db.patch { newApprovals := [request] } := by
  simp only [Db.patch, Collection.rewrite_nil_nil]
  rw [← Collection.append_eq_rewrite]
  rfl

theorem set_newAttempt (record : TaskExecution) :
    Holds.set db (Holds.get db ++ [⟨0, record⟩]) = db.patch { newAttempts := [record] } := by
  simp only [Db.patch, Collection.rewrite_nil_nil]
  rw [← Collection.append_eq_rewrite]
  rfl

theorem set_newTask (task : Task Val) :
    Holds.set db (Holds.get db ++ [⟨0, task⟩]) = db.patch { newTasks := [task] } := by
  simp only [Db.patch, Collection.rewrite_nil_nil]
  rw [← Collection.append_eq_rewrite]
  rfl

theorem set_newExecution (execution : WorkflowExecution Val) :
    Holds.set db (Holds.get db ++ [⟨0, execution⟩]) =
      db.patch { newExecutions := [execution] } := by
  simp only [Db.patch, Collection.rewrite_nil_nil]
  rw [← Collection.append_eq_rewrite]
  rfl

theorem assertTransition_ok {machine : Machine} {source target : machine.Status} {result : Unit}
    (ran : (assertTransition machine source target).run db = .ok (result, final)) :
    final = db := by
  unfold assertTransition at ran
  split at ran
  · exact (Session.pure_eq_ok.mp ran).2.symm
  · exact absurd ran Session.throw_eq_ok

theorem emit_ok {env : Env} {type : EventType} {executionId : ExecutionId}
    {payload : EventPayload} {result : Unit}
    (ran : (emit env type executionId payload).run db = .ok (result, final)) :
    ∃ rows, Describes executionId [(type, payload)] rows ∧
      final = db.patch { newEvents := rows } := by
  rcases Session.bind_eq_ok.mp ran with ⟨read, middle, got, created⟩
  have same : db = read ∧ db = middle := by
    cases got
    exact ⟨rfl, rfl⟩
  rcases same with ⟨rfl, rfl⟩
  rcases Session.create_eq_ok.mp created with ⟨_, rfl⟩
  refine ⟨[{ eventId := env.randomUUID db.outbox.length, type, aggregateId := executionId, payload
             occurredAt := env.now, publishedAt := none }], ⟨?_, rfl⟩, ?_⟩
  · intro row membership
    rw [List.mem_singleton.mp membership]
  · simp only [Db.patch, Collection.rewrite_nil_nil]
    rw [← Collection.append_eq_rewrite]
    rfl

/-- A compare-and-set either changes nothing or performs the transition. -/
theorem transitionTask_ok {taskId : TaskId} {source target : TaskStatus}
    {update : Update (Task Val)} {won : Bool} (nodup : db.tasks.ids.Nodup)
    (ran : (transitionTask taskId source target update).run db = .ok (won, final)) :
    (won = false ∧ final = db ∧ ∀ task, db.tasks.findById taskId = some task →
        update.filter task = true → task.status ≠ source) ∨
      won = true ∧ ∃ task, db.tasks.findById taskId = some task ∧ update.filter task = true ∧
        task.status = source ∧
        final = db.patch { tasks := [(transition source target update).only taskId] } := by
  rcases Session.bind_eq_ok.mp ran with ⟨_, middle, asserted, rest⟩
  cases assertTransition_ok asserted
  rcases Session.bind_eq_ok.mp rest with ⟨modifiedCount, after, updated, rest⟩
  rcases Session.pure_eq_ok.mp rest with ⟨rfl, rfl⟩
  rcases Session.updateOne_eq_ok nodup updated with
    ⟨rfl, rfl, lost⟩ | ⟨rfl, task, search, matched, rfl⟩
  · refine .inl ⟨rfl, rfl, ?_⟩
    intro task search filtered same
    have unmatched := lost task search
    simp [transition, filtered, same] at unmatched
  · simp only [transition, Bool.and_eq_true, decide_eq_true_eq] at matched
    exact .inr ⟨rfl, task, search, matched.1, matched.2, set_tasks _⟩

end Statements

/-! ## After a task finished -/

section Finished

variable {env : Env} {task : Task Val} {now : Time} {db final : Db Val}

theorem id_completedAt (now : Time) (found : WorkflowExecution Val) :
    { found with completedAt := some now }.id = found.id := rfl

/-- The statement that completes a run. -/
def completing (now : Time) : Update (WorkflowExecution Val) :=
  moveExecution .running .completed (fun found => { found with completedAt := some now })
    fun found => id_completedAt now found

/-- The statements on the children of a task that succeeded. -/
def releaseScript (status : ExecutionStatus) (task : Task Val) (now : Time) : Script (Task Val) :=
  if status.live && decide (task.dependents.length > 0) then
    decrementChildren task.executionId task.dependents ::
      if status = .running then [promoteChildren task.executionId task.dependents now] else []
  else
    []

theorem releaseChildren_ok {execution : WorkflowExecution Val}
    (ran : (releaseChildren task execution now).run db = .ok ((), final)) :
    final = db.patch { tasks := releaseScript execution.status task now } := by
  unfold releaseChildren at ran
  unfold releaseScript
  split at ran
  · next children =>
    rw [if_pos children]
    rcases Session.bind_eq_ok.mp ran with ⟨_, decremented, ran, rest⟩
    rw [Session.run_updateMany, set_tasks] at ran
    cases ran
    split at rest
    · next running =>
      rw [if_pos running]
      rcases Session.bind_eq_ok.mp rest with ⟨_, _, asserted, rest⟩
      cases assertTransition_ok asserted
      rcases Session.bind_eq_ok.mp rest with ⟨_, promoted, ran, rest⟩
      rw [Session.run_updateMany, set_tasks, Db.patch_append ⟨rfl, rfl, rfl, rfl⟩] at ran
      cases ran
      cases Session.pure_eq_ok.mp rest with
      | intro _ same => exact same.symm
    · next notRunning =>
      rw [if_neg notRunning]
      cases Session.pure_eq_ok.mp rest with
      | intro _ same => exact same.symm
  · next noChildren =>
    rw [if_neg noChildren, Db.patch_empty]
    cases Session.pure_eq_ok.mp ran with
    | intro _ same => exact same.symm

/-- The patch of a success in a run whose execution was `execution`. -/
def successPatch (execution : WorkflowExecution Val) (task : Task Val) (now : Time)
    (rows : List OutboxEvent) : Patch Val :=
  { executions := Update.only task.executionId decrementPending ::
      if Run.done execution then [Update.only execution.id (completing now)] else []
    tasks := releaseScript execution.status task now
    newEvents := rows }

def successEvents (execution : WorkflowExecution Val) (task : Task Val) (now : Time) :
    List (EventType × EventPayload) :=
  (if Run.done execution then [(.executionCompleted, .empty)] else []) ++
    [(.taskCompleted, .taskCompleted task.id task.key task.attempt
      (task.startedAt.map fun started => now - started))]

theorem afterTaskSucceeded_ok (nodup : db.executions.ids.Nodup)
    (returned : (afterTaskSucceeded env task now).run db = .ok ((), final)) :
    ∃ execution rows, db.executions.findById task.executionId = some execution ∧
      Describes task.executionId (successEvents execution task now) rows ∧
      final = db.patch (successPatch execution task now rows) := by
  rcases Session.bind_eq_ok.mp returned with ⟨found, decremented, ran, rest⟩
  rcases Session.findOneAndUpdate_eq_ok nodup ran with
    ⟨rfl, rfl⟩ | ⟨execution, search, _, rfl, rfl⟩
  · exact absurd rest Session.throw_eq_ok
  · have home : execution.id = task.executionId :=
      ((Collection.findById_eq_some nodup).mp search).2
    rcases Session.bind_eq_ok.mp rest with ⟨_, released, ran, rest⟩
    have releasedEq := releaseChildren_ok ran
    rcases Session.bind_eq_ok.mp rest with ⟨_, completed, ran, emitted⟩
    have completedEq : ∃ rows, Describes task.executionId
        (if Run.done execution then [(.executionCompleted, .empty)] else []) rows ∧
          completed = released.patch
            { executions := if Run.done execution then [Update.only execution.id (completing now)]
                else []
              newEvents := rows } := by
      unfold completeRun at ran
      by_cases last : Run.done execution = true
      · have ended : (decrementPending.set execution).status = .running ∧
            (decrementPending.set execution).pendingTasks = 0 := by
          simp only [Run.done, Bool.and_eq_true, decide_eq_true_eq] at last
          refine ⟨last.1, ?_⟩
          simp only [decrementPending, last.2]
          rfl
        rw [if_pos ended] at ran
        rcases Session.bind_eq_ok.mp ran with ⟨_, _, asserted, ran⟩
        cases assertTransition_ok asserted
        rcases Session.bind_eq_ok.mp ran with ⟨_, moved, ran, emitted⟩
        rw [Session.run_updateOne, set_executions] at ran
        cases ran
        rcases emit_ok emitted with ⟨rows, describes, rfl⟩
        refine ⟨rows, ?_, ?_⟩
        · rw [if_pos last, ← home]
          exact describes
        · rw [if_pos last, Db.patch_append ⟨rfl, rfl, rfl, rfl⟩]
          rfl
      · have more : ¬ ((decrementPending.set execution).status = .running ∧
            (decrementPending.set execution).pendingTasks = 0) := by
          intro ended
          apply last
          simp only [Run.done, Bool.and_eq_true, decide_eq_true_eq]
          refine ⟨ended.1, ?_⟩
          have zero := ended.2
          simp only [decrementPending] at zero
          omega
        rw [if_neg more] at ran
        cases Session.pure_eq_ok.mp ran with
        | intro _ same =>
            refine ⟨[], ?_, ?_⟩
            · rw [if_neg last]
              exact .nil
            · rw [if_neg last, ← same, Db.patch_empty]
    rcases completedEq with ⟨rows, describes, rfl⟩
    rcases emit_ok emitted with ⟨lastRows, describes', rfl⟩
    refine ⟨execution, rows ++ lastRows, search, describes.append describes', ?_⟩
    rw [releasedEq, set_executions, Db.patch_append ⟨rfl, rfl, rfl, rfl⟩,
      Db.patch_append ⟨rfl, rfl, rfl, rfl⟩, Db.patch_append ⟨rfl, rfl, rfl, rfl⟩]
    simp only [Patch.append_eq, List.nil_append, List.append_nil]
    rfl

/-! ## After a task failed for good -/

/-- The statement that fails a run. -/
def failing (status : ExecutionStatus) (task : Task Val) (outcome : FailureOutcome)
    (message : String) (modifiedCount : Nat) (now : Time) : Update (WorkflowExecution Val) :=
  moveExecution status .failed
    (fun found =>
      { found with
        error := some (failureText task outcome message)
        completedAt := some now
        pendingTasks := found.pendingTasks - modifiedCount })
    fun _ => rfl

/-- The patch of a failure for good in a run whose execution was `execution` and
that had `modifiedCount` unstarted tasks. -/
def failurePatch (execution : WorkflowExecution Val) (task : Task Val) (outcome : FailureOutcome)
    (message : String) (modifiedCount : Nat) (now : Time) (rows : List OutboxEvent) :
    Patch Val :=
  { executions := Update.only task.executionId decrementPending ::
      if execution.status.live then
        [Update.only execution.id
          (failing execution.status task outcome message modifiedCount now)]
      else []
    tasks := if execution.status.live then [cancelUnstarted task.executionId now] else []
    newEvents := rows }

theorem failurePatch_append (execution : WorkflowExecution Val) (task : Task Val)
    (outcome : FailureOutcome) (message : String) (modifiedCount : Nat) (now : Time)
    (rows later : List OutboxEvent) :
    failurePatch execution task outcome message modifiedCount now rows ++
        ({ newEvents := later } : Patch Val) =
      failurePatch execution task outcome message modifiedCount now (rows ++ later) := by
  simp only [failurePatch, Patch.append_eq, List.append_nil]

def failureEvents (execution : WorkflowExecution Val) (task : Task Val) (outcome : FailureOutcome)
    (message : String) (retryable : Bool) : List (EventType × EventPayload) :=
  (if execution.status.live then
    [(.executionFailed, .executionFailed task.key message)] else []) ++
    [(outcome.eventType, .taskFailed task.id task.key task.attempt message retryable)]

theorem afterTaskFailedForGood_ok {outcome : FailureOutcome} {message : String}
    {retryable : Bool} (nodup : db.executions.ids.Nodup)
    (returned : (afterTaskFailedForGood env task outcome message retryable now).run db =
      .ok ((), final)) :
    ∃ execution rows, db.executions.findById task.executionId = some execution ∧
      Describes task.executionId (failureEvents execution task outcome message retryable) rows ∧
      final = db.patch (failurePatch execution task outcome message
        (db.tasks.matched (cancelUnstarted task.executionId now)) now rows) := by
  rcases Session.bind_eq_ok.mp returned with ⟨found, decremented, ran, rest⟩
  rcases Session.findOneAndUpdate_eq_ok nodup ran with
    ⟨rfl, rfl⟩ | ⟨execution, search, _, rfl, rfl⟩
  · exact absurd rest Session.throw_eq_ok
  · have home : execution.id = task.executionId :=
      ((Collection.findById_eq_some nodup).mp search).2
    rcases Session.bind_eq_ok.mp rest with ⟨_, failed, ran, emitted⟩
    rcases emit_ok emitted with ⟨lastRows, describes', rfl⟩
    unfold failRun at ran
    rw [set_executions] at ran
    by_cases live : execution.status.live = true
    · rw [if_pos (show (decrementPending.set execution).status.live = true from live)] at ran
      rcases Session.bind_eq_ok.mp ran with ⟨modifiedCount, cancelled, ran, rest⟩
      rw [Session.run_updateMany, set_tasks, Db.patch_append ⟨rfl, rfl, rfl, rfl⟩] at ran
      cases ran
      rcases Session.bind_eq_ok.mp rest with ⟨_, _, asserted, rest⟩
      cases assertTransition_ok asserted
      rcases Session.bind_eq_ok.mp rest with ⟨_, moved, ran, emitted⟩
      rw [Session.run_updateOne, set_executions, Db.patch_append ⟨rfl, rfl, rfl, rfl⟩] at ran
      cases ran
      rcases emit_ok emitted with ⟨rows, describes, rfl⟩
      refine ⟨execution, rows ++ lastRows, search, ?_, ?_⟩
      · rw [failureEvents, if_pos live]
        refine Describes.append ?_ describes'
        rw [← home]
        exact describes
      · rw [Db.patch_append ⟨rfl, rfl, rfl, rfl⟩, Db.patch_append ⟨rfl, rfl, rfl, rfl⟩,
          failurePatch, if_pos live, if_pos live]
        have tasks_eq : (db.patch { executions := [Update.only task.executionId decrementPending] }
            ).tasks = db.tasks := Collection.rewrite_nil_nil _
        simp only [Patch.append_eq, List.nil_append, List.append_nil, List.cons_append,
          show (Holds.get (db.patch _) : Collection (Task Val)) = db.tasks from tasks_eq]
        rfl
    · rw [if_neg (show ¬ (decrementPending.set execution).status.live = true from live)] at ran
      cases Session.pure_eq_ok.mp ran with
      | intro _ same =>
          refine ⟨execution, lastRows, search, ?_, ?_⟩
          · rw [failureEvents, if_neg live]
            exact describes'
          · rw [← same, Db.patch_append ⟨rfl, rfl, rfl, rfl⟩, failurePatch, if_neg live,
              if_neg live]
            rfl

end Finished

end WorkflowEngine
