import WorkflowEngine.Workflow.Callbacks

/-!
# What each operation writes

The patch of every operation, together with the documents of the snapshot that
decided for it.  `Op.run_ok` is the only place where the code of the callbacks is
executed symbolically.
-/

namespace WorkflowEngine

open DocStore

variable {Val : Type}

/-- The statement that cancels a run. -/
def cancelling (status : ExecutionStatus) (modifiedCount : Nat) (now : Time) :
    Update (WorkflowExecution Val) :=
  moveExecution status .cancelled
    (fun found =>
      { found with
        completedAt := some now
        error := some "Cancelled by user"
        pendingTasks := found.pendingTasks - modifiedCount })
    fun _ => rfl

/-- The statements of a failure for good on the task itself. -/
def failedScript (task : Task Val) (outcome : FailureOutcome) (message : String) (now : Time) :
    Script (Task Val) :=
  Update.only task.id (transition .running .failed (failure task.leaseToken message now)) ::
    if outcome = .deadLetter then
      [Update.only task.id (transition .failed .deadLetter unconditional)]
    else
      []

/-- The reply a callback gives and the patch it writes, running on `db`. -/
inductive Writes [Mixed Val] (env : Env) (db : Db Val) : Reply Val → Patch Val → Prop where
  | nothing {reply : Reply Val} :
      reply.idle = true → Writes env db reply {}
  | start {params : StartParams Val} {rows : List OutboxEvent} :
      (validateDag (params.workflow.tasks.map TaskDefinition.toDagTask)).valid = true →
      Describes env.objectId (Run.start env params).events rows →
      Writes env db (.startExecution params (newExecution env params))
        { newExecutions := [newExecution env params]
          newTasks := (Run.start env params).tasks
          newEvents := rows }
  | pause {execution : WorkflowExecution Val} {rows : List OutboxEvent} :
      db.executions.findById execution.id = some execution → execution.status = .running →
      Describes execution.id [(.executionPaused, .empty)] rows →
      Writes env db (.pauseExecution execution.id true)
        { executions :=
            [Update.only execution.id (moveExecution .running .paused id fun _ => rfl)]
          newEvents := rows }
  | resume {execution : WorkflowExecution Val} {rows : List OutboxEvent} :
      db.executions.findById execution.id = some execution → execution.status = .paused →
      Describes execution.id ((.executionResumed, .empty) ::
        if execution.pendingTasks = 0 then [(.executionCompleted, .empty)] else []) rows →
      Writes env db (.resumeExecution execution.id true)
        { executions :=
            Update.only execution.id (moveExecution .paused .running id fun _ => rfl) ::
              if execution.pendingTasks = 0 then
                [Update.only execution.id (completing env.now)]
              else []
          tasks := [promotePending execution.id env.now]
          newEvents := rows }
  | cancel {execution : WorkflowExecution Val} {rows : List OutboxEvent} :
      db.executions.findById execution.id = some execution → execution.status.live = true →
      Describes execution.id [(.executionCancelled, .executionCancelled
        (db.tasks.matched (cancelUnfinished execution.id env.now)))] rows →
      Writes env db (.cancelExecution execution.id true)
        { executions :=
            [Update.only execution.id (cancelling execution.status
              (db.tasks.matched (cancelUnfinished execution.id env.now)) env.now)]
          tasks := [cancelUnfinished execution.id env.now]
          approvals := [cancelApprovals execution.id env.now]
          newEvents := rows }
  | complete {task : Task Val} {execution : WorkflowExecution Val} {output : Val}
        {rows : List OutboxEvent} :
      db.tasks.findById task.id = some task → task.status = .running →
      db.executions.findById task.executionId = some execution →
      Describes task.executionId (successEvents execution
        (moved .completed (completion task.leaseToken output env.now) task) env.now) rows →
      Writes env db (.completeTask task.id task.leaseToken output true)
        (({ tasks := [Update.only task.id
              (transition .running .completed (completion task.leaseToken output env.now))]
            attempts := [Update.only (task.id, task.attempt)
              (closeAttempt .succeeded task.startedAt env.now none)] } : Patch Val) ++
          successPatch execution
            (moved .completed (completion task.leaseToken output env.now) task) env.now rows)
  | retry {task : Task Val} {execution : WorkflowExecution Val} {error : Option Thrown}
        {delayMs : Nat} {rows : List OutboxEvent} :
      db.tasks.findById task.id = some task → task.status = .running →
      db.executions.findById task.executionId = some execution →
      isRetryable error = true → task.attempt < task.maxAttempts →
      execution.status.live = true →
      Describes task.executionId [(.taskRetrying,
        .taskRetrying task.id task.key task.attempt delayMs (failureMessage error))] rows →
      Writes env db (.failTask task.id task.leaseToken error (some (.retrying delayMs)))
        { tasks := [Update.only task.id (transition .running .retrying
            (postponement task.leaseToken (failureMessage error) (env.now + delayMs)))]
          attempts := [Update.only (task.id, task.attempt)
            (closeAttempt (attemptStatusOf error) task.startedAt env.now
              (some ⟨failureMessage error, isRetryable error⟩))]
          newEvents := rows }
  | fail {task : Task Val} {execution : WorkflowExecution Val} {error : Option Thrown}
        {outcome : FailureOutcome} {rows : List OutboxEvent} :
      db.tasks.findById task.id = some task → task.status = .running →
      db.executions.findById task.executionId = some execution →
      outcome = failureOutcome task (isRetryable error) →
      (isRetryable error = true → task.attempt < task.maxAttempts →
        execution.status.live = false) →
      Describes task.executionId
        (failureEvents execution task outcome (failureMessage error) (isRetryable error)) rows →
      Writes env db (.failTask task.id task.leaseToken error (some (.forGood outcome)))
        (({ tasks := failedScript task outcome (failureMessage error) env.now
            attempts := [Update.only (task.id, task.attempt)
              (closeAttempt (attemptStatusOf error) task.startedAt env.now
                (some ⟨failureMessage error, isRetryable error⟩))] } : Patch Val) ++
          failurePatch execution task outcome (failureMessage error)
            ((db.patch { tasks := failedScript task outcome (failureMessage error) env.now
                }).tasks.matched (cancelUnstarted task.executionId env.now)) env.now rows)
  | suspend {task : Task Val} {request : ApprovalParams Val} {rows : List OutboxEvent} :
      db.tasks.findById task.id = some task → task.status = .running →
      Describes task.executionId [(.approvalRequested, .approvalRequested env.objectId task.id
        task.key (newApproval env task request).expiresAt)] rows →
      Writes env db (.suspendForApproval task.id task.leaseToken true)
        { tasks := [Update.only task.id
            (transition .running .waitingForApproval (suspension task.leaseToken))]
          attempts := [Update.only (task.id, task.attempt)
            (closeAttempt .suspended task.startedAt env.now none)]
          newApprovals := [newApproval env task request]
          newEvents := rows }
  | approve {task : Task Val} {execution : WorkflowExecution Val}
        {request : ApprovalRequest Val} {params : ResolveParams} {rows : List OutboxEvent} :
      db.approvals.findById params.approvalId = some request →
      (recordDecision params env.now).filter request = true →
      request.taskId = task.id → params.decision = .approved →
      db.tasks.findById task.id = some task → task.status = .waitingForApproval →
      db.executions.findById task.executionId = some execution →
      Describes task.executionId (successEvents execution
        (moved .completed (approvedTask params env.now) task) env.now ++
          [(.approvalDecided params.decision,
            .approvalDecided request.id task.key params.decidedBy)]) rows →
      Writes env db (.resolveApproval params env.now (some task.id))
        (({ approvals := [Update.only params.approvalId (recordDecision params env.now)]
            tasks := [Update.only task.id (transition .waitingForApproval .completed
              (approvedTask params env.now))] } : Patch Val) ++
          successPatch execution (moved .completed (approvedTask params env.now) task) env.now
            rows)
  | reject {task : Task Val} {execution : WorkflowExecution Val}
        {request : ApprovalRequest Val} {params : ResolveParams} {rows : List OutboxEvent} :
      db.approvals.findById params.approvalId = some request →
      (recordDecision params env.now).filter request = true →
      request.taskId = task.id → params.decision ≠ .approved →
      db.tasks.findById task.id = some task → task.status = .waitingForApproval →
      db.executions.findById task.executionId = some execution →
      Describes task.executionId (failureEvents execution task .failed
        (rejectionText params.decision params.comment) false ++
          [(.approvalDecided params.decision,
            .approvalDecided request.id task.key params.decidedBy)]) rows →
      Writes env db (.resolveApproval params env.now (some task.id))
        (({ approvals := [Update.only params.approvalId (recordDecision params env.now)]
            tasks := [Update.only task.id (transition .waitingForApproval .failed
              (rejectedTask params env.now))] } : Patch Val) ++
          failurePatch execution task .failed (rejectionText params.decision params.comment)
            ((db.patch { tasks := [Update.only task.id (transition .waitingForApproval .failed
                (rejectedTask params env.now))] }).tasks.matched
              (cancelUnstarted task.executionId env.now)) env.now rows)

section Operations

variable [Mixed Val] {env : Env} {db view : Db Val}

theorem pauseExecution_ok (keyed : db.Keyed) {executionId : ExecutionId} {paused : Bool}
    (returned : (pauseExecution env executionId).run db = .ok (paused, view)) :
    ∃ patch, Writes env db (.pauseExecution executionId paused) patch ∧
      view = db.patch patch := by
  rcases Session.bind_eq_ok.mp returned with ⟨_, _, asserted, rest⟩
  cases assertTransition_ok asserted
  rcases Session.bind_eq_ok.mp rest with ⟨modified, moved, updated, rest2⟩
  rcases Session.updateOne_eq_ok keyed.executions updated with
    ⟨rfl, rfl, _⟩ | ⟨rfl, execution, search, matched, rfl⟩
  · rw [if_pos Nat.zero_ne_one] at rest2
    rcases Session.pure_eq_ok.mp rest2 with ⟨rfl, rfl⟩
    exact ⟨{}, .nothing rfl, (Db.patch_empty _).symm⟩
  · rw [if_neg (not_not.mpr rfl)] at rest2
    rcases Session.bind_eq_ok.mp rest2 with ⟨_, emitted, ran, rest3⟩
    rcases Session.pure_eq_ok.mp rest3 with ⟨rfl, rfl⟩
    rcases emit_ok ran with ⟨rows, describes, rfl⟩
    have home : execution.id = executionId :=
      ((Collection.findById_eq_some keyed.executions).mp search).2
    subst home
    have running : execution.status = .running := by
      simpa [moveExecution] using matched
    refine ⟨_, .pause search running describes, ?_⟩
    rw [set_executions, Db.patch_append ⟨rfl, rfl, rfl, rfl⟩]
    rfl

theorem resumeExecution_ok (keyed : db.Keyed) {executionId : ExecutionId} {resumed : Bool}
    (returned : (resumeExecution env executionId).run db = .ok (resumed, view)) :
    ∃ patch, Writes env db (.resumeExecution executionId resumed) patch ∧
      view = db.patch patch := by
  rcases Session.bind_eq_ok.mp returned with ⟨_, _, asserted, rest⟩
  cases assertTransition_ok asserted
  rcases Session.bind_eq_ok.mp rest with ⟨found, moved, updated, rest2⟩
  rcases Session.findOneAndUpdate_eq_ok keyed.executions updated with
    ⟨rfl, rfl⟩ | ⟨execution, search, matched, rfl, rfl⟩
  · rcases Session.pure_eq_ok.mp rest2 with ⟨rfl, rfl⟩
    exact ⟨{}, .nothing rfl, (Db.patch_empty _).symm⟩
  · have home : execution.id = executionId :=
      ((Collection.findById_eq_some keyed.executions).mp search).2
    subst home
    have paused : execution.status = .paused := by
      simpa [moveExecution] using matched
    rcases Session.bind_eq_ok.mp rest2 with ⟨_, emitted, ran, rest3⟩
    rcases emit_ok ran with ⟨rows, describes, rfl⟩
    rcases Session.bind_eq_ok.mp rest3 with ⟨_, promoted, ran, rest4⟩
    rw [Session.run_updateMany, set_tasks, set_executions,
      Db.patch_append ⟨rfl, rfl, rfl, rfl⟩, Db.patch_append ⟨rfl, rfl, rfl, rfl⟩] at ran
    cases ran
    by_cases none : execution.pendingTasks = 0
    · rw [if_pos (show ((moveExecution .paused .running id fun _ => rfl).set execution
        ).pendingTasks = 0 from none)] at rest4
      rcases Session.bind_eq_ok.mp rest4 with ⟨_, completed, ran, rest5⟩
      rw [Session.run_updateOne, set_executions, Db.patch_append ⟨rfl, rfl, rfl, rfl⟩] at ran
      cases ran
      rcases Session.bind_eq_ok.mp rest5 with ⟨_, last, ran, rest6⟩
      rcases Session.pure_eq_ok.mp rest6 with ⟨rfl, rfl⟩
      rcases emit_ok ran with ⟨lastRows, describes', rfl⟩
      have described : Describes execution.id ((.executionResumed, .empty) ::
          if execution.pendingTasks = 0 then [(.executionCompleted, .empty)] else [])
            (rows ++ lastRows) := by
        rw [if_pos none]
        exact describes.append describes'
      refine ⟨_, .resume search paused described, ?_⟩
      rw [Db.patch_append ⟨rfl, rfl, rfl, rfl⟩, if_pos none]
      simp only [Patch.append_eq, List.nil_append, List.append_nil, List.cons_append]
      rfl
    · rw [if_neg (show ¬ ((moveExecution .paused .running id fun _ => rfl).set execution
        ).pendingTasks = 0 from none)] at rest4
      rcases Session.pure_eq_ok.mp rest4 with ⟨rfl, rfl⟩
      have described : Describes execution.id ((.executionResumed, .empty) ::
          if execution.pendingTasks = 0 then [(.executionCompleted, .empty)] else []) rows := by
        rw [if_neg none]
        exact describes
      refine ⟨_, .resume search paused described, ?_⟩
      rw [if_neg none]
      simp only [Patch.append_eq, List.nil_append, List.append_nil]

theorem cancelExecution_ok (keyed : db.Keyed) {executionId : ExecutionId} {cancelled : Bool}
    (returned : (cancelExecution env executionId).run db = .ok (cancelled, view)) :
    ∃ patch, Writes env db (.cancelExecution executionId cancelled) patch ∧
      view = db.patch patch := by
  rcases Session.bind_eq_ok.mp returned with ⟨found, same, read, rest⟩
  rw [Session.run_findById] at read
  cases read
  cases search : (Holds.get db : Collection (WorkflowExecution Val)).findById executionId with
  | none =>
      rw [search] at rest
      rcases Session.pure_eq_ok.mp rest with ⟨rfl, rfl⟩
      exact ⟨{}, .nothing rfl, (Db.patch_empty _).symm⟩
  | some execution =>
      rw [search] at rest
      simp only at rest
      have home : execution.id = executionId :=
        ((Collection.findById_eq_some keyed.executions).mp search).2
      subst home
      by_cases live : execution.status.live = true
      · rw [if_pos live] at rest
        rcases Session.bind_eq_ok.mp rest with ⟨_, _, asserted, rest2⟩
        cases assertTransition_ok asserted
        rcases Session.bind_eq_ok.mp rest2 with ⟨modifiedCount, tasks, ran, rest3⟩
        rw [Session.run_updateMany, set_tasks] at ran
        cases ran
        rcases Session.bind_eq_ok.mp rest3 with ⟨_, executions, ran, rest4⟩
        rw [Session.run_updateOne, set_executions, Db.patch_append ⟨rfl, rfl, rfl, rfl⟩] at ran
        cases ran
        rcases Session.bind_eq_ok.mp rest4 with ⟨_, approvals, ran, rest5⟩
        rw [Session.run_updateMany, set_approvals, Db.patch_append ⟨rfl, rfl, rfl, rfl⟩] at ran
        cases ran
        rcases Session.bind_eq_ok.mp rest5 with ⟨_, emitted, ran, rest6⟩
        rcases Session.pure_eq_ok.mp rest6 with ⟨rfl, rfl⟩
        rcases emit_ok ran with ⟨rows, describes, rfl⟩
        refine ⟨_, .cancel search live describes, ?_⟩
        rw [Db.patch_append ⟨rfl, rfl, rfl, rfl⟩]
        rfl
      · rw [if_neg live] at rest
        rcases Session.pure_eq_ok.mp rest with ⟨rfl, rfl⟩
        exact ⟨{}, .nothing rfl, (Db.patch_empty _).symm⟩

omit [Mixed Val] in
theorem transition_onValue {source target : TaskStatus} {update : Update (Task Val)}
    {task : Task Val} {taskId : TaskId} (isId : task.id = taskId)
    (matched : update.filter task = true) (same : task.status = source) :
    ((transition source target update).only taskId).onValue task = moved target update task := by
  simp [Update.onValue, Update.only, transition, isId, matched, same]

theorem completeTask_ok (keyed : db.Keyed) {taskId : TaskId} {leaseToken : Nat} {output : Val}
    {executionId : Option ExecutionId}
    (returned : (completeTask env taskId leaseToken output).run db = .ok (executionId, view)) :
    ∃ patch, Writes env db (.completeTask taskId leaseToken output executionId.isSome) patch ∧
      view = db.patch patch := by
  rcases Session.bind_eq_ok.mp returned with ⟨won, moved, ran, rest⟩
  rcases transitionTask_ok keyed.tasks ran with
    ⟨rfl, rfl, _⟩ | ⟨rfl, task, search, matched, running, rfl⟩
  · rcases Session.pure_eq_ok.mp rest with ⟨rfl, rfl⟩
    exact ⟨{}, .nothing rfl, (Db.patch_empty _).symm⟩
  · have isId : task.id = taskId := ((Collection.findById_eq_some keyed.tasks).mp search).2
    have token : task.leaseToken = leaseToken := by simpa [completion] using matched
    subst isId token
    rw [if_pos rfl] at rest
    rcases Session.bind_eq_ok.mp rest with ⟨found, same, read, rest2⟩
    rw [Session.run_findById] at read
    cases read
    rw [show (Holds.get (db.patch _) : Collection (Task Val)) = (db.patch _).tasks from rfl,
      Db.findById_patch_tasks rfl, search] at rest2
    simp only [Option.map_some, Script.onValue_cons, Script.onValue_nil,
      transition_onValue rfl matched running] at rest2
    rcases Session.bind_eq_ok.mp rest2 with ⟨_, closed, ran2, rest3⟩
    rw [Session.run_updateOne, set_attempts, Db.patch_append ⟨rfl, rfl, rfl, rfl⟩] at ran2
    cases ran2
    rcases Session.bind_eq_ok.mp rest3 with ⟨_, finished, ran3, rest4⟩
    rcases Session.pure_eq_ok.mp rest4 with ⟨rfl, rfl⟩
    rcases afterTaskSucceeded_ok
      (by rw [Db.patch_executions rfl rfl]; exact keyed.executions) ran3 with
      ⟨execution, rows, found, describes, rfl⟩
    rw [Db.patch_executions rfl rfl] at found
    refine ⟨_, .complete search running found describes, ?_⟩
    rw [Db.patch_append ⟨rfl, rfl, rfl, rfl⟩]
    rfl

omit [Mixed Val] in
/-- `failTask` runs these on a view that already closed the attempt. -/
theorem retryTask_ok {task : Task Val} {error : Option Thrown} {result : Option FailResult}
    {attempts : Script TaskExecution} (keyed : db.Keyed)
    (search : db.tasks.findById task.id = some task) (running : task.status = .running)
    (returned : (retryTask env task task.leaseToken (failureMessage error)).run
      (db.patch { attempts }) = .ok (result, view)) :
    ∃ delayMs rows, result = some (.retrying delayMs) ∧
      Describes task.executionId [(.taskRetrying,
        .taskRetrying task.id task.key task.attempt delayMs (failureMessage error))] rows ∧
      view = db.patch
        { tasks := [Update.only task.id (transition .running .retrying
            (postponement task.leaseToken (failureMessage error) (env.now + delayMs)))]
          attempts
          newEvents := rows } := by
  rcases Session.bind_eq_ok.mp returned with ⟨won, moved, ran, rest⟩
  have tasks_eq : (db.patch { attempts }).tasks = db.tasks := Db.patch_tasks rfl rfl
  rcases transitionTask_ok (by rw [tasks_eq]; exact keyed.tasks) ran with
    ⟨rfl, rfl, lost⟩ | ⟨rfl, _, _, _, _, rfl⟩
  · exact absurd running (lost task (by rw [tasks_eq]; exact search) (by simp [postponement]))
  · rw [if_pos rfl] at rest
    rcases Session.bind_eq_ok.mp rest with ⟨_, emitted, ran2, rest2⟩
    rcases Session.pure_eq_ok.mp rest2 with ⟨rfl, rfl⟩
    rcases emit_ok ran2 with ⟨rows, describes, rfl⟩
    refine ⟨_, rows, rfl, describes, ?_⟩
    rw [Db.patch_append ⟨rfl, rfl, rfl, rfl⟩, Db.patch_append ⟨rfl, rfl, rfl, rfl⟩]
    simp only [Patch.append_eq, List.nil_append, List.append_nil]

omit [Mixed Val] in
theorem failForGood_ok {task : Task Val} {outcome : FailureOutcome} {message : String}
    {retryable : Bool} {result : Option FailResult} {attempts : Script TaskExecution}
    (keyed : db.Keyed) (search : db.tasks.findById task.id = some task)
    (running : task.status = .running)
    (returned : (failForGood env task task.leaseToken outcome message retryable).run
      (db.patch { attempts }) = .ok (result, view)) :
    ∃ execution rows, result = some (.forGood outcome) ∧
      db.executions.findById task.executionId = some execution ∧
      Describes task.executionId (failureEvents execution task outcome message retryable) rows ∧
      view = db.patch (({ tasks := failedScript task outcome message env.now, attempts } :
          Patch Val) ++
        failurePatch execution task outcome message
          ((db.patch { tasks := failedScript task outcome message env.now }).tasks.matched
            (cancelUnstarted task.executionId env.now)) env.now rows) := by
  rcases Session.bind_eq_ok.mp returned with ⟨won, moved, ran, rest⟩
  have tasks_eq : (db.patch { attempts }).tasks = db.tasks := Db.patch_tasks rfl rfl
  rcases transitionTask_ok (by rw [tasks_eq]; exact keyed.tasks) ran with
    ⟨rfl, rfl, lost⟩ | ⟨rfl, found, search2, matched, _, rfl⟩
  · exact absurd running (lost task (by rw [tasks_eq]; exact search) (by simp [failure]))
  · rw [if_pos rfl] at rest
    have ended : ∃ after, (afterTaskFailedForGood env task outcome message retryable
        env.now).run (db.patch { tasks := failedScript task outcome message env.now, attempts }) =
          .ok ((), after) ∧ result = some (.forGood outcome) ∧ view = after := by
      rw [Db.patch_append ⟨rfl, rfl, rfl, rfl⟩] at rest
      split at rest
      · next dead =>
        rcases Session.bind_eq_ok.mp rest with ⟨_, parked, ran2, rest2⟩
        have failed : (db.patch (({ attempts } : Patch Val) ++
            { tasks := [Update.only task.id (transition .running .failed
              (failure task.leaseToken message env.now))] })).tasks.findById task.id =
                some (WorkflowEngine.moved .failed (failure task.leaseToken message env.now)
                  task) := by
          rw [Db.findById_patch_tasks rfl, search]
          exact congrArg some (transition_onValue rfl (by simp [failure]) running)
        rcases transitionTask_ok (by rw [Db.ids_patch_tasks rfl]; exact keyed.tasks) ran2 with
          ⟨rfl, rfl, lost⟩ | ⟨rfl, _, _, _, _, rfl⟩
        · exact absurd rfl (lost _ failed rfl)
        · rcases Session.bind_eq_ok.mp rest2 with ⟨_, after, ran3, rest3⟩
          rcases Session.pure_eq_ok.mp rest3 with ⟨rfl, rfl⟩
          refine ⟨_, ?_, rfl, rfl⟩
          rw [Db.patch_append ⟨rfl, rfl, rfl, rfl⟩] at ran3
          simp only [Patch.append_eq, List.nil_append, List.append_nil] at ran3
          rw [failedScript, if_pos dead]
          exact ran3
      · next notDead =>
        rcases Session.bind_eq_ok.mp rest with ⟨_, after, ran2, rest2⟩
        rcases Session.pure_eq_ok.mp rest2 with ⟨rfl, rfl⟩
        refine ⟨_, ?_, rfl, rfl⟩
        simp only [Patch.append_eq, List.nil_append, List.append_nil] at ran2
        rw [failedScript, if_neg notDead]
        exact ran2
    rcases ended with ⟨after, ran2, rfl, rfl⟩
    rcases afterTaskFailedForGood_ok
      (by rw [Db.patch_executions rfl rfl]; exact keyed.executions) ran2 with
      ⟨execution, rows, foundExecution, describes, rfl⟩
    rw [Db.patch_executions rfl rfl] at foundExecution
    exact ⟨execution, rows, rfl, foundExecution, describes, Db.patch_append ⟨rfl, rfl, rfl, rfl⟩⟩

theorem failTask_ok (keyed : db.Keyed) {taskId : TaskId} {leaseToken : Nat}
    {error : Option Thrown} {result : Option FailResult}
    (returned : (failTask env taskId leaseToken error).run db = .ok (result, view)) :
    ∃ patch, Writes env db (.failTask taskId leaseToken error result) patch ∧
      view = db.patch patch := by
  rcases Session.bind_eq_ok.mp returned with ⟨found, same, read, rest⟩
  rw [Session.run_findById] at read
  cases read
  cases filtered : ((Holds.get db : Collection (Task Val)).findById taskId).filter fun task =>
      decide (task.status = .running) && task.leaseToken == leaseToken with
  | none =>
      rw [filtered] at rest
      rcases Session.pure_eq_ok.mp rest with ⟨rfl, rfl⟩
      exact ⟨{}, .nothing rfl, (Db.patch_empty _).symm⟩
  | some task =>
      rw [filtered] at rest
      simp only at rest
      rcases Option.filter_eq_some_iff.mp filtered with ⟨search, current⟩
      simp only [Bool.and_eq_true, decide_eq_true_eq, beq_iff_eq] at current
      rcases current with ⟨running, rfl⟩
      have isId : task.id = taskId := ((Collection.findById_eq_some keyed.tasks).mp search).2
      subst isId
      rcases Session.bind_eq_ok.mp rest with ⟨_, closed, ran, rest2⟩
      rw [Session.run_updateOne, set_attempts] at ran
      cases ran
      rcases Session.bind_eq_ok.mp rest2 with ⟨found, same, read, rest3⟩
      rw [Session.run_findById] at read
      cases read
      rw [show (Holds.get (db.patch _) : Collection (WorkflowExecution Val)) =
        (db.patch _).executions from rfl, Db.patch_executions rfl rfl] at rest3
      cases searchExecution : db.executions.findById task.executionId with
      | none =>
          rw [searchExecution] at rest3
          exact absurd rest3 Session.throw_eq_ok
      | some execution =>
          rw [searchExecution] at rest3
          simp only at rest3
          split at rest3
          · next again =>
            simp only [Bool.and_eq_true, decide_eq_true_eq] at again
            rcases again with ⟨⟨retryable, attemptsLeft⟩, live⟩
            rcases retryTask_ok keyed search running rest3 with
              ⟨delayMs, rows, rfl, describes, rfl⟩
            exact ⟨_, .retry search running searchExecution retryable attemptsLeft live describes,
              rfl⟩
          · next final =>
            rcases failForGood_ok keyed search running rest3 with
              ⟨execution', rows, rfl, searchExecution', describes, rfl⟩
            rw [searchExecution] at searchExecution'
            cases searchExecution'
            refine ⟨_, .fail search running searchExecution rfl ?_ describes, rfl⟩
            intro retryable attemptsLeft
            by_contra live
            exact final (by simp [retryable, attemptsLeft, live])

omit [Mixed Val] in
theorem createApproval_ok {approval : ApprovalRequest Val} {result : Unit}
    (returned : (createApproval approval).run db = .ok (result, view)) :
    (Session.create .duplicateKey approval : Txn Val Unit).run db = .ok (result, view) := by
  rw [createApproval] at returned
  split at returned
  · exact absurd returned Session.throw_eq_ok
  · exact returned

theorem suspendForApproval_ok (keyed : db.Keyed) {taskId : TaskId} {leaseToken : Nat}
    {request : ApprovalParams Val} {applied : Bool}
    (returned : (suspendForApproval env taskId leaseToken request).run db =
      .ok (applied, view)) :
    ∃ patch, Writes env db (.suspendForApproval taskId leaseToken applied) patch ∧
      view = db.patch patch := by
  rcases Session.bind_eq_ok.mp returned with ⟨won, moved, ran, rest⟩
  rcases transitionTask_ok keyed.tasks ran with
    ⟨rfl, rfl, _⟩ | ⟨rfl, task, search, matched, running, rfl⟩
  · rcases Session.pure_eq_ok.mp rest with ⟨rfl, rfl⟩
    exact ⟨{}, .nothing rfl, (Db.patch_empty _).symm⟩
  · have isId : task.id = taskId := ((Collection.findById_eq_some keyed.tasks).mp search).2
    have token : task.leaseToken = leaseToken := by simpa [suspension] using matched
    subst isId token
    rw [if_pos rfl] at rest
    rcases Session.bind_eq_ok.mp rest with ⟨found, same, read, rest2⟩
    rw [Session.run_findById] at read
    cases read
    rw [show (Holds.get (db.patch _) : Collection (Task Val)) = (db.patch _).tasks from rfl,
      Db.findById_patch_tasks rfl, search] at rest2
    simp only [Option.map_some, Script.onValue_cons, Script.onValue_nil,
      transition_onValue rfl matched running] at rest2
    rcases Session.bind_eq_ok.mp rest2 with ⟨_, closed, ran2, rest3⟩
    rw [Session.run_updateOne, set_attempts, Db.patch_append ⟨rfl, rfl, rfl, rfl⟩] at ran2
    cases ran2
    rcases Session.bind_eq_ok.mp rest3 with ⟨_, created, ran3, rest4⟩
    rcases Session.create_eq_ok.mp (createApproval_ok ran3) with ⟨_, created_eq⟩
    rcases Session.bind_eq_ok.mp rest4 with ⟨_, emitted, ran4, rest5⟩
    rcases Session.pure_eq_ok.mp rest5 with ⟨rfl, rfl⟩
    rcases emit_ok ran4 with ⟨rows, describes, rfl⟩
    refine ⟨_, .suspend search running describes, ?_⟩
    rw [created_eq, set_newApproval, Db.patch_append_events, Db.patch_append ⟨rfl, rfl, rfl, rfl⟩]
    simp only [Patch.append_eq, List.nil_append, List.append_nil]
    rfl

theorem resolveApproval_ok (keyed : db.Keyed) {params : ResolveParams} {taskId : Option TaskId}
    (returned : (resolveApproval env params).run db = .ok (taskId, view)) :
    ∃ patch, Writes env db (.resolveApproval params env.now taskId) patch ∧
      view = db.patch patch := by
  rcases Session.bind_eq_ok.mp returned with ⟨found, recorded, ran, rest⟩
  rcases Session.findOneAndUpdate_eq_ok keyed.approvals ran with
    ⟨rfl, rfl⟩ | ⟨request, search, matched, rfl, rfl⟩
  · rcases Session.pure_eq_ok.mp rest with ⟨rfl, rfl⟩
    exact ⟨{}, .nothing rfl, (Db.patch_empty _).symm⟩
  · rw [set_approvals] at rest
    rcases Session.bind_eq_ok.mp rest with ⟨won, moved, ran2, rest2⟩
    have tasks_eq : (db.patch { approvals := [Update.only params.approvalId
        (recordDecision params env.now)] }).tasks = db.tasks := Db.patch_tasks rfl rfl
    rcases transitionTask_ok (by rw [tasks_eq]; exact keyed.tasks) ran2 with
      ⟨rfl, rfl, _⟩ | ⟨rfl, task, searchTask, _, waiting, rfl⟩
    · exact absurd rest2 Session.throw_eq_ok
    · rw [tasks_eq] at searchTask
      have isId : task.id = request.taskId :=
        ((Collection.findById_eq_some keyed.tasks).mp searchTask).2
      have searchId : db.tasks.findById task.id = some task := by
        rw [isId]
        exact searchTask
      rw [if_pos rfl] at rest2
      rcases Session.bind_eq_ok.mp rest2 with ⟨foundTask, same, read, rest3⟩
      rw [Session.run_findById] at read
      cases read
      rw [show (Holds.get (Db.patch _ _) : Collection (Task Val)) = (Db.patch _ _).tasks from rfl,
        Db.findById_patch_tasks rfl, tasks_eq,
        show ((recordDecision params env.now).set request).taskId = task.id from isId.symm,
        searchId] at rest3
      by_cases approved : params.decision = .approved
      · simp only [approved, decide_true, if_true] at rest3
        simp only [Option.map_some, Script.onValue_cons, Script.onValue_nil] at rest3
        rw [transition_onValue rfl rfl waiting] at rest3
        rcases Session.bind_eq_ok.mp rest3 with ⟨_, finished, ran4, rest4⟩
        rcases Session.bind_eq_ok.mp rest4 with ⟨_, emitted, ran5, rest5⟩
        rcases Session.pure_eq_ok.mp rest5 with ⟨rfl, rfl⟩
        rcases emit_ok ran5 with ⟨lastRows, describes', rfl⟩
        rw [Db.patch_append ⟨rfl, rfl, rfl, rfl⟩] at ran4
        rcases afterTaskSucceeded_ok
          (by rw [Db.patch_executions rfl rfl]; exact keyed.executions) ran4 with
          ⟨execution, rows, foundExecution, describes, rfl⟩
        rw [Db.patch_executions rfl rfl] at foundExecution
        refine ⟨_, @Writes.approve Val _ env db task execution request params _ search matched
          isId.symm approved searchId waiting foundExecution
          (describes.append (approved ▸ describes')), ?_⟩
        rw [Db.patch_append ⟨rfl, rfl, rfl, rfl⟩, Db.patch_append ⟨rfl, rfl, rfl, rfl⟩]
        simp only [Patch.append_eq, successPatch, List.nil_append, List.append_nil]
      · simp only [approved, decide_false, Bool.false_eq_true, if_false] at rest3
        simp only [Option.map_some, Script.onValue_cons, Script.onValue_nil] at rest3
        rw [transition_onValue rfl rfl waiting] at rest3
        rcases Session.bind_eq_ok.mp rest3 with ⟨_, finished, ran4, rest4⟩
        rcases Session.bind_eq_ok.mp rest4 with ⟨_, emitted, ran5, rest5⟩
        rcases Session.pure_eq_ok.mp rest5 with ⟨rfl, rfl⟩
        rcases emit_ok ran5 with ⟨lastRows, describes', rfl⟩
        rw [Db.patch_append ⟨rfl, rfl, rfl, rfl⟩] at ran4
        rcases afterTaskFailedForGood_ok
          (by rw [Db.patch_executions rfl rfl]; exact keyed.executions) ran4 with
          ⟨execution, rows, foundExecution, describes, rfl⟩
        rw [Db.patch_executions rfl rfl] at foundExecution
        refine ⟨_, @Writes.reject Val _ env db task execution request params _ search matched
          isId.symm approved searchId waiting foundExecution (describes.append describes'), ?_⟩
        rw [Db.patch_append_events, failurePatch_append, Db.patch_append ⟨rfl, rfl, rfl, rfl⟩]
        rfl

omit [Mixed Val] in
theorem insertMany_ok {thrown : EngineError} {tasks : List (Task Val)} {result : Unit}
    {final : Db Val}
    (returned : (Session.insertMany thrown tasks : Txn Val Unit).run db =
      .ok (result, final)) :
    final = db.patch { newTasks := tasks } := by
  induction tasks generalizing db with
  | nil =>
      rcases Session.pure_eq_ok.mp returned with ⟨_, rfl⟩
      exact (Db.patch_empty _).symm
  | cons task rest ih =>
      rcases Session.bind_eq_ok.mp returned with ⟨_, created, ran, more⟩
      rcases Session.create_eq_ok.mp ran with ⟨_, rfl⟩
      rw [ih more, set_newTask, Db.patch_append_inserts ⟨rfl, rfl, rfl, rfl⟩]
      rfl

theorem startExecution_ok {params : StartParams Val} {execution : WorkflowExecution Val}
    (returned : (startExecution env params).run db = .ok (execution, view)) :
    ∃ patch, Writes env db (.startExecution params execution) patch ∧
      view = db.patch patch := by
  unfold startExecution at returned
  simp only at returned
  split at returned
  · next accepted =>
    rcases Session.bind_eq_ok.mp returned with ⟨_, created, ran, rest⟩
    rcases Session.create_eq_ok.mp ran with ⟨_, rfl⟩
    rcases Session.bind_eq_ok.mp rest with ⟨_, inserted, ran2, rest2⟩
    rcases Session.bind_eq_ok.mp rest2 with ⟨_, emitted, ran3, rest3⟩
    rcases Session.pure_eq_ok.mp rest3 with ⟨rfl, rfl⟩
    rcases emit_ok ran3 with ⟨rows, describes, rfl⟩
    refine ⟨_, .start accepted describes, ?_⟩
    rw [insertMany_ok ran2, set_newExecution, Db.patch_append_events,
      Db.patch_append_inserts ⟨rfl, rfl, rfl, rfl⟩]
    simp only [Patch.append_eq, List.nil_append, List.append_nil]
    rfl
  · exact absurd returned Session.throw_eq_ok

/-- A callback that returns wrote the patch of its operation. -/
theorem Op.run_ok (keyed : db.Keyed) {op : Op Val} {reply : Reply Val}
    (returned : (op.run env).run db = .ok (reply, view)) :
    ∃ patch, Writes env db reply patch ∧ view = db.patch patch := by
  cases op with
  | startExecution params =>
      rcases Session.bind_eq_ok.mp returned with ⟨execution, _, ran, rest⟩
      rcases Session.pure_eq_ok.mp rest with ⟨rfl, rfl⟩
      exact startExecution_ok ran
  | pauseExecution executionId =>
      rcases Session.bind_eq_ok.mp returned with ⟨paused, _, ran, rest⟩
      rcases Session.pure_eq_ok.mp rest with ⟨rfl, rfl⟩
      exact pauseExecution_ok keyed ran
  | resumeExecution executionId =>
      rcases Session.bind_eq_ok.mp returned with ⟨resumed, _, ran, rest⟩
      rcases Session.pure_eq_ok.mp rest with ⟨rfl, rfl⟩
      exact resumeExecution_ok keyed ran
  | cancelExecution executionId =>
      rcases Session.bind_eq_ok.mp returned with ⟨cancelled, _, ran, rest⟩
      rcases Session.pure_eq_ok.mp rest with ⟨rfl, rfl⟩
      exact cancelExecution_ok keyed ran
  | completeTask taskId leaseToken output =>
      rcases Session.bind_eq_ok.mp returned with ⟨executionId, _, ran, rest⟩
      rcases Session.pure_eq_ok.mp rest with ⟨rfl, rfl⟩
      exact completeTask_ok keyed ran
  | failTask taskId leaseToken error =>
      rcases Session.bind_eq_ok.mp returned with ⟨result, _, ran, rest⟩
      rcases Session.pure_eq_ok.mp rest with ⟨rfl, rfl⟩
      exact failTask_ok keyed ran
  | suspendForApproval taskId leaseToken request =>
      rcases Session.bind_eq_ok.mp returned with ⟨applied, _, ran, rest⟩
      rcases Session.pure_eq_ok.mp rest with ⟨rfl, rfl⟩
      exact suspendForApproval_ok keyed ran
  | resolveApproval params =>
      rcases Session.bind_eq_ok.mp returned with ⟨taskId, _, ran, rest⟩
      rcases Session.pure_eq_ok.mp rest with ⟨rfl, rfl⟩
      exact resolveApproval_ok keyed ran

end Operations

end WorkflowEngine
