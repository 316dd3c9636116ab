import WorkflowEngine.Workflow.Commit

/-!
# Pauses, cancellations and postponements are steps

The commits that finish no task by a report: pause, resume, cancel, a retry and a
suspension.  Cancel and resume select tasks by their status, and the argument that
a selected task is still as in the snapshot uses that a run only moves forward.
-/

namespace WorkflowEngine

open DocStore

variable {Val : Type}

namespace Db.Commits

variable [Mixed Val] {snapshot db next : Db Val} {patch : Patch Val} {env : Env}
  {execution : WorkflowExecution Val} {task : Task Val} {rows : List OutboxEvent}

/-! ## One task -/

/-- The task after a statement on it alone. -/
theorem tasks_moved (commits : Commits snapshot db patch next) {update : Update (Task Val)}
    (inserted : patch.newTasks = []) (home : task.executionId = execution.id)
    (found : snapshot.tasks.findById task.id = some task) (matched : update.filter task = true)
    (script : patch.tasks = [update.only task.id]) :
    task ∈ db.tasks.values ∧
      next.tasks.values = db.tasks.values.map (fun other =>
        if (other.executionId == execution.id) = true then
          if other.key = (update.set task).key then update.set task else other
        else other) ∧
      next.tasks.ids = db.tasks.ids := by
  have isId : (update.set task).id = task.id := update.id_set task
  have key : (update.set task).key = task.key := congrArg TaskId.key isId
  have current := commits.task_current found script matched
  have member : task ∈ db.tasks.values := by
    rcases current with ⟨doc, _, inCommitted, rfl⟩
    exact Collection.val_mem_values inCommitted
  refine ⟨member, commits.tasks_own_rest [update.only task.id] [] inserted script current home
    task_of_only nofun ?_ ?_⟩
  · rw [Script.onValue_nil, Script.onValue_cons, Script.onValue_nil, if_pos key.symm]
    simp [Update.onValue, Update.only, matched]
  · intro doc _ docHome different
    have keyDifferent : doc.val.key ≠ (update.set task).key := by
      intro same
      apply different
      rw [Task.id, Task.id, docHome, home, same, key]
    rw [if_neg keyDifferent]
    exact congrArg Stored.val
      (Collection.Rebased.onSnapshot_eq fun less => absurd less (Nat.lt_irrefl _))

/-- A change of one task that leaves the execution alone. -/
theorem execution_of_task (commits : Commits snapshot db patch next)
    (membership : task ∈ db.tasks.values) :
    ∃ execution ∈ db.executions.values, task.executionId = execution.id := by
  rcases commits.inv.exists_run membership with ⟨execution, executionMem, same, _⟩
  exact ⟨execution, executionMem, same.symm⟩

theorem advances_retry {error : Option Thrown} {delayMs : Nat}
    (commits : Commits snapshot db
      { tasks := [Update.only task.id (transition .running .retrying
          (postponement task.leaseToken (failureMessage error) (env.now + delayMs)))]
        attempts := [Update.only (task.id, task.attempt)
          (closeAttempt (attemptStatusOf error) task.startedAt env.now
            (some ⟨failureMessage error, isRetryable error⟩))]
        newEvents := rows } next)
    (found : snapshot.tasks.findById task.id = some task) (running : task.status = .running)
    (retryable : isRetryable error = true) (attemptsLeft : task.attempt < task.maxAttempts)
    (describes : Describes task.executionId [(.taskRetrying,
      .taskRetrying task.id task.key task.attempt delayMs (failureMessage error))] rows) :
    Advances snapshot.sawRunning
      (some (.failTask task.id task.leaseToken error (some (.retrying delayMs)))) db next := by
  have current := commits.task_current found rfl (by simp [transition, postponement, running])
  have taskMem : task ∈ db.tasks.values := by
    rcases current with ⟨doc, _, inCommitted, rfl⟩
    exact Collection.val_mem_values inCommitted
  rcases commits.execution_of_task taskMem with ⟨execution, member, home⟩
  rcases commits.tasks_moved rfl home found
    (by simp [transition, postponement, running]) rfl with ⟨_, tasks, taskIds⟩
  rcases commits.executions_none member rfl rfl with ⟨executions, executionIds⟩
  have changed : Changed db next execution
      { execution
        task := fun other =>
          if other.key = task.key then
            moved .retrying
              (postponement task.leaseToken (failureMessage error) (env.now + delayMs)) task
          else other
        events := [(.taskRetrying,
          .taskRetrying task.id task.key task.attempt delayMs (failureMessage error))] } :=
    ⟨member, executions, tasks, commits.approvals_none rfl,
      commits.outbox_rows (home ▸ describes), executionIds, taskIds, fun _ _ same => same, by simp⟩
  refine changed.advances commits.inv commits.nextKeyed commits.grows ?_
  have step := @Run.Step.retry Val _ (fun key => snapshot.sawRunning ⟨execution.id, key⟩)
    (db.runOf execution) task error delayMs env.now (mem_runOf_tasks.mpr ⟨taskMem, home⟩) running
    retryable attemptsLeft
  simp only [Run.change, List.map_id', List.append_nil]
  exact step

theorem advances_suspend {request : ApprovalParams Val}
    (commits : Commits snapshot db
      { tasks := [Update.only task.id
          (transition .running .waitingForApproval (suspension task.leaseToken))]
        attempts := [Update.only (task.id, task.attempt)
          (closeAttempt .suspended task.startedAt env.now none)]
        newApprovals := [newApproval env task request]
        newEvents := rows } next)
    (found : snapshot.tasks.findById task.id = some task) (running : task.status = .running)
    (describes : Describes task.executionId [(.approvalRequested, .approvalRequested env.objectId
      task.id task.key (newApproval env task request).expiresAt)] rows) :
    Advances snapshot.sawRunning (some (.suspendForApproval task.id task.leaseToken true))
      db next := by
  have current := commits.task_current found rfl (by simp [transition, suspension, running])
  have taskMem : task ∈ db.tasks.values := by
    rcases current with ⟨doc, _, inCommitted, rfl⟩
    exact Collection.val_mem_values inCommitted
  rcases commits.execution_of_task taskMem with ⟨execution, member, home⟩
  rcases commits.tasks_moved rfl home found
    (by simp [transition, suspension, running]) rfl with ⟨_, tasks, taskIds⟩
  rcases commits.executions_none member rfl rfl with ⟨executions, executionIds⟩
  have unique : ∀ other ∈ (db.runOf execution).approvals,
      other.id ≠ env.objectId ∧ other.taskId ≠ task.id := by
    intro other membership
    rcases Collection.mem_values.mp (mem_runOf_approvals.mp membership).1 with ⟨doc, docMem, rfl⟩
    have clear := commits.approvals.fresh (newApproval env task request) List.mem_cons_self
    have apart := List.any_eq_false.mp clear doc docMem
    simp only [Bool.or_eq_true, decide_eq_true_eq, not_or] at apart
    exact ⟨apart.1, fun same => apart.2 (beq_iff_eq.mpr same)⟩
  have changed : Changed db next execution
      { execution
        task := fun other =>
          if other.key = task.key then
            moved .waitingForApproval (suspension task.leaseToken) task
          else other
        newApprovals := [newApproval env task request]
        events := [(.approvalRequested, .approvalRequested env.objectId task.id task.key
          (newApproval env task request).expiresAt)] } := by
    refine ⟨member, executions, tasks, commits.approvals_none rfl,
      commits.outbox_rows (home ▸ describes), executionIds, taskIds, fun _ _ same => same, ?_⟩
    intro other membership
    rw [List.mem_singleton.mp membership]
    exact home
  refine changed.advances commits.inv commits.nextKeyed commits.grows ?_
  have step := @Run.Step.suspend Val _ (fun key => snapshot.sawRunning ⟨execution.id, key⟩)
    (db.runOf execution) task env request (mem_runOf_tasks.mpr ⟨taskMem, home⟩) running
    (fun other membership => (unique other membership).2)
    (fun other membership => (unique other membership).1)
  simp only [Run.change, List.map_id']
  exact step

/-! ## The whole run -/

/-- A statement on the tasks of the run whose matches are as in the snapshot. -/
theorem tasks_selected (commits : Commits snapshot db patch next) {update : Update (Task Val)}
    (inserted : patch.newTasks = []) (script : patch.tasks = [update])
    (runOnly : ∀ task, update.filter task = true → task.executionId = execution.id)
    (stable : ∀ doc ∈ db.tasks, update.filter doc.val = true → doc ∈ snapshot.tasks) :
    next.tasks.values = db.tasks.values.map (fun other =>
        if (other.executionId == execution.id) = true then update.onValue other else other) ∧
      next.tasks.ids = db.tasks.ids := by
  refine commits.tasks_run inserted ?_ ?_
  · intro statement membership other matched
    rw [script] at membership
    rw [List.mem_singleton.mp membership] at matched
    exact runOnly other matched
  · intro doc membership _
    rw [script, Collection.Rebased.onSnapshot_eq fun written =>
      stable doc membership (Script.filter_of_written written), Script.val_onStored]
    rfl

theorem advances_pause
    (commits : Commits snapshot db
      { executions := [Update.only execution.id (moveExecution .running .paused id fun _ => rfl)]
        newEvents := rows } next)
    (found : snapshot.executions.findById execution.id = some execution)
    (running : execution.status = .running)
    (describes : Describes execution.id [(.executionPaused, .empty)] rows) :
    Advances snapshot.sawRunning (some (.pauseExecution execution.id true)) db next := by
  have current := commits.execution_current found rfl (by simp [moveExecution, running])
  have member : execution ∈ db.executions.values := by
    rcases current with ⟨doc, _, inCommitted, rfl⟩
    exact Collection.val_mem_values inCommitted
  rcases commits.executions_one rfl current (fun update membership value matched =>
    Update.id_of_only (List.mem_singleton.mp membership ▸ matched)) with
    ⟨executions, executionIds⟩
  rcases commits.tasks_none rfl rfl with ⟨tasks, taskIds⟩
  have changed : Changed db next execution
      { execution := { execution with status := .paused }
        events := [(.executionPaused, .empty)] } := by
    refine ⟨member, executions.trans ?_, tasks, commits.approvals_none rfl,
      commits.outbox_rows describes, executionIds, taskIds, fun _ _ same => same, by simp⟩
    simp [Update.onValue, Update.only, moveExecution, running]
  refine changed.advances commits.inv commits.nextKeyed commits.grows ?_
  have step := @Run.Step.pause Val _ (fun key => snapshot.sawRunning ⟨execution.id, key⟩)
    (db.runOf execution) running
  simp only [Run.change, List.map_id', List.append_nil]
  exact step

theorem advances_resume
    (commits : Commits snapshot db
      { executions :=
          Update.only execution.id (moveExecution .paused .running id fun _ => rfl) ::
            if execution.pendingTasks = 0 then
              [Update.only execution.id (completing env.now)]
            else []
        tasks := [promotePending execution.id env.now]
        newEvents := rows } next)
    (found : snapshot.executions.findById execution.id = some execution)
    (paused : execution.status = .paused)
    (describes : Describes execution.id ((.executionResumed, .empty) ::
      if execution.pendingTasks = 0 then [(.executionCompleted, .empty)] else []) rows) :
    Advances snapshot.sawRunning (some (.resumeExecution execution.id true)) db next := by
  have inSnapshot := ((Collection.findById_eq_some commits.snapshotInv.keyed.executions).mp
    found).1
  have current := commits.execution_current found rfl (by simp [moveExecution, paused])
  have member : execution ∈ db.executions.values := by
    rcases current with ⟨doc, _, inCommitted, rfl⟩
    exact Collection.val_mem_values inCommitted
  rcases commits.executions_one rfl current (fun update membership value matched => by
    rcases List.mem_cons.mp membership with rfl | later
    · exact Update.id_of_only matched
    · split at later
      · rw [List.mem_singleton.mp later] at matched
        exact Update.id_of_only matched
      · cases later) with ⟨executions, executionIds⟩
  have stable : ∀ doc ∈ db.tasks, (promotePending execution.id env.now).filter doc.val = true →
      doc ∈ snapshot.tasks := by
    intro doc membership matched
    simp only [promotePending, Bool.and_eq_true, beq_iff_eq, decide_eq_true_eq] at matched
    rcases matched with ⟨⟨docHome, pending⟩, enabled⟩
    rcases commits.twin inSnapshot membership docHome with
      ⟨twin, twinMem, evolves, remainingDeps⟩
    have sameId : twin.val.id = doc.val.id := evolves.id_eq.symm
    refine commits.task_stable membership twinMem sameId (Script.rev_lt_of_filter ?_)
    have twinHome : twin.val.executionId = execution.id :=
      (congrArg TaskId.executionId sameId).trans docHome
    have twinPending : twin.val.status = .pending :=
      Task.pending_of_stage (pending ▸ evolves.stage)
    -- the execution is as in the snapshot, so no dependency counter moved
    have twinEnabled : twin.val.remainingDeps = 0 :=
      (remainingDeps execution member rfl rfl).symm.trans enabled
    simp [promotePending, twinHome, twinPending, twinEnabled]
  rcases commits.tasks_selected rfl rfl (fun other matched => by
    simp only [promotePending, Bool.and_eq_true, beq_iff_eq] at matched
    exact matched.1.1) stable with ⟨tasks, taskIds⟩
  have changed : Changed db next execution
      { execution := Run.resumed env.now execution
        task := (promotePending execution.id env.now).onValue
        events := (.executionResumed, .empty) ::
          if execution.pendingTasks = 0 then [(.executionCompleted, .empty)] else [] } := by
    refine ⟨member, executions.trans ?_, tasks, commits.approvals_none rfl,
      commits.outbox_rows describes, executionIds, taskIds, fun _ _ same => same, by simp⟩
    have value : Script.onValue
        (Update.only execution.id (moveExecution .paused .running id fun _ => rfl) ::
          if execution.pendingTasks = 0 then
            [Update.only execution.id (completing env.now)]
          else []) execution = Run.resumed env.now execution := by
      unfold Run.resumed
      split <;> simp [Update.onValue, Update.only, moveExecution, completing, paused]
    rw [value]
  refine changed.advances commits.inv commits.nextKeyed commits.grows ?_
  have step := @Run.Step.resume Val _ (fun key => snapshot.sawRunning ⟨execution.id, key⟩)
    (db.runOf execution) env.now paused
  simp only [Run.change, List.map_id', List.append_nil]
  exact step

/-- An unfinished task of a run whose cancellation commits is as in the snapshot. -/
theorem unfinished_stable (commits : Commits snapshot db patch next) {now : Time}
    (inSnapshot : execution ∈ snapshot.executions.values)
    (script : patch.tasks = [cancelUnfinished execution.id now]) {doc : Stored (Task Val)}
    (membership : doc ∈ db.tasks)
    (matched : (cancelUnfinished execution.id now).filter doc.val = true) :
    doc ∈ snapshot.tasks := by
  simp only [cancelUnfinished, Bool.and_eq_true, beq_iff_eq] at matched
  rcases commits.twin inSnapshot membership matched.1 with ⟨twin, twinMem, evolves, _⟩
  have sameId : twin.val.id = doc.val.id := evolves.id_eq.symm
  refine commits.task_stable membership twinMem sameId ?_
  rw [script]
  apply Script.rev_lt_of_filter
  have twinHome : twin.val.executionId = execution.id :=
    (congrArg TaskId.executionId sameId).trans matched.1
  simp [cancelUnfinished, twinHome, evolves.unfinished matched.2]

/-- A PENDING request of a run whose cancellation commits is as in the snapshot: its
task waits, so it waited in the snapshot, and there the request was PENDING. -/
theorem pending_stable (commits : Commits snapshot db patch next) {now : Time}
    (inSnapshot : execution ∈ snapshot.executions.values)
    (member : execution ∈ db.executions.values)
    (tasksScript : patch.tasks = [cancelUnfinished execution.id now])
    (script : patch.approvals = [cancelApprovals execution.id now])
    {doc : Stored (ApprovalRequest Val)} (membership : doc ∈ db.approvals)
    (matched : (cancelApprovals execution.id now).filter doc.val = true) :
    doc ∈ snapshot.approvals := by
  simp only [cancelApprovals, Bool.and_eq_true, beq_iff_eq, decide_eq_true_eq] at matched
  rcases matched with ⟨docHome, pending⟩
  have inStep := (commits.inv.runInv member).inStep
  have docRun : doc.val ∈ (db.runOf execution).approvals :=
    mem_runOf_approvals.mpr ⟨Collection.val_mem_values membership, docHome⟩
  rcases inStep.agrees doc.val docRun with ⟨task, taskMem, taskId, waiting⟩
  rw [pending] at waiting
  have taskRun := mem_runOf_tasks.mp taskMem
  rcases Collection.mem_values.mp taskRun.1 with ⟨taskDoc, taskDocMem, rfl⟩
  have taskSnapshot : taskDoc ∈ snapshot.tasks := by
    apply commits.unfinished_stable inSnapshot tasksScript taskDocMem
    simp only [cancelUnfinished, Bool.and_eq_true, beq_iff_eq]
    exact ⟨taskRun.2, by rw [waiting]; rfl⟩
  rcases (commits.snapshotInv.runInv inSnapshot).inStep.waiting taskDoc.val
    (mem_runOf_tasks.mpr ⟨Collection.val_mem_values taskSnapshot, taskRun.2⟩) waiting with
    ⟨request, requestMem, requestTask, requestPending⟩
  rcases commits.since.runs execution inSnapshot with ⟨later, laterMem, laterId, evolves⟩
  cases commits.inv.eq_of_id laterMem member laterId
  rcases evolves.approvals request requestMem with ⟨now', nowMem, nowId, nowTask⟩
  have same : now' = doc.val :=
    inStep.eq_of_taskId nowMem docRun (by rw [nowTask, requestTask, taskId])
  rcases Collection.mem_values.mp (mem_runOf_approvals.mp requestMem).1 with
    ⟨source, sourceMem, rfl⟩
  have current := commits.approvals.current source sourceMem (by
    rw [script]
    apply Script.rev_lt_of_filter
    simp [cancelApprovals, requestPending, (mem_runOf_approvals.mp requestMem).2])
  exact Collection.eq_of_idOf_eq commits.inv.keyed.approvals current membership
    (nowId.symm.trans (congrArg ApprovalRequest.id same)) ▸ sourceMem

theorem advances_cancel {modifiedCount : Nat}
    (commits : Commits snapshot db
      { executions :=
          [Update.only execution.id (cancelling execution.status modifiedCount env.now)]
        tasks := [cancelUnfinished execution.id env.now]
        approvals := [cancelApprovals execution.id env.now]
        newEvents := rows } next)
    (found : snapshot.executions.findById execution.id = some execution)
    (live : execution.status.live = true)
    (count : modifiedCount = snapshot.tasks.matched (cancelUnfinished execution.id env.now))
    (describes : Describes execution.id
      [(.executionCancelled, .executionCancelled modifiedCount)] rows) :
    Advances snapshot.sawRunning (some (.cancelExecution execution.id true)) db next := by
  have inSnapshot := ((Collection.findById_eq_some commits.snapshotInv.keyed.executions).mp
    found).1
  have current := commits.execution_current found rfl (by simp [cancelling, moveExecution])
  have member : execution ∈ db.executions.values := by
    rcases current with ⟨doc, _, inCommitted, rfl⟩
    exact Collection.val_mem_values inCommitted
  have countNow : modifiedCount =
      (db.runOf execution).tasks.countP fun task => task.status.unfinished := by
    rw [count, countP_runOf, Collection.matched]
    refine commits.tasks.countP_eq commits.snapshotInv.keyed.tasks commits.inv.keyed.tasks
      (cancelUnfinished execution.id env.now).filter
      (cancelUnfinished execution.id env.now).filter
      (fun doc _ matched => Script.rev_lt_of_filter matched) ?_
    intro doc membership
    constructor
    · intro matched
      exact ⟨commits.unfinished_stable inSnapshot rfl membership matched, matched⟩
    · exact fun both => both.2
  rcases commits.executions_one rfl current (fun update membership value matched =>
    Update.id_of_only (List.mem_singleton.mp membership ▸ matched)) with
    ⟨executions, executionIds⟩
  rcases commits.tasks_selected rfl rfl (fun other matched => by
    simp only [cancelUnfinished, Bool.and_eq_true, beq_iff_eq] at matched
    exact matched.1) (fun doc membership =>
      commits.unfinished_stable inSnapshot rfl membership) with ⟨tasks, taskIds⟩
  have approvals := commits.approvals_run execution
    (cancelApprovals execution.id env.now).onValue rfl ?_ ?_
  · have changed : Changed db next execution
        { execution :=
            { execution with
              status := .cancelled
              completedAt := some env.now
              error := some "Cancelled by user"
              pendingTasks := execution.pendingTasks - modifiedCount }
          task := (cancelUnfinished execution.id env.now).onValue
          approval := (cancelApprovals execution.id env.now).onValue
          events := [(.executionCancelled, .executionCancelled modifiedCount)] } := by
      refine ⟨member, executions.trans ?_, tasks, approvals, commits.outbox_rows describes,
        executionIds, taskIds, fun request _ home => ?_, by simp⟩
      · simp [Update.onValue, Update.only, cancelling, moveExecution]
      · simp only [Update.onValue]
        split <;> exact home
    refine changed.advances commits.inv commits.nextKeyed commits.grows ?_
    have step := @Run.Step.cancel Val _ (fun key => snapshot.sawRunning ⟨execution.id, key⟩)
      (db.runOf execution) env.now live
    simp only [Run.change, List.append_nil, countNow]
    exact step
  · intro doc _ elsewhere update updateMem
    rw [List.mem_singleton.mp updateMem]
    simp [cancelApprovals, elsewhere]
  · intro doc membership _
    rw [Collection.Rebased.onSnapshot_eq fun written =>
      commits.pending_stable inSnapshot member rfl rfl membership
        (Script.filter_of_written written), Script.val_onStored]
    rfl

end Db.Commits

end WorkflowEngine
