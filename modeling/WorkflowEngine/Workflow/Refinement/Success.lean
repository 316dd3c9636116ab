import WorkflowEngine.Workflow.Commit

/-!
# Successes are steps

The commits of `completeTask` and of an approval: the task itself, the counters of
its children and the counter of the execution.
-/

namespace WorkflowEngine

open DocStore

variable {Val : Type}

/-! ## Statements as functions -/

/-- The statements on the children are the release of the children. -/
theorem releaseScript_onValue (status : ExecutionStatus) (parent : Task Val) (now : Time)
    (task : Task Val) :
    Script.onValue (releaseScript status parent now) task =
      Run.released status parent now task := by
  unfold releaseScript Run.released
  by_cases live : status.live = true
  · by_cases children : parent.dependents.length > 0
    · by_cases running : status = .running
      · subst running
        simp [ExecutionStatus.live, children]
      · simp [live, children, running]
    · have none : parent.dependents = [] := by
        simpa using children
      simp [live, none, Update.onValue, decrementChildren, promoteChildren]
  · simp [live]

/-- Which tasks the statements on the children write depends on their keys only. -/
theorem releaseScript_written {status : ExecutionStatus} {parent : Task Val} {now : Time}
    {doc source : Stored (Task Val)}
    (written : doc.rev < (Script.onStored (releaseScript status parent now) doc).rev)
    (same : source.val.id = doc.val.id) :
    source.rev < (Script.onStored (releaseScript status parent now) source).rev := by
  unfold releaseScript at written ⊢
  split
  · next children =>
    rw [if_pos children] at written
    by_cases child : (decrementChildren parent.executionId parent.dependents).filter doc.val = true
    · apply Script.rev_lt_of_filter
      rw [← child]
      have executionId : source.val.executionId = doc.val.executionId :=
        congrArg TaskId.executionId same
      have key : source.val.key = doc.val.key := congrArg TaskId.key same
      simp only [decrementChildren, executionId, key]
    · have unmatched : Script.onStored (decrementChildren parent.executionId parent.dependents ::
          if status = .running then
            [promoteChildren parent.executionId parent.dependents now]
          else []) doc = doc := by
        apply Script.onStored_of_unmatched
        intro update membership
        rcases List.mem_cons.mp membership with rfl | later
        · simpa using child
        · split at later
          · rw [List.mem_singleton.mp later]
            have notChild : (decrementChildren parent.executionId parent.dependents).filter
                doc.val = false := by simpa using child
            simp only [decrementChildren] at notChild
            simp only [promoteChildren, notChild, Bool.false_and]
          · cases later
      rw [unmatched] at written
      exact absurd written (Nat.lt_irrefl _)
  · next none =>
    rw [if_neg none] at written
    exact absurd written (Nat.lt_irrefl _)

theorem releaseScript_run {status : ExecutionStatus} {parent : Task Val} {now : Time}
    {update : Update (Task Val)} (membership : update ∈ releaseScript status parent now)
    {task : Task Val} (matched : update.filter task = true) :
    task.executionId = parent.executionId := by
  unfold releaseScript at membership
  split at membership
  · rcases List.mem_cons.mp membership with rfl | later
    · simp only [decrementChildren, Bool.and_eq_true, beq_iff_eq] at matched
      exact matched.1
    · split at later
      · rw [List.mem_singleton.mp later] at matched
        simp only [promoteChildren, Bool.and_eq_true, beq_iff_eq] at matched
        exact matched.1.1.1
      · cases later
  · cases membership

/-- The statements of a success on the execution. -/
theorem successPatch_execution (execution : WorkflowExecution Val) {task : Task Val} {now : Time}
    {rows : List OutboxEvent} (home : task.executionId = execution.id) :
    Script.onValue (successPatch execution task now rows).executions execution =
      Run.counted now execution := by
  unfold successPatch Run.counted
  by_cases last : Run.done execution = true
  · have running : execution.status = .running := by
      simp only [Run.done, Bool.and_eq_true, decide_eq_true_eq] at last
      exact last.1
    simp only [last, if_true, Script.onValue_cons, Script.onValue_nil]
    rw [show (Update.only task.executionId decrementPending).onValue execution =
        decrementPending.set execution by
      simp [Update.onValue, Update.only, decrementPending, home]]
    simp [Update.onValue, Update.only, completing, moveExecution, decrementPending, running]
  · simp only [last, Bool.false_eq_true, if_false, Script.onValue_cons, Script.onValue_nil]
    simp [Update.onValue, Update.only, decrementPending, home]

namespace Run

/-- A success as a change of its run. -/
theorem change_succeed (run : Run Val) (task : Task Val) (now : Time) :
    run.change
        { execution := counted now run.execution
          task := fun other => released run.execution.status task now
            (if other.key = task.key then task else other)
          events := successEvents run.execution task now } =
      succeed task now (run.replace task) := by
  simp only [change, succeed, replace, replaceIn, successEvents, List.map_map, List.map_id',
    List.append_nil, List.append_assoc]
  rfl

/-- A success that an approver decided. -/
theorem change_approve (run : Run Val) (task : Task Val) (now : Time)
    (approval : ApprovalRequest Val → ApprovalRequest Val)
    (events : List (EventType × EventPayload)) :
    run.change
        { execution := counted now run.execution
          task := fun other => released run.execution.status task now
            (if other.key = task.key then task else other)
          approval
          events := successEvents run.execution task now ++ events } =
      emit events (succeed task now
        { run.replace task with approvals := run.approvals.map approval }) := by
  simp only [change, succeed, replace, replaceIn, successEvents, emit, List.map_map,
    List.append_nil, List.append_assoc]
  rfl

end Run

/-! ## The documents of the run -/

namespace Db.Commits

variable [Mixed Val] {snapshot db next : Db Val} {patch : Patch Val}

/-- The tasks after a success: the task itself and the release of its children. -/
theorem tasks_success (commits : Commits snapshot db patch next)
    {execution : WorkflowExecution Val} {task : Task Val} {source : TaskStatus}
    {update : Update (Task Val)} {now : Time} (inserted : patch.newTasks = [])
    (inSnapshot : execution ∈ snapshot.executions.values)
    (home : task.executionId = execution.id)
    (found : snapshot.tasks.findById task.id = some task) (status : task.status = source)
    (matched : update.filter task = true)
    (script : patch.tasks = (transition source .completed update).only task.id ::
      releaseScript execution.status (moved .completed update task) now) :
    task ∈ db.tasks.values ∧
      next.tasks.values = db.tasks.values.map (fun other =>
        if (other.executionId == execution.id) = true then
          Run.released execution.status (moved .completed update task) now
            (if other.key = (moved .completed update task).key then moved .completed update task
              else other)
        else other) ∧
      next.tasks.ids = db.tasks.ids := by
  have isId : (moved .completed update task).id = task.id := update.id_set task
  have movedHome : (moved .completed update task).executionId = execution.id :=
    (congrArg TaskId.executionId isId).trans home
  have movedKey : (moved .completed update task).key = task.key := congrArg TaskId.key isId
  have current := commits.task_current found script (by simp [transition, matched, status])
  have member : task ∈ db.tasks.values := by
    rcases current with ⟨doc, _, inCommitted, rfl⟩
    exact Collection.val_mem_values inCommitted
  refine ⟨member, commits.tasks_own_rest [(transition source .completed update).only task.id]
    (releaseScript execution.status (moved .completed update task) now) inserted script current
    home task_of_only ?_ ?_ ?_⟩
  · intro rest restMem other otherMatched
    exact (releaseScript_run restMem otherMatched).trans movedHome
  · rw [releaseScript_onValue, Script.onValue_cons, Script.onValue_nil,
      transition_onValue rfl matched status, if_pos movedKey.symm]
  · intro doc membership docHome different
    have keyDifferent : doc.val.key ≠ (moved .completed update task).key := by
      intro same
      apply different
      rw [Task.id, Task.id, docHome, home, same, movedKey]
    rw [if_neg keyDifferent, ← releaseScript_onValue, ← Script.val_onStored,
      Collection.Rebased.onSnapshot_eq]
    intro written
    rcases commits.twin inSnapshot membership docHome with ⟨twin, twinMem, evolves, _⟩
    have sameId : twin.val.id = doc.val.id := evolves.id_eq.symm
    refine commits.task_stable membership twinMem sameId ?_
    have unmatched : ((transition source .completed update).only task.id).filter twin.val =
        false := by
      simp [Update.only, sameId, different]
    rw [script, Script.onStored_cons, Update.onStored_of_not_filter unmatched]
    exact releaseScript_written written sameId

theorem execution_success (commits : Commits snapshot db patch next)
    {execution : WorkflowExecution Val} {task : Task Val} {now : Time}
    (inserted : patch.newExecutions = [])
    (found : snapshot.executions.findById task.executionId = some execution)
    (script : patch.executions = (successPatch execution task now []).executions) :
    execution ∈ db.executions.values ∧
      next.executions.values = db.executions.values.map (fun other =>
        if (other.id == execution.id) = true then Run.counted now execution else other) ∧
      next.executions.ids = db.executions.ids := by
  have home : execution.id = task.executionId :=
    ((Collection.findById_eq_some commits.snapshotInv.keyed.executions).mp found).2
  have first : patch.executions = decrementPending.only execution.id ::
      if Run.done execution then [Update.only execution.id (completing now)] else [] := by
    rw [script, successPatch, home]
  have current := commits.execution_current (by rw [home]; exact found) first rfl
  have member : execution ∈ db.executions.values := by
    rcases current with ⟨doc, _, inCommitted, rfl⟩
    exact Collection.val_mem_values inCommitted
  have changed := commits.executions_one inserted current ?_
  · rw [script, successPatch_execution execution home.symm] at changed
    exact ⟨member, changed⟩
  · intro update membership value matched
    rw [first] at membership
    rcases List.mem_cons.mp membership with rfl | later
    · exact Update.id_of_only matched
    · split at later
      · rw [List.mem_singleton.mp later] at matched
        exact Update.id_of_only matched
      · cases later

/-! ## Operations -/

variable {env : Env} {execution : WorkflowExecution Val} {task : Task Val}
  {rows : List OutboxEvent}

theorem advances_complete {output : Val}
    (commits : Commits snapshot db
      (({ tasks := [Update.only task.id
            (transition .running .completed (completion task.leaseToken output env.now))]
          attempts := [Update.only (task.id, task.attempt)
            (closeAttempt .succeeded task.startedAt env.now none)] } : Patch Val) ++
        successPatch execution
          (moved .completed (completion task.leaseToken output env.now) task) env.now rows) next)
    (found : snapshot.tasks.findById task.id = some task) (running : task.status = .running)
    (foundExecution : snapshot.executions.findById task.executionId = some execution)
    (describes : Describes task.executionId (successEvents execution
      (moved .completed (completion task.leaseToken output env.now) task) env.now) rows) :
    Advances snapshot.sawRunning (some (.completeTask task.id task.leaseToken output true))
      db next := by
  have search := (Collection.findById_eq_some commits.snapshotInv.keyed.executions).mp
    foundExecution
  have home : task.executionId = execution.id := search.2.symm
  rcases commits.execution_success rfl foundExecution rfl with ⟨member, executions, executionIds⟩
  rcases commits.tasks_success rfl search.1 home found running (by simp [completion]) rfl with
    ⟨taskMem, tasks, taskIds⟩
  have changed : Changed db next execution
      { execution := Run.counted env.now execution
        task := fun other => Run.released execution.status
          (moved .completed (completion task.leaseToken output env.now) task) env.now
            (if other.key = task.key then
              moved .completed (completion task.leaseToken output env.now) task else other)
        events := successEvents execution
          (moved .completed (completion task.leaseToken output env.now) task) env.now } :=
    ⟨member, executions, tasks, commits.approvals_none rfl,
      commits.outbox_rows (home ▸ describes), executionIds, taskIds, fun _ _ same => same, by simp⟩
  refine changed.advances commits.inv commits.nextKeyed commits.grows ?_
  have step := @Run.Step.complete Val _ (fun key => snapshot.sawRunning ⟨execution.id, key⟩)
    (db.runOf execution) task output env.now (mem_runOf_tasks.mpr ⟨taskMem, home⟩) running
  rwa [← Run.change_succeed] at step

/-- The decision on one request. -/
theorem approvals_decided (commits : Commits snapshot db patch next)
    {request : ApprovalRequest Val} {params : ResolveParams} {now : Time}
    (inserted : patch.newApprovals = [])
    (script : patch.approvals = [Update.only params.approvalId (recordDecision params now)])
    (found : snapshot.approvals.findById params.approvalId = some request)
    (matched : (recordDecision params now).filter request = true)
    (home : request.executionId = execution.id) :
    request ∈ db.approvals.values ∧ request.id = params.approvalId ∧
      next.approvals.values = (db.approvals.values.map fun other =>
        if (other.executionId == execution.id) = true then
          if other.id = params.approvalId then (recordDecision params now).set other else other
        else other) ++ [] := by
  have search := (Collection.findById_eq_some commits.snapshotInv.keyed.approvals).mp found
  rcases Collection.mem_values.mp search.1 with ⟨doc, inSnapshot, rfl⟩
  have isId : doc.val.id = params.approvalId := search.2
  have rebased := commits.approvals
  rw [script] at rebased
  have inCommitted : doc ∈ db.approvals := rebased.current_of_filter inSnapshot (by
    simp only [Update.only, document_id_approval, isId, decide_true, Bool.true_and]
    exact matched)
  have unmatched : ∀ other ∈ db.approvals, other.val.id ≠ params.approvalId →
      (Update.only params.approvalId (recordDecision params now)).filter other.val = false := by
    intro other _ different
    simp [Update.only, different]
  refine ⟨Collection.val_mem_values inCommitted, isId, commits.approvals_run execution _ inserted ?_ ?_⟩
  · intro other membership elsewhere update updateMem
    rw [script] at updateMem
    rw [List.mem_singleton.mp updateMem]
    apply unmatched other membership
    intro same
    cases Collection.eq_of_idOf_eq commits.inv.keyed.approvals membership inCommitted
      (same.trans isId.symm)
    exact elsewhere home
  · intro other membership _
    rw [script]
    by_cases same : other.val.id = params.approvalId
    · cases Collection.eq_of_idOf_eq commits.inv.keyed.approvals membership inCommitted
        (same.trans isId.symm)
      rw [Collection.onSnapshot_of_mem inSnapshot, Script.val_onStored, if_pos isId]
      simp [Update.onValue, Update.only, isId, matched]
    · have kept : Script.onStored [Update.only params.approvalId (recordDecision params now)]
          other = other :=
        Script.onStored_of_unmatched fun update updateMem =>
          List.mem_singleton.mp updateMem ▸ unmatched other membership same
      rw [if_neg same, Collection.Rebased.onSnapshot_eq
        (by rw [kept]; exact fun less => absurd less (Nat.lt_irrefl _)), kept]

theorem advances_approve {request : ApprovalRequest Val} {params : ResolveParams}
    (commits : Commits snapshot db
      (({ approvals := [Update.only params.approvalId (recordDecision params env.now)]
          tasks := [Update.only task.id (transition .waitingForApproval .completed
            (approvedTask params env.now))] } : Patch Val) ++
        successPatch execution (moved .completed (approvedTask params env.now) task) env.now rows)
      next)
    (foundRequest : snapshot.approvals.findById params.approvalId = some request)
    (matched : (recordDecision params env.now).filter request = true)
    (isTask : request.taskId = task.id) (decision : params.decision = .approved)
    (found : snapshot.tasks.findById task.id = some task)
    (waiting : task.status = .waitingForApproval)
    (foundExecution : snapshot.executions.findById task.executionId = some execution)
    (describes : Describes task.executionId (successEvents execution
      (moved .completed (approvedTask params env.now) task) env.now ++
        [(.approvalDecided params.decision,
          .approvalDecided request.id task.key params.decidedBy)]) rows) :
    Advances snapshot.sawRunning (some (.resolveApproval params env.now (some task.id)))
      db next := by
  have search := (Collection.findById_eq_some commits.snapshotInv.keyed.executions).mp
    foundExecution
  have home : task.executionId = execution.id := search.2.symm
  have requestMem := ((Collection.findById_eq_some commits.snapshotInv.keyed.approvals).mp
    foundRequest).1
  have requestHome : request.executionId = execution.id := by
    rw [commits.snapshotInv.approval_home requestMem, isTask]
    exact home
  have pending : request.status = .pending := by
    simp only [recordDecision, Bool.and_eq_true, decide_eq_true_eq] at matched
    exact matched.1
  rcases commits.execution_success rfl foundExecution rfl with ⟨member, executions, executionIds⟩
  rcases commits.tasks_success rfl search.1 home found waiting rfl rfl with
    ⟨taskMem, tasks, taskIds⟩
  rcases commits.approvals_decided rfl rfl foundRequest matched requestHome with
    ⟨requestNow, isId, approvals⟩
  have changed : Changed db next execution
      { execution := Run.counted env.now execution
        task := fun other => Run.released execution.status
          (moved .completed (approvedTask params env.now) task) env.now
            (if other.key = task.key then moved .completed (approvedTask params env.now) task
              else other)
        approval := fun other =>
          if other.id = params.approvalId then (recordDecision params env.now).set other else other
        events := successEvents execution
          (moved .completed (approvedTask params env.now) task) env.now ++
            [(.approvalDecided params.decision,
              .approvalDecided request.id task.key params.decidedBy)] } :=
    ⟨member, executions, tasks, approvals, commits.outbox_rows (home ▸ describes), executionIds,
      taskIds, fun other _ same => by simp only; split <;> exact same, by simp⟩
  refine changed.advances commits.inv commits.nextKeyed commits.grows ?_
  have step := @Run.Step.approve Val _ (fun key => snapshot.sawRunning ⟨execution.id, key⟩)
    (db.runOf execution) task request params env.now (mem_runOf_tasks.mpr ⟨taskMem, home⟩) waiting
    (mem_runOf_approvals.mpr ⟨requestNow, requestHome⟩) pending isId isTask decision
  rwa [← Run.change_approve] at step

end Db.Commits

end WorkflowEngine
