import WorkflowEngine.Workflow.Refinement.Success

/-!
# Failures for good are steps

The commits of `failTask` without a retry and of a rejection.  Fail-fast decides
on tasks it does not write: those its snapshot shows RUNNING may wait for a retry
by now, and the commit leaves them alone.
-/

namespace WorkflowEngine

open DocStore

variable {Val : Type}

namespace Run

/-- The execution after a failure for good of one of its tasks. -/
def failedExecution (execution : WorkflowExecution Val) (task : Task Val)
    (outcome : FailureOutcome) (message : String) (modifiedCount : Nat) (now : Time) :
    WorkflowExecution Val :=
  if execution.status.live = true then
    { execution with
      status := .failed
      error := some (failureText task outcome message)
      completedAt := some now
      pendingTasks := execution.pendingTasks - 1 - modifiedCount }
  else
    { execution with pendingTasks := execution.pendingTasks - 1 }

section Failure

variable (run : Run Val) (task failed : Task Val) (outcome : FailureOutcome) (message : String)
  (retryable : Bool) (missed : Key → Bool) (modifiedCount : Nat) (now : Time)

/-- A failure for good as a change of its run. -/
theorem change_fail (count : run.execution.status.live = true →
      modifiedCount = (replaceIn failed run.tasks).countP (hit missed)) :
    run.change
        { execution := failedExecution run.execution task outcome message modifiedCount now
          task := fun other =>
            if run.execution.status.live = true then
              failedFast missed now (if other.key = failed.key then failed else other)
            else if other.key = failed.key then failed else other
          events := failureEvents run.execution task outcome message retryable } =
      Run.fail task outcome message retryable missed now (run.replace failed) := by
  unfold Run.fail failedExecution
  by_cases live : run.execution.status.live = true
  · simp [change, replace, replaceIn, failureEvents, live, Function.comp_def, count live]
  · simp [change, replace, replaceIn, failureEvents, live]

/-- A failure that an approver or the timeout decided. -/
theorem change_reject (approval : ApprovalRequest Val → ApprovalRequest Val)
    (events : List (EventType × EventPayload)) (count : run.execution.status.live = true →
      modifiedCount = (replaceIn failed run.tasks).countP (hit missed)) :
    run.change
        { execution := failedExecution run.execution task outcome message modifiedCount now
          task := fun other =>
            if run.execution.status.live = true then
              failedFast missed now (if other.key = failed.key then failed else other)
            else if other.key = failed.key then failed else other
          approval
          events := failureEvents run.execution task outcome message retryable ++ events } =
      emit events (Run.fail task outcome message retryable missed now
        { run.replace failed with approvals := run.approvals.map approval }) := by
  unfold Run.fail failedExecution
  by_cases live : run.execution.status.live = true
  · simp [change, replace, replaceIn, failureEvents, emit, live, Function.comp_def, count live]
  · simp [change, replace, replaceIn, failureEvents, emit, live]

end Failure

end Run

/-! ## The documents of the run -/

namespace Db.Commits

variable [Mixed Val] {snapshot db next : Db Val} {patch : Patch Val}

/-- Fail-fast hits the tasks that are as in the snapshot and unstarted. -/
theorem hit_iff (commits : Commits snapshot db patch next) {execution : WorkflowExecution Val}
    {task : Task Val} {own : Script (Task Val)} {now : Time}
    (inSnapshot : execution ∈ snapshot.executions.values)
    (home : task.executionId = execution.id)
    (ownOnly : ∀ update ∈ own, ∀ other, update.filter other = true → other.id = task.id)
    (script : patch.tasks = own ++ [cancelUnstarted task.executionId now])
    {doc : Stored (Task Val)} (membership : doc ∈ db.tasks)
    (docHome : doc.val.executionId = execution.id) (different : doc.val.id ≠ task.id) :
    Run.hit (fun key => snapshot.sawRunning ⟨execution.id, key⟩) doc.val = true ↔
      doc ∈ snapshot.tasks ∧ doc.val.status.unstarted = true := by
  have isId : (⟨execution.id, doc.val.key⟩ : TaskId) = doc.val.id := by
    rw [Task.id, docHome]
  constructor
  · intro hit
    simp only [Run.hit, Bool.and_eq_true, Bool.not_eq_true'] at hit
    refine ⟨?_, hit.1⟩
    rcases commits.twin inSnapshot membership docHome with ⟨twin, twinMem, evolves, _⟩
    have sameId : twin.val.id = doc.val.id := evolves.id_eq.symm
    by_cases unstarted : twin.val.status.unstarted = true
    · refine commits.task_stable membership twinMem sameId ?_
      have unmatched : Script.onStored own twin = twin := by
        apply Script.onStored_of_unmatched
        intro update updateMem
        by_contra matched
        exact different (sameId.symm.trans (ownOnly update updateMem twin.val (by simpa using matched)))
      rw [script, Script.onStored_append, unmatched]
      apply Script.rev_lt_of_filter
      have executionId : twin.val.executionId = execution.id :=
        (congrArg TaskId.executionId sameId).trans docHome
      simp [cancelUnstarted, executionId, home, unstarted]
    · -- the task was RUNNING in the snapshot and waits for a retry by now
      have unfinished := evolves.unfinished (TaskStatus.unfinished_of_unstarted hit.1)
      rcases Task.running_of_unstarted evolves.stage unfinished (by simpa using unstarted) hit.1
        with ⟨running, retrying⟩
      have saw : snapshot.sawRunning ⟨execution.id, doc.val.key⟩ = true := by
        rw [isId, sawRunning, ← sameId,
          commits.snapshotInv.findById_task (Collection.val_mem_values twinMem)]
        exact decide_eq_true running
      rw [saw, retrying] at hit
      cases hit.2
  · rintro ⟨stable, unstarted⟩
    have saw : snapshot.sawRunning ⟨execution.id, doc.val.key⟩ = false := by
      rw [isId, sawRunning,
        commits.snapshotInv.findById_task (Collection.val_mem_values stable)]
      simp only [Option.any_some, decide_eq_false_iff_not]
      intro running
      rw [running] at unstarted
      cases unstarted
    simp only [Run.hit, saw, unstarted, Bool.false_and, Bool.not_false, Bool.and_self]

/-- The tasks after a failure for good. -/
theorem tasks_failure (commits : Commits snapshot db patch next)
    {execution : WorkflowExecution Val} {task failed : Task Val} {own : Script (Task Val)}
    {now : Time} (inserted : patch.newTasks = [])
    (inSnapshot : execution ∈ snapshot.executions.values)
    (home : task.executionId = execution.id)
    (current : ∃ doc ∈ snapshot.tasks, doc ∈ db.tasks ∧ doc.val = task)
    (ownOnly : ∀ update ∈ own, ∀ other, update.filter other = true → other.id = task.id)
    (target : Script.onValue own task = failed) (settled : failed.status.unstarted = false)
    (script : patch.tasks = own ++
      if execution.status.live = true then [cancelUnstarted task.executionId now] else []) :
    next.tasks.values = db.tasks.values.map (fun other =>
        if (other.executionId == execution.id) = true then
          if execution.status.live = true then
            Run.failedFast (fun key => snapshot.sawRunning ⟨execution.id, key⟩) now
              (if other.key = failed.key then failed else other)
          else if other.key = failed.key then failed else other
        else other) ∧
      next.tasks.ids = db.tasks.ids := by
  have isId : failed.id = task.id := by
    rw [← target]
    exact Script.id_onValue own task
  have key : failed.key = task.key := congrArg TaskId.key isId
  refine commits.tasks_own_rest own _ inserted script current home ownOnly ?_ ?_ ?_
  · intro update membership other matched
    split at membership
    · rw [List.mem_singleton.mp membership] at matched
      simp only [cancelUnstarted, Bool.and_eq_true, beq_iff_eq] at matched
      exact matched.1.trans home
    · cases membership
  · rw [target, if_pos key.symm]
    split
    · simp [Update.onValue, cancelUnstarted, Run.failedFast, Run.hit, settled]
    · rfl
  · intro doc membership docHome different
    have keyDifferent : doc.val.key ≠ failed.key := by
      intro same
      apply different
      rw [Task.id, Task.id, docHome, home, same, key]
    rw [if_neg keyDifferent]
    split
    · next live =>
      rw [if_pos live] at script
      have hits := commits.hit_iff inSnapshot home ownOnly script membership docHome different
      by_cases stable : doc ∈ snapshot.tasks
      · rw [Collection.onSnapshot_of_mem stable, Script.val_onStored]
        by_cases unstarted : doc.val.status.unstarted = true
        · simp only [Run.failedFast, hits.mpr ⟨stable, unstarted⟩, if_true]
          simp [Update.onValue, cancelUnstarted, docHome, home, unstarted]
        · have spared : ¬ Run.hit (fun key => snapshot.sawRunning ⟨execution.id, key⟩) doc.val =
              true := fun hit => unstarted (hits.mp hit).2
          simp only [Run.failedFast, if_neg spared]
          simp [Update.onValue, cancelUnstarted, unstarted]
      · have spared : ¬ Run.hit (fun key => snapshot.sawRunning ⟨execution.id, key⟩) doc.val =
            true := fun hit => stable (hits.mp hit).1
        rw [Collection.onSnapshot_of_not_mem stable, Run.failedFast, if_neg spared]
    · exact congrArg Stored.val
        (Collection.Rebased.onSnapshot_eq fun less => absurd less (Nat.lt_irrefl _))

/-- The transaction counted the tasks that its commit cancels. -/
theorem matched_failure (commits : Commits snapshot db patch next)
    {execution : WorkflowExecution Val} {task failed : Task Val} {own : Script (Task Val)}
    {now : Time} (inSnapshot : execution ∈ snapshot.executions.values)
    (home : task.executionId = execution.id) (found : task ∈ snapshot.tasks.values)
    (ownOnly : ∀ update ∈ own, ∀ other, update.filter other = true → other.id = task.id)
    (target : Script.onValue own task = failed) (settled : failed.status.unstarted = false)
    (live : execution.status.live = true)
    (script : patch.tasks = own ++
      if execution.status.live = true then [cancelUnstarted task.executionId now] else []) :
    (snapshot.patch { tasks := own }).tasks.matched (cancelUnstarted task.executionId now) =
      (Run.replaceIn failed (db.runOf execution).tasks).countP
        (Run.hit fun key => snapshot.sawRunning ⟨execution.id, key⟩) := by
  rw [if_pos live] at script
  have key : failed.key = task.key := by
    rw [← target]
    exact congrArg TaskId.key (Script.id_onValue own task)
  have unmatched : ∀ doc : Stored (Task Val), doc.val.id ≠ task.id →
      Script.onStored own doc = doc := by
    intro doc different
    apply Script.onStored_of_unmatched
    intro update membership
    by_contra matched
    exact different (ownOnly update membership doc.val (by simpa using matched))
  have counted : (snapshot.patch { tasks := own }).tasks.matched
      (cancelUnstarted task.executionId now) = snapshot.tasks.countP fun doc =>
        decide (doc.val.id ≠ task.id) && (cancelUnstarted task.executionId now).filter doc.val := by
    rw [show (snapshot.patch { tasks := own }).tasks = snapshot.tasks.rewrite own [] from rfl,
      Collection.matched, Collection.rewrite, List.map_nil, List.append_nil, List.countP_map]
    apply List.countP_congr
    intro doc membership
    rw [Function.comp_apply]
    by_cases same : doc.val.id = task.id
    · have isTask := commits.snapshotInv.task_eq_of_id (Collection.val_mem_values membership)
        found same
      rw [Script.val_onStored, isTask, target]
      simp [cancelUnstarted, settled]
    · rw [unmatched doc same]
      simp [same]
  have committed := commits.tasks.countP_eq commits.snapshotInv.keyed.tasks commits.inv.keyed.tasks
    (fun other => decide (other.id ≠ task.id) &&
      (cancelUnstarted task.executionId now).filter other)
    (fun other => other.executionId == execution.id && (decide (other.id ≠ task.id) &&
      Run.hit (fun key => snapshot.sawRunning ⟨execution.id, key⟩) other)) ?_ ?_
  · rw [counted, committed, Run.replaceIn, List.countP_map, countP_runOf]
    apply List.countP_congr
    intro doc _
    rw [Function.comp_apply]
    by_cases docHome : doc.val.executionId = execution.id
    · by_cases same : doc.val.key = failed.key
      · have isId : doc.val.id = task.id := by
          rw [Task.id, Task.id, docHome, home, same, key]
        simp [isId, same, Run.hit, settled]
      · have different : doc.val.id ≠ task.id := by
          intro isId
          exact same ((congrArg TaskId.key isId).trans key.symm)
        simp [different, same]
    · simp [docHome]
  · intro doc membership counts
    simp only [Bool.and_eq_true, decide_eq_true_eq] at counts
    rw [script, Script.onStored_append, unmatched doc counts.1]
    exact Script.rev_lt_of_filter counts.2
  · intro doc membership
    simp only [Bool.and_eq_true, decide_eq_true_eq, beq_iff_eq]
    constructor
    · rintro ⟨docHome, different, hit⟩
      rcases (commits.hit_iff inSnapshot home ownOnly script membership docHome different).mp hit
        with ⟨stable, unstarted⟩
      exact ⟨stable, different, by simp [cancelUnstarted, docHome, home, unstarted]⟩
    · rintro ⟨stable, different, matched⟩
      simp only [cancelUnstarted, Bool.and_eq_true, beq_iff_eq] at matched
      have docHome : doc.val.executionId = execution.id := matched.1.trans home
      exact ⟨docHome, different, (commits.hit_iff inSnapshot home ownOnly script membership docHome
        different).mpr ⟨stable, matched.2⟩⟩

theorem execution_failure (commits : Commits snapshot db patch next)
    {execution : WorkflowExecution Val} {task : Task Val} {outcome : FailureOutcome}
    {message : String} {modifiedCount : Nat} {now : Time} (inserted : patch.newExecutions = [])
    (found : snapshot.executions.findById task.executionId = some execution)
    (script : patch.executions =
      (failurePatch execution task outcome message modifiedCount now []).executions) :
    execution ∈ db.executions.values ∧
      next.executions.values = db.executions.values.map (fun other =>
        if (other.id == execution.id) = true then
          Run.failedExecution execution task outcome message modifiedCount now
        else other) ∧
      next.executions.ids = db.executions.ids := by
  have home : execution.id = task.executionId :=
    ((Collection.findById_eq_some commits.snapshotInv.keyed.executions).mp found).2
  have first : patch.executions = decrementPending.only execution.id ::
      if execution.status.live = true then
        [Update.only execution.id
          (failing execution.status task outcome message modifiedCount now)]
      else [] := by
    rw [script, failurePatch, home]
  have current := commits.execution_current (by rw [home]; exact found) first rfl
  have member : execution ∈ db.executions.values := by
    rcases current with ⟨doc, _, inCommitted, rfl⟩
    exact Collection.val_mem_values inCommitted
  have changed := commits.executions_one inserted current ?_
  · have value : Script.onValue patch.executions execution =
        Run.failedExecution execution task outcome message modifiedCount now := by
      rw [first, Run.failedExecution]
      split
      · simp [Update.onValue, Update.only, decrementPending, failing, moveExecution]
      · simp [Update.onValue, Update.only, decrementPending]
    rw [value] at changed
    exact ⟨member, changed⟩
  · intro update membership value matched
    rw [first] at membership
    rcases List.mem_cons.mp membership with rfl | later
    · exact Update.id_of_only matched
    · split at later
      · rw [List.mem_singleton.mp later] at matched
        exact Update.id_of_only matched
      · cases later

/-! ## Operations -/

variable {env : Env} {execution : WorkflowExecution Val} {task : Task Val}
  {rows : List OutboxEvent}

omit [Mixed Val] in
theorem failedScript_only {outcome : FailureOutcome} {message : String} {now : Time} :
    ∀ update ∈ failedScript task outcome message now, ∀ other,
      update.filter other = true → other.id = task.id := by
  intro update membership other matched
  unfold failedScript at membership
  rcases List.mem_cons.mp membership with rfl | later
  · exact Update.id_of_only matched
  · split at later
    · rw [List.mem_singleton.mp later] at matched
      exact Update.id_of_only matched
    · cases later

omit [Mixed Val] in
theorem failedScript_onValue {outcome : FailureOutcome} {message : String} {now : Time}
    (running : task.status = .running) :
    Script.onValue (failedScript task outcome message now) task =
      moved outcome.status (failure task.leaseToken message now) task := by
  unfold failedScript
  rw [Script.onValue_cons, transition_onValue rfl (by simp [failure]) running]
  cases outcome with
  | failed => rfl
  | deadLetter =>
      rw [if_pos rfl, Script.onValue_cons, Script.onValue_nil]
      exact @transition_onValue Val .failed .deadLetter unconditional
        (moved .failed (failure task.leaseToken message now) task) task.id rfl rfl rfl

theorem advances_fail {error : Option Thrown} {outcome : FailureOutcome} {modifiedCount : Nat}
    (commits : Commits snapshot db
      (({ tasks := failedScript task outcome (failureMessage error) env.now
          attempts := [Update.only (task.id, task.attempt)
            (closeAttempt (attemptStatusOf error) task.startedAt env.now
              (some ⟨failureMessage error, isRetryable error⟩))] } : Patch Val) ++
        failurePatch execution task outcome (failureMessage error) modifiedCount env.now rows) next)
    (found : snapshot.tasks.findById task.id = some task) (running : task.status = .running)
    (foundExecution : snapshot.executions.findById task.executionId = some execution)
    (isOutcome : outcome = failureOutcome task (isRetryable error))
    (final : isRetryable error = true → task.attempt < task.maxAttempts →
      execution.status.live = false)
    (count : modifiedCount = (snapshot.patch
      { tasks := failedScript task outcome (failureMessage error) env.now }).tasks.matched
        (cancelUnstarted task.executionId env.now))
    (describes : Describes task.executionId
      (failureEvents execution task outcome (failureMessage error) (isRetryable error)) rows) :
    Advances snapshot.sawRunning
      (some (.failTask task.id task.leaseToken error (some (.forGood outcome)))) db next := by
  have search := (Collection.findById_eq_some commits.snapshotInv.keyed.executions).mp
    foundExecution
  have home : task.executionId = execution.id := search.2.symm
  have settled : (moved outcome.status (failure task.leaseToken (failureMessage error) env.now)
      task).status.unstarted = false := by
    cases outcome <;> rfl
  rcases commits.execution_failure rfl foundExecution rfl with
    ⟨member, executions, executionIds⟩
  have current := commits.task_current found rfl (by simp [transition, failure, running])
  have taskMem : task ∈ db.tasks.values := by
    rcases current with ⟨doc, _, inCommitted, rfl⟩
    exact Collection.val_mem_values inCommitted
  have inSnapshotTasks : task ∈ snapshot.tasks.values :=
    ((Collection.findById_eq_some commits.snapshotInv.keyed.tasks).mp found).1
  rcases commits.tasks_failure rfl search.1 home current failedScript_only
    (failedScript_onValue running) settled rfl with ⟨tasks, taskIds⟩
  have changed : Changed db next execution
      { execution := Run.failedExecution execution task outcome (failureMessage error)
          modifiedCount env.now
        task := fun other =>
          if execution.status.live = true then
            Run.failedFast (fun key => snapshot.sawRunning ⟨execution.id, key⟩) env.now
              (if other.key = task.key then
                moved outcome.status (failure task.leaseToken (failureMessage error) env.now) task
              else other)
          else if other.key = task.key then
            moved outcome.status (failure task.leaseToken (failureMessage error) env.now) task
          else other
        events := failureEvents execution task outcome (failureMessage error)
          (isRetryable error) } :=
    ⟨member, executions, tasks, commits.approvals_none rfl,
      commits.outbox_rows (home ▸ describes), executionIds, taskIds, fun _ _ same => same, by simp⟩
  refine changed.advances commits.inv commits.nextKeyed commits.grows ?_
  have step := @Run.Step.fail Val _ (fun key => snapshot.sawRunning ⟨execution.id, key⟩)
    (db.runOf execution) task error env.now (mem_runOf_tasks.mpr ⟨taskMem, home⟩) running final
  rw [← isOutcome, ← Run.change_fail _ _ _ _ _ _ _ modifiedCount] at step
  · exact step
  · intro live
    rw [count]
    exact commits.matched_failure search.1 home inSnapshotTasks failedScript_only
      (failedScript_onValue running) settled live rfl

theorem advances_reject {request : ApprovalRequest Val} {params : ResolveParams}
    {modifiedCount : Nat}
    (commits : Commits snapshot db
      (({ approvals := [Update.only params.approvalId (recordDecision params env.now)]
          tasks := [Update.only task.id (transition .waitingForApproval .failed
            (rejectedTask params env.now))] } : Patch Val) ++
        failurePatch execution task .failed (rejectionText params.decision params.comment)
          modifiedCount env.now rows) next)
    (foundRequest : snapshot.approvals.findById params.approvalId = some request)
    (matched : (recordDecision params env.now).filter request = true)
    (isTask : request.taskId = task.id) (decision : params.decision ≠ .approved)
    (found : snapshot.tasks.findById task.id = some task)
    (waiting : task.status = .waitingForApproval)
    (foundExecution : snapshot.executions.findById task.executionId = some execution)
    (count : modifiedCount = (snapshot.patch
      { tasks := [Update.only task.id (transition .waitingForApproval .failed
          (rejectedTask params env.now))] }).tasks.matched
        (cancelUnstarted task.executionId env.now))
    (describes : Describes task.executionId (failureEvents execution task .failed
      (rejectionText params.decision params.comment) false ++
        [(.approvalDecided params.decision,
          .approvalDecided request.id task.key params.decidedBy)]) rows) :
    Advances snapshot.sawRunning (some (.resolveApproval params env.now (some task.id)))
      db next := by
  have search := (Collection.findById_eq_some commits.snapshotInv.keyed.executions).mp
    foundExecution
  have home : task.executionId = execution.id := search.2.symm
  have requestMem := ((Collection.findById_eq_some commits.snapshotInv.keyed.approvals).mp
    foundRequest).1
  have requestHome : request.executionId = execution.id := by
    rw [commits.snapshotInv.approval_home requestMem, isTask]
    exact home
  have pending : request.status = .pending := by
    simp only [recordDecision, Bool.and_eq_true, decide_eq_true_eq] at matched
    exact matched.1
  have target : Script.onValue [Update.only task.id (transition .waitingForApproval .failed
      (rejectedTask params env.now))] task =
        moved .failed (rejectedTask params env.now) task := by
    rw [Script.onValue_cons, Script.onValue_nil, transition_onValue rfl rfl waiting]
  rcases commits.execution_failure rfl foundExecution rfl with
    ⟨member, executions, executionIds⟩
  have current := commits.task_current found rfl (by simp [transition, rejectedTask, waiting])
  have taskMem : task ∈ db.tasks.values := by
    rcases current with ⟨doc, _, inCommitted, rfl⟩
    exact Collection.val_mem_values inCommitted
  have inSnapshotTasks : task ∈ snapshot.tasks.values :=
    ((Collection.findById_eq_some commits.snapshotInv.keyed.tasks).mp found).1
  rcases commits.tasks_failure rfl search.1 home current task_of_only target rfl rfl with
    ⟨tasks, taskIds⟩
  rcases commits.approvals_decided rfl rfl foundRequest matched requestHome with
    ⟨requestNow, isId, approvals⟩
  have changed : Changed db next execution
      { execution := Run.failedExecution execution task .failed
          (rejectionText params.decision params.comment) modifiedCount env.now
        task := fun other =>
          if execution.status.live = true then
            Run.failedFast (fun key => snapshot.sawRunning ⟨execution.id, key⟩) env.now
              (if other.key = task.key then moved .failed (rejectedTask params env.now) task
              else other)
          else if other.key = task.key then moved .failed (rejectedTask params env.now) task
          else other
        approval := fun other =>
          if other.id = params.approvalId then (recordDecision params env.now).set other else other
        events := failureEvents execution task .failed
          (rejectionText params.decision params.comment) false ++
            [(.approvalDecided params.decision,
              .approvalDecided request.id task.key params.decidedBy)] } :=
    ⟨member, executions, tasks, approvals, commits.outbox_rows (home ▸ describes), executionIds,
      taskIds, fun other _ same => by simp only; split <;> exact same, by simp⟩
  refine changed.advances commits.inv commits.nextKeyed commits.grows ?_
  have step := @Run.Step.reject Val _ (fun key => snapshot.sawRunning ⟨execution.id, key⟩)
    (db.runOf execution) task request params env.now (mem_runOf_tasks.mpr ⟨taskMem, home⟩) waiting
    (mem_runOf_approvals.mpr ⟨requestNow, requestHome⟩) pending isId isTask decision
  rw [← Run.change_reject _ _ _ _ _ _ _ modifiedCount] at step
  · exact step
  · intro live
    rw [count]
    exact commits.matched_failure search.1 home inSnapshotTasks task_of_only target rfl live rfl

end Db.Commits

end WorkflowEngine
