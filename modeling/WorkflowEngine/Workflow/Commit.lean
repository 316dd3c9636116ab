import WorkflowEngine.Workflow.Database

/-!
# Commits refine the steps of a run

A transaction decided on its snapshot and commits into a later database.  The
documents it wrote are still as in the snapshot, or the commit is refused.  For
every operation the documents it did not write but decided on are shown to be
unchanged as well, so the commit is a step of the run, with two exceptions that
the steps name: a retry and a fail-fast cancellation.
-/

namespace WorkflowEngine

open DocStore

variable {Val : Type}

/-- The snapshot shows the task RUNNING. -/
def Db.sawRunning (snapshot : Db Val) (taskId : TaskId) : Bool :=
  (snapshot.tasks.findById taskId).any fun task => decide (task.status = .running)

theorem task_of_only {taskId : TaskId} {update : Update (Task Val)} :
    ∀ own ∈ [update.only taskId], ∀ task, own.filter task = true → task.id = taskId := by
  intro own membership task matched
  rw [List.mem_singleton.mp membership] at matched
  exact Update.id_of_only matched

variable [Mixed Val]

namespace Db

/-- A transaction that ran on `snapshot` and committed into `db`. -/
structure Commits (snapshot db : Db Val) (patch : Patch Val) (next : Db Val) : Prop where
  snapshotInv : snapshot.Inv
  inv : db.Inv
  since : Since snapshot db
  keyed : (snapshot.patch patch).Keyed
  executions : Collection.Rebased db.executions snapshot.executions patch.executions
    patch.newExecutions next.executions
  tasks : Collection.Rebased db.tasks snapshot.tasks patch.tasks patch.newTasks next.tasks
  attempts : Collection.Rebased db.attempts snapshot.attempts patch.attempts patch.newAttempts
    next.attempts
  approvals : Collection.Rebased db.approvals snapshot.approvals patch.approvals
    patch.newApprovals next.approvals
  outbox : Collection.Rebased db.outbox snapshot.outbox [] patch.newEvents next.outbox

/-- What was inserted into a view without duplicates was not in its snapshot. -/
theorem fresh_of_keyed {V I : Type} [Document V I] {collection : Collection V}
    {script : Script V} {inserted : List V}
    (nodup : (Collection.ids (collection.rewrite script inserted)).Nodup) :
    ∀ value ∈ inserted, Document.id value ∉ collection.ids := by
  rw [Collection.ids_rewrite] at nodup
  intro value membership present
  exact (List.nodup_append'.mp nodup).2.2 present (List.mem_map_of_mem membership)

omit [Mixed Val] in
/-- An event has no other unique index than its id. -/
theorem unique_event {outbox : Collection OutboxEvent} {row : OutboxEvent}
    (absent : Document.id row ∉ outbox.ids) : outbox.duplicates row = false := by
  apply List.any_eq_false.mpr
  intro doc docMem
  rw [Bool.or_eq_true, decide_eq_true_eq, not_or]
  exact ⟨fun same => absent (same ▸ Collection.idOf_mem_ids docMem), Bool.false_ne_true⟩

omit [Mixed Val] in
/-- The commit of a transaction that ran alone is not refused. -/
theorem commit_self {db : Db Val} {patch : Patch Val} (keyed : db.Keyed)
    (executions : ∀ value ∈ patch.newExecutions, db.executions.duplicates value = false)
    (tasks : ∀ value ∈ patch.newTasks, db.tasks.duplicates value = false)
    (attempts : ∀ value ∈ patch.newAttempts, db.attempts.duplicates value = false)
    (approvals : ∀ value ∈ patch.newApprovals, db.approvals.duplicates value = false)
    (outbox : ∀ value ∈ patch.newEvents, db.outbox.duplicates value = false) :
    db.commit db (db.patch patch) = some (db.patch patch) := by
  unfold Db.commit Db.patch
  simp only [Collection.rebase_self keyed.executions executions,
    Collection.rebase_self keyed.tasks tasks, Collection.rebase_self keyed.attempts attempts,
    Collection.rebase_self keyed.approvals approvals, Collection.rebase_self keyed.outbox outbox]
  rfl

private theorem nodup_inserted {V I : Type} [Document V I] {collection : Collection V}
    {script : Script V} {inserted : List V}
    (nodup : (Collection.ids (collection.rewrite script inserted)).Nodup) :
    (inserted.map Document.id).Nodup := by
  rw [Collection.ids_rewrite] at nodup
  exact (List.nodup_append'.mp nodup).2.1

theorem commits_of_commit {snapshot db next : Db Val} {patch : Patch Val}
    (snapshotInv : snapshot.Inv) (inv : db.Inv) (since : Since snapshot db)
    (keyed : (snapshot.patch patch).Keyed)
    (committed : db.commit snapshot (snapshot.patch patch) = some next) :
    Commits snapshot db patch next := by
  rcases Option.bind_eq_some_iff.mp committed with ⟨executions, executionsEq, rest⟩
  rcases Option.bind_eq_some_iff.mp rest with ⟨tasks, tasksEq, rest⟩
  rcases Option.bind_eq_some_iff.mp rest with ⟨attempts, attemptsEq, rest⟩
  rcases Option.bind_eq_some_iff.mp rest with ⟨approvals, approvalsEq, rest⟩
  rcases Option.bind_eq_some_iff.mp rest with ⟨outbox, outboxEq, rest⟩
  cases rest
  exact ⟨snapshotInv, inv, since, keyed,
    Collection.rebase_rewrite snapshotInv.keyed.executions inv.keyed.executions
      (fresh_of_keyed keyed.executions) since.executions executionsEq,
    Collection.rebase_rewrite snapshotInv.keyed.tasks inv.keyed.tasks
      (fresh_of_keyed keyed.tasks) since.tasks tasksEq,
    Collection.rebase_rewrite snapshotInv.keyed.attempts inv.keyed.attempts
      (fresh_of_keyed keyed.attempts) since.attempts attemptsEq,
    Collection.rebase_rewrite snapshotInv.keyed.approvals inv.keyed.approvals
      (fresh_of_keyed keyed.approvals) since.approvals approvalsEq,
    Collection.rebase_rewrite snapshotInv.keyed.outbox inv.keyed.outbox
      (fresh_of_keyed keyed.outbox) since.outbox outboxEq⟩

namespace Commits

variable {snapshot db next : Db Val} {patch : Patch Val}

theorem nextKeyed (commits : Commits snapshot db patch next) : next.Keyed :=
  ⟨commits.executions.nodup_result commits.inv.keyed.executions
      (nodup_inserted commits.keyed.executions),
    commits.tasks.nodup_result commits.inv.keyed.tasks (nodup_inserted commits.keyed.tasks),
    commits.attempts.nodup_result commits.inv.keyed.attempts
      (nodup_inserted commits.keyed.attempts),
    commits.approvals.nodup_result commits.inv.keyed.approvals
      (nodup_inserted commits.keyed.approvals),
    commits.outbox.nodup_result commits.inv.keyed.outbox (nodup_inserted commits.keyed.outbox)⟩

theorem grows (commits : Commits snapshot db patch next) : Grows db next :=
  ⟨commits.executions.extends_result, commits.tasks.extends_result,
    commits.attempts.extends_result, commits.approvals.extends_result,
    commits.outbox.extends_result⟩

/-! ## The execution of the run -/

/-- The execution that the first statement rewrote is committed as it was. -/
theorem execution_current (commits : Commits snapshot db patch next)
    {execution : WorkflowExecution Val} {update : Update (WorkflowExecution Val)}
    {rest : Script (WorkflowExecution Val)}
    (found : snapshot.executions.findById execution.id = some execution)
    (script : patch.executions = update.only execution.id :: rest)
    (matched : update.filter execution = true) :
    ∃ doc ∈ snapshot.executions, doc ∈ db.executions ∧ doc.val = execution := by
  rcases Collection.mem_values.mp ((Collection.findById_eq_some
    commits.snapshotInv.keyed.executions).mp found).1 with ⟨doc, membership, rfl⟩
  have rebased := commits.executions
  rw [script] at rebased
  refine ⟨doc, membership, rebased.current_of_filter membership ?_, rfl⟩
  exact Bool.and_eq_true_iff.mpr ⟨decide_eq_true rfl, matched⟩

/-- A script about one execution. -/
theorem executions_one (commits : Commits snapshot db patch next)
    {execution : WorkflowExecution Val} (inserted : patch.newExecutions = [])
    (current : ∃ doc ∈ snapshot.executions, doc ∈ db.executions ∧ doc.val = execution)
    (one : ∀ update ∈ patch.executions, ∀ value, update.filter value = true →
      value.id = execution.id) :
    next.executions.values = db.executions.values.map (fun other =>
        if (other.id == execution.id) = true then
          Script.onValue patch.executions execution
        else other) ∧
      next.executions.ids = db.executions.ids := by
  rcases current with ⟨doc, inSnapshot, inCommitted, rfl⟩
  have ids := commits.executions.ids_result
  rw [inserted, List.map_nil, List.append_nil] at ids
  refine ⟨?_, ids⟩
  have values := commits.executions.values_of_class
    (fun other : WorkflowExecution Val => other.id == doc.val.id)
    (fun _ => Script.onValue patch.executions doc.val) ?_ ?_
  · rwa [inserted, List.append_nil] at values
  · intro other _ different update updateMem
    by_contra matched
    rw [one update updateMem other.val (by simpa using matched), beq_self_eq_true] at different
    cases different
  · intro other membership same
    cases Collection.eq_of_idOf_eq commits.inv.keyed.executions membership inCommitted
      (beq_iff_eq.mp same)
    rw [Collection.onSnapshot_of_mem inSnapshot, Script.val_onStored]

/-- A transaction that does not write the execution. -/
theorem executions_none (commits : Commits snapshot db patch next)
    {execution : WorkflowExecution Val} (membership : execution ∈ db.executions.values)
    (script : patch.executions = []) (inserted : patch.newExecutions = []) :
    next.executions.values = db.executions.values.map (fun other =>
        if (other.id == execution.id) = true then execution else other) ∧
      next.executions.ids = db.executions.ids := by
  have rebased := commits.executions
  rw [script, inserted] at rebased
  rw [rebased.eq_of_nil, List.map_nil, List.append_nil]
  refine ⟨?_, rfl⟩
  have same : ∀ other ∈ db.executions.values,
      (if (other.id == execution.id) = true then execution else other) = id other := by
    intro other otherMem
    split
    · next isExecution =>
      exact commits.inv.eq_of_id membership otherMem (beq_iff_eq.mp isExecution).symm
    · rfl
  rw [List.map_congr_left same, List.map_id]

/-! ## The tasks of the run -/

/-- The task of the snapshot that a committed task of the run is a later version
of. -/
theorem twin (commits : Commits snapshot db patch next) {execution : WorkflowExecution Val}
    (inSnapshot : execution ∈ snapshot.executions.values) {doc : Stored (Task Val)}
    (membership : doc ∈ db.tasks) (home : doc.val.executionId = execution.id) :
    ∃ source ∈ snapshot.tasks, source.val.Evolves doc.val ∧
      ∀ later ∈ db.executions.values, later.id = execution.id →
        later.pendingTasks = execution.pendingTasks →
          doc.val.remainingDeps = source.val.remainingDeps := by
  rcases commits.since.runs execution inSnapshot with ⟨later, laterMem, laterId, evolves⟩
  rcases evolves.tasks doc.val (mem_runOf_tasks.mpr
    ⟨Collection.val_mem_values membership, home.trans laterId.symm⟩) with
    ⟨task, taskMem, taskEvolves, remainingDeps⟩
  rcases Collection.mem_values.mp (mem_runOf_tasks.mp taskMem).1 with
    ⟨source, sourceMem, rfl⟩
  refine ⟨source, sourceMem, taskEvolves, ?_⟩
  intro other otherMem otherId
  cases commits.inv.eq_of_id otherMem laterMem (otherId.trans laterId.symm)
  exact remainingDeps

/-- A committed task that the transaction wrote in its snapshot. -/
theorem task_stable (commits : Commits snapshot db patch next) {doc source : Stored (Task Val)}
    (membership : doc ∈ db.tasks) (sourceMem : source ∈ snapshot.tasks)
    (same : source.val.id = doc.val.id)
    (written : source.rev < (Script.onStored patch.tasks source).rev) : doc ∈ snapshot.tasks := by
  have current := commits.tasks.current source sourceMem written
  exact Collection.eq_of_idOf_eq commits.inv.keyed.tasks current membership same ▸ sourceMem

/-- The task that the first statement rewrote is committed as it was. -/
theorem task_current (commits : Commits snapshot db patch next) {task : Task Val}
    {update : Update (Task Val)} {rest : Script (Task Val)}
    (found : snapshot.tasks.findById task.id = some task)
    (script : patch.tasks = update.only task.id :: rest)
    (matched : update.filter task = true) :
    ∃ doc ∈ snapshot.tasks, doc ∈ db.tasks ∧ doc.val = task := by
  rcases Collection.mem_values.mp ((Collection.findById_eq_some
    commits.snapshotInv.keyed.tasks).mp found).1 with ⟨doc, membership, rfl⟩
  have rebased := commits.tasks
  rw [script] at rebased
  refine ⟨doc, membership, rebased.current_of_filter membership ?_, rfl⟩
  exact Bool.and_eq_true_iff.mpr ⟨decide_eq_true rfl, matched⟩

/-- The task that the first statement rewrote is committed as the script wrote it. -/
theorem task_written (commits : Commits snapshot db patch next) {task later : Task Val}
    {update : Update (Task Val)} {rest : Script (Task Val)}
    (found : snapshot.tasks.findById task.id = some task)
    (script : patch.tasks = update.only task.id :: rest)
    (matched : update.filter task = true) (membership : later ∈ next.tasks.values)
    (isTask : later.id = task.id) : later = Script.onValue rest (update.set task) := by
  rcases Collection.mem_values.mp ((Collection.findById_eq_some
    commits.snapshotInv.keyed.tasks).mp found).1 with ⟨doc, docMem, rfl⟩
  have first : (update.only doc.val.id).filter doc.val = true :=
    Bool.and_eq_true_iff.mpr ⟨decide_eq_true rfl, matched⟩
  have written : Script.onStored patch.tasks doc ∈ next.tasks := by
    apply commits.tasks.mem_result docMem
    rw [script]
    exact Script.rev_lt_of_filter first
  have onValue : Script.onValue patch.tasks doc.val = Script.onValue rest (update.set doc.val) := by
    rw [script, Script.onValue_cons, Update.onValue, if_pos first]
    rfl
  rw [← onValue, ← Script.val_onStored]
  refine Collection.value_eq_of_id_eq commits.nextKeyed.tasks membership
    (Collection.val_mem_values written) ?_
  rw [Script.val_onStored, Script.id_onValue]
  exact isTask

/-- Statements on tasks of one run. -/
theorem tasks_run (commits : Commits snapshot db patch next) {execution : WorkflowExecution Val}
    {image : Task Val → Task Val} (inserted : patch.newTasks = [])
    (runOnly : ∀ update ∈ patch.tasks, ∀ task, update.filter task = true →
      task.executionId = execution.id)
    (rewritten : ∀ doc ∈ db.tasks, doc.val.executionId = execution.id →
      (Collection.onSnapshot snapshot.tasks patch.tasks doc).val = image doc.val) :
    next.tasks.values = db.tasks.values.map (fun task =>
        if (task.executionId == execution.id) = true then image task else task) ∧
      next.tasks.ids = db.tasks.ids := by
  have ids := commits.tasks.ids_result
  rw [inserted, List.map_nil, List.append_nil] at ids
  refine ⟨?_, ids⟩
  have values := commits.tasks.values_of_class
    (fun task : Task Val => task.executionId == execution.id) image ?_ ?_
  · rwa [inserted, List.append_nil] at values
  · intro doc _ elsewhere update updateMem
    by_contra matched
    rw [runOnly update updateMem doc.val (by simpa using matched), beq_self_eq_true] at elsewhere
    cases elsewhere
  · intro doc membership home
    exact rewritten doc membership (beq_iff_eq.mp home)

/-- Statements on one task, then statements on the tasks of its run. -/
theorem tasks_own_rest (commits : Commits snapshot db patch next)
    {execution : WorkflowExecution Val} {task : Task Val} (own rest : Script (Task Val))
    {image : Task Val → Task Val} (inserted : patch.newTasks = [])
    (script : patch.tasks = own ++ rest)
    (current : ∃ doc ∈ snapshot.tasks, doc ∈ db.tasks ∧ doc.val = task)
    (home : task.executionId = execution.id)
    (ownOnly : ∀ update ∈ own, ∀ other, update.filter other = true → other.id = task.id)
    (restOnly : ∀ update ∈ rest, ∀ other, update.filter other = true →
      other.executionId = execution.id)
    (target : Script.onValue rest (Script.onValue own task) = image task)
    (others : ∀ doc ∈ db.tasks, doc.val.executionId = execution.id → doc.val.id ≠ task.id →
      (Collection.onSnapshot snapshot.tasks rest doc).val = image doc.val) :
    next.tasks.values = db.tasks.values.map (fun other =>
        if (other.executionId == execution.id) = true then image other else other) ∧
      next.tasks.ids = db.tasks.ids := by
  refine commits.tasks_run inserted ?_ ?_
  · intro update membership other matched
    rw [script] at membership
    rcases List.mem_append.mp membership with isOwn | isRest
    · rw [← home]
      exact congrArg TaskId.executionId (ownOnly update isOwn other matched)
    · exact restOnly update isRest other matched
  · intro doc membership docHome
    rcases current with ⟨currentDoc, inSnapshot, inCommitted, rfl⟩
    rw [script]
    by_cases same : doc.val.id = currentDoc.val.id
    · cases Collection.eq_of_idOf_eq commits.inv.keyed.tasks membership inCommitted same
      rw [Collection.onSnapshot_of_mem inSnapshot, Script.val_onStored, Script.onValue_append,
        target]
    · have unmatched : Script.onStored own doc = doc := by
        apply Script.onStored_of_unmatched
        intro update updateMem
        by_contra matched
        exact same (ownOnly update updateMem doc.val (by simpa using matched))
      rw [← others doc membership docHome same]
      by_cases stable : doc ∈ snapshot.tasks
      · rw [Collection.onSnapshot_of_mem stable, Collection.onSnapshot_of_mem stable,
          Script.onStored_append, unmatched]
      · rw [Collection.onSnapshot_of_not_mem stable, Collection.onSnapshot_of_not_mem stable]

/-- A transaction that does not write tasks. -/
theorem tasks_none (commits : Commits snapshot db patch next)
    {execution : WorkflowExecution Val} (script : patch.tasks = [])
    (inserted : patch.newTasks = []) :
    next.tasks.values = db.tasks.values.map (fun task =>
        if (task.executionId == execution.id) = true then task else task) ∧
      next.tasks.ids = db.tasks.ids := by
  have rebased := commits.tasks
  rw [script, inserted] at rebased
  rw [rebased.eq_of_nil, List.map_nil, List.append_nil]
  exact ⟨by simp, rfl⟩

/-! ## The approvals of the run -/

/-- A transaction that does not rewrite approvals. -/
theorem approvals_none (commits : Commits snapshot db patch next)
    {execution : WorkflowExecution Val} (script : patch.approvals = []) :
    next.approvals.values = (db.approvals.values.map fun request =>
        if (request.executionId == execution.id) = true then request else request) ++
      patch.newApprovals := by
  have rebased := commits.approvals
  rw [script] at rebased
  rw [rebased.values_of_nil]
  simp

/-- Statements on the approvals of one run. -/
theorem approvals_run (commits : Commits snapshot db patch next)
    (execution : WorkflowExecution Val) (image : ApprovalRequest Val → ApprovalRequest Val)
    (inserted : patch.newApprovals = [])
    (elsewhere : ∀ doc ∈ db.approvals, doc.val.executionId ≠ execution.id →
      ∀ update ∈ patch.approvals, update.filter doc.val = false)
    (rewritten : ∀ doc ∈ db.approvals, doc.val.executionId = execution.id →
      (Collection.onSnapshot snapshot.approvals patch.approvals doc).val = image doc.val) :
    next.approvals.values = (db.approvals.values.map fun request =>
      if (request.executionId == execution.id) = true then image request else request) ++ [] := by
  have values := commits.approvals.values_of_class
    (fun request : ApprovalRequest Val => request.executionId == execution.id) image ?_ ?_
  · rwa [inserted] at values
  · intro doc membership different
    exact elsewhere doc membership (by simpa using different)
  · intro doc membership home
    exact rewritten doc membership (beq_iff_eq.mp home)

theorem outbox_rows (commits : Commits snapshot db patch next) {executionId : ExecutionId}
    {contents : List (EventType × EventPayload)}
    (describes : Describes executionId contents patch.newEvents) :
    ∃ rows, Describes executionId contents rows ∧
      next.outbox.values = db.outbox.values ++ rows :=
  ⟨patch.newEvents, describes, commits.outbox.values_of_nil⟩

end Commits

end Db

/-! ## Alone -/

/-- Nothing else was committed during the transaction of a start. -/
theorem startExecution_commits {env : Env} {params : StartParams Val} {db final : Db Val}
    {execution : WorkflowExecution Val} (keyed : db.Keyed)
    (returned : (startExecution env params).run db = .ok (execution, final)) :
    db.commit db final = some final := by
  have finalKeyed : final.Keyed := startExecution_keyed.final keyed returned
  rcases startExecution_ok returned with ⟨patch, writes, rfl⟩
  have unique : db.executions.duplicates (newExecution env params) = false := by
    unfold startExecution at returned
    simp only at returned
    split at returned
    · rcases Session.bind_eq_ok.mp returned with ⟨_, _, created, _⟩
      exact (Session.create_eq_ok.mp created).1
    · cases returned
  cases writes with
  | nothing idle => cases idle
  | start _ _ =>
      apply Db.commit_self keyed
      · intro value membership
        cases List.mem_singleton.mp membership
        exact unique
      · intro task membership
        apply List.any_eq_false.mpr
        intro doc docMem
        rw [Bool.or_eq_true, decide_eq_true_eq, not_or]
        refine ⟨?_, Bool.false_ne_true⟩
        intro same
        apply Db.fresh_of_keyed finalKeyed.tasks task membership
        exact same ▸ Collection.idOf_mem_ids docMem
      · exact fun _ absurdity => absurd absurdity List.not_mem_nil
      · exact fun _ absurdity => absurd absurdity List.not_mem_nil
      · intro row membership
        exact Db.unique_event (Db.fresh_of_keyed finalKeyed.outbox row membership)

end WorkflowEngine
