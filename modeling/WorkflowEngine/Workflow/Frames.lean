import WorkflowEngine.Workflow.Refinement

/-!
# Steps of the calls in progress

Between two steps of a call the database moves on.  `Frame.Ok` is what a frame may
still rely on when its turn comes, and every step of a frame advances the runs by
at most one step.
-/

namespace WorkflowEngine

open DocStore

variable {Val : Type}

/-! ## What a call remembers -/

/-- A task as a claim returned it, seen from a later database. -/
structure Claimed (db : Db Val) (task : Task Val) : Prop where
  current : ∃ now ∈ db.tasks.values, task.Evolves now
  attempt : task.attempt = task.leaseToken
  positive : 0 < task.leaseToken
  enabled : ∀ dep ∈ task.dependsOn, ∃ parent ∈ db.tasks.values,
    parent.id = ⟨task.executionId, dep⟩ ∧ parent.status = .completed

/-- The input of the run of a task. -/
def IsInput (db : Db Val) (task : Task Val) (input : Val) : Prop :=
  ∃ execution ∈ db.executions.values, execution.id = task.executionId ∧ input = execution.input

namespace Started

/-- What `startTask` gave a worker, seen from a later database. -/
structure Ok (db : Db Val) (started : Started Val) : Prop where
  claimed : Claimed db started.task
  budget : started.task.attempt ≤ started.task.maxAttempts
  input : IsInput db started.task started.input
  keys : (started.parents.map Prod.fst).Perm started.task.dependsOn
  outputs : ∀ entry ∈ started.parents, ∃ parent ∈ db.tasks.values,
    parent.id = ⟨started.task.executionId, entry.1⟩ ∧ parent.status = .completed ∧
      parent.output = entry.2

end Started

variable [Mixed Val]

/-- What a frame of a call in progress relies on. -/
def Frame.Ok (db : Db Val) : Frame Val → Prop
  | .callback _ snapshot => snapshot.Inv ∧ Db.Since snapshot db
  | .abandonAttempts task => Claimed db task
  | .recordAttempt task _ => Claimed db task
  | .announce task _ => Claimed db task
  | .checkBudget task => Claimed db task
  | .gatherInput task => Claimed db task ∧ task.attempt ≤ task.maxAttempts
  | .gatherParents task input =>
      Claimed db task ∧ task.attempt ≤ task.maxAttempts ∧ IsInput db task input
  | _ => True

section Later

variable {db newer : Db Val} (inv : db.Inv) (since : Db.Since db newer)
include inv since

/-- A task in a later database. -/
theorem Db.Since.task {task : Task Val} (membership : task ∈ db.tasks.values) :
    ∃ next ∈ newer.tasks.values, task.Evolves next := by
  rcases Collection.mem_values.mp membership with ⟨doc, docMem, rfl⟩
  rcases since.tasks doc docMem with ⟨next, nextMem, same, _⟩
  have sameId : next.val.id = doc.val.id := same
  refine ⟨next.val, Collection.val_mem_values nextMem, ?_⟩
  rcases inv.exists_run membership with ⟨execution, executionMem, home, _⟩
  rcases since.runs execution executionMem with ⟨now, nowMem, nowId, evolves⟩
  have nextHome : next.val.executionId = now.id := by
    rw [nowId, home]
    exact congrArg TaskId.executionId sameId
  rcases evolves.tasks next.val (Db.mem_runOf_tasks.mpr
    ⟨Collection.val_mem_values nextMem, nextHome⟩) with ⟨source, sourceMem, moved, _⟩
  have isSource : source = doc.val :=
    inv.task_eq_of_id (Db.mem_runOf_tasks.mp sourceMem).1 membership
      (moved.id_eq.symm.trans sameId)
  exact isSource ▸ moved

/-- A COMPLETED task in a later database. -/
theorem Db.Since.completed {task : Task Val} (membership : task ∈ db.tasks.values)
    (completed : task.status = .completed) :
    ∃ next ∈ newer.tasks.values, next.id = task.id ∧ next.status = .completed ∧
      next.output = task.output := by
  rcases since.task inv membership with ⟨next, nextMem, evolves⟩
  rcases evolves.final (by rw [completed]; rfl) with ⟨status, output, _⟩
  exact ⟨next, nextMem, evolves.id_eq, status.trans completed, output⟩

theorem Claimed.later {task : Task Val} (claimed : Claimed db task) : Claimed newer task := by
  refine ⟨?_, claimed.attempt, claimed.positive, ?_⟩
  · rcases claimed.current with ⟨now, nowMem, evolves⟩
    rcases since.task inv nowMem with ⟨next, nextMem, evolves'⟩
    exact ⟨next, nextMem, evolves.trans evolves'⟩
  · intro dep isDep
    rcases claimed.enabled dep isDep with ⟨parent, parentMem, parentId, completed⟩
    rcases since.completed inv parentMem completed with
      ⟨next, nextMem, nextId, nextCompleted, _⟩
    exact ⟨next, nextMem, nextId.trans parentId, nextCompleted⟩

omit [Mixed Val] inv in
theorem IsInput.later {task : Task Val} {input : Val} (isInput : IsInput db task input) :
    IsInput newer task input := by
  rcases isInput with ⟨execution, executionMem, home, rfl⟩
  rcases since.runs execution executionMem with ⟨next, nextMem, nextId, evolves⟩
  exact ⟨next, nextMem, nextId.trans home, (congrArg ExecutionShape.input evolves.shape).symm⟩

theorem Started.Ok.later {started : Started Val} (ok : started.Ok db) : started.Ok newer := by
  refine ⟨ok.claimed.later inv since, ok.budget, ok.input.later since, ok.keys, ?_⟩
  intro entry membership
  rcases ok.outputs entry membership with ⟨parent, parentMem, parentId, completed, output⟩
  rcases since.completed inv parentMem completed with
    ⟨next, nextMem, nextId, nextCompleted, nextOutput⟩
  exact ⟨next, nextMem, nextId.trans parentId, nextCompleted, nextOutput.trans output⟩

theorem Frame.Ok.later {frame : Frame Val} (ok : frame.Ok db) : frame.Ok newer := by
  cases frame with
  | callback op snapshot => exact ⟨ok.1, ok.2.trans since⟩
  | abandonAttempts | recordAttempt | announce | checkBudget =>
      exact Claimed.later inv since ok
  | gatherInput => exact ⟨ok.1.later inv since, ok.2⟩
  | gatherParents => exact ⟨ok.1.later inv since, ok.2.1, ok.2.2.later since⟩
  | _ => trivial

end Later

/-! ## Single statements on the committed database -/

namespace Db

/-- A statement outside a transaction, as a commit on the current snapshot. -/
theorem commits_self {db : Db Val} {patch : Patch Val} (inv : db.Inv)
    (keyed : (db.patch patch).Keyed) (rewrites : patch.Rewrites) :
    Commits db db patch (db.patch patch) := by
  refine ⟨inv, inv, .refl db, keyed, .self_script _ rewrites.executions,
    .self_script _ rewrites.tasks, .self_script _ rewrites.attempts,
    .self_script _ rewrites.approvals, .self _ ?_⟩
  intro row membership
  exact unique_event (fresh_of_keyed keyed.outbox row membership)

section Statements

variable {env : Env} {db final : Db Val} {missed : TaskId → Bool} {task : Task Val}

/-- A statement on one task that is a step of its run. -/
theorem advances_moved {update : Update (Task Val)} {label : Option (Reply Val)} (inv : db.Inv)
    (keyed : (db.patch { tasks := [update.only task.id] }).Keyed)
    (found : db.tasks.findById task.id = some task) (matched : update.filter task = true)
    (step : ∀ run : Run Val, task ∈ run.tasks →
      Run.Step (fun key => missed ⟨run.execution.id, key⟩) label run
        (run.replace (update.set task))) :
    Advances missed label db (db.patch { tasks := [update.only task.id] }) := by
  have commits := commits_self inv keyed ⟨rfl, rfl, rfl, rfl⟩
  have taskMem := ((Collection.findById_eq_some inv.keyed.tasks).mp found).1
  rcases commits.execution_of_task taskMem with ⟨execution, member, home⟩
  rcases commits.tasks_moved rfl home found matched rfl with ⟨_, tasks, taskIds⟩
  rcases commits.executions_none member rfl rfl with ⟨executions, executionIds⟩
  have changed : Changed db (db.patch { tasks := [update.only task.id] }) execution
      { execution
        task := fun other => if other.key = (update.set task).key then update.set task else other } :=
    ⟨member, executions, tasks, commits.approvals_none rfl, commits.outbox_rows .nil, executionIds,
      taskIds, fun _ _ same => same, nofun⟩
  refine changed.advances inv keyed commits.grows ?_
  have taken := step (db.runOf execution) (mem_runOf_tasks.mpr ⟨taskMem, home⟩)
  simp only [Run.change, List.map_id', List.append_nil]
  exact taken

/-- A database with the same runs. -/
theorem advances_same (inv : db.Inv) (keyed : final.Keyed) (grows : Grows db final)
    (executions : final.executions = db.executions) (tasks : final.tasks = db.tasks)
    (approvals : final.approvals = db.approvals) (outbox : final.outbox = db.outbox) :
    Advances missed none db final := by
  have same : ∀ execution : WorkflowExecution Val, final.runOf execution = db.runOf execution := by
    intro execution
    rw [runOf, tasks, approvals, outbox]
    rfl
  refine ⟨⟨keyed, ?_, ?_, ?_, ?_⟩, ⟨grows, ?_⟩, by simp, ?_⟩
  · rw [tasks, executions]
    exact inv.taskHome
  · rw [approvals, executions]
    exact inv.approvalHome
  · rw [outbox, executions]
    exact inv.eventHome
  · intro execution membership
    rw [same]
    exact inv.reached execution (executions ▸ membership)
  · intro execution membership
    refine ⟨execution, by rw [executions]; exact membership, rfl, ?_⟩
    rw [same]
    exact .refl _
  · intro execution membership
    rw [same]
    exact .same (executions ▸ membership) (by simp)

theorem dispatchTask_advances {taskId : TaskId} {won : Bool} (inv : db.Inv)
    (ran : (transitionTask taskId .ready .queued (queueing env.now)).run db = .ok (won, final)) :
    Advances missed (some (.dispatchTask taskId won)) db final := by
  have keyed := transitionTask_keyed.final inv.keyed ran
  rcases transitionTask_ok inv.keyed.tasks ran with
    ⟨rfl, rfl, _⟩ | ⟨rfl, task, search, _, ready, rfl⟩
  · exact .unchanged inv rfl
  · have isId : task.id = taskId := ((Collection.findById_eq_some inv.keyed.tasks).mp search).2
    subst isId
    refine advances_moved inv keyed search (by simp [transition, queueing, ready]) ?_
    intro run membership
    exact .dispatch membership ready

omit [Mixed Val] in
theorem claimTask_keyed {taskId : TaskId} {workerId : String} {leaseMs : Int} {now : Time} :
    KeepsKeyed (claimTask taskId workerId leaseMs now : Txn Val (Option (Task Val))) :=
  .bind assertTransition_keyed fun _ => .bind assertTransition_keyed fun _ =>
    .bind assertTransition_keyed fun _ => .findOneAndUpdate

omit [Mixed Val] in
theorem renewTaskLease_keyed {taskId : TaskId} {leaseToken : Nat} {leaseMs : Int} {now : Time} :
    KeepsKeyed (renewTaskLease taskId leaseToken leaseMs now : Txn Val Bool) :=
  .bind .updateOne fun _ => .pure

/-- A claim finds nothing, or returns the task it claimed. -/
theorem claimTask_advances {taskId : TaskId} {workerId : String} {claimed : Option (Task Val)}
    (inv : db.Inv)
    (ran : (claimTask taskId workerId env.leaseMs env.now).run db = .ok (claimed, final)) :
    (claimed = none ∧ final = db) ∨
      ∃ task ∈ db.tasks.values, task.id = taskId ∧ claimable env.now task = true ∧
        claimed = some ((claim workerId env.leaseMs env.now).set task) ∧
        (claim workerId env.leaseMs env.now).set task ∈ final.tasks.values ∧
        Advances missed (claimed.map .claimTask) db final := by
  have keyed := claimTask_keyed.final inv.keyed ran
  rcases Session.bind_eq_ok.mp ran with ⟨_, _, asserted, rest⟩
  cases assertTransition_ok asserted
  rcases Session.bind_eq_ok.mp rest with ⟨_, _, asserted2, rest2⟩
  cases assertTransition_ok asserted2
  rcases Session.bind_eq_ok.mp rest2 with ⟨_, _, asserted3, rest3⟩
  cases assertTransition_ok asserted3
  rcases Session.findOneAndUpdate_eq_ok inv.keyed.tasks rest3 with
    ⟨rfl, rfl⟩ | ⟨task, search, free, rfl, rfl⟩
  · exact .inl ⟨rfl, rfl⟩
  · have found := (Collection.findById_eq_some inv.keyed.tasks).mp search
    have isId : task.id = taskId := found.2
    subst isId
    rw [set_tasks] at keyed ⊢
    refine .inr ⟨task, found.1, rfl, free, rfl, ?_, ?_⟩
    · rw [Db.patch, Collection.values_rewrite, List.append_nil]
      refine List.mem_map.mpr ⟨task, found.1, ?_⟩
      simp only [Script.onValue_cons, Script.onValue_nil]
      simp only [Update.onValue, Update.only, document_id_task, decide_true, Bool.true_and]
      exact if_pos free
    · refine advances_moved inv keyed search free ?_
      intro run membership
      exact .claim membership free

theorem renewTaskLease_advances {taskId : TaskId} {leaseToken : Nat} {renewed : Bool}
    (inv : db.Inv)
    (ran : (renewTaskLease taskId leaseToken env.leaseMs env.now).run db = .ok (renewed, final)) :
    Advances missed (some (.renewLease taskId leaseToken renewed)) db final := by
  have keyed := renewTaskLease_keyed.final inv.keyed ran
  rcases Session.bind_eq_ok.mp ran with ⟨matchedCount, middle, updated, rest⟩
  rcases Session.pure_eq_ok.mp rest with ⟨rfl, rfl⟩
  rcases Session.updateOne_eq_ok inv.keyed.tasks updated with
    ⟨rfl, rfl, _⟩ | ⟨rfl, task, search, matched, rfl⟩
  · exact .unchanged inv rfl
  · have isId : task.id = taskId := ((Collection.findById_eq_some inv.keyed.tasks).mp search).2
    subst isId
    rw [set_tasks] at keyed ⊢
    have current := matched
    simp only [renewal, Bool.and_eq_true, decide_eq_true_eq, beq_iff_eq] at current
    rcases current with ⟨running, rfl⟩
    refine advances_moved inv keyed search matched ?_
    intro run membership
    exact .renew membership running

/-- A claimed task is announced in its run. -/
theorem announce_advances {workerId : String} {result : Unit} (inv : db.Inv)
    (claimed : Claimed db task)
    (ran : (emit env .taskStarted task.executionId
      (.taskStarted task.id task.key task.attempt workerId)).run db = .ok (result, final)) :
    Advances missed none db final := by
  have keyed := emit_keyed.final inv.keyed ran
  rcases emit_ok ran with ⟨rows, describes, rfl⟩
  have commits := commits_self inv keyed ⟨rfl, rfl, rfl, rfl⟩
  rcases claimed.current with ⟨now, nowMem, evolves⟩
  rcases commits.execution_of_task nowMem with ⟨execution, member, home⟩
  have taskHome : task.executionId = execution.id :=
    (congrArg TaskShape.executionId evolves.shape).symm.trans home
  rcases commits.executions_none member rfl rfl with ⟨executions, executionIds⟩
  rcases commits.tasks_none rfl rfl with ⟨tasks, taskIds⟩
  have changed : Changed db (db.patch { newEvents := rows }) execution
      { execution
        events := [(.taskStarted, .taskStarted task.id task.key task.attempt workerId)] } :=
    ⟨member, executions, tasks, commits.approvals_none rfl,
      commits.outbox_rows (taskHome ▸ describes), executionIds, taskIds, fun _ _ same => same,
      nofun⟩
  refine changed.advances inv keyed commits.grows ?_
  have step := @Run.Step.announce Val _ (fun key => missed ⟨execution.id, key⟩)
    (db.runOf execution) task workerId
  simp only [Run.change, List.map_id', List.append_nil]
  exact step

end Statements

end Db

end WorkflowEngine
