import WorkflowEngine.Workflow.Attended
import WorkflowEngine.Workflow.Provenance
import WorkflowEngine.Workflow.DagLevels
import WorkflowEngine.Workflow.Guarantees.Determinism

/-!
# The order of completion

The tasks of a run become COMPLETED in a topological order of its graph, whatever the
workers do.  The order in which Kahn's algorithm emits the other tasks completes it.
-/

namespace WorkflowEngine

open DocStore Precedence

variable {Val : Type}

/-! ## Completions in the log -/

/-- The task that the reply reports as COMPLETED. -/
def Reply.completes : Reply Val → Option TaskId
  | .completeTask taskId _ _ true => some taskId
  | .resolveApproval params _ (some taskId) =>
      if params.decision = .approved then some taskId else none
  | _ => none

/-- The key of a task of this run. -/
def TaskId.keyIn (executionId : ExecutionId) (taskId : TaskId) : Option Key :=
  if taskId.executionId = executionId then some taskId.key else none

/-- The keys of the tasks of a run for which the log has such a reply, first one first. -/
def keysOf (select : Reply Val → Option TaskId) (executionId : ExecutionId)
    (log : List (Reply Val)) : List Key :=
  (log.filterMap fun reply => (select reply).bind (TaskId.keyIn executionId)).reverse

/-- The keys of the tasks of a run in the order in which they became COMPLETED. -/
abbrev completionsOf (executionId : ExecutionId) (log : List (Reply Val)) : List Key :=
  keysOf Reply.completes executionId log

theorem TaskId.keyIn_eq_some {executionId : ExecutionId} {taskId : TaskId} {key : Key} :
    taskId.keyIn executionId = some key ↔ taskId = ⟨executionId, key⟩ := by
  cases taskId
  simp [TaskId.keyIn]

theorem Reply.completes_about {reply : Reply Val} {taskId : TaskId}
    (isTask : reply.completes = some taskId) : reply.about = some taskId := by
  unfold Reply.completes at isTask
  split at isTask
  · exact isTask
  · split at isTask
    · exact isTask
    · cases isTask
  · cases isTask

section Log

variable {select : Reply Val → Option TaskId} {executionId : ExecutionId}
  {label : Option (Reply Val)} {log : List (Reply Val)}

/-- A step about a task of the run. -/
theorem keysOf_append_some {key : Key} (selects : label.bind select = some ⟨executionId, key⟩) :
    keysOf select executionId (label.toList ++ log) = keysOf select executionId log ++ [key] := by
  cases label with
  | none => cases selects
  | some reply =>
      have isKey : ((select reply).bind (TaskId.keyIn executionId)) = some key := by
        rw [show select reply = _ from selects]
        exact TaskId.keyIn_eq_some.mpr rfl
      simp [keysOf, isKey]

/-- Any other step. -/
theorem keysOf_append_none (others : ∀ key, label.bind select ≠ some ⟨executionId, key⟩) :
    keysOf select executionId (label.toList ++ log) = keysOf select executionId log := by
  cases label with
  | none => rfl
  | some reply =>
      have notKey : ((select reply).bind (TaskId.keyIn executionId)) = none := by
        cases isTask : select reply with
        | none => rfl
        | some taskId =>
            cases isKey : taskId.keyIn executionId with
            | none => exact isKey
            | some key =>
                rw [TaskId.keyIn_eq_some] at isKey
                exact absurd (isTask.trans (congrArg some isKey)) (others key)
      simp [keysOf, notKey]

theorem keysOf_eq_nil
    (about : ∀ reply taskId, select reply = some taskId → reply.about = some taskId)
    (unknown : ∀ reply ∈ log, reply.target ≠ some executionId) :
    keysOf select executionId log = [] := by
  rw [keysOf, List.reverse_eq_nil_iff, List.filterMap_eq_nil_iff]
  intro reply membership
  cases isTask : select reply with
  | none => rfl
  | some taskId =>
      cases isKey : taskId.keyIn executionId with
      | none => exact isKey
      | some key =>
          have isTarget := Reply.target_of_about (about reply taskId isTask)
          rw [TaskId.keyIn_eq_some.mp isKey] at isTarget
          exact absurd isTarget (unknown reply membership)

/-- The log of a run that has just started. -/
theorem keysOf_start {params : StartParams Val} {created : WorkflowExecution Val}
    (about : ∀ reply taskId, select reply = some taskId → reply.about = some taskId)
    (unknown : ∀ reply ∈ log, reply.target ≠ some executionId) :
    keysOf select executionId (.startExecution params created :: log) = [] := by
  have fresh : select (.startExecution params created) = none := by
    cases isTask : select (.startExecution params created) with
    | none => rfl
    | some taskId => cases about _ _ isTask
  have rest := keysOf_eq_nil about unknown
  rw [keysOf, List.filterMap_cons_none (by rw [fresh]; rfl)]
  exact rest

/-- The log only grows, and so do the keys. -/
theorem keysOf_prefix {later : List (Reply Val)} (suffix : log <:+ later) :
    keysOf select executionId log <+: keysOf select executionId later := by
  rcases suffix with ⟨newer, rfl⟩
  rw [keysOf, keysOf, List.filterMap_append, List.reverse_append]
  exact List.prefix_append _ _

end Log

/-! ## Steps of a run -/

variable [Mixed Val]

omit [Mixed Val] in
theorem Task.ne_completed {task : Task Val} (unfinished : task.status.unfinished = true) :
    task.status ≠ .completed := by
  intro completed
  rw [completed] at unfinished
  cases unfinished

/-- A step completes a task that was under way, or it completes no task that was not
COMPLETED before. -/
inductive Task.Completes (label : Option (Reply Val)) (task later : Task Val) : Prop where
  | now :
      label.bind Reply.completes = some task.id → later.status = .completed →
      task.status = .running ∨ task.status = .waitingForApproval → Completes label task later
  | other :
      label.bind Reply.completes ≠ some task.id →
      (later.status = .completed ↔ task.status = .completed) → Completes label task later

namespace Task.Moves

variable {label : Option (Reply Val)} {task later : Task Val}

omit [Mixed Val] in
/-- A step from an unfinished status to one that is not COMPLETED. -/
theorem not_completes (unreported : label.bind Reply.completes ≠ some task.id)
    (after : later.status ≠ .completed) (unfinished : task.status.unfinished = true) :
    Task.Completes label task later :=
  .other unreported (iff_of_false after (Task.ne_completed unfinished))

theorem completes (moves : Task.Moves label task later) : Task.Completes label task later := by
  have unreported : label.bind Reply.about ≠ some task.id →
      label.bind Reply.completes ≠ some task.id := by
    intro other same
    cases label with
    | none => cases same
    | some reply => exact other (Reply.completes_about same)
  cases moves with
  | rest other => exact .other (unreported other) Iff.rfl
  | promoted other pending =>
      apply not_completes (unreported other) TaskStatus.noConfusion
      rw [pending]
      rfl
  | cancelled other unstarted =>
      apply not_completes (unreported other) TaskStatus.noConfusion
      exact TaskStatus.unfinished_of_unstarted unstarted
  | aborted unfinished =>
      exact not_completes (by simp [Reply.completes]) TaskStatus.noConfusion unfinished
  | dispatched ready =>
      apply not_completes (by simp [Reply.completes]) TaskStatus.noConfusion
      rw [ready]
      rfl
  | claimed free =>
      apply not_completes (by simp [Reply.completes]) TaskStatus.noConfusion
      exact Run.unfinished_of_claimable free
  | renewed running => exact .other (by simp [Reply.completes]) Iff.rfl
  | completed running => exact .now rfl rfl (.inl running)
  | retried running =>
      apply not_completes (by simp [Reply.completes]) TaskStatus.noConfusion
      rw [running]
      rfl
  | @failed _ error now running =>
      apply not_completes (by simp [Reply.completes])
      · show (failureOutcome task (isRetryable error)).status ≠ .completed
        cases failureOutcome task (isRetryable error) <;> exact TaskStatus.noConfusion
      · rw [running]
        rfl
  | suspended running =>
      apply not_completes (by simp [Reply.completes]) TaskStatus.noConfusion
      rw [running]
      rfl
  | approved waiting decision => exact .now (by simp [Reply.completes, decision]) rfl (.inr waiting)
  | rejected waiting decision =>
      apply not_completes (by simp [Reply.completes, decision]) TaskStatus.noConfusion
      rw [waiting]
      rfl

end Task.Moves

namespace Run

/-- The completions of a run as the log has them. -/
structure InOrder (log : List (Reply Val)) (run : Run Val) : Prop where
  sorted : Sorted (GraphValid.Parent run) (completionsOf run.execution.id log)
  completed : ∀ key, key ∈ completionsOf run.execution.id log ↔
    missing run.tasks key = false

omit [Mixed Val] in
theorem parent_iff {run : Run Val} {key dep : Key} : GraphValid.Parent run key dep ↔
    ∃ shape ∈ run.shapes, shape.key = key ∧ dep ∈ shape.dependsOn := by
  constructor
  · rintro ⟨task, membership, isKey, isDep⟩
    exact ⟨task.shape, shape_mem membership, isKey, isDep⟩
  · rintro ⟨shape, membership, isKey, isDep⟩
    rcases List.mem_map.mp membership with ⟨task, taskMem, rfl⟩
    exact ⟨task, taskMem, isKey, isDep⟩

omit [Mixed Val] in
theorem parent_congr {run next : Run Val} (shapes : next.shapes = run.shapes) :
    GraphValid.Parent next = GraphValid.Parent run := by
  funext key dep
  apply propext
  rw [parent_iff, parent_iff, shapes]

variable {missed : Key → Bool} {label : Option (Reply Val)} {run next : Run Val}

omit [Mixed Val] in
theorem missing_map {tasks : List (Task Val)} {image : Task Val → Task Val}
    (keyOf : ∀ task ∈ tasks, (image task).key = task.key) {dep : Key} :
    missing (tasks.map image) dep = false ↔
      ∃ task ∈ tasks, task.key = dep ∧ (image task).status = .completed := by
  rw [missing_eq_false]
  constructor
  · rintro ⟨later, membership, isKey, completed⟩
    rcases List.mem_map.mp membership with ⟨task, taskMem, rfl⟩
    exact ⟨task, taskMem, keyOf task taskMem ▸ isKey, completed⟩
  · rintro ⟨task, membership, isKey, completed⟩
    exact ⟨image task, List.mem_map_of_mem membership, (keyOf task membership).trans isKey,
      completed⟩

/-- What a step completes comes after all its parents. -/
theorem Step.inOrder (step : Step missed label run next) (inv : run.Inv) {log : List (Reply Val)}
    (before : run.InOrder log) : next.InOrder (label.toList ++ log) := by
  have graph := inv.graph
  rcases step.moves graph.tasks_nodup with ⟨image, tasks, moves⟩
  have keyOf : ∀ task ∈ run.tasks, (image task).key = task.key :=
    fun task membership => congrArg TaskShape.key (moves task membership).evolves.shape
  have same := parent_congr (step.moves graph.tasks_nodup).shapes
  by_cases completes : ∃ key, label.bind Reply.completes = some ⟨run.execution.id, key⟩
  · rcases completes with ⟨key, completes⟩
    have about : label.bind Reply.about = some ⟨run.execution.id, key⟩ := by
      cases label with
      | none => cases completes
      | some reply => exact Reply.completes_about completes
    rcases step.about about with ⟨task, membership, isTask⟩
    have isKey : task.key = key := congrArg TaskId.key isTask
    subst isKey
    have log_eq : completionsOf run.execution.id (label.toList ++ log) =
        completionsOf run.execution.id log ++ [task.key] := keysOf_append_some completes
    have isNow : (image task).status = .completed ∧
        (task.status = .running ∨ task.status = .waitingForApproval) := by
      cases (moves task membership).completes with
      | now _ completed underWay => exact ⟨completed, underWay⟩
      | other unreported => exact absurd (completes.trans (congrArg some isTask.symm)) unreported
    have kept : ∀ other ∈ run.tasks, other.key ≠ task.key →
        ((image other).status = .completed ↔ other.status = .completed) := by
      intro other otherMem different
      cases (moves other otherMem).completes with
      | now isOther =>
          have sameTask := Option.some.inj (isOther.symm.trans completes)
          exact absurd (congrArg TaskId.key sameTask) different
      | other _ kept => exact kept
    have unfinished : task.status.unfinished = true := by
      rcases isNow.2 with status | status <;> rw [status] <;> rfl
    constructor
    · rw [step.execution_id, log_eq, same]
      apply before.sorted.snoc
      · rw [before.completed, missing_eq_false]
        rintro ⟨other, otherMem, sameKey, completed⟩
        cases graph.eq_of_key otherMem membership sameKey
        exact Task.ne_completed unfinished completed
      · rintro dep ⟨other, otherMem, sameKey, isDep⟩
        cases graph.eq_of_key otherMem membership sameKey
        rw [before.completed]
        apply inv.ordered.enabled task membership _ _ dep isDep
        · rcases isNow.2 with status | status <;> rw [status] <;> exact TaskStatus.noConfusion
        · rcases isNow.2 with status | status <;> rw [status] <;> exact TaskStatus.noConfusion
    · intro dep
      rw [step.execution_id, log_eq, List.mem_append, before.completed, missing_eq_false, tasks,
        missing_map keyOf, List.mem_singleton]
      constructor
      · rintro (⟨other, otherMem, isDep, completed⟩ | rfl)
        · refine ⟨other, otherMem, isDep, ?_⟩
          by_cases sameKey : other.key = task.key
          · rw [graph.eq_of_key otherMem membership sameKey]
            exact isNow.1
          · exact (kept other otherMem sameKey).mpr completed
        · exact ⟨task, membership, rfl, isNow.1⟩
      · rintro ⟨other, otherMem, isDep, completed⟩
        by_cases sameKey : other.key = task.key
        · exact .inr (isDep ▸ sameKey)
        · exact .inl ⟨other, otherMem, isDep, (kept other otherMem sameKey).mp completed⟩
  · have others : ∀ key, label.bind Reply.completes ≠ some ⟨run.execution.id, key⟩ :=
      fun key isKey => completes ⟨key, isKey⟩
    have log_eq : completionsOf run.execution.id (label.toList ++ log) =
        completionsOf run.execution.id log := keysOf_append_none others
    have kept : ∀ task ∈ run.tasks,
        ((image task).status = .completed ↔ task.status = .completed) := by
      intro task membership
      cases (moves task membership).completes with
      | now isTask =>
          rw [Task.id, graph.task_home task membership] at isTask
          exact absurd isTask (others task.key)
      | other _ kept => exact kept
    constructor
    · rw [step.execution_id, log_eq, same]
      exact before.sorted
    · intro key
      rw [step.execution_id, log_eq, before.completed, missing_eq_false, tasks, missing_map keyOf]
      constructor
      · rintro ⟨task, membership, isKey, completed⟩
        exact ⟨task, membership, isKey, (kept task membership).mpr completed⟩
      · rintro ⟨task, membership, isKey, completed⟩
        exact ⟨task, membership, isKey, (kept task membership).mp completed⟩

theorem start_inOrder {env : Env} {params : StartParams Val} {log : List (Reply Val)}
    (unknown : ∀ reply ∈ log, reply.target ≠ some env.objectId) :
    (start env params).InOrder (.startExecution params (newExecution env params) :: log) := by
  have none : completionsOf (start env params).execution.id
      (.startExecution params (newExecution env params) :: log) = [] :=
    keysOf_start (fun _ _ => Reply.completes_about) unknown
  constructor
  · rw [none]
    exact .nil
  · intro key
    rw [none, missing_eq_false]
    constructor
    · intro absurdity
      cases absurdity
    · rintro ⟨task, membership, _, completed⟩
      rcases List.mem_map.mp membership with ⟨definition, _, rfl⟩
      simp only [newTask] at completed
      split at completed <;> cases completed

end Run

theorem Sys.inOrder {allowed : Sys Val → Action Val → Prop} {sys : Sys Val}
    (reachable : (engineSystem Val).ReachableBy allowed sys) :
    ∀ execution ∈ sys.db.executions.values, (sys.db.runOf execution).InOrder sys.log := by
  apply history (fun log run => run.InOrder log) _ _ _ reachable
  · intro log env params _ unknown
    exact Run.start_inOrder unknown
  · intro label log run _ unnamed before
    have others : ∀ key, label.bind Reply.completes ≠ some ⟨run.execution.id, key⟩ := by
      intro key isKey
      cases label with
      | none => cases isKey
      | some reply => exact unnamed (Reply.target_of_about (Reply.completes_about isKey))
    have log_eq : completionsOf run.execution.id (label.toList ++ log) =
        completionsOf run.execution.id log := keysOf_append_none others
    exact ⟨by rw [log_eq]; exact before.sorted, fun key => by rw [log_eq]; exact before.completed key⟩
  · intro sys next action label execution run stepped _ member ran before
    rw [stepped.log]
    exact ran.inOrder (stepped.inv.db.runInv member) before

/-! ## The definition of a run -/

/-- Only accepted definitions are started. -/
theorem Sys.accepted {allowed : Sys Val → Action Val → Prop} {sys : Sys Val}
    (reachable : (engineSystem Val).ReachableBy allowed sys) {params : StartParams Val}
    {created : WorkflowExecution Val} (started : .startExecution params created ∈ sys.log)
    {execution : WorkflowExecution Val} (membership : execution ∈ sys.db.executions.values)
    (same : created.id = execution.id) : (validateDag params.dag).valid = true := by
  have held := history (fun log run => ∀ params created, .startExecution params created ∈ log →
    created.id = run.execution.id → (validateDag params.dag).valid = true) ?_ ?_ ?_ reachable
  · exact held execution membership params created started same
  · intro log env starting accepted unknown params created isStart sameId
    rcases List.mem_cons.mp isStart with new | old
    · cases new
      exact accepted
    · exact absurd (congrArg some sameId) (unknown _ old)
  · intro label log run _ unnamed before params created isStart sameId
    rcases List.mem_append.mp isStart with new | old
    · rw [Option.mem_toList.mp new] at unnamed
      exact absurd (congrArg some sameId) unnamed
    · exact before params created old sameId
  · intro sys next action label execution run stepped _ _ ran before params created isStart sameId
    rw [stepped.log] at isStart
    rcases List.mem_append.mp isStart with new | old
    · rw [Option.mem_toList.mp new] at ran
      cases ran
    · rw [ran.execution_id] at sameId
      exact before params created old sameId

omit [Mixed Val] in
theorem Run.Instantiates.keys {params : StartParams Val} {run : Run Val}
    (instantiates : run.Instantiates params) :
    run.tasks.map (·.key) = params.dag.map (·.key) := by
  have keys := congrArg (List.map TaskPlan.key) instantiates.plans
  simpa [StartParams.dag, TaskDefinition.toDagTask, Task.plan, TaskDefinition.plan,
    Function.comp_def] using keys

omit [Mixed Val] in
/-- The parents of a run are the dependencies of its definition. -/
theorem Run.Instantiates.parent_iff {params : StartParams Val} {run : Run Val}
    (instantiates : run.Instantiates params) {key dep : Key} :
    GraphValid.Parent run key dep ↔ Needs params.dag key dep := by
  have viaPlans : GraphValid.Parent run key dep ↔
      ∃ plan ∈ run.tasks.map Task.plan, plan.key = key ∧ dep ∈ plan.dependsOn := by
    constructor
    · rintro ⟨task, membership, isKey, isDep⟩
      exact ⟨task.plan, List.mem_map_of_mem membership, isKey, isDep⟩
    · rintro ⟨plan, membership, isKey, isDep⟩
      rcases List.mem_map.mp membership with ⟨task, taskMem, rfl⟩
      exact ⟨task, taskMem, isKey, isDep⟩
  rw [viaPlans, instantiates.plans]
  constructor
  · rintro ⟨plan, membership, isKey, isDep⟩
    rcases List.mem_map.mp membership with ⟨definition, definitionMem, rfl⟩
    exact ⟨definition.toDagTask, List.mem_map_of_mem definitionMem, isKey, isDep⟩
  · rintro ⟨task, membership, isKey, isDep⟩
    rcases List.mem_map.mp membership with ⟨definition, definitionMem, rfl⟩
    exact ⟨definition.plan, List.mem_map_of_mem definitionMem, isKey, isDep⟩

/-! ## The guarantee -/

/-- An order in which all tasks of the list come after their dependencies. -/
structure Topological (tasks : List DagTask) (order : List Key) : Prop where
  sorted : Sorted (Needs tasks) order
  complete : order.Perm (tasks.map (·.key))

/-- Any sorted list of tasks goes on to a topological order. -/
theorem Topological.of_done {tasks : List DagTask} (accepted : (validateDag tasks).valid = true)
    {done : List Key} (sorted : Sorted (Needs tasks) done)
    (isKey : ∀ key ∈ done, key ∈ tasks.map (·.key)) :
    Topological tasks (done ++ (validateDag tasks).order.filter fun key => key ∉ done) := by
  rcases accepted_iff.mp accepted with ⟨structural, processed⟩
  have keys_nodup := (validateDag_sound accepted).keys_nodup
  have order : (validateDag tasks).order = (kahn tasks).order := by
    rw [validateDag_eq structural processed]
  rw [order]
  have all := sorted.append_filter (kahn_sorted keys_nodup)
  refine ⟨all, (List.perm_ext_iff_of_nodup all.nodup keys_nodup).mpr ?_⟩
  intro key
  rw [List.mem_append, List.mem_filter, (order_perm accepted).mem_iff]
  constructor
  · rintro (isDone | ⟨found, _⟩)
    · exact isKey key isDone
    · exact found
  · intro found
    by_cases isDone : key ∈ done
    · exact .inl isDone
    · exact .inr ⟨found, by simpa using isDone⟩

/-- A step only adds to the log. -/
theorem Sys.log_suffix {sys later : Sys Val} (leads : (engineSystem Val).Leads sys later) :
    sys.log <:+ later.log := by
  induction leads with
  | refl => exact List.suffix_rfl
  | tail _ taken ih =>
      rcases taken with ⟨_, taken⟩
      cases Sys.took_of_step taken with
      | invoke => exact ih
      | crash => exact ih
      | ran => exact ih.trans (List.suffix_append _ _)
      | threw => exact ih.trans (List.suffix_cons _ _)

/-- In every reachable state, for every run: the order in which its tasks became
COMPLETED goes on to a topological order of its definition with what the order of
`validateDag` has left, the tasks in it are the COMPLETED ones, it is a topological
order itself when the run is COMPLETED, and later states only extend it. -/
theorem completions_topological {sys : Sys Val} (reachable : (engineSystem Val).Reachable sys)
    {params : StartParams Val} {created : WorkflowExecution Val}
    (started : .startExecution params created ∈ sys.log)
    {execution : WorkflowExecution Val} (membership : execution ∈ sys.db.executions.values)
    (same : created.id = execution.id) :
    Topological params.dag (completionsOf execution.id sys.log ++
      (validateDag params.dag).order.filter fun key => key ∉ completionsOf execution.id sys.log) ∧
    (∀ task ∈ (sys.db.runOf execution).tasks,
      task.status = .completed ↔ task.key ∈ completionsOf execution.id sys.log) ∧
    (execution.status = .completed →
      Topological params.dag (completionsOf execution.id sys.log)) ∧
    ∀ later, (engineSystem Val).Leads sys later →
      completionsOf execution.id sys.log <+: completionsOf execution.id later.log := by
  have inv := (Sys.inv_of_reachableBy reachable).db.runInv membership
  have inOrder := Sys.inOrder reachable execution membership
  have instantiates := Sys.instantiates reachable started membership same
  have accepted := Sys.accepted reachable started membership same
  have sameNeeds : GraphValid.Parent (sys.db.runOf execution) = Needs params.dag := by
    funext key dep
    exact propext instantiates.parent_iff
  have sorted : Sorted (Needs params.dag) (completionsOf execution.id sys.log) :=
    sameNeeds ▸ inOrder.sorted
  have done_iff : ∀ task ∈ (sys.db.runOf execution).tasks,
      task.status = .completed ↔ task.key ∈ completionsOf execution.id sys.log := by
    intro task taskMem
    rw [show task.key ∈ completionsOf execution.id sys.log ↔ _ from inOrder.completed task.key,
      Run.missing_eq_false]
    constructor
    · intro completed
      exact ⟨task, taskMem, rfl, completed⟩
    · rintro ⟨other, otherMem, sameKey, completed⟩
      rw [← inv.graph.eq_of_key otherMem taskMem sameKey]
      exact completed
  have isKey : ∀ key ∈ completionsOf execution.id sys.log, key ∈ params.dag.map (·.key) := by
    intro key isDone
    rcases Run.missing_eq_false.mp ((inOrder.completed key).mp isDone) with ⟨task, taskMem, rfl, _⟩
    rw [← instantiates.keys]
    exact List.mem_map_of_mem taskMem
  have goesOn := Topological.of_done accepted sorted isKey
  refine ⟨goesOn, done_iff, ?_, fun later leads => keysOf_prefix (Sys.log_suffix leads)⟩
  intro completed
  refine ⟨sorted, (List.perm_ext_iff_of_nodup sorted.nodup
    (validateDag_sound accepted).keys_nodup).mpr fun key => ⟨isKey key, ?_⟩⟩
  intro found
  rw [← instantiates.keys] at found
  rcases List.mem_map.mp found with ⟨task, taskMem, rfl⟩
  exact (done_iff task taskMem).mp (inv.counted.completed completed task taskMem)

/-- The two tasks of a chain, one after the other. -/
theorem completions_topological_chain :
    ∃ params : StartParams Plain, ∃ sys, (engineSystem Plain).Reachable sys ∧
      completionsOf 2 sys.log = ["A", "B"] ∧ Topological params.dag ["A", "B"] := by
  let sys := Schedule.after Schedule.chainDirect (by decide)
  have reachable : (engineSystem Plain).Reachable sys :=
    Schedule.after_reachable Schedule.chainDirect (by decide)
  have found : ∃ params created, Reply.startExecution params created ∈ sys.log ∧
      ∃ execution ∈ sys.db.executions.values, created.id = execution.id ∧ execution.id = 2 ∧
        execution.status = .completed := by
    refine ⟨_, _, List.mem_of_getLast? rfl, _, List.mem_of_getLast? rfl, rfl, rfl, by decide⟩
  rcases found with ⟨params, created, started, execution, membership, same, isTwo, completed⟩
  have order : completionsOf 2 sys.log = ["A", "B"] := by decide
  have guarantee := (completions_topological reachable started membership same).2.2.1 completed
  rw [isTwo, order] at guarantee
  exact ⟨params, sys, reachable, order, guarantee⟩

end WorkflowEngine
