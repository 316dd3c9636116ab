import WorkflowEngine.Workflow.Run.Approvals
import WorkflowEngine.Workflow.Run.Dependencies

/-!
# The invariant of a run

The parts of the invariant together: they hold of a new run and are kept by every
step, so they hold of every run that a schedule can reach.  The second half says
how a run may differ from an earlier version of itself, which is what a
transaction may rely on between its snapshot and its commit.
-/

namespace WorkflowEngine

open DocStore

variable {Val : Type}

namespace Run

structure Inv (run : Run Val) : Prop where
  graph : GraphValid run.execution.id run.shapes
  ok : ∀ task ∈ run.tasks, task.Ok
  counted : Counted run.execution run.tasks
  ordered : Ordered run.execution.status run.tasks
  home : ∀ request ∈ run.approvals, request.executionId = run.execution.id
  inStep : InStep run.tasks run.approvals

variable [Mixed Val]

/-! ## A new run -/

private theorem start_task {env : Env} {params : StartParams Val} {task : Task Val}
    (membership : task ∈ (start env params).tasks) : ∃ definition ∈ params.workflow.tasks,
      newTask env.objectId params.workflow env.now definition = task :=
  List.mem_map.mp membership

private theorem newTask_status (executionId : ExecutionId) (workflow : Workflow Val)
    (startedAt : Time) (definition : TaskDefinition Val) :
    definition.dependsOn = [] ∧
        (newTask executionId workflow startedAt definition).status = .ready ∨
      definition.dependsOn ≠ [] ∧
        (newTask executionId workflow startedAt definition).status = .pending := by
  by_cases root : definition.dependsOn = []
  · exact .inl ⟨root, by simp [newTask, root]⟩
  · exact .inr ⟨root, by simp [newTask, root]⟩

theorem start_inv {env : Env} {params : StartParams Val}
    (accepted : (validateDag (params.workflow.tasks.map TaskDefinition.toDagTask)).valid = true) :
    Inv (start env params) := by
  have fresh : ∀ task ∈ (start env params).tasks,
      task.status = .ready ∧ task.dependsOn = [] ∨
        task.status = .pending ∧ task.dependsOn ≠ [] := by
    intro task membership
    rcases start_task membership with ⟨definition, _, rfl⟩
    rcases newTask_status env.objectId params.workflow env.now definition with
      ⟨root, ready⟩ | ⟨child, pending⟩
    · exact .inl ⟨ready, root⟩
    · exact .inr ⟨pending, child⟩
  have unfinished : ∀ task ∈ (start env params).tasks, task.status.unfinished = true := by
    intro task membership
    rcases fresh task membership with ⟨status, _⟩ | ⟨status, _⟩ <;> rw [status] <;> rfl
  have noneCompleted : ∀ dep, missing (start env params).tasks dep = true := by
    intro dep
    by_contra done
    rcases missing_eq_false.mp (Bool.not_eq_true _ ▸ done) with ⟨task, membership, _, completed⟩
    have still := unfinished task membership
    rw [completed] at still
    cases still
  refine ⟨start_graphValid accepted, ?_, ?_, ?_, List.forall_mem_nil _, ?_⟩
  · intro task membership
    rcases start_task membership with ⟨definition, _, rfl⟩
    rcases newTask_status env.objectId params.workflow env.now definition with
      ⟨root, ready⟩ | ⟨child, pending⟩
    · exact ⟨fun _ => by simp [newTask, root], by simp [ready], by simp [ready], by simp [ready],
        rfl, by simp [ready], by simp [ready]⟩
    · exact ⟨by simp [pending], by simp [pending], by simp [pending], by simp [pending], rfl,
        by simp [pending], by simp [pending]⟩
  · have count : (start env params).tasks.countP (fun task => task.status.unfinished) =
        params.workflow.tasks.length := by
      rw [List.countP_eq_length.mpr unfinished]
      simp [start]
    refine ⟨?_, ⟨?_, ?_⟩, ?_, ?_, ?_, ?_⟩
    · rw [count]
      rfl
    · intro same
      cases same
    · intro same
      cases same
    · intro _ nonempty zero
      apply nonempty
      have none : params.workflow.tasks.length = 0 := Int.ofNat_eq_zero.mp zero
      simp [start, List.length_eq_zero_iff.mp none]
    · intro _ task membership
      exact TaskStatus.unsuccessful_of_unfinished (unfinished task membership)
    · intro same
      cases same
    · intro same
      cases same
  · refine ⟨?_, ?_, ?_⟩
    · intro _ task membership
      rcases start_task membership with ⟨definition, _, rfl⟩
      rw [List.countP_eq_length.mpr fun dep _ => noneCompleted dep]
      rfl
    · intro task membership notPending _ dep isDep
      rcases fresh task membership with ⟨_, root⟩ | ⟨pending, _⟩
      · rw [root] at isDep
        cases isDep
      · exact absurd pending notPending
    · intro _ task membership pending
      rcases fresh task membership with ⟨ready, _⟩ | ⟨_, child⟩
      · rw [pending] at ready
        cases ready
      · rcases start_task membership with ⟨definition, _, rfl⟩
        intro zero
        exact child (List.length_eq_zero_iff.mp (Int.ofNat_eq_zero.mp zero))
  · refine ⟨List.nodup_nil, List.nodup_nil, List.forall_mem_nil _, ?_⟩
    intro task membership waiting
    rcases fresh task membership with ⟨status, _⟩ | ⟨status, _⟩ <;> rw [waiting] at status <;>
      cases status

/-! ## Steps -/

variable {missed : Key → Bool} {label : Option (Reply Val)} {run next : Run Val}

theorem Step.home (step : Step missed label run next)
    (tasks : ∀ task ∈ run.tasks, task.executionId = run.execution.id)
    (before : ∀ request ∈ run.approvals, request.executionId = run.execution.id) :
    ∀ request ∈ next.approvals, request.executionId = next.execution.id := by
  rw [step.execution_id]
  have decided : ∀ (params : ResolveParams) (now : Time), ∀ request ∈ run.approvals.map
      (fun other => if other.id = params.approvalId then (recordDecision params now).set other
        else other), request.executionId = run.execution.id := by
    intro params now request membership
    rcases List.mem_map.mp membership with ⟨other, otherMem, rfl⟩
    rw [← before other otherMem]
    split <;> rfl
  cases step with
  | pause | resume | dispatch | claim | renew | announce | complete | retry => exact before
  | fail =>
      rw [fail_approvals]
      exact before
  | cancel =>
      intro request membership
      rcases List.mem_map.mp membership with ⟨other, otherMem, rfl⟩
      rw [← before other otherMem]
      unfold Update.onValue
      split <;> rfl
  | @suspend _ task env request membership =>
      intro other otherMem
      rcases List.mem_append.mp otherMem with old | new
      · exact before other old
      · cases List.mem_singleton.mp new
        exact tasks task membership
  | approve => exact decided _ _
  | reject =>
      rw [emit, fail_approvals]
      exact decided _ _

theorem Step.inv (step : Step missed label run next) (inv : Inv run) : Inv next := by
  have moves := step.moves inv.graph.tasks_nodup
  refine ⟨?_, ?_, step.counted inv.graph.tasks_nodup inv.graph.task_home inv.counted,
    step.ordered inv.graph inv.ordered, step.home inv.graph.task_home inv.home,
    step.inStep inv.graph inv.home inv.inStep⟩
  · rw [step.execution_id, shapes, moves.shapes]
    exact inv.graph
  · rcases moves with ⟨image, tasks_eq, each⟩
    intro task membership
    rw [tasks_eq] at membership
    rcases List.mem_map.mp membership with ⟨source, sourceMem, rfl⟩
    exact (each source sourceMem).ok (inv.ok source sourceMem)

/-- The invariant holds of every run that a schedule can reach. -/
theorem Reached.inv {params : StartParams Val} (reached : Reached params run) : Inv run := by
  induction reached with
  | start accepted => exact start_inv accepted
  | step _ taken ih => exact taken.inv ih

/-- The tasks of a run are the tasks of its definition. -/
theorem Reached.shape {params : StartParams Val} (reached : Reached params run) :
    ∃ env, run.execution.shape = (Run.start env params).execution.shape ∧
      run.shapes = (Run.start env params).shapes := by
  induction reached with
  | @start env _ => exact ⟨env, rfl, rfl⟩
  | step before taken ih =>
      rcases ih with ⟨env, execution, tasks⟩
      refine ⟨env, taken.execution_shape.trans execution, ?_⟩
      exact ((taken.moves before.inv.graph.tasks_nodup).shapes).trans tasks

/-! ## Later versions of a run -/

/-- The second run is a later version of the first one. -/
structure Evolves (run later : Run Val) : Prop where
  shape : later.execution.shape = run.execution.shape
  pendingTasks : later.execution.pendingTasks ≤ run.execution.pendingTasks
  live : later.execution.status.live = true → run.execution.status.live = true
  /-- while no task finishes, no dependency counter moves -/
  tasks : ∀ next ∈ later.tasks, ∃ task ∈ run.tasks, task.Evolves next ∧
    (later.execution.pendingTasks = run.execution.pendingTasks →
      next.remainingDeps = task.remainingDeps)
  approvals : ∀ request ∈ run.approvals, ∃ next ∈ later.approvals,
    next.id = request.id ∧ next.taskId = request.taskId

namespace Evolves

omit [Mixed Val] in
theorem refl (run : Run Val) : run.Evolves run :=
  ⟨rfl, Int.le_refl _, fun live => live,
    fun task membership => ⟨task, membership, .refl task, fun _ => rfl⟩,
    fun request membership => ⟨request, membership, rfl, rfl⟩⟩

omit [Mixed Val] in
theorem trans {first second third : Run Val} (earlier : first.Evolves second)
    (later : second.Evolves third) : first.Evolves third := by
  refine ⟨later.shape.trans earlier.shape, Int.le_trans later.pendingTasks earlier.pendingTasks,
    fun live => earlier.live (later.live live), ?_, ?_⟩
  · intro last lastMem
    rcases later.tasks last lastMem with ⟨middle, middleMem, laterTask, laterDeps⟩
    rcases earlier.tasks middle middleMem with ⟨task, membership, earlierTask, earlierDeps⟩
    refine ⟨task, membership, earlierTask.trans laterTask, ?_⟩
    intro same
    have middleSame : second.execution.pendingTasks = first.execution.pendingTasks :=
      Int.le_antisymm earlier.pendingTasks (same ▸ later.pendingTasks)
    rw [laterDeps (same.trans middleSame.symm), earlierDeps middleSame]
  · intro request membership
    rcases earlier.approvals request membership with ⟨middle, middleMem, id, taskId⟩
    rcases later.approvals middle middleMem with ⟨last, lastMem, id', taskId'⟩
    exact ⟨last, lastMem, id'.trans id, taskId'.trans taskId⟩

end Evolves

omit [Mixed Val] in
theorem counted_pendingTasks (now : Time) (execution : WorkflowExecution Val) :
    (counted now execution).pendingTasks = execution.pendingTasks - 1 := by
  unfold counted
  split <;> rfl

omit [Mixed Val] in
theorem counted_live (now : Time) (execution : WorkflowExecution Val)
    (live : (counted now execution).status.live = true) : execution.status.live = true := by
  unfold counted at live
  split at live
  · cases live
  · exact live

omit [Mixed Val] in
theorem fail_execution (task : Task Val) (outcome : FailureOutcome) (message : String)
    (retryable : Bool) (missed : Key → Bool) (now : Time) (run : Run Val) :
    (Run.fail task outcome message retryable missed now run).execution.pendingTasks <
        run.execution.pendingTasks ∧
      (Run.fail task outcome message retryable missed now run).execution.status.live = false := by
  unfold Run.fail
  split
  · refine ⟨?_, rfl⟩
    simp only
    omega
  · next dead => exact ⟨Int.sub_lt_self _ (by decide), by simpa using dead⟩

omit [Mixed Val] in
theorem replaceIn_remainingDeps {tasks : List (Task Val)} (nodup : (tasks.map (·.key)).Nodup)
    {task : Task Val} (membership : task ∈ tasks) {replacement : Task Val}
    (key : replacement.key = task.key)
    (remainingDeps : replacement.remainingDeps = task.remainingDeps) :
    ∃ image, replaceIn replacement tasks = tasks.map image ∧
      ∀ other ∈ tasks, (image other).remainingDeps = other.remainingDeps := by
  refine ⟨_, rfl, ?_⟩
  intro other otherMem
  split
  · next same =>
    cases List.inj_on_of_nodup_map nodup otherMem membership (same.trans key)
    exact remainingDeps
  · rfl

/-- A step either finishes a task or leaves every dependency counter alone. -/
theorem Step.remainingDeps (step : Step missed label run next)
    (nodup : (run.tasks.map (·.key)).Nodup) :
    next.execution.pendingTasks < run.execution.pendingTasks ∨
      next.execution.pendingTasks ≤ run.execution.pendingTasks ∧
        ∃ image, next.tasks = run.tasks.map image ∧
          ∀ task ∈ run.tasks, (image task).remainingDeps = task.remainingDeps := by
  cases step with
  | pause | announce =>
      exact .inr ⟨Int.le_refl _, fun task => task, by simp [emit], fun _ _ => rfl⟩
  | @resume _ now =>
      refine .inr ⟨?_, _, rfl, fun task _ => ?_⟩
      · unfold emit resumed
        split <;> exact Int.le_refl _
      · rcases promotePending_cases run.execution.id now task with same | ⟨_, same⟩ <;> rw [same]
  | cancel =>
      refine .inr ⟨?_, _, rfl, fun task _ => ?_⟩
      · simp only [emit]
        omega
      · unfold Update.onValue
        split <;> rfl
  | dispatch membership =>
      exact .inr ⟨Int.le_refl _, replaceIn_remainingDeps nodup membership rfl rfl⟩
  | claim membership =>
      exact .inr ⟨Int.le_refl _, replaceIn_remainingDeps nodup membership rfl rfl⟩
  | renew membership =>
      exact .inr ⟨Int.le_refl _, replaceIn_remainingDeps nodup membership rfl rfl⟩
  | retry membership =>
      exact .inr ⟨Int.le_refl _, replaceIn_remainingDeps nodup membership rfl rfl⟩
  | suspend membership =>
      exact .inr ⟨Int.le_refl _, replaceIn_remainingDeps nodup membership rfl rfl⟩
  | complete | approve =>
      refine .inl ?_
      simp only [emit, succeed, counted_pendingTasks]
      exact Int.sub_lt_self _ (by decide)
  | fail => exact .inl (fail_execution _ _ _ _ _ _ _).1
  | reject => exact .inl (fail_execution _ _ _ _ _ _ _).1

/-- A run that ended is not live again. -/
theorem Step.live (step : Step missed label run next)
    (after : next.execution.status.live = true) : run.execution.status.live = true := by
  cases step with
  | pause running =>
      rw [running]
      rfl
  | resume paused =>
      rw [paused]
      rfl
  | cancel => cases after
  | dispatch | claim | renew | announce | retry | suspend => exact after
  | complete => exact counted_live _ _ after
  | approve => exact counted_live _ _ after
  | fail =>
      rw [(fail_execution _ _ _ _ _ _ _).2] at after
      cases after
  | reject =>
      rw [emit, (fail_execution _ _ _ _ _ _ _).2] at after
      cases after

theorem Step.approvals (step : Step missed label run next) :
    ∀ request ∈ run.approvals, ∃ later ∈ next.approvals,
      later.id = request.id ∧ later.taskId = request.taskId := by
  have kept : ∀ request ∈ run.approvals, ∃ later ∈ run.approvals,
      later.id = request.id ∧ later.taskId = request.taskId :=
    fun request membership => ⟨request, membership, rfl, rfl⟩
  have mapped : ∀ image : ApprovalRequest Val → ApprovalRequest Val,
      (∀ request, (image request).id = request.id ∧ (image request).taskId = request.taskId) →
        ∀ request ∈ run.approvals, ∃ later ∈ run.approvals.map image,
          later.id = request.id ∧ later.taskId = request.taskId :=
    fun image same request membership =>
      ⟨image request, List.mem_map_of_mem membership, same request⟩
  cases step with
  | pause | resume | dispatch | claim | renew | announce | complete | retry => exact kept
  | fail =>
      rw [fail_approvals]
      exact kept
  | cancel =>
      apply mapped
      intro request
      unfold Update.onValue
      split <;> exact ⟨rfl, rfl⟩
  | suspend =>
      exact fun request membership =>
        ⟨request, List.mem_append_left _ membership, rfl, rfl⟩
  | approve =>
      apply mapped
      intro request
      split <;> exact ⟨rfl, rfl⟩
  | reject =>
      rw [emit, fail_approvals]
      apply mapped
      intro request
      split <;> exact ⟨rfl, rfl⟩

theorem Step.evolves (step : Step missed label run next)
    (nodup : (run.tasks.map (·.key)).Nodup) : run.Evolves next := by
  rcases step.moves nodup with ⟨image, tasks_eq, moves⟩
  refine ⟨step.execution_shape, ?_, step.live, ?_, step.approvals⟩
  · rcases step.remainingDeps nodup with less | ⟨le, _⟩
    · exact Int.le_of_lt less
    · exact le
  · intro later laterMem
    rw [tasks_eq] at laterMem
    rcases List.mem_map.mp laterMem with ⟨task, membership, rfl⟩
    refine ⟨task, membership, (moves task membership).evolves, ?_⟩
    intro same
    rcases step.remainingDeps nodup with less | ⟨_, other, other_eq, kept⟩
    · exact absurd same (Int.ne_of_lt less)
    · have agree := List.map_inj_left.mp (tasks_eq.symm.trans other_eq) task membership
      rw [agree]
      exact kept task membership

end Run

end WorkflowEngine
