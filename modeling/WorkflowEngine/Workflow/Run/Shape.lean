import WorkflowEngine.Workflow.DagValid
import WorkflowEngine.Workflow.TaskInvariant

/-!
# The fixed part of a run

The identity of an execution and the graph of its tasks are settled when the run
starts.  They come from a definition that `validateDag` accepts, and no step
changes them.
-/

namespace WorkflowEngine

open DocStore Precedence

variable {Val : Type}

/-- The fields of an execution that no step changes. -/
structure ExecutionShape (Val : Type) where
  id : ExecutionId
  workflowId : ObjectId
  ownerId : UserId
  workflowVersion : Nat
  input : Val
  taskCount : Nat
  triggeredBy : Option UserId
  trigger : Trigger
  idempotencyKey : Option String
  requestHash : Option String
  startedAt : Option Time

def WorkflowExecution.shape (execution : WorkflowExecution Val) : ExecutionShape Val :=
  { id := execution.id, workflowId := execution.workflowId, ownerId := execution.ownerId
    workflowVersion := execution.workflowVersion, input := execution.input
    taskCount := execution.taskCount, triggeredBy := execution.triggeredBy
    trigger := execution.trigger, idempotencyKey := execution.idempotencyKey
    requestHash := execution.requestHash, startedAt := execution.startedAt }

/-- The task graph of one execution. -/
structure GraphValid (executionId : ExecutionId) (shapes : List (TaskShape Val)) : Prop where
  keys_nodup : (shapes.map (·.key)).Nodup
  home : ∀ shape ∈ shapes, shape.executionId = executionId
  deps_nodup : ∀ shape ∈ shapes, shape.dependsOn.Nodup
  known : ∀ shape ∈ shapes, ∀ dep ∈ shape.dependsOn, dep ∈ shapes.map (·.key)
  /-- `dependents` is the inverse of `dependsOn` -/
  inverse : ∀ child ∈ shapes, ∀ parent ∈ shapes,
    (child.key ∈ parent.dependents ↔ parent.key ∈ child.dependsOn)
  acyclic : ∃ rank : Key → Nat, ∀ shape ∈ shapes, ∀ dep ∈ shape.dependsOn,
    rank dep < rank shape.key

namespace Run

def shapes (run : Run Val) : List (TaskShape Val) := run.tasks.map Task.shape

/-! ## Steps keep the shape -/

variable [Mixed Val] {missed : Key → Bool} {label : Option (Reply Val)} {run next : Run Val}

theorem MovesAll.shapes {tasks moved : List (Task Val)} (moves : MovesAll label tasks moved) :
    moved.map Task.shape = tasks.map Task.shape := by
  rcases moves with ⟨image, rfl, each⟩
  rw [List.map_map]
  apply List.map_congr_left
  intro task membership
  exact (each task membership).evolves.shape

omit [Mixed Val] in
private theorem shape_counted (now : Time) (execution : WorkflowExecution Val) :
    (counted now execution).shape = execution.shape := by
  unfold counted
  split <;> rfl

omit [Mixed Val] in
private theorem shape_fail (task : Task Val) (outcome : FailureOutcome) (message : String)
    (retryable : Bool) (missed : Key → Bool) (now : Time) (run : Run Val) :
    (Run.fail task outcome message retryable missed now run).execution.shape =
      run.execution.shape := by
  unfold Run.fail
  split <;> rfl

theorem Step.execution_shape (step : Step missed label run next) :
    next.execution.shape = run.execution.shape := by
  cases step with
  | pause | cancel | dispatch | claim | renew | announce | retry | suspend => rfl
  | resume =>
      unfold emit resumed
      split <;> rfl
  | complete => exact shape_counted _ _
  | approve => exact shape_counted _ _
  | fail => exact shape_fail _ _ _ _ _ _ _
  | reject => exact shape_fail _ _ _ _ _ _ _

theorem Step.execution_id (step : Step missed label run next) :
    next.execution.id = run.execution.id :=
  congrArg ExecutionShape.id step.execution_shape

/-! ## Reading the shape -/

omit [Mixed Val] in
theorem shape_mem {task : Task Val} (membership : task ∈ run.tasks) : task.shape ∈ run.shapes :=
  List.mem_map_of_mem membership

end Run

namespace GraphValid

variable {run : Run Val} (graph : GraphValid run.execution.id run.shapes)
include graph

theorem tasks_nodup : (run.tasks.map (·.key)).Nodup := by
  have nodup := graph.keys_nodup
  rwa [Run.shapes, List.map_map] at nodup

theorem task_home : ∀ task ∈ run.tasks, task.executionId = run.execution.id :=
  fun task membership => graph.home task.shape (Run.shape_mem membership)

theorem eq_of_key {left right : Task Val} (leftMem : left ∈ run.tasks)
    (rightMem : right ∈ run.tasks) (same : left.key = right.key) : left = right :=
  List.inj_on_of_nodup_map graph.tasks_nodup leftMem rightMem same

/-- Every dependency is a task of the run. -/
theorem exists_parent {task : Task Val} (membership : task ∈ run.tasks) {dep : Key}
    (isDep : dep ∈ task.dependsOn) : ∃ parent ∈ run.tasks, parent.key = dep := by
  have known := graph.known task.shape (Run.shape_mem membership) dep isDep
  rw [Run.shapes, List.map_map] at known
  exact List.mem_map.mp known

theorem mem_dependents {child parent : Task Val} (childMem : child ∈ run.tasks)
    (parentMem : parent ∈ run.tasks) :
    child.key ∈ parent.dependents ↔ parent.key ∈ child.dependsOn :=
  graph.inverse child.shape (Run.shape_mem childMem) parent.shape (Run.shape_mem parentMem)

/-- A task needs its parents. -/
def Parent (run : Run Val) (key dep : Key) : Prop :=
  ∃ task ∈ run.tasks, task.key = key ∧ dep ∈ task.dependsOn

theorem ranks : ∃ rank, Precedence.Ranks (Parent run) (· ∈ run.tasks.map (·.key)) rank := by
  rcases graph.acyclic with ⟨rank, decreases⟩
  refine ⟨rank, ?_⟩
  rintro key _ dep ⟨task, membership, rfl, isDep⟩
  exact decreases task.shape (Run.shape_mem membership) dep isDep

/-- Of the tasks with some property, one has no parent with it. -/
theorem exists_first (wanted : Task Val → Prop) {start : Task Val} (startMem : start ∈ run.tasks)
    (startWanted : wanted start) : ∃ task ∈ run.tasks, wanted task ∧
      ∀ parent ∈ run.tasks, parent.key ∈ task.dependsOn → ¬ wanted parent := by
  rcases graph.ranks with ⟨rank, ranks⟩
  rcases ranks.exists_first (fun key => ∃ task ∈ run.tasks, task.key = key ∧ wanted task)
    (fun key found => by
      rcases found with ⟨task, membership, isKey, _⟩
      exact List.mem_map.mpr ⟨task, membership, isKey⟩)
    ⟨start, startMem, rfl, startWanted⟩ with ⟨_, ⟨task, membership, rfl, taskWanted⟩, none⟩
  refine ⟨task, membership, taskWanted, ?_⟩
  intro parent parentMem isDep parentWanted
  exact none parent.key ⟨task, membership, rfl, isDep⟩ ⟨parent, parentMem, rfl, parentWanted⟩

end GraphValid

/-! ## The shape of a new run -/

namespace Run

variable [Mixed Val]

omit [Mixed Val] in
theorem dependents_eq {definitions : List (TaskDefinition Val)}
    (nodup : ∀ definition ∈ definitions, definition.dependsOn.Nodup) (dep : Key) :
    dependents definitions dep =
      (definitions.filter fun definition => decide (dep ∈ definition.dependsOn)).map
        TaskDefinition.key := by
  rw [dependents, foldl_registerAll TaskDefinition.key TaskDefinition.dependsOn, List.nil_append,
    flatMap_replicate_count TaskDefinition.key TaskDefinition.dependsOn nodup]

/-- A new run has a valid graph. -/
theorem start_graphValid {env : Env} {params : StartParams Val}
    (accepted : (validateDag (params.workflow.tasks.map TaskDefinition.toDagTask)).valid = true) :
    GraphValid (start env params).execution.id (start env params).shapes := by
  have valid := validateDag_sound accepted
  have keys_eq : (params.workflow.tasks.map TaskDefinition.toDagTask).map DagTask.key =
      params.workflow.tasks.map TaskDefinition.key := by
    rw [List.map_map]
    rfl
  have shape_keys : (start env params).shapes.map TaskShape.key =
      params.workflow.tasks.map TaskDefinition.key := by
    rw [shapes, start, List.map_map, List.map_map]
    rfl
  have deps_nodup : ∀ definition ∈ params.workflow.tasks, definition.dependsOn.Nodup :=
    fun definition membership => valid.deps_nodup _ (List.mem_map_of_mem membership)
  have keys_nodup : (params.workflow.tasks.map TaskDefinition.key).Nodup := by
    rw [← keys_eq]
    exact valid.keys_nodup
  have isShape : ∀ shape ∈ (start env params).shapes, ∃ definition ∈ params.workflow.tasks,
      (newTask env.objectId params.workflow env.now definition).shape = shape := by
    intro shape membership
    rw [shapes, start, List.map_map] at membership
    exact List.mem_map.mp membership
  refine ⟨?_, ?_, ?_, ?_, ?_, ?_⟩
  · exact shape_keys ▸ keys_nodup
  · intro shape membership
    rcases isShape shape membership with ⟨definition, _, rfl⟩
    rfl
  · intro shape membership
    rcases isShape shape membership with ⟨definition, definitionMem, rfl⟩
    exact deps_nodup definition definitionMem
  · intro shape membership dep isDep
    rcases isShape shape membership with ⟨definition, definitionMem, rfl⟩
    have known := valid.known _ (List.mem_map_of_mem definitionMem) dep isDep
    exact shape_keys ▸ keys_eq ▸ known
  · intro child childMem parent parentMem
    rcases isShape child childMem with ⟨childDef, childDefMem, rfl⟩
    rcases isShape parent parentMem with ⟨parentDef, _, rfl⟩
    show childDef.key ∈ dependents params.workflow.tasks parentDef.key ↔
      parentDef.key ∈ childDef.dependsOn
    rw [dependents_eq deps_nodup, List.mem_map]
    constructor
    · rintro ⟨definition, definitionMem, same⟩
      rw [List.mem_filter, decide_eq_true_eq] at definitionMem
      cases List.inj_on_of_nodup_map keys_nodup definitionMem.1 childDefMem same
      exact definitionMem.2
    · intro isDep
      exact ⟨childDef, List.mem_filter.mpr ⟨childDefMem, by simpa using isDep⟩, rfl⟩
  · rcases valid.acyclic with ⟨rank, ranks⟩
    refine ⟨rank, ?_⟩
    intro shape membership dep isDep
    rcases isShape shape membership with ⟨definition, definitionMem, rfl⟩
    apply ranks
    · rw [keys_eq]
      exact List.mem_map_of_mem definitionMem
    · exact ⟨definition.toDagTask, List.mem_map_of_mem definitionMem, rfl, isDep⟩

end Run

end WorkflowEngine
