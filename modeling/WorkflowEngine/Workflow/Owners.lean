import WorkflowEngine.Workflow.Provenance

/-!
# One owner for a run

A run has the owner of the workflow that it was started from, and so have its tasks and
its approvals.
-/

namespace WorkflowEngine

open DocStore

variable {Val : Type} [Mixed Val]

namespace Run

/-- The tasks and the approvals have the owner of the run. -/
structure OneOwner (run : Run Val) : Prop where
  tasks : ∀ shape ∈ run.shapes, shape.ownerId = run.execution.ownerId
  approvals : ∀ request ∈ run.approvals, request.ownerId = run.execution.ownerId

variable {run next : Run Val} {missed : Key → Bool} {label : Option (Reply Val)}

/-- A request has its owner from an earlier version or from the task that it is for. -/
theorem Step.approval_owner (step : Step missed label run next) :
    ∀ later ∈ next.approvals, (∃ request ∈ run.approvals, later.ownerId = request.ownerId) ∨
      ∃ task ∈ run.tasks, later.ownerId = task.ownerId := by
  have kept : ∀ later ∈ run.approvals,
      (∃ request ∈ run.approvals, later.ownerId = request.ownerId) ∨
        ∃ task ∈ run.tasks, later.ownerId = task.ownerId :=
    fun later membership => .inl ⟨later, membership, rfl⟩
  have mapped : ∀ image : ApprovalRequest Val → ApprovalRequest Val,
      (∀ request, (image request).ownerId = request.ownerId) →
        ∀ later ∈ run.approvals.map image,
          (∃ request ∈ run.approvals, later.ownerId = request.ownerId) ∨
            ∃ task ∈ run.tasks, later.ownerId = task.ownerId := by
    intro image same later membership
    rcases List.mem_map.mp membership with ⟨request, requestMem, rfl⟩
    exact .inl ⟨request, requestMem, same request⟩
  cases step with
  | pause | resume | dispatch | claim | renew | announce | complete | retry => exact kept
  | fail =>
      rw [fail_approvals]
      exact kept
  | cancel =>
      apply mapped
      intro request
      unfold Update.onValue
      split <;> rfl
  | suspend taskMem =>
      intro later membership
      rcases List.mem_append.mp membership with old | new
      · exact kept later old
      · rw [List.mem_singleton.mp new]
        exact .inr ⟨_, taskMem, rfl⟩
  | approve =>
      apply mapped
      intro request
      split <;> rfl
  | reject =>
      rw [emit, fail_approvals]
      apply mapped
      intro request
      split <;> rfl

theorem OneOwner.step (owned : run.OneOwner) (inv : run.Inv) (step : Step missed label run next) :
    next.OneOwner := by
  have owner : next.execution.ownerId = run.execution.ownerId :=
    congrArg ExecutionShape.ownerId step.execution_shape
  constructor
  · rw [step.shapes inv, owner]
    exact owned.tasks
  · intro later membership
    rw [owner]
    rcases step.approval_owner later membership with
      ⟨request, requestMem, same⟩ | ⟨task, taskMem, same⟩
    · exact same.trans (owned.approvals request requestMem)
    · exact same.trans (owned.tasks task.shape (shape_mem taskMem))

theorem Reached.oneOwner {params : StartParams Val} (reached : Reached params run) :
    run.OneOwner := by
  induction reached with
  | start =>
      constructor
      · intro shape membership
        rw [shapes, Run.start, List.map_map] at membership
        rcases List.mem_map.mp membership with ⟨definition, _, rfl⟩
        rfl
      · exact fun _ absurdity => absurd absurdity List.not_mem_nil
  | step earlier taken ih => exact ih.step earlier.inv taken

end Run

namespace Db

/-- The execution with this id, its tasks and its approvals belong to the owner. -/
structure Owns (owner : UserId) (executionId : ExecutionId) (db : Db Val) : Prop where
  executions : ∀ execution ∈ db.executions.values, execution.id = executionId →
    execution.ownerId = owner
  tasks : ∀ task ∈ db.tasks.values, task.executionId = executionId → task.ownerId = owner
  approvals : ∀ request ∈ db.approvals.values, request.executionId = executionId →
    request.ownerId = owner

namespace Inv

variable {db : Db Val} (inv : db.Inv)
include inv

theorem oneOwner {execution : WorkflowExecution Val}
    (membership : execution ∈ db.executions.values) : (db.runOf execution).OneOwner := by
  rcases inv.reached execution membership with ⟨params, reached⟩
  exact reached.oneOwner

/-- A request has the owner of its run. -/
theorem approval_owner {request : ApprovalRequest Val} (membership : request ∈ db.approvals.values) :
    ∃ execution ∈ db.executions.values, execution.id = request.executionId ∧
      request.ownerId = execution.ownerId := by
  rcases Collection.mem_ids.mp (inv.approvalHome request membership) with
    ⟨execution, executionMem, same⟩
  exact ⟨execution, executionMem, same, (inv.oneOwner executionMem).approvals request
    (mem_runOf_approvals.mpr ⟨membership, same.symm⟩)⟩

/-- Who owns an execution owns its tasks and its approvals. -/
theorem owns {owner : UserId} {executionId : ExecutionId}
    (owned : ∀ execution ∈ db.executions.values, execution.id = executionId →
      execution.ownerId = owner) : db.Owns owner executionId := by
  constructor
  · exact owned
  · intro task membership home
    rcases inv.exists_run membership with ⟨execution, executionMem, same, taskMem⟩
    have taskOwner := (inv.oneOwner executionMem).tasks task.shape (Run.shape_mem taskMem)
    exact taskOwner.trans (owned execution executionMem (same.trans home))
  · intro request membership home
    rcases inv.approval_owner membership with ⟨execution, executionMem, same, requestOwner⟩
    exact requestOwner.trans (owned execution executionMem (same.trans home))

end Inv

end Db

end WorkflowEngine
