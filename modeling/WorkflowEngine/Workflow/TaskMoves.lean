import WorkflowEngine.Workflow.Run

/-!
# What a step does to one task

Every step of a run changes each of its tasks in one of a few ways.  The step's
label says which task it is about; the others are released, cancelled or left
alone.  Facts about single tasks are proved from this classification, one case
per kind of change.
-/

namespace WorkflowEngine

open DocStore

variable {Val : Type}

/-- The fields of a task that no step changes. -/
structure TaskShape (Val : Type) where
  executionId : ExecutionId
  ownerId : UserId
  key : Key
  type : String
  config : Val
  dependsOn : List Key
  dependents : List Key
  maxAttempts : Nat
  baseDelayMs : Nat
  timeoutMs : Nat

namespace Task

def shape (task : Task Val) : TaskShape Val :=
  { executionId := task.executionId, ownerId := task.ownerId, key := task.key
    type := task.type, config := task.config, dependsOn := task.dependsOn
    dependents := task.dependents, maxAttempts := task.maxAttempts
    baseDelayMs := task.baseDelayMs, timeoutMs := task.timeoutMs }

theorem id_eq_of_shape {left right : Task Val} (same : left.shape = right.shape) :
    left.id = right.id := by
  have executionId : left.executionId = right.executionId :=
    congrArg TaskShape.executionId same
  have key : left.key = right.key := congrArg TaskShape.key same
  rw [Task.id, Task.id, executionId, key]

/-- How a step with this label changes a task. -/
inductive Moves [Mixed Val] : Option (Reply Val) → Task Val → Task Val → Prop where
  | rest {label : Option (Reply Val)} {task : Task Val} {remainingDeps : Int} :
      label.bind Reply.about ≠ some task.id →
      Moves label task { task with remainingDeps }
  | promoted {label : Option (Reply Val)} {task : Task Val} {remainingDeps : Int} {now : Time} :
      label.bind Reply.about ≠ some task.id → task.status = .pending →
      Moves label task { task with remainingDeps, status := .ready, readyAt := some now }
  | cancelled {label : Option (Reply Val)} {task : Task Val} {now : Time} :
      label.bind Reply.about ≠ some task.id → task.status.unstarted = true →
      Moves label task { task with status := .cancelled, completedAt := some now }
  | aborted {executionId : ExecutionId} {task : Task Val} {now : Time} :
      task.status.unfinished = true →
      Moves (some (.cancelExecution executionId true)) task
        { task with
          status := .cancelled, completedAt := some now
          leaseOwner := none, leaseExpiresAt := none }
  | dispatched {task : Task Val} {now : Time} :
      task.status = .ready →
      Moves (some (.dispatchTask task.id true)) task (moved .queued (queueing now) task)
  | claimed {task : Task Val} {workerId : String} {leaseMs : Int} {now : Time} :
      claimable now task = true →
      Moves (some (.claimTask ((claim workerId leaseMs now).set task))) task
        ((claim workerId leaseMs now).set task)
  | renewed {task : Task Val} {leaseMs : Int} {now : Time} :
      task.status = .running →
      Moves (some (.renewLease task.id task.leaseToken true)) task
        ((renewal task.leaseToken leaseMs now).set task)
  | completed {task : Task Val} {output : Val} {now : Time} {remainingDeps : Int} :
      task.status = .running →
      Moves (some (.completeTask task.id task.leaseToken output true)) task
        { moved .completed (completion task.leaseToken output now) task with remainingDeps }
  | retried {task : Task Val} {error : Option Thrown} {delayMs : Nat} {retryAt : Time} :
      task.status = .running → isRetryable error = true → task.attempt < task.maxAttempts →
      Moves (some (.failTask task.id task.leaseToken error (some (.retrying delayMs)))) task
        (moved .retrying (postponement task.leaseToken (failureMessage error) retryAt) task)
  | failed {task : Task Val} {error : Option Thrown} {now : Time} :
      task.status = .running →
      Moves (some (.failTask task.id task.leaseToken error
          (some (.forGood (failureOutcome task (isRetryable error)))))) task
        (moved (failureOutcome task (isRetryable error)).status
          (failure task.leaseToken (failureMessage error) now) task)
  | suspended {task : Task Val} :
      task.status = .running →
      Moves (some (.suspendForApproval task.id task.leaseToken true)) task
        (moved .waitingForApproval (suspension task.leaseToken) task)
  | approved {task : Task Val} {params : ResolveParams} {now : Time} {remainingDeps : Int} :
      task.status = .waitingForApproval → params.decision = .approved →
      Moves (some (.resolveApproval params now (some task.id))) task
        { moved .completed (approvedTask params now) task with remainingDeps }
  | rejected {task : Task Val} {params : ResolveParams} {now : Time} :
      task.status = .waitingForApproval → params.decision ≠ .approved →
      Moves (some (.resolveApproval params now (some task.id))) task
        (moved .failed (rejectedTask params now) task)

end Task

namespace Run

/-! ## Classifying the changes of a step -/

theorem released_cases (status : ExecutionStatus) (parent : Task Val) (now : Time)
    (task : Task Val) :
    (∃ remainingDeps, released status parent now task = { task with remainingDeps }) ∨
      task.status = .pending ∧ ∃ remainingDeps, released status parent now task =
        { task with remainingDeps, status := .ready, readyAt := some now } := by
  unfold released
  split
  · next live =>
    simp only
    have counted : ∃ remainingDeps, (decrementChildren parent.executionId
        parent.dependents).onValue task = { task with remainingDeps } := by
      unfold Update.onValue
      split
      · exact ⟨_, rfl⟩
      · exact ⟨task.remainingDeps, rfl⟩
    rcases counted with ⟨remainingDeps, counted⟩
    rw [counted]
    split
    · next running =>
      rw [Update.onValue]
      split
      · next ready =>
        simp only [promoteChildren, Bool.and_eq_true, decide_eq_true_eq] at ready
        exact .inr ⟨ready.1.2, _, rfl⟩
      · exact .inl ⟨_, rfl⟩
    · exact .inl ⟨_, rfl⟩
  · exact .inl ⟨task.remainingDeps, rfl⟩

/-- A task that left PENDING is not promoted. -/
theorem released_of_not_pending {task : Task Val} (settled : task.status ≠ .pending)
    (status : ExecutionStatus) (parent : Task Val) (now : Time) :
    ∃ remainingDeps, released status parent now task = { task with remainingDeps } := by
  rcases released_cases status parent now task with counted | ⟨pending, _⟩
  · exact counted
  · exact absurd pending settled

theorem promotePending_cases (executionId : ExecutionId) (now : Time) (task : Task Val) :
    (promotePending executionId now).onValue task = task ∨
      task.status = .pending ∧ (promotePending executionId now).onValue task =
        { task with status := .ready, readyAt := some now } := by
  rw [Update.onValue]
  split
  · next ready =>
    simp only [promotePending, Bool.and_eq_true, decide_eq_true_eq] at ready
    exact .inr ⟨ready.1.2, rfl⟩
  · exact .inl rfl

variable [Mixed Val] {missed : Key → Bool} {label : Option (Reply Val)} {run next : Run Val}

/-- A released task is at rest or promoted, for any label about another task. -/
theorem moves_released {status : ExecutionStatus} {parent : Task Val} {now : Time}
    {task : Task Val} (other : label.bind Reply.about ≠ some task.id) :
    Task.Moves label task (released status parent now task) := by
  rcases released_cases status parent now task with ⟨remainingDeps, same⟩ | ⟨pending, _, same⟩
  · rw [same]
    exact .rest other
  · rw [same]
    exact .promoted other pending

theorem moves_failedFast {now : Time} {task : Task Val}
    (other : label.bind Reply.about ≠ some task.id) :
    Task.Moves label task (failedFast missed now task) := by
  unfold failedFast
  split
  · next cancelled =>
    simp only [hit, Bool.and_eq_true] at cancelled
    exact .cancelled other cancelled.1
  · exact .rest other

theorem moves_cancelUnfinished {executionId : ExecutionId} {now : Time} {task : Task Val} :
    Task.Moves (some (.cancelExecution executionId true)) task
      ((cancelUnfinished executionId now).onValue task) := by
  rw [Update.onValue]
  split
  · next cancelled =>
    simp only [cancelUnfinished, Bool.and_eq_true] at cancelled
    exact .aborted cancelled.2
  · exact .rest (by simp [Reply.about])

theorem moves_promotePending {executionId : ExecutionId} {now : Time} {task : Task Val}
    (other : label.bind Reply.about ≠ some task.id) :
    Task.Moves label task ((promotePending executionId now).onValue task) := by
  rcases promotePending_cases executionId now task with same | ⟨pending, same⟩
  · rw [same]
    exact .rest other
  · rw [same]
    exact .promoted other pending

/-- A step changes every task of the run by a map, and each of them moves. -/
def MovesAll (label : Option (Reply Val)) (tasks moved : List (Task Val)) : Prop :=
  ∃ image, moved = tasks.map image ∧ ∀ task ∈ tasks, Task.Moves label task (image task)

theorem movesAll_of_image {tasks : List (Task Val)} {image : Task Val → Task Val}
    (moves : ∀ task ∈ tasks, Task.Moves label task (image task)) :
    MovesAll label tasks (tasks.map image) :=
  ⟨image, rfl, moves⟩

/-- One task is replaced, then all are mapped. -/
theorem movesAll_replace {tasks : List (Task Val)} {task replacement : Task Val}
    {image : Task Val → Task Val} (nodup : (tasks.map (·.key)).Nodup) (membership : task ∈ tasks)
    (key : replacement.key = task.key)
    (target : Task.Moves label task (image replacement))
    (others : ∀ other ∈ tasks, other.key ≠ task.key → Task.Moves label other (image other)) :
    MovesAll label tasks ((replaceIn replacement tasks).map image) := by
  rw [replaceIn, List.map_map]
  apply movesAll_of_image
  intro other otherMem
  simp only [Function.comp_apply]
  by_cases same : other.key = task.key
  · cases List.inj_on_of_nodup_map nodup otherMem membership same
    rw [if_pos key.symm]
    exact target
  · rw [if_neg (by rw [key]; exact same)]
    exact others other otherMem same

omit [Mixed Val] in
theorem id_ne_of_key_ne {task other : Task Val} (different : other.key ≠ task.key) :
    some task.id ≠ some other.id := by
  intro same
  exact different (congrArg TaskId.key (Option.some.inj same)).symm

theorem Step.moves (nodup : (run.tasks.map (·.key)).Nodup) (step : Step missed label run next) :
    MovesAll label run.tasks next.tasks := by
  cases step with
  | pause running => exact ⟨fun task => task, by simp [emit], fun task _ => .rest nofun⟩
  | announce => exact ⟨fun task => task, by simp [emit], fun task _ => .rest nofun⟩
  | resume paused => exact movesAll_of_image fun task _ => moves_promotePending nofun
  | cancel live => exact movesAll_of_image fun task _ => moves_cancelUnfinished
  | dispatch membership ready =>
      rw [replace, ← List.map_id (replaceIn _ run.tasks)]
      exact movesAll_replace nodup membership rfl (.dispatched ready)
        fun other _ different => .rest (id_ne_of_key_ne different)
  | claim membership free =>
      rw [replace, ← List.map_id (replaceIn _ run.tasks)]
      exact movesAll_replace nodup membership rfl (.claimed free)
        fun other _ different => .rest (id_ne_of_key_ne different)
  | renew membership running =>
      rw [replace, ← List.map_id (replaceIn _ run.tasks)]
      exact movesAll_replace nodup membership rfl (.renewed running)
        fun other _ different => .rest (id_ne_of_key_ne different)
  | retry membership running retryable attemptsLeft =>
      rw [emit, replace, ← List.map_id (replaceIn _ run.tasks)]
      exact movesAll_replace nodup membership rfl (.retried running retryable attemptsLeft)
        fun other _ different => .rest (id_ne_of_key_ne different)
  | suspend membership running fresh =>
      rw [emit, replace, ← List.map_id (replaceIn _ run.tasks)]
      exact movesAll_replace nodup membership rfl (.suspended running)
        fun other _ different => .rest (id_ne_of_key_ne different)
  | @complete _ task output now membership running =>
      refine movesAll_replace nodup membership rfl ?_
        fun other _ different => moves_released (id_ne_of_key_ne different)
      show Task.Moves _ task (released run.execution.status _ now _)
      have settled : (moved .completed (completion task.leaseToken output now) task).status ≠
          .pending := nofun
      rcases released_of_not_pending settled run.execution.status
        (moved .completed (completion task.leaseToken output now) task) now with
        ⟨remainingDeps, same⟩
      rw [same]
      exact .completed running
  | @approve _ task request params now membership waiting _ _ _ _ decision =>
      refine movesAll_replace nodup membership rfl ?_
        fun other _ different => moves_released (id_ne_of_key_ne different)
      show Task.Moves _ task (released run.execution.status _ now _)
      have settled : (moved .completed (approvedTask params now) task).status ≠ .pending := nofun
      rcases released_of_not_pending settled run.execution.status
        (moved .completed (approvedTask params now) task) now with ⟨remainingDeps, same⟩
      rw [same]
      exact .approved waiting decision
  | @fail _ task error now membership running only =>
      unfold Run.fail
      split
      · refine movesAll_replace nodup membership rfl ?_
          fun other _ different => moves_failedFast (id_ne_of_key_ne different)
        have settled : failedFast missed now (moved (failureOutcome task (isRetryable error)).status
            (failure task.leaseToken (failureMessage error) now) task) =
              moved (failureOutcome task (isRetryable error)).status
                (failure task.leaseToken (failureMessage error) now) task := by
          unfold failedFast
          cases failureOutcome task (isRetryable error) <;> rfl
        rw [settled]
        exact .failed running
      · rw [replace, ← List.map_id (replaceIn _ run.tasks)]
        exact movesAll_replace nodup membership rfl (.failed running)
          fun other _ different => .rest (id_ne_of_key_ne different)
  | @reject _ task request params now membership waiting _ _ _ _ decision =>
      unfold emit Run.fail
      split
      · exact movesAll_replace nodup membership rfl (.rejected waiting decision)
          fun other _ different => moves_failedFast (id_ne_of_key_ne different)
      · simp only [replace]
        rw [← List.map_id (replaceIn _ run.tasks)]
        exact movesAll_replace nodup membership rfl (.rejected waiting decision)
          fun other _ different => .rest (id_ne_of_key_ne different)

end Run

end WorkflowEngine
