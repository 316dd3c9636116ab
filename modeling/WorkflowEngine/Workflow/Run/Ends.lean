import WorkflowEngine.Workflow.Run.Invariant

/-!
# Ends of a run

Completion and cancellation leave nothing unfinished.  A failure cancels only what
has not started, so what a failed run still contains depends on the step that fails
it and on the steps after it.
-/

namespace WorkflowEngine

open DocStore

variable {Val : Type}

/-- The task whose failure for good the reply reports. -/
def Reply.fails : Reply Val → Option TaskId
  | .failTask taskId _ _ (some (.forGood _)) => some taskId
  | .resolveApproval params _ (some taskId) =>
      if params.decision = .approved then none else some taskId
  | _ => none

namespace Run

/-- A run that ended has no task with a status of this kind. -/
def Settled (kind : TaskStatus → Bool) (run : Run Val) : Prop :=
  run.execution.status.live = false → ∀ task ∈ run.tasks, kind task.status = false

/-- Fail-fast leaves an unstarted task only if its snapshot showed it RUNNING. -/
theorem missed_of_unstarted {missed : Key → Bool} {now : Time} {task : Task Val}
    (unstarted : (failedFast missed now task).status.unstarted = true) :
    failedFast missed now task = task ∧ missed task.key = true ∧ task.status = .retrying := by
  unfold failedFast at unstarted ⊢
  split at unstarted
  · cases unstarted
  · next spared =>
    rw [if_neg spared]
    simp only [hit, unstarted, Bool.true_and, Bool.not_eq_true', Bool.not_eq_false,
      Bool.and_eq_true, decide_eq_true_eq] at spared
    exact ⟨rfl, spared⟩

/-- Fail-fast leaves a waiting task alone. -/
theorem failedFast_waiting {missed : Key → Bool} {now : Time} {task : Task Val}
    (waiting : (failedFast missed now task).status = .waitingForApproval) :
    failedFast missed now task = task := by
  unfold failedFast at waiting ⊢
  split at waiting
  · cases waiting
  · next spared => exact if_neg spared

/-- The tasks after fail-fast: the failed one, and images of the others. -/
theorem mem_failedFast {missed : Key → Bool} {now : Time} {tasks : List (Task Val)}
    {failed later : Task Val} (finished : failed.status.unfinished = false)
    (membership : later ∈ (replaceIn failed tasks).map (failedFast missed now)) :
    later = failed ∨
      ∃ source ∈ tasks, later.id ≠ failed.id ∧ later = failedFast missed now source := by
  rcases List.mem_map.mp membership with ⟨replaced, replacedMem, rfl⟩
  rcases List.mem_map.mp replacedMem with ⟨source, sourceMem, rfl⟩
  by_cases same : source.key = failed.key
  · left
    have spared : hit missed failed = false := by
      by_contra isHit
      simp only [hit, Bool.not_eq_false, Bool.and_eq_true] at isHit
      rw [TaskStatus.unfinished_of_unstarted isHit.1] at finished
      cases finished
    rw [if_pos same, failedFast, spared]
    rfl
  · right
    refine ⟨source, sourceMem, ?_, by rw [if_neg same]⟩
    rw [if_neg same]
    intro isFailed
    apply same
    unfold failedFast at isFailed
    split at isFailed <;> exact congrArg TaskId.key isFailed

theorem failed_of_counted {now : Time} {execution : WorkflowExecution Val}
    (failed : (Run.counted now execution).status = .failed) : execution.status = .failed := by
  unfold Run.counted at failed
  split at failed
  · cases failed
  · exact failed

variable [Mixed Val] {missed : Key → Bool} {label : Option (Reply Val)} {run next : Run Val}

/-- Only a failure for good turns a live run into a FAILED one. -/
theorem Step.of_failed (step : Step missed label run next)
    (live : run.execution.status.live = true) (failed : next.execution.status = .failed) :
    ∃ task ∈ run.tasks, label.bind Reply.fails = some task.id ∧ ∃ now, ∀ later ∈ next.tasks,
      later.id = task.id ∧ later.status.unfinished = false ∨
        ∃ source ∈ run.tasks, later.id ≠ task.id ∧ later = failedFast missed now source := by
  cases step with
  | @fail _ task error now membership running =>
      refine ⟨task, membership, rfl, now, ?_⟩
      intro later laterMem
      have finished : (failureOutcome task (isRetryable error)).status.unfinished = false := by
        cases failureOutcome task (isRetryable error) <;> rfl
      rw [Run.fail, if_pos (show (run.replace _).execution.status.live = true from live)] at laterMem
      rcases mem_failedFast finished laterMem with rfl | other
      · exact .inl ⟨rfl, finished⟩
      · exact .inr other
  | @reject _ task request params now membership waiting _ _ _ _ decision =>
      refine ⟨task, membership, if_neg decision, now, ?_⟩
      intro later laterMem
      rw [emit, Run.fail, if_pos (by exact live)] at laterMem
      rcases mem_failedFast rfl laterMem with rfl | other
      · exact .inl ⟨rfl, rfl⟩
      · exact .inr other
  | pause | cancel => cases failed
  | resume paused =>
      simp only [emit, resumed] at failed
      split at failed <;> cases failed
  | dispatch | claim | renew | announce | retry | suspend =>
      simp only [emit, replace] at failed
      rw [failed] at live
      cases live
  | complete | approve =>
      have before : run.execution.status = .failed := failed_of_counted failed
      rw [before] at live
      cases live

/-- What a step must not do for a kind of unfinished tasks to be gone when a run ends:
make one in a run that ended, or leave one when it fails the run. -/
theorem Step.settled {kind : TaskStatus → Bool}
    (unfinished : ∀ status, kind status = true → status.unfinished = true)
    (step : Step missed label run next) (inv : run.Inv)
    (stays : run.execution.status.live = false → ∀ task ∈ run.tasks, ∀ later,
      Task.Moves label task later → kind later.status = true → kind task.status = true)
    (failing : run.execution.status.live = true → next.execution.status = .failed →
      ∀ task ∈ next.tasks, kind task.status = false)
    (settled : run.Settled kind) : next.Settled kind := by
  intro ended task membership
  have nextInv := step.inv inv
  by_cases live : run.execution.status.live = true
  · cases status : next.execution.status with
    | failed => exact failing live status task membership
    | completed =>
        rw [nextInv.counted.completed status task membership]
        by_contra isKind
        exact absurd (unfinished _ (by simpa using isKind)) (by decide)
    | cancelled =>
        have finished := nextInv.counted.cancelled status task membership
        by_contra isKind
        rw [unfinished _ (by simpa using isKind)] at finished
        cases finished
    | running | paused => rw [status] at ended; cases ended
    | pending => exact absurd status nextInv.counted.started.1
    | waitingForApproval => exact absurd status nextInv.counted.started.2
  · have endedBefore : run.execution.status.live = false := by simpa using live
    rcases step.moves inv.graph.tasks_nodup with ⟨image, tasks, moves⟩
    rw [tasks] at membership
    rcases List.mem_map.mp membership with ⟨source, sourceMem, rfl⟩
    by_contra isKind
    have before := stays endedBefore source sourceMem _ (moves source sourceMem)
      (by simpa using isKind)
    rw [settled endedBefore source sourceMem] at before
    cases before

end Run

end WorkflowEngine
