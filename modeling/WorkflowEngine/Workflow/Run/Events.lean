import WorkflowEngine.Workflow.Run.Invariant
import WorkflowEngine.Workflow.Run.Paths

/-!
# Outbox rows of a run

Every step appends the rows that tell of it.  The label of a step says which task
got an outcome or a retry, so the rows about a task can be counted from the labels,
and the labels from the changes of the task's status.
-/

namespace WorkflowEngine

open DocStore

variable {Val : Type}

/-- The row is of this type. -/
def isType (type : EventType) (row : EventType × EventPayload) : Bool := decide (row.1 = type)

/-- The task that a row is about. -/
def EventPayload.taskId : EventPayload → Option TaskId
  | .taskStarted taskId _ _ _ => some taskId
  | .taskCompleted taskId _ _ _ => some taskId
  | .taskFailed taskId _ _ _ _ => some taskId
  | .taskRetrying taskId _ _ _ _ => some taskId
  | .approvalRequested _ taskId _ _ => some taskId
  | _ => none

/-- The row is of this type and about this task. -/
def isAbout (type : EventType) (taskId : TaskId) (row : EventType × EventPayload) : Bool :=
  decide (row.1 = type) && decide (row.2.taskId = some taskId)

/-- The type of the rows that tell that a task got this status. -/
def TaskStatus.reportedAs : TaskStatus → Option EventType
  | .completed => some .taskCompleted
  | .failed => some .taskFailed
  | .deadLetter => some .taskDeadLettered
  | .retrying => some .taskRetrying
  | _ => none

/-- The row that a reply comes with, when it tells of a task's outcome or retry. -/
def Reply.reports : Reply Val → Option (EventType × TaskId)
  | .completeTask taskId _ _ true => some (.taskCompleted, taskId)
  | .failTask taskId _ _ (some (.retrying _)) => some (.taskRetrying, taskId)
  | .failTask taskId _ _ (some (.forGood outcome)) => some (outcome.eventType, taskId)
  | .resolveApproval params _ (some taskId) =>
      some (if params.decision = .approved then .taskCompleted else .taskFailed, taskId)
  | _ => none

theorem Reply.reports_about {reply : Reply Val} {type : EventType} {taskId : TaskId}
    (reports : reply.reports = some (type, taskId)) : reply.about = some taskId := by
  unfold Reply.reports at reports
  split at reports <;> cases reports <;> rfl

/-! ## Tasks -/

theorem TaskStatus.eq_of_reportedAs {left right : TaskStatus} {type : EventType}
    (isLeft : left.reportedAs = some type) (isRight : right.reportedAs = some type) :
    left = right := by
  cases left <;> cases isLeft <;> cases right <;> cases isRight <;> rfl

/-- A step whose reply reports the status that the task gets. -/
theorem reports_of_moved {reply : Reply Val} {taskId : TaskId} {before after status : TaskStatus}
    {reportedType type : EventType} (reports : reply.reports = some (reportedType, taskId))
    (reportsAfter : after.reportedAs = some reportedType) (moved : before ≠ after)
    (reported : status.reportedAs = some type) :
    (some reply).bind Reply.reports = some (type, taskId) ↔ before ≠ status ∧ after = status := by
  rw [Option.bind_some, reports, Option.some.injEq, Prod.mk.injEq, and_iff_left rfl]
  constructor
  · rintro rfl
    cases TaskStatus.eq_of_reportedAs reportsAfter reported
    exact ⟨moved, rfl⟩
  · rintro ⟨_, rfl⟩
    rw [reportsAfter] at reported
    exact Option.some.inj reported

variable [Mixed Val]

/-- A task gets a status that is reported in the step whose reply reports it. -/
theorem Task.Moves.reports_iff {label : Option (Reply Val)} {task later : Task Val}
    (moves : Task.Moves label task later) {status : TaskStatus} {type : EventType}
    (reported : status.reportedAs = some type) :
    label.bind Reply.reports = some (type, task.id) ↔
      task.status ≠ status ∧ later.status = status := by
  have other : label.bind Reply.about ≠ some task.id →
      label.bind Reply.reports ≠ some (type, task.id) := by
    intro unnamed reports
    apply unnamed
    cases label with
    | none => cases reports
    | some reply => exact Reply.reports_about reports
  cases moves with
  | rest unnamed => exact ⟨fun reports => absurd reports (other unnamed), fun both => absurd both.2 both.1⟩
  | promoted unnamed | cancelled unnamed =>
      refine ⟨fun reports => absurd reports (other unnamed), ?_⟩
      rintro ⟨_, rfl⟩
      cases reported
  | renewed running => exact ⟨nofun, fun both => absurd both.2 both.1⟩
  | aborted | dispatched | claimed =>
      refine ⟨nofun, ?_⟩
      rintro ⟨_, rfl⟩
      cases reported
  | suspended =>
      refine ⟨nofun, ?_⟩
      rintro ⟨_, rfl⟩
      cases reported
  | completed running =>
      rw [running]
      exact reports_of_moved rfl rfl nofun reported
  | retried running =>
      rw [running]
      exact reports_of_moved rfl rfl nofun reported
  | @failed _ error now running =>
      rw [running]
      change _ ↔ _ ∧ (failureOutcome task (isRetryable error)).status = status
      cases failureOutcome task (isRetryable error) with
      | failed => exact reports_of_moved rfl rfl nofun reported
      | deadLetter => exact reports_of_moved rfl rfl nofun reported
  | approved waiting decision =>
      rw [waiting]
      exact reports_of_moved (by rw [Reply.reports, if_pos decision]) rfl nofun reported
  | rejected waiting decision =>
      rw [waiting]
      exact reports_of_moved (by rw [Reply.reports, if_neg decision]) rfl nofun reported

namespace Run

variable {missed : Key → Bool} {label : Option (Reply Val)} {run next : Run Val}

omit [Mixed Val] in
theorem countP_emit (events : List (EventType × EventPayload)) (run : Run Val)
    (counts : EventType × EventPayload → Bool) :
    (emit events run).events.countP counts = run.events.countP counts + events.countP counts :=
  List.countP_append

omit [Mixed Val] in
/-- The rows of a success. -/
theorem countP_succeed (task : Task Val) (now : Time) (run : Run Val)
    (counts : EventType × EventPayload → Bool) :
    (succeed task now run).events.countP counts = run.events.countP counts +
      (if done run.execution && counts (.executionCompleted, .empty) then 1 else 0) +
        if counts (.taskCompleted, .taskCompleted task.id task.key task.attempt
          (task.startedAt.map fun started => now - started)) then 1 else 0 := by
  rw [succeed, List.countP_append, List.countP_append, List.countP_singleton]
  cases done run.execution <;> simp [List.countP_singleton]

omit [Mixed Val] in
/-- The rows of a failure for good. -/
theorem countP_fail (task : Task Val) (outcome : FailureOutcome) (message : String)
    (retryable : Bool) (missed : Key → Bool) (now : Time) (run : Run Val)
    (counts : EventType × EventPayload → Bool) :
    (Run.fail task outcome message retryable missed now run).events.countP counts =
      run.events.countP counts +
        (if run.execution.status.live &&
          counts (.executionFailed, .executionFailed task.key message) then 1 else 0) +
        if counts (outcome.eventType, .taskFailed task.id task.key task.attempt message retryable)
          then 1 else 0 := by
  unfold Run.fail
  cases live : run.execution.status.live with
  | false => simp [List.countP_singleton]
  | true => simp [List.countP_cons, Nat.add_assoc, Nat.add_comm]

/-- The rows about a task's outcome or retry come with the reply that reports it. -/
theorem Step.reports (step : Step missed label run next) {status : TaskStatus} {type : EventType}
    (reported : status.reportedAs = some type) (taskId : TaskId) :
    next.events.countP (isAbout type taskId) = run.events.countP (isAbout type taskId) +
      if label.bind Reply.reports = some (type, taskId) then 1 else 0 := by
  cases step with
  | pause | cancel => simp [countP_emit, isAbout, Reply.reports, EventPayload.taskId]
  | resume =>
      rw [countP_emit]
      split <;> simp [isAbout, Reply.reports, EventPayload.taskId]
  | dispatch | claim | renew => simp [replace, Reply.reports]
  | announce =>
      have different : EventType.taskStarted ≠ type := by
        rintro rfl
        cases status <;> cases reported
      simp [countP_emit, isAbout, different]
  | suspend =>
      have different : EventType.approvalRequested ≠ type := by
        rintro rfl
        cases status <;> cases reported
      simp [countP_emit, isAbout, different, Reply.reports, replace]
  | retry => simp [countP_emit, replace, isAbout, Reply.reports, EventPayload.taskId, List.countP_singleton]
  | complete =>
      rw [countP_succeed]
      simp [isAbout, Reply.reports, EventPayload.taskId, replace]
      rfl
  | fail =>
      rw [countP_fail]
      simp [isAbout, Reply.reports, EventPayload.taskId, replace]
  | approve _ _ _ _ _ _ decision =>
      rw [countP_emit, countP_succeed]
      simp [isAbout, Reply.reports, EventPayload.taskId, replace, decision]
      rfl
  | reject _ _ _ _ _ _ decision =>
      rw [countP_emit, countP_fail, show FailureOutcome.failed.eventType = .taskFailed from rfl]
      simp [isAbout, Reply.reports, EventPayload.taskId, replace, decision]

/-! ## Executions -/

end Run

/-- The type of the row that tells that an execution ended with this status. -/
def ExecutionStatus.reportedAs : ExecutionStatus → Option EventType
  | .completed => some .executionCompleted
  | .failed => some .executionFailed
  | .cancelled => some .executionCancelled
  | _ => none

theorem ExecutionStatus.live_of_reportedAs {status : ExecutionStatus} {type : EventType}
    (reported : status.reportedAs = some type) : status.live = false := by
  cases status <;> cases reported <;> rfl

theorem ExecutionStatus.terminal_of_reportedAs {status : ExecutionStatus} {type : EventType}
    (reported : status.reportedAs = some type) : isTerminal .execution status = true := by
  cases status <;> cases reported <;> rfl

namespace Run

variable {missed : Key → Bool} {label : Option (Reply Val)} {run next : Run Val}

/-- A run has one row that tells of its start. -/
theorem Step.started (step : Step missed label run next) :
    next.events.countP (isType .executionStarted) =
      run.events.countP (isType .executionStarted) := by
  cases step with
  | pause | cancel | announce | suspend | retry => simp [countP_emit, isType, replace]
  | resume =>
      rw [countP_emit]
      split <;> simp [isType]
  | dispatch | claim | renew => rfl
  | complete =>
      rw [countP_succeed]
      simp [isType, replace]
  | @fail _ task error =>
      rw [countP_fail]
      cases failureOutcome task (isRetryable error) <;>
        simp [isType, replace, FailureOutcome.eventType]
  | approve =>
      rw [countP_emit, countP_succeed]
      simp [isType, replace]
  | reject =>
      rw [countP_emit, countP_fail]
      simp [isType, replace, FailureOutcome.eventType]

omit [Mixed Val] in
/-- The row of a completed run comes with its completion. -/
theorem ended_counted (now : Time) (execution : WorkflowExecution Val) {status : ExecutionStatus}
    {type : EventType} (reported : status.reportedAs = some type) :
    (if done execution && isType type (.executionCompleted, .empty) then 1 else 0) =
      if execution.status ≠ status ∧ (Run.counted now execution).status = status then 1 else 0 := by
  unfold Run.counted
  by_cases last : done execution = true
  · have running : execution.status = .running := by
      simp only [done, Bool.and_eq_true, decide_eq_true_eq] at last
      exact last.1
    cases status <;> cases reported <;> simp [last, isType, running]
  · simp [last]

omit [Mixed Val] in
/-- The row of a failed run comes with its failure. -/
theorem ended_fail (task : Task Val) (outcome : FailureOutcome) (message : String)
    (retryable : Bool) (missed : Key → Bool) (now : Time) (run : Run Val)
    {status : ExecutionStatus} {type : EventType} (reported : status.reportedAs = some type) :
    (if run.execution.status.live &&
        isType type (.executionFailed, .executionFailed task.key message) then 1 else 0) =
      if run.execution.status ≠ status ∧
        (Run.fail task outcome message retryable missed now run).execution.status = status
          then 1 else 0 := by
  unfold Run.fail
  cases live : run.execution.status.live with
  | false => simp
  | true =>
      have before : run.execution.status ≠ status := by
        rintro rfl
        rw [ExecutionStatus.live_of_reportedAs reported] at live
        cases live
      cases status <;> cases reported <;> simp [isType, before]

/-- The row of an end comes with the step that ends the run. -/
theorem Step.ended (step : Step missed label run next) {status : ExecutionStatus}
    {type : EventType} (reported : status.reportedAs = some type) :
    next.events.countP (isType type) = run.events.countP (isType type) +
      if run.execution.status ≠ status ∧ next.execution.status = status then 1 else 0 := by
  cases step with
  | pause running => 
      rw [countP_emit]
      cases status <;> cases reported <;> simp [emit, isType]
  | cancel live =>
      have before : run.execution.status ≠ .cancelled := by
        intro same
        rw [same] at live
        cases live
      rw [countP_emit]
      cases status <;> cases reported <;> simp [emit, isType, before]
  | announce | suspend | retry =>
      rw [countP_emit]
      cases status <;> cases reported <;> simp [emit, isType, replace]
  | resume paused =>
      rw [countP_emit]
      by_cases none : run.execution.pendingTasks = 0
      · cases status <;> cases reported <;> simp [emit, isType, paused, none, resumed]
      · cases status <;> cases reported <;> simp [emit, isType, paused, none, resumed]
  | dispatch | claim | renew => simp [replace]
  | complete =>
      have other : ∀ payload, isType type (.taskCompleted, payload) = false := by
        cases status <;> cases reported <;> exact fun _ => rfl
      rw [countP_succeed, other]
      exact congrArg (_ + ·) (ended_counted _ run.execution reported)
  | @fail _ task error =>
      have other : ∀ outcome payload, isType type (FailureOutcome.eventType outcome, payload) =
          false := by
        cases status <;> cases reported <;> intro outcome _ <;> cases outcome <;> rfl
      rw [countP_fail, other]
      exact congrArg (_ + ·) (ended_fail _ _ _ _ _ _ _ reported)
  | approve =>
      have other : ∀ payload, isType type (.taskCompleted, payload) = false := by
        cases status <;> cases reported <;> exact fun _ => rfl
      have decided : ∀ decision payload, isType type (.approvalDecided decision, payload) = false := by
        cases status <;> cases reported <;> exact fun _ _ => rfl
      rw [countP_emit, countP_succeed, other, List.countP_singleton, decided]
      exact congrArg (_ + ·) (ended_counted _ run.execution reported)
  | reject =>
      have other : ∀ payload, isType type (FailureOutcome.failed.eventType, payload) = false := by
        cases status <;> cases reported <;> exact fun _ => rfl
      have decided : ∀ decision payload, isType type (.approvalDecided decision, payload) = false := by
        cases status <;> cases reported <;> exact fun _ _ => rfl
      rw [countP_emit, countP_fail, other, List.countP_singleton, decided]
      exact congrArg (_ + ·) (ended_fail _ _ _ _ _ _ _ reported)

/-- A live run is PAUSED when it was paused once more than it was resumed. -/
def Paused (run : Run Val) : Prop :=
  run.execution.status.live = true →
    run.events.countP (isType .executionPaused) =
      run.events.countP (isType .executionResumed) +
        if run.execution.status = .paused then 1 else 0

omit [Mixed Val] in
/-- A step that neither pauses nor resumes. -/
theorem Paused.same (paused : run.Paused)
    (status : next.execution.status.live = true → next.execution.status = run.execution.status)
    (pausedRows : next.events.countP (isType .executionPaused) =
      run.events.countP (isType .executionPaused))
    (resumedRows : next.events.countP (isType .executionResumed) =
      run.events.countP (isType .executionResumed)) : next.Paused := by
  intro live
  have same := status live
  rw [same] at live ⊢
  rw [pausedRows, resumedRows]
  exact paused live

omit [Mixed Val] in
theorem status_of_counted {now : Time} {execution : WorkflowExecution Val}
    (live : (Run.counted now execution).status.live = true) :
    (Run.counted now execution).status = execution.status := by
  unfold Run.counted at live ⊢
  split at live
  · cases live
  · next unfinished => rw [if_neg unfinished]

theorem Step.paused (step : Step missed label run next) (paused : run.Paused) : next.Paused := by
  cases step with
  | pause running =>
      intro _
      have before := paused (by rw [running]; rfl)
      rw [running] at before
      simpa [countP_emit, isType, emit] using before
  | cancel =>
      intro live
      cases live
  | announce | retry | suspend =>
      exact paused.same (fun _ => rfl) (countP_emit _ _ _) (countP_emit _ _ _)
  | dispatch | claim | renew => exact paused.same (fun _ => rfl) rfl rfl
  | resume isPaused =>
      intro live
      have before := paused (by rw [isPaused]; rfl)
      rw [isPaused] at before
      by_cases none : run.execution.pendingTasks = 0
      · simp [emit, resumed, none, ExecutionStatus.live] at live
      · simpa [countP_emit, isType, none, emit, resumed] using before
  | complete =>
      refine paused.same status_of_counted ?_ ?_ <;> rw [countP_succeed] <;> simp [isType, replace]
  | approve =>
      refine paused.same status_of_counted ?_ ?_ <;> rw [countP_emit, countP_succeed] <;>
        simp [isType, replace]
  | fail =>
      intro live
      rw [(fail_execution _ _ _ _ _ _ _).2] at live
      cases live
  | reject =>
      intro live
      rw [emit, (fail_execution _ _ _ _ _ _ _).2] at live
      cases live

/-! ## All rows of a run -/

/-- The rows of a run tell exactly what happened to it. -/
structure Announced (run : Run Val) : Prop where
  started : run.events.countP (isType .executionStarted) = 1
  /-- one row for the status in which the run ended, and none while it is live -/
  ended : ∀ status type, ExecutionStatus.reportedAs status = some type →
    run.events.countP (isType type) = if run.execution.status = status then 1 else 0
  paused : run.Paused
  /-- one row for the outcome of a task, and none for another -/
  outcomes : ∀ task ∈ run.tasks, ∀ status type, TaskStatus.reportedAs status = some type →
    status.unfinished = false →
      run.events.countP (isAbout type task.id) = if task.status = status then 1 else 0

theorem announced_start {env : Env} {params : StartParams Val} :
    (Run.start env params).Announced := by
  refine ⟨rfl, ?_, fun _ => rfl, ?_⟩
  · intro status type reported
    cases status <;> cases reported <;> rfl
  · intro task membership status type reported finished
    have early : task.status.unfinished = true := by
      rcases List.mem_map.mp membership with ⟨definition, _, rfl⟩
      simp only [newTask]
      split <;> rfl
    rw [if_neg]
    · cases status <;> cases reported <;> rfl
    · rintro rfl
      rw [early] at finished
      cases finished

theorem Step.announced (step : Step missed label run next) (inv : run.Inv)
    (announced : run.Announced) : next.Announced := by
  refine ⟨step.started.trans announced.started, ?_, step.paused announced.paused, ?_⟩
  · intro status type reported
    have final : run.execution.status = status → next.execution.status = status := by
      rintro rfl
      exact step.path.eq_of_isTerminal (ExecutionStatus.terminal_of_reportedAs reported)
    rw [step.ended reported, announced.ended status type reported]
    by_cases before : run.execution.status = status
    · simp [before, final before]
    · simp [before]
  · intro later laterMem status type reported finished
    rcases step.moves inv.graph.tasks_nodup with ⟨image, tasks, moves⟩
    rw [tasks] at laterMem
    rcases List.mem_map.mp laterMem with ⟨task, membership, rfl⟩
    have move := moves task membership
    have final : task.status = status → (image task).status = status := by
      rintro rfl
      exact (move.evolves.final finished).1
    rw [move.evolves.id_eq, step.reports reported,
      announced.outcomes task membership status type reported finished]
    simp only [move.reports_iff reported]
    by_cases before : task.status = status
    · simp [before, final before]
    · simp [before]

theorem Reached.announced {params : StartParams Val} (reached : Reached params run) :
    run.Announced := by
  induction reached with
  | start => exact announced_start
  | step reached taken ih => exact taken.announced reached.inv ih

end Run

end WorkflowEngine
