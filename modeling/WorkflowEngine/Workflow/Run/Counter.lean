import WorkflowEngine.Foundations.Counting
import WorkflowEngine.Workflow.TaskInvariant

/-!
# The completion counter

`pendingTasks` counts the unfinished tasks of a run in every state, and the
status of the execution agrees with the statuses of its tasks.
-/

namespace WorkflowEngine

open DocStore Counting

/-- FAILED, DEAD_LETTER or CANCELLED. -/
def TaskStatus.unsuccessful : TaskStatus → Bool
  | .failed | .deadLetter | .cancelled => true
  | _ => false

theorem TaskStatus.unsuccessful_of_unfinished {status : TaskStatus}
    (unfinished : status.unfinished = true) : status.unsuccessful = false := by
  cases status <;> first | rfl | cases unfinished

theorem TaskStatus.completed_of_finished {status : TaskStatus}
    (finished : status.unfinished = false) (successful : status.unsuccessful = false) :
    status = .completed := by
  cases status <;> first | rfl | simp [TaskStatus.unfinished, TaskStatus.unsuccessful] at *

theorem TaskStatus.unfinished_of_unstarted {status : TaskStatus}
    (unstarted : status.unstarted = true) : status.unfinished = true := by
  cases status <;> first | rfl | cases unstarted

variable {Val : Type}

namespace Run

/-! ## Replacing a task -/

theorem mem_replaceIn {task other : Task Val} {tasks : List (Task Val)}
    (membership : other ∈ replaceIn task tasks) :
    other = task ∨ other ∈ tasks ∧ other.key ≠ task.key := by
  rcases List.mem_map.mp membership with ⟨source, sourceMem, image⟩
  by_cases same : source.key = task.key
  · rw [if_pos same] at image
    exact .inl image.symm
  · rw [if_neg same] at image
    exact .inr (image ▸ ⟨sourceMem, same⟩)

theorem replaceIn_eq_nil {task : Task Val} {tasks : List (Task Val)} :
    replaceIn task tasks = [] ↔ tasks = [] := List.map_eq_nil_iff

theorem countP_replaceIn {tasks : List (Task Val)} (nodup : (tasks.map (·.key)).Nodup)
    {task replacement : Task Val} (membership : task ∈ tasks)
    (key : replacement.key = task.key) (counts : Task Val → Bool) :
    (replaceIn replacement tasks).countP counts + (if counts task then 1 else 0) =
      tasks.countP counts + if counts replacement then 1 else 0 := by
  rw [replaceIn, key]
  exact countP_replace nodup membership counts

/-! ## The invariant -/

/-- The counter of a run and what the status of the execution says about its
tasks. -/
structure Counted (execution : WorkflowExecution Val) (tasks : List (Task Val)) : Prop where
  pendingTasks : execution.pendingTasks = tasks.countP fun task => task.status.unfinished
  started : execution.status ≠ .pending ∧ execution.status ≠ .waitingForApproval
  running : execution.status = .running → tasks ≠ [] → execution.pendingTasks ≠ 0
  live : execution.status.live = true → ∀ task ∈ tasks, task.status.unsuccessful = false
  completed : execution.status = .completed → ∀ task ∈ tasks, task.status = .completed
  cancelled : execution.status = .cancelled → ∀ task ∈ tasks, task.status.unfinished = false

variable {execution : WorkflowExecution Val} {tasks : List (Task Val)}

namespace Counted

/-- A map that keeps what the invariant reads of each task. -/
theorem map_image (counted : Counted execution tasks) {image : Task Val → Task Val}
    (unfinished : ∀ task ∈ tasks, (image task).status.unfinished = task.status.unfinished)
    (unsuccessful : ∀ task ∈ tasks, (image task).status.unsuccessful = task.status.unsuccessful) :
    Counted execution (tasks.map image) where
  pendingTasks := by
    rw [counted.pendingTasks, countP_map_of_iff unfinished]
  started := counted.started
  running running nonempty := counted.running running (by simpa using nonempty)
  live live task membership := by
    rcases List.mem_map.mp membership with ⟨source, sourceMem, rfl⟩
    rw [unsuccessful source sourceMem]
    exact counted.live live source sourceMem
  completed completed task membership := by
    rcases List.mem_map.mp membership with ⟨source, sourceMem, rfl⟩
    have done := counted.completed completed source sourceMem
    apply TaskStatus.completed_of_finished
    · rw [unfinished source sourceMem, done]
      rfl
    · rw [unsuccessful source sourceMem, done]
      rfl
  cancelled cancelled task membership := by
    rcases List.mem_map.mp membership with ⟨source, sourceMem, rfl⟩
    rw [unfinished source sourceMem]
    exact counted.cancelled cancelled source sourceMem

/-- A run with an unfinished task is neither COMPLETED nor CANCELLED. -/
theorem not_ended (counted : Counted execution tasks) {task : Task Val}
    (membership : task ∈ tasks) (unfinished : task.status.unfinished = true) :
    execution.status ≠ .completed ∧ execution.status ≠ .cancelled := by
  constructor
  · intro completed
    rw [counted.completed completed task membership] at unfinished
    cases unfinished
  · intro cancelled
    rw [counted.cancelled cancelled task membership] at unfinished
    cases unfinished

/-- An unfinished task is replaced by an unfinished one. -/
theorem replace (counted : Counted execution tasks) (nodup : (tasks.map (·.key)).Nodup)
    {task replacement : Task Val} (membership : task ∈ tasks)
    (key : replacement.key = task.key) (before : task.status.unfinished = true)
    (after : replacement.status.unfinished = true) :
    Counted execution (replaceIn replacement tasks) where
  pendingTasks := by
    have count := countP_replaceIn nodup membership key fun task => task.status.unfinished
    simp only [before, after, if_true] at count
    rw [counted.pendingTasks]
    omega
  started := counted.started
  running running nonempty := counted.running running (mt replaceIn_eq_nil.mpr nonempty)
  live live other otherMem := by
    rcases mem_replaceIn otherMem with rfl | ⟨otherMem, _⟩
    · exact TaskStatus.unsuccessful_of_unfinished after
    · exact counted.live live other otherMem
  completed completed := absurd completed (counted.not_ended membership before).1
  cancelled cancelled := absurd cancelled (counted.not_ended membership before).2

end Counted

/-! ## A task succeeds -/

theorem released_status (status : ExecutionStatus) (parent : Task Val) (now : Time)
    (task : Task Val) :
    (released status parent now task).status = task.status ∨
      task.status = .pending ∧ (released status parent now task).status = .ready := by
  rcases released_cases status parent now task with ⟨_, same⟩ | ⟨pending, _, same⟩
  · rw [same]
    exact .inl rfl
  · rw [same]
    exact .inr ⟨pending, rfl⟩

theorem unfinished_released (status : ExecutionStatus) (parent : Task Val) (now : Time)
    (task : Task Val) :
    (released status parent now task).status.unfinished = task.status.unfinished := by
  rcases released_status status parent now task with same | ⟨pending, ready⟩
  · rw [same]
  · rw [pending, ready]
    rfl

theorem unsuccessful_released (status : ExecutionStatus) (parent : Task Val) (now : Time)
    (task : Task Val) :
    (released status parent now task).status.unsuccessful = task.status.unsuccessful := by
  rcases released_status status parent now task with same | ⟨pending, ready⟩
  · rw [same]
  · rw [pending, ready]
    rfl

namespace Counted

/-- A success finishes one task and may complete the run. -/
theorem succeed (before : Counted execution tasks) (nodup : (tasks.map (·.key)).Nodup)
    {task : Task Val} (membership : task ∈ tasks) (replacement : Task Val)
    (key : replacement.key = task.key) (unfinished : task.status.unfinished = true)
    (completed : replacement.status = .completed) (now : Time) :
    Counted (counted now execution)
      ((replaceIn replacement tasks).map (released execution.status replacement now)) := by
  have count : ((replaceIn replacement tasks).map
      (released execution.status replacement now)).countP (fun task => task.status.unfinished) +
        1 = tasks.countP fun task => task.status.unfinished := by
    rw [countP_map_of_iff fun other _ => unfinished_released _ _ _ other]
    have finished : replacement.status.unfinished = false := by
      rw [completed]
      rfl
    have count := countP_replaceIn nodup membership key fun task => task.status.unfinished
    simpa [unfinished, finished] using count
  have successful : execution.status.live = true → ∀ other ∈ (replaceIn replacement tasks).map
      (released execution.status replacement now), other.status.unsuccessful = false := by
    intro live other otherMem
    rcases List.mem_map.mp otherMem with ⟨source, sourceMem, rfl⟩
    rw [unsuccessful_released]
    rcases mem_replaceIn sourceMem with rfl | ⟨sourceMem, _⟩
    · rw [completed]
      rfl
    · exact before.live live source sourceMem
  have notEnded := before.not_ended membership unfinished
  unfold counted
  by_cases last : done execution = true
  · -- the last task: every task is finished and none was unsuccessful
    simp only [last, if_true]
    simp only [done, Bool.and_eq_true, decide_eq_true_eq] at last
    have none : ((replaceIn replacement tasks).map
        (released execution.status replacement now)).countP (fun task => task.status.unfinished) =
          0 := by
      have total := before.pendingTasks
      omega
    refine ⟨?_, ⟨nofun, nofun⟩, nofun, nofun, ?_, nofun⟩
    · rw [last.2, none]
      rfl
    · intro _ other otherMem
      apply TaskStatus.completed_of_finished
      · simpa using List.countP_eq_zero.mp none other otherMem
      · exact successful (by rw [last.1]; rfl) other otherMem
  · rw [if_neg last]
    simp only [done, Bool.and_eq_true, decide_eq_true_eq, not_and] at last
    refine ⟨?_, before.started, ?_, successful, ?_, ?_⟩
    · simp only [before.pendingTasks]
      omega
    · intro running _ zero
      exact last running (by simp only at zero; omega)
    · exact fun ended => absurd ended notEnded.1
    · exact fun ended => absurd ended notEnded.2

/-! ## A task fails for good -/

theorem countP_failedFast (missed : Key → Bool) (now : Time) (tasks : List (Task Val)) :
    (tasks.map (failedFast missed now)).countP (fun task => task.status.unfinished) +
      tasks.countP (hit missed) = tasks.countP fun task => task.status.unfinished := by
  induction tasks with
  | nil => rfl
  | cons task rest ih =>
      rw [List.map_cons, List.countP_cons, List.countP_cons, List.countP_cons]
      by_cases cancelled : hit missed task = true
      · have unstarted : task.status.unstarted = true := by
          simp only [hit, Bool.and_eq_true] at cancelled
          exact cancelled.1
        have before := TaskStatus.unfinished_of_unstarted unstarted
        have after : (failedFast missed now task).status.unfinished = false := by
          rw [failedFast, if_pos cancelled]
          rfl
        simp only [before, after, cancelled, if_true, Bool.false_eq_true, if_false]
        omega
      · have after : failedFast missed now task = task := by
          rw [failedFast, if_neg cancelled]
        simp only [after, cancelled, Bool.false_eq_true, if_false]
        omega

/-- A failure for good finishes one task; the first one ends the run. -/
theorem fail (before : Counted execution tasks) (nodup : (tasks.map (·.key)).Nodup)
    {task : Task Val} (membership : task ∈ tasks) (replacement : Task Val)
    (key : replacement.key = task.key) (unfinished : task.status.unfinished = true)
    (finished : replacement.status.unfinished = false) {report : Task Val}
    {outcome : FailureOutcome} {message : String} {retryable : Bool} {missed : Key → Bool}
    {now : Time} {run : Run Val} (execution_eq : run.execution = execution)
    (tasks_eq : run.tasks = replaceIn replacement tasks) :
    Counted (Run.fail report outcome message retryable missed now run).execution
      (Run.fail report outcome message retryable missed now run).tasks := by
  have count : (replaceIn replacement tasks).countP (fun task => task.status.unfinished) + 1 =
      tasks.countP fun task => task.status.unfinished := by
    have count := countP_replaceIn nodup membership key fun task => task.status.unfinished
    simpa [unfinished, finished] using count
  have total := before.pendingTasks
  have notEnded := before.not_ended membership unfinished
  unfold Run.fail
  rw [execution_eq, tasks_eq]
  split
  · refine ⟨?_, ⟨nofun, nofun⟩, nofun, nofun, nofun, nofun⟩
    have cancelled := countP_failedFast missed now (replaceIn replacement tasks)
    simp only
    omega
  · next dead =>
    refine ⟨?_, before.started, ?_, fun live => absurd live dead, ?_, ?_⟩
    · simp only
      omega
    · intro running
      exact absurd (by rw [show execution.status = .running from running]; rfl) dead
    · exact fun ended => absurd ended notEnded.1
    · exact fun ended => absurd ended notEnded.2

/-! ## Pause, resume, cancel -/

theorem pause (before : Counted execution tasks) (running : execution.status = .running) :
    Counted { execution with status := .paused } tasks :=
  ⟨before.pendingTasks, ⟨nofun, nofun⟩, nofun,
    fun _ => before.live (by rw [running]; rfl), nofun, nofun⟩

theorem resume (before : Counted execution tasks) (paused : execution.status = .paused)
    (executionId : ExecutionId) (now : Time) :
    Counted (resumed now execution) (tasks.map (promotePending executionId now).onValue) := by
  have statuses : ∀ task : Task Val,
      ((promotePending executionId now).onValue task).status = task.status ∨
        task.status = .pending ∧
          ((promotePending executionId now).onValue task).status = .ready := by
    intro task
    rcases promotePending_cases executionId now task with same | ⟨pending, same⟩
    · exact .inl (by rw [same])
    · exact .inr ⟨pending, by rw [same]⟩
  have promoted : Counted execution (tasks.map (promotePending executionId now).onValue) := by
    apply before.map_image
    · intro task _
      rcases statuses task with same | ⟨pending, ready⟩
      · rw [same]
      · rw [pending, ready]
        rfl
    · intro task _
      rcases statuses task with same | ⟨pending, ready⟩
      · rw [same]
      · rw [pending, ready]
        rfl
  have successful := promoted.live (by rw [paused]; rfl)
  unfold resumed
  split
  · next none =>
    refine ⟨promoted.pendingTasks, ⟨nofun, nofun⟩, nofun, nofun, ?_, nofun⟩
    intro _ task membership
    have count := promoted.pendingTasks
    rw [none] at count
    have finished := List.countP_eq_zero.mp (Int.ofNat_eq_zero.mp count.symm) task membership
    exact TaskStatus.completed_of_finished (by simpa using finished)
      (successful task membership)
  · next some =>
    exact ⟨promoted.pendingTasks, ⟨nofun, nofun⟩, fun _ _ => some, fun _ => successful, nofun,
      nofun⟩

theorem cancel (before : Counted execution tasks)
    (home : ∀ task ∈ tasks, task.executionId = execution.id) (now : Time) :
    Counted
      { execution with
        status := .cancelled
        completedAt := some now
        error := some "Cancelled by user"
        pendingTasks := execution.pendingTasks - tasks.countP fun task => task.status.unfinished }
      (tasks.map (cancelUnfinished execution.id now).onValue) := by
  have finished : ∀ task ∈ tasks,
      ((cancelUnfinished execution.id now).onValue task).status.unfinished = false := by
    intro task membership
    unfold Update.onValue
    split
    · rfl
    · next kept => simpa [cancelUnfinished, home task membership] using kept
  refine ⟨?_, ⟨by simp, by simp⟩, by simp, by simp [ExecutionStatus.live], by simp, ?_⟩
  · have none : (tasks.map (cancelUnfinished execution.id now).onValue).countP
        (fun task => task.status.unfinished) = 0 := by
      apply List.countP_eq_zero.mpr
      intro task membership
      rcases List.mem_map.mp membership with ⟨source, sourceMem, rfl⟩
      simp [finished source sourceMem]
    simp only [none, before.pendingTasks]
    omega
  · intro _ task membership
    rcases List.mem_map.mp membership with ⟨source, sourceMem, rfl⟩
    exact finished source sourceMem

end Counted

/-! ## Every step -/

theorem unfinished_of_claimable {task : Task Val} {now : Time}
    (free : claimable now task = true) : task.status.unfinished = true := by
  cases status : task.status <;> simp [claimable, status] at free <;> rfl

/-- The counter stays exact over every step of a run. -/
theorem Step.counted [Mixed Val] {missed : Key → Bool} {label : Option (Reply Val)}
    {run next : Run Val} (nodup : (run.tasks.map (·.key)).Nodup)
    (home : ∀ task ∈ run.tasks, task.executionId = run.execution.id)
    (step : Step missed label run next) (before : Counted run.execution run.tasks) :
    Counted next.execution next.tasks := by
  cases step with
  | pause running => exact before.pause running
  | resume paused => exact before.resume paused _ _
  | cancel live => exact before.cancel home _
  | announce => exact before
  | dispatch membership ready =>
      exact before.replace nodup membership rfl (by rw [ready]; rfl) rfl
  | claim membership free =>
      exact before.replace nodup membership rfl (unfinished_of_claimable free) rfl
  | @renew _ task _ _ membership running =>
      have unfinished : task.status.unfinished = true := by
        rw [running]
        rfl
      exact before.replace nodup membership rfl unfinished unfinished
  | retry membership running => exact before.replace nodup membership rfl (by rw [running]; rfl) rfl
  | suspend membership running =>
      exact before.replace nodup membership rfl (by rw [running]; rfl) rfl
  | @complete _ task output now membership running =>
      exact before.succeed nodup membership
        (moved .completed (completion task.leaseToken output now) task) rfl
        (by rw [running]; rfl) rfl _
  | @approve _ task _ params now membership waiting =>
      exact before.succeed nodup membership (moved .completed (approvedTask params now) task) rfl
        (by rw [waiting]; rfl) rfl _
  | @fail _ task error now membership running =>
      refine before.fail nodup membership (moved (failureOutcome task (isRetryable error)).status
        (failure task.leaseToken (failureMessage error) now) task) rfl
        (by rw [running]; rfl) ?_ rfl rfl
      cases outcome : failureOutcome task (isRetryable error) <;> rfl
  | @reject _ task _ params now membership waiting =>
      exact before.fail nodup membership (moved .failed (rejectedTask params now) task) rfl
        (by rw [waiting]; rfl) rfl rfl rfl

end Run

end WorkflowEngine
