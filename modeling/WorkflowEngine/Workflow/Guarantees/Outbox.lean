import WorkflowEngine.Workflow.History
import WorkflowEngine.Workflow.Run.Events

/-!
# The outbox

The outbox rows of a run are an exact record of it: of its start, its pauses and its
end, of the outcome of every task and of every retry.
-/

namespace WorkflowEngine

open DocStore

variable {Val : Type}

/-- How many outbox rows of an execution are of a kind. -/
def Db.rows (db : Db Val) (executionId : ExecutionId)
    (counts : EventType × EventPayload → Bool) : Nat :=
  db.outbox.values.countP fun row => row.aggregateId == executionId && counts row.content

def Db.retrying (db : Db Val) (taskId : TaskId) : Bool :=
  (db.tasks.findById taskId).any fun task => decide (task.status = .retrying)

/-- The task moves to RETRYING between these states. -/
def Sys.movesToRetrying (taskId : TaskId) (sys next : Sys Val) : Bool :=
  next.db.retrying taskId && !sys.db.retrying taskId

namespace Db

theorem rows_eq (db : Db Val) (execution : WorkflowExecution Val)
    (counts : EventType × EventPayload → Bool) :
    db.rows execution.id counts = (db.runOf execution).events.countP counts := by
  rw [rows, runOf, List.countP_map, List.countP_filter]
  apply List.countP_congr
  intro row _
  rw [Function.comp_apply, Bool.and_comm]

variable [Mixed Val]

theorem rows_of_absent {db : Db Val} (inv : db.Inv) {executionId : ExecutionId}
    (absent : executionId ∉ db.executions.ids) (counts : EventType × EventPayload → Bool) :
    db.rows executionId counts = 0 := by
  apply List.countP_eq_zero.mpr
  intro row membership counted
  exact absent (beq_iff_eq.mp (Bool.and_eq_true_iff.mp counted).1 ▸ inv.eventHome row membership)

theorem retrying_iff {db : Db Val} (inv : db.Inv) {taskId : TaskId} :
    db.retrying taskId = true ↔
      ∃ task ∈ db.tasks.values, task.id = taskId ∧ task.status = .retrying := by
  rw [retrying, Option.any_eq_true]
  constructor
  · rintro ⟨task, found, retrying⟩
    have membership := (Collection.findById_eq_some inv.keyed.tasks).mp found
    exact ⟨task, membership.1, membership.2, of_decide_eq_true retrying⟩
  · rintro ⟨task, membership, rfl, retrying⟩
    exact ⟨task, inv.findById_task membership, decide_eq_true retrying⟩

theorem retrying_of_absent {db : Db Val} (inv : db.Inv) {taskId : TaskId}
    (absent : taskId.executionId ∉ db.executions.ids) : db.retrying taskId = false := by
  by_contra retrying
  rcases (retrying_iff inv).mp (by simpa using retrying) with ⟨task, membership, rfl, _⟩
  exact absent (inv.taskHome task membership)

/-- A task of a run is RETRYING. -/
theorem retrying_runOf {db : Db Val} (inv : db.Inv) {execution : WorkflowExecution Val}
    {taskId : TaskId} (home : execution.id = taskId.executionId) :
    db.retrying taskId = true ↔
      ∃ task ∈ (db.runOf execution).tasks, task.id = taskId ∧ task.status = .retrying := by
  rw [retrying_iff inv]
  constructor
  · rintro ⟨task, membership, rfl, retrying⟩
    exact ⟨task, mem_runOf_tasks.mpr ⟨membership, home.symm⟩, rfl, retrying⟩
  · rintro ⟨task, membership, isTask, retrying⟩
    exact ⟨task, (mem_runOf_tasks.mp membership).1, isTask, retrying⟩

end Db

variable [Mixed Val]

/-- The reply of a step reports a task of the run. -/
theorem Run.Step.reports_mem {missed : Key → Bool} {label : Option (Reply Val)}
    {run next : Run Val} (step : Run.Step missed label run next) {type : EventType}
    {taskId : TaskId} (reports : label.bind Reply.reports = some (type, taskId)) :
    ∃ task ∈ run.tasks, task.id = taskId := by
  cases step with
  | complete membership | retry membership | fail membership | approve membership
  | reject membership =>
      cases reports
      exact ⟨_, membership, rfl⟩
  | pause | resume | cancel | dispatch | claim | renew | announce | suspend => cases reports

/-- A step of a run reports a retry if and only if it moves the task to RETRYING. -/
theorem Run.Step.reports_retrying {missed : Key → Bool} {label : Option (Reply Val)}
    {run next : Run Val} (step : Run.Step missed label run next)
    (nodup : (run.tasks.map (·.key)).Nodup) (taskId : TaskId) :
    label.bind Reply.reports = some (.taskRetrying, taskId) ↔
      (∃ task ∈ next.tasks, task.id = taskId ∧ task.status = .retrying) ∧
        ¬ ∃ task ∈ run.tasks, task.id = taskId ∧ task.status = .retrying := by
  rcases step.moves nodup with ⟨image, tasks, moves⟩
  have isRetry : TaskStatus.retrying.reportedAs = some .taskRetrying := rfl
  constructor
  · intro reports
    rcases step.reports_mem reports with ⟨task, membership, rfl⟩
    have move := moves task membership
    have moved := (move.reports_iff isRetry).mp reports
    refine ⟨⟨image task, ?_, move.evolves.id_eq, moved.2⟩, ?_⟩
    · rw [tasks]
      exact List.mem_map_of_mem membership
    · rintro ⟨other, otherMem, isTask, retrying⟩
      have same : other = task :=
        List.inj_on_of_nodup_map nodup otherMem membership (congrArg TaskId.key isTask)
      exact moved.1 (same ▸ retrying)
  · rintro ⟨⟨later, laterMem, rfl, retrying⟩, before⟩
    rw [tasks] at laterMem
    rcases List.mem_map.mp laterMem with ⟨task, membership, rfl⟩
    have move := moves task membership
    rw [move.evolves.id_eq] at before ⊢
    refine (move.reports_iff isRetry).mpr ⟨?_, retrying⟩
    exact fun wasRetrying => before ⟨task, membership, rfl, wasRetrying⟩

/-- A step of the system adds a row about a retry of a task if and only if it moves
the task to RETRYING. -/
theorem Sys.Stepped.retrying {sys next : Sys Val} {action : Action Val}
    {label : Option (Reply Val)} (stepped : sys.Stepped action next label) (taskId : TaskId) :
    next.db.rows taskId.executionId (isAbout .taskRetrying taskId) =
      sys.db.rows taskId.executionId (isAbout .taskRetrying taskId) +
        if Sys.movesToRetrying taskId sys next then 1 else 0 := by
  have inv := stepped.inv.db
  have laterInv := stepped.later.db
  by_cases present : taskId.executionId ∈ sys.db.executions.ids
  · rcases Collection.mem_ids.mp present with ⟨execution, membership, home⟩
    rw [document_id_execution] at home
    rcases stepped.advances.forward inv membership with ⟨later, laterMem, laterId, ran⟩
    have laterHome : later.id = taskId.executionId := laterId.trans home
    have now : next.db.rows taskId.executionId (isAbout .taskRetrying taskId) =
        (next.db.runOf later).events.countP (isAbout .taskRetrying taskId) := by
      rw [← laterHome]
      exact next.db.rows_eq later _
    have before : sys.db.rows taskId.executionId (isAbout .taskRetrying taskId) =
        (sys.db.runOf execution).events.countP (isAbout .taskRetrying taskId) := by
      rw [← home]
      exact sys.db.rows_eq execution _
    rw [now, before]
    rcases ran with ⟨_, same⟩ | step
    · have sameRetrying : next.db.retrying taskId = sys.db.retrying taskId := by
        rw [Bool.eq_iff_iff, Db.retrying_runOf laterInv laterHome, Db.retrying_runOf inv home, same]
      rw [movesToRetrying, sameRetrying, Bool.and_not_self, same]
      rfl
    · have moved : label.bind Reply.reports = some (.taskRetrying, taskId) ↔
          Sys.movesToRetrying taskId sys next = true := by
        rw [step.reports_retrying (inv.runInv membership).graph.tasks_nodup, movesToRetrying,
          Bool.and_eq_true, Db.retrying_runOf laterInv laterHome, Bool.not_eq_true',
          ← Bool.not_eq_true, Db.retrying_runOf inv home]
      have isRetry : TaskStatus.retrying.reportedAs = some .taskRetrying := rfl
      rw [step.reports isRetry taskId]
      simp only [moved]
  · have before := Db.retrying_of_absent inv present
    rw [Db.rows_of_absent inv present, movesToRetrying, before, Bool.not_false, Bool.and_true]
    by_cases created : taskId.executionId ∈ next.db.executions.ids
    · -- the run is new: nothing has happened to its tasks
      rcases Collection.mem_ids.mp created with ⟨execution, membership, home⟩
      rw [document_id_execution] at home
      have rows := next.db.rows_eq execution (isAbout .taskRetrying taskId)
      rw [home] at rows
      have retrying := Db.retrying_runOf laterInv home
      have advanced := stepped.advances.runs execution membership
      have isExecution : (next.db.runOf execution).execution = execution := rfl
      generalize next.db.runOf execution = run at rows retrying advanced isExecution
      cases advanced with
      | @same old oldMem =>
          refine absurd (Collection.mem_ids.mpr ⟨old, oldMem, ?_⟩) present
          rw [← home, ← isExecution]
          rfl
      | @step old _ oldMem taken =>
          refine absurd (Collection.mem_ids.mpr ⟨old, oldMem, ?_⟩) present
          rw [← home, ← isExecution, taken.execution_id]
          rfl
      | @start env params _ accepted =>
          have none : next.db.retrying taskId = false := by
            rw [← Bool.not_eq_true, retrying]
            rintro ⟨task, isTask, _, wasRetrying⟩
            rcases List.mem_map.mp isTask with ⟨definition, _, rfl⟩
            simp only [newTask] at wasRetrying
            split at wasRetrying <;> cases wasRetrying
          rw [rows, none]
          rfl
    · rw [Db.rows_of_absent laterInv created, Db.retrying_of_absent laterInv created]
      rfl

/-- In every reachable committed state the outbox rows of every run tell exactly its
start, its pauses, its end and the outcomes of its tasks, and there are as many rows
about retries of a task as the schedule moved it to RETRYING. -/
theorem outbox_exact {actions : List (Action Val)} {sys : Sys Val}
    (ran : (engineSystem Val).run actions = some sys) :
    (∀ execution ∈ sys.db.executions.values, (sys.db.runOf execution).Announced) ∧
      ∀ taskId : TaskId, sys.db.rows taskId.executionId (isAbout .taskRetrying taskId) =
        (engineSystem Val).occurrences (Sys.movesToRetrying taskId) Sys.init actions := by
  constructor
  · intro execution membership
    have reachable := Transition.System.run_reachable ran
    rcases (Sys.inv_of_reachableBy reachable).db.reached execution membership with
      ⟨params, reached⟩
    exact reached.announced
  · intro taskId
    have counted := Transition.System.measure_eq_occurrences (Sys.movesToRetrying taskId)
      (fun sys => sys.db.rows taskId.executionId (isAbout .taskRetrying taskId)) Sys.Inv
      (fun state action next inv taken => by
        rcases inv.stepped taken with ⟨label, stepped⟩
        exact ⟨stepped.later, stepped.retrying taskId⟩) Sys.inv_init ran
    rw [counted]
    exact Nat.zero_add _

namespace Schedule

/-- The only task fails, is retried and completes. -/
def retriedOnce : List (Action Plain) :=
  oneStarted ++ call (.failTask ⟨2, "A"⟩ 1 busy) :: steps 2 [14, 15, 16] ++
    .invoke (.startTask ⟨2, "A"⟩ "v") :: steps 3 [20, 21, 22, 23, 24, 25, 26] ++
    call (.completeTask ⟨2, "A"⟩ 2 .null) :: steps 4 [27, 28]

end Schedule

theorem outbox_exact_retriedOnce :
    (∀ execution ∈ (Schedule.after Schedule.retriedOnce (by decide)).db.executions.values,
        ((Schedule.after Schedule.retriedOnce (by decide)).db.runOf execution).Announced) ∧
      ∀ taskId : TaskId,
        (Schedule.after Schedule.retriedOnce (by decide)).db.rows taskId.executionId
            (isAbout .taskRetrying taskId) =
          (engineSystem Plain).occurrences (Sys.movesToRetrying taskId) Sys.init
            Schedule.retriedOnce :=
  outbox_exact (Schedule.run_after Schedule.retriedOnce (by decide))

end WorkflowEngine
