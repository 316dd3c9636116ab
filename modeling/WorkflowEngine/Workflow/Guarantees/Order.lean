import WorkflowEngine.Workflow.History

/-!
# Dependency order

The dependency counters are right while a run is live, a task leaves PENDING only
after all its parents, and it is promoted and dispatched at most once.
-/

namespace WorkflowEngine

open DocStore

variable {Val : Type} [Mixed Val]

namespace Run

/-- The dependency counters and the statuses of the tasks of a run agree. -/
structure DependenciesAgree (run : Run Val) : Prop where
  /-- `remainingDeps` counts the keys whose task is not COMPLETED -/
  remaining : run.execution.status.live = true → ∀ task ∈ run.tasks,
    task.remainingDeps = task.dependsOn.countP fun dep =>
      !run.tasks.any fun parent => decide (parent.key = dep) && decide (parent.status = .completed)
  enabled : ∀ task ∈ run.tasks, task.status ≠ .pending → task.status ≠ .cancelled →
    ∀ dep ∈ task.dependsOn, ∃ parent ∈ run.tasks, parent.key = dep ∧ parent.status = .completed

omit [Mixed Val] in
theorem Inv.dependenciesAgree {run : Run Val} (inv : run.Inv) : run.DependenciesAgree := by
  refine ⟨inv.ordered.remaining, ?_⟩
  intro task membership notPending notCancelled dep isDep
  exact missing_eq_false.mp (inv.ordered.enabled task membership notPending notCancelled dep isDep)

end Run

/-- What `startTask` returned has exactly the task's parents, with the outputs that are
stored for them. -/
def Started.ParentsAgree (started : Started Val) (db : Db Val) : Prop :=
  (started.parents.map Prod.fst).Perm started.task.dependsOn ∧
    ∀ entry ∈ started.parents, ∃ parent ∈ db.tasks.values,
      parent.id = ⟨started.task.executionId, entry.1⟩ ∧ parent.status = .completed ∧
        parent.output = entry.2

namespace Sys

/-- The task is READY after the step and was not before. -/
def BecomesReady (taskId : TaskId) (sys next : Sys Val) : Prop :=
  (∃ task ∈ next.db.tasks.values, task.id = taskId ∧ task.status = .ready) ∧
    ∀ task ∈ sys.db.tasks.values, task.id = taskId → task.status ≠ .ready

/-- What became READY does not become READY again. -/
theorem not_becomesReady_again {first second third : Sys Val} {taskId : TaskId} (inv : first.Inv)
    (ready : ∃ task ∈ first.db.tasks.values, task.id = taskId ∧ task.status = .ready)
    (leads : (engineSystem Val).Leads first second) {action : Action Val}
    (taken : second.step action = some third) : ¬ BecomesReady taskId second third := by
  rintro ⟨⟨last, lastMem, lastId, lastReady⟩, notReady⟩
  rcases ready with ⟨task, taskMem, isTask, status⟩
  rcases since_of_leads leads inv with ⟨secondInv, since⟩
  rcases secondInv.stepped taken with ⟨_, stepped⟩
  rcases since.task inv.db taskMem with ⟨middle, middleMem, before⟩
  rcases stepped.advances.since.task secondInv.db middleMem with ⟨later, laterMem, after⟩
  have middleId : middle.id = taskId := before.id_eq.trans isTask
  have isLast : later = last :=
    stepped.later.db.task_eq_of_id laterMem lastMem
      (after.id_eq.trans (middleId.trans lastId.symm))
  -- stages never go back: READY, then not READY, then READY is impossible
  have early := after.stage
  rw [isLast, lastReady] at early
  have late := before.stage
  rw [status] at late
  apply notReady middle middleMem middleId
  cases middleStatus : middle.status <;> rw [middleStatus] at early late <;>
    first | rfl | exact absurd early (by decide) | exact absurd late (by decide)

end Sys

/-- In every reachable state: the dependency counters are right, a started task has
all its parents and their final outputs, a task becomes READY at most once, and its
dispatch, the only step of `dispatchTask` that enqueues, succeeds at most once. -/
theorem dependency_order {sys : Sys Val} (reachable : (engineSystem Val).Reachable sys) :
    (∀ execution ∈ sys.db.executions.values, (sys.db.runOf execution).DependenciesAgree) ∧
      (∀ taskId started, .startTask taskId (some started) ∈ sys.log →
        started.ParentsAgree sys.db) ∧
      (∀ taskId action next later, sys.step action = some next →
        sys.BecomesReady taskId next → (engineSystem Val).Leads next later →
        ∀ action' last, later.step action' = some last → ¬ later.BecomesReady taskId last) ∧
      (∀ task ∈ sys.db.tasks.values, (dispatchesOf task.id sys.log).length ≤ 1) ∧
      ∀ env taskId outcome, Frame.step env sys.db (.dispatchTask taskId) = .ok outcome →
        .enqueue taskId ∈ outcome.next → outcome.replies = [.dispatchTask taskId true] := by
  have inv := Sys.inv_of_reachableBy reachable
  refine ⟨fun execution membership => (inv.db.runInv membership).dependenciesAgree, ?_, ?_, ?_, ?_⟩
  · intro taskId started membership
    have ok := (inv.replies _ membership).2
    exact ⟨ok.keys, ok.outputs⟩
  · intro taskId action next later taken becomes leads action' last taken'
    rcases inv.stepped taken with ⟨_, stepped⟩
    exact Sys.not_becomesReady_again stepped.later becomes.1 leads taken'
  · intro task membership
    exact (Sys.recorded reachable membership).dispatches
  · intro env taskId outcome ran enqueued
    rcases Session.ok_of_bind ran with ⟨⟨won, final⟩, _, rest⟩
    cases rest
    cases won with
    | true => rfl
    | false => cases enqueued

namespace Schedule

/-- A chain of two tasks; the first one completes and the second one is started. -/
def chainStarted : List (Action Plain) :=
  start [definition "A" [], definition "B" ["A"]] :: steps 0 [1, 2, 3, 4, 5, 6] ++
    .invoke (.startTask ⟨2, "A"⟩ "w") :: steps 1 [7, 8, 9, 10, 11, 12, 13] ++
    call (.completeTask ⟨2, "A"⟩ 1 (.number 5)) :: steps 2 [14, 15, 16, 17, 18, 19] ++
    .invoke (.startTask ⟨2, "B"⟩ "w") :: steps 3 [20, 21, 22, 23, 24, 25, 26]

end Schedule

theorem dependency_order_chain :
    (Schedule.after Schedule.chainStarted (by decide)).log.isEmpty = false ∧
    ∀ taskId started, .startTask taskId (some started) ∈
        (Schedule.after Schedule.chainStarted (by decide)).log →
      started.ParentsAgree (Schedule.after Schedule.chainStarted (by decide)).db :=
  ⟨by decide, (dependency_order (Schedule.after_reachable Schedule.chainStarted (by decide))).2.1⟩

end WorkflowEngine
