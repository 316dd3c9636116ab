import WorkflowEngine.Workflow.History

/-!
# The completion counter

`pendingTasks` is the number of unfinished tasks in every committed state, and the
status of the execution agrees with it.
-/

namespace WorkflowEngine

open DocStore

variable {Val : Type} [Mixed Val]

namespace Run

/-- The counter of an execution, its status and its tasks agree. -/
structure CounterAgrees (run : Run Val) : Prop where
  counts : run.execution.pendingTasks = run.tasks.countP fun task => task.status.unfinished
  nonnegative : 0 ≤ run.execution.pendingTasks
  running : run.tasks ≠ [] → run.execution.status = .running → 0 < run.execution.pendingTasks
  completed : run.execution.status = .completed → ∀ task ∈ run.tasks, task.status = .completed
  cancelled : run.execution.status = .cancelled → run.execution.pendingTasks = 0

omit [Mixed Val] in
theorem Inv.counterAgrees {run : Run Val} (inv : run.Inv) : run.CounterAgrees := by
  have counts := inv.counted.pendingTasks
  have nonnegative : 0 ≤ run.execution.pendingTasks := by
    rw [counts]
    exact Int.natCast_nonneg _
  refine ⟨counts, nonnegative, ?_, inv.counted.completed, ?_⟩
  · intro nonempty running
    exact lt_of_le_of_ne nonnegative (inv.counted.running running nonempty).symm
  · intro cancelled
    rw [counts, Int.natCast_eq_zero, List.countP_eq_zero]
    intro task membership unfinished
    rw [inv.counted.cancelled cancelled task membership] at unfinished
    cases unfinished

end Run

/-- In every reachable committed state the counter of every execution agrees with
its tasks. -/
theorem counter_agrees {sys : Sys Val} (reachable : (engineSystem Val).Reachable sys) :
    ∀ execution ∈ sys.db.executions.values, (sys.db.runOf execution).CounterAgrees := by
  intro execution membership
  have inv := (Sys.inv_of_reachableBy reachable).db
  exact (inv.runInv membership).counterAgrees

namespace Schedule

/-- The first of two tasks completes. -/
def oneCompleted : List (Action Plain) :=
  twoStarted ++ call (.completeTask ⟨2, "A"⟩ 1 .null) :: steps 3 [23, 24]

end Schedule

theorem counter_agrees_oneCompleted :
    (Schedule.after Schedule.oneCompleted (by decide)).db.executions.values.isEmpty = false ∧
    ∀ execution ∈ (Schedule.after Schedule.oneCompleted (by decide)).db.executions.values,
      ((Schedule.after Schedule.oneCompleted (by decide)).db.runOf execution).CounterAgrees :=
  ⟨by decide, counter_agrees (Schedule.after_reachable Schedule.oneCompleted (by decide))⟩

end WorkflowEngine
