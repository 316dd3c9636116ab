import WorkflowEngine.Workflow.History

/-!
# Fencing

Claims of a task return increasing tokens, a report counts only under the token of
the latest claim and only once, and a task has at most one outcome.
-/

namespace WorkflowEngine

open DocStore

variable {Val : Type}

/-! ## Reports and their tokens -/

/-- The task and the token of a call of `renewLease`, `completeTask`, `failTask` or
`suspendForApproval` that is about to write. -/
def Frame.reportOf : Frame Val → Option (TaskId × Nat)
  | .renewLease taskId leaseToken => some (taskId, leaseToken)
  | .callback (.completeTask taskId leaseToken _) _ => some (taskId, leaseToken)
  | .callback (.failTask taskId leaseToken _) _ => some (taskId, leaseToken)
  | .callback (.suspendForApproval taskId leaseToken _) _ => some (taskId, leaseToken)
  | _ => none

/-- The task and the token of the call that replied. -/
def Reply.reportOf : Reply Val → Option (TaskId × Nat)
  | .renewLease taskId leaseToken _ => some (taskId, leaseToken)
  | .completeTask taskId leaseToken _ _ => some (taskId, leaseToken)
  | .failTask taskId leaseToken _ _ => some (taskId, leaseToken)
  | .suspendForApproval taskId leaseToken _ => some (taskId, leaseToken)
  | _ => none

variable [Mixed Val]

/-- A report replies about its own task and token. -/
theorem Frame.reportOf_reply {frame : Frame Val} {env : Env} {db : Db Val} {outcome : Outcome Val}
    {taskId : TaskId} {leaseToken : Nat} (report : frame.reportOf = some (taskId, leaseToken))
    (ran : frame.step env db = .ok outcome) :
    ∀ reply ∈ outcome.replies, reply.reportOf = some (taskId, leaseToken) := by
  intro reply membership
  unfold reportOf at report
  split at report
  case h_1 =>
    cases report
    rcases Session.ok_of_bind ran with ⟨_, _, rest⟩
    cases rest
    rw [List.mem_singleton.mp membership]
    rfl
  case h_5 => cases report
  all_goals
    cases report
    rcases Session.ok_of_bind ran with ⟨⟨returned, view⟩, isReply, rest⟩
    rcases Session.bind_eq_ok.mp isReply with ⟨_, _, _, replied⟩
    rcases Session.pure_eq_ok.mp replied with ⟨rfl, _⟩
    simp only at rest
    split at rest
    · cases rest
      rw [List.mem_singleton.mp membership]
      rfl
    · cases rest
      cases membership

/-- A report that changes its run was made under the current lease. -/
theorem Run.Step.of_report {missed : Key → Bool} {reply : Reply Val} {run next : Run Val}
    (step : Run.Step missed (some reply) run next) {taskId : TaskId} {leaseToken : Nat}
    (report : reply.reportOf = some (taskId, leaseToken)) :
    ∃ task ∈ run.tasks, task.id = taskId ∧ task.status = .running ∧
      task.leaseToken = leaseToken := by
  cases step with
  | renew membership running | complete membership running | retry membership running
  | fail membership running | suspend membership running =>
      cases report
      exact ⟨_, membership, rfl, running, rfl⟩
  | pause | resume | cancel | dispatch | claim | approve | reject => cases report

/-- The announcement of a claim changes no task. -/
theorem Run.Step.tasks_of_none {missed : Key → Bool} {run next : Run Val}
    (step : Run.Step missed none run next) : next.tasks = run.tasks := by
  cases step with
  | announce => rfl

/-- The latest claim of a task that was started returned its current token. -/
theorem Task.Recorded.latest {task : Task Val} {log : List (Reply Val)}
    (recorded : task.Recorded log) (started : task.status.stage = 3) :
    (claimsOf task.id log).head? = some task.leaseToken := by
  have positive := recorded.claimed started
  cases token : task.leaseToken with
  | zero => rw [token] at positive; cases positive
  | succ before =>
      rw [recorded.claims, token, List.range'_concat, List.reverse_append, Nat.one_mul,
        Nat.add_comm]
      rfl

theorem Task.Recorded.increasing {task : Task Val} {log : List (Reply Val)}
    (recorded : task.Recorded log) : (claimsOf task.id log).Pairwise (· > ·) := by
  rw [recorded.claims]
  exact List.pairwise_reverse.mpr List.pairwise_lt_range'

namespace Sys

/-- The report that an action lets write. -/
def reportOf (sys : Sys Val) (action : Action Val) : Option (TaskId × Nat) :=
  (sys.frame? action).bind Frame.reportOf

/-- A report that changes its task carries the token of the latest claim, and no
report was applied under this token before. -/
theorem report_fenced {sys next : Sys Val} (reachable : (engineSystem Val).Reachable sys)
    {action : Action Val} (taken : sys.step action = some next) {taskId : TaskId}
    {leaseToken : Nat} (report : sys.reportOf action = some (taskId, leaseToken)) {task : Task Val}
    (membership : task ∈ sys.db.tasks.values) (isTask : task.id = taskId)
    (changed : task ∉ next.db.tasks.values) :
    (claimsOf taskId sys.log).head? = some leaseToken ∧ leaseToken ∉ appliedOf taskId sys.log := by
  have inv := inv_of_reachableBy reachable
  rcases inv.stepped taken with ⟨label, stepped⟩
  rcases inv.db.exists_run membership with ⟨execution, executionMem, home, inRun⟩
  rcases stepped.advances.forward inv.db executionMem with ⟨later, _, _, ⟨_, same⟩ | ran⟩
  · rw [← same] at inRun
    exact absurd (Db.mem_runOf_tasks.mp inRun).1 changed
  · cases label with
    | none =>
        rw [← ran.tasks_of_none] at inRun
        exact absurd (Db.mem_runOf_tasks.mp inRun).1 changed
    | some reply =>
        have isReport : reply.reportOf = some (taskId, leaseToken) := by
          have log := stepped.log
          cases took_of_step taken with
          | invoke | crash => exact absurd log.symm (List.cons_ne_self _ _)
          | ran found stepRan =>
              rw [reportOf, frame?_eq found] at report
              apply Frame.reportOf_reply report stepRan
              rw [List.append_cancel_right log]
              exact List.mem_singleton_self reply
          | threw => exact absurd membership changed
        rcases ran.of_report isReport with ⟨source, sourceMem, sourceId, running, token⟩
        have isSource : task = source :=
          inv.db.task_eq_of_id membership (Db.mem_runOf_tasks.mp sourceMem).1
            (isTask.trans sourceId.symm)
        subst isSource
        subst isTask
        subst token
        have recorded := recorded reachable membership
        exact ⟨recorded.latest (by rw [running]; rfl), recorded.outstanding running⟩

end Sys

/-! ## The guarantee -/

/-- A task and what the log tells of it. -/
structure Task.Fenced (log : List (Reply Val)) (task : Task Val) : Prop where
  /-- newest first -/
  claims : (claimsOf task.id log).Pairwise (· > ·)
  applied : (appliedOf task.id log).Nodup
  outcomes : (outcomesOf task.id log).length ≤ 1
  /-- the stored outcome is the one of the only reply that reported one -/
  outcome : task.status = .completed ∨ task.status = .failed ∨ task.status = .deadLetter →
    ∃ reply, outcomesOf task.id log = [reply] ∧ reply.Explains task

theorem Task.Recorded.fenced {task : Task Val} {log : List (Reply Val)}
    (recorded : task.Recorded log) : task.Fenced log := by
  have outcome := recorded.outcome
  refine ⟨recorded.increasing, recorded.applied, ?_, ?_⟩
  · split at outcome
    · rcases outcome with ⟨reply, only, _⟩
      exact Nat.le_of_eq (congrArg List.length only)
    · rw [outcome]
      exact Nat.zero_le _
  · intro settled
    rw [if_pos] at outcome
    · exact outcome
    · rcases settled with status | status | status <;> rw [status] <;> decide

/-- In every reachable state every task is fenced, and a report changes its task only
under the token of the latest claim and only if none was applied under it before. -/
theorem one_outcome_per_task {sys : Sys Val} (reachable : (engineSystem Val).Reachable sys) :
    (∀ task ∈ sys.db.tasks.values, task.Fenced sys.log) ∧
      ∀ action next, sys.step action = some next →
        ∀ taskId leaseToken, sys.reportOf action = some (taskId, leaseToken) →
          ∀ task ∈ sys.db.tasks.values, task.id = taskId → task ∉ next.db.tasks.values →
            (claimsOf taskId sys.log).head? = some leaseToken ∧
              leaseToken ∉ appliedOf taskId sys.log := by
  refine ⟨fun task membership => (Sys.recorded reachable membership).fenced, ?_⟩
  intro action next taken taskId leaseToken report task membership isTask changed
  exact Sys.report_fenced reachable taken report membership isTask changed

namespace Schedule

/-- The first worker of the task loses its lease; the second one takes the task over and
completes it. -/
def takenOver : List (Action Plain) :=
  oneStarted ++
    .invoke (.startTask ⟨2, "A"⟩ "v") :: steps 2 [200, 201, 202, 203, 204, 205, 206] ++
    call (.completeTask ⟨2, "A"⟩ 1 (.number 1)) :: steps 3 [207, 208] ++
    call (.completeTask ⟨2, "A"⟩ 2 (.number 2)) :: steps 4 [209, 210]

end Schedule

theorem one_outcome_per_task_takenOver :
    (Schedule.after Schedule.takenOver (by decide)).db.tasks.values.isEmpty = false ∧
    ∀ task ∈ (Schedule.after Schedule.takenOver (by decide)).db.tasks.values,
      task.Fenced (Schedule.after Schedule.takenOver (by decide)).log :=
  ⟨by decide, (one_outcome_per_task (Schedule.after_reachable Schedule.takenOver (by decide))).1⟩

end WorkflowEngine
