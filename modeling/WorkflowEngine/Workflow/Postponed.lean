import WorkflowEngine.Workflow.Overlaps

/-!
# Postponed tasks

A retry postpones its task by setting `retryAt`.  Nothing else changes this field, and a
claim does not look at it.
-/

namespace WorkflowEngine

open DocStore

variable {Val : Type}

/-- Until when a RETRYING task is postponed. -/
def Db.retryTime (db : Db Val) (taskId : TaskId) : Option Time :=
  (db.tasks.findById taskId).bind fun task =>
    if task.status = .retrying then task.retryAt else none

/-- The task that this callback postpones, and until when, if its commit is not refused. -/
def Frame.postpones (env : Env) (db : Db Val) : Frame Val → Option (TaskId × Time)
  | .callback (.failTask taskId leaseToken error) snapshot =>
      ((snapshot.reported taskId leaseToken).filter fun task =>
          snapshot.retries error task && snapshot.sameTask db taskId).map fun task =>
        (taskId, env.now + env.backoff task.attempt task.baseDelayMs)
  | _ => none

theorem Db.retryTime_eq_some {db : Db Val} (keyed : db.Keyed) {taskId : TaskId}
    {retryAt : Time} : db.retryTime taskId = some retryAt ↔
      ∃ task ∈ db.tasks.values, task.id = taskId ∧ task.status = .retrying ∧
        task.retryAt = some retryAt := by
  rw [retryTime, Option.bind_eq_some_iff]
  constructor
  · rintro ⟨task, found, waits⟩
    rcases (Collection.findById_eq_some keyed.tasks).mp found with ⟨membership, isTask⟩
    split at waits
    · next retrying => exact ⟨task, membership, isTask, retrying, waits⟩
    · cases waits
  · rintro ⟨task, membership, isTask, retrying, waits⟩
    refine ⟨task, (Collection.findById_eq_some keyed.tasks).mpr ⟨membership, isTask⟩, ?_⟩
    rw [if_pos retrying]
    exact waits

variable [Mixed Val]

/-! ## Single tasks -/

namespace Task.Moves

variable {label : Option (Reply Val)} {task later : Task Val}

/-- A RETRYING task was RETRYING before, or was postponed just now. -/
theorem of_retrying (moves : Task.Moves label task later)
    (retrying : later.status = .retrying) :
    (task.status = .retrying ∧ later.retryAt = task.retryAt) ∨ ∃ error delayMs,
      label = some (.failTask task.id task.leaseToken error (some (.retrying delayMs))) := by
  cases moves with
  | rest => exact .inl ⟨retrying, rfl⟩
  | renewed => exact .inl ⟨retrying, rfl⟩
  | retried => exact .inr ⟨_, _, rfl⟩
  | @failed _ error now running =>
      cases outcome : failureOutcome task (isRetryable error) <;>
        simp [moved, outcome, FailureOutcome.status] at retrying
  | promoted | cancelled | aborted | dispatched | claimed | completed | suspended | approved
  | rejected => cases retrying

/-- A task that may still run keeps its `retryAt`.  It leaves RETRYING by a claim. -/
theorem of_early (moves : Task.Moves label task later) (early : later.status.stage ≤ 3)
    (settled : later.status ≠ .retrying) :
    later.retryAt = task.retryAt ∧
      (task.status.stage ≤ 3 ∧ task.status ≠ .retrying ∨ label = some (.claimTask later)) := by
  cases moves with
  | rest => exact ⟨rfl, .inl ⟨early, settled⟩⟩
  | renewed => exact ⟨rfl, .inl ⟨early, settled⟩⟩
  | promoted _ pending =>
      refine ⟨rfl, .inl ?_⟩
      rw [pending]
      decide
  | dispatched ready =>
      refine ⟨rfl, .inl ?_⟩
      rw [ready]
      decide
  | claimed => exact ⟨rfl, .inr rfl⟩
  | retried => exact absurd rfl settled
  | @failed _ error now running =>
      exfalso
      cases outcome : failureOutcome task (isRetryable error) <;>
        simp [moved, outcome, FailureOutcome.status, TaskStatus.stage] at early
  | cancelled | aborted =>
      exact absurd early (show ¬ TaskStatus.cancelled.stage ≤ 3 by decide)
  | completed | approved =>
      exact absurd early (show ¬ TaskStatus.completed.stage ≤ 3 by decide)
  | suspended =>
      exact absurd early (show ¬ TaskStatus.waitingForApproval.stage ≤ 3 by decide)
  | rejected => exact absurd early (show ¬ TaskStatus.failed.stage ≤ 3 by decide)

end Task.Moves

theorem Run.retryAt_start {env : Env} {params : StartParams Val} {task : Task Val}
    (membership : task ∈ (Run.start env params).tasks) : task.retryAt = none := by
  rcases List.mem_map.mp membership with ⟨definition, _, rfl⟩
  rfl

/-! ## The delay of a retry -/

omit [Mixed Val] in
/-- The delay that `failTask` reports is the backoff of the failed attempt. -/
theorem failTask_delay {env : Env} {db view : Db Val} {taskId : TaskId} {leaseToken : Nat}
    {error : Option Thrown} {delayMs : Nat}
    (returned : (failTask env taskId leaseToken error).run db =
      .ok (some (.retrying delayMs), view)) :
    ∃ task, db.reported taskId leaseToken = some task ∧
      delayMs = env.backoff task.attempt task.baseDelayMs := by
  rcases Session.bind_eq_ok.mp returned with ⟨found, same, read, rest⟩
  rw [Session.run_findById] at read
  cases read
  have reported : ((Holds.get db : Collection (Task Val)).findById taskId).filter
      (fun task => decide (task.status = .running) && task.leaseToken == leaseToken) =
        db.reported taskId leaseToken := rfl
  rw [reported] at rest
  cases isReported : db.reported taskId leaseToken with
  | none =>
      rw [isReported] at rest
      rcases Session.pure_eq_ok.mp rest with ⟨absurdity, _⟩
      cases absurdity
  | some task =>
      rw [isReported] at rest
      refine ⟨task, rfl, ?_⟩
      rcases Session.bind_eq_ok.mp rest with ⟨_, closed, _, rest2⟩
      rcases Session.bind_eq_ok.mp rest2 with ⟨execution, _, _, rest3⟩
      cases execution with
      | none => exact absurd rest3 Session.throw_eq_ok
      | some execution =>
          simp only at rest3
          split at rest3
          · rcases Session.bind_eq_ok.mp rest3 with ⟨won, _, _, rest4⟩
            cases won
            · rcases Session.pure_eq_ok.mp rest4 with ⟨absurdity, _⟩
              cases absurdity
            · rcases Session.bind_eq_ok.mp rest4 with ⟨_, _, _, rest5⟩
              rcases Session.pure_eq_ok.mp rest5 with ⟨isResult, _⟩
              cases isResult
              rfl
          · rcases Session.bind_eq_ok.mp rest3 with ⟨won, _, _, rest4⟩
            cases won
            · rcases Session.pure_eq_ok.mp rest4 with ⟨absurdity, _⟩
              cases absurdity
            · rw [if_pos rfl] at rest4
              split at rest4
              · rcases Session.bind_eq_ok.mp rest4 with ⟨_, _, _, rest5⟩
                rcases Session.bind_eq_ok.mp rest5 with ⟨_, _, _, rest6⟩
                rcases Session.pure_eq_ok.mp rest6 with ⟨absurdity, _⟩
                cases absurdity
              · rcases Session.bind_eq_ok.mp rest4 with ⟨_, _, _, rest5⟩
                rcases Session.pure_eq_ok.mp rest5 with ⟨absurdity, _⟩
                cases absurdity

/-! ## Steps of the system -/

theorem Frame.delay {env : Env} {db snapshot : Db Val} {outcome : Outcome Val}
    {taskId : TaskId} {leaseToken : Nat} {error : Option Thrown} {delayMs : Nat}
    (ran : (Frame.callback (.failTask taskId leaseToken error) snapshot).step env db =
      .ok outcome)
    (membership : .failTask taskId leaseToken error (some (.retrying delayMs)) ∈
      outcome.replies) :
    ∃ task, snapshot.reported taskId leaseToken = some task ∧
      delayMs = env.backoff task.attempt task.baseDelayMs := by
  rcases Session.ok_of_bind ran with ⟨⟨answer, view⟩, returned, rest⟩
  rcases Session.bind_eq_ok.mp returned with ⟨result, _, failed, replied⟩
  rcases Session.pure_eq_ok.mp replied with ⟨rfl, rfl⟩
  simp only at rest
  split at rest
  · cases rest
    cases List.mem_singleton.mp membership
    exact failTask_delay failed
  · cases rest
    cases membership

namespace Sys.Stepped

variable {sys next : Sys Val} {action : Action Val} {label : Option (Reply Val)}

/-- A claim takes the server's time and leaves `retryAt` as it finds it. -/
theorem claimed {task : Task Val} (stepped : sys.Stepped action next (some (.claimTask task))) :
    ∃ call env workerId, action = .advance call env ∧
      sys.frame? action = some (.startTask task.id workerId) ∧ task.startedAt = some env.now ∧
      ∃ source ∈ sys.db.tasks.values, source.id = task.id ∧
        claimable env.now source = true ∧ task.retryAt = source.retryAt := by
  have log := stepped.log
  cases stepped.took with
  | invoke | crash => exact absurd log.symm (List.cons_ne_self _ _)
  | threw =>
      have same := List.append_cancel_right
        (show [.threw _] ++ sys.log = [.claimTask task] ++ sys.log from log)
      cases List.singleton_inj.mp same
  | @ran call env frame rest outcome found ran =>
      have membership : .claimTask task ∈ outcome.replies := by
        rw [List.append_cancel_right log]
        exact List.mem_cons_self
      have gives := frame.gives ran membership
      cases gives with
      | @callback op _ _ answers => cases op <;> cases answers
      | claimed taskId workerId =>
          rcases Session.ok_of_bind ran with ⟨⟨claimed, _⟩, returned, rest⟩
          rcases @Db.claimTask_advances _ _ _ _ _ (fun _ => false) _ _ _ stepped.inv.db returned with
            ⟨rfl, _⟩ | ⟨source, sourceMem, rfl, free, rfl, _, _⟩
          · cases rest
            cases List.mem_singleton.mp membership
          · cases rest
            cases List.mem_singleton.mp membership
            exact ⟨call, env, workerId, rfl, frame?_eq found, rfl, source, sourceMem, rfl, free,
              rfl⟩

/-- A retry postpones its task as its callback says. -/
theorem postponed {taskId : TaskId} {leaseToken : Nat} {error : Option Thrown} {delayMs : Nat}
    (stepped : sys.Stepped action next
      (some (.failTask taskId leaseToken error (some (.retrying delayMs))))) :
    ∃ call env frame retryAt, action = .advance call env ∧ sys.frame? action = some frame ∧
      frame.postpones env sys.db = some (taskId, retryAt) ∧
      ∀ task ∈ next.db.tasks.values, task.id = taskId → task.retryAt = some retryAt := by
  have log := stepped.log
  cases stepped.took with
  | invoke | crash => exact absurd log.symm (List.cons_ne_self _ _)
  | threw =>
      have same := List.append_cancel_right (show [.threw _] ++ sys.log =
        [.failTask taskId leaseToken error (some (.retrying delayMs))] ++ sys.log from log)
      cases List.singleton_inj.mp same
  | @ran call env frame rest outcome found ran =>
      have membership : .failTask taskId leaseToken error (some (.retrying delayMs)) ∈
          outcome.replies := by
        rw [List.append_cancel_right log]
        exact List.mem_cons_self
      have ok := stepped.inv.frames _ (List.mem_of_getElem? found) frame List.mem_cons_self
      rcases Frame.committed stepped.inv.db ok ran membership rfl with
        ⟨op, snapshot, patch, rfl, answers, writes, commits⟩
      cases op with
      | failTask =>
          rcases answers with ⟨rfl, rfl, rfl⟩
          rcases Frame.delay ran membership with ⟨task, reported, rfl⟩
          cases writes with
          | nothing idle => cases idle
          | @retry again execution _ _ rows search running foundExecution retryable
              attemptsLeft live describes =>
              rw [Db.reported_eq search running] at reported
              cases reported
              have matched : (transition .running .retrying (postponement task.leaseToken
                  (failureMessage error) (env.now +
                    env.backoff task.attempt task.baseDelayMs))).filter task = true := by
                simp [transition, postponement, running]
              have retries : snapshot.retries error task = true := by
                simp [Db.retries, retryable, attemptsLeft, Db.isLive_eq foundExecution, live]
              refine ⟨call, env, _, env.now + env.backoff task.attempt task.baseDelayMs, rfl,
                frame?_eq found, ?_, ?_⟩
              · rw [Frame.postpones, Db.reported_eq search running, Option.filter_some, retries,
                  commits.sameTask search rfl matched]
                rfl
              · intro later laterMem isTask
                rw [commits.task_written search rfl matched laterMem isTask]
                rfl
      | _ => cases answers

end Sys.Stepped

end WorkflowEngine
