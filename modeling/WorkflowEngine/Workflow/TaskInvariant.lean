import WorkflowEngine.Workflow.TaskMoves

/-!
# Single tasks over a run

How a task may differ from an earlier version of itself, and what holds of every
task in every state: each status comes with the timestamp that its sweep filters
on, and the attempts stay within their budget.
-/

namespace WorkflowEngine

open DocStore

variable {Val : Type}

/-- How far a task is.  The engine never moves a task to an earlier stage; RUNNING
and RETRYING are one stage, and a finished task stays as it is. -/
def TaskStatus.stage : TaskStatus → Nat
  | .pending => 0
  | .ready => 1
  | .queued => 2
  | .running => 3
  | .retrying => 3
  | .waitingForApproval => 4
  | .completed => 5
  | .failed => 5
  | .deadLetter => 5
  | .cancelled => 5

namespace Task

/-- The second task is a later version of the first one. -/
structure Evolves (task later : Task Val) : Prop where
  shape : later.shape = task.shape
  stage : task.status.stage ≤ later.status.stage
  leaseToken : task.leaseToken ≤ later.leaseToken
  final : task.status.unfinished = false →
    later.status = task.status ∧ later.output = task.output ∧ later.error = task.error

namespace Evolves

theorem refl (task : Task Val) : task.Evolves task :=
  ⟨rfl, Nat.le_refl _, Nat.le_refl _, fun _ => ⟨rfl, rfl, rfl⟩⟩

theorem trans {first second third : Task Val} (earlier : first.Evolves second)
    (later : second.Evolves third) : first.Evolves third := by
  refine ⟨later.shape.trans earlier.shape, Nat.le_trans earlier.stage later.stage,
    Nat.le_trans earlier.leaseToken later.leaseToken, ?_⟩
  intro finished
  rcases earlier.final finished with ⟨status, output, error⟩
  rcases later.final (by rw [status]; exact finished) with ⟨status', output', error'⟩
  exact ⟨status'.trans status, output'.trans output, error'.trans error⟩

theorem id_eq {task later : Task Val} (evolves : task.Evolves later) : later.id = task.id :=
  id_eq_of_shape evolves.shape

/-- What is unfinished now was unfinished before. -/
theorem unfinished {task later : Task Val} (evolves : task.Evolves later)
    (now : later.status.unfinished = true) : task.status.unfinished = true := by
  by_contra finished
  have same := (evolves.final (by simpa using finished)).1
  rw [same] at now
  exact finished now

end Evolves

/-- A change of an unfinished task. -/
theorem Evolves.of_unfinished {task later : Task Val} (unfinished : task.status.unfinished = true)
    (shape : later.shape = task.shape) (stage : task.status.stage ≤ later.status.stage)
    (leaseToken : task.leaseToken ≤ later.leaseToken) : task.Evolves later := by
  refine ⟨shape, stage, leaseToken, ?_⟩
  rw [unfinished]
  nofun

/-- Nothing but a retry makes a started task unstarted. -/
theorem running_of_unstarted {status later : TaskStatus} (stage : status.stage ≤ later.stage)
    (unfinished : status.unfinished = true) (started : status.unstarted = false)
    (unstarted : later.unstarted = true) : status = .running ∧ later = .retrying := by
  cases later <;> simp [TaskStatus.unstarted] at unstarted <;>
    cases status <;> simp [TaskStatus.unfinished, TaskStatus.unstarted, TaskStatus.stage] at *

theorem pending_of_stage {status : TaskStatus}
    (stage : status.stage ≤ TaskStatus.pending.stage) : status = .pending := by
  cases status <;> simp [TaskStatus.stage] at stage
  rfl

theorem stage_le_of_finished {status later : TaskStatus} (finished : later.unfinished = false) :
    status.stage ≤ later.stage := by
  cases later <;> simp [TaskStatus.unfinished] at finished <;> cases status <;>
    simp [TaskStatus.stage]

theorem Moves.evolves [Mixed Val] {label : Option (Reply Val)} {task next : Task Val}
    (moves : Moves label task next) : task.Evolves next := by
  cases moves with
  | rest other => exact ⟨rfl, Nat.le_refl _, Nat.le_refl _, fun _ => ⟨rfl, rfl, rfl⟩⟩
  | promoted other pending =>
      refine .of_unfinished (by rw [pending]; rfl) rfl ?_ (Nat.le_refl _)
      rw [pending]
      exact Nat.zero_le _
  | cancelled other unstarted =>
      refine .of_unfinished ?_ rfl (stage_le_of_finished rfl) (Nat.le_refl _)
      cases status : task.status <;> simp [TaskStatus.unstarted, status] at unstarted <;> rfl
  | aborted unfinished => exact .of_unfinished unfinished rfl (stage_le_of_finished rfl) (Nat.le_refl _)
  | dispatched ready =>
      refine .of_unfinished (by rw [ready]; rfl) rfl ?_ (Nat.le_refl _)
      rw [ready]
      exact Nat.le_succ _
  | claimed free =>
      cases status : task.status <;> simp [claimable, status] at free <;>
        exact .of_unfinished (by rw [status]; rfl) rfl
          (by simp [claim, TaskStatus.stage, status]) (Nat.le_succ _)
  | renewed running => exact .of_unfinished (by rw [running]; rfl) rfl (Nat.le_refl _) (Nat.le_refl _)
  | completed running =>
      exact .of_unfinished (by rw [running]; rfl) rfl (stage_le_of_finished rfl) (Nat.le_refl _)
  | retried running retryable attemptsLeft =>
      refine .of_unfinished (by rw [running]; rfl) rfl ?_ (Nat.le_refl _)
      rw [running]
      exact Nat.le_refl _
  | @failed _ error now running =>
      refine .of_unfinished (by rw [running]; rfl) rfl (stage_le_of_finished ?_) (Nat.le_refl _)
      cases outcome : failureOutcome task (isRetryable error) <;> rfl
  | suspended running =>
      refine .of_unfinished (by rw [running]; rfl) rfl ?_ (Nat.le_refl _)
      rw [running]
      exact Nat.le_succ _
  | approved waiting decision =>
      exact .of_unfinished (by rw [waiting]; rfl) rfl (stage_le_of_finished rfl) (Nat.le_refl _)
  | rejected waiting decision =>
      exact .of_unfinished (by rw [waiting]; rfl) rfl (stage_le_of_finished rfl) (Nat.le_refl _)

/-- What holds of a task in every state. -/
structure Ok (task : Task Val) : Prop where
  readyAt : task.status = .ready → task.readyAt.isSome = true
  queuedAt : task.status = .queued → task.queuedAt.isSome = true
  leaseExpiresAt : task.status = .running → task.leaseExpiresAt.isSome = true
  retryAt : task.status = .retrying → task.retryAt.isSome = true
  attempt : task.attempt = task.leaseToken
  retrying : task.status = .retrying → task.attempt < task.maxAttempts
  deadLetter : task.status = .deadLetter → task.maxAttempts ≤ task.attempt

theorem failureOutcome_deadLetter {task : Task Val} {retryable : Bool}
    (exhausted : failureOutcome task retryable = .deadLetter) :
    retryable = true ∧ task.maxAttempts ≤ task.attempt := by
  unfold failureOutcome at exhausted
  split at exhausted
  · next both =>
    simp only [Bool.and_eq_true, Bool.not_eq_true', decide_eq_false_iff_not] at both
    exact ⟨both.1, by omega⟩
  · cases exhausted

theorem Moves.ok [Mixed Val] {label : Option (Reply Val)} {task next : Task Val}
    (moves : Moves label task next) (ok : task.Ok) : next.Ok := by
  cases moves with
  | rest other =>
      exact ⟨ok.readyAt, ok.queuedAt, ok.leaseExpiresAt, ok.retryAt, ok.attempt, ok.retrying,
        ok.deadLetter⟩
  | promoted other pending => exact ⟨fun _ => rfl, nofun, nofun, nofun, ok.attempt, nofun, nofun⟩
  | cancelled other unstarted => exact ⟨nofun, nofun, nofun, nofun, ok.attempt, nofun, nofun⟩
  | aborted unfinished => exact ⟨nofun, nofun, nofun, nofun, ok.attempt, nofun, nofun⟩
  | dispatched ready => exact ⟨nofun, fun _ => rfl, nofun, nofun, ok.attempt, nofun, nofun⟩
  | claimed free =>
      exact ⟨nofun, nofun, fun _ => rfl, nofun, congrArg (· + 1) ok.attempt, nofun, nofun⟩
  | renewed running =>
      exact ⟨ok.readyAt, ok.queuedAt, fun _ => rfl, ok.retryAt, ok.attempt, ok.retrying,
        ok.deadLetter⟩
  | completed running => exact ⟨nofun, nofun, nofun, nofun, ok.attempt, nofun, nofun⟩
  | retried running retryable attemptsLeft =>
      exact ⟨nofun, nofun, nofun, fun _ => rfl, ok.attempt, fun _ => attemptsLeft, nofun⟩
  | @failed _ error now running =>
      cases outcome : failureOutcome task (isRetryable error) with
      | failed => exact ⟨nofun, nofun, nofun, nofun, ok.attempt, nofun, nofun⟩
      | deadLetter =>
          exact ⟨nofun, nofun, nofun, nofun, ok.attempt, nofun,
            fun _ => (failureOutcome_deadLetter outcome).2⟩
  | suspended running => exact ⟨nofun, nofun, nofun, nofun, ok.attempt, nofun, nofun⟩
  | approved waiting decision => exact ⟨nofun, nofun, nofun, nofun, ok.attempt, nofun, nofun⟩
  | rejected waiting decision => exact ⟨nofun, nofun, nofun, nofun, ok.attempt, nofun, nofun⟩

end Task

end WorkflowEngine
