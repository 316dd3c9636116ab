import WorkflowEngine.Workflow.Committed
import WorkflowEngine.Workflow.Run.Ends

/-!
# Transactions that overlap

A commit is refused when a document that its transaction wrote has changed since
the snapshot.  What the transaction only read may be out of date by then.  The
predicates below tell from a snapshot and the committed database what the commit of
a callback will do and which of its decisions are out of date.
-/

namespace WorkflowEngine

open DocStore

variable {Val : Type}

namespace Db

/-- The run is RUNNING or PAUSED. -/
def isLive (db : Db Val) (executionId : ExecutionId) : Bool :=
  (db.executions.findById executionId).any fun execution => execution.status.live

/-- The RUNNING task that a report with this token is about. -/
def reported (snapshot : Db Val) (taskId : TaskId) (leaseToken : Nat) : Option (Task Val) :=
  (snapshot.tasks.findById taskId).filter fun task =>
    decide (task.status = .running) && task.leaseToken == leaseToken

/-- The request that a decision is about. -/
def requested (snapshot : Db Val) (params : ResolveParams) : Option (ApprovalRequest Val) :=
  (snapshot.approvals.findById params.approvalId).filter fun request =>
    decide (request.status = .pending) &&
      params.scope.all fun ownerId => request.ownerId == ownerId

/-- A failure of the task is retried. -/
def retries (snapshot : Db Val) (error : Option Thrown) (task : Task Val) : Bool :=
  isRetryable error && decide (task.attempt < task.maxAttempts) &&
    snapshot.isLive task.executionId

/-- The task is as in the snapshot. -/
def sameTask (snapshot db : Db Val) (taskId : TaskId) : Bool :=
  snapshot.tasks.rev? taskId == db.tasks.rev? taskId

/-- The run fails, and what fail-fast writes is as in the snapshot. -/
def failsFast (snapshot db : Db Val) (executionId : ExecutionId) : Bool :=
  snapshot.isLive executionId &&
    snapshot.executions.rev? executionId == db.executions.rev? executionId &&
    snapshot.tasks.values.all fun task =>
      !(task.executionId == executionId && task.status.unstarted) || snapshot.sameTask db task.id

end Db

namespace Frame

/-- The task whose failure for good fails its run, if the commit of this callback is
not refused. -/
def failsRun (db : Db Val) : Frame Val → Option TaskId
  | .callback (.failTask taskId leaseToken error) snapshot =>
      if (snapshot.reported taskId leaseToken).any (fun task => !snapshot.retries error task) &&
          snapshot.sameTask db taskId && snapshot.failsFast db taskId.executionId then
        some taskId
      else
        none
  | .callback (.resolveApproval params) snapshot =>
      ((snapshot.requested params).filter fun request =>
        decide (params.decision ≠ .approved) && snapshot.sameTask db request.taskId &&
          snapshot.failsFast db request.taskId.executionId).map (·.taskId)
  | _ => none

/-- A retry of a task whose run has ended since the snapshot. -/
def retriesEnded (db : Db Val) : Frame Val → Bool
  | .callback (.failTask taskId leaseToken error) snapshot =>
      (snapshot.reported taskId leaseToken).any (snapshot.retries error) &&
        snapshot.sameTask db taskId && !db.isLive taskId.executionId
  | _ => false

/-- A suspension of a task whose run has ended. -/
def suspendsEnded (db : Db Val) : Frame Val → Bool
  | .callback (.suspendForApproval taskId leaseToken _) snapshot =>
      (snapshot.reported taskId leaseToken).isSome && snapshot.sameTask db taskId &&
        !db.isLive taskId.executionId
  | _ => false

end Frame

/-! ## Reading the predicates -/

namespace Db

variable {snapshot db : Db Val}

theorem isLive_eq {executionId : ExecutionId} {execution : WorkflowExecution Val}
    (found : db.executions.findById executionId = some execution) :
    db.isLive executionId = execution.status.live := by
  rw [isLive, found]
  rfl

theorem isLive_of_mem (keyed : db.Keyed) {execution : WorkflowExecution Val}
    (membership : execution ∈ db.executions.values) :
    db.isLive execution.id = execution.status.live :=
  isLive_eq ((Collection.findById_eq_some keyed.executions).mpr ⟨membership, rfl⟩)

theorem reported_eq {task : Task Val} (found : snapshot.tasks.findById task.id = some task)
    (running : task.status = .running) :
    snapshot.reported task.id task.leaseToken = some task := by
  rw [reported, found, Option.filter_some, if_pos]
  simp [running]

theorem requested_eq {params : ResolveParams} {request : ApprovalRequest Val} {now : Time}
    (found : snapshot.approvals.findById params.approvalId = some request)
    (matched : (recordDecision params now).filter request = true) :
    snapshot.requested params = some request := by
  rw [requested, found, Option.filter_some]
  exact if_pos matched

variable [Mixed Val] {next : Db Val} {patch : Patch Val}

/-- What a transaction wrote on this snapshot that failed the task for good. -/
structure Failing (snapshot : Db Val) (patch : Patch Val) (task : Task Val)
    (execution : WorkflowExecution Val) : Prop where
  found : snapshot.tasks.findById task.id = some task
  foundExecution : snapshot.executions.findById task.executionId = some execution
  executions : ∃ rest, patch.executions = decrementPending.only execution.id :: rest
  tasks : ∃ (update : Update (Task Val)) (own : Script (Task Val)) (now : Time), update.filter task = true ∧
    (∀ statement ∈ update.only task.id :: own, ∀ other, statement.filter other = true →
      other.id = task.id) ∧
    patch.tasks = update.only task.id :: own ++
      if execution.status.live = true then [cancelUnstarted task.executionId now] else []

namespace Commits

/-- The task that the first statement rewrote has the revision of the snapshot. -/
theorem sameTask (commits : Commits snapshot db patch next) {task : Task Val}
    {update : Update (Task Val)} {rest : Script (Task Val)}
    (found : snapshot.tasks.findById task.id = some task)
    (script : patch.tasks = update.only task.id :: rest)
    (matched : update.filter task = true) : snapshot.sameTask db task.id = true := by
  rcases commits.task_current found script matched with ⟨doc, inSnapshot, inCommitted, rfl⟩
  have before := Collection.rev?_of_mem commits.snapshotInv.keyed.tasks inSnapshot
  have now := Collection.rev?_of_mem commits.inv.keyed.tasks inCommitted
  exact beq_iff_eq.mpr (before.trans now.symm)

/-- The execution of the failed task is committed as the snapshot showed it. -/
theorem failing_current (commits : Commits snapshot db patch next) {task : Task Val}
    {execution : WorkflowExecution Val} (failing : Failing snapshot patch task execution) :
    execution ∈ db.executions.values ∧
      snapshot.executions.rev? execution.id = db.executions.rev? execution.id := by
  have home : execution.id = task.executionId :=
    ((Collection.findById_eq_some commits.snapshotInv.keyed.executions).mp
      failing.foundExecution).2
  rcases failing.executions with ⟨rest, executions⟩
  rcases commits.execution_current (by rw [home]; exact failing.foundExecution) executions rfl with
    ⟨doc, inSnapshot, inCommitted, rfl⟩
  have before := Collection.rev?_of_mem commits.snapshotInv.keyed.executions inSnapshot
  have now := Collection.rev?_of_mem commits.inv.keyed.executions inCommitted
  exact ⟨Collection.val_mem_values inCommitted, before.trans now.symm⟩

theorem failing_sameTask (commits : Commits snapshot db patch next) {task : Task Val}
    {execution : WorkflowExecution Val} (failing : Failing snapshot patch task execution) :
    snapshot.sameTask db task.id = true := by
  rcases failing.tasks with ⟨update, own, now, matched, _, tasks⟩
  exact commits.sameTask failing.found (by rw [tasks, List.cons_append]) matched

/-- The unstarted tasks of the run are committed as the snapshot showed them. -/
theorem failing_unstarted (commits : Commits snapshot db patch next) {task : Task Val}
    {execution : WorkflowExecution Val} (failing : Failing snapshot patch task execution)
    (live : execution.status.live = true) {other : Task Val}
    (membership : other ∈ snapshot.tasks.values) (home : other.executionId = task.executionId)
    (unstarted : other.status.unstarted = true) : snapshot.sameTask db other.id = true := by
  by_cases isTask : other.id = task.id
  · rw [isTask]
    exact commits.failing_sameTask failing
  · rcases failing.tasks with ⟨update, own, now, _, ownOnly, tasks⟩
    rw [if_pos live] at tasks
    rcases Collection.mem_values.mp membership with ⟨doc, inSnapshot, rfl⟩
    have unmatched : Script.onStored (update.only task.id :: own) doc = doc := by
      apply Script.onStored_of_unmatched
      intro statement statementMem
      by_contra matched
      exact isTask (ownOnly statement statementMem doc.val (by simpa using matched))
    have inCommitted : doc ∈ db.tasks := by
      apply commits.tasks.current doc inSnapshot
      rw [tasks, Script.onStored_append, unmatched]
      apply Script.rev_lt_of_filter
      simp [cancelUnstarted, home, unstarted]
    have before := Collection.rev?_of_mem commits.snapshotInv.keyed.tasks inSnapshot
    have now := Collection.rev?_of_mem commits.inv.keyed.tasks inCommitted
    exact beq_iff_eq.mpr (before.trans now.symm)

/-- The commit of a failure for good was not refused. -/
theorem failsFast (commits : Commits snapshot db patch next) {task : Task Val}
    {execution : WorkflowExecution Val} (failing : Failing snapshot patch task execution)
    (live : execution.status.live = true) :
    snapshot.failsFast db task.executionId = true := by
  have home : execution.id = task.executionId :=
    ((Collection.findById_eq_some commits.snapshotInv.keyed.executions).mp
      failing.foundExecution).2
  have isLive : snapshot.isLive execution.id = true := by
    rw [home, isLive_eq failing.foundExecution, live]
  rw [Db.failsFast, ← home, isLive, (commits.failing_current failing).2, beq_self_eq_true,
    Bool.and_self, Bool.true_and, List.all_eq_true]
  intro other membership
  by_cases cancelled : (other.executionId == execution.id && other.status.unstarted) = true
  · have both := Bool.and_eq_true_iff.mp cancelled
    rw [cancelled, commits.failing_unstarted failing live membership
      ((beq_iff_eq.mp both.1).trans home) both.2]
    rfl
  · simp [Bool.eq_false_iff.mpr cancelled]

end Commits

end Db

/-! ## Inverting what a callback wrote -/

section Inversion

variable [Mixed Val] {env : Env} {db : Db Val} {patch : Patch Val} {taskId : TaskId}
  {leaseToken : Nat} {error : Option Thrown}

theorem Writes.of_retrying {delayMs : Nat}
    (writes : Writes env db (.failTask taskId leaseToken error (some (.retrying delayMs))) patch) :
    ∃ task update, task.id = taskId ∧ task.leaseToken = leaseToken ∧
      db.tasks.findById task.id = some task ∧ task.status = .running ∧
      db.retries error task = true ∧ patch.tasks = [Update.only task.id update] ∧
      update.filter task = true := by
  cases writes with
  | nothing idle => cases idle
  | @retry task execution _ _ _ found running foundExecution retryable attemptsLeft live =>
      refine ⟨task, _, rfl, rfl, found, running, ?_, rfl, ?_⟩
      · simp [Db.retries, retryable, attemptsLeft, Db.isLive_eq foundExecution, live]
      · simp [transition, postponement, running]

theorem Writes.of_suspended
    (writes : Writes env db (.suspendForApproval taskId leaseToken true) patch) :
    ∃ task update, task.id = taskId ∧ task.leaseToken = leaseToken ∧
      db.tasks.findById task.id = some task ∧ task.status = .running ∧
      patch.tasks = [Update.only task.id update] ∧ update.filter task = true := by
  cases writes with
  | nothing idle => cases idle
  | @suspend task _ _ found running =>
      refine ⟨task, _, rfl, rfl, found, running, rfl, ?_⟩
      simp [transition, suspension, running]

theorem Writes.of_failed {outcome : FailureOutcome} (keyed : db.Keyed)
    (writes : Writes env db (.failTask taskId leaseToken error (some (.forGood outcome))) patch) :
    ∃ task execution, task.id = taskId ∧ task.leaseToken = leaseToken ∧
      task.status = .running ∧ (execution.status.live = true → db.retries error task = false) ∧
      Db.Failing db patch task execution := by
  cases writes with
  | nothing idle => cases idle
  | @fail task execution _ _ rows found running foundExecution isOutcome final describes =>
      have home : execution.id = task.executionId :=
        ((Collection.findById_eq_some keyed.executions).mp foundExecution).2
      refine ⟨task, execution, rfl, rfl, running, ?_, found, foundExecution,
        ⟨_, by rw [home]; rfl⟩, _, _, env.now, ?_, Db.Commits.failedScript_only, rfl⟩
      · intro live
        by_contra retried
        simp only [Db.retries, Bool.not_eq_false, Bool.and_eq_true, decide_eq_true_eq] at retried
        rw [final retried.1.1 retried.1.2] at live
        cases live
      · simp [transition, failure, running]

theorem Writes.of_rejected {params : ResolveParams} {decidedAt : Time} (keyed : db.Keyed)
    (writes : Writes env db (.resolveApproval params decidedAt (some taskId)) patch)
    (decision : params.decision ≠ .approved) :
    ∃ task execution request, task.id = taskId ∧ request.taskId = taskId ∧
      db.requested params = some request ∧ Db.Failing db patch task execution := by
  cases writes with
  | nothing idle => cases idle
  | approve _ _ _ approved => exact absurd approved decision
  | @reject task execution request _ rows foundRequest matched isTask _ found waiting
      foundExecution describes =>
      have home : execution.id = task.executionId :=
        ((Collection.findById_eq_some keyed.executions).mp foundExecution).2
      refine ⟨task, execution, request, rfl, isTask, Db.requested_eq foundRequest matched, found,
        foundExecution, ⟨_, by rw [home]; rfl⟩, _, [], env.now, ?_, task_of_only, rfl⟩
      simp [transition, rejectedTask, waiting]

end Inversion

/-! ## Steps of a run by transactions that overlapped -/

namespace Sys.Stepped

variable [Mixed Val] {sys next : Sys Val} {action : Action Val} {label : Option (Reply Val)}
  {execution : WorkflowExecution Val} {run : Run Val} {missed : Key → Bool}

/-- The transaction of a failure for good in a live run. -/
theorem failsRun (stepped : sys.Stepped action next label)
    (membership : execution ∈ sys.db.executions.values) (live : execution.status.live = true)
    {taskId : TaskId} (fails : label.bind Reply.fails = some taskId)
    (home : taskId.executionId = execution.id) :
    ∃ frame, sys.frame? action = some frame ∧ frame.failsRun sys.db = some taskId := by
  -- the snapshot's execution is the committed one, so it was live as well
  have decided : ∀ {snapshot : Db Val} {patch : Patch Val} {task : Task Val}
      {found : WorkflowExecution Val}, Db.Commits snapshot sys.db patch next.db →
      task.id = taskId → Db.Failing snapshot patch task found →
      found.status.live = true ∧ snapshot.sameTask sys.db taskId = true ∧
        snapshot.failsFast sys.db taskId.executionId = true := by
    intro snapshot patch task found commits isTask failing
    subst isTask
    have foundHome : found.id = task.executionId :=
      ((Collection.findById_eq_some commits.snapshotInv.keyed.executions).mp
        failing.foundExecution).2
    have same : found = execution := stepped.inv.db.eq_of_id (commits.failing_current failing).1
      membership (foundHome.trans home)
    have foundLive : found.status.live = true := same ▸ live
    exact ⟨foundLive, commits.failing_sameTask failing, commits.failsFast failing foundLive⟩
  cases label with
  | none => cases fails
  | some reply =>
      change reply.fails = some taskId at fails
      unfold Reply.fails at fails
      split at fails
      · cases fails
        rcases stepped.committed rfl with
          ⟨env, op, snapshot, patch, isFrame, answers, writes, commits⟩
        rcases writes.of_failed commits.snapshotInv.keyed with
          ⟨task, found, isTask, isToken, running, final, failing⟩
        cases op with
        | failTask =>
          rcases answers with ⟨rfl, rfl, rfl⟩
          rcases decided commits isTask failing with ⟨foundLive, sameTask, failsFast⟩
          refine ⟨_, isFrame, ?_⟩
          have reported := Db.reported_eq failing.found running
          rw [isTask, isToken] at reported
          rw [Frame.failsRun, reported, Option.any_some, final foundLive, sameTask, failsFast]
          rfl
        | _ => cases answers
      · next params decidedAt resolved =>
        split at fails
        · cases fails
        · next decision =>
          cases fails
          rcases stepped.committed rfl with
            ⟨env, op, snapshot, patch, isFrame, answers, writes, commits⟩
          rcases writes.of_rejected commits.snapshotInv.keyed decision with
            ⟨task, found, request, isTask, ofTask, requested, failing⟩
          cases op with
          | resolveApproval =>
              cases answers
              rcases decided commits isTask failing with ⟨_, sameTask, failsFast⟩
              refine ⟨_, isFrame, ?_⟩
              rw [Frame.failsRun, requested, Option.filter_some, if_pos, Option.map_some, ofTask]
              rw [ofTask, sameTask, failsFast]
              simp [decision]
          | _ => cases answers
      · cases fails

/-- The transaction of a retry. -/
theorem retriesEnded (stepped : sys.Stepped action next label) {taskId : TaskId}
    {leaseToken : Nat} {error : Option Thrown} {delayMs : Nat}
    (isLabel : label = some (.failTask taskId leaseToken error (some (.retrying delayMs))))
    (ended : sys.db.isLive taskId.executionId = false) :
    ∃ frame, sys.frame? action = some frame ∧ frame.retriesEnded sys.db = true := by
  subst isLabel
  rcases stepped.committed rfl with ⟨env, op, snapshot, patch, isFrame, answers, writes, commits⟩
  rcases writes.of_retrying with
    ⟨task, update, isTask, isToken, found, running, retried, script, matched⟩
  cases op with
  | failTask =>
      rcases answers with ⟨rfl, rfl, rfl⟩
      have reported := Db.reported_eq found running
      have sameTask := commits.sameTask found script matched
      rw [isTask, isToken] at reported
      rw [isTask] at sameTask
      refine ⟨_, isFrame, ?_⟩
      rw [Frame.retriesEnded, reported, Option.any_some, retried, sameTask, ended]
      rfl
  | _ => cases answers

/-- The transaction of a suspension. -/
theorem suspendsEnded (stepped : sys.Stepped action next label) {taskId : TaskId}
    {leaseToken : Nat} (isLabel : label = some (.suspendForApproval taskId leaseToken true))
    (ended : sys.db.isLive taskId.executionId = false) :
    ∃ frame, sys.frame? action = some frame ∧ frame.suspendsEnded sys.db = true := by
  subst isLabel
  rcases stepped.committed rfl with ⟨env, op, snapshot, patch, isFrame, answers, writes, commits⟩
  rcases writes.of_suspended with
    ⟨task, update, isTask, isToken, found, running, script, matched⟩
  cases op with
  | suspendForApproval =>
      rcases answers with ⟨rfl, rfl⟩
      have reported := Db.reported_eq found running
      have sameTask := commits.sameTask found script matched
      rw [isTask, isToken] at reported
      rw [isTask] at sameTask
      refine ⟨_, isFrame, ?_⟩
      rw [Frame.suspendsEnded, reported, sameTask, ended]
      rfl
  | _ => cases answers

end Sys.Stepped

end WorkflowEngine
