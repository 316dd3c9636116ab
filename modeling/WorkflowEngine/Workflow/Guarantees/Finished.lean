import WorkflowEngine.Workflow.Overlaps

/-!
# Finished runs

A run that ended has no unstarted task, unless a retry and the failure of its run
decided on each other's data.  It has no open approval, unless a task waited or was
about to wait when the run failed: fail-fast does not close requests and a
suspension does not look at the execution.
-/

namespace WorkflowEngine

open DocStore

variable {Val : Type}

/-! ## Nothing unstarted -/

/-- No task of a run that ended is PENDING, READY, QUEUED or RETRYING. -/
def Db.NothingUnstarted (db : Db Val) : Prop :=
  ∀ execution ∈ db.executions.values, execution.status.live = false →
    ∀ task ∈ db.tasks.values, task.executionId = execution.id → task.status.unstarted = false

/-- The callback fails its run and its snapshot shows a task RUNNING that waits for a
retry by now. -/
def Frame.missesRetry (db : Db Val) (frame : Frame Val) : Bool :=
  (frame.failsRun db).any fun taskId => db.tasks.values.any fun task =>
    task.executionId == taskId.executionId && decide (task.status = .retrying) &&
      frame.missed task.id

/-- The action commits a retry into a run that ended since the snapshot, or a failure
of the run that misses a retry committed since its snapshot. -/
def Sys.skewed (sys : Sys Val) (action : Action Val) : Bool :=
  (sys.frame? action).any fun frame =>
    frame.retriesEnded sys.db || frame.missesRetry sys.db

variable [Mixed Val]

/-- Nothing but a retry makes a task of a run unstarted. -/
theorem Task.Moves.retries_of_unstarted {label : Option (Reply Val)} {task later : Task Val}
    (moves : Task.Moves label task later) (unstarted : later.status.unstarted = true) :
    task.status.unstarted = true ∨ ∃ error delayMs, label =
      some (.failTask task.id task.leaseToken error (some (.retrying delayMs))) := by
  cases moves with
  | rest => exact .inl unstarted
  | promoted _ pending => exact .inl (by rw [pending]; rfl)
  | dispatched ready => exact .inl (by rw [ready]; rfl)
  | retried => exact .inr ⟨_, _, rfl⟩
  | renewed running =>
      have status : task.status.unstarted = true := unstarted
      rw [running] at status
      cases status
  | @failed _ error =>
      change (failureOutcome task (isRetryable error)).status.unstarted = true at unstarted
      cases outcome : failureOutcome task (isRetryable error) <;> rw [outcome] at unstarted <;>
        cases unstarted
  | cancelled | aborted | claimed | completed | suspended | approved | rejected => cases unstarted

theorem Sys.settled_unstarted {sys : Sys Val}
    (reachable : (engineSystem Val).ReachableBy
      (fun sys action => (!sys.skewed action) = true) sys) :
    ∀ execution ∈ sys.db.executions.values,
      (sys.db.runOf execution).Settled TaskStatus.unstarted := by
  refine history (fun _ run => run.Settled TaskStatus.unstarted) ?_ ?_ ?_ reachable
  · intro log env params _ _ ended
    cases ended
  · intro label log run _ _ settled
    exact settled
  · intro sys next action label execution run stepped allowed membership ran settled
    have inv := stepped.inv.db
    have runInv := inv.runInv membership
    refine ran.settled (fun _ => TaskStatus.unfinished_of_unstarted) runInv ?_ ?_ settled
    · intro ended task taskMem later moves unstarted
      rcases moves.retries_of_unstarted unstarted with before | ⟨error, delayMs, isLabel⟩
      · exact before
      · have home : task.executionId = execution.id := (Db.mem_runOf_tasks.mp taskMem).2
        have endedDb : sys.db.isLive task.id.executionId = false := by
          rw [show task.id.executionId = execution.id from home, Db.isLive_of_mem inv.keyed membership]
          exact ended
        rcases stepped.retriesEnded isLabel endedDb with ⟨frame, isFrame, late⟩
        rw [skewed, isFrame, Option.any_some, late] at allowed
        cases allowed
    · intro live failed task taskMem
      rcases ran.of_failed live failed with ⟨failing, failingMem, fails, now, images⟩
      have home : failing.executionId = execution.id := (Db.mem_runOf_tasks.mp failingMem).2
      rcases images task taskMem with ⟨_, finished⟩ | ⟨source, sourceMem, _, rfl⟩
      · by_contra unstarted
        rw [TaskStatus.unfinished_of_unstarted (by simpa using unstarted)] at finished
        cases finished
      · by_contra unstarted
        rcases Run.missed_of_unstarted (by simpa using unstarted) with ⟨_, missed, retrying⟩
        rcases stepped.failsRun membership live fails home with ⟨frame, isFrame, failsRun⟩
        have sourceHome := Db.mem_runOf_tasks.mp sourceMem
        have late : frame.missesRetry sys.db = true := by
          rw [Frame.missesRetry, failsRun, Option.any_some, List.any_eq_true]
          refine ⟨source, sourceHome.1, ?_⟩
          have isMissed : frame.missed source.id = true := by
            rw [Sys.missed, isFrame, Option.any_some, ← sourceHome.2] at missed
            exact missed
          simp [isMissed, retrying, sourceHome.2, show failing.id.executionId = execution.id from home]
        rw [skewed, isFrame, Option.any_some, late, Bool.or_true] at allowed
        cases allowed

/-- Nothing unstarted survives a finished run, in every schedule in which no retry and
no failure of a run decide on data that another commit has changed. -/
theorem nothing_unstarted {sys : Sys Val}
    (reachable : (engineSystem Val).ReachableBy
      (fun sys action => (!sys.skewed action) = true) sys) : sys.db.NothingUnstarted := by
  intro execution membership ended task taskMem home
  exact Sys.settled_unstarted reachable execution membership ended task
    (Db.mem_runOf_tasks.mpr ⟨taskMem, home⟩)

namespace Schedule

/-- The first of two running tasks fails for good, then the second one fails. -/
def failedTwice : List (Action Plain) :=
  twoStarted ++ call (.failTask ⟨2, "A"⟩ 1 fatal) :: steps 3 [23, 24] ++
    call (.failTask ⟨2, "B"⟩ 1 busy) :: steps 4 [25, 26]

/-- The same two failures, both decided before either of them commits. -/
def failedAtOnce : List (Action Plain) :=
  twoStarted ++ call (.failTask ⟨2, "A"⟩ 1 fatal) :: call (.failTask ⟨2, "B"⟩ 1 busy) ::
    steps 3 [23] ++ steps 4 [24] ++ steps 3 [25] ++ steps 4 [26]

end Schedule

theorem nothing_unstarted_failedTwice :
    (Schedule.afterBy (fun sys action => !sys.skewed action) Schedule.failedTwice
      (by decide)).db.NothingUnstarted :=
  nothing_unstarted (Schedule.afterBy_reachable _ Schedule.failedTwice (by decide))

/-- The run has failed and a task of it waits for a retry. -/
theorem not_nothing_unstarted :
    ¬ ∀ sys : Sys Plain, (engineSystem Plain).Reachable sys → sys.db.NothingUnstarted := by
  intro always
  have settled := always _ (Schedule.after_reachable Schedule.failedAtOnce (by decide))
  have retrying : ∃ execution ∈
      (Schedule.after Schedule.failedAtOnce (by decide)).db.executions.values,
      execution.status = .failed ∧ ∃ task ∈
        (Schedule.after Schedule.failedAtOnce (by decide)).db.tasks.values,
        task.executionId = execution.id ∧ task.status = .retrying := by decide
  rcases retrying with ⟨execution, membership, failed, task, taskMem, home, retrying⟩
  have absurdity := settled execution membership (by rw [failed]; rfl) task taskMem home
  rw [retrying] at absurdity
  cases absurdity

/-! ## No open approval -/

/-- No request of a run that ended is PENDING. -/
def Db.NoOpenApproval (db : Db Val) : Prop :=
  ∀ execution ∈ db.executions.values, execution.status.live = false →
    ∀ request ∈ db.approvals.values, request.executionId = execution.id →
      request.status ≠ .pending

/-- The callback fails its run while another task of the run waits for an approval. -/
def Frame.leavesRequest (db : Db Val) (frame : Frame Val) : Bool :=
  (frame.failsRun db).any fun taskId => db.approvals.values.any fun request =>
    request.executionId == taskId.executionId && request.taskId != taskId &&
      decide (request.status = .pending)

/-- The action commits the failure of a run with another task waiting for an approval,
or a suspension in a run that ended. -/
def Sys.orphans (sys : Sys Val) (action : Action Val) : Bool :=
  (sys.frame? action).any fun frame =>
    frame.suspendsEnded sys.db || frame.leavesRequest sys.db

/-- Nothing but a suspension makes a task wait. -/
theorem Task.Moves.suspends_of_waiting {label : Option (Reply Val)} {task later : Task Val}
    (moves : Task.Moves label task later) (waiting : later.status = .waitingForApproval) :
    task.status = .waitingForApproval ∨
      label = some (.suspendForApproval task.id task.leaseToken true) := by
  cases moves with
  | rest | renewed => exact .inl waiting
  | suspended => exact .inr rfl
  | @failed _ error =>
      change (failureOutcome task (isRetryable error)).status = .waitingForApproval at waiting
      cases outcome : failureOutcome task (isRetryable error) <;> rw [outcome] at waiting <;>
        cases waiting
  | promoted | cancelled | aborted | dispatched | claimed | completed | retried | approved
  | rejected => cases waiting

/-- Nothing but a suspension opens a request. -/
theorem Run.Step.suspends_of_new {missed : Key → Bool} {label : Option (Reply Val)}
    {run next : Run Val} (step : Run.Step missed label run next) {request : ApprovalRequest Val}
    (membership : request ∈ next.approvals) :
    (∃ old ∈ run.approvals, old.id = request.id) ∨
      ∃ task ∈ run.tasks, label = some (.suspendForApproval task.id task.leaseToken true) := by
  have decided : ∀ {params : ResolveParams} {now : Time},
      (request ∈ run.approvals.map fun other =>
        if other.id = params.approvalId then (recordDecision params now).set other else other) →
      ∃ old ∈ run.approvals, old.id = request.id := by
    intro params now inImage
    rcases List.mem_map.mp inImage with ⟨old, oldMem, rfl⟩
    refine ⟨old, oldMem, ?_⟩
    split <;> rfl
  cases step with
  | pause | resume | dispatch | claim | renew | announce | complete | retry =>
      exact .inl ⟨request, membership, rfl⟩
  | @cancel _ now =>
      rcases List.mem_map.mp membership with ⟨old, oldMem, rfl⟩
      have same := Update.id_onValue (cancelApprovals run.execution.id now) old
      exact .inl ⟨old, oldMem, same.symm⟩
  | fail =>
      rw [fail_approvals] at membership
      exact .inl ⟨request, membership, rfl⟩
  | suspend taskMem => exact .inr ⟨_, taskMem, rfl⟩
  | approve => exact .inl (decided membership)
  | reject =>
      rw [emit, fail_approvals] at membership
      exact .inl (decided membership)

/-- A suspension in a run that ended is not allowed. -/
theorem Sys.Stepped.live_of_suspends {sys next : Sys Val} {action : Action Val}
    {label : Option (Reply Val)} (stepped : sys.Stepped action next label)
    (allowed : (!sys.orphans action) = true) {execution : WorkflowExecution Val}
    (membership : execution ∈ sys.db.executions.values) {task : Task Val}
    (home : task.executionId = execution.id)
    (suspends : label = some (.suspendForApproval task.id task.leaseToken true)) :
    execution.status.live = true := by
  by_contra ended
  have endedDb : sys.db.isLive task.id.executionId = false := by
    rw [show task.id.executionId = execution.id from home,
      Db.isLive_of_mem stepped.inv.db.keyed membership]
    simpa using ended
  rcases stepped.suspendsEnded suspends endedDb with ⟨frame, isFrame, late⟩
  rw [Sys.orphans, isFrame, Option.any_some, late] at allowed
  cases allowed

theorem Sys.settled_waiting {sys : Sys Val}
    (reachable : (engineSystem Val).ReachableBy
      (fun sys action => (!sys.orphans action) = true) sys) :
    ∀ execution ∈ sys.db.executions.values,
      (sys.db.runOf execution).Settled fun status => decide (status = .waitingForApproval) := by
  refine history (fun _ run => run.Settled fun status => decide (status = .waitingForApproval))
    ?_ ?_ ?_ reachable
  · intro log env params _ _ ended
    cases ended
  · intro label log run _ _ settled
    exact settled
  · intro sys next action label execution run stepped allowed membership ran settled
    have runInv := stepped.inv.db.runInv membership
    refine ran.settled ?_ runInv ?_ ?_ settled
    · intro status waiting
      rw [of_decide_eq_true waiting]
      rfl
    · intro ended task taskMem later moves waiting
      rcases moves.suspends_of_waiting (of_decide_eq_true waiting) with before | suspends
      · exact decide_eq_true before
      · have live := stepped.live_of_suspends allowed membership
          (Db.mem_runOf_tasks.mp taskMem).2 suspends
        rw [show execution.status.live = false from ended] at live
        cases live
    · intro live failed task taskMem
      rcases ran.of_failed live failed with ⟨failing, failingMem, fails, now, images⟩
      have home : failing.executionId = execution.id := (Db.mem_runOf_tasks.mp failingMem).2
      rw [decide_eq_false_iff_not]
      intro waiting
      rcases images task taskMem with ⟨_, finished⟩ | ⟨source, sourceMem, different, rfl⟩
      · rw [waiting] at finished
        cases finished
      · have same := Run.failedFast_waiting waiting
        rw [same] at waiting different
        rcases runInv.inStep.waiting source sourceMem waiting with
          ⟨request, requestMem, isTask, pending⟩
        rcases stepped.failsRun membership live fails home with ⟨frame, isFrame, failsRun⟩
        have requestHome := Db.mem_runOf_approvals.mp requestMem
        have late : frame.leavesRequest sys.db = true := by
          rw [Frame.leavesRequest, failsRun, Option.any_some, List.any_eq_true]
          refine ⟨request, requestHome.1, ?_⟩
          simp [isTask, different, pending, requestHome.2,
            show failing.id.executionId = execution.id from home]
        rw [orphans, isFrame, Option.any_some, late, Bool.or_true] at allowed
        cases allowed

/-- A run that ended has no open approval and gets no new one, in every schedule in
which no run fails while another task of it waits and no task is suspended after the
end of its run. -/
theorem no_open_approval {sys : Sys Val}
    (reachable : (engineSystem Val).ReachableBy
      (fun sys action => (!sys.orphans action) = true) sys) :
    sys.db.NoOpenApproval ∧
      ∀ action next, (!sys.orphans action) = true → sys.step action = some next →
        ∀ execution ∈ sys.db.executions.values, execution.status.live = false →
          ∀ request ∈ next.db.approvals.values, request.executionId = execution.id →
            request.id ∈ sys.db.approvals.ids := by
  have inv := Sys.inv_of_reachableBy reachable
  constructor
  · intro execution membership ended request requestMem home pending
    rcases inv.db.waiting_of_pending requestMem pending with ⟨task, found, waiting⟩
    have taskMem := (Collection.findById_eq_some inv.db.keyed.tasks).mp found
    have taskHome : task.executionId = execution.id := by
      rw [← home, inv.db.approval_home requestMem, ← taskMem.2]
      rfl
    have settled := Sys.settled_waiting reachable execution membership ended task
      (Db.mem_runOf_tasks.mpr ⟨taskMem.1, taskHome⟩)
    exact of_decide_eq_false settled waiting
  · intro action next allowed taken execution membership ended request requestMem home
    rcases inv.stepped taken with ⟨label, stepped⟩
    rcases stepped.advances.forward inv.db membership with ⟨later, _, laterId, ⟨_, same⟩ | ran⟩
    · have inRun : request ∈ (next.db.runOf later).approvals :=
        Db.mem_runOf_approvals.mpr ⟨requestMem, home.trans laterId.symm⟩
      rw [same] at inRun
      exact Collection.mem_ids.mpr ⟨request, (Db.mem_runOf_approvals.mp inRun).1, rfl⟩
    · have inRun : request ∈ (next.db.runOf later).approvals :=
        Db.mem_runOf_approvals.mpr ⟨requestMem, home.trans laterId.symm⟩
      rcases ran.suspends_of_new inRun with ⟨old, oldMem, isId⟩ | ⟨task, taskMem, suspends⟩
      · exact Collection.mem_ids.mpr ⟨old, (Db.mem_runOf_approvals.mp oldMem).1, isId⟩
      · have live := stepped.live_of_suspends allowed membership
          (Db.mem_runOf_tasks.mp taskMem).2 suspends
        rw [ended] at live
        cases live

namespace Schedule

/-- One of two running tasks asks for approval. -/
def oneWaiting : List (Action Plain) :=
  twoStarted ++
    call (.suspendForApproval ⟨2, "A"⟩ 1
      { title := "Refund", message := none, context := none, timeoutMs := 1000 }) ::
        steps 3 [23, 24]

/-- The run is cancelled while a task waits. -/
def cancelledWaiting : List (Action Plain) :=
  oneWaiting ++ call (.cancelExecution 2) :: steps 4 [25, 26]

/-- The run fails while a task waits. -/
def failedWaiting : List (Action Plain) :=
  oneWaiting ++ call (.failTask ⟨2, "B"⟩ 1 fatal) :: steps 4 [25, 26]

end Schedule

theorem no_open_approval_cancelledWaiting :
    (Schedule.afterBy (fun sys action => !sys.orphans action) Schedule.cancelledWaiting
      (by decide)).db.NoOpenApproval :=
  (no_open_approval (Schedule.afterBy_reachable _ Schedule.cancelledWaiting (by decide))).1

/-- The run has failed and a human is still asked to decide. -/
theorem not_no_open_approval :
    ¬ ∀ sys : Sys Plain, (engineSystem Plain).Reachable sys → sys.db.NoOpenApproval := by
  intro always
  have closed := always _ (Schedule.after_reachable Schedule.failedWaiting (by decide))
  have unanswered : ∃ execution ∈
      (Schedule.after Schedule.failedWaiting (by decide)).db.executions.values,
      execution.status = .failed ∧ ∃ request ∈
        (Schedule.after Schedule.failedWaiting (by decide)).db.approvals.values,
        request.executionId = execution.id ∧ request.status = .pending := by decide
  rcases unanswered with ⟨execution, membership, failed, request, requestMem, home, pending⟩
  exact closed execution membership (by rw [failed]; rfl) request requestMem home pending

end WorkflowEngine
