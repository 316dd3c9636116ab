import WorkflowEngine.Workflow.History

/-!
# No stuck run

A RUNNING run always has a task that something can act on, and every task that is
under way carries the time that lets a sweep of the reconciler find it.
-/

namespace WorkflowEngine

open DocStore

variable {Val : Type} [Mixed Val]

/-- READY, QUEUED, RUNNING, RETRYING or WAITING_FOR_APPROVAL: unfinished and not
PENDING. -/
def TaskStatus.underWay (status : TaskStatus) : Bool :=
  status.unfinished && decide (status ≠ .pending)

/-! ## Some task is under way -/

namespace Run.Inv

variable {run : Run Val}

omit [Mixed Val] in
/-- A task all of whose parents are COMPLETED has no remaining dependency. -/
theorem remaining_eq_zero (inv : run.Inv) (live : run.execution.status.live = true)
    {task : Task Val} (membership : task ∈ run.tasks)
    (completed : ∀ parent ∈ run.tasks, parent.key ∈ task.dependsOn → parent.status = .completed) :
    task.remainingDeps = 0 := by
  rw [inv.ordered.remaining live task membership, Int.natCast_eq_zero, List.countP_eq_zero]
  intro dep isDep absent
  rcases inv.graph.exists_parent membership isDep with ⟨parent, parentMem, rfl⟩
  have found : missing run.tasks parent.key = false :=
    missing_eq_false.mpr ⟨parent, parentMem, rfl, completed parent parentMem isDep⟩
  rw [found] at absent
  cases absent

omit [Mixed Val] in
/-- The first unfinished task of a RUNNING run is under way. -/
theorem exists_underWay (inv : run.Inv) (nonempty : run.tasks ≠ [])
    (running : run.execution.status = .running) :
    ∃ task ∈ run.tasks, task.status.underWay = true := by
  have live : run.execution.status.live = true := by rw [running]; rfl
  have some : ∃ task ∈ run.tasks, task.status.unfinished = true := by
    by_contra none
    apply inv.counted.running running nonempty
    rw [inv.counted.pendingTasks, Int.natCast_eq_zero, List.countP_eq_zero]
    exact fun task membership unfinished => none ⟨task, membership, unfinished⟩
  rcases some with ⟨start, startMem, startUnfinished⟩
  rcases inv.graph.exists_first (fun task => task.status.unfinished = true) startMem
    startUnfinished with ⟨task, membership, unfinished, first⟩
  refine ⟨task, membership, ?_⟩
  rw [TaskStatus.underWay, unfinished, Bool.true_and, decide_eq_true_eq]
  intro pending
  apply inv.ordered.promoted running task membership pending
  apply inv.remaining_eq_zero live membership
  intro parent parentMem isDep
  have finished := first parent parentMem isDep
  have successful := inv.counted.live live parent parentMem
  cases status : parent.status <;> rw [status] at finished successful <;>
    first | rfl | exact absurd rfl finished | cases successful

end Run.Inv

/-! ## Every task under way can be found -/

/-- One of the reconciler's sweeps at this time selects the task, or the request it
waits for. -/
def Db.Swept (db : Db Val) (now staleMs : Time) (task : Task Val) : Prop :=
  isStuckReady (now - staleMs) task = true ∨ isStaleQueued (now - staleMs) task = true ∨
    isExpiredRunning now task = true ∨ isOverdueRetry (now - staleMs) task = true ∨
      ∃ request ∈ db.approvals.values, request.taskId = task.id ∧
        isOverdueApproval now request = true

/-- Every task under way has the time its sweep looks at. -/
structure Db.Timed (db : Db Val) : Prop where
  ready : ∀ task ∈ db.tasks.values, task.status = .ready → task.readyAt ≠ none
  queued : ∀ task ∈ db.tasks.values, task.status = .queued → task.queuedAt ≠ none
  running : ∀ task ∈ db.tasks.values, task.status = .running → task.leaseExpiresAt ≠ none
  retrying : ∀ task ∈ db.tasks.values, task.status = .retrying → task.retryAt ≠ none
  waiting : ∀ task ∈ db.tasks.values, task.status = .waitingForApproval →
    ∃ request ∈ db.approvals.values, request.taskId = task.id ∧ request.status = .pending

omit [Mixed Val] in
/-- A time that is set lies before every later cutoff. -/
theorem exists_before {field : Option Time} (set : field ≠ none) :
    ∃ bound, ∀ cutoff, bound ≤ cutoff → before cutoff field = true := by
  cases field with
  | none => exact absurd rfl set
  | some time =>
      refine ⟨time + 1, ?_⟩
      intro cutoff later
      exact decide_eq_true (Int.lt_of_add_one_le later)

omit [Mixed Val] in
/-- A timed task under way is swept once the clock is far enough. -/
theorem Db.Timed.exists_swept {db : Db Val} (timed : db.Timed) {task : Task Val}
    (membership : task ∈ db.tasks.values) (underWay : task.status.underWay = true)
    (staleMs : Time) : ∃ bound, ∀ now, bound ≤ now → db.Swept now staleMs task := by
  cases status : task.status <;> rw [status] at underWay <;> try cases underWay
  case ready =>
    rcases exists_before (timed.ready task membership status) with ⟨bound, passed⟩
    refine ⟨bound + staleMs, ?_⟩
    intro now later
    exact .inl (by simp [isStuckReady, status, passed (now - staleMs) (Int.le_sub_right_of_add_le later)])
  case queued =>
    rcases exists_before (timed.queued task membership status) with ⟨bound, passed⟩
    refine ⟨bound + staleMs, ?_⟩
    intro now later
    exact .inr (.inl (by simp [isStaleQueued, status, passed (now - staleMs) (Int.le_sub_right_of_add_le later)]))
  case running =>
    cases lease : task.leaseExpiresAt with
    | none => exact absurd lease (timed.running task membership status)
    | some expiresAt =>
        refine ⟨expiresAt + 1, ?_⟩
        intro now later
        have expired : leaseExpired now (some expiresAt) = true :=
          decide_eq_true (Int.lt_of_add_one_le later)
        exact .inr (.inr (.inl (by simp [isExpiredRunning, status, lease, expired])))
  case retrying =>
    rcases exists_before (timed.retrying task membership status) with ⟨bound, passed⟩
    refine ⟨bound + staleMs, ?_⟩
    intro now later
    exact .inr (.inr (.inr (.inl
      (by simp [isOverdueRetry, status, passed (now - staleMs) (Int.le_sub_right_of_add_le later)]))))
  case waitingForApproval =>
    rcases timed.waiting task membership status with ⟨request, requestMem, isTask, pending⟩
    refine ⟨request.expiresAt + 1, ?_⟩
    intro now later
    refine .inr (.inr (.inr (.inr ⟨request, requestMem, isTask, ?_⟩)))
    rw [isOverdueApproval, pending]
    exact decide_eq_true (Int.lt_of_add_one_le later)

theorem Db.Inv.timed {db : Db Val} (inv : db.Inv) : db.Timed := by
  have ok : ∀ task ∈ db.tasks.values, task.Ok := by
    intro task membership
    rcases inv.exists_run membership with ⟨execution, executionMem, _, inRun⟩
    exact (inv.runInv executionMem).ok task inRun
  refine ⟨?_, ?_, ?_, ?_, ?_⟩
  · exact fun task membership status => Option.isSome_iff_ne_none.mp ((ok task membership).readyAt status)
  · exact fun task membership status => Option.isSome_iff_ne_none.mp ((ok task membership).queuedAt status)
  · exact fun task membership status =>
      Option.isSome_iff_ne_none.mp ((ok task membership).leaseExpiresAt status)
  · exact fun task membership status => Option.isSome_iff_ne_none.mp ((ok task membership).retryAt status)
  · intro task membership waiting
    rcases inv.exists_run membership with ⟨execution, executionMem, _, inRun⟩
    rcases (inv.runInv executionMem).inStep.waiting task inRun waiting with
      ⟨request, requestMem, isTask, pending⟩
    exact ⟨request, (mem_runOf_approvals.mp requestMem).1, isTask, pending⟩

/-- In every reachable state, with crashes and Redis failing at any time: a RUNNING run
of a non-empty definition has a task under way and no PENDING task without remaining
dependencies, and every task under way is timed, so that one of the sweeps selects it
once the clock is far enough. -/
theorem never_stuck {sys : Sys Val} (reachable : (engineSystem Val).Reachable sys) :
    (∀ execution ∈ sys.db.executions.values, execution.status = .running →
      ((sys.db.runOf execution).tasks ≠ [] →
        ∃ task ∈ (sys.db.runOf execution).tasks, task.status.underWay = true) ∧
      ∀ task ∈ (sys.db.runOf execution).tasks, task.status = .pending → task.remainingDeps ≠ 0) ∧
    sys.db.Timed ∧
    ∀ task ∈ sys.db.tasks.values, task.status.underWay = true →
      ∀ staleMs, ∃ bound, ∀ now, bound ≤ now → sys.db.Swept now staleMs task := by
  have inv := (Sys.inv_of_reachableBy reachable).db
  refine ⟨?_, inv.timed, fun task membership underWay => inv.timed.exists_swept membership underWay⟩
  intro execution membership running
  have runInv := inv.runInv membership
  exact ⟨fun nonempty => runInv.exists_underWay nonempty running, runInv.ordered.promoted running⟩

theorem never_stuck_twoStarted :
    (Schedule.after Schedule.twoStarted (by decide)).db.tasks.values.isEmpty = false ∧
    ∀ task ∈ (Schedule.after Schedule.twoStarted (by decide)).db.tasks.values,
      task.status.underWay = true → ∀ staleMs, ∃ bound, ∀ now, bound ≤ now →
        (Schedule.after Schedule.twoStarted (by decide)).db.Swept now staleMs task :=
  ⟨by decide, (never_stuck (Schedule.after_reachable Schedule.twoStarted (by decide))).2.2⟩

end WorkflowEngine
