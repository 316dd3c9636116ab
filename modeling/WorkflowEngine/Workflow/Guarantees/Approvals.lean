import WorkflowEngine.Workflow.History

/-!
# Approvals

Requests and tasks are in step in every committed state, a decision is final, and
a decision never finds a task that is no longer waiting.
-/

namespace WorkflowEngine

open DocStore

variable {Val : Type} [Mixed Val]

/-! ## Decisions are final -/

namespace Run

omit [Mixed Val] in
/-- Recording a decision on a PENDING request leaves the decided ones alone. -/
private theorem decided_recorded {run : Run Val} (inStep : InStep run.tasks run.approvals)
    {params : ResolveParams} {now : Time} {request decided : ApprovalRequest Val}
    (requestMem : request ∈ run.approvals) (pending : request.status = .pending)
    (isId : request.id = params.approvalId) (membership : decided ∈ run.approvals)
    (notPending : decided.status ≠ .pending) :
    decided ∈ run.approvals.map fun other =>
      if other.id = params.approvalId then (recordDecision params now).set other else other := by
  refine List.mem_map.mpr ⟨decided, membership, if_neg ?_⟩
  intro same
  have isRequest : decided = request :=
    List.inj_on_of_nodup_map inStep.ids membership requestMem (same.trans isId.symm)
  exact notPending (isRequest ▸ pending)

/-- A step leaves every decided request as it is. -/
theorem Step.decided {missed : Key → Bool} {label : Option (Reply Val)} {run next : Run Val}
    (step : Step missed label run next) (inStep : InStep run.tasks run.approvals)
    {request : ApprovalRequest Val} (membership : request ∈ run.approvals)
    (decided : request.status ≠ .pending) : request ∈ next.approvals := by
  cases step with
  | pause | resume | dispatch | claim | renew | announce | complete | retry => exact membership
  | fail =>
      rw [fail_approvals]
      exact membership
  | @cancel _ now live =>
      refine List.mem_map.mpr ⟨request, membership, ?_⟩
      have unmatched : (cancelApprovals run.execution.id now).filter request = false := by
        simp [cancelApprovals, decided]
      rw [Update.onValue, unmatched]
      rfl
  | suspend => exact List.mem_append_left _ membership
  | approve _ _ requestMem pending isId => exact decided_recorded inStep requestMem pending isId membership decided
  | reject _ _ requestMem pending isId =>
      rw [emit, fail_approvals]
      exact decided_recorded inStep requestMem pending isId membership decided

end Run

/-- A step of the system leaves every decided request as it is. -/
theorem Sys.Stepped.decided {sys next : Sys Val} {action : Action Val} {label : Option (Reply Val)}
    (stepped : sys.Stepped action next label) {request : ApprovalRequest Val}
    (membership : request ∈ sys.db.approvals.values) (decided : request.status ≠ .pending) :
    request ∈ next.db.approvals.values := by
  have inv := stepped.inv.db
  rcases Collection.mem_ids.mp (inv.approvalHome request membership) with
    ⟨execution, executionMem, home⟩
  have inRun : request ∈ (sys.db.runOf execution).approvals :=
    Db.mem_runOf_approvals.mpr ⟨membership, home.symm⟩
  rcases stepped.advances.forward inv executionMem with ⟨later, _, _, ⟨_, same⟩ | taken⟩
  · rw [← same] at inRun
    exact (Db.mem_runOf_approvals.mp inRun).1
  · have kept := taken.decided (inv.runInv executionMem).inStep inRun decided
    exact (Db.mem_runOf_approvals.mp kept).1

/-! ## The guarantee -/

/-- Requests and tasks of a database are in step. -/
structure Db.ApprovalsInStep (db : Db Val) : Prop where
  /-- a task waits if and only if exactly one request of it is PENDING -/
  waiting : ∀ task ∈ db.tasks.values, task.status = .waitingForApproval ↔
    (db.approvals.values.countP fun request =>
      decide (request.taskId = task.id) && decide (request.status = .pending)) = 1
  unique : ∀ task ∈ db.tasks.values,
    (db.approvals.values.countP fun request => decide (request.taskId = task.id)) ≤ 1
  outcome : ∀ request ∈ db.approvals.values, ∃ task ∈ db.tasks.values,
    task.id = request.taskId ∧ task.status = request.status.taskStatus

namespace Db.Inv

variable {db : Db Val} (inv : db.Inv)
include inv

/-- Requests of a task are counted within its run. -/
theorem countP_approvals {execution : WorkflowExecution Val} {task : Task Val}
    (home : execution.id = task.executionId) (counts : ApprovalRequest Val → Bool)
    (about : ∀ request, counts request = true → request.taskId = task.id) :
    db.approvals.values.countP counts = (db.runOf execution).approvals.countP counts := by
  rw [runOf, List.countP_filter]
  apply List.countP_congr
  intro request membership
  constructor
  · intro counted
    have isHome : request.executionId = execution.id := by
      rw [inv.approval_home membership, about request counted, home]
      rfl
    simp [counted, isHome]
  · intro both
    exact (Bool.and_eq_true_iff.mp both).1

theorem approvals_unique {task : Task Val} (membership : task ∈ db.tasks.values) :
    (db.approvals.values.countP fun request => decide (request.taskId = task.id)) ≤ 1 := by
  rcases inv.exists_run membership with ⟨execution, executionMem, home, _⟩
  rw [inv.countP_approvals home _ fun request same => of_decide_eq_true same]
  have nodup := (inv.runInv executionMem).inStep.taskIds
  have count := List.nodup_iff_count_le_one.mp nodup task.id
  rw [List.count, List.countP_map] at count
  exact Nat.le_trans (Nat.le_of_eq (List.countP_congr fun request _ => by simp)) count

theorem approvalsInStep : db.ApprovalsInStep := by
  refine ⟨?_, fun task membership => inv.approvals_unique membership, ?_⟩
  · intro task membership
    rcases inv.exists_run membership with ⟨execution, executionMem, home, inRun⟩
    have inStep := (inv.runInv executionMem).inStep
    constructor
    · intro waiting
      have atMost : (db.approvals.values.countP fun request =>
          decide (request.taskId = task.id) && decide (request.status = .pending)) ≤ 1 :=
        Nat.le_trans
          (List.countP_mono_left fun request _ both => (Bool.and_eq_true_iff.mp both).1)
          (inv.approvals_unique membership)
      rcases inStep.waiting task inRun waiting with ⟨request, requestMem, isTask, pending⟩
      have positive : 0 < (db.approvals.values.countP fun request =>
          decide (request.taskId = task.id) && decide (request.status = .pending)) :=
        List.countP_pos_iff.mpr ⟨request, (mem_runOf_approvals.mp requestMem).1,
          by simp [isTask, pending]⟩
      exact Nat.le_antisymm atMost positive
    · intro one
      have positive : 0 < (db.approvals.values.countP fun request =>
          decide (request.taskId = task.id) && decide (request.status = .pending)) := by
        rw [one]
        exact Nat.one_pos
      rcases List.countP_pos_iff.mp positive with ⟨request, requestMem, both⟩
      simp only [Bool.and_eq_true, decide_eq_true_eq] at both
      rcases inv.waiting_of_pending requestMem both.2 with ⟨found, search, waiting⟩
      rw [both.1, inv.findById_task membership] at search
      exact Option.some.inj search ▸ waiting
  · intro request membership
    rcases Collection.mem_ids.mp (inv.approvalHome request membership) with
      ⟨execution, executionMem, home⟩
    rcases (inv.runInv executionMem).inStep.agrees request
      (mem_runOf_approvals.mpr ⟨membership, home.symm⟩) with ⟨task, taskMem, isTask, status⟩
    exact ⟨task, (mem_runOf_tasks.mp taskMem).1, isTask, status⟩

end Db.Inv

/-- In every reachable committed state requests and tasks are in step, no step changes
a request that was decided, and no call ever threw APPROVAL_NOT_ACTIONABLE. -/
theorem approvals_in_step {sys : Sys Val} (reachable : (engineSystem Val).Reachable sys) :
    sys.db.ApprovalsInStep ∧
      (∀ action next, sys.step action = some next → ∀ request ∈ sys.db.approvals.values,
        request.status ≠ .pending → request ∈ next.db.approvals.values) ∧
      ∀ reply ∈ sys.log, reply ≠ .threw .approvalNotActionable := by
  refine ⟨(Sys.inv_of_reachableBy reachable).db.approvalsInStep, ?_, ?_⟩
  · intro action next taken request membership decided
    rcases (Sys.inv_of_reachableBy reachable).stepped taken with ⟨label, stepped⟩
    exact stepped.decided membership decided
  · intro reply membership same
    have ok := (Sys.inv_of_reachableBy reachable).replies reply membership
    rw [same] at ok
    exact ok rfl

namespace Schedule

/-- The handler of the only task asks for approval, which times out. -/
def expired : List (Action Plain) :=
  oneStarted ++
    call (.suspendForApproval ⟨2, "A"⟩ 1
      { title := "Refund", message := none, context := none, timeoutMs := 5 }) ::
        steps 2 [14, 15] ++
    .invoke (.reconcile 0 100) :: steps 3 [30, 31, 32, 33, 34, 35, 36, 37, 38, 39]

end Schedule

theorem approvals_in_step_expired :
    (Schedule.after Schedule.expired (by decide)).db.ApprovalsInStep ∧
      ∀ reply ∈ (Schedule.after Schedule.expired (by decide)).log,
        reply ≠ .threw .approvalNotActionable :=
  have inStep := approvals_in_step (Schedule.after_reachable Schedule.expired (by decide))
  ⟨inStep.1, inStep.2.2⟩

end WorkflowEngine
