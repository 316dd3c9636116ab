import WorkflowEngine.Workflow.Run.Shape

/-!
# Approvals and tasks in step

A task waits for approval exactly when one request for it is PENDING, no task ever
has two requests, and the outcome of a request is the outcome of its task.
-/

namespace WorkflowEngine

open DocStore

variable {Val : Type}

/-- The status of a task whose request has this status. -/
def ApprovalStatus.taskStatus : ApprovalStatus → TaskStatus
  | .pending => .waitingForApproval
  | .approved => .completed
  | .rejected => .failed
  | .expired => .failed
  | .cancelled => .cancelled

theorem ApprovalStatus.stage_taskStatus (status : ApprovalStatus) :
    4 ≤ status.taskStatus.stage := by
  cases status <;> decide

/-- The reply reports that a task entered or left WAITING_FOR_APPROVAL. -/
def Reply.touchesApproval (taskId : TaskId) : Reply Val → Bool
  | .cancelExecution _ true => true
  | .suspendForApproval suspended _ true => decide (suspended = taskId)
  | .resolveApproval _ _ (some resolved) => decide (resolved = taskId)
  | _ => false

namespace Task.Moves

variable [Mixed Val] {label : Option (Reply Val)} {task next : Task Val}

/-- Other steps neither settle a waiting or finished task anew nor suspend one. -/
theorem approval_kept (moves : Moves label task next)
    (untouched : label.any (Reply.touchesApproval task.id) = false) :
    (4 ≤ task.status.stage → next.status = task.status) ∧
      (next.status = .waitingForApproval → task.status = .waitingForApproval) := by
  cases moves with
  | rest other => exact ⟨fun _ => rfl, fun waiting => waiting⟩
  | renewed running => exact ⟨fun _ => rfl, fun waiting => waiting⟩
  | promoted other pending => exact ⟨by simp [pending, TaskStatus.stage], by simp⟩
  | cancelled other unstarted =>
      refine ⟨fun late => ?_, by simp⟩
      cases status : task.status <;> simp [TaskStatus.unstarted, status] at unstarted <;>
        simp [TaskStatus.stage, status] at late
  | aborted unfinished => cases untouched
  | dispatched ready => exact ⟨by simp [ready, TaskStatus.stage], by intro same; cases same⟩
  | claimed free =>
      refine ⟨fun late => ?_, by intro same; cases same⟩
      cases status : task.status <;> simp [claimable, status] at free <;>
        simp [TaskStatus.stage, status] at late
  | completed running => exact ⟨by simp [running, TaskStatus.stage], by intro same; cases same⟩
  | retried running => exact ⟨by simp [running, TaskStatus.stage], by intro same; cases same⟩
  | @failed _ error now running =>
      refine ⟨by simp [running, TaskStatus.stage], ?_⟩
      cases outcome : failureOutcome task (isRetryable error) <;>
        intro same <;> cases same
  | suspended running => simp [Reply.touchesApproval] at untouched
  | approved waiting decision => simp [Reply.touchesApproval] at untouched
  | rejected waiting decision => simp [Reply.touchesApproval] at untouched

theorem of_cancel {executionId : ExecutionId}
    (moves : Moves (some (.cancelExecution executionId true)) task next) :
    next.status = task.status ∨ task.status = .pending ∧ next.status = .ready ∨
      next.status = .cancelled := by
  cases moves with
  | rest other => exact .inl rfl
  | promoted other pending => exact .inr (.inl ⟨pending, rfl⟩)
  | cancelled other unstarted => exact .inr (.inr rfl)
  | aborted unfinished => exact .inr (.inr rfl)

theorem of_suspend (moves : Moves label task next) {leaseToken : Nat}
    (isLabel : label = some (.suspendForApproval task.id leaseToken true)) :
    next.status = .waitingForApproval := by
  cases moves with
  | suspended running => rfl
  | rest other | promoted other | cancelled other =>
      rw [isLabel] at other
      exact absurd rfl other
  | aborted | dispatched | claimed | renewed | completed | retried | failed | approved
  | rejected => cases isLabel

theorem of_resolve (moves : Moves label task next) {params : ResolveParams} {now : Time}
    (isLabel : label = some (.resolveApproval params now (some task.id))) :
    next.status = params.decision.status.taskStatus := by
  cases moves with
  | approved waiting decision =>
      cases isLabel
      rw [decision]
      rfl
  | rejected waiting decision =>
      cases isLabel
      cases is : params.decision with
      | approved => exact absurd is decision
      | rejected => rfl
      | expired => rfl
  | rest other | promoted other | cancelled other =>
      rw [isLabel] at other
      exact absurd rfl other
  | aborted | dispatched | claimed | renewed | completed | retried | failed | suspended =>
      cases isLabel

end Task.Moves

namespace Run

structure InStep (tasks : List (Task Val)) (approvals : List (ApprovalRequest Val)) : Prop where
  ids : (approvals.map (·.id)).Nodup
  taskIds : (approvals.map (·.taskId)).Nodup
  agrees : ∀ request ∈ approvals, ∃ task ∈ tasks,
    task.id = request.taskId ∧ task.status = request.status.taskStatus
  waiting : ∀ task ∈ tasks, task.status = .waitingForApproval →
    ∃ request ∈ approvals, request.taskId = task.id ∧ request.status = .pending

variable {tasks : List (Task Val)} {approvals : List (ApprovalRequest Val)}

namespace InStep

theorem eq_of_taskId (inStep : InStep tasks approvals) {left right : ApprovalRequest Val}
    (leftMem : left ∈ approvals) (rightMem : right ∈ approvals)
    (same : left.taskId = right.taskId) : left = right :=
  List.inj_on_of_nodup_map inStep.taskIds leftMem rightMem same

variable [Mixed Val] {moved : List (Task Val)}

/-- A step that touches no approval. -/
theorem untouched (inStep : InStep tasks approvals) {label : Option (Reply Val)}
    (moves : MovesAll label tasks moved)
    (none : ∀ taskId, label.any (Reply.touchesApproval taskId) = false) :
    InStep moved approvals := by
  rcases moves with ⟨image, rfl, each⟩
  refine ⟨inStep.ids, inStep.taskIds, ?_, ?_⟩
  · intro request requestMem
    rcases inStep.agrees request requestMem with ⟨task, membership, same, status⟩
    refine ⟨image task, List.mem_map_of_mem membership, ?_, ?_⟩
    · rw [(each task membership).evolves.id_eq, same]
    · rw [← status]
      apply ((each task membership).approval_kept (none task.id)).1
      rw [status]
      exact request.status.stage_taskStatus
  · intro task taskMem waiting
    rcases List.mem_map.mp taskMem with ⟨source, sourceMem, rfl⟩
    have wasWaiting := ((each source sourceMem).approval_kept (none source.id)).2 waiting
    rw [(each source sourceMem).evolves.id_eq]
    exact inStep.waiting source sourceMem wasWaiting

/-- A suspended task gets the first request for it. -/
theorem suspend (inStep : InStep tasks approvals) {task : Task Val} (membership : task ∈ tasks) {leaseToken : Nat}
    (moves : MovesAll (some (.suspendForApproval task.id leaseToken true)) tasks moved)
    {request : ApprovalRequest Val} (taskId : request.taskId = task.id)
    (pending : request.status = .pending)
    (freshTask : ∀ other ∈ approvals, other.taskId ≠ request.taskId)
    (freshId : ∀ other ∈ approvals, other.id ≠ request.id) :
    InStep moved (approvals ++ [request]) := by
  rcases moves with ⟨image, rfl, each⟩
  have others : ∀ other ∈ tasks, other.id ≠ task.id →
      (some (Reply.suspendForApproval task.id leaseToken true : Reply Val)).any
        (Reply.touchesApproval other.id) = false := by
    intro other _ different
    simpa [Reply.touchesApproval] using Ne.symm different
  refine ⟨?_, ?_, ?_, ?_⟩
  · simpa [List.nodup_append, inStep.ids] using freshId
  · simpa [List.nodup_append, inStep.taskIds] using freshTask
  · intro other otherMem
    rcases List.mem_append.mp otherMem with old | new
    · rcases inStep.agrees other old with ⟨found, foundMem, same, status⟩
      have different : found.id ≠ task.id := by
        rw [same, ← taskId]
        exact freshTask other old
      refine ⟨image found, List.mem_map_of_mem foundMem, ?_, ?_⟩
      · rw [(each found foundMem).evolves.id_eq, same]
      · rw [← status]
        apply ((each found foundMem).approval_kept (others found foundMem different)).1
        rw [status]
        exact other.status.stage_taskStatus
    · cases List.mem_singleton.mp new
      refine ⟨image task, List.mem_map_of_mem membership, ?_, ?_⟩
      · rw [(each task membership).evolves.id_eq, taskId]
      · rw [pending]
        exact (each task membership).of_suspend rfl
  · intro later laterMem waiting
    rcases List.mem_map.mp laterMem with ⟨source, sourceMem, rfl⟩
    rw [(each source sourceMem).evolves.id_eq]
    by_cases same : source.id = task.id
    · exact ⟨request, List.mem_append_right _ List.mem_cons_self, by rw [taskId, same], pending⟩
    · have wasWaiting :=
        ((each source sourceMem).approval_kept (others source sourceMem same)).2 waiting
      rcases inStep.waiting source sourceMem wasWaiting with ⟨found, foundMem, about⟩
      exact ⟨found, List.mem_append_left _ foundMem, about⟩

/-- A decision settles the request and its task together. -/
theorem resolve (inStep : InStep tasks approvals) {task : Task Val} (membership : task ∈ tasks)
    {params : ResolveParams} {now : Time}
    (moves : MovesAll (some (.resolveApproval params now (some task.id))) tasks moved)
    {request : ApprovalRequest Val} (requestMem : request ∈ approvals)
    (id : request.id = params.approvalId) (taskId : request.taskId = task.id) :
    InStep moved (approvals.map fun other =>
      if other.id = params.approvalId then (recordDecision params now).set other else other) := by
  rcases moves with ⟨image, rfl, each⟩
  have decided : ∀ other ∈ approvals, other.id = params.approvalId → other = request :=
    fun other otherMem same => List.inj_on_of_nodup_map inStep.ids otherMem requestMem
      (same.trans id.symm)
  have others : ∀ other ∈ tasks, other.id ≠ task.id →
      (some (Reply.resolveApproval params now (some task.id) : Reply Val)).any
        (Reply.touchesApproval other.id) = false := by
    intro other _ different
    simpa [Reply.touchesApproval] using Ne.symm different
  refine ⟨?_, ?_, ?_, ?_⟩
  · have same : (approvals.map fun other => if other.id = params.approvalId then
        (recordDecision params now).set other else other).map ApprovalRequest.id =
          approvals.map ApprovalRequest.id := by
      rw [List.map_map]
      apply List.map_congr_left
      intro other _
      simp only [Function.comp_apply]
      split <;> rfl
    rw [same]
    exact inStep.ids
  · have same : (approvals.map fun other => if other.id = params.approvalId then
        (recordDecision params now).set other else other).map ApprovalRequest.taskId =
          approvals.map ApprovalRequest.taskId := by
      rw [List.map_map]
      apply List.map_congr_left
      intro other _
      simp only [Function.comp_apply]
      split <;> rfl
    rw [same]
    exact inStep.taskIds
  · intro later laterMem
    rcases List.mem_map.mp laterMem with ⟨other, otherMem, rfl⟩
    by_cases isDecided : other.id = params.approvalId
    · rw [if_pos isDecided]
      cases decided other otherMem isDecided
      refine ⟨image task, List.mem_map_of_mem membership, ?_, ?_⟩
      · rw [(each task membership).evolves.id_eq]
        exact taskId.symm
      · exact (each task membership).of_resolve rfl
    · rw [if_neg isDecided]
      rcases inStep.agrees other otherMem with ⟨found, foundMem, same, status⟩
      have different : found.id ≠ task.id := by
        rw [same, ← taskId]
        intro sameTask
        cases inStep.eq_of_taskId otherMem requestMem sameTask
        exact isDecided id
      refine ⟨image found, List.mem_map_of_mem foundMem, ?_, ?_⟩
      · rw [(each found foundMem).evolves.id_eq, same]
      · rw [← status]
        apply ((each found foundMem).approval_kept (others found foundMem different)).1
        rw [status]
        exact other.status.stage_taskStatus
  · intro later laterMem waiting
    rcases List.mem_map.mp laterMem with ⟨source, sourceMem, rfl⟩
    rw [(each source sourceMem).evolves.id_eq]
    by_cases same : source.id = task.id
    · -- the decided task no longer waits
      rw [(each source sourceMem).of_resolve (by rw [same])] at waiting
      cases decision : params.decision <;> rw [decision] at waiting <;> cases waiting
    · have wasWaiting :=
        ((each source sourceMem).approval_kept (others source sourceMem same)).2 waiting
      rcases inStep.waiting source sourceMem wasWaiting with ⟨found, foundMem, about, pending⟩
      refine ⟨found, List.mem_map.mpr ⟨found, foundMem, ?_⟩, about, pending⟩
      rw [if_neg]
      intro isDecided
      cases decided found foundMem isDecided
      exact same (about.symm.trans taskId)

/-- Cancelling a run closes its waiting tasks and their requests. -/
theorem cancel (inStep : InStep tasks approvals) {executionId : ExecutionId} {now : Time}
    (moves : MovesAll (some (.cancelExecution executionId true)) tasks moved)
    (finished : ∀ task ∈ moved, task.status.unfinished = false)
    (home : ∀ request ∈ approvals, request.executionId = executionId) :
    InStep moved (approvals.map (cancelApprovals executionId now).onValue) := by
  rcases moves with ⟨image, rfl, each⟩
  refine ⟨?_, ?_, ?_, ?_⟩
  · have same : (approvals.map (cancelApprovals executionId now).onValue).map ApprovalRequest.id =
        approvals.map ApprovalRequest.id := by
      rw [List.map_map]
      exact List.map_congr_left fun other _ =>
        Update.id_onValue (cancelApprovals executionId now) other
    rw [same]
    exact inStep.ids
  · have same : (approvals.map (cancelApprovals executionId now).onValue).map
        ApprovalRequest.taskId = approvals.map ApprovalRequest.taskId := by
      rw [List.map_map]
      apply List.map_congr_left
      intro other _
      simp only [Function.comp_apply, Update.onValue]
      split <;> rfl
    rw [same]
    exact inStep.taskIds
  · intro later laterMem
    rcases List.mem_map.mp laterMem with ⟨other, otherMem, rfl⟩
    rcases inStep.agrees other otherMem with ⟨found, foundMem, same, status⟩
    have moved := each found foundMem
    refine ⟨image found, List.mem_map_of_mem foundMem, ?_, ?_⟩
    · rw [moved.evolves.id_eq, same]
      unfold Update.onValue
      split <;> rfl
    · have ended := finished (image found) (List.mem_map_of_mem foundMem)
      by_cases pending : other.status = .pending
      · have closed : ((cancelApprovals executionId now).onValue other).status = .cancelled := by
          simp [Update.onValue, cancelApprovals, home other otherMem, pending]
        rw [closed]
        rw [pending] at status
        rcases moved.of_cancel with kept | ⟨wasPending, _⟩ | cancelled
        · rw [kept, status] at ended
          cases ended
        · rw [status] at wasPending
          cases wasPending
        · exact cancelled
      · have open_ : (cancelApprovals executionId now).onValue other = other := by
          simp [Update.onValue, cancelApprovals, pending]
        rw [open_, ← status]
        apply (moved.evolves.final ?_).1
        rw [status]
        cases decided : other.status <;> first | rfl | exact absurd decided pending
  · intro later laterMem waiting
    have ended := finished later laterMem
    rw [waiting] at ended
    cases ended

end InStep

/-! ## Every step -/

theorem fail_approvals (task : Task Val) (outcome : FailureOutcome) (message : String)
    (retryable : Bool) (missed : Key → Bool) (now : Time) (run : Run Val) :
    (Run.fail task outcome message retryable missed now run).approvals = run.approvals := by
  unfold Run.fail
  split <;> rfl

/-- Approvals and tasks stay in step over every step of a run. -/
theorem Step.inStep [Mixed Val] {missed : Key → Bool} {label : Option (Reply Val)}
    {run next : Run Val} (graph : GraphValid run.execution.id run.shapes)
    (home : ∀ request ∈ run.approvals, request.executionId = run.execution.id)
    (step : Step missed label run next) (before : InStep run.tasks run.approvals) :
    InStep next.tasks next.approvals := by
  have moves := step.moves graph.tasks_nodup
  cases step with
  | pause | resume | dispatch | claim | renew | announce | complete | retry =>
      exact before.untouched moves fun _ => rfl
  | fail =>
      rw [fail_approvals]
      exact before.untouched moves fun _ => rfl
  | cancel live =>
      refine before.cancel moves ?_ home
      intro task membership
      rcases List.mem_map.mp membership with ⟨source, sourceMem, rfl⟩
      unfold Update.onValue
      split
      · rfl
      · next kept => simpa [cancelUnfinished, graph.task_home source sourceMem] using kept
  | suspend membership running fresh freshId =>
      exact before.suspend membership moves rfl rfl fresh freshId
  | approve membership waiting requestMem pending id taskId =>
      exact before.resolve membership moves requestMem id taskId
  | reject membership waiting requestMem pending id taskId =>
      rw [emit, fail_approvals]
      exact before.resolve membership moves requestMem id taskId

end Run

end WorkflowEngine
