import WorkflowEngine.Workflow.Run.Counter
import WorkflowEngine.Workflow.Run.Shape

/-!
# Dependency order

`remainingDeps` counts the parents that are not COMPLETED while the run is live,
a task only leaves PENDING when all its parents are COMPLETED, and a RUNNING run
leaves no task PENDING whose parents are done.
-/

namespace WorkflowEngine

open DocStore Counting

variable {Val : Type}

namespace Run

/-- No task with this key is COMPLETED. -/
def missing (tasks : List (Task Val)) (dep : Key) : Bool :=
  !tasks.any fun task => decide (task.key = dep) && decide (task.status = .completed)

structure Ordered (status : ExecutionStatus) (tasks : List (Task Val)) : Prop where
  remaining : status.live = true → ∀ task ∈ tasks,
    task.remainingDeps = task.dependsOn.countP (missing tasks)
  enabled : ∀ task ∈ tasks, task.status ≠ .pending → task.status ≠ .cancelled →
    ∀ dep ∈ task.dependsOn, missing tasks dep = false
  promoted : status = .running → ∀ task ∈ tasks, task.status = .pending →
    task.remainingDeps ≠ 0

theorem missing_eq_false {tasks : List (Task Val)} {dep : Key} :
    missing tasks dep = false ↔ ∃ task ∈ tasks, task.key = dep ∧ task.status = .completed := by
  simp [missing]

variable {status later : ExecutionStatus} {tasks : List (Task Val)}

namespace Ordered

/-- While the run is live, a task without remaining dependencies is enabled. -/
theorem enabled_of_zero (ordered : Ordered status tasks) (live : status.live = true)
    {task : Task Val} (membership : task ∈ tasks) (zero : task.remainingDeps = 0) :
    ∀ dep ∈ task.dependsOn, missing tasks dep = false := by
  intro dep isDep
  have none := ordered.remaining live task membership
  rw [zero] at none
  simpa using List.countP_eq_zero.mp (Int.ofNat_eq_zero.mp none.symm) dep isDep

/-- A map that completes no task and loses no enabled one. -/
theorem map_image (ordered : Ordered status tasks) {image : Task Val → Task Val}
    (key : ∀ task ∈ tasks, (image task).key = task.key)
    (dependsOn : ∀ task ∈ tasks, (image task).dependsOn = task.dependsOn)
    (completed : ∀ task ∈ tasks, ((image task).status = .completed ↔ task.status = .completed))
    (live : later.live = true → status.live = true)
    (remaining : later.live = true → ∀ task ∈ tasks,
      (image task).remainingDeps = task.remainingDeps)
    (enabled : ∀ task ∈ tasks, (image task).status ≠ .pending → (image task).status ≠ .cancelled →
      task.status ≠ .pending ∧ task.status ≠ .cancelled ∨
        status.live = true ∧ task.remainingDeps = 0)
    (promoted : later = .running → ∀ task ∈ tasks, (image task).status = .pending →
      status = .running ∧ task.status = .pending ∨ task.remainingDeps ≠ 0) :
    Ordered later (tasks.map image) := by
  have same : missing (tasks.map image) = missing tasks := by
    funext dep
    rw [Bool.eq_iff_iff, ← not_iff_not, Bool.not_eq_true, Bool.not_eq_true, missing_eq_false,
      missing_eq_false]
    constructor
    · rintro ⟨task, membership, same, done⟩
      rcases List.mem_map.mp membership with ⟨source, sourceMem, rfl⟩
      exact ⟨source, sourceMem, key source sourceMem ▸ same, (completed source sourceMem).mp done⟩
    · rintro ⟨task, membership, same, done⟩
      exact ⟨image task, List.mem_map_of_mem membership, (key task membership).trans same,
        (completed task membership).mpr done⟩
  constructor
  · intro laterLive task membership
    rcases List.mem_map.mp membership with ⟨source, sourceMem, rfl⟩
    rw [same, dependsOn source sourceMem, remaining laterLive source sourceMem]
    exact ordered.remaining (live laterLive) source sourceMem
  · intro task membership notPending notCancelled dep isDep
    rcases List.mem_map.mp membership with ⟨source, sourceMem, rfl⟩
    rw [dependsOn source sourceMem] at isDep
    rw [same]
    rcases enabled source sourceMem notPending notCancelled with ⟨before, before'⟩ | ⟨was, zero⟩
    · exact ordered.enabled source sourceMem before before' dep isDep
    · exact ordered.enabled_of_zero was sourceMem zero dep isDep
  · intro laterRunning task membership pending
    rcases List.mem_map.mp membership with ⟨source, sourceMem, rfl⟩
    rw [remaining (by rw [laterRunning]; rfl) source sourceMem]
    rcases promoted laterRunning source sourceMem pending with ⟨running, before⟩ | nonzero
    · exact ordered.promoted running source sourceMem before
    · exact nonzero

/-- A started task is replaced by one that is not COMPLETED. -/
theorem replace (ordered : Ordered status tasks) (nodup : (tasks.map (·.key)).Nodup)
    {task replacement : Task Val} (membership : task ∈ tasks)
    (shape : replacement.shape = task.shape)
    (remainingDeps : replacement.remainingDeps = task.remainingDeps)
    (before : task.status ≠ .pending ∧ task.status ≠ .cancelled ∧ task.status ≠ .completed)
    (after : replacement.status ≠ .pending ∧ replacement.status ≠ .completed) :
    Ordered status (replaceIn replacement tasks) := by
  have key : replacement.key = task.key := congrArg TaskShape.key shape
  have dependsOn : replacement.dependsOn = task.dependsOn := congrArg TaskShape.dependsOn shape
  have isTask : ∀ other ∈ tasks, other.key = replacement.key → other = task :=
    fun other otherMem same => List.inj_on_of_nodup_map nodup otherMem membership (same.trans key)
  apply ordered.map_image
  · intro other _
    split
    · next same => exact same.symm
    · rfl
  · intro other otherMem
    split
    · next same =>
      cases isTask other otherMem same
      exact dependsOn
    · rfl
  · intro other otherMem
    split
    · next same =>
      cases isTask other otherMem same
      exact ⟨fun done => absurd done after.2, fun done => absurd done before.2.2⟩
    · exact Iff.rfl
  · exact id
  · intro _ other otherMem
    split
    · next same =>
      cases isTask other otherMem same
      exact remainingDeps
    · rfl
  · intro other otherMem
    split
    · next same =>
      cases isTask other otherMem same
      exact fun _ _ => .inl ⟨before.1, before.2.1⟩
    · exact fun notPending notCancelled => .inl ⟨notPending, notCancelled⟩
  · intro running other otherMem
    split
    · exact fun pending => absurd pending after.1
    · exact fun pending => .inl ⟨running, pending⟩

end Ordered

/-! ## A parent succeeds -/

section Released

variable {parent task : Task Val} {now : Time}

theorem released_shape : (released status parent now task).shape = task.shape := by
  rcases released_cases status parent now task with ⟨_, same⟩ | ⟨_, _, same⟩ <;> rw [same] <;> rfl

/-- Every child of the parent counts one dependency less. -/
theorem released_remainingDeps (home : task.executionId = parent.executionId)
    (live : status.live = true) :
    (released status parent now task).remainingDeps =
      task.remainingDeps - if task.key ∈ parent.dependents then 1 else 0 := by
  simp only [released, live, if_true, Update.onValue, decrementChildren, promoteChildren, home,
    beq_self_eq_true, Bool.true_and, decide_eq_true_eq]
  split_ifs <;> simp

/-- Only a task without remaining dependencies is promoted. -/
theorem released_promoted (home : task.executionId = parent.executionId)
    (pending : task.status = .pending)
    (left : (released status parent now task).status ≠ .pending) :
    status.live = true ∧ (released status parent now task).remainingDeps = 0 := by
  simp only [released, Update.onValue, decrementChildren, promoteChildren, home,
    beq_self_eq_true, Bool.true_and, decide_eq_true_eq] at left ⊢
  split_ifs at left ⊢ <;> simp_all

/-- A child that stays PENDING in a RUNNING run still waits for a parent. -/
theorem released_pending (home : task.executionId = parent.executionId)
    (running : status = .running)
    (pending : (released status parent now task).status = .pending) :
    task.status = .pending ∧ ((released status parent now task).remainingDeps ≠ 0 ∨
      task.key ∉ parent.dependents) := by
  subst running
  simp only [released, ExecutionStatus.live, Update.onValue, decrementChildren, promoteChildren,
    home, beq_self_eq_true, Bool.true_and, decide_eq_true_eq] at pending ⊢
  split_ifs at pending ⊢ <;> simp_all

end Released

namespace Ordered

variable {run : Run Val}

/-- A success completes one task and releases its children. -/
theorem succeed (ordered : Ordered run.execution.status run.tasks)
    (graph : GraphValid run.execution.id run.shapes)
    {task : Task Val} (membership : task ∈ run.tasks) (replacement : Task Val)
    (shape : replacement.shape = task.shape)
    (remainingDeps : replacement.remainingDeps = task.remainingDeps)
    (before : task.status ≠ .pending ∧ task.status ≠ .cancelled ∧ task.status ≠ .completed)
    (after : replacement.status = .completed) (now : Time) :
    Ordered (counted now run.execution).status
      ((replaceIn replacement run.tasks).map
        (released run.execution.status replacement now)) := by
  have key : replacement.key = task.key := congrArg TaskShape.key shape
  have dependents : replacement.dependents = task.dependents :=
    congrArg TaskShape.dependents shape
  have home : ∀ other ∈ run.tasks, other.executionId = replacement.executionId := by
    intro other otherMem
    rw [graph.task_home other otherMem, ← graph.task_home task membership]
    exact (congrArg TaskShape.executionId shape).symm
  -- `replaced` is what a task is before the release
  let replaced (other : Task Val) : Task Val :=
    if other.key = replacement.key then replacement else other
  have replaced_cases : ∀ other ∈ run.tasks,
      other = task ∧ replaced other = replacement ∨
        other.key ≠ task.key ∧ replaced other = other := by
    intro other otherMem
    by_cases same : other.key = task.key
    · exact .inl ⟨graph.eq_of_key otherMem membership same, if_pos (same.trans key.symm)⟩
    · exact .inr ⟨same, if_neg (key ▸ same)⟩
  have replaced_shape : ∀ other ∈ run.tasks, (replaced other).shape = other.shape := by
    intro other otherMem
    rcases replaced_cases other otherMem with ⟨rfl, same⟩ | ⟨_, same⟩
    · rw [same, shape]
    · rw [same]
  have replaced_home : ∀ other ∈ run.tasks,
      (replaced other).executionId = replacement.executionId := by
    intro other otherMem
    rw [← home other otherMem]
    exact congrArg TaskShape.executionId (replaced_shape other otherMem)
  have replaced_key : ∀ other ∈ run.tasks, (replaced other).key = other.key :=
    fun other otherMem => congrArg TaskShape.key (replaced_shape other otherMem)
  have image_shape : ∀ other ∈ run.tasks,
      (released run.execution.status replacement now (replaced other)).shape = other.shape :=
    fun other otherMem => released_shape.trans (replaced_shape other otherMem)
  have tasks_eq : (replaceIn replacement run.tasks).map
      (released run.execution.status replacement now) =
        run.tasks.map fun other => released run.execution.status replacement now (replaced other) := by
    rw [replaceIn, List.map_map]
    rfl
  -- the replacement is the only task that became COMPLETED
  have completed_iff : ∀ other ∈ run.tasks,
      ((released run.execution.status replacement now (replaced other)).status = .completed ↔
        other.status = .completed ∨ other.key = task.key) := by
    intro other otherMem
    rcases replaced_cases other otherMem with ⟨rfl, same⟩ | ⟨different, same⟩
    · rw [same]
      rcases released_status run.execution.status replacement now replacement with kept | ⟨pending, _⟩
      · rw [kept, after]
        simp
      · rw [after] at pending
        cases pending
    · rw [same]
      rcases released_status run.execution.status replacement now other with kept | ⟨pending, ready⟩
      · rw [kept]
        simp [different]
      · rw [ready, pending]
        simp [different]
  have wasMissing : missing run.tasks task.key = true := by
    by_contra done
    rcases missing_eq_false.mp (Bool.not_eq_true _ ▸ done) with ⟨other, otherMem, same, done⟩
    cases graph.eq_of_key otherMem membership same
    exact before.2.2 done
  rw [tasks_eq]
  let image (other : Task Val) : Task Val :=
    released run.execution.status replacement now (replaced other)
  show Ordered (counted now run.execution).status (run.tasks.map image)
  have missing_iff : ∀ dep, missing (run.tasks.map image) dep = false ↔
      missing run.tasks dep = false ∨ dep = task.key := by
    intro dep
    rw [missing_eq_false, missing_eq_false]
    constructor
    · rintro ⟨other, otherMem, rfl, done⟩
      rcases List.mem_map.mp otherMem with ⟨source, sourceMem, rfl⟩
      have sourceKey : (image source).key = source.key :=
        congrArg TaskShape.key (image_shape source sourceMem)
      rcases (completed_iff source sourceMem).mp done with done | same
      · exact .inl ⟨source, sourceMem, sourceKey.symm, done⟩
      · exact .inr (sourceKey.trans same)
    · rintro (⟨other, otherMem, rfl, done⟩ | rfl)
      · exact ⟨image other, List.mem_map_of_mem otherMem,
          congrArg TaskShape.key (image_shape other otherMem),
          (completed_iff other otherMem).mpr (.inl done)⟩
      · exact ⟨image task, List.mem_map_of_mem membership,
          congrArg TaskShape.key (image_shape task membership),
          (completed_iff task membership).mpr (.inr rfl)⟩
  have missing_others : ∀ dep, dep ≠ task.key →
      missing (run.tasks.map image) dep = missing run.tasks dep := by
    intro dep different
    have same := missing_iff dep
    simp only [different, or_false] at same
    exact Bool.eq_iff_iff.mpr (not_iff_not.mp (by simpa using same))
  have count : ∀ other ∈ run.tasks, (other.dependsOn.countP (missing run.tasks) : Int) =
      other.dependsOn.countP (missing (run.tasks.map image)) +
        if task.key ∈ other.dependsOn then 1 else 0 := by
    intro other otherMem
    have leave := countP_leave (graph.deps_nodup _ (shape_mem otherMem)) wasMissing
      ((missing_iff task.key).mpr (.inr rfl)) missing_others
    rw [show other.shape.dependsOn = other.dependsOn from rfl] at leave
    rw [leave]
    split <;> simp
  have liveBefore : (counted now run.execution).status.live = true →
      run.execution.status.live = true := by
    unfold counted
    split
    · intro alive
      cases alive
    · exact id
  have isChild : ∀ other ∈ run.tasks,
      ((replaced other).key ∈ replacement.dependents ↔ task.key ∈ other.dependsOn) := by
    intro other otherMem
    rw [replaced_key other otherMem, dependents]
    exact graph.mem_dependents otherMem membership
  have replaced_remaining : ∀ other ∈ run.tasks,
      (replaced other).remainingDeps = other.remainingDeps := by
    intro other otherMem
    rcases replaced_cases other otherMem with ⟨rfl, same⟩ | ⟨_, same⟩
    · rw [same, remainingDeps]
    · rw [same]
  have remaining : run.execution.status.live = true → ∀ other ∈ run.tasks,
      (image other).remainingDeps =
        other.dependsOn.countP (missing (run.tasks.map image)) := by
    intro live other otherMem
    have total := count other otherMem
    rw [← ordered.remaining live other otherMem] at total
    rw [released_remainingDeps (replaced_home other otherMem) live,
      replaced_remaining other otherMem, total]
    simp only [isChild other otherMem]
    omega
  constructor
  · intro live other otherMem
    rcases List.mem_map.mp otherMem with ⟨source, sourceMem, rfl⟩
    rw [show (image source).dependsOn = source.dependsOn from
      congrArg TaskShape.dependsOn (image_shape source sourceMem)]
    exact remaining (liveBefore live) source sourceMem
  · intro other otherMem notPending notCancelled dep isDep
    rcases List.mem_map.mp otherMem with ⟨source, sourceMem, rfl⟩
    rw [show (image source).dependsOn = source.dependsOn from
      congrArg TaskShape.dependsOn (image_shape source sourceMem)] at isDep
    by_cases wasPending : (replaced source).status = .pending
    · -- promoted just now, so nothing remains
      rcases released_promoted (replaced_home source sourceMem) wasPending notPending with
        ⟨live, zero⟩
      have none := remaining live source sourceMem
      rw [zero] at none
      simpa using List.countP_eq_zero.mp (Int.ofNat_eq_zero.mp none.symm) dep isDep
    · have kept : (image source).status = (replaced source).status := by
        rcases released_status run.execution.status replacement now (replaced source) with
          same | ⟨pending, _⟩
        · exact same
        · exact absurd pending wasPending
      have started : source.status ≠ .pending ∧ source.status ≠ .cancelled := by
        rcases replaced_cases source sourceMem with ⟨rfl, _⟩ | ⟨_, same⟩
        · exact ⟨before.1, before.2.1⟩
        · rw [kept, same] at notCancelled
          exact ⟨same ▸ wasPending, notCancelled⟩
      exact (missing_iff dep).mpr
        (.inl (ordered.enabled source sourceMem started.1 started.2 dep isDep))
  · intro running other otherMem pending
    rcases List.mem_map.mp otherMem with ⟨source, sourceMem, rfl⟩
    have wasRunning : run.execution.status = .running := by
      unfold counted at running
      split at running
      · cases running
      · exact running
    have live : run.execution.status.live = true := by
      rw [wasRunning]
      rfl
    rcases released_pending (replaced_home source sourceMem) wasRunning pending with
      ⟨wasPending, nonzero | notChild⟩
    · exact nonzero
    · have same : replaced source = source := by
        rcases replaced_cases source sourceMem with ⟨rfl, same⟩ | ⟨_, same⟩
        · rw [same, after] at wasPending
          cases wasPending
        · exact same
      show (released run.execution.status replacement now (replaced source)).remainingDeps ≠ 0
      rw [released_remainingDeps (replaced_home source sourceMem) live, if_neg notChild,
        replaced_remaining source sourceMem]
      rw [same] at wasPending
      simpa using ordered.promoted wasRunning source sourceMem wasPending

/-- A failure for good completes nothing. -/
theorem fail (ordered : Ordered status tasks) (nodup : (tasks.map (·.key)).Nodup)
    {task : Task Val} (membership : task ∈ tasks) (replacement : Task Val)
    (shape : replacement.shape = task.shape)
    (remainingDeps : replacement.remainingDeps = task.remainingDeps)
    (before : task.status ≠ .pending ∧ task.status ≠ .cancelled ∧ task.status ≠ .completed)
    (after : replacement.status ≠ .pending ∧ replacement.status ≠ .completed) {report : Task Val}
    {outcome : FailureOutcome} {message : String} {retryable : Bool} {missed : Key → Bool}
    {now : Time} {run : Run Val} (status_eq : run.execution.status = status)
    (tasks_eq : run.tasks = replaceIn replacement tasks) :
    Ordered (Run.fail report outcome message retryable missed now run).execution.status
      (Run.fail report outcome message retryable missed now run).tasks := by
  have replaced := ordered.replace nodup membership shape remainingDeps before after
  unfold Run.fail
  rw [tasks_eq]
  split
  · apply replaced.map_image
    · intro other _
      unfold failedFast
      split <;> rfl
    · intro other _
      unfold failedFast
      split <;> rfl
    · intro other _
      unfold failedFast
      split
      · next cancelled =>
        simp only [hit, Bool.and_eq_true] at cancelled
        constructor
        · intro alive
          cases alive
        · intro done
          rw [done] at cancelled
          exact absurd cancelled.1 (by intro same; cases same)
      · exact Iff.rfl
    · intro alive
      cases alive
    · intro alive
      cases alive
    · intro other _
      unfold failedFast
      split
      · exact fun _ notCancelled => absurd rfl notCancelled
      · exact fun notPending notCancelled => .inl ⟨notPending, notCancelled⟩
    · intro alive
      cases alive
  · rw [status_eq]
    exact replaced

theorem resume {execution : WorkflowExecution Val} (ordered : Ordered execution.status tasks)
    (paused : execution.status = .paused)
    (home : ∀ task ∈ tasks, task.executionId = execution.id) (now : Time) :
    Ordered (resumed now execution).status
      (tasks.map (promotePending execution.id now).onValue) := by
  have live : execution.status.live = true := by
    rw [paused]
    rfl
  apply ordered.map_image
  · intro task _
    rcases promotePending_cases execution.id now task with same | ⟨_, same⟩ <;> rw [same]
  · intro task _
    rcases promotePending_cases execution.id now task with same | ⟨_, same⟩ <;> rw [same]
  · intro task _
    rcases promotePending_cases execution.id now task with same | ⟨pending, same⟩
    · rw [same]
    · rw [same, pending]
      exact ⟨nofun, nofun⟩
  · exact fun _ => live
  · intro _ task _
    rcases promotePending_cases execution.id now task with same | ⟨_, same⟩ <;> rw [same]
  · intro task membership notPending notCancelled
    unfold Update.onValue at notPending notCancelled
    split at notPending
    · next ready =>
      simp only [promotePending, Bool.and_eq_true, beq_iff_eq] at ready
      exact .inr ⟨live, ready.2⟩
    · next kept =>
      rw [if_neg kept] at notCancelled
      exact .inl ⟨notPending, notCancelled⟩
  · intro _ task membership pending
    unfold Update.onValue at pending
    split at pending
    · cases pending
    · next kept =>
      refine .inr fun zero => kept ?_
      simp [promotePending, home task membership, pending, zero]

theorem cancel {execution : WorkflowExecution Val} (ordered : Ordered status tasks)
    (now : Time) :
    Ordered .cancelled (tasks.map (cancelUnfinished execution.id now).onValue) := by
  apply ordered.map_image
  · intro task _
    unfold Update.onValue
    split <;> rfl
  · intro task _
    unfold Update.onValue
    split <;> rfl
  · intro task _
    unfold Update.onValue
    split
    · next unfinished =>
      simp only [cancelUnfinished, Bool.and_eq_true] at unfinished
      constructor
      · intro alive
        cases alive
      · intro done
        rw [done] at unfinished
        exact absurd unfinished.2 (by intro same; cases same)
    · exact Iff.rfl
  · intro alive
    cases alive
  · intro alive
    cases alive
  · intro task _
    unfold Update.onValue
    split
    · exact fun _ notCancelled => absurd rfl notCancelled
    · exact fun notPending notCancelled => .inl ⟨notPending, notCancelled⟩
  · intro alive
    cases alive

theorem pause (ordered : Ordered status tasks) (running : status = .running) :
    Ordered .paused tasks :=
  ⟨fun _ => ordered.remaining (by rw [running]; rfl), ordered.enabled, nofun⟩

end Ordered

/-! ## Every step -/

theorem started_of_claimable {task : Task Val} {now : Time} (free : claimable now task = true) :
    task.status ≠ .pending ∧ task.status ≠ .cancelled ∧ task.status ≠ .completed := by
  cases status : task.status <;> simp [claimable, status] at free <;> simp

/-- Dependency order is kept by every step of a run. -/
theorem Step.ordered [Mixed Val] {missed : Key → Bool} {label : Option (Reply Val)}
    {run next : Run Val} (graph : GraphValid run.execution.id run.shapes)
    (step : Step missed label run next) (before : Ordered run.execution.status run.tasks) :
    Ordered next.execution.status next.tasks := by
  have nodup := graph.tasks_nodup
  cases step with
  | pause running => exact before.pause running
  | resume paused => exact before.resume paused graph.task_home _
  | cancel live => exact before.cancel _
  | announce => exact before
  | dispatch membership ready =>
      exact before.replace nodup membership rfl rfl (by simp [ready]) ⟨nofun, nofun⟩
  | claim membership free =>
      exact before.replace nodup membership rfl rfl (started_of_claimable free) ⟨nofun, nofun⟩
  | @renew _ task _ _ membership running =>
      have started : task.status ≠ .pending ∧ task.status ≠ .cancelled ∧
          task.status ≠ .completed := by
        simp [running]
      exact before.replace nodup membership rfl rfl started ⟨started.1, started.2.2⟩
  | retry membership running =>
      exact before.replace nodup membership rfl rfl (by simp [running]) ⟨nofun, nofun⟩
  | suspend membership running =>
      exact before.replace nodup membership rfl rfl (by simp [running]) ⟨nofun, nofun⟩
  | @complete _ task output now membership running =>
      exact before.succeed graph membership
        (moved .completed (completion task.leaseToken output now) task) rfl rfl
        (by simp [running]) rfl _
  | @approve _ task _ params now membership waiting =>
      exact before.succeed graph membership (moved .completed (approvedTask params now) task) rfl
        rfl (by simp [waiting]) rfl _
  | @fail _ task error now membership running =>
      refine before.fail nodup membership (moved (failureOutcome task (isRetryable error)).status
        (failure task.leaseToken (failureMessage error) now) task) rfl rfl
        (by simp [running]) ?_ rfl rfl
      cases outcome : failureOutcome task (isRetryable error) <;> exact ⟨nofun, nofun⟩
  | @reject _ task _ params now membership waiting =>
      exact before.fail nodup membership (moved .failed (rejectedTask params now) task) rfl rfl
        (by simp [waiting]) ⟨nofun, nofun⟩ rfl rfl

end Run

end WorkflowEngine
