import WorkflowEngine.Workflow.Keyed
import WorkflowEngine.Workflow.Run.Invariant

/-!
# The runs of a database

The invariant of a committed database is that every execution of it is a run of the
abstract system.  A committed step changes one run, or starts one, and leaves the
others alone; what it does to the documents of the run is a `Change`.
-/

namespace WorkflowEngine

open DocStore

variable {Val : Type}

namespace Db

theorem mem_runOf_tasks {db : Db Val} {execution : WorkflowExecution Val} {task : Task Val} :
    task ∈ (db.runOf execution).tasks ↔
      task ∈ db.tasks.values ∧ task.executionId = execution.id := by
  simp only [runOf, List.mem_filter, beq_iff_eq]

theorem mem_runOf_approvals {db : Db Val} {execution : WorkflowExecution Val}
    {request : ApprovalRequest Val} :
    request ∈ (db.runOf execution).approvals ↔
      request ∈ db.approvals.values ∧ request.executionId = execution.id := by
  simp only [runOf, List.mem_filter, beq_iff_eq]

theorem countP_runOf {db : Db Val} {execution : WorkflowExecution Val} (counts : Task Val → Bool) :
    (db.runOf execution).tasks.countP counts =
      db.tasks.countP fun doc => doc.val.executionId == execution.id && counts doc.val := by
  rw [runOf, List.countP_filter, Collection.values, List.countP_map]
  apply List.countP_congr
  intro doc _
  rw [Function.comp_apply, Bool.and_comm]

variable [Mixed Val]

/-- Every document belongs to an execution, and every execution is a run. -/
structure Inv (db : Db Val) : Prop where
  keyed : db.Keyed
  taskHome : ∀ task ∈ db.tasks.values, task.executionId ∈ db.executions.ids
  approvalHome : ∀ request ∈ db.approvals.values, request.executionId ∈ db.executions.ids
  eventHome : ∀ row ∈ db.outbox.values, row.aggregateId ∈ db.executions.ids
  reached : ∀ execution ∈ db.executions.values,
    ∃ params, Run.Reached params (db.runOf execution)

/-- Every collection extends the earlier one. -/
structure Grows (earlier later : Db Val) : Prop where
  executions : Collection.Extends earlier.executions later.executions
  tasks : Collection.Extends earlier.tasks later.tasks
  attempts : Collection.Extends earlier.attempts later.attempts
  approvals : Collection.Extends earlier.approvals later.approvals
  outbox : Collection.Extends earlier.outbox later.outbox

/-- The second database is a later version of the first one. -/
structure Since (earlier later : Db Val) : Prop extends Grows earlier later where
  runs : ∀ execution ∈ earlier.executions.values, ∃ next ∈ later.executions.values,
    next.id = execution.id ∧ (earlier.runOf execution).Evolves (later.runOf next)

omit [Mixed Val] in
theorem grows_patch (db : Db Val) (patch : Patch Val) : Grows db (db.patch patch) :=
  ⟨.rewrite _ _ _, .rewrite _ _ _, .rewrite _ _ _, .rewrite _ _ _, .rewrite _ _ _⟩

theorem inv_empty : Inv (Db.empty : Db Val) :=
  ⟨⟨.nil, .nil, .nil, .nil, .nil⟩, fun _ absurdity => absurd absurdity List.not_mem_nil,
    fun _ absurdity => absurd absurdity List.not_mem_nil,
    fun _ absurdity => absurd absurdity List.not_mem_nil,
    fun _ absurdity => absurd absurdity List.not_mem_nil⟩

namespace Inv

variable {db : Db Val} (inv : db.Inv)
include inv

theorem runInv {execution : WorkflowExecution Val} (membership : execution ∈ db.executions.values) :
    Run.Inv (db.runOf execution) := by
  rcases inv.reached execution membership with ⟨params, reached⟩
  exact reached.inv

/-- The run of a task. -/
theorem exists_run {task : Task Val} (membership : task ∈ db.tasks.values) :
    ∃ execution ∈ db.executions.values, execution.id = task.executionId ∧
      task ∈ (db.runOf execution).tasks := by
  rcases Collection.mem_ids.mp (inv.taskHome task membership) with
    ⟨execution, executionMem, same⟩
  exact ⟨execution, executionMem, same, mem_runOf_tasks.mpr ⟨membership, same.symm⟩⟩

/-- The run of a request is the run of its task. -/
theorem approval_home {request : ApprovalRequest Val} (membership : request ∈ db.approvals.values) :
    request.executionId = request.taskId.executionId := by
  rcases Collection.mem_ids.mp (inv.approvalHome request membership) with
    ⟨execution, executionMem, same⟩
  rcases (inv.runInv executionMem).inStep.agrees request
    (mem_runOf_approvals.mpr ⟨membership, same.symm⟩) with ⟨task, taskMem, taskId, _⟩
  rw [← taskId]
  exact same.symm.trans (mem_runOf_tasks.mp taskMem).2.symm

theorem eq_of_id {left right : WorkflowExecution Val} (leftMem : left ∈ db.executions.values)
    (rightMem : right ∈ db.executions.values) (same : left.id = right.id) : left = right :=
  Collection.value_eq_of_id_eq inv.keyed.executions leftMem rightMem same

theorem task_eq_of_id {left right : Task Val} (leftMem : left ∈ db.tasks.values)
    (rightMem : right ∈ db.tasks.values) (same : left.id = right.id) : left = right :=
  Collection.value_eq_of_id_eq inv.keyed.tasks leftMem rightMem same

theorem findById_task {task : Task Val} (membership : task ∈ db.tasks.values) :
    db.tasks.findById task.id = some task :=
  (Collection.findById_eq_some inv.keyed.tasks).mpr ⟨membership, rfl⟩

end Inv

namespace Since

omit [Mixed Val] in
theorem refl (db : Db Val) : Since db db :=
  ⟨⟨.refl _, .refl _, .refl _, .refl _, .refl _⟩,
    fun execution membership => ⟨execution, membership, rfl, .refl _⟩⟩

omit [Mixed Val] in
theorem trans {first second third : Db Val} (before : Since first second)
    (after : Since second third) : Since first third := by
  refine ⟨⟨before.executions.trans after.executions, before.tasks.trans after.tasks,
    before.attempts.trans after.attempts, before.approvals.trans after.approvals,
    before.outbox.trans after.outbox⟩, ?_⟩
  intro execution membership
  rcases before.runs execution membership with ⟨middle, middleMem, middleId, evolves⟩
  rcases after.runs middle middleMem with ⟨last, lastMem, lastId, evolves'⟩
  exact ⟨last, lastMem, lastId.trans middleId, evolves.trans evolves'⟩

end Since

/-! ## Committed steps -/

/-- What a committed step with this label makes of the runs of `db`.  `missed` are
the tasks its snapshot showed RUNNING. -/
inductive Next (missed : TaskId → Bool) (label : Option (Reply Val)) (db : Db Val) :
    Run Val → Prop where
  | same {execution : WorkflowExecution Val} :
      execution ∈ db.executions.values → label.bind Reply.target ≠ some execution.id →
      Next missed label db (db.runOf execution)
  | step {execution : WorkflowExecution Val} {run : Run Val} :
      execution ∈ db.executions.values →
      Run.Step (fun key => missed ⟨execution.id, key⟩) label (db.runOf execution) run →
      Next missed label db run
  | start {env : Env} {params : StartParams Val} :
      label = some (.startExecution params (newExecution env params)) →
      (validateDag (params.workflow.tasks.map TaskDefinition.toDagTask)).valid = true →
      env.objectId ∉ db.executions.ids →
      Next missed label db (Run.start env params)

/-- A committed step. -/
structure Advances (missed : TaskId → Bool) (label : Option (Reply Val)) (db next : Db Val) :
    Prop where
  inv : next.Inv
  since : Since db next
  target : ∀ executionId, label.bind Reply.target = some executionId →
    executionId ∈ next.executions.ids
  runs : ∀ execution ∈ next.executions.values, Next missed label db (next.runOf execution)

/-- A step that changes no run. -/
theorem Advances.unchanged {missed : TaskId → Bool} {label : Option (Reply Val)} {db : Db Val}
    (inv : db.Inv) (idle : label.bind Reply.target = none) : Advances missed label db db := by
  refine ⟨inv, .refl db, ?_, ?_⟩
  · intro executionId named
    rw [idle] at named
    cases named
  · intro execution membership
    exact .same membership (by rw [idle]; nofun)

/-- What a committed step does to a run that was there before. -/
theorem Advances.forward {missed : TaskId → Bool} {label : Option (Reply Val)} {db next : Db Val}
    (advances : Advances missed label db next) (inv : db.Inv) {execution : WorkflowExecution Val}
    (membership : execution ∈ db.executions.values) :
    ∃ later ∈ next.executions.values, later.id = execution.id ∧
      (label.bind Reply.target ≠ some execution.id ∧ next.runOf later = db.runOf execution ∨
        Run.Step (fun key => missed ⟨execution.id, key⟩) label (db.runOf execution)
          (next.runOf later)) := by
  rcases advances.since.runs execution membership with ⟨later, laterMem, laterId, _⟩
  refine ⟨later, laterMem, laterId, ?_⟩
  have advanced := advances.runs later laterMem
  have isLater : (next.runOf later).execution = later := rfl
  generalize next.runOf later = run at advanced isLater ⊢
  cases advanced with
  | @same other member unnamed =>
      have same : other = execution := inv.eq_of_id member membership (by rw [← laterId, ← isLater]; rfl)
      exact same ▸ .inl ⟨unnamed, rfl⟩
  | @step other _ member taken =>
      have sameId : other.id = execution.id := by
        rw [← laterId, ← isLater]
        exact taken.execution_id.symm
      have same : other = execution := inv.eq_of_id member membership sameId
      exact same ▸ .inr taken
  | start named accepted fresh =>
      refine absurd (Collection.mem_ids.mpr ⟨execution, membership, ?_⟩) fresh
      rw [document_id_execution, ← laterId, ← isLater]
      rfl

end Db

/-! ## Changes of one run -/

/-- The label of a step names the run it changes. -/
theorem Run.Step.target [Mixed Val] {missed : Key → Bool} {label : Option (Reply Val)}
    {run next : Run Val} (step : Run.Step missed label run next)
    (home : ∀ task ∈ run.tasks, task.executionId = run.execution.id)
    {executionId : ExecutionId} (named : label.bind Reply.target = some executionId) :
    executionId = run.execution.id := by
  have ofTask : ∀ task ∈ run.tasks, some task.executionId = some executionId →
      executionId = run.execution.id := by
    intro task membership same
    rw [← Option.some.inj same, home task membership]
  cases step with
  | pause | resume | cancel => exact (Option.some.inj named).symm
  | announce => cases named
  | dispatch membership => exact ofTask _ membership named
  | claim membership => exact ofTask _ membership named
  | renew membership => exact ofTask _ membership named
  | complete membership => exact ofTask _ membership named
  | retry membership => exact ofTask _ membership named
  | fail membership => exact ofTask _ membership named
  | suspend membership => exact ofTask _ membership named
  | approve membership => exact ofTask _ membership named
  | reject membership => exact ofTask _ membership named

/-- What happens to the documents of one run. -/
structure Change (Val : Type) where
  execution : WorkflowExecution Val
  task : Task Val → Task Val := fun task => task
  approval : ApprovalRequest Val → ApprovalRequest Val := fun request => request
  newApprovals : List (ApprovalRequest Val) := []
  events : List (EventType × EventPayload) := []

def Run.change (change : Change Val) (run : Run Val) : Run Val :=
  { execution := change.execution
    tasks := run.tasks.map change.task
    approvals := run.approvals.map change.approval ++ change.newApprovals
    events := run.events ++ change.events }

namespace Db

/-- The database after a change of one run. -/
structure Changed (db next : Db Val) (execution : WorkflowExecution Val) (change : Change Val) :
    Prop where
  member : execution ∈ db.executions.values
  executions : next.executions.values = db.executions.values.map fun other =>
    if (other.id == execution.id) = true then change.execution else other
  tasks : next.tasks.values = db.tasks.values.map fun task =>
    if (task.executionId == execution.id) = true then change.task task else task
  approvals : next.approvals.values = (db.approvals.values.map fun request =>
    if (request.executionId == execution.id) = true then change.approval request else request) ++
      change.newApprovals
  outbox : ∃ rows, Describes execution.id change.events rows ∧
    next.outbox.values = db.outbox.values ++ rows
  executionIds : next.executions.ids = db.executions.ids
  taskIds : next.tasks.ids = db.tasks.ids
  approvalHome : ∀ request ∈ db.approvals.values, request.executionId = execution.id →
    (change.approval request).executionId = execution.id
  newApprovalHome : ∀ request ∈ change.newApprovals, request.executionId = execution.id

namespace Changed

variable {db next : Db Val} {execution : WorkflowExecution Val} {change : Change Val}

private theorem image_id {V I : Type} [Document V I] {values : List V} {image : V → V}
    (same : (values.map image).map Document.id = values.map (Document.id (V := V))) :
    ∀ value ∈ values, (Document.id (image value) : I) = Document.id value := by
  rw [List.map_map] at same
  exact fun value membership => List.map_inj_left.mp same value membership

theorem execution_id (changed : db.Changed next execution change) :
    change.execution.id = execution.id := by
  have ids := changed.executionIds
  rw [← Collection.values_ids, ← Collection.values_ids, changed.executions] at ids
  have same := image_id ids execution changed.member
  rwa [if_pos (beq_self_eq_true execution.id)] at same

theorem task_home (changed : db.Changed next execution change) :
    ∀ task ∈ db.tasks.values, (task.executionId == execution.id) = true →
      ((change.task task).executionId == execution.id) = true := by
  intro task membership home
  have ids := changed.taskIds
  rw [← Collection.values_ids, ← Collection.values_ids, changed.tasks] at ids
  have same := image_id ids task membership
  rw [if_pos home] at same
  rw [show (change.task task).executionId = task.executionId from congrArg TaskId.executionId same]
  exact home

theorem approval_home (changed : db.Changed next execution change) :
    ∀ request ∈ db.approvals.values, (request.executionId == execution.id) = true →
      ((change.approval request).executionId == execution.id) = true := by
  intro request membership home
  exact beq_iff_eq.mpr (changed.approvalHome request membership (beq_iff_eq.mp home))

/-- The run of the changed execution. -/
theorem runOf_changed (changed : db.Changed next execution change) :
    next.runOf change.execution = (db.runOf execution).change change := by
  rcases changed.outbox with ⟨rows, describes, outbox⟩
  have newApprovals : change.newApprovals.filter (fun request =>
      request.executionId == execution.id) = change.newApprovals :=
    List.filter_eq_self.mpr fun request membership =>
      beq_iff_eq.mpr (changed.newApprovalHome request membership)
  have rows_eq : rows.filter (fun row => row.aggregateId == execution.id) = rows :=
    List.filter_eq_self.mpr fun row membership => beq_iff_eq.mpr (describes.about row membership)
  rw [Db.runOf, changed.execution_id, changed.tasks, changed.approvals, outbox,
    Counting.filter_map_class changed.task_home, List.filter_append,
    Counting.filter_map_class changed.approval_home, newApprovals, List.filter_append, rows_eq,
    List.map_append, describes.contents]
  rfl

/-- The other runs. -/
theorem runOf_other (changed : db.Changed next execution change)
    {other : WorkflowExecution Val} (different : other.id ≠ execution.id) :
    next.runOf other = db.runOf other := by
  rcases changed.outbox with ⟨rows, describes, outbox⟩
  have newApprovals : change.newApprovals.filter (fun request =>
      request.executionId == other.id) = [] := by
    apply List.filter_eq_nil_iff.mpr
    intro request membership same
    rw [changed.newApprovalHome request membership] at same
    exact different (beq_iff_eq.mp same).symm
  have rows_eq : rows.filter (fun row => row.aggregateId == other.id) = [] := by
    apply List.filter_eq_nil_iff.mpr
    intro row membership same
    rw [describes.about row membership] at same
    exact different (beq_iff_eq.mp same).symm
  have tasks_eq : next.tasks.values.filter (fun task => task.executionId == other.id) =
      db.tasks.values.filter fun task => task.executionId == other.id := by
    rw [changed.tasks]
    refine Counting.filter_map_other ?_ changed.task_home
    intro task home
    rw [beq_iff_eq.mp home]
    exact beq_false_of_ne different.symm
  have approvals_eq : next.approvals.values.filter (fun request =>
      request.executionId == other.id) =
        db.approvals.values.filter fun request => request.executionId == other.id := by
    rw [changed.approvals, List.filter_append, newApprovals, List.append_nil]
    refine Counting.filter_map_other ?_ changed.approval_home
    intro request home
    rw [beq_iff_eq.mp home]
    exact beq_false_of_ne different.symm
  rw [Db.runOf, tasks_eq, approvals_eq, outbox, List.filter_append, rows_eq, List.append_nil]
  rfl

theorem mem_changed (changed : db.Changed next execution change) :
    change.execution ∈ next.executions.values := by
  rw [changed.executions]
  exact List.mem_map.mpr ⟨execution, changed.member, if_pos (beq_self_eq_true execution.id)⟩

theorem mem_other (changed : db.Changed next execution change) {other : WorkflowExecution Val}
    (membership : other ∈ db.executions.values) (different : other.id ≠ execution.id) :
    other ∈ next.executions.values := by
  rw [changed.executions]
  exact List.mem_map.mpr ⟨other, membership, if_neg (by rw [beq_iff_eq]; exact different)⟩

variable [Mixed Val]

/-- The executions after the change. -/
theorem mem_executions (changed : db.Changed next execution change) (inv : db.Inv)
    {later : WorkflowExecution Val} (membership : later ∈ next.executions.values) :
    later = change.execution ∨
      later ∈ db.executions.values ∧ later.id ≠ execution.id := by
  rw [changed.executions] at membership
  rcases List.mem_map.mp membership with ⟨other, otherMem, rfl⟩
  by_cases same : other.id = execution.id
  · cases inv.eq_of_id otherMem changed.member same
    exact .inl (if_pos (beq_self_eq_true execution.id))
  · rw [if_neg (by rw [beq_iff_eq]; exact same)]
    exact .inr ⟨otherMem, same⟩

/-- A change that is a step of its run is a committed step. -/
theorem advances (changed : db.Changed next execution change) (inv : db.Inv)
    (keyed : next.Keyed) (grows : Grows db next) {missed : TaskId → Bool}
    {label : Option (Reply Val)}
    (step : Run.Step (fun key => missed ⟨execution.id, key⟩) label (db.runOf execution)
      ((db.runOf execution).change change)) :
    Advances missed label db next := by
  have runInv : Run.Inv (db.runOf execution) := inv.runInv changed.member
  have runs : ∀ later ∈ next.executions.values, Next missed label db (next.runOf later) := by
    intro later membership
    rcases changed.mem_executions inv membership with rfl | ⟨oldMem, different⟩
    · rw [changed.runOf_changed]
      exact .step changed.member step
    · rw [changed.runOf_other different]
      refine .same oldMem ?_
      intro same
      have target := step.target runInv.graph.task_home same
      exact different target
  have ids := changed.executionIds
  have target : ∀ executionId, label.bind Reply.target = some executionId →
      executionId ∈ next.executions.ids := by
    intro executionId named
    rw [step.target runInv.graph.task_home named, ids]
    exact Collection.mem_ids.mpr ⟨execution, changed.member, rfl⟩
  refine ⟨⟨keyed, ?_, ?_, ?_, ?_⟩, ⟨grows, ?_⟩, target, runs⟩
  · intro task membership
    rw [changed.tasks] at membership
    rcases List.mem_map.mp membership with ⟨source, sourceMem, rfl⟩
    rw [ids]
    split
    · next home =>
      rw [beq_iff_eq.mp (changed.task_home source sourceMem home), ← beq_iff_eq.mp home]
      exact inv.taskHome source sourceMem
    · exact inv.taskHome source sourceMem
  · intro request membership
    rw [changed.approvals] at membership
    rw [ids]
    rcases List.mem_append.mp membership with old | new
    · rcases List.mem_map.mp old with ⟨source, sourceMem, rfl⟩
      split
      · next home =>
        rw [beq_iff_eq.mp (changed.approval_home source sourceMem home), ← beq_iff_eq.mp home]
        exact inv.approvalHome source sourceMem
      · exact inv.approvalHome source sourceMem
    · rw [changed.newApprovalHome request new]
      exact Collection.mem_ids.mpr ⟨execution, changed.member, rfl⟩
  · intro row membership
    rcases changed.outbox with ⟨rows, describes, outbox⟩
    rw [outbox] at membership
    rw [ids]
    rcases List.mem_append.mp membership with old | new
    · exact inv.eventHome row old
    · rw [describes.about row new]
      exact Collection.mem_ids.mpr ⟨execution, changed.member, rfl⟩
  · intro later membership
    rcases changed.mem_executions inv membership with rfl | ⟨oldMem, different⟩
    · rcases inv.reached execution changed.member with ⟨params, reached⟩
      rw [changed.runOf_changed]
      exact ⟨params, reached.step step⟩
    · rw [changed.runOf_other different]
      exact inv.reached later oldMem
  · intro old oldMem
    by_cases same : old.id = execution.id
    · cases inv.eq_of_id oldMem changed.member same
      refine ⟨_, changed.mem_changed, changed.execution_id, ?_⟩
      rw [changed.runOf_changed]
      exact step.evolves runInv.graph.tasks_nodup
    · refine ⟨old, changed.mem_other oldMem same, rfl, ?_⟩
      rw [changed.runOf_other same]
      exact .refl _

end Changed

end Db

end WorkflowEngine
