import WorkflowEngine.Workers.RunTask
import WorkflowEngine.Workflow.Committed

/-!
# Outputs do not depend on the schedule

When handlers compute their outputs from the configuration, the input and the outputs
of the parents, every COMPLETED task stores what its handler computes from what its
parents store.  Along the task graph this determines all outputs of a completed run.
-/

namespace WorkflowEngine

open DocStore

variable {Val : Type}

/-! ## Reports of workers -/

/-- How a handler ends whose output depends on nothing else: it returns the output, fails or
waits for a human. -/
def Handlers.Ends (handlers : Handlers Val) (claimed : Started Val) : HandlerResult Val → Prop
  | .returned output => output = handlers.output claimed
  | .awaitApproval _ | .threw _ => True

/-- If it fails, then not with a value that counts as false. -/
def Handlers.EndsNoticed (handlers : Handlers Val) (claimed : Started Val)
    (result : HandlerResult Val) : Prop :=
  handlers.Ends claimed result ∧ ∀ error, result = .threw error → isFailure error = true

section Reports

variable [Mixed Val]

/-- A report of success is what `runTask` makes of a result that the handler of a started
task may have.  Everything else may be called by anyone. -/
def Op.Reports (may : Started Val → HandlerResult Val → Prop) (log : List (Reply Val)) :
    Op Val → Prop
  | .completeTask taskId leaseToken output => ∃ claimed ∈ startedIn log, ∃ result,
      may claimed result ∧ runTask claimed result = .completeTask taskId leaseToken output
  | _ => True

def Sys.Reports (may : Started Val → HandlerResult Val → Prop) (sys : Sys Val) :
    Action Val → Prop
  | .invoke (.transaction op) => op.Reports may sys.log
  | _ => True

theorem Op.reports_ends {handlers : Handlers Val} {log : List (Reply Val)} {taskId : TaskId}
    {leaseToken : Nat} {output : Val} :
    Op.Reports handlers.Ends log (.completeTask taskId leaseToken output) ↔
      ∃ claimed ∈ startedIn log, claimed.task.id = taskId ∧
        claimed.task.leaseToken = leaseToken ∧
          (handlers.output claimed = output ∨ Mixed.null = output) := by
  simp only [Op.Reports, runTask_eq_completeTask]
  constructor
  · rintro ⟨claimed, claimedMem, result, ends, isTask, isToken, rfl | ⟨_, isNull⟩⟩
    · exact ⟨claimed, claimedMem, isTask, isToken, .inl ends.symm⟩
    · exact ⟨claimed, claimedMem, isTask, isToken, .inr isNull⟩
  · rintro ⟨claimed, claimedMem, isTask, isToken, rfl | isNull⟩
    · exact ⟨claimed, claimedMem, .returned _, rfl, isTask, isToken, .inl rfl⟩
    · exact ⟨claimed, claimedMem, .threw none, trivial, isTask, isToken,
        .inr ⟨⟨none, rfl, rfl⟩, isNull⟩⟩

theorem Op.reports_endsNoticed {handlers : Handlers Val} {log : List (Reply Val)}
    {taskId : TaskId} {leaseToken : Nat} {output : Val} :
    Op.Reports handlers.EndsNoticed log (.completeTask taskId leaseToken output) ↔
      ∃ claimed ∈ startedIn log, claimed.task.id = taskId ∧
        claimed.task.leaseToken = leaseToken ∧ handlers.output claimed = output := by
  simp only [Op.Reports, runTask_eq_completeTask]
  constructor
  · rintro ⟨claimed, claimedMem, result, ⟨ends, noticed⟩, isTask, isToken,
      rfl | ⟨⟨error, rfl, unnoticed⟩, _⟩⟩
    · exact ⟨claimed, claimedMem, isTask, isToken, ends.symm⟩
    · cases unnoticed.symm.trans (noticed error rfl)
  · rintro ⟨claimed, claimedMem, isTask, isToken, rfl⟩
    refine ⟨claimed, claimedMem, .returned _, ⟨rfl, ?_⟩, isTask, isToken, .inl rfl⟩
    intro error absurdity
    cases absurdity

theorem Op.Reports.later {may : Started Val → HandlerResult Val → Prop}
    {log : List (Reply Val)} {op : Op Val} (reports : op.Reports may log)
    (replies : List (Reply Val)) : op.Reports may (replies ++ log) := by
  cases op with
  | completeTask taskId leaseToken output =>
      rcases reports with ⟨claimed, membership, isReport⟩
      refine ⟨claimed, ?_, isReport⟩
      rw [startedIn, List.filterMap_append]
      exact List.mem_append_right _ membership
  | _ => trivial

/-- Reports can be checked if reports of success can be. -/
def Sys.decidableReports {may : Started Val → HandlerResult Val → Prop} (sys : Sys Val)
    (decide : ∀ taskId leaseToken output,
      Decidable (Op.Reports may sys.log (.completeTask taskId leaseToken output))) :
    (action : Action Val) → Decidable (sys.Reports may action)
  | .invoke (.transaction (.completeTask taskId leaseToken output)) =>
      decide taskId leaseToken output
  | .invoke (.transaction (.startExecution _)) | .invoke (.transaction (.pauseExecution _))
  | .invoke (.transaction (.resumeExecution _)) | .invoke (.transaction (.cancelExecution _))
  | .invoke (.transaction (.failTask _ _ _))
  | .invoke (.transaction (.suspendForApproval _ _ _))
  | .invoke (.transaction (.resolveApproval _)) | .invoke (.callback _ _)
  | .invoke (.renewLease _ _) | .invoke (.dispatchReady _) | .invoke (.findReady _)
  | .invoke (.dispatchTask _) | .invoke (.enqueue _) | .invoke (.enqueueDelayed _ _)
  | .invoke (.startTask _ _) | .invoke (.abandonAttempts _) | .invoke (.recordAttempt _ _)
  | .invoke (.announce _ _) | .invoke (.checkBudget _) | .invoke (.refuse _)
  | .invoke (.gatherInput _) | .invoke (.gatherParents _ _) | .invoke (.reconcile _ _)
  | .invoke (.sweepReady _ _) | .invoke (.redispatch _ _) | .invoke (.sweepQueued _ _)
  | .invoke (.sweepRunning _) | .invoke (.sweepRetrying _ _) | .invoke (.sweepApprovals _)
  | .invoke (.expire _) | .advance _ _ | .crash _ => isTrue trivial

instance [DecidableEq Val] (handlers : Handlers Val) (sys : Sys Val) (action : Action Val) :
    Decidable (sys.Reports handlers.Ends action) :=
  sys.decidableReports (fun _ _ _ => decidable_of_iff _ Op.reports_ends.symm) action

instance [DecidableEq Val] (handlers : Handlers Val) (sys : Sys Val) (action : Action Val) :
    Decidable (sys.Reports handlers.EndsNoticed action) :=
  sys.decidableReports (fun _ _ _ => decidable_of_iff _ Op.reports_endsNoticed.symm) action

/-- What is true of every operation of the calls in progress stays true, if it is true of the
operations that are called and of those that calls make themselves. -/
theorem Sys.Stepped.forall_ops {sys next : Sys Val} {action : Action Val}
    {label : Option (Reply Val)} (stepped : sys.Stepped action next label)
    (property : List (Reply Val) → Op Val → Prop)
    (later : ∀ {log op}, property log op → ∀ replies, property (replies ++ log) op)
    (invoked : ∀ op, action = .invoke (.transaction op) → property sys.log op)
    (refused : ∀ log taskId leaseToken error, property log (.failTask taskId leaseToken error))
    (expired : ∀ log params, property log (.resolveApproval params))
    (calls : ∀ stack ∈ sys.calls, ∀ frame ∈ stack, ∀ op, frame.op? = some op →
      property sys.log op) :
    ∀ stack ∈ next.calls, ∀ frame ∈ stack, ∀ op, frame.op? = some op →
      property next.log op := by
  rw [stepped.log]
  refine stepped.took.frames ?_ ?_ ?_
  · intro stack membership frame frameMem op isOp
    exact later (calls stack membership frame frameMem op isOp) _
  · intro frame isAction isCall op isOp
    cases frame with
    | transaction called =>
        cases isOp
        exact later (invoked op isAction) _
    | callback => cases isCall
    | _ => cases isOp
  · intro call env frame rest outcome _ found ran _ next nextMem op isOp
    rcases Frame.step_op ran nextMem isOp with same | ⟨task, _, rfl⟩ | ⟨params, rfl⟩
    · exact later (calls _ (List.mem_of_getElem? found) frame List.mem_cons_self op same) _
    · exact refused _ _ _ _
    · exact expired _ _

end Reports

/-! ## Honest workers -/

/-- A handler waits for a human. -/
def Op.suspends : Op Val → Bool
  | .suspendForApproval _ _ _ => true
  | _ => false

def Action.suspends : Action Val → Bool
  | .invoke (.transaction op) => op.suspends
  | _ => false

/-- The calls of workers with these handlers, none of which waits for a human. -/
def Sys.Works [Mixed Val] (handlers : Handlers Val) (sys : Sys Val) (action : Action Val) : Prop :=
  sys.Reports handlers.Ends action ∧ action.suspends = false

/-- And no handler fails with a value that counts as false. -/
def Sys.Honest [Mixed Val] (handlers : Handlers Val) (sys : Sys Val) (action : Action Val) :
    Prop :=
  sys.Reports handlers.EndsNoticed action ∧ action.suspends = false

instance [Mixed Val] [DecidableEq Val] (handlers : Handlers Val) (sys : Sys Val)
    (action : Action Val) : Decidable (sys.Works handlers action) :=
  inferInstanceAs (Decidable (_ ∧ _))

instance [Mixed Val] [DecidableEq Val] (handlers : Handlers Val) (sys : Sys Val)
    (action : Action Val) : Decidable (sys.Honest handlers action) :=
  inferInstanceAs (Decidable (_ ∧ _))

/-! ## Outputs of a run -/

namespace Run

/-- The stored outputs of a run. -/
def outputOf (run : Run Val) (key : Key) : Option Val :=
  (run.tasks.find? fun task => decide (task.key = key)).map (·.output)

/-- The outputs of the parents of a task. -/
def parentsOf (run : Run Val) (task : Task Val) (key : Key) : Option Val :=
  if key ∈ task.dependsOn then run.outputOf key else none

/-- What the handler of a task computes in its run. -/
def computes (handlers : Handlers Val) (run : Run Val) (task : Task Val) : Val :=
  handlers task.type task.config run.execution.input (run.parentsOf task)

/-- Every COMPLETED task stores what its handler computes. -/
def Computed (handlers : Handlers Val) (run : Run Val) : Prop :=
  ∀ task ∈ run.tasks, task.status = .completed → task.output = run.computes handlers task

/-- No task waits for a human. -/
def Unattended (run : Run Val) : Prop :=
  ∀ task ∈ run.tasks, task.status ≠ .waitingForApproval

theorem outputOf_eq {run : Run Val} (nodup : (run.tasks.map (·.key)).Nodup) {task : Task Val}
    (membership : task ∈ run.tasks) : run.outputOf task.key = some task.output := by
  unfold outputOf
  cases found : run.tasks.find? fun other => decide (other.key = task.key) with
  | none =>
      have absent := List.find?_eq_none.mp found task membership
      exact absurd (decide_eq_true rfl) absent
  | some other =>
      have same : other.key = task.key := by simpa using List.find?_some found
      cases List.inj_on_of_nodup_map nodup (List.mem_of_find?_eq_some found) membership same
      rfl

theorem outputOf_eq_none {run : Run Val} {key : Key} (absent : key ∉ run.tasks.map (·.key)) :
    run.outputOf key = none := by
  have missing : (run.tasks.find? fun task => decide (task.key = key)) = none := by
    apply List.find?_eq_none.mpr
    intro task membership isKey
    exact absent (List.mem_map.mpr ⟨task, membership, of_decide_eq_true isKey⟩)
  rw [outputOf, missing, Option.map_none]

/-! ### Steps -/

variable [Mixed Val] {missed : Key → Bool} {label : Option (Reply Val)} {run next : Run Val}
  {handlers : Handlers Val}

/-- How a task comes to be COMPLETED. -/
theorem completed_cases {task later : Task Val} (moves : Task.Moves label task later)
    (completed : later.status = .completed) :
    task.status = .completed ∧ later.output = task.output ∨
      task.status = .waitingForApproval ∨
      task.status = .running ∧ label =
        some (.completeTask task.id task.leaseToken later.output true) := by
  cases moves with
  | rest => exact .inl ⟨completed, rfl⟩
  | completed running => exact .inr (.inr ⟨running, rfl⟩)
  | approved waiting => exact .inr (.inl waiting)
  | renewed running =>
      rw [show task.status = .completed from completed] at running
      cases running
  | @failed _ error =>
      change (failureOutcome task (isRetryable error)).status = .completed at completed
      cases outcome : failureOutcome task (isRetryable error) <;> rw [outcome] at completed <;>
        cases completed
  | promoted | cancelled | aborted | dispatched | claimed | retried | suspended | rejected =>
      cases completed

/-- Only a suspension makes a task wait. -/
theorem Step.unattended (step : Step missed label run next) (inv : run.Inv)
    (unattended : run.Unattended)
    (unsuspended : ∀ taskId token, label ≠ some (.suspendForApproval taskId token true)) :
    next.Unattended := by
  rcases step.moves inv.graph.tasks_nodup with ⟨image, tasks, moves⟩
  intro later membership waiting
  rw [tasks] at membership
  rcases List.mem_map.mp membership with ⟨task, taskMem, rfl⟩
  have before := unattended task taskMem
  have moved := moves task taskMem
  generalize image task = later at moved waiting
  cases moved with
  | rest => exact before waiting
  | suspended => exact unsuspended _ _ rfl
  | renewed running =>
      rw [show task.status = .waitingForApproval from waiting] at running
      cases running
  | @failed _ error =>
      change (failureOutcome task (isRetryable error)).status = .waitingForApproval at waiting
      cases outcome : failureOutcome task (isRetryable error) <;> rw [outcome] at waiting <;>
        cases waiting
  | promoted | cancelled | aborted | dispatched | claimed | completed | retried | approved
  | rejected => cases waiting

/-- A task that may run has the same parents after any step. -/
theorem Step.parentsOf (step : Step missed label run next) (inv : run.Inv) {task : Task Val}
    (membership : task ∈ run.tasks) (unstarted : task.status ≠ .pending)
    (uncancelled : task.status ≠ .cancelled) {later : Task Val}
    (dependsOn : later.dependsOn = task.dependsOn) :
    next.parentsOf later = run.parentsOf task := by
  rcases step.moves inv.graph.tasks_nodup with ⟨image, tasks, moves⟩
  have nextNodup : (next.tasks.map (·.key)).Nodup := (step.inv inv).graph.tasks_nodup
  funext key
  unfold Run.parentsOf
  rw [dependsOn]
  by_cases isDep : key ∈ task.dependsOn
  · rw [if_pos isDep, if_pos isDep]
    have done := inv.ordered.enabled task membership unstarted uncancelled key isDep
    rcases missing_eq_false.mp done with ⟨parent, parentMem, rfl, completed⟩
    have evolves := (moves parent parentMem).evolves
    rcases evolves.final (by rw [completed]; rfl) with ⟨_, output, _⟩
    have sameKey : (image parent).key = parent.key := congrArg TaskShape.key evolves.shape
    have imageMem : image parent ∈ next.tasks := tasks ▸ List.mem_map_of_mem parentMem
    rw [outputOf_eq inv.graph.tasks_nodup parentMem, ← output, ← sameKey]
    exact outputOf_eq nextNodup imageMem
  · rw [if_neg isDep, if_neg isDep]

theorem Step.computed (step : Step missed label run next) (inv : run.Inv)
    (unattended : run.Unattended)
    (reported : ∀ task ∈ run.tasks, ∀ token output,
      label = some (.completeTask task.id token output true) →
        output = run.computes handlers task)
    (computed : run.Computed handlers) : next.Computed handlers := by
  rcases step.moves inv.graph.tasks_nodup with ⟨image, tasks, moves⟩
  intro later membership completed
  rw [tasks] at membership
  rcases List.mem_map.mp membership with ⟨task, taskMem, rfl⟩
  have shape := (moves task taskMem).evolves.shape
  have same : ∀ started : task.status ≠ .pending ∧ task.status ≠ .cancelled,
      next.computes handlers (image task) = run.computes handlers task := by
    intro started
    have input : next.execution.input = run.execution.input :=
      congrArg ExecutionShape.input step.execution_shape
    have type : (image task).type = task.type := congrArg TaskShape.type shape
    have config : (image task).config = task.config := congrArg TaskShape.config shape
    have parents : next.parentsOf (image task) = run.parentsOf task :=
      step.parentsOf inv taskMem started.1 started.2 (congrArg TaskShape.dependsOn shape)
    rw [computes, computes, input, type, config, parents]
  rcases completed_cases (moves task taskMem) completed with
    ⟨before, output⟩ | waiting | ⟨running, isLabel⟩
  · rw [output, same (by rw [before]; exact ⟨nofun, nofun⟩)]
    exact computed task taskMem before
  · exact absurd waiting (unattended task taskMem)
  · rw [same (by rw [running]; exact ⟨nofun, nofun⟩)]
    exact reported task taskMem _ _ isLabel

end Run

/-! ## Outputs of a system -/

section Systems

variable [Mixed Val] {handlers : Handlers Val}

/-- The handler of a started task gets the stored outputs of its parents. -/
theorem Started.Ok.output {db : Db Val} (inv : db.Inv) {claimed : Started Val}
    (ok : claimed.Ok db) {execution : WorkflowExecution Val}
    (executionMem : execution ∈ db.executions.values) {task : Task Val}
    (membership : task ∈ (db.runOf execution).tasks) (isTask : task.id = claimed.task.id) :
    handlers.output claimed = (db.runOf execution).computes handlers task := by
  have taskMem := Db.mem_runOf_tasks.mp membership
  have nodup := (inv.runInv executionMem).graph.tasks_nodup
  have shape : task.shape = claimed.task.shape := by
    rcases ok.claimed.current with ⟨now, nowMem, evolves⟩
    rw [inv.task_eq_of_id taskMem.1 nowMem (isTask.trans evolves.id_eq.symm)]
    exact evolves.shape
  have input : claimed.input = execution.input := by
    rcases ok.input with ⟨other, otherMem, home, input⟩
    have same : other.id = execution.id :=
      home.trans ((congrArg TaskId.executionId isTask).symm.trans taskMem.2)
    rw [input, inv.eq_of_id otherMem executionMem same]
  have dependsOn : task.dependsOn = claimed.task.dependsOn := congrArg TaskShape.dependsOn shape
  have parents : (fun key => List.lookup key claimed.parents) =
      (db.runOf execution).parentsOf task := by
    funext key
    unfold Run.parentsOf
    rw [dependsOn]
    by_cases isDep : key ∈ claimed.task.dependsOn
    · rw [if_pos isDep]
      cases found : List.lookup key claimed.parents with
      | none =>
          rcases List.mem_map.mp (ok.keys.symm.mem_iff.mp isDep) with ⟨entry, entryMem, isKey⟩
          have absent := List.lookup_eq_none_iff.mp found entry entryMem
          exact absurd isKey.symm (bne_iff_ne.mp absent)
      | some output =>
          rcases List.lookup_eq_some_iff.mp found with ⟨_, _, split, _⟩
          have entryMem : (key, output) ∈ claimed.parents := by
            rw [split]
            exact List.mem_append_right _ List.mem_cons_self
          rcases ok.outputs _ entryMem with ⟨parent, parentMem, parentId, _, stored⟩
          have home : parent.executionId = execution.id :=
            (congrArg TaskId.executionId parentId).trans
              ((congrArg TaskId.executionId isTask).symm.trans taskMem.2)
          have isKey : parent.key = key := congrArg TaskId.key parentId
          have inRun : parent ∈ (db.runOf execution).tasks :=
            Db.mem_runOf_tasks.mpr ⟨parentMem, home⟩
          rw [← isKey, Run.outputOf_eq nodup inRun, stored]
    · rw [if_neg isDep]
      apply List.lookup_eq_none_iff.mpr
      intro entry entryMem
      apply bne_iff_ne.mpr
      rintro rfl
      exact isDep (ok.keys.mem_iff.mp (List.mem_map_of_mem entryMem))
  have type : task.type = claimed.task.type := congrArg TaskShape.type shape
  have config : task.config = claimed.task.config := congrArg TaskShape.config shape
  rw [Handlers.output, Run.computes, parents, input, type, config]
  rfl

namespace Sys

/-- What honest workers keep. -/
structure Deterministic (handlers : Handlers Val) (sys : Sys Val) : Prop where
  calls : ∀ stack ∈ sys.calls, ∀ frame ∈ stack, ∀ op, frame.op? = some op →
    op.Reports handlers.EndsNoticed sys.log ∧ op.suspends = false
  unattended : ∀ execution ∈ sys.db.executions.values, (sys.db.runOf execution).Unattended
  computed : ∀ execution ∈ sys.db.executions.values,
    (sys.db.runOf execution).Computed handlers

/-- A success that is applied was reported with the output of the handler. -/
theorem Stepped.reported {sys next : Sys Val} {action : Action Val} {label : Option (Reply Val)}
    (stepped : sys.Stepped action next label) (before : sys.Deterministic handlers)
    {execution : WorkflowExecution Val} (executionMem : execution ∈ sys.db.executions.values)
    {task : Task Val} (membership : task ∈ (sys.db.runOf execution).tasks) {token : Nat}
    {output : Val} (isLabel : label = some (.completeTask task.id token output true)) :
    output = (sys.db.runOf execution).computes handlers task := by
  subst isLabel
  rcases stepped.committed rfl with ⟨env, op, snapshot, patch, isFrame, answers, _, _⟩
  rcases frame?_top isFrame with ⟨rest, stackMem⟩
  have reports := (before.calls _ stackMem _ List.mem_cons_self op rfl).1
  cases op with
  | completeTask taskId leaseToken value =>
      rcases answers with ⟨rfl, rfl, rfl⟩
      rcases Op.reports_endsNoticed.mp reports with ⟨claimed, claimedMem, claimedId, _, rfl⟩
      rcases mem_startedIn.mp claimedMem with ⟨startedId, replyMem⟩
      have ok := (stepped.inv.replies _ replyMem).2
      exact ok.output stepped.inv.db executionMem membership claimedId.symm
  | _ => cases answers

/-- No honest call suspends a task. -/
theorem Stepped.unsuspended {sys next : Sys Val} {action : Action Val}
    {label : Option (Reply Val)} (stepped : sys.Stepped action next label)
    (before : sys.Deterministic handlers) (taskId : TaskId) (token : Nat) :
    label ≠ some (.suspendForApproval taskId token true) := by
  rintro rfl
  rcases stepped.committed rfl with ⟨env, op, snapshot, patch, isFrame, answers, _, _⟩
  rcases frame?_top isFrame with ⟨rest, stackMem⟩
  have unsuspended := (before.calls _ stackMem _ List.mem_cons_self op rfl).2
  cases op with
  | suspendForApproval => cases unsuspended
  | _ => cases answers

theorem start_uncompleted {env : Env} {params : StartParams Val} {task : Task Val}
    (membership : task ∈ (Run.start env params).tasks) :
    task.status ≠ .completed ∧ task.status ≠ .waitingForApproval := by
  rcases List.mem_map.mp membership with ⟨definition, _, rfl⟩
  simp only [newTask]
  split <;> exact ⟨by simp, by simp⟩

theorem Stepped.deterministic {sys next : Sys Val} {action : Action Val}
    {label : Option (Reply Val)} (stepped : sys.Stepped action next label)
    (honest : sys.Honest handlers action) (before : sys.Deterministic handlers) :
    next.Deterministic handlers := by
  have calls := stepped.forall_ops
    (fun log op => op.Reports handlers.EndsNoticed log ∧ op.suspends = false)
    (fun held replies => ⟨held.1.later replies, held.2⟩)
    (fun op isAction => by
      subst isAction
      exact honest)
    (fun _ _ _ _ => ⟨trivial, rfl⟩) (fun _ _ => ⟨trivial, rfl⟩) before.calls
  refine ⟨calls, ?_, ?_⟩
  · intro execution membership
    have advanced := stepped.advances.runs execution membership
    generalize next.db.runOf execution = run at advanced ⊢
    cases advanced with
    | same member => exact before.unattended _ member
    | step member ran =>
        exact ran.unattended (stepped.inv.db.runInv member) (before.unattended _ member)
          (stepped.unsuspended before)
    | start => exact fun task taskMem => (start_uncompleted taskMem).2
  · intro execution membership
    have advanced := stepped.advances.runs execution membership
    generalize next.db.runOf execution = run at advanced ⊢
    cases advanced with
    | same member => exact before.computed _ member
    | step member ran =>
        exact ran.computed (stepped.inv.db.runInv member) (before.unattended _ member)
          (fun task taskMem token output isLabel =>
            stepped.reported before member taskMem isLabel)
          (before.computed _ member)
    | start => exact fun task taskMem done => absurd done (start_uncompleted taskMem).1

theorem deterministic_of_reachable {sys : Sys Val}
    (reachable : (engineSystem Val).ReachableBy (Sys.Honest handlers) sys) :
    sys.Deterministic handlers := by
  induction reachable with
  | init =>
      exact ⟨fun _ membership => absurd membership List.not_mem_nil,
        fun _ membership => absurd membership List.not_mem_nil,
        fun _ membership => absurd membership List.not_mem_nil⟩
  | step reached honest taken ih =>
      rcases (inv_of_reachableBy reached).stepped taken with ⟨label, stepped⟩
      exact stepped.deterministic honest ih

end Sys

/-! ## Runs of a definition -/

/-- What the outputs of a task depend on besides its parents. -/
structure TaskPlan (Val : Type) where
  key : Key
  type : String
  config : Val
  dependsOn : List Key

omit [Mixed Val] in
def Task.plan (task : Task Val) : TaskPlan Val :=
  ⟨task.key, task.type, task.config, task.dependsOn⟩

omit [Mixed Val] in
def TaskDefinition.plan (definition : TaskDefinition Val) : TaskPlan Val :=
  ⟨definition.key, definition.type, definition.config, definition.dependsOn⟩

/-- The run was made from this definition and this input. -/
structure Run.Instantiates (params : StartParams Val) (run : Run Val) : Prop where
  input : run.execution.input = params.input
  plans : run.tasks.map Task.plan = params.workflow.tasks.map TaskDefinition.plan

theorem Run.Step.instantiates {missed : Key → Bool} {label : Option (Reply Val)}
    {run next : Run Val} {params : StartParams Val} (step : Run.Step missed label run next)
    (inv : run.Inv) (instantiates : run.Instantiates params) : next.Instantiates params := by
  refine ⟨?_, ?_⟩
  · rw [← instantiates.input]
    exact congrArg ExecutionShape.input step.execution_shape
  · rcases step.moves inv.graph.tasks_nodup with ⟨image, tasks, moves⟩
    rw [← instantiates.plans, tasks, List.map_map]
    apply List.map_congr_left
    intro task membership
    have shape := (moves task membership).evolves.shape
    have key : (image task).key = task.key := congrArg TaskShape.key shape
    have type : (image task).type = task.type := congrArg TaskShape.type shape
    have config : (image task).config = task.config := congrArg TaskShape.config shape
    have dependsOn : (image task).dependsOn = task.dependsOn :=
      congrArg TaskShape.dependsOn shape
    rw [Function.comp_apply, Task.plan, Task.plan, key, type, config, dependsOn]

/-- The start of a run names its definition and its input. -/
theorem Sys.instantiates {allowed : Sys Val → Action Val → Prop} {sys : Sys Val}
    (reachable : (engineSystem Val).ReachableBy allowed sys) {params : StartParams Val}
    {created : WorkflowExecution Val} (started : .startExecution params created ∈ sys.log)
    {execution : WorkflowExecution Val} (membership : execution ∈ sys.db.executions.values)
    (same : created.id = execution.id) : (sys.db.runOf execution).Instantiates params := by
  have held := history (fun log run => ∀ params created, .startExecution params created ∈ log →
    created.id = run.execution.id → run.Instantiates params) ?_ ?_ ?_ reachable
  · exact held execution membership params created started same
  · intro log env starting _ unknown params created isStart sameId
    rcases List.mem_cons.mp isStart with new | old
    · cases new
      exact ⟨rfl, by rw [Run.start, List.map_map]; rfl⟩
    · exact absurd (congrArg some sameId) (unknown _ old)
  · intro label log run _ unnamed before params created isStart sameId
    rcases List.mem_append.mp isStart with new | old
    · rw [Option.mem_toList.mp new] at unnamed
      exact absurd (congrArg some sameId) unnamed
    · exact before params created old sameId
  · intro sys next action label execution run stepped _ member ran before params created isStart
      sameId
    rw [stepped.log] at isStart
    rcases List.mem_append.mp isStart with new | old
    · rw [Option.mem_toList.mp new] at ran
      cases ran
    · rw [ran.execution_id] at sameId
      exact ran.instantiates (stepped.inv.db.runInv member) (before params created old sameId)

/-! ## The guarantee -/

/-- In this state a run of the definition on the input is COMPLETED. -/
structure Sys.Completes (sys : Sys Val) (tasks : List (TaskDefinition Val)) (input : Val)
    (execution : WorkflowExecution Val) : Prop where
  stored : execution ∈ sys.db.executions.values
  started : ∃ params created, .startExecution params created ∈ sys.log ∧
    created.id = execution.id ∧ params.workflow.tasks = tasks ∧ params.input = input
  completed : execution.status = .completed

omit [Mixed Val] in
/-- Completed runs of one definition on one input that compute their outputs have the same
outputs. -/
theorem Run.outputOf_unique {first second : Run Val} (inv : first.Inv) (inv' : second.Inv)
    (input : first.execution.input = second.execution.input)
    (plans : first.tasks.map Task.plan = second.tasks.map Task.plan)
    (done : ∀ task ∈ first.tasks, task.status = .completed)
    (done' : ∀ task ∈ second.tasks, task.status = .completed)
    (computed : first.Computed handlers) (computed' : second.Computed handlers) :
    first.outputOf = second.outputOf := by
  have keys : first.tasks.map (·.key) = second.tasks.map (·.key) := by
    have planned := congrArg (List.map TaskPlan.key) plans
    rw [List.map_map, List.map_map] at planned
    exact planned
  rcases inv.graph.ranks with ⟨rank, ranks⟩
  have step : ∀ key, key ∈ first.tasks.map (·.key) →
      (∀ dep, GraphValid.Parent first key dep → dep ∈ first.tasks.map (·.key) →
        first.outputOf dep = second.outputOf dep) →
      first.outputOf key = second.outputOf key := by
    intro key isKey ih
    rcases List.mem_map.mp isKey with ⟨task, membership, rfl⟩
    have planned : task.plan ∈ second.tasks.map Task.plan :=
      plans ▸ List.mem_map_of_mem membership
    rcases List.mem_map.mp planned with ⟨twin, twinMem, samePlan⟩
    have key : twin.key = task.key := congrArg TaskPlan.key samePlan
    have type : twin.type = task.type := congrArg TaskPlan.type samePlan
    have config : twin.config = task.config := congrArg TaskPlan.config samePlan
    have dependsOn : twin.dependsOn = task.dependsOn := congrArg TaskPlan.dependsOn samePlan
    have parents : first.parentsOf task = second.parentsOf twin := by
      funext dep
      unfold parentsOf
      rw [dependsOn]
      by_cases isDep : dep ∈ task.dependsOn
      · rw [if_pos isDep, if_pos isDep]
        rcases inv.graph.exists_parent membership isDep with ⟨parent, parentMem, parentKey⟩
        exact ih dep ⟨task, membership, rfl, isDep⟩ (List.mem_map.mpr ⟨parent, parentMem, parentKey⟩)
      · rw [if_neg isDep, if_neg isDep]
    have output : task.output = twin.output := by
      rw [computed task membership (done task membership),
        computed' twin twinMem (done' twin twinMem), computes, computes, parents, input, type,
        config]
    rw [outputOf_eq inv.graph.tasks_nodup membership, output, ← key]
    exact (outputOf_eq inv'.graph.tasks_nodup twinMem).symm
  funext key
  by_cases isKey : key ∈ first.tasks.map (·.key)
  · exact ranks.induction step isKey
  · rw [outputOf_eq_none isKey, outputOf_eq_none (keys ▸ isKey)]

/-- Two runs of one definition on one input that complete under any schedules of workers
whose handlers never fail with a value that counts as false store the same outputs. -/
theorem outputs_schedule_independent {first second : Sys Val}
    (reachable : (engineSystem Val).ReachableBy (Sys.Honest handlers) first)
    (reachable' : (engineSystem Val).ReachableBy (Sys.Honest handlers) second)
    {tasks : List (TaskDefinition Val)} {input : Val}
    {execution execution' : WorkflowExecution Val}
    (completes : first.Completes tasks input execution)
    (completes' : second.Completes tasks input execution') :
    (first.db.runOf execution).outputOf = (second.db.runOf execution').outputOf := by
  have inv := (Sys.inv_of_reachableBy reachable).db.runInv completes.stored
  have inv' := (Sys.inv_of_reachableBy reachable').db.runInv completes'.stored
  have computed := (Sys.deterministic_of_reachable reachable).computed _ completes.stored
  have computed' := (Sys.deterministic_of_reachable reachable').computed _ completes'.stored
  rcases completes.started with ⟨params, created, started, same, rfl, rfl⟩
  rcases completes'.started with ⟨params', created', started', same', sameTasks, sameInput⟩
  have instantiates := Sys.instantiates reachable started completes.stored same
  have instantiates' := Sys.instantiates reachable' started' completes'.stored same'
  refine Run.outputOf_unique inv inv' ?_ ?_ (inv.counted.completed completes.completed)
    (inv'.counted.completed completes'.completed) computed computed'
  · rw [instantiates.input, instantiates'.input, sameInput]
  · rw [instantiates.plans, instantiates'.plans, sameTasks]

end Systems

namespace Schedule

/-- The handlers of a task type: the successor of the parent's output, or the input. -/
def successor : Handlers Plain := fun _ _ input parents =>
  match parents "A" with
  | some (.number value) => .number (value + 1)
  | _ => input

def chain : List (TaskDefinition Plain) := [definition "A" [], definition "B" ["A"]]

def chainClaimed : List (Action Plain) :=
  start chain :: steps 0 [1, 2, 3, 4, 5, 6] ++
    .invoke (.startTask ⟨2, "A"⟩ "w") :: steps 1 [7, 8, 9, 10, 11, 12, 13]

/-- One worker runs both tasks. -/
def chainDirect : List (Action Plain) :=
  chainClaimed ++
    call (.completeTask ⟨2, "A"⟩ 1 (.number 7)) :: steps 2 [14, 15, 16, 17, 18, 19] ++
    .invoke (.startTask ⟨2, "B"⟩ "w") :: steps 3 [20, 21, 22, 23, 24, 25, 26] ++
    call (.completeTask ⟨2, "B"⟩ 1 (.number 8)) :: steps 4 [27, 28]

/-- The first task is taken over and reported twice, the second one fails once. -/
def chainRetried : List (Action Plain) :=
  chainClaimed ++
    .invoke (.startTask ⟨2, "A"⟩ "v") :: steps 2 [200, 201, 202, 203, 204, 205, 206] ++
    call (.completeTask ⟨2, "A"⟩ 1 (.number 7)) :: steps 3 [207, 208] ++
    call (.completeTask ⟨2, "A"⟩ 2 (.number 7)) :: steps 4 [209, 210, 211, 212, 213, 214] ++
    .invoke (.startTask ⟨2, "B"⟩ "w") :: steps 5 [215, 216, 217, 218, 219, 220, 221] ++
    call (.failTask ⟨2, "B"⟩ 1 busy) :: steps 6 [222, 223, 224] ++
    .invoke (.startTask ⟨2, "B"⟩ "w") :: steps 7 [230, 231, 232, 233, 234, 235, 236] ++
    call (.completeTask ⟨2, "B"⟩ 2 (.number 8)) :: steps 8 [237, 238]

def honestly (actions : List (Action Plain))
    (runs : ((engineSystem Plain).runBy
      (fun sys action => decide (sys.Honest successor action)) Sys.init actions).isSome = true) :
    Sys Plain :=
  afterBy (fun sys action => decide (sys.Honest successor action)) actions runs

theorem honestly_reachable (actions : List (Action Plain))
    (runs : ((engineSystem Plain).runBy
      (fun sys action => decide (sys.Honest successor action)) Sys.init actions).isSome = true) :
    (engineSystem Plain).ReachableBy (Sys.Honest successor) (honestly actions runs) :=
  (afterBy_reachable _ actions runs).mono fun _ _ => of_decide_eq_true

/-- A run of one task, which is reported as completed with this output. -/
def oneReported (output : Plain) : List (Action Plain) :=
  oneStarted ++ call (.completeTask ⟨2, "A"⟩ 1 output) :: steps 2 [14, 15]

def working (actions : List (Action Plain))
    (runs : ((engineSystem Plain).runBy
      (fun sys action => decide (sys.Works successor action)) Sys.init actions).isSome = true) :
    Sys Plain :=
  afterBy (fun sys action => decide (sys.Works successor action)) actions runs

theorem working_reachable (actions : List (Action Plain))
    (runs : ((engineSystem Plain).runBy
      (fun sys action => decide (sys.Works successor action)) Sys.init actions).isSome = true) :
    (engineSystem Plain).ReachableBy (Sys.Works successor) (working actions runs) :=
  (afterBy_reachable _ actions runs).mono fun _ _ => of_decide_eq_true

/-- The run that the schedule started. -/
def only (sys : Sys Plain) (nonempty : sys.db.executions.values ≠ []) :
    WorkflowExecution Plain :=
  sys.db.executions.values.head nonempty

theorem chainDirect_completes : (honestly chainDirect (by decide)).Completes chain (.number 7)
    (only (honestly chainDirect (by decide)) (by decide)) := by
  refine ⟨List.head_mem _, ⟨_, _, List.mem_of_getLast? rfl, rfl, rfl, rfl⟩, by decide⟩

theorem chainRetried_completes : (honestly chainRetried (by decide)).Completes chain (.number 7)
    (only (honestly chainRetried (by decide)) (by decide)) := by
  refine ⟨List.head_mem _, ⟨_, _, List.mem_of_getLast? rfl, rfl, rfl, rfl⟩, by decide⟩

end Schedule

open Schedule in
/-- A handler that fails with a value that counts as false completes its task with null. -/
theorem not_outputs_schedule_independent :
    ¬ ∀ (handlers : Handlers Plain) (first second : Sys Plain),
      (engineSystem Plain).ReachableBy (Sys.Works handlers) first →
      (engineSystem Plain).ReachableBy (Sys.Works handlers) second →
      ∀ tasks input execution execution', first.Completes tasks input execution →
        second.Completes tasks input execution' →
          (first.db.runOf execution).outputOf = (second.db.runOf execution').outputOf := by
  intro independent
  have same := independent successor _ _
    (working_reachable (oneReported (.number 7)) (by decide))
    (working_reachable (oneReported .null) (by decide)) [definition "A" []] (.number 7) _ _
    ⟨List.head_mem (by decide), ⟨_, _, List.mem_of_getLast? rfl, rfl, rfl, rfl⟩, by decide⟩
    ⟨List.head_mem (by decide), ⟨_, _, List.mem_of_getLast? rfl, rfl, rfl, rfl⟩, by decide⟩
  exact absurd (congrFun same "A") (by decide)

open Schedule in
theorem outputs_schedule_independent_chain :
    ((honestly chainDirect (by decide)).db.runOf
        (only (honestly chainDirect (by decide)) (by decide))).outputOf =
      ((honestly chainRetried (by decide)).db.runOf
        (only (honestly chainRetried (by decide)) (by decide))).outputOf :=
  outputs_schedule_independent (honestly_reachable chainDirect (by decide))
    (honestly_reachable chainRetried (by decide)) chainDirect_completes chainRetried_completes

end WorkflowEngine
