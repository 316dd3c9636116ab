import WorkflowEngine.Foundations.Dataflow
import WorkflowEngine.Workflow.Guarantees.Completions

/-!
# What a definition computes

A definition means what evaluating its tasks one after another gives, in the order of
`validateDag`: the value of a task is what a human decided for it, or what its handler
computes from the values of its parents.  However workers interleave, fail and take over,
a COMPLETED task stores its value.
-/

namespace WorkflowEngine

open DocStore Precedence

variable {Val : Type}

/-! ## Evaluating a definition -/

namespace StartParams

variable (handlers : Handlers Val) (decided : Key → Option Val) (params : StartParams Val)

/-- The value of a task, given the values of its parents. -/
def valueOf (key : Key) (values : Key → Option Val) : Option Val :=
  match decided key with
  | some output => some output
  | none =>
      (params.workflow.tasks.find? fun definition => decide (definition.key = key)).map
        fun definition =>
          handlers definition.type definition.config params.input fun dep =>
            if dep ∈ definition.dependsOn then values dep else none

end StartParams

/-! ## Decisions in the log -/

/-- The output that the reply gives this task by an approval. -/
def Reply.decides? [Mixed Val] (taskId : TaskId) : Reply Val → Option Val
  | .resolveApproval params decidedAt (some waiting) =>
      if params.decision = .approved ∧ waiting = taskId then
        some (Mixed.approval params.decidedBy params.comment decidedAt)
      else
        none
  | _ => none

/-- What a human has decided for the task. -/
def decisionIn [Mixed Val] (log : List (Reply Val)) (taskId : TaskId) : Option Val :=
  log.findSome? (Reply.decides? taskId)

variable [Mixed Val]

theorem Reply.about_of_decides? {reply : Reply Val} {taskId : TaskId} {output : Val}
    (decides : reply.decides? taskId = some output) : reply.about = some taskId := by
  unfold Reply.decides? at decides
  split at decides
  · split at decides
    · next matched =>
      obtain ⟨_, rfl⟩ := matched
      rfl
    · cases decides
  · cases decides

theorem decisionIn_append {label : Option (Reply Val)} {log : List (Reply Val)} {taskId : TaskId} :
    decisionIn (label.toList ++ log) taskId =
      (label.bind (Reply.decides? taskId)).or (decisionIn log taskId) := by
  cases label with
  | none => rfl
  | some reply =>
      cases decides : reply.decides? taskId with
      | none => simp [decisionIn, decides]
      | some output => simp [decisionIn, decides]

/-- A step about something else decides nothing. -/
theorem decisionIn_other {label : Option (Reply Val)} {log : List (Reply Val)} {taskId : TaskId}
    (other : label.bind Reply.about ≠ some taskId) :
    decisionIn (label.toList ++ log) taskId = decisionIn log taskId := by
  rw [decisionIn_append]
  cases label with
  | none => rfl
  | some reply =>
      cases decides : reply.decides? taskId with
      | none => simp [decides]
      | some output => exact absurd (Reply.about_of_decides? decides) other

/-! ## Values of a run -/

namespace Run

/-- A task for which a human has decided is COMPLETED with the decision, every other
COMPLETED task stores what its handler computes. -/
structure Valued (handlers : Handlers Val) (log : List (Reply Val)) (run : Run Val) : Prop where
  decided : ∀ task ∈ run.tasks, ∀ output, decisionIn log task.id = some output →
    task.status = .completed ∧ task.output = output
  computed : ∀ task ∈ run.tasks, task.status = .completed → decisionIn log task.id = none →
    task.output = run.computes handlers task

variable {missed : Key → Bool} {label : Option (Reply Val)} {run next : Run Val}
  {handlers : Handlers Val} {log : List (Reply Val)}

/-- How a task comes to be COMPLETED, and what is decided by the way. -/
theorem valued_cases {task later : Task Val} (moves : Task.Moves label task later)
    (completed : later.status = .completed) :
    task.status = .completed ∧ later.output = task.output ∧
        label.bind Reply.about ≠ some task.id ∨
      label.bind (Reply.decides? task.id) = some later.output ∨
      task.status = .running ∧ label =
        some (.completeTask task.id task.leaseToken later.output true) := by
  cases moves with
  | rest other => exact .inl ⟨completed, rfl, other⟩
  | completed running => exact .inr (.inr ⟨running, rfl⟩)
  | approved waiting approved =>
      apply Or.inr
      apply Or.inl
      simp [Reply.decides?, approved, moved, approvedTask]
  | renewed running =>
      rw [show task.status = .completed from completed] at running
      cases running
  | @failed _ error =>
      change (failureOutcome task (isRetryable error)).status = .completed at completed
      cases outcome : failureOutcome task (isRetryable error) <;> rw [outcome] at completed <;>
        cases completed
  | promoted | cancelled | aborted | dispatched | claimed | retried | suspended | rejected =>
      cases completed

/-- A decision completes the task that waits for it. -/
theorem completed_of_decides {task later : Task Val} (moves : Task.Moves label task later)
    {output : Val} (decides : label.bind (Reply.decides? task.id) = some output) :
    later.status = .completed ∧ later.output = output := by
  have about : label.bind Reply.about = some task.id := by
    cases label with
    | none => cases decides
    | some reply => exact Reply.about_of_decides? decides
  cases moves with
  | rest other => exact absurd about other
  | promoted other => exact absurd about other
  | cancelled other => exact absurd about other
  | approved waiting approved =>
      simp only [Option.bind_some, Reply.decides?, approved, and_self, if_true,
        Option.some.injEq] at decides
      exact ⟨rfl, decides⟩
  | rejected waiting rejected => simp [Reply.decides?, rejected] at decides
  | aborted | dispatched | claimed | renewed | completed | retried | failed | suspended =>
      simp [Reply.decides?] at decides

/-- What the handler of a task that may run computes does not change. -/
theorem Step.computes_eq (step : Step missed label run next) (inv : run.Inv) {task later : Task Val}
    (membership : task ∈ run.tasks) (moves : Task.Moves label task later)
    (unstarted : task.status ≠ .pending) (uncancelled : task.status ≠ .cancelled) :
    next.computes handlers later = run.computes handlers task := by
  have shape := moves.evolves.shape
  have input : next.execution.input = run.execution.input :=
    congrArg ExecutionShape.input step.execution_shape
  have type : later.type = task.type := congrArg TaskShape.type shape
  have config : later.config = task.config := congrArg TaskShape.config shape
  have parents : next.parentsOf later = run.parentsOf task :=
    step.parentsOf inv membership unstarted uncancelled (congrArg TaskShape.dependsOn shape)
  rw [computes, computes, input, type, config, parents]

theorem Step.valued (step : Step missed label run next) (inv : run.Inv)
    (reported : ∀ task ∈ run.tasks, ∀ token output,
      label = some (.completeTask task.id token output true) →
        output = run.computes handlers task)
    (valued : run.Valued handlers log) : next.Valued handlers (label.toList ++ log) := by
  obtain ⟨image, tasks, moves⟩ := step.moves inv.graph.tasks_nodup
  constructor
  case decided =>
    intro later membership output decided
    rw [tasks] at membership
    obtain ⟨task, taskMem, rfl⟩ := List.mem_map.mp membership
    have moved := moves task taskMem
    rw [moved.evolves.id_eq, decisionIn_append] at decided
    cases now : label.bind (Reply.decides? task.id) with
    | some given =>
        rw [now, Option.some_or] at decided
        cases decided
        exact completed_of_decides moved now
    | none =>
        rw [now, Option.none_or] at decided
        obtain ⟨completed, same⟩ := valued.decided task taskMem output decided
        obtain ⟨status, kept, _⟩ := moved.evolves.final (by rw [completed]; rfl)
        exact ⟨status.trans completed, kept.trans same⟩
  case computed =>
    intro later membership completed undecided
    rw [tasks] at membership
    obtain ⟨task, taskMem, rfl⟩ := List.mem_map.mp membership
    have moved := moves task taskMem
    rw [moved.evolves.id_eq] at undecided
    rcases valued_cases moved completed with ⟨before, output, other⟩ | decides | ⟨running, isLabel⟩
    · rw [decisionIn_other other] at undecided
      rw [output, step.computes_eq inv taskMem moved (by simp [before]) (by simp [before])]
      exact valued.computed task taskMem before undecided
    · rw [decisionIn_append, decides, Option.some_or] at undecided
      cases undecided
    · rw [step.computes_eq inv taskMem moved (by simp [running]) (by simp [running])]
      exact reported task taskMem _ _ isLabel

/-- Steps of other runs decide nothing here. -/
theorem Valued.other (valued : run.Valued handlers log) (inv : run.Inv)
    (unnamed : label.bind Reply.target ≠ some run.execution.id) :
    run.Valued handlers (label.toList ++ log) := by
  have undecided : ∀ task ∈ run.tasks,
      decisionIn (label.toList ++ log) task.id = decisionIn log task.id := by
    intro task membership
    apply decisionIn_other
    intro about
    apply unnamed
    cases label with
    | none => cases about
    | some reply =>
        rw [← inv.graph.task_home task membership]
        exact Reply.target_of_about about
  constructor
  · intro task membership output decided
    rw [undecided task membership] at decided
    exact valued.decided task membership output decided
  · intro task membership completed decided
    rw [undecided task membership] at decided
    exact valued.computed task membership completed decided

/-- No task of a new run is COMPLETED, and nothing has been decided. -/
theorem Valued.start {env : Env} {params : StartParams Val} {created : WorkflowExecution Val}
    (unknown : ∀ reply ∈ log, reply.target ≠ some env.objectId) :
    (Run.start env params).Valued handlers (.startExecution params created :: log) := by
  constructor
  · intro task membership output decided
    obtain ⟨definition, _, rfl⟩ := List.mem_map.mp membership
    obtain ⟨reply, replyMem, decides⟩ := List.exists_of_findSome?_eq_some decided
    cases List.mem_cons.mp replyMem with
    | inl isStart =>
        rw [isStart] at decides
        cases decides
    | inr old =>
        have isTarget := Reply.target_of_about (Reply.about_of_decides? decides)
        exact absurd isTarget (unknown reply old)
  · intro task membership completed
    exact absurd completed (Sys.start_uncompleted membership).1

end Run

/-! ## Every reachable state -/

namespace Sys

variable {handlers : Handlers Val}

/-- What reports of handlers keep. -/
structure Valued (handlers : Handlers Val) (sys : Sys Val) : Prop where
  calls : ∀ stack ∈ sys.calls, ∀ frame ∈ stack, ∀ op, frame.op? = some op →
    op.Reports handlers.EndsNoticed sys.log
  runs : ∀ execution ∈ sys.db.executions.values,
    (sys.db.runOf execution).Valued handlers sys.log

end Sys

/-! ## The guarantee -/

/-- What humans have decided in a run. -/
def decisionsIn (log : List (Reply Val)) (executionId : ExecutionId) (key : Key) : Option Val :=
  decisionIn log ⟨executionId, key⟩

omit [Mixed Val] in
/-- The definition that a task was made from. -/
theorem Run.Instantiates.definition {params : StartParams Val} {run : Run Val}
    (instantiates : run.Instantiates params) (keys_nodup : (params.dag.map (·.key)).Nodup)
    {task : Task Val} (membership : task ∈ run.tasks) :
    ∃ definition, (params.workflow.tasks.find? fun definition =>
        decide (definition.key = task.key)) = some definition ∧ definition.plan = task.plan := by
  have planned : task.plan ∈ params.workflow.tasks.map TaskDefinition.plan := by
    rw [← instantiates.plans]
    exact List.mem_map_of_mem membership
  obtain ⟨definition, definitionMem, isPlan⟩ := List.mem_map.mp planned
  have isKey : definition.key = task.key := congrArg TaskPlan.key isPlan
  have nodup : (params.workflow.tasks.map TaskDefinition.key).Nodup := by
    rw [StartParams.dag, List.map_map] at keys_nodup
    exact keys_nodup
  cases found : params.workflow.tasks.find? fun definition => decide (definition.key = task.key) with
  | none =>
      have absent := List.find?_eq_none.mp found definition definitionMem
      exact absurd (decide_eq_true isKey) absent
  | some other =>
      have otherKey : other.key = task.key := by simpa using List.find?_some found
      have same := List.inj_on_of_nodup_map nodup (List.mem_of_find?_eq_some found) definitionMem
        (otherKey.trans isKey.symm)
      subst same
      exact ⟨other, rfl, isPlan⟩

/-- The outputs of COMPLETED tasks solve the equations of the definition. -/
theorem Run.Valued.solves {handlers : Handlers Val} {log : List (Reply Val)} {run : Run Val}
    {params : StartParams Val} (valued : run.Valued handlers log) (inv : run.Inv)
    (instantiates : run.Instantiates params) (keys_nodup : (params.dag.map (·.key)).Nodup) :
    Dataflow.Solves (params.valueOf handlers (decisionsIn log run.execution.id))
      (fun key => Run.missing run.tasks key = false) run.outputOf := by
  intro key isDone
  obtain ⟨task, membership, rfl, completed⟩ := Run.missing_eq_false.mp isDone
  have isTask : task.id = ⟨run.execution.id, task.key⟩ := by
    rw [Task.id, inv.graph.task_home task membership]
  rw [Run.outputOf_eq inv.graph.tasks_nodup membership, StartParams.valueOf, decisionsIn, ← isTask]
  cases decided : decisionIn log task.id with
  | some output => exact congrArg some (valued.decided task membership output decided).2
  | none =>
      obtain ⟨definition, found, isPlan⟩ := instantiates.definition keys_nodup membership
      have type : definition.type = task.type := congrArg TaskPlan.type isPlan
      have config : definition.config = task.config := congrArg TaskPlan.config isPlan
      have dependsOn : definition.dependsOn = task.dependsOn := congrArg TaskPlan.dependsOn isPlan
      simp only [found, Option.map_some, type, config, dependsOn, ← instantiates.input]
      exact congrArg some (valued.computed task membership completed decided)

namespace Schedule

/-- The handlers of a task type: the decision on the parent, or the input. -/
def decision : Handlers Plain := fun _ _ input parents =>
  match parents "A" with
  | some (.approval (some decidedBy) _ _) => .number decidedBy
  | _ => input

end Schedule

end WorkflowEngine
