import WorkflowEngine.Workflow.Attended
import WorkflowEngine.Workflow.Guarantees.Completions
import WorkflowEngine.Workflow.Guarantees.Levels
import WorkflowEngine.Workflow.Guarantees.Recovery

/-!
# Rounds of a run

The engine releases a task when its last parent is COMPLETED and knows nothing of levels.
When the tasks that were dispatched are always completed together, what it dispatches next
is nevertheless one level of the graph, as `validateDag` computes it in advance.
-/

namespace WorkflowEngine

open DocStore Precedence

variable {Val : Type}

/-! ## Dispatches in the log -/

/-- The task that the reply reports as dispatched. -/
def Reply.dispatched : Reply Val → Option TaskId
  | .dispatchTask taskId true => some taskId
  | _ => none

/-- The keys of the tasks of a run in the order in which they were dispatched. -/
abbrev dispatchedOf (executionId : ExecutionId) (log : List (Reply Val)) : List Key :=
  keysOf Reply.dispatched executionId log

theorem Reply.dispatched_about {reply : Reply Val} {taskId : TaskId}
    (isTask : reply.dispatched = some taskId) : reply.about = some taskId := by
  unfold Reply.dispatched at isTask
  split at isTask
  · exact isTask
  · cases isTask

variable [Mixed Val]

/-- The task has been dispatched and not been cancelled. -/
def Task.handedOver (task : Task Val) : Prop :=
  2 ≤ task.status.stage ∧ task.status ≠ .cancelled

/-- A step dispatches a READY task, or hands over nothing that was not handed over. -/
inductive Task.HandsOver (label : Option (Reply Val)) (task later : Task Val) : Prop where
  | now : label.bind Reply.dispatched = some task.id → task.status = .ready →
      later.handedOver → HandsOver label task later
  | other : label.bind Reply.dispatched ≠ some task.id →
      (later.handedOver → task.handedOver) → HandsOver label task later

theorem Task.Moves.handsOver {label : Option (Reply Val)} {task later : Task Val}
    (moves : Task.Moves label task later) : Task.HandsOver label task later := by
  have silent : label.bind Reply.about ≠ some task.id →
      label.bind Reply.dispatched ≠ some task.id := by
    intro other isTask
    cases label with
    | none => cases isTask
    | some reply => exact other (Reply.dispatched_about isTask)
  cases moves with
  | rest other => exact .other (silent other) fun handed => handed
  | promoted other =>
      refine .other (silent other) ?_
      rintro ⟨stage, _⟩
      simp [TaskStatus.stage] at stage
  | cancelled other =>
      refine .other (silent other) ?_
      rintro ⟨_, uncancelled⟩
      exact absurd rfl uncancelled
  | aborted =>
      refine .other (by simp [Reply.dispatched]) ?_
      rintro ⟨_, uncancelled⟩
      exact absurd rfl uncancelled
  | dispatched ready => exact .now rfl ready ⟨Nat.le_refl _, TaskStatus.noConfusion⟩
  | claimed free =>
      refine .other (by simp [Reply.dispatched]) fun _ => ?_
      cases status : task.status <;> simp [claimable, status] at free <;>
        simp [Task.handedOver, status, TaskStatus.stage]
  | renewed running | completed running | retried running | failed running | suspended running =>
      refine .other (by simp [Reply.dispatched]) fun _ => ?_
      simp [Task.handedOver, running, TaskStatus.stage]
  | approved waiting | rejected waiting =>
      refine .other (by simp [Reply.dispatched]) fun _ => ?_
      simp [Task.handedOver, waiting, TaskStatus.stage]

namespace Run

/-- The dispatches of a run as the log has them. -/
structure Dispatches (log : List (Reply Val)) (run : Run Val) : Prop where
  nodup : (dispatchedOf run.execution.id log).Nodup
  stage : ∀ task ∈ run.tasks, task.key ∈ dispatchedOf run.execution.id log →
    2 ≤ task.status.stage
  keys : ∀ key ∈ dispatchedOf run.execution.id log, ∃ task ∈ run.tasks, task.key = key
  complete : ∀ task ∈ run.tasks, task.handedOver →
    task.key ∈ dispatchedOf run.execution.id log

variable {missed : Key → Bool} {label : Option (Reply Val)} {run next : Run Val}

/-- A step dispatches a task that was not dispatched before, or none. -/
theorem Step.dispatches (step : Step missed label run next) (inv : run.Inv)
    {log : List (Reply Val)} (before : run.Dispatches log) :
    next.Dispatches (label.toList ++ log) := by
  have graph := inv.graph
  rcases step.moves graph.tasks_nodup with ⟨image, tasks, moves⟩
  have keyOf : ∀ task ∈ run.tasks, (image task).key = task.key :=
    fun task membership => congrArg TaskShape.key (moves task membership).evolves.shape
  have mem_next : ∀ later ∈ next.tasks, ∃ task ∈ run.tasks, image task = later := by
    intro later membership
    rw [tasks] at membership
    exact List.mem_map.mp membership
  by_cases dispatches : ∃ key, label.bind Reply.dispatched = some ⟨run.execution.id, key⟩
  · rcases dispatches with ⟨key, dispatches⟩
    have about : label.bind Reply.about = some ⟨run.execution.id, key⟩ := by
      cases label with
      | none => cases dispatches
      | some reply => exact Reply.dispatched_about dispatches
    rcases step.about about with ⟨task, membership, isTask⟩
    have isKey : task.key = key := congrArg TaskId.key isTask
    subst isKey
    have log_eq : dispatchedOf run.execution.id (label.toList ++ log) =
        dispatchedOf run.execution.id log ++ [task.key] := keysOf_append_some dispatches
    have isNow : task.status = .ready ∧ (image task).handedOver := by
      cases (moves task membership).handsOver with
      | now _ ready handed => exact ⟨ready, handed⟩
      | other unreported => exact absurd (dispatches.trans (congrArg some isTask.symm)) unreported
    constructor
    · rw [step.execution_id, log_eq]
      refine List.nodup_append.mpr ⟨before.nodup, List.nodup_singleton _, ?_⟩
      intro old isOld new isNew same
      rw [List.mem_singleton.mp isNew] at same
      have early := before.stage task membership (same ▸ isOld)
      rw [isNow.1] at early
      exact absurd early (by decide)
    · intro later laterMem isDispatched
      rcases mem_next later laterMem with ⟨other, otherMem, rfl⟩
      rw [step.execution_id, log_eq, keyOf other otherMem] at isDispatched
      rcases List.mem_append.mp isDispatched with old | new
      · exact Nat.le_trans (before.stage other otherMem old) (moves other otherMem).evolves.stage
      · cases graph.eq_of_key otherMem membership (List.mem_singleton.mp new)
        exact isNow.2.1
    · intro key isDispatched
      rw [step.execution_id, log_eq] at isDispatched
      rcases List.mem_append.mp isDispatched with old | new
      · rcases before.keys key old with ⟨other, otherMem, rfl⟩
        refine ⟨image other, ?_, keyOf other otherMem⟩
        rw [tasks]
        exact List.mem_map_of_mem otherMem
      · refine ⟨image task, ?_, (keyOf task membership).trans (List.mem_singleton.mp new).symm⟩
        rw [tasks]
        exact List.mem_map_of_mem membership
    · intro later laterMem handed
      rcases mem_next later laterMem with ⟨other, otherMem, rfl⟩
      rw [step.execution_id, log_eq, keyOf other otherMem, List.mem_append, List.mem_singleton]
      cases (moves other otherMem).handsOver with
      | now isOther =>
          have sameTask := Option.some.inj (isOther.symm.trans dispatches)
          exact .inr (congrArg TaskId.key sameTask)
      | other _ kept => exact .inl (before.complete other otherMem (kept handed))
  · have others : ∀ key, label.bind Reply.dispatched ≠ some ⟨run.execution.id, key⟩ :=
      fun key isKey => dispatches ⟨key, isKey⟩
    have log_eq : dispatchedOf run.execution.id (label.toList ++ log) =
        dispatchedOf run.execution.id log := keysOf_append_none others
    constructor
    · rw [step.execution_id, log_eq]
      exact before.nodup
    · intro later laterMem isDispatched
      rcases mem_next later laterMem with ⟨other, otherMem, rfl⟩
      rw [step.execution_id, log_eq, keyOf other otherMem] at isDispatched
      exact Nat.le_trans (before.stage other otherMem isDispatched)
        (moves other otherMem).evolves.stage
    · intro key isDispatched
      rw [step.execution_id, log_eq] at isDispatched
      rcases before.keys key isDispatched with ⟨other, otherMem, rfl⟩
      refine ⟨image other, ?_, keyOf other otherMem⟩
      rw [tasks]
      exact List.mem_map_of_mem otherMem
    · intro later laterMem handed
      rcases mem_next later laterMem with ⟨other, otherMem, rfl⟩
      rw [step.execution_id, log_eq, keyOf other otherMem]
      cases (moves other otherMem).handsOver with
      | now isOther =>
          rw [Task.id, graph.task_home other otherMem] at isOther
          exact absurd isOther (others other.key)
      | other _ kept => exact before.complete other otherMem (kept handed)

theorem start_dispatches {env : Env} {params : StartParams Val} {log : List (Reply Val)}
    (unknown : ∀ reply ∈ log, reply.target ≠ some env.objectId) :
    (start env params).Dispatches (.startExecution params (newExecution env params) :: log) := by
  have none : dispatchedOf (start env params).execution.id
      (.startExecution params (newExecution env params) :: log) = [] :=
    keysOf_start (fun _ _ => Reply.dispatched_about) unknown
  constructor
  · rw [none]
    exact .nil
  · intro task _ absurdity
    rw [none] at absurdity
    cases absurdity
  · intro key absurdity
    rw [none] at absurdity
    cases absurdity
  · rintro task membership ⟨stage, _⟩
    rcases List.mem_map.mp membership with ⟨definition, _, rfl⟩
    simp only [newTask] at stage
    split at stage <;> simp [TaskStatus.stage] at stage

end Run

theorem Sys.dispatches {allowed : Sys Val → Action Val → Prop} {sys : Sys Val}
    (reachable : (engineSystem Val).ReachableBy allowed sys) :
    ∀ execution ∈ sys.db.executions.values, (sys.db.runOf execution).Dispatches sys.log := by
  apply history (fun log run => run.Dispatches log) _ _ _ reachable
  · intro log env params _ unknown
    exact Run.start_dispatches unknown
  · intro label log run _ unnamed before
    have others : ∀ key, label.bind Reply.dispatched ≠ some ⟨run.execution.id, key⟩ := by
      intro key isKey
      cases label with
      | none => cases isKey
      | some reply => exact unnamed (Reply.target_of_about (Reply.dispatched_about isKey))
    have log_eq : dispatchedOf run.execution.id (label.toList ++ log) =
        dispatchedOf run.execution.id log := keysOf_append_none others
    exact ⟨by rw [log_eq]; exact before.nodup, by rw [log_eq]; exact before.stage,
      by rw [log_eq]; exact before.keys, by rw [log_eq]; exact before.complete⟩
  · intro sys next action label execution run stepped _ member ran before
    rw [stepped.log]
    exact ran.dispatches (stepped.inv.db.runInv member) before

/-! ## SettledRun states -/

namespace Run

/-- The run is RUNNING and has no READY task, or it is COMPLETED. -/
def Rests (run : Run Val) : Prop :=
  (run.execution.status = .running ∧ ∀ task ∈ run.tasks, task.status ≠ .ready) ∨
    run.execution.status = .completed

variable {run : Run Val} {task : Task Val}

omit [Mixed Val] in
theorem Rests.live_or_completed (rests : run.Rests) (inv : run.Inv) (membership : task ∈ run.tasks) :
    task.status.unsuccessful = false := by
  cases rests with
  | inl running => exact inv.counted.live (by rw [running.1]; rfl) task membership
  | inr completed =>
      rw [inv.counted.completed completed task membership]
      rfl

omit [Mixed Val] in
/-- A task that was dispatched has COMPLETED parents. -/
theorem Dispatches.enabled {log : List (Reply Val)} (dispatches : run.Dispatches log)
    (rests : run.Rests) (inv : run.Inv) (membership : task ∈ run.tasks)
    (isDispatched : task.key ∈ dispatchedOf run.execution.id log) {dep : Key}
    (isDep : dep ∈ task.dependsOn) : missing run.tasks dep = false := by
  have stage := dispatches.stage task membership isDispatched
  have successful := rests.live_or_completed inv membership
  apply inv.ordered.enabled task membership _ _ dep isDep
  · intro pending
    simp [pending, TaskStatus.stage] at stage
  · intro cancelled
    simp [cancelled, TaskStatus.unsuccessful] at successful

omit [Mixed Val] in
/-- At rest every task whose parents are COMPLETED has been dispatched. -/
theorem Dispatches.of_enabled {log : List (Reply Val)} (dispatches : run.Dispatches log)
    (rests : run.Rests) (inv : run.Inv) (membership : task ∈ run.tasks)
    (enabled : ∀ dep ∈ task.dependsOn, missing run.tasks dep = false) :
    task.key ∈ dispatchedOf run.execution.id log := by
  apply dispatches.complete task membership
  cases rests with
  | inr completed =>
      rw [Task.handedOver, inv.counted.completed completed task membership]
      exact ⟨Nat.le_of_ble_eq_true rfl, TaskStatus.noConfusion⟩
  | inl running =>
      rcases running with ⟨running, noneReady⟩
      have live : run.execution.status.live = true := by rw [running]; rfl
      have successful := inv.counted.live live task membership
      have notReady := noneReady task membership
      have notPending : task.status ≠ .pending := by
        intro pending
        apply inv.ordered.promoted running task membership pending
        rw [inv.ordered.remaining live task membership, Int.natCast_eq_zero, List.countP_eq_zero]
        intro dep isDep absent
        rw [enabled dep isDep] at absent
        cases absent
      cases status : task.status <;>
        simp [status, TaskStatus.unsuccessful] at notReady notPending successful <;>
        simp [Task.handedOver, status, TaskStatus.stage]

end Run

/-- All calls have ended without a crash, and the run, which instantiates the
definition, is RUNNING or COMPLETED. -/
structure SettledRun (params : StartParams Val) (executionId : ExecutionId) (sys : Sys Val) :
    Prop where
  reachable : (engineSystem Val).ReachableBy (fun sys action => sys.steady action = true) sys
  ended : ∀ stack ∈ sys.calls, stack = []
  started : ∃ created, .startExecution params created ∈ sys.log ∧ created.id = executionId
  healthy : ∃ execution ∈ sys.db.executions.values, execution.id = executionId ∧
    (execution.status = .running ∨ execution.status = .completed)

namespace SettledRun

variable {params : StartParams Val} {executionId : ExecutionId} {sys : Sys Val}

/-- What is known of the run in such a state. -/
theorem exists_run (settled : SettledRun params executionId sys) :
    ∃ execution ∈ sys.db.executions.values, execution.id = executionId ∧
      (validateDag params.dag).valid = true ∧ (sys.db.runOf execution).Instantiates params ∧
      (sys.db.runOf execution).InOrder sys.log ∧ (sys.db.runOf execution).Dispatches sys.log ∧
      (sys.db.runOf execution).Rests := by
  rcases settled.started with ⟨created, started, isId⟩
  rcases settled.healthy with ⟨execution, membership, isRun, healthy⟩
  have reachable := settled.reachable
  have same := isId.trans isRun.symm
  refine ⟨execution, membership, isRun, Sys.accepted reachable started membership same,
    Sys.instantiates reachable started membership same, Sys.inOrder reachable execution membership,
    Sys.dispatches reachable execution membership, ?_⟩
  cases healthy with
  | inl running =>
      refine .inl ⟨running, fun task taskMem => ?_⟩
      exact (Sys.attended reachable).not_ready settled.ended membership running taskMem
  | inr completed => exact .inr completed

/-- The dispatched tasks are those whose dependencies are COMPLETED. -/
theorem dispatched_iff (settled : SettledRun params executionId sys) {key : Key}
    (isKey : key ∈ params.dag.map (·.key)) :
    key ∈ dispatchedOf executionId sys.log ↔
      ∀ dep, Needs params.dag key dep → dep ∈ completionsOf executionId sys.log := by
  rcases settled.exists_run with
    ⟨execution, membership, rfl, _, instantiates, inOrder, dispatches, rests⟩
  have inv := (Sys.inv_of_reachableBy settled.reachable).db.runInv membership
  rw [← instantiates.keys] at isKey
  rcases List.mem_map.mp isKey with ⟨task, taskMem, rfl⟩
  have done_iff : ∀ dep, dep ∈ completionsOf execution.id sys.log ↔
      Run.missing (sys.db.runOf execution).tasks dep = false := inOrder.completed
  constructor
  · intro isDispatched dep needed
    rcases instantiates.parent_iff.mpr needed with ⟨other, otherMem, sameKey, isDep⟩
    cases inv.graph.eq_of_key otherMem taskMem sameKey
    rw [done_iff]
    exact dispatches.enabled rests inv taskMem isDispatched isDep
  · intro completed
    apply dispatches.of_enabled rests inv taskMem
    intro dep isDep
    rw [← done_iff]
    exact completed dep (instantiates.parent_iff.mp ⟨task, taskMem, rfl, isDep⟩)

theorem dispatched_keys (settled : SettledRun params executionId sys) {key : Key}
    (isDispatched : key ∈ dispatchedOf executionId sys.log) : key ∈ params.dag.map (·.key) := by
  rcases settled.exists_run with ⟨execution, _, rfl, _, instantiates, _, dispatches, _⟩
  rcases dispatches.keys key isDispatched with ⟨task, taskMem, rfl⟩
  rw [← instantiates.keys]
  exact List.mem_map_of_mem taskMem

theorem dispatched_nodup (settled : SettledRun params executionId sys) :
    (dispatchedOf executionId sys.log).Nodup := by
  rcases settled.exists_run with ⟨execution, _, rfl, _, _, _, dispatches, _⟩
  exact dispatches.nodup

/-- The run is COMPLETED as soon as every task of its definition is. -/
theorem completed_iff (settled : SettledRun params executionId sys) (nonempty : params.dag ≠ [])
    {execution : WorkflowExecution Val} (membership : execution ∈ sys.db.executions.values)
    (isRun : execution.id = executionId) : execution.status = .completed ↔
      ∀ key ∈ params.dag.map (·.key), key ∈ completionsOf executionId sys.log := by
  rcases settled.exists_run with
    ⟨other, otherMem, same, _, instantiates, inOrder, _, rests⟩
  have dbInv := (Sys.inv_of_reachableBy settled.reachable).db
  cases dbInv.eq_of_id otherMem membership (same.trans isRun.symm)
  have inv := dbInv.runInv membership
  have done_iff : ∀ key, key ∈ completionsOf executionId sys.log ↔
      Run.missing (sys.db.runOf execution).tasks key = false := by
    subst isRun
    exact inOrder.completed
  rw [← instantiates.keys]
  constructor
  · intro completed key isKey
    rcases List.mem_map.mp isKey with ⟨task, taskMem, rfl⟩
    rw [done_iff, Run.missing_eq_false]
    exact ⟨task, taskMem, rfl, inv.counted.completed completed task taskMem⟩
  · intro all
    cases rests with
    | inr completed => exact completed
    | inl running =>
        have tasks_ne : (sys.db.runOf execution).tasks ≠ [] := by
          intro empty
          have keys := instantiates.keys
          rw [empty] at keys
          exact nonempty (List.map_eq_nil_iff.mp keys.symm)
        refine absurd ?_ (inv.counted.running running.1 tasks_ne)
        rw [inv.counted.pendingTasks, Int.natCast_eq_zero, List.countP_eq_zero]
        intro task taskMem unfinished
        have done := (done_iff task.key).mp (all _ (List.mem_map_of_mem taskMem))
        rcases Run.missing_eq_false.mp done with ⟨twin, twinMem, sameKey, completed⟩
        cases inv.graph.eq_of_key twinMem taskMem sameKey
        rw [completed] at unfinished
        cases unfinished

end SettledRun

/-! ## The guarantee -/

/-- A run that is driven in rounds: after every round all calls have ended, and a round
completes what was dispatched until then.  The list has the tasks that each dispatched. -/
inductive Driven (params : StartParams Val) (executionId : ExecutionId) :
    List (List Key) → Sys Val → Prop where
  | start {sys : Sys Val} : SettledRun params executionId sys →
      completionsOf executionId sys.log = [] →
      Driven params executionId [dispatchedOf executionId sys.log] sys
  | round {rounds : List (List Key)} {sys later : Sys Val} : Driven params executionId rounds sys →
      (engineSystem Val).Leads sys later → SettledRun params executionId later →
      (∀ key, key ∈ completionsOf executionId later.log ↔
        key ∈ dispatchedOf executionId sys.log) →
      Driven params executionId (rounds ++
        [(dispatchedOf executionId later.log).drop (dispatchedOf executionId sys.log).length]) later

/-! ### The levels of a driven run -/

section Levels

variable {params : StartParams Val} {executionId : ExecutionId} {sys : Sys Val} {i : Nat}

/-- What was dispatched reaches one level higher than what is COMPLETED. -/
theorem SettledRun.dispatched_levels (settled : SettledRun params executionId sys)
    (completions : ∀ key, key ∈ completionsOf executionId sys.log ↔
      key ∈ ((kahn params.dag).levels.take i).flatten) (key : Key) :
    key ∈ dispatchedOf executionId sys.log ↔
      key ∈ ((kahn params.dag).levels.take (i + 1)).flatten := by
  rcases settled.exists_run with ⟨_, _, _, accepted, _⟩
  have layered := accepted_layered accepted
  by_cases isKey : key ∈ params.dag.map (·.key)
  · rw [settled.dispatched_iff isKey, layered.mem_take_succ ((mem_levels accepted).mp isKey)]
    simp only [completions]
  · constructor
    · intro isDispatched
      exact absurd (settled.dispatched_keys isDispatched) isKey
    · intro isLevel
      rcases Layered.mem_take.mp isLevel with ⟨j, level, _, found, membership⟩
      have flat := Layered.mem_flatten.mpr ⟨j, level, found, membership⟩
      exact absurd ((mem_levels accepted).mpr flat) isKey

/-- The rounds are the levels, and the COMPLETED tasks are those of all rounds but the
last. -/
structure Levelled (params : StartParams Val) (executionId : ExecutionId)
    (rounds : List (List Key)) (sys : Sys Val) : Prop where
  nonempty : 0 < rounds.length
  completions : ∀ key, key ∈ completionsOf executionId sys.log ↔
    key ∈ ((kahn params.dag).levels.take (rounds.length - 1)).flatten
  dispatched : ∀ key, key ∈ dispatchedOf executionId sys.log ↔
    key ∈ ((kahn params.dag).levels.take rounds.length).flatten
  perm : ∀ (i : Nat) (round : List Key), rounds[i]? = some round →
    round.Perm ((kahn params.dag).levels.getD i [])

variable {rounds : List (List Key)}

theorem Driven.settled (driven : Driven params executionId rounds sys) :
    SettledRun params executionId sys := by
  cases driven with
  | start settled => exact settled
  | round _ _ settled => exact settled

theorem Driven.levelled (driven : Driven params executionId rounds sys) :
    Levelled params executionId rounds sys := by
  induction driven with
  | @start sys settled fresh =>
      rcases settled.exists_run with ⟨_, _, _, accepted, _⟩
      have completions : ∀ key, key ∈ completionsOf executionId sys.log ↔
          key ∈ ((kahn params.dag).levels.take 0).flatten := by
        simp [fresh]
      have dispatched := settled.dispatched_levels completions
      refine ⟨Nat.one_pos, completions, dispatched, ?_⟩
      intro i round found
      cases i with
      | zero =>
          cases found
          have nodup : ([] ++ dispatchedOf executionId sys.log).Nodup := settled.dispatched_nodup
          exact (accepted_layered accepted).perm_level nodup (by simp) dispatched
      | succ i => cases found
  | @round rounds sys later driven leads settled completes ih =>
      rcases settled.exists_run with ⟨_, _, _, accepted, _⟩
      have completions : ∀ key, key ∈ completionsOf executionId later.log ↔
          key ∈ ((kahn params.dag).levels.take rounds.length).flatten :=
        fun key => (completes key).trans (ih.dispatched key)
      have dispatched := settled.dispatched_levels completions
      have length : ∀ new : List Key, (rounds ++ [new]).length = rounds.length + 1 :=
        fun _ => List.length_append
      refine ⟨by rw [length]; exact Nat.succ_pos _, by rw [length]; exact completions,
        by rw [length]; exact dispatched, ?_⟩
      intro i round found
      by_cases old : i < rounds.length
      · rw [List.getElem?_append_left old] at found
        exact ih.perm i round found
      · have isLast : i = rounds.length := by
          have bound := (List.getElem?_eq_some_iff.mp found).1
          rw [length] at bound
          omega
        subst isLast
        rw [List.getElem?_append_right (Nat.le_refl _), Nat.sub_self] at found
        cases found
        have grown : dispatchedOf executionId sys.log <+: dispatchedOf executionId later.log :=
          keysOf_prefix (Sys.log_suffix leads)
        have parts := List.prefix_iff_eq_append.mp grown
        apply (accepted_layered accepted).perm_level _ ih.dispatched
        · rw [parts]
          exact dispatched
        · rw [parts]
          exact settled.dispatched_nodup

end Levels

/-- The engine knows no levels: it releases a task with its last dependency.  Yet when a
run is driven in rounds that complete all that was dispatched, whatever the order in which
workers and processes move within a round, the rounds are the levels that `validateDag`
computes, and the run is COMPLETED exactly when all of them were driven. -/
theorem rounds_are_levels {params : StartParams Val} {executionId : ExecutionId}
    {rounds : List (List Key)} {sys : Sys Val} (driven : Driven params executionId rounds sys) :
    (∀ (i : Nat) (round : List Key), rounds[i]? = some round →
      round.Perm ((validateDag params.dag).levels.getD i [])) ∧
    (params.dag ≠ [] → ∀ execution ∈ sys.db.executions.values, execution.id = executionId →
      (execution.status = .completed ↔ (validateDag params.dag).levels.length < rounds.length)) := by
  have settled := driven.settled
  have levelled := driven.levelled
  rcases settled.exists_run with ⟨_, _, _, accepted, _⟩
  rcases accepted_iff.mp accepted with ⟨structural, processed⟩
  have layered := accepted_layered accepted
  rw [validateDag_eq structural processed]
  refine ⟨levelled.perm, ?_⟩
  intro nonempty execution membership isRun
  rw [settled.completed_iff nonempty membership isRun]
  simp only [levelled.completions, mem_levels accepted]
  constructor
  · intro all
    by_contra few
    have bound : rounds.length - 1 < (kahn params.dag).levels.length := by
      have := levelled.nonempty
      omega
    have level_ne := layered.nonempty _ (List.getElem_mem bound)
    rcases List.exists_mem_of_ne_nil _ level_ne with ⟨key, isKey⟩
    have found := List.getElem?_eq_getElem bound
    rcases Layered.mem_take.mp (all key (Layered.mem_flatten.mpr ⟨_, _, found, isKey⟩)) with
      ⟨j, level, below, isLevel, inLevel⟩
    exact absurd (layered.level_unique isLevel inLevel found isKey) (Nat.ne_of_lt below)
  · intro many key isKey
    rw [List.take_of_length_le (Nat.le_sub_one_of_lt many)]
    exact isKey

namespace Schedule

/-- A chain of two tasks, started. -/
def chainDispatched : List (Action Plain) :=
  start [definition "A" [], definition "B" ["A"]] :: steps 0 [1, 2, 3, 4, 5, 6]

def firstCompleted : List (Action Plain) :=
  .invoke (.startTask ⟨2, "A"⟩ "w") :: steps 1 [7, 8, 9, 10, 11, 12, 13] ++
    call (.completeTask ⟨2, "A"⟩ 1 (.number 5)) :: steps 2 [14, 15, 16, 17, 18, 19]

def secondCompleted : List (Action Plain) :=
  .invoke (.startTask ⟨2, "B"⟩ "w") :: steps 3 [20, 21, 22, 23, 24, 25, 26] ++
    call (.completeTask ⟨2, "B"⟩ 1 (.number 8)) :: steps 4 [27, 28, 29]

/-- Where a schedule without crashes leads from a state. -/
def steadily (sys : Sys Plain) (actions : List (Action Plain)) : Sys Plain :=
  ((engineSystem Plain).runBy Sys.steady sys actions).getD sys

theorem steadily_run {sys : Sys Plain} {actions : List (Action Plain)}
    (runs : ((engineSystem Plain).runBy Sys.steady sys actions).isSome = true) :
    (engineSystem Plain).runBy Sys.steady sys actions = some (steadily sys actions) := by
  rcases Option.isSome_iff_exists.mp runs with ⟨later, isLater⟩
  rw [steadily, isLater]
  rfl

/-- The definition that `start` starts. -/
def chainParams : StartParams Plain :=
  { workflow := { id := 1, ownerId := 1, version := 1,
                  tasks := [definition "A" [], definition "B" ["A"]] }
    input := .number 7, triggeredBy := none, trigger := .manual, idempotencyKey := none
    requestHash := none }

/-- The run has been started. -/
def ChainStarted (sys : Sys Plain) : Prop :=
  ∃ created, .startExecution chainParams created ∈ sys.log ∧ created.id = 2

theorem ChainStarted.later {sys later : Sys Plain} (started : ChainStarted sys)
    (leads : (engineSystem Plain).Leads sys later) : ChainStarted later := by
  rcases started with ⟨created, started, isTwo⟩
  exact ⟨created, (Sys.log_suffix leads).subset started, isTwo⟩

/-- A state in which all calls have ended. -/
theorem settled_chain {sys : Sys Plain}
    (reachable : (engineSystem Plain).ReachableBy
      (fun sys action => sys.steady action = true) sys)
    (started : ChainStarted sys) (ended : sys.calls.all List.isEmpty = true)
    (healthy : ∃ execution ∈ sys.db.executions.values, execution.id = 2 ∧
      (execution.status = .running ∨ execution.status = .completed)) :
    SettledRun chainParams 2 sys := by
  refine ⟨reachable, ?_, started, healthy⟩
  intro stack membership
  exact List.isEmpty_iff.mp (List.all_eq_true.mp ended stack membership)

def chainFirst : Sys Plain := steadily Sys.init chainDispatched

def chainSecond : Sys Plain := steadily chainFirst firstCompleted

def chainThird : Sys Plain := steadily chainSecond secondCompleted

theorem run_first :
    (engineSystem Plain).runBy Sys.steady Sys.init chainDispatched = some chainFirst :=
  steadily_run (by decide)

theorem run_second :
    (engineSystem Plain).runBy Sys.steady chainFirst firstCompleted = some chainSecond :=
  steadily_run (by decide)

theorem run_third :
    (engineSystem Plain).runBy Sys.steady chainSecond secondCompleted = some chainThird :=
  steadily_run (by decide)

theorem leads_second : (engineSystem Plain).Leads chainFirst chainSecond :=
  Transition.System.runBy_leads run_second

theorem leads_third : (engineSystem Plain).Leads chainSecond chainThird :=
  Transition.System.runBy_leads run_third

theorem settled_first : SettledRun chainParams 2 chainFirst := by
  have reachable := Transition.System.runBy_reachableBy .init run_first
  exact settled_chain reachable ⟨_, List.mem_of_getLast? rfl, rfl⟩ (by decide) (by decide)

theorem settled_second : SettledRun chainParams 2 chainSecond := by
  have reachable := Transition.System.runBy_reachableBy settled_first.reachable run_second
  have started : ChainStarted chainFirst := settled_first.started
  exact settled_chain reachable (started.later leads_second) (by decide) (by decide)

theorem settled_third : SettledRun chainParams 2 chainThird := by
  have reachable := Transition.System.runBy_reachableBy settled_second.reachable run_third
  have started : ChainStarted chainSecond := settled_second.started
  exact settled_chain reachable (started.later leads_third) (by decide) (by decide)

theorem driven_chain : Driven chainParams 2 [["A"], ["B"], []] chainThird := by
  have first : dispatchedOf 2 chainFirst.log = ["A"] := by decide
  have second : dispatchedOf 2 chainSecond.log = ["A", "B"] := by decide
  have third : dispatchedOf 2 chainThird.log = ["A", "B"] := by decide
  have afterFirst : completionsOf 2 chainSecond.log = ["A"] := by decide
  have afterSecond : completionsOf 2 chainThird.log = ["A", "B"] := by decide
  have started := Driven.start settled_first (by decide)
  have once := Driven.round started leads_second settled_second
    (fun key => by rw [afterFirst, first])
  have twice := Driven.round once leads_third settled_third
    (fun key => by rw [afterSecond, second])
  rw [first, second, third] at twice
  exact twice

end Schedule

theorem rounds_are_levels_chain :
    (validateDag Schedule.chainParams.dag).levels = [["A"], ["B"]] ∧
      ∃ execution ∈ Schedule.chainThird.db.executions.values,
        execution.id = 2 ∧ execution.status = .completed := by
  have levels : (validateDag Schedule.chainParams.dag).levels = [["A"], ["B"]] := by
    decide +kernel
  have nonempty : Schedule.chainParams.dag ≠ [] := by decide
  rcases Schedule.settled_third.healthy with ⟨execution, membership, isRun, _⟩
  refine ⟨levels, execution, membership, isRun, ?_⟩
  rw [(rounds_are_levels Schedule.driven_chain).2 nonempty execution membership isRun, levels]
  exact Nat.lt_succ_self _

end WorkflowEngine
