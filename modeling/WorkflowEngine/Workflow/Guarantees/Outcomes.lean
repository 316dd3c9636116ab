import WorkflowEngine.Workflow.History
import WorkflowEngine.Workflow.Run.Ends
import WorkflowEngine.Workflow.Run.Events

/-!
# What a run says about its end

An execution that ended says when and why.  The failure it reports is the one that
ended it: the failure recorded with a task that failed for good, announced once, and
not replaced by the failures that follow it.
-/

namespace WorkflowEngine

open DocStore

variable {Val : Type}

/-- A task that failed for good is not changed any more. -/
theorem Task.Moves.of_finished [Mixed Val] {label : Option (Reply Val)} {task later : Task Val}
    (moves : Task.Moves label task later) (finished : task.status.unfinished = false) :
    ∃ remainingDeps, later = { task with remainingDeps } := by
  cases moves with
  | @rest _ _ remainingDeps => exact ⟨remainingDeps, rfl⟩
  | promoted _ status | dispatched status | completed status | retried status
  | failed status | suspended status | approved status | rejected status =>
      rw [status] at finished
      cases finished
  | cancelled _ unstarted =>
      rw [TaskStatus.unfinished_of_unstarted unstarted] at finished
      cases finished
  | aborted unfinished =>
      rw [unfinished] at finished
      cases finished
  | renewed status =>
      rw [status] at finished
      cases finished
  | claimed free =>
      cases status : task.status with
      | completed | failed | deadLetter | cancelled =>
          rw [claimable, status] at free
          cases free
      | pending | ready | queued | running | retrying | waitingForApproval =>
          rw [status] at finished
          cases finished

namespace Run

/-- The rows that announce the failure of the run. -/
def failureRows (run : Run Val) : List (EventType × EventPayload) :=
  run.events.filter (isType .executionFailed)

/-- The execution reports the failure of this task, with this message. -/
structure Blames (run : Run Val) (task : Task Val) (outcome : FailureOutcome) (message : String) :
    Prop where
  membership : task ∈ run.tasks
  status : task.status = outcome.status
  error : task.error = some message
  reported : run.execution.error = some (failureText task outcome message)
  completedAt : run.execution.completedAt = task.completedAt
  ended : task.completedAt.isSome = true
  announced : run.failureRows = [(.executionFailed, .executionFailed task.key message)]

/-- What an execution says about its end is what happened. -/
inductive Truthful (run : Run Val) : Prop where
  | unended :
      run.execution.status.live = true → run.execution.error = none →
      run.execution.completedAt = none → run.failureRows = [] → Truthful run
  | completed {now : Time} :
      run.execution.status = .completed → run.execution.error = none →
      run.execution.completedAt = some now → run.failureRows = [] → Truthful run
  | cancelled {now : Time} :
      run.execution.status = .cancelled → run.execution.error = some "Cancelled by user" →
      run.execution.completedAt = some now → run.failureRows = [] → Truthful run
  | failed {task : Task Val} {outcome : FailureOutcome} {message : String} :
      run.execution.status = .failed → run.Blames task outcome message → Truthful run

/-! ## Rows -/

theorem failureRows_emit {events : List (EventType × EventPayload)} {run : Run Val}
    (others : events.filter (isType .executionFailed) = []) :
    (emit events run).failureRows = run.failureRows := by
  rw [failureRows, emit, List.filter_append, others, List.append_nil]
  rfl

theorem failureRows_succeed (task : Task Val) (now : Time) (run : Run Val) :
    (succeed task now run).failureRows = run.failureRows := by
  rw [failureRows, succeed, List.filter_append, List.filter_append]
  cases done run.execution with
  | false => simp [failureRows, isType]
  | true => simp [failureRows, isType]

theorem failureRows_fail (task : Task Val) (outcome : FailureOutcome) (message : String)
    (retryable : Bool) (missed : Key → Bool) (now : Time) (run : Run Val) :
    (Run.fail task outcome message retryable missed now run).failureRows = run.failureRows ++
      if run.execution.status.live then [(.executionFailed, .executionFailed task.key message)]
      else [] := by
  have other : ([(outcome.eventType, .taskFailed task.id task.key task.attempt message
      retryable)] : List (EventType × EventPayload)).filter (isType .executionFailed) = [] := by
    cases outcome with
    | failed => rfl
    | deadLetter => rfl
  by_cases live : run.execution.status.live = true
  · rw [if_pos live, failureRows, Run.fail, if_pos live]
    show (run.events ++ ([_] ++ [_])).filter _ = _
    rw [List.filter_append, List.filter_append, other]
    rfl
  · rw [if_neg live, failureRows, Run.fail, if_neg live]
    show (run.events ++ [_]).filter _ = _
    rw [List.filter_append, other]
    rfl

/-! ## A run that ended -/

section Ended

variable [Mixed Val] {missed : Key → Bool} {label : Option (Reply Val)} {run next : Run Val}

/-- The fields of an execution in which it tells of its end. -/
structure SameEnd (run next : Run Val) : Prop where
  status : next.execution.status = run.execution.status
  error : next.execution.error = run.execution.error
  completedAt : next.execution.completedAt = run.execution.completedAt
  failureRows : next.failureRows = run.failureRows

omit [Mixed Val] in
theorem counted_of_ended {execution : WorkflowExecution Val} (now : Time)
    (ended : execution.status.live = false) :
    Run.counted now execution = { execution with pendingTasks := execution.pendingTasks - 1 } := by
  have notDone : ¬ done execution = true := by
    intro last
    rw [done, Bool.and_eq_true, decide_eq_true_eq] at last
    rw [last.1] at ended
    cases ended
  rw [Run.counted, if_neg notDone]

omit [Mixed Val] in
theorem SameEnd.counted {before : Run Val} (ended : run.execution.status.live = false)
    (execution : before.execution = run.execution) (events : before.events = run.events)
    (task : Task Val) (now : Time) : SameEnd run (succeed task now before) := by
  have rows : before.failureRows = run.failureRows :=
    congrArg (List.filter (isType .executionFailed)) events
  have counts : (succeed task now before).execution =
      { run.execution with pendingTasks := run.execution.pendingTasks - 1 } := by
    rw [← counted_of_ended now ended, ← execution]
    rfl
  constructor
  · rw [counts]
  · rw [counts]
  · rw [counts]
  · rw [failureRows_succeed, rows]

omit [Mixed Val] in
theorem SameEnd.failing {before : Run Val} (ended : run.execution.status.live = false)
    (execution : before.execution = run.execution) (events : before.events = run.events)
    (task : Task Val) (outcome : FailureOutcome) (message : String) (retryable : Bool)
    (missed : Key → Bool) (now : Time) :
    SameEnd run (Run.fail task outcome message retryable missed now before) := by
  have dead : ¬ before.execution.status.live = true := by
    rw [execution, ended]
    exact Bool.false_ne_true
  have rows : before.failureRows = run.failureRows :=
    congrArg (List.filter (isType .executionFailed)) events
  constructor
  · rw [Run.fail, if_neg dead, execution]
  · rw [Run.fail, if_neg dead, execution]
  · rw [Run.fail, if_neg dead, execution]
  · rw [failureRows_fail, if_neg dead, List.append_nil, rows]

omit [Mixed Val] in
theorem SameEnd.emitted {before : Run Val} {events : List (EventType × EventPayload)}
    (same : SameEnd run before) (others : events.filter (isType .executionFailed) = []) :
    SameEnd run (emit events before) :=
  ⟨same.status, same.error, same.completedAt, (failureRows_emit others).trans same.failureRows⟩

/-- No step changes what a run that ended says about its end. -/
theorem Step.sameEnd (step : Step missed label run next)
    (ended : run.execution.status.live = false) : SameEnd run next := by
  have same : SameEnd run run := ⟨rfl, rfl, rfl, rfl⟩
  cases step with
  | pause status | resume status =>
      rw [status] at ended
      cases ended
  | cancel live =>
      rw [live] at ended
      cases ended
  | dispatch | claim | renew => exact ⟨rfl, rfl, rfl, rfl⟩
  | announce | retry | suspend =>
      apply SameEnd.emitted
      · exact ⟨rfl, rfl, rfl, rfl⟩
      · rfl
  | complete =>
      apply SameEnd.counted ended
      · rfl
      · rfl
  | fail =>
      apply SameEnd.failing ended
      · rfl
      · rfl
  | approve =>
      apply SameEnd.emitted
      · apply SameEnd.counted ended
        · rfl
        · rfl
      · rfl
  | reject =>
      apply SameEnd.emitted
      · apply SameEnd.failing ended
        · rfl
        · rfl
      · rfl

/-- The task that a run blames stays to be blamed. -/
theorem Blames.kept (step : Step missed label run next) (inv : run.Inv) {task : Task Val}
    {outcome : FailureOutcome} {message : String} (failed : run.execution.status = .failed)
    (blames : run.Blames task outcome message) :
    ∃ later, next.Blames later outcome message := by
  have ended : run.execution.status.live = false := by
    rw [failed]
    rfl
  have finished : task.status.unfinished = false := by
    rw [blames.status]
    cases outcome with
    | failed => rfl
    | deadLetter => rfl
  have same := step.sameEnd ended
  rcases step.moves inv.graph.tasks_nodup with ⟨image, tasks, moves⟩
  rcases (moves task blames.membership).of_finished finished with ⟨remainingDeps, isLater⟩
  refine ⟨image task, ?_, ?_, ?_, ?_, ?_, ?_, ?_⟩
  · rw [tasks]
    exact List.mem_map_of_mem blames.membership
  · rw [isLater]
    exact blames.status
  · rw [isLater]
    exact blames.error
  · rw [same.error, blames.reported, isLater]
    rfl
  · rw [same.completedAt, blames.completedAt, isLater]
  · rw [isLater]
    exact blames.ended
  · rw [same.failureRows, blames.announced, isLater]

end Ended

/-! ## The step that ends a run -/

section Ends

variable {run : Run Val}

/-- A live run of which nothing has been told. -/
structure Unended (run : Run Val) : Prop where
  live : run.execution.status.live = true
  error : run.execution.error = none
  completedAt : run.execution.completedAt = none
  failureRows : run.failureRows = []

theorem Unended.truthful (unended : run.Unended) : run.Truthful :=
  .unended unended.live unended.error unended.completedAt unended.failureRows

theorem Unended.succeed (unended : run.Unended) (task : Task Val) (now : Time) :
    (succeed task now run).Truthful := by
  have rows : (Run.succeed task now run).failureRows = [] := by
    rw [failureRows_succeed, unended.failureRows]
  cases last : done run.execution with
  | true =>
      have ended : (Run.succeed task now run).execution.completedAt = some now := by
        simp [Run.succeed, counted, last]
      refine .completed ?_ ?_ ended rows
      · simp [Run.succeed, counted, last]
      · simp [Run.succeed, counted, last, unended.error]
  | false =>
      apply Truthful.unended
      · simp [Run.succeed, counted, last, unended.live]
      · simp [Run.succeed, counted, last, unended.error]
      · simp [Run.succeed, counted, last, unended.completedAt]
      · exact rows

/-- The failure that ends a run is the one that the run reports. -/
theorem Unended.fail {tasks : List (Task Val)} {task failed : Task Val}
    {outcome : FailureOutcome} {message : String} {retryable : Bool} {missed : Key → Bool}
    {now : Time} (unended : run.Unended) (isTasks : run.tasks = replaceIn failed tasks)
    (membership : task ∈ tasks) (key : failed.key = task.key) (attempt : failed.attempt = task.attempt)
    (status : failed.status = outcome.status) (error : failed.error = some message)
    (completedAt : failed.completedAt = some now) :
    (Run.fail task outcome message retryable missed now run).Truthful := by
  have spared : failedFast missed now failed = failed := by
    rw [failedFast, hit, status]
    cases outcome with
    | failed => rfl
    | deadLetter => rfl
  have rows : (Run.fail task outcome message retryable missed now run).failureRows =
      [(.executionFailed, .executionFailed failed.key message)] := by
    rw [failureRows_fail, if_pos unended.live, unended.failureRows, key]
    rfl
  have text : failureText failed outcome message = failureText task outcome message := by
    simp only [failureText, key, attempt]
  have isFailed : (Run.fail task outcome message retryable missed now run).execution.status =
      .failed := by
    rw [Run.fail, if_pos unended.live]
  refine .failed isFailed ⟨?_, status, error, ?_, ?_, ?_, rows⟩
  · rw [Run.fail, if_pos unended.live]
    show failed ∈ run.tasks.map (failedFast missed now)
    rw [isTasks]
    refine List.mem_map.mpr ⟨failed, ?_, spared⟩
    exact List.mem_map.mpr ⟨task, membership, if_pos key.symm⟩
  · rw [Run.fail, if_pos unended.live, text]
  · rw [Run.fail, if_pos unended.live, completedAt]
  · rw [completedAt]
    rfl

theorem Blames.emitted {task : Task Val} {outcome : FailureOutcome} {message : String}
    {events : List (EventType × EventPayload)} (blames : run.Blames task outcome message)
    (others : events.filter (isType .executionFailed) = []) :
    (emit events run).Blames task outcome message :=
  ⟨blames.membership, blames.status, blames.error, blames.reported, blames.completedAt,
    blames.ended, (failureRows_emit others).trans blames.announced⟩

theorem Truthful.emitted {events : List (EventType × EventPayload)} (truthful : run.Truthful)
    (others : events.filter (isType .executionFailed) = []) : (emit events run).Truthful := by
  have rows : (emit events run).failureRows = run.failureRows := failureRows_emit others
  cases truthful with
  | unended live error completedAt none => exact .unended live error completedAt (rows.trans none)
  | completed status error completedAt none =>
      exact .completed status error completedAt (rows.trans none)
  | cancelled status error completedAt none =>
      exact .cancelled status error completedAt (rows.trans none)
  | failed status blames => exact .failed status (blames.emitted others)

variable [Mixed Val]

/-- A live run whose failure has not been told goes on, or says why it ended. -/
theorem Step.truthful_of_unended {missed : Key → Bool} {label : Option (Reply Val)} {next : Run Val}
    (step : Step missed label run next) (unended : run.Unended) : next.Truthful := by
  have truthful := unended.truthful
  rcases unended with ⟨live, error, completedAt, rows⟩
  cases step with
  | pause => exact .unended rfl error completedAt ((failureRows_emit rfl).trans rows)
  | @resume _ now =>
      have others : ((.executionResumed, .empty) :: (if run.execution.pendingTasks = 0 then
          [(.executionCompleted, .empty)] else []) : List (EventType × EventPayload)).filter
            (isType .executionFailed) = [] := by
        split
        · rfl
        · rfl
      refine Truthful.emitted ?_ others
      by_cases last : run.execution.pendingTasks = 0
      · have ends : resumed now run.execution =
            { run.execution with status := .completed, completedAt := some now } := if_pos last
        rw [ends]
        exact .completed rfl error rfl rows
      · have goesOn : resumed now run.execution = { run.execution with status := .running } :=
          if_neg last
        rw [goesOn]
        exact .unended rfl error completedAt rows
  | cancel => exact .cancelled rfl rfl rfl ((failureRows_emit rfl).trans rows)
  | dispatch | claim | renew => exact .unended live error completedAt rows
  | announce | retry | suspend =>
      exact .unended live error completedAt ((failureRows_emit rfl).trans rows)
  | complete =>
      apply Unended.succeed
      exact ⟨live, error, completedAt, rows⟩
  | fail membership =>
      apply Unended.fail
      · exact ⟨live, error, completedAt, rows⟩
      · rfl
      · exact membership
      all_goals rfl
  | approve =>
      apply Truthful.emitted
      · apply Unended.succeed
        exact ⟨live, error, completedAt, rows⟩
      · rfl
  | reject membership =>
      apply Truthful.emitted
      · apply Unended.fail
        · exact ⟨live, error, completedAt, rows⟩
        · rfl
        · exact membership
        all_goals rfl
      · rfl

theorem Step.truthful {missed : Key → Bool} {label : Option (Reply Val)} {next : Run Val}
    (step : Step missed label run next) (inv : run.Inv) (truthful : run.Truthful) :
    next.Truthful := by
  cases truthful with
  | unended live error completedAt rows =>
      exact step.truthful_of_unended ⟨live, error, completedAt, rows⟩
  | completed status error completedAt rows =>
      have same := step.sameEnd (by rw [status]; rfl)
      exact .completed (same.status.trans status) (same.error.trans error)
        (same.completedAt.trans completedAt) (same.failureRows.trans rows)
  | cancelled status error completedAt rows =>
      have same := step.sameEnd (by rw [status]; rfl)
      exact .cancelled (same.status.trans status) (same.error.trans error)
        (same.completedAt.trans completedAt) (same.failureRows.trans rows)
  | failed status blames =>
      have same := step.sameEnd (by rw [status]; rfl)
      rcases Blames.kept step inv status blames with ⟨later, blames⟩
      exact .failed (same.status.trans status) blames

theorem Reached.truthful {params : StartParams Val} (reached : Reached params run) :
    run.Truthful := by
  induction reached with
  | start => exact .unended rfl rfl rfl rfl
  | step reached taken ih => exact taken.truthful reached.inv ih

end Ends

end Run

variable [Mixed Val]

/-- What the second database says about the end of every execution that ended in the first
one is what the first one says. -/
structure Db.KeepsEnds (db later : Db Val) : Prop where
  executions : ∀ execution ∈ db.executions.values, execution.status.live = false →
    ∃ now ∈ later.executions.values, now.id = execution.id ∧ now.status = execution.status ∧
      now.error = execution.error ∧ now.completedAt = execution.completedAt

theorem Sys.Stepped.keepsEnds {sys next : Sys Val} {action : Action Val}
    {label : Option (Reply Val)} (stepped : sys.Stepped action next label) :
    sys.db.KeepsEnds next.db := by
  constructor
  intro execution membership ended
  rcases stepped.advances.forward stepped.inv.db membership with
    ⟨later, laterMem, laterId, ⟨_, same⟩ | ran⟩
  · have isExecution : later = execution := congrArg Run.execution same
    subst isExecution
    exact ⟨later, laterMem, rfl, rfl, rfl, rfl⟩
  · have same := ran.sameEnd ended
    exact ⟨later, laterMem, laterId, same.status, same.error, same.completedAt⟩

theorem Sys.keepsEnds_of_leads {sys later : Sys Val} (leads : (engineSystem Val).Leads sys later)
    (inv : sys.Inv) : sys.db.KeepsEnds later.db := by
  induction leads with
  | refl => exact ⟨fun execution membership _ => ⟨execution, membership, rfl, rfl, rfl, rfl⟩⟩
  | @tail middle next leads taken ih =>
      rcases taken with ⟨action, taken⟩
      rcases (since_of_leads leads inv).1.stepped taken with ⟨label, stepped⟩
      constructor
      intro execution membership ended
      rcases ih.executions execution membership ended with
        ⟨now, nowMem, nowId, status, error, completedAt⟩
      have stillEnded : now.status.live = false := by
        rw [status]
        exact ended
      rcases stepped.keepsEnds.executions now nowMem stillEnded with
        ⟨last, lastMem, lastId, lastStatus, lastError, lastCompletedAt⟩
      exact ⟨last, lastMem, lastId.trans nowId, lastStatus.trans status, lastError.trans error,
        lastCompletedAt.trans completedAt⟩

/-- In every reachable committed state every execution tells the truth about its end, and
whatever follows that state does not change what it says. -/
theorem ends_truthful {sys : Sys Val} (reachable : (engineSystem Val).Reachable sys) :
    (∀ execution ∈ sys.db.executions.values, (sys.db.runOf execution).Truthful) ∧
      ∀ later, (engineSystem Val).Leads sys later → sys.db.KeepsEnds later.db := by
  have inv := Sys.inv_of_reachableBy reachable
  constructor
  · intro execution membership
    rcases inv.db.reached execution membership with ⟨params, reached⟩
    exact reached.truthful
  · intro later leads
    exact Sys.keepsEnds_of_leads leads inv

namespace Schedule

/-- Both tasks of a run fail for good, one after the other. -/
def bothFailed : List (Action Plain) :=
  twoStarted ++ call (.failTask ⟨2, "B"⟩ 1 fatal) :: steps 3 [23, 24] ++
    call (.failTask ⟨2, "A"⟩ 1 fatal) :: steps 4 [25, 26]

end Schedule

theorem ends_truthful_bothFailed :
    (Schedule.after Schedule.bothFailed (by decide)).db.executions.values.map
        (fun execution => (execution.status, execution.completedAt)) = [(.failed, some 24)] ∧
      (∀ execution ∈ (Schedule.after Schedule.bothFailed (by decide)).db.executions.values,
        ((Schedule.after Schedule.bothFailed (by decide)).db.runOf execution).Truthful) ∧
      ∀ later, (engineSystem Plain).Leads (Schedule.after Schedule.bothFailed (by decide)) later →
        (Schedule.after Schedule.bothFailed (by decide)).db.KeepsEnds later.db :=
  ⟨by decide, ends_truthful (Schedule.after_reachable Schedule.bothFailed (by decide))⟩

end WorkflowEngine
