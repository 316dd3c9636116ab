import WorkflowEngine.Workflow.Overlaps

/-!
# Pauses

No task of a PAUSED run is dispatched or promoted, unless the pause commits while a
call has checked the status of the run and has not yet dispatched what it found.
-/

namespace WorkflowEngine

open DocStore

variable {Val : Type}

/-! ## Dispatches in progress -/

/-- The frame relies on the run of the task being RUNNING and may dispatch the task. -/
def Frame.aimsAt (taskId : TaskId) : Frame Val → Bool
  | .findReady executionId => executionId == taskId.executionId
  | .dispatchTask dispatched => decide (dispatched = taskId)
  | .redispatch stuck statusOf =>
      statusOf.lookup taskId.executionId == some (some .running) && decide (taskId ∈ stuck)
  | _ => false

/-- Some call is about to dispatch a READY task of the run. -/
def Sys.dispatching (sys : Sys Val) (executionId : ExecutionId) : Bool :=
  sys.db.tasks.values.any fun task =>
    task.executionId == executionId && decide (task.status = .ready) &&
      sys.calls.any fun stack => stack.any fun frame => frame.aimsAt task.id

/-- The run that this callback pauses, if its commit is not refused. -/
def Frame.pauses (db : Db Val) : Frame Val → Option ExecutionId
  | .callback (.pauseExecution executionId) snapshot =>
      if (snapshot.executions.findById executionId).any
            (fun execution => decide (execution.status = .running)) &&
          snapshot.executions.rev? executionId == db.executions.rev? executionId then
        some executionId
      else
        none
  | _ => none

/-- The action pauses a run that another call is about to dispatch from. -/
def Sys.pausesDispatch (sys : Sys Val) (action : Action Val) : Bool :=
  (sys.frame? action).any fun frame => (frame.pauses sys.db).any sys.dispatching

/-- A call of `dispatchTask`, which the engine does not export. -/
def Action.callsDispatchTask : Action Val → Bool
  | .invoke (.dispatchTask _) => true
  | _ => false

/-! ## Steps of a run -/

namespace Run

/-- While the run is PAUSED a success promotes nothing. -/
theorem ready_of_released {parent task : Task Val} {now : Time}
    (ready : (released .paused parent now task).status = .ready) :
    (released .paused parent now task).id = task.id ∧ task.status = .ready := by
  have same : released .paused parent now task =
      (decrementChildren parent.executionId parent.dependents).onValue task := rfl
  rw [same] at ready ⊢
  unfold Update.onValue at ready ⊢
  split at ready
  · next counted =>
    rw [if_pos counted]
    exact ⟨rfl, ready⟩
  · next other =>
    rw [if_neg other]
    exact ⟨rfl, ready⟩

theorem paused_of_counted {now : Time} {execution : WorkflowExecution Val}
    (paused : (Run.counted now execution).status = .paused) : execution.status = .paused := by
  unfold Run.counted at paused
  split at paused
  · cases paused
  · exact paused

variable [Mixed Val] {missed : Key → Bool} {label : Option (Reply Val)} {run next : Run Val}

omit [Mixed Val] in
theorem fail_unpaused (task : Task Val) (outcome : FailureOutcome) (message : String)
    (retryable : Bool) (missed : Key → Bool) (now : Time) (run : Run Val) :
    (Run.fail task outcome message retryable missed now run).execution.status ≠ .paused := by
  intro paused
  have dead := (fail_execution task outcome message retryable missed now run).2
  rw [paused] at dead
  cases dead

/-- A run that is PAUSED after a step was paused before or is paused by it. -/
theorem Step.of_paused (step : Step missed label run next)
    (paused : next.execution.status = .paused) :
    run.execution.status = .paused ∨
      label = some (.pauseExecution run.execution.id true) := by
  cases step with
  | pause => exact .inr rfl
  | cancel => cases paused
  | resume =>
      simp only [emit, resumed] at paused
      split at paused <;> cases paused
  | dispatch | claim | renew | announce | retry | suspend => exact .inl paused
  | complete | approve => exact .inl (paused_of_counted paused)
  | fail => exact absurd paused (fail_unpaused _ _ _ _ _ _ _)
  | reject =>
      exact absurd paused (fail_unpaused _ _ _ _ _ _ _)

/-- A step into a PAUSED run makes no task READY. -/
theorem Step.ready_of_paused (step : Step missed label run next)
    (paused : next.execution.status = .paused) {later : Task Val}
    (membership : later ∈ next.tasks) (ready : later.status = .ready) :
    ∃ task ∈ run.tasks, task.id = later.id ∧ task.status = .ready := by
  cases step with
  | pause => exact ⟨later, membership, rfl, ready⟩
  | announce => exact ⟨later, membership, rfl, ready⟩
  | cancel => cases paused
  | resume =>
      simp only [emit, resumed] at paused
      split at paused <;> cases paused
  | dispatch | claim | retry | suspend =>
      rcases mem_replaceIn membership with rfl | old
      · cases ready
      · exact ⟨later, old.1, rfl, ready⟩
  | renew _ running =>
      rcases mem_replaceIn membership with rfl | old
      · rw [show ((renewal _ _ _).set _).status = _ from running] at ready
        cases ready
      · exact ⟨later, old.1, rfl, ready⟩
  | complete _ _ | approve =>
      have before : run.execution.status = .paused := paused_of_counted paused
      rcases List.mem_map.mp membership with ⟨replaced, replacedMem, rfl⟩
      rw [show (run.replace _).execution.status = _ from before] at ready ⊢
      rcases ready_of_released ready with ⟨sameId, wasReady⟩
      rcases mem_replaceIn replacedMem with rfl | ⟨old, _⟩
      · cases wasReady
      · exact ⟨replaced, old, sameId.symm, wasReady⟩
  | fail => exact absurd paused (fail_unpaused _ _ _ _ _ _ _)
  | reject =>
      exact absurd paused (fail_unpaused _ _ _ _ _ _ _)

end Run

/-! ## Steps of the system -/

variable [Mixed Val]

/-- The transaction of a pause. -/
theorem Sys.Stepped.pauses {sys next : Sys Val} {action : Action Val} {executionId : ExecutionId}
    (stepped : sys.Stepped action next (some (.pauseExecution executionId true))) :
    ∃ frame, sys.frame? action = some frame ∧ frame.pauses sys.db = some executionId := by
  rcases stepped.committed rfl with ⟨env, op, snapshot, patch, isFrame, answers, writes, commits⟩
  cases writes with
  | nothing idle => cases idle
  | @pause execution rows found running describes =>
      cases op with
      | pauseExecution =>
          cases answers
          have matched : (moveExecution .running .paused id fun _ => rfl).filter execution = true :=
            decide_eq_true running
          rcases commits.execution_current found rfl matched with
            ⟨doc, inSnapshot, inCommitted, rfl⟩
          have before := Collection.rev?_of_mem commits.snapshotInv.keyed.executions inSnapshot
          have now := Collection.rev?_of_mem commits.inv.keyed.executions inCommitted
          refine ⟨_, isFrame, ?_⟩
          rw [Frame.pauses, found, Option.any_some, running, if_pos]
          exact Bool.and_eq_true_iff.mpr ⟨rfl, beq_iff_eq.mpr (before.trans now.symm)⟩
      | _ => cases answers

/-- A run that is PAUSED after a step, seen from the database before. -/
theorem Sys.Stepped.of_paused {sys next : Sys Val} {action : Action Val}
    {label : Option (Reply Val)} (stepped : sys.Stepped action next label)
    {later : WorkflowExecution Val} (membership : later ∈ next.db.executions.values)
    (paused : later.status = .paused) :
    (∃ execution ∈ sys.db.executions.values, execution.id = later.id ∧
        (execution.status = .paused ∨ label = some (.pauseExecution later.id true))) ∧
      ∀ task ∈ next.db.tasks.values, task.executionId = later.id → task.status = .ready →
        ∃ before ∈ sys.db.tasks.values, before.id = task.id ∧ before.status = .ready := by
  have inRun : ∀ task ∈ next.db.tasks.values, task.executionId = later.id →
      task ∈ (next.db.runOf later).tasks :=
    fun task taskMem home => Db.mem_runOf_tasks.mpr ⟨taskMem, home⟩
  have isLater : (next.db.runOf later).execution = later := rfl
  have advanced := stepped.advances.runs later membership
  generalize next.db.runOf later = run at inRun isLater advanced
  subst isLater
  cases advanced with
  | @same execution member _ =>
      refine ⟨⟨execution, member, rfl, .inl paused⟩, ?_⟩
      intro task taskMem home ready
      exact ⟨task, (Db.mem_runOf_tasks.mp (inRun task taskMem home)).1, rfl, ready⟩
  | @step execution _ member taken =>
      have sameId : run.execution.id = execution.id := taken.execution_id
      refine ⟨⟨execution, member, sameId.symm, ?_⟩, ?_⟩
      · rw [sameId]
        exact taken.of_paused paused
      · intro task taskMem home ready
        rcases taken.ready_of_paused paused (inRun task taskMem home) ready with
          ⟨before, beforeMem, isTask, wasReady⟩
        exact ⟨before, (Db.mem_runOf_tasks.mp beforeMem).1, isTask, wasReady⟩
  | start => cases paused

/-! ## Frames -/

omit [Mixed Val] in
theorem Frame.aimsAt_map {α : Type} {found : List α} {frameOf : α → Frame Val} {taskId : TaskId}
    {frame : Frame Val} (membership : frame ∈ found.map frameOf)
    (aims : frame.aimsAt taskId = true) : ∃ item ∈ found, (frameOf item).aimsAt taskId = true := by
  rcases List.mem_map.mp membership with ⟨item, itemMem, rfl⟩
  exact ⟨item, itemMem, aims⟩

omit [Mixed Val] in
theorem Frame.aimsAt_after {reply : Reply Val} {frame : Frame Val} {taskId : TaskId}
    (membership : frame ∈ reply.after) : frame.aimsAt taskId = false := by
  unfold Reply.after at membership
  split at membership
  case h_5 =>
    split at membership
    · cases List.mem_singleton.mp membership
      rfl
    · cases membership
  case h_6 => cases membership
  all_goals
    cases List.mem_singleton.mp membership
    rfl

/-- A frame passes its aims on, or takes aim when it sees the run RUNNING. -/
theorem Frame.step_aims {env : Env} {db : Db Val} {frame later : Frame Val} {taskId : TaskId}
    {outcome : Outcome Val} (ran : frame.step env db = .ok outcome)
    (membership : later ∈ outcome.next) (aims : later.aimsAt taskId = true) :
    frame.aimsAt taskId = true ∨ outcome.db = db ∧ ∃ execution,
      db.executions.findById taskId.executionId = some execution ∧ execution.status = .running := by
  cases frame with
  | transaction | sweepReady | expire =>
      cases ran
      cases List.mem_singleton.mp membership
      cases aims
  | reconcile =>
      cases ran
      simp only [List.mem_cons, List.not_mem_nil, or_false] at membership
      rcases membership with rfl | rfl | rfl | rfl | rfl <;> cases aims
  | callback op snapshot =>
      rcases Session.ok_of_bind ran with ⟨⟨reply, view⟩, _, rest⟩
      simp only at rest
      split at rest
      · cases rest
        rw [aimsAt_after membership] at aims
        cases aims
      · cases rest
        cases List.mem_singleton.mp membership
        cases aims
  | renewLease | abandonAttempts | recordAttempt | announce =>
      rcases Session.ok_of_bind ran with ⟨_, _, rest⟩
      cases rest
      cases membership
  | dispatchTask dispatched =>
      rcases Session.ok_of_bind ran with ⟨⟨won, _⟩, _, rest⟩
      cases rest
      cases won
      · cases membership
      · cases List.mem_singleton.mp membership
        cases aims
  | dispatchReady executionId =>
      simp only [step] at ran
      split at ran
      · next execution found =>
        cases ran
        by_cases running : execution.status = .running
        · rw [if_pos running] at membership
          cases List.mem_singleton.mp membership
          cases beq_iff_eq.mp aims
          exact .inr ⟨rfl, execution, found, running⟩
        · rw [if_neg running] at membership
          cases membership
      · cases ran
        cases membership
  | startTask claimedId workerId =>
      rcases Session.ok_of_bind ran with ⟨⟨claimed, final⟩, _, rest⟩
      cases claimed with
      | none =>
          cases rest
          cases membership
      | some task =>
          cases rest
          simp only [List.mem_cons, List.not_mem_nil, or_false] at membership
          rcases membership with rfl | rfl | rfl | rfl <;> cases aims
  | checkBudget task =>
      simp only [step] at ran
      split at ran
      · cases ran
        simp only [List.mem_cons, List.not_mem_nil, or_false] at membership
        rcases membership with rfl | rfl <;> cases aims
      · cases ran
        cases List.mem_singleton.mp membership
        cases aims
  | gatherInput task =>
      cases ran
      cases List.mem_singleton.mp membership
      cases aims
  | redispatch stuck statusOf =>
      cases stuck with
      | nil =>
          cases ran
          cases membership
      | cons first rest =>
          simp only [step] at ran
          split at ran
          · next unknown =>
            cases ran
            cases List.mem_singleton.mp membership
            simp only [aimsAt, Bool.and_eq_true, beq_iff_eq, decide_eq_true_eq] at aims ⊢
            by_cases home : taskId.executionId = first.executionId
            · right
              have status : (db.executions.findById first.executionId).map (·.status) =
                  some .running := by
                have found := aims.1
                rw [List.lookup_cons, home, beq_self_eq_true] at found
                exact Option.some.inj found
              rcases Option.map_eq_some_iff.mp status with ⟨execution, found, running⟩
              exact ⟨trivial, execution, by rw [home]; exact found, running⟩
            · left
              have found := aims.1
              rw [List.lookup_cons, beq_false_of_ne home] at found
              exact ⟨found, aims.2⟩
          · next status known =>
            split at ran
            · next running =>
              cases ran
              subst running
              simp only [List.mem_cons, List.not_mem_nil, or_false] at membership
              left
              rcases membership with rfl | rfl
              · have isFirst : first = taskId := of_decide_eq_true aims
                subst isFirst
                simp [aimsAt, known]
              · simp only [aimsAt, Bool.and_eq_true, beq_iff_eq, decide_eq_true_eq] at aims ⊢
                exact ⟨aims.1, List.mem_cons_of_mem _ aims.2⟩
            · cases ran
              cases List.mem_singleton.mp membership
              simp only [aimsAt, Bool.and_eq_true, beq_iff_eq, decide_eq_true_eq] at aims ⊢
              exact .inl ⟨aims.1, List.mem_cons_of_mem _ aims.2⟩
  | findReady executionId =>
      cases ran
      rcases aimsAt_map membership aims with ⟨task, found, isTask⟩
      have home : task.executionId = executionId := by
        have both := (List.mem_filter.mp found).2
        simp only [Bool.and_eq_true, decide_eq_true_eq] at both
        exact both.1
      rw [← of_decide_eq_true isTask, ← home]
      exact .inl (beq_self_eq_true _)
  | sweepQueued | sweepRunning | sweepRetrying | sweepApprovals =>
      cases ran
      rcases aimsAt_map membership aims with ⟨_, _, absurdity⟩
      cases absurdity
  | enqueue | enqueueDelayed | refuse | gatherParents =>
      cases ran
      cases membership

/-- The reply that a task was dispatched comes from a frame that aims at it. -/
theorem Frame.aims_of_dispatched {env : Env} {db : Db Val} {frame : Frame Val} {taskId : TaskId}
    {outcome : Outcome Val} {won : Bool} (ran : frame.step env db = .ok outcome)
    (membership : .dispatchTask taskId won ∈ outcome.replies) : frame.aimsAt taskId = true := by
  have gives := frame.gives ran membership
  cases gives with
  | @callback op _ _ answers => cases op <;> cases answers
  | dispatchTask => exact decide_eq_true rfl

/-! ## Schedules -/

namespace Sys

/-- While a run is PAUSED no call is about to dispatch from it. -/
def Quiet (sys : Sys Val) : Prop :=
  ∀ execution ∈ sys.db.executions.values, execution.status = .paused →
    ∀ task ∈ sys.db.tasks.values, task.executionId = execution.id → task.status = .ready →
      ∀ stack ∈ sys.calls, ∀ frame ∈ stack, frame.aimsAt task.id = false

/-- What the calls of the engine's own functions and the pauses must respect. -/
def dispatchesInTime (sys : Sys Val) (action : Action Val) : Bool :=
  !action.callsDispatchTask && !sys.pausesDispatch action

omit [Mixed Val] in
/-- No call is about to dispatch a READY task of this run. -/
theorem unaimed_of_not_dispatching {sys : Sys Val} {executionId : ExecutionId}
    (idle : sys.dispatching executionId = false) {task : Task Val}
    (membership : task ∈ sys.db.tasks.values) (home : task.executionId = executionId)
    (ready : task.status = .ready) :
    ∀ stack ∈ sys.calls, ∀ frame ∈ stack, frame.aimsAt task.id = false := by
  intro stack stackMem frame frameMem
  by_contra aims
  have busy : sys.dispatching executionId = true := by
    refine List.any_eq_true.mpr ⟨task, membership, ?_⟩
    simp only [home, ready, beq_self_eq_true, decide_true, Bool.true_and, List.any_eq_true]
    exact ⟨stack, stackMem, frame, frameMem, by simpa using aims⟩
  rw [busy] at idle
  cases idle

theorem Stepped.quiet {sys next : Sys Val} {action : Action Val} {label : Option (Reply Val)}
    (stepped : sys.Stepped action next label) (allowed : sys.dispatchesInTime action = true)
    (quiet : sys.Quiet) : next.Quiet := by
  intro later laterMem paused task taskMem home ready
  simp only [dispatchesInTime, Bool.and_eq_true, Bool.not_eq_true'] at allowed
  rcases stepped.of_paused laterMem paused with ⟨⟨execution, membership, sameId, cause⟩, readied⟩
  rcases readied task taskMem home ready with ⟨before, beforeMem, isTask, wasReady⟩
  have beforeHome : before.executionId = execution.id := by
    rw [sameId, ← home]
    exact congrArg TaskId.executionId isTask
  have kept : ∀ stack ∈ sys.calls, ∀ frame ∈ stack, frame.aimsAt task.id = false := by
    rw [← isTask]
    rcases cause with wasPaused | isPause
    · exact quiet execution membership wasPaused before beforeMem beforeHome wasReady
    · subst isPause
      rcases stepped.pauses with ⟨frame, isFrame, pauses⟩
      have idle := allowed.2
      rw [pausesDispatch, isFrame, Option.any_some, pauses, Option.any_some, ← sameId] at idle
      exact unaimed_of_not_dispatching idle beforeMem beforeHome wasReady
  refine stepped.took.frames kept ?_ ?_
  · rintro frame rfl isCall
    cases frame <;> first | rfl | (cases isCall; done) | cases allowed.1
  · intro call env frame rest outcome isAdvance found ran sameDb added addedMem
    by_contra aims
    rcases Frame.step_aims ran addedMem (by simpa using aims) with inherited | ⟨unchanged, running⟩
    · rw [kept _ (List.mem_of_getElem? found) frame List.mem_cons_self] at inherited
      cases inherited
    · rcases running with ⟨other, search, isRunning⟩
      have inv := stepped.later.db
      rw [sameDb.trans unchanged] at inv laterMem
      have found := (Collection.findById_eq_some inv.keyed.executions).mp search
      cases inv.eq_of_id found.1 laterMem (found.2.trans home)
      rw [paused] at isRunning
      cases isRunning

theorem quiet_of_reachableBy {sys : Sys Val}
    (reachable : (engineSystem Val).ReachableBy
      (fun sys action => sys.dispatchesInTime action = true) sys) : sys.Quiet := by
  induction reachable with
  | init => exact fun _ absurdity => absurd absurdity List.not_mem_nil
  | step reached allowed taken ih =>
      rcases (inv_of_reachableBy reached).stepped taken with ⟨label, stepped⟩
      exact stepped.quiet allowed ih

/-- The step that dispatches a task steps a frame that aims at it. -/
theorem Stepped.aims {sys next : Sys Val} {action : Action Val} {taskId : TaskId} {won : Bool}
    (stepped : sys.Stepped action next (some (.dispatchTask taskId won))) :
    ∃ stack ∈ sys.calls, ∃ frame ∈ stack, frame.aimsAt taskId = true := by
  have log := stepped.log
  cases stepped.took with
  | invoke | crash => exact absurd log.symm (List.cons_ne_self _ _)
  | @ran call env frame rest outcome found ran =>
      have membership : .dispatchTask taskId won ∈ outcome.replies := by
        rw [List.append_cancel_right log]
        exact List.mem_singleton_self _
      exact ⟨_, List.mem_of_getElem? found, frame, List.mem_cons_self,
        Frame.aims_of_dispatched ran membership⟩
  | threw found threw =>
      have same := List.append_cancel_right
        (show [.threw _] ++ sys.log = [.dispatchTask taskId won] ++ sys.log from log)
      cases List.singleton_inj.mp same

end Sys

/-- Only the dispatch of a READY task makes it QUEUED. -/
theorem Task.Moves.dispatches_of_queued {label : Option (Reply Val)} {task later : Task Val}
    (moves : Task.Moves label task later) (ready : task.status = .ready)
    (queued : later.status = .queued) : label = some (.dispatchTask task.id true) := by
  cases moves with
  | dispatched => rfl
  | rest =>
      rw [show task.status = _ from queued] at ready
      cases ready
  | renewed running =>
      rw [running] at ready
      cases ready
  | @failed _ error =>
      change (failureOutcome task (isRetryable error)).status = .queued at queued
      cases outcome : failureOutcome task (isRetryable error) <;> rw [outcome] at queued <;>
        cases queued
  | promoted | cancelled | aborted | claimed | completed | retried | suspended | approved
  | rejected => cases queued

/-! ## The guarantee -/

/-- No task of a run that is PAUSED in the second database was dispatched or promoted
since the first one. -/
def Db.PauseRespected (db next : Db Val) : Prop :=
  ∀ execution ∈ next.executions.values, execution.status = .paused →
    ∀ task ∈ db.tasks.values, task.executionId = execution.id →
      ∀ later ∈ next.tasks.values, later.id = task.id →
        ¬ (task.status = .ready ∧ later.status = .queued) ∧
          ¬ (task.status = .pending ∧ later.status = .ready)

/-- A PAUSED run dispatches and promotes nothing, in every schedule in which no pause
commits while a call is about to dispatch a READY task of the run. -/
theorem pause_respected {sys next : Sys Val} {action : Action Val}
    (reachable : (engineSystem Val).ReachableBy
      (fun sys action => sys.dispatchesInTime action = true) sys)
    (taken : sys.step action = some next) : sys.db.PauseRespected next.db := by
  have inv := Sys.inv_of_reachableBy reachable
  have quiet := Sys.quiet_of_reachableBy reachable
  rcases inv.stepped taken with ⟨label, stepped⟩
  intro execution executionMem paused task taskMem home later laterMem isTask
  have laterHome : later.executionId = execution.id := by
    rw [← home]
    exact congrArg TaskId.executionId isTask
  rcases stepped.of_paused executionMem paused with ⟨⟨old, oldMem, oldId, cause⟩, readied⟩
  constructor
  · rintro ⟨ready, queued⟩
    have inRun : task ∈ (sys.db.runOf old).tasks :=
      Db.mem_runOf_tasks.mpr ⟨taskMem, home.trans oldId.symm⟩
    rcases stepped.advances.forward inv.db oldMem with ⟨now, _, nowId, ⟨_, same⟩ | ran⟩
    · rw [← same] at inRun
      have sameTask := stepped.later.db.task_eq_of_id (Db.mem_runOf_tasks.mp inRun).1 laterMem
        isTask.symm
      rw [sameTask, queued] at ready
      cases ready
    · rcases ran.moves (inv.db.runInv oldMem).graph.tasks_nodup with ⟨image, tasks, moves⟩
      have move := moves task inRun
      have imageMem : image task ∈ (next.db.runOf now).tasks := by
        rw [tasks]
        exact List.mem_map_of_mem inRun
      have isImage := stepped.later.db.task_eq_of_id (Db.mem_runOf_tasks.mp imageMem).1 laterMem
        (move.evolves.id_eq.trans isTask.symm)
      rw [isImage] at move
      have isLabel := move.dispatches_of_queued ready queued
      rcases cause with wasPaused | isPause
      · subst isLabel
        rcases stepped.aims with ⟨stack, stackMem, frame, frameMem, aims⟩
        have unaimed := quiet old oldMem wasPaused task taskMem (home.trans oldId.symm) ready stack
          stackMem frame frameMem
        rw [aims] at unaimed
        cases unaimed
      · rw [isLabel] at isPause
        cases isPause
  · rintro ⟨pending, ready⟩
    rcases readied later laterMem laterHome ready with ⟨before, beforeMem, sameId, wasReady⟩
    have same := inv.db.task_eq_of_id beforeMem taskMem (sameId.trans isTask)
    rw [same, pending] at wasReady
    cases wasReady

namespace Schedule

/-- A run of a task and its child is paused while the task runs, which then succeeds. -/
def pausedBusy : List (Action Plain) :=
  start [definition "A" [], definition "B" ["A"]] :: steps 0 [1, 2, 3, 4, 5, 6] ++
    .invoke (.startTask ⟨2, "A"⟩ "w") :: steps 1 [7, 8, 9, 10, 11, 12, 13] ++
    call (.pauseExecution 2) :: steps 2 [14, 15] ++
    call (.completeTask ⟨2, "A"⟩ 1 (.number 7)) :: steps 3 [16]

/-- The success is about to commit. -/
theorem pausedBusy_commits :
    ((afterBy Sys.dispatchesInTime pausedBusy (by decide)).step
      (.advance 3 (env 17))).isSome = true := by decide

/-- A run is paused after `dispatchReady` saw it RUNNING. -/
def pausedLate : List (Action Plain) :=
  start [definition "A" []] :: steps 0 [1, 2, 3, 4] ++
    call (.pauseExecution 2) :: steps 1 [5, 6]

/-- The next step of `dispatchReady`. -/
theorem pausedLate_dispatches :
    ((after pausedLate (by decide)).step (.advance 0 (env 7))).isSome = true := by decide

end Schedule

/-- The parent of a PENDING task commits its success while the run is PAUSED. -/
theorem pause_respected_pausedBusy :
    (∃ task ∈ (Option.get _ Schedule.pausedBusy_commits).db.tasks.values,
      task.status = .completed) ∧
    (Schedule.afterBy Sys.dispatchesInTime Schedule.pausedBusy (by decide)).db.PauseRespected
      (Option.get _ Schedule.pausedBusy_commits).db :=
  ⟨by decide,
    pause_respected (Schedule.afterBy_reachable Sys.dispatchesInTime Schedule.pausedBusy (by decide))
      (Option.some_get Schedule.pausedBusy_commits).symm⟩

/-- The dispatch of a task after its run was paused. -/
theorem not_pause_respected :
    ¬ ∀ (sys next : Sys Plain) (action : Action Plain), (engineSystem Plain).Reachable sys →
      sys.step action = some next → sys.db.PauseRespected next.db := by
  intro always
  have respected := always _ _ _ (Schedule.after_reachable Schedule.pausedLate (by decide))
    (Option.some_get Schedule.pausedLate_dispatches).symm
  have dispatched : ∃ execution ∈
      (Option.get _ Schedule.pausedLate_dispatches).db.executions.values, execution.status = .paused ∧
        ∃ task ∈ (Schedule.after Schedule.pausedLate (by decide)).db.tasks.values,
          task.executionId = execution.id ∧ ∃ later ∈
            (Option.get _ Schedule.pausedLate_dispatches).db.tasks.values,
            later.id = task.id ∧ task.status = .ready ∧ later.status = .queued := by
    decide
  rcases dispatched with
    ⟨execution, executionMem, paused, task, taskMem, home, later, laterMem, isTask, moved⟩
  exact (respected execution executionMem paused task taskMem home later laterMem isTask).1 moved

end WorkflowEngine
