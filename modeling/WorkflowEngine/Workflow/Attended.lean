import WorkflowEngine.Workflow.Committed

/-!
# Dispatches in progress

A commit that makes a task READY in a RUNNING run, or a run RUNNING, leaves its call
with the dispatch of the run, and the steps of a dispatch cannot throw.  So, unless a
process stops, some call is always about to dispatch every READY task of a RUNNING run.
-/

namespace WorkflowEngine

open DocStore

variable {Val : Type}

/-- The steps of a call that dispatches tasks. -/
def Frame.dispatches : Frame Val → Bool
  | .dispatchReady _ | .findReady _ | .dispatchTask _ | .enqueue _ => true
  | _ => false

section Labels

variable {label : Option (Reply Val)}

theorem label_eq {replies log : List (Reply Val)}
    (same : replies ++ log = label.toList ++ log) : label.toList = replies :=
  (List.append_cancel_right same).symm

theorem label_eq_some {reply : Reply Val} {log : List (Reply Val)}
    (same : [reply] ++ log = label.toList ++ log) : label = some reply := by
  have single := label_eq same
  cases label with
  | none => cases single
  | some other =>
      cases single
      rfl

end Labels

variable [Mixed Val]

/-! ## Steps that dispatch -/

theorem Frame.dispatches_ok {env : Env} {db : Db Val} {frame : Frame Val}
    (dispatches : frame.dispatches = true) : ∃ outcome, frame.step env db = .ok outcome := by
  cases frame with
  | dispatchReady executionId =>
      simp only [Frame.step]
      split
      · exact ⟨_, rfl⟩
      · exact ⟨_, rfl⟩
  | findReady | enqueue => exact ⟨_, rfl⟩
  | dispatchTask taskId => exact ⟨_, rfl⟩
  | _ => cases dispatches

theorem Frame.dispatches_next {env : Env} {db : Db Val} {frame later : Frame Val}
    {outcome : Outcome Val} (dispatches : frame.dispatches = true)
    (ran : frame.step env db = .ok outcome) (membership : later ∈ outcome.next) :
    later.dispatches = true := by
  have follows := frame.follows ran membership
  cases frame with
  | dispatchReady | findReady | dispatchTask =>
      cases follows
      rfl
  | enqueue => cases follows
  | _ => cases dispatches

/-! ## Steps of a callback -/

section Callbacks

variable {env : Env}

/-- A callback returns and commits, or meets a write conflict. -/
theorem Frame.callback_cases {op : Op Val} {db snapshot : Db Val} {outcome : Outcome Val}
    (ran : (Frame.callback op snapshot).step env db = .ok outcome) :
    (∃ reply view, (op.run env).run snapshot = .ok (reply, view) ∧ outcome.next = reply.after ∧
        outcome.replies = [reply]) ∨
      outcome = ⟨db, [.transaction op], []⟩ := by
  rcases Session.ok_of_bind ran with ⟨⟨reply, view⟩, returned, rest⟩
  simp only at rest
  split at rest
  · cases rest
    exact .inl ⟨reply, view, returned, rfl, rfl⟩
  · cases rest
    exact .inr rfl

/-- A call goes on with what follows the commit. -/
theorem Frame.next_of_after {frame : Frame Val} {db : Db Val} {outcome : Outcome Val}
    {reply : Reply Val} (ran : frame.step env db = .ok outcome)
    (replies : outcome.replies = [reply]) (after : reply.after ≠ []) :
    outcome.next = reply.after := by
  have membership : reply ∈ outcome.replies := by
    rw [replies]
    exact List.mem_singleton_self reply
  have gives := frame.gives ran membership
  cases gives with
  | callback =>
      rcases Frame.callback_cases ran with ⟨given, _, _, isNext, isReply⟩ | rfl
      · cases isReply.symm.trans replies
        exact isNext
      · cases replies
  | renewLease | dispatchTask | enqueue | enqueueDelayed | claimed | skipped | refused | started =>
      exact absurd rfl after

theorem Frame.callback_error {op : Op Val} {db snapshot : Db Val} {thrown : EngineError}
    (threw : (Frame.callback op snapshot).step env db = .error thrown) :
    (op.run env).run snapshot = .error thrown := by
  rcases Session.error_of_bind threw with refused | ⟨_, _, rest⟩
  · exact refused
  · simp only at rest
    split at rest <;> cases rest

end Callbacks

/-! ## Attended tasks -/

/-- The frame is about to dispatch the task, if it is READY in a RUNNING run. -/
def Frame.attends (taskId : TaskId) : Frame Val → Bool
  | .dispatchReady executionId | .findReady executionId => executionId == taskId.executionId
  | .dispatchTask dispatched => decide (dispatched = taskId)
  | _ => false

/-- Before its call can throw, it is about to dispatch the task. -/
def Stack.attends (taskId : TaskId) (stack : List (Frame Val)) : Prop :=
  ∃ frame ∈ stack.takeWhile Frame.dispatches, frame.attends taskId = true

namespace Sys

/-- Some call is about to dispatch the task. -/
def attends (sys : Sys Val) (taskId : TaskId) : Prop :=
  ∃ stack ∈ sys.calls, Stack.attends taskId stack

/-- Some call is about to dispatch every READY task of a RUNNING run. -/
def Attended (sys : Sys Val) : Prop :=
  ∀ execution ∈ sys.db.executions.values, execution.status = .running →
    ∀ task ∈ (sys.db.runOf execution).tasks, task.status = .ready → sys.attends task.id

/-- No process stops. -/
def steady (_ : Sys Val) : Action Val → Bool
  | .crash _ => false
  | _ => true

end Sys

/-! ### Steps of a stack -/

namespace Stack

variable {taskId : TaskId} {frame : Frame Val} {next rest : List (Frame Val)}

omit [Mixed Val] in
/-- The top of a stack that attends a task is a dispatch. -/
theorem top_dispatches (attends : Stack.attends taskId (frame :: rest)) :
    frame.dispatches = true := by
  rcases attends with ⟨other, membership, _⟩
  by_contra stops
  rw [List.takeWhile_cons_of_neg stops] at membership
  cases membership

omit [Mixed Val] in
/-- The top attends the task, or what is below it does. -/
theorem top_or_rest (attends : Stack.attends taskId (frame :: rest)) :
    frame.attends taskId = true ∨ Stack.attends taskId rest := by
  have top := top_dispatches attends
  rcases attends with ⟨other, membership, isTask⟩
  rw [List.takeWhile_cons_of_pos top] at membership
  cases membership with
  | head => exact .inl isTask
  | tail _ below => exact .inr ⟨other, below, isTask⟩

omit [Mixed Val] in
theorem attends_of_rest (dispatch : ∀ later ∈ next, later.dispatches = true)
    (attends : Stack.attends taskId rest) : Stack.attends taskId (next ++ rest) := by
  rcases attends with ⟨other, membership, isTask⟩
  refine ⟨other, ?_, isTask⟩
  rw [List.takeWhile_append_of_pos dispatch]
  exact List.mem_append_right _ membership

omit [Mixed Val] in
theorem attends_of_next (dispatch : ∀ later ∈ next, later.dispatches = true)
    (membership : frame ∈ next) (isTask : frame.attends taskId = true) :
    Stack.attends taskId (next ++ rest) := by
  refine ⟨frame, ?_, isTask⟩
  rw [List.takeWhile_append_of_pos dispatch]
  exact List.mem_append_left _ membership

end Stack

/-! ### What makes a task READY or a run RUNNING -/

/-- The task that a step is about belongs to the run. -/
theorem Run.Step.about {missed : Key → Bool} {label : Option (Reply Val)} {run next : Run Val}
    (step : Run.Step missed label run next) {taskId : TaskId}
    (isTask : label.bind Reply.about = some taskId) : ∃ task ∈ run.tasks, task.id = taskId := by
  cases step with
  | pause | resume | cancel | announce => cases isTask
  | dispatch membership | claim membership | renew membership | complete membership
  | retry membership | fail membership | suspend membership | approve membership
  | reject membership => exact ⟨_, membership, Option.some.inj isTask⟩

omit [Mixed Val] in
theorem Run.fail_not_running (task : Task Val) (outcome : FailureOutcome) (message : String)
    (retryable : Bool) (missed : Key → Bool) (now : Time) (run : Run Val) :
    (Run.fail task outcome message retryable missed now run).execution.status ≠ .running := by
  intro running
  have dead := (fail_execution task outcome message retryable missed now run).2
  rw [running] at dead
  cases dead

/-- A READY task of a run that is RUNNING after a step was READY and the run RUNNING
before, or the call of the step dispatches the run next. -/
theorem Run.Step.ready_cases {missed : Key → Bool} {label : Option (Reply Val)}
    {run next : Run Val} (step : Run.Step missed label run next)
    (home : ∀ task ∈ run.tasks, task.executionId = run.execution.id)
    (running : next.execution.status = .running) {later : Task Val}
    (membership : later ∈ next.tasks) (ready : later.status = .ready) :
    (run.execution.status = .running ∧ ∃ task ∈ run.tasks, task.id = later.id ∧
        task.status = .ready) ∨
      ∃ reply, label = some reply ∧ reply.after = [.dispatchReady run.execution.id] := by
  cases step with
  | pause => cases running
  | cancel => cases running
  | announce => exact .inl ⟨running, later, membership, rfl, ready⟩
  | resume => exact .inr ⟨_, rfl, rfl⟩
  | dispatch | claim | retry | suspend =>
      rcases mem_replaceIn membership with rfl | ⟨old, _⟩
      · cases ready
      · exact .inl ⟨running, later, old, rfl, ready⟩
  | renew _ isRunning =>
      rcases mem_replaceIn membership with rfl | ⟨old, _⟩
      · rw [show ((renewal _ _ _).set _).status = _ from isRunning] at ready
        cases ready
      · exact .inl ⟨running, later, old, rfl, ready⟩
  | complete taskMem _ =>
      refine .inr ⟨_, rfl, ?_⟩
      rw [← home _ taskMem]
      rfl
  | approve taskMem _ _ _ _ _ decision =>
      refine .inr ⟨_, rfl, ?_⟩
      rw [← home _ taskMem]
      exact if_pos decision
  | fail => exact absurd running (fail_not_running _ _ _ _ _ _ _)
  | reject => exact absurd running (fail_not_running _ _ _ _ _ _ _)

namespace Sys

variable {sys next : Sys Val} {action : Action Val} {label : Option (Reply Val)}

theorem Stepped.ready_cases (stepped : sys.Stepped action next label)
    {execution : WorkflowExecution Val} (membership : execution ∈ next.db.executions.values)
    (running : execution.status = .running) {task : Task Val}
    (taskMem : task ∈ (next.db.runOf execution).tasks) (ready : task.status = .ready) :
    (∃ before ∈ sys.db.executions.values, before.status = .running ∧
        ∃ earlier ∈ (sys.db.runOf before).tasks, earlier.id = task.id ∧ earlier.status = .ready) ∨
      ∃ reply, label = some reply ∧ reply.after = [.dispatchReady execution.id] := by
  have isRun : (next.db.runOf execution).execution = execution := rfl
  have advanced := stepped.advances.runs execution membership
  generalize next.db.runOf execution = run at isRun taskMem advanced
  subst isRun
  cases advanced with
  | same member _ => exact .inl ⟨_, member, running, task, taskMem, rfl, ready⟩
  | @step before _ member taken =>
      have graph := (stepped.inv.db.runInv member).graph
      rcases taken.ready_cases graph.task_home running taskMem ready with
        ⟨was, earlier, earlierMem, isTask, wasReady⟩ | ⟨reply, isLabel, after⟩
      · exact .inl ⟨before, member, was, earlier, earlierMem, isTask, wasReady⟩
      · refine .inr ⟨reply, isLabel, ?_⟩
        rw [after, taken.execution_id]
  | start named => exact .inr ⟨_, named, rfl⟩

/-! ### Steps of the system -/

/-- The other calls go on as they were. -/
theorem mem_set_of_mem {α : Type} {items : List α} {index : Nat} {old new item : α}
    (found : items[index]? = some old) (membership : item ∈ items) :
    item ∈ items.set index new ∨ item = old := by
  rcases List.mem_iff_getElem?.mp membership with ⟨other, isItem⟩
  by_cases same : index = other
  · subst same
    exact .inr (Option.some.inj (isItem.symm.trans found))
  · refine .inl (List.mem_iff_getElem?.mpr ⟨other, ?_⟩)
    rw [List.getElem?_set_ne same]
    exact isItem

theorem dispatched_not_ready {task later : Task Val} (moves : Task.Moves label task later)
    (isLabel : label = some (.dispatchTask task.id true)) : later.status ≠ .ready := by
  cases moves with
  | rest other => exact absurd (congrArg (·.bind Reply.about) isLabel) other
  | promoted other => exact absurd (congrArg (·.bind Reply.about) isLabel) other
  | cancelled other => exact absurd (congrArg (·.bind Reply.about) isLabel) other
  | dispatched => exact TaskStatus.noConfusion
  | _ => cases isLabel

/-- A dispatch that attends a READY task passes the attention on, or dispatches it. -/
theorem Stepped.attends_on {call : Nat} {env : Env} {frame : Frame Val}
    {rest : List (Frame Val)} {outcome : Outcome Val}
    (stepped : sys.Stepped (.advance call env) next label)
    (ran : frame.step env sys.db = .ok outcome) (isNext : next.db = outcome.db)
    (replies : outcome.replies = label.toList)
    {before : WorkflowExecution Val} (member : before ∈ sys.db.executions.values)
    (running : before.status = .running) {earlier : Task Val}
    (earlierMem : earlier ∈ (sys.db.runOf before).tasks) (wasReady : earlier.status = .ready)
    (attends : frame.attends earlier.id = true) :
    Stack.attends earlier.id (outcome.next ++ rest) ∨
      ∃ later ∈ next.db.tasks.values, later.id = earlier.id ∧ later.status ≠ .ready := by
  have inv := stepped.inv.db
  have isTask := Db.mem_runOf_tasks.mp earlierMem
  cases frame with
  | dispatchReady executionId =>
      have same : executionId = before.id := (beq_iff_eq.mp attends).trans isTask.2
      have found : sys.db.executions.findById executionId = some before :=
        (Collection.findById_eq_some inv.keyed.executions).mpr ⟨member, same.symm⟩
      simp only [Frame.step, found, running, if_true] at ran
      cases ran
      refine .inl (Stack.attends_of_next ?_ (List.mem_singleton_self _) attends)
      intro later membership
      cases List.mem_singleton.mp membership
      rfl
  | findReady executionId =>
      have same : earlier.executionId = executionId := (beq_iff_eq.mp attends).symm
      cases ran
      refine .inl (Stack.attends_of_next ?_ (List.mem_map_of_mem (a := earlier) ?_) ?_)
      · intro later membership
        rcases List.mem_map.mp membership with ⟨_, _, rfl⟩
        rfl
      · simp [Collection.find, isTask.1, same, wasReady]
      · exact decide_eq_true rfl
  | dispatchTask taskId =>
      have same : taskId = earlier.id := of_decide_eq_true attends
      subst same
      rcases Session.ok_of_bind ran with ⟨⟨won, final⟩, returned, rest⟩
      cases rest
      rcases transitionTask_ok inv.keyed.tasks returned with ⟨_, _, lost⟩ | ⟨rfl, _⟩
      · exact absurd wasReady (lost earlier (inv.findById_task isTask.1) rfl)
      · have isLabel : label = some (.dispatchTask earlier.id true) := by
          cases label with
          | none => cases replies
          | some reply =>
              cases replies
              rfl
        rcases stepped.moves isTask.1 with ⟨later, laterMem, sameId, ⟨_, unnamed⟩ | ⟨moves, _⟩⟩
        · rw [isLabel] at unnamed
          exact absurd rfl unnamed
        · exact .inr ⟨later, laterMem, sameId, dispatched_not_ready moves isLabel⟩
  | _ => cases attends

theorem Stepped.attended (stepped : sys.Stepped action next label) (steady : sys.steady action = true)
    (attended : sys.Attended) : next.Attended := by
  intro execution membership running task taskMem ready
  have made := stepped.ready_cases membership running taskMem ready
  have log := stepped.log
  have took := stepped.took
  cases took with
  | crash => cases steady
  | invoke =>
      have silent : label = none := Option.toList_eq_nil_iff.mp (label_eq log)
      rcases made with ⟨before, member, was, earlier, earlierMem, isTask, wasReady⟩ |
        ⟨_, isLabel, _⟩
      · rcases attended before member was earlier earlierMem wasReady with ⟨stack, old, attends⟩
        exact ⟨stack, List.mem_append_left _ old, isTask ▸ attends⟩
      · rw [silent] at isLabel
        cases isLabel
  | @threw call env frame rest thrown found threw =>
      have isLabel : label = some (.threw thrown) := label_eq_some log
      rcases made with ⟨before, member, was, earlier, earlierMem, isTask, wasReady⟩ |
        ⟨_, other, after⟩
      · rcases attended before member was earlier earlierMem wasReady with ⟨stack, old, attends⟩
        cases mem_set_of_mem found old with
        | inl kept => exact ⟨stack, kept, isTask ▸ attends⟩
        | inr same =>
            -- a call that throws here attends nothing
            subst same
            have runs : ∃ outcome, frame.step env sys.db = .ok outcome :=
              Frame.dispatches_ok (Stack.top_dispatches attends)
            rcases runs with ⟨outcome, ran⟩
            cases ran.symm.trans threw
      · cases isLabel.symm.trans other
        cases after
  | @ran call env frame rest outcome found ran =>
      have replies : outcome.replies = label.toList := List.append_cancel_right log
      have inBounds : call < sys.calls.length := (List.getElem?_eq_some_iff.mp found).1
      have isStack : outcome.next ++ rest ∈ sys.calls.set call (outcome.next ++ rest) :=
        List.mem_set inBounds _
      rcases made with ⟨before, member, was, earlier, earlierMem, isTask, wasReady⟩ |
        ⟨reply, isLabel, after⟩
      · rcases attended before member was earlier earlierMem wasReady with ⟨stack, old, attends⟩
        cases mem_set_of_mem found old with
        | inl kept => exact ⟨stack, kept, isTask ▸ attends⟩
        | inr same =>
            subst same
            cases Stack.top_or_rest attends with
            | inl top =>
                cases stepped.attends_on ran rfl replies member was earlierMem wasReady top with
                | inl passed => exact ⟨_, isStack, isTask ▸ passed⟩
                | inr moved =>
                    rcases moved with ⟨later, laterMem, sameId, notReady⟩
                    have same := stepped.later.db.task_eq_of_id laterMem
                      (Db.mem_runOf_tasks.mp taskMem).1 (sameId.trans isTask)
                    rw [same] at notReady
                    exact absurd ready notReady
            | inr below =>
                have dispatch : ∀ later ∈ outcome.next, later.dispatches = true :=
                  fun later => Frame.dispatches_next (Stack.top_dispatches attends) ran
                exact ⟨_, isStack, isTask ▸ Stack.attends_of_rest dispatch below⟩
      · rw [isLabel] at replies
        have isNext := Frame.next_of_after ran replies (by simp [after])
        refine ⟨_, isStack, ?_⟩
        rw [isNext, after]
        refine Stack.attends_of_next ?_ (List.mem_singleton_self _) ?_
        · intro later isLater
          cases List.mem_singleton.mp isLater
          rfl
        · exact beq_iff_eq.mpr (Db.mem_runOf_tasks.mp taskMem).2.symm

theorem attended (reachable : (engineSystem Val).ReachableBy
    (fun sys action => sys.steady action = true) sys) : sys.Attended := by
  have both : sys.Inv ∧ sys.Attended := by
    apply reachable.invariant
    · constructor
      · exact inv_init
      · intro execution membership
        cases membership
    · intro state action next held permitted taken
      rcases held.1.stepped taken with ⟨label, stepped⟩
      exact ⟨stepped.later, stepped.attended permitted held.2⟩
  exact both.2

end Sys

omit [Mixed Val] in
/-- A task that is attended to has a call that has not ended. -/
theorem Sys.Attended.not_ready {sys : Sys Val} (attended : sys.Attended)
    (settled : ∀ stack ∈ sys.calls, stack = []) {execution : WorkflowExecution Val}
    (membership : execution ∈ sys.db.executions.values) (running : execution.status = .running)
    {task : Task Val} (taskMem : task ∈ (sys.db.runOf execution).tasks) :
    task.status ≠ .ready := by
  intro ready
  rcases attended execution membership running task taskMem ready with
    ⟨stack, isStack, frame, frameMem, _⟩
  rw [settled stack isStack] at frameMem
  cases frameMem

/-- Unless a process stops, no READY task of a RUNNING run is forgotten: as soon as all
calls have ended, the run has none. -/
theorem none_ready {sys : Sys Val} (reachable : (engineSystem Val).ReachableBy
      (fun sys action => sys.steady action = true) sys)
    (settled : ∀ stack ∈ sys.calls, stack = []) {execution : WorkflowExecution Val}
    (membership : execution ∈ sys.db.executions.values) (running : execution.status = .running) :
    ∀ task ∈ (sys.db.runOf execution).tasks, task.status ≠ .ready :=
  fun _ taskMem => (Sys.attended reachable).not_ready settled membership running taskMem

namespace Schedule

/-- A run is paused before its first dispatch, which finds nothing, and then resumed. -/
def resumedAtOnce : List (Action Plain) :=
  start [definition "A" [], definition "B" ["A"]] :: steps 0 [1, 2] ++
    call (.pauseExecution 2) :: steps 1 [3, 4] ++ steps 0 [5] ++
    call (.resumeExecution 2) :: steps 2 [6, 7, 8, 9, 10, 11]

end Schedule

theorem none_ready_resumedAtOnce :
    ∃ sys : Sys Plain, ∃ execution ∈ sys.db.executions.values, execution.status = .running ∧
      (sys.db.runOf execution).tasks.map (·.status) = [.queued, .pending] ∧
      ∀ task ∈ (sys.db.runOf execution).tasks, task.status ≠ .ready := by
  let sys := Schedule.afterBy Sys.steady Schedule.resumedAtOnce (by decide)
  have settled : ∀ stack ∈ sys.calls, stack = [] := by decide
  have found : ∃ execution ∈ sys.db.executions.values, execution.status = .running ∧
      (sys.db.runOf execution).tasks.map (·.status) = [.queued, .pending] := by decide
  rcases found with ⟨execution, membership, running, statuses⟩
  exact ⟨sys, execution, membership, running, statuses,
    none_ready (Schedule.afterBy_reachable Sys.steady _ (by decide)) settled membership running⟩

end WorkflowEngine
