import WorkflowEngine.Workers.Delivery

/-!
# Workers and RUNNING tasks

While nothing fails, a RUNNING task is being worked on: the loop that holds its current
lease is starting it, runs its handler or reports the result.  A report that its snapshot
shows to be due is applied, so the loop is not done before the task has left RUNNING.
-/

namespace WorkflowEngine

open DocStore Queues

variable {Val : Type}

/-- The attempt that the transaction reports on. -/
def Op.attempt? : Op Val → Option (TaskId × Nat)
  | .completeTask taskId leaseToken _ => some (taskId, leaseToken)
  | .failTask taskId leaseToken _ => some (taskId, leaseToken)
  | .suspendForApproval taskId leaseToken _ => some (taskId, leaseToken)
  | _ => none

theorem attempt_runTask [Mixed Val] (claimed : Started Val) (result : HandlerResult Val) :
    (runTask claimed result).attempt? = some (claimed.task.id, claimed.task.leaseToken) := by
  cases result with
  | returned | awaitApproval => rfl
  | threw error =>
      rw [runTask]
      split
      · rfl
      · rfl

/-- The frame will report on the attempt.  Its snapshot shows the attempt running. -/
def Frame.Reports (taskId : TaskId) (leaseToken : Nat) : Frame Val → Prop
  | .transaction op => op.attempt? = some (taskId, leaseToken)
  | .callback op snapshot =>
      op.attempt? = some (taskId, leaseToken) ∧
        ∃ task, snapshot.tasks.findById taskId = some task ∧ task.status = .running ∧
          task.leaseToken = leaseToken
  | _ => False

/-- What is left of a call of `startTask` that has claimed the attempt. -/
inductive Stack.Starts (taskId : TaskId) (leaseToken : Nat) : List (Frame Val) → Prop where
  | claimed {task : Task Val} {workerId : String} :
      task.id = taskId → task.leaseToken = leaseToken →
      Starts taskId leaseToken [.abandonAttempts task, .recordAttempt task workerId,
        .announce task workerId, .checkBudget task]
  | abandoned {task : Task Val} {workerId : String} :
      task.id = taskId → task.leaseToken = leaseToken →
      Starts taskId leaseToken
        [.recordAttempt task workerId, .announce task workerId, .checkBudget task]
  | recorded {task : Task Val} {workerId : String} :
      task.id = taskId → task.leaseToken = leaseToken →
      Starts taskId leaseToken [.announce task workerId, .checkBudget task]
  | announced {task : Task Val} :
      task.id = taskId → task.leaseToken = leaseToken →
      Starts taskId leaseToken [.checkBudget task]
  | allowed {task : Task Val} :
      task.id = taskId → task.leaseToken = leaseToken →
      Starts taskId leaseToken [.gatherInput task]
  | gathered {task : Task Val} {input : Val} :
      task.id = taskId → task.leaseToken = leaseToken →
      Starts taskId leaseToken [.gatherParents task input]
  | exhausted {frame : Frame Val} {refused : TaskId} :
      frame.Reports taskId leaseToken → Starts taskId leaseToken [frame, .refuse refused]

/-- The loop works on the attempt. -/
inductive Loop.WorksOn (calls : List (List (Frame Val))) (taskId : TaskId) (leaseToken : Nat) :
    Loop Val → Prop where
  | starting {popped : TaskId} {call : Nat} {stack : List (Frame Val)} :
      calls[call]? = some stack → Stack.Starts taskId leaseToken stack →
      WorksOn calls taskId leaseToken (.starting popped call)
  | running {popped : TaskId} {started : Started Val} :
      started.task.id = taskId → started.task.leaseToken = leaseToken →
      WorksOn calls taskId leaseToken (.running popped started)
  | reporting {popped : TaskId} {call : Nat} {frame : Frame Val} :
      calls[call]? = some [frame] → frame.Reports taskId leaseToken →
      WorksOn calls taskId leaseToken (.reporting popped call)

/-- The call that the loop waits for. -/
def Loop.waitsFor? : Loop Val → Option Nat
  | .starting _ call => some call
  | .reporting _ call => some call
  | _ => none

variable [Mixed Val]

namespace Cluster

/-- A call that a loop waits for throws. -/
def failsWorker (cluster : Cluster Val) : Action Val → Bool
  | .advance call env =>
      cluster.loops.any (fun loop => decide (loop.waitsFor? = some call)) &&
        (cluster.sys.frame? (.advance call env)).any fun frame =>
          (frame.step env cluster.sys.db).toOption.isNone
  | _ => false

/-- No process stops, no operation of a worker fails, and Redis answers. -/
def smooth (cluster : Cluster Val) (action : Action Val) : Bool :=
  cluster.faultless action && !cluster.failsWorker action

/-- What holds of the loops while nothing fails. -/
structure Works (cluster : Cluster Val) : Prop where
  inv : cluster.sys.Inv
  /-- only loops start tasks -/
  started : ∀ call stack, cluster.sys.calls[call]? = some stack →
    (∀ frame ∈ stack, frame.starts? = none) ∨
      ∃ taskId workerId, stack = [.startTask taskId workerId] ∧
        .starting taskId call ∈ cluster.loops
  worked : ∀ task ∈ cluster.sys.db.tasks.values, task.status = .running →
    ∃ loop ∈ cluster.loops, loop.WorksOn cluster.sys.calls task.id task.leaseToken

end Cluster

/-! ### Reports that are applied -/

section Applied

variable {env : Env} {db view : Db Val} {task : Task Val}

omit [Mixed Val] in
theorem completeTask_applied {output : Val} {executionId : Option ExecutionId} (keyed : db.Keyed)
    (search : db.tasks.findById task.id = some task) (running : task.status = .running)
    (returned : (completeTask env task.id task.leaseToken output).run db =
      .ok (executionId, view)) : executionId.isSome = true := by
  rcases Session.bind_eq_ok.mp returned with ⟨won, moved, ran, rest⟩
  rcases transitionTask_ok keyed.tasks ran with ⟨_, _, lost⟩ | ⟨rfl, _⟩
  · exact absurd running (lost task search (by simp [completion]))
  · rw [if_pos rfl] at rest
    rcases Session.bind_eq_ok.mp rest with ⟨found, _, _, rest2⟩
    cases found with
    | none => exact absurd rest2 Session.throw_eq_ok
    | some task =>
        rcases Session.bind_eq_ok.mp rest2 with ⟨_, _, _, rest3⟩
        rcases Session.bind_eq_ok.mp rest3 with ⟨_, _, _, rest4⟩
        rcases Session.pure_eq_ok.mp rest4 with ⟨rfl, _⟩
        rfl

theorem suspendForApproval_applied {request : ApprovalParams Val} {applied : Bool}
    (keyed : db.Keyed) (search : db.tasks.findById task.id = some task)
    (running : task.status = .running)
    (returned : (suspendForApproval env task.id task.leaseToken request).run db =
      .ok (applied, view)) : applied = true := by
  rcases Session.bind_eq_ok.mp returned with ⟨won, moved, ran, rest⟩
  rcases transitionTask_ok keyed.tasks ran with ⟨_, _, lost⟩ | ⟨rfl, _⟩
  · exact absurd running (lost task search (by simp [suspension]))
  · rw [if_pos rfl] at rest
    rcases Session.bind_eq_ok.mp rest with ⟨found, _, _, rest2⟩
    cases found with
    | none => exact absurd rest2 Session.throw_eq_ok
    | some task =>
        rcases Session.bind_eq_ok.mp rest2 with ⟨_, _, _, rest3⟩
        rcases Session.bind_eq_ok.mp rest3 with ⟨_, _, _, rest4⟩
        rcases Session.bind_eq_ok.mp rest4 with ⟨_, _, _, rest5⟩
        rcases Session.pure_eq_ok.mp rest5 with ⟨rfl, _⟩
        rfl

omit [Mixed Val] in
theorem failTask_applied {error : Option Thrown} {result : Option FailResult} (keyed : db.Keyed)
    (search : db.tasks.findById task.id = some task) (running : task.status = .running)
    (returned : (failTask env task.id task.leaseToken error).run db = .ok (result, view)) :
    result.isSome = true := by
  rcases Session.bind_eq_ok.mp returned with ⟨found, same, read, rest⟩
  rw [Session.run_findById] at read
  cases read
  have reported : ((Holds.get db : Collection (Task Val)).findById task.id).filter
      (fun other => decide (other.status = .running) && other.leaseToken == task.leaseToken) =
        some task := Db.reported_eq search running
  rw [reported] at rest
  rcases Session.bind_eq_ok.mp rest with ⟨_, closed, ran, rest2⟩
  rw [Session.run_updateOne, set_attempts] at ran
  cases ran
  rcases Session.bind_eq_ok.mp rest2 with ⟨execution, _, read, rest3⟩
  rw [Session.run_findById] at read
  cases read
  split at rest3
  · simp only at rest3
    split at rest3
    · rcases retryTask_ok keyed search running rest3 with ⟨_, _, rfl, _⟩
      rfl
    · rcases failForGood_ok keyed search running rest3 with ⟨_, _, rfl, _⟩
      rfl
  · exact absurd rest3 Session.throw_eq_ok

/-- A report on an attempt that the snapshot shows running is applied. -/
theorem Op.run_applied {op : Op Val} {reply : Reply Val} (keyed : db.Keyed)
    (search : db.tasks.findById task.id = some task) (running : task.status = .running)
    (attempt : op.attempt? = some (task.id, task.leaseToken))
    (returned : (op.run env).run db = .ok (reply, view)) : reply.about = some task.id := by
  cases op with
  | completeTask =>
      cases attempt
      rcases Session.bind_eq_ok.mp returned with ⟨executionId, _, ran, rest⟩
      rcases Session.pure_eq_ok.mp rest with ⟨rfl, rfl⟩
      rw [completeTask_applied keyed search running ran]
      rfl
  | failTask =>
      cases attempt
      rcases Session.bind_eq_ok.mp returned with ⟨result, _, ran, rest⟩
      rcases Session.pure_eq_ok.mp rest with ⟨rfl, rfl⟩
      have applied := failTask_applied keyed search running ran
      cases result with
      | none => cases applied
      | some => rfl
  | suspendForApproval =>
      cases attempt
      rcases Session.bind_eq_ok.mp returned with ⟨applied, _, ran, rest⟩
      rcases Session.pure_eq_ok.mp rest with ⟨rfl, rfl⟩
      rw [suspendForApproval_applied keyed search running ran]
      rfl
  | _ => cases attempt

end Applied

/-! ### Steps of the calls of a worker -/

section Calls

variable {sys next : Sys Val} {call : Nat} {env : Env} {label : Option (Reply Val)}
  {frame : Frame Val} {rest : List (Frame Val)} {outcome : Outcome Val}

/-- A report on a RUNNING task goes on until it is applied. -/
theorem Frame.Reports.stepped {source : Task Val}
    (reports : frame.Reports source.id source.leaseToken)
    (stepped : sys.Stepped (.advance call env) next label)
    (found : sys.calls[call]? = some (frame :: rest)) (ran : frame.step env sys.db = .ok outcome)
    (membership : source ∈ sys.db.tasks.values) (running : source.status = .running)
    (other : label.bind Reply.about ≠ some source.id ∨
      label = some (.renewLease source.id source.leaseToken true)) :
    ∃ later, outcome.next = [later] ∧ later.Reports source.id source.leaseToken := by
  have ok := stepped.inv.frames _ (List.mem_of_getElem? found) frame List.mem_cons_self
  cases frame with
  | transaction op =>
      cases ran
      exact ⟨.callback op sys.db, rfl, reports, source,
        stepped.inv.db.findById_task membership, running, rfl⟩
  | callback op snapshot =>
      rcases reports with ⟨attempt, task, search, wasRunning, token⟩
      rcases Frame.callback_cases ran with ⟨reply, view, returned, _, replies⟩ | rfl
      · have isTask : task.id = source.id :=
          ((Collection.findById_eq_some ok.1.keyed.tasks).mp search).2
        rw [← isTask] at search attempt
        rw [← token] at attempt
        have applied := Op.run_applied ok.1.keyed search wasRunning attempt returned
        have isLabel := (stepped.of_ran found ran).1
        rw [replies] at isLabel
        cases label with
        | none => cases isLabel
        | some given =>
            cases isLabel
            cases other with
            | inl other => exact absurd (applied.trans (congrArg some isTask)) other
            | inr renewed =>
                cases renewed
                have answers := op.run_answers returned
                cases op <;> cases answers
      · exact ⟨.transaction op, rfl, attempt⟩
  | _ => cases reports

/-- A call of `startTask` goes on to return the attempt, or to report on it. -/
theorem Stack.Starts.stepped {source : Task Val}
    (starts : Stack.Starts source.id source.leaseToken (frame :: rest))
    (stepped : sys.Stepped (.advance call env) next label)
    (found : sys.calls[call]? = some (frame :: rest)) (ran : frame.step env sys.db = .ok outcome)
    (membership : source ∈ sys.db.tasks.values) (running : source.status = .running)
    (other : label.bind Reply.about ≠ some source.id ∨
      label = some (.renewLease source.id source.leaseToken true)) :
    Stack.Starts source.id source.leaseToken (outcome.next ++ rest) ∨
      outcome.next ++ rest = [] ∧ ∃ taskId started,
        outcome.replies = [.startTask taskId (some started)] ∧
        started.task.id = source.id ∧ started.task.leaseToken = source.leaseToken := by
  cases starts with
  | claimed isTask token =>
      rcases Session.ok_of_bind ran with ⟨_, _, rest⟩
      cases rest
      exact .inl (.abandoned isTask token)
  | abandoned isTask token =>
      rcases Session.ok_of_bind ran with ⟨_, _, rest⟩
      cases rest
      exact .inl (.recorded isTask token)
  | recorded isTask token =>
      rcases Session.ok_of_bind ran with ⟨_, _, rest⟩
      cases rest
      exact .inl (.announced isTask token)
  | announced isTask token =>
      simp only [Frame.step] at ran
      split at ran
      · cases ran
        left
        apply Stack.Starts.exhausted
        rw [← isTask, ← token]
        rfl
      · cases ran
        exact .inl (.allowed isTask token)
  | allowed isTask token =>
      cases ran
      exact .inl (.gathered isTask token)
  | gathered isTask token =>
      cases ran
      exact .inr ⟨rfl, _, _, rfl, isTask, token⟩
  | exhausted reports =>
      rcases reports.stepped stepped found ran membership running other with ⟨later, isNext, on⟩
      rw [isNext]
      exact .inl (.exhausted on)

end Calls

/-- How a task gets RUNNING: it was so under the same token, or it is claimed now. -/
theorem Task.Moves.running_cases {label : Option (Reply Val)} {task later : Task Val}
    (moves : Task.Moves label task later) (running : later.status = .running) :
    (task.status = .running ∧ later.leaseToken = task.leaseToken ∧
        (label.bind Reply.about ≠ some task.id ∨
          label = some (.renewLease task.id task.leaseToken true))) ∨
      label = some (.claimTask later) := by
  cases moves with
  | rest other => exact .inl ⟨running, rfl, .inl other⟩
  | renewed wasRunning => exact .inl ⟨wasRunning, rfl, .inr rfl⟩
  | claimed => exact .inr rfl
  | @failed _ error =>
      cases outcome : failureOutcome task (isRetryable error) <;>
        simp [moved, outcome, FailureOutcome.status] at running
  | promoted | cancelled | aborted | dispatched | completed | retried | suspended | approved
  | rejected => simp [moved] at running

namespace Cluster

variable {cluster next : Cluster Val}

section Engine

variable {later : Sys Val} {call : Nat} {env : Env} {label : Option (Reply Val)}

omit [Mixed Val] in
/-- A loop that waits for another call goes on as it is. -/
theorem resumed_of_other {loop : Loop Val} {reply : Option (Reply Val)}
    (other : loop.waitsFor? ≠ some call) : loop.resumed call reply = loop := by
  cases loop with
  | starting taskId pending =>
      have different : pending ≠ call := fun same => other (congrArg some same)
      simp [Loop.resumed, different]
  | reporting taskId pending =>
      have different : pending ≠ call := fun same => other (congrArg some same)
      simp [Loop.resumed, different]
  | _ => rfl

omit [Mixed Val] in
theorem mem_loops_advanced_of_other {loop : Loop Val} (membership : loop ∈ cluster.loops)
    (other : loop.waitsFor? ≠ some call) : loop ∈ (cluster.advanced call env later).loops := by
  simp only [Cluster.advanced]
  split
  · exact List.mem_map.mpr ⟨loop, membership, resumed_of_other other⟩
  · exact membership

omit [Mixed Val] in
theorem mem_loops_advanced_of_unended {loop : Loop Val} (membership : loop ∈ cluster.loops)
    {stack : List (Frame Val)} (found : later.calls[call]? = some stack) (unended : stack ≠ []) :
    loop ∈ (cluster.advanced call env later).loops := by
  have goesOn : later.calls[call]?.any List.isEmpty = false := by
    rw [found, Option.any_some]
    exact List.isEmpty_eq_false_iff.mpr unended
  simp only [Cluster.advanced, goesOn]
  exact membership

omit [Mixed Val] in
theorem mem_loops_advanced_of_ended (env : Env) {loop : Loop Val} (membership : loop ∈ cluster.loops)
    (found : later.calls[call]? = some []) {replies : List (Reply Val)}
    (log : later.log = replies ++ cluster.sys.log) :
    loop.resumed call replies.head? ∈ (cluster.advanced call env later).loops := by
  have ended : later.calls[call]?.any List.isEmpty = true := by
    rw [found]
    rfl
  have given : later.log.take (later.log.length - cluster.sys.log.length) = replies := by
    rw [log, List.length_append, Nat.add_sub_cancel, List.take_left]
  simp only [Cluster.advanced, ended, given, if_true]
  exact List.mem_map_of_mem membership

/-- What a loop works on, it works on after a step of any call. -/
theorem worksOn_stepped {source : Task Val} {loop : Loop Val}
    (worksOn : loop.WorksOn cluster.sys.calls source.id source.leaseToken)
    (isLoop : loop ∈ cluster.loops)
    (stepped : cluster.sys.Stepped (.advance call env) later label)
    (smooth : cluster.smooth (.advance call env) = true)
    (membership : source ∈ cluster.sys.db.tasks.values) (running : source.status = .running)
    (other : label.bind Reply.about ≠ some source.id ∨
      label = some (.renewLease source.id source.leaseToken true)) :
    ∃ loop ∈ (cluster.advanced call env later).loops,
      loop.WorksOn later.calls source.id source.leaseToken := by
  have elsewhere : ∀ {pending : Nat} {stack : List (Frame Val)}, pending ≠ call →
      cluster.sys.calls[pending]? = some stack → later.calls[pending]? = some stack := by
    intro pending stack different found
    have took := stepped.took
    cases took with
    | ran =>
        rw [List.getElem?_set_ne different.symm]
        exact found
    | threw =>
        rw [List.getElem?_set_ne different.symm]
        exact found
  -- the call of a loop does not throw
  have answered : ∀ {frame : Frame Val} {rest : List (Frame Val)},
      loop.waitsFor? = some call → cluster.sys.calls[call]? = some (frame :: rest) →
      ∃ outcome, frame.step env cluster.sys.db = .ok outcome ∧
        outcome.replies = label.toList ∧ later.calls[call]? = some (outcome.next ++ rest) := by
    intro frame rest waits found
    cases ran : frame.step env cluster.sys.db with
    | error thrown =>
        have waiting : cluster.loops.any
            (fun loop => decide (loop.waitsFor? = some call)) = true :=
          List.any_eq_true.mpr ⟨loop, isLoop, decide_eq_true waits⟩
        simp only [Cluster.smooth, failsWorker, waiting, Sys.frame?_eq found, Option.any_some, ran,
          Except.toOption, Option.isNone_none, Bool.and_true, Bool.not_true, Bool.and_false]
          at smooth
        cases smooth
    | ok outcome =>
        rcases stepped.of_ran found ran with ⟨replies, _, calls⟩
        refine ⟨outcome, rfl, replies, ?_⟩
        rw [calls]
        exact List.getElem?_set_self (List.getElem?_eq_some_iff.mp found).1
  cases worksOn with
  | running isTask token =>
      exact ⟨_, mem_loops_advanced_of_other isLoop (fun absurdity => by cases absurdity),
        .running isTask token⟩
  | @starting popped pending stack found starts =>
      by_cases same : pending = call
      · subst same
        cases stack with
        | nil => cases starts
        | cons frame rest =>
            rcases answered rfl found with ⟨outcome, ran, replies, isStack⟩
            rcases starts.stepped stepped found ran membership running other with
              on | ⟨ended, taskId, started, isReply, isTask, token⟩
            · refine ⟨_, mem_loops_advanced_of_unended isLoop isStack ?_, .starting isStack on⟩
              intro absurdity
              rw [absurdity] at on
              cases on
            · rw [ended] at isStack
              have log := stepped.log
              rw [← replies, isReply] at log
              have resumed := mem_loops_advanced_of_ended env isLoop isStack log
              simp only [Loop.resumed, List.head?_cons, if_true] at resumed
              exact ⟨_, resumed, .running isTask token⟩
      · have different : (Loop.starting popped pending : Loop Val).waitsFor? ≠ some call :=
          fun absurdity => same (Option.some.inj absurdity)
        exact ⟨_, mem_loops_advanced_of_other isLoop different,
          .starting (elsewhere same found) starts⟩
  | @reporting popped pending frame found reports =>
      by_cases same : pending = call
      · subst same
        rcases answered rfl found with ⟨outcome, ran, _, isStack⟩
        rcases reports.stepped stepped found ran membership running other with ⟨later, isNext, on⟩
        rw [isNext] at isStack
        exact ⟨_, mem_loops_advanced_of_unended isLoop isStack (List.cons_ne_nil _ _),
          .reporting isStack on⟩
      · have different : (Loop.reporting popped pending : Loop Val).waitsFor? ≠ some call :=
          fun absurdity => same (Option.some.inj absurdity)
        exact ⟨_, mem_loops_advanced_of_other isLoop different,
          .reporting (elsewhere same found) reports⟩

/-- A task that is claimed now is worked on by the loop that has called `startTask`. -/
theorem Works.claimed (works : cluster.Works) {task : Task Val}
    (stepped : cluster.sys.Stepped (.advance call env) later (some (.claimTask task))) :
    ∃ loop ∈ (cluster.advanced call env later).loops,
      loop.WorksOn later.calls task.id task.leaseToken := by
  rcases stepped.of_reply (fun thrown absurdity => by cases absurdity) with
    ⟨_, _, frame, outcome, isAdvance, ran, replies, isFrame, _⟩
  cases isAdvance
  rcases Option.bind_eq_some_iff.mp isFrame with ⟨stack, found, isTop⟩
  cases stack with
  | nil => cases isTop
  | cons top rest =>
      cases isTop
      have calls := (stepped.of_ran found ran).2.2
      have membership : .claimTask task ∈ outcome.replies := by
        rw [replies]
        exact List.mem_singleton_self _
      have gives := frame.gives ran membership
      cases gives with
      | @callback op _ _ answers => cases op <;> cases answers
      | claimed popped workerId =>
          rcases works.started call _ found with unstarted | ⟨_, _, isStart, isLoop⟩
          · cases unstarted _ List.mem_cons_self
          · cases isStart
            rcases Session.ok_of_bind ran with ⟨⟨claimed, _⟩, _, rest⟩
            cases claimed with
            | none =>
                cases rest
                cases replies
            | some other =>
                cases rest
                cases replies
                have isStack : later.calls[call]? = some [.abandonAttempts task,
                    .recordAttempt task workerId, .announce task workerId, .checkBudget task] := by
                  rw [calls]
                  exact List.getElem?_set_self (List.getElem?_eq_some_iff.mp found).1
                exact ⟨_, mem_loops_advanced_of_unended isLoop isStack (List.cons_ne_nil _ _),
                  .starting isStack (.claimed rfl rfl)⟩

theorem Works.advanced (works : cluster.Works)
    (smooth : cluster.smooth (.advance call env) = true)
    (taken : cluster.sys.step (.advance call env) = some later) :
    (cluster.advanced call env later).Works := by
  rcases works.inv.stepped taken with ⟨label, stepped⟩
  constructor
  · exact stepped.later
  · intro pending stack found
    by_cases same : pending = call
    · subst same
      left
      have took := stepped.took
      cases took with
      | @ran _ _ frame rest outcome isTop ran =>
          have inBounds := (List.getElem?_eq_some_iff.mp isTop).1
          cases found.symm.trans (List.getElem?_set_self inBounds)
          intro other membership
          rcases List.mem_append.mp membership with isNext | isRest
          · exact starts?_of_follows (frame.follows ran isNext)
          · rcases works.started pending _ isTop with unstarted | ⟨_, _, isStart, _⟩
            · exact unstarted other (List.mem_cons_of_mem _ isRest)
            · cases isStart
              cases isRest
      | @threw _ _ frame rest thrown isTop threw =>
          have inBounds := (List.getElem?_eq_some_iff.mp isTop).1
          cases found.symm.trans (List.getElem?_set_self inBounds)
          intro other membership
          have isRest := (List.dropWhile_sublist _).mem membership
          rcases works.started pending _ isTop with unstarted | ⟨_, _, isStart, _⟩
          · exact unstarted other (List.mem_cons_of_mem _ isRest)
          · cases isStart
            cases isRest
    · have before : cluster.sys.calls[pending]? = some stack := by
        have took := stepped.took
        cases took with
        | ran =>
            rw [← found]
            exact (List.getElem?_set_ne (Ne.symm same)).symm
        | threw =>
            rw [← found]
            exact (List.getElem?_set_ne (Ne.symm same)).symm
      rcases works.started pending stack before with unstarted | ⟨taskId, workerId, isStart, isLoop⟩
      · exact .inl unstarted
      · refine .inr ⟨taskId, workerId, isStart, mem_loops_advanced_of_other isLoop ?_⟩
        exact fun absurdity => same (Option.some.inj absurdity)
  · intro task membership running
    rcases stepped.origin membership with ⟨source, sourceMem, isTask, _⟩ | ⟨_, _, new⟩
    · rcases stepped.moves sourceMem with ⟨other, otherMem, otherId, how⟩
      cases stepped.later.db.task_eq_of_id otherMem membership (otherId.trans isTask)
      -- the loop that worked on the source goes on
      have goesOn : source.status = .running → task.leaseToken = source.leaseToken →
          (label.bind Reply.about ≠ some source.id ∨
            label = some (.renewLease source.id source.leaseToken true)) →
          ∃ loop ∈ (cluster.advanced call env later).loops,
            loop.WorksOn later.calls task.id task.leaseToken := by
        intro wasRunning token other
        rcases works.worked source sourceMem wasRunning with ⟨loop, isLoop, worksOn⟩
        rw [← isTask, token]
        exact worksOn_stepped worksOn isLoop stepped smooth sourceMem wasRunning other
      cases how with
      | inl same =>
          rcases same with ⟨rfl, unnamed⟩
          apply goesOn running rfl
          left
          intro about
          apply unnamed
          cases label with
          | none => cases about
          | some reply => exact Reply.target_of_about about
      | inr moved =>
          rcases moved.1.running_cases running with ⟨wasRunning, token, other⟩ | rfl
          · exact goesOn wasRunning token other
          · exact works.claimed stepped
    · rcases List.mem_map.mp new with ⟨definition, _, rfl⟩
      simp only [newTask] at running
      split at running <;> cases running

end Engine

/-! ### Steps of the cluster -/

omit [Mixed Val] in
/-- What a loop works on, it works on when there are more calls. -/
theorem worksOn_append {calls more : List (List (Frame Val))} {taskId : TaskId}
    {leaseToken : Nat} {loop : Loop Val} (worksOn : loop.WorksOn calls taskId leaseToken) :
    loop.WorksOn (calls ++ more) taskId leaseToken := by
  have still : ∀ {pending : Nat} {stack : List (Frame Val)}, calls[pending]? = some stack →
      (calls ++ more)[pending]? = some stack := by
    intro pending stack found
    rw [List.getElem?_append_left (List.getElem?_eq_some_iff.mp found).1]
    exact found
  cases worksOn with
  | starting found starts => exact .starting (still found) starts
  | running isTask token => exact .running isTask token
  | reporting found reports => exact .reporting (still found) reports

/-- A call is made.  The loops that start or work on a task stay. -/
theorem Works.invoked (works : cluster.Works) {frame : Frame Val} {later : Sys Val}
    {loops : List (Loop Val)} (invoked : cluster.sys.step (.invoke frame) = some later)
    (starting : ∀ taskId call, .starting taskId call ∈ cluster.loops →
      .starting taskId call ∈ loops)
    (started : frame.starts? = none ∨ ∃ taskId workerId, frame = .startTask taskId workerId ∧
      .starting taskId cluster.sys.calls.length ∈ loops)
    (worked : ∀ loop ∈ cluster.loops, ∀ taskId leaseToken,
      loop.WorksOn cluster.sys.calls taskId leaseToken →
        ∃ loop ∈ loops, loop.WorksOn later.calls taskId leaseToken) :
    ({ cluster with sys := later, loops } : Cluster Val).Works := by
  rcases works.inv.stepped invoked with ⟨label, stepped⟩
  have took := stepped.took
  have later_inv := stepped.later
  cases took with
  | invoke =>
      constructor
      · exact later_inv
      · intro call stack found
        by_cases old : call < cluster.sys.calls.length
        · have before : cluster.sys.calls[call]? = some stack :=
            (List.getElem?_append_left old).symm.trans found
          rcases works.started call stack before with
            unstarted | ⟨taskId, workerId, isStart, isLoop⟩
          · exact .inl unstarted
          · exact .inr ⟨taskId, workerId, isStart, starting taskId call isLoop⟩
        · have new : (cluster.sys.calls ++ [[frame]])[call]? = some stack := found
          rw [List.getElem?_append_right (Nat.le_of_not_lt old)] at new
          rcases List.getElem?_eq_some_iff.mp new with ⟨inBounds, isNew⟩
          have isLength : call - cluster.sys.calls.length = 0 := Nat.lt_one_iff.mp inBounds
          have isCall : call = cluster.sys.calls.length :=
            Nat.le_antisymm (Nat.sub_eq_zero_iff_le.mp isLength) (Nat.le_of_not_lt old)
          simp only [isLength, List.getElem_cons_zero] at isNew
          subst isNew isCall
          cases started with
          | inl unstarted =>
              left
              intro other membership
              rw [List.mem_singleton.mp membership]
              exact unstarted
          | inr isStart =>
              rcases isStart with ⟨taskId, workerId, rfl, isLoop⟩
              exact .inr ⟨taskId, workerId, rfl, isLoop⟩
      · intro task membership running
        rcases works.worked task membership running with ⟨loop, isLoop, worksOn⟩
        exact worked loop isLoop _ _ worksOn

/-- Only the queue and the loops change.  The loops that start or work on a task stay. -/
theorem Works.of_sys (works : cluster.Works) (same : next.sys = cluster.sys)
    (kept : ∀ loop ∈ cluster.loops, loop ∈ next.loops ∨ loop.waitsFor? = none ∧
      ∀ popped started, loop ≠ .running popped started) : next.Works := by
  constructor
  · rw [same]
    exact works.inv
  · intro call stack found
    rw [same] at found
    rcases works.started call stack found with unstarted | ⟨taskId, workerId, isStart, isLoop⟩
    · exact .inl unstarted
    · rcases kept _ isLoop with still | ⟨idle, _⟩
      · exact .inr ⟨taskId, workerId, isStart, still⟩
      · cases idle
  · intro task membership running
    rw [same] at membership ⊢
    rcases works.worked task membership running with ⟨loop, isLoop, worksOn⟩
    rcases kept loop isLoop with still | ⟨idle, other⟩
    · exact ⟨loop, still, worksOn⟩
    · cases worksOn with
      | starting => cases idle
      | reporting => cases idle
      | running => exact absurd rfl (other _ _)

omit [Mixed Val] in
theorem kept_set {loops : List (Loop Val)} {index : Nat} {loop new : Loop Val}
    (isLoop : loops[index]? = some loop) (idle : loop.waitsFor? = none)
    (notRunning : ∀ popped started, loop ≠ .running popped started) :
    ∀ other ∈ loops, other ∈ loops.set index new ∨ other.waitsFor? = none ∧
      ∀ popped started, other ≠ .running popped started := by
  intro other membership
  cases Sys.mem_set_of_mem isLoop membership with
  | inl still => exact .inl still
  | inr same => exact .inr (same ▸ ⟨idle, notRunning⟩)

theorem Works.moved (works : cluster.Works) {index : Nat} {loop : Loop Val} {move : Move Val}
    (isLoop : cluster.loops[index]? = some loop)
    (smooth : cluster.smooth (.move index move) = true)
    (taken : cluster.moved index loop move = some next) : next.Works := by
  have inBounds : index < cluster.loops.length := (List.getElem?_eq_some_iff.mp isLoop).1
  unfold Cluster.moved at taken
  split at taken
  · split at taken
    · cases taken
      exact works.of_sys rfl (kept_set isLoop rfl fun _ _ absurdity => by cases absurdity)
    · cases taken
  · next popped workerId =>
    rcases Option.map_eq_some_iff.mp taken with ⟨later, invoked, rfl⟩
    apply works.invoked invoked
    · intro taskId call isStarting
      cases Sys.mem_set_of_mem isLoop isStarting with
      | inl still => exact still
      | inr same => cases same
    · exact .inr ⟨popped, workerId, rfl, List.mem_set inBounds _⟩
    · intro other membership taskId leaseToken worksOn
      cases Sys.mem_set_of_mem isLoop membership with
      | inl still =>
          have took := Sys.took_of_step invoked
          cases took with
          | invoke => exact ⟨other, still, worksOn_append worksOn⟩
      | inr same =>
          rw [same] at worksOn
          cases worksOn
  · cases taken
    exact works.of_sys rfl fun _ membership => .inl membership
  · cases taken
    exact works.of_sys rfl fun _ membership => .inl membership
  · next popped claimed result =>
    rcases Option.map_eq_some_iff.mp taken with ⟨later, invoked, rfl⟩
    apply works.invoked invoked
    · intro taskId call isStarting
      cases Sys.mem_set_of_mem isLoop isStarting with
      | inl still => exact still
      | inr same => cases same
    · exact .inl rfl
    · intro other membership taskId leaseToken worksOn
      have took := Sys.took_of_step invoked
      cases took with
      | invoke =>
          cases Sys.mem_set_of_mem isLoop membership with
          | inl still => exact ⟨other, still, worksOn_append worksOn⟩
          | inr same =>
              rw [same] at worksOn
              cases worksOn with
              | running isTask token =>
                  refine ⟨_, List.mem_set inBounds _, .reporting
                    (List.getElem?_concat_length) ?_⟩
                  rw [← isTask, ← token]
                  exact attempt_runTask claimed result
  · cases taken
    exact works.of_sys rfl (kept_set isLoop rfl fun _ _ absurdity => by cases absurdity)
  · cases smooth
  · cases taken

theorem Works.step (works : cluster.Works) {action : Action Val}
    (smooth : cluster.smooth action = true) (taken : cluster.step action = some next) :
    next.Works := by
  cases action with
  | tick | requeueExpired | promoteDue =>
      cases taken
      exact works.of_sys rfl fun _ membership => .inl membership
  | spawn =>
      cases taken
      exact works.of_sys rfl fun _ membership => .inl (List.mem_append_left _ membership)
  | crash => cases smooth
  | invoke frame =>
      simp only [Cluster.step] at taken
      split at taken
      · cases taken
      · next unstarted =>
        rcases Option.map_eq_some_iff.mp taken with ⟨later, invoked, rfl⟩
        apply works.invoked invoked
        · exact fun _ _ isStarting => isStarting
        · left
          simpa using unstarted
        · intro other membership taskId leaseToken worksOn
          have took := Sys.took_of_step invoked
          cases took with
          | invoke => exact ⟨other, membership, worksOn_append worksOn⟩
  | advance call env =>
      simp only [Cluster.step] at taken
      split at taken
      · rcases Option.map_eq_some_iff.mp taken with ⟨later, advanced, rfl⟩
        exact works.advanced smooth advanced
      · cases taken
  | move index move =>
      simp only [Cluster.step] at taken
      rcases Option.bind_eq_some_iff.mp taken with ⟨loop, isLoop, moved⟩
      exact works.moved isLoop smooth moved

end Cluster

end WorkflowEngine
