import WorkflowEngine.Workflow.History

/-!
# Committed transactions

A reply of a transaction in the log was given by a callback on its snapshot: what
the callback wrote and which conflicts the commit excluded can be read back from
the step that logged it.
-/

namespace WorkflowEngine

open DocStore

variable {Val : Type}

/-- The reply is one that this call can give. -/
def Op.Answers : Op Val → Reply Val → Prop
  | .startExecution params, .startExecution answered _ => answered = params
  | .pauseExecution executionId, .pauseExecution answered _ => answered = executionId
  | .resumeExecution executionId, .resumeExecution answered _ => answered = executionId
  | .cancelExecution executionId, .cancelExecution answered _ => answered = executionId
  | .completeTask taskId leaseToken output, .completeTask answered token value _ =>
      answered = taskId ∧ token = leaseToken ∧ value = output
  | .failTask taskId leaseToken error, .failTask answered token thrown _ =>
      answered = taskId ∧ token = leaseToken ∧ thrown = error
  | .suspendForApproval taskId leaseToken _, .suspendForApproval answered token _ =>
      answered = taskId ∧ token = leaseToken
  | .resolveApproval params, .resolveApproval answered _ _ => answered = params
  | _, _ => False

/-- The reply was given by a transaction. -/
def Reply.transactional : Reply Val → Bool
  | .startExecution .. | .pauseExecution .. | .resumeExecution .. | .cancelExecution ..
  | .completeTask .. | .failTask .. | .suspendForApproval .. | .resolveApproval .. => true
  | _ => false

variable [Mixed Val]

theorem Op.run_answers {op : Op Val} {env : Env} {db view : Db Val} {reply : Reply Val}
    (returned : (op.run env).run db = .ok (reply, view)) : op.Answers reply := by
  cases op <;> rcases Session.bind_eq_ok.mp returned with ⟨_, _, _, replied⟩ <;>
    rcases Session.pure_eq_ok.mp replied with ⟨rfl, _⟩
  case completeTask | failTask => exact ⟨rfl, rfl, rfl⟩
  case suspendForApproval => exact ⟨rfl, rfl⟩
  all_goals rfl

/-- The reply is one that a step of this frame can give. -/
inductive Frame.Gives : Frame Val → Reply Val → Prop where
  | callback {op : Op Val} {snapshot : Db Val} {reply : Reply Val} :
      op.Answers reply → Gives (.callback op snapshot) reply
  | renewLease (taskId : TaskId) (leaseToken : Nat) (renewed : Bool) :
      Gives (.renewLease taskId leaseToken) (.renewLease taskId leaseToken renewed)
  | dispatchTask (taskId : TaskId) (won : Bool) :
      Gives (.dispatchTask taskId) (.dispatchTask taskId won)
  | enqueue (taskId : TaskId) (reached : Bool) :
      Gives (.enqueue taskId) (.enqueue taskId reached)
  | enqueueDelayed (taskId : TaskId) (delayMs : Nat) (reached : Bool) :
      Gives (.enqueueDelayed taskId delayMs) (.enqueueDelayed taskId delayMs reached)
  | claimed (taskId : TaskId) (workerId : String) (task : Task Val) :
      Gives (.startTask taskId workerId) (.claimTask task)
  | skipped (taskId : TaskId) (workerId : String) :
      Gives (.startTask taskId workerId) (.startTask taskId none)
  | refused (taskId : TaskId) : Gives (.refuse taskId) (.startTask taskId none)
  | started (task : Task Val) (input : Val) (parents : List (Key × Val)) :
      Gives (.gatherParents task input) (.startTask task.id (some ⟨task, input, parents⟩))

theorem Frame.gives {env : Env} {db : Db Val} {frame : Frame Val} {outcome : Outcome Val}
    (ran : frame.step env db = .ok outcome) {reply : Reply Val}
    (membership : reply ∈ outcome.replies) : frame.Gives reply := by
  cases frame with
  | callback op snapshot =>
      rcases Session.ok_of_bind ran with ⟨⟨answer, view⟩, returned, rest⟩
      simp only at rest
      split at rest
      · cases rest
        cases List.mem_singleton.mp membership
        exact .callback (Op.run_answers returned)
      · cases rest
        cases membership
  | renewLease taskId leaseToken =>
      rcases Session.ok_of_bind ran with ⟨_, _, rest⟩
      cases rest
      cases List.mem_singleton.mp membership
      exact .renewLease _ _ _
  | dispatchTask taskId =>
      rcases Session.ok_of_bind ran with ⟨_, _, rest⟩
      cases rest
      cases List.mem_singleton.mp membership
      exact .dispatchTask _ _
  | startTask taskId workerId =>
      rcases Session.ok_of_bind ran with ⟨⟨claimed, _⟩, _, rest⟩
      cases claimed with
      | none =>
          cases rest
          cases List.mem_singleton.mp membership
          exact .skipped _ _
      | some task =>
          cases rest
          cases List.mem_singleton.mp membership
          exact .claimed _ _ _
  | abandonAttempts | recordAttempt | announce =>
      rcases Session.ok_of_bind ran with ⟨_, _, rest⟩
      cases rest
      cases membership
  | enqueue =>
      cases ran
      cases List.mem_singleton.mp membership
      exact .enqueue _ _
  | enqueueDelayed =>
      cases ran
      cases List.mem_singleton.mp membership
      exact .enqueueDelayed _ _ _
  | refuse =>
      cases ran
      cases List.mem_singleton.mp membership
      exact .refused _
  | gatherParents =>
      cases ran
      cases List.mem_singleton.mp membership
      exact .started _ _ _
  | dispatchReady | checkBudget =>
      simp only [step] at ran
      split at ran <;> cases ran <;> cases membership
  | redispatch stuck =>
      cases stuck with
      | nil =>
          cases ran
          cases membership
      | cons first rest =>
          simp only [step] at ran
          split at ran
          · cases ran
            cases membership
          · split at ran <;> cases ran <;> cases membership
  | transaction | findReady | gatherInput | reconcile | sweepReady | sweepQueued | sweepRunning
  | sweepRetrying | sweepApprovals | expire =>
      cases ran
      cases membership

/-- A step that gives a transaction's reply commits its callback. -/
theorem Frame.committed {env : Env} {db : Db Val} {frame : Frame Val} {outcome : Outcome Val}
    (inv : db.Inv) (ok : frame.Ok db) (ran : frame.step env db = .ok outcome) {reply : Reply Val}
    (membership : reply ∈ outcome.replies) (transactional : reply.transactional = true) :
    ∃ op snapshot patch, frame = .callback op snapshot ∧ op.Answers reply ∧
      Writes env snapshot reply patch ∧ Db.Commits snapshot db patch outcome.db := by
  have gives := frame.gives ran membership
  cases gives with
  | @callback op snapshot _ answers =>
      rcases Session.ok_of_bind ran with ⟨⟨answer, view⟩, returned, rest⟩
      simp only at rest
      split at rest
      · next next committed =>
        cases rest
        cases List.mem_singleton.mp membership
        rcases Op.run_ok ok.1.keyed returned with ⟨patch, writes, rfl⟩
        have keyed := (Op.run_keyed op).final ok.1.keyed returned
        exact ⟨op, snapshot, patch, rfl, answers, writes,
          Db.commits_of_commit ok.1 inv ok.2 keyed committed⟩
      · cases rest
        cases membership
  | renewLease | dispatchTask | enqueue | enqueueDelayed | claimed | skipped | refused | started =>
      cases transactional

/-- The transaction whose reply a step logged. -/
theorem Sys.Stepped.committed {sys next : Sys Val} {action : Action Val} {reply : Reply Val}
    (stepped : sys.Stepped action next (some reply)) (transactional : reply.transactional = true) :
    ∃ env op snapshot patch, sys.frame? action = some (.callback op snapshot) ∧
      op.Answers reply ∧ Writes env snapshot reply patch ∧
      Db.Commits snapshot sys.db patch next.db := by
  have log := stepped.log
  cases stepped.took with
  | invoke | crash => exact absurd log.symm (List.cons_ne_self _ _)
  | @ran call env frame rest outcome found ran =>
      have ok := stepped.inv.frames _ (List.mem_of_getElem? found) frame List.mem_cons_self
      have membership : reply ∈ outcome.replies := by
        rw [List.append_cancel_right log]
        exact List.mem_singleton_self reply
      rcases Frame.committed stepped.inv.db ok ran membership transactional with
        ⟨op, snapshot, patch, rfl, answers, writes, commits⟩
      exact ⟨env, op, snapshot, patch, frame?_eq found, answers, writes, commits⟩
  | threw found threw =>
      have same := List.append_cancel_right
        (show [.threw _] ++ sys.log = [reply] ++ sys.log from log)
      cases List.singleton_inj.mp same
      cases transactional

/-! ## Transactions of a call -/

/-- The transaction that a frame runs. -/
def Frame.op? : Frame Val → Option (Op Val)
  | .transaction op => some op
  | .callback op _ => some op
  | _ => none

omit [Mixed Val] in
theorem Frame.op?_after {reply : Reply Val} {frame : Frame Val}
    (membership : frame ∈ reply.after) : frame.op? = none := by
  unfold Reply.after at membership
  split at membership
  case h_5 =>
    split at membership
    · cases List.mem_singleton.mp membership
      rfl
    · cases membership
  case h_6 => cases membership
  all_goals
    cases List.mem_singleton.mp membership
    rfl

/-- A step of the first frame can make the second one next. -/
inductive Frame.Follows : Frame Val → Frame Val → Prop where
  | started (op : Op Val) (snapshot : Db Val) :
      Follows (.transaction op) (.callback op snapshot)
  | restarted (op : Op Val) (snapshot : Db Val) :
      Follows (.callback op snapshot) (.transaction op)
  | after {op : Op Val} {snapshot : Db Val} {reply : Reply Val} {later : Frame Val} :
      op.Answers reply → later ∈ reply.after → Follows (.callback op snapshot) later
  | findReady (executionId : ExecutionId) :
      Follows (.dispatchReady executionId) (.findReady executionId)
  | dispatchTask (executionId : ExecutionId) (taskId : TaskId) :
      Follows (.findReady executionId) (.dispatchTask taskId)
  | enqueue (taskId : TaskId) : Follows (.dispatchTask taskId) (.enqueue taskId)
  | abandonAttempts (taskId : TaskId) (workerId : String) (task : Task Val) :
      Follows (.startTask taskId workerId) (.abandonAttempts task)
  | recordAttempt (taskId : TaskId) (workerId : String) (task : Task Val) :
      Follows (.startTask taskId workerId) (.recordAttempt task workerId)
  | announce (taskId : TaskId) (workerId : String) (task : Task Val) :
      Follows (.startTask taskId workerId) (.announce task workerId)
  | checkBudget (taskId : TaskId) (workerId : String) (task : Task Val) :
      Follows (.startTask taskId workerId) (.checkBudget task)
  | exhausted (task : Task Val) :
      Follows (.checkBudget task) (.transaction (.failTask task.id task.leaseToken
        (some (budgetError task.maxAttempts))))
  | refuse (task : Task Val) : Follows (.checkBudget task) (.refuse task.id)
  | gatherInput (task : Task Val) : Follows (.checkBudget task) (.gatherInput task)
  | gatherParents (task : Task Val) (input : Val) :
      Follows (.gatherInput task) (.gatherParents task input)
  | sweepReady (staleMs : Int) (limit : Nat) (cutoff : Time) :
      Follows (.reconcile staleMs limit) (.sweepReady cutoff limit)
  | sweepQueued (staleMs : Int) (limit : Nat) (cutoff : Time) :
      Follows (.reconcile staleMs limit) (.sweepQueued cutoff limit)
  | sweepRunning (staleMs : Int) (limit : Nat) :
      Follows (.reconcile staleMs limit) (.sweepRunning limit)
  | sweepRetrying (staleMs : Int) (limit : Nat) (cutoff : Time) :
      Follows (.reconcile staleMs limit) (.sweepRetrying cutoff limit)
  | sweepApprovals (staleMs : Int) (limit : Nat) :
      Follows (.reconcile staleMs limit) (.sweepApprovals limit)
  | swept (cutoff : Time) (limit : Nat) (stuck : List TaskId) :
      Follows (.sweepReady cutoff limit) (.redispatch stuck [])
  | redispatch (stuck later : List TaskId)
      (statusOf known : List (ExecutionId × Option ExecutionStatus)) :
      Follows (.redispatch stuck statusOf) (.redispatch later known)
  | redispatchTask (taskId : TaskId) (rest : List TaskId)
      (statusOf : List (ExecutionId × Option ExecutionStatus)) :
      Follows (.redispatch (taskId :: rest) statusOf) (.dispatchTask taskId)
  | requeueQueued (cutoff : Time) (limit : Nat) (taskId : TaskId) :
      Follows (.sweepQueued cutoff limit) (.enqueue taskId)
  | requeueRunning (limit : Nat) (taskId : TaskId) :
      Follows (.sweepRunning limit) (.enqueue taskId)
  | requeueRetrying (cutoff : Time) (limit : Nat) (taskId : TaskId) :
      Follows (.sweepRetrying cutoff limit) (.enqueue taskId)
  | expire (limit : Nat) (approvalId : ObjectId) :
      Follows (.sweepApprovals limit) (.expire approvalId)
  | expired (approvalId : ObjectId) :
      Follows (.expire approvalId) (.transaction (.resolveApproval
        { approvalId, decision := .expired, decidedBy := none, comment := none
          scope := none }))

theorem Frame.follows {env : Env} {db : Db Val} {frame later : Frame Val}
    {outcome : Outcome Val} (ran : frame.step env db = .ok outcome)
    (membership : later ∈ outcome.next) : frame.Follows later := by
  cases frame with
  | transaction op =>
      cases ran
      cases List.mem_singleton.mp membership
      exact .started op db
  | callback op snapshot =>
      rcases Session.ok_of_bind ran with ⟨⟨reply, view⟩, returned, rest⟩
      simp only at rest
      split at rest
      · cases rest
        exact .after (Op.run_answers returned) membership
      · cases rest
        cases List.mem_singleton.mp membership
        exact .restarted op snapshot
  | renewLease | abandonAttempts | recordAttempt | announce =>
      rcases Session.ok_of_bind ran with ⟨_, _, rest⟩
      cases rest
      cases membership
  | dispatchTask taskId =>
      rcases Session.ok_of_bind ran with ⟨⟨won, _⟩, _, rest⟩
      cases rest
      cases won
      · cases membership
      · cases List.mem_singleton.mp membership
        exact .enqueue taskId
  | dispatchReady executionId =>
      simp only [step] at ran
      split at ran
      · next execution _ =>
        cases ran
        by_cases running : execution.status = .running
        · rw [if_pos running] at membership
          cases List.mem_singleton.mp membership
          exact .findReady executionId
        · rw [if_neg running] at membership
          cases membership
      · cases ran
        cases membership
  | findReady executionId =>
      cases ran
      rcases List.mem_map.mp membership with ⟨task, _, rfl⟩
      exact .dispatchTask executionId task.id
  | startTask taskId workerId =>
      rcases Session.ok_of_bind ran with ⟨⟨claimed, _⟩, _, rest⟩
      cases claimed with
      | none =>
          cases rest
          cases membership
      | some task =>
          cases rest
          simp only [List.mem_cons, List.not_mem_nil, or_false] at membership
          rcases membership with rfl | rfl | rfl | rfl
          · exact .abandonAttempts taskId workerId task
          · exact .recordAttempt taskId workerId task
          · exact .announce taskId workerId task
          · exact .checkBudget taskId workerId task
  | checkBudget task =>
      simp only [step] at ran
      split at ran
      · cases ran
        simp only [List.mem_cons, List.not_mem_nil, or_false] at membership
        rcases membership with rfl | rfl
        · exact .exhausted task
        · exact .refuse task
      · cases ran
        cases List.mem_singleton.mp membership
        exact .gatherInput task
  | gatherInput task =>
      cases ran
      cases List.mem_singleton.mp membership
      exact .gatherParents task _
  | reconcile staleMs limit =>
      cases ran
      simp only [List.mem_cons, List.not_mem_nil, or_false] at membership
      rcases membership with rfl | rfl | rfl | rfl | rfl
      · exact .sweepReady staleMs limit _
      · exact .sweepQueued staleMs limit _
      · exact .sweepRunning staleMs limit
      · exact .sweepRetrying staleMs limit _
      · exact .sweepApprovals staleMs limit
  | sweepReady cutoff limit =>
      cases ran
      cases List.mem_singleton.mp membership
      exact .swept cutoff limit _
  | redispatch stuck statusOf =>
      cases stuck with
      | nil =>
          cases ran
          cases membership
      | cons taskId rest =>
          simp only [step] at ran
          split at ran
          · cases ran
            cases List.mem_singleton.mp membership
            exact .redispatch _ _ _ _
          · split at ran
            · cases ran
              simp only [List.mem_cons, List.not_mem_nil, or_false] at membership
              rcases membership with rfl | rfl
              · exact .redispatchTask taskId rest statusOf
              · exact .redispatch _ _ _ _
            · cases ran
              cases List.mem_singleton.mp membership
              exact .redispatch _ _ _ _
  | sweepQueued cutoff limit =>
      cases ran
      rcases List.mem_map.mp membership with ⟨task, _, rfl⟩
      exact .requeueQueued cutoff limit task.id
  | sweepRunning limit =>
      cases ran
      rcases List.mem_map.mp membership with ⟨task, _, rfl⟩
      exact .requeueRunning limit task.id
  | sweepRetrying cutoff limit =>
      cases ran
      rcases List.mem_map.mp membership with ⟨task, _, rfl⟩
      exact .requeueRetrying cutoff limit task.id
  | sweepApprovals limit =>
      cases ran
      rcases List.mem_map.mp membership with ⟨request, _, rfl⟩
      exact .expire limit request.id
  | expire approvalId =>
      cases ran
      cases List.mem_singleton.mp membership
      exact .expired approvalId
  | enqueue | enqueueDelayed | refuse | gatherParents =>
      cases ran
      cases membership

/-- A call starts no other transactions than the one it was made for, the failure of a
task without attempts left and the timeouts of the reconciler. -/
theorem Frame.step_op {env : Env} {db : Db Val} {frame later : Frame Val}
    {outcome : Outcome Val} {op : Op Val} (ran : frame.step env db = .ok outcome)
    (membership : later ∈ outcome.next) (isOp : later.op? = some op) :
    frame.op? = some op ∨
      (∃ task, frame = .checkBudget task ∧ op = .failTask task.id task.leaseToken
        (some (budgetError task.maxAttempts))) ∨
      ∃ params, op = .resolveApproval params := by
  have follows := frame.follows ran membership
  cases follows with
  | started | restarted => exact .inl isOp
  | after answers isNext =>
      rw [op?_after isNext] at isOp
      cases isOp
  | exhausted task => exact .inr (.inl ⟨task, rfl, (Option.some.inj isOp).symm⟩)
  | expired => exact .inr (.inr ⟨_, (Option.some.inj isOp).symm⟩)
  | _ => cases isOp

end WorkflowEngine
