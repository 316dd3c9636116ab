import WorkflowEngine.Foundations.Counting
import WorkflowEngine.Workflow.Attempts

/-!
# The history of attempts is truthful

A task has at most one attempt recorded as RUNNING, the current one of a RUNNING task,
unless a run is cancelled under an attempt that is recorded as RUNNING or a call of
`startTask` inserts its record when its attempt is already over.
-/

namespace WorkflowEngine

open DocStore

variable {Val : Type}

/-! ## Calls between a claim and its record -/

/-- The claimed task whose record the frame inserts. -/
def Frame.inserts : Frame Val → Option (Task Val)
  | .recordAttempt task _ => some task
  | _ => none

/-- Some call of `startTask` has claimed a task and not yet inserted its record. -/
def Sys.recording (sys : Sys Val) : Bool :=
  sys.calls.any fun stack => stack.any fun frame => frame.inserts.isSome

/-- The frame marks the records of earlier attempts than its own, and of this one,
ABANDONED. -/
def Frame.abandons (taskId : TaskId) (attempt : Nat) : Frame Val → Bool
  | .abandonAttempts task => decide (task.id = taskId) && decide (attempt < task.attempt)
  | _ => false

/-- Some call is about to abandon the attempt. -/
def Sys.abandons (sys : Sys Val) (taskId : TaskId) (attempt : Nat) : Bool :=
  sys.calls.any fun stack => stack.any (Frame.abandons taskId attempt)

/-- The task is RUNNING and this is its attempt. -/
def Db.current (db : Db Val) (taskId : TaskId) (attempt : Nat) : Bool :=
  db.tasks.values.any fun task =>
    decide (task.id = taskId) && decide (task.status = .running) &&
      decide (task.attempt = attempt)

/-- The current attempt of a RUNNING task of the run is recorded as RUNNING. -/
def Db.attemptOpen (db : Db Val) (executionId : ExecutionId) : Bool :=
  db.attempts.values.any fun record =>
    decide (record.status = .running) && decide (record.taskId.executionId = executionId) &&
      db.current record.taskId record.attempt

/-! ## What workers do -/

/-- Workers report under the tokens that `startTask` gave them, and no process crashes
between its claim and its insert. -/
def Sys.obeys (sys : Sys Val) : Action Val → Bool
  | .invoke (.transaction op) => op.report?.all fun report =>
      (startedIn sys.log).any fun claimed =>
        decide ((claimed.task.id, claimed.task.leaseToken) = report)
  | .crash call => sys.calls[call]?.all fun stack => !stack.any fun frame => frame.inserts.isSome
  | _ => true

/-- The run that this callback cancels, if its commit is not refused. -/
def Frame.cancels (db : Db Val) : Frame Val → Option ExecutionId
  | .callback (.cancelExecution executionId) snapshot =>
      if (snapshot.executions.findById executionId).any (fun execution => execution.status.live) &&
          snapshot.executions.rev? executionId == db.executions.rev? executionId then
        some executionId
      else
        none
  | _ => none

/-- The action records an attempt that is over and that no later call is about to
abandon, or cancels a run while an attempt is recorded as RUNNING. -/
def Sys.falsifies (sys : Sys Val) (action : Action Val) : Bool :=
  (sys.frame? action).any fun frame =>
    frame.inserts.any (fun task =>
        !sys.db.current task.id task.attempt && !sys.abandons task.id task.attempt) ||
      (frame.cancels sys.db).any sys.db.attemptOpen

/-! ## Single steps -/

variable [Mixed Val]

/-- A task stays at its attempt, is claimed again, or leaves RUNNING by an applied report
or a cancellation. -/
theorem Task.Moves.of_running {label : Option (Reply Val)} {task later : Task Val}
    (moves : Task.Moves label task later) (running : task.status = .running) :
    later.status = .running ∧ later.attempt = task.attempt ∨
      label = some (.claimTask later) ∧ task.attempt < later.attempt ∨
      (∃ reply, label = some reply ∧ reply.appliedTo task.id = some task.leaseToken) ∨
      ∃ executionId, label = some (.cancelExecution executionId true) := by
  cases moves with
  | rest => exact .inl ⟨running, rfl⟩
  | renewed => exact .inl ⟨running, rfl⟩
  | claimed => exact .inr (.inl ⟨rfl, Nat.lt_succ_self _⟩)
  | completed | retried | failed | suspended =>
      exact .inr (.inr (.inl ⟨_, rfl, if_pos rfl⟩))
  | aborted => exact .inr (.inr (.inr ⟨_, rfl⟩))
  | promoted _ pending =>
      rw [running] at pending
      cases pending
  | cancelled _ unstarted =>
      rw [running] at unstarted
      cases unstarted
  | dispatched ready =>
      rw [running] at ready
      cases ready
  | approved waiting =>
      rw [running] at waiting
      cases waiting
  | rejected waiting =>
      rw [running] at waiting
      cases waiting

namespace Sys

variable {sys next : Sys Val} {action : Action Val} {label : Option (Reply Val)}

/-- The transaction of a cancellation. -/
theorem Stepped.cancels {executionId : ExecutionId}
    (stepped : sys.Stepped action next (some (.cancelExecution executionId true))) :
    ∃ frame, sys.frame? action = some frame ∧ frame.cancels sys.db = some executionId := by
  rcases stepped.committed rfl with ⟨env, op, snapshot, patch, isFrame, answers, writes, commits⟩
  cases writes with
  | nothing idle => cases idle
  | @cancel execution rows found live describes =>
      cases op with
      | cancelExecution =>
          cases answers
          have matched : (cancelling execution.status
              (snapshot.tasks.matched (cancelUnfinished execution.id env.now)) env.now).filter
                execution = true := decide_eq_true rfl
          rcases commits.execution_current found rfl matched with
            ⟨doc, inSnapshot, inCommitted, rfl⟩
          have before := Collection.rev?_of_mem commits.snapshotInv.keyed.executions inSnapshot
          have now := Collection.rev?_of_mem commits.inv.keyed.executions inCommitted
          refine ⟨_, isFrame, ?_⟩
          rw [Frame.cancels, found, Option.any_some, live, if_pos]
          exact Bool.and_eq_true_iff.mpr ⟨rfl, beq_iff_eq.mpr (before.trans now.symm)⟩
      | _ => cases answers

omit [Mixed Val] in
theorem current_iff {db : Db Val} {taskId : TaskId} {attempt : Nat} :
    db.current taskId attempt = true ↔ ∃ task ∈ db.tasks.values, task.id = taskId ∧
      task.status = .running ∧ task.attempt = attempt := by
  simp only [Db.current, List.any_eq_true, Bool.and_eq_true, decide_eq_true_eq, and_assoc]

omit [Mixed Val] in
theorem abandons_iff {taskId : TaskId} {attempt : Nat} :
    sys.abandons taskId attempt = true ↔ ∃ stack ∈ sys.calls, ∃ task,
      .abandonAttempts task ∈ stack ∧ task.id = taskId ∧ attempt < task.attempt := by
  simp only [abandons, List.any_eq_true]
  constructor
  · rintro ⟨stack, membership, frame, frameMem, isFrame⟩
    unfold Frame.abandons at isFrame
    split at isFrame
    · next task =>
      simp only [Bool.and_eq_true, decide_eq_true_eq] at isFrame
      exact ⟨stack, membership, task, frameMem, isFrame⟩
    · cases isFrame
  · rintro ⟨stack, membership, task, frameMem, isTask, earlier⟩
    refine ⟨stack, membership, _, frameMem, ?_⟩
    simp only [Frame.abandons, Bool.and_eq_true, decide_eq_true_eq]
    exact ⟨isTask, earlier⟩

/-- A call that is about to abandon attempts stays so, or does it now. -/
theorem Stepped.abandons (stepped : sys.Stepped action next label)
    (shaped : ∀ stack ∈ sys.calls, Stack sys.db stack) (obeys : sys.obeys action = true)
    {taskId : TaskId} {attempt : Nat} (before : sys.abandons taskId attempt = true) :
    next.abandons taskId attempt = true ∨ ∃ (env : Env) (task : Task Val) (outcome : Outcome Val),
      sys.frame? action = some (.abandonAttempts task) ∧ task.id = taskId ∧
        attempt < task.attempt ∧ (Frame.abandonAttempts task).step env sys.db = .ok outcome ∧
        next.db = outcome.db := by
  rcases abandons_iff.mp before with ⟨stack, membership, task, frameMem, isTask, earlier⟩
  rcases (shaped stack membership).abandons frameMem with ⟨workerId, isStack⟩
  have kept : stack ∈ next.calls → next.abandons taskId attempt = true :=
    fun still => abandons_iff.mpr ⟨stack, still, task, frameMem, isTask, earlier⟩
  have took := stepped.took
  cases took with
  | invoke => exact .inl (kept (List.mem_append_left _ membership))
  | @crash call =>
      refine .inl (kept ?_)
      cases found : sys.calls[call]? with
      | none =>
          rw [List.set_eq_of_length_le (List.getElem?_eq_none_iff.mp found)]
          exact membership
      | some crashed =>
          apply Counting.mem_set_of_ne found membership
          rintro rfl
          rw [Sys.obeys, found, isStack] at obeys
          cases obeys
  | @ran call env frame rest outcome found ran =>
      by_cases same : stack = frame :: rest
      · rw [isStack] at same
        rcases List.cons.inj same with ⟨rfl, rfl⟩
        exact .inr ⟨env, task, outcome, frame?_eq found, isTask, earlier, ran, rfl⟩
      · exact .inl (kept (Counting.mem_set_of_ne found membership same))
  | @threw call env frame rest thrown found threw =>
      by_cases same : stack = frame :: rest
      · rw [isStack] at same
        rcases List.cons.inj same with ⟨rfl, rfl⟩
        rcases Session.error_of_bind threw with absurdity | ⟨_, _, absurdity⟩ <;> cases absurdity
      · exact .inl (kept (Counting.mem_set_of_ne found membership same))

/-! ## The invariant -/

/-- What holds of the records and of the calls in progress. -/
structure Truthful (sys : Sys Val) : Prop where
  shaped : ∀ stack ∈ sys.calls, Stack sys.db stack
  started : ∀ claimed ∈ startedIn sys.log,
    (claimed.task.id, claimed.task.leaseToken) ∈ sys.db.attempts.ids
  /-- an open record is the current one or is about to be abandoned -/
  open_ : ∀ record ∈ sys.db.attempts.values, record.status = .running →
    sys.db.current record.taskId record.attempt = true ∨
      sys.abandons record.taskId record.attempt = true

theorem Stepped.shaped (stepped : sys.Stepped action next label) (before : sys.Truthful)
    (obeys : sys.obeys action = true) : ∀ stack ∈ next.calls, Stack next.db stack := by
  have grows := stepped.advances.since.attempts
  have empty : ∀ {db : Db Val}, Stack db [] :=
    .recorded fun _ absurdity => absurd absurdity List.not_mem_nil
  have later : ∀ stack ∈ sys.calls, Stack next.db stack :=
    fun stack membership => (before.shaped stack membership).later grows
  have took := stepped.took
  cases took with
  | @invoke frame isCall =>
      intro stack membership
      rcases List.mem_append.mp membership with old | new
      · exact before.shaped stack old
      · rw [List.mem_singleton.mp new]
        cases frame with
        | startTask => exact .claiming _ _
        | transaction op =>
            refine .recorded ?_
            intro frame frameMem
            cases List.mem_singleton.mp frameMem
            intro report isReport
            simp only [Sys.obeys, isReport, Option.all_some, List.any_eq_true,
              decide_eq_true_eq] at obeys
            rcases obeys with ⟨claimed, claimedMem, rfl⟩
            exact before.started claimed claimedMem
        | renewLease | dispatchReady | dispatchTask | reconcile =>
            refine .recorded ?_
            intro frame frameMem
            cases List.mem_singleton.mp frameMem
            trivial
        | _ => cases isCall
  | crash =>
      intro stack membership
      rcases List.mem_or_eq_of_mem_set membership with old | rfl
      · exact before.shaped stack old
      · exact empty
  | @ran call env frame rest outcome found ran =>
      intro stack membership
      rcases List.mem_or_eq_of_mem_set membership with old | rfl
      · exact later stack old
      · have stackMem := List.mem_of_getElem? found
        exact (before.shaped _ stackMem).next
          (stepped.inv.frames _ stackMem frame List.mem_cons_self) grows ran
  | @threw call env frame rest thrown found threw =>
      intro stack membership
      rcases List.mem_or_eq_of_mem_set membership with old | rfl
      · exact before.shaped stack old
      · exact (before.shaped _ (List.mem_of_getElem? found)).unwound

theorem Stepped.started (stepped : sys.Stepped action next label) (before : sys.Truthful) :
    ∀ claimed ∈ startedIn next.log,
      (claimed.task.id, claimed.task.leaseToken) ∈ next.db.attempts.ids := by
  have grows := stepped.advances.since.attempts
  intro claimed membership
  rcases mem_startedIn.mp membership with ⟨taskId, replyMem⟩
  have known : .startTask taskId (some claimed) ∈ sys.log →
      (claimed.task.id, claimed.task.leaseToken) ∈ next.db.attempts.ids :=
    fun old => grows.ids_subset _ (before.started claimed (mem_startedIn.mpr ⟨taskId, old⟩))
  have took := stepped.took
  cases took with
  | invoke | crash => exact known replyMem
  | threw =>
      rcases List.mem_cons.mp replyMem with new | old
      · cases new
      · exact known old
  | @ran call env frame rest outcome found ran =>
      rcases List.mem_append.mp replyMem with new | old
      · have gives := frame.gives ran new
        have stackMem := List.mem_of_getElem? found
        cases gives with
        | @callback op _ _ answers => cases op <;> cases answers
        | started task input =>
            have ok := stepped.inv.frames _ stackMem _ List.mem_cons_self
            apply grows.ids_subset
            rw [← ok.1.attempt]
            have stack := before.shaped _ stackMem
            generalize isStack : Frame.gatherParents task input :: rest = frames at stack
            cases stack with
            | claiming => cases isStack
            | opening opened => cases opened <;> cases isStack
            | recorded recorded => exact recorded _ (isStack ▸ List.mem_cons_self)
      · exact known old

/-- What becomes of the current attempt of a RUNNING task. -/
theorem Stepped.current (stepped : sys.Stepped action next label) {taskId : TaskId}
    {attempt : Nat} (current : sys.db.current taskId attempt = true) :
    next.db.current taskId attempt = true ∨ next.abandons taskId attempt = true ∨
      (∃ reply, label = some reply ∧ reply.appliedTo taskId = some attempt) ∨
      label = some (.cancelExecution taskId.executionId true) := by
  rcases current_iff.mp current with ⟨task, membership, rfl, running, rfl⟩
  rcases stepped.moves membership with ⟨later, laterMem, isTask, ⟨rfl, _⟩ | ⟨moved, home⟩⟩
  · exact .inl (current_iff.mpr ⟨later, laterMem, rfl, running, rfl⟩)
  · rcases moved.of_running running with
      ⟨still, same⟩ | ⟨isLabel, grown⟩ | ⟨reply, isLabel, applied⟩ | ⟨executionId, isLabel⟩
    · exact .inl (current_iff.mpr ⟨later, laterMem, isTask, still, same⟩)
    · right
      left
      have log := stepped.log
      rw [isLabel] at log
      have took := stepped.took
      cases took with
      | invoke | crash => exact absurd log.symm (List.cons_ne_self _ _)
      | threw =>
          have same := List.append_cancel_right
            (show [.threw _] ++ sys.log = [.claimTask later] ++ sys.log from log)
          cases List.singleton_inj.mp same
      | @ran call env frame rest outcome found ran =>
          have claimed : .claimTask later ∈ outcome.replies := by
            rw [List.append_cancel_right log]
            exact List.mem_cons_self
          have bound := (List.getElem?_eq_some_iff.mp found).1
          exact abandons_iff.mpr ⟨_, List.mem_set bound _, later,
            List.mem_append_left _ (frame.abandons_of_claimed ran claimed), isTask, grown⟩
    · refine .inr (.inr (.inl ⟨reply, isLabel, ?_⟩))
      rcases stepped.inv.db.exists_run membership with ⟨execution, executionMem, _, inRun⟩
      rw [((stepped.inv.db.runInv executionMem).ok task inRun).attempt]
      exact applied
    · refine .inr (.inr (.inr ?_))
      rw [isLabel, home executionId (by rw [isLabel]; rfl)]
      rfl

/-- An applied report closes the record of its attempt. -/
theorem Stepped.closed {reply : Reply Val} (stepped : sys.Stepped action next (some reply))
    (before : sys.Truthful) {record : TaskExecution}
    (membership : record ∈ next.db.attempts.values)
    (applied : reply.appliedTo record.taskId = some record.attempt) :
    record.status ≠ .running := by
  have transactional : reply.transactional = true := by
    unfold Reply.appliedTo at applied
    split at applied <;> first | rfl | cases applied
  rcases stepped.committed transactional with
    ⟨env, op, snapshot, patch, isFrame, answers, writes, commits⟩
  rcases writes.attempts.2 with ⟨_, unapplied⟩ | ⟨task, status, error, found, _, token, closed, only⟩
  · rw [unapplied] at applied
    cases applied
  · have isTask : record.taskId = task.id :=
      Option.some.inj ((Reply.appliedTo_about applied).symm.trans (Reply.appliedTo_about token))
    rw [isTask, token] at applied
    have taskMem := ((Collection.findById_eq_some commits.snapshotInv.keyed.tasks).mp found).1
    rcases commits.snapshotInv.exists_run taskMem with ⟨execution, executionMem, _, inRun⟩
    have attempt := ((commits.snapshotInv.runInv executionMem).ok task inRun).attempt
    have present : (task.id, task.attempt) ∈ snapshot.attempts.ids := by
      rw [attempt]
      have recorded : Op.Recorded snapshot op := by
        rcases frame?_top isFrame with ⟨rest, stackMem⟩
        have stack := before.shaped _ stackMem
        generalize isStack : Frame.callback op snapshot :: rest = frames at stack
        cases stack with
        | claiming => cases isStack
        | opening opened => cases opened <;> cases isStack
        | recorded recorded => exact recorded _ (isStack ▸ List.mem_cons_self)
      exact recorded _ (answers.report token)
    rw [commits.closed_attempt only present membership
      (by rw [isTask, attempt, Option.some.inj applied])]
    exact closed

theorem Stepped.open_ (stepped : sys.Stepped action next label) (before : sys.Truthful)
    (obeys : sys.obeys action = true) (truthful : sys.falsifies action = false) :
    ∀ record ∈ next.db.attempts.values, record.status = .running →
      next.db.current record.taskId record.attempt = true ∨
        next.abandons record.taskId record.attempt = true := by
  intro record membership running
  have origin : record ∈ sys.db.attempts.values ∨ label = none ∧ ∃ task workerId now,
      sys.frame? action = some (.recordAttempt task workerId) ∧
        record = newAttempt task workerId now := by
    have took := stepped.took
    cases took with
    | invoke | crash | threw => exact .inl membership
    | @ran call env frame rest outcome found ran =>
        have ok := stepped.inv.frames _ (List.mem_of_getElem? found) frame List.mem_cons_self
        rcases frame.running_attempt stepped.inv.db ok ran membership running with
          old | ⟨task, workerId, rfl, isNew⟩
        · exact .inl old
        · refine .inr ⟨?_, task, workerId, env.now, frame?_eq found, isNew⟩
          cases label with
          | none => rfl
          | some reply =>
              have gives := (Frame.recordAttempt task workerId).gives ran
                (by rw [List.append_cancel_right stepped.log]; exact List.mem_cons_self)
              cases gives
  rcases origin with old | ⟨unlabelled, task, workerId, now, isFrame, rfl⟩
  · rcases before.open_ record old running with current | abandoning
    · rcases stepped.current current with still | still | ⟨reply, rfl, applied⟩ | rfl
      · exact .inl still
      · exact .inr still
      · exact absurd running (stepped.closed before membership applied)
      · rcases stepped.cancels with ⟨frame, isFrame, cancels⟩
        have attemptOpen : sys.db.attemptOpen record.taskId.executionId = true := by
          refine List.any_eq_true.mpr ⟨record, old, ?_⟩
          simp only [running, current, decide_true, Bool.and_self]
        rw [falsifies, isFrame, Option.any_some, cancels, Option.any_some, attemptOpen,
          Bool.or_true] at truthful
        cases truthful
    · rcases stepped.abandons before.shaped obeys abandoning with
        still | ⟨env, task, outcome, _, isTask, earlier, ran, isNext⟩
      · exact .inr still
      · rw [isNext] at membership
        exact absurd earlier (Frame.abandoned_attempt ran membership running isTask.symm)
  · rw [falsifies, isFrame, Option.any_some, Frame.inserts, Option.any_some] at truthful
    rcases Bool.and_eq_false_iff.mp (Bool.or_eq_false_iff.mp truthful).1 with
      current | abandoning
    · have current : sys.db.current task.id task.attempt = true := by simpa using current
      rcases stepped.current current with still | still | ⟨reply, isLabel, _⟩ | isLabel
      · exact .inl still
      · exact .inr still
      · rw [unlabelled] at isLabel
        cases isLabel
      · rw [unlabelled] at isLabel
        cases isLabel
    · have abandoning : sys.abandons task.id task.attempt = true := by simpa using abandoning
      rcases stepped.abandons before.shaped obeys abandoning with
        still | ⟨_, other, _, otherFrame, _⟩
      · exact .inr still
      · rw [isFrame] at otherFrame
        cases otherFrame

theorem truthful_of_reachableBy {sys : Sys Val}
    (reachable : (engineSystem Val).ReachableBy
      (fun sys action => (sys.obeys action && !sys.falsifies action) = true) sys) :
    sys.Truthful := by
  induction reachable with
  | init =>
      exact ⟨fun _ absurdity => absurd absurdity List.not_mem_nil,
        fun _ absurdity => absurd absurdity List.not_mem_nil,
        fun _ absurdity => absurd absurdity List.not_mem_nil⟩
  | step reached allowed taken ih =>
      rcases (inv_of_reachableBy reached).stepped taken with ⟨label, stepped⟩
      rcases Bool.and_eq_true_iff.mp allowed with ⟨obeys, truthful⟩
      exact ⟨stepped.shaped ih obeys, stepped.started ih,
        stepped.open_ ih obeys (by simpa using truthful)⟩

end Sys

/-! ## The guarantee -/

/-- The RUNNING records of a task. -/
def Db.openAttempts (db : Db Val) (taskId : TaskId) : List TaskExecution :=
  db.attempts.values.filter fun record =>
    decide (record.taskId = taskId) && decide (record.status = .running)

/-- What the records of attempts say is true. -/
structure Db.TruthfulHistory (db : Db Val) : Prop where
  one : ∀ taskId, (db.openAttempts taskId).length ≤ 1
  current : ∀ record ∈ db.attempts.values, record.status = .running →
    ∃ task ∈ db.tasks.values, task.id = record.taskId ∧ task.status = .running ∧
      task.attempt = record.attempt
  finished : ∀ task ∈ db.tasks.values, task.status.unfinished = false →
    ∀ record ∈ db.attempts.values, record.taskId = task.id → record.status ≠ .running

omit [Mixed Val] in
theorem Db.openAttempts_length {db : Db Val} (keyed : db.Keyed) {taskId : TaskId}
    (same : ∀ left ∈ db.openAttempts taskId, ∀ right ∈ db.openAttempts taskId,
      left.attempt = right.attempt) : (db.openAttempts taskId).length ≤ 1 := by
  have nodup : (db.openAttempts taskId).Nodup := by
    apply List.Nodup.filter
    apply List.Nodup.of_map (Document.id (V := TaskExecution))
    rw [Collection.values_ids]
    exact keyed.attempts
  cases found : db.openAttempts taskId with
  | nil => exact Nat.zero_le _
  | cons first rest =>
      have firstMem : first ∈ db.openAttempts taskId := found ▸ List.mem_cons_self
      have only : ∀ record ∈ db.openAttempts taskId, record = first := by
        intro record membership
        have ofTask : ∀ other ∈ db.openAttempts taskId, other ∈ db.attempts.values ∧
            other.taskId = taskId := by
          intro other otherMem
          rcases List.mem_filter.mp otherMem with ⟨stored, matched⟩
          simp only [Bool.and_eq_true, decide_eq_true_eq] at matched
          exact ⟨stored, matched.1⟩
        apply Collection.value_eq_of_id_eq keyed.attempts (ofTask record membership).1
          (ofTask first firstMem).1
        exact Prod.ext ((ofTask record membership).2.trans (ofTask first firstMem).2.symm)
          (same record membership first firstMem)
      rw [found] at only nodup
      rw [List.eq_replicate_of_mem only] at nodup
      exact List.nodup_replicate.mp nodup

/-- When no call is between its claim and its record, the history is truthful, as long as
no step recorded an attempt that is over or cancelled a run under a RUNNING record. -/
theorem truthful_history {sys : Sys Val}
    (reachable : (engineSystem Val).ReachableBy
      (fun sys action => (sys.obeys action && !sys.falsifies action) = true) sys)
    (settled : sys.recording = false) : sys.db.TruthfulHistory := by
  have inv := (Sys.inv_of_reachableBy reachable).db
  have truthful := Sys.truthful_of_reachableBy reachable
  have current : ∀ record ∈ sys.db.attempts.values, record.status = .running →
      ∃ task ∈ sys.db.tasks.values, task.id = record.taskId ∧ task.status = .running ∧
        task.attempt = record.attempt := by
    intro record membership running
    rcases truthful.open_ record membership running with now | abandoning
    · exact Sys.current_iff.mp now
    · rcases Sys.abandons_iff.mp abandoning with ⟨stack, stackMem, task, frameMem, _⟩
      rcases (truthful.shaped stack stackMem).abandons frameMem with ⟨workerId, isStack⟩
      have recording : sys.recording = true := by
        refine List.any_eq_true.mpr ⟨stack, stackMem, ?_⟩
        rw [isStack]
        rfl
      rw [recording] at settled
      cases settled
  refine ⟨?_, current, ?_⟩
  · intro taskId
    apply Db.openAttempts_length inv.keyed
    have attempt : ∀ record ∈ sys.db.openAttempts taskId, ∃ task ∈ sys.db.tasks.values,
        task.id = taskId ∧ task.attempt = record.attempt := by
      intro record membership
      rcases List.mem_filter.mp membership with ⟨stored, matched⟩
      simp only [Bool.and_eq_true, decide_eq_true_eq] at matched
      rcases current record stored matched.2 with ⟨task, taskMem, isTask, _, same⟩
      exact ⟨task, taskMem, isTask.trans matched.1, same⟩
    intro left leftMem right rightMem
    rcases attempt left leftMem with ⟨task, taskMem, isTask, same⟩
    rcases attempt right rightMem with ⟨other, otherMem, isOther, same'⟩
    rw [← same, ← same', inv.task_eq_of_id taskMem otherMem (isTask.trans isOther.symm)]
  · intro task membership ended record recordMem ofTask running
    rcases current record recordMem running with ⟨other, otherMem, isOther, still, _⟩
    rw [inv.task_eq_of_id membership otherMem (ofTask.symm.trans isOther.symm), still] at ended
    cases ended

namespace Schedule

/-- The claims and reports of one task: it fails once, is started again, loses its lease
and is taken over. -/
def attemptsClosed : List (Action Plain) :=
  oneStarted ++
    call (.failTask ⟨2, "A"⟩ 1 busy) :: steps 2 [14, 15, 16] ++
    .invoke (.startTask ⟨2, "A"⟩ "w") :: steps 3 [20, 21, 22, 23, 24, 25, 26] ++
    .invoke (.startTask ⟨2, "A"⟩ "v") :: steps 4 [200, 201, 202, 203, 204, 205, 206]

/-- A run is cancelled while its only task is RUNNING. -/
def cancelledRunning : List (Action Plain) :=
  oneStarted ++ call (.cancelExecution 2) :: steps 2 [14, 15]

/-- A worker pauses between its claim and its insert, past its lease; a second worker
takes the task over and records its attempt before the first one goes on. -/
def recordedLate : List (Action Plain) :=
  start [definition "A" []] :: steps 0 [1, 2, 3, 4, 5, 6] ++
    .invoke (.startTask ⟨2, "A"⟩ "w") :: steps 1 [7] ++
    .invoke (.startTask ⟨2, "A"⟩ "v") :: steps 2 [200, 201, 202] ++ steps 1 [203, 204]

end Schedule

theorem truthful_history_attemptsClosed :
    (Schedule.afterBy (fun sys action => sys.obeys action && !sys.falsifies action)
      Schedule.attemptsClosed (by decide)).db.TruthfulHistory :=
  truthful_history (Schedule.afterBy_reachable _ Schedule.attemptsClosed (by decide)) (by decide)

/-- A cancelled run keeps the record of its RUNNING task open. -/
theorem not_truthful_history :
    ¬ ∀ sys : Sys Plain, (engineSystem Plain).ReachableBy
        (fun sys action => sys.obeys action = true) sys →
      sys.recording = false → sys.db.TruthfulHistory := by
  intro truthful
  have cancelled := truthful _ (Schedule.afterBy_reachable _ Schedule.cancelledRunning (by decide))
    (by decide)
  exact absurd cancelled.current (by decide)

/-- The late insert leaves a task with two RUNNING records. -/
theorem recordedLate_untruthful :
    (engineSystem Plain).ReachableBy (fun sys action => sys.obeys action = true)
        (Schedule.afterBy Sys.obeys Schedule.recordedLate (by decide)) ∧
      (Schedule.afterBy Sys.obeys Schedule.recordedLate (by decide)).recording = false ∧
      1 < ((Schedule.afterBy Sys.obeys Schedule.recordedLate (by decide)).db.openAttempts
        ⟨2, "A"⟩).length :=
  ⟨Schedule.afterBy_reachable _ Schedule.recordedLate (by decide), by decide, by decide⟩

end WorkflowEngine
