import WorkflowEngine.Workers.RunTask
import WorkflowEngine.Workflow.Committed

/-!
# The records of attempts

Five operations write the records of a task.  A call of `startTask` inserts one as
RUNNING and marks earlier ones ABANDONED; a report that is applied closes the record of
its attempt.  No step makes a closed record RUNNING again.
-/

namespace WorkflowEngine

open DocStore

variable {Val : Type}

/-- The task and the token that a report names. -/
def Op.report? : Op Val → Option (TaskId × Nat)
  | .completeTask taskId leaseToken _ => some (taskId, leaseToken)
  | .failTask taskId leaseToken _ => some (taskId, leaseToken)
  | .suspendForApproval taskId leaseToken _ => some (taskId, leaseToken)
  | _ => none

/-- What may be on the stack of a call of `startTask` after its claim and before the
insert of the record. -/
inductive Opening (task : Task Val) : List (Frame Val) → Prop where
  | abandoning (workerId : String) :
      Opening task [.abandonAttempts task, .recordAttempt task workerId, .announce task workerId,
        .checkBudget task]
  | recording (workerId : String) :
      Opening task [.recordAttempt task workerId, .announce task workerId, .checkBudget task]

/-! ## Statements outside transactions -/

section Statements

/-- Unique identifiers, and these records of attempts. -/
structure Db.KeyedWith (attempts : Collection TaskExecution) (db : Db Val) : Prop where
  keyed : db.Keyed
  attempts : db.attempts = attempts

variable {attempts : Collection TaskExecution}

instance : Session.KeepsKeys (@Db.KeyedWith Val attempts) (Task Val) where
  nodup with_ := with_.keyed.tasks
  set with_ nodup := ⟨{ with_.keyed with tasks := nodup }, with_.attempts⟩

instance : Session.KeepsKeys (@Db.KeyedWith Val attempts) OutboxEvent where
  nodup with_ := with_.keyed.outbox
  set with_ nodup := ⟨{ with_.keyed with outbox := nodup }, with_.attempts⟩

/-- A session that leaves the records of attempts alone. -/
abbrev KeepsAttempts {α : Type} (attempts : Collection TaskExecution) (session : Txn Val α) : Prop :=
  Session.Preserves (Db.KeyedWith attempts) (fun _ => True) session

theorem assertTransition_attempts {machine : Machine} {source target : machine.Status} :
    KeepsAttempts attempts (assertTransition machine source target : Txn Val Unit) :=
  .ite .pure (.throw trivial)

theorem emit_attempts {env : Env} {type : EventType} {executionId : ExecutionId}
    {payload : EventPayload} :
    KeepsAttempts attempts (emit env type executionId payload : Txn Val Unit) :=
  .bind .get fun _ => .create trivial

theorem transitionTask_attempts {taskId : TaskId} {source target : TaskStatus}
    {update : Update (Task Val)} :
    KeepsAttempts attempts (transitionTask taskId source target update) :=
  .bind assertTransition_attempts fun _ => .bind .updateOne fun _ => .pure

theorem claimTask_attempts {taskId : TaskId} {workerId : String} {leaseMs : Int} {now : Time} :
    KeepsAttempts attempts
      (claimTask taskId workerId leaseMs now : Txn Val (Option (Task Val))) :=
  .bind assertTransition_attempts fun _ => .bind assertTransition_attempts fun _ =>
    .bind assertTransition_attempts fun _ => .findOneAndUpdate

theorem renewTaskLease_attempts {taskId : TaskId} {leaseToken : Nat} {leaseMs : Int} {now : Time} :
    KeepsAttempts attempts (renewTaskLease taskId leaseToken leaseMs now : Txn Val Bool) :=
  .bind .updateOne fun _ => .pure

end Statements

/-! ## Transactions -/

section Transactions

variable [Mixed Val] {env : Env} {db next snapshot : Db Val} {reply : Reply Val}
  {patch : Patch Val}

/-- A callback closes the record of the task whose report it applies, and writes no other
record. -/
theorem Writes.attempts (writes : Writes env db reply patch) : patch.newAttempts = [] ∧
    (patch.attempts = [] ∧ (∀ taskId, reply.appliedTo taskId = none) ∨
      ∃ task status error, db.tasks.findById task.id = some task ∧ task.status = .running ∧
        reply.appliedTo task.id = some task.leaseToken ∧ status ≠ .running ∧
        patch.attempts = [Update.only (task.id, task.attempt)
          (closeAttempt status task.startedAt env.now error)]) := by
  cases writes with
  | nothing idle =>
      refine ⟨rfl, .inl ⟨rfl, ?_⟩⟩
      intro taskId
      cases applied : reply.appliedTo taskId with
      | none => rfl
      | some token =>
          rw [Reply.idle, Reply.target_of_about (Reply.appliedTo_about applied)] at idle
          cases idle
  | start | pause | resume | cancel => exact ⟨rfl, .inl ⟨rfl, fun _ => rfl⟩⟩
  | approve | reject => exact ⟨rfl, .inl ⟨rfl, fun _ => rfl⟩⟩
  | @complete task _ _ _ found running =>
      exact ⟨rfl, .inr ⟨task, .succeeded, none, found, running, if_pos rfl, nofun, rfl⟩⟩
  | @retry task _ error _ _ found running =>
      refine ⟨rfl, .inr ⟨task, _, _, found, running, if_pos rfl, ?_, rfl⟩⟩
      unfold attemptStatusOf
      split <;> nofun
  | @fail task _ error _ _ found running =>
      refine ⟨rfl, .inr ⟨task, _, _, found, running, if_pos rfl, ?_, rfl⟩⟩
      unfold attemptStatusOf
      split <;> nofun
  | @suspend task _ _ found running =>
      exact ⟨rfl, .inr ⟨task, .suspended, none, found, running, if_pos rfl, nofun, rfl⟩⟩

/-- A commit opens no record. -/
theorem Db.Commits.running_attempt (commits : Commits snapshot db patch next)
    (writes : Writes env snapshot reply patch) {record : TaskExecution}
    (membership : record ∈ next.attempts.values) (running : record.status = .running) :
    record ∈ db.attempts.values := by
  rcases Collection.mem_values.mp membership with ⟨doc, docMem, rfl⟩
  rw [commits.attempts.eq, writes.attempts.1, List.map_nil, List.append_nil] at docMem
  rcases List.mem_map.mp docMem with ⟨source, sourceMem, rfl⟩
  rcases Collection.onSnapshot_cases snapshot.attempts patch.attempts source with
    same | ⟨_, same⟩
  · rw [same]
    exact Collection.val_mem_values sourceMem
  · rw [same, Script.val_onStored] at running ⊢
    rcases writes.attempts.2 with ⟨none, _⟩ | ⟨task, status, error, _, _, _, closed, only⟩
    · rw [none]
      exact Collection.val_mem_values sourceMem
    · rw [only, Script.onValue_cons, Script.onValue_nil, Update.onValue] at running ⊢
      split at running
      · exact absurd running closed
      · next unmatched =>
        rw [if_neg unmatched]
        exact Collection.val_mem_values sourceMem

/-- A commit that applies a report closes the record of the attempt, if the snapshot
showed it. -/
theorem Db.Commits.closed_attempt (commits : Commits snapshot db patch next) {task : Task Val}
    {status : AttemptStatus} {error : Option AttemptError} {startedAt : Option Time}
    {finishedAt : Time}
    (script : patch.attempts = [Update.only (task.id, task.attempt)
      (closeAttempt status startedAt finishedAt error)])
    (present : (task.id, task.attempt) ∈ snapshot.attempts.ids) {record : TaskExecution}
    (membership : record ∈ next.attempts.values)
    (same : (record.taskId, record.attempt) = (task.id, task.attempt)) :
    record.status = status := by
  rcases List.mem_map.mp present with ⟨doc, docMem, docId⟩
  have matched : (Update.only (task.id, task.attempt)
      (closeAttempt status startedAt finishedAt error)).filter doc.val = true := by
    simp only [Update.only, closeAttempt, Bool.and_true, decide_eq_true_eq]
    exact docId
  have closed : Script.onStored patch.attempts doc ∈ next.attempts := by
    apply commits.attempts.mem_result docMem
    rw [script]
    exact Script.rev_lt_of_filter matched
  have isRecord : (Script.onStored patch.attempts doc).val = record := by
    refine Collection.value_eq_of_id_eq commits.nextKeyed.attempts
      (Collection.val_mem_values closed) membership ?_
    rw [Script.val_onStored, Script.id_onValue]
    exact docId.trans same.symm
  rw [← isRecord, Script.val_onStored, script, Script.onValue_cons, Script.onValue_nil,
    Update.onValue, if_pos matched]
  rfl

end Transactions

/-! ## Steps of a frame -/

namespace Frame

variable [Mixed Val] {env : Env} {db : Db Val} {frame : Frame Val} {outcome : Outcome Val}

/-- A step opens no record but the one of its own claim. -/
theorem running_attempt (inv : db.Inv) (ok : frame.Ok db) (ran : frame.step env db = .ok outcome)
    {record : TaskExecution} (membership : record ∈ outcome.db.attempts.values)
    (running : record.status = .running) :
    record ∈ db.attempts.values ∨ ∃ task workerId, frame = .recordAttempt task workerId ∧
      record = newAttempt task workerId env.now := by
  have keyed : Db.KeyedWith db.attempts db := ⟨inv.keyed, rfl⟩
  have kept : ∀ {later : Db Val}, Db.KeyedWith db.attempts later → outcome.db = later →
      record ∈ db.attempts.values := by
    intro later unchanged isLater
    rw [isLater, unchanged.attempts] at membership
    exact membership
  cases frame with
  | callback op snapshot =>
      rcases Session.ok_of_bind ran with ⟨⟨reply, view⟩, returned, rest⟩
      simp only at rest
      cases committed : db.commit snapshot view with
      | none =>
          rw [committed] at rest
          cases rest
          exact .inl membership
      | some next =>
          rw [committed] at rest
          cases rest
          rcases Op.run_ok ok.1.keyed returned with ⟨patch, writes, rfl⟩
          have viewKeyed := (Op.run_keyed op).final ok.1.keyed returned
          have commits := Db.commits_of_commit ok.1 inv ok.2 viewKeyed committed
          exact .inl (commits.running_attempt writes membership running)
  | renewLease taskId leaseToken =>
      rcases Session.ok_of_bind ran with ⟨_, returned, rest⟩
      cases rest
      exact .inl (kept (renewTaskLease_attempts.final keyed returned) rfl)
  | dispatchTask taskId =>
      rcases Session.ok_of_bind ran with ⟨_, returned, rest⟩
      cases rest
      exact .inl (kept (transitionTask_attempts.final keyed returned) rfl)
  | startTask taskId workerId =>
      rcases Session.ok_of_bind ran with ⟨⟨claimed, _⟩, returned, rest⟩
      cases claimed <;> cases rest <;>
        exact .inl (kept (claimTask_attempts.final keyed returned) rfl)
  | announce task workerId =>
      rcases Session.ok_of_bind ran with ⟨_, returned, rest⟩
      cases rest
      exact .inl (kept (emit_attempts.final keyed returned) rfl)
  | abandonAttempts task =>
      rcases Session.ok_of_bind ran with ⟨_, returned, rest⟩
      cases rest
      rw [Session.run_updateMany, set_attempts] at returned
      cases returned
      rw [Db.patch, Collection.values_rewrite, List.append_nil] at membership
      rcases List.mem_map.mp membership with ⟨source, sourceMem, rfl⟩
      rw [Script.onValue_cons, Script.onValue_nil, Update.onValue] at running ⊢
      split at running
      · cases running
      · next unmatched =>
        rw [if_neg unmatched]
        exact .inl sourceMem
  | recordAttempt task workerId =>
      rcases Session.ok_of_bind ran with ⟨⟨_, final⟩, returned, rest⟩
      cases rest
      rcases Session.create_eq_ok.mp returned with ⟨_, rfl⟩
      rw [set_newAttempt, Db.patch, Collection.values_rewrite] at membership
      rcases List.mem_append.mp membership with old | new
      · rcases List.mem_map.mp old with ⟨source, sourceMem, rfl⟩
        exact .inl sourceMem
      · exact .inr ⟨task, workerId, rfl, List.mem_singleton.mp new⟩
  | dispatchReady | checkBudget =>
      simp only [step] at ran
      split at ran <;> cases ran <;> exact .inl membership
  | redispatch stuck =>
      cases stuck with
      | nil =>
          cases ran
          exact .inl membership
      | cons first rest =>
          simp only [step] at ran
          split at ran
          · cases ran
            exact .inl membership
          · split at ran <;> cases ran <;> exact .inl membership
  | transaction | findReady | gatherInput | gatherParents | reconcile | sweepReady | sweepQueued
  | sweepRunning | sweepRetrying | sweepApprovals | expire | enqueue | enqueueDelayed | refuse =>
      cases ran
      exact .inl membership

/-- The ABANDONED update leaves no earlier record RUNNING. -/
theorem abandoned_attempt {task : Task Val}
    (ran : (Frame.abandonAttempts task).step env db = .ok outcome) {record : TaskExecution}
    (membership : record ∈ outcome.db.attempts.values) (running : record.status = .running)
    (same : record.taskId = task.id) : ¬ record.attempt < task.attempt := by
  rcases Session.ok_of_bind ran with ⟨_, returned, rest⟩
  cases rest
  rw [Session.run_updateMany, set_attempts] at returned
  cases returned
  rw [Db.patch, Collection.values_rewrite, List.append_nil] at membership
  rcases List.mem_map.mp membership with ⟨source, sourceMem, rfl⟩
  rw [Script.onValue_cons, Script.onValue_nil, Update.onValue] at running same ⊢
  split at running
  · cases running
  · next unmatched =>
    rw [if_neg unmatched] at same ⊢
    intro earlier
    apply unmatched
    simp only [abandonment, Bool.and_eq_true, decide_eq_true_eq]
    exact ⟨⟨same, earlier⟩, running⟩

/-- The claim is followed by the ABANDONED update. -/
theorem abandons_of_claimed {task : Task Val} (ran : frame.step env db = .ok outcome)
    (claimed : .claimTask task ∈ outcome.replies) : .abandonAttempts task ∈ outcome.next := by
  have gives := frame.gives ran claimed
  cases gives with
  | @callback op _ _ answers => cases op <;> cases answers
  | claimed taskId workerId =>
      rcases Session.ok_of_bind ran with ⟨⟨found, _⟩, _, rest⟩
      cases found with
      | none =>
          cases rest
          cases List.mem_singleton.mp claimed
      | some task =>
          cases rest
          cases List.mem_singleton.mp claimed
          exact List.mem_cons_self

end Frame

/-! ## Records that exist -/

/-- The snapshot shows the record of the attempt that the call reports on. -/
def Op.Recorded (db : Db Val) (op : Op Val) : Prop :=
  ∀ report, op.report? = some report → report ∈ db.attempts.ids

/-- The record that the frame relies on exists. -/
def Frame.Recorded (db : Db Val) : Frame Val → Prop
  | .transaction op => op.Recorded db
  | .callback op snapshot => op.Recorded snapshot
  | .announce task _ => (task.id, task.attempt) ∈ db.attempts.ids
  | .checkBudget task => (task.id, task.attempt) ∈ db.attempts.ids
  | .gatherInput task => (task.id, task.attempt) ∈ db.attempts.ids
  | .gatherParents task _ => (task.id, task.attempt) ∈ db.attempts.ids
  | .startTask _ _ | .abandonAttempts _ | .recordAttempt _ _ => False
  | _ => True

/-- The stack of a call: before its claim, between its claim and its insert, or past both. -/
inductive Stack (db : Db Val) : List (Frame Val) → Prop where
  | claiming (taskId : TaskId) (workerId : String) : Stack db [.startTask taskId workerId]
  | opening {task : Task Val} {frames : List (Frame Val)} :
      Opening task frames → Stack db frames
  | recorded {frames : List (Frame Val)} : (∀ frame ∈ frames, frame.Recorded db) → Stack db frames

theorem Op.Answers.report {op : Op Val} {reply : Reply Val} (answers : op.Answers reply)
    {taskId : TaskId} {token : Nat} (applied : reply.appliedTo taskId = some token) :
    op.report? = some (taskId, token) := by
  unfold Reply.appliedTo at applied
  split at applied
  case h_4 => cases applied
  all_goals
    split at applied
    · next same =>
      cases applied
      subst same
      cases op <;> first | cases answers; done | skip
      rcases answers with ⟨rfl, rfl, _⟩
      rfl
    · cases applied

section Stacks

variable {db newer : Db Val}

theorem Op.Recorded.later {op : Op Val} (recorded : op.Recorded db)
    (grows : Collection.Extends db.attempts newer.attempts) : op.Recorded newer :=
  fun report isReport => grows.ids_subset _ (recorded report isReport)

theorem Frame.Recorded.later {frame : Frame Val} (recorded : frame.Recorded db)
    (grows : Collection.Extends db.attempts newer.attempts) : frame.Recorded newer := by
  cases frame with
  | transaction => exact Op.Recorded.later recorded grows
  | announce | checkBudget | gatherInput | gatherParents => exact grows.ids_subset _ recorded
  | _ => exact recorded

theorem Stack.later {frames : List (Frame Val)} (stack : Stack db frames)
    (grows : Collection.Extends db.attempts newer.attempts) : Stack newer frames := by
  cases stack with
  | claiming => exact .claiming _ _
  | opening opened => exact .opening opened
  | recorded recorded =>
      exact .recorded fun frame membership => (recorded frame membership).later grows

theorem Op.Recorded.of_unreported {op : Op Val} (unreported : op.report? = none) :
    op.Recorded db := by
  intro report isReport
  rw [unreported] at isReport
  cases isReport

theorem Frame.recorded_after {reply : Reply Val} :
    ∀ frame ∈ reply.after, frame.Recorded db := by
  intro frame membership
  unfold Reply.after at membership
  split at membership
  case h_5 =>
    split at membership
    · cases List.mem_singleton.mp membership
      trivial
    · cases membership
  case h_6 => cases membership
  all_goals
    cases List.mem_singleton.mp membership
    trivial

/-- What a recorded frame does next is recorded. -/
theorem Frame.Recorded.next [Mixed Val] {env : Env} {frame : Frame Val} {outcome : Outcome Val}
    (recorded : frame.Recorded db) (ok : frame.Ok db)
    (grows : Collection.Extends db.attempts outcome.db.attempts)
    (ran : frame.step env db = .ok outcome) :
    ∀ later ∈ outcome.next, later.Recorded outcome.db := by
  intro later membership
  cases frame with
  | transaction op =>
      cases ran
      cases List.mem_singleton.mp membership
      exact recorded
  | callback op snapshot =>
      rcases Session.ok_of_bind ran with ⟨⟨reply, view⟩, _, rest⟩
      simp only at rest
      split at rest
      · cases rest
        exact recorded_after later membership
      · cases rest
        cases List.mem_singleton.mp membership
        exact Op.Recorded.later recorded ok.2.attempts
  | startTask | abandonAttempts | recordAttempt => exact absurd recorded id
  | renewLease | announce =>
      rcases Session.ok_of_bind ran with ⟨_, _, rest⟩
      cases rest
      cases membership
  | dispatchTask =>
      rcases Session.ok_of_bind ran with ⟨⟨won, _⟩, _, rest⟩
      cases rest
      cases won
      · cases membership
      · cases List.mem_singleton.mp membership
        trivial
  | dispatchReady =>
      simp only [step] at ran
      split at ran
      · next execution _ =>
        cases ran
        by_cases running : execution.status = .running
        · rw [if_pos running] at membership
          cases List.mem_singleton.mp membership
          trivial
        · rw [if_neg running] at membership
          cases membership
      · cases ran
        cases membership
  | checkBudget task =>
      simp only [step] at ran
      split at ran
      · cases ran
        simp only [List.mem_cons, List.not_mem_nil, or_false] at membership
        rcases membership with rfl | rfl
        · intro report isReport
          cases isReport
          rw [← ok.attempt]
          exact recorded
        · trivial
      · cases ran
        cases List.mem_singleton.mp membership
        exact recorded
  | gatherInput task =>
      cases ran
      cases List.mem_singleton.mp membership
      exact recorded
  | redispatch stuck =>
      cases stuck with
      | nil =>
          cases ran
          cases membership
      | cons first rest =>
          simp only [step] at ran
          split at ran
          · cases ran
            cases List.mem_singleton.mp membership
            trivial
          · split at ran
            · cases ran
              simp only [List.mem_cons, List.not_mem_nil, or_false] at membership
              rcases membership with rfl | rfl <;> trivial
            · cases ran
              cases List.mem_singleton.mp membership
              trivial
  | reconcile =>
      cases ran
      simp only [List.mem_cons, List.not_mem_nil, or_false] at membership
      rcases membership with rfl | rfl | rfl | rfl | rfl <;> trivial
  | sweepReady =>
      cases ran
      cases List.mem_singleton.mp membership
      trivial
  | expire =>
      cases ran
      cases List.mem_singleton.mp membership
      exact .of_unreported rfl
  | findReady | sweepQueued | sweepRunning | sweepRetrying | sweepApprovals =>
      cases ran
      rcases List.mem_map.mp membership with ⟨_, _, rfl⟩
      trivial
  | enqueue | enqueueDelayed | refuse | gatherParents =>
      cases ran
      cases membership

/-- The insert makes the rest of the call recorded. -/
theorem Frame.recorded_of_insert [Mixed Val] {env : Env} {task : Task Val} {workerId : String}
    {outcome : Outcome Val} (ran : (Frame.recordAttempt task workerId).step env db = .ok outcome) :
    outcome.next = [] ∧ (task.id, task.attempt) ∈ outcome.db.attempts.ids := by
  rcases Session.ok_of_bind ran with ⟨⟨_, final⟩, returned, rest⟩
  cases rest
  rcases Session.create_eq_ok.mp returned with ⟨_, rfl⟩
  refine ⟨rfl, ?_⟩
  rw [set_newAttempt, Db.patch, Collection.ids_rewrite]
  exact List.mem_append_right _ List.mem_cons_self

/-- The stack of a call after a step of its top frame. -/
theorem Stack.next [Mixed Val] {env : Env} {frame : Frame Val} {rest : List (Frame Val)}
    {outcome : Outcome Val} (stack : Stack db (frame :: rest)) (ok : frame.Ok db)
    (grows : Collection.Extends db.attempts outcome.db.attempts)
    (ran : frame.step env db = .ok outcome) : Stack outcome.db (outcome.next ++ rest) := by
  cases stack with
  | claiming taskId workerId =>
      rcases Session.ok_of_bind ran with ⟨⟨claimed, _⟩, _, returned⟩
      cases claimed with
      | none =>
          cases returned
          exact .recorded fun _ membership => absurd membership List.not_mem_nil
      | some task =>
          cases returned
          exact .opening (.abandoning workerId)
  | opening opened =>
      cases opened with
      | abandoning workerId =>
          rcases Session.ok_of_bind ran with ⟨_, _, returned⟩
          cases returned
          exact .opening (.recording workerId)
      | recording workerId =>
          rcases Frame.recorded_of_insert ran with ⟨none, present⟩
          rw [none]
          refine .recorded ?_
          intro later membership
          simp only [List.nil_append, List.mem_cons, List.not_mem_nil, or_false] at membership
          rcases membership with rfl | rfl <;> exact present
  | recorded recorded =>
      refine .recorded ?_
      intro later membership
      rcases List.mem_append.mp membership with isNext | isRest
      · exact (recorded frame List.mem_cons_self).next ok grows ran later isNext
      · exact (recorded later (List.mem_cons_of_mem _ isRest)).later grows

/-- The stack of a call after a throw. -/
theorem Stack.unwound {frame : Frame Val} {rest : List (Frame Val)}
    (stack : Stack db (frame :: rest)) : Stack db (Sys.unwind rest) := by
  cases stack with
  | claiming => exact .recorded fun _ membership => absurd membership List.not_mem_nil
  | opening opened =>
      cases opened <;> exact .recorded fun _ membership => absurd membership List.not_mem_nil
  | recorded recorded =>
      refine .recorded ?_
      intro later membership
      exact recorded later
        (List.mem_cons_of_mem _ ((List.dropWhile_sublist _).mem membership))

/-- Only the top frame of a call abandons attempts, and the insert follows. -/
theorem Stack.abandons {frames : List (Frame Val)} (stack : Stack db frames) {task : Task Val}
    (membership : .abandonAttempts task ∈ frames) :
    ∃ workerId, frames = [.abandonAttempts task, .recordAttempt task workerId,
      .announce task workerId, .checkBudget task] := by
  cases stack with
  | claiming => cases List.mem_singleton.mp membership
  | opening opened =>
      cases opened with
      | abandoning workerId =>
          simp only [List.mem_cons, List.not_mem_nil, or_false] at membership
          rcases membership with same | same | same | same <;> cases same
          exact ⟨workerId, rfl⟩
      | recording =>
          simp only [List.mem_cons, List.not_mem_nil, or_false] at membership
          rcases membership with same | same | same <;> cases same
  | recorded recorded => exact absurd (recorded _ membership) id

end Stacks

end WorkflowEngine
