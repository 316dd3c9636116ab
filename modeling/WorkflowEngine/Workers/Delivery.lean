import WorkflowEngine.Queues.Representation
import WorkflowEngine.Workers.Backoff
import WorkflowEngine.Workflow.Attended

/-!
# Dispatched tasks and the queue

The database says that a task waits for a worker, the queue says which ids a worker can
get.  While no process stops, no loop gives up and Redis answers, the two agree: what is
QUEUED or RETRYING is in the queue, with a worker that has popped it, or with a call that
is about to push it.  The reconciler is then not needed.
-/

namespace WorkflowEngine

open DocStore Queues

/-! ## Ids that wait in the queue -/

namespace Queues

variable {Id : Type} [LinearOrder Id]

/-- A worker gets the id without a further push. -/
def Queue.Waits (queue : Queue Id) (id : Id) : Prop :=
  id ∈ queue.ready ∨ id ∈ queue.delayed

/-- Only `claim` claims. -/
theorem Call.claim_of_event? {call : Call Id} {reply : Reply Id} {id : Id}
    (happened : call.event? id reply = some .claimed) :
    ∃ leaseMs, call = .claim leaseMs ∧ reply = .claimed (some id) := by
  unfold Call.event? at happened
  split at happened
  case h_3 =>
    split at happened
    · next same =>
      subst same
      exact ⟨_, rfl, rfl⟩
    · cases happened
  case h_7 => cases happened
  all_goals split at happened <;> cases happened

namespace Queue.Represents

variable {queue : Queue Id} {place : Id → Place} {id : Id}

theorem waits_iff (represents : queue.Represents place) :
    queue.Waits id ↔ place id = .ready ∨ place id = .delayed := by
  rw [Queue.Waits, represents.ready, represents.delayed]

/-- An id waits until a worker pops it. -/
theorem waits_run (represents : queue.Represents place) (now : Int) (call : Call Id)
    (waits : queue.Waits id) : (call.run queue now).1.Waits id ∨
      ∃ leaseMs, call = .claim leaseMs ∧ (call.run queue now).2 = .claimed (some id) := by
  rcases represents.moves now call with ⟨after, finds⟩
  rw [after.waits_iff]
  rw [represents.waits_iff] at waits
  cases happened : call.event? id (call.run queue now).2 with
  | none => exact .inl waits
  | some event =>
      have found := finds id event happened
      cases event with
      | promoted | requeued | enqueued => exact .inl (.inl rfl)
      | delayed => exact .inl (.inr rfl)
      | acked =>
          have leased : place id = .leased := of_decide_eq_true found
          rw [leased] at waits
          cases waits with
          | inl absurdity => cases absurdity
          | inr absurdity => cases absurdity
      | claimed => exact .inr (Call.claim_of_event? happened)

/-- A pushed id waits, unless it is leased. -/
theorem waits_enqueue (represents : queue.Represents place) (now : Int) :
    ((Call.enqueue id).run queue now).1.Waits id ∨ id ∈ queue.leases := by
  simp only [Call.run, Queue.wfEnqueue]
  split
  · next known =>
    have present := (represents.members id).mp known
    cases isPlace : place id with
    | absent => exact absurd isPlace present
    | ready => exact .inl (.inl ((represents.ready id).mpr isPlace))
    | delayed => exact .inl (.inr ((represents.delayed id).mpr isPlace))
    | leased => exact .inr ((represents.leases id).mpr isPlace)
  · exact .inl (.inl (List.mem_append_right _ (List.mem_singleton_self id)))

/-- A postponed id waits. -/
theorem waits_enqueueDelayed (represents : queue.Represents place) (now delayMs : Int) :
    ((Call.enqueueDelayed id delayMs).run queue now).1.Waits id := by
  simp only [Call.run, Queue.wfEnqueueDelayed]
  split
  · exact .inr (SortedSet.mem_add.mpr (.inl rfl))
  · next known =>
    rw [not_or, not_not] at known
    have present := (represents.members id).mp known.2
    cases isPlace : place id with
    | absent => exact absurd isPlace present
    | ready => exact .inl ((represents.ready id).mpr isPlace)
    | delayed => exact .inr ((represents.delayed id).mpr isPlace)
    | leased => exact absurd ((represents.leases id).mpr isPlace) known.1

end Queue.Represents

namespace Call

variable {queue : Queue Id} {now : Int} {call : Call Id} {id : Id}

/-- What the call pushes. -/
def pushes : Call Id → Option Id
  | .enqueue taskId => some taskId
  | .enqueueDelayed taskId _ => some taskId
  | _ => none

theorem mem_members_run (membership : id ∈ (call.run queue now).1.members) :
    id ∈ queue.members ∨ call.pushes = some id := by
  cases call with
  | enqueue taskId =>
      simp only [run, Queue.wfEnqueue] at membership
      split at membership
      · exact .inl membership
      · rcases Finset.mem_insert.mp membership with rfl | old
        · exact .inr rfl
        · exact .inl old
  | enqueueDelayed taskId delayMs =>
      simp only [run, Queue.wfEnqueueDelayed] at membership
      have inserted : id ∈ insert taskId queue.members := by
        split at membership <;> exact membership
      rcases Finset.mem_insert.mp inserted with rfl | old
      · exact .inr rfl
      · exact .inl old
  | claim leaseMs =>
      simp only [run, Queue.wfClaim] at membership
      split at membership <;> exact .inl membership
  | extendLease taskId leaseMs =>
      simp only [run, Queue.wfExtendLease] at membership
      split at membership <;> exact .inl membership
  | ack taskId =>
      simp only [run, Queue.wfAck] at membership
      split at membership
      · exact .inl (Finset.mem_of_mem_erase membership)
      · exact .inl membership
  | requeueExpired limit => exact .inl membership
  | promoteDue limit => exact .inl membership

end Call

/-- An id is leased to the worker that pops it. -/
theorem Queue.Represents.leased_run {queue : Queue Id} {place : Id → Place} {id : Id}
    (represents : queue.Represents place) (now : Int) (call : Call Id)
    (leased : id ∈ (call.run queue now).1.leases) : id ∈ queue.leases ∨
      ∃ leaseMs, call = .claim leaseMs ∧ (call.run queue now).2 = .claimed (some id) := by
  rcases represents.moves now call with ⟨after, _⟩
  rw [after.leases] at leased
  cases happened : call.event? id (call.run queue now).2 with
  | none =>
      rw [happened] at leased
      exact .inl ((represents.leases id).mpr leased)
  | some event =>
      rw [happened] at leased
      cases event with
      | claimed => exact .inr (Call.claim_of_event? happened)
      | _ => cases leased

end Queues

variable {Val : Type}

/-! ## Calls on top of their stacks -/

/-- The frame is the next step of a call. -/
def Sys.Top (sys : Sys Val) (frame : Frame Val) : Prop :=
  ∃ rest, frame :: rest ∈ sys.calls

/-- The id that the frame pushes. -/
def Frame.offers? : Frame Val → Option TaskId
  | .enqueue taskId => some taskId
  | .enqueueDelayed taskId _ => some taskId
  | _ => none

/-- The task has been handed to the queue, or is about to be. -/
def Db.Dispatched (db : Db Val) (taskId : TaskId) : Prop :=
  ∃ task ∈ db.tasks.values, task.id = taskId ∧ 2 ≤ task.status.stage

/-- What the frame pushes has been dispatched. -/
def Db.Names (db : Db Val) (frame : Frame Val) : Prop :=
  ∀ taskId, frame.offers? = some taskId → db.Dispatched taskId

namespace Cluster

/-- A worker has popped the id and will start the task. -/
def Fetches (cluster : Cluster Val) (taskId : TaskId) : Prop :=
  (∃ loop ∈ cluster.loops, loop.claimed? = some taskId) ∨
    ∃ workerId, cluster.sys.Top (.startTask taskId workerId)

end Cluster

/-- The call that has moved the task here hands it to the queue by this step. -/
inductive Task.OfferedBy (task : Task Val) : Frame Val → Prop where
  | queued : task.status = .queued → OfferedBy task (.enqueue task.id)
  | retrying (delayMs : Nat) :
      task.status = .retrying → OfferedBy task (.enqueueDelayed task.id delayMs)

namespace Cluster

/-- The task waits in the queue, a worker has popped its id, or it is about to be pushed. -/
def Keeps (cluster : Cluster Val) (task : Task Val) : Prop :=
  cluster.queue.Waits task.id ∨ cluster.Fetches task.id ∨
    ∃ frame, cluster.sys.Top frame ∧ task.OfferedBy frame

/-- No process stops, no loop gives up, and Redis answers. -/
def faultless (_ : Cluster Val) : Action Val → Bool
  | .crash _ => false
  | .move _ .giveUp => false
  | .advance _ env => env.redisUp
  | _ => true

end Cluster

variable [Mixed Val]

/-- What holds while nothing fails.  The tasks in `owed` need not be kept. -/
structure Cluster.Delivers (owed : Task Val → Prop) (cluster : Cluster Val) : Prop where
  inv : cluster.sys.Inv
  represents : ∃ place, cluster.queue.Represents place
  members : ∀ taskId ∈ cluster.queue.members, cluster.sys.db.Dispatched taskId
  offers : ∀ stack ∈ cluster.sys.calls, ∀ frame ∈ stack, cluster.sys.db.Names frame
  kept : ∀ task ∈ cluster.sys.db.tasks.values,
    task.status = .queued ∨ task.status = .retrying → cluster.Keeps task ∨ owed task
  /-- who has a QUEUED task leased has not started it yet -/
  leased : ∀ task ∈ cluster.sys.db.tasks.values, task.status = .queued →
    task.id ∈ cluster.queue.leases → cluster.Fetches task.id

/-! ### Tasks that a step is about -/

namespace Task.Moves

variable {label : Option (Reply Val)} {task later : Task Val}

/-- A step about a task finds it dispatched, or dispatches it. -/
theorem dispatched_of_about (moves : Task.Moves label task later)
    (about : label.bind Reply.about = some task.id) : 2 ≤ later.status.stage := by
  cases moves with
  | rest other => exact absurd about other
  | promoted other => exact absurd about other
  | cancelled other => exact absurd about other
  | aborted => cases about
  | dispatched | claimed | retried | suspended | approved | rejected | completed =>
      simp [moved, claim, TaskStatus.stage]
  | renewed running => simp [renewal, running, TaskStatus.stage]
  | @failed _ error =>
      cases outcome : failureOutcome task (isRetryable error) <;>
        simp [moved, FailureOutcome.status, TaskStatus.stage]

/-- How a task gets QUEUED or RETRYING. -/
theorem of_waiting (moves : Task.Moves label task later)
    (waiting : later.status = .queued ∨ later.status = .retrying) :
    (later.status = task.status ∧ label.bind Reply.about ≠ some task.id) ∨
      (later.status = .queued ∧ task.status = .ready ∧
        label = some (.dispatchTask task.id true)) ∨
      (later.status = .retrying ∧ ∃ error delayMs,
        label = some (.failTask task.id task.leaseToken error (some (.retrying delayMs)))) := by
  cases moves with
  | rest other => exact .inl ⟨rfl, other⟩
  | dispatched ready => exact .inr (.inl ⟨rfl, ready, rfl⟩)
  | retried => exact .inr (.inr ⟨rfl, _, _, rfl⟩)
  | renewed running => simp [renewal, running] at waiting
  | @failed _ error =>
      cases outcome : failureOutcome task (isRetryable error) <;>
        simp [moved, outcome, FailureOutcome.status] at waiting
  | promoted | cancelled | aborted | claimed | completed | suspended | approved | rejected =>
      simp [moved, claim] at waiting

end Task.Moves

namespace Sys

variable {sys next : Sys Val} {action : Action Val} {label : Option (Reply Val)}

/-- The task that a step is about is moved by it. -/
theorem Stepped.moves_about (stepped : sys.Stepped action next label) {taskId : TaskId}
    (about : label.bind Reply.about = some taskId) :
    ∃ task ∈ sys.db.tasks.values, task.id = taskId ∧
      ∃ later ∈ next.db.tasks.values, later.id = taskId ∧ Task.Moves label task later := by
  have named : label.bind Reply.target = some taskId.executionId := by
    cases label with
    | none => cases about
    | some reply => exact Reply.target_of_about about
  have found : ∃ task ∈ sys.db.tasks.values, task.id = taskId := by
    rcases Collection.mem_ids.mp (stepped.advances.target _ named) with ⟨execution, member, isRun⟩
    have advanced := stepped.advances.runs execution member
    have home : (next.db.runOf execution).execution.id = taskId.executionId := isRun
    generalize next.db.runOf execution = run at advanced home
    cases advanced with
    | same _ unnamed => exact absurd (named.trans (congrArg some home.symm)) unnamed
    | start isStart =>
        rw [isStart] at about
        cases about
    | step earlier taken =>
        rcases taken.about about with ⟨task, taskMem, isTask⟩
        exact ⟨task, (Db.mem_runOf_tasks.mp taskMem).1, isTask⟩
  rcases found with ⟨task, membership, isTask⟩
  rcases stepped.moves membership with ⟨later, laterMem, sameId, ⟨_, unnamed⟩ | ⟨moves, _⟩⟩
  · refine absurd ?_ unnamed
    rw [named, ← isTask]
    rfl
  · exact ⟨task, membership, isTask, later, laterMem, sameId.trans isTask, moves⟩

/-- The task that a step is about has been dispatched. -/
theorem Stepped.dispatched_of_about (stepped : sys.Stepped action next label) {taskId : TaskId}
    (about : label.bind Reply.about = some taskId) : next.db.Dispatched taskId := by
  rcases stepped.moves_about about with ⟨task, _, isTask, later, laterMem, isLater, moves⟩
  exact ⟨later, laterMem, isLater,
    moves.dispatched_of_about (about.trans (congrArg some isTask.symm))⟩

/-- Dispatched tasks stay dispatched. -/
theorem Stepped.dispatched_on (stepped : sys.Stepped action next label) {taskId : TaskId}
    (dispatched : sys.db.Dispatched taskId) : next.db.Dispatched taskId := by
  rcases dispatched with ⟨task, membership, isTask, stage⟩
  rcases stepped.moves membership with ⟨later, laterMem, sameId, ⟨rfl, _⟩ | ⟨moves, _⟩⟩
  · exact ⟨later, laterMem, isTask, stage⟩
  · exact ⟨later, laterMem, sameId.trans isTask, Nat.le_trans stage moves.evolves.stage⟩

/-- The next step of a call stays the next one until it is performed. -/
theorem Took.top (took : sys.Took action next) (steady : sys.steady action = true)
    {frame : Frame Val} (top : sys.Top frame) :
    next.Top frame ∨ sys.frame? action = some frame := by
  rcases top with ⟨below, isStack⟩
  cases took with
  | crash => cases steady
  | invoke => exact .inl ⟨below, List.mem_append_left _ isStack⟩
  | ran found =>
      cases mem_set_of_mem found isStack with
      | inl other => exact .inl ⟨below, other⟩
      | inr same =>
          cases same
          exact .inr (frame?_eq found)
  | threw found =>
      cases mem_set_of_mem found isStack with
      | inl other => exact .inl ⟨below, other⟩
      | inr same =>
          cases same
          exact .inr (frame?_eq found)

/-- What a step that does not throw makes of the system. -/
theorem Stepped.of_ran {call : Nat} {env : Env} {frame : Frame Val} {rest : List (Frame Val)}
    {outcome : Outcome Val} (stepped : sys.Stepped (.advance call env) next label)
    (found : sys.calls[call]? = some (frame :: rest))
    (ran : frame.step env sys.db = .ok outcome) :
    outcome.replies = label.toList ∧ next.db = outcome.db ∧
      next.calls = sys.calls.set call (outcome.next ++ rest) := by
  have log := stepped.log
  have took := stepped.took
  cases took with
  | ran isTop ran' =>
      cases found.symm.trans isTop
      cases ran.symm.trans ran'
      exact ⟨List.append_cancel_right log, rfl, rfl⟩
  | threw isTop threw =>
      cases found.symm.trans isTop
      cases ran.symm.trans threw

/-- A reply other than a throw is given by a step, which makes the first of its next
frames the top of the call. -/
theorem Stepped.of_reply {reply : Reply Val} (stepped : sys.Stepped action next (some reply))
    (answered : ∀ thrown, reply ≠ .threw thrown) :
    ∃ call env frame outcome, action = .advance call env ∧ frame.step env sys.db = .ok outcome ∧
      outcome.replies = [reply] ∧ sys.frame? action = some frame ∧
      ∀ top, outcome.next = [top] → next.Top top := by
  have log := stepped.log
  have took := stepped.took
  cases took with
  | invoke | crash => exact absurd log.symm (List.cons_ne_self _ _)
  | threw => exact absurd (Option.some.inj (label_eq_some log)) (answered _)
  | @ran call env frame rest outcome found ran =>
      refine ⟨call, env, frame, outcome, rfl, ran, List.append_cancel_right log, frame?_eq found, ?_⟩
      intro top isNext
      refine ⟨rest, ?_⟩
      rw [isNext]
      exact List.mem_set (List.getElem?_eq_some_iff.mp found).1 _

/-- A dispatched task is pushed next. -/
theorem Stepped.top_dispatched {taskId : TaskId}
    (stepped : sys.Stepped action next (some (.dispatchTask taskId true))) :
    next.Top (.enqueue taskId) := by
  rcases stepped.of_reply (fun thrown absurdity => by cases absurdity) with
    ⟨call, env, frame, outcome, _, ran, replies, _, top⟩
  apply top
  have membership : .dispatchTask taskId true ∈ outcome.replies := by
    rw [replies]
    exact List.mem_singleton_self _
  have gives := frame.gives ran membership
  cases gives with
  | @callback op _ _ answers => cases op <;> cases answers
  | dispatchTask =>
      rcases Session.ok_of_bind ran with ⟨⟨won, _⟩, _, rest⟩
      cases rest
      cases replies
      rfl

/-- A postponed task is pushed next. -/
theorem Stepped.top_retrying {taskId : TaskId} {leaseToken : Nat} {error : Option Thrown}
    {delayMs : Nat} (stepped : sys.Stepped action next
      (some (.failTask taskId leaseToken error (some (.retrying delayMs))))) :
    next.Top (.enqueueDelayed taskId delayMs) := by
  rcases stepped.of_reply (fun thrown absurdity => by cases absurdity) with
    ⟨call, env, frame, outcome, _, ran, replies, _, top⟩
  exact top _ (Frame.next_of_after ran replies (by simp [Reply.after]))

/-- The start of a QUEUED or RETRYING task claims it. -/
theorem Stepped.about_of_starts (stepped : sys.Stepped action next label) {task : Task Val}
    {workerId : String} (membership : task ∈ sys.db.tasks.values)
    (waiting : task.status = .queued ∨ task.status = .retrying)
    (isFrame : sys.frame? action = some (.startTask task.id workerId)) :
    label.bind Reply.about = some task.id := by
  have ran : ∀ env : Env, ∃ db, (Frame.startTask task.id workerId).step env sys.db =
      .ok ⟨db, [.abandonAttempts ((claim workerId env.leaseMs env.now).set task),
        .recordAttempt ((claim workerId env.leaseMs env.now).set task) workerId,
        .announce ((claim workerId env.leaseMs env.now).set task) workerId,
        .checkBudget ((claim workerId env.leaseMs env.now).set task)],
        [.claimTask ((claim workerId env.leaseMs env.now).set task)]⟩ := by
    intro env
    have free : (claim workerId env.leaseMs env.now).filter task = true := by
      rcases waiting with status | status <;> simp [claim, claimable, status]
    have claimed : (claimTask task.id workerId env.leaseMs env.now).run sys.db = _ :=
      Session.findOneAndUpdate_of_found stepped.inv.db.keyed.tasks
        (stepped.inv.db.findById_task membership) free
    rw [Frame.step, claimed]
    exact ⟨_, rfl⟩
  cases action with
  | invoke | crash => cases isFrame
  | advance call env =>
      rcases frame?_top isFrame with ⟨_, _⟩
      rcases Option.bind_eq_some_iff.mp isFrame with ⟨stack, found, isTop⟩
      cases stack with
      | nil => cases isTop
      | cons frame rest =>
          cases isTop
          rcases ran env with ⟨db, ran⟩
          have replies := (stepped.of_ran found ran).1
          cases label with
          | none => cases replies
          | some reply =>
              cases replies
              rfl

/-- How a task gets QUEUED or RETRYING: it was so before, or its push is next. -/
theorem Stepped.waiting_cases (stepped : sys.Stepped action next label) {task : Task Val}
    (membership : task ∈ next.db.tasks.values)
    (waiting : task.status = .queued ∨ task.status = .retrying) :
    ∃ source ∈ sys.db.tasks.values, source.id = task.id ∧
      (source.status = task.status ∧ label.bind Reply.about ≠ some task.id ∨
        (task.status = .queued → source.status = .ready) ∧
          ∃ frame, next.Top frame ∧ task.OfferedBy frame) := by
  rcases stepped.origin membership with ⟨source, sourceMem, isTask, _⟩ | ⟨env, params, new⟩
  · refine ⟨source, sourceMem, isTask, ?_⟩
    rcases stepped.moves sourceMem with ⟨other, otherMem, otherId, how⟩
    cases stepped.later.db.task_eq_of_id otherMem membership (otherId.trans isTask)
    cases how with
    | inl same =>
        rcases same with ⟨rfl, unnamed⟩
        refine .inl ⟨rfl, ?_⟩
        intro about
        apply unnamed
        cases label with
        | none => cases about
        | some reply => exact Reply.target_of_about about
    | inr moved =>
        rcases moved.1.of_waiting waiting with
          ⟨same, other⟩ | ⟨queued, ready, rfl⟩ | ⟨retrying, error, delayMs, rfl⟩
        · exact .inl ⟨same.symm, isTask ▸ other⟩
        · refine .inr ⟨fun _ => ready, _, stepped.top_dispatched, ?_⟩
          rw [isTask]
          exact .queued queued
        · refine .inr ⟨fun queued => ?_, _, stepped.top_retrying, ?_⟩
          · rw [retrying] at queued
            cases queued
          · rw [isTask]
            exact .retrying delayMs retrying
  · rcases List.mem_map.mp new with ⟨definition, _, rfl⟩
    simp only [newTask] at waiting
    split at waiting <;> simp at waiting

/-- Every frame that pushes an id is about a dispatched task. -/
theorem Stepped.offers (stepped : sys.Stepped action next label)
    (offers : ∀ stack ∈ sys.calls, ∀ frame ∈ stack, sys.db.Names frame) :
    ∀ stack ∈ next.calls, ∀ frame ∈ stack, next.db.Names frame := by
  refine stepped.took.frames ?_ ?_ ?_
  · intro stack membership frame frameMem taskId offered
    exact stepped.dispatched_on (offers stack membership frame frameMem taskId offered)
  · intro frame _ isCall taskId offered
    have silent : frame.offers? = none := by
      cases frame <;> first | rfl | cases isCall
    cases silent.symm.trans offered
  · intro call env frame rest outcome isAdvance found ran _ later membership taskId offered
    subst isAdvance
    have replies := (stepped.of_ran found ran).1
    -- an id that the step read from a task which waits or runs
    have read : ∀ {limit : Nat} {stuck : Task Val → Bool},
        (∀ task, stuck task = true → 2 ≤ task.status.stage) →
        later ∈ (limited limit (sys.db.tasks.find stuck)).map (fun task => .enqueue task.id) →
        next.db.Dispatched taskId := by
      intro limit stuck isStuck isRead
      rcases List.mem_map.mp isRead with ⟨task, taskMem, rfl⟩
      have inFind : task ∈ sys.db.tasks.find stuck := by
        unfold limited at taskMem
        split at taskMem
        · exact taskMem
        · exact List.mem_of_mem_take taskMem
      rcases List.mem_filter.mp inFind with ⟨inDb, wanted⟩
      cases offered
      exact stepped.dispatched_on ⟨task, inDb, rfl, isStuck task wanted⟩
    cases frame with
    | sweepQueued cutoff limit =>
        cases ran
        apply read _ membership
        intro task stale
        simp only [isStaleQueued, Bool.and_eq_true, decide_eq_true_eq] at stale
        simp [stale.1, TaskStatus.stage]
    | sweepRunning limit =>
        cases ran
        apply read _ membership
        intro task stale
        simp only [isExpiredRunning, Bool.and_eq_true, decide_eq_true_eq] at stale
        simp [stale.1, TaskStatus.stage]
    | sweepRetrying cutoff limit =>
        cases ran
        apply read _ membership
        intro task stale
        simp only [isOverdueRetry, Bool.and_eq_true, decide_eq_true_eq] at stale
        simp [stale.1, TaskStatus.stage]
    | dispatchTask dispatched =>
        rcases Session.ok_of_bind ran with ⟨⟨won, _⟩, _, rest⟩
        cases rest
        cases won with
        | false => cases membership
        | true =>
            cases List.mem_singleton.mp membership
            cases offered
            apply stepped.dispatched_of_about
            cases label with
            | none => cases replies
            | some reply =>
                cases replies
                rfl
    | callback op snapshot =>
        rcases Frame.callback_cases ran with ⟨reply, _, _, isNext, isReply⟩ | rfl
        · rw [isNext] at membership
          have isLabel : label = some reply := by
            rw [isReply] at replies
            cases label with
            | none => cases replies
            | some other =>
                cases replies
                rfl
          apply stepped.dispatched_of_about
          rw [isLabel]
          unfold Reply.after at membership
          split at membership
          case h_5 =>
            split at membership
            · cases List.mem_singleton.mp membership
              cases offered
            · cases membership
          case h_6 => cases membership
          all_goals
            cases List.mem_singleton.mp membership
            cases offered
          rfl
        · cases List.mem_singleton.mp membership
          cases offered
    | _ =>
        have follows := Frame.follows ran membership
        cases follows <;> cases offered

end Sys

namespace Cluster

variable {cluster : Cluster Val} {owed : Task Val → Prop}

/-! ### Steps of the engine -/

section Engine

variable {later : Sys Val} {action : WorkflowEngine.Action Val} {label : Option (Reply Val)}
  {loops : List (Loop Val)}

/-- A popped task is started, unless the step has just done so. -/
theorem Fetches.stepped {task : Task Val} (fetches : cluster.Fetches task.id)
    (stepped : cluster.sys.Stepped action later label) (steady : cluster.sys.steady action = true)
    (loopsKept : ∀ taskId, (∃ loop ∈ cluster.loops, loop.claimed? = some taskId) →
      (∃ loop ∈ loops, loop.claimed? = some taskId) ∨
        ∃ workerId, later.Top (.startTask taskId workerId))
    (membership : task ∈ cluster.sys.db.tasks.values)
    (waiting : task.status = .queued ∨ task.status = .retrying)
    (other : label.bind Reply.about ≠ some task.id) :
    ({ cluster with sys := later, loops } : Cluster Val).Fetches task.id := by
  cases fetches with
  | inl claimed => exact loopsKept task.id claimed
  | inr called =>
      rcases called with ⟨workerId, top⟩
      cases stepped.took.top steady top with
      | inl still => exact .inr ⟨workerId, still⟩
      | inr isFrame => exact absurd (stepped.about_of_starts membership waiting isFrame) other

/-- A step of the engine, before the queue hears of it. -/
theorem Delivers.stepped (loops : List (Loop Val))
    (delivers : cluster.Delivers fun _ => False)
    (stepped : cluster.sys.Stepped action later label) (steady : cluster.sys.steady action = true)
    (loopsKept : ∀ taskId, (∃ loop ∈ cluster.loops, loop.claimed? = some taskId) →
      (∃ loop ∈ loops, loop.claimed? = some taskId) ∨
        ∃ workerId, later.Top (.startTask taskId workerId)) :
    ({ cluster with sys := later, loops } : Cluster Val).Delivers fun task =>
      ∃ frame, cluster.sys.frame? action = some frame ∧ task.OfferedBy frame := by
  constructor
  · exact stepped.later
  · exact delivers.represents
  · intro taskId isMember
    exact stepped.dispatched_on (delivers.members taskId isMember)
  · exact stepped.offers delivers.offers
  · intro task membership waiting
    rcases stepped.waiting_cases membership waiting with
      ⟨source, sourceMem, isTask, ⟨same, other⟩ | ⟨_, frame, top, offered⟩⟩
    · rw [← isTask] at other
      have wasWaiting : source.status = .queued ∨ source.status = .retrying := by
        rw [same]
        exact waiting
      rcases delivers.kept source sourceMem wasWaiting with keeps | absurdity
      · rcases keeps with waits | fetches | ⟨frame, top, offered⟩
        · exact .inl (.inl (isTask ▸ waits))
        · have fetched := fetches.stepped stepped steady loopsKept sourceMem wasWaiting other
          exact .inl (.inr (.inl (isTask ▸ fetched)))
        · have offers : task.OfferedBy frame := by
            cases offered with
            | queued queued =>
                rw [isTask]
                exact .queued (same.symm.trans queued)
            | retrying delayMs retrying =>
                rw [isTask]
                exact .retrying delayMs (same.symm.trans retrying)
          cases stepped.took.top steady top with
          | inl still => exact .inl (.inr (.inr ⟨frame, still, offers⟩))
          | inr isFrame => exact .inr ⟨frame, isFrame, offers⟩
      · exact absurdity.elim
    · exact .inl (.inr (.inr ⟨frame, top, offered⟩))
  · intro task membership queued isLeased
    rcases stepped.waiting_cases membership (.inl queued) with
      ⟨source, sourceMem, isTask, ⟨same, other⟩ | ⟨wasReady, _⟩⟩
    · rw [← isTask] at other isLeased ⊢
      have wasQueued := same.trans queued
      exact (delivers.leased source sourceMem wasQueued isLeased).stepped stepped steady loopsKept
        sourceMem (.inl wasQueued) other
    · -- a READY task has never been in the queue
      rcases delivers.represents with ⟨place, represents⟩
      have isMember : task.id ∈ cluster.queue.members := by
        rw [represents.members, (represents.leases task.id).mp isLeased]
        exact Place.noConfusion
      rcases delivers.members task.id isMember with ⟨twin, twinMem, sameId, stage⟩
      cases stepped.inv.db.task_eq_of_id twinMem sourceMem (sameId.trans isTask.symm)
      rw [wasReady queued] at stage
      exact absurd stage (by decide)

end Engine

/-! ### Calls to the queue -/

/-- The queue answers a call, which pushes the tasks that are owed to it. -/
theorem Delivers.served (delivers : cluster.Delivers owed) (call : Call TaskId)
    (loops : List (Loop Val))
    (loopsKept : ∀ taskId, (∃ loop ∈ cluster.loops, loop.claimed? = some taskId) →
      ∃ loop ∈ loops, loop.claimed? = some taskId)
    (popped : ∀ taskId, (call.run cluster.queue cluster.now).2 = .claimed (some taskId) →
      ∃ loop ∈ loops, loop.claimed? = some taskId)
    (pushed : ∀ taskId, call.pushes = some taskId → cluster.sys.db.Dispatched taskId)
    (pays : ∀ task, owed task → task.status = .queued ∧ call = .enqueue task.id ∨
      ∃ delayMs, call = .enqueueDelayed task.id delayMs) :
    ({ cluster with queue := cluster.served call, loops } : Cluster Val).Delivers
      fun _ => False := by
  rcases delivers.represents with ⟨place, represents⟩
  have fetches : ∀ taskId, cluster.Fetches taskId →
      ({ cluster with queue := cluster.served call, loops } : Cluster Val).Fetches taskId := by
    intro taskId fetches
    cases fetches with
    | inl claimed => exact .inl (loopsKept taskId claimed)
    | inr called => exact .inr called
  constructor
  · exact delivers.inv
  · exact ⟨_, (represents.moves cluster.now call).1⟩
  · intro taskId isMember
    cases Call.mem_members_run isMember with
    | inl old => exact delivers.members taskId old
    | inr new => exact pushed taskId new
  · exact delivers.offers
  · intro task membership waiting
    left
    rcases delivers.kept task membership waiting with (waits | fetched | top) | isOwed
    · rcases represents.waits_run cluster.now call waits with still | ⟨_, _, reply⟩
      · exact .inl still
      · exact .inr (.inl (.inl (popped task.id reply)))
    · exact .inr (.inl (fetches task.id fetched))
    · exact .inr (.inr top)
    · rcases pays task isOwed with ⟨queued, rfl⟩ | ⟨delayMs, rfl⟩
      · cases represents.waits_enqueue cluster.now with
        | inl waits => exact .inl waits
        | inr isLeased =>
            exact .inr (.inl (fetches task.id (delivers.leased task membership queued isLeased)))
      · exact .inl (represents.waits_enqueueDelayed cluster.now delayMs)
  · intro task membership queued isLeased
    rcases represents.leased_run cluster.now call isLeased with old | ⟨_, _, reply⟩
    · exact fetches task.id (delivers.leased task membership queued old)
    · exact .inl (popped task.id reply)

/-- The queue answers a call that pushes nothing. -/
theorem Delivers.answered (delivers : cluster.Delivers fun _ => False) (call : Call TaskId)
    (loops : List (Loop Val))
    (loopsKept : ∀ taskId, (∃ loop ∈ cluster.loops, loop.claimed? = some taskId) →
      ∃ loop ∈ loops, loop.claimed? = some taskId)
    (popped : ∀ taskId, (call.run cluster.queue cluster.now).2 = .claimed (some taskId) →
      ∃ loop ∈ loops, loop.claimed? = some taskId)
    (pushes : call.pushes = none) :
    ({ cluster with queue := cluster.served call, loops } : Cluster Val).Delivers
      fun _ => False := by
  apply delivers.served call loops loopsKept popped
  · intro taskId isPushed
    cases pushes.symm.trans isPushed
  · intro task absurdity
    exact absurdity.elim

omit [Mixed Val] in
/-- The other loops keep what they have claimed. -/
theorem claimed_set {loops : List (Loop Val)} {index : Nat} {loop new : Loop Val}
    (isLoop : loops[index]? = some loop) (unclaimed : loop.claimed? = none) (taskId : TaskId)
    (claimed : ∃ loop ∈ loops, loop.claimed? = some taskId) :
    ∃ loop ∈ loops.set index new, loop.claimed? = some taskId := by
  rcases claimed with ⟨other, membership, isTask⟩
  cases Sys.mem_set_of_mem isLoop membership with
  | inl still => exact ⟨other, still, isTask⟩
  | inr same =>
      rw [same] at isTask
      cases unclaimed.symm.trans isTask

omit [Mixed Val] in
/-- A loop that went on has claimed what it had claimed. -/
theorem claimed_resumed {loops : List (Loop Val)} {call : Nat} {reply : Option (Reply Val)}
    (taskId : TaskId) (claimed : ∃ loop ∈ loops, loop.claimed? = some taskId) :
    ∃ loop ∈ loops.map (Loop.resumed call reply), loop.claimed? = some taskId := by
  rcases claimed with ⟨loop, membership, isTask⟩
  refine ⟨loop.resumed call reply, List.mem_map_of_mem membership, ?_⟩
  rw [claimed?_resumed]
  exact isTask

variable {next : Cluster Val}

/-- A loop calls the engine. -/
theorem Delivers.calls (delivers : cluster.Delivers fun _ => False) {index : Nat}
    {loop : Loop Val} {frame : Frame Val} {waiting : Nat → Loop Val}
    (isLoop : cluster.loops[index]? = some loop)
    (started : ∀ taskId, loop.claimed? = some taskId →
      ∃ workerId, frame = .startTask taskId workerId)
    (taken : cluster.calls index frame waiting = some next) :
    next.Delivers fun _ => False := by
  rcases Option.map_eq_some_iff.mp taken with ⟨later, invoked, rfl⟩
  rcases delivers.inv.stepped invoked with ⟨label, stepped⟩
  have called : later.Top frame := by
    have took := stepped.took
    cases took with
    | invoke => exact ⟨[], List.mem_append_right _ (List.mem_singleton_self _)⟩
  have after := Delivers.stepped (cluster.loops.set index
    (waiting cluster.sys.calls.length)) delivers stepped rfl ?_
  · refine ⟨after.inv, after.represents, after.members, after.offers, ?_, after.leased⟩
    intro task membership isWaiting
    rcases after.kept task membership isWaiting with keeps | ⟨_, absurdity, _⟩
    · exact .inl keeps
    · cases absurdity
  · intro taskId claimed
    rcases claimed with ⟨other, membership, isTask⟩
    cases Sys.mem_set_of_mem isLoop membership with
    | inl still => exact .inl ⟨other, still, isTask⟩
    | inr same =>
        subst same
        rcases started taskId isTask with ⟨workerId, rfl⟩
        exact .inr ⟨workerId, called⟩

/-- A step of a loop. -/
theorem Delivers.moved (delivers : cluster.Delivers fun _ => False) {index : Nat}
    {loop : Loop Val} {move : Move Val} (isLoop : cluster.loops[index]? = some loop)
    (faultless : cluster.faultless (.move index move) = true)
    (taken : cluster.moved index loop move = some next) : next.Delivers fun _ => False := by
  have inBounds : index < cluster.loops.length := (List.getElem?_eq_some_iff.mp isLoop).1
  unfold Cluster.moved at taken
  split at taken
  · next leaseMs =>
    split at taken
    · next queue taskId claimed =>
      cases taken
      have isServed : queue = cluster.served (.claim leaseMs) := congrArg Prod.fst claimed.symm
      rw [isServed]
      apply delivers.answered (.claim leaseMs) _ (claimed_set isLoop rfl) _ rfl
      intro other isReply
      rw [claimed] at isReply
      cases isReply
      exact ⟨.claimed taskId, List.mem_set inBounds _, rfl⟩
    · cases taken
  · next workerId =>
    apply delivers.calls isLoop _ taken
    intro taskId claimed
    cases claimed
    exact ⟨workerId, rfl⟩
  · next taskId _ leaseMs =>
    cases taken
    apply delivers.answered (.extendLease taskId leaseMs) _ (fun _ claimed => claimed) _ rfl
    intro other isReply
    cases isReply
  · next taskId _ leaseMs =>
    cases taken
    apply delivers.answered (.extendLease taskId leaseMs) _ (fun _ claimed => claimed) _ rfl
    intro other isReply
    cases isReply
  · apply delivers.calls isLoop _ taken
    intro taskId claimed
    cases claimed
  · next taskId =>
    cases taken
    apply delivers.answered (.ack taskId) _ (claimed_set isLoop rfl) _ rfl
    intro other isReply
    cases isReply
  · cases faultless
  · cases taken

/-- A step of a call, with what it asks of the queue. -/
theorem Delivers.advanced (delivers : cluster.Delivers fun _ => False) {call : Nat} {env : Env}
    {later : Sys Val} (redisUp : env.redisUp = true)
    (taken : cluster.sys.step (.advance call env) = some later) :
    (cluster.advanced call env later).Delivers fun _ => False := by
  rcases delivers.inv.stepped taken with ⟨label, stepped⟩
  have after := Delivers.stepped (cluster.advanced call env later).loops delivers stepped rfl ?_
  · cases asks : (cluster.sys.frame? (.advance call env)).bind fun frame =>
      frame.queueCall? env with
    | none =>
        have same : (cluster.advanced call env later).queue = cluster.queue := by
          rw [Cluster.advanced, asks]
          rfl
        refine ⟨after.inv, same ▸ after.represents, same ▸ after.members, after.offers, ?_, ?_⟩
        · intro task membership isWaiting
          rcases after.kept task membership isWaiting with keeps | ⟨frame, isFrame, offered⟩
          · left
            unfold Cluster.Keeps
            rw [same]
            exact keeps
          · rw [isFrame] at asks
            cases offered <;> simp [Frame.queueCall?, redisUp] at asks
        · intro task membership queued isLeased
          rw [same] at isLeased
          exact after.leased task membership queued isLeased
    | some asked =>
        have same : cluster.advanced call env later =
            { cluster with
              sys := later
              queue := cluster.served asked
              loops := (cluster.advanced call env later).loops } := by
          simp only [Cluster.advanced, asks]
          rfl
        rcases Option.bind_eq_some_iff.mp asks with ⟨frame, isFrame, isAsked⟩
        have pushes : asked.pushes = frame.offers? ∧
            ∀ taskId, (asked.run cluster.queue cluster.now).2 ≠ .claimed (some taskId) := by
          unfold Frame.queueCall? at isAsked
          rw [redisUp] at isAsked
          split at isAsked
          · cases isAsked
            exact ⟨rfl, fun _ absurdity => by cases absurdity⟩
          · cases isAsked
            exact ⟨rfl, fun _ absurdity => by cases absurdity⟩
          · cases isAsked
        rw [same]
        apply after.served asked _ (fun _ claimed => claimed)
        · intro taskId isReply
          exact absurd isReply (pushes.2 taskId)
        · intro taskId isPushed
          rcases Sys.frame?_top isFrame with ⟨rest, onStack⟩
          rw [pushes.1] at isPushed
          exact stepped.dispatched_on
            (delivers.offers _ onStack frame List.mem_cons_self taskId isPushed)
        · rintro task ⟨other, isOther, offered⟩
          cases isFrame.symm.trans isOther
          cases offered with
          | queued queued =>
              left
              simp only [Frame.queueCall?, redisUp, if_true, Option.some.injEq] at isAsked
              exact ⟨queued, isAsked.symm⟩
          | retrying delayMs =>
              right
              simp only [Frame.queueCall?, redisUp, if_true, Option.some.injEq] at isAsked
              exact ⟨delayMs, isAsked.symm⟩
  · intro taskId claimed
    left
    simp only [Cluster.advanced]
    split
    · exact claimed_resumed taskId claimed
    · exact claimed

theorem Delivers.step (delivers : cluster.Delivers fun _ => False) {action : Action Val}
    (faultless : cluster.faultless action = true) (taken : cluster.step action = some next) :
    next.Delivers fun _ => False := by
  cases action with
  | tick =>
      cases taken
      exact ⟨delivers.inv, delivers.represents, delivers.members, delivers.offers, delivers.kept,
        delivers.leased⟩
  | invoke frame =>
      simp only [Cluster.step] at taken
      split at taken
      · cases taken
      · rcases Option.map_eq_some_iff.mp taken with ⟨later, invoked, rfl⟩
        rcases delivers.inv.stepped invoked with ⟨label, stepped⟩
        have after := Delivers.stepped cluster.loops delivers stepped rfl
          fun _ claimed => .inl claimed
        refine ⟨after.inv, after.represents, after.members, after.offers, ?_, after.leased⟩
        intro task membership isWaiting
        rcases after.kept task membership isWaiting with keeps | ⟨_, absurdity, _⟩
        · exact .inl keeps
        · cases absurdity
  | advance call env =>
      simp only [Cluster.step] at taken
      split at taken
      · rcases Option.map_eq_some_iff.mp taken with ⟨later, advanced, rfl⟩
        exact delivers.advanced faultless advanced
      · cases taken
  | crash => cases faultless
  | spawn =>
      cases taken
      have spawned : ∀ taskId, cluster.Fetches taskId →
          ({ cluster with loops := cluster.loops ++ [.polling] } : Cluster Val).Fetches taskId := by
        intro taskId fetches
        rcases fetches with ⟨loop, membership, isTask⟩ | called
        · exact .inl ⟨loop, List.mem_append_left _ membership, isTask⟩
        · exact .inr called
      refine ⟨delivers.inv, delivers.represents, delivers.members, delivers.offers, ?_, ?_⟩
      · intro task membership isWaiting
        rcases delivers.kept task membership isWaiting with (waits | fetches | top) | absurdity
        · exact .inl (.inl waits)
        · exact .inl (.inr (.inl (spawned task.id fetches)))
        · exact .inl (.inr (.inr top))
        · exact absurdity.elim
      · intro task membership queued isLeased
        exact spawned task.id (delivers.leased task membership queued isLeased)
  | move index move =>
      simp only [Cluster.step] at taken
      rcases Option.bind_eq_some_iff.mp taken with ⟨loop, isLoop, moved⟩
      exact delivers.moved isLoop faultless moved
  | requeueExpired limit =>
      cases taken
      apply delivers.answered (.requeueExpired limit) _ (fun _ claimed => claimed) _ rfl
      intro taskId isReply
      cases isReply
  | promoteDue limit =>
      cases taken
      apply delivers.answered (.promoteDue limit) _ (fun _ claimed => claimed) _ rfl
      intro taskId isReply
      cases isReply

end Cluster

end WorkflowEngine
