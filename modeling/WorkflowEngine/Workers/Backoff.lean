import WorkflowEngine.Queues.Arrivals
import WorkflowEngine.Workers.QueueWorker
import WorkflowEngine.Workflow.Postponed

/-!
# Backoff

`claimTask` does not look at `retryAt`.  A postponed task is kept from the workers by the
queue alone: its id has to be nowhere but in the delayed set until its time has come.
-/

namespace WorkflowEngine

open DocStore Queues

variable {Val : Type}

/-! ## What a worker may get -/

/-- The id that the loop has claimed and not started. -/
def Loop.claimed? : Loop Val → Option TaskId
  | .claimed taskId => some taskId
  | _ => none

namespace Cluster

/-- Until when the task is postponed, if this time has not come. -/
def waits (cluster : Cluster Val) (taskId : TaskId) : Option Time :=
  (cluster.sys.db.retryTime taskId).filter fun retryAt => decide (cluster.now < retryAt)

/-- A worker has the id and has not claimed the task yet. -/
def fetched (cluster : Cluster Val) (taskId : TaskId) : Bool :=
  cluster.loops.any (fun loop => decide (loop.claimed? = some taskId)) ||
    cluster.sys.calls.any fun stack => stack.any fun frame =>
      decide (frame.starts? = some taskId)

/-- A worker has the id, or can get it before this time. -/
def reaches (cluster : Cluster Val) (taskId : TaskId) (time : Time) : Bool :=
  decide (taskId ∈ cluster.queue.ready) || cluster.fetched taskId ||
    cluster.queue.delayed.entries.any fun entry =>
      decide ((ofLex entry).2 = taskId) && decide ((ofLex entry).1 < time)

/-- The call makes a postponed task ready, or lets it get ready before its time. -/
def releases (cluster : Cluster Val) : Call TaskId → Bool
  | .enqueue taskId =>
      decide (taskId ∉ cluster.queue.members) && (cluster.waits taskId).isSome
  | .enqueueDelayed taskId delayMs =>
      (Call.enqueueDelayed taskId delayMs).delays cluster.queue taskId &&
        (cluster.waits taskId).any fun retryAt => decide (cluster.now + max 0 delayMs < retryAt)
  | .requeueExpired limit =>
      (cluster.queue.leases.upTo cluster.now limit).any fun taskId =>
        (cluster.waits taskId).isSome
  | _ => false

/-- The action releases a postponed task from the queue, or postpones a task that a
worker has or can get before its time. -/
def hastens (cluster : Cluster Val) : Action Val → Bool
  | .advance call env =>
      (cluster.sys.frame? (.advance call env)).any fun frame =>
        (frame.queueCall? env).any cluster.releases ||
          (frame.postpones env cluster.sys.db).any fun retry =>
            decide (cluster.now < retry.2) && cluster.reaches retry.1 retry.2
  | .requeueExpired limit => cluster.releases (.requeueExpired limit)
  | _ => false

/-- No worker has the id, and none can get it before this time. -/
structure Apart (cluster : Cluster Val) (taskId : TaskId) (time : Time) : Prop where
  ready : taskId ∉ cluster.queue.ready
  claimed : ∀ loop ∈ cluster.loops, loop.claimed? ≠ some taskId
  starts : ∀ stack ∈ cluster.sys.calls, ∀ frame ∈ stack, frame.starts? ≠ some taskId
  delayed : ∀ score, toLex (score, taskId) ∈ cluster.queue.delayed.entries → time ≤ score

theorem apart_of_reaches {cluster : Cluster Val} {taskId : TaskId} {time : Time}
    (apart : cluster.reaches taskId time = false) : cluster.Apart taskId time := by
  simp only [reaches, fetched, Bool.or_eq_false_iff, decide_eq_false_iff_not, List.any_eq_false,
    decide_eq_true_eq, Bool.and_eq_true, not_and, not_lt] at apart
  rcases apart with ⟨⟨ready, claimed, starts⟩, delayed⟩
  refine ⟨ready, claimed, ?_, fun score membership => delayed _ membership rfl⟩
  intro stack membership frame frameMem isStart
  exact starts stack membership (List.any_eq_true.mpr ⟨frame, frameMem, decide_eq_true isStart⟩)

theorem waits_eq_some {cluster : Cluster Val} {taskId : TaskId} {retryAt : Time} :
    cluster.waits taskId = some retryAt ↔
      cluster.sys.db.retryTime taskId = some retryAt ∧ cluster.now < retryAt := by
  rw [waits, Option.filter_eq_some_iff, decide_eq_true_iff]

end Cluster

/-! ## The guarantee -/

/-- Every claim happens when the latest postponement of its task is over.  The claimed
task carries the `retryAt` of this postponement, and the time of the claim. -/
def Sys.Punctual (sys : Sys Val) : Prop :=
  ∀ task, .claimTask task ∈ sys.log → ∀ retryAt, task.retryAt = some retryAt →
    ∃ startedAt, task.startedAt = some startedAt ∧ retryAt ≤ startedAt

namespace Cluster

variable [Mixed Val] {cluster next : Cluster Val}

/-- What holds while nothing hastens a postponed task. -/
structure Inv (cluster : Cluster Val) : Prop where
  reachable : (engineSystem Val).Reachable cluster.sys
  punctual : cluster.sys.Punctual
  /-- the postponement of a task that is QUEUED or RUNNING again is over -/
  settled : ∀ task ∈ cluster.sys.db.tasks.values, task.status.stage ≤ 3 →
    task.status ≠ .retrying → ∀ retryAt, task.retryAt = some retryAt → retryAt ≤ cluster.now
  apart : ∀ taskId retryAt, cluster.waits taskId = some retryAt → cluster.Apart taskId retryAt

theorem inv_init (start : Time) : Inv (init start : Cluster Val) := by
  refine ⟨.init, ?_, ?_, ?_⟩
  · exact fun _ membership => absurd membership List.not_mem_nil
  · exact fun _ membership => absurd membership List.not_mem_nil
  · intro taskId retryAt waits
    rcases (Db.retryTime_eq_some Db.inv_empty.keyed).mp (waits_eq_some.mp waits).1 with
      ⟨task, membership, _⟩
    exact absurd membership List.not_mem_nil

/-! ### Calls to the queue -/

omit [Mixed Val] in
/-- A call that releases nothing leaves the postponed tasks where they are. -/
theorem Apart.served {taskId : TaskId} {retryAt : Time} (apart : cluster.Apart taskId retryAt)
    (waits : cluster.waits taskId = some retryAt) {call : Call TaskId}
    (calm : cluster.releases call = false) :
    taskId ∉ (cluster.served call).ready ∧ ∀ score,
      toLex (score, taskId) ∈ (cluster.served call).delayed.entries → retryAt ≤ score := by
  constructor
  · intro membership
    rcases Call.mem_ready_run membership with old | readies
    · exact apart.ready old
    · cases readies with
      | enqueue isNew => simp [releases, isNew, waits] at calm
      | requeueExpired moved =>
          simp only [releases, List.any_eq_false] at calm
          exact calm taskId moved (by rw [waits]; rfl)
      | promoteDue moved =>
          rcases SortedSet.score_of_mem_upTo moved with ⟨score, due, stored⟩
          have passed := (apart.delayed score stored).trans due
          exact absurd (waits_eq_some.mp waits).2 (not_lt.mpr passed)
  · intro score membership
    rcases Call.mem_delayed_run membership with old | ⟨delays, delayMs, rfl, rfl⟩
    · exact apart.delayed score old
    · simp only [releases, delays, waits, Bool.true_and, Option.any_some,
        decide_eq_false_iff_not, not_lt] at calm
      exact calm

/-! ### Steps of the engine -/

section Engine

variable {later : Sys Val} {action : WorkflowEngine.Action Val} {label : Option (Reply Val)}

/-- A claim is made by a worker that has the id, so its task is not postponed. -/
theorem Inv.claimed {task : Task Val} (inv : cluster.Inv)
    (stepped : cluster.sys.Stepped action later (some (.claimTask task)))
    (clock : ∀ call env, action = .advance call env → cluster.onTime action env = true) :
    task.startedAt = some cluster.now ∧
      ∀ retryAt, task.retryAt = some retryAt → retryAt ≤ cluster.now := by
  rcases stepped.claimed with
    ⟨call, env, workerId, rfl, isFrame, startedAt, source, sourceMem, isTask, free, same⟩
  have now : env.now = cluster.now := by
    have reading := clock call env rfl
    rw [onTime, isFrame, Option.all_some] at reading
    exact of_decide_eq_true reading
  rw [now] at startedAt
  refine ⟨startedAt, ?_⟩
  intro retryAt isRetryAt
  rw [same] at isRetryAt
  by_cases retrying : source.status = .retrying
  · by_contra early
    have waits : cluster.waits task.id = some retryAt := by
      refine waits_eq_some.mpr ⟨?_, not_le.mp early⟩
      exact (Db.retryTime_eq_some stepped.inv.db.keyed).mpr
        ⟨source, sourceMem, isTask, retrying, isRetryAt⟩
    rcases Sys.frame?_top isFrame with ⟨rest, onStack⟩
    exact (inv.apart _ _ waits).starts _ onStack _ List.mem_cons_self rfl
  · refine inv.settled source sourceMem ?_ retrying retryAt isRetryAt
    unfold claimable at free
    split at free
    · next queued => rw [queued]; decide
    · next isRetrying => exact absurd isRetrying retrying
    · next running => rw [running]; decide
    · cases free

theorem Inv.punctual_later (inv : cluster.Inv)
    (stepped : cluster.sys.Stepped action later label)
    (clock : ∀ call env, action = .advance call env → cluster.onTime action env = true) :
    later.Punctual := by
  intro task membership retryAt isRetryAt
  rw [stepped.log] at membership
  rcases List.mem_append.mp membership with new | old
  · cases Option.mem_toList.mp new
    rcases inv.claimed stepped clock with ⟨startedAt, passed⟩
    exact ⟨cluster.now, startedAt, passed retryAt isRetryAt⟩
  · exact inv.punctual task old retryAt isRetryAt

theorem Inv.settled_later (inv : cluster.Inv)
    (stepped : cluster.sys.Stepped action later label)
    (clock : ∀ call env, action = .advance call env → cluster.onTime action env = true) :
    ∀ task ∈ later.db.tasks.values, task.status.stage ≤ 3 → task.status ≠ .retrying →
      ∀ retryAt, task.retryAt = some retryAt → retryAt ≤ cluster.now := by
  intro task membership early settled retryAt isRetryAt
  rcases stepped.origin membership with ⟨source, sourceMem, _, rfl | moves⟩ | ⟨env, params, new⟩
  · exact inv.settled source sourceMem early settled retryAt isRetryAt
  · rcases moves.of_early early settled with ⟨same, ⟨wasEarly, wasSettled⟩ | rfl⟩
    · rw [same] at isRetryAt
      exact inv.settled source sourceMem wasEarly wasSettled retryAt isRetryAt
    · exact (inv.claimed stepped clock).2 retryAt isRetryAt
  · rw [Run.retryAt_start new] at isRetryAt
    cases isRetryAt

/-- A task that is postponed after the step was apart before. -/
theorem Inv.apart_later (inv : cluster.Inv) (stepped : cluster.sys.Stepped action later label)
    (calm : ∀ call env frame retry, action = .advance call env →
      cluster.sys.frame? action = some frame →
      frame.postpones env cluster.sys.db = some retry → cluster.now < retry.2 →
        cluster.reaches retry.1 retry.2 = false)
    {taskId : TaskId} {retryAt : Time} (postponed : later.db.retryTime taskId = some retryAt)
    (notYet : cluster.now < retryAt) : cluster.Apart taskId retryAt := by
  rcases (Db.retryTime_eq_some stepped.later.db.keyed).mp postponed with
    ⟨task, membership, rfl, retrying, isRetryAt⟩
  have before : ∀ source ∈ cluster.sys.db.tasks.values, source.id = task.id →
      source.status = .retrying → source.retryAt = some retryAt →
        cluster.Apart task.id retryAt := by
    intro source sourceMem isTask wasRetrying same
    apply inv.apart
    refine waits_eq_some.mpr ⟨?_, notYet⟩
    exact (Db.retryTime_eq_some stepped.inv.db.keyed).mpr
      ⟨source, sourceMem, isTask, wasRetrying, same⟩
  rcases stepped.origin membership with
    ⟨source, sourceMem, isTask, rfl | moves⟩ | ⟨env, params, new⟩
  · exact before source sourceMem rfl retrying isRetryAt
  · rcases moves.of_retrying retrying with ⟨wasRetrying, same⟩ | ⟨error, delayMs, rfl⟩
    · exact before source sourceMem isTask wasRetrying (same.symm.trans isRetryAt)
    · rcases stepped.postponed with ⟨call, env, frame, time, rfl, isFrame, postpones, set⟩
      have same := (set task membership isTask.symm).symm.trans isRetryAt
      cases Option.some.inj same
      rw [isTask] at postpones
      exact apart_of_reaches (calm call env frame _ rfl isFrame postpones notYet)
  · rw [Run.retryAt_start new] at isRetryAt
    cases isRetryAt

omit [Mixed Val] in
theorem starts?_of_follows {frame after : Frame Val} (follows : frame.Follows after) :
    after.starts? = none := by
  cases follows with
  | after answers isNext =>
      unfold Reply.after at isNext
      split at isNext
      case h_5 =>
        split at isNext
        · cases List.mem_singleton.mp isNext
          rfl
        · cases isNext
      case h_6 => cases isNext
      all_goals
        cases List.mem_singleton.mp isNext
        rfl
  | _ => rfl

/-- A step of the engine starts no task, unless it was called to. -/
theorem Apart.starts_later {taskId : TaskId} {retryAt : Time}
    (apart : cluster.Apart taskId retryAt) (took : cluster.sys.Took action later)
    (invoked : ∀ frame, action = .invoke frame → frame.starts? ≠ some taskId) :
    ∀ stack ∈ later.calls, ∀ frame ∈ stack, frame.starts? ≠ some taskId := by
  apply took.frames apart.starts
  · exact fun frame isInvoke _ => invoked frame isInvoke
  · intro call env frame rest outcome _ _ ran _ after isNext
    rw [starts?_of_follows (frame.follows ran isNext)]
    nofun

end Engine

/-! ### Steps of the cluster -/

/-- A step that is none of the engine. -/
theorem Inv.of_sys (inv : cluster.Inv) (same : next.sys = cluster.sys)
    (now : cluster.now ≤ next.now)
    (apart : ∀ taskId retryAt, cluster.waits taskId = some retryAt →
      cluster.Apart taskId retryAt → next.Apart taskId retryAt) : next.Inv := by
  refine ⟨same ▸ inv.reachable, same ▸ inv.punctual, ?_, ?_⟩
  · intro task membership early settled retryAt isRetryAt
    rw [same] at membership
    exact (inv.settled task membership early settled retryAt isRetryAt).trans now
  · intro taskId retryAt waits
    rcases waits_eq_some.mp waits with ⟨postponed, notYet⟩
    rw [same] at postponed
    have waited := waits_eq_some.mpr ⟨postponed, lt_of_le_of_lt now notYet⟩
    exact apart taskId retryAt waited (inv.apart taskId retryAt waited)

/-- A step of the engine. -/
theorem Inv.of_engine (next : Cluster Val) (inv : cluster.Inv)
    {action : WorkflowEngine.Action Val}
    (taken : cluster.sys.step action = some next.sys) (now : next.now = cluster.now)
    (clock : ∀ call env, action = .advance call env → cluster.onTime action env = true)
    (calm : ∀ call env frame retry, action = .advance call env →
      cluster.sys.frame? action = some frame →
      frame.postpones env cluster.sys.db = some retry → cluster.now < retry.2 →
        cluster.reaches retry.1 retry.2 = false)
    (apart : ∀ taskId retryAt, cluster.now < retryAt →
      next.sys.db.retryTime taskId = some retryAt → cluster.Apart taskId retryAt →
        next.Apart taskId retryAt) : next.Inv := by
  rcases (Sys.inv_of_reachableBy inv.reachable).stepped taken with ⟨label, stepped⟩
  refine ⟨.step inv.reachable trivial taken, inv.punctual_later stepped clock, ?_, ?_⟩
  · rw [now]
    exact inv.settled_later stepped clock
  · intro taskId retryAt waits
    rcases waits_eq_some.mp waits with ⟨postponed, notYet⟩
    rw [now] at notYet
    exact apart taskId retryAt notYet postponed (inv.apart_later stepped calm postponed notYet)

/-- A call that starts, or a crash. -/
theorem Inv.of_other (next : Cluster Val) (inv : cluster.Inv)
    {action : WorkflowEngine.Action Val} (taken : cluster.sys.step action = some next.sys)
    (now : next.now = cluster.now) (other : ∀ call env, action ≠ .advance call env)
    (apart : ∀ taskId retryAt, cluster.Apart taskId retryAt → next.Apart taskId retryAt) :
    next.Inv := by
  apply inv.of_engine next taken now
  · intro call env isAdvance
    exact absurd isAdvance (other call env)
  · intro call env _ _ isAdvance
    exact absurd isAdvance (other call env)
  · intro taskId retryAt _ _ before
    exact apart taskId retryAt before

omit [Mixed Val] in
theorem claimed?_set {loops : List (Loop Val)} {taskId : TaskId}
    (before : ∀ loop ∈ loops, loop.claimed? ≠ some taskId) {index : Nat} {loop : Loop Val}
    (other : loop.claimed? ≠ some taskId) :
    ∀ later ∈ loops.set index loop, later.claimed? ≠ some taskId := by
  intro later membership
  rcases List.mem_or_eq_of_mem_set membership with old | rfl
  · exact before later old
  · exact other

/-- A loop calls the engine to start another task than a postponed one, or to report. -/
theorem Inv.calls (inv : cluster.Inv) {index : Nat} {frame : Frame Val} {waiting : Nat → Loop Val}
    (taken : cluster.calls index frame waiting = some next)
    (unclaimed : ∀ call, (waiting call).claimed? = none)
    (apart : ∀ taskId retryAt, cluster.Apart taskId retryAt → frame.starts? ≠ some taskId) :
    next.Inv := by
  rcases Option.map_eq_some_iff.mp taken with ⟨later, invoked, rfl⟩
  refine inv.of_other _ invoked rfl (fun _ _ absurdity => by cases absurdity) ?_
  intro taskId retryAt before
  refine ⟨before.ready, claimed?_set before.claimed (by rw [unclaimed]; nofun), ?_,
    before.delayed⟩
  apply before.starts_later (Sys.took_of_step invoked)
  rintro _ ⟨⟩
  exact apart taskId retryAt before

/-- A call to the queue that releases nothing. -/
theorem Inv.serves (inv : cluster.Inv) {call : Call TaskId} {loops : List (Loop Val)}
    (calm : cluster.releases call = false)
    (claimed : ∀ taskId, (∀ loop ∈ cluster.loops, loop.claimed? ≠ some taskId) →
      ∀ loop ∈ loops, loop.claimed? ≠ some taskId) :
    ({ cluster with queue := cluster.served call, loops } : Cluster Val).Inv := by
  refine inv.of_sys rfl (le_refl _) ?_
  intro taskId retryAt waits before
  rcases before.served waits calm with ⟨ready, delayed⟩
  exact ⟨ready, claimed taskId before.claimed, before.starts, delayed⟩

/-- A step of a loop. -/
theorem Inv.moved (inv : cluster.Inv) {index : Nat} {loop : Loop Val} {move : Move Val}
    (isLoop : cluster.loops[index]? = some loop)
    (taken : cluster.moved index loop move = some next) : next.Inv := by
  have gaveUp : ({ cluster with loops := cluster.loops.set index .polling } : Cluster Val).Inv := by
    refine inv.of_sys rfl (le_refl _) ?_
    intro taskId retryAt _ before
    exact ⟨before.ready, claimed?_set before.claimed nofun, before.starts, before.delayed⟩
  unfold Cluster.moved at taken
  split at taken
  · next leaseMs =>
    split at taken
    · next queue taskId claimed =>
      cases taken
      refine inv.of_sys rfl (le_refl _) ?_
      intro waiting retryAt waits before
      have calm : cluster.releases (.claim leaseMs) = false := rfl
      have isServed : queue = cluster.served (.claim leaseMs) :=
        congrArg Prod.fst claimed.symm
      rcases before.served waits calm with ⟨ready, delayed⟩
      rw [← isServed] at ready delayed
      refine ⟨ready, claimed?_set before.claimed ?_, before.starts, delayed⟩
      rintro ⟨⟩
      exact before.ready (Call.ready_of_claimed claimed)
    · cases taken
  · next claimedId workerId =>
    refine inv.calls taken (fun _ => rfl) ?_
    intro taskId retryAt before
    exact before.claimed _ (List.mem_of_getElem? isLoop)
  · cases taken
    exact inv.serves rfl fun _ before => before
  · cases taken
    exact inv.serves rfl fun _ before => before
  · exact inv.calls taken (fun _ => rfl) fun _ _ _ => nofun
  · cases taken
    exact inv.serves rfl fun _ before => claimed?_set before nofun
  · cases taken
    exact gaveUp
  · cases taken

omit [Mixed Val] in
theorem claimed?_resumed (call : Nat) (reply : Option (Reply Val)) (loop : Loop Val) :
    (loop.resumed call reply).claimed? = loop.claimed? := by
  unfold Loop.resumed
  split
  · split
    · split <;> rfl
    · rfl
  · split
    · split <;> rfl
    · rfl
  · rfl

/-- A step that asks something of the queue leaves the database alone. -/
theorem db_of_queueCall? {later : Sys Val} {call : Nat} {env : Env} {frame : Frame Val}
    {asked : Call TaskId} (took : cluster.sys.Took (.advance call env) later)
    (isFrame : cluster.sys.frame? (.advance call env) = some frame)
    (asks : frame.queueCall? env = some asked) : later.db = cluster.sys.db := by
  cases took with
  | threw => rfl
  | @ran _ _ top rest outcome found ran =>
      rw [Sys.frame?_eq found] at isFrame
      cases isFrame
      unfold Frame.queueCall? at asks
      split at asks
      · cases ran
        rfl
      · cases ran
        rfl
      · cases asks

/-- A step of the engine that hastens nothing. -/
theorem Inv.advanced (inv : cluster.Inv) {call : Nat} {env : Env} {later : Sys Val}
    (calm : cluster.hastens (.advance call env) = false)
    (clock : cluster.onTime (.advance call env) env = true)
    (taken : cluster.sys.step (.advance call env) = some later) :
    (cluster.advanced call env later).Inv := by
  have took := Sys.took_of_step taken
  have quiet : ∀ frame, cluster.sys.frame? (.advance call env) = some frame →
      (frame.queueCall? env).any cluster.releases = false ∧
        ∀ retry, frame.postpones env cluster.sys.db = some retry → cluster.now < retry.2 →
          cluster.reaches retry.1 retry.2 = false := by
    intro frame isFrame
    rw [hastens, isFrame, Option.any_some, Bool.or_eq_false_iff] at calm
    refine ⟨calm.1, ?_⟩
    intro retry postpones notYet
    simpa [postpones, notYet] using calm.2
  apply inv.of_engine (cluster.advanced call env later) taken rfl
  · rintro _ _ ⟨⟩
    exact clock
  · rintro _ _ frame retry ⟨⟩ isFrame
    exact (quiet frame isFrame).2 retry
  · intro taskId retryAt notYet postponed before
    have starts : ∀ stack ∈ later.calls, ∀ frame ∈ stack, frame.starts? ≠ some taskId := by
      apply before.starts_later took
      intro frame absurdity
      cases absurdity
    have claimed : ∀ loop ∈ (cluster.advanced call env later).loops,
        loop.claimed? ≠ some taskId := by
      intro loop membership
      simp only [Cluster.advanced] at membership
      split at membership
      · rcases List.mem_map.mp membership with ⟨source, sourceMem, rfl⟩
        rw [claimed?_resumed]
        exact before.claimed source sourceMem
      · exact before.claimed loop membership
    cases asks : (cluster.sys.frame? (.advance call env)).bind fun frame =>
      frame.queueCall? env with
    | none =>
        have same : (cluster.advanced call env later).queue = cluster.queue := by
          rw [Cluster.advanced, asks]
          rfl
        exact ⟨by rw [same]; exact before.ready, claimed, starts,
          by rw [same]; exact before.delayed⟩
    | some asked =>
        have same : (cluster.advanced call env later).queue = cluster.served asked := by
          rw [Cluster.advanced, asks]
          rfl
        rcases Option.bind_eq_some_iff.mp asks with ⟨frame, isFrame, isAsked⟩
        have waits : cluster.waits taskId = some retryAt := by
          rw [waits_eq_some, ← db_of_queueCall? took isFrame isAsked]
          exact ⟨postponed, notYet⟩
        have released := (quiet frame isFrame).1
        rw [isAsked, Option.any_some] at released
        rcases before.served waits released with ⟨ready, delayed⟩
        exact ⟨by rw [same]; exact ready, claimed, starts, by rw [same]; exact delayed⟩

theorem Inv.step (inv : cluster.Inv) {action : Action Val}
    (calm : cluster.hastens action = false) (taken : cluster.step action = some next) :
    next.Inv := by
  cases action with
  | tick ms =>
      cases taken
      refine inv.of_sys rfl (Int.le_add_of_nonneg_right (Int.natCast_nonneg ms)) ?_
      intro taskId retryAt _ before
      exact ⟨before.ready, before.claimed, before.starts, before.delayed⟩
  | invoke frame =>
      simp only [Cluster.step] at taken
      split at taken
      · cases taken
      · next starts =>
        rcases Option.map_eq_some_iff.mp taken with ⟨later, invoked, rfl⟩
        refine inv.of_other _ invoked rfl (fun _ _ absurdity => by cases absurdity) ?_
        intro taskId retryAt before
        refine ⟨before.ready, before.claimed, ?_, before.delayed⟩
        apply before.starts_later (Sys.took_of_step invoked)
        rintro _ ⟨⟩ isStart
        rw [isStart] at starts
        exact starts rfl
  | advance call env =>
      simp only [Cluster.step] at taken
      split at taken
      · next clock =>
        rcases Option.map_eq_some_iff.mp taken with ⟨later, stepped, rfl⟩
        exact inv.advanced calm clock stepped
      · cases taken
  | crash call =>
      simp only [Cluster.step] at taken
      rcases Option.map_eq_some_iff.mp taken with ⟨later, crashed, rfl⟩
      refine inv.of_other _ crashed rfl (fun _ _ absurdity => by cases absurdity) ?_
      intro taskId retryAt before
      refine ⟨before.ready, before.claimed, ?_, before.delayed⟩
      apply before.starts_later (Sys.took_of_step crashed)
      intro _ absurdity
      cases absurdity
  | spawn =>
      cases taken
      refine inv.of_sys rfl (le_refl _) ?_
      intro taskId retryAt _ before
      refine ⟨before.ready, ?_, before.starts, before.delayed⟩
      intro loop membership
      rcases List.mem_append.mp membership with old | new
      · exact before.claimed loop old
      · rw [List.mem_singleton.mp new]
        nofun
  | move index move =>
      simp only [Cluster.step] at taken
      rcases Option.bind_eq_some_iff.mp taken with ⟨loop, isLoop, moved⟩
      exact inv.moved isLoop moved
  | requeueExpired limit =>
      cases taken
      exact inv.serves calm fun _ before => before
  | promoteDue limit =>
      cases taken
      exact inv.serves rfl fun _ before => before

end Cluster

/-- While no step releases a postponed task from the queue, and none postpones a task that a
worker has or can get too early, every claim waits for the end of the postponement. -/
theorem backoff_respected [Mixed Val] {start : Time} {cluster : Cluster Val}
    (reachable : (clusterSystem Val start).ReachableBy
      (fun cluster action => cluster.hastens action = false) cluster) :
    cluster.sys.Punctual := by
  have inv : cluster.Inv := by
    apply reachable.invariant (Cluster.inv_init start)
    exact fun _ _ _ inv calm taken => inv.step calm taken
  exact inv.punctual

namespace Schedule

/-- A call of the engine performs steps, all at this time. -/
def clusterSteps (call : Nat) (now steps : Nat) : List (Cluster.Action Plain) :=
  List.replicate steps (.advance call (env now))

/-- One loop starts the only task of a run. -/
def fetchedOnce : List (Cluster.Action Plain) :=
  .invoke (.transaction (.startExecution
      { workflow := { id := 1, ownerId := 1, version := 1, tasks := [definition "A" []] }
        input := .number 7, triggeredBy := none, trigger := .manual, idempotencyKey := none
        requestHash := none })) ::
    clusterSteps 0 0 6 ++
    [.spawn, .spawn, .move 0 (.claim 10), .move 0 (.startTask "v")] ++ clusterSteps 1 0 7

/-- The task fails, and another loop claims it when it is due. -/
def retriedWhenDue : List (Cluster.Action Plain) :=
  fetchedOnce ++ [.tick 4, .move 0 (.report (.threw busy))] ++ clusterSteps 2 4 3 ++
    [.move 0 .ack, .tick 5, .promoteDue 100, .move 1 (.claim 10), .move 1 (.startTask "w")] ++
    clusterSteps 3 9 1

/-- The first loop stalls until its Redis lease has expired.  Its id is ready when the task
fails, so the other loop claims it at once. -/
def retriedEarly : List (Cluster.Action Plain) :=
  fetchedOnce ++ [.tick 20, .requeueExpired 100, .move 0 (.report (.threw busy))] ++
    clusterSteps 2 20 3 ++ [.move 1 (.claim 10), .move 1 (.startTask "w")] ++
    clusterSteps 3 20 1

/-- Where a schedule of steps that hasten nothing ends. -/
def calmly (actions : List (Cluster.Action Plain))
    (runs : ((clusterSystem Plain 0).runBy (fun cluster action => !cluster.hastens action)
      (Cluster.init 0) actions).isSome = true) : Cluster Plain :=
  ((clusterSystem Plain 0).runBy (fun cluster action => !cluster.hastens action)
    (Cluster.init 0) actions).get runs

end Schedule

theorem backoff_respected_retriedWhenDue :
    (Schedule.calmly Schedule.retriedWhenDue (by decide)).sys.Punctual :=
  backoff_respected ((Transition.System.get_runBy_reachableBy (clusterSystem Plain 0)
    (fun cluster action => !cluster.hastens action) Schedule.retriedWhenDue (by decide)).mono
      fun _ _ calm => by simpa using calm)

/-- A task that is postponed until 25 was claimed at 20. -/
def Reply.claimsEarly : Reply Plain → Bool
  | .claimTask task => decide (task.retryAt = some 25 ∧ task.startedAt = some 20)
  | _ => false

/-- A task that is postponed until 25 is claimed at 20. -/
theorem not_backoff_respected :
    ¬ ∀ cluster : Cluster Plain, (clusterSystem Plain 0).Reachable cluster →
      cluster.sys.Punctual := by
  intro always
  have punctual := always _ (Transition.System.get_run_reachable (clusterSystem Plain 0)
    Schedule.retriedEarly (by decide))
  have early : (((clusterSystem Plain 0).run Schedule.retriedEarly).get (by decide)).sys.log.any
      Reply.claimsEarly = true := by decide
  rcases List.any_eq_true.mp early with ⟨reply, membership, isClaim⟩
  rw [Reply.claimsEarly.eq_def] at isClaim
  split at isClaim
  · rcases of_decide_eq_true isClaim with ⟨retryAt, startedAt⟩
    rcases punctual _ membership 25 retryAt with ⟨time, isTime, passed⟩
    rw [startedAt] at isTime
    cases isTime
    exact absurd passed (by decide)
  · cases isClaim

end WorkflowEngine
