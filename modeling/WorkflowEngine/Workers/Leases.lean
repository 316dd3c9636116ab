import WorkflowEngine.Workers.Working

/-!
# Leases of workers

A claim, and every heartbeat after it, tells a worker until when the lease of its
attempt is confirmed.  Until then the task is RUNNING under the token of this attempt,
unless the attempt has been reported on or its run was cancelled.
-/

namespace WorkflowEngine

open DocStore Queues

variable {Val : Type}

/-- The attempt whose lease the reply confirms. -/
def Reply.confirms : Reply Val → Option (TaskId × Nat)
  | .claimTask task => some (task.id, task.leaseToken)
  | .renewLease taskId leaseToken true => some (taskId, leaseToken)
  | _ => none

/-- What has been added to the log. -/
def Sys.news (before after : Sys Val) : List (Reply Val) :=
  after.log.take (after.log.length - before.log.length)

/-- The expiry in the task's document. -/
def Db.leaseExpiresAt (db : Db Val) (taskId : TaskId) : Option Time :=
  (db.tasks.findById taskId).bind (·.leaseExpiresAt)

/-- A cluster, and until when the server last confirmed the lease of each attempt. -/
structure Watch (Val : Type) where
  cluster : Cluster Val
  deadline : TaskId → Nat → Option Time

namespace Watch

def init (start : Time) : Watch Val := { cluster := .init start, deadline := fun _ _ => none }

/-- The deadlines after a step, in which the server confirms the expiry it writes. -/
def confirmed (watch : Watch Val) (later : Sys Val) (taskId : TaskId) (leaseToken : Nat) :
    Option Time :=
  if (taskId, leaseToken) ∈ (watch.cluster.sys.news later).filterMap Reply.confirms then
    later.db.leaseExpiresAt taskId
  else
    watch.deadline taskId leaseToken

def step [Mixed Val] (watch : Watch Val) (action : Cluster.Action Val) : Option (Watch Val) :=
  (watch.cluster.step action).map fun cluster =>
    { cluster, deadline := watch.confirmed cluster.sys }

/-- The lease of the attempt has not run out, nothing was reported on the attempt, and its
run was not cancelled. -/
structure Holds (watch : Watch Val) (taskId : TaskId) (leaseToken : Nat) : Prop where
  unexpired : ∃ expiresAt, watch.deadline taskId leaseToken = some expiresAt ∧
    watch.cluster.now ≤ expiresAt
  unreported : leaseToken ∉ appliedOf taskId watch.cluster.sys.log
  uncancelled : .cancelExecution taskId.executionId true ∉ watch.cluster.sys.log

end Watch

/-- The cluster under watch. -/
def watchSystem (Val : Type) [Mixed Val] (start : Time) :
    Transition.System (Watch Val) (Cluster.Action Val) where
  init := Watch.init start
  step := Watch.step

variable [Mixed Val]

/-! ## Steps of the engine in a cluster -/

/-- A step of the cluster leaves the engine alone, or is a step of it at the current time. -/
theorem Cluster.step_engine {cluster next : Cluster Val} {action : Action Val}
    (taken : cluster.step action = some next) :
    next.sys = cluster.sys ∧ cluster.now ≤ next.now ∨
      ∃ engine, cluster.sys.step engine = some next.sys ∧ next.now = cluster.now ∧
        ∀ call env, engine = .advance call env → cluster.onTime engine env = true := by
  cases action with
  | tick ms =>
      cases taken
      exact .inl ⟨rfl, Int.le_add_of_nonneg_right (Int.natCast_nonneg ms)⟩
  | spawn | requeueExpired | promoteDue =>
      cases taken
      exact .inl ⟨rfl, le_refl _⟩
  | invoke frame =>
      change (if _ then _ else _) = some next at taken
      split at taken
      · cases taken
      · rcases Option.map_eq_some_iff.mp taken with ⟨later, invoked, rfl⟩
        exact .inr ⟨_, invoked, rfl, fun _ _ absurdity => by cases absurdity⟩
  | crash call =>
      simp only [Cluster.step] at taken
      rcases Option.map_eq_some_iff.mp taken with ⟨later, crashed, rfl⟩
      exact .inr ⟨_, crashed, rfl, fun _ _ absurdity => by cases absurdity⟩
  | advance call env =>
      change (if _ then _ else _) = some next at taken
      split at taken
      · next clock =>
        rcases Option.map_eq_some_iff.mp taken with ⟨later, advanced, rfl⟩
        refine .inr ⟨_, advanced, rfl, ?_⟩
        intro _ _ same
        cases same
        exact clock
      · cases taken
  | move index move =>
      rcases Option.bind_eq_some_iff.mp taken with ⟨loop, _, moved⟩
      have called : ∀ {frame : Frame Val} {waiting : Nat → Loop Val},
          cluster.calls index frame waiting = some next →
          ∃ engine, cluster.sys.step engine = some next.sys ∧ next.now = cluster.now ∧
            ∀ call env, engine = .advance call env → cluster.onTime engine env = true := by
        intro frame waiting isNext
        rcases Option.map_eq_some_iff.mp isNext with ⟨later, invoked, rfl⟩
        exact ⟨_, invoked, rfl, fun _ _ absurdity => by cases absurdity⟩
      unfold Cluster.moved at moved
      split at moved
      · split at moved
        · cases moved
          exact .inl ⟨rfl, le_refl _⟩
        · cases moved
      · exact .inr (called moved)
      · cases moved
        exact .inl ⟨rfl, le_refl _⟩
      · cases moved
        exact .inl ⟨rfl, le_refl _⟩
      · exact .inr (called moved)
      · cases moved
        exact .inl ⟨rfl, le_refl _⟩
      · cases moved
        exact .inl ⟨rfl, le_refl _⟩
      · cases moved

namespace Sys

variable {sys next : Sys Val} {action : Action Val} {label : Option (Reply Val)}

omit [Mixed Val] in
theorem news_of_log (log : next.log = label.toList ++ sys.log) : sys.news next = label.toList := by
  rw [news, log, List.length_append, Nat.add_sub_cancel, List.take_left]

omit [Mixed Val] in
theorem news_self : sys.news sys = [] := by
  rw [news, Nat.sub_self, List.take_zero]

/-- A confirmed lease is that of the RUNNING task. -/
theorem Stepped.confirmed (stepped : sys.Stepped action next label) {taskId : TaskId}
    {leaseToken : Nat} (confirms : label.bind Reply.confirms = some (taskId, leaseToken)) :
    ∃ later ∈ next.db.tasks.values, later.id = taskId ∧ later.status = .running ∧
      later.leaseToken = leaseToken ∧ later.leaseExpiresAt.isSome = true := by
  have about : label.bind Reply.about = some taskId := by
    cases label with
    | none => cases confirms
    | some reply =>
        rw [Option.bind_some, Reply.confirms.eq_def] at confirms
        split at confirms
        · cases confirms
          rfl
        · cases confirms
          rfl
        · cases confirms
  rcases stepped.moves_about about with ⟨task, _, isSource, later, laterMem, isTask, moves⟩
  refine ⟨later, laterMem, isTask, ?_⟩
  cases moves with
  | rest unnamed | promoted unnamed | cancelled unnamed =>
      exact absurd (about.trans (congrArg some isSource.symm)) unnamed
  | claimed free =>
      cases confirms
      exact ⟨rfl, rfl, rfl⟩
  | renewed running =>
      cases confirms
      exact ⟨running, rfl, rfl⟩
  | aborted | dispatched | completed | retried | failed | suspended | approved | rejected =>
      cases confirms

/-- The lease of a RUNNING task goes on until it is renewed, until it has run out and the
task is claimed, until the attempt is reported on, or until the run is cancelled. -/
theorem Stepped.lease_cases (stepped : sys.Stepped action next label) {task : Task Val}
    (membership : task ∈ sys.db.tasks.values) (running : task.status = .running) :
    (∃ later ∈ next.db.tasks.values, later.id = task.id ∧ later.status = .running ∧
        later.leaseToken = task.leaseToken ∧ later.leaseExpiresAt = task.leaseExpiresAt) ∨
      label = some (.renewLease task.id task.leaseToken true) ∨
      (∃ claimed, label = some (.claimTask claimed) ∧ claimed.id = task.id) ∨
      label.bind (Reply.appliedTo task.id) = some task.leaseToken ∨
      label = some (.cancelExecution task.executionId true) := by
  rcases stepped.moves membership with
    ⟨later, laterMem, isTask, ⟨rfl, _⟩ | ⟨moves, target⟩⟩
  · exact .inl ⟨later, laterMem, rfl, running, rfl, rfl⟩
  · cases moves with
    | rest => exact .inl ⟨_, laterMem, rfl, running, rfl, rfl⟩
    | promoted _ status | dispatched status | approved status | rejected status =>
        rw [running] at status
        cases status
    | cancelled _ unstarted =>
        rw [running] at unstarted
        cases unstarted
    | @aborted executionId =>
        have isRun : executionId = task.executionId := target executionId rfl
        rw [isRun]
        exact .inr (.inr (.inr (.inr rfl)))
    | claimed => exact .inr (.inr (.inl ⟨_, rfl, rfl⟩))
    | renewed => exact .inr (.inl rfl)
    | completed | retried | failed | suspended =>
        exact .inr (.inr (.inr (.inl (if_pos rfl))))

end Sys

namespace Watch

variable {watch next : Watch Val}

/-- What the deadlines mean. -/
structure Inv (watch : Watch Val) : Prop where
  sys : watch.cluster.sys.Inv
  /-- while a lease is held, it is the lease in the document of the RUNNING task -/
  held : ∀ taskId leaseToken, watch.Holds taskId leaseToken →
    ∃ task ∈ watch.cluster.sys.db.tasks.values, task.id = taskId ∧ task.status = .running ∧
      task.leaseToken = leaseToken ∧ task.leaseExpiresAt = watch.deadline taskId leaseToken
  /-- every claim has been confirmed -/
  claimed : ∀ taskId, ∀ leaseToken ∈ claimsOf taskId watch.cluster.sys.log,
    (watch.deadline taskId leaseToken).isSome = true

theorem inv_init (start : Time) : (init start : Watch Val).Inv := by
  refine ⟨Sys.inv_init, ?_, ?_⟩
  · intro taskId leaseToken holds
    rcases holds.unexpired with ⟨_, absurdity, _⟩
    cases absurdity
  · intro taskId leaseToken absurdity
    cases absurdity

section Engine

variable {engine : Action Val} {later : Sys Val} {label : Option (Reply Val)}

omit [Mixed Val] in
theorem confirmed_of_label (news : watch.cluster.sys.news later = label.toList) (taskId : TaskId)
    (leaseToken : Nat) :
    watch.confirmed later taskId leaseToken =
      if label.bind Reply.confirms = some (taskId, leaseToken) then later.db.leaseExpiresAt taskId
      else watch.deadline taskId leaseToken := by
  rw [confirmed, news]
  cases label with
  | none => rfl
  | some reply =>
      have iff : (taskId, leaseToken) ∈ ([reply] : List (Reply Val)).filterMap Reply.confirms ↔
          reply.confirms = some (taskId, leaseToken) := by
        simp
      simp only [Option.toList_some, Option.bind_some, iff]

/-- A claim is refused while the lease of the task has not run out. -/
theorem Inv.not_claimed {claimed task : Task Val}
    (stepped : watch.cluster.sys.Stepped engine later (some (.claimTask claimed)))
    (clock : ∀ call env, engine = .advance call env → watch.cluster.onTime engine env = true)
    (membership : task ∈ watch.cluster.sys.db.tasks.values) (isTask : claimed.id = task.id)
    (running : task.status = .running) {expiresAt : Time}
    (lease : task.leaseExpiresAt = some expiresAt) : expiresAt < watch.cluster.now := by
  rcases stepped.claimed with
    ⟨call, env, workerId, rfl, isFrame, _, source, sourceMem, isSource, free, _⟩
  have now : env.now = watch.cluster.now := by
    have reading := clock call env rfl
    rw [Cluster.onTime, isFrame, Option.all_some] at reading
    exact of_decide_eq_true reading
  have same : source = task :=
    stepped.inv.db.task_eq_of_id sourceMem membership (isSource.trans isTask)
  rw [same, claimable, running, lease, now] at free
  exact of_decide_eq_true free

theorem Inv.engine_step (inv : watch.Inv)
    (stepped : watch.cluster.sys.Stepped engine later label)
    (clock : ∀ call env, engine = .advance call env → watch.cluster.onTime engine env = true)
    {cluster : Cluster Val} (isLater : cluster.sys = later)
    (now : cluster.now = watch.cluster.now) :
    ({ cluster, deadline := watch.confirmed cluster.sys } : Watch Val).Inv := by
  subst isLater
  have news := Sys.news_of_log stepped.log
  have deadlines := confirmed_of_label news
  refine ⟨stepped.later, ?_, ?_⟩
  · intro taskId leaseToken holds
    rcases holds with ⟨⟨expiresAt, isDeadline, unexpired⟩, unreported, uncancelled⟩
    simp only at isDeadline unexpired unreported uncancelled ⊢
    rw [deadlines] at isDeadline
    by_cases confirms : label.bind Reply.confirms = some (taskId, leaseToken)
    · rcases stepped.confirmed confirms with ⟨task, membership, isTask, running, token, _⟩
      refine ⟨task, membership, isTask, running, token, ?_⟩
      rw [deadlines, if_pos confirms, Db.leaseExpiresAt, ← isTask,
        stepped.later.db.findById_task membership]
      rfl
    · rw [deadlines, if_neg confirms]
      rw [if_neg confirms] at isDeadline
      have earlier : watch.Holds taskId leaseToken := by
        refine ⟨⟨expiresAt, isDeadline, now ▸ unexpired⟩, ?_, ?_⟩
        · intro applied
          apply unreported
          rw [stepped.log, appliedOf, List.filterMap_append]
          exact List.mem_append_right _ applied
        · intro cancelled
          apply uncancelled
          rw [stepped.log]
          exact List.mem_append_right _ cancelled
      rcases inv.held taskId leaseToken earlier with ⟨task, membership, rfl, running, rfl, lease⟩
      rcases stepped.lease_cases membership running with
        ⟨same, sameMem, isTask, still, token, expiry⟩ | rfl | ⟨claimed, rfl, isTask⟩ | applied | rfl
      · exact ⟨same, sameMem, isTask, still, token, expiry.trans lease⟩
      · exact absurd rfl confirms
      · have expired := Inv.not_claimed stepped clock membership isTask running
          (lease.trans isDeadline)
        rw [now] at unexpired
        exact absurd unexpired (not_le.mpr expired)
      · refine absurd ?_ unreported
        rw [stepped.log, appliedOf, List.filterMap_append]
        cases label with
        | none => cases applied
        | some reply => exact List.mem_append_left _ (List.mem_filterMap.mpr ⟨reply, by simp, applied⟩)
      · refine absurd ?_ uncancelled
        rw [stepped.log]
        exact List.mem_append_left _ (List.mem_singleton_self _)
  · intro taskId leaseToken isClaim
    simp only at isClaim ⊢
    rw [deadlines]
    by_cases confirms : label.bind Reply.confirms = some (taskId, leaseToken)
    · rcases stepped.confirmed confirms with ⟨task, membership, isTask, _, _, lease⟩
      rw [if_pos confirms, Db.leaseExpiresAt, ← isTask, stepped.later.db.findById_task membership]
      exact lease
    · rw [if_neg confirms]
      apply inv.claimed
      rw [stepped.log, claimsOf, List.filterMap_append] at isClaim
      rcases List.mem_append.mp isClaim with new | old
      · refine absurd ?_ confirms
        rcases List.mem_filterMap.mp new with ⟨reply, replyMem, claims⟩
        cases Option.mem_toList.mp replyMem
        rw [Reply.claimOf.eq_def] at claims
        split at claims
        · split at claims
          · next same =>
            cases claims
            rw [← same]
            rfl
          · cases claims
        · cases claims
      · exact old

end Engine

theorem Inv.step (inv : watch.Inv) {action : Cluster.Action Val}
    (taken : watch.step action = some next) : next.Inv := by
  rcases Option.map_eq_some_iff.mp taken with ⟨cluster, moved, rfl⟩
  rcases Cluster.step_engine moved with ⟨same, now⟩ | ⟨engine, stepped, now, clock⟩
  · have news : watch.cluster.sys.news cluster.sys = [] := by
      rw [same]
      exact Sys.news_self
    have deadlines : watch.confirmed cluster.sys = watch.deadline := by
      funext taskId leaseToken
      rw [confirmed, news]
      rfl
    rw [deadlines]
    refine ⟨same ▸ inv.sys, ?_, ?_⟩
    · intro taskId leaseToken holds
      rcases holds with ⟨⟨expiresAt, isDeadline, unexpired⟩, unreported, uncancelled⟩
      simp only at isDeadline unexpired unreported uncancelled ⊢
      rw [same] at unreported uncancelled ⊢
      exact inv.held taskId leaseToken
        ⟨⟨expiresAt, isDeadline, le_trans now unexpired⟩, unreported, uncancelled⟩
    · simp only
      rw [same]
      exact inv.claimed
  · rcases inv.sys.stepped stepped with ⟨label, stepped⟩
    exact inv.engine_step stepped clock rfl now

end Watch

end WorkflowEngine
