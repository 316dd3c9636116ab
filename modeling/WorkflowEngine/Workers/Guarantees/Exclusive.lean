import WorkflowEngine.Workers.Leases
import WorkflowEngine.Workflow.Guarantees.Budget

/-!
# Handlers run alone

A call of `startTask` is answered to one loop, and no two calls return one attempt.  So
no two handlers of a task run at once while both of their workers hold their leases.  A
worker that has lost its lease may run on for a while: then the fencing token keeps its
reports out.
-/

namespace WorkflowEngine

open DocStore Queues

variable {Val : Type} [Mixed Val]

/-! ## Loops that run handlers -/

omit [Mixed Val] in
/-- A claim and the return of its task are logged once. -/
theorem startedOf_cons (popped : TaskId) (started : Started Val) (log : List (Reply Val)) :
    startedOf started.task.id (.startTask popped (some started) :: log) =
      started.task.leaseToken :: startedOf started.task.id log :=
  List.filterMap_cons_some (if_pos rfl)

/-- A call of `startTask` does not return the attempt of another one. -/
theorem started_fresh {sys : Sys Val} (reachable : (engineSystem Val).Reachable sys)
    {popped : TaskId} {started : Started Val} {log : List (Reply Val)}
    (isLog : sys.log = .startTask popped (some started) :: log) :
    started.task.leaseToken ∉ startedOf started.task.id log := by
  have inv := Sys.inv_of_reachableBy reachable
  have replied : .startTask popped (some started) ∈ sys.log := by
    rw [isLog]
    exact List.mem_cons_self
  rcases (inv.replies _ replied).2.claimed.current with ⟨task, membership, evolves⟩
  have isTask : task.id = started.task.id := evolves.id_eq
  have claims : (claimsOf started.task.id sys.log).Nodup := by
    rw [← isTask, (Sys.recorded reachable membership).claims]
    exact List.nodup_reverse.mpr List.nodup_range'
  have once := List.nodup_iff_count_le_one.mp claims started.task.leaseToken
  have held := Sys.ticketed_of_reachableBy reachable started.task.id started.task.leaseToken
  rw [Sys.holders, isLog, startedOf_cons, List.count_cons_self, ← isLog] at held
  intro again
  have positive := List.count_pos_iff.mpr again
  omega

/-- What only one loop may have: a call that it waits for, or an attempt whose handler it
runs. -/
inductive Tag where
  | call (call : Nat)
  | attempt (taskId : TaskId) (leaseToken : Nat)
  deriving DecidableEq

def Loop.tag? : Loop Val → Option Tag
  | .starting _ pending => some (.call pending)
  | .reporting _ pending => some (.call pending)
  | .running _ started => some (.attempt started.task.id started.task.leaseToken)
  | _ => none

/-- The call was made, or the attempt was returned by `startTask`. -/
def Tag.Known (sys : Sys Val) : Tag → Prop
  | .call index => index < sys.calls.length
  | .attempt taskId leaseToken => leaseToken ∈ startedOf taskId sys.log

omit [Mixed Val] in
theorem Tag.Known.later {sys later : Sys Val} {tag : Tag} (known : tag.Known sys)
    (calls : sys.calls.length ≤ later.calls.length) (log : sys.log <:+ later.log) :
    tag.Known later := by
  cases tag with
  | call index => exact Nat.lt_of_lt_of_le (show index < sys.calls.length from known) calls
  | attempt taskId leaseToken => exact (log.filterMap (Reply.startedOf taskId)).subset known

namespace Cluster

variable {cluster next : Cluster Val}

/-- What the loop at this place has. -/
def tagAt (cluster : Cluster Val) (index : Nat) : Option Tag :=
  cluster.loops[index]?.bind Loop.tag?

/-- No two loops wait for one call, and no two run a handler for one attempt. -/
structure Handed (cluster : Cluster Val) : Prop where
  known : ∀ index tag, cluster.tagAt index = some tag → tag.Known cluster.sys
  alone : ∀ index other tag, cluster.tagAt index = some tag → cluster.tagAt other = some tag →
    index = other

omit [Mixed Val] in
theorem handed_init (start : Time) : (init start : Cluster Val).Handed := by
  constructor
  · intro index tag absurdity
    cases absurdity
  · intro index other tag absurdity
    cases absurdity

omit [Mixed Val] in
/-- At most one loop takes something new. -/
theorem Handed.taken (handed : cluster.Handed) (index : Nat)
    (kept : ∀ tag : Tag, tag.Known cluster.sys → tag.Known next.sys)
    (others : ∀ other, other ≠ index → ∀ tag, next.tagAt other = some tag →
      cluster.tagAt other = some tag)
    (fresh : ∀ tag, next.tagAt index = some tag →
      cluster.tagAt index = some tag ∨ tag.Known next.sys ∧ ¬ tag.Known cluster.sys) :
    next.Handed := by
  have before : ∀ other tag, next.tagAt other = some tag → tag.Known cluster.sys →
      cluster.tagAt other = some tag := by
    intro other tag has known
    by_cases same : other = index
    · subst same
      rcases fresh tag has with had | ⟨_, unknown⟩
      · exact had
      · exact absurd known unknown
    · exact others other same tag has
  constructor
  · intro other tag has
    by_cases same : other = index
    · subst same
      rcases fresh tag has with had | ⟨known, _⟩
      · exact kept tag (handed.known other tag had)
      · exact known
    · exact kept tag (handed.known other tag (others other same tag has))
  · intro left right tag leftHas rightHas
    by_cases known : tag.Known cluster.sys
    · exact handed.alone left right tag (before left tag leftHas known)
        (before right tag rightHas known)
    · -- something new is at one place only
      have place : ∀ other, next.tagAt other = some tag → other = index := by
        intro other has
        by_contra different
        exact known (handed.known other tag (others other different tag has))
      exact (place left leftHas).trans (place right rightHas).symm

omit [Mixed Val] in
theorem tagAt_set {index : Nat} {loop : Loop Val} (loops : next.loops = cluster.loops.set index loop)
    {other : Nat} (different : other ≠ index) : next.tagAt other = cluster.tagAt other := by
  rw [tagAt, tagAt, loops, List.getElem?_set_ne different.symm]

omit [Mixed Val] in
theorem tagAt_self {index : Nat} {loop : Loop Val} (loops : next.loops = cluster.loops.set index loop)
    {tag : Tag} (has : next.tagAt index = some tag) : loop.tag? = some tag := by
  rw [tagAt, loops, List.getElem?_set_self'] at has
  cases found : cluster.loops[index]? with
  | none =>
      rw [found] at has
      cases has
  | some old =>
      rw [found] at has
      exact has

omit [Mixed Val] in
theorem Handed.set (handed : cluster.Handed) {index : Nat} {loop : Loop Val}
    (loops : next.loops = cluster.loops.set index loop)
    (kept : ∀ tag : Tag, tag.Known cluster.sys → tag.Known next.sys)
    (fresh : ∀ tag, loop.tag? = some tag → tag.Known next.sys ∧ ¬ tag.Known cluster.sys) :
    next.Handed := by
  apply handed.taken index kept
  · intro other different tag has
    rw [← tagAt_set loops different]
    exact has
  · exact fun tag has => .inr (fresh tag (tagAt_self loops has))

omit [Mixed Val] in
/-- No loop takes anything. -/
theorem Handed.same (handed : cluster.Handed)
    (kept : ∀ tag : Tag, tag.Known cluster.sys → tag.Known next.sys)
    (tags : ∀ index tag, next.tagAt index = some tag → cluster.tagAt index = some tag) :
    next.Handed := by
  apply handed.taken 0 kept
  · exact fun other _ tag has => tags other tag has
  · exact fun tag has => .inl (tags 0 tag has)

/-- A loop calls the engine. -/
theorem Handed.calls (handed : cluster.Handed) {index : Nat} {frame : Frame Val}
    {waiting : Nat → Loop Val} (waits : ∀ call, (waiting call).tag? = some (.call call))
    (taken : cluster.calls index frame waiting = some next) : next.Handed := by
  rcases Option.map_eq_some_iff.mp taken with ⟨later, invoked, rfl⟩
  have took := Sys.took_of_step invoked
  cases took with
  | invoke isCall =>
      refine handed.set rfl ?_ ?_
      · intro tag known
        apply known.later
        · simp
        · exact List.suffix_refl _
      · intro tag has
        rw [waits] at has
        cases has
        constructor
        · simp [Tag.Known]
        · simp [Tag.Known]

omit [Mixed Val] in
theorem resumed_of_tag {loop : Loop Val} {call : Nat} {reply : Option (Reply Val)}
    (other : loop.tag? ≠ some (.call call)) : loop.resumed call reply = loop := by
  apply resumed_of_other
  intro waits
  apply other
  cases loop with
  | starting | reporting =>
      cases waits
      rfl
  | polling | claimed | running | finishing => cases waits

omit [Mixed Val] in
/-- A loop whose call has ended takes an attempt, or nothing. -/
theorem resumed_tag {loop : Loop Val} {call : Nat} {reply : Option (Reply Val)} {tag : Tag}
    (waits : loop.tag? = some (.call call)) (has : (loop.resumed call reply).tag? = some tag) :
    ∃ popped started, reply = some (.startTask popped (some started)) ∧
      tag = .attempt started.task.id started.task.leaseToken := by
  cases loop with
  | polling | claimed | running | finishing => cases waits
  | starting popped pending =>
      cases waits
      simp only [Loop.resumed, if_true] at has
      split at has
      · cases has
        exact ⟨_, _, rfl, rfl⟩
      · cases has
      · cases has
  | reporting popped pending =>
      cases waits
      simp only [Loop.resumed, if_true] at has
      split at has
      · cases has
      · cases has

/-- The loop that waited for a call gets what the call returned. -/
theorem Handed.advanced (handed : cluster.Handed)
    (reachable : (engineSystem Val).Reachable cluster.sys) {call : Nat} {env : Env}
    {later : Sys Val} (taken : cluster.sys.step (.advance call env) = some later) :
    (cluster.advanced call env later).Handed := by
  have inv := Sys.inv_of_reachableBy reachable
  have laterReachable : (engineSystem Val).Reachable later := by
    have isStep : (engineSystem Val).step cluster.sys (.advance call env) = some later := taken
    exact .step reachable trivial isStep
  rcases inv.stepped taken with ⟨label, stepped⟩
  have length : cluster.sys.calls.length = later.calls.length := by
    have took := stepped.took
    cases took with
    | ran => exact (List.length_set ..).symm
    | threw => exact (List.length_set ..).symm
  have log : cluster.sys.log <:+ later.log := by
    rw [stepped.log]
    exact List.suffix_append _ _
  have kept : ∀ tag : Tag, tag.Known cluster.sys → tag.Known later :=
    fun tag known => known.later (Nat.le_of_eq length) log
  have news : later.log.take (later.log.length - cluster.sys.log.length) = label.toList :=
    Sys.news_of_log stepped.log
  by_cases ended : later.calls[call]?.any List.isEmpty = true
  · have loops : (cluster.advanced call env later).loops =
        cluster.loops.map (Loop.resumed call label.toList.head?) := by
      simp only [Cluster.advanced, ended, news, if_true]
    have tags : ∀ index tag, (cluster.advanced call env later).tagAt index = some tag →
        ∃ loop, cluster.loops[index]? = some loop ∧
          (loop.resumed call label.toList.head?).tag? = some tag := by
      intro index tag has
      rw [tagAt, loops, List.getElem?_map] at has
      cases found : cluster.loops[index]? with
      | none =>
          rw [found] at has
          cases has
      | some loop =>
          rw [found] at has
          exact ⟨loop, rfl, has⟩
    have stays : ∀ index, cluster.tagAt index ≠ some (.call call) → ∀ tag,
        (cluster.advanced call env later).tagAt index = some tag →
          cluster.tagAt index = some tag := by
      intro index other tag has
      rcases tags index tag has with ⟨loop, found, has⟩
      have isTag : cluster.tagAt index = loop.tag? := by
        rw [tagAt, found]
        rfl
      rw [isTag] at other ⊢
      rwa [resumed_of_tag other] at has
    by_cases waited : ∃ index, cluster.tagAt index = some (.call call)
    · rcases waited with ⟨index, waits⟩
      apply handed.taken index kept
      · intro other different tag has
        apply stays other ?_ tag has
        exact fun also => different (handed.alone other index _ also waits)
      · intro tag has
        right
        rcases tags index tag has with ⟨loop, found, has⟩
        have isTag : loop.tag? = some (.call call) := by
          rw [tagAt, found] at waits
          exact waits
        rcases resumed_tag isTag has with ⟨popped, started, isReply, rfl⟩
        have isLog : later.log = .startTask popped (some started) :: cluster.sys.log := by
          cases label with
          | none => cases isReply
          | some reply =>
              cases isReply
              exact stepped.log
        constructor
        · show started.task.leaseToken ∈ startedOf started.task.id later.log
          rw [isLog, startedOf_cons]
          exact List.mem_cons_self
        · exact started_fresh laterReachable isLog
    · apply handed.same kept
      exact fun index tag has => stays index (fun waits => waited ⟨index, waits⟩) tag has
  · have loops : (cluster.advanced call env later).loops = cluster.loops := by
      simp only [Cluster.advanced, ended]
      rfl
    apply handed.same kept
    intro index tag has
    rw [tagAt, loops] at has
    exact has

theorem Handed.moved (handed : cluster.Handed) {index : Nat} {loop : Loop Val} {move : Move Val}
    (taken : cluster.moved index loop move = some next) : next.Handed := by
  have untagged : ∀ {loop : Loop Val} {queue : Queue TaskId}, loop.tag? = none →
      ({ cluster with queue, loops := cluster.loops.set index loop } : Cluster Val).Handed := by
    intro loop queue none
    refine handed.set rfl (fun _ known => known) ?_
    intro tag has
    rw [none] at has
    cases has
  have served : ∀ {queue : Queue TaskId}, ({ cluster with queue } : Cluster Val).Handed := by
    intro queue
    exact handed.same (fun _ known => known) fun _ _ has => has
  unfold Cluster.moved at taken
  split at taken
  · split at taken
    · cases taken
      exact untagged rfl
    · cases taken
  · exact handed.calls (fun _ => rfl) taken
  · cases taken
    exact served
  · cases taken
    exact served
  · exact handed.calls (fun _ => rfl) taken
  · cases taken
    exact untagged rfl
  · cases taken
    exact untagged rfl
  · cases taken

theorem Handed.step (handed : cluster.Handed)
    (reachable : (engineSystem Val).Reachable cluster.sys) {action : Action Val}
    (taken : cluster.step action = some next) : next.Handed := by
  cases action with
  | tick | requeueExpired | promoteDue =>
      cases taken
      exact handed.same (fun _ known => known) fun _ _ has => has
  | spawn =>
      cases taken
      refine handed.same (fun _ known => known) ?_
      intro index tag has
      rw [tagAt] at has ⊢
      by_cases old : index < cluster.loops.length
      · rwa [List.getElem?_append_left old] at has
      · rw [List.getElem?_append_right (not_lt.mp old)] at has
        cases found : ([.polling] : List (Loop Val))[index - cluster.loops.length]? with
        | none =>
            rw [found] at has
            cases has
        | some loop =>
            rw [found] at has
            rw [List.mem_singleton.mp (List.mem_of_getElem? found)] at has
            cases has
  | invoke frame =>
      change (if _ then _ else _) = some next at taken
      split at taken
      · cases taken
      · rcases Option.map_eq_some_iff.mp taken with ⟨later, invoked, rfl⟩
        have took := Sys.took_of_step invoked
        cases took with
        | invoke =>
            refine handed.same ?_ fun _ _ has => has
            intro tag known
            apply known.later
            · simp
            · exact List.suffix_refl _
  | crash call =>
      simp only [Cluster.step] at taken
      rcases Option.map_eq_some_iff.mp taken with ⟨later, crashed, rfl⟩
      have took := Sys.took_of_step crashed
      cases took with
      | crash =>
          refine handed.same ?_ fun _ _ has => has
          intro tag known
          apply known.later
          · simp
          · exact List.suffix_refl _
  | advance call env =>
      change (if _ then _ else _) = some next at taken
      split at taken
      · rcases Option.map_eq_some_iff.mp taken with ⟨later, stepped, rfl⟩
        exact handed.advanced reachable stepped
      · cases taken
  | move index move =>
      rcases Option.bind_eq_some_iff.mp taken with ⟨loop, _, moved⟩
      exact handed.moved moved

end Cluster

/-! ## The guarantee -/

namespace Watch

variable {watch next : Watch Val}

/-- Everything that holds of a cluster under watch. -/
structure Sound (watch : Watch Val) : Prop where
  reachable : (engineSystem Val).Reachable watch.cluster.sys
  inv : watch.Inv
  handed : watch.cluster.Handed

theorem Sound.step (sound : watch.Sound) {action : Cluster.Action Val}
    (taken : watch.step action = some next) : next.Sound := by
  have inv := sound.inv.step taken
  rcases Option.map_eq_some_iff.mp taken with ⟨cluster, moved, rfl⟩
  refine ⟨?_, inv, sound.handed.step sound.reachable moved⟩
  rcases Cluster.step_engine moved with ⟨same, _⟩ | ⟨engine, stepped, _⟩
  · simp only
    rw [same]
    exact sound.reachable
  · have isStep : (engineSystem Val).step watch.cluster.sys engine = some cluster.sys := stepped
    exact .step sound.reachable trivial isStep

theorem sound_of_reachable {start : Time} (reachable : (watchSystem Val start).Reachable watch) :
    watch.Sound := by
  apply reachable.invariant
  · exact ⟨.init, inv_init start, Cluster.handed_init start⟩
  · exact fun _ _ _ sound _ taken => sound.step taken

end Watch

/-- The loop at this place runs the handler of this attempt. -/
def Cluster.Runs (cluster : Cluster Val) (index : Nat) (started : Started Val) : Prop :=
  ∃ popped, cluster.loops[index]? = some (.running popped started)

omit [Mixed Val] in
theorem Cluster.Runs.tagAt {cluster : Cluster Val} {index : Nat} {started : Started Val}
    (runs : cluster.Runs index started) :
    cluster.tagAt index = some (.attempt started.task.id started.task.leaseToken) := by
  rcases runs with ⟨popped, found⟩
  rw [Cluster.tagAt, found]
  rfl

/-- A held lease is the lease of the RUNNING task, every loop that runs a handler was once
confirmed a lease, and no two loops run a handler of one task while both of their leases
are held. -/
theorem handlers_exclusive {start : Time} {watch : Watch Val}
    (reachable : (watchSystem Val start).Reachable watch) :
    (∀ taskId leaseToken, watch.Holds taskId leaseToken →
      ∃ task ∈ watch.cluster.sys.db.tasks.values, task.id = taskId ∧ task.status = .running ∧
        task.leaseToken = leaseToken ∧ task.leaseExpiresAt = watch.deadline taskId leaseToken) ∧
    ∀ index first, watch.cluster.Runs index first →
      (watch.deadline first.task.id first.task.leaseToken).isSome = true ∧
      ∀ other second, watch.cluster.Runs other second → second.task.id = first.task.id →
        watch.Holds first.task.id first.task.leaseToken →
          watch.Holds second.task.id second.task.leaseToken → other = index := by
  have sound := Watch.sound_of_reachable reachable
  refine ⟨sound.inv.held, ?_⟩
  intro index first runsFirst
  have firstTag := runsFirst.tagAt
  constructor
  · have started := sound.handed.known index _ firstTag
    have held := Sys.ticketed_of_reachableBy sound.reachable first.task.id first.task.leaseToken
    have positive := List.count_pos_iff.mpr started
    have claimed : 0 < (claimsOf first.task.id watch.cluster.sys.log).count
        first.task.leaseToken := by
      rw [Sys.holders] at held
      omega
    exact sound.inv.claimed _ _ (List.count_pos_iff.mp claimed)
  · intro other second runsSecond sameTask firstHolds secondHolds
    rcases sound.inv.held _ _ firstHolds with ⟨task, membership, isTask, _, token, _⟩
    rcases sound.inv.held _ _ secondHolds with ⟨task', membership', isTask', _, token', _⟩
    have same : task' = task := sound.inv.sys.db.task_eq_of_id membership' membership
      (isTask'.trans (sameTask.trans isTask.symm))
    have sameToken : second.task.leaseToken = first.task.leaseToken := by
      rw [← token, ← token', same]
    have secondTag : watch.cluster.tagAt other =
        some (.attempt first.task.id first.task.leaseToken) := by
      rw [← sameTask, ← sameToken]
      exact runsSecond.tagAt
    exact sound.handed.alone other index _ secondTag firstTag

namespace Schedule

/-- The first loop stalls until both of its leases have run out, and the other one takes the
task over. -/
def stalledLong : List (Cluster.Action Plain) :=
  fetchedOnce ++ [.tick 101, .requeueExpired 100, .move 1 (.claim 10), .move 1 (.startTask "w")] ++
    clusterSteps 2 101 7

/-- The cluster under watch at the end of a schedule. -/
def watched (actions : List (Cluster.Action Plain))
    (runs : ((watchSystem Plain 0).run actions).isSome = true) : Watch Plain :=
  ((watchSystem Plain 0).run actions).get runs

end Schedule

/-- Both loops run the handler, and only the second one holds its lease. -/
theorem handlers_exclusive_stalledLong :
    ∃ watch : Watch Plain,
      watch.cluster.loops.map Loop.tag? =
        [some (.attempt ⟨0, "A"⟩ 1), some (.attempt ⟨0, "A"⟩ 2)] ∧
      watch.deadline ⟨0, "A"⟩ 1 = some 100 ∧ watch.deadline ⟨0, "A"⟩ 2 = some 201 ∧
      watch.cluster.now = 101 ∧
      ∀ index first, watch.cluster.Runs index first →
        (watch.deadline first.task.id first.task.leaseToken).isSome = true ∧
        ∀ other second, watch.cluster.Runs other second → second.task.id = first.task.id →
          watch.Holds first.task.id first.task.leaseToken →
            watch.Holds second.task.id second.task.leaseToken → other = index := by
  refine ⟨Schedule.watched Schedule.stalledLong (by decide), ?_, ?_, ?_, ?_, ?_⟩
  · decide
  · decide
  · decide
  · decide
  · exact (handlers_exclusive (Transition.System.get_run_reachable (watchSystem Plain 0)
      Schedule.stalledLong (by decide))).2

end WorkflowEngine
