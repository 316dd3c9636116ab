import WorkflowEngine.Scheduler.Ticks

/-!
# One run per slot, moving forward

Two runs of one slot would have one key.  A tick moves a schedule on from the slot that it
has handled, to a slot after it and after its reading of the clock.

A schedule that a user has replaced since the tick has read it can still be at the slot
that was handled: `setSchedule` reads the clock before it writes, and a tick may read the
clock and the workflow in between.
-/

namespace WorkflowEngine

open DocStore

variable {Val : Type}

/-- A user has replaced or cleared the schedule of the workflow. -/
def Answered.schedules (id : ObjectId) : Answered Val → Bool
  | ⟨.setSchedule _ other _, .ok (.workflow _)⟩ | ⟨.clearSchedule _ other, .ok (.workflow _)⟩ =>
      other == id
  | _ => false

/-- The requests that were answered since the log was this long. -/
def recent (log : List (Answered Val)) (seen : Nat) : List (Answered Val) :=
  log.take (log.length - seen)

theorem recent_append {more log : List (Answered Val)} {seen : Nat} (older : seen ≤ log.length) :
    recent (more ++ log) seen = more ++ recent log seen := by
  rw [recent, List.length_append, Nat.add_sub_assoc older, List.take_length_add_append]
  rfl

/-- A `setSchedule` is about to write a slot that is not after the one at which a tick in
progress has read the workflow, so it has read the clock before that tick. -/
def Platform.belated (platform : Platform Val) : Platform.Action Val → Bool
  | .perform index _ =>
      match platform.jobs[index]? with
      | some ⟨_, .ready (.replaceSchedule user id schedule)⟩ =>
          (platform.workflows.findById id).any (fun stored =>
              inScope (ownerScope user) stored.ownerId) &&
            platform.jobs.any fun job => job.tick?.any fun tick => tick.dues.any fun due =>
              due.workflow.id == id && decide (schedule.nextRunAt ≤ due.schedule.nextRunAt)
      | _ => false
  | _ => false

/-- A stored workflow after a step of the scheduler. -/
inductive Platform.Advances (platform : Platform Val) (action : Platform.Action Val)
    (stored : WorkflowDocument Val) : WorkflowDocument Val → Prop where
  | same : Advances platform action stored stored
  | advanced {index : Nat} {env : Env} {tick : Tick Val} {lastError : Option String}
      {handled moved : WorkflowSchedule Val} :
      action = .perform index env →
      platform.jobs[index]? = some ⟨.runDue, .ready (.advance tick lastError)⟩ →
      tick.due.workflow.id = stored.id → stored.schedule = some handled →
      handled.nextRunAt = tick.due.schedule.nextRunAt →
      tick.due.schedule.nextRunAt < moved.nextRunAt → tick.current < moved.nextRunAt →
      (∀ answered ∈ recent platform.log tick.seen, answered.schedules stored.id = false) →
      Advances platform action stored { stored with schedule := some moved }

/-- The scheduler takes the step. -/
def Platform.ofScheduler (platform : Platform Val) (action : Platform.Action Val) : Bool :=
  match platform.request? action with
  | some .runDue => true
  | _ => false

/-- At most one run per slot, and the scheduler moves schedules forward only, from the slot
that it has handled, and not when a user has edited them since it has read them. -/
structure OneRunPerSlot [Mixed Val] [ToJson Val] (deployment : Deployment)
    (platform : Platform Val) : Prop where
  unique : ∀ workflowId slot, ∀ left ∈ platform.sys.db.executions.values,
    ∀ right ∈ platform.sys.db.executions.values,
      left.idempotencyKey = some (slotKey workflowId slot) →
        right.idempotencyKey = some (slotKey workflowId slot) → left = right
  forward : ∀ action next, platform.step deployment action = some next →
    platform.ofScheduler action = true → ∀ stored ∈ platform.workflows.values,
      ∃ after ∈ next.workflows.values, platform.Advances action stored after

/-- A schedule that was edited since a tick has read the workflow is ahead of the slot that
was read. -/
def Platform.Ahead (platform : Platform Val) : Prop :=
  ∀ tick, platform.Ticking tick → ∀ due ∈ tick.dues, ∀ answered ∈ recent platform.log tick.seen,
    answered.schedules due.workflow.id = true → ∀ stored ∈ platform.workflows.values,
      stored.id = due.workflow.id → ∀ schedule, stored.schedule = some schedule →
        due.schedule.nextRunAt < schedule.nextRunAt

variable {deployment : Deployment} {versions : Versions Val} {platform next : Platform Val}

theorem Answered.schedules_eq_true {id : ObjectId} {answered : Answered Val}
    (isScheduled : answered.schedules id = true) :
    ((∃ user body, answered.request = .setSchedule user id body) ∨
        ∃ user, answered.request = .clearSchedule user id) ∧
      ∃ workflow, answered.answer = .ok (.workflow workflow) := by
  unfold schedules at isScheduled
  split at isScheduled
  · cases beq_iff_eq.mp isScheduled
    exact ⟨.inl ⟨_, _, rfl⟩, _, rfl⟩
  · cases beq_iff_eq.mp isScheduled
    exact ⟨.inr ⟨_, rfl⟩, _, rfl⟩
  · cases isScheduled

theorem Answered.silent.schedules_eq_false {answered : Answered Val} (silent : answered.silent)
    {id : ObjectId} : answered.schedules id = false := by
  cases isScheduled : answered.schedules id with
  | false => rfl
  | true =>
      rcases schedules_eq_true isScheduled with ⟨_, workflow, reports⟩
      exact absurd reports (silent workflow)

/-- An operation whose answer reports a new schedule edits that workflow. -/
theorem Operation.Ok.schedules {request : Request Val} {operation : Operation Val}
    (ok : operation.Ok deployment versions platform request) {goal : Next Val}
    {answered : Answered Val} (membership : answered ∈ goal.answered request) {id : ObjectId}
    (isScheduled : answered.schedules id = true) :
    ((∃ user body, request = .setSchedule user id body) ∨
        ∃ user, request = .clearSchedule user id) ∧
      operation.target? = some id ∧ ∃ answer, goal = .answer (.ok answer) := by
  rcases Answered.schedules_eq_true isScheduled with ⟨isRequest, workflow, reports⟩
  cases goal with
  | operation | call => cases membership
  | answer result =>
      cases List.mem_singleton.mp membership
      have named : operation.target? = some id := by
        cases operation with
        | first other =>
            cases (show other = request from ok)
            rcases isRequest with ⟨user, body, rfl⟩ | ⟨user, rfl⟩
            · rfl
            · rfl
        | replaceSchedule =>
            rcases ok with ⟨_, _, rfl, _⟩
            rcases isRequest with ⟨user, body, same⟩ | ⟨user, absurdity⟩
            · cases same
              rfl
            · cases absurdity
        | explainConflict =>
            rcases ok with ⟨_, rfl⟩
            rcases isRequest with ⟨_, _, absurdity⟩ | ⟨_, absurdity⟩ <;> cases absurdity
        | findExisting | findDue | advance =>
            rcases ok with ⟨rfl, _⟩
            rcases isRequest with ⟨_, _, absurdity⟩ | ⟨_, absurdity⟩ <;> cases absurdity
        | rereadExecution =>
            rcases ok with ⟨_, _, _, rfl⟩
            rcases isRequest with ⟨_, _, absurdity⟩ | ⟨_, absurdity⟩ <;> cases absurdity
        | findTasks =>
            rcases ok with ⟨_, _, rfl⟩
            rcases isRequest with ⟨_, _, absurdity⟩ | ⟨_, absurdity⟩ <;> cases absurdity
        | recordDecision =>
            rcases ok with ⟨_, rfl⟩
            rcases isRequest with ⟨_, _, absurdity⟩ | ⟨_, absurdity⟩ <;> cases absurdity
        | rereadApproval =>
            rcases ok with ⟨_, _, _, _, rfl⟩
            rcases isRequest with ⟨_, _, absurdity⟩ | ⟨_, absurdity⟩ <;> cases absurdity
      exact ⟨isRequest, named, .workflow workflow, congrArg Next.answer reports⟩

/-- What a tick in progress has read. -/
theorem Platform.Inv.tick [Mixed Val] [ToJson Val] (inv : platform.Inv deployment versions)
    {tick : Tick Val} (ticking : platform.Ticking tick) : tick.Ok versions platform := by
  rcases ticking with ⟨⟨request, state⟩, membership, isTick⟩
  have ok := inv.jobs _ membership
  cases state with
  | ended => cases isTick
  | ready operation =>
      cases operation with
      | advance =>
          cases isTick
          exact ok.2
      | _ => cases isTick
  | waiting waiting call reply =>
      cases waiting with
      | slot =>
          cases isTick
          rcases ok with ⟨_, _, _, asks, _⟩
          exact asks.2.1
      | _ => cases isTick

/-- The slot that a schedule is moved on to. -/
theorem advancement_set (parser : CronParser) (current : Time) (read : WorkflowSchedule Val)
    (lastError : Option String) {stored : WorkflowDocument Val} {handled : WorkflowSchedule Val}
    (attached : stored.schedule = some handled) :
    ∃ moved, (advancement parser current read lastError).set stored =
        { stored with schedule := some moved } ∧
      read.nextRunAt < moved.nextRunAt ∧ current < moved.nextRunAt := by
  have later : read.nextRunAt ≤
        (if read.nextRunAt > current then read.nextRunAt else current) ∧
      current ≤ (if read.nextRunAt > current then read.nextRunAt else current) := by
    split
    · next after => exact ⟨Int.le_refl _, Int.le_of_lt after⟩
    · next past => exact ⟨Int.not_lt.mp past, Int.le_refl _⟩
  rcases stored with ⟨workflow, name, description, schedule⟩
  cases attached
  refine ⟨_, rfl, ?_, ?_⟩
  · exact Int.lt_of_le_of_lt later.1 (parser.lt_next read.cron _ read.timezone)
  · exact Int.lt_of_le_of_lt later.2 (parser.lt_next read.cron _ read.timezone)

/-- A schedule that is written in time is ahead of every slot that was read. -/
theorem Platform.punctual_slot {index : Nat} {env : Env} {request : Request Val} {user : User}
    {stored : WorkflowDocument Val} {schedule : WorkflowSchedule Val}
    (punctual : platform.belated (.perform index env) = false)
    (found : platform.jobs[index]? =
      some ⟨request, .ready (.replaceSchedule user stored.id schedule)⟩)
    (nodup : platform.workflows.ids.Nodup) (storedMem : stored ∈ platform.workflows.values)
    (owned : inScope (ownerScope user) stored.ownerId = true) {tick : Tick Val}
    (ticking : platform.Ticking tick) {due : Due Val} (dueMem : due ∈ tick.dues)
    (isId : stored.id = due.workflow.id) :
    due.schedule.nextRunAt < schedule.nextRunAt := by
  have search : platform.workflows.findById stored.id = some stored :=
    (Collection.findById_eq_some nodup).mpr ⟨storedMem, rfl⟩
  simp only [belated, found, search, Option.any_some, owned, Bool.true_and] at punctual
  rcases ticking with ⟨job, jobMem, isTick⟩
  have noTick := List.any_eq_false.mp punctual job jobMem
  simp only [isTick, Option.any_some] at noTick
  have notDue := List.any_eq_false.mp (Bool.not_eq_true _ ▸ noTick) due dueMem
  rw [Bool.and_eq_true, not_and] at notDue
  have ahead := notDue (beq_iff_eq.mpr isId.symm)
  exact Int.not_le.mp fun late => ahead (decide_eq_true late)

/-- A `setSchedule` that writes too late has read the clock before a tick that is still in
progress. -/
theorem Platform.Inv.belated_reads [Mixed Val] [ToJson Val] (inv : platform.Inv deployment versions)
    {action : Platform.Action Val} (belated : platform.belated action = true) :
    ∃ index env user id body read tick, action = .perform index env ∧
      platform.jobs[index]? = some ⟨.setSchedule user id body,
        .ready (.replaceSchedule user id (newSchedule deployment.cron read body))⟩ ∧
      platform.Ticking tick ∧ read < tick.current := by
  unfold Platform.belated at belated
  split at belated
  · next index env =>
    split at belated
    · next request user id schedule found =>
      rcases inv.jobs _ (List.mem_of_getElem? found) with ⟨body, read, isRequest, _, isSchedule⟩
      cases isSchedule
      cases isRequest
      rcases List.any_eq_true.mp (Bool.and_eq_true_iff.mp belated).2 with ⟨job, jobMem, isTick⟩
      rcases Option.any_eq_true _ _ |>.mp isTick with ⟨tick, isJob, isDue⟩
      rcases List.any_eq_true.mp isDue with ⟨due, dueMem, behind⟩
      have late := of_decide_eq_true (Bool.and_eq_true_iff.mp behind).2
      have ticking : platform.Ticking tick := ⟨job, jobMem, isJob⟩
      refine ⟨index, env, user, id, body, read, tick, rfl, found, ticking, ?_⟩
      calc read < (newSchedule deployment.cron read body).nextRunAt :=
            deployment.cron.lt_next body.cron read body.timezone
        _ ≤ due.schedule.nextRunAt := late
        _ ≤ tick.current := (inv.tick ticking).slots due dueMem
    · cases belated
  · cases belated

namespace Platform.Ahead

/-- The schedule of a workflow that a tick has read is edited. -/
theorem edited (ahead : platform.Ahead) {tick : Tick Val} (ticking : platform.Ticking tick)
    {due : Due Val} (dueMem : due ∈ tick.dues) {index : Nat} {env : Env} {request : Request Val}
    {operation : Operation Val} {goal : Next Val}
    (found : platform.jobs[index]? = some ⟨request, .ready operation⟩)
    (ok : operation.Ok deployment versions platform request)
    (nodup : platform.workflows.ids.Nodup)
    (punctual : platform.belated (.perform index env) = false)
    {stored after : WorkflowDocument Val} (storedMem : stored ∈ platform.workflows.values)
    (turned : Turned deployment operation goal stored after)
    (isId : stored.id = due.workflow.id) {answered : Answered Val}
    (answeredMem : answered ∈ goal.answered request ++ recent platform.log tick.seen)
    (isScheduled : answered.schedules due.workflow.id = true)
    {schedule : WorkflowSchedule Val} (attached : after.schedule = some schedule) :
    due.schedule.nextRunAt < schedule.nextRunAt := by
  have before : ∀ {old}, answered ∈ recent platform.log tick.seen → stored.schedule = some old →
      due.schedule.nextRunAt < old.nextRunAt := by
    intro old isOld wasAttached
    exact ahead tick ticking due dueMem answered isOld isScheduled stored storedMem isId old
      wasAttached
  cases turned with
  | same silent =>
      rcases List.mem_append.mp answeredMem with new | old
      · rcases ok.schedules new isScheduled with ⟨_, isTarget, answer, answers⟩
        exact absurd answers (silent (isTarget.trans (congrArg some isId.symm)) answer)
      · exact before old attached
  | @scheduled user replacing isOperation owned answers =>
      cases attached
      cases isOperation
      exact punctual_slot punctual found nodup storedMem owned ticking dueMem isId
  | cleared => cases attached
  | replaced isOperation answers =>
      rcases List.mem_append.mp answeredMem with new | old
      · cases isOperation
        cases (show _ = request from ok)
        rcases ok.schedules new isScheduled with ⟨⟨_, _, absurdity⟩ | ⟨_, absurdity⟩, _⟩ <;>
          cases absurdity
      · exact before old attached
  | @advanced earlier lastError handled isOperation isDue wasAttached isSlot =>
      rcases List.mem_append.mp answeredMem with new | old
      · have isRequest := (ok.schedules new isScheduled).1
        cases isOperation
        rcases ok with ⟨rfl, _⟩
        rcases isRequest with ⟨_, _, absurdity⟩ | ⟨_, absurdity⟩ <;> cases absurdity
      · rcases advancement_set deployment.cron earlier.current earlier.due.schedule lastError
          wasAttached with ⟨moved, isSet, grown, _⟩
        rw [isSet] at attached
        cases attached
        rw [← isSlot] at grown
        exact Int.lt_trans (before old wasAttached) grown

theorem step [Mixed Val] [ToJson Val] (ahead : platform.Ahead)
    (inv : platform.Inv deployment versions) {action : Platform.Action Val}
    (moved : Moved deployment platform action next) (punctual : platform.belated action = false) :
    next.Ahead := by
  intro tick ticking due dueMem answered answeredMem isScheduled after afterMem isId schedule
    attached
  rcases inv.ticking moved ticking with ⟨earlier, wasTicking, continues⟩ | ⟨read, _, log⟩
  · have wasDue := continues.dues due dueMem
    have ok := inv.tick wasTicking
    rw [continues.seen] at answeredMem
    cases inv.edits moved with
    | quiet workflows log silent =>
        rw [log, recent_append ok.seen] at answeredMem
        rw [workflows] at afterMem
        rcases List.mem_append.mp answeredMem with new | old
        · rw [(silent answered new).schedules_eq_false] at isScheduled
          cases isScheduled
        · exact ahead earlier wasTicking due wasDue answered old isScheduled after afterMem isId
            schedule attached
    | @edited index env request operation goal _ image added found operationOk log turns =>
        rw [log, recent_append ok.seen] at answeredMem
        rw [turns.values] at afterMem
        rcases List.mem_append.mp afterMem with old | new
        · rcases List.mem_map.mp old with ⟨stored, storedMem, rfl⟩
          have turned := turns.turned stored storedMem
          rw [turned.id_eq] at isId
          exact ahead.edited wasTicking wasDue found operationOk inv.nodup punctual storedMem turned
            isId answeredMem isScheduled attached
        · rcases (ok.known due wasDue).stored with ⟨stored, storedMem, sameId, _⟩
          apply absurd _ (turns.fresh after new).1
          rw [isId, ← sameId]
          exact Collection.mem_ids.mpr ⟨stored, storedMem, rfl⟩
  · rw [log, read.seen, recent, Nat.sub_self] at answeredMem
    cases answeredMem

theorem of_reachableBy [Mixed Val] [ToJson Val] {library : Library Val} {start : Time}
    (reachable : (platformSystem Val deployment library start).ReachableBy
      (fun platform action => platform.belated action = false) platform) : platform.Ahead := by
  induction reachable with
  | init =>
      rintro tick ⟨job, absurdity, _⟩
      cases absurdity
  | step before punctual taken ih =>
      rcases Platform.inv_of_reachableBy before with ⟨_, inv⟩
      exact ih.step inv (Platform.moved_of_step taken) punctual

end Platform.Ahead

/-! ## The guarantee -/

/-- Two runs with the key of one slot are one run. -/
theorem Platform.Inv.slot_unique [Mixed Val] [ToJson Val] (inv : platform.Inv deployment versions)
    {workflowId : ObjectId} {slot : Time} {left right : WorkflowExecution Val}
    (leftMem : left ∈ platform.sys.db.executions.values)
    (rightMem : right ∈ platform.sys.db.executions.values)
    (leftKey : left.idempotencyKey = some (slotKey workflowId slot))
    (rightKey : right.idempotencyKey = some (slotKey workflowId slot)) : left = right := by
  -- A client's key is not a slot's, so the owner of the workflow has triggered both.
  have owned : ∀ execution ∈ platform.sys.db.executions.values,
      execution.idempotencyKey = some (slotKey workflowId slot) →
        ∃ stored ∈ platform.workflows.values, stored.id = workflowId ∧
          execution.triggeredBy = some stored.ownerId := by
    intro execution membership isKey
    rcases inv.provenance.runs execution membership with ⟨params, issued, env, shape, _⟩
    have key : params.idempotencyKey = some (slotKey workflowId slot) :=
      (congrArg ExecutionShape.idempotencyKey shape).symm.trans isKey
    have user : execution.triggeredBy = params.triggeredBy :=
      congrArg ExecutionShape.triggeredBy shape
    cases issued with
    | @run _ _ _ client _ _ =>
        cases client with
        | none => cases key
        | some client => exact absurd (Option.some.inj key) (client.ne_slotKey workflowId slot)
    | @slot due known =>
        have sameWorkflow := slotKey_workflow (Option.some.inj key)
        rcases known.stored with ⟨stored, storedMem, isId, owner, _⟩
        exact ⟨stored, storedMem, isId.trans sameWorkflow, user.trans (congrArg some owner.symm)⟩
  rcases owned left leftMem leftKey with ⟨stored, storedMem, isId, leftUser⟩
  rcases owned right rightMem rightKey with ⟨stored', storedMem', isId', rightUser⟩
  cases Collection.value_eq_of_id_eq inv.nodup storedMem storedMem' (isId.trans isId'.symm)
  apply inv.provenance.unique left leftMem right rightMem
  apply clash_iff.mpr
  rw [leftKey, rightKey, leftUser, rightUser]
  exact ⟨rfl, rfl, rfl⟩

theorem Platform.request_of_ofScheduler {index : Nat} {env : Env} {request : Request Val}
    {state : JobState Val} (found : platform.jobs[index]? = some ⟨request, state⟩)
    (isTick : platform.ofScheduler (.perform index env) = true) : request = .runDue := by
  rw [ofScheduler, request?, found] at isTick
  cases request with
  | runDue => rfl
  | _ => cases isTick

/-- In every state of every schedule whose edits of schedules are written in time. -/
theorem one_run_per_slot [Mixed Val] [ToJson Val] {library : Library Val} {start : Time}
    (reachable : (platformSystem Val deployment library start).ReachableBy
      (fun platform action => platform.belated action = false) platform) :
    OneRunPerSlot deployment platform := by
  rcases Platform.inv_of_reachableBy reachable with ⟨versions, inv⟩
  have ahead := Platform.Ahead.of_reachableBy reachable
  refine ⟨?_, ?_⟩
  · intro workflowId slot left leftMem right rightMem leftKey rightKey
    exact inv.slot_unique leftMem rightMem leftKey rightKey
  · intro action next taken isTick stored storedMem
    cases inv.edits (Platform.moved_of_step taken) with
    | quiet workflows =>
        rw [workflows]
        exact ⟨stored, storedMem, .same⟩
    | @edited index env request operation goal _ image added found ok _ turns =>
        refine ⟨image stored, ?_, ?_⟩
        · rw [turns.values]
          exact List.mem_append_left _ (List.mem_map_of_mem storedMem)
        · cases Platform.request_of_ofScheduler found isTick
          have turned := turns.turned stored storedMem
          generalize image stored = after at turned
          cases turned with
          | same => exact .same
          | scheduled isOperation =>
              cases isOperation
              rcases ok with ⟨_, _, absurdity, _⟩
              cases absurdity
          | cleared isOperation | replaced isOperation =>
              cases isOperation
              cases ok
          | @advanced tick lastError handled isOperation isDue attached isSlot =>
              cases isOperation
              rcases advancement_set deployment.cron tick.current tick.due.schedule lastError
                attached with ⟨moved, isSet, grown, later⟩
              rw [isSet]
              refine .advanced rfl found isDue attached isSlot grown later ?_
              intro answered answeredMem
              cases isScheduled : answered.schedules stored.id with
              | false => rfl
              | true =>
                  rw [← isDue] at isScheduled
                  have behind := ahead tick ⟨_, List.mem_of_getElem? found, rfl⟩ tick.due
                    List.mem_cons_self answered answeredMem isScheduled stored storedMem
                    isDue.symm handled attached
                  rw [isSlot] at behind
                  exact absurd behind (Int.lt_irrefl _)

namespace Schedule

/-- At midnight a tick starts the run and moves the schedule on. -/
def ticked : List (Platform.Action Plain) :=
  hourly ++ [.tick 1800000, .submit .runDue, perform 2 13, perform 2 14] ++
    advances 0 [15, 16, 17, 18, 19, 20] ++ [perform 2 21]

/-- The user changes to a daily schedule: the clock is read before midnight, and the write
lands when a tick has started the run of midnight. -/
def replacedLate : List (Platform.Action Plain) :=
  hourly ++ [.submit (.setSchedule user 10 (every "0 0 * * *")), perform 2 13, .tick 1800000,
    .submit .runDue, perform 3 14, perform 3 15] ++
    advances 0 [16, 17, 18, 19, 20, 21] ++ [perform 2 22]

end Schedule

theorem one_run_per_slot_ticked :
    ∃ runs, (Schedule.platformAvoiding Platform.belated Schedule.deployment Schedule.noLibrary
          Schedule.ticked runs).sys.db.executions.ids = [16] ∧
      OneRunPerSlot Schedule.deployment (Schedule.platformAvoiding Platform.belated
        Schedule.deployment Schedule.noLibrary Schedule.ticked runs) :=
  ⟨by decide +kernel, by decide +kernel,
    one_run_per_slot (Schedule.platformAvoiding_reachable _ _ _ _ (by decide +kernel))⟩

/-- The next slots of the workflows. -/
def Platform.slots (platform : Platform Val) : List (Option Time) :=
  platform.workflows.values.map fun workflow => workflow.schedule.map (·.nextRunAt)

/-- The tick moves the daily schedule on as if it were the hourly one. -/
theorem not_one_run_per_slot :
    ¬ ∀ platform, (platformSystem Plain Schedule.deployment Schedule.noLibrary 1800000).Reachable
        platform → OneRunPerSlot Schedule.deployment platform := by
  intro always
  have holds := always _ (Schedule.platformAfter_reachable _ _ Schedule.replacedLate
    (by decide +kernel))
  have before : (Schedule.platformAfter Schedule.deployment Schedule.noLibrary
      Schedule.replacedLate (by decide +kernel)).slots = [some 86400000] := by decide +kernel
  have edited : ((Schedule.platformAfter Schedule.deployment Schedule.noLibrary
      Schedule.replacedLate (by decide +kernel)).jobs[3]?.bind Job.tick?).any (fun tick =>
        (recent (Schedule.platformAfter Schedule.deployment Schedule.noLibrary
          Schedule.replacedLate (by decide +kernel)).log tick.seen).any
            (Answered.schedules tick.due.workflow.id)) = true := by decide +kernel
  have moves : ((Schedule.platformAfter Schedule.deployment Schedule.noLibrary
      Schedule.replacedLate (by decide +kernel)).step Schedule.deployment
        (Schedule.perform 3 23)).any (fun next => next.slots = [some 90000000]) = true := by
    decide +kernel
  have ofScheduler : (Schedule.platformAfter Schedule.deployment Schedule.noLibrary
      Schedule.replacedLate (by decide +kernel)).ofScheduler (Schedule.perform 3 23) = true := by
    decide +kernel
  generalize Schedule.platformAfter Schedule.deployment Schedule.noLibrary
    Schedule.replacedLate _ = platform at *
  rcases Option.any_eq_true _ _ |>.mp moves with ⟨next, taken, after⟩
  have after := of_decide_eq_true after
  rcases List.map_eq_singleton_iff.mp before with ⟨stored, isStored, slot⟩
  have storedMem : stored ∈ platform.workflows.values := isStored ▸ List.mem_singleton_self _
  rcases holds.forward _ next taken ofScheduler stored storedMem with ⟨later, laterMem, advances⟩
  have laterSlot : later.schedule.map (·.nextRunAt) = some 90000000 := by
    have single : later.schedule.map (·.nextRunAt) ∈ next.slots := List.mem_map_of_mem laterMem
    rw [after] at single
    exact List.mem_singleton.mp single
  cases advances with
  | same =>
      rw [slot] at laterSlot
      cases laterSlot
  | @advanced index env tick _ _ _ isAction found isDue _ _ _ _ untouched =>
      cases isAction
      rw [found] at edited
      rcases List.any_eq_true.mp edited with ⟨answered, answeredMem, isScheduled⟩
      rw [isDue, untouched answered answeredMem] at isScheduled
      cases isScheduled

end WorkflowEngine
