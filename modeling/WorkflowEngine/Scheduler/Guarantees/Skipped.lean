import WorkflowEngine.Scheduler.Guarantees.Slots

/-!
# No slot is skipped

A tick starts the run of a slot before it moves the schedule on.  It also moves on when the
start has failed: for good when the stored definition is not a valid DAG, but for any other
reason as well, and then the slot has no run.
-/

namespace WorkflowEngine

open DocStore

variable {Val : Type}

/-- The definition is a valid DAG. -/
def Workflow.graphValid (workflow : Workflow Val) : Bool :=
  (validateDag (workflow.tasks.map TaskDefinition.toDagTask)).valid

/-- The slot has a run. -/
def Db.hasRun (db : Db Val) (workflowId : ObjectId) (slot : Time) : Bool :=
  db.executions.values.any fun execution =>
    execution.idempotencyKey == some (slotKey workflowId slot)

def Due.hasRun (db : Db Val) (due : Due Val) : Bool :=
  db.hasRun due.workflow.id due.schedule.nextRunAt

/-- The start of a run fails in the store before its slot has one, or a definition that is
not a valid DAG is replaced while a tick works off what it has read. -/
def Platform.drops (platform : Platform Val) : Platform.Action Val → Bool
  | .fail index _ =>
      match platform.jobs[index]? with
      | some ⟨_, .waiting (.slot tick) _ _⟩ =>
          tick.due.workflow.graphValid && !tick.due.hasRun platform.sys.db
      | _ => false
  | .perform index _ =>
      match platform.jobs[index]? with
      | some ⟨_, .ready (.first (.updateWorkflow user id version body))⟩ =>
          (platform.workflows.findById id).any (fun stored =>
              inScope (ownerScope user) stored.ownerId && stored.version == version) &&
            (validateDag (body.tasks.map TaskDefinition.toDagTask)).valid &&
            platform.jobs.any fun job => job.tick?.any fun tick => tick.dues.any fun due =>
              due.workflow.id == id && !due.workflow.graphValid && !due.hasRun platform.sys.db
      | _ => false
  | _ => false

/-- Whenever the scheduler moves a schedule past a slot, the slot has a run or the stored
definition is not a valid DAG. -/
def NoSlotSkipped [Mixed Val] [ToJson Val] (deployment : Deployment) (platform : Platform Val) :
    Prop :=
  ∀ action next, platform.step deployment action = some next →
    platform.ofScheduler action = true →
      ∀ stored ∈ platform.workflows.values, ∀ after ∈ next.workflows.values,
        after.id = stored.id → ∀ handled moved, stored.schedule = some handled →
          after.schedule = some moved → moved.nextRunAt ≠ handled.nextRunAt →
            platform.sys.db.hasRun stored.id handled.nextRunAt = true ∨
              stored.graphValid = false

/-- The stored definition of a workflow that was read is not a valid DAG, as it was then. -/
structure Due.Spoiled (platform : Platform Val) (due : Due Val) : Prop where
  read : due.workflow.graphValid = false
  stored : ∀ stored ∈ platform.workflows.values, stored.id = due.workflow.id →
    stored.graphValid = false

/-- Every slot that is about to be passed has a run, or there cannot be one. -/
structure Platform.Passes (platform : Platform Val) : Prop where
  handled : ∀ job ∈ platform.jobs, ∀ tick lastError, job.state = .ready (.advance tick lastError) →
    tick.due.hasRun platform.sys.db = true ∨ tick.due.Spoiled platform
  spoiled : ∀ tick, platform.Ticking tick → ∀ due ∈ tick.dues, due.workflow.graphValid = true ∨
    due.hasRun platform.sys.db = true ∨ due.Spoiled platform

variable {deployment : Deployment} {versions : Versions Val} {platform next : Platform Val}

theorem Db.hasRun_iff {db : Db Val} {workflowId : ObjectId} {slot : Time} :
    db.hasRun workflowId slot = true ↔ ∃ execution ∈ db.executions.values,
      execution.idempotencyKey = some (slotKey workflowId slot) := by
  rw [hasRun, List.any_eq_true]
  constructor
  · rintro ⟨execution, membership, isKey⟩
    exact ⟨execution, membership, beq_iff_eq.mp isKey⟩
  · rintro ⟨execution, membership, isKey⟩
    exact ⟨execution, membership, beq_iff_eq.mpr isKey⟩

theorem Due.hasRun_later {db newer : Db Val} (since : Db.Since db newer) {due : Due Val}
    (has : due.hasRun db = true) : due.hasRun newer = true := by
  rcases Db.hasRun_iff.mp has with ⟨execution, membership, isKey⟩
  rcases since.runs execution membership with ⟨later, laterMem, _, evolves⟩
  exact Db.hasRun_iff.mpr ⟨later, laterMem,
    (congrArg ExecutionShape.idempotencyKey evolves.shape).trans isKey⟩

/-- What the scheduler has been told about the run of a slot. -/
theorem Reply.Tells.slot {db : Db Val} {due : Due Val} {reply : Reply Val}
    (tells : reply.Tells db (Platform.slotParams due)) :
    due.hasRun db = true ∨ due.workflow.graphValid = false := by
  cases reply with
  | startExecution called execution =>
      rcases tells with ⟨_, ⟨env, rfl⟩, stored, storedMem, shape⟩
      exact .inl (Db.hasRun_iff.mpr
        ⟨stored, storedMem, congrArg ExecutionShape.idempotencyKey shape⟩)
  | threw thrown =>
      rcases tells with ⟨invalid, _⟩ | ⟨_, _, stored, storedMem, _, isKey⟩
      · exact .inr invalid
      · exact .inl (Db.hasRun_iff.mpr ⟨stored, storedMem, isKey⟩)
  | _ => cases tells

section Steps

variable [Mixed Val] [ToJson Val]

/-- A tick is about to move a schedule on because its call of the engine has ended, or
because it has failed. -/
inductive Platform.Handles (platform next : Platform Val) (action : Platform.Action Val)
    (tick : Tick Val) : Prop where
  | still {lastError : Option String} :
      (∃ job ∈ platform.jobs, job.state = .ready (.advance tick lastError)) →
      Handles platform next action tick
  | failed {index call : Nat} {message : String} {request : Request Val}
      {reply : Option (Reply Val)} :
      action = .fail index message →
      platform.jobs[index]? = some ⟨request, .waiting (.slot tick) call reply⟩ →
      Handles platform next action tick
  | told {earlier : Tick Val} {reply : Reply Val} :
      platform.Ticking earlier → tick.due = earlier.due →
      reply.Tells next.sys.db (slotParams tick.due) →
      Handles platform next action tick

theorem Platform.Inv.handles (inv : platform.Inv deployment versions)
    {action : Platform.Action Val} (moved : Moved deployment platform action next)
    {job : Job Val} (membership : job ∈ next.jobs) {tick : Tick Val} {lastError : Option String}
    (isState : job.state = .ready (.advance tick lastError)) :
    platform.Handles next action tick := by
  have old : ∀ {job : Job Val}, job ∈ platform.jobs →
      job.state = .ready (.advance tick lastError) → platform.Handles next action tick :=
    fun wasJob wasState => .still ⟨_, wasJob, wasState⟩
  have goes : ∀ {goal : Next Val} {call : Nat},
      goal.state call = .ready (.advance tick lastError) →
        goal = .operation (.advance tick lastError) := by
    intro goal call isReady
    cases goal with
    | operation =>
        cases isReady
        rfl
    | call | answer => cases isReady
  cases moved with
  | tick | invoked | crashed => exact old membership isState
  | submitted =>
      rcases List.mem_append.mp membership with before | new
      · exact old before isState
      · cases List.mem_singleton.mp new
        cases isState
  | stopped found =>
      rcases mem_set_cases membership with rfl | ⟨_, _, isOther⟩
      · cases isState
      · exact old (List.mem_of_getElem? isOther) isState
  | @went _ index request state workflows goal found isGoing =>
      rcases mem_set_cases membership with rfl | ⟨_, _, isOther⟩
      · have isGoal := goes isState
        cases isGoing with
        | performed fresh performed =>
            have isTick : goal.tick? = some tick := by
              rw [isGoal]
              rfl
            rw [(perform_tick performed isTick).1] at isGoal
            cases isGoal
        | failed => cases isGoal
        | @threw message waiting call reply =>
            have isTick : (waiting.threw (.store message)).tick? = some tick := by
              rw [isGoal]
              rfl
            cases Waiting.threw_tick isTick
            exact .failed rfl found
      · exact old (List.mem_of_getElem? isOther) isState
  | @advanced call env sys fresh taken =>
      rcases inv.sys.stepped taken with ⟨label, stepped⟩
      have advanced : Advanced platform call sys label (platform.advanced call sys) :=
        advanced_cases inv.oneWaits stepped.log
      generalize platform.advanced call sys = next at advanced membership old
      cases advanced with
      | idle => exact old membership isState
      | pending =>
          rcases mem_set_cases membership with rfl | ⟨_, _, isOther⟩
          · cases isState
          · exact old (List.mem_of_getElem? isOther) isState
      | @resumed index request waiting before reply found ended isKnown =>
          rcases mem_set_cases membership with rfl | ⟨_, _, isOther⟩
          · have isGoal := goes isState
            have isTick : (waiting.resume reply).tick? = some tick := by
              rw [isGoal]
              rfl
            rcases Waiting.resume_tick isTick with ⟨earlier, rfl, _, sameDue⟩
            rcases inv.told fresh stepped found with ⟨op, stack, _, ⟨_, _, isOp⟩, started⟩
            have tells := (started _ isOp).tells reply isKnown
            rw [← sameDue] at tells
            exact .told ⟨_, List.mem_of_getElem? found, rfl⟩ sameDue tells
          · exact old (List.mem_of_getElem? isOther) isState

omit [Mixed Val] [ToJson Val] in
theorem Turned.tasks_eq {operation : Operation Val} {goal : Next Val}
    {stored after : WorkflowDocument Val} (turned : Turned deployment operation goal stored after) :
    after.tasks = stored.tasks ∨ ∃ user body,
      operation = .first (.updateWorkflow user stored.id stored.version body) ∧
        inScope (ownerScope user) stored.ownerId = true ∧
          (validateDag (body.tasks.map TaskDefinition.toDagTask)).valid = true := by
  cases turned with
  | same | scheduled | cleared | advanced => exact .inl rfl
  | replaced isOperation owned accepted => exact .inr ⟨_, _, isOperation, owned, accepted⟩

/-- A definition that is not a valid DAG is not replaced while a tick works it off. -/
theorem Platform.Inv.unrepaired (inv : platform.Inv deployment versions)
    {action : Platform.Action Val} (moved : Moved deployment platform action next)
    (safe : platform.drops action = false) {tick : Tick Val} (ticking : platform.Ticking tick)
    {due : Due Val} (dueMem : due ∈ tick.dues) (spoiled : due.Spoiled platform)
    (absent : due.hasRun platform.sys.db = false) : due.Spoiled next := by
  refine ⟨spoiled.read, ?_⟩
  intro after afterMem isId
  cases inv.edits moved with
  | quiet workflows =>
      rw [workflows] at afterMem
      exact spoiled.stored after afterMem isId
  | @edited index env request operation goal _ image added found ok _ turns =>
      rw [turns.values] at afterMem
      rcases List.mem_append.mp afterMem with old | new
      · rcases List.mem_map.mp old with ⟨stored, storedMem, rfl⟩
        have turned := turns.turned stored storedMem
        rw [turned.id_eq] at isId
        rcases turned.tasks_eq with same | ⟨user, body, rfl, owned, accepted⟩
        · have invalid := spoiled.stored stored storedMem isId
          rw [Workflow.graphValid] at invalid ⊢
          rw [same]
          exact invalid
        · have search : platform.workflows.findById stored.id = some stored :=
            (Collection.findById_eq_some inv.nodup).mpr ⟨storedMem, rfl⟩
          rcases ticking with ⟨job, jobMem, isTick⟩
          simp only [drops, found, search, Option.any_some, owned, accepted, beq_self_eq_true,
            Bool.true_and] at safe
          have noTick := List.any_eq_false.mp safe job jobMem
          simp only [isTick, Option.any_some] at noTick
          have notDue := List.any_eq_false.mp (Bool.not_eq_true _ ▸ noTick) due dueMem
          rw [isId, beq_self_eq_true, spoiled.read, absent] at notDue
          exact absurd rfl notDue
      · rcases ((inv.tick ticking).known due dueMem).stored with ⟨stored, storedMem, sameId, _⟩
        apply absurd _ (turns.fresh after new).1
        rw [isId, ← sameId]
        exact Collection.mem_ids.mpr ⟨stored, storedMem, rfl⟩

theorem Platform.Inv.settled (inv : platform.Inv deployment versions)
    {action : Platform.Action Val} (moved : Moved deployment platform action next)
    (safe : platform.drops action = false) {tick : Tick Val} (ticking : platform.Ticking tick)
    {due : Due Val} (dueMem : due ∈ tick.dues)
    (settled : due.hasRun platform.sys.db = true ∨ due.Spoiled platform) :
    due.hasRun next.sys.db = true ∨ due.Spoiled next := by
  rcases inv.moved moved with ⟨_, later, _⟩
  cases has : due.hasRun platform.sys.db with
  | true => exact .inl (Due.hasRun_later later.since has)
  | false =>
      rcases settled with absurdity | spoiled
      · rw [has] at absurdity
        cases absurdity
      · exact .inr (inv.unrepaired moved safe ticking dueMem spoiled has)

namespace Platform.Passes

theorem init (library : Library Val) (start : Time) :
    (platformSystem Val deployment library start).init.Passes := by
  refine ⟨?_, ?_⟩
  · intro job absurdity
    cases absurdity
  · rintro tick ⟨job, absurdity, _⟩
    cases absurdity

theorem step (passes : platform.Passes) (inv : platform.Inv deployment versions)
    {action : Platform.Action Val} (moved : Moved deployment platform action next)
    (safe : platform.drops action = false) : next.Passes := by
  refine ⟨?_, ?_⟩
  · intro job membership tick lastError isState
    cases inv.handles moved membership isState with
    | still wasState =>
        rcases wasState with ⟨old, oldMem, wasState⟩
        have ticking : platform.Ticking tick := by
          refine ⟨old, oldMem, ?_⟩
          rw [Job.tick?, wasState]
          rfl
        exact inv.settled moved safe ticking List.mem_cons_self
          (passes.handled old oldMem tick _ wasState)
    | failed isAction found =>
        have ticking : platform.Ticking tick := ⟨_, List.mem_of_getElem? found, rfl⟩
        apply inv.settled moved safe ticking List.mem_cons_self
        subst isAction
        rw [drops, found] at safe
        rcases passes.spoiled tick ticking tick.due List.mem_cons_self with valid | settled
        · simp only [valid, Bool.true_and, Bool.not_eq_eq_eq_not, Bool.not_false] at safe
          exact .inl safe
        · exact settled
    | @told earlier reply ticking sameDue tells =>
        rcases tells.slot with has | invalid
        · exact .inl has
        · rw [sameDue] at invalid ⊢
          rcases passes.spoiled earlier ticking earlier.due List.mem_cons_self with valid | settled
          · rw [valid] at invalid
            cases invalid
          · exact inv.settled moved safe ticking List.mem_cons_self settled
  · intro tick ticking due dueMem
    rcases inv.ticking moved ticking with ⟨earlier, wasTicking, continues⟩ | ⟨read, workflows, _⟩
    · have wasDue := continues.dues due dueMem
      rcases passes.spoiled earlier wasTicking due wasDue with valid | settled
      · exact .inl valid
      · exact .inr (inv.settled moved safe wasTicking wasDue settled)
    · cases valid : due.workflow.graphValid with
      | true => exact .inl rfl
      | false =>
          refine .inr (.inr ⟨valid, ?_⟩)
          intro stored storedMem isId
          rw [workflows] at storedMem
          rw [Collection.value_eq_of_id_eq inv.nodup storedMem (read.dues due dueMem) isId]
          exact valid

theorem of_reachableBy {library : Library Val} {start : Time}
    (reachable : (platformSystem Val deployment library start).ReachableBy
      (fun platform action => platform.drops action = false) platform) : platform.Passes := by
  induction reachable with
  | init => exact init library start
  | step before safe taken ih =>
      rcases Platform.inv_of_reachableBy before with ⟨_, inv⟩
      exact ih.step inv (Platform.moved_of_step taken) safe

end Platform.Passes

/-- In every state of every schedule in which no start fails in the store. -/
theorem no_slot_skipped {library : Library Val} {start : Time}
    (reachable : (platformSystem Val deployment library start).ReachableBy
      (fun platform action => platform.drops action = false) platform) :
    NoSlotSkipped deployment platform := by
  rcases Platform.inv_of_reachableBy reachable with ⟨versions, inv⟩
  have passes := Platform.Passes.of_reachableBy reachable
  intro action next taken isTick stored storedMem after afterMem isId handled moved wasAttached
    isAttached moves
  cases inv.edits (Platform.moved_of_step taken) with
  | quiet workflows =>
      rw [workflows] at afterMem
      cases Collection.value_eq_of_id_eq inv.nodup afterMem storedMem isId
      cases wasAttached.symm.trans isAttached
      exact absurd rfl moves
  | @edited index env request operation goal _ image added found ok _ turns =>
      cases Platform.request_of_ofScheduler found isTick
      rw [turns.values] at afterMem
      rcases List.mem_append.mp afterMem with old | new
      · rcases List.mem_map.mp old with ⟨source, sourceMem, rfl⟩
        have turned := turns.turned source sourceMem
        rw [turned.id_eq] at isId
        cases Collection.value_eq_of_id_eq inv.nodup sourceMem storedMem isId
        generalize image stored = after at turned isAttached
        cases turned with
        | same =>
            cases wasAttached.symm.trans isAttached
            exact absurd rfl moves
        | scheduled isOperation =>
            cases isOperation
            rcases ok with ⟨_, _, absurdity, _⟩
            cases absurdity
        | cleared isOperation | replaced isOperation =>
            cases isOperation
            cases ok
        | @advanced tick lastError attached isOperation isDue wasSchedule isSlot =>
            cases isOperation
            cases wasAttached.symm.trans wasSchedule
            rcases passes.handled _ (List.mem_of_getElem? found) tick lastError rfl with
              has | spoiled
            · rw [Due.hasRun, isDue, ← isSlot] at has
              exact .inl has
            · exact .inr (spoiled.stored stored storedMem isDue.symm)
      · apply absurd _ (turns.fresh after new).1
        rw [isId]
        exact Collection.mem_ids.mpr ⟨stored, storedMem, rfl⟩

end Steps

namespace Schedule

/-- At midnight the connection to the store is lost while a tick starts the run. -/
def startLost : List (Platform.Action Plain) :=
  hourly ++ [.tick 1800000, .submit .runDue, perform 2 13, perform 2 14,
    .fail 2 "connection closed"]

end Schedule

theorem no_slot_skipped_ticked :
    ∃ runs, (Schedule.platformAvoiding Platform.drops Schedule.deployment Schedule.noLibrary
          Schedule.ticked runs).slots = [some 90000000] ∧
      NoSlotSkipped Schedule.deployment (Schedule.platformAvoiding Platform.drops
        Schedule.deployment Schedule.noLibrary Schedule.ticked runs) :=
  ⟨by decide +kernel, by decide +kernel,
    no_slot_skipped (Schedule.platformAvoiding_reachable _ _ _ _ (by decide +kernel))⟩

/-- The schedule is moved on to one o'clock, and midnight has no run. -/
theorem not_no_slot_skipped :
    ¬ ∀ platform, (platformSystem Plain Schedule.deployment Schedule.noLibrary 1800000).Reachable
        platform → NoSlotSkipped Schedule.deployment platform := by
  intro always
  have holds := always _ (Schedule.platformAfter_reachable _ _ Schedule.startLost
    (by decide +kernel))
  have before : (Schedule.platformAfter Schedule.deployment Schedule.noLibrary Schedule.startLost
      (by decide +kernel)).workflows.values.map (fun workflow =>
        (workflow.id, workflow.graphValid, workflow.schedule.map (·.nextRunAt))) =
          [(10, true, some 86400000)] := by decide +kernel
  have absent : (Schedule.platformAfter Schedule.deployment Schedule.noLibrary Schedule.startLost
      (by decide +kernel)).sys.db.hasRun 10 86400000 = false := by decide +kernel
  have moves : ((Schedule.platformAfter Schedule.deployment Schedule.noLibrary Schedule.startLost
      (by decide +kernel)).step Schedule.deployment (Schedule.perform 2 15)).any (fun next =>
        next.workflows.values.map (fun workflow =>
          (workflow.id, workflow.schedule.map (·.nextRunAt))) = [(10, some 90000000)]) = true := by
    decide +kernel
  have ofScheduler : (Schedule.platformAfter Schedule.deployment Schedule.noLibrary
      Schedule.startLost (by decide +kernel)).ofScheduler (Schedule.perform 2 15) = true := by
    decide +kernel
  generalize Schedule.platformAfter Schedule.deployment Schedule.noLibrary
    Schedule.startLost _ = platform at *
  rcases Option.any_eq_true _ _ |>.mp moves with ⟨next, taken, after⟩
  rcases List.map_eq_singleton_iff.mp before with ⟨stored, isStored, facts⟩
  rcases List.map_eq_singleton_iff.mp (of_decide_eq_true after) with ⟨later, isLater, laterFacts⟩
  rcases Prod.mk.inj facts with ⟨isId, facts⟩
  rcases Prod.mk.inj facts with ⟨valid, slot⟩
  rcases Prod.mk.inj laterFacts with ⟨laterId, laterSlot⟩
  rcases Option.map_eq_some_iff.mp slot with ⟨handled, attached, isSlot⟩
  rcases Option.map_eq_some_iff.mp laterSlot with ⟨moved, isAttached, isMoved⟩
  rcases holds _ next taken ofScheduler stored (isStored ▸ List.mem_singleton_self _) later
      (isLater ▸ List.mem_singleton_self _) (laterId.trans isId.symm) handled moved attached
      isAttached (by rw [isSlot, isMoved]; decide) with has | invalid
  · rw [isId, isSlot, absent] at has
    cases has
  · rw [valid] at invalid
    cases invalid

end WorkflowEngine
