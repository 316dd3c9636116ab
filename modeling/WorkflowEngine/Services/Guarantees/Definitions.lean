import WorkflowEngine.Scheduler.Guarantees.Skipped
import WorkflowEngine.Workflow.Guarantees.Errors

/-!
# Definitions stay valid

Both writes of a definition check its graph, and so no definition that is not a valid DAG
is ever stored, read by a tick of the scheduler or handed to the engine.  The engine's own
check never refuses, and the scheduler never records a broken workflow.
-/

namespace WorkflowEngine

open DocStore

variable {Val : Type}

/-- The call of the engine that is to start the run of a slot fails in the store. -/
def Platform.losesStart (platform : Platform Val) : Platform.Action Val → Bool
  | .fail index _ =>
      match platform.jobs[index]? with
      | some ⟨_, .waiting (.slot _) _ _⟩ => true
      | _ => false
  | _ => false

/-- The scheduler has recorded no error with the workflow. -/
def WorkflowDocument.Untroubled (workflow : WorkflowDocument Val) : Prop :=
  ∀ schedule, workflow.schedule = some schedule → schedule.lastError = none

/-- A duplicate key or an approval request without a title, and no graph that is not valid. -/
def EngineError.SparesGraphs (thrown : EngineError) : Prop :=
  thrown = .duplicateKey ∨ thrown = .requiredPath "ApprovalRequest" "title"

/-- Every definition that is stored or on its way to the engine is a valid DAG. -/
structure Platform.Sound [Mixed Val] (platform : Platform Val) : Prop where
  stored : ∀ workflow ∈ platform.workflows.values, workflow.graphValid = true
  ticks : ∀ tick, platform.Ticking tick → ∀ due ∈ tick.dues, due.workflow.graphValid = true
  starts : platform.sys.Provenance fun params => params.workflow.graphValid = true
  threw : ∀ thrown, .threw thrown ∈ platform.sys.log → thrown.SparesGraphs

/-- Neither the stored schedules nor the ticks carry an error. -/
structure Platform.Untroubled (platform : Platform Val) : Prop where
  stored : ∀ workflow ∈ platform.workflows.values, workflow.Untroubled
  ticks : ∀ job ∈ platform.jobs, ∀ tick lastError,
    job.state = .ready (.advance tick lastError) → lastError = none

variable {deployment : Deployment} {versions : Versions Val} {platform next : Platform Val}
  {workflows final : Collection (WorkflowDocument Val)}

/-! ## What operations store -/

/-- An update keeps what it keeps of every workflow. -/
theorem forall_updateMany {property : WorkflowDocument Val → Prop}
    {update : Update (WorkflowDocument Val)} (id : ObjectId)
    (held : ∀ workflow ∈ workflows.values, property workflow)
    (keeps : ∀ workflow, property workflow → property (update.set workflow)) :
    ∀ workflow ∈ (workflows.updateMany (update.only id)).values, property workflow := by
  intro workflow membership
  rw [Collection.values_updateMany] at membership
  rcases List.mem_map.mp membership with ⟨stored, storedMem, rfl⟩
  rcases onValue_only update id stored with ⟨_, _, isSet⟩ | ⟨same, _⟩
  · rw [isSet]
    exact keeps stored (held stored storedMem)
  · rw [same]
    exact held stored storedMem

theorem forall_append {property : WorkflowDocument Val → Prop} {new : WorkflowDocument Val}
    (held : ∀ workflow ∈ workflows.values, property workflow) (isNew : property new) :
    ∀ workflow ∈ (workflows ++ [⟨0, new⟩] : Collection (WorkflowDocument Val)).values,
      property workflow := by
  intro workflow membership
  rw [Collection.values, List.map_append] at membership
  rcases List.mem_append.mp membership with old | created
  · exact held workflow old
  · cases List.mem_singleton.mp created
    exact isNew

/-- A definition that a request stores for the first time has been checked. -/
theorem Platform.begin_created [ToJson Val] {env : Env} {now : Time} {db : Db Val} {user : User}
    {body : DefinitionBody Val} {workflow : WorkflowDocument Val}
    (performed : begin deployment env now workflows db (.createWorkflow user body) =
      (final, .answer (.ok (.workflow workflow)))) :
    (validateDag (body.tasks.map TaskDefinition.toDagTask)).valid = true := by
  simp only [begin] at performed
  split at performed
  · next ran => exact (createWorkflow_ok ran).1
  · cases performed

/-- An operation stores valid definitions only. -/
theorem Platform.perform_valid [ToJson Val] (nodup : workflows.ids.Nodup) {env : Env} {now : Time}
    {db : Db Val} {seen : Nat} {operation : Operation Val} {goal : Next Val}
    (performed : perform deployment env now workflows db seen operation = (final, goal))
    (held : ∀ workflow ∈ workflows.values, workflow.graphValid = true) :
    ∀ workflow ∈ final.values, workflow.graphValid = true := by
  cases perform_edited nodup performed with
  | nothing => exact held
  | created =>
      rw [perform] at performed
      exact forall_append held (begin_created performed)
  | scheduled => exact forall_updateMany _ held fun _ valid => valid
  | cleared => exact forall_updateMany _ held fun _ valid => valid
  | replaced _ _ _ accepted => exact forall_updateMany _ held fun _ _ => accepted
  | advanced => exact forall_updateMany _ held fun _ valid => valid

/-- An operation attaches no schedule with an error, unless it has met one. -/
theorem Platform.perform_untroubled [ToJson Val] (nodup : platform.workflows.ids.Nodup) {env : Env}
    {request : Request Val} {operation : Operation Val} {goal : Next Val}
    (ok : operation.Ok deployment versions platform request)
    (performed : perform deployment env platform.now platform.workflows platform.sys.db
      platform.log.length operation = (final, goal))
    (held : ∀ workflow ∈ platform.workflows.values, workflow.Untroubled)
    (clear : ∀ tick lastError, operation = .advance tick lastError → lastError = none) :
    ∀ workflow ∈ final.values, workflow.Untroubled := by
  cases perform_edited nodup performed with
  | nothing => exact held
  | created =>
      apply forall_append held
      intro schedule attached
      cases attached
  | scheduled =>
      rcases ok with ⟨body, read, _, _, rfl⟩
      apply forall_updateMany _ held
      intro workflow _ schedule attached
      cases attached
      rfl
  | cleared =>
      apply forall_updateMany _ held
      intro workflow _ schedule attached
      cases attached
  | replaced =>
      apply forall_updateMany _ held
      exact fun _ untroubled => untroubled
  | @advanced tick lastError =>
      apply forall_updateMany _ held
      intro workflow _ schedule attached
      rcases Option.map_eq_some_iff.mp attached with ⟨stored, _, rfl⟩
      exact clear tick lastError rfl

/-! ## What is handed to the engine -/

/-- A run is started from a stored definition, or from one that a tick has read. -/
theorem Platform.perform_starts [Mixed Val] [ToJson Val]
    (inv : platform.Inv deployment versions) {env : Env} {request : Request Val}
    {operation : Operation Val} {params : StartParams Val} {waiting : Waiting Val}
    (ok : operation.Ok deployment versions platform request)
    (performed : perform deployment env platform.now platform.workflows platform.sys.db
      platform.log.length operation = (final, .call (.startExecution params) waiting)) :
    (∃ stored ∈ platform.workflows.values, params.workflow = stored.toWorkflow) ∨
      ∃ tick, waiting = .slot tick ∧ params = slotParams tick.due := by
  have asks : waiting.Asks deployment versions platform request (.startExecution params) :=
    perform_ok inv.nodup inv.consistent ok performed
  cases waiting with
  | slot tick =>
      cases asks.2.2
      exact .inr ⟨tick, rfl, rfl⟩
  | control execution action =>
      cases action <;> cases asks.2
  | resolve =>
      rcases asks.2 with ⟨_, absurdity⟩
      cases absurdity
  | run user workflowId input idempotencyKey =>
      have isRun := asks.1
      cases operation with
      | first other =>
          cases (show other = request from ok)
          subst isRun
          simp only [perform, begin] at performed
          split at performed
          · next ran =>
            cases performed
            exact .inl ⟨_, (getWorkflow_ok inv.nodup ran).2.1, rfl⟩
          · cases performed
      | findExisting =>
          simp only [perform] at performed
          split at performed
          · split at performed <;> cases performed
          · cases performed
      | replaceSchedule =>
          rcases ok with ⟨_, _, isOther, _⟩
          cases isRun.symm.trans isOther
      | explainConflict =>
          rcases ok with ⟨_, isOther⟩
          cases isRun.symm.trans isOther
      | rereadExecution =>
          rcases ok with ⟨_, _, _, isOther⟩
          cases isRun.symm.trans isOther
      | findTasks =>
          rcases ok with ⟨_, _, isOther⟩
          cases isRun.symm.trans isOther
      | recordDecision =>
          rcases ok with ⟨_, isOther⟩
          cases isRun.symm.trans isOther
      | rereadApproval =>
          rcases ok with ⟨_, _, _, _, isOther⟩
          cases isRun.symm.trans isOther
      | findDue | advance => cases isRun.symm.trans ok.1

/-- A call of the engine throws no INVALID_WORKFLOW_GRAPH while all definitions that are
handed to it are valid. -/
theorem Sys.Stepped.accepts [Mixed Val] {sys later : Sys Val} {action : Action Val}
    {label : Option (Reply Val)} (stepped : sys.Stepped action later label)
    (starts : sys.Provenance fun params => params.workflow.graphValid = true)
    (before : ∀ thrown, .threw thrown ∈ sys.log → thrown.SparesGraphs) :
    ∀ thrown, .threw thrown ∈ later.log → thrown.SparesGraphs := by
  have frames := stepped.inv.frames
  have inv := stepped.inv.db
  cases stepped.took with
  | invoke | crash => exact before
  | @ran call env frame rest outcome found ran =>
      intro thrown membership
      rcases List.mem_append.mp membership with new | old
      · have gives := frame.gives ran new
        cases gives with
        | @callback op _ _ answers => cases op <;> cases answers
      · exact before thrown old
  | @threw call env frame rest thrown found threw =>
      intro other membership
      rcases List.mem_cons.mp membership with new | old
      · cases new
        have stackMem := List.mem_of_getElem? found
        have ok := frames _ stackMem frame List.mem_cons_self
        rcases (frame.step_throws inv ok threw).1 with duplicate | ⟨op, isOp, refused⟩
        · exact .inl duplicate
        · cases refused with
          | @graph params invalid =>
              have valid : (validateDag params.dag).valid = true :=
                starts.calls _ stackMem frame List.mem_cons_self params isOp
              cases valid.symm.trans invalid
          | title untitled => exact .inr rfl
      · exact before other old

/-! ## What the scheduler records -/

theorem Waiting.threw_ne_call {waiting later : Waiting Val} {thrown : ServiceError} {op : Op Val} :
    waiting.threw thrown ≠ .call op later := by
  intro calls
  cases waiting with
  | run =>
      simp only [Waiting.threw, Waiting.refused] at calls
      split at calls <;> cases calls
  | slot | control | resolve => cases calls

theorem Next.operation_of_state {goal : Next Val} {call : Nat} {operation : Operation Val}
    (isState : goal.state call = .ready operation) : goal = .operation operation := by
  cases goal with
  | operation =>
      cases isState
      rfl
  | call | answer => cases isState

/-- The scheduler records no error when the engine refuses nothing but a slot that was
started before. -/
theorem Waiting.resume_untroubled {db : Db Val} {waiting : Waiting Val} {reply : Reply Val}
    {tick : Tick Val} {lastError : Option String}
    (goes : waiting.resume reply = .operation (.advance tick lastError))
    (tells : reply.Tells db (Platform.slotParams tick.due))
    (valid : tick.due.workflow.graphValid = true) : lastError = none := by
  have isTick : (waiting.resume reply).tick? = some tick := by
    rw [goes]
    rfl
  rcases Waiting.resume_tick isTick with ⟨earlier, rfl, _⟩
  cases reply with
  | startExecution =>
      cases goes
      rfl
  | threw thrown =>
      rcases tells with ⟨invalid, _⟩ | ⟨rfl, _⟩
      · cases valid.symm.trans invalid
      · cases goes
        rfl
  | _ => cases tells

/-! ## Over whole runs -/

section Steps

variable [Mixed Val] [ToJson Val]

/-- A job makes a call of the engine. -/
theorem Platform.Sound.calling (sound : platform.Sound) (inv : platform.Inv deployment versions)
    {goal : Next Val} (valid : ∀ params waiting,
      goal = .call (.startExecution params) waiting → params.workflow.graphValid = true) :
    (goal.calling platform.sys).Provenance (fun params => params.workflow.graphValid = true) ∧
      (goal.calling platform.sys).log = platform.sys.log := by
  cases goal with
  | operation | answer => exact ⟨sound.starts, rfl⟩
  | call op waiting =>
      have taken : platform.sys.step (.invoke (.transaction op)) =
          some ((Next.call op waiting).calling platform.sys) := rfl
      rcases inv.sys.stepped taken with ⟨_, stepped⟩
      refine ⟨sound.starts.step stepped ?_, rfl⟩
      intro frame params isFrame isOp
      cases isFrame
      cases isOp
      exact valid params waiting rfl

theorem Platform.Sound.step (sound : platform.Sound) (inv : platform.Inv deployment versions)
    {action : Platform.Action Val} (moved : Moved deployment platform action next) :
    next.Sound := by
  have ticks : ∀ tick, next.Ticking tick → ∀ due ∈ tick.dues, due.workflow.graphValid = true := by
    intro tick ticking due dueMem
    rcases inv.ticking moved ticking with ⟨earlier, was, continues⟩ | ⟨read, _, _⟩
    · exact sound.ticks earlier was due (continues.dues due dueMem)
    · exact sound.stored _ (read.dues due dueMem)
  -- a step of the engine that starts nothing
  have engine : ∀ {action sys}, platform.sys.step action = some sys →
      (∀ frame params, action = .invoke frame → frame.op? = some (.startExecution params) →
        params.workflow.graphValid = true) →
      sys.Provenance (fun params => params.workflow.graphValid = true) ∧
        ∀ thrown, .threw thrown ∈ sys.log → thrown.SparesGraphs := by
    intro action sys taken valid
    rcases inv.sys.stepped taken with ⟨_, stepped⟩
    exact ⟨sound.starts.step stepped valid, stepped.accepts sound.starts sound.threw⟩
  cases moved with
  | tick | submitted | stopped => exact ⟨sound.stored, ticks, sound.starts, sound.threw⟩
  | @went _ index request state workflows goal found goes =>
      have stored : ∀ workflow ∈ workflows.values, workflow.graphValid = true := by
        cases goes with
        | performed _ performed => exact Platform.perform_valid inv.nodup performed sound.stored
        | failed | threw => exact sound.stored
      have valid : ∀ params waiting, goal = .call (.startExecution params) waiting →
          params.workflow.graphValid = true := by
        intro params waiting isCall
        cases goes with
        | performed _ performed =>
            rw [isCall] at performed
            rcases Platform.perform_starts inv (inv.jobs _ (List.mem_of_getElem? found)) performed
              with ⟨stored, storedMem, isStored⟩ | ⟨tick, rfl, rfl⟩
            · rw [isStored]
              exact sound.stored stored storedMem
            · -- the job works off this tick from now on
              have isJob := List.mem_set (List.getElem?_eq_some_iff.mp found).1
                ⟨request, goal.state platform.sys.calls.length⟩
              refine ticks tick ⟨_, isJob, ?_⟩ tick.due List.mem_cons_self
              rw [Job.tick?, isCall]
              rfl
        | failed => cases isCall
        | threw => exact absurd isCall Waiting.threw_ne_call
      rcases sound.calling inv valid with ⟨starts, log⟩
      refine ⟨stored, ticks, starts, ?_⟩
      intro thrown membership
      exact sound.threw thrown (log ▸ membership)
  | @invoked frame sys other taken =>
      have startsNone : ∀ invoked params, WorkflowEngine.Action.invoke frame = .invoke invoked →
          invoked.op? = some (.startExecution params) → params.workflow.graphValid = true := by
        intro invoked params isFrame isOp
        cases isFrame
        cases frame with
        | transaction op =>
            cases isOp
            cases other
        | callback => cases taken
        | _ => cases isOp
      rcases engine taken startsNone with ⟨starts, threw⟩
      exact ⟨sound.stored, ticks, starts, threw⟩
  | crashed taken =>
      rcases engine taken (fun _ _ absurdity => by cases absurdity) with ⟨starts, threw⟩
      exact ⟨sound.stored, ticks, starts, threw⟩
  | @advanced call env sys fresh taken =>
      rcases engine taken (fun _ _ absurdity => by cases absurdity) with ⟨starts, threw⟩
      exact ⟨sound.stored, ticks, starts, threw⟩

/-- Only a start that fails in the store leaves an error with a schedule. -/
theorem Platform.Untroubled.step (untroubled : platform.Untroubled) (sound : platform.Sound)
    (inv : platform.Inv deployment versions) {action : Platform.Action Val}
    (moved : Moved deployment platform action next)
    (kept : platform.losesStart action = false) : next.Untroubled := by
  cases moved with
  | tick | invoked | crashed => exact ⟨untroubled.stored, untroubled.ticks⟩
  | submitted =>
      refine ⟨untroubled.stored, ?_⟩
      intro job membership
      rcases List.mem_append.mp membership with old | new
      · exact untroubled.ticks job old
      · cases List.mem_singleton.mp new
        intro tick lastError absurdity
        cases absurdity
  | stopped found =>
      refine ⟨untroubled.stored, ?_⟩
      intro job membership tick lastError isState
      rcases mem_set_cases membership with rfl | ⟨_, _, isOther⟩
      · cases isState
      · exact untroubled.ticks job (List.mem_of_getElem? isOther) tick lastError isState
  | @went _ index request state workflows goal found goes =>
      constructor
      · cases goes with
        | performed _ performed =>
            apply Platform.perform_untroubled inv.nodup (inv.jobs _ (List.mem_of_getElem? found))
              performed untroubled.stored
            intro tick lastError isOperation
            exact untroubled.ticks _ (List.mem_of_getElem? found) tick lastError
              (congrArg JobState.ready isOperation)
        | failed | threw => exact untroubled.stored
      · intro job membership tick lastError isState
        rcases mem_set_cases membership with rfl | ⟨_, _, isOther⟩
        · have isGoal := Next.operation_of_state isState
          have isTick : goal.tick? = some tick := by
            rw [isGoal]
            rfl
          cases goes with
          | performed _ performed =>
              rw [(perform_tick performed isTick).1] at isGoal
              cases isGoal
          | failed => cases isGoal
          | threw =>
              cases Waiting.threw_tick isTick
              simp only [losesStart, found] at kept
              cases kept
        · exact untroubled.ticks job (List.mem_of_getElem? isOther) tick lastError isState
  | @advanced call env sys fresh taken =>
      rcases inv.sys.stepped taken with ⟨label, stepped⟩
      have advanced : Advanced platform call sys label (platform.advanced call sys) :=
        advanced_cases inv.oneWaits stepped.log
      generalize platform.advanced call sys = next at advanced
      cases advanced with
      | idle => exact ⟨untroubled.stored, untroubled.ticks⟩
      | pending =>
          refine ⟨untroubled.stored, ?_⟩
          intro job membership tick lastError isState
          rcases mem_set_cases membership with rfl | ⟨_, _, isOther⟩
          · cases isState
          · exact untroubled.ticks job (List.mem_of_getElem? isOther) tick lastError isState
      | @resumed index request waiting before reply found ended isKnown =>
          refine ⟨untroubled.stored, ?_⟩
          intro job membership tick lastError isState
          rcases mem_set_cases membership with rfl | ⟨_, _, isOther⟩
          · have isGoal := Next.operation_of_state isState
            have isTick : (waiting.resume reply).tick? = some tick := by
              rw [isGoal]
              rfl
            rcases Waiting.resume_tick isTick with ⟨earlier, rfl, _, sameDue⟩
            rcases inv.told fresh stepped found with ⟨op, stack, _, ⟨_, _, isOp⟩, started⟩
            have tells := (started _ isOp).tells reply isKnown
            have valid := sound.ticks earlier ⟨_, List.mem_of_getElem? found, rfl⟩ earlier.due
              List.mem_cons_self
            rw [← sameDue] at tells valid
            exact Waiting.resume_untroubled isGoal tells valid
          · exact untroubled.ticks job (List.mem_of_getElem? isOther) tick lastError isState

theorem Platform.sound_of_reachableBy {library : Library Val} {start : Time}
    {allowed : Platform Val → Platform.Action Val → Prop}
    (valid : ∀ workflow ∈ library.workflows.values, workflow.graphValid = true)
    (reachable : (platformSystem Val deployment library start).ReachableBy allowed platform) :
    platform.Sound := by
  induction reachable with
  | init =>
      refine ⟨valid, ?_, .init, ?_⟩
      · rintro tick ⟨job, absurdity, _⟩
        cases absurdity
      · intro thrown absurdity
        cases absurdity
  | step before _ taken ih =>
      rcases Platform.inv_of_reachableBy before with ⟨_, inv⟩
      exact ih.step inv (Platform.moved_of_step taken)

theorem Platform.untroubled_of_reachableBy {library : Library Val} {start : Time}
    (valid : ∀ workflow ∈ library.workflows.values, workflow.graphValid = true)
    (clear : ∀ workflow ∈ library.workflows.values, workflow.Untroubled)
    (reachable : (platformSystem Val deployment library start).ReachableBy
      (fun platform action => platform.losesStart action = false) platform) :
    platform.Untroubled := by
  induction reachable with
  | init =>
      refine ⟨clear, ?_⟩
      intro job absurdity
      cases absurdity
  | step before kept taken ih =>
      rcases Platform.inv_of_reachableBy before with ⟨_, inv⟩
      exact ih.step (sound_of_reachableBy valid before) inv (Platform.moved_of_step taken) kept

/-- Every stored definition stays a valid DAG, and the engine never refuses one; unless a
start fails in the store, no schedule records an error. -/
theorem definitions_stay_valid {library : Library Val} {start : Time}
    {allowed : Platform Val → Platform.Action Val → Prop}
    (valid : ∀ workflow ∈ library.workflows.values, workflow.graphValid = true)
    (reachable : (platformSystem Val deployment library start).ReachableBy allowed platform) :
    (∀ workflow ∈ platform.workflows.values, workflow.graphValid = true) ∧
      (∀ thrown, .threw thrown ∈ platform.sys.log → thrown.SparesGraphs) ∧
        ((∀ workflow ∈ library.workflows.values, workflow.Untroubled) →
          (∀ state action, allowed state action → state.losesStart action = false) →
            ∀ workflow ∈ platform.workflows.values, workflow.Untroubled) := by
  have sound := Platform.sound_of_reachableBy valid reachable
  refine ⟨sound.stored, sound.threw, ?_⟩
  intro clear keeps
  exact (Platform.untroubled_of_reachableBy valid clear (reachable.mono keeps)).stored

end Steps

/-- A tick starts the run of midnight. -/
theorem definitions_stay_valid_ticked :
    ∃ runs, (Schedule.platformAvoiding Platform.losesStart Schedule.deployment Schedule.noLibrary
          Schedule.ticked runs).slots = [some 90000000] ∧
      (∀ workflow ∈ (Schedule.platformAvoiding Platform.losesStart Schedule.deployment
        Schedule.noLibrary Schedule.ticked runs).workflows.values,
          workflow.graphValid = true ∧ workflow.Untroubled) := by
  refine ⟨by decide +kernel, by decide +kernel, ?_⟩
  intro workflow membership
  have reachable := Schedule.platformAvoiding_reachable Platform.losesStart Schedule.deployment
    Schedule.noLibrary Schedule.ticked (by decide +kernel)
  have valid := definitions_stay_valid (fun _ absurdity => absurd absurdity List.not_mem_nil)
    reachable
  exact ⟨valid.1 workflow membership,
    valid.2.2 (fun _ absurdity => absurd absurdity List.not_mem_nil) (fun _ _ kept => kept)
      workflow membership⟩

end WorkflowEngine
