import WorkflowEngine.Services.Invariant

/-!
# No lost edits

The successful updates of a workflow form one chain: each is based on the version that the
one before it has made.  A version names one definition, which every run of that version
was started with.  Schedules and definitions are edited apart from each other.
-/

namespace WorkflowEngine

open DocStore

variable {Val : Type}

/-! ## What a step does to the workflows -/

/-- An answer that reports no workflow. -/
def Answered.silent (answered : Answered Val) : Prop :=
  ∀ workflow, answered.answer ≠ .ok (.workflow workflow)

theorem Waiting.threw_ne_ok {waiting : Waiting Val} {thrown : ServiceError} {answer : Answer Val} :
    waiting.threw thrown ≠ .answer (.ok answer) := by
  intro answers
  cases waiting with
  | run =>
      simp only [Waiting.threw, Waiting.refused] at answers
      split at answers <;> cases answers
  | slot | control | resolve => cases answers

theorem Waiting.resume_ne_workflow {waiting : Waiting Val} {reply : Reply Val}
    {workflow : WorkflowDocument Val} :
    waiting.resume reply ≠ .answer (.ok (.workflow workflow)) := by
  intro answers
  simp only [Waiting.resume] at answers
  split at answers
  case h_4 | h_5 | h_6 =>
    simp only [Waiting.controlled] at answers
    split at answers <;> cases answers
  case h_1 | h_8 => exact Waiting.threw_ne_ok answers
  all_goals cases answers

theorem Next.answered_silent {request : Request Val} {goal : Next Val}
    (other : ∀ workflow, goal ≠ .answer (.ok (.workflow workflow))) :
    ∀ answered ∈ goal.answered request, answered.silent := by
  intro answered membership workflow reports
  cases goal with
  | operation | call => cases membership
  | answer result =>
      cases List.mem_singleton.mp membership
      exact other workflow (congrArg Next.answer reports)

variable {deployment : Deployment} {versions : Versions Val} {platform next : Platform Val}

namespace Platform

/-- A step leaves the workflows alone, or it is an operation on them. -/
inductive Edits (deployment : Deployment) (versions : Versions Val) (platform : Platform Val) :
    Action Val → Platform Val → Prop where
  | quiet {action : Action Val} {next : Platform Val} {more : List (Answered Val)} :
      next.workflows = platform.workflows → next.log = more ++ platform.log →
      (∀ answered ∈ more, answered.silent) →
      Edits deployment versions platform action next
  | edited {index : Nat} {env : Env} {request : Request Val} {operation : Operation Val}
      {goal : Next Val} {next : Platform Val}
      {image : WorkflowDocument Val → WorkflowDocument Val} {added : List (WorkflowDocument Val)} :
      platform.jobs[index]? = some ⟨request, .ready operation⟩ →
      operation.Ok deployment versions platform request →
      next.log = goal.answered request ++ platform.log →
      Edited.Turns deployment operation goal platform.workflows next.workflows image added →
      Edits deployment versions platform (.perform index env) next

theorem Inv.edits [Mixed Val] [ToJson Val] (inv : platform.Inv deployment versions) {action : Action Val}
    (moved : Moved deployment platform action next) :
    Edits deployment versions platform action next := by
  have still : ∀ {next : Platform Val}, next.workflows = platform.workflows →
      next.log = platform.log → Edits deployment versions platform action next := by
    intro next workflows log
    exact .quiet workflows (log.trans (List.nil_append _).symm) (List.forall_mem_nil _)
  cases moved with
  | tick | submitted | stopped | invoked | crashed => exact still rfl rfl
  | @went _ index request state workflows goal found goes =>
      cases goes with
      | performed fresh performed =>
          rcases (perform_edited inv.nodup performed).turns inv.nodup with ⟨image, added, turns⟩
          exact .edited found (inv.jobs _ (List.mem_of_getElem? found)) rfl turns
      | failed =>
          refine .quiet rfl rfl (Next.answered_silent ?_)
          intro workflow absurdity
          cases absurdity
      | threw =>
          exact .quiet rfl rfl (Next.answered_silent fun _ => Waiting.threw_ne_ok)
  | @advanced call env sys fresh taken =>
      rcases inv.sys.stepped taken with ⟨label, stepped⟩
      have advanced : Advanced platform call sys label (platform.advanced call sys) :=
        advanced_cases inv.oneWaits stepped.log
      generalize platform.advanced call sys = next at advanced
      cases advanced with
      | idle | pending => exact still rfl rfl
      | resumed =>
          exact .quiet rfl rfl (Next.answered_silent fun _ => Waiting.resume_ne_workflow)

end Platform

/-! ## The chain of updates -/

/-- A successful update of the workflow: the version that was sent, and the result. -/
def Answered.update? (id : ObjectId) : Answered Val → Option (Nat × WorkflowDocument Val)
  | ⟨.updateWorkflow _ other version _, .ok (.workflow updated)⟩ =>
      if other = id then some (version, updated) else none
  | _ => none

theorem Answered.update?_eq_some {id : ObjectId} {answered : Answered Val}
    {update : Nat × WorkflowDocument Val} :
    answered.update? id = some update ↔ ∃ user body,
      answered = ⟨.updateWorkflow user id update.1 body, .ok (.workflow update.2)⟩ := by
  constructor
  · intro isUpdate
    unfold update? at isUpdate
    split at isUpdate
    · next user other version body updated =>
      split at isUpdate
      · next same =>
        cases isUpdate
        cases same
        exact ⟨user, body, rfl⟩
      · cases isUpdate
    · cases isUpdate
  · rintro ⟨user, body, rfl⟩
    exact if_pos rfl

/-- The versions that the successful updates of a workflow were based on, newest first. -/
def basedOn (log : List (Answered Val)) (id : ObjectId) : List Nat :=
  log.filterMap fun answered => (answered.update? id).map Prod.fst

theorem basedOn_of_silent {more log : List (Answered Val)} {id : ObjectId}
    (silent : ∀ answered ∈ more, answered.update? id = none) :
    basedOn (more ++ log) id = basedOn log id := by
  have nothing : basedOn more id = [] := by
    apply List.filterMap_eq_nil_iff.mpr
    intro answered membership
    rw [silent answered membership, Option.map_none]
  rw [basedOn, List.filterMap_append]
  exact (congrArg (· ++ basedOn log id) nothing).trans (List.nil_append _)

theorem basedOn_of_update {log : List (Answered Val)} {user : User} {id : ObjectId} {version : Nat}
    {body : DefinitionBody Val} {updated : WorkflowDocument Val} :
    basedOn ([⟨.updateWorkflow user id version body, .ok (.workflow updated)⟩] ++ log) id =
      version :: basedOn log id := by
  rw [basedOn, List.singleton_append, List.filterMap_cons_some]
  · rfl
  · exact congrArg (Option.map Prod.fst) (if_pos rfl)

theorem Answered.silent.update?_eq_none {answered : Answered Val} (silent : answered.silent)
    (id : ObjectId) : answered.update? id = none := by
  cases isUpdate : answered.update? id with
  | none => rfl
  | some update =>
      rcases update?_eq_some.mp isUpdate with ⟨user, body, rfl⟩
      exact absurd rfl (silent update.2)

/-- The successful updates so far. -/
structure Platform.Chained (platform : Platform Val) : Prop where
  chain : ∀ stored ∈ platform.workflows.values, ∃ first,
    (basedOn platform.log stored.id).reverse =
        List.range' first (basedOn platform.log stored.id).length ∧
      stored.version = first + (basedOn platform.log stored.id).length
  absent : ∀ id, id ∉ platform.workflows.ids → basedOn platform.log id = []
  raised : ∀ answered ∈ platform.log, ∀ id update, answered.update? id = some update →
    update.2.version = update.1 + 1

/-- An operation whose answer is a successful update edits that workflow. -/
theorem Operation.Ok.updates {request : Request Val} {operation : Operation Val}
    (ok : operation.Ok deployment versions platform request) {goal : Next Val}
    {answered : Answered Val} (membership : answered ∈ goal.answered request) {id : ObjectId}
    {update : Nat × WorkflowDocument Val} (isUpdate : answered.update? id = some update) :
    operation.target? = some id ∧ goal = .answer (.ok (.workflow update.2)) := by
  rcases Answered.update?_eq_some.mp isUpdate with ⟨user, body, rfl⟩
  cases goal with
  | operation | call => cases membership
  | answer result =>
      cases List.mem_singleton.mp membership
      refine ⟨?_, rfl⟩
      cases operation with
      | first other =>
          cases (show other = _ from ok)
          rfl
      | explainConflict =>
          rcases ok with ⟨_, isRequest⟩
          cases isRequest
          rfl
      | replaceSchedule =>
          rcases ok with ⟨_, _, absurdity, _⟩
          cases absurdity
      | findExisting | findDue | advance => cases ok.1
      | rereadExecution =>
          rcases ok with ⟨_, _, _, absurdity⟩
          cases absurdity
      | findTasks =>
          rcases ok with ⟨_, _, absurdity⟩
          cases absurdity
      | recordDecision =>
          rcases ok with ⟨_, absurdity⟩
          cases absurdity
      | rereadApproval =>
          rcases ok with ⟨_, _, _, _, absurdity⟩
          cases absurdity

namespace Platform.Chained

theorem quiet (chained : platform.Chained) {more : List (Answered Val)}
    (workflows : next.workflows = platform.workflows) (log : next.log = more ++ platform.log)
    (silent : ∀ answered ∈ more, answered.silent) : next.Chained := by
  have same : ∀ id, basedOn next.log id = basedOn platform.log id := by
    intro id
    rw [log]
    exact basedOn_of_silent fun answered membership =>
      (silent answered membership).update?_eq_none id
  refine ⟨?_, ?_, ?_⟩
  · intro stored storedMem
    rw [workflows] at storedMem
    rw [same]
    exact chained.chain stored storedMem
  · intro id absent
    rw [workflows] at absent
    rw [same]
    exact chained.absent id absent
  · intro answered membership id update isUpdate
    rw [log] at membership
    rcases List.mem_append.mp membership with new | old
    · cases (silent answered new).update?_eq_none id ▸ isUpdate
    · exact chained.raised answered old id update isUpdate

/-- A stored workflow after an operation: its version is the same, or an update is
answered. -/
theorem turned {request : Request Val} {operation : Operation Val} {goal : Next Val}
    (ok : operation.Ok deployment versions platform request) {stored after : WorkflowDocument Val}
    (turned : Turned deployment operation goal stored after) :
    (after.version = stored.version ∧
        ∀ answered ∈ goal.answered request, answered.update? stored.id = none) ∨
      (after.version = stored.version + 1 ∧ ∃ user body, goal.answered request =
        [⟨.updateWorkflow user stored.id stored.version body, .ok (.workflow after)⟩]) := by
  have unrelated : (∀ user version body, request ≠ .updateWorkflow user stored.id version body) →
      ∀ answered ∈ goal.answered request, answered.update? stored.id = none := by
    intro isOther answered membership
    cases isUpdate : answered.update? stored.id with
    | none => rfl
    | some update =>
        rcases Answered.update?_eq_some.mp isUpdate with ⟨user, body, rfl⟩
        cases goal with
        | operation | call => cases membership
        | answer result =>
            cases List.mem_singleton.mp membership
            exact absurd rfl (isOther user update.1 body)
  cases turned with
  | same silent =>
      refine .inl ⟨rfl, ?_⟩
      intro answered membership
      cases isUpdate : answered.update? stored.id with
      | none => rfl
      | some update =>
          rcases ok.updates membership isUpdate with ⟨isTarget, answers⟩
          exact absurd answers (silent isTarget _)
  | scheduled isOperation =>
      cases isOperation
      rcases ok with ⟨_, _, rfl, _⟩
      refine .inl ⟨rfl, unrelated ?_⟩
      intro _ _ _ absurdity
      cases absurdity
  | cleared isOperation =>
      cases isOperation
      cases (show _ = request from ok)
      refine .inl ⟨rfl, unrelated ?_⟩
      intro _ _ _ absurdity
      cases absurdity
  | @replaced user body isOperation _ _ answers =>
      cases isOperation
      cases (show _ = request from ok)
      rw [answers]
      exact .inr ⟨rfl, user, body, rfl⟩
  | advanced isOperation =>
      cases isOperation
      rcases ok with ⟨rfl, _⟩
      refine .inl ⟨rfl, unrelated ?_⟩
      intro _ _ _ absurdity
      cases absurdity

theorem edited (chained : platform.Chained) {request : Request Val} {operation : Operation Val}
    {goal : Next Val} {image : WorkflowDocument Val → WorkflowDocument Val}
    {added : List (WorkflowDocument Val)}
    (ok : operation.Ok deployment versions platform request)
    (log : next.log = goal.answered request ++ platform.log)
    (turns : Edited.Turns deployment operation goal platform.workflows next.workflows image added) :
    next.Chained := by
  have untargeted : ∀ id, id ∉ platform.workflows.ids →
      basedOn (goal.answered request ++ platform.log) id = [] := by
    intro id absent
    rw [basedOn_of_silent, chained.absent id absent]
    intro answered membership
    cases isUpdate : answered.update? id with
    | none => rfl
    | some update =>
        rcases ok.updates membership isUpdate with ⟨isTarget, answers⟩
        exact absurd (turns.found id _ isTarget answers) absent
  refine ⟨?_, ?_, ?_⟩
  · intro after membership
    rw [log]
    rw [turns.values] at membership
    rcases List.mem_append.mp membership with old | new
    · rcases List.mem_map.mp old with ⟨stored, storedMem, rfl⟩
      have isTurned := turns.turned stored storedMem
      rcases chained.chain stored storedMem with ⟨first, chain, version⟩
      refine ⟨first, ?_⟩
      rw [isTurned.id_eq]
      rcases turned ok isTurned with ⟨same, silent⟩ | ⟨raised, user, body, answers⟩
      · rw [basedOn_of_silent silent, same]
        exact ⟨chain, version⟩
      · rw [answers, basedOn_of_update, raised, List.reverse_cons, List.length_cons, chain,
          List.range'_concat, version]
        exact ⟨by rw [Nat.one_mul], Nat.add_assoc _ _ _⟩
    · rw [untargeted after.id (turns.fresh after new).1]
      exact ⟨after.version, rfl, rfl⟩
  · intro id absent
    rw [log]
    apply untargeted
    intro present
    apply absent
    rw [turns.ids]
    exact List.mem_append_left _ present
  · intro answered membership id update isUpdate
    rw [log] at membership
    rcases List.mem_append.mp membership with new | old
    · rcases ok.updates new isUpdate with ⟨isTarget, answers⟩
      rcases Collection.mem_ids.mp (turns.found id _ isTarget answers) with
        ⟨stored, storedMem, isId⟩
      cases isId
      rcases turned ok (turns.turned stored storedMem) with ⟨_, silent⟩ | ⟨raised, user, body, single⟩
      · cases (silent answered new).symm.trans isUpdate
      · rw [single] at new
        cases List.mem_singleton.mp new
        cases (if_pos rfl).symm.trans isUpdate
        exact raised
    · exact chained.raised answered old id update isUpdate

theorem init {deployment : Deployment} [Mixed Val] [ToJson Val] (library : Library Val)
    (start : Time) : (platformSystem Val deployment library start).init.Chained :=
  ⟨fun stored _ => ⟨stored.version, rfl, rfl⟩, fun _ _ => rfl,
    fun _ absurdity => by cases absurdity⟩

theorem step [Mixed Val] [ToJson Val] (chained : platform.Chained)
    (inv : platform.Inv deployment versions) {action : Platform.Action Val}
    (moved : Moved deployment platform action next) : next.Chained := by
  cases inv.edits moved with
  | quiet workflows log silent => exact chained.quiet workflows log silent
  | edited _ ok log turns => exact chained.edited ok log turns

end Platform.Chained

/-! ## Definitions of runs -/

/-- What a task was defined as. -/
structure Settings (Val : Type) where
  key : Key
  type : String
  config : Val
  dependsOn : List Key
  maxAttempts : Nat
  baseDelayMs : Nat
  timeoutMs : Nat

def TaskShape.settings (shape : TaskShape Val) : Settings Val :=
  { key := shape.key, type := shape.type, config := shape.config, dependsOn := shape.dependsOn
    maxAttempts := shape.maxAttempts, baseDelayMs := shape.baseDelayMs
    timeoutMs := shape.timeoutMs }

def Task.settings (task : Task Val) : Settings Val := task.shape.settings

/-- The settings of the tasks of a new run depend on the definitions alone. -/
theorem start_settings [Mixed Val] {env env' : Env} {params params' : StartParams Val}
    (same : params.workflow.tasks = params'.workflow.tasks) :
    (Run.start env params).shapes.map TaskShape.settings =
      (Run.start env' params').shapes.map TaskShape.settings := by
  simp only [Run.start, Run.shapes, List.map_map, same]
  rfl

/-- Two runs of one version of a workflow have the same definition. -/
theorem Platform.Inv.definition [Mixed Val] [ToJson Val] (inv : platform.Inv deployment versions)
    {left right : WorkflowExecution Val} (leftMem : left ∈ platform.sys.db.executions.values)
    (rightMem : right ∈ platform.sys.db.executions.values)
    (workflow : left.workflowId = right.workflowId)
    (version : left.workflowVersion = right.workflowVersion) :
    (platform.sys.db.runOf left).tasks.map Task.settings =
      (platform.sys.db.runOf right).tasks.map Task.settings := by
  rcases inv.provenance.runs left leftMem with ⟨params, issued, env, shape, shapes⟩
  rcases inv.provenance.runs right rightMem with ⟨params', issued', env', shape', shapes'⟩
  have sameWorkflow : params.workflow.id = params'.workflow.id := by
    have isLeft := congrArg ExecutionShape.workflowId shape
    have isRight := congrArg ExecutionShape.workflowId shape'
    exact isLeft.symm.trans (workflow.trans isRight)
  have sameVersion : params.workflow.version = params'.workflow.version := by
    have isLeft := congrArg ExecutionShape.workflowVersion shape
    have isRight := congrArg ExecutionShape.workflowVersion shape'
    exact isLeft.symm.trans (version.trans isRight)
  have tasks : params.workflow.tasks = params'.workflow.tasks := by
    rw [← issued.known.tasks, ← issued'.known.tasks, sameWorkflow, sameVersion]
  have settings : (platform.sys.db.runOf left).shapes.map TaskShape.settings =
      (platform.sys.db.runOf right).shapes.map TaskShape.settings := by
    rw [shapes, shapes', start_settings tasks]
  rwa [Run.shapes, Run.shapes, List.map_map, List.map_map] at settings

/-! ## The guarantee -/

/-- The request that a job works off in a step. -/
def Platform.request? (platform : Platform Val) : Platform.Action Val → Option (Request Val)
  | .perform index _ => platform.jobs[index]?.map (·.request)
  | _ => none

/-- A stored workflow after a step that works off this request. -/
inductive Revised (request : Option (Request Val)) (stored : WorkflowDocument Val) :
    WorkflowDocument Val → Prop where
  | same : Revised request stored stored
  | updated {user : User} {body : DefinitionBody Val} :
      request = some (.updateWorkflow user stored.id stored.version body) →
      Revised request stored
        { stored with
          name := body.name, description := body.description, tasks := body.tasks
          version := stored.version + 1 }
  | scheduled {schedule : Option (WorkflowSchedule Val)} :
      (∃ user body, request = some (.setSchedule user stored.id body)) ∨
        (∃ user, request = some (.clearSchedule user stored.id)) ∨ request = some .runDue →
      Revised request stored { stored with schedule }

/-- No edit is lost, and a version names one definition. -/
structure NoLostEdits [Mixed Val] [ToJson Val] (deployment : Deployment)
    (platform : Platform Val) : Prop where
  /-- every update is based on the version that the one before it has made -/
  chain : ∀ stored ∈ platform.workflows.values, ∃ first,
    (basedOn platform.log stored.id).reverse =
        List.range' first (basedOn platform.log stored.id).length ∧
      stored.version = first + (basedOn platform.log stored.id).length
  raised : ∀ answered ∈ platform.log, ∀ id update, answered.update? id = some update →
    update.2.version = update.1 + 1
  definition : ∀ left ∈ platform.sys.db.executions.values,
    ∀ right ∈ platform.sys.db.executions.values, left.workflowId = right.workflowId →
      left.workflowVersion = right.workflowVersion →
        (platform.sys.db.runOf left).tasks.map Task.settings =
          (platform.sys.db.runOf right).tasks.map Task.settings
  /-- schedules and definitions are edited apart from each other -/
  revised : ∀ action next, platform.step deployment action = some next →
    ∀ stored ∈ platform.workflows.values, ∃ after ∈ next.workflows.values,
      Revised (platform.request? action) stored after

theorem Turned.revised {request : Request Val} {operation : Operation Val} {goal : Next Val}
    (ok : operation.Ok deployment versions platform request) {stored after : WorkflowDocument Val}
    (turned : Turned deployment operation goal stored after) :
    Revised (some request) stored after := by
  cases turned with
  | same => exact .same
  | scheduled isOperation =>
      cases isOperation
      rcases ok with ⟨body, _, rfl, _⟩
      exact .scheduled (.inl ⟨_, body, rfl⟩)
  | cleared isOperation =>
      cases isOperation
      cases (show _ = request from ok)
      exact .scheduled (.inr (.inl ⟨_, rfl⟩))
  | replaced isOperation =>
      cases isOperation
      cases (show _ = request from ok)
      exact .updated rfl
  | advanced isOperation =>
      cases isOperation
      rcases ok with ⟨rfl, _⟩
      exact .scheduled (.inr (.inr rfl))

/-- In every state of every schedule. -/
theorem no_lost_edits [Mixed Val] [ToJson Val] {library : Library Val} {start : Time}
    (reachable : (platformSystem Val deployment library start).Reachable platform) :
    NoLostEdits deployment platform := by
  rcases Platform.inv_of_reachableBy reachable with ⟨versions, inv⟩
  have chained : platform.Chained := by
    clear inv
    induction reachable with
    | init => exact .init library start
    | step before _ taken ih =>
        rcases Platform.inv_of_reachableBy before with ⟨_, inv⟩
        exact ih.step inv (Platform.moved_of_step taken)
  refine ⟨chained.chain, chained.raised, ?_, ?_⟩
  · intro left leftMem right rightMem workflow version
    exact inv.definition leftMem rightMem workflow version
  · intro action next taken stored storedMem
    cases inv.edits (Platform.moved_of_step taken) with
    | quiet workflows =>
        rw [workflows]
        exact ⟨stored, storedMem, .same⟩
    | @edited index env request operation goal _ image added found ok _ turns =>
        refine ⟨image stored, ?_, ?_⟩
        · rw [turns.values]
          exact List.mem_append_left _ (List.mem_map_of_mem storedMem)
        · rw [Platform.request?, found]
          exact (turns.turned stored storedMem).revised ok

namespace Schedule

/-- A user creates a workflow, runs it twice and updates it. -/
def twiceRun : List (Platform.Action Plain) :=
  [.submit (.createWorkflow user (body 1)), perform 0 10,
    .submit (.run user 10 (.number 1) none), perform 1 20] ++ advances 0 [21, 22] ++
  [.submit (.run user 10 (.number 2) none), perform 2 30] ++ advances 1 [31, 32] ++
  [.submit (.updateWorkflow user 10 1 (body 2)), perform 3 40,
    .submit (.updateWorkflow user 10 2 (body 3)), perform 4 50]

end Schedule

theorem no_lost_edits_twiceRun :
    ∃ runs, basedOn (Schedule.platformAfter Schedule.deployment Schedule.noLibrary
          Schedule.twiceRun runs).log 10 = [2, 1] ∧
      (Schedule.platformAfter Schedule.deployment Schedule.noLibrary
        Schedule.twiceRun runs).sys.db.executions.ids = [22, 32] ∧
      NoLostEdits Schedule.deployment (Schedule.platformAfter Schedule.deployment
        Schedule.noLibrary Schedule.twiceRun runs) :=
  ⟨by decide +kernel, by decide +kernel, by decide +kernel,
    no_lost_edits (Schedule.platformAfter_reachable _ _ _ (by decide +kernel))⟩

end WorkflowEngine
