import WorkflowEngine.Services.Invariant

/-!
# Answers to requests with an idempotency key

A run that was started with a key stores the hash of the request that started it.  A
request that finds its key taken is compared with that hash.
-/

namespace WorkflowEngine

open DocStore

variable {Val : Type}

/-- The user has started the execution with this key. -/
structure WorkflowExecution.StartedBy (user : User) (key : IdempotencyKey)
    (execution : WorkflowExecution Val) : Prop where
  triggeredBy : execution.triggeredBy = some user.id
  idempotencyKey : execution.idempotencyKey = some key.text

theorem WorkflowExecution.StartedBy.of_shape {user : User} {key : IdempotencyKey}
    {execution later : WorkflowExecution Val} (started : execution.StartedBy user key)
    (shape : later.shape = execution.shape) : later.StartedBy user key :=
  ⟨(congrArg ExecutionShape.triggeredBy shape).trans started.triggeredBy,
    (congrArg ExecutionShape.idempotencyKey shape).trans started.idempotencyKey⟩

variable [ToJson Val]

/-- The request asks for the run of this execution. -/
structure WorkflowExecution.Matches (workflowId : ObjectId) (input : Val)
    (execution : WorkflowExecution Val) : Prop where
  workflow : execution.workflowId = workflowId
  input : canonical (ToJson.toJson execution.input) = canonical (ToJson.toJson input)

theorem WorkflowExecution.Matches.iff_shape {workflowId : ObjectId} {input : Val}
    {execution later : WorkflowExecution Val} (shape : later.shape = execution.shape) :
    later.Matches workflowId input ↔ execution.Matches workflowId input := by
  have workflow : later.workflowId = execution.workflowId :=
    congrArg ExecutionShape.workflowId shape
  have sameInput : later.input = execution.input := congrArg ExecutionShape.input shape
  constructor
  · rintro ⟨isWorkflow, isInput⟩
    exact ⟨workflow.symm.trans isWorkflow, sameInput ▸ isInput⟩
  · rintro ⟨isWorkflow, isInput⟩
    exact ⟨workflow.trans isWorkflow, sameInput ▸ isInput⟩

/-- What a request with a key may be answered. -/
inductive RunOutcome (db : Db Val) (user : User) (workflowId : ObjectId) (input : Val)
    (key : IdempotencyKey) : Except ServiceError (Answer Val) → Prop where
  | ran {stored execution : WorkflowExecution Val} {replayed : Bool} :
      stored ∈ db.executions.values → stored.StartedBy user key → stored.Matches workflowId input →
      stored.shape = execution.shape →
      RunOutcome db user workflowId input key (.ok (.ran execution replayed))
  | reused {stored : WorkflowExecution Val} :
      stored ∈ db.executions.values → stored.StartedBy user key →
      ¬ stored.Matches workflowId input →
      RunOutcome db user workflowId input key (.error Platform.keyReused)
  /-- the workflow was not found -/
  | notFound : RunOutcome db user workflowId input key (.error workflowNotFound)
  /-- nothing was inserted because the definition is not a valid DAG -/
  | invalid {errors : List DagError} :
      RunOutcome db user workflowId input key (.error (.engine (.invalidWorkflowGraph errors)))

theorem RunOutcome.later {db newer : Db Val} (since : Db.Since db newer) {user : User}
    {workflowId : ObjectId} {input : Val} {key : IdempotencyKey}
    {answer : Except ServiceError (Answer Val)}
    (outcome : RunOutcome db user workflowId input key answer) :
    RunOutcome newer user workflowId input key answer := by
  cases outcome with
  | ran storedMem started isRequest shape =>
      rcases since.runs _ storedMem with ⟨next, nextMem, _, evolves⟩
      exact .ran nextMem (started.of_shape evolves.shape)
        ((WorkflowExecution.Matches.iff_shape evolves.shape).mpr isRequest)
        (evolves.shape.trans shape)
  | reused storedMem started other =>
      rcases since.runs _ storedMem with ⟨next, nextMem, _, evolves⟩
      refine .reused nextMem (started.of_shape evolves.shape) ?_
      intro isRequest
      exact other ((WorkflowExecution.Matches.iff_shape evolves.shape).mp isRequest)
  | notFound => exact .notFound
  | invalid => exact .invalid

/-! ## Stored runs -/

variable [Mixed Val] {deployment : Deployment} {versions : Versions Val}
  {platform next : Platform Val}

/-- A run of a client's key stores the hash of its request. -/
theorem Platform.Inv.requestHash (inv : platform.Inv deployment versions) {user : User}
    {key : IdempotencyKey} {stored : WorkflowExecution Val}
    (membership : stored ∈ platform.sys.db.executions.values)
    (started : stored.StartedBy user key) :
    stored.requestHash = some (deployment.sha256 (requestText stored.workflowId stored.input)) := by
  rcases inv.provenance.runs stored membership with ⟨params, issued, env, shape, _⟩
  have isKey : params.idempotencyKey = some key.text :=
    (congrArg ExecutionShape.idempotencyKey shape).symm.trans started.idempotencyKey
  have isHash : stored.requestHash = params.requestHash :=
    congrArg ExecutionShape.requestHash shape
  have workflow : stored.workflowId = params.workflow.id :=
    congrArg ExecutionShape.workflowId shape
  have input : stored.input = params.input := congrArg ExecutionShape.input shape
  rw [isHash, workflow, input]
  cases issued with
  | @run _ _ _ client _ _ =>
      cases client with
      | none => cases isKey
      | some client => rfl
  | @slot due _ =>
      exact absurd (Option.some.inj isKey).symm (key.ne_slotKey due.workflow.id _)

/-- Hashes compare requests, if there are no collisions. -/
theorem Platform.Inv.matches_iff (inv : platform.Inv deployment versions)
    (collisionFree : Function.Injective deployment.sha256) {user : User} {key : IdempotencyKey}
    {stored : WorkflowExecution Val} (membership : stored ∈ platform.sys.db.executions.values)
    (started : stored.StartedBy user key) {workflowId : ObjectId} {input : Val} :
    stored.requestHash = Platform.requestHash deployment workflowId input (some key) ↔
      stored.Matches workflowId input := by
  rw [inv.requestHash membership started, Platform.requestHash, Option.map_some,
    Option.some.injEq, collisionFree.eq_iff, requestText_inj]
  constructor
  · rintro ⟨workflow, sameInput⟩
    exact ⟨workflow, sameInput⟩
  · rintro ⟨workflow, sameInput⟩
    exact ⟨workflow, sameInput⟩

/-! ## Answers -/

/-- Every request with a key was answered as it may be. -/
def Platform.Answers (platform : Platform Val) : Prop :=
  ∀ answered ∈ platform.log, ∀ user workflowId input key,
    answered.request = .run user workflowId input (some key) →
      RunOutcome platform.sys.db user workflowId input key answered.answer

/-- A store operation fails. -/
def Platform.Action.fails : Platform.Action Val → Bool
  | .fail _ _ => true
  | _ => false

omit [ToJson Val] [Mixed Val] in
theorem getWorkflow_error {workflows : Collection (WorkflowDocument Val)} {user : User}
    {id : ObjectId} {thrown : ServiceError}
    (threw : (getWorkflow user id).run workflows = .error thrown) : thrown = workflowNotFound := by
  rcases Session.bind_eq_error.mp threw with absurdity | ⟨found, _, _, rest⟩
  · cases absurdity
  · cases found with
    | none =>
        cases rest
        rfl
    | some workflow => cases rest

omit [ToJson Val] [Mixed Val] in
/-- The operations of a request for a run. -/
theorem Operation.Ok.of_run {user : User} {workflowId : ObjectId} {input : Val}
    {key : Option IdempotencyKey} {operation : Operation Val}
    (ok : operation.Ok deployment versions platform (.run user workflowId input key)) :
    operation = .first (.run user workflowId input key) ∨
      ∃ given, key = some given ∧ operation = .findExisting user workflowId input given ∧
        platform.sys.db.Taken (some user.id) (some given.text) := by
  cases operation with
  | first request => exact .inl (congrArg Operation.first ok)
  | findExisting user' workflowId' input' key' =>
      rcases ok with ⟨isRequest, taken⟩
      cases isRequest
      exact .inr ⟨key', rfl, rfl, taken⟩
  | replaceSchedule =>
      rcases ok with ⟨_, _, absurdity, _⟩
      cases absurdity
  | explainConflict | recordDecision =>
      rcases ok with ⟨_, absurdity⟩
      cases absurdity
  | rereadExecution =>
      rcases ok with ⟨_, _, _, absurdity⟩
      cases absurdity
  | findTasks =>
      rcases ok with ⟨_, _, absurdity⟩
      cases absurdity
  | rereadApproval =>
      rcases ok with ⟨_, _, _, _, absurdity⟩
      cases absurdity
  | findDue | advance => cases ok.1

omit [Mixed Val] in
/-- The call of the engine that a request for a run makes. -/
theorem Waiting.Asks.of_run {user : User} {workflowId : ObjectId} {input : Val}
    {key : Option IdempotencyKey} {waiting : Waiting Val} {op : Op Val}
    (asks : waiting.Asks deployment versions platform (.run user workflowId input key) op) :
    waiting = .run user workflowId input key ∧ ∃ workflow : Workflow Val,
      workflow.id = workflowId ∧
        op = .startExecution (Platform.runParams deployment user workflow input key) := by
  cases waiting with
  | run user' workflowId' input' key' =>
      rcases asks with ⟨isRequest, workflow, _, _, isWorkflow, isOp⟩
      cases isRequest
      exact ⟨rfl, workflow, isWorkflow, isOp⟩
  | slot => cases asks.1
  | control =>
      rcases asks with ⟨⟨_, _, absurdity⟩, _⟩
      cases absurdity
  | resolve =>
      rcases asks with ⟨⟨_, _, _, _, absurdity⟩, _⟩
      cases absurdity

/-- An operation that answers a request with a key. -/
theorem Platform.Inv.perform_run (inv : platform.Inv deployment versions)
    (collisionFree : Function.Injective deployment.sha256) {env : Env} {user : User}
    {workflowId : ObjectId} {input : Val} {key : IdempotencyKey} {operation : Operation Val}
    (ok : operation.Ok deployment versions platform (.run user workflowId input (some key)))
    {final : Collection (WorkflowDocument Val)} {answer : Except ServiceError (Answer Val)}
    (performed : perform deployment env platform.now platform.workflows platform.sys.db
      platform.log.length operation = (final, .answer answer)) :
    RunOutcome platform.sys.db user workflowId input key answer := by
  rcases ok.of_run with rfl | ⟨given, isKey, rfl, _, taken, takenMem, isUser, isTaken⟩
  · simp only [perform, begin] at performed
    split at performed
    · cases performed
    · next threw =>
      cases performed
      rw [getWorkflow_error threw]
      exact .notFound
  · cases isKey
    simp only [perform] at performed
    split at performed
    · next existing rest found =>
      have isFound : existing ∈ platform.sys.db.executions.find fun execution =>
          execution.triggeredBy == some user.id && execution.idempotencyKey == some key.text := by
        rw [found]
        exact List.mem_cons_self
      rcases List.mem_filter.mp isFound with ⟨membership, byUser⟩
      rcases Bool.and_eq_true_iff.mp byUser with ⟨triggered, keyed⟩
      have started : existing.StartedBy user key :=
        ⟨beq_iff_eq.mp triggered, beq_iff_eq.mp keyed⟩
      have compares : existing.requestHash =
            Platform.requestHash deployment workflowId input (some key) ↔
          existing.Matches workflowId input :=
        inv.matches_iff collisionFree membership started
      split at performed
      · next same =>
        cases performed
        exact .ran membership started (compares.mp same) rfl
      · next differs =>
        cases performed
        exact .reused membership started fun isRequest => differs (compares.mpr isRequest)
    · next found =>
      have isFound : taken ∈ platform.sys.db.executions.find fun execution =>
          execution.triggeredBy == some user.id && execution.idempotencyKey == some key.text := by
        apply List.mem_filter.mpr
        refine ⟨takenMem, ?_⟩
        rw [isUser, isTaken, beq_self_eq_true, beq_self_eq_true]
        rfl
      rw [found] at isFound
      cases isFound

omit [Mixed Val] in
/-- The engine's reply to a request with a key. -/
theorem Waiting.Asks.run {user : User} {workflowId : ObjectId} {input : Val} {key : IdempotencyKey}
    {waiting : Waiting Val} {op : Op Val} {reply : Reply Val}
    {answer : Except ServiceError (Answer Val)} {db : Db Val}
    (asks : waiting.Asks deployment versions platform (.run user workflowId input (some key)) op)
    (tells : ∀ params, op = .startExecution params → reply.Tells db params)
    (resumes : waiting.resume reply = .answer answer) :
    RunOutcome db user workflowId input key answer := by
  rcases asks.of_run with ⟨rfl, workflow, isWorkflow, isOp⟩
  have told := tells _ isOp
  cases reply with
  | startExecution called execution =>
      rcases told with ⟨rfl, ⟨env, rfl⟩, stored, storedMem, shape⟩
      cases resumes
      refine .ran storedMem (WorkflowExecution.StartedBy.of_shape ⟨rfl, rfl⟩ shape) ?_ shape
      exact (WorkflowExecution.Matches.iff_shape shape).mpr ⟨isWorkflow, rfl⟩
  | threw thrown =>
      rcases told with ⟨_, rfl⟩ | ⟨rfl, _⟩
      · cases resumes
        exact .invalid
      · cases resumes
  | _ => cases told

namespace Platform.Answers

theorem step (answers : platform.Answers) (inv : platform.Inv deployment versions)
    (collisionFree : Function.Injective deployment.sha256) {action : Platform.Action Val}
    (moved : Moved deployment platform action next) (works : action.fails = false) :
    next.Answers := by
  rcases inv.moved moved with ⟨_, later, _⟩
  have old : ∀ answered ∈ platform.log, ∀ user workflowId input key,
      answered.request = .run user workflowId input (some key) →
        RunOutcome next.sys.db user workflowId input key answered.answer := by
    intro answered membership user workflowId input key isRequest
    exact (answers answered membership user workflowId input key isRequest).later later.since
  intro answered membership user workflowId input key isRequest
  cases moved with
  | tick | submitted | stopped | invoked | crashed =>
      exact old answered membership user workflowId input key isRequest
  | @went _ index request state workflows goal found goes =>
      rcases List.mem_append.mp membership with new | before
      · cases goal with
        | operation | call => cases new
        | answer result =>
            cases List.mem_singleton.mp new
            cases isRequest
            have ok := inv.jobs _ (List.mem_of_getElem? found)
            generalize isGoal : Next.answer result = goal at goes
            cases goes with
            | performed fresh performed =>
                rw [← isGoal] at performed
                rw [Next.calling_db]
                exact inv.perform_run collisionFree ok performed
            | failed | threw => cases works
      · exact old answered before user workflowId input key isRequest
  | @advanced call env sys fresh taken =>
      rcases inv.sys.stepped taken with ⟨label, stepped⟩
      have advanced : Advanced platform call sys label (platform.advanced call sys) :=
        advanced_cases inv.oneWaits stepped.log
      generalize platform.advanced call sys = next at advanced membership old
      cases advanced with
      | idle | pending => exact old answered membership user workflowId input key isRequest
      | @resumed index request waiting before reply found ended isKnown =>
          rcases List.mem_append.mp membership with new | isOld
          · rcases inv.told fresh stepped found with ⟨op, stack, _, asks, started⟩
            cases goes : waiting.resume reply with
            | operation | call =>
                rw [goes] at new
                cases new
            | answer result =>
                rw [goes] at new
                cases List.mem_singleton.mp new
                cases isRequest
                exact asks.run (fun params isOp => (started params isOp).tells reply isKnown) goes
          · exact old answered isOld user workflowId input key isRequest

end Platform.Answers

end WorkflowEngine
