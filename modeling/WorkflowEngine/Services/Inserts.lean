import WorkflowEngine.Services.Answers

/-!
# The insert of a run

A request for a run waits for a call of the engine.  Until the call commits, it changes
nothing; its commit stores the execution, its tasks and its event, and after that only
the process of the request can keep the answer from the user.
-/

namespace WorkflowEngine

open DocStore

variable {Val : Type} [Mixed Val]

/-- The run is stored with its tasks and its event, and nothing else changes. -/
structure Inserted (env : Env) (params : StartParams Val) (db next : Db Val) : Prop where
  isNew : ∀ execution ∈ db.executions.values, execution.id ≠ env.objectId
  absent : ∀ execution ∈ db.executions.values,
    Document.clash execution (newExecution env params) = false
  executions : next.executions = db.executions ++ [⟨0, newExecution env params⟩]
  tasks : next.tasks = db.tasks ++ (Run.start env params).tasks.map (Stored.mk 0)
  outbox : ∃ rows, Describes env.objectId (Run.start env params).events rows ∧
    next.outbox = db.outbox ++ rows.map (Stored.mk 0)
  attempts : next.attempts = db.attempts
  approvals : next.approvals = db.approvals

theorem Sys.Stepped.inserted {sys next : Sys Val} {action : Action Val}
    {params : StartParams Val} {execution : WorkflowExecution Val}
    (stepped : sys.Stepped action next (some (.startExecution params execution))) :
    ∃ env, execution = newExecution env params ∧ Inserted env params sys.db next.db := by
  have absent : ∀ old ∈ sys.db.executions.values, Document.clash old execution = false :=
    fun _ membership => stepped.unclashed membership
  rcases stepped.created with ⟨env, _, rows, _, isNew, _, describes, commits⟩
  subst isNew
  refine ⟨env, rfl, ?_, absent, commits.executions.eq_of_nil, commits.tasks.eq_of_nil,
    ⟨rows, describes, commits.outbox.eq_of_nil⟩, ?_, ?_⟩
  · intro old membership same
    rcases Collection.mem_values.mp membership with ⟨doc, docMem, rfl⟩
    have fresh := commits.executions.fresh _ (List.mem_singleton_self _)
    have clear := List.any_eq_false.mp fresh doc docMem
    rw [Bool.or_eq_true, not_or, decide_eq_true_eq] at clear
    exact clear.1 same
  · exact commits.attempts.eq_of_nil.trans (List.append_nil _)
  · exact commits.approvals.eq_of_nil.trans (List.append_nil _)

namespace Platform

variable {platform next : Platform Val}

omit [Mixed Val] in
/-- A call has ended, and the job that waits for it knows a reply. -/
theorem advanced_log (oneWaits : OneWaits platform.jobs) {call : Nat} {sys : Sys Val}
    {label before : Option (Reply Val)} {reply : Reply Val} {index : Nat} {request : Request Val}
    {waiting : Waiting Val} (log : sys.log = label.toList ++ platform.sys.log)
    (found : platform.jobs[index]? = some ⟨request, .waiting waiting call before⟩)
    (ended : sys.calls[call]? = some []) (isKnown : known label before = some reply) :
    (platform.advanced call sys).log = (waiting.resume reply).answered request ++ platform.log := by
  have job : (platform.advanced call sys).jobs[index]? =
      some ⟨request, (waiting.resume reply).state 0⟩ := by
    rw [advanced_job log found, ended, isKnown]
    rfl
  have advanced : Advanced platform call sys label (platform.advanced call sys) :=
    advanced_cases oneWaits log
  generalize platform.advanced call sys = next at job advanced
  cases advanced with
  | idle others => exact absurd rfl (others _ (List.mem_of_getElem? found))
  | @pending other _ _ _ isJob =>
      cases oneWaits other index _ _ call isJob found rfl rfl
      rw [List.getElem?_set_self (List.getElem?_eq_some_iff.mp found).1] at job
      cases goes : waiting.resume reply with
      | call => exact absurd goes Waiting.resume_ne_call
      | operation | answer =>
          rw [goes] at job
          cases job
  | @resumed other _ _ _ _ isJob _ isReply =>
      cases oneWaits other index _ _ call isJob found rfl rfl
      cases isJob.symm.trans found
      cases isReply.symm.trans isKnown
      rfl

variable [ToJson Val] {deployment : Deployment} {versions : Versions Val}

/-- What a step of its call makes of a request for a run that is not stored yet. -/
inductive Inserts (deployment : Deployment) (platform next : Platform Val) (user : User)
    (workflowId : ObjectId) (input : Val) (key : Option IdempotencyKey) (call : Nat) :
    JobState Val → Prop where
  /-- the transaction begins, perhaps because of a write conflict -/
  | begins : next.sys.db = platform.sys.db →
      Inserts deployment platform next user workflowId input key call
        (.waiting (.run user workflowId input key) call none)
  | created {env : Env} {workflow : Workflow Val} : workflow.id = workflowId →
      Inserted env (runParams deployment user workflow input key) platform.sys.db next.sys.db →
      Inserts deployment platform next user workflowId input key call
        (.waiting (.run user workflowId input key) call
          (some (.startExecution (runParams deployment user workflow input key)
            (newExecution env (runParams deployment user workflow input key)))))
  /-- the index on user and key refuses the run -/
  | taken {given : IdempotencyKey} : key = some given → next.sys.db = platform.sys.db →
      platform.sys.db.Taken (some user.id) (some given.text) →
      Inserts deployment platform next user workflowId input key call
        (.ready (.findExisting user workflowId input given))
  /-- the definition is not a valid DAG -/
  | invalid {errors : List DagError} : next.sys.db = platform.sys.db →
      next.log = ⟨.run user workflowId input key,
        .error (.engine (.invalidWorkflowGraph errors))⟩ :: platform.log →
      Inserts deployment platform next user workflowId input key call .ended

theorem Inv.inserts (inv : platform.Inv deployment versions) {index call : Nat} {env : Env}
    {request : Request Val} {user : User} {workflowId : ObjectId} {input : Val}
    {key : Option IdempotencyKey}
    (found : platform.jobs[index]? =
      some ⟨request, .waiting (.run user workflowId input key) call none⟩)
    (moved : Moved deployment platform (.advance call env) next) :
    ∃ state, next.jobs[index]? = some ⟨request, state⟩ ∧
      Inserts deployment platform next user workflowId input key call state := by
  cases moved with
  | went _ goes => cases goes
  | @advanced _ _ sys fresh ran =>
  rcases inv.jobs _ (List.mem_of_getElem? found) with ⟨op, stack, isStack, asks, started⟩
  rcases asks with ⟨rfl, workflow, _, _, isWorkflow, rfl⟩
  rcases inv.sys.stepped ran with ⟨label, stepped⟩
  rw [advanced_job stepped.log found]
  have log := stepped.log
  have inBounds : call < platform.sys.calls.length := (List.getElem?_eq_some_iff.mp isStack).1
  have told := (started _ rfl).advanced stepped isStack
    (fun frame isFrame => drawsFresh_top fresh isFrame)
  rcases (started _ rfl).frames with ⟨_, frame, rfl, isOp⟩ | ⟨absurdity, _⟩ | rfl
  · cases stepped.took with
    | @ran _ _ top rest outcome isTop ran =>
        cases isStack.symm.trans isTop
        rw [List.append_nil, List.getElem?_set_self inBounds] at *
        cases frame with
        | transaction op =>
            cases isOp
            cases ran
            cases (Option.toList_eq_nil_iff.mp (label_eq log) : label = none)
            exact ⟨_, rfl, .begins rfl⟩
        | callback op snapshot =>
            cases isOp
            rcases Frame.callback_cases ran with ⟨reply, view, returned, isNext, replies⟩ | rfl
            · rw [replies] at log
              cases label_eq_some log
              rcases Session.bind_eq_ok.mp returned with ⟨execution, _, _, replied⟩
              rcases Session.pure_eq_ok.mp replied with ⟨rfl, _⟩
              rcases stepped.inserted with ⟨drawn, rfl, inserted⟩
              rw [isNext, known_of_returns rfl]
              exact ⟨_, rfl, .created isWorkflow inserted⟩
            · cases (Option.toList_eq_nil_iff.mp (label_eq log) : label = none)
              exact ⟨_, rfl, .begins rfl⟩
        | _ => cases isOp
    | @threw _ _ top rest thrown isTop threw =>
        cases isStack.symm.trans isTop
        cases label_eq_some log
        rcases told with ⟨_, _, ended⟩
        have refused := ended.tells _ (known_of_returns rfl)
        have answered := advanced_log inv.oneWaits log found
          (List.getElem?_set_self inBounds) (known_of_returns rfl)
        rw [List.getElem?_set_self inBounds, known_of_returns rfl]
        refine ⟨_, rfl, ?_⟩
        rcases refused with ⟨_, rfl⟩ | ⟨rfl, byKey⟩
        · exact .invalid rfl answered
        · cases key with
          | none => cases byKey.1
          | some given => exact .taken rfl rfl byKey
  · cases absurdity
  · cases stepped.took with
    | ran isTop | threw isTop => cases isStack.symm.trans isTop

/-- The engine has replied to a request for a run, and replies only once. -/
theorem Inv.replied (inv : platform.Inv deployment versions) {index call : Nat} {env : Env}
    {sys : Sys Val} {label : Option (Reply Val)} {request : Request Val} {user : User}
    {workflowId : ObjectId} {input : Val} {key : Option IdempotencyKey} {reply : Reply Val}
    (stepped : platform.sys.Stepped (.advance call env) sys label)
    (found : platform.jobs[index]? =
      some ⟨request, .waiting (.run user workflowId input key) call (some reply)⟩) :
    known label (some reply) = some reply := by
  rcases inv.jobs _ (List.mem_of_getElem? found) with ⟨op, stack, isStack, asks, started⟩
  rcases asks with ⟨_, _, _, _, _, isOp⟩
  exact known_of_silent ((started _ isOp).silent stepped isStack)

/-- The run is stored; its request is answered with it, or its process stops. -/
theorem Inv.created (inv : platform.Inv deployment versions) {index call : Nat}
    {action : Action Val} {request : Request Val} {user : User} {workflowId : ObjectId}
    {input : Val} {key : Option IdempotencyKey} {params : StartParams Val}
    {execution : WorkflowExecution Val}
    (found : platform.jobs[index]? =
      some ⟨request, .waiting (.run user workflowId input key) call
        (some (.startExecution params execution))⟩)
    (moved : Moved deployment platform action next) (works : action.fails = false) :
    next.jobs[index]? = platform.jobs[index]? ∨
      next.jobs[index]? = some ⟨request, .ended⟩ ∧
        (action = .stop index ∨
          next.log = ⟨request, .ok (.ran execution false)⟩ :: platform.log) := by
  have inBounds : index < platform.jobs.length := (List.getElem?_eq_some_iff.mp found).1
  cases moved with
  | tick | invoked | crashed => exact .inl rfl
  | submitted => exact .inl (List.getElem?_append_left inBounds)
  | @went _ other _ _ _ _ isJob goes =>
      left
      apply List.getElem?_set_ne
      rintro rfl
      cases goes with
      | performed => cases isJob.symm.trans found
      | failed | threw => cases works
  | @stopped other job isJob =>
      rcases Decidable.em (other = index) with rfl | different
      · cases isJob.symm.trans found
        exact .inr ⟨List.getElem?_set_self inBounds, .inl rfl⟩
      · exact .inl (List.getElem?_set_ne different)
  | @advanced moving env sys fresh ran =>
      rcases inv.sys.stepped ran with ⟨label, stepped⟩
      have advanced : Advanced platform moving sys label (platform.advanced moving sys) :=
        advanced_cases inv.oneWaits stepped.log
      generalize platform.advanced moving sys = next at advanced
      cases advanced with
      | idle => exact .inl rfl
      | @pending other _ _ before isJob =>
          left
          rcases Decidable.em (other = index) with rfl | different
          · cases isJob.symm.trans found
            rw [inv.replied stepped found, found]
            exact List.getElem?_set_self inBounds
          · exact List.getElem?_set_ne different
      | @resumed other _ _ before reply isJob ended isKnown =>
          rcases Decidable.em (other = index) with rfl | different
          · cases isJob.symm.trans found
            cases (inv.replied stepped found).symm.trans isKnown
            exact .inr ⟨List.getElem?_set_self inBounds, .inr rfl⟩
          · exact .inl (List.getElem?_set_ne different)

end Platform

end WorkflowEngine
