import WorkflowEngine.Services.Starting

/-!
# What jobs rely on

Between two operations of a job everything else moves on.  The invariant says what a job
may still rely on when its turn comes: which request it works off, which definitions it
has read, and what its call of the engine has done.
-/

namespace WorkflowEngine

open DocStore

variable {Val : Type} [ToJson Val]

/-- Somebody has asked for a run with these parameters. -/
inductive Issued (deployment : Deployment) (versions : Versions Val)
    (workflows : Collection (WorkflowDocument Val)) : StartParams Val → Prop where
  | run {user : User} {workflow : Workflow Val} {input : Val}
      {idempotencyKey : Option IdempotencyKey} :
      Known versions workflows workflow → inScope (ownerScope user) workflow.ownerId = true →
      Issued deployment versions workflows
        (Platform.runParams deployment user workflow input idempotencyKey)
  | slot {due : Due Val} :
      Known versions workflows due.workflow.toWorkflow →
      Issued deployment versions workflows (Platform.slotParams due)

theorem Issued.known {deployment : Deployment} {versions : Versions Val}
    {workflows : Collection (WorkflowDocument Val)} {params : StartParams Val}
    (issued : Issued deployment versions workflows params) :
    Known versions workflows params.workflow := by
  cases issued with
  | run known _ => exact known
  | slot known => exact known

/-- A later state knows what the earlier one knew. -/
structure Platform.Later (versions : Versions Val) (platform : Platform Val)
    (versions' : Versions Val) (next : Platform Val) : Prop where
  known : ∀ workflow, Known versions platform.workflows workflow →
    Known versions' next.workflows workflow
  since : Db.Since platform.sys.db next.sys.db
  now : platform.now ≤ next.now
  log : platform.log.length ≤ next.log.length

/-- What a tick of the scheduler has read. -/
structure Tick.Ok (versions : Versions Val) (platform : Platform Val) (tick : Tick Val) : Prop where
  known : ∀ due ∈ tick.due :: tick.rest, Known versions platform.workflows due.workflow.toWorkflow
  slots : ∀ due ∈ tick.due :: tick.rest, due.schedule.nextRunAt ≤ tick.current
  past : tick.current ≤ platform.now
  seen : tick.seen ≤ platform.log.length

/-- The operation works off the request, and what it relies on. -/
def Operation.Ok (deployment : Deployment) (versions : Versions Val) (platform : Platform Val)
    (request : Request Val) : Operation Val → Prop
  | .first other => other = request
  | .replaceSchedule user id schedule => ∃ body read, request = .setSchedule user id body ∧
      read ≤ platform.now ∧ schedule = newSchedule deployment.cron read body
  | .explainConflict user id version => ∃ body, request = .updateWorkflow user id version body
  | .findExisting user workflowId input key =>
      request = .run user workflowId input (some key) ∧
        platform.sys.db.Taken (some user.id) (some key.text)
  | .rereadExecution _ => ∃ user id action, request = .control user id action
  | .findTasks _ => ∃ user id, request = .getExecution user id
  | .recordDecision user _ approve comment => ∃ id, request = .resolve user id approve comment
  | .rereadApproval _ _ => ∃ user id approve comment, request = .resolve user id approve comment
  | .findDue current => request = .runDue ∧ current ≤ platform.now
  | .advance tick _ => request = .runDue ∧ tick.Ok versions platform

/-- The job has made this call of the engine. -/
def Waiting.Asks (deployment : Deployment) (versions : Versions Val) (platform : Platform Val)
    (request : Request Val) : Waiting Val → Op Val → Prop
  | .run user workflowId input idempotencyKey, op =>
      request = .run user workflowId input idempotencyKey ∧
        ∃ workflow, Known versions platform.workflows workflow ∧
          inScope (ownerScope user) workflow.ownerId = true ∧ workflow.id = workflowId ∧
            op = .startExecution
              (Platform.runParams deployment user workflow input idempotencyKey)
  | .slot tick, op =>
      request = .runDue ∧ tick.Ok versions platform ∧
        op = .startExecution (Platform.slotParams tick.due)
  | .control execution action, op =>
      (∃ user id, request = .control user id action) ∧ op = Platform.controlOp execution.id action
  | .resolve _, op =>
      (∃ user id approve comment, request = .resolve user id approve comment) ∧
        ∃ params, op = .resolveApproval params

def Job.Ok (deployment : Deployment) (versions : Versions Val) (platform : Platform Val)
    (job : Job Val) : Prop :=
  match job.state with
  | .ready operation => operation.Ok deployment versions platform job.request
  | .waiting waiting call reply => ∃ op stack, platform.sys.calls[call]? = some stack ∧
      waiting.Asks deployment versions platform job.request op ∧
        ∀ params, op = .startExecution params →
          StartCall platform.sys.db params stack reply
  | .ended => True

/-- What a job goes on with is in order. -/
def Next.Ok (deployment : Deployment) (versions : Versions Val) (platform : Platform Val)
    (request : Request Val) : Next Val → Prop
  | .operation later => later.Ok deployment versions platform request
  | .call op waiting => waiting.Asks deployment versions platform request op
  | .answer _ => True

/-! ## Later states -/

section Later

variable {deployment : Deployment} {versions versions' : Versions Val}
  {platform next : Platform Val} (grown : platform.Later versions versions' next)
include grown

omit [ToJson Val] in
theorem Tick.Ok.later {tick : Tick Val} (ok : tick.Ok versions platform) :
    tick.Ok versions' next :=
  ⟨fun due membership => grown.known _ (ok.known due membership), ok.slots,
    Int.le_trans ok.past grown.now, Nat.le_trans ok.seen grown.log⟩

omit [ToJson Val] in
theorem Operation.Ok.later {request : Request Val} {operation : Operation Val}
    (ok : operation.Ok deployment versions platform request) :
    operation.Ok deployment versions' next request := by
  cases operation with
  | replaceSchedule user id schedule =>
      rcases ok with ⟨body, read, isRequest, past, isSchedule⟩
      exact ⟨body, read, isRequest, Int.le_trans past grown.now, isSchedule⟩
  | findExisting => exact ⟨ok.1, ok.2.later grown.since⟩
  | findDue => exact ⟨ok.1, Int.le_trans ok.2 grown.now⟩
  | advance => exact ⟨ok.1, ok.2.later grown⟩
  | _ => exact ok

theorem Waiting.Asks.later {request : Request Val} {waiting : Waiting Val} {op : Op Val}
    (asks : waiting.Asks deployment versions platform request op) :
    waiting.Asks deployment versions' next request op := by
  cases waiting with
  | run user workflowId input idempotencyKey =>
      rcases asks with ⟨isRequest, workflow, known, owned, isId, isOp⟩
      exact ⟨isRequest, workflow, grown.known _ known, owned, isId, isOp⟩
  | slot tick => exact ⟨asks.1, asks.2.1.later grown, asks.2.2⟩
  | control | resolve => exact asks

theorem Issued.later {params : StartParams Val}
    (issued : Issued deployment versions platform.workflows params) :
    Issued deployment versions' next.workflows params := by
  cases issued with
  | run known owned => exact .run (grown.known _ known) owned
  | slot known => exact .slot (grown.known _ known)

end Later

theorem Waiting.Asks.issued {deployment : Deployment} {versions : Versions Val}
    {platform : Platform Val} {request : Request Val} {waiting : Waiting Val}
    {params : StartParams Val}
    (asks : waiting.Asks deployment versions platform request (.startExecution params)) :
    Issued deployment versions platform.workflows params := by
  cases waiting with
  | run user workflowId input idempotencyKey =>
      rcases asks with ⟨_, workflow, known, owned, _, isOp⟩
      cases isOp
      exact .run known owned
  | slot tick =>
      rcases asks with ⟨_, ok, isOp⟩
      cases isOp
      exact .slot (ok.known _ List.mem_cons_self)
  | control execution action =>
      rcases asks with ⟨_, isOp⟩
      cases action <;> cases isOp
  | resolve approvalId =>
      rcases asks with ⟨_, _, isOp⟩
      cases isOp

/-! ## How jobs go on -/

section Goes

variable {deployment : Deployment} {versions : Versions Val} {platform : Platform Val}
  {request : Request Val}

/-- The scheduler goes on to a workflow that it has read. -/
theorem Platform.startNext_ok {current : Time} {started seen : Nat} {rest : List (Due Val)}
    (isRequest : request = .runDue)
    (known : ∀ due ∈ rest, Known versions platform.workflows due.workflow.toWorkflow)
    (slots : ∀ due ∈ rest, due.schedule.nextRunAt ≤ current) (past : current ≤ platform.now)
    (isSeen : seen ≤ platform.log.length) :
    (startNext current started seen rest).Ok deployment versions platform request := by
  cases rest with
  | nil => trivial
  | cons due rest => exact ⟨isRequest, ⟨known, slots, past, isSeen⟩, rfl⟩

/-- The engine has thrown, or the store has. -/
theorem Waiting.threw_ok {waiting : Waiting Val} {op : Op Val} {thrown : ServiceError}
    (asks : waiting.Asks deployment versions platform request op)
    (taken : thrown = .engine .duplicateKey → ∀ params, op = .startExecution params →
      platform.sys.db.Taken params.triggeredBy params.idempotencyKey) :
    (waiting.threw thrown).Ok deployment versions platform request := by
  cases waiting with
  | run user workflowId input idempotencyKey =>
      rcases asks with ⟨isRequest, workflow, _, _, _, isOp⟩
      simp only [Waiting.threw, Waiting.refused]
      split
      · next key => exact ⟨isRequest, taken rfl _ isOp⟩
      · trivial
  | slot tick => exact ⟨asks.1, asks.2.1⟩
  | control | resolve => trivial

/-- The call of the engine has ended. -/
theorem Waiting.resume_ok {waiting : Waiting Val} {op : Op Val} {reply : Reply Val}
    (asks : waiting.Asks deployment versions platform request op)
    (tells : ∀ params, op = .startExecution params → reply.Tells platform.sys.db params) :
    (waiting.resume reply).Ok deployment versions platform request := by
  have refused : ∀ thrown, reply = .threw thrown →
      (waiting.threw (.engine thrown)).Ok deployment versions platform request := by
    intro thrown isReply
    apply threw_ok asks
    intro duplicate params isOp
    cases duplicate
    have told := tells params isOp
    rw [isReply] at told
    rcases told with ⟨_, absurdity⟩ | ⟨_, taken⟩
    · cases absurdity
    · exact taken
  have controlled : ∀ execution action changed, waiting = .control execution action →
      (Waiting.controlled execution action changed).Ok deployment versions platform request := by
    intro execution action changed isWaiting
    rw [isWaiting] at asks
    rcases asks with ⟨⟨user, id, isRequest⟩, _⟩
    cases changed with
    | true => exact ⟨user, id, action, isRequest⟩
    | false => trivial
  simp only [Waiting.resume]
  split
  · next thrown => exact refused thrown rfl
  · trivial
  · rcases asks with ⟨isRequest, ok, _⟩
    exact ⟨isRequest, ok.known, ok.slots, ok.past, ok.seen⟩
  · exact controlled _ _ _ rfl
  · exact controlled _ _ _ rfl
  · exact controlled _ _ _ rfl
  · exact asks.1
  · apply threw_ok asks
    intro absurdity
    cases absurdity

theorem Platform.begin_ok (nodup : platform.workflows.ids.Nodup)
    (consistent : Consistent versions platform.workflows) {env : Env}
    {final : Collection (WorkflowDocument Val)} {goal : Next Val}
    (performed : begin deployment env platform.now platform.workflows platform.sys.db request =
      (final, goal)) :
    goal.Ok deployment versions platform request := by
  cases request with
  | createWorkflow | listWorkflows | getWorkflow | clearSchedule =>
      simp only [begin] at performed
      split at performed <;> cases performed <;> trivial
  | setSchedule user id body =>
      simp only [begin] at performed
      split at performed
      · cases performed
        exact ⟨body, platform.now, rfl, Int.le_refl _, rfl⟩
      · cases performed
        trivial
  | updateWorkflow user id version body =>
      simp only [begin] at performed
      split at performed
      · cases performed
        trivial
      · cases performed
        exact ⟨body, rfl⟩
      · cases performed
        trivial
  | run user workflowId input idempotencyKey =>
      simp only [begin] at performed
      split at performed
      · next ran =>
        rcases getWorkflow_ok nodup ran with ⟨_, membership, isId, owned⟩
        cases performed
        exact ⟨rfl, _, consistent.known membership, owned, isId, rfl⟩
      · cases performed
        trivial
  | control user executionId action =>
      simp only [begin] at performed
      split at performed
      · cases performed
        exact ⟨⟨user, executionId, rfl⟩, rfl⟩
      · cases performed
        trivial
  | getExecution user executionId =>
      simp only [begin] at performed
      split at performed
      · cases performed
        exact ⟨user, executionId, rfl⟩
      · cases performed
        trivial
  | listApprovals user status =>
      cases performed
      simp only [require]
      split <;> trivial
  | getApproval user id =>
      cases performed
      simp only [require]
      split
      · split <;> trivial
      · trivial
  | resolve user id approve comment =>
      cases performed
      simp only [require]
      split
      · split
        · split
          · exact ⟨id, rfl⟩
          · trivial
        · trivial
      · trivial
  | runDue =>
      cases performed
      exact ⟨rfl, Int.le_refl _⟩

theorem Platform.perform_ok (nodup : platform.workflows.ids.Nodup)
    (consistent : Consistent versions platform.workflows) {env : Env} {operation : Operation Val}
    {final : Collection (WorkflowDocument Val)} {goal : Next Val}
    (ok : operation.Ok deployment versions platform request)
    (performed : perform deployment env platform.now platform.workflows platform.sys.db
      platform.log.length operation = (final, goal)) :
    goal.Ok deployment versions platform request := by
  cases operation with
  | first other =>
      cases (show other = request from ok)
      exact begin_ok nodup consistent performed
  | replaceSchedule | explainConflict =>
      simp only [perform] at performed
      split at performed <;> cases performed <;> trivial
  | findExisting =>
      simp only [perform] at performed
      split at performed
      · split at performed <;> cases performed <;> trivial
      · cases performed
        trivial
  | rereadApproval =>
      simp only [perform] at performed
      split at performed <;> split at performed <;> cases performed <;> trivial
  | rereadExecution | findTasks =>
      cases performed
      trivial
  | recordDecision user approvalId approve comment =>
      cases performed
      rcases ok with ⟨id, isRequest⟩
      exact ⟨⟨user, id, approve, comment, isRequest⟩, _, rfl⟩
  | findDue current =>
      simp only [perform] at performed
      split at performed
      · next found _ ran =>
        have isDue := findDue_ok ran
        cases performed
        apply startNext_ok ok.1
        · intro due membership
          rcases List.mem_map.mp membership with ⟨read, readMem, rfl⟩
          exact consistent.known (isDue read readMem).1
        · intro due membership
          rcases List.mem_map.mp membership with ⟨read, readMem, rfl⟩
          exact (isDue read readMem).2.2
        · exact ok.2
        · exact Nat.le_refl _
      · cases performed
        trivial
  | advance tick lastError =>
      simp only [perform] at performed
      split at performed
      · cases performed
        apply startNext_ok ok.1
        · exact fun due membership => ok.2.known due (List.mem_cons_of_mem _ membership)
        · exact fun due membership => ok.2.slots due (List.mem_cons_of_mem _ membership)
        · exact ok.2.past
        · exact ok.2.seen
      · cases performed
        trivial

end Goes

/-- A job that does not go on; its call may have been abandoned. -/
theorem Job.Ok.later {deployment : Deployment} {versions versions' : Versions Val}
    {platform next : Platform Val} {job : Job Val}
    (ok : job.Ok deployment versions platform)
    (grown : platform.Later versions versions' next)
    (kept : ∀ call stack, job.call? = some call → platform.sys.calls[call]? = some stack →
      next.sys.calls[call]? = some stack ∨ next.sys.calls[call]? = some []) :
    job.Ok deployment versions' next := by
  rcases job with ⟨request, state⟩
  cases state with
  | ready operation => exact Operation.Ok.later grown ok
  | ended => trivial
  | waiting waiting call reply =>
      rcases ok with ⟨op, stack, found, asks, started⟩
      rcases kept call stack rfl found with same | stopped
      · refine ⟨op, stack, same, asks.later grown, ?_⟩
        exact fun params isOp => (started params isOp).later grown.since
      · refine ⟨op, [], stopped, asks.later grown, ?_⟩
        exact fun params isOp => ((started params isOp).later grown.since).crashed

/-! ## The invariant -/

/-- What holds of the platform between any two steps. -/
structure Platform.Inv (deployment : Deployment) (versions : Versions Val)
    [Mixed Val] (platform : Platform Val) : Prop where
  sys : platform.sys.Inv
  nodup : platform.workflows.ids.Nodup
  consistent : Consistent versions platform.workflows
  provenance : platform.sys.Provenance (Issued deployment versions platform.workflows)
  oneWaits : OneWaits platform.jobs
  jobs : ∀ job ∈ platform.jobs, job.Ok deployment versions platform

namespace Platform

variable [Mixed Val] {deployment : Deployment} {versions versions' : Versions Val}
  {platform next : Platform Val}

/-- A job waits for a call that has been made. -/
theorem Inv.call_lt (inv : platform.Inv deployment versions) {job : Job Val} {call : Nat}
    (membership : job ∈ platform.jobs) (waits : job.call? = some call) :
    call < platform.sys.calls.length := by
  have ok := inv.jobs job membership
  rcases job with ⟨request, state⟩
  cases state with
  | waiting waiting pending reply =>
      cases waits
      rcases ok with ⟨_, _, found, _⟩
      exact (List.getElem?_eq_some_iff.mp found).1
  | ready | ended => cases waits

omit [ToJson Val] [Mixed Val] in
/-- The jobs after one of them has gone on. -/
theorem mem_set_cases {jobs : List (Job Val)} {index : Nat} {job changed : Job Val}
    (membership : job ∈ jobs.set index changed) :
    job = changed ∨ ∃ other, other ≠ index ∧ jobs[other]? = some job := by
  rcases List.getElem?_of_mem membership with ⟨other, found⟩
  rw [List.getElem?_set] at found
  split at found
  · split at found
    · exact .inl (Option.some.inj found).symm
    · cases found
  · next different => exact .inr ⟨other, Ne.symm different, found⟩

omit [ToJson Val] [Mixed Val] in
/-- One job goes on; if it waits then for a call that no other job waits for. -/
theorem OneWaits.set {jobs : List (Job Val)} (oneWaits : OneWaits jobs) {index : Nat}
    {job : Job Val}
    (isNew : ∀ call, job.call? = some call → ∀ (other : Nat) (otherJob : Job Val),
      other ≠ index → jobs[other]? = some otherJob → otherJob.call? ≠ some call) :
    OneWaits (jobs.set index job) := by
  intro left right leftJob rightJob call isLeft isRight leftCall rightCall
  simp only [List.getElem?_set] at isLeft isRight
  split at isLeft
  · next leftIndex =>
    split at isRight
    · next rightIndex => exact leftIndex.symm.trans rightIndex
    · next different =>
      split at isLeft
      · cases isLeft
        exact absurd rightCall (isNew call leftCall right rightJob (Ne.symm different) isRight)
      · cases isLeft
  · next different =>
    split at isRight
    · split at isRight
      · cases isRight
        exact absurd leftCall (isNew call rightCall left leftJob (Ne.symm different) isLeft)
      · cases isRight
    · exact oneWaits left right leftJob rightJob call isLeft isRight leftCall rightCall

omit [ToJson Val] [Mixed Val] in
theorem OneWaits.append {jobs : List (Job Val)} (oneWaits : OneWaits jobs) {job : Job Val}
    (idle : job.call? = none) : OneWaits (jobs ++ [job]) := by
  have old : ∀ (index : Nat) (other : Job Val) (call : Nat),
      (jobs ++ [job])[index]? = some other → other.call? = some call →
        jobs[index]? = some other := by
    intro index other call found waits
    rcases Nat.lt_or_ge index jobs.length with inside | outside
    · rwa [List.getElem?_append_left inside] at found
    · rw [List.getElem?_append_right outside] at found
      cases List.mem_singleton.mp (List.mem_of_getElem? found)
      rw [idle] at waits
      cases waits
  intro left right leftJob rightJob call isLeft isRight leftCall rightCall
  exact oneWaits left right leftJob rightJob call (old left leftJob call isLeft leftCall)
    (old right rightJob call isRight rightCall) leftCall rightCall

/-! ## Steps -/

/-- What a step of the engine alone keeps. -/
theorem Inv.engine (inv : platform.Inv deployment versions) {action : WorkflowEngine.Action Val}
    {sys : Sys Val} {label : Option (Reply Val)} (stepped : platform.sys.Stepped action sys label)
    (issued : ∀ frame params, action = .invoke frame →
      frame.op? = some (.startExecution params) →
        Issued deployment versions platform.workflows params) :
    platform.Later versions versions { platform with sys } ∧
      sys.Provenance (Issued deployment versions platform.workflows) :=
  ⟨⟨fun _ known => known, stepped.advances.since, Int.le_refl _, Nat.le_refl _⟩,
    inv.provenance.step stepped issued⟩

/-- The engine after a job has gone on. -/
theorem calling_inv (inv : platform.Inv deployment versions) {request : Request Val}
    {goal : Next Val} (ok : goal.Ok deployment versions platform request) :
    (goal.calling platform.sys).Inv ∧
      (goal.calling platform.sys).Provenance
        (Issued deployment versions platform.workflows) := by
  cases goal with
  | operation | answer => exact ⟨inv.sys, inv.provenance⟩
  | call op waiting =>
      have taken : platform.sys.step (.invoke (.transaction op)) =
          some ((Next.call op waiting).calling platform.sys) := rfl
      rcases inv.sys.stepped taken with ⟨_, stepped⟩
      refine ⟨stepped.later, inv.provenance.step stepped ?_⟩
      intro frame params isFrame isOp
      cases isFrame
      cases isOp
      exact Waiting.Asks.issued ok

/-- What a job goes on with is in order. -/
theorem Goes.ok (inv : platform.Inv deployment versions) {action : Action Val} {index : Nat}
    {request : Request Val} {state : JobState Val}
    {workflows : Collection (WorkflowDocument Val)} {goal : Next Val}
    (found : platform.jobs[index]? = some ⟨request, state⟩)
    (goes : Goes deployment platform index action state workflows goal) :
    goal.Ok deployment versions platform request := by
  have ok := inv.jobs _ (List.mem_of_getElem? found)
  cases goes with
  | performed fresh performed => exact perform_ok inv.nodup inv.consistent ok performed
  | failed => trivial
  | threw =>
      rcases ok with ⟨op, stack, _, asks, _⟩
      apply Waiting.threw_ok asks
      intro absurdity
      cases absurdity

theorem Goes.learns (inv : platform.Inv deployment versions) {action : Action Val} {index : Nat}
    {state : JobState Val} {workflows : Collection (WorkflowDocument Val)} {goal : Next Val}
    (goes : Goes deployment platform index action state workflows goal) :
    ∃ versions', Learns versions platform.workflows versions' workflows := by
  cases goes with
  | performed fresh performed =>
      exact (perform_edited inv.nodup performed).learns inv.nodup inv.consistent
  | failed | threw => exact ⟨versions, .refl inv.nodup inv.consistent⟩

/-- A job goes on. -/
theorem Inv.went (inv : platform.Inv deployment versions) {action : Action Val} {index : Nat}
    {request : Request Val} {state : JobState Val}
    {workflows : Collection (WorkflowDocument Val)} {goal : Next Val}
    (found : platform.jobs[index]? = some ⟨request, state⟩)
    (goes : Goes deployment platform index action state workflows goal)
    (isNext : next =
      { platform with
        sys := goal.calling platform.sys
        workflows
        jobs := platform.jobs.set index ⟨request, goal.state platform.sys.calls.length⟩
        log := goal.answered request ++ platform.log }) :
    ∃ versions', platform.Later versions versions' next ∧ next.Inv deployment versions' := by
  have goalOk := goes.ok inv found
  rcases goes.learns inv with ⟨versions', learns⟩
  rcases calling_inv inv goalOk with ⟨sysInv, provenance⟩
  rcases goal.calling_calls platform.sys with ⟨more, calls⟩
  have grown : platform.Later versions versions' next := by
    rw [isNext]
    refine ⟨learns.known, ?_, Int.le_refl _, ?_⟩
    · rw [Next.calling_db]
      exact .refl _
    · rw [List.length_append]
      exact Nat.le_add_left _ _
  refine ⟨versions', grown, ?_⟩
  subst isNext
  refine ⟨sysInv, learns.nodup, learns.consistent, provenance.mono fun _ => Issued.later grown,
    ?_, ?_⟩
  · apply inv.oneWaits.set
    intro call waits other otherJob _ isOther sameCall
    have older := inv.call_lt (List.mem_of_getElem? isOther) sameCall
    cases goal with
    | call =>
        cases waits
        exact Nat.lt_irrefl _ older
    | operation | answer => cases waits
  · intro job membership
    rcases mem_set_cases membership with rfl | ⟨other, _, isOther⟩
    · cases goal with
      | operation => exact goalOk.later grown
      | answer => trivial
      | call op waiting =>
          refine ⟨op, [.transaction op], ?_, Waiting.Asks.later grown goalOk, ?_⟩
          · exact List.getElem?_concat_length
          · rintro params rfl
            exact .start
    · apply (inv.jobs job (List.mem_of_getElem? isOther)).later grown
      intro call stack _ isStack
      left
      rw [calls, List.getElem?_append_left (List.getElem?_eq_some_iff.mp isStack).1]
      exact isStack

/-- What a job is told about the run that it has asked for. -/
theorem Inv.told (inv : platform.Inv deployment versions) {call : Nat} {env : Env} {sys : Sys Val}
    {label before : Option (Reply Val)} {index : Nat} {request : Request Val}
    {waiting : Waiting Val} (fresh : platform.drawsFresh call env = true)
    (stepped : platform.sys.Stepped (.advance call env) sys label)
    (found : platform.jobs[index]? = some ⟨request, .waiting waiting call before⟩) :
    ∃ op stack, sys.calls[call]? = some stack ∧
      waiting.Asks deployment versions platform request op ∧
        ∀ params, op = .startExecution params →
          StartCall sys.db params stack (known label before) := by
  rcases inv.jobs _ (List.mem_of_getElem? found) with ⟨op, stack, isStack, asks, started⟩
  rcases stepped.call_found isStack with ⟨later, isLater⟩
  refine ⟨op, later, isLater, asks, ?_⟩
  intro params isOp
  rcases (started params isOp).advanced stepped isStack
    (fun frame isFrame => drawsFresh_top fresh isFrame) with ⟨_, isNext, ok⟩
  cases isLater.symm.trans isNext
  exact ok

/-- A call of the engine goes on, and with it the job that waits for it. -/
theorem Inv.advanced (inv : platform.Inv deployment versions) {call : Nat} {env : Env}
    {sys : Sys Val} {label : Option (Reply Val)} (fresh : platform.drawsFresh call env = true)
    (stepped : platform.sys.Stepped (.advance call env) sys label)
    (advanced : Advanced platform call sys label next) :
    platform.Later versions versions next ∧ next.Inv deployment versions := by
  rcases inv.engine stepped (fun _ _ absurdity => by cases absurdity) with ⟨grown, provenance⟩
  have elsewhere : ∀ (other : Nat) stack, other ≠ call → platform.sys.calls[other]? = some stack →
      sys.calls[other]? = some stack := by
    intro other stack different isStack
    cases stepped.took with
    | ran | threw => exact (List.getElem?_set_ne (Ne.symm different)).trans isStack
  have apart : ∀ (index : Nat) (waits : Job Val), platform.jobs[index]? = some waits →
      waits.call? = some call → ∀ (other : Nat) (job : Job Val), other ≠ index →
        platform.jobs[other]? = some job → job.call? ≠ some call := by
    intro index waits found isCall other job different isOther same
    exact different (inv.oneWaits other index job waits call isOther found same isCall)
  cases advanced with
  | idle others =>
      refine ⟨grown, stepped.later, inv.nodup, inv.consistent, provenance, inv.oneWaits, ?_⟩
      intro job membership
      apply (inv.jobs job membership).later grown
      intro other stack waits isStack
      refine .inl (elsewhere other stack ?_ isStack)
      rintro rfl
      exact others job membership waits
  | @pending index request waiting before found =>
      rcases inv.told fresh stepped found with ⟨op, stack, isStack, asks, started⟩
      have later : platform.Later versions versions
          { platform with
            sys
            jobs := platform.jobs.set index
              ⟨request, .waiting waiting call (known label before)⟩ } :=
        ⟨grown.known, grown.since, grown.now, grown.log⟩
      refine ⟨later, stepped.later, inv.nodup, inv.consistent, provenance, ?_, ?_⟩
      · apply inv.oneWaits.set
        intro same isSame
        cases isSame
        exact apart index _ found rfl
      · intro job membership
        rcases mem_set_cases membership with rfl | ⟨other, different, isOther⟩
        · exact ⟨op, stack, isStack, asks.later later, started⟩
        · apply (inv.jobs job (List.mem_of_getElem? isOther)).later later
          intro call' stack' waits isStack'
          refine .inl (elsewhere call' stack' ?_ isStack')
          rintro rfl
          exact apart index _ found rfl other job different isOther waits
  | @resumed index request waiting before reply found ended isKnown =>
      rcases inv.told fresh stepped found with ⟨op, stack, isStack, asks, started⟩
      have later : platform.Later versions versions
          { platform with
            sys
            jobs := platform.jobs.set index ⟨request, (waiting.resume reply).state 0⟩
            log := (waiting.resume reply).answered request ++ platform.log } := by
        refine ⟨grown.known, grown.since, grown.now, ?_⟩
        rw [List.length_append]
        exact Nat.le_add_left _ _
      have goal : (waiting.resume reply).Ok deployment versions
          { platform with
            sys
            jobs := platform.jobs.set index ⟨request, (waiting.resume reply).state 0⟩
            log := (waiting.resume reply).answered request ++ platform.log } request := by
        apply Waiting.resume_ok (asks.later later)
        exact fun params isOp => (started params isOp).tells reply isKnown
      refine ⟨later, stepped.later, inv.nodup, inv.consistent, provenance, ?_, ?_⟩
      · apply inv.oneWaits.set
        intro same isSame
        cases goes : waiting.resume reply with
        | call => exact absurd goes Waiting.resume_ne_call
        | operation | answer =>
            rw [goes] at isSame
            cases isSame
      · intro job membership
        rcases mem_set_cases membership with rfl | ⟨other, different, isOther⟩
        · cases goes : waiting.resume reply with
          | call => exact absurd goes Waiting.resume_ne_call
          | operation goesOn =>
              rw [goes] at goal
              exact goal
          | answer => trivial
        · apply (inv.jobs job (List.mem_of_getElem? isOther)).later later
          intro call' stack' waits isStack'
          refine .inl (elsewhere call' stack' ?_ isStack')
          rintro rfl
          exact apart index _ found rfl other job different isOther waits

/-- Every step keeps the invariant, and what was known. -/
theorem Inv.moved (inv : platform.Inv deployment versions) {action : Action Val}
    (moved : Moved deployment platform action next) :
    ∃ versions', platform.Later versions versions' next ∧ next.Inv deployment versions' := by
  cases moved with
  | @tick ms =>
      have later : platform.Later versions versions { platform with now := platform.now + ms } :=
        ⟨fun _ known => known, .refl _, Int.le_add_of_nonneg_right (Int.natCast_nonneg _),
          Nat.le_refl _⟩
      refine ⟨versions, later, inv.sys, inv.nodup, inv.consistent, inv.provenance, inv.oneWaits, ?_⟩
      intro job membership
      exact (inv.jobs job membership).later later fun _ _ _ isStack => .inl isStack
  | @submitted request =>
      have later : platform.Later versions versions
          { platform with jobs := platform.jobs ++ [⟨request, .ready (.first request)⟩] } :=
        ⟨fun _ known => known, .refl _, Int.le_refl _, Nat.le_refl _⟩
      refine ⟨versions, later, inv.sys, inv.nodup, inv.consistent, inv.provenance,
        inv.oneWaits.append rfl, ?_⟩
      intro job membership
      rcases List.mem_append.mp membership with old | new
      · exact (inv.jobs job old).later later fun _ _ _ isStack => .inl isStack
      · cases List.mem_singleton.mp new
        exact rfl
  | went found goes => exact inv.went found goes rfl
  | @stopped index job found =>
      have later : platform.Later versions versions
          { platform with jobs := platform.jobs.set index ⟨job.request, .ended⟩ } :=
        ⟨fun _ known => known, .refl _, Int.le_refl _, Nat.le_refl _⟩
      refine ⟨versions, later, inv.sys, inv.nodup, inv.consistent, inv.provenance, ?_, ?_⟩
      · apply inv.oneWaits.set
        intro call absurdity
        cases absurdity
      · intro other membership
        rcases mem_set_cases membership with rfl | ⟨_, _, isOther⟩
        · trivial
        · exact (inv.jobs other (List.mem_of_getElem? isOther)).later later
            fun _ _ _ isStack => .inl isStack
  | @invoked frame sys other taken =>
      rcases inv.sys.stepped taken with ⟨_, stepped⟩
      have notStart : ∀ invoked params, WorkflowEngine.Action.invoke frame = .invoke invoked →
          invoked.op? = some (.startExecution params) →
            Issued deployment versions platform.workflows params := by
        intro invoked params isFrame isOp
        cases isFrame
        cases frame with
        | transaction op =>
            cases isOp
            cases other
        | callback => cases taken
        | _ => cases isOp
      rcases inv.engine stepped notStart with ⟨later, provenance⟩
      refine ⟨versions, later, stepped.later, inv.nodup, inv.consistent, provenance,
        inv.oneWaits, ?_⟩
      intro job membership
      apply (inv.jobs job membership).later later
      intro call stack _ isStack
      cases stepped.took with
      | invoke =>
          left
          rw [List.getElem?_append_left (List.getElem?_eq_some_iff.mp isStack).1]
          exact isStack
  | @crashed crashed sys taken =>
      rcases inv.sys.stepped taken with ⟨_, stepped⟩
      rcases inv.engine stepped (fun _ _ absurdity => by cases absurdity) with ⟨later, provenance⟩
      refine ⟨versions, later, stepped.later, inv.nodup, inv.consistent, provenance,
        inv.oneWaits, ?_⟩
      intro job membership
      apply (inv.jobs job membership).later later
      intro call stack _ isStack
      cases stepped.took with
      | crash =>
          rcases Decidable.em (crashed = call) with rfl | different
          · exact .inr (List.getElem?_set_self (List.getElem?_eq_some_iff.mp isStack).1)
          · exact .inl ((List.getElem?_set_ne different).trans isStack)
  | advanced fresh taken =>
      rcases inv.sys.stepped taken with ⟨_, stepped⟩
      exact ⟨versions, inv.advanced fresh stepped (advanced_cases inv.oneWaits stepped.log)⟩

theorem Inv.step (inv : platform.Inv deployment versions) {action : Action Val}
    (taken : Platform.step deployment platform action = some next) :
    ∃ versions', platform.Later versions versions' next ∧ next.Inv deployment versions' :=
  inv.moved (moved_of_step taken)

theorem inv_init (deployment : Deployment) (library : Library Val) (start : Time) :
    ∃ versions, (platformSystem Val deployment library start).init.Inv deployment versions := by
  refine ⟨fun id _ => (library.workflows.findById id).elim [] (·.tasks), Sys.inv_init,
    library.nodup, ?_, .init, ?_, fun _ absurdity => absurd absurdity List.not_mem_nil⟩
  · intro workflow membership
    have found : library.workflows.findById workflow.id = some workflow :=
      (Collection.findById_eq_some library.nodup).mpr ⟨membership, rfl⟩
    show (library.workflows.findById workflow.id).elim [] _ = _
    rw [found]
    rfl
  · intro left right leftJob rightJob call absurdity
    cases absurdity

/-- The invariant holds in every state of every schedule. -/
theorem inv_of_reachableBy {library : Library Val} {start : Time}
    {allowed : Platform Val → Action Val → Prop}
    (reachable : (platformSystem Val deployment library start).ReachableBy allowed platform) :
    ∃ versions, platform.Inv deployment versions := by
  induction reachable with
  | init => exact inv_init deployment library start
  | step _ _ taken ih =>
      rcases ih with ⟨versions, inv⟩
      rcases inv.step taken with ⟨versions', _, later⟩
      exact ⟨versions', later⟩

end Platform

end WorkflowEngine
