import WorkflowEngine.Foundations.Triples
import WorkflowEngine.Workflow.Actionable
import WorkflowEngine.Workflow.Provenance

/-!
# What transactions throw

The engine's callbacks check the transitions they make and read documents that they have
just written.  On a snapshot of a committed database these checks never fail: a callback
throws only when a unique index refuses an insertion, or when what it is called with is
refused: a definition that is no valid graph, an approval request without a title.  With
fresh identifiers the other reports and controls do not throw at all.
-/

namespace WorkflowEngine

open DocStore

variable {Val : Type}

/-- The process draws event ids that are new to the outbox. -/
structure Env.Fresh (env : Env) (outbox : Collection OutboxEvent) : Prop where
  injective : Function.Injective env.randomUUID
  unused : ∀ drawn, env.randomUUID drawn ∉ outbox.ids

/-- What the callbacks rely on in their view.  Under `fresh` the ids that the process has
not drawn yet are new. -/
structure Db.Housed (env : Env) (fresh : Prop) (runs : List ExecutionId) (db : Db Val) : Prop where
  keyed : db.Keyed
  home : ∀ taskId ∈ db.tasks.ids, taskId.executionId ∈ db.executions.ids
  runs : ∀ executionId ∈ runs, executionId ∈ db.executions.ids
  injective : fresh → Function.Injective env.randomUUID
  unused : fresh → ∀ drawn, db.outbox.length ≤ drawn → env.randomUUID drawn ∉ db.outbox.ids

namespace Db.Housed

variable {env : Env} {fresh : Prop} {runs : List ExecutionId} {db : Db Val}

theorem of_inv [Mixed Val] (inv : db.Inv) (draws : fresh → env.Fresh db.outbox) :
    db.Housed env fresh [] := by
  refine ⟨inv.keyed, ?_, ?_, fun held => (draws held).injective,
    fun held drawn _ => (draws held).unused drawn⟩
  · intro taskId present
    rcases Collection.mem_ids.mp present with ⟨task, membership, rfl⟩
    exact inv.taskHome task membership
  · intro executionId absurdity
    cases absurdity

/-- The run of a task that exists. -/
theorem of_task (housed : db.Housed env fresh []) {taskId : TaskId}
    (present : taskId ∈ db.tasks.ids) : db.Housed env fresh [taskId.executionId] := by
  refine ⟨housed.keyed, housed.home, ?_, housed.injective, housed.unused⟩
  intro executionId isRun
  rw [List.mem_singleton.mp isRun]
  exact housed.home taskId present

theorem forget (housed : db.Housed env fresh runs) : db.Housed env fresh [] := by
  refine ⟨housed.keyed, housed.home, ?_, housed.injective, housed.unused⟩
  intro executionId absurdity
  cases absurdity

end Db.Housed

section Instances

variable {env : Env} {fresh : Prop} {runs : List ExecutionId}

instance : Session.KeepsIds (@Db.Housed Val env fresh runs) (WorkflowExecution Val) where
  nodup housed := housed.keyed.executions
  set housed same :=
    { keyed := { housed.keyed with executions := same ▸ housed.keyed.executions }
      home := fun taskId present => same ▸ housed.home taskId present
      runs := fun executionId isRun => same ▸ housed.runs executionId isRun
      injective := housed.injective
      unused := housed.unused }

instance : Session.KeepsIds (@Db.Housed Val env fresh runs) (Task Val) where
  nodup housed := housed.keyed.tasks
  set housed same :=
    { keyed := { housed.keyed with tasks := same ▸ housed.keyed.tasks }
      home := fun taskId present => housed.home taskId (same ▸ present)
      runs := housed.runs
      injective := housed.injective
      unused := housed.unused }

instance : Session.KeepsIds (@Db.Housed Val env fresh runs) TaskExecution where
  nodup housed := housed.keyed.attempts
  set housed same :=
    { housed with keyed := { housed.keyed with attempts := same ▸ housed.keyed.attempts } }

instance : Session.KeepsIds (@Db.Housed Val env fresh runs) (ApprovalRequest Val) where
  nodup housed := housed.keyed.approvals
  set housed same :=
    { housed with keyed := { housed.keyed with approvals := same ▸ housed.keyed.approvals } }

end Instances

/-! ## Statements -/

/-- A unique index has refused an insertion, which it does not for fresh ids. -/
def Refused (fresh : Prop) (thrown : EngineError) : Prop :=
  thrown = .duplicateKey ∧ ¬ fresh

section Statements

variable {env : Env} {fresh : Prop} {runs : List ExecutionId}

/-- The callback keeps what it relies on. -/
abbrev Keeps (env : Env) (fresh : Prop) (runs : List ExecutionId) {α : Type}
    (session : Txn Val α) : Prop :=
  Session.Triple (Db.Housed env fresh runs) session (fun _ => Db.Housed env fresh runs)
    (Refused fresh)

theorem keeps_assertTransition {machine : Machine} {source target : machine.Status}
    (allowed : canTransition machine source target = true) :
    Keeps env fresh runs (assertTransition machine source target : Txn Val Unit) := by
  rw [assertTransition, if_pos allowed]
  exact .of_preserves .pure

theorem emit_throws {type : EventType} {executionId : ExecutionId} {payload : EventPayload}
    {db : Db Val} {thrown : EngineError}
    (threw : (emit env type executionId payload).run db = .error thrown) :
    thrown = .duplicateKey := by
  rcases Session.bind_eq_error.mp threw with absurdity | ⟨read, middle, got, refused⟩
  · cases absurdity
  · cases got
    simp only [Session.create, StateT.run] at refused
    split at refused
    · cases refused
      rfl
    · cases refused

/-- An event is inserted, unless its id has been used. -/
theorem keeps_emit {type : EventType} {executionId : ExecutionId} {payload : EventPayload} :
    Keeps env fresh runs (emit env type executionId payload : Txn Val Unit) := by
  intro db housed
  constructor
  · intro value view ran
    have keyed := emit_keyed.final housed.keyed ran
    rcases Session.bind_eq_ok.mp ran with ⟨read, middle, got, created⟩
    cases got
    rcases Session.create_eq_ok.mp created with ⟨_, rfl⟩
    refine ⟨keyed, housed.home, housed.runs, housed.injective, ?_⟩
    intro held drawn later present
    change (db.outbox ++ [_]).length ≤ drawn at later
    rw [List.length_append, List.length_singleton] at later
    change env.randomUUID drawn ∈ (db.outbox ++ [_]).map Collection.idOf at present
    rw [List.map_append, List.mem_append] at present
    cases present with
    | inl old => exact housed.unused held drawn (Nat.le_of_succ_le later) old
    | inr new =>
        have same := housed.injective held (List.mem_singleton.mp new)
        rw [same] at later
        exact Nat.not_succ_le_self _ later
  · intro thrown threw
    refine ⟨emit_throws threw, fun held => ?_⟩
    rcases emit_total (housed.unused held _ (Nat.le_refl _)) with ⟨final, emitted⟩
    cases emitted.symm.trans threw

/-- A compare-and-set along the tables; a won one found its task. -/
theorem transitionTask_triple {taskId : TaskId} {source target : TaskStatus}
    {update : Update (Task Val)} (allowed : canTransition .task source target = true) :
    Session.Triple (Db.Housed env fresh runs) (transitionTask taskId source target update)
      (fun won db => (won = true → taskId ∈ db.tasks.ids) ∧ db.Housed env fresh runs)
      (Refused fresh) := by
  apply Session.Triple.bind (keeps_assertTransition allowed)
  intro _
  apply Session.Triple.bind Session.Triple.updateOne
  intro modified
  apply Session.Triple.pure
  rintro db ⟨present, housed⟩
  refine ⟨fun isWon => present ?_, housed⟩
  rintro rfl
  cases isWon

end Statements

/-! ## After a task has ended -/

section Ends

variable {env : Env} {fresh : Prop} {runs : List ExecutionId} {task : Task Val}

theorem keeps_releaseChildren {execution : WorkflowExecution Val} {finishedAt : Time} :
    Keeps env fresh runs (releaseChildren task execution finishedAt) := by
  apply Session.Triple.ite
  · intro _
    apply Session.Triple.bind Session.Triple.updateMany
    intro _
    apply Session.Triple.ite
    · intro _
      apply Session.Triple.bind (keeps_assertTransition rfl)
      intro _
      apply Session.Triple.bind Session.Triple.updateMany
      intro _
      exact .of_preserves .pure
    · exact fun _ => .of_preserves .pure
  · exact fun _ => .of_preserves .pure

theorem keeps_completeRun {execution : WorkflowExecution Val} {finishedAt : Time} :
    Keeps env fresh runs (completeRun env execution finishedAt) := by
  apply Session.Triple.ite
  · intro _
    apply Session.Triple.bind (keeps_assertTransition rfl)
    intro _
    apply Session.Triple.bind Session.Triple.updateOne
    intro _
    exact keeps_emit.of_right
  · exact fun _ => .of_preserves .pure

/-- The execution that the caller's counter update returns. -/
theorem decrementPending_triple {executionId : ExecutionId} (isRun : executionId ∈ runs) :
    Session.Triple (Db.Housed env fresh runs)
      (Session.findOneAndUpdate executionId (decrementPending : Update (WorkflowExecution Val)) :
        Txn Val (Option (WorkflowExecution Val)))
      (fun found db => (∃ value, found = some value ∧ Document.id value = executionId) ∧
        db.Housed env fresh runs) (Refused fresh) :=
  .findOneAndUpdate (fun _ => rfl) fun _ housed => housed.runs executionId isRun

theorem keeps_afterTaskSucceeded {finishedAt : Time} (isRun : task.executionId ∈ runs) :
    Keeps env fresh runs (afterTaskSucceeded env task finishedAt) := by
  apply Session.Triple.bind (decrementPending_triple isRun)
  intro found
  apply Session.Triple.of_fact fun _ given => given.1
  rintro ⟨execution, rfl, _⟩
  apply Session.Triple.of_right
  apply Session.Triple.bind keeps_releaseChildren
  intro _
  apply Session.Triple.bind keeps_completeRun
  intro _
  exact keeps_emit

theorem canTransition_of_live {status target : ExecutionStatus} (live : status.live = true)
    (ends : target = .failed ∨ target = .cancelled) :
    canTransition .execution status target = true := by
  cases ends with
  | inl failed =>
      subst failed
      cases status <;> first | rfl | cases live
  | inr cancelled =>
      subst cancelled
      cases status <;> first | rfl | cases live

theorem keeps_failRun {updated : WorkflowExecution Val} {outcome : FailureOutcome}
    {message : String} {finishedAt : Time} :
    Keeps env fresh runs (failRun env task updated outcome message finishedAt) := by
  apply Session.Triple.ite
  · intro live
    apply Session.Triple.bind Session.Triple.updateMany
    intro _
    apply Session.Triple.bind (keeps_assertTransition (canTransition_of_live live (.inl rfl)))
    intro _
    apply Session.Triple.bind Session.Triple.updateOne
    intro _
    exact keeps_emit.of_right
  · exact fun _ => .of_preserves .pure

theorem keeps_afterTaskFailedForGood {outcome : FailureOutcome} {message : String}
    {retryable : Bool} {finishedAt : Time} (isRun : task.executionId ∈ runs) :
    Keeps env fresh runs
      (afterTaskFailedForGood env task outcome message retryable finishedAt) := by
  apply Session.Triple.bind (decrementPending_triple isRun)
  intro found
  apply Session.Triple.of_fact fun _ given => given.1
  rintro ⟨updated, rfl, _⟩
  apply Session.Triple.of_right
  apply Session.Triple.bind keeps_failRun
  intro _
  exact keeps_emit

end Ends

/-! ## Operations -/

section Operations

variable {env : Env} {fresh : Prop}

/-- The callback starts on a snapshot of a committed database. -/
abbrev Total (env : Env) (fresh : Prop) {α : Type} (session : Txn Val α) : Prop :=
  Session.Triple (Db.Housed env fresh []) session (fun _ _ => True) (Refused fresh)

theorem total_pure {α : Type} {value : α} : Total env fresh (pure value : Txn Val α) :=
  .pure fun _ _ => trivial

/-- Returning after the last statement. -/
theorem Keeps.returning {runs : List ExecutionId} {α β : Type} {session : Txn Val α} {value : β}
    (keeps : Keeps env fresh runs session) :
    Session.Triple (Db.Housed env fresh runs) (session >>= fun _ => pure value)
      (fun _ _ => True) (Refused fresh) :=
  .bind keeps fun _ => .pure fun _ _ => trivial

theorem total_pauseExecution {executionId : ExecutionId} :
    Total env fresh (pauseExecution env executionId : Txn Val Bool) := by
  apply Session.Triple.bind (keeps_assertTransition rfl)
  intro _
  apply Session.Triple.bind Session.Triple.updateOne
  intro modifiedCount
  apply Session.Triple.of_right
  apply Session.Triple.ite
  · exact fun _ => total_pure
  · exact fun _ => keeps_emit.returning

theorem total_cancelExecution {executionId : ExecutionId} :
    Total env fresh (cancelExecution env executionId : Txn Val Bool) := by
  apply Session.Triple.bind Session.Triple.findById
  intro found
  apply Session.Triple.of_right
  cases found with
  | none => exact total_pure
  | some execution =>
      apply Session.Triple.ite
      · intro live
        apply Session.Triple.bind (keeps_assertTransition (canTransition_of_live live (.inr rfl)))
        intro _
        apply Session.Triple.bind Session.Triple.updateMany
        intro _
        apply Session.Triple.bind Session.Triple.updateOne
        intro _
        apply Session.Triple.of_right
        apply Session.Triple.bind Session.Triple.updateMany
        intro _
        exact keeps_emit.returning
      · exact fun _ => total_pure

/-- A task that was just written. -/
def Db.Wrote (env : Env) (fresh : Prop) (taskId : TaskId) (db : Db Val) : Prop :=
  taskId ∈ db.tasks.ids ∧ db.Housed env fresh [taskId.executionId]

/-- The task of a won compare-and-set is read again. -/
theorem wrote_findById {taskId : TaskId} :
    Session.Triple (Db.Wrote env fresh taskId)
      (Session.findById (Task Val) taskId : Txn Val (Option (Task Val)))
      (fun found db => (∃ task, found = some task ∧ task.id = taskId) ∧
        db.Housed env fresh [taskId.executionId]) (Refused fresh) := by
  apply Session.Triple.weaken Session.Triple.findById (fun _ given => given)
  rintro found db ⟨⟨isTask, missing⟩, present, housed⟩
  refine ⟨?_, housed⟩
  cases found with
  | none => exact absurd present (missing rfl)
  | some task => exact ⟨task, rfl, (isTask task rfl).1⟩

theorem total_completeTask {taskId : TaskId} {leaseToken : Nat} {output : Val} :
    Total env fresh (completeTask env taskId leaseToken output) := by
  apply Session.Triple.bind (transitionTask_triple rfl)
  intro won
  apply Session.Triple.ite
  · intro isWon
    apply Session.Triple.bind (wrote_findById.weaken _ fun _ _ given => given)
    · intro found
      apply Session.Triple.of_fact fun _ given => given.1
      rintro ⟨task, rfl, rfl⟩
      apply Session.Triple.of_right
      apply Session.Triple.bind Session.Triple.updateOne
      intro _
      apply Session.Triple.of_right
      exact (keeps_afterTaskSucceeded (List.mem_singleton_self _)).returning
    · exact fun db given => ⟨given.1 isWon, given.2.of_task (given.1 isWon)⟩
  · exact fun _ => .pure fun _ _ => trivial

theorem total_resumeExecution {executionId : ExecutionId} :
    Total env fresh (resumeExecution env executionId : Txn Val Bool) := by
  apply Session.Triple.bind (keeps_assertTransition rfl)
  intro _
  apply Session.Triple.bind Session.Triple.findOneAndUpdate_any
  intro found
  cases found with
  | none => exact total_pure
  | some execution =>
      apply Session.Triple.bind keeps_emit
      intro _
      apply Session.Triple.bind Session.Triple.updateMany
      intro _
      apply Session.Triple.ite
      · intro _
        apply Session.Triple.bind Session.Triple.updateOne
        intro _
        apply Session.Triple.of_right
        exact keeps_emit.returning
      · exact fun _ => total_pure

/-- A report that is retried. -/
theorem total_retryTask {task : Task Val} {leaseToken : Nat} {message : String} :
    Total env fresh (retryTask env task leaseToken message) := by
  apply Session.Triple.bind (transitionTask_triple rfl)
  intro won
  apply Session.Triple.of_right
  apply Session.Triple.ite
  · exact fun _ => keeps_emit.returning
  · exact fun _ => total_pure

theorem total_failForGood {task : Task Val} {leaseToken : Nat} {outcome : FailureOutcome}
    {message : String} {retryable : Bool} :
    Total env fresh (failForGood env task leaseToken outcome message retryable) := by
  apply Session.Triple.bind (transitionTask_triple rfl)
  intro won
  apply Session.Triple.ite
  · intro isWon
    have home : task.executionId ∈ [task.id.executionId] := List.mem_singleton_self _
    have given : ∀ db : Db Val, (won = true → task.id ∈ db.tasks.ids) ∧ db.Housed env fresh [] →
        db.Housed env fresh [task.id.executionId] :=
      fun db start => start.2.of_task (start.1 isWon)
    apply Session.Triple.ite
    · intro _
      apply Session.Triple.bind ((transitionTask_triple rfl).weaken given fun _ _ rest => rest)
      intro _
      apply Session.Triple.of_right
      exact (keeps_afterTaskFailedForGood home).returning
    · intro _
      exact (keeps_afterTaskFailedForGood home).returning.weaken given fun _ _ rest => rest
  · exact fun _ => .pure fun _ _ => trivial

theorem total_failTask {taskId : TaskId} {leaseToken : Nat} {error : Option Thrown} :
    Total env fresh (failTask env taskId leaseToken error : Txn Val (Option FailResult)) := by
  apply Session.Triple.bind Session.Triple.findById
  intro found
  cases isFound : found.filter fun task =>
      decide (task.status = .running) && task.leaseToken == leaseToken with
  | none => exact .pure fun _ _ => trivial
  | some task =>
      have search : found = some task := (Option.filter_eq_some_iff.mp isFound).1
      apply Session.Triple.of_fact fun _ given => (given.1.1 task search).1
      intro isTask
      have home : ∀ db : Db Val, (((∀ value, found = some value → Document.id value = taskId ∧
            taskId ∈ (Holds.get db : Collection (Task Val)).ids) ∧
          (found = none → taskId ∉ (Holds.get db : Collection (Task Val)).ids)) ∧
          db.Housed env fresh []) → db.Housed env fresh [taskId.executionId] :=
        fun db given => given.2.of_task (given.1.1 task search).2
      apply Session.Triple.weaken _ home fun _ _ rest => rest
      apply Session.Triple.bind Session.Triple.updateOne
      intro _
      apply Session.Triple.of_right
      apply Session.Triple.bind Session.Triple.findById
      intro execution
      cases execution with
      | none =>
          apply Session.Triple.of_never
          rintro db ⟨⟨_, missing⟩, housed⟩
          have isRun : task.executionId = taskId.executionId := congrArg TaskId.executionId isTask
          exact missing rfl (isRun ▸ housed.runs _ (List.mem_singleton_self _))
      | some execution =>
          apply Session.Triple.weaken _ (fun db given => given.2.forget) fun _ _ rest => rest
          apply Session.Triple.ite
          · exact fun _ => total_retryTask
          · exact fun _ => total_failForGood

/-- An approval request without a title is refused, and so is an insertion perhaps. -/
def RefusedRequest (title : String) (thrown : EngineError) : Prop :=
  Refused False thrown ∨ title = "" ∧ thrown = .requiredPath "ApprovalRequest" "title"

theorem createApproval_triple {runs : List ExecutionId} {approval : ApprovalRequest Val} :
    Session.Triple (Db.Housed env False runs) (createApproval approval)
      (fun _ => Db.Housed env False runs) (RefusedRequest approval.title) := by
  intro db housed
  constructor
  · intro value view ran
    have keyed := createApproval_keyed.final housed.keyed ran
    rcases Session.create_eq_ok.mp (createApproval_ok ran) with ⟨_, rfl⟩
    exact ⟨keyed, housed.home, housed.runs, False.elim, False.elim⟩
  · intro thrown threw
    rw [createApproval] at threw
    split at threw
    · next untitled =>
        cases threw
        exact .inr ⟨untitled, rfl⟩
    · refine .inl ⟨?_, id⟩
      simp only [Session.create, StateT.run] at threw
      split at threw
      · cases threw
        rfl
      · cases threw

theorem suspendForApproval_triple [Mixed Val] {taskId : TaskId} {leaseToken : Nat}
    {request : ApprovalParams Val} :
    Session.Triple (Db.Housed env False []) (suspendForApproval env taskId leaseToken request)
      (fun _ _ => True) (RefusedRequest request.title) := by
  apply Session.Triple.bind ((transitionTask_triple rfl).allow fun _ => Or.inl)
  intro won
  apply Session.Triple.ite
  · intro isWon
    apply Session.Triple.bind ((wrote_findById.weaken _ fun _ _ given => given).allow
      fun _ => Or.inl)
    · intro found
      apply Session.Triple.of_fact fun _ given => given.1
      rintro ⟨task, rfl, rfl⟩
      apply Session.Triple.of_right
      apply Session.Triple.bind Session.Triple.updateOne
      intro _
      apply Session.Triple.of_right
      apply Session.Triple.bind createApproval_triple
      intro _
      exact keeps_emit.returning.allow fun _ => Or.inl
    · exact fun db given => ⟨given.1 isWon, given.2.of_task (given.1 isWon)⟩
  · exact fun _ => .pure fun _ _ => trivial

/-- The request that a decision finds, on a snapshot of a committed database. -/
theorem recordDecision_triple [Mixed Val] {params : ResolveParams} :
    Session.Triple (fun db : Db Val => db.Inv ∧ db.Housed env fresh [])
      (Session.findOneAndUpdate params.approvalId (recordDecision params env.now) :
        Txn Val (Option (ApprovalRequest Val)))
      (fun found db => (∀ request, found = some request → ∃ task,
          db.tasks.findById request.taskId = some task ∧ task.status = .waitingForApproval) ∧
        db.Housed env fresh []) (Refused fresh) := by
  rintro db ⟨inv, housed⟩
  have keeps : Session.Triple (Db.Housed env fresh [])
      (Session.findOneAndUpdate params.approvalId (recordDecision params env.now) :
        Txn Val (Option (ApprovalRequest Val)))
      (fun _ => Db.Housed env fresh []) (Refused fresh) := .findOneAndUpdate_any
  refine ⟨fun found view ran => ⟨?_, keeps.final housed ran⟩, (keeps db housed).2⟩
  rintro request rfl
  rcases Session.findOneAndUpdate_eq_ok inv.keyed.approvals ran with
    ⟨absurdity, _⟩ | ⟨before, search, matched, isRequest, rfl⟩
  · cases absurdity
  · cases isRequest
    have membership := ((Collection.findById_eq_some inv.keyed.approvals).mp search).1
    simp only [recordDecision, Bool.and_eq_true, decide_eq_true_eq] at matched
    have waiting := inv.waiting_of_pending membership matched.1
    exact waiting

/-- Its task is waiting, so the compare-and-set is won. -/
theorem waiting_transitionTask {taskId : TaskId} {target : TaskStatus} {update : Update (Task Val)}
    (allowed : canTransition .task .waitingForApproval target = true)
    (unconditional : ∀ task, update.filter task = true) :
    Session.Triple (fun db => (∃ task, db.tasks.findById taskId = some task ∧
          task.status = .waitingForApproval) ∧ db.Housed env fresh [])
      (transitionTask taskId .waitingForApproval target update)
      (fun won db => won = true ∧ Db.Wrote env fresh taskId db) (Refused fresh) := by
  rintro db ⟨⟨task, search, waiting⟩, housed⟩
  have triple : Session.Triple (Db.Housed env fresh [])
      (transitionTask taskId .waitingForApproval target update)
      (fun won db => (won = true → taskId ∈ db.tasks.ids) ∧ db.Housed env fresh [])
      (Refused fresh) := transitionTask_triple allowed
  have moves := triple db housed
  refine ⟨fun won view ran => ?_, moves.2⟩
  have isWon : won = true := by
    rcases transitionTask_ok housed.keyed.tasks ran with ⟨_, _, lost⟩ | ⟨won, _⟩
    · exact absurd waiting (lost task search (unconditional task))
    · exact won
  have kept := moves.1 won view ran
  exact ⟨isWon, kept.1 isWon, kept.2.of_task (kept.1 isWon)⟩

theorem total_resolveApproval [Mixed Val] {params : ResolveParams} :
    Session.Triple (fun db : Db Val => db.Inv ∧ db.Housed env fresh [])
      (resolveApproval env params) (fun _ _ => True) (Refused fresh) := by
  apply Session.Triple.bind recordDecision_triple
  intro found
  cases found with
  | none => exact .pure fun _ _ => trivial
  | some request =>
      apply Session.Triple.bind (Session.Triple.weaken (waiting_transitionTask ?_ ?_)
        (fun db given => ⟨given.1 request rfl, given.2⟩) fun _ _ rest => rest)
      · intro won
        apply Session.Triple.of_fact fun _ given => given.1
        rintro rfl
        apply Session.Triple.of_right
        rw [if_pos rfl]
        apply Session.Triple.bind wrote_findById
        intro found
        apply Session.Triple.of_fact fun _ given => given.1
        rintro ⟨task, rfl, isTask⟩
        apply Session.Triple.of_right
        have home : task.executionId ∈ [request.taskId.executionId] := by
          rw [← isTask]
          exact List.mem_singleton_self _
        apply Session.Triple.ite
        · intro _
          apply Session.Triple.bind (keeps_afterTaskSucceeded home)
          intro _
          exact keeps_emit.returning
        · intro _
          apply Session.Triple.bind (keeps_afterTaskFailedForGood home)
          intro _
          exact keeps_emit.returning
      · split <;> rfl
      · intro task
        split <;> rfl

end Operations

/-! ## Calls -/

variable [Mixed Val]

/-- What an operation is called with is refused. -/
inductive RefusedInput : Op Val → EngineError → Prop where
  | graph {params : StartParams Val} : (validateDag params.dag).valid = false →
      RefusedInput (.startExecution params)
        (.invalidWorkflowGraph (validateDag params.dag).errors)
  | title {taskId : TaskId} {leaseToken : Nat} {request : ApprovalParams Val} :
      request.title = "" → RefusedInput (.suspendForApproval taskId leaseToken request)
        (.requiredPath "ApprovalRequest" "title")

theorem startExecution_throws {env : Env} {params : StartParams Val} {db : Db Val}
    {thrown : EngineError} (keyed : db.Keyed)
    (threw : (startExecution env params).run db = .error thrown) :
    thrown = .duplicateKey ∨ (validateDag params.dag).valid = false ∧
      thrown = .invalidWorkflowGraph (validateDag params.dag).errors := by
  unfold startExecution at threw
  cases accepted : (validateDag params.dag).valid with
  | false =>
      rw [if_neg (by rw [← StartParams.dag, accepted]; exact Bool.false_ne_true)] at threw
      cases threw
      exact .inr ⟨rfl, rfl⟩
  | true =>
      rw [if_pos (by exact accepted)] at threw
      have inserts : Session.Preserves Db.Keyed (· = .duplicateKey)
          (do
            Session.create .duplicateKey (newExecution env params)
            Session.insertMany .duplicateKey
              (params.workflow.tasks.map (newTask env.objectId params.workflow env.now))
            emit env .executionStarted env.objectId
              (.started params.workflow.id params.workflow.version params.workflow.tasks.length
                params.triggeredBy params.trigger)
            return newExecution env params : Txn Val (WorkflowExecution Val)) :=
        .bind (.create rfl) fun _ => .bind (.insertMany rfl) fun _ =>
          .bind (.bind .get fun _ => .create rfl) fun _ => .pure
      exact .inl (inserts.thrown keyed threw)

/-- The callback inserts documents whose unique indexes are not about event ids. -/
def Op.inserts : Op Val → Bool
  | .startExecution _ | .suspendForApproval _ _ _ => true
  | _ => false

/-- What a callback throws on a snapshot of a committed database. -/
theorem Op.run_throws {env : Env} {db : Db Val} {op : Op Val} {thrown : EngineError}
    (inv : db.Inv) (threw : (op.run env).run db = .error thrown) :
    (thrown = .duplicateKey ∨ RefusedInput op thrown) ∧
      (op.inserts = false → ¬ env.Fresh db.outbox) := by
  -- a callback that inserts events only
  have report : ∀ {α : Type} {session : Txn Val α} {reply : α → Reply Val},
      Session.Triple (fun view : Db Val => view.Inv ∧ view.Housed env (env.Fresh db.outbox) [])
        session (fun _ _ => True) (Refused (env.Fresh db.outbox)) →
      (session >>= fun value => pure (reply value)).run db = .error thrown →
      (thrown = .duplicateKey ∨ RefusedInput op thrown) ∧
        (op.inserts = false → ¬ env.Fresh db.outbox) := by
    intro α session reply triple threw
    rcases Session.bind_eq_error.mp threw with threw' | ⟨_, _, _, absurdity⟩
    · have refused := triple.thrown ⟨inv, .of_inv inv id⟩ threw'
      exact ⟨.inl refused.1, fun _ => refused.2⟩
    · cases absurdity
  cases op with
  | startExecution params =>
      refine ⟨?_, fun absurdity => by cases absurdity⟩
      rcases Session.bind_eq_error.mp threw with threw' | ⟨_, _, _, absurdity⟩
      · rcases startExecution_throws inv.keyed threw' with duplicate | ⟨invalid, rfl⟩
        · exact .inl duplicate
        · exact .inr (.graph invalid)
      · cases absurdity
  | suspendForApproval =>
      refine ⟨?_, fun absurdity => by cases absurdity⟩
      rcases Session.bind_eq_error.mp threw with threw' | ⟨_, _, _, absurdity⟩
      · have refused := suspendForApproval_triple.thrown (.of_inv inv False.elim) threw'
        rcases refused with duplicate | ⟨untitled, rfl⟩
        · exact .inl duplicate.1
        · exact .inr (.title untitled)
      · cases absurdity
  | pauseExecution => exact report (.of_right total_pauseExecution) threw
  | resumeExecution => exact report (.of_right total_resumeExecution) threw
  | cancelExecution => exact report (.of_right total_cancelExecution) threw
  | completeTask => exact report (.of_right total_completeTask) threw
  | failTask => exact report (.of_right total_failTask) threw
  | resolveApproval => exact report total_resolveApproval threw

/-! ## Steps -/

/-- The outbox that the step reads. -/
def Frame.outbox (db : Db Val) : Frame Val → Collection OutboxEvent
  | .callback _ snapshot => snapshot.outbox
  | _ => db.outbox

/-- The step inserts documents whose unique indexes are not about event ids. -/
def Frame.insertsOther : Frame Val → Bool
  | .callback op _ => op.inserts
  | .recordAttempt _ _ => true
  | _ => false

/-- A claim finds the task or not. -/
theorem claimTask_returns (env : Env) {taskId : TaskId} {workerId : String} {leaseMs : Int} {now : Time}
    {db : Db Val} (inv : db.Inv) : ∃ claimed view,
      (claimTask taskId workerId leaseMs now : Txn Val (Option (Task Val))).run db =
        .ok (claimed, view) := by
  have searches : Session.Triple (Db.Housed env False [])
      (Session.findOneAndUpdate taskId (claim workerId leaseMs now) :
        Txn Val (Option (Task Val)))
      (fun _ => Db.Housed env False []) (fun _ => False) := .findOneAndUpdate_any
  rcases searches.total (fun _ absurdity => absurdity) (.of_inv inv False.elim) with
    ⟨claimed, view, ran, _⟩
  exact ⟨claimed, view, ran⟩

/-- What a step throws. -/
theorem Frame.step_throws {env : Env} {db : Db Val} {frame : Frame Val} {thrown : EngineError}
    (inv : db.Inv) (ok : frame.Ok db) (threw : frame.step env db = .error thrown) :
    (thrown = .duplicateKey ∨ ∃ op, frame.op? = some op ∧ RefusedInput op thrown) ∧
      (frame.insertsOther = false → ¬ env.Fresh (frame.outbox db)) := by
  -- a frame whose statement always returns
  have returns : ∀ {α : Type} {session : Txn Val α} {next : α × Db Val → Outcome Val},
      (∃ value view, session.run db = .ok (value, view)) →
      (session.run db >>= fun ran => .ok (next ran)) ≠ .error thrown := by
    rintro α session next ⟨value, view, ran⟩ threw
    rw [ran] at threw
    cases threw
  cases frame with
  | callback op snapshot =>
      rcases Session.error_of_bind threw with threw' | ⟨_, _, threw'⟩
      · have throws := op.run_throws ok.1 threw'
        exact ⟨throws.1.imp_right fun refused => ⟨op, rfl, refused⟩, throws.2⟩
      · simp only at threw'
        split at threw' <;> cases threw'
  | startTask taskId workerId =>
      rcases Session.error_of_bind threw with threw' | ⟨_, _, threw'⟩
      · have total : ∃ claimed view,
            (claimTask taskId workerId env.leaseMs env.now : Txn Val (Option (Task Val))).run db =
              .ok (claimed, view) := claimTask_returns env inv
        rcases total with ⟨_, _, ran⟩
        cases ran.symm.trans threw'
      · simp only at threw'
        split at threw' <;> cases threw'
  | renewLease => exact absurd threw (returns ⟨_, _, rfl⟩)
  | dispatchTask => exact absurd threw (returns ⟨_, _, rfl⟩)
  | abandonAttempts task => exact absurd threw (returns ⟨_, _, rfl⟩)
  | recordAttempt task workerId =>
      refine ⟨.inl ?_, fun absurdity => by cases absurdity⟩
      rcases Session.error_of_bind threw with threw' | ⟨_, _, absurdity⟩
      · simp only [Session.create, StateT.run] at threw'
        split at threw'
        · cases threw'
          rfl
        · cases threw'
      · cases absurdity
  | announce task workerId =>
      rcases Session.error_of_bind threw with threw' | ⟨_, _, absurdity⟩
      · have housed : db.Housed env (env.Fresh db.outbox) [] := .of_inv inv id
        have refused := (keeps_emit.thrown housed threw' : Refused _ _)
        exact ⟨.inl refused.1, fun _ => refused.2⟩
      · cases absurdity
  | dispatchReady =>
      simp only [step] at threw
      split at threw <;> cases threw
  | checkBudget =>
      simp only [step] at threw
      split at threw <;> cases threw
  | redispatch stuck =>
      cases stuck with
      | nil => cases threw
      | cons taskId rest =>
          simp only [step] at threw
          split at threw
          · cases threw
          · split at threw <;> cases threw
  | _ => cases threw

end WorkflowEngine
