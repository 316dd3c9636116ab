import WorkflowEngine.Workflow.Committed

/-!
# Where runs come from

Every run was started by a call of `startExecution`, and nothing that happens later
changes what that call fixed: the identity of the run, and of each task the definition it
was copied from.
-/

namespace WorkflowEngine

open DocStore

variable {Val : Type}

/-- The task list that `startExecution` validates. -/
def StartParams.dag (params : StartParams Val) : List DagTask :=
  params.workflow.tasks.map TaskDefinition.toDagTask

variable [Mixed Val]

/-- A call of `startExecution` with these parameters made the run. -/
def Run.StartedWith (params : StartParams Val) (run : Run Val) : Prop :=
  ∃ env, run.execution.shape = (Run.start env params).execution.shape ∧
    run.shapes = (Run.start env params).shapes

namespace Run

variable {params : StartParams Val} {run next : Run Val}

theorem startedWith_start (env : Env) (params : StartParams Val) :
    StartedWith params (start env params) :=
  ⟨env, rfl, rfl⟩

theorem Step.shapes {missed : Key → Bool} {label : Option (Reply Val)}
    (step : Step missed label run next) (inv : run.Inv) : next.shapes = run.shapes := by
  rcases step.moves inv.graph.tasks_nodup with ⟨image, tasks, moves⟩
  rw [Run.shapes, Run.shapes, tasks, List.map_map]
  apply List.map_congr_left
  intro task membership
  exact (moves task membership).evolves.shape

theorem StartedWith.step {missed : Key → Bool} {label : Option (Reply Val)}
    (started : run.StartedWith params) (inv : run.Inv) (step : Step missed label run next) :
    next.StartedWith params := by
  rcases started with ⟨env, execution, shapes⟩
  exact ⟨env, step.execution_shape.trans execution, (step.shapes inv).trans shapes⟩

end Run

/-! ## When a start is refused -/

section Refused

variable {env : Env} {params : StartParams Val} {db : Db Val}

omit [Mixed Val] in
/-- Tasks whose ids are new can be inserted. -/
theorem insertMany_total {thrown : EngineError} {tasks : List (Task Val)} {db : Db Val}
    (nodup : (tasks.map Task.id).Nodup) (absent : ∀ task ∈ tasks, task.id ∉ db.tasks.ids) :
    ∃ final, (Session.insertMany thrown tasks : Txn Val Unit).run db = .ok ((), final) := by
  induction tasks generalizing db with
  | nil => exact ⟨db, rfl⟩
  | cons task rest ih =>
      have unique : (Holds.get db : Collection (Task Val)).duplicates task = false := by
        apply List.any_eq_false.mpr
        intro doc docMem
        rw [Bool.or_eq_true, decide_eq_true_eq, not_or]
        refine ⟨fun same => ?_, Bool.false_ne_true⟩
        have taken : Collection.idOf doc ∈ db.tasks.ids := Collection.idOf_mem_ids docMem
        rw [same] at taken
        exact absent task List.mem_cons_self taken
      have created : (Session.create thrown task : Txn Val Unit).run db =
          .ok ((), Holds.set db (Holds.get db ++ [⟨0, task⟩])) :=
        Session.create_eq_ok.mpr ⟨unique, rfl⟩
      rw [List.map_cons, List.nodup_cons] at nodup
      have later : ∀ other ∈ rest,
          other.id ∉ (Holds.set db (Holds.get db ++ [⟨0, task⟩]) : Db Val).tasks.ids := by
        intro other otherMem present
        rcases List.mem_map.mp present with ⟨doc, docMem, same⟩
        rcases List.mem_append.mp docMem with old | new
        · apply absent other (List.mem_cons_of_mem _ otherMem)
          exact same ▸ Collection.idOf_mem_ids old
        · cases List.mem_singleton.mp new
          apply nodup.1
          rw [show task.id = other.id from same]
          exact List.mem_map_of_mem otherMem
      rcases ih nodup.2 later with ⟨final, inserted⟩
      exact ⟨final, Session.bind_eq_ok.mpr ⟨(), _, created, inserted⟩⟩

/-- The tasks of a run have different ids. -/
theorem start_task_ids (accepted :
      (validateDag (params.workflow.tasks.map TaskDefinition.toDagTask)).valid = true) :
    ((Run.start env params).tasks.map Task.id).Nodup := by
  have keys : ((Run.start env params).tasks.map (·.key)).Nodup :=
    (Run.start_graphValid accepted).tasks_nodup
  apply List.Nodup.of_map TaskId.key
  rwa [List.map_map]

omit [Mixed Val] in
/-- An event under a new id can be emitted. -/
theorem emit_total {type : EventType} {executionId : ExecutionId} {payload : EventPayload}
    (fresh : env.randomUUID db.outbox.length ∉ db.outbox.ids) :
    ∃ final, (emit env type executionId payload : Txn Val Unit).run db = .ok ((), final) := by
  refine ⟨_, Session.bind_eq_ok.mpr ⟨db, db, rfl, Session.create_eq_ok.mpr ⟨?_, rfl⟩⟩⟩
  exact Db.unique_event fresh

/-- A valid definition is started under new ids if no unique index is violated. -/
theorem startExecution_total (inv : db.Inv) (freshRun : env.objectId ∉ db.executions.ids)
    (freshEvent : env.randomUUID db.outbox.length ∉ db.outbox.ids)
    (accepted : (validateDag (params.workflow.tasks.map TaskDefinition.toDagTask)).valid = true)
    (unique : db.executions.duplicates (newExecution env params) = false) :
    ∃ final, (startExecution env params).run db = .ok (newExecution env params, final) := by
  have created : (Session.create .duplicateKey (newExecution env params) : Txn Val Unit).run db =
      .ok ((), db.patch { newExecutions := [newExecution env params] }) := by
    rw [← set_newExecution]
    exact Session.create_eq_ok.mpr ⟨unique, rfl⟩
  have absent : ∀ task ∈ (Run.start env params).tasks,
      task.id ∉ (db.patch { newExecutions := [newExecution env params] }).tasks.ids := by
    intro task taskMem present
    rw [Db.patch_tasks rfl rfl] at present
    rcases List.mem_map.mp taskMem with ⟨definition, _, rfl⟩
    rcases Collection.mem_ids.mp present with ⟨other, otherMem, same⟩
    apply freshRun
    have home : other.executionId = env.objectId := congrArg TaskId.executionId same
    exact home ▸ inv.taskHome other otherMem
  rcases insertMany_total (start_task_ids accepted) absent with ⟨middle, inserted⟩
  have same := insertMany_ok inserted
  have outbox : middle.outbox = db.outbox := by
    rw [same, Db.patch, Db.patch]
    simp only [Collection.rewrite_nil_nil]
  rw [← outbox] at freshEvent
  rcases emit_total freshEvent with ⟨final, emitted⟩
  refine ⟨final, ?_⟩
  unfold startExecution
  rw [if_pos accepted]
  exact Session.bind_eq_ok.mpr ⟨(), _, created, Session.bind_eq_ok.mpr ⟨(), _, inserted,
    Session.bind_eq_ok.mpr ⟨(), _, emitted, rfl⟩⟩⟩

/-- With new ids a start throws only when the definition is not a valid DAG, or the user
has used the key before. -/
theorem startExecution_error {thrown : EngineError} (inv : db.Inv)
    (freshRun : env.objectId ∉ db.executions.ids)
    (freshEvent : env.randomUUID db.outbox.length ∉ db.outbox.ids)
    (threw : (startExecution env params).run db = .error thrown) :
    (validateDag (params.workflow.tasks.map TaskDefinition.toDagTask)).valid = false ∧
        thrown = .invalidWorkflowGraph
          (validateDag (params.workflow.tasks.map TaskDefinition.toDagTask)).errors ∨
      thrown = .duplicateKey ∧ ∃ existing ∈ db.executions.values,
        Document.clash existing (newExecution env params) = true := by
  cases accepted : (validateDag (params.workflow.tasks.map TaskDefinition.toDagTask)).valid with
  | false =>
      left
      unfold startExecution at threw
      rw [if_neg (by rw [accepted]; exact Bool.false_ne_true)] at threw
      cases threw
      exact ⟨rfl, rfl⟩
  | true =>
      right
      cases unique : db.executions.duplicates (newExecution env params) with
      | false =>
          rcases startExecution_total inv freshRun freshEvent accepted unique with ⟨_, returned⟩
          rw [returned] at threw
          cases threw
      | true =>
          rcases List.any_eq_true.mp unique with ⟨doc, docMem, violates⟩
          refine ⟨?_, doc.val, Collection.val_mem_values docMem, ?_⟩
          · unfold startExecution at threw
            rw [if_pos accepted] at threw
            rcases Session.bind_eq_error.mp threw with refused | ⟨_, _, created, _⟩
            · have refuses : (Session.create .duplicateKey (newExecution env params) :
                  Txn Val Unit).run db = .error .duplicateKey := if_pos unique
              cases refused.symm.trans refuses
              rfl
            · cases unique.symm.trans (Session.create_eq_ok.mp created).1
          · rcases Bool.or_eq_true_iff.mp violates with sameId | clashes
            · apply absurd _ freshRun
              exact (of_decide_eq_true sameId : _ = env.objectId) ▸ Collection.idOf_mem_ids docMem
            · exact clashes

end Refused

/-! ## Starts in every schedule -/

omit [Mixed Val] in
/-- Two runs that the unique index on user and key keeps apart. -/
theorem clash_iff {left right : WorkflowExecution Val} :
    Document.clash left right = true ↔ left.idempotencyKey.isSome = true ∧
      left.idempotencyKey = right.idempotencyKey ∧ left.triggeredBy = right.triggeredBy := by
  simp only [Document.clash, Bool.and_eq_true, beq_iff_eq, and_assoc]

omit [Mixed Val] in
theorem clash_symm {left right : WorkflowExecution Val}
    (clashes : Document.clash left right = true) : Document.clash right left = true := by
  rcases clash_iff.mp clashes with ⟨keyed, key, user⟩
  exact clash_iff.mpr ⟨key ▸ keyed, key.symm, user.symm⟩

omit [Mixed Val] in
theorem clash_of_shape {left right left' right' : WorkflowExecution Val}
    (isLeft : left'.shape = left.shape) (isRight : right'.shape = right.shape)
    (clashes : Document.clash left right = true) : Document.clash left' right' = true := by
  have key : left'.idempotencyKey = left.idempotencyKey :=
    congrArg ExecutionShape.idempotencyKey isLeft
  have user : left'.triggeredBy = left.triggeredBy := congrArg ExecutionShape.triggeredBy isLeft
  have key' : right'.idempotencyKey = right.idempotencyKey :=
    congrArg ExecutionShape.idempotencyKey isRight
  have user' : right'.triggeredBy = right.triggeredBy :=
    congrArg ExecutionShape.triggeredBy isRight
  rw [clash_iff, key, user, key', user']
  exact clash_iff.mp clashes

namespace Sys

variable {issued : StartParams Val → Prop} {sys next : Sys Val} {action : Action Val}
  {label : Option (Reply Val)}

/-- What a commit of `startExecution` did. -/
theorem Stepped.created {params : StartParams Val} {execution : WorkflowExecution Val}
    (stepped : sys.Stepped action next (some (.startExecution params execution))) :
    ∃ env snapshot rows, sys.frame? action = some (.callback (.startExecution params) snapshot) ∧
      execution = newExecution env params ∧
      (validateDag (params.workflow.tasks.map TaskDefinition.toDagTask)).valid = true ∧
      Describes env.objectId (Run.start env params).events rows ∧
      Db.Commits snapshot sys.db
        { newExecutions := [newExecution env params]
          newTasks := (Run.start env params).tasks
          newEvents := rows } next.db := by
  rcases stepped.committed rfl with ⟨env, op, snapshot, patch, isFrame, answers, writes, commits⟩
  cases op with
  | startExecution called =>
      cases answers
      cases writes with
      | nothing idle => cases idle
      | start accepted describes =>
          exact ⟨env, snapshot, _, isFrame, rfl, accepted, describes, commits⟩
  | _ => cases answers

/-- The commit found no other execution with the user and the key. -/
theorem Stepped.unclashed {params : StartParams Val} {execution old : WorkflowExecution Val}
    (stepped : sys.Stepped action next (some (.startExecution params execution)))
    (membership : old ∈ sys.db.executions.values) : Document.clash old execution = false := by
  rcases stepped.created with ⟨env, _, _, _, rfl, _, _, commits⟩
  have fresh := commits.executions.fresh _ (List.mem_singleton_self _)
  rcases Collection.mem_values.mp membership with ⟨doc, docMem, rfl⟩
  have clear := List.any_eq_false.mp fresh doc docMem
  rw [Bool.or_eq_true, not_or] at clear
  exact Bool.not_eq_true _ ▸ clear.2

/-- Where an execution of the next state comes from. -/
theorem Stepped.execution_origin (stepped : sys.Stepped action next label)
    {execution : WorkflowExecution Val} (membership : execution ∈ next.db.executions.values) :
    (∃ old ∈ sys.db.executions.values, old.shape = execution.shape) ∨
      ∃ env params, label = some (.startExecution params (newExecution env params)) ∧
        execution = newExecution env params := by
  have advanced := stepped.advances.runs execution membership
  have isExecution : (next.db.runOf execution).execution = execution := rfl
  generalize next.db.runOf execution = run at advanced isExecution
  cases advanced with
  | @same old member _ => exact .inl ⟨old, member, congrArg WorkflowExecution.shape isExecution⟩
  | @step old _ member ran =>
      refine .inl ⟨old, member, ?_⟩
      rw [← isExecution]
      exact ran.execution_shape.symm
  | @start env params named => exact .inr ⟨env, params, named, isExecution.symm⟩

/-- Every start of a run, under way or done, is one that was asked for, and no two runs
violate the unique index. -/
structure Provenance (issued : StartParams Val → Prop) (sys : Sys Val) : Prop where
  calls : ∀ stack ∈ sys.calls, ∀ frame ∈ stack, ∀ params,
    frame.op? = some (.startExecution params) → issued params
  runs : ∀ execution ∈ sys.db.executions.values, ∃ params, issued params ∧
    (sys.db.runOf execution).StartedWith params
  unique : ∀ left ∈ sys.db.executions.values, ∀ right ∈ sys.db.executions.values,
    Document.clash left right = true → left = right

namespace Provenance

theorem init : (Sys.init : Sys Val).Provenance issued :=
  ⟨fun _ absurdity => absurd absurdity List.not_mem_nil,
    fun _ absurdity => absurd absurdity List.not_mem_nil,
    fun _ absurdity => absurd absurdity List.not_mem_nil⟩

theorem mono {more : StartParams Val → Prop} (provenance : sys.Provenance issued)
    (weaker : ∀ params, issued params → more params) : sys.Provenance more where
  calls stack stackMem frame frameMem params isOp :=
    weaker params (provenance.calls stack stackMem frame frameMem params isOp)
  runs execution membership := by
    rcases provenance.runs execution membership with ⟨params, isIssued, started⟩
    exact ⟨params, weaker params isIssued, started⟩
  unique := provenance.unique

/-- A committed start was asked for. -/
theorem issued_of_started (provenance : sys.Provenance issued) {params : StartParams Val}
    {execution : WorkflowExecution Val}
    (stepped : sys.Stepped action next (some (.startExecution params execution))) :
    issued params := by
  rcases stepped.created with ⟨_, _, _, isFrame, _⟩
  rcases frame?_top isFrame with ⟨rest, stackMem⟩
  exact provenance.calls _ stackMem _ List.mem_cons_self params rfl

theorem step (provenance : sys.Provenance issued) (stepped : sys.Stepped action next label)
    (invoked : ∀ frame params, action = .invoke frame →
      frame.op? = some (.startExecution params) → issued params) :
    next.Provenance issued where
  calls := by
    refine stepped.took.frames provenance.calls ?_ ?_
    · intro frame isAction _ params isOp
      exact invoked frame params isAction isOp
    · intro call env frame rest outcome _ found ran _ later laterMem params isOp
      rcases frame.step_op ran laterMem isOp with same | ⟨_, _, other⟩ | ⟨_, other⟩
      · exact provenance.calls _ (List.mem_of_getElem? found) frame List.mem_cons_self params same
      · cases other
      · cases other
  runs := by
    intro execution membership
    have advanced := stepped.advances.runs execution membership
    generalize next.db.runOf execution = run at advanced ⊢
    cases advanced with
    | same member _ => exact provenance.runs _ member
    | step member ran =>
        rcases provenance.runs _ member with ⟨params, isIssued, started⟩
        exact ⟨params, isIssued, started.step (stepped.inv.db.runInv member) ran⟩
    | @start env params named =>
        cases named
        exact ⟨params, provenance.issued_of_started stepped, Run.startedWith_start env params⟩
  unique := by
    intro left leftMem right rightMem clashes
    have same : left.id = right.id → left = right := stepped.later.db.eq_of_id leftMem rightMem
    rcases stepped.execution_origin leftMem with
      ⟨old, oldMem, oldShape⟩ | ⟨env, params, named, rfl⟩
    · rcases stepped.execution_origin rightMem with
        ⟨old', oldMem', oldShape'⟩ | ⟨env, params, named, rfl⟩
      · have equal := provenance.unique old oldMem old' oldMem'
          (clash_of_shape oldShape oldShape' clashes)
        apply same
        rw [equal, oldShape'] at oldShape
        exact (congrArg ExecutionShape.id oldShape).symm
      · cases named
        have apart := stepped.unclashed oldMem
        rw [clash_of_shape oldShape rfl clashes] at apart
        cases apart
    · cases named
      rcases stepped.execution_origin rightMem with
        ⟨old, oldMem, oldShape⟩ | ⟨env', params', named', rfl⟩
      · have apart := stepped.unclashed oldMem
        rw [clash_of_shape oldShape rfl (clash_symm clashes)] at apart
        cases apart
      · exact (Reply.startExecution.inj (Option.some.inj named')).2

end Provenance

end Sys

end WorkflowEngine
