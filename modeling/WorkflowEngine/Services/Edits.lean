import WorkflowEngine.Services.Platform

/-!
# Edits of workflows

What each operation does to the collection of workflows: it creates a workflow, replaces
its schedule, replaces its definition, moves its schedule on, or changes nothing.
-/

namespace WorkflowEngine

open DocStore

/-- A check made before a session goes on. -/
theorem lift_eq_ok {D E α : Type} {check : Except E α} {db final : D} {result : α} :
    (liftM check : Session D E α).run db = .ok (result, final) ↔
      check = .ok result ∧ final = db := by
  cases check with
  | error thrown =>
      constructor
      · intro ran
        cases ran
      · rintro ⟨absurdity, _⟩
        cases absurdity
  | ok value =>
      constructor
      · intro ran
        cases ran
        exact ⟨rfl, rfl⟩
      · rintro ⟨same, rfl⟩
        cases same
        rfl

variable {Val : Type} {workflows final : Collection (WorkflowDocument Val)}

/-! ## Single operations -/

theorem assertValidGraph_ok {tasks : List (TaskDefinition Val)} {result : Unit}
    (accepted : assertValidGraph tasks = .ok result) :
    (validateDag (tasks.map TaskDefinition.toDagTask)).valid = true := by
  simp only [assertValidGraph] at accepted
  split at accepted
  · next valid => exact valid
  · cases accepted

theorem createWorkflow_ok {user : User} {objectId : ObjectId} {body : DefinitionBody Val}
    {workflow : WorkflowDocument Val}
    (ran : (createWorkflow user objectId body).run workflows = .ok (workflow, final)) :
    (validateDag (body.tasks.map TaskDefinition.toDagTask)).valid = true ∧
      workflow = newWorkflow user objectId body ∧ objectId ∉ workflows.ids ∧
        final = workflows ++ [⟨0, newWorkflow user objectId body⟩] := by
  rcases Session.bind_eq_ok.mp ran with ⟨_, middle, asserted, rest⟩
  rcases lift_eq_ok.mp asserted with ⟨accepted, rfl⟩
  rcases Session.bind_eq_ok.mp rest with ⟨_, _, created, rest⟩
  rcases Session.pure_eq_ok.mp rest with ⟨rfl, rfl⟩
  rcases Session.create_eq_ok.mp created with ⟨unique, rfl⟩
  refine ⟨assertValidGraph_ok accepted, rfl, ?_, rfl⟩
  intro present
  rcases List.mem_map.mp present with ⟨doc, docMem, same⟩
  have apart := List.any_eq_false.mp unique doc docMem
  rw [Bool.or_eq_true, not_or] at apart
  exact apart.1 (decide_eq_true same)

theorem findWorkflow_ok {user : User} {id : ObjectId} {found : Option (WorkflowDocument Val)}
    (ran : (findWorkflow user id).run workflows = .ok (found, final)) :
    final = workflows ∧ found = (workflows.findById id).filter fun workflow =>
      inScope (ownerScope user) workflow.ownerId := by
  rcases Session.bind_eq_ok.mp ran with ⟨_, _, searched, rest⟩
  rcases Session.pure_eq_ok.mp rest with ⟨rfl, rfl⟩
  cases searched
  exact ⟨rfl, rfl⟩

theorem getWorkflow_ok (nodup : workflows.ids.Nodup) {user : User} {id : ObjectId}
    {workflow : WorkflowDocument Val}
    (ran : (getWorkflow user id).run workflows = .ok (workflow, final)) :
    final = workflows ∧ workflow ∈ workflows.values ∧ workflow.id = id ∧
      inScope (ownerScope user) workflow.ownerId = true := by
  rcases Session.bind_eq_ok.mp ran with ⟨found, _, searched, rest⟩
  rcases findWorkflow_ok searched with ⟨rfl, isFound⟩
  cases found with
  | none => exact absurd rest Session.throw_eq_ok
  | some read =>
      rcases Session.pure_eq_ok.mp rest with ⟨rfl, rfl⟩
      rcases Option.filter_eq_some_iff.mp isFound.symm with ⟨search, owned⟩
      have membership := (Collection.findById_eq_some nodup).mp search
      exact ⟨rfl, membership.1, membership.2, owned⟩

theorem replaceSchedule_ok (nodup : workflows.ids.Nodup) {user : User} {id : ObjectId}
    {schedule : Option (WorkflowSchedule Val)} {workflow : WorkflowDocument Val}
    (ran : (replaceSchedule user id schedule).run workflows = .ok (workflow, final)) :
    ∃ stored, workflows.findById id = some stored ∧
      inScope (ownerScope user) stored.ownerId = true ∧
        workflow = (attachment user schedule).set stored ∧
          final = workflows.updateMany ((attachment user schedule).only id) := by
  rcases Session.bind_eq_ok.mp ran with ⟨found, _, updated, rest⟩
  rcases Session.findOneAndUpdate_eq_ok nodup updated with
    ⟨rfl, rfl⟩ | ⟨stored, search, matched, rfl, rfl⟩
  · exact absurd rest Session.throw_eq_ok
  · rcases Session.pure_eq_ok.mp rest with ⟨rfl, rfl⟩
    exact ⟨stored, search, matched, rfl, rfl⟩

theorem updateWorkflow_ok (nodup : workflows.ids.Nodup) {user : User} {id : ObjectId}
    {version : Nat} {body : DefinitionBody Val} {result : Option (WorkflowDocument Val)}
    (ran : (updateWorkflow user id version body).run workflows = .ok (result, final)) :
    (result = none ∧ final = workflows) ∨
      ∃ stored, workflows.findById id = some stored ∧
        inScope (ownerScope user) stored.ownerId = true ∧ stored.version = version ∧
          (validateDag (body.tasks.map TaskDefinition.toDagTask)).valid = true ∧
            result = some ((replacement user version body).set stored) ∧
              final = workflows.updateMany ((replacement user version body).only id) := by
  rcases Session.bind_eq_ok.mp ran with ⟨_, middle, asserted, rest⟩
  rcases lift_eq_ok.mp asserted with ⟨accepted, rfl⟩
  rcases Session.findOneAndUpdate_eq_ok nodup rest with
    ⟨rfl, rfl⟩ | ⟨stored, search, matched, rfl, rfl⟩
  · exact .inl ⟨rfl, rfl⟩
  · rcases Bool.and_eq_true_iff.mp matched with ⟨owned, current⟩
    exact .inr ⟨stored, search, owned, beq_iff_eq.mp current, assertValidGraph_ok accepted, rfl,
      rfl⟩

theorem explainConflict_not_ok {α : Type} {user : User} {id : ObjectId} {version : Nat}
    {result : α} :
    ¬ (explainConflict user id version : Definitions Val α).run workflows =
      .ok (result, final) := by
  intro ran
  rcases Session.bind_eq_ok.mp ran with ⟨found, _, _, rest⟩
  cases found with
  | none => exact Session.throw_eq_ok rest
  | some current => exact Session.throw_eq_ok rest

/-- The due workflows as they were read. -/
theorem findDue_ok {batchSize : Nat} {current : Time}
    {found : List (WorkflowDocument Val × WorkflowSchedule Val)}
    (ran : (findDue batchSize current).run workflows = .ok (found, final)) :
    ∀ due ∈ found, due.1 ∈ workflows.values ∧ due.1.schedule = some due.2 ∧
      due.2.nextRunAt ≤ current := by
  rcases Session.bind_eq_ok.mp ran with ⟨_, _, searched, rest⟩
  rcases Session.pure_eq_ok.mp rest with ⟨rfl, rfl⟩
  cases searched
  intro due membership
  have sorted : due ∈ (((workflows.find fun workflow => workflow.schedule.any fun schedule =>
      schedule.enabled && decide (schedule.nextRunAt ≤ current)).filterMap fun workflow =>
        workflow.schedule.map fun schedule => (workflow, schedule)).insertionSort fun left right =>
          left.2.nextRunAt ≤ right.2.nextRunAt) := by
    unfold limited at membership
    split at membership
    · exact membership
    · exact List.mem_of_mem_take membership
  rw [List.mem_insertionSort] at sorted
  rcases List.mem_filterMap.mp sorted with ⟨workflow, workflowMem, isDue⟩
  rcases Option.map_eq_some_iff.mp isDue with ⟨schedule, attached, rfl⟩
  rcases List.mem_filter.mp workflowMem with ⟨stored, enabled⟩
  rw [attached, Option.any_some, Bool.and_eq_true, decide_eq_true_eq] at enabled
  exact ⟨stored, attached, enabled.2⟩

/-! ## What an operation of a job does -/

/-- The operation works off a request to change a workflow. -/
def Operation.edits : Operation Val → Bool
  | .first (.createWorkflow ..) | .first (.setSchedule ..) | .first (.clearSchedule ..)
  | .first (.updateWorkflow ..) | .replaceSchedule .. | .explainConflict .. => true
  | _ => false

/-- The workflows after an operation, and how its job goes on. -/
inductive Edited (deployment : Deployment) (env : Env)
    (workflows : Collection (WorkflowDocument Val)) :
    Operation Val → Collection (WorkflowDocument Val) → Next Val → Prop where
  | nothing {operation : Operation Val} {next : Next Val} :
      (operation.edits = true → ∀ answer, next ≠ .answer (.ok answer)) →
      Edited deployment env workflows operation workflows next
  | created {user : User} {body : DefinitionBody Val} :
      env.objectId ∉ workflows.ids →
      Edited deployment env workflows (.first (.createWorkflow user body))
        (workflows ++ [⟨0, newWorkflow user env.objectId body⟩])
        (.answer (.ok (.workflow (newWorkflow user env.objectId body))))
  | scheduled {user : User} {id : ObjectId} {schedule : WorkflowSchedule Val}
      {stored : WorkflowDocument Val} :
      workflows.findById id = some stored → inScope (ownerScope user) stored.ownerId = true →
      Edited deployment env workflows (.replaceSchedule user id schedule)
        (workflows.updateMany ((attachment user (some schedule)).only id))
        (.answer (.ok (.workflow ((attachment user (some schedule)).set stored))))
  | cleared {user : User} {id : ObjectId} {stored : WorkflowDocument Val} :
      workflows.findById id = some stored → inScope (ownerScope user) stored.ownerId = true →
      Edited deployment env workflows (.first (.clearSchedule user id))
        (workflows.updateMany ((attachment user none).only id))
        (.answer (.ok (.workflow ((attachment user none).set stored))))
  | replaced {user : User} {id : ObjectId} {version : Nat} {body : DefinitionBody Val}
      {stored : WorkflowDocument Val} :
      workflows.findById id = some stored → inScope (ownerScope user) stored.ownerId = true →
      stored.version = version →
      (validateDag (body.tasks.map TaskDefinition.toDagTask)).valid = true →
      Edited deployment env workflows (.first (.updateWorkflow user id version body))
        (workflows.updateMany ((replacement user version body).only id))
        (.answer (.ok (.workflow ((replacement user version body).set stored))))
  | advanced {tick : Tick Val} {lastError : Option String} :
      Edited deployment env workflows (.advance tick lastError)
        (workflows.updateMany ((advancement deployment.cron tick.current tick.due.schedule
          lastError).only tick.due.workflow.id))
        (Platform.startNext tick.current tick.started tick.seen tick.rest)

/-- The workflow that an operation edits. -/
def Operation.target? : Operation Val → Option ObjectId
  | .first (.setSchedule _ id _) | .first (.clearSchedule _ id)
  | .first (.updateWorkflow _ id _ _) | .replaceSchedule _ id _
  | .explainConflict _ id _ => some id
  | _ => none

/-- A stored workflow after an operation. -/
inductive Turned (deployment : Deployment) (operation : Operation Val) (next : Next Val)
    (stored : WorkflowDocument Val) : WorkflowDocument Val → Prop where
  | same :
      (operation.target? = some stored.id → ∀ answer, next ≠ .answer (.ok answer)) →
      Turned deployment operation next stored stored
  | scheduled {user : User} {schedule : WorkflowSchedule Val} :
      operation = .replaceSchedule user stored.id schedule →
      inScope (ownerScope user) stored.ownerId = true →
      next = .answer (.ok (.workflow ((attachment user (some schedule)).set stored))) →
      Turned deployment operation next stored ((attachment user (some schedule)).set stored)
  | cleared {user : User} :
      operation = .first (.clearSchedule user stored.id) →
      next = .answer (.ok (.workflow ((attachment user none).set stored))) →
      Turned deployment operation next stored ((attachment user none).set stored)
  | replaced {user : User} {body : DefinitionBody Val} :
      operation = .first (.updateWorkflow user stored.id stored.version body) →
      inScope (ownerScope user) stored.ownerId = true →
      (validateDag (body.tasks.map TaskDefinition.toDagTask)).valid = true →
      next = .answer (.ok (.workflow ((replacement user stored.version body).set stored))) →
      Turned deployment operation next stored ((replacement user stored.version body).set stored)
  | advanced {tick : Tick Val} {lastError : Option String} {schedule : WorkflowSchedule Val} :
      operation = .advance tick lastError → tick.due.workflow.id = stored.id →
      stored.schedule = some schedule →
      schedule.nextRunAt = tick.due.schedule.nextRunAt →
      Turned deployment operation next stored
        ((advancement deployment.cron tick.current tick.due.schedule lastError).set stored)

theorem Turned.id_eq {deployment : Deployment} {operation : Operation Val} {next : Next Val}
    {stored after : WorkflowDocument Val} (turned : Turned deployment operation next stored after) :
    after.id = stored.id := by
  cases turned <;> rfl

/-- An update of one workflow. -/
theorem onValue_only (update : Update (WorkflowDocument Val)) (id : ObjectId)
    (stored : WorkflowDocument Val) :
    (stored.id = id ∧ update.filter stored = true ∧
        (update.only id).onValue stored = update.set stored) ∨
      ((update.only id).onValue stored = stored ∧
        (stored.id = id → update.filter stored = false)) := by
  cases matched : (update.only id).filter stored with
  | true =>
      exact .inl ⟨Update.id_of_only matched, (Bool.and_eq_true_iff.mp matched).2, if_pos matched⟩
  | false =>
      refine .inr ⟨if_neg (by rw [matched]; exact Bool.false_ne_true), ?_⟩
      intro isId
      have both : (decide (Document.id stored = id) && update.filter stored) = false := matched
      rwa [decide_eq_true (show Document.id stored = id from isId), Bool.true_and] at both

/-- Every stored workflow after an operation, and what is added. -/
structure Edited.Turns (deployment : Deployment) (operation : Operation Val) (next : Next Val)
    (workflows final : Collection (WorkflowDocument Val))
    (image : WorkflowDocument Val → WorkflowDocument Val)
    (added : List (WorkflowDocument Val)) : Prop where
  values : final.values = workflows.values.map image ++ added
  turned : ∀ stored ∈ workflows.values, Turned deployment operation next stored (image stored)
  fresh : ∀ new ∈ added, new.id ∉ workflows.ids ∧
    ∃ user body, operation = .first (.createWorkflow user body)
  found : ∀ id answer, operation.target? = some id → next = .answer (.ok answer) →
    id ∈ workflows.ids

theorem Edited.Turns.ids {deployment : Deployment} {operation : Operation Val} {next : Next Val}
    {image : WorkflowDocument Val → WorkflowDocument Val} {added : List (WorkflowDocument Val)}
    (turns : Turns deployment operation next workflows final image added) :
    final.ids = workflows.ids ++ added.map (·.id) := by
  have same : (workflows.values.map image).map Document.id = workflows.values.map Document.id := by
    rw [List.map_map]
    apply List.map_congr_left
    intro stored storedMem
    exact (turns.turned stored storedMem).id_eq
  rw [← Collection.values_ids, turns.values, List.map_append, same, Collection.values_ids]
  rfl

theorem Edited.turns {deployment : Deployment} {env : Env} {operation : Operation Val}
    {next : Next Val} (nodup : workflows.ids.Nodup)
    (edited : Edited deployment env workflows operation final next) :
    ∃ image added, Edited.Turns deployment operation next workflows final image added := by
  have isFound : ∀ {id : ObjectId} {found stored : WorkflowDocument Val},
      workflows.findById id = some found → stored ∈ workflows.values → stored.id = id →
        stored = found := by
    intro id found stored search storedMem isId
    have isMember := (Collection.findById_eq_some nodup).mp search
    exact Collection.value_eq_of_id_eq nodup storedMem isMember.1 (isId.trans isMember.2.symm)
  have isStored : ∀ {id : ObjectId} {found : WorkflowDocument Val},
      workflows.findById id = some found → id ∈ workflows.ids := by
    intro id found search
    have isMember := (Collection.findById_eq_some nodup).mp search
    exact Collection.mem_ids.mpr ⟨found, isMember.1, isMember.2⟩
  have updated : ∀ (update : Update (WorkflowDocument Val)),
      (workflows.updateMany update).values = workflows.values.map update.onValue ++ [] := by
    intro update
    rw [List.append_nil, Collection.values_updateMany]
  cases edited with
  | nothing quiet =>
      have silent : ∀ {id : ObjectId}, operation.target? = some id →
          ∀ answer, next ≠ .answer (.ok answer) := by
        intro id isTarget
        apply quiet
        unfold Operation.target? at isTarget
        split at isTarget
        · rfl
        · rfl
        · rfl
        · rfl
        · rfl
        · cases isTarget
      refine ⟨id, [], ?_, fun stored _ => .same silent, List.forall_mem_nil _, ?_⟩
      · rw [List.map_id, List.append_nil]
      · exact fun id answer isTarget answers => absurd answers (silent isTarget answer)
  | @created user body fresh =>
      refine ⟨id, [newWorkflow user env.objectId body], ?_, fun stored _ => .same ?_, ?_, ?_⟩
      · rw [List.map_id, Collection.values, List.map_append]
        rfl
      · intro isTarget
        cases isTarget
      · intro new membership
        cases List.mem_singleton.mp membership
        exact ⟨fresh, user, body, rfl⟩
      · intro id answer absurdity
        cases absurdity
  | @scheduled user id schedule found search owned =>
      refine ⟨_, [], updated _, ?_, List.forall_mem_nil _,
        fun _ _ isTarget _ => Option.some.inj isTarget ▸ isStored search⟩
      intro stored storedMem
      rcases onValue_only (attachment user (some schedule)) id stored with
        ⟨rfl, _, isSet⟩ | ⟨same, unmatched⟩
      · cases isFound search storedMem rfl
        rw [isSet]
        exact .scheduled rfl owned rfl
      · rw [same]
        refine .same ?_
        intro isTarget
        have isId : stored.id = id := (Option.some.inj isTarget).symm
        cases isFound search storedMem isId
        cases (unmatched isId).symm.trans owned
  | @cleared user id found search owned =>
      refine ⟨_, [], updated _, ?_, List.forall_mem_nil _,
        fun _ _ isTarget _ => Option.some.inj isTarget ▸ isStored search⟩
      intro stored storedMem
      rcases onValue_only (attachment user none) id stored with
        ⟨rfl, _, isSet⟩ | ⟨same, unmatched⟩
      · cases isFound search storedMem rfl
        rw [isSet]
        exact .cleared rfl rfl
      · rw [same]
        refine .same ?_
        intro isTarget
        have isId : stored.id = id := (Option.some.inj isTarget).symm
        cases isFound search storedMem isId
        cases (unmatched isId).symm.trans owned
  | @replaced user id version body found search owned current accepted =>
      refine ⟨_, [], updated _, ?_, List.forall_mem_nil _,
        fun _ _ isTarget _ => Option.some.inj isTarget ▸ isStored search⟩
      intro stored storedMem
      have matches' : (replacement user version body).filter found = true :=
        Bool.and_eq_true_iff.mpr ⟨owned, beq_iff_eq.mpr current⟩
      rcases onValue_only (replacement user version body) id stored with
        ⟨rfl, _, isSet⟩ | ⟨same, unmatched⟩
      · cases isFound search storedMem rfl
        rw [isSet]
        cases current
        exact .replaced rfl owned accepted rfl
      · rw [same]
        refine .same ?_
        intro isTarget
        have isId : stored.id = id := (Option.some.inj isTarget).symm
        cases isFound search storedMem isId
        cases (unmatched isId).symm.trans matches'
  | @advanced tick lastError =>
      refine ⟨_, [], updated _, ?_, List.forall_mem_nil _, fun _ _ absurdity => by cases absurdity⟩
      intro stored storedMem
      rcases onValue_only (advancement deployment.cron tick.current tick.due.schedule lastError)
        tick.due.workflow.id stored with ⟨isId, matched, isSet⟩ | ⟨same, _⟩
      · rw [isSet]
        rcases Option.any_eq_true _ _ |>.mp matched with ⟨schedule, attached, isSlot⟩
        exact .advanced rfl isId.symm attached (beq_iff_eq.mp isSlot)
      · rw [same]
        refine .same ?_
        intro absurdity
        cases absurdity

variable [ToJson Val]

theorem Platform.begin_edited (nodup : workflows.ids.Nodup) {deployment : Deployment} {env : Env}
    {now : Time} {db : Db Val} {request : Request Val} {next : Next Val}
    (performed : begin deployment env now workflows db request = (final, next)) :
    Edited deployment env workflows (.first request) final next := by
  cases request with
  | createWorkflow user body =>
      simp only [begin] at performed
      split at performed
      · next ran =>
        rcases createWorkflow_ok ran with ⟨_, rfl, fresh, rfl⟩
        cases performed
        exact .created fresh
      · cases performed
        exact .nothing fun _ _ => nofun
  | listWorkflows | getWorkflow | run =>
      simp only [begin] at performed
      split at performed <;> cases performed <;> exact .nothing nofun
  | setSchedule user id body =>
      simp only [begin] at performed
      split at performed <;> cases performed <;> exact .nothing fun _ _ => nofun
  | clearSchedule user id =>
      simp only [begin] at performed
      split at performed
      · next ran =>
        rcases replaceSchedule_ok nodup ran with ⟨stored, search, owned, rfl, rfl⟩
        cases performed
        exact .cleared search owned
      · cases performed
        exact .nothing fun _ _ => nofun
  | updateWorkflow user id version body =>
      simp only [begin] at performed
      split at performed
      · next ran =>
        rcases updateWorkflow_ok nodup ran with ⟨absurdity, _⟩ | ⟨stored, search, owned, current,
          accepted, isResult, rfl⟩
        · cases absurdity
        · cases Option.some.inj isResult
          cases performed
          exact .replaced search owned current accepted
      · cases performed
        exact .nothing fun _ _ => nofun
      · cases performed
        exact .nothing fun _ _ => nofun
  | control | getExecution =>
      simp only [begin] at performed
      split at performed <;> cases performed <;> exact .nothing nofun
  | listApprovals | getApproval | resolve | runDue =>
      cases performed
      exact .nothing nofun

/-- One operation of a job. -/
theorem Platform.perform_edited (nodup : workflows.ids.Nodup) {deployment : Deployment} {env : Env}
    {now : Time} {db : Db Val} {seen : Nat} {operation : Operation Val} {next : Next Val}
    (performed : perform deployment env now workflows db seen operation = (final, next)) :
    Edited deployment env workflows operation final next := by
  cases operation with
  | first request => exact begin_edited nodup performed
  | replaceSchedule user id schedule =>
      simp only [perform] at performed
      split at performed
      · next ran =>
        rcases replaceSchedule_ok nodup ran with ⟨stored, search, owned, rfl, rfl⟩
        cases performed
        exact .scheduled search owned
      · cases performed
        exact .nothing fun _ _ => by simp
  | explainConflict user id version =>
      simp only [perform] at performed
      split at performed
      · next ran => exact absurd ran explainConflict_not_ok
      · cases performed
        exact .nothing fun _ _ => by simp
  | findExisting =>
      simp only [perform] at performed
      split at performed
      · split at performed <;> cases performed <;> exact .nothing (by intros; contradiction)
      · cases performed
        exact .nothing (by intros; contradiction)
  | rereadApproval =>
      simp only [perform] at performed
      split at performed <;> split at performed <;> cases performed <;>
        exact .nothing (by intros; contradiction)
  | findDue =>
      simp only [perform] at performed
      split at performed <;> cases performed <;> exact .nothing (by intros; contradiction)
  | advance tick lastError =>
      simp only [perform] at performed
      split at performed
      · next ran =>
        cases ran
        cases performed
        exact .advanced
      · next threw => cases threw
  | rereadExecution | findTasks | recordDecision =>
      cases performed
      exact .nothing (by intros; contradiction)

end WorkflowEngine
