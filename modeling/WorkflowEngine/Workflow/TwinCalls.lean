import WorkflowEngine.Workflow.Tenants

/-!
# The calls of one user

What a user's requests call for, on two databases that show the user the same.  Without
other commits no transaction is retried, and every step gives both calls the same replies
and the same frames.
-/

namespace WorkflowEngine

open DocStore Session

variable {Val : Type} [Mixed Val]

/-! ## Commits without other commits -/

omit [Mixed Val] in
/-- A transaction that inserts nothing but events. -/
theorem Db.commit_events {db : Db Val} {patch : Patch Val} (keyed : db.Keyed)
    (finalKeyed : (db.patch patch).Keyed) (executions : patch.newExecutions = [])
    (tasks : patch.newTasks = []) (attempts : patch.newAttempts = [])
    (approvals : patch.newApprovals = []) :
    db.commit db (db.patch patch) = some (db.patch patch) := by
  apply Db.commit_self keyed
  · rw [executions]
    exact fun _ absurdity => absurd absurdity List.not_mem_nil
  · rw [tasks]
    exact fun _ absurdity => absurd absurdity List.not_mem_nil
  · rw [attempts]
    exact fun _ absurdity => absurd absurdity List.not_mem_nil
  · rw [approvals]
    exact fun _ absurdity => absurd absurdity List.not_mem_nil
  · intro row membership
    exact Db.unique_event (Db.fresh_of_keyed finalKeyed.outbox row membership)

namespace Op

/-- A transaction that a request of the user asks for. -/
def OfUser (user : UserId) (db : Db Val) : Op Val → Prop
  | .startExecution params => params.workflow.ownerId = user ∧ params.triggeredBy = some user
  | .pauseExecution executionId | .resumeExecution executionId | .cancelExecution executionId =>
      ∀ execution ∈ db.executions.values, execution.id = executionId → execution.ownerId = user
  | .resolveApproval params =>
      ∀ request ∈ db.approvals.values, request.id = params.approvalId → request.ownerId = user
  | _ => False

variable {env : Env} {user : UserId} {db view : Db Val} {op : Op Val} {reply : Reply Val}

/-- Its commit is not refused. -/
theorem OfUser.commits (ofUser : op.OfUser user db) (keyed : db.Keyed)
    (returned : (op.run env).run db = .ok (reply, view)) : db.commit db view = some view := by
  have finalKeyed : view.Keyed := (Op.run_keyed op).final keyed returned
  rcases Op.run_ok keyed returned with ⟨patch, writes, rfl⟩
  cases op with
  | startExecution params =>
      rcases bind_eq_ok.mp returned with ⟨execution, _, started, replied⟩
      rcases pure_eq_ok.mp replied with ⟨_, rfl⟩
      exact startExecution_commits keyed started
  | completeTask | failTask | suspendForApproval => cases ofUser
  | pauseExecution =>
      rcases bind_eq_ok.mp returned with ⟨_, _, _, replied⟩
      rcases pure_eq_ok.mp replied with ⟨rfl, _⟩
      cases writes <;> exact Db.commit_events keyed finalKeyed rfl rfl rfl rfl
  | resumeExecution =>
      rcases bind_eq_ok.mp returned with ⟨_, _, _, replied⟩
      rcases pure_eq_ok.mp replied with ⟨rfl, _⟩
      cases writes <;> exact Db.commit_events keyed finalKeyed rfl rfl rfl rfl
  | cancelExecution =>
      rcases bind_eq_ok.mp returned with ⟨_, _, _, replied⟩
      rcases pure_eq_ok.mp replied with ⟨rfl, _⟩
      cases writes <;> exact Db.commit_events keyed finalKeyed rfl rfl rfl rfl
  | resolveApproval =>
      rcases bind_eq_ok.mp returned with ⟨_, _, _, replied⟩
      rcases pure_eq_ok.mp replied with ⟨rfl, _⟩
      cases writes <;> exact Db.commit_events keyed finalKeyed rfl rfl rfl rfl

end Op

/-! ## Two calls -/

/-- Databases that show the user the same; what a step draws is new to both. -/
structure Db.Peers (env : Env) (user : UserId) (left right : Db Val) : Prop where
  leftInv : left.Inv
  rightInv : right.Inv
  agrees : left.Agrees user right
  leftDraws : left.Draws env
  rightDraws : right.Draws env
  leftFresh : env.objectId ∉ left.executions.ids
  rightFresh : env.objectId ∉ right.executions.ids

/-- The execution whose tasks a call dispatches. -/
def Frame.home? : Frame Val → Option ExecutionId
  | .dispatchReady executionId | .findReady executionId => some executionId
  | .dispatchTask taskId | .enqueue taskId => some taskId.executionId
  | _ => none

namespace Db.Peers

variable {env : Env} {user : UserId} {left right : Db Val} (peers : Db.Peers env user left right)
include peers

theorem twins : Db.Twins env user left right left right :=
  .start peers.leftInv.keyed peers.rightInv.keyed peers.agrees peers.leftDraws peers.rightDraws

theorem bothOwn {executionId : ExecutionId}
    (leftOwned : ∀ execution ∈ left.executions.values, execution.id = executionId →
      execution.ownerId = user)
    (rightOwned : ∀ execution ∈ right.executions.values, execution.id = executionId →
      execution.ownerId = user) : BothOwn user executionId left right :=
  ⟨peers.leftInv.owns leftOwned, peers.rightInv.owns rightOwned⟩

/-- A new id belongs to nobody else. -/
theorem bothOwn_fresh : BothOwn user env.objectId left right := by
  apply peers.bothOwn
  · intro execution membership isId
    exact absurd (Collection.mem_ids.mpr ⟨execution, membership, isId⟩) peers.leftFresh
  · intro execution membership isId
    exact absurd (Collection.mem_ids.mpr ⟨execution, membership, isId⟩) peers.rightFresh

/-- The run of a request that both databases hold for the user. -/
theorem exists_bothOwn {approvalId : ObjectId}
    (leftOwned : ∀ request ∈ left.approvals.values, request.id = approvalId →
      request.ownerId = user)
    (rightOwned : ∀ request ∈ right.approvals.values, request.id = approvalId →
      request.ownerId = user) :
    ∃ executionId, BothOwn user executionId left right ∧
      ∀ request ∈ left.approvals.values, request.id = approvalId →
        request.taskId.executionId = executionId := by
  have home : ∀ {db : Db Val}, db.Inv → ∀ request ∈ db.approvals.values,
      request.ownerId = user → ∀ execution ∈ db.executions.values,
        execution.id = request.taskId.executionId → execution.ownerId = user := by
    intro db inv request requestMem owned execution executionMem isHome
    rcases inv.approval_owner requestMem with ⟨other, otherMem, otherId, sameOwner⟩
    have same : execution = other := inv.eq_of_id executionMem otherMem
      (isHome.trans ((inv.approval_home requestMem).symm.trans otherId.symm))
    rw [same, ← sameOwner, owned]
  have sameRequest : left.approvals.findById approvalId = right.approvals.findById approvalId := by
    apply peers.twins.approvals.findById
    · exact fun request requestMem isId => beq_iff_eq.mpr (leftOwned request requestMem isId)
    · exact fun request requestMem isId => beq_iff_eq.mpr (rightOwned request requestMem isId)
  cases found : left.approvals.findById approvalId with
  | none =>
      refine ⟨env.objectId, peers.bothOwn_fresh, ?_⟩
      intro request requestMem isId
      have absent := Collection.findById_eq_none.mp found
      exact absurd (Collection.mem_ids.mpr ⟨request, requestMem, isId⟩) absent
  | some request =>
      rcases (Collection.findById_eq_some peers.leftInv.keyed.approvals).mp found with
        ⟨leftMem, isId⟩
      rcases (Collection.findById_eq_some peers.rightInv.keyed.approvals).mp
        (sameRequest.symm.trans found) with ⟨rightMem, _⟩
      refine ⟨request.taskId.executionId, ?_, ?_⟩
      · apply peers.bothOwn
        · exact home peers.leftInv request leftMem (leftOwned request leftMem isId)
        · exact home peers.rightInv request rightMem (rightOwned request rightMem isId)
      · intro other otherMem otherId
        have same : other = request := Collection.value_eq_of_id_eq
          peers.leftInv.keyed.approvals otherMem leftMem (otherId.trans isId.symm)
        rw [same]

end Db.Peers

/-- What the caller does after the commit is about an execution of the user. -/
def Reply.Continues (user : UserId) (left right : Db Val) (reply : Reply Val) : Prop :=
  ∃ executionId, BothOwn user executionId left right ∧
    ∀ frame ∈ reply.after, frame.home? = some executionId

/-- The callback does the same on both databases. -/
theorem Op.run_same {env : Env} {user : UserId} {left right : Db Val} {op : Op Val}
    (peers : Db.Peers env user left right) (leftOf : op.OfUser user left)
    (rightOf : op.OfUser user right) :
    Lockstep (fun left' right' => left' = left ∧ Db.Twins env user left right left' right')
      (fun reply left' right' => Db.Twins env user left right left' right' ∧
        reply.Continues user left right) (op.run env) := by
  have twins : ∀ left' right', (left' = left ∧ Db.Twins env user left right left' right') →
      Db.Twins env user left right left' right' := fun _ _ both => both.2
  cases op with
  | startExecution params =>
      have own := peers.bothOwn_fresh
      apply Lockstep.bind ((own.startExecution_same rfl leftOf.1 leftOf.2).weaken twins
        fun _ _ _ holds => holds)
      intro execution
      apply Lockstep.pure
      rintro left' right' ⟨later, isId⟩
      refine ⟨later, env.objectId, own, ?_⟩
      intro frame membership
      cases List.mem_singleton.mp membership
      exact congrArg some isId
  | pauseExecution executionId =>
      have own := peers.bothOwn leftOf rightOf
      apply Lockstep.bind (own.pauseExecution_same.weaken twins fun _ _ _ holds => holds)
      intro paused
      apply Lockstep.pure
      intro left' right' later
      exact ⟨later, executionId, own, fun _ absurdity => absurd absurdity List.not_mem_nil⟩
  | resumeExecution executionId =>
      have own := peers.bothOwn leftOf rightOf
      apply Lockstep.bind (own.resumeExecution_same.weaken twins fun _ _ _ holds => holds)
      intro resumed
      apply Lockstep.pure
      intro left' right' later
      refine ⟨later, executionId, own, ?_⟩
      intro frame membership
      cases resumed with
      | true =>
          cases List.mem_singleton.mp membership
          rfl
      | false => cases membership
  | cancelExecution executionId =>
      have own := peers.bothOwn leftOf rightOf
      apply Lockstep.bind (own.cancelExecution_same.weaken twins fun _ _ _ holds => holds)
      intro cancelled
      apply Lockstep.pure
      intro left' right' later
      exact ⟨later, executionId, own, fun _ absurdity => absurd absurdity List.not_mem_nil⟩
  | completeTask | failTask | suspendForApproval => cases leftOf
  | resolveApproval params =>
      rcases peers.exists_bothOwn leftOf rightOf with ⟨executionId, own, home⟩
      have requests : Lockstep.Owned (fun request => request.ownerId != user) left.approvals
          right.approvals fun request => request.id = params.approvalId :=
        ⟨fun request requestMem isId =>
            not_spared_of_owner (leftOf request requestMem isId),
          fun request requestMem isId =>
            not_spared_of_owner (rightOf request requestMem isId)⟩
      apply Lockstep.bind (own.resolveApproval_same requests home)
      intro waiting
      apply Lockstep.pure
      rintro left' right' ⟨later, isHome⟩
      refine ⟨later, executionId, own, ?_⟩
      intro frame membership
      cases waiting with
      | none => cases membership
      | some taskId =>
          simp only [Reply.after] at membership
          split at membership
          · cases List.mem_singleton.mp membership
            exact congrArg some (isHome taskId rfl)
          · cases membership

/-! ## Steps of two calls -/

section Steps

variable {env : Env} {user : UserId} {left right : Db Val} {executionId : ExecutionId}

omit [Mixed Val] in
theorem Db.Owns.spared {old db : Db Val} (owns : old.Owns user executionId)
    (spares : old.Spares user db) : db.Owns user executionId := by
  have owner : ∀ {ownerId : UserId}, (ownerId != user) = false → ownerId = user :=
    fun notSpared => beq_iff_eq.mp (owner_of_not_spared notSpared)
  constructor
  · intro execution membership isId
    exact owner (Collection.not_spared spares.executions (fun other otherMem otherId =>
      not_spared_of_owner (owns.executions other otherMem otherId)) execution membership isId)
  · intro task membership home
    exact owner (Collection.not_spared spares.tasks (fun other otherMem otherHome =>
      not_spared_of_owner (owns.tasks other otherMem otherHome)) task membership home)
  · intro request membership home
    exact owner (Collection.not_spared spares.approvals (fun other otherMem otherHome =>
      not_spared_of_owner (owns.approvals other otherMem otherHome)) request membership home)

/-- A step that dispatches tasks of an execution of the user. -/
theorem Frame.step_same {frame : Frame Val} (peers : Db.Peers env user left right)
    (own : BothOwn user executionId left right) (home : frame.home? = some executionId) :
    ∃ leftDb rightDb next replies, frame.step env left = .ok ⟨leftDb, next, replies⟩ ∧
      frame.step env right = .ok ⟨rightDb, next, replies⟩ ∧
      Db.Twins env user left right leftDb rightDb ∧
      ∀ later ∈ next, later.home? = some executionId := by
  have twins := peers.twins
  have covers : ∀ execution : WorkflowExecution Val, (execution.ownerId != user) = false →
      execution.concerns user = true :=
    fun _ notSpared => Bool.or_eq_true_iff.mpr (.inl (owner_of_not_spared notSpared))
  cases frame with
  | dispatchReady id =>
      cases home
      have same : left.executions.findById executionId = right.executions.findById executionId := by
        apply twins.executions.findById
        · exact fun execution membership isId =>
            covers execution (own.executions.1 execution membership isId)
        · exact fun execution membership isId =>
            covers execution (own.executions.2 execution membership isId)
      cases found : left.executions.findById executionId with
      | none =>
          refine ⟨left, right, [], [], ?_, ?_, twins, fun _ absurdity => by cases absurdity⟩
          · simp only [Frame.step, found]
          · simp only [Frame.step, ← same, found]
      | some execution =>
          refine ⟨left, right, if execution.status = .running then [.findReady executionId] else [],
            [], ?_, ?_, twins, ?_⟩
          · simp only [Frame.step, found]
          · simp only [Frame.step, ← same, found]
          · intro later membership
            split at membership
            · cases List.mem_singleton.mp membership
              rfl
            · cases membership
  | findReady id =>
      cases home
      have same : (left.tasks.find fun task =>
          decide (task.executionId = executionId) && decide (task.status = .ready)) =
            right.tasks.find fun task =>
              decide (task.executionId = executionId) && decide (task.status = .ready) := by
        apply twins.tasks.find
        · intro task membership matched
          exact owner_of_not_spared (own.tasks.1 task membership
            (of_decide_eq_true (Bool.and_eq_true_iff.mp matched).1))
        · intro task membership matched
          exact owner_of_not_spared (own.tasks.2 task membership
            (of_decide_eq_true (Bool.and_eq_true_iff.mp matched).1))
      refine ⟨left, right, _, [], rfl, ?_, twins, ?_⟩
      · simp only [Frame.step, same]
      · intro later membership
        rcases List.mem_map.mp membership with ⟨task, taskMem, rfl⟩
        rcases Bool.and_eq_true_iff.mp (List.mem_filter.mp taskMem).2 with ⟨isHome, _⟩
        exact congrArg some (of_decide_eq_true isHome)
  | dispatchTask taskId =>
      have isHome : taskId.executionId = executionId := Option.some.inj home
      have moves : SameOnBoth env user left right
          (transitionTask taskId .ready .queued (queueing env.now)) :=
        own.transitionTask_same isHome fun _ => rfl
      rcases moves left right twins with
        ⟨won, leftDb, rightDb, ranLeft, ranRight, later⟩ | ⟨thrown, threw, _⟩
      · refine ⟨leftDb, rightDb, if won then [.enqueue taskId] else [],
          [.dispatchTask taskId won], ?_, ?_, later, ?_⟩
        · simp only [Frame.step, ranLeft]
          rfl
        · simp only [Frame.step, ranRight]
          rfl
        · intro next membership
          split at membership
          · cases List.mem_singleton.mp membership
            exact home
          · cases membership
      · have total : ∃ won db, (transitionTask taskId .ready .queued (queueing env.now)).run left =
            .ok (won, db) := ⟨_, _, rfl⟩
        rcases total with ⟨won, db, ran⟩
        cases ran.symm.trans threw
  | enqueue taskId =>
      exact ⟨left, right, [], [.enqueue taskId env.redisUp], rfl, rfl, twins,
        fun _ absurdity => by cases absurdity⟩
  | _ => cases home

/-- Two calls at the same point, each on its own database. -/
inductive Frame.Paired (user : UserId) (left right : Db Val) :
    List (Frame Val) → List (Frame Val) → Prop where
  | transaction {op : Op Val} :
      op.OfUser user left → op.OfUser user right →
      Paired user left right [.transaction op] [.transaction op]
  | callback {op : Op Val} :
      op.OfUser user left → op.OfUser user right →
      Paired user left right [.callback op left] [.callback op right]
  | dispatching {executionId : ExecutionId} {stack : List (Frame Val)} :
      BothOwn user executionId left right →
      (∀ frame ∈ stack, frame.home? = some executionId) →
      Paired user left right stack stack

omit [Mixed Val] in
theorem Frame.Paired.isEmpty {leftStack rightStack : List (Frame Val)}
    (paired : Frame.Paired user left right leftStack rightStack) :
    leftStack.isEmpty = rightStack.isEmpty := by
  cases paired with
  | transaction | callback | dispatching => rfl

/-- The two databases after a step of each call. -/
structure Db.Together (user : UserId) (left right leftNext rightNext : Db Val) : Prop where
  agrees : leftNext.Agrees user rightNext
  leftSpares : left.Spares user leftNext
  rightSpares : right.Spares user rightNext

omit [Mixed Val] in
theorem Db.Twins.together {leftNext rightNext : Db Val}
    (twins : Db.Twins env user left right leftNext rightNext) :
    Db.Together user left right leftNext rightNext :=
  ⟨twins.agrees, twins.leftSpares, twins.rightSpares⟩

/-- A step of both calls gives the same replies, and they are at the same point again. -/
theorem Sys.step_same {left right : Sys Val} {leftCall rightCall : Nat}
    {leftStack rightStack : List (Frame Val)} (peers : Db.Peers env user left.db right.db)
    (leftFound : left.calls[leftCall]? = some leftStack)
    (rightFound : right.calls[rightCall]? = some rightStack)
    (paired : Frame.Paired user left.db right.db leftStack rightStack) (busy : leftStack ≠ []) :
    ∃ leftDb rightDb leftLater rightLater replies,
      left.step (.advance leftCall env) = some
        { db := leftDb, calls := left.calls.set leftCall leftLater, log := replies ++ left.log } ∧
      right.step (.advance rightCall env) = some
        { db := rightDb, calls := right.calls.set rightCall rightLater
          log := replies ++ right.log } ∧
      Db.Together user left.db right.db leftDb rightDb ∧
      Frame.Paired user leftDb rightDb leftLater rightLater := by
  have unchanged := peers.twins.together
  cases paired with
  | @transaction op leftOf rightOf =>
      refine ⟨left.db, right.db, [.callback op left.db], [.callback op right.db], [], ?_, ?_,
        unchanged, .callback leftOf rightOf⟩
      · simp only [Sys.step, leftFound, Frame.step]
        rfl
      · simp only [Sys.step, rightFound, Frame.step]
        rfl
  | @callback op leftOf rightOf =>
      rcases Op.run_same peers leftOf rightOf left.db right.db ⟨rfl, peers.twins⟩ with
        ⟨reply, leftDb, rightDb, ranLeft, ranRight, later, executionId, own, about⟩ |
        ⟨thrown, threwLeft, threwRight⟩
      · have leftCommits := leftOf.commits peers.leftInv.keyed ranLeft
        have rightCommits := rightOf.commits peers.rightInv.keyed ranRight
        have leftStep : (Frame.callback op left.db).step env left.db =
            .ok ⟨leftDb, reply.after, [reply]⟩ := by
          simp only [Frame.step, ranLeft, bind, Except.bind, leftCommits]
        have rightStep : (Frame.callback op right.db).step env right.db =
            .ok ⟨rightDb, reply.after, [reply]⟩ := by
          simp only [Frame.step, ranRight, bind, Except.bind, rightCommits]
        refine ⟨leftDb, rightDb, reply.after, reply.after, [reply], ?_, ?_, later.together, ?_⟩
        · simp only [Sys.step, leftFound, leftStep, List.append_nil]
        · simp only [Sys.step, rightFound, rightStep, List.append_nil]
        · exact .dispatching ⟨own.left.spared later.leftSpares, own.right.spared later.rightSpares⟩
            about
      · have leftStep : (Frame.callback op left.db).step env left.db = .error thrown := by
          simp only [Frame.step, threwLeft]
          rfl
        have rightStep : (Frame.callback op right.db).step env right.db = .error thrown := by
          simp only [Frame.step, threwRight]
          rfl
        refine ⟨left.db, right.db, [], [], [.threw thrown], ?_, ?_, unchanged, ?_⟩
        · simp only [Sys.step, leftFound, leftStep]
          rfl
        · simp only [Sys.step, rightFound, rightStep]
          rfl
        · exact .dispatching peers.bothOwn_fresh fun _ absurdity => by cases absurdity
  | @dispatching executionId _ own about =>
      cases leftStack with
      | nil => exact absurd rfl busy
      | cons frame rest =>
          rcases Frame.step_same peers own (about frame List.mem_cons_self) with
            ⟨leftDb, rightDb, next, replies, leftStep, rightStep, later, nextAbout⟩
          refine ⟨leftDb, rightDb, next ++ rest, next ++ rest, replies, ?_, ?_, later.together, ?_⟩
          · simp only [Sys.step, leftFound, leftStep]
          · simp only [Sys.step, rightFound, rightStep]
          · apply Frame.Paired.dispatching
              ⟨own.left.spared later.leftSpares, own.right.spared later.rightSpares⟩
            intro other membership
            rcases List.mem_append.mp membership with isNext | isRest
            · exact nextAbout other isNext
            · exact about other (List.mem_cons_of_mem _ isRest)

end Steps

end WorkflowEngine
