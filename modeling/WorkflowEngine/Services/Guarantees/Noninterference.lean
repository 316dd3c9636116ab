import WorkflowEngine.Services.Goals

/-!
# Tenants do not interfere

A request of a user who is not an admin, served on two platforms that show the user the
same.  Both answer the same, show the user the same afterwards, and have not changed a
document of another owner.
-/

namespace WorkflowEngine

open DocStore

variable {Val : Type}

/-! ## What other owners keep -/

section Spared

variable {user : User} {old db : Db Val} (spares : old.Spares user.id db)
include spares

theorem Db.HoldsRun.spared {executionId : ExecutionId} (holds : old.HoldsRun user.id executionId) :
    db.HoldsRun user.id executionId := by
  intro execution membership isId
  have notSpared : ∀ other ∈ old.executions.values, other.id = executionId →
      (other.ownerId != user.id) = false :=
    fun other otherMem otherId => not_spared_of_owner (holds other otherMem otherId)
  exact beq_iff_eq.mp (owner_of_not_spared
    (Collection.not_spared spares.executions notSpared execution membership isId))

theorem Db.HoldsApproval.spared {approvalId : ObjectId}
    (holds : old.HoldsApproval user.id approvalId) : db.HoldsApproval user.id approvalId := by
  intro request membership isId
  have notSpared : ∀ other ∈ old.approvals.values, other.id = approvalId →
      (other.ownerId != user.id) = false :=
    fun other otherMem otherId => not_spared_of_owner (holds other otherMem otherId)
  exact beq_iff_eq.mp (owner_of_not_spared
    (Collection.not_spared spares.approvals notSpared request membership isId))

theorem Waiting.OfUser.spared {waiting : Waiting Val} (ofUser : waiting.OfUser user old) :
    waiting.OfUser user db := by
  cases waiting with
  | run => exact ofUser
  | control => exact Db.HoldsRun.spared spares ofUser
  | resolve => exact Db.HoldsApproval.spared spares ofUser
  | slot => cases ofUser

end Spared

/-- A request of the user goes on when its call has ended. -/
theorem Waiting.OfUser.resume {user : User} {db : Db Val} {waiting : Waiting Val}
    (ofUser : waiting.OfUser user db) (reply : Reply Val) :
    (waiting.resume reply).OfUser user db := by
  have threw : ∀ thrown, (waiting.threw thrown).OfUser user db := by
    intro thrown
    cases waiting with
    | run other workflowId input key =>
        simp only [Waiting.threw, Waiting.refused]
        split
        · exact ofUser
        · trivial
    | control | resolve => trivial
    | slot => cases ofUser
  have controlled : ∀ execution action changed, db.HoldsRun user.id execution.id →
      (Waiting.controlled execution action changed : Next Val).OfUser user db := by
    intro execution action changed holds
    cases changed with
    | true => exact holds
    | false => trivial
  cases waiting with
  | run other workflowId input key =>
      cases reply with
      | startExecution => trivial
      | threw thrown => exact threw _
      | _ => exact threw (.engine .typeError)
  | control execution action =>
      cases reply with
      | pauseExecution | resumeExecution | cancelExecution => exact controlled _ _ _ ofUser
      | threw thrown => exact threw _
      | _ => exact threw (.engine .typeError)
  | resolve approvalId =>
      cases reply with
      | resolveApproval => exact ofUser
      | threw thrown => exact threw _
      | _ => exact threw (.engine .typeError)
  | slot => cases ofUser

/-- What a step of its call adds to the answers of a waiting request. -/
def Waiting.answers (waiting : Waiting Val) (request : Request Val) (ended : Bool) :
    Option (Reply Val) → List (Answered Val)
  | some reply => if ended then (waiting.resume reply).answered request else []
  | none => []

/-- What a step of its call makes of a waiting request. -/
def Waiting.resumed (waiting : Waiting Val) (call : Nat) (ended : Bool) :
    Option (Reply Val) → JobState Val
  | some reply =>
      if ended then (waiting.resume reply).state 0 else .waiting waiting call (some reply)
  | none => .waiting waiting call none

namespace Platform

variable [Mixed Val]

/-- What a step draws is new to the platform. -/
structure DrawsNew (env : Env) (platform : Platform Val) : Prop where
  workflows : env.objectId ∉ platform.workflows.ids
  executions : env.objectId ∉ platform.sys.db.executions.ids
  events : platform.sys.db.Draws env

/-- Two jobs at the same point, each on its own platform. -/
inductive Paired (user : User) (left right : Sys Val) : JobState Val → JobState Val → Prop where
  | ready {operation : Operation Val} :
      operation.OfUser user left.db → operation.OfUser user right.db →
      Paired user left right (.ready operation) (.ready operation)
  | waiting {waiting : Waiting Val} {leftCall rightCall : Nat} {reply : Option (Reply Val)}
      {leftStack rightStack : List (Frame Val)} :
      waiting.OfUser user left.db → waiting.OfUser user right.db →
      left.calls[leftCall]? = some leftStack → right.calls[rightCall]? = some rightStack →
      Frame.Paired user.id left.db right.db leftStack rightStack →
      Paired user left right (.waiting waiting leftCall reply) (.waiting waiting rightCall reply)
  | ended : Paired user left right .ended .ended

variable [ToJson Val]

/-- The request is served by steps of its own: its operations, and the steps of its call of
the engine.  One environment is drawn in each step. -/
inductive Serves (deployment : Deployment) (index : Nat) :
    List Env → Platform Val → Platform Val → Prop where
  | refl {platform : Platform Val} : Serves deployment index [] platform platform
  | perform {env : Env} {envs : List Env} {platform next final : Platform Val} :
      platform.DrawsNew env → step deployment platform (.perform index env) = some next →
      Serves deployment index envs next final →
      Serves deployment index (env :: envs) platform final
  | advance {env : Env} {envs : List Env} {platform next final : Platform Val} {job : Job Val}
      {call : Nat} :
      platform.DrawsNew env → platform.jobs[index]? = some job → job.call? = some call →
      step deployment platform (.advance call env) = some next →
      Serves deployment index envs next final →
      Serves deployment index (env :: envs) platform final

/-- Platforms that have served the same request of a user so far. -/
structure Mirrors (deployment : Deployment) (user : User) (request : Request Val)
    (leftIndex rightIndex : Nat) (leftOld rightOld left right : Platform Val) : Prop where
  leftInv : ∃ versions, left.Inv deployment versions
  rightInv : ∃ versions, right.Inv deployment versions
  now : left.now = right.now
  workflows : Definitions.Alike user.id leftOld.workflows rightOld.workflows left.workflows
    right.workflows
  db : Db.Together user.id leftOld.sys.db rightOld.sys.db left.sys.db right.sys.db
  jobs : ∃ leftState rightState, left.jobs[leftIndex]? = some ⟨request, leftState⟩ ∧
    right.jobs[rightIndex]? = some ⟨request, rightState⟩ ∧
    Paired user left.sys right.sys leftState rightState
  log : ∃ answers, left.log = answers ++ leftOld.log ∧ right.log = answers ++ rightOld.log

omit [Mixed Val] [ToJson Val] in
theorem advanced_state {platform : Platform Val} {call : Nat} {sys : Sys Val}
    {label before : Option (Reply Val)} {index : Nat} {request : Request Val}
    {waiting : Waiting Val} {stack : List (Frame Val)}
    (log : sys.log = label.toList ++ platform.sys.log)
    (found : platform.jobs[index]? = some ⟨request, .waiting waiting call before⟩)
    (isStack : sys.calls[call]? = some stack) :
    (platform.advanced call sys).jobs[index]? =
      some ⟨request, waiting.resumed call stack.isEmpty (known label before)⟩ := by
  rw [advanced_job log found, isStack, Option.any_some]
  cases known label before with
  | none => cases stack <;> rfl
  | some reply => cases stack <;> rfl

omit [Mixed Val] [ToJson Val] in
theorem advanced_answers {platform : Platform Val} (oneWaits : OneWaits platform.jobs) {call : Nat}
    {sys : Sys Val} {label before : Option (Reply Val)} {index : Nat} {request : Request Val}
    {waiting : Waiting Val} {stack : List (Frame Val)}
    (log : sys.log = label.toList ++ platform.sys.log)
    (found : platform.jobs[index]? = some ⟨request, .waiting waiting call before⟩)
    (isStack : sys.calls[call]? = some stack) :
    (platform.advanced call sys).log =
      waiting.answers request stack.isEmpty (known label before) ++ platform.log := by
  have advanced : Advanced platform call sys label (platform.advanced call sys) :=
    advanced_cases oneWaits log
  cases stack with
  | nil =>
      cases isKnown : known label before with
      | some reply => exact advanced_log oneWaits log found isStack isKnown
      | none =>
          generalize platform.advanced call sys = next at advanced
          cases advanced with
          | idle | pending => rfl
          | @resumed other _ _ _ _ isJob _ isReply =>
              cases oneWaits other index _ _ call isJob found rfl rfl
              cases isJob.symm.trans found
              cases isReply.symm.trans isKnown
  | cons frame rest =>
      have nothing : waiting.answers request (frame :: rest).isEmpty (known label before) = [] := by
        cases known label before <;> rfl
      rw [nothing]
      generalize platform.advanced call sys = next at advanced
      cases advanced with
      | idle | pending => rfl
      | resumed _ ended => cases isStack.symm.trans ended

namespace Mirrors

variable {deployment : Deployment} {user : User} {request : Request Val}
  {leftIndex rightIndex : Nat} {leftOld rightOld left right leftNext rightNext : Platform Val}
  {env : Env}
  (mirrors : Mirrors deployment user request leftIndex rightIndex leftOld rightOld left right)
include mirrors

theorem alike : Definitions.Alike user.id left.workflows right.workflows left.workflows
    right.workflows :=
  ⟨mirrors.workflows.leftNodup, mirrors.workflows.rightNodup, mirrors.workflows.agree, rfl, rfl⟩

theorem peers (leftNew : left.DrawsNew env) (rightNew : right.DrawsNew env) :
    Db.Peers env user.id left.sys.db right.sys.db := by
  rcases mirrors.leftInv with ⟨_, leftInv⟩
  rcases mirrors.rightInv with ⟨_, rightInv⟩
  exact ⟨leftInv.sys.db, rightInv.sys.db, mirrors.db.agrees, leftNew.events, rightNew.events,
    leftNew.executions, rightNew.executions⟩

/-- Both requests perform their next operation. -/
theorem perform (tenant : user.role ≠ .admin) (leftNew : left.DrawsNew env)
    (rightNew : right.DrawsNew env)
    (leftTaken : Platform.step deployment left (.perform leftIndex env) = some leftNext)
    (rightTaken : Platform.step deployment right (.perform rightIndex env) = some rightNext) :
    Mirrors deployment user request leftIndex rightIndex leftOld rightOld leftNext rightNext := by
  have peers := mirrors.peers leftNew rightNew
  have views : Views env user left.workflows right.workflows left.sys.db right.sys.db :=
    ⟨tenant, mirrors.alike, peers, leftNew.workflows, rightNew.workflows⟩
  rcases mirrors.leftInv with ⟨leftVersions, leftInv⟩
  rcases mirrors.rightInv with ⟨rightVersions, rightInv⟩
  rcases mirrors.jobs with ⟨leftState, rightState, leftJob, rightJob, paired⟩
  rcases mirrors.log with ⟨answers, leftLog, rightLog⟩
  rcases leftInv.step leftTaken with ⟨leftVersions', _, leftInv'⟩
  rcases rightInv.step rightTaken with ⟨rightVersions', _, rightInv'⟩
  have leftBounds := (List.getElem?_eq_some_iff.mp leftJob).1
  have rightBounds := (List.getElem?_eq_some_iff.mp rightJob).1
  cases moved_of_step leftTaken with
  | @went _ _ _ _ leftWorkflows leftGoal leftFound leftGoes =>
  cases moved_of_step rightTaken with
  | @went _ _ _ _ rightWorkflows rightGoal rightFound rightGoes =>
  cases leftGoes with
  | @performed _ operation _ _ _ leftPerformed =>
  cases rightGoes with
  | performed _ rightPerformed =>
  cases leftJob.symm.trans leftFound
  cases rightJob.symm.trans rightFound
  cases paired with
  | ready leftOf rightOf =>
  rcases sameGoal views leftOf rightOf left.log.length right.log.length with
    ⟨leftLater, rightLater, goal, leftSame, rightSame, later, leftGoalOf, rightGoalOf⟩
  cases leftPerformed.symm.trans leftSame
  rw [← mirrors.now] at rightPerformed
  cases rightPerformed.symm.trans rightSame
  constructor
  · exact ⟨leftVersions', leftInv'⟩
  · exact ⟨rightVersions', rightInv'⟩
  · exact mirrors.now
  · exact ⟨later.leftNodup, later.rightNodup, later.agree,
      later.leftSpares.trans mirrors.workflows.leftSpares,
      later.rightSpares.trans mirrors.workflows.rightSpares⟩
  · simp only [Next.calling_db]
    exact mirrors.db
  · refine ⟨leftGoal.state left.sys.calls.length, leftGoal.state right.sys.calls.length,
      List.getElem?_set_self leftBounds, List.getElem?_set_self rightBounds, ?_⟩
    cases leftGoal with
    | operation first => exact .ready leftGoalOf rightGoalOf
    | call op waiting =>
        exact .waiting leftGoalOf.2 rightGoalOf.2 List.getElem?_concat_length
          List.getElem?_concat_length (.transaction leftGoalOf.1 rightGoalOf.1)
    | answer => exact .ended
  · refine ⟨leftGoal.answered request ++ answers, ?_, ?_⟩
    · rw [List.append_assoc, ← leftLog]
    · rw [List.append_assoc, ← rightLog]

/-- Both calls perform their next step. -/
theorem advance (leftNew : left.DrawsNew env) (rightNew : right.DrawsNew env)
    {leftJob rightJob : Job Val} {leftCall rightCall : Nat}
    (leftFound : left.jobs[leftIndex]? = some leftJob) (leftWaits : leftJob.call? = some leftCall)
    (rightFound : right.jobs[rightIndex]? = some rightJob)
    (rightWaits : rightJob.call? = some rightCall)
    (leftTaken : Platform.step deployment left (.advance leftCall env) = some leftNext)
    (rightTaken : Platform.step deployment right (.advance rightCall env) = some rightNext) :
    Mirrors deployment user request leftIndex rightIndex leftOld rightOld leftNext rightNext := by
  have peers := mirrors.peers leftNew rightNew
  rcases mirrors.leftInv with ⟨leftVersions, leftInv⟩
  rcases mirrors.rightInv with ⟨rightVersions, rightInv⟩
  rcases mirrors.jobs with ⟨leftState, rightState, isLeft, isRight, paired⟩
  rcases mirrors.log with ⟨answers, leftLog, rightLog⟩
  rcases leftInv.step leftTaken with ⟨leftVersions', _, leftInv'⟩
  rcases rightInv.step rightTaken with ⟨rightVersions', _, rightInv'⟩
  cases moved_of_step leftTaken with
  | went _ goes => cases goes
  | @advanced _ _ leftSys _ leftRan =>
  cases moved_of_step rightTaken with
  | went _ goes => cases goes
  | @advanced _ _ rightSys _ rightRan =>
  cases isLeft.symm.trans leftFound
  cases isRight.symm.trans rightFound
  cases paired with
  | ready | ended => cases leftWaits
  | @waiting waiting _ _ reply leftStack rightStack leftOf rightOf isLeftStack isRightStack frames =>
  cases leftWaits
  cases rightWaits
  have busy : leftStack ≠ [] := by
    rintro rfl
    simp only [Sys.step, isLeftStack] at leftRan
    cases leftRan
  rcases Sys.step_same peers isLeftStack isRightStack frames busy with
    ⟨leftDb, rightDb, leftLater, rightLater, replies, leftStep, rightStep, together, later⟩
  cases leftRan.symm.trans leftStep
  cases rightRan.symm.trans rightStep
  rcases leftInv.sys.stepped leftStep with ⟨leftLabel, leftStepped⟩
  rcases rightInv.sys.stepped rightStep with ⟨rightLabel, rightStepped⟩
  have sameLabel : leftLabel = rightLabel := by
    have same : leftLabel.toList = rightLabel.toList :=
      (label_eq leftStepped.log).trans (label_eq rightStepped.log).symm
    cases leftLabel with
    | none => exact (Option.toList_eq_nil_iff.mp same.symm).symm
    | some given => exact (Option.toList_eq_singleton_iff.mp same.symm).symm
  subst sameLabel
  have leftSet : (left.sys.calls.set leftCall leftLater)[leftCall]? = some leftLater :=
    List.getElem?_set_self (List.getElem?_eq_some_iff.mp isLeftStack).1
  have rightSet : (right.sys.calls.set rightCall rightLater)[rightCall]? = some rightLater :=
    List.getElem?_set_self (List.getElem?_eq_some_iff.mp isRightStack).1
  have leftLogged := advanced_answers leftInv.oneWaits leftStepped.log isLeft leftSet
  have rightLogged := advanced_answers rightInv.oneWaits rightStepped.log isRight rightSet
  have sameEmpty := later.isEmpty
  constructor
  · exact ⟨leftVersions', leftInv'⟩
  · exact ⟨rightVersions', rightInv'⟩
  · exact mirrors.now
  · exact mirrors.workflows
  · exact ⟨together.agrees, mirrors.db.leftSpares.trans together.leftSpares,
      mirrors.db.rightSpares.trans together.rightSpares⟩
  · refine ⟨_, _, advanced_state leftStepped.log isLeft leftSet,
      advanced_state rightStepped.log isRight rightSet, ?_⟩
    rw [← sameEmpty]
    have leftWaiting := leftOf.spared together.leftSpares
    have rightWaiting := rightOf.spared together.rightSpares
    cases known leftLabel reply with
    | none => exact .waiting leftWaiting rightWaiting leftSet rightSet later
    | some given =>
        cases leftLater.isEmpty with
        | false => exact .waiting leftWaiting rightWaiting leftSet rightSet later
        | true =>
            have leftGoal := leftWaiting.resume given
            have rightGoal := rightWaiting.resume given
            show Paired user _ _ ((waiting.resume given).state 0) ((waiting.resume given).state 0)
            cases goes : waiting.resume given with
            | operation first =>
                rw [goes] at leftGoal rightGoal
                exact .ready leftGoal rightGoal
            | answer => exact .ended
            | call => exact absurd goes Waiting.resume_ne_call
  · refine ⟨waiting.answers request leftLater.isEmpty (known leftLabel reply) ++ answers, ?_, ?_⟩
    · rw [List.append_assoc, ← leftLog, leftLogged]
    · rw [List.append_assoc, ← rightLog, rightLogged, sameEmpty]

/-- Both requests are served with the same environments. -/
theorem serves (tenant : user.role ≠ .admin) {envs : List Env} {leftFinal rightFinal : Platform Val}
    (leftServes : Serves deployment leftIndex envs left leftFinal)
    (rightServes : Serves deployment rightIndex envs right rightFinal) :
    Mirrors deployment user request leftIndex rightIndex leftOld rightOld leftFinal rightFinal := by
  induction leftServes generalizing right with
  | refl =>
      cases rightServes
      exact mirrors
  | perform leftNew leftTaken _ ih =>
      cases rightServes with
      | perform rightNew rightTaken rest =>
          exact ih (mirrors.perform tenant leftNew rightNew leftTaken rightTaken) rest
      | advance _ rightFound rightWaits =>
          -- the jobs are at the same point
          rcases mirrors.jobs with ⟨leftState, rightState, isLeft, isRight, paired⟩
          cases isRight.symm.trans rightFound
          cases moved_of_step leftTaken with
          | went leftFound goes =>
              cases goes
              cases isLeft.symm.trans leftFound
              cases paired
              cases rightWaits
  | advance leftNew leftFound leftWaits leftTaken _ ih =>
      cases rightServes with
      | advance rightNew rightFound rightWaits rightTaken rest =>
          exact ih (mirrors.advance leftNew rightNew leftFound leftWaits rightFound rightWaits
            leftTaken rightTaken) rest
      | perform _ rightTaken =>
          rcases mirrors.jobs with ⟨leftState, rightState, isLeft, isRight, paired⟩
          cases isLeft.symm.trans leftFound
          cases moved_of_step rightTaken with
          | went rightFound goes =>
              cases goes
              cases isRight.symm.trans rightFound
              cases paired
              cases leftWaits

end Mirrors

/-! ## Noninterference -/

/-- The platforms show the same to a user. -/
structure Agrees (user : UserId) (left right : Platform Val) : Prop where
  workflows : left.workflows.find (fun workflow => workflow.ownerId == user) =
    right.workflows.find fun workflow => workflow.ownerId == user
  db : left.sys.db.Agrees user right.sys.db

/-- The documents of other owners are as they were. -/
structure Spares (user : UserId) (old platform : Platform Val) : Prop where
  workflows : platform.workflows.find (fun workflow => workflow.ownerId != user) =
    old.workflows.find fun workflow => workflow.ownerId != user
  db : old.sys.db.Spares user platform.sys.db

/-- The job of a request that is submitted now. -/
def submitted (platform : Platform Val) (request : Request Val) : Platform Val :=
  { platform with jobs := platform.jobs ++ [⟨request, .ready (.first request)⟩] }

/-- A request has been submitted to both platforms and served so far. -/
structure Undisturbed (user : UserId) (request : Request Val)
    (leftOld rightOld left right : Platform Val) : Prop where
  answers : ∃ answers, left.log = answers ++ leftOld.log ∧ right.log = answers ++ rightOld.log
  ended : left.jobs[leftOld.jobs.length]? = some ⟨request, .ended⟩ ↔
    right.jobs[rightOld.jobs.length]? = some ⟨request, .ended⟩
  agrees : left.Agrees user right
  leftSpares : leftOld.Spares user left
  rightSpares : rightOld.Spares user right

theorem Mirrors.undisturbed {deployment : Deployment} {user : User} {request : Request Val}
    {leftOld rightOld left right : Platform Val}
    (mirrors : Mirrors deployment user request leftOld.jobs.length rightOld.jobs.length leftOld
      rightOld left right) :
    Undisturbed user.id request leftOld rightOld left right := by
  rcases mirrors.jobs with ⟨leftState, rightState, isLeft, isRight, paired⟩
  constructor
  · exact mirrors.log
  · rw [isLeft, isRight]
    cases paired with
    | ready | waiting => exact ⟨nofun, nofun⟩
    | ended => exact Iff.rfl
  · exact ⟨mirrors.workflows.agree, mirrors.db.agrees⟩
  · exact ⟨mirrors.workflows.leftSpares, mirrors.db.leftSpares⟩
  · exact ⟨mirrors.workflows.rightSpares, mirrors.db.rightSpares⟩

end Platform

/-- A request of a user who is not an admin is answered in the same way on platforms that show
the user the same, and it changes nothing of other owners. -/
theorem tenant_noninterference [Mixed Val] [ToJson Val] {deployment : Deployment}
    {leftLibrary rightLibrary : Library Val} {leftStart rightStart : Time}
    {leftOld rightOld left right : Platform Val} {user : User} {request : Request Val}
    {envs : List Env}
    (leftReachable : (platformSystem Val deployment leftLibrary leftStart).Reachable leftOld)
    (rightReachable : (platformSystem Val deployment rightLibrary rightStart).Reachable rightOld)
    (tenant : user.role ≠ .admin) (isUser : request.user? = some user)
    (now : leftOld.now = rightOld.now) (agrees : leftOld.Agrees user.id rightOld)
    (leftServes : Platform.Serves deployment leftOld.jobs.length envs (leftOld.submitted request)
      left)
    (rightServes : Platform.Serves deployment rightOld.jobs.length envs
      (rightOld.submitted request) right) :
    Platform.Undisturbed user.id request leftOld rightOld left right := by
  have submit : ∀ {library : Library Val} {start : Time} {platform : Platform Val},
      (platformSystem Val deployment library start).Reachable platform →
        ∃ versions, (platform.submitted request).Inv deployment versions := by
    intro library start platform reachable
    have taken : (platformSystem Val deployment library start).step platform (.submit request) =
        some (platform.submitted request) := rfl
    exact Platform.inv_of_reachableBy (.step reachable trivial taken)
  have leftInv := submit leftReachable
  have rightInv := submit rightReachable
  have first : Platform.Mirrors deployment user request leftOld.jobs.length rightOld.jobs.length
      leftOld rightOld (leftOld.submitted request) (rightOld.submitted request) := by
    constructor
    · exact leftInv
    · exact rightInv
    · exact now
    · rcases leftInv with ⟨_, leftInv⟩
      rcases rightInv with ⟨_, rightInv⟩
      exact ⟨leftInv.nodup, rightInv.nodup, agrees.workflows, rfl, rfl⟩
    · exact ⟨agrees.db, .refl _, .refl _⟩
    · exact ⟨_, _, List.getElem?_concat_length, List.getElem?_concat_length,
        .ready isUser isUser⟩
    · exact ⟨[], rfl, rfl⟩
  exact (first.serves tenant leftServes rightServes).undisturbed

deriving instance DecidableEq for TaskDefinition, Workflow, WorkflowSchedule, WorkflowDocument

namespace Schedule

/-- The request of a job is served, one step at each of the given times. -/
def serve (deployment : Deployment) (index : Nat) : List Nat → Platform Plain →
    Option (Platform Plain)
  | [], platform => some platform
  | now :: rest, platform =>
      if platform.workflows.ids.contains now || platform.sys.db.executions.ids.contains now ||
          platform.sys.db.outbox.ids.any fun id => decide (1000 * now ≤ id) then
        none
      else
        match platform.jobs[index]? with
        | some ⟨_, .ready _⟩ =>
            (Platform.step deployment platform (.perform index (env now))).bind
              (serve deployment index rest)
        | some ⟨_, .waiting _ call _⟩ =>
            (Platform.step deployment platform (.advance call (env now))).bind
              (serve deployment index rest)
        | _ => none

theorem serves_of_serve {deployment : Deployment} {index : Nat} {times : List Nat}
    {platform final : Platform Plain} (served : serve deployment index times platform = some final) :
    Platform.Serves deployment index (times.map env) platform final := by
  induction times generalizing platform with
  | nil =>
      cases served
      exact .refl
  | cons now rest ih =>
      simp only [serve] at served
      split at served
      · cases served
      · next isNew =>
        simp only [Bool.or_eq_true, List.any_eq_true, decide_eq_true_eq, not_or,
          List.contains_iff_mem] at isNew
        have new : platform.DrawsNew (env now) := by
          refine ⟨isNew.1.1, isNew.1.2, fun left right same => ?_, fun drawn _ present => ?_⟩
          · exact Nat.add_left_cancel same
          · exact isNew.2 ⟨_, present, Nat.le_add_right _ _⟩
        split at served
        · rcases Option.bind_eq_some_iff.mp served with ⟨next, taken, later⟩
          exact .perform new taken (ih later)
        · next found =>
          rcases Option.bind_eq_some_iff.mp served with ⟨next, taken, later⟩
          exact .advance new found rfl taken (ih later)
        · cases served

/-- Where it ends. -/
def served (request : Request Plain) (times : List Nat) (platform : Platform Plain)
    (runs : (serve deployment platform.jobs.length times (platform.submitted request)).isSome =
      true) : Platform Plain :=
  (serve deployment platform.jobs.length times (platform.submitted request)).get runs

theorem served_serves (request : Request Plain) (times : List Nat) (platform : Platform Plain)
    (runs : (serve deployment platform.jobs.length times (platform.submitted request)).isSome =
      true) :
    Platform.Serves deployment platform.jobs.length (times.map env) (platform.submitted request)
      (served request times platform runs) :=
  serves_of_serve (Option.some_get runs).symm

/-- Another tenant. -/
def neighbour : User := ⟨2, .operator⟩

/-- A user creates a workflow. -/
def lonely : List (Platform.Action Plain) :=
  [.submit (.createWorkflow user (body 1)), perform 0 10]

/-- Before that, another user has created a workflow and runs it. -/
def shared : List (Platform.Action Plain) :=
  [.submit (.createWorkflow neighbour (body 2)), perform 0 5,
    .submit (.createWorkflow user (body 1)), perform 1 10,
    .submit (.run neighbour 5 (.number 2) none), perform 2 20] ++
    advances 0 [21, 22, 23, 24, 25, 26]

def afterLonely (runs : ((platformSystem Plain deployment noLibrary 1800000).run
    lonely).isSome = true) : Platform Plain :=
  platformAfter deployment noLibrary lonely runs

def afterShared (runs : ((platformSystem Plain deployment noLibrary 1800000).run
    shared).isSome = true) : Platform Plain :=
  platformAfter deployment noLibrary shared runs

/-- The user runs the workflow. -/
def runOnce : Request Plain := .run user 10 (.number 3) none

end Schedule

theorem tenant_noninterference_runOnce :
    ∃ leftRuns rightRuns leftServed rightServed,
      (Schedule.served Schedule.runOnce [30, 31, 32, 33, 34, 35, 36]
        (Schedule.afterLonely leftRuns) leftServed).sys.db.executions.ids = [32] ∧
      (Schedule.served Schedule.runOnce [30, 31, 32, 33, 34, 35, 36]
        (Schedule.afterShared rightRuns) rightServed).sys.db.executions.ids = [22, 32] ∧
      Platform.Undisturbed 1 Schedule.runOnce (Schedule.afterLonely leftRuns)
        (Schedule.afterShared rightRuns)
        (Schedule.served Schedule.runOnce [30, 31, 32, 33, 34, 35, 36]
          (Schedule.afterLonely leftRuns) leftServed)
        (Schedule.served Schedule.runOnce [30, 31, 32, 33, 34, 35, 36]
          (Schedule.afterShared rightRuns) rightServed) :=
  ⟨by decide +kernel, by decide +kernel, by decide +kernel, by decide +kernel,
    by decide +kernel, by decide +kernel,
    tenant_noninterference
      (Schedule.platformAfter_reachable _ _ _ (by decide +kernel))
      (Schedule.platformAfter_reachable _ _ _ (by decide +kernel))
      (by decide) (rfl : Schedule.runOnce.user? = some Schedule.user) (by decide +kernel)
      ⟨by decide +kernel, by decide +kernel, by decide +kernel, by decide +kernel⟩
      (Schedule.served_serves _ _ _ (by decide +kernel))
      (Schedule.served_serves _ _ _ (by decide +kernel))⟩

end WorkflowEngine
