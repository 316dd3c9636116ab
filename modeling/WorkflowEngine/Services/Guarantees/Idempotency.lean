import WorkflowEngine.Services.Progress
import Mathlib.Data.List.Perm.Basic
import Mathlib.Logic.Equiv.Basic

/-!
# Idempotent creation of runs

The index on user and key lets one request insert its run; every other request with the
key is compared with that run.  A request is told that it has created a run by the job
whose call has inserted it, and each run has one such job.
-/

namespace WorkflowEngine

open DocStore

variable {Val : Type}

/-! ## Who has created a run -/

/-- The run that the call of the job has inserted. -/
def Job.claim? (job : Job Val) : Option ExecutionId :=
  match job.state with
  | .waiting (.run ..) _ (some (.startExecution _ execution)) => some execution.id
  | _ => none

/-- The run that the answer says was created by the request. -/
def Answered.claim? (answered : Answered Val) : Option ExecutionId :=
  match answered.answer with
  | .ok (.ran execution false) => some execution.id
  | _ => none

theorem Waiting.threw_claims {request : Request Val} (waiting : Waiting Val)
    (thrown : ServiceError) :
    ((waiting.threw thrown).answered request).filterMap Answered.claim? = [] := by
  cases waiting with
  | run user workflowId input key =>
      simp only [Waiting.threw, Waiting.refused]
      split <;> rfl
  | slot | control | resolve => rfl

/-- The claim of a job is handed to its answer. -/
theorem Waiting.resume_claims {waiting : Waiting Val} {request : Request Val} {reply : Reply Val}
    (call : Nat) :
    ((waiting.resume reply).answered request).filterMap Answered.claim? =
      (Job.claim? ⟨request, .waiting waiting call (some reply)⟩).toList := by
  cases waiting with
  | run user workflowId input key =>
      cases reply with
      | threw thrown => exact Waiting.threw_claims (.run user workflowId input key) (.engine thrown)
      | _ => rfl
  | slot tick =>
      cases reply <;> rfl
  | control execution action =>
      cases reply with
      | pauseExecution _ changed | resumeExecution _ changed | cancelExecution _ changed =>
          cases changed <;> rfl
      | _ => rfl
  | resolve approvalId =>
      cases reply <;> rfl

/-- A job goes on without a claim. -/
theorem Next.state_unclaimed {goal : Next Val} {request : Request Val} {call : Nat} :
    Job.claim? ⟨request, goal.state call⟩ = none := by
  cases goal with
  | operation | answer => rfl
  | call op waiting => cases waiting <;> rfl

namespace Platform

variable {platform next : Platform Val}

def claims (platform : Platform Val) : List ExecutionId :=
  platform.jobs.filterMap Job.claim? ++ platform.log.filterMap Answered.claim?

/-- Every run is claimed by one job or answer at most. -/
structure Claims (platform : Platform Val) : Prop where
  nodup : platform.claims.Nodup
  stored : ∀ id ∈ platform.claims, ∃ execution ∈ platform.sys.db.executions.values,
    execution.id = id

/-- What is claimed apart from one job. -/
def otherClaims (platform : Platform Val) (index : Nat) : List ExecutionId :=
  (platform.jobs.eraseIdx index).filterMap Job.claim? ++
    platform.log.filterMap Answered.claim?

/-- What is left of a list whose first element is mapped to nothing or to one thing. -/
theorem filterMap_perm {α β : Type} {list rest : List α} {head : α} {image : α → Option β}
    (same : list.Perm (head :: rest)) :
    (list.filterMap image).Perm ((image head).toList ++ rest.filterMap image) := by
  have mapped := same.filterMap image
  rw [List.filterMap_cons] at mapped
  cases isImage : image head with
  | none => rwa [isImage] at mapped
  | some => rwa [isImage] at mapped

theorem claims_perm {index : Nat} {job : Job Val} (found : platform.jobs[index]? = some job) :
    platform.claims.Perm (job.claim?.toList ++ platform.otherClaims index) := by
  rcases List.getElem?_eq_some_iff.mp found with ⟨inBounds, rfl⟩
  rw [claims, otherClaims, ← List.append_assoc]
  exact (filterMap_perm (List.getElem_cons_eraseIdx_perm inBounds).symm).append_right _

theorem claims_set {index : Nat} {job changed : Job Val} {more : List (Answered Val)}
    (found : platform.jobs[index]? = some job) (jobs : next.jobs = platform.jobs.set index changed)
    (log : next.log = more ++ platform.log) :
    next.claims.Perm (changed.claim?.toList ++ more.filterMap Answered.claim? ++
      platform.otherClaims index) := by
  have inBounds : index < platform.jobs.length := (List.getElem?_eq_some_iff.mp found).1
  have split : (next.jobs.filterMap Job.claim?).Perm
      (changed.claim?.toList ++ (platform.jobs.eraseIdx index).filterMap Job.claim?) := by
    rw [jobs]
    exact filterMap_perm (List.set_perm_cons_eraseIdx inBounds changed)
  rw [claims, otherClaims, log, List.filterMap_append]
  apply (split.append_right _).trans
  rw [List.append_assoc, List.append_assoc]
  apply List.Perm.append_left
  rw [← List.append_assoc, ← List.append_assoc]
  exact List.perm_append_comm.append_right _

/-- The call of the job has stored the run, and its request is not answered yet. -/
def Holds (platform : Platform Val) (index : Nat) (request : Request Val)
    (execution : WorkflowExecution Val) : Prop :=
  ∃ user workflowId input key call params, platform.jobs[index]? =
    some ⟨request, .waiting (.run user workflowId input key) call
      (some (.startExecution params execution))⟩

/-! ## Steps -/

variable [Mixed Val]

/-- What a step does to the jobs and the answers that claim a run. -/
inductive Claiming (platform next : Platform Val) : Action Val → Prop where
  | same {action : Action Val} : next.jobs = platform.jobs → next.log = platform.log →
      Claiming platform next action
  | submitted {request : Request Val} :
      next.jobs = platform.jobs ++ [⟨request, .ready (.first request)⟩] →
      next.log = platform.log → Claiming platform next (.submit request)
  /-- a job goes on or ends, and neither it nor its answer claims a run -/
  | quiet {action : Action Val} {index : Nat} {job changed : Job Val}
      {more : List (Answered Val)} :
      platform.jobs[index]? = some job → next.jobs = platform.jobs.set index changed →
      next.log = more ++ platform.log → changed.claim? = none →
      more.filterMap Answered.claim? = [] → Claiming platform next action
  /-- the call of a job stores a run -/
  | stored {index call : Nat} {env drawn : Env} {request : Request Val} {user : User}
      {workflowId : ObjectId} {input : Val} {key : Option IdempotencyKey}
      {params : StartParams Val} :
      platform.jobs[index]? =
        some ⟨request, .waiting (.run user workflowId input key) call none⟩ →
      next.jobs = platform.jobs.set index ⟨request, .waiting (.run user workflowId input key) call
        (some (.startExecution params (newExecution drawn params)))⟩ →
      next.log = platform.log → Inserted drawn params platform.sys.db next.sys.db →
      Claiming platform next (.advance call env)
  /-- the request of a job is told that it has created the run -/
  | told {action : Action Val} {index : Nat} {request : Request Val}
      {execution : WorkflowExecution Val} :
      platform.Holds index request execution →
      next.jobs = platform.jobs.set index ⟨request, .ended⟩ →
      next.log = ⟨request, .ok (.ran execution false)⟩ :: platform.log →
      Claiming platform next action

variable [ToJson Val] {deployment : Deployment} {versions : Versions Val}

omit [Mixed Val] in
/-- An operation of a job creates no run. -/
theorem Claiming.of_perform {env : Env} {operation : Operation Val}
    {workflows final : Collection (WorkflowDocument Val)} {db : Db Val} {now : Time} {seen : Nat}
    {answer : Except ServiceError (Answer Val)} {request : Request Val}
    (performed : perform deployment env now workflows db seen operation = (final, .answer answer)) :
    Answered.claim? ⟨request, answer⟩ = none := by
  have next : ∀ {current started seen} {rest : List (Due Val)},
      startNext current started seen rest = .answer answer →
        Answered.claim? ⟨request, answer⟩ = none := by
    intro current started seen rest goes
    cases rest with
    | nil =>
        cases goes
        rfl
    | cons => cases goes
  cases operation with
  | first asked =>
      cases asked with
      | createWorkflow | listWorkflows | getWorkflow | clearSchedule =>
          simp only [perform, begin] at performed
          split at performed <;> cases performed <;> rfl
      | setSchedule | updateWorkflow | run | control | getExecution =>
          simp only [perform, begin] at performed
          split at performed <;> cases performed <;> rfl
      | listApprovals =>
          simp only [perform, begin, require] at performed
          split at performed <;> cases performed <;> rfl
      | getApproval =>
          simp only [perform, begin, require] at performed
          split at performed
          · split at performed <;> cases performed <;> rfl
          · cases performed
            rfl
      | resolve =>
          simp only [perform, begin, require] at performed
          split at performed
          · split at performed
            · split at performed
              · cases performed
              · cases performed
                rfl
            · cases performed
              rfl
          · cases performed
            rfl
      | runDue => cases performed
  | replaceSchedule =>
      simp only [perform] at performed
      split at performed <;> cases performed <;> rfl
  | explainConflict =>
      simp only [perform] at performed
      split at performed
      · next explained => exact absurd explained explainConflict_not_ok
      · cases performed
        rfl
  | findExisting =>
      simp only [perform] at performed
      split at performed
      · split at performed <;> cases performed <;> rfl
      · cases performed
        rfl
  | rereadApproval =>
      simp only [perform] at performed
      split at performed <;> split at performed <;> cases performed <;> rfl
  | rereadExecution | findTasks =>
      cases performed
      rfl
  | recordDecision => cases performed
  | findDue | advance =>
      simp only [perform] at performed
      split at performed
      · exact next (congrArg Prod.snd performed)
      · cases performed
        rfl

omit [ToJson Val] in
/-- What a job is told when its call has ended. -/
theorem Claiming.of_resumed {waiting : Waiting Val} {request : Request Val} {reply : Reply Val}
    {index call : Nat} {action : Action Val}
    (found : platform.jobs[index]? = some ⟨request, .waiting waiting call (some reply)⟩)
    (jobs : next.jobs = platform.jobs.set index ⟨request, (waiting.resume reply).state 0⟩)
    (log : next.log = (waiting.resume reply).answered request ++ platform.log) :
    Claiming platform next action := by
  cases claims : Job.claim? ⟨request, .waiting waiting call (some reply)⟩ with
  | none =>
      apply Claiming.quiet found jobs log Next.state_unclaimed
      rw [Waiting.resume_claims call, claims]
      rfl
  | some =>
      cases waiting with
      | run user workflowId input key =>
          cases reply with
          | startExecution params execution =>
              exact .told ⟨user, workflowId, input, key, call, params, found⟩ jobs log
          | _ => cases claims
      | slot | control | resolve => cases claims

theorem Inv.claiming (inv : platform.Inv deployment versions) {action : Action Val}
    (moved : Moved deployment platform action next) : Claiming platform next action := by
  cases moved with
  | tick | invoked | crashed => exact .same rfl rfl
  | submitted => exact .submitted rfl rfl
  | stopped found => exact .quiet found rfl (List.nil_append _).symm rfl rfl
  | @went _ index request state workflows goal found goes =>
      apply Claiming.quiet found rfl rfl Next.state_unclaimed
      cases goes with
      | performed fresh performed =>
          cases goal with
          | operation | call => rfl
          | answer result =>
              have silent : Answered.claim? ⟨request, result⟩ = none :=
                Claiming.of_perform performed
              exact List.filterMap_eq_nil_iff.mpr fun answered membership =>
                (List.mem_singleton.mp membership) ▸ silent
      | failed => rfl
      | threw => exact Waiting.threw_claims _ _
  | @advanced call env sys fresh taken =>
      rcases inv.sys.stepped taken with ⟨label, stepped⟩
      have moved : Moved deployment platform (.advance call env) (platform.advanced call sys) :=
        .advanced fresh taken
      have advanced : Advanced platform call sys label (platform.advanced call sys) :=
        advanced_cases inv.oneWaits stepped.log
      generalize platform.advanced call sys = next at advanced moved
      cases advanced with
      | idle => exact .same rfl rfl
      | @pending index request waiting before found =>
          have inBounds := (List.getElem?_eq_some_iff.mp found).1
          have log : ([] : List (Answered Val)) ++ platform.log = platform.log := List.nil_append _
          cases waiting with
          | run user workflowId input key =>
              cases before with
              | none =>
                  rcases inv.inserts found moved with ⟨state, isState, inserts⟩
                  rw [List.getElem?_set_self inBounds] at isState
                  cases isState
                  generalize known label none = reply at inserts
                  cases inserts with
                  | begins => exact .quiet found rfl log.symm rfl rfl
                  | created _ inserted => exact .stored found rfl rfl inserted
              | some reply =>
                  rw [inv.replied stepped found] at *
                  refine .same ?_ rfl
                  rw [← (List.getElem?_eq_some_iff.mp found).2]
                  exact List.set_getElem_self inBounds
          | slot | control | resolve => exact .quiet found rfl log.symm rfl rfl
      | @resumed index request waiting before reply found ended isKnown =>
          cases before with
          | some before =>
              cases waiting with
              | run user workflowId input key =>
                  cases (inv.replied stepped found).symm.trans isKnown
                  exact .of_resumed found rfl rfl
              | slot | control | resolve =>
                  exact .quiet found rfl rfl Next.state_unclaimed (Waiting.resume_claims call)
          | none =>
              apply Claiming.quiet found rfl rfl Next.state_unclaimed
              cases waiting with
              | run user workflowId input key =>
                  rcases inv.inserts found moved with ⟨state, isState, inserts⟩
                  rw [List.getElem?_set_self (List.getElem?_eq_some_iff.mp found).1] at isState
                  cases goes : (Waiting.run user workflowId input key).resume reply with
                  | operation => rfl
                  | call => exact absurd goes Waiting.resume_ne_call
                  | answer result =>
                      rw [goes] at isState inserts
                      cases isState
                      cases inserts with
                      | invalid _ log =>
                          cases log
                          rfl
              | slot | control | resolve => exact Waiting.resume_claims call

omit [ToJson Val] in
/-- A job holds a run from the step in which its call stores it. -/
theorem Claiming.holder {action : Action Val} (claiming : Claiming platform next action)
    {index : Nat} {request : Request Val} {execution : WorkflowExecution Val}
    (holds : next.Holds index request execution) : platform.Holds index request execution ∨
      ∃ user workflowId input key call env drawn params,
        action = .advance call env ∧ platform.jobs[index]? =
          some ⟨request, .waiting (.run user workflowId input key) call none⟩ ∧
        execution = newExecution drawn params ∧
        Inserted drawn params platform.sys.db next.sys.db := by
  rcases holds with ⟨user, workflowId, input, key, call, params, present⟩
  -- a job that is not the one that has changed
  have unchanged : ∀ other changed, next.jobs = platform.jobs.set other changed →
      other ≠ index → platform.Holds index request execution := by
    intro other changed jobs different
    rw [jobs, List.getElem?_set_ne different] at present
    exact ⟨user, workflowId, input, key, call, params, present⟩
  cases claiming with
  | same jobs =>
      rw [jobs] at present
      exact .inl ⟨user, workflowId, input, key, call, params, present⟩
  | @submitted submitted jobs =>
      rw [jobs] at present
      rcases List.mem_append.mp (List.mem_of_getElem? present) with old | new
      · left
        refine ⟨user, workflowId, input, key, call, params, ?_⟩
        rcases Nat.lt_or_ge index platform.jobs.length with inBounds | beyond
        · rwa [List.getElem?_append_left inBounds] at present
        · rw [List.getElem?_append_right beyond] at present
          cases List.mem_singleton.mp (List.mem_of_getElem? present)
      · cases List.mem_singleton.mp new
  | @quiet _ other _ changed _ found jobs _ unclaimed =>
      rcases Decidable.em (other = index) with rfl | different
      · rw [jobs, List.getElem?_set_self (List.getElem?_eq_some_iff.mp found).1] at present
        cases present
        cases unclaimed
      · exact .inl (unchanged other changed jobs different)
  | @stored other call env drawn asked user workflowId input key params found jobs _ inserted =>
      rcases Decidable.em (other = index) with rfl | different
      · rw [jobs, List.getElem?_set_self (List.getElem?_eq_some_iff.mp found).1] at present
        cases present
        exact .inr ⟨user, workflowId, input, key, call, env, drawn, params, rfl, found, rfl,
          inserted⟩
      · exact .inl (unchanged other _ jobs different)
  | @told _ other asked told holds jobs =>
      rcases holds with ⟨_, _, _, _, _, _, found⟩
      rcases Decidable.em (other = index) with rfl | different
      · rw [jobs, List.getElem?_set_self (List.getElem?_eq_some_iff.mp found).1] at present
        cases present
      · exact .inl (unchanged other _ jobs different)

omit [ToJson Val] in
/-- Only a run that a step has stored is claimed after it and not before it. -/
theorem Claiming.perm {action : Action Val} (claiming : Claiming platform next action) :
    (∃ given, platform.claims.Perm (given ++ next.claims)) ∨
      ∃ drawn params, next.claims.Perm ((newExecution drawn params).id :: platform.claims) ∧
        Inserted drawn params platform.sys.db next.sys.db := by
  cases claiming with
  | same jobs log =>
      left
      refine ⟨[], ?_⟩
      rw [claims, claims, jobs, log]
      exact .refl _
  | @submitted request jobs log =>
      left
      refine ⟨[], ?_⟩
      have unclaimed : [(⟨request, .ready (.first request)⟩ : Job Val)].filterMap Job.claim? = [] :=
        rfl
      rw [claims, claims, jobs, log, List.filterMap_append, unclaimed, List.append_nil]
      exact .refl _
  | @quiet _ index job changed more found jobs log unclaimed silent =>
      left
      have after := claims_set found jobs log
      rw [unclaimed, silent] at after
      exact ⟨job.claim?.toList, (claims_perm found).trans (after.symm.append_left _)⟩
  | @stored index call env drawn request user workflowId input key params found jobs log inserted =>
      right
      have unchanged : next.log = [] ++ platform.log := log
      exact ⟨drawn, params, (claims_set found jobs unchanged).trans
        ((claims_perm found).symm.cons _), inserted⟩
  | @told _ index request execution holds jobs log =>
      left
      rcases holds with ⟨user, workflowId, input, key, call, params, found⟩
      have grown : next.log = [⟨request, .ok (.ran execution false)⟩] ++ platform.log := log
      exact ⟨[], (claims_perm found).trans (claims_set found jobs grown).symm⟩

namespace Claims

theorem step (claimed : platform.Claims) (inv : platform.Inv deployment versions)
    {action : Action Val} (moved : Moved deployment platform action next) : next.Claims := by
  rcases inv.moved moved with ⟨_, later, _⟩
  have kept : ∀ id ∈ platform.claims, ∃ execution ∈ next.sys.db.executions.values,
      execution.id = id := by
    intro id membership
    rcases claimed.stored id membership with ⟨execution, executionMem, isId⟩
    rcases later.since.runs execution executionMem with ⟨later, laterMem, _, evolves⟩
    exact ⟨later, laterMem, (congrArg ExecutionShape.id evolves.shape).trans isId⟩
  rcases (inv.claiming moved).perm with ⟨given, same⟩ | ⟨drawn, params, grown, inserted⟩
  · constructor
    · exact (same.nodup_iff.mp claimed.nodup).of_append_right
    · exact fun id membership => kept id (same.mem_iff.mpr (List.mem_append_right _ membership))
  · constructor
    · apply grown.nodup_iff.mpr
      refine List.nodup_cons.mpr ⟨?_, claimed.nodup⟩
      intro present
      rcases claimed.stored _ present with ⟨other, otherMem, same⟩
      exact inserted.isNew other otherMem same
    · intro id membership
      rcases List.mem_cons.mp (grown.mem_iff.mp membership) with rfl | isOld
      · refine ⟨newExecution drawn params, ?_, rfl⟩
        rw [inserted.executions]
        exact Collection.val_mem_values (List.mem_append_right _ (List.mem_singleton_self ⟨0, _⟩))
      · exact kept id isOld

theorem of_reachableBy {library : Library Val} {start : Time}
    {allowed : Platform Val → Action Val → Prop}
    (reachable : (platformSystem Val deployment library start).ReachableBy allowed platform) :
    platform.Claims := by
  induction reachable with
  | init => exact ⟨.nil, fun _ absurdity => absurd absurdity List.not_mem_nil⟩
  | step before _ taken ih =>
      rcases Platform.inv_of_reachableBy before with ⟨_, inv⟩
      exact ih.step inv (moved_of_step taken)

end Claims

/-- The second state can follow the first one, after any number of steps. -/
def Leads (deployment : Deployment) : Platform Val → Platform Val → Prop :=
  Relation.ReflTransGen fun platform next => ∃ action, step deployment platform action = some next

/-- A run that is stored and that nobody claims. -/
structure Unclaimed (platform : Platform Val) (id : ExecutionId) : Prop where
  stored : ∃ execution ∈ platform.sys.db.executions.values, execution.id = id
  absent : id ∉ platform.claims

/-- Nobody ever claims it again. -/
theorem Unclaimed.later {id : ExecutionId} (unclaimed : platform.Unclaimed id)
    (inv : platform.Inv deployment versions) {later : Platform Val}
    (leads : Leads deployment platform later) : later.Unclaimed id := by
  have kept : later.Unclaimed id ∧ ∃ versions, later.Inv deployment versions := by
    induction leads with
    | refl => exact ⟨unclaimed, versions, inv⟩
    | @tail before next _ taken ih =>
        rcases ih with ⟨unclaimed, versions, inv⟩
        rcases taken with ⟨action, taken⟩
        rcases inv.step taken with ⟨versions', evolved, isInv⟩
        refine ⟨?_, versions', isInv⟩
        rcases unclaimed.stored with ⟨execution, executionMem, isId⟩
        constructor
        · rcases evolved.since.runs execution executionMem with ⟨later, laterMem, _, evolves⟩
          exact ⟨later, laterMem, (congrArg ExecutionShape.id evolves.shape).trans isId⟩
        · intro present
          rcases (inv.claiming (moved_of_step taken)).perm with
            ⟨given, same⟩ | ⟨drawn, params, grown, inserted⟩
          · exact unclaimed.absent (same.mem_iff.mpr (List.mem_append_right _ present))
          · rcases List.mem_cons.mp (grown.mem_iff.mp present) with rfl | isOld
            · exact inserted.isNew execution executionMem isId
            · exact unclaimed.absent isOld
  exact kept.1

/-- The process of the job that has stored a run stops. -/
theorem Claims.stopped (claimed : platform.Claims) {index : Nat} {request : Request Val}
    {execution : WorkflowExecution Val} (holds : platform.Holds index request execution)
    (moved : Moved deployment platform (.stop index) next) : next.Unclaimed execution.id := by
  rcases holds with ⟨user, workflowId, input, key, call, params, found⟩
  have before : platform.claims.Perm (execution.id :: platform.otherClaims index) :=
    claims_perm found
  have apart := (List.nodup_cons.mp (before.nodup_iff.mp claimed.nodup)).1
  have ended : ∃ job : Job Val, next.jobs = platform.jobs.set index ⟨job.request, .ended⟩ ∧
      next.log = [] ++ platform.log ∧ next.sys = platform.sys := by
    cases moved with
    | went _ goes => cases goes
    | @stopped _ job => exact ⟨job, rfl, rfl, rfl⟩
  rcases ended with ⟨job, jobs, log, sys⟩
  have after : next.claims.Perm ([] ++ [] ++ platform.otherClaims index) :=
    claims_set found jobs log
  constructor
  · rw [sys]
    exact claimed.stored _ (before.mem_iff.mpr List.mem_cons_self)
  · exact fun present => apart (after.mem_iff.mp present)

end Platform

/-! ## The guarantee -/

namespace Schedule

end Schedule

end WorkflowEngine
