import WorkflowEngine.Workflow.Processes

/-!
# The history of a task

The log of a system tells what happened to each task: its claims, the reports and
decisions that were applied to it, its dispatch.  The facts about histories are
proved once for all schedules, from the way a single step moves a task.
-/

namespace WorkflowEngine

open DocStore

variable {Val : Type}

namespace Reply

/-- The fencing token that a claim of the task returned. -/
def claimOf (taskId : TaskId) : Reply Val → Option Nat
  | .claimTask task => if task.id = taskId then some task.leaseToken else none
  | _ => none

/-- The token of a report that was applied to the task. -/
def appliedTo (taskId : TaskId) : Reply Val → Option Nat
  | .completeTask reported token _ true => if reported = taskId then some token else none
  | .failTask reported token _ (some _) => if reported = taskId then some token else none
  | .suspendForApproval reported token true => if reported = taskId then some token else none
  | _ => none

/-- The reply reports that the task became COMPLETED, FAILED or DEAD_LETTER. -/
def settles (taskId : TaskId) : Reply Val → Bool
  | .completeTask reported _ _ true => decide (reported = taskId)
  | .failTask reported _ _ (some (.forGood _)) => decide (reported = taskId)
  | .resolveApproval _ _ (some resolved) => decide (resolved = taskId)
  | _ => false

/-- The reply reports the transition of the task from READY to QUEUED. -/
def dispatches (taskId : TaskId) : Reply Val → Bool
  | .dispatchTask dispatched true => decide (dispatched = taskId)
  | _ => false

/-- The outcome that a reply reports is the one the task has. -/
def Explains [Mixed Val] (task : Task Val) : Reply Val → Prop
  | .completeTask _ _ output true => task.status = .completed ∧ task.output = output
  | .failTask _ _ error (some (.forGood outcome)) =>
      task.status = outcome.status ∧ task.error = some (failureMessage error)
  | .resolveApproval params decidedAt (some _) =>
      if params.decision = .approved then
        task.status = .completed ∧
          task.output = Mixed.approval params.decidedBy params.comment decidedAt
      else
        task.status = .failed ∧ task.error = some (rejectionText params.decision params.comment)
  | _ => False

/-! ### Only replies about a task tell of it -/

variable {taskId : TaskId} {reply : Reply Val}

theorem target_of_about (named : reply.about = some taskId) :
    reply.target = some taskId.executionId := by
  unfold target
  split
  · cases named
  · cases named
  · cases named
  · cases named
  · rw [named]
    rfl

theorem claimOf_about {token : Nat} (claimed : reply.claimOf taskId = some token) :
    reply.about = some taskId := by
  unfold claimOf at claimed
  split at claimed
  · split at claimed
    · next same => exact congrArg some same
    · cases claimed
  · cases claimed

theorem appliedTo_about {token : Nat} (applied : reply.appliedTo taskId = some token) :
    reply.about = some taskId := by
  unfold appliedTo at applied
  split at applied <;> first | cases applied | skip
  all_goals
    split at applied
    · next same => exact congrArg some same
    · cases applied

theorem settles_about (settled : reply.settles taskId = true) : reply.about = some taskId := by
  unfold settles at settled
  split at settled <;> first | cases settled | exact congrArg some (of_decide_eq_true settled)

theorem dispatches_about (dispatched : reply.dispatches taskId = true) :
    reply.about = some taskId := by
  unfold dispatches at dispatched
  split at dispatched
  · exact congrArg some (of_decide_eq_true dispatched)
  · cases dispatched

end Reply

/-! ## Histories in the log, newest first -/

section Log

variable (taskId : TaskId) (log : List (Reply Val))

/-- The tokens that the claims of a task returned. -/
def claimsOf : List Nat := log.filterMap (Reply.claimOf taskId)

/-- The tokens of the reports that were applied to a task. -/
def appliedOf : List Nat := log.filterMap (Reply.appliedTo taskId)

/-- The replies that report an outcome of a task. -/
def outcomesOf : List (Reply Val) := log.filter (Reply.settles taskId)

def dispatchesOf : List (Reply Val) := log.filter (Reply.dispatches taskId)

end Log

section Append

variable {taskId : TaskId} {log : List (Reply Val)}

theorem nothing_of_other {α : Type} {found : Reply Val → Option α} {label : Option (Reply Val)}
    (about : ∀ reply value, found reply = some value → reply.about = some taskId)
    (other : label.bind Reply.about ≠ some taskId) :
    (label.toList ++ log).filterMap found = log.filterMap found := by
  cases label with
  | none => rfl
  | some reply =>
      cases isFound : found reply with
      | none => exact List.filterMap_cons_none isFound
      | some value => exact absurd (about reply value isFound) other

theorem filter_of_other {found : Reply Val → Bool} {label : Option (Reply Val)}
    (about : ∀ reply, found reply = true → reply.about = some taskId)
    (other : label.bind Reply.about ≠ some taskId) :
    (label.toList ++ log).filter found = log.filter found := by
  cases label with
  | none => rfl
  | some reply =>
      by_cases isFound : found reply = true
      · exact absurd (about reply isFound) other
      · exact List.filter_cons_of_neg isFound

end Append

/-! ## What a task's history says about it -/

variable [Mixed Val]

/-- The log tells the history of the task. -/
structure Task.Recorded (log : List (Reply Val)) (task : Task Val) : Prop where
  /-- every claim took the next token -/
  claims : claimsOf task.id log = (List.range' 1 task.leaseToken).reverse
  claimed : task.status.stage = 3 → 0 < task.leaseToken
  applied : (appliedOf task.id log).Nodup
  old : ∀ token ∈ appliedOf task.id log, token ≤ task.leaseToken
  /-- the report of the current attempt is still outstanding -/
  outstanding : task.status = .running → task.leaseToken ∉ appliedOf task.id log
  outcome : if task.status.stage = 5 ∧ task.status ≠ .cancelled then
    ∃ reply, outcomesOf task.id log = [reply] ∧ reply.Explains task
  else
    outcomesOf task.id log = []
  dispatches : (dispatchesOf task.id log).length ≤ 1
  undispatched : task.status.stage ≤ 1 → dispatchesOf task.id log = []

namespace Task.Recorded

/-- A new task has no history. -/
theorem new {env : Env} {params : StartParams Val} {task : Task Val} {log : List (Reply Val)}
    (membership : task ∈ (Run.start env params).tasks)
    (unknown : ∀ reply ∈ log, reply.about ≠ some task.id) : Task.Recorded log task := by
  have claims : claimsOf task.id log = [] :=
    List.filterMap_eq_nil_iff.mpr fun reply replyMem => by
      cases isFound : reply.claimOf task.id with
      | none => rfl
      | some token => exact absurd (Reply.claimOf_about isFound) (unknown reply replyMem)
  have applied : appliedOf task.id log = [] :=
    List.filterMap_eq_nil_iff.mpr fun reply replyMem => by
      cases isFound : reply.appliedTo task.id with
      | none => rfl
      | some token => exact absurd (Reply.appliedTo_about isFound) (unknown reply replyMem)
  have outcomes : outcomesOf task.id log = [] :=
    List.filter_eq_nil_iff.mpr fun reply replyMem isFound =>
      unknown reply replyMem (Reply.settles_about isFound)
  have dispatches : dispatchesOf task.id log = [] :=
    List.filter_eq_nil_iff.mpr fun reply replyMem isFound =>
      unknown reply replyMem (Reply.dispatches_about isFound)
  have status : task.status.stage ≤ 1 ∧ task.leaseToken = 0 := by
    rcases List.mem_map.mp membership with ⟨definition, _, rfl⟩
    refine ⟨?_, rfl⟩
    simp only [newTask]
    split <;> decide
  have early : task.status ≠ .running := by
    intro running
    have stage := status.1
    rw [running] at stage
    exact absurd stage (by decide)
  refine ⟨by rw [claims, status.2]; rfl, ?_, by rw [applied]; exact .nil, ?_, fun running =>
    absurd running early, ?_, by rw [dispatches]; exact Nat.zero_le _, fun _ => dispatches⟩
  · intro late
    rw [late] at status
    exact absurd status.1 (by decide)
  · rw [applied]
    exact fun _ absurdity => absurd absurdity List.not_mem_nil
  · rw [if_neg]
    · exact outcomes
    · intro settled
      rw [settled.1] at status
      exact absurd status.1 (by decide)

section Moves

variable {label : Option (Reply Val)} {log : List (Reply Val)} {task next : Task Val}

theorem unsettled (recorded : task.Recorded log) (unfinished : task.status.unfinished = true) :
    outcomesOf task.id log = [] := by
  have outcome := recorded.outcome
  rw [if_neg] at outcome
  · exact outcome
  · intro settled
    cases status : task.status <;> rw [status] at unfinished settled <;>
      simp [TaskStatus.unfinished, TaskStatus.stage] at unfinished settled

/-- A step that tells nothing of the task in the log. -/
theorem silent (recorded : task.Recorded log) (other : label.bind Reply.about ≠ some task.id)
    (sameId : next.id = task.id) (leaseToken : next.leaseToken = task.leaseToken)
    (status : TaskStatus) (isStatus : next.status = status)
    (stage : task.status.stage ≤ status.stage)
    (started : status.stage = 3 → task.status.stage = 3)
    (running : status = .running → task.status = .running)
    (outcome : if status.stage = 5 ∧ status ≠ .cancelled then
        ∃ reply, outcomesOf task.id log = [reply] ∧ reply.Explains next
      else outcomesOf task.id log = []) : next.Recorded (label.toList ++ log) := by
  subst isStatus
  have claims : claimsOf next.id (label.toList ++ log) = claimsOf task.id log := by
    rw [sameId]
    exact nothing_of_other (fun _ _ => Reply.claimOf_about) other
  have applied : appliedOf next.id (label.toList ++ log) = appliedOf task.id log := by
    rw [sameId]
    exact nothing_of_other (fun _ _ => Reply.appliedTo_about) other
  have outcomes : outcomesOf next.id (label.toList ++ log) = outcomesOf task.id log := by
    rw [sameId]
    exact filter_of_other (fun _ => Reply.settles_about) other
  have dispatches : dispatchesOf next.id (label.toList ++ log) = dispatchesOf task.id log := by
    rw [sameId]
    exact filter_of_other (fun _ => Reply.dispatches_about) other
  refine ⟨?_, ?_, ?_, ?_, ?_, ?_, ?_, ?_⟩
  · rw [claims, leaseToken]
    exact recorded.claims
  · rw [leaseToken]
    exact fun late => recorded.claimed (started late)
  · rw [applied]
    exact recorded.applied
  · rw [applied, leaseToken]
    exact recorded.old
  · rw [applied, leaseToken]
    exact fun isRunning => recorded.outstanding (running isRunning)
  · rw [outcomes]
    exact outcome
  · rw [dispatches]
    exact recorded.dispatches
  · rw [dispatches]
    exact fun early => recorded.undispatched (Nat.le_trans stage early)

/-- A report of the current attempt that is applied. -/
theorem reported (recorded : task.Recorded log) {reply : Reply Val}
    (running : task.status = .running) (sameId : next.id = task.id)
    (leaseToken : next.leaseToken = task.leaseToken)
    (status : TaskStatus) (isStatus : next.status = status)
    (stage : 3 ≤ status.stage) (left : status ≠ .running)
    (unclaimed : reply.claimOf task.id = none)
    (applied : reply.appliedTo task.id = some task.leaseToken)
    (undispatched : reply.dispatches task.id = false)
    (outcome : if status.stage = 5 ∧ status ≠ .cancelled then
        reply.settles task.id = true ∧ reply.Explains next
      else reply.settles task.id = false) : next.Recorded (reply :: log) := by
  subst isStatus
  have started : task.status.stage = 3 := by rw [running]; rfl
  have claims : claimsOf next.id (reply :: log) = claimsOf task.id log := by
    rw [sameId]
    exact List.filterMap_cons_none unclaimed
  have reports : appliedOf next.id (reply :: log) = task.leaseToken :: appliedOf task.id log := by
    rw [sameId]
    exact List.filterMap_cons_some applied
  have dispatches : dispatchesOf next.id (reply :: log) = dispatchesOf task.id log := by
    rw [sameId]
    exact List.filter_cons_of_neg (by rw [undispatched]; exact Bool.false_ne_true)
  have before : outcomesOf task.id log = [] := recorded.unsettled (by rw [running]; rfl)
  refine ⟨?_, ?_, ?_, ?_, fun isRunning => absurd isRunning left, ?_, ?_, ?_⟩
  · rw [claims, leaseToken]
    exact recorded.claims
  · rw [leaseToken]
    exact fun _ => recorded.claimed started
  · rw [reports]
    exact List.nodup_cons.mpr ⟨recorded.outstanding running, recorded.applied⟩
  · rw [reports, leaseToken]
    intro token membership
    rcases List.mem_cons.mp membership with rfl | old
    · exact Nat.le_refl _
    · exact recorded.old token old
  · rw [outcomesOf, sameId]
    split at outcome
    · next settled =>
      rw [if_pos settled]
      exact ⟨reply, by rw [List.filter_cons_of_pos outcome.1]; exact congrArg _ before, outcome.2⟩
    · next unsettled =>
      rw [if_neg unsettled, List.filter_cons_of_neg (by rw [outcome]; exact Bool.false_ne_true)]
      exact before
  · rw [dispatches]
    exact recorded.dispatches
  · exact fun early => absurd (Nat.le_trans stage early) (by decide)

/-- A decision on the waiting task. -/
theorem decided (recorded : task.Recorded log) {params : ResolveParams} {now : Time}
    (waiting : task.status = .waitingForApproval) (sameId : next.id = task.id)
    (leaseToken : next.leaseToken = task.leaseToken)
    (finished : next.status.stage = 5 ∧ next.status ≠ .cancelled)
    (explains : Reply.Explains next (.resolveApproval params now (some task.id))) :
    next.Recorded (.resolveApproval params now (some task.id) :: log) := by
  have settled : Reply.settles task.id (.resolveApproval params now (some task.id) : Reply Val) =
      true := decide_eq_true rfl
  have before : outcomesOf task.id log = [] := recorded.unsettled (by rw [waiting]; rfl)
  refine ⟨?_, ?_, ?_, ?_, ?_, ?_, ?_, ?_⟩
  · rw [leaseToken, sameId]
    exact recorded.claims
  · rw [finished.1]
    intro absurdity
    cases absurdity
  · rw [sameId]
    exact recorded.applied
  · rw [leaseToken, sameId]
    exact recorded.old
  · intro running
    rw [running] at finished
    cases finished.1
  · rw [if_pos finished, sameId]
    exact ⟨_, by rw [outcomesOf, List.filter_cons_of_pos settled]; exact congrArg _ before, explains⟩
  · rw [sameId]
    exact recorded.dispatches
  · rw [finished.1]
    exact fun early => absurd early (by decide)

/-- What a step does to a task, the log tells. -/
theorem moves (moves : Task.Moves label task next) (recorded : task.Recorded log) :
    next.Recorded (label.toList ++ log) := by
  cases moves with
  | rest other =>
      exact recorded.silent other rfl rfl task.status rfl (Nat.le_refl _) (fun same => same)
        (fun same => same) recorded.outcome
  | promoted other pending =>
      refine recorded.silent other rfl rfl .ready rfl (by rw [pending]; exact Nat.zero_le _) ?_ ?_ ?_
      · exact fun absurdity => absurd absurdity (by decide)
      · exact fun absurdity => absurd absurdity (by decide)
      · rw [if_neg (by decide)]
        exact recorded.unsettled (by rw [pending]; rfl)
  | cancelled other unstarted =>
      have unfinished : task.status.unfinished = true := by
        cases status : task.status <;> rw [status] at unstarted <;> first | rfl | cases unstarted
      refine recorded.silent other rfl rfl .cancelled rfl (stage_le_of_finished rfl) ?_ ?_ ?_
      · exact fun absurdity => absurd absurdity (by decide)
      · exact fun absurdity => absurd absurdity (by decide)
      · rw [if_neg (by decide)]
        exact recorded.unsettled unfinished
  | aborted unfinished =>
      refine recorded.silent nofun rfl rfl .cancelled rfl (stage_le_of_finished rfl) ?_ ?_ ?_
      · exact fun absurdity => absurd absurdity (by decide)
      · exact fun absurdity => absurd absurdity (by decide)
      · rw [if_neg (by decide)]
        exact recorded.unsettled unfinished
  | @renewed _ leaseMs now running =>
      exact ⟨recorded.claims, recorded.claimed, recorded.applied, recorded.old,
        recorded.outstanding, recorded.outcome, recorded.dispatches, recorded.undispatched⟩
  | @dispatched _ now ready =>
      have undispatched := recorded.undispatched (by rw [ready]; exact Nat.le_refl _)
      have found : Reply.dispatches task.id (.dispatchTask task.id true : Reply Val) = true :=
        decide_eq_true rfl
      have dispatches : dispatchesOf task.id (.dispatchTask task.id true :: log) =
          [.dispatchTask task.id true] := by
        rw [dispatchesOf, List.filter_cons_of_pos found]
        exact congrArg _ undispatched
      have status : (moved .queued (queueing now) task).status = .queued := rfl
      refine ⟨recorded.claims, ?_, recorded.applied, recorded.old, ?_, ?_, ?_, ?_⟩
      · rw [status]
        exact fun absurdity => absurd absurdity (by decide)
      · rw [status]
        exact fun absurdity => absurd absurdity (by decide)
      · rw [status, if_neg (by decide)]
        exact recorded.unsettled (by rw [ready]; rfl)
      · exact Nat.le_of_eq (congrArg List.length dispatches)
      · rw [status]
        exact fun absurdity => absurd absurdity (by decide)
  | @claimed _ workerId leaseMs now free =>
      have unfinished : task.status.unfinished = true := by
        cases status : task.status <;> rw [claimable, status] at free <;> first | rfl | cases free
      have claims : claimsOf task.id
          (.claimTask ((claim workerId leaseMs now).set task) :: log) =
            (task.leaseToken + 1) :: claimsOf task.id log :=
        List.filterMap_cons_some (if_pos rfl)
      have fresh : task.leaseToken + 1 ∉ appliedOf task.id log :=
        fun membership => absurd (recorded.old _ membership) (Nat.not_succ_le_self _)
      have status : ((claim workerId leaseMs now).set task).status = .running := rfl
      refine ⟨?_, fun _ => Nat.succ_pos _, recorded.applied, ?_, fun _ => fresh, ?_,
        recorded.dispatches, ?_⟩
      · have next : (List.range' 1 (task.leaseToken + 1)).reverse =
            (task.leaseToken + 1) :: (List.range' 1 task.leaseToken).reverse := by
          rw [List.range'_concat, List.reverse_append, Nat.one_mul, Nat.add_comm]
          rfl
        exact (claims.trans (congrArg _ recorded.claims)).trans next.symm
      · exact fun token membership => Nat.le_succ_of_le (recorded.old token membership)
      · rw [status, if_neg (by decide)]
        exact recorded.unsettled unfinished
      · rw [status]
        exact fun absurdity => absurd absurdity (by decide)
  | completed running =>
      refine recorded.reported running rfl rfl .completed rfl (by decide) (by decide) rfl (if_pos rfl) rfl ?_
      rw [if_pos (by decide)]
      exact ⟨decide_eq_true rfl, rfl, rfl⟩
  | retried running _ _ =>
      refine recorded.reported running rfl rfl .retrying rfl (by decide) (by decide) rfl (if_pos rfl) rfl ?_
      rw [if_neg (by decide)]
      rfl
  | @failed _ error now running =>
      refine recorded.reported running rfl rfl
        (failureOutcome task (isRetryable error)).status rfl ?_ ?_ rfl (if_pos rfl) rfl ?_
      · cases failureOutcome task (isRetryable error) <;> decide
      · cases failureOutcome task (isRetryable error) <;> decide
      · rw [if_pos (by cases failureOutcome task (isRetryable error) <;> decide)]
        exact ⟨decide_eq_true rfl, rfl, rfl⟩
  | suspended running =>
      refine recorded.reported running rfl rfl .waitingForApproval rfl (by decide) (by decide) rfl (if_pos rfl) rfl ?_
      rw [if_neg (by decide)]
      rfl
  | approved waiting decision =>
      refine recorded.decided waiting rfl rfl ⟨rfl, TaskStatus.noConfusion⟩ ?_
      rw [Reply.Explains, if_pos decision]
      exact ⟨rfl, rfl⟩
  | rejected waiting decision =>
      refine recorded.decided waiting rfl rfl ⟨rfl, TaskStatus.noConfusion⟩ ?_
      rw [Reply.Explains, if_neg decision]
      exact ⟨rfl, rfl⟩

end Moves

end Task.Recorded

/-! ## Induction over schedules -/

namespace Sys

/-- Replies report only changes of executions that exist. -/
def Logged (sys : Sys Val) : Prop :=
  ∀ reply ∈ sys.log, ∀ executionId, reply.target = some executionId →
    executionId ∈ sys.db.executions.ids

theorem Stepped.logged {sys next : Sys Val} {action : Action Val} {label : Option (Reply Val)}
    (stepped : sys.Stepped action next label) (logged : sys.Logged) : next.Logged := by
  intro reply membership executionId named
  rw [stepped.log] at membership
  rcases List.mem_append.mp membership with new | old
  · apply stepped.advances.target
    rw [Option.mem_toList.mp new]
    exact named
  · exact stepped.advances.since.executions.ids_subset _ (logged reply old executionId named)

section History

variable {allowed : Sys Val → Action Val → Prop}

/-- A relation between the log and the runs that holds of a new run and is kept by
every step of the run holds of every run in every reachable state.  Steps of other
runs must not matter to it. -/
theorem history (holds : List (Reply Val) → Run Val → Prop)
    (start : ∀ {log : List (Reply Val)} {env : Env} {params : StartParams Val},
      (validateDag (params.workflow.tasks.map TaskDefinition.toDagTask)).valid = true →
      (∀ reply ∈ log, reply.target ≠ some env.objectId) →
      holds (.startExecution params (newExecution env params) :: log) (Run.start env params))
    (other : ∀ {label : Option (Reply Val)} {log : List (Reply Val)} {run : Run Val},
      run.Inv → label.bind Reply.target ≠ some run.execution.id → holds log run →
      holds (label.toList ++ log) run)
    (step : ∀ {sys next : Sys Val} {action : Action Val} {label : Option (Reply Val)}
        {execution : WorkflowExecution Val} {run : Run Val},
      sys.Stepped action next label → allowed sys action →
      execution ∈ sys.db.executions.values →
      Run.Step (fun key => sys.missed action ⟨execution.id, key⟩) label (sys.db.runOf execution)
        run →
      holds sys.log (sys.db.runOf execution) → holds next.log run)
    {sys : Sys Val} (reachable : (engineSystem Val).ReachableBy allowed sys) :
    ∀ execution ∈ sys.db.executions.values, holds sys.log (sys.db.runOf execution) := by
  have all : sys.Inv ∧ sys.Logged ∧
      ∀ execution ∈ sys.db.executions.values, holds sys.log (sys.db.runOf execution) := by
    induction reachable with
    | init =>
        exact ⟨inv_init, fun _ membership => absurd membership List.not_mem_nil,
          fun _ membership => absurd membership List.not_mem_nil⟩
    | @step sys next action _ permitted taken ih =>
        rcases ih with ⟨inv, logged, held⟩
        rcases inv.stepped taken with ⟨label, stepped⟩
        refine ⟨stepped.later, stepped.logged logged, ?_⟩
        intro execution membership
        have advanced := stepped.advances.runs execution membership
        generalize next.db.runOf execution = run at advanced ⊢
        cases advanced with
        | same member unnamed =>
            rw [stepped.log]
            exact other (inv.db.runInv member) unnamed (held _ member)
        | step member ran => exact step stepped permitted member ran (held _ member)
        | start named accepted fresh =>
            rw [stepped.log, named]
            refine start accepted ?_
            intro reply replyMem isTarget
            exact fresh (logged reply replyMem _ isTarget)
  exact all.2.2

/-- The log tells the history of every task. -/
theorem recorded {sys : Sys Val} (reachable : (engineSystem Val).ReachableBy allowed sys)
    {task : Task Val} (membership : task ∈ sys.db.tasks.values) : task.Recorded sys.log := by
  have held := history (fun log run => ∀ task ∈ run.tasks, task.Recorded log) ?_ ?_ ?_ reachable
  · rcases (inv_of_reachableBy reachable).db.exists_run membership with
      ⟨execution, executionMem, _, inRun⟩
    exact held execution executionMem task inRun
  · intro log env params _ unknown task isTask
    apply Task.Recorded.new isTask
    intro reply replyMem named
    rcases List.mem_map.mp isTask with ⟨definition, _, rfl⟩
    rcases List.mem_cons.mp replyMem with rfl | old
    · cases named
    · exact unknown reply old (Reply.target_of_about named)
  · intro label log run inv unnamed held task isTask
    apply (held task isTask).moves
    refine @Task.Moves.rest _ _ _ task task.remainingDeps ?_
    intro named
    apply unnamed
    cases label with
    | none => cases named
    | some reply =>
        rw [Option.bind_some, Reply.target_of_about named]
        exact congrArg some (inv.graph.task_home task isTask)
  · intro sys next action label execution run stepped _ member ran held task isTask
    have inv := stepped.inv.db.runInv member
    rcases ran.moves inv.graph.tasks_nodup with ⟨image, tasks, moves⟩
    rw [tasks] at isTask
    rcases List.mem_map.mp isTask with ⟨source, sourceMem, rfl⟩
    rw [stepped.log]
    exact (held source sourceMem).moves (moves source sourceMem)

end History

end Sys

end WorkflowEngine
