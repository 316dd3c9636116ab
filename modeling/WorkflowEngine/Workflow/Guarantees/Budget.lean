import Mathlib.Data.List.Perm.Subperm
import WorkflowEngine.Workflow.History

/-!
# The attempt budget

Every claim consumes an attempt, and a call of `startTask` that is past the budget
check holds a ticket: the token of its claim.  Tickets are never shared, so at most
`maxAttempts` calls return a task.
-/

namespace WorkflowEngine

open DocStore

variable {Val : Type}

/-! ## Tickets -/

/-- The token of the claim that a call of `startTask` will return. -/
def Frame.ticketOf (taskId : TaskId) : Frame Val → Option Nat
  | .checkBudget task => if task.id = taskId then some task.leaseToken else none
  | .gatherInput task => if task.id = taskId then some task.leaseToken else none
  | .gatherParents task _ => if task.id = taskId then some task.leaseToken else none
  | _ => none

/-- The token of the claim that a call of `startTask` returned. -/
def Reply.startedOf (taskId : TaskId) : Reply Val → Option Nat
  | .startTask _ (some started) =>
      if started.task.id = taskId then some started.task.leaseToken else none
  | _ => none

section Tickets

variable (taskId : TaskId)

def ticketsOf (frames : List (Frame Val)) : List Nat :=
  frames.filterMap (Frame.ticketOf taskId)

/-- The tokens of the calls of `startTask` that returned the task. -/
def startedOf (log : List (Reply Val)) : List Nat :=
  log.filterMap (Reply.startedOf taskId)

end Tickets

variable {taskId : TaskId}

theorem ticketsOf_append (front back : List (Frame Val)) :
    ticketsOf taskId (front ++ back) = ticketsOf taskId front ++ ticketsOf taskId back :=
  List.filterMap_append

theorem startedOf_append (front back : List (Reply Val)) :
    startedOf taskId (front ++ back) = startedOf taskId front ++ startedOf taskId back :=
  List.filterMap_append

theorem ticketsOf_map {α : Type} {found : List α} {frameOf : α → Frame Val}
    (none : ∀ item, (frameOf item).ticketOf taskId = none) :
    ticketsOf taskId (found.map frameOf) = [] := by
  apply List.filterMap_eq_nil_iff.mpr
  intro frame membership
  rcases List.mem_map.mp membership with ⟨item, _, rfl⟩
  exact none item

variable [Mixed Val]

omit [Mixed Val] in
theorem ticketsOf_after (reply : Reply Val) : ticketsOf taskId reply.after = [] := by
  unfold Reply.after
  split <;> first | rfl | skip
  split <;> rfl

/-- A step of a frame passes its ticket on or uses it up; only a claim makes one. -/
theorem Frame.step_tickets (taskId : TaskId) {env : Env} {db : Db Val} {frame : Frame Val}
    {outcome : Outcome Val} (ran : frame.step env db = .ok outcome) :
    List.Sublist (ticketsOf taskId outcome.next ++ startedOf taskId outcome.replies)
      (ticketsOf taskId [frame] ++ claimsOf taskId outcome.replies) := by
  cases frame with
  | transaction op =>
      cases ran
      exact List.nil_sublist _
  | callback op snapshot =>
      rcases Session.ok_of_bind ran with ⟨⟨reply, view⟩, returned, rest⟩
      have notStarted : startedOf taskId [reply] = [] := by
        cases op <;> rcases Session.bind_eq_ok.mp returned with ⟨_, _, _, replied⟩ <;>
          rcases Session.pure_eq_ok.mp replied with ⟨rfl, _⟩ <;> rfl
      simp only at rest
      split at rest
      · cases rest
        rw [ticketsOf_after, notStarted]
        exact List.nil_sublist _
      · cases rest
        exact List.nil_sublist _
  | renewLease | abandonAttempts | recordAttempt | announce =>
      rcases Session.ok_of_bind ran with ⟨_, _, rest⟩
      cases rest
      exact List.nil_sublist _
  | dispatchTask dispatched =>
      rcases Session.ok_of_bind ran with ⟨⟨won, _⟩, _, rest⟩
      cases rest
      cases won <;> exact List.nil_sublist _
  | dispatchReady executionId =>
      simp only [step] at ran
      split at ran
      · next execution _ =>
        cases ran
        by_cases running : execution.status = .running
        · rw [if_pos running]
          exact List.nil_sublist _
        · rw [if_neg running]
          exact List.nil_sublist _
      · cases ran
        exact List.nil_sublist _
  | startTask claimedId workerId =>
      rcases Session.ok_of_bind ran with ⟨⟨claimed, final⟩, _, rest⟩
      cases claimed with
      | none =>
          cases rest
          exact List.nil_sublist _
      | some task =>
          cases rest
          by_cases same : task.id = taskId <;>
            simp [ticketsOf, ticketOf, startedOf, Reply.startedOf, claimsOf, Reply.claimOf, same,
              List.filterMap_cons]
  | checkBudget task =>
      simp only [step] at ran
      split at ran
      · cases ran
        exact List.nil_sublist _
      · cases ran
        exact List.Sublist.refl _
  | gatherInput task =>
      cases ran
      exact List.Sublist.refl _
  | gatherParents task input =>
      cases ran
      rw [ticketsOf, List.filterMap_nil, List.nil_append]
      exact List.sublist_append_left _ _
  | redispatch stuck statusOf =>
      cases stuck with
      | nil =>
          cases ran
          exact List.nil_sublist _
      | cons first rest =>
          simp only [step] at ran
          split at ran
          · cases ran
            exact List.nil_sublist _
          · split at ran <;> cases ran <;> exact List.nil_sublist _
  | findReady | sweepQueued | sweepRunning | sweepRetrying | sweepApprovals =>
      cases ran
      rw [ticketsOf_map fun _ => rfl]
      exact List.nil_sublist _
  | enqueue | enqueueDelayed | refuse | reconcile | sweepReady | expire =>
      cases ran
      exact List.nil_sublist _

namespace Sys

/-- How many calls hold or returned the ticket of one claim. -/
def holders (sys : Sys Val) (taskId : TaskId) (token : Nat) : Nat :=
  (ticketsOf taskId sys.calls.flatten).count token + (startedOf taskId sys.log).count token

/-- No more calls hold the ticket of a claim than there are such claims. -/
def Ticketed (sys : Sys Val) : Prop :=
  ∀ taskId token, sys.holders taskId token ≤ (claimsOf taskId sys.log).count token

omit [Mixed Val] in
theorem count_ticketsOf_perm {left right : List (Frame Val)} (same : left.Perm right)
    (token : Nat) : (ticketsOf taskId left).count token = (ticketsOf taskId right).count token :=
  (same.filterMap _).count_eq token

theorem Took.ticketed {sys next : Sys Val} {action : Action Val} (took : sys.Took action next)
    (before : sys.Ticketed) : next.Ticketed := by
  intro taskId token
  have held := before taskId token
  unfold holders at held ⊢
  cases took with
  | invoke isCall =>
      rename_i frame
      have none : frame.ticketOf taskId = none := by
        cases frame <;> first | rfl | cases isCall
      simp only [List.flatten_append, List.flatten_cons, List.flatten_nil, List.append_nil]
      rw [ticketsOf_append, show ticketsOf taskId [frame] = [] from List.filterMap_cons_none none,
        List.append_nil]
      exact held
  | @crash call =>
      refine Nat.le_trans (Nat.add_le_add_right ?_ _) held
      cases found : sys.calls[call]? with
      | none =>
          rw [List.set_eq_of_length_le (List.getElem?_eq_none_iff.mp found)]
      | some stack =>
          rcases Counting.flatten_set found with ⟨others, old, new⟩
          rw [count_ticketsOf_perm old, count_ticketsOf_perm (new []), List.nil_append,
            ticketsOf_append, List.count_append]
          exact Nat.le_add_left _ _
  | @ran call env frame rest outcome found ran =>
      rcases Counting.flatten_set found with ⟨others, old, new⟩
      have step := (frame.step_tickets taskId ran).count_le token
      rw [count_ticketsOf_perm old] at held
      simp only
      rw [count_ticketsOf_perm (new _), startedOf_append, claimsOf, List.filterMap_append]
      rw [show frame :: rest ++ others = [frame] ++ rest ++ others from rfl] at held
      simp only [ticketsOf_append, List.count_append, claimsOf] at held step ⊢
      omega
  | @threw call env frame rest thrown found threw =>
      rcases Counting.flatten_set found with ⟨others, old, new⟩
      rw [count_ticketsOf_perm old] at held
      simp only
      rw [count_ticketsOf_perm (new _)]
      have unwound : (ticketsOf taskId (unwind rest)).count token ≤
          (ticketsOf taskId rest).count token :=
        ((List.dropWhile_sublist _).filterMap _).count_le token
      rw [show frame :: rest ++ others = [frame] ++ rest ++ others from rfl] at held
      have log : startedOf taskId (.threw thrown :: sys.log) = startedOf taskId sys.log := rfl
      have claims : claimsOf taskId (.threw thrown :: sys.log) = claimsOf taskId sys.log := rfl
      rw [log, claims]
      simp only [ticketsOf_append, List.count_append] at held ⊢
      omega

theorem ticketed_of_reachableBy {allowed : Sys Val → Action Val → Prop} {sys : Sys Val}
    (reachable : (engineSystem Val).ReachableBy allowed sys) : sys.Ticketed := by
  refine reachable.invariant (fun _ _ => Nat.le_refl _) ?_
  intro state action next before _ taken
  exact (took_of_step taken).ticketed before

end Sys

/-! ## The guarantee -/

/-- The attempts of a task and what the log tells of them. -/
structure Task.WithinBudget (log : List (Reply Val)) (task : Task Val) : Prop where
  started : (startedOf task.id log).length ≤ task.maxAttempts
  attempt : task.attempt = task.leaseToken
  claims : (claimsOf task.id log).length = task.leaseToken
  retrying : task.status = .retrying → task.attempt < task.maxAttempts
  deadLetter : task.status = .deadLetter → task.maxAttempts ≤ task.attempt

/-- Every call of `startTask` that returned a task had one of its first attempts. -/
theorem Sys.started_token {sys : Sys Val} (inv : sys.Inv) {task : Task Val}
    (membership : task ∈ sys.db.tasks.values) {token : Nat}
    (started : token ∈ startedOf task.id sys.log) : 1 ≤ token ∧ token ≤ task.maxAttempts := by
  rcases List.mem_filterMap.mp started with ⟨reply, replyMem, isStarted⟩
  unfold Reply.startedOf at isStarted
  split at isStarted
  · next returned =>
    split at isStarted
    · next same =>
      cases isStarted
      have ok := (inv.replies _ replyMem).2
      rcases ok.claimed.current with ⟨now, nowMem, evolves⟩
      have isTask : now = task :=
        inv.db.task_eq_of_id nowMem membership (evolves.id_eq.trans same)
      have maxAttempts : now.maxAttempts = returned.task.maxAttempts :=
        congrArg TaskShape.maxAttempts evolves.shape
      have budget := ok.budget
      rw [ok.claimed.attempt] at budget
      rw [← isTask, maxAttempts]
      exact ⟨ok.claimed.positive, budget⟩
    · cases isStarted
  · cases isStarted

theorem Sys.withinBudget {sys : Sys Val} {allowed : Sys Val → Action Val → Prop}
    (reachable : (engineSystem Val).ReachableBy allowed sys) {task : Task Val}
    (membership : task ∈ sys.db.tasks.values) : task.WithinBudget sys.log := by
  have inv := inv_of_reachableBy reachable
  have recorded := recorded reachable membership
  have ok : task.Ok := by
    rcases inv.db.exists_run membership with ⟨execution, executionMem, _, inRun⟩
    exact (inv.db.runInv executionMem).ok task inRun
  refine ⟨?_, ok.attempt, by rw [recorded.claims]; simp, ok.retrying, ok.deadLetter⟩
  have claimsNodup : (claimsOf task.id sys.log).Nodup := by
    rw [recorded.claims]
    exact List.nodup_reverse.mpr List.nodup_range'
  have nodup : (startedOf task.id sys.log).Nodup := by
    apply List.nodup_iff_count_le_one.mpr
    intro token
    have held := ticketed_of_reachableBy reachable task.id token
    have once := List.nodup_iff_count_le_one.mp claimsNodup token
    unfold holders at held
    omega
  have tokens : startedOf task.id sys.log ⊆ List.range' 1 task.maxAttempts := by
    intro token started
    have bounds := started_token inv membership started
    exact List.mem_range'_1.mpr ⟨bounds.1, by omega⟩
  have bound := (List.subperm_of_subset nodup tokens).length_le
  rwa [List.length_range'] at bound

/-- A retryable failure with attempts left is not a dead letter. -/
theorem Run.Step.not_deadLetter {missed : Key → Bool} {run next : Run Val} {taskId : TaskId}
    {leaseToken : Nat} {error : Option Thrown} {result : FailResult}
    (step : Run.Step missed (some (.failTask taskId leaseToken error (some result))) run next) :
    ∃ task ∈ run.tasks, task.id = taskId ∧ (isRetryable error = true →
      task.attempt < task.maxAttempts → result ≠ .forGood .deadLetter) := by
  cases step with
  | retry membership => exact ⟨_, membership, rfl, fun _ _ => nofun⟩
  | @fail _ task _ _ membership =>
      refine ⟨task, membership, rfl, ?_⟩
      intro retryable attemptsLeft same
      have outcome : failureOutcome task (isRetryable error) = .deadLetter :=
        FailResult.forGood.inj same
      exact absurd attemptsLeft (Nat.not_lt.mpr (Task.failureOutcome_deadLetter outcome).2)

/-- In every reachable state every task is within its budget, and no step dead-letters
a task for a retryable failure with attempts left. -/
theorem attempt_budget {sys : Sys Val} (reachable : (engineSystem Val).Reachable sys) :
    (∀ task ∈ sys.db.tasks.values, task.WithinBudget sys.log) ∧
      ∀ action next, sys.step action = some next → ∀ taskId leaseToken error result,
        next.log = .failTask taskId leaseToken error (some result) :: sys.log →
          ∀ task ∈ sys.db.tasks.values, task.id = taskId → isRetryable error = true →
            task.attempt < task.maxAttempts → result ≠ .forGood .deadLetter := by
  refine ⟨fun task membership => Sys.withinBudget reachable membership, ?_⟩
  intro action next taken taskId leaseToken error result replied task membership isTask
  have inv := Sys.inv_of_reachableBy reachable
  rcases inv.stepped taken with ⟨label, stepped⟩
  have isLabel : label = some (.failTask taskId leaseToken error (some result)) := by
    have log := stepped.log
    rw [replied] at log
    have toList := List.append_cancel_right
      (show [.failTask taskId leaseToken error (some result)] ++ sys.log = _ from log)
    cases label with
    | none => cases toList
    | some reply => exact congrArg some (List.singleton_inj.mp toList).symm
  rcases inv.db.exists_run membership with ⟨execution, executionMem, home, _⟩
  rcases stepped.advances.forward inv.db executionMem with ⟨_, _, _, ⟨unnamed, _⟩ | ran⟩
  · refine absurd ?_ unnamed
    rw [isLabel, home, ← isTask]
    rfl
  · rw [isLabel] at ran
    rcases ran.not_deadLetter with ⟨source, sourceMem, sourceId, kept⟩
    have isSource : task = source :=
      inv.db.task_eq_of_id membership (Db.mem_runOf_tasks.mp sourceMem).1
        (isTask.trans sourceId.symm)
    subst isSource
    exact kept

namespace Schedule

/-- The only worker of a task crashes after each of four claims; the fourth claim is past
the budget of three attempts. -/
def poisoned : List (Action Plain) :=
  oneStarted ++
    .invoke (.startTask ⟨2, "A"⟩ "v") :: steps 2 [200] ++ .crash 2 ::
    .invoke (.startTask ⟨2, "A"⟩ "v") :: steps 3 [400] ++ .crash 3 ::
    .invoke (.startTask ⟨2, "A"⟩ "v") :: steps 4 [600, 601, 602, 603, 604, 605, 606, 607]

end Schedule

theorem attempt_budget_poisoned :
    (Schedule.after Schedule.poisoned (by decide)).db.tasks.values.isEmpty = false ∧
    ∀ task ∈ (Schedule.after Schedule.poisoned (by decide)).db.tasks.values,
      task.WithinBudget (Schedule.after Schedule.poisoned (by decide)).log :=
  ⟨by decide, (attempt_budget (Schedule.after_reachable Schedule.poisoned (by decide))).1⟩

end WorkflowEngine
