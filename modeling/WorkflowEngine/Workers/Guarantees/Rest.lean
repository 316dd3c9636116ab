import WorkflowEngine.Workers.Working
import WorkflowEngine.Workflow.Guarantees.Recovery

/-!
# A cluster at rest

The reconciler repairs what a crash, a lost message or a dead worker leaves behind.  While
nothing fails there is nothing to repair: what is dispatched reaches a worker, and when
nothing moves any more, every run has ended, is paused or waits for somebody's approval.
-/

namespace WorkflowEngine

open DocStore Queues

variable {Val : Type} [Mixed Val]

namespace Cluster

variable {cluster : Cluster Val} {start : Time}

/-- The engine of a faultless cluster has no process that stops. -/
theorem steady_sys (reachable : (clusterSystem Val start).ReachableBy
    (fun cluster action => cluster.faultless action = true) cluster) :
    (engineSystem Val).ReachableBy (fun sys action => sys.steady action = true) cluster.sys := by
  induction reachable with
  | init => exact .init
  | @step before next action _ faultless taken ih =>
      have onward : ∀ {action : WorkflowEngine.Action Val} {later : Sys Val},
          before.sys.steady action = true → before.sys.step action = some later →
          (engineSystem Val).ReachableBy (fun sys action => sys.steady action = true) later :=
        fun steady taken => .step ih steady taken
      have called : ∀ {index : Nat} {frame : Frame Val} {waiting : Nat → Loop Val},
          before.calls index frame waiting = some next →
          (engineSystem Val).ReachableBy (fun sys action => sys.steady action = true) next.sys := by
        intro index frame waiting isNext
        rcases Option.map_eq_some_iff.mp isNext with ⟨later, invoked, rfl⟩
        exact onward rfl invoked
      cases action with
      | tick | spawn | requeueExpired | promoteDue =>
          cases taken
          exact ih
      | crash => cases faultless
      | invoke frame =>
          change (if _ then _ else _) = some next at taken
          split at taken
          · cases taken
          · rcases Option.map_eq_some_iff.mp taken with ⟨later, invoked, rfl⟩
            exact onward rfl invoked
      | advance call env =>
          change (if _ then _ else _) = some next at taken
          split at taken
          · rcases Option.map_eq_some_iff.mp taken with ⟨later, advanced, rfl⟩
            exact onward rfl advanced
          · cases taken
      | move index move =>
          rcases Option.bind_eq_some_iff.mp taken with ⟨loop, _, moved⟩
          unfold Cluster.moved at moved
          split at moved
          · split at moved
            · cases moved
              exact ih
            · cases moved
          · exact called moved
          · cases moved
            exact ih
          · cases moved
            exact ih
          · exact called moved
          · cases moved
            exact ih
          · cases moved
            exact ih
          · cases moved

theorem delivers_init : (init start : Cluster Val).Delivers fun _ => False := by
  constructor
  · exact Sys.inv_init
  · refine ⟨fun _ => .absent, List.nodup_nil, ?_, ?_, ?_, ?_⟩ <;> intro id <;> simp [init, Queue.empty]
  · intro taskId absurdity
    cases absurdity
  · intro stack absurdity
    cases absurdity
  · intro task absurdity
    cases absurdity
  · intro task absurdity
    cases absurdity

theorem works_init : (init start : Cluster Val).Works := by
  constructor
  · exact Sys.inv_init
  · intro call stack absurdity
    cases absurdity
  · intro task absurdity
    cases absurdity

end Cluster

/-- While no process stops, no loop gives up and Redis answers, every QUEUED or RETRYING task
waits in the queue, has been popped by a worker that will start it, or is pushed by the next
step of a call. -/
theorem dispatched_kept {start : Time} {cluster : Cluster Val}
    (reachable : (clusterSystem Val start).ReachableBy
      (fun cluster action => cluster.faultless action = true) cluster) :
    ∀ task ∈ cluster.sys.db.tasks.values,
      task.status = .queued ∨ task.status = .retrying → cluster.Keeps task := by
  have delivers : cluster.Delivers fun _ => False := by
    apply reachable.invariant Cluster.delivers_init
    intro before action next held faultless taken
    exact held.step faultless taken
  intro task membership waiting
  rcases delivers.kept task membership waiting with keeps | absurdity
  · exact keeps
  · exact absurdity.elim

namespace Schedule

/-- The only task of a run fails once and waits for its retry. -/
def retriedLater : List (Cluster.Action Plain) :=
  fetchedOnce ++ [.tick 4, .move 0 (.report (.threw busy))] ++ clusterSteps 2 4 3 ++
    [.move 0 .ack]

/-- The only task of a run asks for an approval. -/
def suspendedOnce : List (Cluster.Action Plain) :=
  fetchedOnce ++ [.tick 4, .move 0 (.report (.awaitApproval
      { title := "Ship it?", message := none, context := none, timeoutMs := 1000 }))] ++
    clusterSteps 2 4 2 ++ [.move 0 .ack]

/-- Where a schedule ends in which nothing fails. -/
def smoothly (actions : List (Cluster.Action Plain))
    (runs : ((clusterSystem Plain 0).runBy Cluster.smooth (Cluster.init 0) actions).isSome =
      true) : Cluster Plain :=
  ((clusterSystem Plain 0).runBy Cluster.smooth (Cluster.init 0) actions).get runs

theorem smoothly_reachable (actions : List (Cluster.Action Plain))
    (runs : ((clusterSystem Plain 0).runBy Cluster.smooth (Cluster.init 0) actions).isSome =
      true) : (clusterSystem Plain 0).ReachableBy
        (fun cluster action => cluster.smooth action = true) (smoothly actions runs) :=
  Transition.System.get_runBy_reachableBy (clusterSystem Plain 0) Cluster.smooth actions runs

end Schedule

theorem dispatched_kept_retriedLater :
    ∃ cluster : Cluster Plain, ∃ task ∈ cluster.sys.db.tasks.values,
      task.status = .retrying ∧ cluster.queue.ready = [] ∧ cluster.Keeps task := by
  let cluster := Schedule.smoothly Schedule.retriedLater (by decide)
  have reachable : (clusterSystem Plain 0).ReachableBy
      (fun cluster action => cluster.faultless action = true) cluster :=
    (Schedule.smoothly_reachable Schedule.retriedLater (by decide)).mono
      fun state action smooth => (Bool.and_eq_true_iff.mp smooth).1
  have found : ∃ task ∈ cluster.sys.db.tasks.values, task.status = .retrying := by decide
  rcases found with ⟨task, membership, retrying⟩
  exact ⟨cluster, task, membership, retrying, by decide,
    dispatched_kept reachable task membership (.inr retrying)⟩

/-! ## Nothing moves any more -/

/-- No call is in progress, all loops poll, and the queue has nothing for them. -/
structure Cluster.AtRest (cluster : Cluster Val) : Prop where
  calls : ∀ stack ∈ cluster.sys.calls, stack = []
  loops : ∀ loop ∈ cluster.loops, loop = .polling
  ready : cluster.queue.ready = []
  delayed : cluster.queue.delayed.members = []

/-- At rest, a RUNNING run of a cluster in which nothing has failed waits for an approval. -/
theorem rest_awaits_approval {start : Time} {cluster : Cluster Val}
    (reachable : (clusterSystem Val start).ReachableBy
      (fun cluster action => cluster.smooth action = true) cluster)
    (rest : cluster.AtRest) {execution : WorkflowExecution Val}
    (membership : execution ∈ cluster.sys.db.executions.values)
    (running : execution.status = .running) :
    (∀ task ∈ (cluster.sys.db.runOf execution).tasks, task.status.unfinished = true →
      task.status = .pending ∨ task.status = .waitingForApproval) ∧
    ((cluster.sys.db.runOf execution).tasks ≠ [] →
      ∃ task ∈ (cluster.sys.db.runOf execution).tasks, task.status = .waitingForApproval ∧
        ∃ request ∈ (cluster.sys.db.runOf execution).approvals,
          request.taskId = task.id ∧ request.status = .pending) := by
  have faultless := reachable.mono fun state action smooth =>
    (Bool.and_eq_true_iff.mp smooth).1
  have works : cluster.Works := by
    apply reachable.invariant Cluster.works_init
    intro before action next held smooth taken
    exact held.step smooth taken
  have untopped : ∀ frame, ¬ cluster.sys.Top frame := by
    rintro frame ⟨below, isStack⟩
    cases rest.calls _ isStack
  have inDb : ∀ task ∈ (cluster.sys.db.runOf execution).tasks,
      task ∈ cluster.sys.db.tasks.values := fun task taskMem => (Db.mem_runOf_tasks.mp taskMem).1
  have unwaiting : ∀ task ∈ (cluster.sys.db.runOf execution).tasks,
      ¬ (task.status = .queued ∨ task.status = .retrying) := by
    intro task taskMem waiting
    rcases dispatched_kept faultless task (inDb task taskMem) waiting with
      (ready | delayed) | (⟨loop, isLoop, claimed⟩ | ⟨_, top⟩) | ⟨frame, top, _⟩
    · rw [rest.ready] at ready
      cases ready
    · rw [SortedSet.mem_def, rest.delayed] at delayed
      cases delayed
    · rw [rest.loops loop isLoop] at claimed
      cases claimed
    · exact untopped _ top
    · exact untopped _ top
  have unworked : ∀ task ∈ (cluster.sys.db.runOf execution).tasks, task.status ≠ .running := by
    intro task taskMem isRunning
    rcases works.worked task (inDb task taskMem) isRunning with ⟨loop, isLoop, worksOn⟩
    rw [rest.loops loop isLoop] at worksOn
    cases worksOn
  have attended := Sys.attended (Cluster.steady_sys faultless)
  have settled : ∀ task ∈ (cluster.sys.db.runOf execution).tasks, task.status.unfinished = true →
      task.status = .pending ∨ task.status = .waitingForApproval := by
    intro task taskMem unfinished
    have idle := unwaiting task taskMem
    have unstarted := unworked task taskMem
    have unready := attended.not_ready rest.calls membership running taskMem
    cases status : task.status with
    | pending => exact .inl rfl
    | waitingForApproval => exact .inr rfl
    | ready => exact absurd status unready
    | running => exact absurd status unstarted
    | queued => exact absurd (.inl status) idle
    | retrying => exact absurd (.inr status) idle
    | completed | failed | deadLetter | cancelled =>
        rw [status] at unfinished
        cases unfinished
  refine ⟨settled, ?_⟩
  intro nonempty
  have inv := works.inv.db.runInv membership
  rcases inv.exists_underWay nonempty running with ⟨task, taskMem, underWay⟩
  simp only [TaskStatus.underWay, Bool.and_eq_true, decide_eq_true_eq] at underWay
  have waiting : task.status = .waitingForApproval :=
    (settled task taskMem underWay.1).resolve_left underWay.2
  rcases inv.inStep.waiting task taskMem waiting with ⟨request, requestMem, rest⟩
  exact ⟨task, taskMem, waiting, request, requestMem, rest⟩

theorem rest_awaits_approval_suspendedOnce :
    ∃ cluster : Cluster Plain, ∃ execution ∈ cluster.sys.db.executions.values,
      execution.status = .running ∧
      ∃ task ∈ (cluster.sys.db.runOf execution).tasks, task.status = .waitingForApproval ∧
        ∃ request ∈ (cluster.sys.db.runOf execution).approvals,
          request.taskId = task.id ∧ request.status = .pending := by
  let cluster := Schedule.smoothly Schedule.suspendedOnce (by decide)
  have reachable := Schedule.smoothly_reachable Schedule.suspendedOnce (by decide)
  have polling : ∀ loop ∈ cluster.loops, loop = .polling := by
    have two : cluster.loops = [.polling, .polling] := rfl
    rw [two]
    intro loop membership
    simpa using membership
  have rest : cluster.AtRest := ⟨by decide, polling, by decide, by decide⟩
  have found : ∃ execution ∈ cluster.sys.db.executions.values, execution.status = .running ∧
      (cluster.sys.db.runOf execution).tasks ≠ [] := by decide
  rcases found with ⟨execution, membership, running, nonempty⟩
  exact ⟨cluster, execution, membership, running,
    (rest_awaits_approval reachable rest membership running).2 nonempty⟩

end WorkflowEngine
