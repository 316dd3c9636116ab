import WorkflowEngine.Foundations.Sweep
import WorkflowEngine.Workflow.System

/-!
# The reach of the reconciler

A call of `reconcile` dispatches the READY tasks among the first ones that it finds stuck,
if their runs are RUNNING.  The others stay where they are and are found again, so that
they are in the way of the tasks behind them.
-/

namespace WorkflowEngine

open DocStore

variable {Val : Type}

namespace Db

/-- The stuck READY tasks, in the order in which they are found. -/
def stuckReady (db : Db Val) (cutoff : Time) : List (Task Val) :=
  db.tasks.find (isStuckReady cutoff)

/-- The run of an execution is not RUNNING. -/
def halted (db : Db Val) (executionId : ExecutionId) : Bool :=
  decide ((db.executions.findById executionId).map (·.status) ≠ some .running)

/-- Every READY task is older than the cutoff. -/
def Aged (db : Db Val) (cutoff : Time) : Prop :=
  ∀ task ∈ db.tasks.values, task.status = .ready → ∀ readyAt ∈ task.readyAt, readyAt < cutoff

/-- Nobody is asked for an approval. -/
def Unasked (db : Db Val) : Prop :=
  ∀ request ∈ db.approvals.values, request.status ≠ .pending

theorem Unasked.overdue {db : Db Val} (unasked : db.Unasked) (now : Time) :
    db.approvals.find (isOverdueApproval now) = [] := by
  apply List.filter_eq_nil_iff.mpr
  intro request membership
  simp [isOverdueApproval, unasked request membership]

/-- Later sweeps find the same tasks stuck. -/
theorem Aged.stuckReady_later {db : Db Val} {cutoff later : Time} (aged : db.Aged cutoff)
    (notBefore : cutoff ≤ later) :
    db.tasks.find (isStuckReady later) = db.stuckReady cutoff := by
  apply List.filter_congr
  intro task membership
  rw [isStuckReady, isStuckReady]
  by_cases ready : task.status = .ready
  · cases isAt : task.readyAt with
    | none => rfl
    | some readyAt =>
        have old := aged task membership ready readyAt isAt
        have older : readyAt < later := Int.lt_of_lt_of_le old notBefore
        simp [before, old, older]
  · rw [decide_eq_false ready]
    rfl

/-- The database after the task was dispatched, if it was READY. -/
def dispatched (db : Db Val) (now : Time) (taskId : TaskId) : Db Val :=
  { db with
    tasks := db.tasks.updateMany ((transition .ready .queued (queueing now)).only taskId) }

/-- Some tasks have been dispatched, and nothing else has happened. -/
structure Dispatches (cutoff : Time) (chosen : TaskId → Bool) (db later : Db Val) : Prop where
  executions : later.executions = db.executions
  approvals : later.approvals = db.approvals
  ids : later.tasks.ids = db.tasks.ids
  aged : db.Aged cutoff → later.Aged cutoff
  stuck : later.stuckReady cutoff =
    (db.stuckReady cutoff).filter fun task => !chosen task.id
  moves : ∀ task ∈ db.tasks.values, task ∈ later.tasks.values ∨
    ∃ queued ∈ later.tasks.values, queued.id = task.id ∧ queued.status = .queued

namespace Dispatches

variable {cutoff : Time} {chosen others : TaskId → Bool} {db middle later : Db Val}

theorem unasked (dispatches : Dispatches cutoff chosen db later) (unasked : db.Unasked) :
    later.Unasked := by
  rw [Unasked, dispatches.approvals]
  exact unasked

theorem none : Dispatches cutoff (fun _ => false) db db where
  executions := rfl
  approvals := rfl
  ids := rfl
  aged := id
  stuck := by simp
  moves _ membership := .inl membership

theorem trans (first : Dispatches cutoff chosen db middle)
    (second : Dispatches cutoff others middle later) :
    Dispatches cutoff (fun taskId => chosen taskId || others taskId) db later where
  executions := second.executions.trans first.executions
  approvals := second.approvals.trans first.approvals
  ids := second.ids.trans first.ids
  aged := second.aged ∘ first.aged
  stuck := by
    rw [second.stuck, first.stuck, List.filter_filter]
    simp only [Bool.not_or, Bool.and_comm]
  moves task membership := by
    rcases first.moves task membership with stays | ⟨queued, there, isTask, isQueued⟩
    · exact second.moves task stays
    · rcases second.moves queued there with stays | ⟨other, found, isOther, otherQueued⟩
      · exact .inr ⟨queued, stays, isTask, isQueued⟩
      · exact .inr ⟨other, found, isOther.trans isTask, otherQueued⟩

/-- What a dispatch makes of a task. -/
theorem onValue_cases (now : Time) (taskId : TaskId) (task : Task Val) :
    let update := (transition .ready .queued (queueing now)).only taskId
    task.id = taskId ∧ task.status = .ready ∧ (update.onValue task).status = .queued ∨
      ¬(task.id = taskId ∧ task.status = .ready) ∧ update.onValue task = task := by
  intro update
  have matches_iff : update.filter task = true ↔ task.id = taskId ∧ task.status = .ready := by
    simp [update, Update.only, transition, queueing, Document.id]
  by_cases matched : update.filter task = true
  · refine .inl ⟨(matches_iff.mp matched).1, (matches_iff.mp matched).2, ?_⟩
    rw [Update.onValue, if_pos matched]
    rfl
  · exact .inr ⟨matches_iff.not.mp matched, by rw [Update.onValue, if_neg matched]⟩

theorem one (now : Time) (taskId : TaskId) :
    Dispatches cutoff (fun other => decide (other = taskId)) db (db.dispatched now taskId) where
  executions := rfl
  approvals := rfl
  ids := Collection.ids_updateMany _ _
  aged aged := by
    intro task membership ready readyAt isAt
    rw [dispatched, Collection.values_updateMany] at membership
    rcases List.mem_map.mp membership with ⟨before, stood, rfl⟩
    rcases onValue_cases now taskId before with ⟨_, _, queued⟩ | ⟨_, same⟩
    · cases ready.symm.trans queued
    · rw [same] at ready isAt
      exact aged before stood ready readyAt isAt
  stuck := by
    have same : ∀ task ∈ db.tasks.values, isStuckReady cutoff
        (((transition .ready .queued (queueing now)).only taskId).onValue task) =
          (!decide (task.id = taskId) && isStuckReady cutoff task) := by
      intro task _
      rcases onValue_cases now taskId task with ⟨isId, _, queued⟩ | ⟨other, unchanged⟩
      · simp [isStuckReady, queued, isId]
      · rw [unchanged, isStuckReady]
        grind
    have fixed : ∀ task ∈ db.tasks.values,
        (!decide (task.id = taskId) && isStuckReady cutoff task) = true →
          ((transition .ready .queued (queueing now)).only taskId).onValue task = task := by
      intro task _ spared
      rcases onValue_cases now taskId task with ⟨isId, _, _⟩ | ⟨_, unchanged⟩
      · simp [isId] at spared
      · exact unchanged
    rw [stuckReady, Collection.find, dispatched, Collection.values_updateMany,
      Sweep.filter_map_of_fixed same fixed, stuckReady, Collection.find, List.filter_filter]
  moves task membership := by
    rw [dispatched, Collection.values_updateMany]
    have there := List.mem_map_of_mem
      (f := ((transition .ready .queued (queueing now)).only taskId).onValue) membership
    rcases onValue_cases now taskId task with ⟨_, _, queued⟩ | ⟨_, same⟩
    · exact .inr ⟨_, there, Update.id_onValue _ task, queued⟩
    · rw [same] at there
      exact .inl there

end Dispatches

end Db

/-! ## A call that runs alone -/

section

variable [Mixed Val] {since : Time} {staleMs : Int} {limit count : Nat}

/-- A call runs to its end while nothing else happens.  Every step reads the clock, which is
not behind the given time. -/
inductive RunsAlone (since : Time) : List (Frame Val) → Db Val → Db Val → Prop where
  | ended (db : Db Val) : RunsAlone since [] db db
  | step {env : Env} {frame : Frame Val} {rest : List (Frame Val)} {db final : Db Val}
      {outcome : Outcome Val} :
      since ≤ env.now → frame.step env db = .ok outcome →
      RunsAlone since (outcome.next ++ rest) outcome.db final →
      RunsAlone since (frame :: rest) db final

namespace RunsAlone

variable {rest : List (Frame Val)} {db final : Db Val} {cutoff : Time}

/-- What is enqueued does not change the database. -/
theorem enqueues {α : Type} {taskIdOf : α → TaskId} (items : List α)
    (alone : RunsAlone since (items.map (fun item => .enqueue (taskIdOf item)) ++ rest) db final) :
    RunsAlone since rest db final := by
  induction items with
  | nil => exact alone
  | cons item others ih =>
      cases alone with
      | step _ ran later =>
          cases ran
          exact ih later

/-- A dispatch never fails; the task is enqueued if it was READY. -/
theorem step_dispatchTask (env : Env) (db : Db Val) (taskId : TaskId) :
    ∃ won : Bool, Frame.step env db (.dispatchTask taskId) =
      .ok ⟨db.dispatched env.now taskId, if won then [.enqueue taskId] else [],
        [.dispatchTask taskId won]⟩ :=
  ⟨_, rfl⟩

theorem dispatchTask {taskId : TaskId}
    (alone : RunsAlone since (.dispatchTask taskId :: rest) db final) :
    ∃ now, RunsAlone since rest (db.dispatched now taskId) final := by
  cases alone with
  | @step env _ _ _ _ outcome _ ran later =>
      rcases step_dispatchTask env db taskId with ⟨won, dispatched⟩
      cases dispatched.symm.trans ran
      refine ⟨env.now, ?_⟩
      cases won with
      | true => exact @enqueues _ _ _ _ _ _ _ id [taskId] later
      | false => exact later

/-- The loop over the stuck tasks.  What is remembered of the runs is how they are. -/
theorem redispatch (taskIds : List TaskId)
    {statusOf : List (ExecutionId × Option ExecutionStatus)}
    (known : ∀ executionId status, statusOf.lookup executionId = some status →
      status = (db.executions.findById executionId).map (·.status))
    (alone : RunsAlone since (.redispatch taskIds statusOf :: rest) db final) :
    ∃ middle, RunsAlone since rest middle final ∧
      db.Dispatches cutoff
        (fun taskId => decide (taskId ∈ taskIds) && !db.halted taskId.executionId) middle := by
  induction taskIds generalizing db statusOf with
  | nil =>
      cases alone with
      | step _ ran later =>
          cases ran
          exact ⟨db, later, by simpa using Db.Dispatches.none⟩
  | cons taskId others ih =>
      -- the run is looked up unless an earlier task belongs to it
      have looked : ∃ statusOf : List (ExecutionId × Option ExecutionStatus),
          (∀ executionId status, statusOf.lookup executionId = some status →
            status = (db.executions.findById executionId).map (·.status)) ∧
          statusOf.lookup taskId.executionId =
            some ((db.executions.findById taskId.executionId).map (·.status)) ∧
          RunsAlone since (.redispatch (taskId :: others) statusOf :: rest) db final := by
        cases found : statusOf.lookup taskId.executionId with
        | some status => exact ⟨statusOf, known, known _ _ found ▸ found, alone⟩
        | none =>
            cases alone with
            | step _ ran later =>
                simp only [Frame.step, found] at ran
                cases ran
                refine ⟨_, ?_, ?_, later⟩
                · intro executionId status remembered
                  by_cases own : executionId = taskId.executionId
                  · subst own
                    simpa [List.lookup_cons] using remembered.symm
                  · rw [List.lookup_cons, beq_eq_false_iff_ne.mpr own] at remembered
                    exact known executionId status remembered
                · simp
      rcases looked with ⟨statusOf, known, found, alone⟩
      cases alone with
      | step _ ran later =>
          simp only [Frame.step, found] at ran
          split at ran
          · next running =>
            cases ran
            rcases dispatchTask later with ⟨now, later⟩
            have first : db.Dispatches cutoff _ (db.dispatched now taskId) := .one now taskId
            rcases @ih (db.dispatched now taskId) statusOf known later with
              ⟨middle, after, dispatches⟩
            have chosen : (fun other : TaskId => decide (other = taskId) ||
                (decide (other ∈ others) && !db.halted other.executionId)) =
                  fun other => decide (other ∈ taskId :: others) &&
                    !db.halted other.executionId := by
              funext other
              by_cases same : other = taskId
              · simp [same, Db.halted, running]
              · simp [same]
            exact ⟨middle, after, chosen ▸ first.trans dispatches⟩
          · next halted =>
            cases ran
            rcases ih known later with ⟨middle, after, dispatches⟩
            have chosen : (fun other : TaskId => decide (other ∈ others) &&
                !db.halted other.executionId) =
                  fun other => decide (other ∈ taskId :: others) &&
                    !db.halted other.executionId := by
              funext other
              by_cases same : other = taskId
              · simp [same, Db.halted, halted]
              · simp [same]
            exact ⟨middle, after, chosen ▸ dispatches⟩

/-- The other sweeps do not change the database. -/
theorem sweeps {cutoff : Time} (unasked : db.Unasked)
    (alone : RunsAlone since
      [.sweepQueued cutoff limit, .sweepRunning limit, .sweepRetrying cutoff limit,
        .sweepApprovals limit] db final) : final = db := by
  cases alone with
  | step _ ran queued =>
      cases ran
      cases enqueues _ queued with
      | step _ ran running =>
          cases ran
          cases enqueues _ running with
          | step _ ran retrying =>
              cases ran
              cases enqueues _ retrying with
              | @step env _ _ _ _ _ _ ran approvals =>
                  simp only [Frame.step, unasked.overdue env.now, limited, List.take_nil,
                    ite_self, List.map_nil] at ran
                  cases ran
                  cases approvals
                  rfl

/-- A call of `reconcile` dispatches the first stuck tasks, unless their runs are halted. -/
theorem reconcile (positive : 0 < limit) (aged : db.Aged (since - staleMs))
    (unasked : db.Unasked) (alone : RunsAlone since [.reconcile staleMs limit] db final) :
    db.Dispatches (since - staleMs)
      (fun taskId =>
        decide (taskId ∈ ((db.stuckReady (since - staleMs)).take limit).map Task.id) &&
          !db.halted taskId.executionId) final := by
  cases alone with
  | @step env _ _ _ _ _ notBefore ran swept =>
      cases ran
      cases swept with
      | step _ ran looped =>
          cases ran
          have found : limited limit (db.tasks.find (isStuckReady (env.now - staleMs))) =
              (db.stuckReady (since - staleMs)).take limit := by
            rw [limited, if_neg (Nat.ne_of_gt positive),
              aged.stuckReady_later (Int.sub_le_sub_right notBefore staleMs)]
          rw [found] at looped
          rcases (redispatch _ (by simp) looped :
            ∃ middle, _ ∧ db.Dispatches (since - staleMs) _ middle) with
              ⟨middle, others, dispatches⟩
          cases sweeps (dispatches.unasked unasked) others
          exact dispatches

end RunsAlone

/-! ### A call alone ends -/

/-- However it goes on alone, a call ends: whatever its steps read, and whether Redis is up
or not, none of them throws. -/
inductive EndsAlone (since : Time) : List (Frame Val) → Db Val → Prop where
  | ended (db : Db Val) : EndsAlone since [] db
  | step {frame : Frame Val} {rest : List (Frame Val)} {db : Db Val} :
      (∀ env : Env, since ≤ env.now → ∃ outcome, frame.step env db = .ok outcome) →
      (∀ (env : Env) outcome, since ≤ env.now → frame.step env db = .ok outcome →
        EndsAlone since (outcome.next ++ rest) outcome.db) →
      EndsAlone since (frame :: rest) db

namespace EndsAlone

variable {rest : List (Frame Val)} {db : Db Val}

/-- A step that does not throw, whatever it reads. -/
theorem of_ok {frame : Frame Val} (outcome : Env → Outcome Val)
    (ran : ∀ env, frame.step env db = .ok (outcome env))
    (later : ∀ env : Env, EndsAlone since ((outcome env).next ++ rest) (outcome env).db) :
    EndsAlone since (frame :: rest) db := by
  apply EndsAlone.step
  · exact fun env _ => ⟨outcome env, ran env⟩
  · intro env other _ isOther
    cases (ran env).symm.trans isOther
    exact later env

theorem enqueues {α : Type} {taskIdOf : α → TaskId} (items : List α)
    (ends : EndsAlone since rest db) :
    EndsAlone since (items.map (fun item => .enqueue (taskIdOf item)) ++ rest) db := by
  induction items with
  | nil => exact ends
  | cons item others ih => exact .of_ok _ (fun _ => rfl) fun _ => ih

theorem sweep {frame : Frame Val} (found : Env → List (Task Val))
    (ran : ∀ env, frame.step env db = .ok ⟨db, (found env).map fun task => .enqueue task.id, []⟩)
    (ends : EndsAlone since rest db) : EndsAlone since (frame :: rest) db :=
  .of_ok _ ran fun env => ends.enqueues (found env)

theorem dispatchTask {taskId : TaskId}
    (ends : ∀ now, EndsAlone since rest (db.dispatched now taskId)) :
    EndsAlone since (.dispatchTask taskId :: rest) db := by
  apply EndsAlone.step
  · intro env _
    rcases RunsAlone.step_dispatchTask env db taskId with ⟨won, ran⟩
    exact ⟨_, ran⟩
  · intro env outcome _ isOutcome
    rcases RunsAlone.step_dispatchTask env db taskId with ⟨won, ran⟩
    cases ran.symm.trans isOutcome
    cases won with
    | true => exact @enqueues _ _ _ _ _ _ id [taskId] (ends env.now)
    | false => exact ends env.now

theorem redispatch (taskIds : List TaskId)
    {statusOf : List (ExecutionId × Option ExecutionStatus)}
    (ends : ∀ middle : Db Val, middle.approvals = db.approvals → EndsAlone since rest middle) :
    EndsAlone since (.redispatch taskIds statusOf :: rest) db := by
  induction taskIds generalizing db statusOf with
  | nil => exact .of_ok _ (fun _ => rfl) fun _ => ends db rfl
  | cons taskId others ih =>
      -- once the run has been looked up
      have looked : ∀ (statusOf : List (ExecutionId × Option ExecutionStatus))
          (status : Option ExecutionStatus), statusOf.lookup taskId.executionId = some status →
            EndsAlone since (.redispatch (taskId :: others) statusOf :: rest) db := by
        intro statusOf status found
        by_cases running : status = some .running
        · have ran : ∀ env, Frame.step env db (.redispatch (taskId :: others) statusOf) =
              .ok ⟨db, [.dispatchTask taskId, .redispatch others statusOf], []⟩ := by
            intro env
            simp [Frame.step, found, running]
          have later : ∀ now, EndsAlone since (.redispatch others statusOf :: rest)
              (db.dispatched now taskId) := fun now => ih ends
          exact .of_ok _ ran fun _ => .dispatchTask later
        · have ran : ∀ env, Frame.step env db (.redispatch (taskId :: others) statusOf) =
              .ok ⟨db, [.redispatch others statusOf], []⟩ := by
            intro env
            simp [Frame.step, found, running]
          exact .of_ok _ ran fun _ => ih ends
      cases found : statusOf.lookup taskId.executionId with
      | some status => exact looked statusOf status found
      | none =>
          have ran : ∀ env, Frame.step env db (.redispatch (taskId :: others) statusOf) =
              .ok ⟨db, [.redispatch (taskId :: others) ((taskId.executionId,
                (db.executions.findById taskId.executionId).map (·.status)) :: statusOf)],
                  []⟩ := by
            intro env
            simp only [Frame.step, found]
          exact .of_ok _ ran fun _ => looked _ _ List.lookup_cons_self

/-- A call of `reconcile` that runs alone ends. -/
theorem reconcile (unasked : db.Unasked) :
    EndsAlone since [.reconcile staleMs limit] db := by
  have approvals : ∀ middle : Db Val, middle.approvals = db.approvals →
      EndsAlone since [.sweepApprovals limit] middle := by
    intro middle same
    have quiet : middle.Unasked := by
      rw [Db.Unasked, same]
      exact unasked
    have ran : ∀ env, Frame.step env middle (.sweepApprovals limit) = .ok ⟨middle, [], []⟩ := by
      intro env
      simp [Frame.step, quiet.overdue env.now, limited]
    exact .of_ok _ ran fun _ => .ended middle
  have sweeps : ∀ (cutoff : Time) (middle : Db Val), middle.approvals = db.approvals →
      EndsAlone since [.sweepQueued cutoff limit, .sweepRunning limit,
        .sweepRetrying cutoff limit, .sweepApprovals limit] middle := by
    intro cutoff middle same
    exact .sweep _ (fun _ => rfl) (.sweep _ (fun _ => rfl)
      (.sweep _ (fun _ => rfl) (approvals middle same)))
  apply EndsAlone.of_ok _ fun _ => rfl
  intro env
  exact .of_ok _ (fun _ => rfl) fun _ => .redispatch _ (sweeps _)

/-- Some way of going on alone, with a clock that is not behind. -/
theorem exists_final {env : Env} (clock : since ≤ env.now) {stack : List (Frame Val)}
    (ends : EndsAlone since stack db) : ∃ final, RunsAlone since stack db final := by
  induction ends with
  | ended db => exact ⟨db, .ended db⟩
  | @step frame rest db total _ ih =>
      rcases total env clock with ⟨outcome, ran⟩
      rcases ih env outcome clock ran with ⟨final, alone⟩
      exact ⟨final, .step clock ran alone⟩

end EndsAlone

/-- Calls of `reconcile` one after another, and nothing else. -/
inductive Reconciled (since : Time) (staleMs : Int) (limit : Nat) :
    Nat → Db Val → Db Val → Prop where
  | none (db : Db Val) : Reconciled since staleMs limit 0 db db
  | next {count : Nat} {db middle final : Db Val} :
      RunsAlone since [.reconcile staleMs limit] db middle →
      Reconciled since staleMs limit count middle final →
      Reconciled since staleMs limit (count + 1) db final

namespace Reconciled

variable {db final : Db Val}

/-- What the calls leave stuck is what sweeps of this size leave. -/
theorem stuckReady (positive : 0 < limit) (aged : db.Aged (since - staleMs))
    (unasked : db.Unasked) (reconciled : Reconciled since staleMs limit count db final) :
    final.stuckReady (since - staleMs) =
      Sweep.sweeps Task.id (fun task => db.halted task.executionId) limit count
        (db.stuckReady (since - staleMs)) := by
  induction reconciled with
  | none db => rfl
  | @next count db middle final alone _ ih =>
      have dispatches := alone.reconcile positive aged unasked
      have same : middle.halted = db.halted := by
        funext executionId
        rw [Db.halted, Db.halted, dispatches.executions]
      rw [ih (dispatches.aged aged) (dispatches.unasked unasked), same, dispatches.stuck,
        Sweep.sweeps, Sweep.swept]
      congr 1
      apply List.filter_congr
      intro task _
      rw [Bool.not_and, Bool.not_not, Bool.or_comm]
      rfl

/-- The calls dispatch some tasks, and nothing else happens. -/
theorem dispatches (positive : 0 < limit) (aged : db.Aged (since - staleMs))
    (unasked : db.Unasked) (reconciled : Reconciled since staleMs limit count db final) :
    ∃ chosen, db.Dispatches (since - staleMs) chosen final := by
  induction reconciled with
  | none db => exact ⟨_, .none⟩
  | @next count db middle final alone _ ih =>
      have dispatches := alone.reconcile positive aged unasked
      rcases ih (dispatches.aged aged) (dispatches.unasked unasked) with ⟨chosen, later⟩
      exact ⟨_, dispatches.trans later⟩

/-- Whatever calls have run, the next one ends. -/
theorem ends {done : Nat} {middle : Db Val} (positive : 0 < limit)
    (aged : db.Aged (since - staleMs)) (unasked : db.Unasked)
    (reconciled : Reconciled since staleMs limit done db middle) :
    EndsAlone since [.reconcile staleMs limit] middle := by
  rcases reconciled.dispatches positive aged unasked with ⟨chosen, dispatches⟩
  exact .reconcile (dispatches.unasked unasked)

theorem exists_reconciled {env : Env} (clock : since ≤ env.now) (positive : 0 < limit)
    (aged : db.Aged (since - staleMs)) (unasked : db.Unasked) :
    ∃ final, Reconciled since staleMs limit count db final := by
  induction count generalizing db with
  | zero => exact ⟨db, .none db⟩
  | succ count ih =>
      rcases (EndsAlone.reconcile unasked).exists_final clock with ⟨middle, alone⟩
      have dispatches := alone.reconcile positive aged unasked
      rcases ih (dispatches.aged aged) (dispatches.unasked unasked) with ⟨final, others⟩
      exact ⟨final, .next alone others⟩

end Reconciled

end

/-- A call that runs alone is a run of the engine. -/
theorem RunsAlone.leads [Mixed Val] {since : Time} {stack : List (Frame Val)} {db final : Db Val}
    (alone : RunsAlone since stack db final) (log : List (Reply Val)) :
    ∃ log', (engineSystem Val).Leads ⟨db, [stack], log⟩ ⟨final, [[]], log'⟩ := by
  induction alone generalizing log with
  | ended db => exact ⟨log, .refl⟩
  | @step env frame rest db final outcome _ ran _ ih =>
      rcases ih (outcome.replies ++ log) with ⟨log', leads⟩
      refine ⟨log', .head ⟨.advance 0 env, ?_⟩ leads⟩
      simp [engineSystem, Sys.step, ran]

section

variable [Mixed Val] {since : Time} {staleMs : Int} {limit count : Nat} {db final : Db Val}
  {task : Task Val} {earlier later : List (Task Val)}

theorem Reconciled.dispatched_iff (positive : 0 < limit) (nodup : db.tasks.ids.Nodup)
    (aged : db.Aged (since - staleMs)) (unasked : db.Unasked)
    (found : db.stuckReady (since - staleMs) = earlier ++ task :: later)
    (enough : (earlier ++ task :: later).length ≤ count)
    (reconciled : Reconciled since staleMs limit count db final) :
    (∃ queued ∈ final.tasks.values, queued.id = task.id ∧ queued.status = .queued) ↔
      db.halted task.executionId = false ∧
        earlier.countP (fun other => db.halted other.executionId) < limit := by
  have unique : ((db.stuckReady (since - staleMs)).map Task.id).Nodup :=
    (Collection.values_ids db.tasks ▸ nodup).sublist (List.filter_sublist.map _)
  have absent : task ∉ earlier := by
    intro twice
    rw [found, List.map_append, List.nodup_append] at unique
    exact unique.2.2 _ (List.mem_map_of_mem twice) _ List.mem_cons_self rfl
  have stuck : task ∈ db.stuckReady (since - staleMs) := by
    rw [found]
    exact List.mem_append_right _ List.mem_cons_self
  have membership := List.mem_filter.mp stuck
  rcases reconciled.dispatches positive aged unasked with ⟨chosen, dispatches⟩
  -- the task either is still stuck or has been dispatched
  have left : (∃ queued ∈ final.tasks.values, queued.id = task.id ∧ queued.status = .queued) ↔
      task ∉ final.stuckReady (since - staleMs) := by
    constructor
    · rintro ⟨queued, there, isTask, isQueued⟩ still
      have distinct : final.tasks.ids.Nodup := dispatches.ids ▸ nodup
      cases Collection.value_eq_of_id_eq distinct there (List.mem_filter.mp still).1 isTask
      simp [isStuckReady, isQueued] at membership
    · intro gone
      rcases dispatches.moves task membership.1 with stays | queued
      · exact absurd (List.mem_filter.mpr ⟨stays, membership.2⟩) gone
      · exact queued
  rw [left, reconciled.stuckReady positive aged unasked,
    Sweep.mem_sweeps_iff unique (by rw [found]; exact enough), and_iff_right stuck, not_or,
    not_not, Bool.not_eq_true, found, Sweep.mem_reached_append absent]

/-- Left to itself every call of the reconciler ends, and together they dispatch a stuck
task exactly when its run is RUNNING and fewer stuck tasks of halted runs are found before
it than one sweep takes. -/
theorem stuck_dispatched_iff (positive : 0 < limit) (nodup : db.tasks.ids.Nodup)
    (aged : db.Aged (since - staleMs)) (unasked : db.Unasked)
    (found : db.stuckReady (since - staleMs) = earlier ++ task :: later)
    (enough : (earlier ++ task :: later).length ≤ count) :
    (∀ done middle, Reconciled since staleMs limit done db middle →
      EndsAlone since [.reconcile staleMs limit] middle) ∧
    (∃ final, Reconciled since staleMs limit count db final) ∧
      ∀ final, Reconciled since staleMs limit count db final →
        ((∃ queued ∈ final.tasks.values, queued.id = task.id ∧ queued.status = .queued) ↔
          db.halted task.executionId = false ∧
            earlier.countP (fun other => db.halted other.executionId) < limit) := by
  let env : Env :=
    { now := since, leaseMs := 0, objectId := 0, randomUUID := id, backoff := fun _ _ => 0
      redisUp := true }
  refine ⟨?_, ?_, ?_⟩
  · exact fun done middle => Reconciled.ends positive aged unasked
  · exact Reconciled.exists_reconciled (Int.le_refl env.now) positive aged unasked
  · exact fun final => Reconciled.dispatched_iff positive nodup aged unasked found enough

end

namespace Schedule

/-- The processes that start two runs stop before they dispatch anything, and the first run
is paused. -/
def pausedFirst : List (Action Plain) :=
  start [definition "A" []] :: steps 0 [1, 2] ++
    start [definition "B" [], definition "C" []] :: steps 1 [3, 4] ++
      call (.pauseExecution 2) :: steps 2 [5, 6] ++ [.crash 0, .crash 1]

theorem pausedFirst_isSome : ((engineSystem Plain).run pausedFirst).isSome = true := by
  decide

def forgotten : Db Plain :=
  (after pausedFirst pausedFirst_isSome).db

def forgottenTask (position : Nat) (inBounds : position < forgotten.tasks.values.length) :
    Task Plain :=
  forgotten.tasks.values.get ⟨position, inBounds⟩

end Schedule

/-- Sweeps of one task find nothing but the task of the paused run; sweeps of two reach the
others. -/
theorem stuck_dispatched_iff_pausedFirst :
    (∃ final, Reconciled 100 10 1 3 Schedule.forgotten final ∧
      ¬∃ queued ∈ final.tasks.values, queued.id = ⟨4, "B"⟩ ∧ queued.status = .queued) ∧
    ∃ final, Reconciled 100 10 2 3 Schedule.forgotten final ∧
      ∃ queued ∈ final.tasks.values, queued.id = ⟨4, "C"⟩ ∧ queued.status = .queued := by
  have aged : Schedule.forgotten.Aged (100 - 10) := by
    unfold Db.Aged
    decide
  have unasked : Schedule.forgotten.Unasked := by
    unfold Db.Unasked
    decide
  constructor
  · have second := @stuck_dispatched_iff Plain _ 100 10 1 3 Schedule.forgotten
      (Schedule.forgottenTask 1 (by decide)) [Schedule.forgottenTask 0 (by decide)]
      [Schedule.forgottenTask 2 (by decide)] (by decide) (by decide) aged unasked rfl (by decide)
    rcases second with ⟨_, ⟨final, reconciled⟩, dispatched⟩
    refine ⟨final, reconciled, ?_⟩
    intro queued
    exact absurd ((dispatched final reconciled).mp queued) (by decide)
  · have third := @stuck_dispatched_iff Plain _ 100 10 2 3 Schedule.forgotten
      (Schedule.forgottenTask 2 (by decide))
      [Schedule.forgottenTask 0 (by decide), Schedule.forgottenTask 1 (by decide)] []
      (by decide) (by decide) aged unasked rfl (by decide)
    rcases third with ⟨_, ⟨final, reconciled⟩, dispatched⟩
    exact ⟨final, reconciled, (dispatched final reconciled).mpr (by decide)⟩

end WorkflowEngine
