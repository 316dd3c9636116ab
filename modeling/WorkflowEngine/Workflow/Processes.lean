import WorkflowEngine.Workflow.Actionable

/-!
# The processes of the engine

The invariant of the whole system and its proof for every schedule: a step of any
call advances the runs of the committed database by at most one step, and every
frame of every call in progress stays able to go on.
-/

namespace WorkflowEngine

open DocStore

variable {Val : Type} [Mixed Val]

/-- The tasks that the step of this frame may take for RUNNING. -/
def Frame.missed : Frame Val → TaskId → Bool
  | .callback _ snapshot => snapshot.sawRunning
  | _ => fun _ => false

/-- What `startTask` gave a worker is right, and no decision was refused because its
task no longer waits. -/
def Reply.Ok (db : Db Val) : Reply Val → Prop
  | .startTask taskId (some started) => taskId = started.task.id ∧ started.Ok db
  | .threw thrown => thrown ≠ .approvalNotActionable
  | _ => True

/-- What one step of a frame does. -/
structure Frame.Stepped (frame : Frame Val) (db : Db Val) (outcome : Outcome Val)
    (label : Option (Reply Val)) : Prop where
  replies : outcome.replies = label.toList
  advances : Db.Advances frame.missed label db outcome.db
  next : ∀ frame ∈ outcome.next, frame.Ok outcome.db
  reply : label.elim True fun reply => reply.Ok outcome.db

namespace Frame

variable {env : Env} {db : Db Val} {outcome : Outcome Val} {frame : Frame Val}

theorem ok_nil : ∀ frame ∈ ([] : List (Frame Val)), frame.Ok db :=
  fun _ membership => absurd membership List.not_mem_nil

theorem ok_singleton {frame : Frame Val} (ok : frame.Ok db) : ∀ other ∈ [frame], other.Ok db :=
  fun _ membership => List.mem_singleton.mp membership ▸ ok

theorem ok_map {α : Type} {found : List α} {frameOf : α → Frame Val}
    (ok : ∀ item, (frameOf item).Ok db) : ∀ frame ∈ found.map frameOf, frame.Ok db := by
  intro frame membership
  rcases List.mem_map.mp membership with ⟨item, _, rfl⟩
  exact ok item

/-- A step that leaves the database alone. -/
theorem Stepped.read {next : List (Frame Val)} (label : Option (Reply Val)) (inv : db.Inv)
    (idle : label.bind Reply.target = none) (ok : ∀ frame ∈ next, frame.Ok db)
    (reply : label.elim True fun reply => reply.Ok db) :
    Stepped frame db ⟨db, next, label.toList⟩ label :=
  ⟨rfl, .unchanged inv idle, ok, reply⟩

theorem ok_of_after (reply : Reply Val) : ∀ frame ∈ reply.after, frame.Ok db := by
  unfold Reply.after
  split
  · exact ok_singleton trivial
  · exact ok_singleton trivial
  · exact ok_singleton trivial
  · exact ok_singleton trivial
  · split
    · exact ok_singleton trivial
    · exact ok_nil
  · exact ok_nil

theorem callback_stepped {op : Op Val} {snapshot : Db Val} (inv : db.Inv)
    (ok : (Frame.callback op snapshot).Ok db)
    (ran : (Frame.callback op snapshot).step env db = .ok outcome) :
    ∃ label, Stepped (.callback op snapshot) db outcome label := by
  rcases Session.ok_of_bind ran with ⟨⟨reply, view⟩, returned, rest⟩
  simp only at rest
  cases committed : db.commit snapshot view with
  | none =>
      rw [committed] at rest
      cases rest
      exact ⟨none, .read none inv rfl (ok_singleton trivial) trivial⟩
  | some next =>
      rw [committed] at rest
      cases rest
      refine ⟨some reply, rfl, Db.commit_advances ok.1 inv ok.2 returned committed,
        ok_of_after reply, ?_⟩
      cases op <;> rcases Session.bind_eq_ok.mp returned with ⟨_, _, _, replied⟩ <;>
        rcases Session.pure_eq_ok.mp replied with ⟨rfl, _⟩ <;> trivial

theorem startTask_stepped {taskId : TaskId} {workerId : String} (inv : db.Inv)
    (ran : (Frame.startTask taskId workerId).step env db = .ok outcome) :
    ∃ label, Stepped (.startTask taskId workerId) db outcome label := by
  rcases Session.ok_of_bind ran with ⟨⟨claimed, final⟩, returned, rest⟩
  simp only at rest
  rcases @Db.claimTask_advances _ _ _ _ _ (fun _ => false) _ _ _ inv returned with
    ⟨rfl, rfl⟩ | ⟨task, taskMem, _, free, rfl, claimedMem, advances⟩
  · cases rest
    exact ⟨_, .read (some (.startTask taskId none)) inv rfl ok_nil trivial⟩
  · simp only at rest
    cases rest
    have claimedOk : Claimed final ((claim workerId env.leaseMs env.now).set task) := by
      rcases advances.inv.exists_run claimedMem with ⟨execution, executionMem, home, inRun⟩
      have runInv := advances.inv.runInv executionMem
      refine ⟨⟨_, claimedMem, .refl _⟩, (runInv.ok _ inRun).attempt, Nat.succ_pos _, ?_⟩
      intro dep isDep
      have running : ((claim workerId env.leaseMs env.now).set task).status = .running := rfl
      have done := runInv.ordered.enabled _ inRun (running ▸ TaskStatus.noConfusion)
        (running ▸ TaskStatus.noConfusion) dep isDep
      rcases Run.missing_eq_false.mp done with ⟨parent, parentMem, parentKey, completed⟩
      have parentRun := Db.mem_runOf_tasks.mp parentMem
      refine ⟨parent, parentRun.1, ?_, completed⟩
      rw [Task.id, parentRun.2, home, parentKey]
    refine ⟨_, rfl, advances, ?_, trivial⟩
    intro frame membership
    simp only [List.mem_cons, List.not_mem_nil, or_false] at membership
    rcases membership with rfl | rfl | rfl | rfl <;> exact claimedOk

theorem gatherParents_started {task : Task Val} {input : Val} (inv : db.Inv)
    (ok : (Frame.gatherParents task input).Ok db) :
    Started.Ok db ⟨task, input, (db.tasks.find fun parent =>
      decide (parent.executionId = task.executionId) && decide (parent.key ∈ task.dependsOn)).map
        fun parent => (parent.key, parent.output)⟩ := by
  rcases ok with ⟨claimed, budget, isInput⟩
  have found : ∀ parent, parent ∈ db.tasks.find (fun parent =>
      decide (parent.executionId = task.executionId) && decide (parent.key ∈ task.dependsOn)) ↔
        parent ∈ db.tasks.values ∧ parent.executionId = task.executionId ∧
          parent.key ∈ task.dependsOn := by
    intro parent
    simp [Collection.find]
  have completed : ∀ parent ∈ db.tasks.values, parent.executionId = task.executionId →
      parent.key ∈ task.dependsOn → parent.status = .completed := by
    intro parent parentMem home isDep
    rcases claimed.enabled parent.key isDep with ⟨other, otherMem, otherId, done⟩
    have same : other = parent :=
      inv.task_eq_of_id otherMem parentMem (otherId.trans (by rw [Task.id, home]))
    exact same ▸ done
  rcases claimed.current with ⟨now, nowMem, evolves⟩
  rcases inv.exists_run nowMem with ⟨execution, executionMem, home, inRun⟩
  have graph := (inv.runInv executionMem).graph
  have deps : now.dependsOn = task.dependsOn := congrArg TaskShape.dependsOn evolves.shape
  have nowHome : now.executionId = task.executionId :=
    congrArg TaskShape.executionId evolves.shape
  refine ⟨claimed, budget, isInput, ?_, ?_⟩
  · simp only [List.map_map]
    refine (List.perm_ext_iff_of_nodup ?_ ?_).mpr ?_
    · -- the parents are documents of one run, where keys are distinct
      have keys : (db.tasks.find fun parent => decide (parent.executionId = task.executionId) &&
          decide (parent.key ∈ task.dependsOn)) =
            (db.runOf execution).tasks.filter fun parent =>
              decide (parent.key ∈ task.dependsOn) := by
        rw [Collection.find, Db.runOf, List.filter_filter, home, nowHome]
        apply List.filter_congr
        intro parent _
        rw [Bool.and_comm]
        rfl
      rw [keys]
      exact (graph.tasks_nodup).sublist ((List.filter_sublist).map _)
    · rw [← deps]
      exact graph.deps_nodup now.shape (Run.shape_mem inRun)
    · intro key
      constructor
      · intro membership
        rcases List.mem_map.mp membership with ⟨parent, parentMem, rfl⟩
        exact ((found parent).mp parentMem).2.2
      · intro isDep
        rcases claimed.enabled key isDep with ⟨parent, parentMem, parentId, _⟩
        have parentKey : parent.key = key := congrArg TaskId.key parentId
        refine List.mem_map.mpr ⟨parent, (found parent).mpr ⟨parentMem, ?_, ?_⟩, parentKey⟩
        · exact congrArg TaskId.executionId parentId
        · exact parentKey ▸ isDep
  · intro entry membership
    rcases List.mem_map.mp membership with ⟨parent, parentMem, rfl⟩
    rcases (found parent).mp parentMem with ⟨inDb, parentHome, isDep⟩
    refine ⟨parent, inDb, ?_, completed parent inDb parentHome isDep, rfl⟩
    rw [Task.id, parentHome]

/-- One step of any frame. -/
theorem stepped (inv : db.Inv) (ok : frame.Ok db) (ran : frame.step env db = .ok outcome) :
    ∃ label, frame.Stepped db outcome label := by
  cases frame with
  | callback op snapshot => exact callback_stepped inv ok ran
  | startTask taskId workerId => exact startTask_stepped inv ran
  | transaction op =>
      cases ran
      exact ⟨_, .read none inv rfl (ok_singleton ⟨inv, .refl db⟩) trivial⟩
  | renewLease taskId leaseToken =>
      rcases Session.ok_of_bind ran with ⟨⟨renewed, final⟩, returned, rest⟩
      cases rest
      exact ⟨_, rfl, Db.renewTaskLease_advances inv returned, ok_nil, trivial⟩
  | dispatchReady executionId =>
      simp only [step] at ran
      split at ran
      · cases ran
        refine ⟨_, .read none inv rfl ?_ trivial⟩
        split
        · exact ok_singleton trivial
        · exact ok_nil
      · cases ran
        exact ⟨_, .read none inv rfl ok_nil trivial⟩
  | findReady executionId =>
      cases ran
      exact ⟨_, .read none inv rfl (ok_map fun _ => trivial) trivial⟩
  | dispatchTask taskId =>
      rcases Session.ok_of_bind ran with ⟨⟨won, final⟩, returned, rest⟩
      cases rest
      refine ⟨_, rfl, Db.dispatchTask_advances inv returned, ?_, trivial⟩
      cases won with
      | false => exact ok_nil
      | true => exact ok_singleton trivial
  | enqueue taskId =>
      cases ran
      exact ⟨_, .read (some _) inv rfl ok_nil trivial⟩
  | enqueueDelayed taskId delayMs =>
      cases ran
      exact ⟨_, .read (some _) inv rfl ok_nil trivial⟩
  | abandonAttempts task =>
      rcases Session.ok_of_bind ran with ⟨⟨modified, final⟩, returned, rest⟩
      cases rest
      have keyed := (Session.Preserves.updateMany : KeepsKeyed
        (Session.updateMany (abandonment task env.now) : Txn Val Nat)).final inv.keyed returned
      rw [Session.run_updateMany, set_attempts] at returned
      cases returned
      exact ⟨none, rfl, Db.advances_same inv keyed (Db.grows_patch _ _) (Db.patch_executions rfl rfl)
        (Db.patch_tasks rfl rfl) (Collection.rewrite_nil_nil _) (Collection.rewrite_nil_nil _),
        ok_nil, trivial⟩
  | recordAttempt task workerId =>
      rcases Session.ok_of_bind ran with ⟨⟨created, final⟩, returned, rest⟩
      cases rest
      have keyed := (Session.Preserves.create (by simp) : KeepsKeyed
        (Session.create .duplicateKey (newAttempt task workerId env.now) : Txn Val Unit)).final
        inv.keyed returned
      rcases Session.create_eq_ok.mp returned with ⟨_, rfl⟩
      rw [set_newAttempt] at keyed ⊢
      exact ⟨none, rfl, Db.advances_same inv keyed (Db.grows_patch _ _) (Db.patch_executions rfl rfl)
        (Db.patch_tasks rfl rfl) (Collection.rewrite_nil_nil _) (Collection.rewrite_nil_nil _),
        ok_nil, trivial⟩
  | announce task workerId =>
      rcases Session.ok_of_bind ran with ⟨⟨announced, final⟩, returned, rest⟩
      cases rest
      exact ⟨none, rfl, Db.announce_advances inv ok returned, ok_nil, trivial⟩
  | checkBudget task =>
      simp only [step] at ran
      split at ran
      · cases ran
        refine ⟨none, .read none inv rfl ?_ trivial⟩
        intro frame membership
        simp only [List.mem_cons, List.not_mem_nil, or_false] at membership
        rcases membership with rfl | rfl <;> trivial
      · next inBudget =>
        cases ran
        exact ⟨_, .read none inv rfl (ok_singleton ⟨ok, Nat.le_of_not_lt inBudget⟩) trivial⟩
  | refuse taskId =>
      cases ran
      exact ⟨_, .read (some (.startTask taskId none)) inv rfl ok_nil trivial⟩
  | gatherInput task =>
      cases ran
      refine ⟨_, .read none inv rfl (ok_singleton ⟨ok.1, ok.2, ?_⟩) trivial⟩
      rcases ok.1.current with ⟨now, nowMem, evolves⟩
      rcases inv.exists_run nowMem with ⟨execution, executionMem, home, _⟩
      have same : execution.id = task.executionId :=
        home.trans (congrArg TaskShape.executionId evolves.shape)
      have found : db.executions.findById task.executionId = some execution :=
        (Collection.findById_eq_some inv.keyed.executions).mpr ⟨executionMem, same⟩
      rw [found]
      exact ⟨execution, executionMem, same, rfl⟩
  | gatherParents task input =>
      cases ran
      exact ⟨_, .read (some _) inv rfl ok_nil ⟨rfl, gatherParents_started inv ok⟩⟩
  | reconcile staleMs limit =>
      cases ran
      refine ⟨_, .read none inv rfl ?_ trivial⟩
      intro frame membership
      simp only [List.mem_cons, List.not_mem_nil, or_false] at membership
      rcases membership with rfl | rfl | rfl | rfl | rfl <;> trivial
  | sweepReady cutoff limit =>
      cases ran
      exact ⟨_, .read none inv rfl (ok_singleton trivial) trivial⟩
  | redispatch stuck statusOf =>
      cases stuck with
      | nil =>
          cases ran
          exact ⟨_, .read none inv rfl ok_nil trivial⟩
      | cons taskId rest =>
          simp only [step] at ran
          split at ran
          · cases ran
            exact ⟨_, .read none inv rfl (ok_singleton trivial) trivial⟩
          · split at ran
            · cases ran
              refine ⟨none, .read none inv rfl ?_ trivial⟩
              intro frame membership
              simp only [List.mem_cons, List.not_mem_nil, or_false] at membership
              rcases membership with rfl | rfl <;> trivial
            · cases ran
              exact ⟨_, .read none inv rfl (ok_singleton trivial) trivial⟩
  | sweepQueued cutoff limit =>
      cases ran
      exact ⟨_, .read none inv rfl (ok_map fun _ => trivial) trivial⟩
  | sweepRunning limit =>
      cases ran
      exact ⟨_, .read none inv rfl (ok_map fun _ => trivial) trivial⟩
  | sweepRetrying cutoff limit =>
      cases ran
      exact ⟨_, .read none inv rfl (ok_map fun _ => trivial) trivial⟩
  | sweepApprovals limit =>
      cases ran
      exact ⟨_, .read none inv rfl (ok_map fun _ => trivial) trivial⟩
  | expire approvalId =>
      cases ran
      exact ⟨_, .read none inv rfl (ok_singleton trivial) trivial⟩

end Frame

theorem Reply.Ok.later {db newer : Db Val} (inv : db.Inv) (since : Db.Since db newer)
    {reply : Reply Val} (ok : reply.Ok db) : reply.Ok newer := by
  unfold Reply.Ok at ok ⊢
  split
  · exact ⟨ok.1, ok.2.later inv since⟩
  · exact ok
  · trivial

/-! ## The whole system -/

namespace Sys

/-- The frame that an action steps. -/
def frame? (sys : Sys Val) : Action Val → Option (Frame Val)
  | .advance call _ => sys.calls[call]?.bind List.head?
  | _ => none

/-- The tasks that an action may take for RUNNING. -/
def missed (sys : Sys Val) (action : Action Val) (taskId : TaskId) : Bool :=
  (sys.frame? action).any fun frame => frame.missed taskId

structure Inv (sys : Sys Val) : Prop where
  db : sys.db.Inv
  frames : ∀ stack ∈ sys.calls, ∀ frame ∈ stack, frame.Ok sys.db
  replies : ∀ reply ∈ sys.log, reply.Ok sys.db

theorem inv_init : Inv (init : Sys Val) :=
  ⟨Db.inv_empty, fun _ membership => absurd membership List.not_mem_nil,
    fun _ membership => absurd membership List.not_mem_nil⟩

/-- The calls when one of them goes on as `stack`. -/
private theorem frames_set {db : Db Val} {calls : List (List (Frame Val))} {call : Nat}
    {stack : List (Frame Val)} (before : ∀ other ∈ calls, ∀ frame ∈ other, frame.Ok db)
    (ok : ∀ frame ∈ stack, frame.Ok db) :
    ∀ other ∈ calls.set call stack, ∀ frame ∈ other, frame.Ok db := by
  intro other membership
  rcases List.mem_or_eq_of_mem_set membership with old | rfl
  · exact before other old
  · exact ok

/-- What a step of the system does. -/
inductive Took (sys : Sys Val) : Action Val → Sys Val → Prop where
  | invoke {frame : Frame Val} :
      frame.isCall = true →
      Took sys (.invoke frame) { sys with calls := sys.calls ++ [[frame]] }
  | crash {call : Nat} :
      Took sys (.crash call) { sys with calls := sys.calls.set call [] }
  | ran {call : Nat} {env : Env} {frame : Frame Val} {rest : List (Frame Val)}
      {outcome : Outcome Val} :
      sys.calls[call]? = some (frame :: rest) → frame.step env sys.db = .ok outcome →
      Took sys (.advance call env)
        { db := outcome.db
          calls := sys.calls.set call (outcome.next ++ rest)
          log := outcome.replies ++ sys.log }
  | threw {call : Nat} {env : Env} {frame : Frame Val} {rest : List (Frame Val)}
      {thrown : EngineError} :
      sys.calls[call]? = some (frame :: rest) → frame.step env sys.db = .error thrown →
      Took sys (.advance call env)
        { sys with calls := sys.calls.set call (unwind rest), log := .threw thrown :: sys.log }

theorem took_of_step {sys next : Sys Val} {action : Action Val}
    (taken : sys.step action = some next) : sys.Took action next := by
  cases action with
  | invoke frame =>
      simp only [Sys.step] at taken
      split at taken
      · next isCall =>
        cases taken
        exact .invoke isCall
      · cases taken
  | crash call =>
      cases taken
      exact .crash
  | advance call env =>
      simp only [Sys.step] at taken
      split at taken
      · next found =>
        split at taken
        · next ran =>
          cases taken
          exact .ran found ran
        · next threw =>
          cases taken
          exact .threw found threw
      · cases taken

/-- What holds of every frame of every call. -/
theorem Took.frames {sys next : Sys Val} {action : Action Val} {holds : Frame Val → Prop}
    (took : sys.Took action next)
    (kept : ∀ stack ∈ sys.calls, ∀ frame ∈ stack, holds frame)
    (invoked : ∀ frame, action = .invoke frame → frame.isCall = true → holds frame)
    (ran : ∀ call env frame rest outcome, action = .advance call env →
      sys.calls[call]? = some (frame :: rest) → frame.step env sys.db = .ok outcome →
        next.db = outcome.db → ∀ later ∈ outcome.next, holds later) :
    ∀ stack ∈ next.calls, ∀ frame ∈ stack, holds frame := by
  cases took with
  | invoke isCall =>
      intro stack membership frame frameMem
      rcases List.mem_append.mp membership with old | new
      · exact kept stack old frame frameMem
      · rw [List.mem_singleton.mp new] at frameMem
        rw [List.mem_singleton.mp frameMem]
        exact invoked _ rfl isCall
  | crash =>
      intro stack membership frame frameMem
      rcases List.mem_or_eq_of_mem_set membership with old | rfl
      · exact kept stack old frame frameMem
      · cases frameMem
  | @ran call env frame rest outcome found ran' =>
      intro stack membership later laterMem
      rcases List.mem_or_eq_of_mem_set membership with old | rfl
      · exact kept stack old later laterMem
      · rcases List.mem_append.mp laterMem with isNext | isRest
        · exact ran call env frame rest outcome rfl found ran' rfl later isNext
        · exact kept _ (List.mem_of_getElem? found) later (List.mem_cons_of_mem _ isRest)
  | @threw call env frame rest thrown found threw =>
      intro stack membership later laterMem
      rcases List.mem_or_eq_of_mem_set membership with old | rfl
      · exact kept stack old later laterMem
      · exact kept _ (List.mem_of_getElem? found) later
          (List.mem_cons_of_mem _ ((List.dropWhile_sublist _).mem laterMem))

omit [Mixed Val] in
theorem frame?_eq {sys : Sys Val} {call : Nat} {env : Env} {frame : Frame Val}
    {rest : List (Frame Val)} (found : sys.calls[call]? = some (frame :: rest)) :
    sys.frame? (.advance call env) = some frame := by
  rw [frame?, found]
  rfl

omit [Mixed Val] in
/-- The stepped frame is the top of a stack. -/
theorem frame?_top {sys : Sys Val} {action : Action Val} {frame : Frame Val}
    (isFrame : sys.frame? action = some frame) : ∃ rest, frame :: rest ∈ sys.calls := by
  unfold frame? at isFrame
  split at isFrame
  · rcases Option.bind_eq_some_iff.mp isFrame with ⟨stack, found, isHead⟩
    cases stack with
    | nil => cases isHead
    | cons top rest =>
        cases isHead
        exact ⟨rest, List.mem_of_getElem? found⟩
  · cases isFrame

omit [Mixed Val] in
theorem missed_eq {sys : Sys Val} {call : Nat} {env : Env} {frame : Frame Val}
    {rest : List (Frame Val)} (found : sys.calls[call]? = some (frame :: rest)) :
    sys.missed (.advance call env) = frame.missed := by
  funext taskId
  rw [missed, frame?_eq found, Option.any_some]

/-- A step of the system, with what it adds to the log. -/
structure Stepped (sys : Sys Val) (action : Action Val) (next : Sys Val)
    (label : Option (Reply Val)) : Prop where
  inv : sys.Inv
  took : sys.Took action next
  later : next.Inv
  log : next.log = label.toList ++ sys.log
  advances : Db.Advances (sys.missed action) label sys.db next.db

/-- A step of the system advances the runs by at most one step, which the log
records. -/
theorem Inv.stepped {sys next : Sys Val} {action : Action Val} (inv : sys.Inv)
    (taken : sys.step action = some next) :
    ∃ label : Option (Reply Val), sys.Stepped action next label := by
  have took := took_of_step taken
  cases took with
  | invoke isCall =>
      refine ⟨none, inv, .invoke isCall, ⟨inv.db, ?_, inv.replies⟩, rfl, .unchanged inv.db rfl⟩
      intro stack membership
      rcases List.mem_append.mp membership with old | new
      · exact inv.frames stack old
      · rw [List.mem_singleton.mp new]
        apply Frame.ok_singleton
        rename_i frame
        cases frame <;> trivial
  | crash =>
      exact ⟨none, inv, .crash, ⟨inv.db, frames_set inv.frames Frame.ok_nil, inv.replies⟩, rfl,
        .unchanged inv.db rfl⟩
  | @ran call env frame rest outcome found ran =>
      have stackOk := inv.frames _ (List.mem_of_getElem? found)
      rcases Frame.stepped inv.db (stackOk frame List.mem_cons_self) ran with ⟨label, stepped⟩
      have since := stepped.advances.since
      refine ⟨label, inv, .ran found ran, ⟨stepped.advances.inv, frames_set ?_ ?_, ?_⟩, ?_, ?_⟩
      · exact fun stack membership other otherMem =>
          (inv.frames stack membership other otherMem).later inv.db since
      · intro other membership
        rcases List.mem_append.mp membership with isNext | isRest
        · exact stepped.next other isNext
        · exact (stackOk other (List.mem_cons_of_mem _ isRest)).later inv.db since
      · intro reply membership
        rcases List.mem_append.mp membership with new | old
        · rw [stepped.replies] at new
          cases label with
          | none => cases new
          | some label =>
              rw [Option.toList_some, List.mem_singleton] at new
              exact new ▸ stepped.reply
        · exact (inv.replies reply old).later inv.db since
      · rw [stepped.replies]
      · rw [missed_eq found]
        exact stepped.advances
  | @threw call env frame rest thrown found threw =>
      have stackOk := inv.frames _ (List.mem_of_getElem? found)
      refine ⟨some (.threw thrown), inv, .threw found threw,
        ⟨inv.db, frames_set inv.frames ?_, ?_⟩, rfl, .unchanged inv.db rfl⟩
      · intro other membership
        exact stackOk other (List.mem_cons_of_mem _ ((List.dropWhile_sublist _).mem membership))
      · intro reply membership
        rcases List.mem_cons.mp membership with rfl | old
        · rintro rfl
          exact Frame.step_actionable inv.db (stackOk frame List.mem_cons_self) threw
        · exact inv.replies reply old

/-- What a step makes of a task.  The label of a step that moves a task names no other
run. -/
theorem Stepped.moves {sys next : Sys Val} {action : Action Val} {label : Option (Reply Val)}
    (stepped : sys.Stepped action next label) {task : Task Val}
    (membership : task ∈ sys.db.tasks.values) :
    ∃ later ∈ next.db.tasks.values, later.id = task.id ∧
      (later = task ∧ label.bind Reply.target ≠ some task.executionId ∨
        Task.Moves label task later ∧ ∀ executionId,
          label.bind Reply.target = some executionId → executionId = task.executionId) := by
  have inv := stepped.inv.db
  rcases inv.exists_run membership with ⟨execution, executionMem, home, inRun⟩
  rcases stepped.advances.forward inv executionMem with ⟨later, _, _, ⟨unnamed, same⟩ | ran⟩
  · rw [← same] at inRun
    exact ⟨task, (Db.mem_runOf_tasks.mp inRun).1, rfl, .inl ⟨rfl, home ▸ unnamed⟩⟩
  · have graph := (inv.runInv executionMem).graph
    rcases ran.moves graph.tasks_nodup with ⟨image, tasks, moves⟩
    have imageMem : image task ∈ (next.db.runOf later).tasks := by
      rw [tasks]
      exact List.mem_map_of_mem inRun
    have moved := moves task inRun
    refine ⟨image task, (Db.mem_runOf_tasks.mp imageMem).1, moved.evolves.id_eq,
      .inr ⟨moved, ?_⟩⟩
    intro executionId named
    exact (ran.target graph.task_home named).trans home

/-- Where a task of the next state comes from. -/
theorem Stepped.origin {sys next : Sys Val} {action : Action Val} {label : Option (Reply Val)}
    (stepped : sys.Stepped action next label) {task : Task Val}
    (membership : task ∈ next.db.tasks.values) :
    (∃ source ∈ sys.db.tasks.values, source.id = task.id ∧
      (source = task ∨ Task.Moves label source task)) ∨
      ∃ (env : Env) (params : StartParams Val), task ∈ (Run.start env params).tasks := by
  rcases stepped.later.db.exists_run membership with ⟨execution, executionMem, _, inRun⟩
  have advanced := stepped.advances.runs execution executionMem
  generalize next.db.runOf execution = run at advanced inRun
  cases advanced with
  | same => exact .inl ⟨task, (Db.mem_runOf_tasks.mp inRun).1, rfl, .inl rfl⟩
  | step member ran =>
      have graph := (stepped.inv.db.runInv member).graph
      rcases ran.moves graph.tasks_nodup with ⟨image, tasks, moves⟩
      rw [tasks] at inRun
      rcases List.mem_map.mp inRun with ⟨source, sourceMem, rfl⟩
      have moved := moves source sourceMem
      exact .inl ⟨source, (Db.mem_runOf_tasks.mp sourceMem).1, moved.evolves.id_eq.symm,
        .inr moved⟩
  | start => exact .inr ⟨_, _, inRun⟩

/-- Databases of reachable states are later versions of earlier ones. -/
theorem since_of_leads {sys later : Sys Val} (leads : (engineSystem Val).Leads sys later)
    (inv : sys.Inv) : later.Inv ∧ Db.Since sys.db later.db := by
  induction leads with
  | refl => exact ⟨inv, .refl sys.db⟩
  | tail _ taken ih =>
      rcases taken with ⟨_, taken⟩
      rcases ih.1.stepped taken with ⟨_, stepped⟩
      exact ⟨stepped.later, ih.2.trans stepped.advances.since⟩

/-- The invariant holds in every state the engine's processes can reach. -/
theorem inv_of_reachableBy {allowed : Sys Val → Action Val → Prop} {sys : Sys Val}
    (reachable : (engineSystem Val).ReachableBy allowed sys) : sys.Inv := by
  refine reachable.invariant inv_init ?_
  intro state action next inv _ taken
  rcases inv.stepped taken with ⟨_, stepped⟩
  exact stepped.later

end Sys

end WorkflowEngine
