import WorkflowEngine.Services.Inserts
import Mathlib.Data.Fintype.EquivFin

/-!
# Requests for a run are answered

Unless its process or that of its call stops, a request for a run can always be answered
by steps of its own: its operations, and the steps of its call of the engine.
-/

namespace WorkflowEngine

open DocStore

variable {Val : Type} [Mixed Val]

namespace Platform

variable [ToJson Val] {deployment : Deployment}

/-- Steps of one request alone: its operations, and those of its call of the engine. -/
inductive Alone (deployment : Deployment) (index : Nat) : Platform Val → Platform Val → Prop where
  | refl {platform : Platform Val} : Alone deployment index platform platform
  | perform {platform next final : Platform Val} {env : Env} :
      step deployment platform (.perform index env) = some next →
      Alone deployment index next final → Alone deployment index platform final
  | advance {platform next final : Platform Val} {job : Job Val} {call : Nat} {env : Env} :
      platform.jobs[index]? = some job → job.call? = some call →
      step deployment platform (.advance call env) = some next →
      Alone deployment index next final → Alone deployment index platform final

/-- Steps of its own can answer the request. -/
def Answerable (deployment : Deployment) (platform : Platform Val) (index : Nat)
    (request : Request Val) : Prop :=
  ∃ final answer, Alone deployment index platform final ∧
    final.log = ⟨request, answer⟩ :: platform.log

variable {platform next : Platform Val} {versions : Versions Val} {index : Nat}
  {request : Request Val}

theorem Answerable.of_perform {env : Env}
    (taken : step deployment platform (.perform index env) = some next)
    (log : next.log = platform.log) (answerable : next.Answerable deployment index request) :
    platform.Answerable deployment index request := by
  rcases answerable with ⟨final, answer, alone, answered⟩
  exact ⟨final, answer, .perform taken alone, log ▸ answered⟩

theorem Answerable.of_advance {job : Job Val} {call : Nat} {env : Env}
    (found : platform.jobs[index]? = some job) (waits : job.call? = some call)
    (taken : step deployment platform (.advance call env) = some next)
    (log : next.log = platform.log) (answerable : next.Answerable deployment index request) :
    platform.Answerable deployment index request := by
  rcases answerable with ⟨final, answer, alone, answered⟩
  exact ⟨final, answer, .advance found waits taken alone, log ▸ answered⟩

/-! ## Operations -/

/-- What a step draws that generates these ids. -/
def drawing (objectId uuid : Nat) : Env :=
  { now := 0, leaseMs := 0, objectId, randomUUID := fun _ => uuid, backoff := fun _ _ => 0
    redisUp := true }

theorem exists_fresh (taken : List Nat) : ∃ fresh, fresh ∉ taken := by
  rcases Infinite.exists_notMem_finset taken.toFinset with ⟨fresh, absent⟩
  exact ⟨fresh, fun present => absent (List.mem_toFinset.mpr present)⟩

/-- A job can always perform its next operation. -/
theorem perform_enabled {operation : Operation Val}
    (found : platform.jobs[index]? = some ⟨request, .ready operation⟩) :
    ∃ env workflows goal, env.objectId ∉ platform.workflows.ids ∧
      perform deployment env platform.now platform.workflows platform.sys.db platform.log.length
        operation = (workflows, goal) ∧
      step deployment platform (.perform index env) = some
        { platform with
          sys := goal.calling platform.sys
          workflows
          jobs := platform.jobs.set index ⟨request, goal.state platform.sys.calls.length⟩
          log := goal.answered request ++ platform.log } := by
  rcases exists_fresh platform.workflows.ids with ⟨objectId, fresh⟩
  generalize performed : perform deployment (drawing objectId 0) platform.now platform.workflows
    platform.sys.db platform.log.length operation = result
  rcases result with ⟨workflows, goal⟩
  refine ⟨drawing objectId 0, workflows, goal, fresh, performed, ?_⟩
  simp only [step, found, performed]
  exact (if_neg fun present => fresh (List.contains_iff_mem.mp present)).trans settle_eq

theorem answerable_of_findExisting {user : User} {workflowId : ObjectId} {input : Val}
    {key : IdempotencyKey}
    (found : platform.jobs[index]? =
      some ⟨request, .ready (.findExisting user workflowId input key)⟩) :
    platform.Answerable deployment index request := by
  have enabled : ∃ env workflows goal, env.objectId ∉ platform.workflows.ids ∧
      perform deployment env platform.now platform.workflows platform.sys.db platform.log.length
        (.findExisting user workflowId input key) = (workflows, goal) ∧
      step deployment platform (.perform index env) = some
        { platform with
          sys := goal.calling platform.sys
          workflows
          jobs := platform.jobs.set index ⟨request, goal.state platform.sys.calls.length⟩
          log := goal.answered request ++ platform.log } := perform_enabled found
  rcases enabled with ⟨env, workflows, goal, _, performed, taken⟩
  have answers : ∃ answer, goal = .answer answer := by
    simp only [perform] at performed
    split at performed
    · split at performed <;> cases performed <;> exact ⟨_, rfl⟩
    · cases performed
      exact ⟨_, rfl⟩
  rcases answers with ⟨answer, rfl⟩
  exact ⟨_, answer, .perform taken .refl, rfl⟩

omit [Mixed Val] [ToJson Val] in
/-- The only operation left after the call. -/
theorem resume_run_operation {user : User} {workflowId : ObjectId} {input : Val}
    {key : Option IdempotencyKey} {reply : Reply Val} {operation : Operation Val}
    (goes : (Waiting.run user workflowId input key).resume reply = .operation operation) :
    ∃ given, operation = .findExisting user workflowId input given := by
  have refused : ∀ thrown : ServiceError, Waiting.refused user workflowId input key thrown =
      .operation operation → ∃ given, operation = .findExisting user workflowId input given := by
    intro thrown isRefused
    simp only [Waiting.refused] at isRefused
    split at isRefused
    · next given =>
      cases isRefused
      exact ⟨given, rfl⟩
    · cases isRefused
  cases reply with
  | startExecution => cases goes
  | threw thrown => exact refused _ goes
  | _ => exact refused (.engine .typeError) goes

/-! ## Steps of the call -/

/-- A request for a run waits for a call that has these steps ahead. -/
structure AwaitsRun (deployment : Deployment) (platform : Platform Val) (index : Nat)
    (request : Request Val) (call : Nat) (stack : List (Frame Val)) (reply : Option (Reply Val)) :
    Prop where
  inv : ∃ versions, platform.Inv deployment versions
  job : ∃ user workflowId input key, platform.jobs[index]? =
    some ⟨request, .waiting (.run user workflowId input key) call reply⟩
  isStack : platform.sys.calls[call]? = some stack

omit [Mixed Val] [ToJson Val] in
/-- A call can always draw new ids. -/
theorem drawsFresh_enabled (platform : Platform Val) (call : Nat) :
    ∃ env, platform.drawsFresh call env = true := by
  simp only [drawsFresh]
  split
  · next params snapshot rest isStack =>
    rcases exists_fresh snapshot.executions.ids with ⟨objectId, freshRun⟩
    rcases exists_fresh snapshot.outbox.ids with ⟨uuid, freshEvent⟩
    refine ⟨drawing objectId uuid, Bool.and_eq_true_iff.mpr ⟨?_, ?_⟩⟩
    · rw [Bool.not_eq_true', ← Bool.not_eq_true]
      exact fun present => freshRun (List.contains_iff_mem.mp present)
    · rw [Bool.not_eq_true', ← Bool.not_eq_true]
      exact fun present => freshEvent (List.contains_iff_mem.mp present)
  · exact ⟨drawing 0 0, rfl⟩

namespace AwaitsRun

variable {call : Nat} {stack : List (Frame Val)} {frame : Frame Val} {rest : List (Frame Val)}
  {before : Option (Reply Val)}

/-- The call performs a step and ends, or the request goes on waiting for it. -/
theorem advances (awaits : AwaitsRun deployment platform index request call (frame :: rest) before)
    (ends : ∀ env sys label, platform.sys.Stepped (.advance call env) sys label →
      sys.calls[call]? = some [] → ∃ reply, known label before = some reply)
    (waits : ∀ env sys label stack, platform.sys.Stepped (.advance call env) sys label →
      sys.calls[call]? = some stack → stack ≠ [] →
        AwaitsRun deployment (platform.advanced call sys) index request call stack
          (known label before) →
          (platform.advanced call sys).Answerable deployment index request) :
    platform.Answerable deployment index request := by
  rcases awaits with ⟨⟨versions, inv⟩, ⟨user, workflowId, input, key, found⟩, isStack⟩
  rcases drawsFresh_enabled platform call with ⟨env, fresh⟩
  have enabled : ∃ sys, platform.sys.step (.advance call env) = some sys := by
    simp only [Sys.step, isStack]
    split <;> exact ⟨_, rfl⟩
  rcases enabled with ⟨sys, ran⟩
  have taken : step deployment platform (.advance call env) =
      some (platform.advanced call sys) := by
    simp only [step, fresh, if_true, ran]
    rfl
  rcases inv.sys.stepped ran with ⟨label, stepped⟩
  have advanced : Advanced platform call sys label (platform.advanced call sys) :=
    advanced_cases inv.oneWaits stepped.log
  have later := (inv.advanced fresh stepped advanced).2
  have job := advanced_job stepped.log found
  rcases stepped.call_found isStack with ⟨stack, isLater⟩
  rw [isLater] at job
  cases stack with
  | nil =>
      rcases ends env sys label stepped isLater with ⟨reply, isKnown⟩
      have log := advanced_log inv.oneWaits stepped.log found isLater isKnown
      rw [isKnown] at job
      cases goes : (Waiting.run user workflowId input key).resume reply with
      | answer result =>
          rw [goes] at log
          exact ⟨_, result, .advance found rfl taken .refl, log⟩
      | operation operation =>
          rw [goes] at log
          apply Answerable.of_advance found rfl taken log
          rcases resume_run_operation goes with ⟨given, rfl⟩
          apply answerable_of_findExisting
          rw [job]
          show some (Job.mk request (((Waiting.run user workflowId input key).resume reply).state 0)) =
            _
          rw [goes]
          rfl
      | call => exact absurd goes Waiting.resume_ne_call
  | cons top rest =>
      have log : (platform.advanced call sys).log = platform.log := by
        generalize platform.advanced call sys = next at advanced
        cases advanced with
        | idle | pending => rfl
        | resumed _ ended => cases isLater.symm.trans ended
      apply Answerable.of_advance found rfl taken log
      apply waits env sys label (top :: rest) stepped isLater (List.cons_ne_nil _ _)
      exact ⟨⟨versions, later⟩, ⟨user, workflowId, input, key, job⟩, isLater⟩

end AwaitsRun

/-! ## After the commit -/

/-- A call with these steps ahead ends, and its request is answered. -/
def Ends (deployment : Deployment) (index : Nat) (request : Request Val) (call : Nat)
    (stack : List (Frame Val)) : Prop :=
  ∀ (platform : Platform Val) (reply : Reply Val),
    AwaitsRun deployment platform index request call stack (some reply) → stack ≠ [] →
      platform.Answerable deployment index request

namespace Ends

variable {call : Nat} {rest : List (Frame Val)}

/-- A step that dispatches tasks cannot throw, and the engine has replied before. -/
theorem cons {frame : Frame Val} (dispatches : frame.dispatches = true)
    (later : ∀ env db outcome, frame.step env db = .ok outcome →
      Ends deployment index request call (outcome.next ++ rest)) :
    Ends deployment index request call (frame :: rest) := by
  intro platform reply awaits _
  have replied : ∀ env sys label, platform.sys.Stepped (.advance call env) sys label →
      known label (some reply) = some reply := by
    intro env sys label stepped
    rcases awaits with ⟨⟨versions, inv⟩, ⟨_, _, _, _, found⟩, _⟩
    exact inv.replied stepped found
  apply awaits.advances
  · intro env sys label stepped _
    exact ⟨reply, replied env sys label stepped⟩
  · intro env sys label stack stepped isLater busy awaitsLater
    rw [replied env sys label stepped] at awaitsLater
    have inBounds : call < platform.sys.calls.length :=
      (List.getElem?_eq_some_iff.mp awaits.isStack).1
    cases stepped.took with
    | @ran _ _ _ _ outcome isTop ran =>
        cases awaits.isStack.symm.trans isTop
        cases isLater.symm.trans (List.getElem?_set_self inBounds)
        exact later env platform.sys.db outcome ran _ reply awaitsLater busy
    | threw isTop threw =>
        cases awaits.isStack.symm.trans isTop
        have total : ∃ outcome, frame.step env platform.sys.db = .ok outcome :=
          frame.dispatches_ok dispatches
        rcases total with ⟨outcome, ran⟩
        cases ran.symm.trans threw

theorem nil : Ends deployment index request call ([] : List (Frame Val)) :=
  fun _ _ _ busy => absurd rfl busy

theorem enqueue {taskId : TaskId} (ends : Ends deployment index request call rest) :
    Ends deployment index request call (.enqueue taskId :: rest) := by
  apply cons rfl
  intro env db outcome ran
  cases ran
  exact ends

theorem dispatchTask {taskId : TaskId} (ends : Ends deployment index request call rest) :
    Ends deployment index request call (.dispatchTask taskId :: rest) := by
  apply cons rfl
  intro env db outcome ran
  rcases Session.ok_of_bind ran with ⟨⟨won, _⟩, _, returned⟩
  cases returned
  cases won with
  | true => exact ends.enqueue
  | false => exact ends

theorem dispatchTasks (taskIds : List TaskId) (ends : Ends deployment index request call rest) :
    Ends deployment index request call (taskIds.map .dispatchTask ++ rest) := by
  induction taskIds with
  | nil => exact ends
  | cons taskId taskIds ih => exact ih.dispatchTask

theorem findReady {executionId : ExecutionId} (ends : Ends deployment index request call rest) :
    Ends deployment index request call (.findReady executionId :: rest) := by
  apply cons rfl
  intro env db outcome ran
  cases ran
  have all := ends.dispatchTasks ((db.tasks.find fun task =>
    decide (task.executionId = executionId) && decide (task.status = .ready)).map Task.id)
  rwa [List.map_map] at all

theorem dispatchReady {executionId : ExecutionId} (ends : Ends deployment index request call rest) :
    Ends deployment index request call (.dispatchReady executionId :: rest) := by
  apply cons rfl
  intro env db outcome ran
  simp only [Frame.step] at ran
  split at ran
  · cases ran
    simp only
    split
    · exact ends.findReady
    · exact ends
  · cases ran
    exact ends

/-- Whatever a call has left to do after its commit. -/
theorem of_dispatches {stack : List (Frame Val)}
    (dispatching : ∀ frame ∈ stack, frame.dispatches = true) :
    Ends deployment index request call stack := by
  induction stack with
  | nil => exact .nil
  | cons frame rest ih =>
      have ends := ih fun other membership => dispatching other (List.mem_cons_of_mem _ membership)
      have dispatches := dispatching frame List.mem_cons_self
      cases frame with
      | dispatchReady => exact ends.dispatchReady
      | findReady => exact ends.findReady
      | dispatchTask => exact ends.dispatchTask
      | enqueue => exact ends.enqueue
      | _ => cases dispatches

end Ends

/-! ## The transaction -/

namespace AwaitsRun

variable {call : Nat} {params : StartParams Val}

/-- The transaction of a start commits or throws, or it is retried. -/
theorem callback {snapshot : Db Val}
    (awaits : AwaitsRun deployment platform index request call
      [.callback (.startExecution params) snapshot] none)
    (retried : ∀ env, (Frame.callback (.startExecution params) snapshot).step env platform.sys.db =
      .ok ⟨platform.sys.db, [.transaction (.startExecution params)], []⟩ → ∀ next,
        AwaitsRun deployment next index request call [.transaction (.startExecution params)] none →
          next.Answerable deployment index request) :
    platform.Answerable deployment index request := by
  have inBounds : call < platform.sys.calls.length :=
    (List.getElem?_eq_some_iff.mp awaits.isStack).1
  apply awaits.advances
  · intro env sys label stepped ended
    have log := stepped.log
    cases stepped.took with
    | @ran _ _ _ _ outcome isTop ran =>
        cases awaits.isStack.symm.trans isTop
        have empty := ended.symm.trans (List.getElem?_set_self inBounds)
        rcases Frame.callback_cases ran with ⟨reply, view, returned, isNext, _⟩ | rfl
        · rcases Session.bind_eq_ok.mp returned with ⟨_, _, _, replied⟩
          rcases Session.pure_eq_ok.mp replied with ⟨rfl, _⟩
          rw [isNext] at empty
          cases empty
        · cases empty
    | threw isTop _ =>
        cases awaits.isStack.symm.trans isTop
        rw [label_eq_some log]
        exact ⟨_, known_of_returns rfl⟩
  · intro env sys label stack stepped isLater busy awaitsLater
    have log := stepped.log
    cases stepped.took with
    | @ran _ _ _ _ outcome isTop ran =>
        cases awaits.isStack.symm.trans isTop
        cases isLater.symm.trans (List.getElem?_set_self inBounds)
        rcases Frame.callback_cases ran with ⟨reply, view, returned, isNext, replies⟩ | rfl
        · rcases Session.bind_eq_ok.mp returned with ⟨_, _, _, replied⟩
          rcases Session.pure_eq_ok.mp replied with ⟨rfl, _⟩
          rw [replies] at log
          cases label_eq_some log
          rw [known_of_returns rfl] at awaitsLater
          rw [isNext] at awaitsLater ⊢
          exact Ends.dispatchReady .nil _ _ awaitsLater (List.cons_ne_nil _ _)
        · cases (Option.toList_eq_nil_iff.mp (label_eq log) : label = none)
          exact retried env ran _ awaitsLater
    | threw isTop _ =>
        cases awaits.isStack.symm.trans isTop
        cases isLater.symm.trans (List.getElem?_set_self inBounds)
        exact absurd rfl busy

/-- Without other commits the transaction is not retried. -/
theorem callback_self
    (awaits : AwaitsRun deployment platform index request call
      [.callback (.startExecution params) platform.sys.db] none) :
    platform.Answerable deployment index request := by
  apply awaits.callback
  intro env ran
  exfalso
  rcases awaits.inv with ⟨versions, inv⟩
  rcases Session.ok_of_bind ran with ⟨⟨reply, view⟩, returned, rest⟩
  rcases Session.bind_eq_ok.mp returned with ⟨execution, _, started, replied⟩
  rcases Session.pure_eq_ok.mp replied with ⟨rfl, rfl⟩
  simp only [startExecution_commits inv.sys.db.keyed started] at rest
  cases rest

theorem transaction
    (awaits : AwaitsRun deployment platform index request call
      [.transaction (.startExecution params)] none) :
    platform.Answerable deployment index request := by
  have inBounds : call < platform.sys.calls.length :=
    (List.getElem?_eq_some_iff.mp awaits.isStack).1
  apply awaits.advances
  · intro env sys label stepped ended
    cases stepped.took with
    | ran isTop ran =>
        cases awaits.isStack.symm.trans isTop
        cases ran
        cases ended.symm.trans (List.getElem?_set_self inBounds)
    | threw isTop threw =>
        cases awaits.isStack.symm.trans isTop
        cases threw
  · intro env sys label stack stepped isLater busy awaitsLater
    have log := stepped.log
    cases stepped.took with
    | ran isTop ran =>
        cases awaits.isStack.symm.trans isTop
        cases ran
        cases isLater.symm.trans (List.getElem?_set_self inBounds)
        cases (Option.toList_eq_nil_iff.mp (label_eq log) : label = none)
        exact awaitsLater.callback_self
    | threw isTop threw =>
        cases awaits.isStack.symm.trans isTop
        cases threw

end AwaitsRun

/-- A request that is not answered, and neither its process nor that of its call has
stopped. -/
def Running (platform : Platform Val) : JobState Val → Prop
  | .ready _ => True
  | .waiting _ call _ => platform.sys.calls[call]? ≠ some []
  | .ended => False

/-- A request for a run can be answered while it is running. -/
theorem Inv.answerable (inv : platform.Inv deployment versions) {user : User}
    {workflowId : ObjectId} {input : Val} {key : Option IdempotencyKey} {state : JobState Val}
    (found : platform.jobs[index]? = some ⟨.run user workflowId input key, state⟩)
    (runs : platform.Running state) :
    platform.Answerable deployment index (.run user workflowId input key) := by
  have ok := inv.jobs _ (List.mem_of_getElem? found)
  cases state with
  | ended => cases runs
  | ready operation =>
      rcases Operation.Ok.of_run ok with rfl | ⟨given, _, rfl, _⟩
      · have enabled : ∃ env workflows goal, env.objectId ∉ platform.workflows.ids ∧
            perform deployment env platform.now platform.workflows platform.sys.db
              platform.log.length (.first (.run user workflowId input key)) =
                (workflows, goal) ∧
            Platform.step deployment platform (.perform index env) = some
              { platform with
                sys := goal.calling platform.sys
                workflows
                jobs := platform.jobs.set index
                  ⟨.run user workflowId input key, goal.state platform.sys.calls.length⟩
                log := goal.answered (.run user workflowId input key) ++ platform.log } :=
          perform_enabled found
        rcases enabled with ⟨env, workflows, goal, fresh, performed, taken⟩
        rcases inv.step taken with ⟨versions', _, later⟩
        have inBounds := (List.getElem?_eq_some_iff.mp found).1
        simp only [perform, begin] at performed
        split at performed
        · cases performed
          apply Answerable.of_perform taken rfl
          apply AwaitsRun.transaction
          exact ⟨⟨versions', later⟩, ⟨user, workflowId, input, key,
            List.getElem?_set_self inBounds⟩, List.getElem?_concat_length⟩
        · cases performed
          exact ⟨_, _, .perform taken .refl, rfl⟩
      · exact answerable_of_findExisting found
  | waiting waiting call reply =>
      rcases ok with ⟨op, stack, isStack, asks, started⟩
      rcases asks.of_run with ⟨rfl, _, _, rfl⟩
      have awaits : AwaitsRun deployment platform index (.run user workflowId input key) call
          stack reply :=
        ⟨⟨versions, inv⟩, ⟨user, workflowId, input, key, found⟩, isStack⟩
      rcases (started _ rfl).frames with ⟨rfl, frame, rfl, isOp⟩ | ⟨replied, dispatching⟩ | rfl
      · cases frame with
        | transaction op =>
            cases isOp
            exact awaits.transaction
        | callback op snapshot =>
            cases isOp
            exact awaits.callback fun _ _ _ later => later.transaction
        | _ => cases isOp
      · cases reply with
        | none => cases replied
        | some reply =>
            apply Ends.of_dispatches dispatching _ _ awaits
            rintro rfl
            exact runs isStack
      · exact absurd isStack runs

end Platform

end WorkflowEngine
