import WorkflowEngine.Services.Steps
import WorkflowEngine.Workflow.Attended

/-!
# A call of startExecution

What its caller may rely on while the call is under way and when it has ended: either the
run is stored, or the definition is not a valid DAG, or another run has the user and the
key.  After the commit the call dispatches tasks, which cannot throw.
-/

namespace WorkflowEngine

open DocStore

variable {Val : Type}

/-- The execution is stored, perhaps in a later state. -/
def Db.Keeps (db : Db Val) (execution : WorkflowExecution Val) : Prop :=
  ∃ stored ∈ db.executions.values, stored.shape = execution.shape

/-- The user has a run with this key. -/
def Db.Taken (db : Db Val) (triggeredBy : Option UserId) (idempotencyKey : Option String) : Prop :=
  idempotencyKey.isSome = true ∧ ∃ stored ∈ db.executions.values,
    stored.triggeredBy = triggeredBy ∧ stored.idempotencyKey = idempotencyKey

/-- What a reply tells the caller about the store. -/
def Reply.Tells (db : Db Val) (params : StartParams Val) : Reply Val → Prop
  | .startExecution called execution =>
      called = params ∧ (∃ env, execution = newExecution env params) ∧ db.Keeps execution
  | .threw thrown =>
      (validateDag (params.workflow.tasks.map TaskDefinition.toDagTask)).valid = false ∧
          thrown = .invalidWorkflowGraph
            (validateDag (params.workflow.tasks.map TaskDefinition.toDagTask)).errors ∨
        thrown = .duplicateKey ∧ db.Taken params.triggeredBy params.idempotencyKey
  | _ => False

/-- A call of `startExecution` and the reply that it has given so far. -/
structure StartCall (db : Db Val) (params : StartParams Val) (stack : List (Frame Val))
    (reply : Option (Reply Val)) : Prop where
  /-- it is before its commit, or after it, or its process has stopped -/
  frames : (reply = none ∧ ∃ frame : Frame Val, stack = [frame] ∧
      frame.op? = some (.startExecution params)) ∨
    (reply.isSome = true ∧ ∀ frame ∈ stack, frame.dispatches = true) ∨ stack = []
  tells : ∀ given, reply = some given → given.Tells db params

theorem StartCall.start {db : Db Val} {params : StartParams Val} :
    StartCall db params [.transaction (.startExecution params)] none :=
  ⟨.inl ⟨rfl, _, rfl, rfl⟩, fun _ absurdity => by cases absurdity⟩

section Later

variable {db newer : Db Val} (since : Db.Since db newer)
include since

theorem Db.Keeps.later {execution : WorkflowExecution Val} (keeps : db.Keeps execution) :
    newer.Keeps execution := by
  rcases keeps with ⟨stored, storedMem, shape⟩
  rcases since.runs stored storedMem with ⟨next, nextMem, _, evolves⟩
  exact ⟨next, nextMem, evolves.shape.trans shape⟩

theorem Db.Taken.later {triggeredBy : Option UserId} {idempotencyKey : Option String}
    (taken : db.Taken triggeredBy idempotencyKey) : newer.Taken triggeredBy idempotencyKey := by
  rcases taken with ⟨keyed, stored, storedMem, user, key⟩
  rcases since.runs stored storedMem with ⟨next, nextMem, _, evolves⟩
  refine ⟨keyed, next, nextMem, ?_, ?_⟩
  · exact (congrArg ExecutionShape.triggeredBy evolves.shape).trans user
  · exact (congrArg ExecutionShape.idempotencyKey evolves.shape).trans key

theorem Reply.Tells.later {params : StartParams Val} {reply : Reply Val}
    (tells : reply.Tells db params) : reply.Tells newer params := by
  cases reply with
  | startExecution => exact ⟨tells.1, tells.2.1, tells.2.2.later since⟩
  | threw => exact tells.imp_right fun refused => ⟨refused.1, refused.2.later since⟩
  | _ => exact tells

theorem StartCall.later {params : StartParams Val} {stack : List (Frame Val)}
    {reply : Option (Reply Val)} (call : StartCall db params stack reply) :
    StartCall newer params stack reply :=
  ⟨call.frames, fun given isReply => (call.tells given isReply).later since⟩

end Later

theorem StartCall.crashed {db : Db Val} {params : StartParams Val} {stack : List (Frame Val)}
    {reply : Option (Reply Val)} (call : StartCall db params stack reply) :
    StartCall db params [] reply :=
  ⟨.inr (.inr rfl), call.tells⟩

variable [Mixed Val]

/-! ## After the commit -/

theorem Frame.dispatches_silent {env : Env} {db : Db Val} {frame : Frame Val} {reply : Reply Val}
    {outcome : Outcome Val} (dispatches : frame.dispatches = true)
    (ran : frame.step env db = .ok outcome) (membership : reply ∈ outcome.replies) :
    reply.returns = false := by
  cases frame.gives ran membership with
  | dispatchTask | enqueue => rfl
  | _ => cases dispatches

/-! ## Steps of the call -/

section Steps

variable {env : Env} {params : StartParams Val} {sys next : Sys Val} {call : Nat}
  {label before : Option (Reply Val)} {stack : List (Frame Val)}

/-- The ids that a start draws are new to its snapshot. -/
def Frame.DrawsFresh (env : Env) : Frame Val → Prop
  | .callback (.startExecution _) snapshot =>
      env.objectId ∉ snapshot.executions.ids ∧
        env.randomUUID snapshot.outbox.length ∉ snapshot.outbox.ids
  | _ => True

omit [Mixed Val] in
/-- A reply that is not for the caller. -/
theorem known_of_silent (silent : ∀ reply ∈ label, reply.returns = false) :
    Platform.known label before = before := by
  cases label with
  | none => rfl
  | some reply =>
      have other := silent reply rfl
      simp only [Platform.known, Option.filter_some, other]
      rfl

omit [Mixed Val] in
theorem known_of_returns {reply : Reply Val} (returns : reply.returns = true) :
    Platform.known (some reply) before = some reply := by
  simp only [Platform.known, Option.filter_some, returns]
  rfl

/-- The transaction of a start goes one step on. -/
theorem StartCall.transacted {frame : Frame Val}
    (stepped : sys.Stepped (.advance call env) next label)
    (found : sys.calls[call]? = some [frame]) (isOp : frame.op? = some (.startExecution params))
    (fresh : frame.DrawsFresh env) :
    ∃ stack, next.calls[call]? = some stack ∧
      StartCall next.db params stack (Platform.known label none) := by
  have inBounds : call < sys.calls.length := (List.getElem?_eq_some_iff.mp found).1
  have log := stepped.log
  have frameOk :=
    stepped.inv.frames _ (List.mem_of_getElem? found) frame (List.mem_singleton_self _)
  have took := stepped.took
  cases took with
  | @ran _ _ top rest outcome isTop ran =>
      cases found.symm.trans isTop
      refine ⟨outcome.next, ?_, ?_⟩
      · rw [List.append_nil]
        exact List.getElem?_set_self inBounds
      · cases frame with
        | transaction op =>
            cases isOp
            cases ran
            have silent : label = none := Option.toList_eq_nil_iff.mp (label_eq log)
            rw [silent]
            exact ⟨.inl ⟨rfl, _, rfl, rfl⟩, fun _ absurdity => by cases absurdity⟩
        | callback op snapshot =>
            cases isOp
            rcases Frame.callback_cases ran with ⟨reply, view, returned, isNext, replies⟩ | rfl
            · rw [replies] at log
              have isLabel := label_eq_some log
              rcases Session.bind_eq_ok.mp returned with ⟨execution, _, _, replied⟩
              rcases Session.pure_eq_ok.mp replied with ⟨rfl, _⟩
              subst isLabel
              rcases stepped.created with ⟨drawn, _, _, _, isNew, _, _, commits⟩
              rw [known_of_returns rfl, isNext]
              refine ⟨.inr (.inl ⟨rfl, ?_⟩), ?_⟩
              · intro later membership
                cases List.mem_singleton.mp membership
                rfl
              · intro given isReply
                cases isReply
                have stored : (⟨0, execution⟩ : Stored (WorkflowExecution Val)) ∈
                    outcome.db.executions := by
                  rw [commits.executions.eq, isNew]
                  exact List.mem_append_right _ (List.mem_singleton_self _)
                exact ⟨rfl, ⟨drawn, isNew⟩, execution, Collection.val_mem_values stored, rfl⟩
            · have silent : label = none := Option.toList_eq_nil_iff.mp (label_eq log)
              rw [silent]
              exact ⟨.inl ⟨rfl, _, rfl, rfl⟩, fun _ absurdity => by cases absurdity⟩
        | _ => cases isOp
  | @threw _ _ top rest thrown isTop threw =>
      cases found.symm.trans isTop
      refine ⟨[], List.getElem?_set_self inBounds, ?_⟩
      rw [label_eq_some log, known_of_returns rfl]
      refine ⟨.inr (.inr rfl), ?_⟩
      intro given isReply
      cases isReply
      cases frame with
      | callback op snapshot =>
          cases isOp
          rcases Session.bind_eq_error.mp (Frame.callback_error threw) with
            refused | ⟨_, _, _, absurdity⟩
          · rcases startExecution_error frameOk.1 fresh.1 fresh.2 refused with
              invalid | ⟨duplicate, old, oldMem, clashes⟩
            · exact .inl invalid
            · rcases clash_iff.mp clashes with ⟨keyed, key, user⟩
              have same : old.idempotencyKey = params.idempotencyKey := key
              rw [same] at keyed
              exact .inr ⟨duplicate, Db.Taken.later frameOk.2 ⟨keyed, old, oldMem, user, same⟩⟩
          · cases absurdity
      | transaction op => cases threw
      | _ => cases isOp

/-- After the commit the caller is told nothing more. -/
theorem StartCall.silent {reply : Reply Val}
    (started : StartCall sys.db params stack (some reply))
    (stepped : sys.Stepped (.advance call env) next label)
    (found : sys.calls[call]? = some stack) : ∀ given ∈ label, given.returns = false := by
  intro given isLabel
  have log := stepped.log
  rcases started.frames with ⟨absurdity, _⟩ | ⟨_, dispatches⟩ | rfl
  · cases absurdity
  · cases stepped.took with
    | @ran _ _ frame rest outcome isTop ran =>
        cases found.symm.trans isTop
        apply Frame.dispatches_silent (dispatches frame List.mem_cons_self) ran
        rw [← label_eq log]
        exact Option.mem_toList.mpr isLabel
    | @threw _ _ frame rest thrown isTop threw =>
        cases found.symm.trans isTop
        have total : ∃ outcome, frame.step env sys.db = .ok outcome :=
          frame.dispatches_ok (dispatches frame List.mem_cons_self)
        rcases total with ⟨outcome, ran⟩
        cases ran.symm.trans threw
  · cases stepped.took with
    | ran isTop | threw isTop => cases found.symm.trans isTop

/-- The call dispatches tasks. -/
theorem StartCall.dispatched {frame : Frame Val} {rest : List (Frame Val)}
    (started : StartCall sys.db params (frame :: rest) before)
    (dispatches : ∀ other ∈ frame :: rest, other.dispatches = true)
    (stepped : sys.Stepped (.advance call env) next label)
    (found : sys.calls[call]? = some (frame :: rest)) :
    ∃ stack, next.calls[call]? = some stack ∧
      StartCall next.db params stack (Platform.known label before) := by
  have inBounds : call < sys.calls.length := (List.getElem?_eq_some_iff.mp found).1
  have top := dispatches frame List.mem_cons_self
  have since := stepped.advances.since
  cases before with
  | none =>
      rcases started.frames with ⟨_, only, single, isOp⟩ | ⟨absurdity, _⟩ | absurdity
      · cases single
        cases frame with
        | transaction | callback => cases top
        | _ => cases isOp
      · cases absurdity
      · cases absurdity
  | some reply =>
  rw [known_of_silent (started.silent stepped found)]
  have took := stepped.took
  cases took with
  | @ran _ _ _ _ outcome isTop ran =>
      cases found.symm.trans isTop
      refine ⟨outcome.next ++ rest, List.getElem?_set_self inBounds, ?_⟩
      refine ⟨.inr (.inl ⟨rfl, ?_⟩), (started.later since).tells⟩
      intro later membership
      rcases List.mem_append.mp membership with isNext | isRest
      · exact Frame.dispatches_next top ran isNext
      · exact dispatches later (List.mem_cons_of_mem _ isRest)
  | @threw _ _ _ _ thrown isTop threw =>
      cases found.symm.trans isTop
      have total : ∃ outcome, frame.step env sys.db = .ok outcome := frame.dispatches_ok top
      rcases total with ⟨outcome, ran⟩
      cases ran.symm.trans threw

/-- The call goes one step on. -/
theorem StartCall.advanced (started : StartCall sys.db params stack before)
    (stepped : sys.Stepped (.advance call env) next label)
    (found : sys.calls[call]? = some stack)
    (fresh : ∀ frame, sys.frame? (.advance call env) = some frame → frame.DrawsFresh env) :
    ∃ stack, next.calls[call]? = some stack ∧
      StartCall next.db params stack (Platform.known label before) := by
  rcases started.frames with ⟨rfl, frame, rfl, isOp⟩ | ⟨replied, dispatches⟩ | rfl
  · exact transacted stepped found isOp (fresh frame (Sys.frame?_eq found))
  · cases stack with
    | nil =>
        cases stepped.took with
        | ran isTop => cases found.symm.trans isTop
        | threw isTop => cases found.symm.trans isTop
    | cons frame rest => exact started.dispatched dispatches stepped found
  · cases stepped.took with
    | ran isTop => cases found.symm.trans isTop
    | threw isTop => cases found.symm.trans isTop

omit [Mixed Val] in
theorem Platform.drawsFresh_top {platform : Platform Val} {frame : Frame Val}
    (fresh : platform.drawsFresh call env = true)
    (isFrame : platform.sys.frame? (.advance call env) = some frame) : frame.DrawsFresh env := by
  rcases Option.bind_eq_some_iff.mp isFrame with ⟨stack, found, isHead⟩
  cases frame with
  | callback op snapshot =>
      cases op with
      | startExecution params =>
          rcases List.head?_eq_some_iff.mp isHead with ⟨rest, rfl⟩
          simp only [Platform.drawsFresh, found, Bool.and_eq_true, Bool.not_eq_true'] at fresh
          constructor
          · intro present
            have contained := List.contains_iff_mem.mpr present
            rw [fresh.1] at contained
            cases contained
          · intro present
            have contained := List.contains_iff_mem.mpr present
            rw [fresh.2] at contained
            cases contained
      | _ => trivial
  | _ => trivial

theorem Sys.Stepped.call_found (stepped : sys.Stepped (.advance call env) next label)
    (found : sys.calls[call]? = some stack) : ∃ later, next.calls[call]? = some later := by
  have inBounds : call < sys.calls.length := (List.getElem?_eq_some_iff.mp found).1
  cases stepped.took with
  | ran | threw => exact ⟨_, List.getElem?_set_self inBounds⟩

end Steps

end WorkflowEngine
