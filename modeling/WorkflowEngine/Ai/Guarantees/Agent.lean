import WorkflowEngine.Ai.Agent.Lawful

/-!
# The agent stays inside its bounds

Whatever the model replies and the tools do, the calls of a run are bounded by its
iterations, only listed tools run, with arguments that their schema accepts and for the
caller's owner, and nothing runs once the model has given its final answer or repeated its
call, or the loop has seen an abort.
-/

open Objects

namespace WorkflowEngine

namespace AgentEvent

def isChat : AgentEvent → Bool
  | .chat _ => true
  | _ => false

def isRun : AgentEvent → Bool
  | .ran _ _ _ => true
  | _ => false

def isHandled : AgentEvent → Bool
  | .handled _ _ => true
  | _ => false

/-- The loop has seen a final answer, a repetition or an abort. -/
def isStop : AgentEvent → Bool
  | .finalAnswer | .repeatDetected | .abortSeen => true
  | _ => false

end AgentEvent

/-- What a trace of so many iterations keeps to. -/
structure InBounds (params : AgentParams) (iterations : ℕ) (events : Trace) : Prop where
  chats : events.countP AgentEvent.isChat ≤ 3 * iterations
  runs : events.countP AgentEvent.isRun ≤ iterations
  allowed : ∀ name args ctx, AgentEvent.ran name args ctx ∈ events →
    (∃ tool proposed, params.tools.get name = some tool ∧ tool.schema proposed = .ok args) ∧
      ctx = params.ctx
  silent : events.Pairwise fun earlier later => earlier.isStop = true → later.isRun = false

/-- What ends a run after this much of its trace: an abort at the top of the loop, a reply
that is read as the final answer, or one that is read as the call before. -/
inductive Ends (world : World) (params : AgentParams) (trace : Trace) : Prop where
  | aborted {reason : Option Thrown} (completed : Completed params trace)
      (isAborted : world.aborted trace = some reason) : Ends world params trace
  | final {thought answer : Text} (replied : Replied world params trace (.final thought answer)) :
      Ends world params trace
  | repeated {thought tool : Text} {args : Json}
      (replied : Replied world params trace (.tool thought tool args))
      (same : lastKey trace = some (callKey tool args)) : Ends world params trace

/-- Nothing is asked or run after the end. -/
def Silenced (world : World) (params : AgentParams) (events : Trace) : Prop :=
  ∀ before after, events = before ++ after → Ends world params before →
    ∀ event ∈ after, event.isRun = false ∧ event.isChat = false

/-- How a run ends. -/
def Ended (world : World) (params : AgentParams) (events : Trace) :
    Except AgentError AgentResult → Prop
  | .error _ => True
  | .ok result =>
      match result.status with
      | .final => ∃ front thought answer, events = front ++ [.finalAnswer] ∧
          Replied world params front (.final thought answer) ∧ result.answer = some answer
      | .loopDetected => ∃ front thought tool args,
          events = front ++ [.proposed tool args, .repeatDetected] ∧
            Replied world params front (.tool thought tool args) ∧
              lastKey front = some (callKey tool args)
      | .maxIterations => events.countP AgentEvent.isHandled = params.maxIterations

variable {world : World} {params : AgentParams}

/-! ## After the end -/

namespace Lawful

variable {trace rest : Trace}

/-- Nothing follows an event that stops the loop. -/
theorem eq_nil_of_isStop {last : AgentEvent} (stops : last.isStop = true)
    (lawful : Lawful world params (trace ++ [last]) rest) : rest = [] := by
  cases lawful with
  | nil => rfl
  | cons follows _ =>
      exfalso
      have isLast : (trace ++ [last]).getLast? = some last := List.getLast?_concat
      have notEnd : ¬ Completed params (trace ++ [last]) := by
        intro completed
        have ends := completed last isLast
        cases last with
        | finalAnswer | repeatDetected | abortSeen => exact ends
        | _ => cases stops
      have notChat : ¬ EndsInChat (trace ++ [last]) := by
        rintro ⟨request, isChat⟩
        cases isLast.symm.trans isChat
        cases stops
      cases follows with
      | asks completed | aborts completed => exact notEnd completed
      | repairs asked => exact notChat asked
      | answers replied | proposes replied => exact notChat replied.1
      | detects last | handles last | runs last =>
          cases isLast.symm.trans last
          cases stops

/-- After the end there are only events of the loop itself. -/
theorem silent (ends : Ends world params trace) (lawful : Lawful world params trace rest) :
    ∀ event ∈ rest, event.isRun = false ∧ event.isChat = false := by
  cases lawful with
  | nil => exact List.forall_mem_nil _
  | @cons _ rest next follows later =>
      cases ends with
      | aborted completed isAborted =>
          cases follows with
          | asks _ goesOn => cases goesOn.symm.trans isAborted
          | repairs asked => exact absurd asked completed.not_chat
          | aborts =>
              rw [later.eq_nil_of_isStop rfl, List.forall_mem_singleton]
              exact ⟨rfl, rfl⟩
          | answers replied | proposes replied => exact absurd replied.1 completed.not_chat
          | detects last | handles last => exact absurd (completed _ last) id
          | runs last registered accepted =>
              rcases completed _ last with ⟨tool, issues, registered', isRefused⟩
              cases registered.symm.trans registered'
              cases accepted.symm.trans isRefused
      | final replied =>
          rcases replied with ⟨⟨request, isChat⟩, accepted⟩
          cases follows with
          | asks completed | aborts completed => exact absurd ⟨request, isChat⟩ completed.not_chat
          | repairs _ rejected => exact absurd rejected accepted.not_rejected
          | answers =>
              rw [later.eq_nil_of_isStop rfl, List.forall_mem_singleton]
              exact ⟨rfl, rfl⟩
          | proposes other => cases accepted.unique other.2
          | detects last | handles last | runs last => cases isChat.symm.trans last
      | @repeated thought tool args replied same =>
          rcases replied with ⟨⟨request, isChat⟩, accepted⟩
          cases follows with
          | asks completed | aborts completed => exact absurd ⟨request, isChat⟩ completed.not_chat
          | repairs _ rejected => exact absurd rejected accepted.not_rejected
          | answers other => cases accepted.unique other.2
          | detects last | handles last | runs last => cases isChat.symm.trans last
          | proposes other =>
              cases accepted.unique other.2
              -- the proposal is known to be a repetition
              have isLast : (trace ++ [AgentEvent.proposed tool args]).getLast? =
                  some (.proposed tool args) := List.getLast?_concat
              have isKey : lastKey (trace ++ [AgentEvent.proposed tool args]) =
                  some (callKey tool args) := (lastKey_append trace rfl).trans same
              rw [List.forall_mem_cons]
              refine ⟨⟨rfl, rfl⟩, ?_⟩
              cases later with
              | nil => exact List.forall_mem_nil _
              | cons follows later =>
                  cases follows with
                  | asks completed | aborts completed => exact absurd (completed _ isLast) id
                  | repairs asked =>
                      rcases asked with ⟨_, isChat⟩
                      cases isLast.symm.trans isChat
                  | answers other | proposes other =>
                      rcases other.1 with ⟨_, isChat⟩
                      cases isLast.symm.trans isChat
                  | detects =>
                      rw [later.eq_nil_of_isStop rfl, List.forall_mem_singleton]
                      exact ⟨rfl, rfl⟩
                  | handles last fresh =>
                      cases isLast.symm.trans last
                      exact absurd isKey fresh
                  | runs last => cases isLast.symm.trans last

end Lawful

theorem Told.silenced {events : Trace} (told : Told world params events) :
    Silenced world params events := by
  rintro before after rfl ends
  have later : Lawful world params ([] ++ before) after := told.lawful.drop
  exact later.silent ends

/-! ## One iteration -/

theorem countP_chats (requests : List ChatRequest) {select : AgentEvent → Bool}
    (chat : ∀ request, select (.chat request) = false) :
    (requests.map AgentEvent.chat).countP select = 0 := by
  rw [List.countP_eq_zero]
  intro event membership
  rcases List.mem_map.mp membership with ⟨request, -, rfl⟩
  rw [chat]
  exact Bool.false_ne_true

theorem countP_isChat (requests : List ChatRequest) :
    (requests.map AgentEvent.chat).countP AgentEvent.isChat = requests.length := by
  rw [List.countP_map, List.countP_eq_length]
  intro request _
  rfl

/-- Chat requests are no runs and stop nothing. -/
theorem InBounds.chats_only {requests : List ChatRequest} (short : requests.length ≤ 3) :
    InBounds params 1 (requests.map .chat) := by
  constructor
  · rw [countP_isChat]
    exact short
  · rw [countP_chats requests fun _ => rfl]
    exact Nat.zero_le 1
  · intro name args ctx membership
    rcases List.mem_map.mp membership with ⟨request, -, same⟩
    cases same
  · rw [List.pairwise_map]
    exact List.pairwise_of_forall fun _ _ stop => absurd stop Bool.false_ne_true

/-- What comes after a part without stops does not matter to it. -/
theorem InBounds.append {iterations : ℕ} {turn rest : Trace} (first : InBounds params 1 turn)
    (open_ : ∀ event ∈ turn, event.isStop = false) (others : InBounds params iterations rest) :
    InBounds params (iterations + 1) (turn ++ rest) := by
  constructor
  · have := first.chats
    have := others.chats
    rw [List.countP_append]
    omega
  · have := first.runs
    have := others.runs
    rw [List.countP_append]
    omega
  · intro name args ctx membership
    cases List.mem_append.mp membership with
    | inl inside => exact first.allowed name args ctx inside
    | inr inside => exact others.allowed name args ctx inside
  · rw [List.pairwise_append]
    refine ⟨first.silent, others.silent, ?_⟩
    intro event inside _ _ stop
    rw [open_ event inside] at stop
    cases stop

/-- Chat requests before the decisions of an iteration. -/
theorem InBounds.chats_append {requests : List ChatRequest} {decisions : Trace}
    (short : requests.length ≤ 3) (noChat : decisions.countP AgentEvent.isChat = 0)
    (others : InBounds params 1 decisions) :
    InBounds params 1 (requests.map .chat ++ decisions) := by
  have first : InBounds params 1 (requests.map .chat) := .chats_only short
  constructor
  · have := first.chats
    rw [List.countP_append, noChat]
    omega
  · have := others.runs
    rw [List.countP_append, countP_chats requests fun _ => rfl]
    omega
  · intro name args ctx membership
    cases List.mem_append.mp membership with
    | inl inside => exact first.allowed name args ctx inside
    | inr inside => exact others.allowed name args ctx inside
  · rw [List.pairwise_append]
    refine ⟨first.silent, others.silent, ?_⟩
    intro event inside _ _ stop
    rcases List.mem_map.mp inside with ⟨request, -, rfl⟩
    cases stop

/-- A handled call with its runs. -/
theorem ToolRuns.inBounds {tool : Text} {args : Json} {runs : Trace}
    (ran : ToolRuns params tool args runs) :
    InBounds params 1 (.proposed tool args :: .handled tool args :: runs) ∧
      (∀ event ∈ runs, event.isStop = false ∧ event.isChat = false ∧ event.isHandled = false) := by
  cases ran with
  | missing | refused =>
      refine ⟨⟨Nat.zero_le _, Nat.zero_le _, ?_, ?_⟩, List.forall_mem_nil _⟩
      · intro name args ctx membership
        simp at membership
      · simp [AgentEvent.isStop]
  | @once tool' data registered accepted =>
      refine ⟨⟨?_, ?_, ?_, ?_⟩, ?_⟩
      · simp [AgentEvent.isChat]
      · simp [AgentEvent.isRun]
      · intro name args ctx membership
        simp only [List.mem_cons, reduceCtorEq, List.not_mem_nil, or_false, false_or,
          AgentEvent.ran.injEq] at membership
        rcases membership with ⟨rfl, rfl, rfl⟩
        exact ⟨⟨tool', _, registered, accepted⟩, rfl⟩
      · simp [AgentEvent.isStop]
      · rw [List.forall_mem_singleton]
        exact ⟨rfl, rfl, rfl⟩

theorem ToolRuns.countP_isChat {tool : Text} {args : Json} {runs : Trace}
    (ran : ToolRuns params tool args runs) :
    (AgentEvent.proposed tool args :: .handled tool args :: runs).countP AgentEvent.isChat = 0 := by
  cases ran with
  | missing | refused | once => rfl

theorem ToolRuns.countP_isHandled {tool : Text} {args : Json} {runs : Trace}
    (ran : ToolRuns params tool args runs) :
    (AgentEvent.proposed tool args :: .handled tool args :: runs).countP AgentEvent.isHandled =
      1 := by
  cases ran with
  | missing | refused | once => rfl

/-- The decision that stops the loop is the last event of an iteration. -/
theorem inBounds_stop {last : AgentEvent} (noChat : last.isChat = false)
    (noRun : last.isRun = false) : InBounds params 1 [last] := by
  constructor
  · rw [List.countP_singleton, noChat]
    exact Nat.zero_le _
  · rw [List.countP_singleton, noRun]
    exact Nat.zero_le _
  · intro name args ctx membership
    rw [← List.mem_singleton.mp membership] at noRun
    cases noRun
  · exact List.pairwise_singleton _ _

theorem Turn.inBounds {last : Option Text} {trace turn : Trace} {verdict : Verdict}
    (taken : Turn world params last trace turn verdict) : InBounds params 1 turn := by
  cases taken with
  | aborted => exact inBounds_stop rfl rfl
  | unanswered _ asked => exact .chats_only asked.short
  | final _ asked => exact .chats_append asked.short rfl (inBounds_stop rfl rfl)
  | repeated _ asked =>
      apply InBounds.chats_append asked.short rfl
      constructor
      · exact Nat.zero_le _
      · exact Nat.zero_le _
      · intro name args ctx membership
        simp at membership
      · simp [AgentEvent.isStop]
  | threw _ asked _ allowed =>
      exact .chats_append asked.short allowed.countP_isChat allowed.inBounds.1
  | handled _ asked _ allowed =>
      exact .chats_append asked.short allowed.countP_isChat allowed.inBounds.1

theorem Turn.goes_on {last : Option Text} {trace turn : Trace} {key : Text}
    (taken : Turn world params last trace turn (.goOn key)) :
    (∀ event ∈ turn, event.isStop = false) ∧ turn.countP AgentEvent.isHandled = 1 := by
  cases taken with
  | @handled requests thought tool args _ _ _ runs allowed =>
      constructor
      · intro event membership
        cases List.mem_append.mp membership with
        | inl inside =>
            rcases List.mem_map.mp inside with ⟨request, -, rfl⟩
            rfl
        | inr inside =>
            cases inside with
            | head => rfl
            | tail _ inside =>
                cases inside with
                | head => rfl
                | tail _ inside => exact (allowed.inBounds.2 event inside).1
      · rw [List.countP_append, countP_chats requests fun _ => rfl, allowed.countP_isHandled]

theorem Turn.ended {last : Option Text} {trace turn : Trace}
    {result : Except AgentError AgentResult}
    (taken : Turn world params last trace turn (.stop result)) (key : lastKey trace = last) :
    Ended world params (trace ++ turn) result := by
  cases taken with
  | aborted | unanswered | threw => exact trivial
  | @final requests thought answer _ asked result status isAnswer =>
      rw [Ended, status]
      exact ⟨trace ++ requests.map .chat, thought, answer, (List.append_assoc _ _ _).symm,
        asked.replied, isAnswer⟩
  | @repeated requests thought tool args _ asked same result status =>
      rw [Ended, status]
      refine ⟨trace ++ requests.map .chat, thought, tool, args, (List.append_assoc _ _ _).symm,
        asked.replied, ?_⟩
      rw [lastKey_append _ (calls_chats requests).2, key, same]

/-! ## The run -/

/-- The trace of the loop grows within its bounds. -/
theorem agentLoop_bounds (world : World) (left i : ℕ) (state : AgentState) (trace : Trace)
    (top : AtTop params state trace)
    (count : trace.countP AgentEvent.isHandled + left = params.maxIterations) :
    ∃ events, (agentLoop world params left i state trace).2 = trace ++ events ∧
      InBounds params left events ∧
      Ended world params (trace ++ events) (agentLoop world params left i state trace).1 := by
  induction left generalizing i state trace with
  | zero =>
      refine ⟨[], (List.append_nil trace).symm, ⟨Nat.zero_le _, Nat.zero_le _, ?_, .nil⟩, ?_⟩
      · intro name args ctx membership
        cases membership
      · rw [List.append_nil]
        exact count
  | succ left ih =>
      rcases agentLoop_turn world params left i state trace with
        ⟨turn, result, taken, stopped⟩ | ⟨turn, key, state', taken, isKey, goesOn⟩
      · rw [stopped]
        refine ⟨turn, rfl, ?_, taken.ended top.key⟩
        have bounded := taken.inBounds
        constructor
        · have := bounded.chats
          omega
        · have := bounded.runs
          omega
        · exact bounded.allowed
        · exact bounded.silent
      · rcases taken.goes_on with ⟨open_, handled⟩
        have later : (trace ++ turn).countP AgentEvent.isHandled + left = params.maxIterations := by
          rw [List.countP_append, handled]
          omega
        rcases ih (i + 1) state' (trace ++ turn) (taken.atTop isKey) later with
          ⟨events, traced, bounded, ended⟩
        rw [goesOn]
        refine ⟨turn ++ events, ?_, taken.inBounds.append open_ bounded, ?_⟩
        · rw [traced, List.append_assoc]
        · rwa [← List.append_assoc]

/-- Every run of the agent makes at most three chat calls for each iteration and runs at
most one tool in each; a tool that runs is listed, its arguments are accepted by its
schema, and it gets the caller's context; every event follows from what the provider has
replied and whether the caller has aborted; nothing runs after a reply with the final
answer, a reply that repeats the call before or an abort at the top of the loop; and the run
ends with one of the three statuses, for its reason, or throws. -/
theorem runAgent_bounds (world : World) (params : AgentParams) :
    InBounds params params.maxIterations (runAgent world params).2 ∧
      Told world params (runAgent world params).2 ∧
      Silenced world params (runAgent world params).2 ∧
      Ended world params (runAgent world params).2 (runAgent world params).1 := by
  have told := runAgent_told world params
  have bounds : InBounds params params.maxIterations (runAgent world params).2 ∧
      Ended world params (runAgent world params).2 (runAgent world params).1 := by
    rw [runAgent]
    split
    · refine ⟨⟨Nat.zero_le _, Nat.zero_le _, ?_, .nil⟩, trivial⟩
      intro name args ctx membership
      cases membership
    · have atTop : Completed params [] := by
        intro last absurdity
        cases absurdity
      rcases agentLoop_bounds world params.maxIterations 1
        { transcript := [Text.ofString "Goal:\n" ++ wrapUntrusted (Text.ofString "user_input") params.goal]
          steps := []
          usage := .zero
          lastCallKey := none } [] ⟨atTop, rfl⟩ (Nat.zero_add _) with
            ⟨events, traced, bounded, ended⟩
      rw [traced]
      exact ⟨bounded, ended⟩
  exact ⟨bounds.1, told, told.silenced, bounds.2⟩

end WorkflowEngine
