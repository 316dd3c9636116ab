import WorkflowEngine.Ai.Agent.Trace

/-!
# What the loop must do next

Every event of a run follows from what the provider has replied, whether the caller has
aborted and what the schemas accept.  The decisions of the loop are among the events, so
that they are tied to the replies and to the abort here.
-/

open Objects

namespace WorkflowEngine

/-- The last event of an iteration that goes on: the tool has run, or its arguments were
refused. -/
def EndsIteration (params : AgentParams) : AgentEvent → Prop
  | .ran _ _ _ => True
  | .handled name args =>
      ∃ tool issues, params.tools.get name = some tool ∧ tool.schema args = .error issues
  | _ => False

/-- The loop is at its top after this trace. -/
def Completed (params : AgentParams) (trace : Trace) : Prop :=
  ∀ last ∈ trace.getLast?, EndsIteration params last

def EndsInChat (trace : Trace) : Prop := ∃ request, trace.getLast? = some (.chat request)

/-- The provider's reply to the last request is read as this step. -/
def Replied (world : World) (params : AgentParams) (trace : Trace) (step : AgentStep) : Prop :=
  EndsInChat trace ∧ Accepted world (stepSchema world params.tools.keys) trace step

/-- The event that comes next after a trace. -/
inductive Follows (world : World) (params : AgentParams) (trace : Trace) : AgentEvent → Prop where
  | asks {request : ChatRequest} (completed : Completed params trace)
      (goesOn : world.aborted trace = none) : Follows world params trace (.chat request)
  | repairs {request : ChatRequest} {content problem : Text} (asked : EndsInChat trace)
      (rejected : Rejected world (stepSchema world params.tools.keys) trace content problem) :
      Follows world params trace (.chat request)
  | aborts {reason : Option Thrown} (completed : Completed params trace)
      (isAborted : world.aborted trace = some reason) : Follows world params trace .abortSeen
  | answers {thought answer : Text} (replied : Replied world params trace (.final thought answer)) :
      Follows world params trace .finalAnswer
  | proposes {thought tool : Text} {args : Json}
      (replied : Replied world params trace (.tool thought tool args)) :
      Follows world params trace (.proposed tool args)
  | detects {tool : Text} {args : Json} (last : trace.getLast? = some (.proposed tool args))
      (same : lastKey trace = some (callKey tool args)) :
      Follows world params trace .repeatDetected
  | handles {tool : Text} {args : Json} (last : trace.getLast? = some (.proposed tool args))
      (fresh : lastKey trace ≠ some (callKey tool args)) :
      Follows world params trace (.handled tool args)
  | runs {name : Text} {args data : Json} {tool : Tool}
      (last : trace.getLast? = some (.handled name args))
      (registered : params.tools.get name = some tool) (accepted : tool.schema args = .ok data) :
      Follows world params trace (.ran name data params.ctx)

/-- Each of these events follows from the trace before it. -/
inductive Lawful (world : World) (params : AgentParams) : Trace → Trace → Prop where
  | nil {trace : Trace} : Lawful world params trace []
  | cons {trace rest : Trace} {next : AgentEvent} (follows : Follows world params trace next)
      (later : Lawful world params (trace ++ [next]) rest) :
      Lawful world params trace (next :: rest)

/-- The events of a run are what the world calls for, and the loop has acted upon every reply
that is read as a step. -/
structure Told (world : World) (params : AgentParams) (events : Trace) : Prop where
  lawful : Lawful world params [] events
  acted : ∀ step, ¬ Replied world params events step

variable {world : World} {params : AgentParams} {trace : Trace}

theorem Accepted.unique {Data : Type} {schema : Json → Except (List Issue) Data}
    {first second : Data} (accepted : Accepted world schema trace first)
    (accepted' : Accepted world schema trace second) : first = second := by
  rcases accepted with ⟨reply, answered, read⟩
  rcases accepted' with ⟨reply', answered', read'⟩
  cases answered.symm.trans answered'
  exact Except.ok.inj (read.symm.trans read')

theorem Accepted.not_rejected {Data : Type} {schema : Json → Except (List Issue) Data}
    {data : Data} {content problem : Text} (accepted : Accepted world schema trace data) :
    ¬ Rejected world schema trace content problem := by
  rintro ⟨reply', issues, answered', rfl, read'⟩
  rcases accepted with ⟨reply, answered, read⟩
  cases answered.symm.trans answered'
  cases read.symm.trans read'

theorem Completed.not_chat (completed : Completed params trace) : ¬ EndsInChat trace := by
  rintro ⟨request, isLast⟩
  exact completed _ isLast

theorem endsInChat_chats {requests : List ChatRequest} (asked : requests ≠ []) :
    EndsInChat (trace ++ requests.map .chat) := by
  rcases List.eq_nil_or_concat requests with rfl | ⟨front, request, rfl⟩
  · exact absurd rfl asked
  · refine ⟨request, ?_⟩
    rw [List.concat_eq_append, List.map_append, List.map_singleton, ← List.append_assoc,
      List.getLast?_concat]

namespace Lawful

variable {events rest : Trace}

theorem append (first : Lawful world params trace events)
    (later : Lawful world params (trace ++ events) rest) :
    Lawful world params trace (events ++ rest) := by
  induction first with
  | nil => rwa [List.append_nil] at later
  | cons follows _ ih =>
      refine .cons follows (ih ?_)
      rwa [List.append_assoc]

theorem drop (lawful : Lawful world params trace (events ++ rest)) :
    Lawful world params (trace ++ events) rest := by
  induction events generalizing trace with
  | nil => rwa [List.append_nil]
  | cons first events ih =>
      cases lawful with
      | cons _ later =>
          have after := ih later
          rwa [List.append_assoc] at after

/-- After the first request of an iteration only rejected replies are followed by another
one. -/
theorem of_asks {schema : Json → Except (List Issue) AgentStep} {model : Text}
    {messages : List Message} {requests : List ChatRequest} {step : Option AgentStep}
    (isSchema : schema = stepSchema world params.tools.keys)
    (asks : Asks world schema model messages trace requests step)
    (first : ∀ request, Follows world params trace (.chat request)) :
    Lawful world params trace (requests.map .chat) := by
  induction asks with
  | gaveUp => exact .nil
  | threw | accepted => exact .cons (first _) .nil
  | rejected rejected _ ih =>
      refine .cons (first _) (ih fun request => ?_)
      rw [isSchema] at rejected
      exact .repairs ⟨_, List.getLast?_concat⟩ rejected

end Lawful

/-! ## One iteration -/

namespace AsksStep

variable {requests : List ChatRequest} {step : Option AgentStep}

theorem lawful (asked : AsksStep world params trace requests step)
    (completed : Completed params trace) (goesOn : world.aborted trace = none) :
    Lawful world params trace (requests.map .chat) := by
  rcases asked.asks with ⟨messages, asks⟩
  exact .of_asks rfl asks fun _ => .asks completed goesOn

theorem replied {read : AgentStep} (asked : AsksStep world params trace requests (some read)) :
    Replied world params (trace ++ requests.map .chat) read := by
  rcases asked.asks with ⟨messages, asks⟩
  exact ⟨endsInChat_chats asks.ne_nil, asks.accepts⟩

/-- Without a step the last reply is not read as one. -/
theorem unread (asked : AsksStep world params trace requests none) (read : AgentStep) :
    requests = [] ∨ ¬ Replied world params (trace ++ requests.map .chat) read := by
  rcases asked.asks with ⟨messages, asks⟩
  have unread : requests = [] ∨ ¬ Accepted world (stepSchema world params.tools.keys)
      (trace ++ requests.map .chat) read := by
    generalize isNone : (none : Option AgentStep) = result at asks
    clear asked
    induction asks with
    | gaveUp => exact .inl rfl
    | threw failed =>
        right
        rintro ⟨reply, answered, _⟩
        cases failed.symm.trans answered
    | accepted => cases isNone
    | rejected rejected _ ih =>
        right
        rcases ih isNone with rfl | unread
        · exact fun accepted => accepted.not_rejected rejected
        · rwa [List.append_assoc, List.singleton_append, ← List.map_cons] at unread
  exact unread.imp_right fun unread replied => unread replied.2

end AsksStep

section Turn

variable {last : Option Text} {turn : Trace} {verdict : Verdict}

theorem Turn.lawful (taken : Turn world params last trace turn verdict)
    (completed : Completed params trace) (key : lastKey trace = last) :
    Lawful world params trace turn := by
  -- a proposal follows the requests, and the key of the last call is still known
  have proposed : ∀ {requests : List ChatRequest} {thought tool : Text} {args : Json} {rest : Trace},
      world.aborted trace = none →
      AsksStep world params trace requests (some (.tool thought tool args)) →
      (∀ before : Trace, before.getLast? = some (.proposed tool args) → lastKey before = last →
        Lawful world params before rest) →
      Lawful world params trace (requests.map .chat ++ .proposed tool args :: rest) := by
    intro requests thought tool args rest goesOn asked later
    refine (asked.lawful completed goesOn).append (.cons (.proposes asked.replied) ?_)
    apply later _ List.getLast?_concat
    rw [lastKey_append _ rfl, lastKey_append _ (calls_chats requests).2, key]
  have handles : ∀ {tool : Text} {args : Json} {runs before : Trace},
      some (callKey tool args) ≠ last → ToolRuns params tool args runs →
      before.getLast? = some (.proposed tool args) → lastKey before = last →
        Lawful world params before (.handled tool args :: runs) := by
    intro tool args runs before fresh allowed isLast isKey
    refine .cons (.handles isLast (isKey ▸ fresh.symm)) ?_
    cases allowed with
    | missing | refused => exact .nil
    | once registered accepted =>
        exact .cons (.runs List.getLast?_concat registered accepted) .nil
  cases taken with
  | aborted isAborted => exact .cons (.aborts completed isAborted) .nil
  | unanswered goesOn asked => exact asked.lawful completed goesOn
  | final goesOn asked =>
      exact (asked.lawful completed goesOn).append (.cons (.answers asked.replied) .nil)
  | repeated goesOn asked same =>
      apply proposed goesOn asked
      intro before isLast isKey
      exact .cons (.detects isLast (isKey.trans same.symm)) .nil
  | threw goesOn asked fresh allowed =>
      exact proposed goesOn asked fun before isLast isKey => handles fresh allowed isLast isKey
  | handled goesOn asked fresh allowed =>
      exact proposed goesOn asked fun before isLast isKey => handles fresh allowed isLast isKey

/-- Where the loop is when an iteration begins. -/
structure AtTop (params : AgentParams) (state : AgentState) (trace : Trace) : Prop where
  completed : Completed params trace
  key : lastKey trace = state.lastCallKey

/-- The loop is at its top again. -/
theorem Turn.atTop {key : Text} {state : AgentState}
    (taken : Turn world params last trace turn (.goOn key)) (isKey : state.lastCallKey = some key) :
    AtTop params state (trace ++ turn) := by
  cases taken with
  | @handled requests thought tool args goesOn asked fresh runs allowed known =>
      constructor
      · intro event isLast
        rw [← List.append_assoc, List.getLast?_append_of_ne_nil _ (List.cons_ne_nil _ _)] at isLast
        cases allowed with
        | missing unknown => exact absurd unknown known
        | refused registered isRefused =>
            cases isLast
            exact ⟨_, _, registered, isRefused⟩
        | once registered accepted =>
            cases isLast
            trivial
      · rw [lastKey, handledCalls_append, (allowed.calls_turn requests).2, List.getLast?_concat,
          isKey]
        rfl

/-- A run that stops has acted upon the last reply. -/
theorem Turn.acted {result : Except AgentError AgentResult}
    (taken : Turn world params last trace turn (.stop result)) (completed : Completed params trace)
    (step : AgentStep) : ¬ Replied world params (trace ++ turn) step := by
  have ends : ∀ (front : Trace) (event : AgentEvent), (∀ request, event ≠ .chat request) →
      ¬ Replied world params (front ++ [event]) step := by
    rintro front event other ⟨⟨request, isLast⟩, _⟩
    rw [List.getLast?_concat, Option.some.injEq] at isLast
    exact other request isLast
  cases taken with
  | aborted => exact ends trace .abortSeen nofun
  | @unanswered requests goesOn asked error =>
      rcases asked.unread step with rfl | unread
      · rw [List.map_nil, List.append_nil]
        exact fun replied => completed.not_chat replied.1
      · exact unread
  | final =>
      rw [← List.append_assoc]
      exact ends _ .finalAnswer nofun
  | @repeated requests thought tool args =>
      have whole : trace ++ (requests.map .chat ++ [.proposed tool args, .repeatDetected]) =
          trace ++ requests.map .chat ++ [.proposed tool args] ++ [.repeatDetected] := by
        simp
      rw [whole]
      exact ends _ .repeatDetected nofun
  | @threw requests thought tool args goesOn asked fresh runs allowed error =>
      rcases allowed with _ | _ | @⟨registeredTool, data, registered, accepted⟩
      · have whole : trace ++ (requests.map .chat ++ [.proposed tool args, .handled tool args]) =
            trace ++ requests.map .chat ++ [.proposed tool args] ++ [.handled tool args] := by
          simp
        rw [whole]
        exact ends _ (.handled tool args) nofun
      · have whole : trace ++ (requests.map .chat ++ [.proposed tool args, .handled tool args]) =
            trace ++ requests.map .chat ++ [.proposed tool args] ++ [.handled tool args] := by
          simp
        rw [whole]
        exact ends _ (.handled tool args) nofun
      · have whole : trace ++ (requests.map .chat ++ [.proposed tool args, .handled tool args,
            .ran tool data params.ctx]) =
            trace ++ requests.map .chat ++ [.proposed tool args, .handled tool args] ++
              [.ran tool data params.ctx] := by
          simp
        rw [whole]
        exact ends _ (.ran tool data params.ctx) nofun

end Turn

/-! ## The run -/

theorem agentLoop_lawful (left i : ℕ) (state : AgentState) (trace : Trace)
    (top : AtTop params state trace) :
    ∃ events, (agentLoop world params left i state trace).2 = trace ++ events ∧
      Lawful world params trace events ∧ ∀ step, ¬ Replied world params (trace ++ events) step := by
  induction left generalizing i state trace with
  | zero =>
      refine ⟨[], (List.append_nil trace).symm, .nil, ?_⟩
      rw [List.append_nil]
      exact fun step replied => top.completed.not_chat replied.1
  | succ left ih =>
      rcases agentLoop_turn world params left i state trace with
        ⟨turn, result, taken, stopped⟩ | ⟨turn, key, state', taken, isKey, goesOn⟩
      · rw [stopped]
        exact ⟨turn, rfl, taken.lawful top.completed top.key, taken.acted top.completed⟩
      · rcases ih (i + 1) state' (trace ++ turn) (taken.atTop isKey) with
          ⟨events, traced, lawful, acted⟩
        rw [goesOn]
        refine ⟨turn ++ events, ?_, (taken.lawful top.completed top.key).append lawful, ?_⟩
        · rw [traced, List.append_assoc]
        · rwa [← List.append_assoc]

/-- Everything in a run is what the provider's replies and the caller's abort call for. -/
theorem runAgent_told (world : World) (params : AgentParams) :
    Told world params (runAgent world params).2 := by
  have start : Completed params [] := nofun
  rw [runAgent]
  split
  · exact ⟨.nil, fun step replied => start.not_chat replied.1⟩
  · rcases agentLoop_lawful params.maxIterations 1
      { transcript := [Text.ofString "Goal:\n" ++ wrapUntrusted (Text.ofString "user_input") params.goal]
        steps := []
        usage := .zero
        lastCallKey := none } [] ⟨start, rfl⟩ with ⟨events, traced, lawful, acted⟩
    rw [traced]
    exact ⟨lawful, acted⟩

end WorkflowEngine
