import WorkflowEngine.Ai.Agent.Loop
import WorkflowEngine.Foundations.JsonReading

/-!
# What one iteration can do

Everything about a run follows from what one iteration of the loop adds to the trace and
whether the loop goes on.
-/

open Text Objects

namespace WorkflowEngine

/-! ## The arguments of a step -/

theorem proper_of_lookup {entries : List (Text × Json)} {name : Text} {value : Json}
    (proper : Json.ProperEntries entries) (found : entries.lookup name = some value) :
    value.Proper := by
  induction entries with
  | nil => cases found
  | cons entry entries ih =>
      rw [List.lookup_cons] at found
      split at found
      · cases found
        exact proper.1
      · exact ih proper.2 found

/-- The arguments are part of the value that was parsed. -/
theorem proper_args {names : List Text} {value args : Json} {thought tool : Text}
    (proper : value.Proper) (isStep : stepOf names value = some (.tool thought tool args)) :
    args.Proper := by
  cases value with
  | null | bool | number | string | array => cases isStep
  | object entries =>
      rw [stepOf] at isStep
      dsimp only at isStep
      split at isStep
      · rcases Option.bind_eq_some_iff.mp isStep with ⟨thought', -, rest⟩
        rcases Option.bind_eq_some_iff.mp rest with ⟨tool', -, rest⟩
        rcases Option.bind_eq_some_iff.mp rest with ⟨args', isArgs, same⟩
        cases same
        cases found : entries.lookup (ofString "args") with
        | none =>
            rw [found] at isArgs
            cases isArgs
            exact ⟨.nil, trivial⟩
        | some value =>
            rw [found] at isArgs
            have inside := proper_of_lookup proper.2 found
            cases value with
            | null | bool | number | string | array => cases isArgs
            | object entries =>
                cases isArgs
                exact inside.filter _
      · split at isStep
        · rcases Option.bind_eq_some_iff.mp isStep with ⟨thought', -, rest⟩
          rcases Option.bind_eq_some_iff.mp rest with ⟨answer', -, same⟩
          cases same
        · cases isStep

theorem proper_extractJson {text : Text} {value : Json}
    (extracted : extractJson text = .ok value) : value.Proper := by
  rw [extractJson] at extracted
  split at extracted
  · split at extracted
    · cases extracted
    · split at extracted
      · next parsed =>
          cases extracted
          exact Json.proper_parse parsed
      · cases extracted
  · cases extracted

/-! ## Calls of a trace -/

/-- The tool calls that the model has proposed, one for each iteration. -/
def proposals (events : Trace) : List (Text × Json) :=
  events.filterMap fun
    | .proposed tool args => some (tool, args)
    | _ => none

/-- The calls that got past the guard. -/
def handledCalls (events : Trace) : List (Text × Json) :=
  events.filterMap fun
    | .handled tool args => some (tool, args)
    | _ => none

def keyOf (call : Text × Json) : Text := callKey call.1 call.2

/-- The key of the last call that got past the guard. -/
def lastKey (events : Trace) : Option Text := (handledCalls events).getLast?.map keyOf

theorem proposals_append (first others : Trace) :
    proposals (first ++ others) = proposals first ++ proposals others := by
  rw [proposals, List.filterMap_append]
  rfl

theorem handledCalls_append (first others : Trace) :
    handledCalls (first ++ others) = handledCalls first ++ handledCalls others := by
  rw [handledCalls, List.filterMap_append]
  rfl

theorem calls_chats (requests : List ChatRequest) :
    proposals (requests.map .chat) = [] ∧ handledCalls (requests.map .chat) = [] := by
  induction requests with
  | nil => exact ⟨rfl, rfl⟩
  | cons request requests ih => exact ih

/-- Without handled calls the last key stays. -/
theorem lastKey_append {more : Trace} (trace : Trace) (unhandled : handledCalls more = []) :
    lastKey (trace ++ more) = lastKey trace := by
  rw [lastKey, handledCalls_append, unhandled, List.append_nil]
  rfl

/-! ## One iteration -/

/-- The runs of a tool call: the arguments are refused, or the tool runs once. -/
inductive ToolRuns (params : AgentParams) (name : Text) (args : Json) : Trace → Prop where
  | missing (unknown : params.tools.get name = none) : ToolRuns params name args []
  | refused {tool : Tool} {issues : List Issue} (registered : params.tools.get name = some tool)
      (isRefused : tool.schema args = .error issues) : ToolRuns params name args []
  | once {tool : Tool} {data : Json} (registered : params.tools.get name = some tool)
      (accepted : tool.schema args = .ok data) :
      ToolRuns params name args [.ran name data params.ctx]

theorem ToolRuns.calls {params : AgentParams} {tool : Text} {args : Json} {runs : Trace}
    (ran : ToolRuns params tool args runs) : proposals runs = [] ∧ handledCalls runs = [] := by
  cases ran with
  | missing | refused | once => exact ⟨rfl, rfl⟩

theorem ToolRuns.calls_turn {params : AgentParams} {tool : Text} {args : Json} {runs : Trace}
    (ran : ToolRuns params tool args runs) (requests : List ChatRequest) :
    proposals (requests.map .chat ++ (.proposed tool args :: .handled tool args :: runs)) =
        [(tool, args)] ∧
      handledCalls (requests.map .chat ++ (.proposed tool args :: .handled tool args :: runs)) =
        [(tool, args)] := by
  rw [proposals_append, handledCalls_append, (calls_chats requests).1, (calls_chats requests).2]
  constructor
  · exact congrArg ((tool, args) :: ·) ran.calls.1
  · exact congrArg ((tool, args) :: ·) ran.calls.2

/-- The requests of one iteration, with the step that the last reply is read as. -/
structure AsksStep (world : World) (params : AgentParams) (trace : Trace)
    (requests : List ChatRequest) (step : Option AgentStep) : Prop where
  short : requests.length ≤ 3
  asks : ∃ messages, Asks world (stepSchema world params.tools.keys) params.model messages trace
    requests step

/-- How an iteration ends. -/
inductive Verdict where
  | stop (result : Except AgentError AgentResult)
  /-- with the key of the call -/
  | goOn (key : Text)

/-- What an iteration does after a trace whose last call has this key. -/
inductive Turn (world : World) (params : AgentParams) (last : Option Text) (trace : Trace) :
    Trace → Verdict → Prop where
  | aborted {reason : Option Thrown} (isAborted : world.aborted trace = some reason)
      (error : AgentError) : Turn world params last trace [.abortSeen] (.stop (.error error))
  | unanswered {requests : List ChatRequest} (goesOn : world.aborted trace = none)
      (asked : AsksStep world params trace requests none) (error : AgentError) :
      Turn world params last trace (requests.map .chat) (.stop (.error error))
  | final {requests : List ChatRequest} {thought answer : Text}
      (goesOn : world.aborted trace = none)
      (asked : AsksStep world params trace requests (some (.final thought answer)))
      {result : AgentResult} (status : result.status = .final)
      (isAnswer : result.answer = some answer) :
      Turn world params last trace (requests.map .chat ++ [.finalAnswer]) (.stop (.ok result))
  | repeated {requests : List ChatRequest} {thought tool : Text} {args : Json}
      (goesOn : world.aborted trace = none)
      (asked : AsksStep world params trace requests (some (.tool thought tool args)))
      (same : some (callKey tool args) = last) {result : AgentResult}
      (status : result.status = .loopDetected) :
      Turn world params last trace (requests.map .chat ++ [.proposed tool args, .repeatDetected])
        (.stop (.ok result))
  | threw {requests : List ChatRequest} {thought tool : Text} {args : Json}
      (goesOn : world.aborted trace = none)
      (asked : AsksStep world params trace requests (some (.tool thought tool args)))
      (fresh : some (callKey tool args) ≠ last) {runs : Trace}
      (allowed : ToolRuns params tool args runs) (error : AgentError) :
      Turn world params last trace
        (requests.map .chat ++ (.proposed tool args :: .handled tool args :: runs))
        (.stop (.error error))
  | handled {requests : List ChatRequest} {thought tool : Text} {args : Json}
      (goesOn : world.aborted trace = none)
      (asked : AsksStep world params trace requests (some (.tool thought tool args)))
      (fresh : some (callKey tool args) ≠ last) {runs : Trace}
      (allowed : ToolRuns params tool args runs) (known : params.tools.get tool ≠ none) :
      Turn world params last trace
        (requests.map .chat ++ (.proposed tool args :: .handled tool args :: runs))
        (.goOn (callKey tool args))

variable {world : World} {params : AgentParams}

/-- The arguments of a step list their keys as JavaScript does. -/
theorem AsksStep.proper {trace : Trace} {requests : List ChatRequest} {thought tool : Text}
    {args : Json} (asked : AsksStep world params trace requests (some (.tool thought tool args))) :
    args.Proper := by
  rcases asked.asks with ⟨messages, asks⟩
  rcases asks.accepts with ⟨reply, _, read⟩
  rcases schema_of_readReply read with ⟨value, extracted, accepted⟩
  rw [stepSchema] at accepted
  split at accepted
  · next step isStep =>
      cases accepted
      exact proper_args (proper_extractJson extracted) isStep
  · cases accepted

variable (world) (params)

theorem callTool_spec (name : Text) (args : Json) (trace : Trace) :
    ∃ runs, ToolRuns params name args runs ∧
      (callTool world params.tools params.ctx name args trace).2 = trace ++ runs ∧
      ∀ outcome, (callTool world params.tools params.ctx name args trace).1 = .ok outcome →
        params.tools.get name ≠ none := by
  rw [callTool]
  split
  · next unknown =>
      refine ⟨[], .missing unknown, (List.append_nil trace).symm, ?_⟩
      intro outcome returned
      cases returned
  · next tool registered =>
      have known : params.tools.get name ≠ none := by
        rw [registered]
        exact Option.some_ne_none tool
      split
      · next issues isRefused =>
          exact ⟨[], .refused registered isRefused, (List.append_nil trace).symm,
            fun _ _ => known⟩
      · next data accepted =>
          dsimp only
          split
          · refine ⟨_, .once registered accepted, rfl, ?_⟩
            intro outcome returned
            cases returned
          · exact ⟨_, .once registered accepted, rfl, fun _ _ => known⟩

theorem askStep_spec (state : AgentState) (trace : Trace) :
    ∃ requests : List ChatRequest,
      (askStep world params state trace).2 = trace ++ requests.map .chat ∧
      AsksStep world params trace requests
        ((askStep world params state trace).1.toOption.map Prod.fst) := by
  rcases attempt_spec _ _ _ _ _ with ⟨requests, short, traced, asks⟩
  exact ⟨requests, traced, short, _, asks⟩

/-- An iteration stops the loop or goes on with the key of its call. -/
theorem agentLoop_turn (left i : ℕ) (state : AgentState) (trace : Trace) :
    (∃ turn result, Turn world params state.lastCallKey trace turn (.stop result) ∧
      agentLoop world params (left + 1) i state trace = (result, trace ++ turn)) ∨
    ∃ turn key state', Turn world params state.lastCallKey trace turn (.goOn key) ∧
      state'.lastCallKey = some key ∧
      agentLoop world params (left + 1) i state trace =
        agentLoop world params left (i + 1) state' (trace ++ turn) := by
  rw [agentLoop]
  split
  · next isAborted => exact .inl ⟨_, _, .aborted isAborted _, rfl⟩
  · next goesOn =>
    rcases found : askStep world params state trace with ⟨answer, asked'⟩
    rcases askStep_spec world params state trace with ⟨requests, traced, asked⟩
    rw [found] at traced asked
    dsimp only at traced asked ⊢
    rw [traced]
    cases answer with
    | error error => exact .inl ⟨_, _, .unanswered goesOn asked error, rfl⟩
    | ok answer =>
        rcases answer with ⟨step, usage⟩
        cases step with
        | final thought answer =>
            refine .inl ⟨requests.map .chat ++ [.finalAnswer],
              .ok ({ state with usage := state.usage.add usage }.stop .final (some answer)
                (.final thought) i), .final goesOn asked rfl rfl, ?_⟩
            rw [← List.append_assoc]
        | tool thought tool args =>
            dsimp only
            split
            · next same =>
                refine .inl ⟨requests.map .chat ++ [.proposed tool args, .repeatDetected],
                  .ok ({ state with usage := state.usage.add usage }.stop .loopDetected none
                    (.stopped (ofString "repeated identical tool call") (some tool)) i),
                  .repeated goesOn asked same rfl, ?_⟩
                rw [← List.append_assoc]
            · next fresh =>
                rcases called : callTool world params.tools params.ctx tool args
                  (trace ++ requests.map .chat ++ [.proposed tool args, .handled tool args]) with
                  ⟨outcome, called'⟩
                rcases callTool_spec world params tool args
                  (trace ++ requests.map .chat ++ [.proposed tool args, .handled tool args]) with
                  ⟨runs, allowed, traced', known⟩
                rw [called] at traced' known ⊢
                dsimp only at traced' known ⊢
                have whole : called' = trace ++ (requests.map .chat ++
                    (.proposed tool args :: .handled tool args :: runs)) := by
                  rw [traced']
                  simp
                rw [whole]
                cases outcome with
                | error error => exact .inl ⟨_, _, .threw goesOn asked fresh allowed error, rfl⟩
                | ok outcome =>
                    exact .inr ⟨_, _, _,
                      .handled goesOn asked fresh allowed (known outcome rfl), rfl, rfl⟩

end WorkflowEngine
