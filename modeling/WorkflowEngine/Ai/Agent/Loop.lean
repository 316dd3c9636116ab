import WorkflowEngine.Ai.Generate

/-!
# The agent loop

The model proposes a tool call or gives a final answer; the loop decides whether the call
is allowed, validates its arguments, runs the tool and shows the result to the model.
-/

open Text

namespace WorkflowEngine

/-! ## Steps of the model -/

inductive AgentStep where
  | tool (thought tool : Text) (args : Json)
  | final (thought answer : Text)

/-- `z.string().max(500).default("")` -/
def thoughtOf : Option Json → Option Text
  | none => some []
  | some (.string thought) => if thought.length ≤ 500 then some thought else none
  | _ => none

/-- `z.enum(names)` -/
def toolOf (names : List Text) : Option Json → Option Text
  | some (.string name) => if name ∈ names then some name else none
  | _ => none

/-- `z.record(z.string(), z.unknown()).default({})`, which leaves out a key `__proto__` -/
def argsOf : Option Json → Option Json
  | none => some (.object [])
  | some (.object entries) =>
      some (.object (entries.filter fun entry => entry.1 != ofString "__proto__"))
  | _ => none

/-- `z.string().min(1).max(3000)` -/
def answerOf : Option Json → Option Text
  | some (.string answer) => if 1 ≤ answer.length ∧ answer.length ≤ 3000 then some answer else none
  | _ => none

/-- A text as a property of an object. -/
def isText (text : String) : Option Json → Bool
  | some (.string value) => value == ofString text
  | _ => false

/-- The step that a value is parsed as, if it matches the schema `Step`. -/
def stepOf (names : List Text) : Json → Option AgentStep
  | .object entries =>
      let field (name : String) := entries.lookup (ofString name)
      if isText "tool" (field "action") then do
        let thought ← thoughtOf (field "thought")
        let tool ← toolOf names (field "tool")
        let args ← argsOf (field "args")
        return .tool thought tool args
      else if isText "final" (field "action") then do
        let thought ← thoughtOf (field "thought")
        let answer ← answerOf (field "answer")
        return .final thought answer
      else none
  | _ => none

def stepSchema (world : World) (names : List Text) (value : Json) :
    Except (List Issue) AgentStep :=
  match stepOf names value with
  | some step => .ok step
  | none => .error (world.stepIssues value)

/-! ## Tool calls -/

/-- `!!value` -/
def isTruthy : Json → Bool
  | .null => false
  | .bool value => value
  | .number value => value.plain != .zero
  | .string value => !value.isEmpty
  | .array _ | .object _ => true

/-- `observation?.error` is set. -/
def hasError : Json → Bool
  | .object entries => (entries.lookup (ofString "error")).any isTruthy
  | _ => false

def errorObservation (message : Text) : Json := .object [(ofString "error", .string message)]

def maxObservationChars : ℕ := 2000

/-- A number in decimal. -/
def decimal (number : ℕ) : Text := ofString number.repr

/-- `Promise.race` against the timer, and the observation with whether it is fine. -/
def observe (tool : Tool) (name : Text) : Settled → Except AgentError (Json × Bool)
  | .returned (.json value) => .ok (value, !hasError value)
  | .returned .undefined | .returned .unprintable => .error .typeError
  | .threw none => .error .typeError
  | .threw (some error) =>
      match error.message with
      | some message => .ok (errorObservation (ofString message), false)
      | none => .ok (.object [], false)
  | .pending =>
      .ok (errorObservation (ofString "tool " ++ name ++ ofString " timed out after " ++
        decimal tool.timeoutMs ++ ofString "ms"), false)

def Issue.complaint (issue : Issue) : Text := join "." issue.path ++ ofString ": " ++ issue.message

/-- The observation of a tool call, whether it is fine, and the arguments for the log. -/
def callTool (world : World) (tools : Registry) (ctx : AgentContext) (name : Text) (args : Json)
    (trace : Trace) : Except AgentError (Json × Bool × Json) × Trace :=
  match tools.get name with
  | none => (.error .typeError, trace)
  | some tool =>
      match tool.schema args with
      | .error issues =>
          (.ok (errorObservation (ofString "invalid arguments: " ++
            join "; " (issues.map Issue.complaint)), false, args), trace)
      | .ok data =>
          let trace := trace ++ [.ran name data ctx]
          match observe tool name (world.settle trace) with
          | .error error => (.error error, trace)
          | .ok (observation, ok) => (.ok (observation, ok, data), trace)

/-! ## `runAgent` -/

/-- An entry of the log of a run. -/
inductive StepLog where
  | final (thought : Text)
  | stopped (reason : Text) (tool : Option Text)
  | tool (tool : Text) (args : Json) (ok : Bool) (observation thought : Text)

inductive AgentStatus where
  | final | maxIterations | loopDetected
  deriving DecidableEq, Repr

structure AgentResult where
  status : AgentStatus
  answer : Option Text
  steps : List StepLog
  usage : Usage
  iterations : ℕ

structure AgentParams where
  model : Text
  tools : Registry
  goal : Text
  ctx : AgentContext
  maxIterations : ℕ

structure AgentState where
  transcript : List Text
  steps : List StepLog
  usage : Usage
  lastCallKey : Option Text

/-- What the guard compares. -/
def callKey (tool : Text) (args : Json) : Text := tool ++ unit ':' :: args.stringify

def toolDoc (entry : Text × Tool) : Text :=
  ofString "- " ++ entry.1 ++ ofString ": " ++ entry.2.description ++
    ofString " Args JSON Schema: " ++ entry.2.jsonSchema

def systemPrompt (tools : Registry) : Text :=
  ofString ("You are an assistant that can use tools. Each turn, reply with exactly one JSON object:\n" ++
    "  \x7b\"action\":\"tool\",\"thought\":\"...\",\"tool\":\"<name>\",\"args\":\x7b...\x7d\x7d  to call a tool, or\n" ++
    "  \x7b\"action\":\"final\",\"thought\":\"...\",\"answer\":\"...\"\x7d  when you can answer.\n" ++
    "Available tools (you may use ONLY these):\n") ++
  join "\n" (tools.map toolDoc) ++
  ofString ("\nUse tool results to answer. Do not call the same tool with the same arguments twice.")

/-- What is added to the transcript after a tool call. -/
def transcriptEntry (i : ℕ) (tool : Text) (args : Json) (text : Text) : Text :=
  ofString "Step " ++ decimal i ++ ofString ": you called " ++ tool ++ ofString " with " ++
    args.stringify ++ ofString ".\nResult:\n" ++ wrapUntrusted (ofString "tool_result") text

namespace AgentState

def stop (state : AgentState) (status : AgentStatus) (answer : Option Text) (log : StepLog)
    (iterations : ℕ) : AgentResult :=
  { status, answer, steps := state.steps ++ [log], usage := state.usage, iterations }

/-- The state after a tool call. -/
def record (state : AgentState) (i : ℕ) (thought tool : Text) (args : Json)
    (outcome : Json × Bool × Json) : AgentState :=
  let text := outcome.1.stringify.take maxObservationChars
  { transcript := state.transcript ++ [transcriptEntry i tool args text]
    steps := state.steps ++ [.tool tool outcome.2.2 outcome.2.1 text thought]
    usage := state.usage
    lastCallKey := some (callKey tool args) }

end AgentState

/-- What the model is asked in one iteration. -/
def askStep (world : World) (params : AgentParams) (state : AgentState) (trace : Trace) :
    Except AgentError (AgentStep × Usage) × Trace :=
  generateStructured world (stepSchema world params.tools.keys)
    (world.stepSchema params.tools.keys) params.model (systemPrompt params.tools)
    (join "\n\n" state.transcript) trace

/-- The loop, with so many iterations left. -/
def agentLoop (world : World) (params : AgentParams) :
    ℕ → ℕ → AgentState → Trace → Except AgentError AgentResult × Trace
  | 0, _, state, trace =>
      (.ok (state.stop .maxIterations none
        (.stopped (ofString "max iterations (" ++ decimal params.maxIterations ++
          ofString ") reached") none) params.maxIterations), trace)
  | left + 1, i, state, trace =>
      match world.aborted trace with
      | some reason =>
          (.error (.thrown (some (reason.getD (.error "agent aborted")))), trace ++ [.abortSeen])
      | none =>
          match askStep world params state trace with
          | (.error error, trace) => (.error error, trace)
          | (.ok (.final thought answer, usage), trace) =>
              (.ok ({ state with usage := state.usage.add usage }.stop .final (some answer)
                (.final thought) i), trace ++ [.finalAnswer])
          | (.ok (.tool thought tool args, usage), trace) =>
              let state := { state with usage := state.usage.add usage }
              if some (callKey tool args) = state.lastCallKey then
                (.ok (state.stop .loopDetected none
                  (.stopped (ofString "repeated identical tool call") (some tool)) i),
                  trace ++ [.proposed tool args, .repeatDetected])
              else
                match callTool world params.tools params.ctx tool args
                  (trace ++ [.proposed tool args, .handled tool args]) with
                | (.error error, trace) => (.error error, trace)
                | (.ok outcome, trace) =>
                    agentLoop world params left (i + 1) (state.record i thought tool args outcome)
                      trace

/-- A run, and everything that happened in it. -/
def runAgent (world : World) (params : AgentParams) : Except AgentError AgentResult × Trace :=
  if params.tools.keys = [] then (.error .noTools, [])
  else
    agentLoop world params params.maxIterations 1
      { transcript := [ofString "Goal:\n" ++ wrapUntrusted (ofString "user_input") params.goal]
        steps := []
        usage := .zero
        lastCallKey := none }
      []

end WorkflowEngine
