import WorkflowEngine.Ai.Agent.Tools
import WorkflowEngine.Ai.Prompts
import WorkflowEngine.Ai.Structured
import WorkflowEngine.Workers.Retry

/-!
# Structured output with validation and repair

The model is asked until its reply matches the schema, with its own reply and the
complaints sent back to it, a bounded number of times.
-/

open Text

namespace WorkflowEngine

/-! ## The provider -/

inductive ChatRole where
  | system | user | assistant
  deriving DecidableEq, Repr

structure Message where
  role : ChatRole
  content : Text
  deriving DecidableEq, Repr

/-- The arguments of `provider.chat`. -/
structure ChatRequest where
  model : Text
  messages : List Message
  temperature : ℕ
  json : Bool
  deriving DecidableEq, Repr

structure Usage where
  inputTokens : ℕ
  outputTokens : ℕ
  deriving DecidableEq, Repr

def Usage.zero : Usage := ⟨0, 0⟩

def Usage.add (usage more : Usage) : Usage :=
  ⟨usage.inputTokens + more.inputTokens, usage.outputTokens + more.outputTokens⟩

structure ChatReply where
  content : Text
  usage : Usage
  deriving DecidableEq, Repr

/-! ## What happens in a run -/

/-- What the tools are called with besides their arguments. -/
structure AgentContext where
  ownerId : UserId
  deriving DecidableEq, Repr

/-- A call that leaves the agent, or a decision of its loop. -/
inductive AgentEvent where
  | chat (request : ChatRequest)
  /-- a tool call of the model that matches the schema -/
  | proposed (tool : Text) (args : Json)
  /-- a proposal that is not a repetition -/
  | handled (tool : Text) (args : Json)
  /-- `tool.run` -/
  | ran (tool : Text) (args : Json) (ctx : AgentContext)
  | finalAnswer
  | repeatDetected
  | abortSeen

abbrev Trace := List AgentEvent

/-- A value that a tool returns. -/
inductive ToolValue where
  | json (value : Json)
  | undefined
  /-- `JSON.stringify` throws for it -/
  | unprintable

/-- How the run of a tool ends. -/
inductive Settled where
  | returned (value : ToolValue)
  | threw (error : Option Thrown)
  /-- not before its timeout -/
  | pending

/-- Whatever the provider, the tools and the caller may do, after what has happened so
far. -/
structure World where
  /-- the answer to the last chat request -/
  chat : Trace → Except (Option Thrown) ChatReply
  /-- the end of the last run of a tool -/
  settle : Trace → Settled
  /-- the reason of the abort, if `runSignal.aborted` -/
  aborted : Trace → Option (Option Thrown)
  /-- the complaints about a step -/
  stepIssues : Json → List Issue
  /-- the schema of the steps as printed JSON, given the names of the tools -/
  stepSchema : List Text → Text
  /-- the message of the error that `JSON.parse` throws for a reply -/
  syntaxError : Text → Text

inductive AgentError where
  /-- thrown by the provider, or the reason of an abort -/
  | thrown (error : Option Thrown)
  | noTools
  | structuredOutput (attempts : ℕ) (lastOutput : Text) (issues : List Text)
  | typeError

/-! ## `generateStructured` -/

/-- `array.join(separator)` -/
def join (separator : String) (texts : List Text) : Text := (ofString separator).intercalate texts

def Issue.line (issue : Issue) : Text :=
  let path := join "." issue.path
  (if path = [] then ofString "(root)" else path) ++ ofString ": " ++ issue.message

/-- The data of a reply, or the complaints and how they are put to the model. -/
def readReply {Data : Type} (world : World) (schema : Json → Except (List Issue) Data)
    (content : Text) : Except (List Text × Text) Data :=
  let invalidJson := fun message =>
    ([ofString "invalid JSON: " ++ message],
      ofString "It is not valid JSON (" ++ message ++ ofString ").")
  match extractJson content with
  | .error (.error message) => .error (invalidJson (ofString message))
  | .error .unexpectedToken => .error (invalidJson (world.syntaxError content))
  | .ok value =>
      match schema value with
      | .ok data => .ok data
      | .error issues =>
          .error (issues.map Issue.line,
            ofString "It does not match the schema:\n- " ++ join "\n- " (issues.map Issue.line))

def repairMessages (content problem : Text) : List Message :=
  [⟨.assistant, content⟩,
    ⟨.user, ofString "Your previous reply was invalid. " ++ problem ++
      ofString "\nReturn ONLY the corrected JSON object."⟩]

/-- Where the loop over the attempts is. -/
structure Attempts where
  messages : List Message
  usage : Usage
  lastOutput : Text
  lastIssues : List Text

/-- The loop, with so many attempts left. -/
def attempt {Data : Type} (world : World) (schema : Json → Except (List Issue) Data)
    (model : Text) (total : ℕ) : ℕ → Attempts → Trace → Except AgentError (Data × Usage) × Trace
  | 0, state, trace =>
      (.error (.structuredOutput total (state.lastOutput.take 500) state.lastIssues), trace)
  | left + 1, state, trace =>
      let trace := trace ++ [.chat ⟨model, state.messages, 0, true⟩]
      match world.chat trace with
      | .error error => (.error (.thrown error), trace)
      | .ok reply =>
          match readReply world schema reply.content with
          | .ok data => (.ok (data, state.usage.add reply.usage), trace)
          | .error (issues, problem) =>
              attempt world schema model total left
                { messages := state.messages ++ repairMessages reply.content problem
                  usage := state.usage.add reply.usage
                  lastOutput := reply.content
                  lastIssues := issues }
                trace

/-- The default of `maxRepairs`. -/
def maxRepairs : ℕ := 2

def systemMessage (system jsonSchema : Text) : Message :=
  ⟨.system, system ++ ofString "\n\n" ++ untrustedDataRule ++
    ofString "\n\nRespond with ONE JSON object only, no prose, matching this JSON Schema:\n" ++
    jsonSchema⟩

def generateStructured {Data : Type} (world : World) (schema : Json → Except (List Issue) Data)
    (jsonSchema model system user : Text) (trace : Trace) :
    Except AgentError (Data × Usage) × Trace :=
  attempt world schema model (maxRepairs + 1) (maxRepairs + 1)
    { messages := [systemMessage system jsonSchema, ⟨.user, user⟩]
      usage := .zero
      lastOutput := []
      lastIssues := [] }
    trace

/-! ## What the loop does -/

variable {Data : Type} {world : World} {schema : Json → Except (List Issue) Data}

theorem schema_of_readReply {content : Text} {data : Data}
    (read : readReply world schema content = .ok data) :
    ∃ value, extractJson content = .ok value ∧ schema value = .ok data := by
  rw [readReply] at read
  split at read
  · cases read
  · cases read
  · next value extracted =>
      split at read
      · next accepted =>
          cases read
          exact ⟨value, extracted, accepted⟩
      · cases read

/-- After this trace the provider has sent a reply that the schema does not accept, with this
complaint about it. -/
def Rejected (world : World) (schema : Json → Except (List Issue) Data) (trace : Trace)
    (content problem : Text) : Prop :=
  ∃ reply issues, world.chat trace = .ok reply ∧ reply.content = content ∧
    readReply world schema content = .error (issues, problem)

/-- After this trace the provider has sent a reply that is read as this data. -/
def Accepted (world : World) (schema : Json → Except (List Issue) Data) (trace : Trace)
    (data : Data) : Prop :=
  ∃ reply, world.chat trace = .ok reply ∧ readReply world schema reply.content = .ok data

/-- The requests of the loop after a trace, and the data that it ends with if it does. -/
inductive Asks (world : World) (schema : Json → Except (List Issue) Data) (model : Text) :
    List Message → Trace → List ChatRequest → Option Data → Prop where
  | gaveUp {messages : List Message} {trace : Trace} :
      Asks world schema model messages trace [] none
  | threw {messages : List Message} {trace : Trace} {error : Option Thrown} :
      world.chat (trace ++ [.chat ⟨model, messages, 0, true⟩]) = .error error →
      Asks world schema model messages trace [⟨model, messages, 0, true⟩] none
  | accepted {messages : List Message} {trace : Trace} {data : Data} :
      Accepted world schema (trace ++ [.chat ⟨model, messages, 0, true⟩]) data →
      Asks world schema model messages trace [⟨model, messages, 0, true⟩] (some data)
  | rejected {messages : List Message} {trace : Trace} {content problem : Text}
      {requests : List ChatRequest} {result : Option Data} :
      Rejected world schema (trace ++ [.chat ⟨model, messages, 0, true⟩]) content problem →
      Asks world schema model (messages ++ repairMessages content problem)
        (trace ++ [.chat ⟨model, messages, 0, true⟩]) requests result →
      Asks world schema model messages trace (⟨model, messages, 0, true⟩ :: requests) result

/-- Only chat requests are made, one for each attempt. -/
theorem attempt_spec (model : Text) (total left : ℕ) (state : Attempts) (trace : Trace) :
    ∃ requests : List ChatRequest, requests.length ≤ left ∧
      (attempt world schema model total left state trace).2 = trace ++ requests.map .chat ∧
      Asks world schema model state.messages trace requests
        ((attempt world schema model total left state trace).1.toOption.map Prod.fst) := by
  induction left generalizing state trace with
  | zero => exact ⟨[], le_refl _, (List.append_nil trace).symm, .gaveUp⟩
  | succ left ih =>
      rw [attempt]
      split
      · next failed => exact ⟨[_], Nat.le_add_left _ _, rfl, .threw failed⟩
      · next reply answered =>
          split
          · next read =>
              exact ⟨[_], Nat.le_add_left _ _, rfl, .accepted ⟨reply, answered, read⟩⟩
          · next issues problem read =>
              rcases ih { messages := state.messages ++ repairMessages reply.content problem
                          usage := state.usage.add reply.usage
                          lastOutput := reply.content
                          lastIssues := issues }
                (trace ++ [.chat ⟨model, state.messages, 0, true⟩]) with
                  ⟨requests, short, traced, asks⟩
              refine ⟨⟨model, state.messages, 0, true⟩ :: requests, Nat.succ_le_succ short, ?_,
                .rejected ⟨reply, issues, answered, rfl, read⟩ asks⟩
              rw [traced, List.append_assoc, List.map_cons, List.singleton_append]

namespace Asks

variable {model : Text} {messages : List Message} {trace : Trace} {requests : List ChatRequest}
  {result : Option Data}

/-- The trace of the first requests, as the provider sees the last of them. -/
theorem chats_succ (trace : Trace) (first : ChatRequest) (requests : List ChatRequest) (count : ℕ) :
    trace ++ ((first :: requests).take (count + 1)).map AgentEvent.chat =
      trace ++ [.chat first] ++ (requests.take count).map .chat := by
  rw [List.take_succ_cons, List.map_cons, List.append_assoc, List.singleton_append]

/-- The last reply is the one that is accepted. -/
theorem accepts {data : Data}
    (asks : Asks world schema model messages trace requests (some data)) :
    Accepted world schema (trace ++ requests.map .chat) data := by
  generalize isResult : some data = result at asks
  induction asks with
  | gaveUp | threw => cases isResult
  | accepted accepted =>
      cases isResult
      exact accepted
  | rejected _ _ ih =>
      have later := ih isResult
      rwa [List.append_assoc, List.singleton_append, ← List.map_cons] at later

theorem ne_nil {data : Data}
    (asks : Asks world schema model messages trace requests (some data)) : requests ≠ [] := by
  rintro rfl
  cases asks

end Asks

end WorkflowEngine
