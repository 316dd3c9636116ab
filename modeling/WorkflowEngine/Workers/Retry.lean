import WorkflowEngine.Foundations.Text

/-!
# Task failures

What a handler threw, as the engine looks at it: which failures deserve a retry
and the text that is stored.
-/

namespace WorkflowEngine

/-- A thrown JavaScript value that is neither `null` nor `undefined`. -/
structure Thrown where
  name : Option String
  message : Option String
  /-- `String(error)` -/
  text : String
  /-- `instanceof NonRetryableError` -/
  nonRetryableError : Bool
  /-- the value's own `retryable` property -/
  retryable : Option Bool
  /-- `false`, a zero, `NaN` or the empty string -/
  falsy : Bool := false
  deriving DecidableEq, Repr

/-- Retry by default; opt out with `NonRetryableError` or `retryable = false`. -/
def isRetryable : Option Thrown → Bool
  | none => true
  | some thrown => !thrown.nonRetryableError && thrown.retryable != some false

/-- Whether the thrown value counts as true: `if (failure)`. -/
def isFailure : Option Thrown → Bool
  | none => false
  | some thrown => !thrown.falsy

/-- `String(error?.message ?? error ?? "Task failed").slice(0, 2000)`, as MongoDB stores it:
for the half of a surrogate pair that is cut it stores U+FFFD. -/
def failureMessage (error : Option Thrown) : String :=
  let text := match error with
    | none => "Task failed"
    | some thrown => thrown.message.getD thrown.text
  Text.decode ((Text.encode text).take 2000)

/-- A plain `new Error(message)`. -/
def Thrown.error (message : String) : Thrown :=
  { name := some "Error", message := some message, text := s!"Error: {message}"
    nonRetryableError := false, retryable := none }

end WorkflowEngine
