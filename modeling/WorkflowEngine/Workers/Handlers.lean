import WorkflowEngine.Foundations.Objects
import WorkflowEngine.Workers.RunTask

/-!
# The handler of a task

Handlers are looked up by the type of the task in a plain object.
-/

open Objects

namespace WorkflowEngine

/-- `new NonRetryableError(message)` -/
def Thrown.nonRetryable (message : String) : Thrown :=
  { name := some "NonRetryableError", message := some message
    text := "NonRetryableError: " ++ message, nonRetryableError := true, retryable := some false }

/-- `new TypeError(message)` -/
def Thrown.typeError (message : String) : Thrown :=
  { name := some "TypeError", message := some message, text := "TypeError: " ++ message
    nonRetryableError := false, retryable := none }

variable {Val : Type}

/-- The registered handlers, each with what it does for a started task. -/
abbrev HandlerTable (Val : Type) := Entries String (Started Val → HandlerResult Val)

/-- Values and texts of JavaScript. -/
structure Runtime (Val : Type) where
  /-- the object that a handler is given, as an output -/
  context : Started Val → Val
  string : String → Val
  /-- why a property of `Object.prototype` cannot be called alone -/
  typeError : String → String

/-- A property of `Object.prototype`, called with the object for the handler and nothing
for `this`: `Object` returns its argument, `toString` knows what to say of nothing. -/
def callInherited (runtime : Runtime Val) (claimed : Started Val) (name : String) :
    HandlerResult Val :=
  if name = "constructor" then .returned (runtime.context claimed)
  else if name = "toString" then .returned (runtime.string "[object Undefined]")
  else .threw (some (.typeError (runtime.typeError name)))

/-- How the handler ends, or why there is none. -/
def runHandler (runtime : Runtime Val) (handlers : HandlerTable Val) (claimed : Started Val) :
    HandlerResult Val :=
  match find objectPrototype handlers claimed.task.type with
  | .own handler => handler claimed
  | .inherited name => callInherited runtime claimed name
  | .missing =>
      .threw (some (.nonRetryable
        ("No handler registered for task type \"" ++ claimed.task.type ++ "\"")))

/-- The report on a task that is run with these handlers. -/
def runTaskWith [Mixed Val] (runtime : Runtime Val) (handlers : HandlerTable Val) (claimed : Started Val) :
    Op Val :=
  runTask claimed (runHandler runtime handlers claimed)

/-- The characters of a task type. -/
def isTypeChar (char : Char) : Bool :=
  char.isLower || char.isDigit || char == '.' || char == '_' || char == '-'

/-- `/^[a-z][a-z0-9._-]{0,63}$/` -/
def typePattern (type : String) : Bool :=
  match type.toList with
  | [] => false
  | first :: rest => first.isLower && decide (rest.length ≤ 63) && rest.all isTypeChar

end WorkflowEngine
