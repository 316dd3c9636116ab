import WorkflowEngine.Foundations.Json

/-!
# Structured replies

`extractJson` finds the JSON object in the reply of a model, which may stand in a fence
or between other words.
-/

open Text Json

namespace WorkflowEngine

/-- The mark of a code block. -/
def fence : Text := ofString "```"

/-! ## The fence of a reply

The matches of ``/```(?:json)?\s*([\s\S]*?)```/i``: a list gives the ways in which a part
of the expression can match, in the order in which they are tried. -/

/-- The same letter in lower case, for letters of ASCII. -/
def lowerCase (first : CodeUnit) : CodeUnit :=
  if unit 'A' ≤ first && first ≤ unit 'Z' then first + 32 else first

/-- What can follow after `(?:json)?`. -/
def afterJson (text : Text) : List Text :=
  if (text.take 4).map lowerCase = ofString "json" then [text.drop 4, text] else [text]

/-- What can follow after `\s*`, with the most spaces first. -/
def afterSpaces : Text → List Text
  | [] => [[]]
  | first :: rest =>
      if isWhiteSpace first then afterSpaces rest ++ [first :: rest] else [first :: rest]

/-- The shortest text before a fence. -/
def capture : Text → Option Text
  | [] => none
  | first :: rest =>
      if fence.isPrefixOf (first :: rest) then some [] else (capture rest).map (first :: ·)

/-- The captured text of a match at the beginning. -/
def matchFence (text : Text) : Option Text :=
  if fence.isPrefixOf text then
    (afterJson (text.drop 3)).findSome? fun rest => (afterSpaces rest).findSome? capture
  else none

/-- The captured text of the first match. -/
def fenced (text : Text) : Option Text := text.tails.findSome? matchFence

/-! ## The object -/

inductive ExtractError where
  | error (message : String)
  /-- What `JSON.parse` throws. -/
  | unexpectedToken
  deriving DecidableEq

/-- The last position of a code unit. -/
def lastIndexOf (mark : CodeUnit) : Text → Option ℕ
  | [] => none
  | first :: rest =>
      match lastIndexOf mark rest with
      | some index => some (index + 1)
      | none => if first = mark then some 0 else none

/-- Models often wrap JSON in json fences or add a sentence around it. -/
def extractJson (text : Text) : Except ExtractError Json :=
  let candidate := (fenced text).getD text
  match candidate.idxOf? (unit '{'), lastIndexOf (unit '}') candidate with
  | some start, some last =>
      if last ≤ start then .error (.error "no JSON object found")
      else
        match parse ((candidate.take (last + 1)).drop start) with
        | some value => .ok value
        | none => .error .unexpectedToken
  | _, _ => .error (.error "no JSON object found")

end WorkflowEngine
