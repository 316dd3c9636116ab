import WorkflowEngine.Foundations.Json
import WorkflowEngine.Foundations.Utf8

/-!
# Messages of the analytics consumer

The value of a message is parsed and processed whatever it is: nothing says that it is an
event.  What Mongoose makes of the values in it is given by its casts.
-/

open Text Numerals

namespace WorkflowEngine.Consumers

/-! ## Properties and dates -/

/-- What stops a call. -/
inductive Failure where
  /-- an error of the language with this name -/
  | error (name : String)
  /-- a document that is not valid, or a filter that cannot be cast -/
  | invalid
  /-- a duplicate key, with the fields of its index -/
  | duplicateKey (keyPattern : List String)
  deriving DecidableEq, Repr

def isNull : Json → Bool
  | .null => true
  | _ => false

/-- The own property of a value, where `undefined` is `none`. -/
def field : Json → Text → Option Json
  | .object entries, name => entries.lookup name
  | _, _ => none

/-- `value.name` -/
def property (value : Json) (name : Text) : Except Failure (Option Json) :=
  if isNull value then .error (.error "TypeError") else .ok (field value name)

/-- A value that is neither `undefined` nor `null`. -/
def given (value : Option Json) : Option Json := value.filter fun value => !isNull value

mutual

/-- `String(value)`; an own `toString` is not a function. -/
def toText : Json → Option Text
  | .null => some (ofString "null")
  | .bool value => some (ofString (if value then "true" else "false"))
  | .number value => some (numberText value)
  | .string value => some value
  | .array items => (itemTexts items).map (ofString ",").intercalate
  | .object entries =>
      if ofString "toString" ∈ entries.map Prod.fst then none
      else some (ofString "[object Object]")

/-- The items of an array as `join` prints them. -/
def itemTexts : List Json → Option (List Text)
  | [] => some []
  | item :: rest =>
      (toText item).bind fun text =>
        (itemTexts rest).map ((if isNull item then [] else text) :: ·)

end

/-- A whole number of milliseconds within the range of dates. -/
def timeClip : Number → Option ℤ
  | .finite number =>
      if |number.value| ≤ 8640000000000000 then
        some (if 0 ≤ number.value then ⌊number.value⌋ else ⌈number.value⌉)
      else none
  | .negativeZero => some 0
  | .infinite _ => none

/-- The type of stored counters that a filter admits, and the type of a counter that is
inserted with it. -/
structure TypeFilter where
  admits : Option Text → Bool
  inserted : Option Text

/-- The packages and the parts of the language that the consumer leaves decisions to. -/
structure Host where
  /-- `Date.parse` -/
  parseDate : Text → Option ℤ
  /-- `new Date(time).toISOString().slice(0, 10)` -/
  isoDay : ℤ → Text
  /-- a value that is not null, cast to a path of type String -/
  castString : Json → Option Text
  /-- a value, cast in a filter on a path of type String -/
  castFilter : Option Json → Option TypeFilter

variable (host : Host)

/-- The time value of `new Date(value)`, where an invalid one is `none`. -/
def dateValue : Json → Except Failure (Option ℤ)
  | .bool value => .ok (some (if value then 1 else 0))
  | .number value => .ok (timeClip value)
  | .string value => .ok (host.parseDate value)
  | value =>
      match toText value with
      | none => .error (.error "TypeError")
      | some text => .ok (host.parseDate text)

/-! ## The database -/

structure EventStat where
  day : Text
  type : Option Text
  count : ℕ
  deriving DecidableEq, Repr

structure Db where
  /-- the consumer and the id of processed events -/
  processed : List (String × Text)
  stats : List EventStat
  deriving DecidableEq, Repr

def Db.empty : Db := ⟨[], []⟩

/-- A value for a path of type String that is required: the empty string does not count. -/
def requiredString (value : Option Json) : Option Text :=
  ((given value).bind host.castString).filter (· ≠ [])

/-- `ProcessedEvent.create` -/
def createProcessed (db : Db) (consumer : String) (eventId : Option Json) : Except Failure Db :=
  match requiredString host eventId with
  | none => .error .invalid
  | some id =>
      if (consumer, id) ∈ db.processed then .error (.duplicateKey ["consumer", "eventId"])
      else .ok { db with processed := (consumer, id) :: db.processed }

/-- The first counter that the filter finds is incremented. -/
def increment (day : Text) (filter : TypeFilter) : List EventStat → Option (List EventStat)
  | [] => none
  | stat :: rest =>
      if stat.day = day ∧ filter.admits stat.type = true then
        some ({ stat with count := stat.count + 1 } :: rest)
      else (increment day filter rest).map (stat :: ·)

/-- `EventStat.updateOne` with `upsert`. -/
def countEvent (db : Db) (day : Text) (type : Option Json) : Except Failure Db :=
  match host.castFilter type with
  | none => .error .invalid
  | some filter =>
      match increment day filter db.stats with
      | some stats => .ok { db with stats }
      | none =>
          if ∃ stat ∈ db.stats, stat.day = day ∧ stat.type = filter.inserted then
            .error (.duplicateKey ["day", "type"])
          else .ok { db with stats := ⟨day, filter.inserted, 1⟩ :: db.stats }

/-! ## The consumer -/

inductive Outcome where
  | applied | duplicate | skipped
  deriving DecidableEq, Repr

def consumerName : String := "analytics"

/-- `event.occurredAt ?? Date.now()`, as a day. -/
def eventDay (now : ℤ) (event : Json) : Except Failure Text := do
  match given (← property event (ofString "occurredAt")) with
  | none => .ok (host.isoDay now)
  | some value =>
      match (← dateValue host value) with
      | none => .error (.error "RangeError")
      | some time => .ok (host.isoDay time)

/-- The transaction of `process`. -/
def applyEvent (db : Db) (day : Text) (event : Json) : Except Failure Db := do
  let db ← createProcessed host db consumerName (← property event (ofString "eventId"))
  countEvent host db day (← property event (ofString "type"))

/-- What `process` makes of its transaction; one that throws leaves the database as it
was. -/
def settled (db : Db) : Except Failure Db → Except Failure (Outcome × Db)
  | .ok db' => .ok (.applied, db')
  | .error (.duplicateKey keyPattern) =>
      if "eventId" ∈ keyPattern then .ok (.duplicate, db) else .error (.duplicateKey keyPattern)
  | .error failure => .error failure

/-- `process` -/
def processEvent (now : ℤ) (db : Db) (event : Json) : Except Failure (Outcome × Db) := do
  let day ← eventDay host now event
  settled db (applyEvent host db day event)

/-- The parsed value of a message; a message without a value throws as one that is not JSON
does. -/
def readMessage (value : Option (List UInt8)) : Option Json :=
  value.bind fun bytes => Json.parse (Utf8.decode bytes)

def eachMessage (now : ℤ) (db : Db) (value : Option (List UInt8)) :
    Except Failure (Outcome × Db) :=
  match readMessage value with
  | none => .ok (.skipped, db)
  | some event => processEvent host now db event

end WorkflowEngine.Consumers
