import WorkflowEngine.Services.Access
import WorkflowEngine.Services.Canonical

/-!
# Cron expressions and slots

The cron parser is a package of its own; what the scheduler relies on is that the next
run lies after the time it is asked for.
-/

open Separators

namespace WorkflowEngine

/-- The packages that know cron expressions and timezones. -/
structure CronParser where
  /-- `Intl.DateTimeFormat` accepts the timezone -/
  knownTimezone : String → Bool
  /-- why the expression is rejected -/
  parseError : (expr timezone : String) → Option String
  /-- the first slot after a time -/
  next : (expr : String) → (after : Time) → (timezone : String) → Time
  lt_next : ∀ expr after timezone, after < next expr after timezone

/-- White space of JavaScript. -/
def isSpace (char : Char) : Bool :=
  [9, 10, 11, 12, 13, 32, 160, 5760, 8232, 8233, 8239, 8287, 12288, 65279].contains char.toNat ||
    decide (8192 ≤ char.toNat) && decide (char.toNat ≤ 8202)

/-- `String(expr).trim().split(/\s+/)` -/
def cronFields (expr : String) : List (List Char) :=
  (expr.toList.splitOnP isSpace).filter fun field => !field.isEmpty

/-- Standard 5-field cron only. -/
def assertValidCron (parser : CronParser) (expr timezone : String) : Except ServiceError Unit :=
  if (cronFields expr).length ≠ 5 then
    .error (.app (validationError
      "cron must have exactly 5 fields: minute hour day-of-month month day-of-week"
      "INVALID_CRON" .none))
  else if !parser.knownTimezone timezone then
    .error (.app (validationError
      s!"Invalid cron expression or timezone: unknown timezone \"{timezone}\""
      "INVALID_CRON" .none))
  else
    match parser.parseError expr timezone with
    | some message => .error (.app (validationError
        s!"Invalid cron expression or timezone: {message}" "INVALID_CRON" .none))
    | none => .ok ()

/-- The first slot strictly after `after`, in the given IANA timezone. -/
def nextRunAfter (parser : CronParser) (expr : String) (after : Time) (timezone : String) : Time :=
  parser.next expr after timezone

/-! ## The slot of a run -/

/-- A number with leading zeros. -/
def padded (width number : Nat) : List Char :=
  let digits := number.repr.toList
  List.replicate (width - digits.length) '0' ++ digits

/-- Year, month and day of a day number, which counts from 1970-01-01. -/
def civilDate (days : Int) : Int × Nat × Nat :=
  let shifted := days + 719468
  let era := shifted / 146097
  let dayOfEra := (shifted % 146097).toNat
  let yearOfEra := (dayOfEra - dayOfEra / 1460 + dayOfEra / 36524 - dayOfEra / 146096) / 365
  let dayOfYear := dayOfEra - (365 * yearOfEra + yearOfEra / 4 - yearOfEra / 100)
  -- months are counted from March, so that the leap day comes last
  let month := (5 * dayOfYear + 2) / 153
  let day := dayOfYear - (153 * month + 2) / 5 + 1
  let year := yearOfEra + era * 400
  if month < 10 then (year, month + 3, day) else (year + 1, month - 9, day)

/-- Four digits; six and a sign outside of 0 to 9999. -/
def yearText (year : Int) : List Char :=
  if 0 ≤ year ∧ year ≤ 9999 then padded 4 year.toNat
  else if 0 ≤ year then '+' :: padded 6 year.toNat
  else '-' :: padded 6 year.natAbs

/-- `date.toISOString()` -/
def toISOString (time : Time) : List Char :=
  let ms := (time % 86400000).toNat
  let date := civilDate (time / 86400000)
  yearText date.1 ++ '-' :: padded 2 date.2.1 ++ '-' :: padded 2 date.2.2 ++
    'T' :: padded 2 (ms / 3600000) ++ ':' :: padded 2 (ms / 60000 % 60) ++
    ':' :: padded 2 (ms / 1000 % 60) ++ '.' :: padded 3 (ms % 1000) ++ ['Z']

example : toISOString 1790330400000 = "2026-09-25T10:00:00.000Z".toList := by
  decide +kernel

/-- The idempotency key of a scheduled run. -/
def slotKey (workflowId : ObjectId) (slot : Time) : String :=
  String.ofList ("schedule:".toList ++ workflowId.repr.toList ++ ':' :: toISOString slot)

theorem toList_slotKey (workflowId : ObjectId) (slot : Time) :
    (slotKey workflowId slot).toList =
      "schedule:".toList ++ workflowId.repr.toList ++ ':' :: toISOString slot := by
  unfold slotKey
  exact String.toList_ofList

/-- The key of a slot names its workflow. -/
theorem slotKey_workflow {workflowId workflowId' : ObjectId} {slot slot' : Time}
    (same : slotKey workflowId slot = slotKey workflowId' slot') : workflowId = workflowId' := by
  have texts := congrArg String.toList same
  rw [toList_slotKey, toList_slotKey, List.append_assoc, List.append_assoc] at texts
  have rest : workflowId.repr.toList ++ ':' :: toISOString slot =
      workflowId'.repr.toList ++ ':' :: toISOString slot' := List.append_cancel_left texts
  have split := append_cons_inj_left (not_mem_repr rfl) (not_mem_repr rfl) rest
  exact Nat.repr_injective (String.toList_injective split.1)

theorem colon_mem_slotKey (workflowId : ObjectId) (slot : Time) :
    ':' ∈ (slotKey workflowId slot).toList := by
  rw [toList_slotKey]
  exact List.mem_append_right _ List.mem_cons_self

/-- `/^[A-Za-z0-9_-]{8,128}$/` -/
def idempotencyKeySchema (key : String) : Bool :=
  decide (8 ≤ key.toList.length) && decide (key.toList.length ≤ 128) &&
    key.toList.all fun char => char.isAlphanum || char == '_' || char == '-'

/-- The `Idempotency-Key` header of a request. -/
structure IdempotencyKey where
  text : String
  valid : idempotencyKeySchema text = true
  deriving DecidableEq

/-- A client's key is not the key of a slot. -/
theorem IdempotencyKey.ne_slotKey (key : IdempotencyKey) (workflowId : ObjectId) (slot : Time) :
    key.text ≠ slotKey workflowId slot := by
  intro same
  have allowed := (Bool.and_eq_true_iff.mp key.valid).2
  rw [same] at allowed
  have colon := List.all_eq_true.mp allowed ':' (colon_mem_slotKey workflowId slot)
  revert colon
  decide

/-- A client's key is not empty. -/
theorem IdempotencyKey.ne_empty (key : IdempotencyKey) : key.text ≠ "" := by
  intro same
  have valid := key.valid
  rw [same] at valid
  revert valid
  decide

end WorkflowEngine
