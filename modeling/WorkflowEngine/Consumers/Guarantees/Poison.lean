import WorkflowEngine.Consumers.Messages
import WorkflowEngine.Foundations.JsonReading

/-!
# Messages that block the partition

A message that is not JSON is skipped.  One that is JSON but no event makes the consumer
throw, and it is delivered again.
-/

open Text

namespace WorkflowEngine.Consumers

variable (host : Host) (now : ℤ) (db : Db) (event : Json)

/-- The message is handled: applied, recognised as a duplicate or skipped. -/
def Returns (value : Option (List UInt8)) : Prop :=
  ∃ outcome db', eachMessage host now db value = .ok (outcome, db')

/-! ## What an event needs -/

/-- `occurredAt` is missing or a date. -/
def Dated : Prop :=
  ∀ value, given (field event (ofString "occurredAt")) = some value →
    ∃ time, dateValue host value = .ok (some time)

/-- The day of a dated event. -/
def dayOf : Text :=
  match given (field event (ofString "occurredAt")) with
  | none => host.isoDay now
  | some value => host.isoDay ((dateValue host value).toOption.join.getD now)

/-- The counter that the filter finds can be incremented, or a new one can be inserted. -/
def Countable (day : Text) (filter : TypeFilter) : Prop :=
  (∃ stat ∈ db.stats, stat.day = day ∧ filter.admits stat.type = true) ∨
    ¬ ∃ stat ∈ db.stats, stat.day = day ∧ stat.type = filter.inserted

/-- What a parsed message needs to be processed. -/
structure Processable : Prop where
  notNull : isNull event = false
  dated : Dated host event
  identified : ∃ id, requiredString host (field event (ofString "eventId")) = some id ∧
    ((consumerName, id) ∈ db.processed ∨
      ∃ filter, host.castFilter (field event (ofString "type")) = some filter ∧
        Countable db (dayOf host now event) filter)

variable {host now db event}

/-! ## The steps of `process` -/

theorem property_eq (notNull : isNull event = false) (name : Text) :
    property event name = .ok (field event name) := by
  rw [property, notNull]
  rfl

theorem eventDay_of_dated (notNull : isNull event = false) (dated : Dated host event) :
    eventDay host now event = .ok (dayOf host now event) := by
  rw [eventDay, property_eq notNull, dayOf]
  cases occurred : given (field event (ofString "occurredAt")) with
  | none => simp only [bind, Except.bind, occurred]
  | some value =>
      rcases dated value occurred with ⟨time, isTime⟩
      simp only [bind, Except.bind, occurred, isTime]
      rfl

theorem dated_of_eventDay {day : Text} (returned : eventDay host now event = .ok day) :
    isNull event = false ∧ Dated host event := by
  rw [eventDay, property] at returned
  split at returned
  · cases returned
  · next notNull =>
      refine ⟨Bool.not_eq_true _ ▸ notNull, ?_⟩
      intro value occurred
      simp only [bind, Except.bind, occurred] at returned
      cases isDate : dateValue host value with
      | error failure =>
          rw [isDate] at returned
          cases returned
      | ok date =>
          rw [isDate] at returned
          cases date with
          | none => cases returned
          | some time => exact ⟨time, rfl⟩

theorem increment_eq_none_iff {day : Text} {filter : TypeFilter} {stats : List EventStat} :
    increment day filter stats = none ↔
      ¬ ∃ stat ∈ stats, stat.day = day ∧ filter.admits stat.type = true := by
  induction stats with
  | nil =>
      rw [increment]
      simp
  | cons stat rest ih =>
      have first : (∃ other ∈ stat :: rest, other.day = day ∧ filter.admits other.type = true) ↔
          (stat.day = day ∧ filter.admits stat.type = true) ∨
            ∃ other ∈ rest, other.day = day ∧ filter.admits other.type = true := by
        simp
      rw [increment, first]
      split
      · next found => exact iff_of_false nofun fun none_ => none_ (.inl found)
      · next other =>
          rw [Option.map_eq_none_iff, ih, not_or]
          exact (and_iff_right other).symm

/-- The counting succeeds, or it is refused with an error that is not a duplicate event. -/
theorem countEvent_spec (db : Db) (day : Text) (type : Option Json) :
    ((∃ db', countEvent host db day type = .ok db') ∧
      ∃ filter, host.castFilter type = some filter ∧ Countable db day filter) ∨
    ((countEvent host db day type = .error .invalid ∨
        countEvent host db day type = .error (.duplicateKey ["day", "type"])) ∧
      ¬ ∃ filter, host.castFilter type = some filter ∧ Countable db day filter) := by
  rw [countEvent]
  cases cast : host.castFilter type with
  | none =>
      refine .inr ⟨.inl rfl, ?_⟩
      rintro ⟨filter, same, -⟩
      cases same
  | some filter =>
      dsimp only
      cases found : increment day filter db.stats with
      | some stats =>
          have exists_ : ∃ stat ∈ db.stats, stat.day = day ∧ filter.admits stat.type = true := by
            by_contra none_
            rw [increment_eq_none_iff.mpr none_] at found
            cases found
          exact .inl ⟨⟨_, rfl⟩, filter, rfl, .inl exists_⟩
      | none =>
          dsimp only
          split
          · next taken =>
              refine .inr ⟨.inr rfl, ?_⟩
              rintro ⟨_, ⟨⟩, exists_ | free⟩
              · exact increment_eq_none_iff.mp found exists_
              · exact free taken
          · next free => exact .inl ⟨⟨_, rfl⟩, filter, rfl, .inr free⟩

theorem applyEvent_eq (notNull : isNull event = false) (day : Text) :
    applyEvent host db day event =
      createProcessed host db consumerName (field event (ofString "eventId")) >>= fun db =>
        countEvent host db day (field event (ofString "type")) := by
  rw [applyEvent, property_eq notNull, property_eq notNull]
  rfl

/-- The transaction commits or finds the event processed. -/
def Succeeds (result : Except Failure Db) : Prop :=
  (∃ db', result = .ok db') ∨
    ∃ keyPattern, result = .error (.duplicateKey keyPattern) ∧ "eventId" ∈ keyPattern

theorem settled_iff {result : Except Failure Db} :
    (∃ outcome db', settled db result = .ok (outcome, db')) ↔ Succeeds result := by
  constructor
  · rintro ⟨outcome, db', returned⟩
    cases result with
    | ok db' => exact .inl ⟨db', rfl⟩
    | error failure =>
        cases failure with
        | error name => cases returned
        | invalid => cases returned
        | duplicateKey keyPattern =>
            rw [settled] at returned
            split at returned
            · next isEventId => exact .inr ⟨keyPattern, rfl, isEventId⟩
            · cases returned
  · rintro (⟨db', rfl⟩ | ⟨keyPattern, rfl, isEventId⟩)
    · exact ⟨_, _, rfl⟩
    · exact ⟨_, _, if_pos isEventId⟩

/-- The transaction needs an id, and a counter unless the event is processed already. -/
theorem applyEvent_iff (notNull : isNull event = false) (day : Text) :
    Succeeds (applyEvent host db day event) ↔
      ∃ id, requiredString host (field event (ofString "eventId")) = some id ∧
        ((consumerName, id) ∈ db.processed ∨
          ∃ filter, host.castFilter (field event (ofString "type")) = some filter ∧
            Countable db day filter) := by
  rw [applyEvent_eq notNull, createProcessed]
  cases isId : requiredString host (field event (ofString "eventId")) with
  | none =>
      refine iff_of_false ?_ ?_
      · rintro (⟨db', same⟩ | ⟨keyPattern, same, -⟩)
        · cases same
        · cases same
      · rintro ⟨id, same, -⟩
        cases same
  | some id =>
      dsimp only
      by_cases marked : (consumerName, id) ∈ db.processed
      · rw [if_pos marked]
        exact iff_of_true (.inr ⟨_, rfl, by decide⟩) ⟨id, rfl, .inl marked⟩
      · rw [if_neg marked]
        rcases countEvent_spec { db with processed := (consumerName, id) :: db.processed } day
          (field event (ofString "type")) with ⟨⟨db', counted⟩, countable⟩ | ⟨threw, stuck⟩
        · exact iff_of_true (.inl ⟨db', counted⟩) ⟨id, rfl, .inr countable⟩
        · refine iff_of_false ?_ ?_
          · rintro (⟨db', counted⟩ | ⟨keyPattern, refused, isEventId⟩)
            · rcases threw with invalid | duplicate
              · cases invalid.symm.trans counted
              · cases duplicate.symm.trans counted
            · rcases threw with invalid | duplicate
              · cases invalid.symm.trans refused
              · cases duplicate.symm.trans refused
                exact absurd isEventId (by decide)
          · rintro ⟨_, ⟨⟩, processed | countable⟩
            · exact marked processed
            · exact stuck countable

theorem processEvent_iff :
    (∃ outcome db', processEvent host now db event = .ok (outcome, db')) ↔
      Processable host now db event := by
  constructor
  · rintro ⟨outcome, db', returned⟩
    rw [processEvent] at returned
    cases isDay : eventDay host now event with
    | error failure =>
        rw [isDay] at returned
        cases returned
    | ok day =>
        rcases dated_of_eventDay isDay with ⟨notNull, dated⟩
        rw [eventDay_of_dated notNull dated] at returned
        have succeeds := settled_iff.mp ⟨outcome, db', returned⟩
        exact ⟨notNull, dated, (applyEvent_iff notNull _).mp succeeds⟩
  · rintro ⟨notNull, dated, identified⟩
    rcases settled_iff.mpr ((applyEvent_iff notNull _).mpr identified) with
      ⟨outcome, db', returned⟩
    refine ⟨outcome, db', ?_⟩
    rw [processEvent, eventDay_of_dated notNull dated]
    exact returned

/-! ## The consumer -/

/-- A message is handled if it is not JSON or is JSON that can be processed; otherwise the
consumer throws. -/
theorem eachMessage_returns_iff (host : Host) (now : ℤ) (db : Db) (value : Option (List UInt8)) :
    Returns host now db value ↔
      ∀ event, readMessage value = some event → Processable host now db event := by
  rw [Returns]
  cases parsed : readMessage value with
  | none =>
      refine iff_of_true ⟨.skipped, db, ?_⟩ nofun
      rw [eachMessage, parsed]
  | some event =>
      have same : eachMessage host now db value = processEvent host now db event := by
        rw [eachMessage, parsed]
      rw [same, processEvent_iff]
      constructor
      · rintro processable _ ⟨⟩
        exact processable
      · intro processable
        exact processable event rfl

/-- Dates and casts for strings only. -/
def plainHost : Host where
  parseDate _ := none
  isoDay _ := ofString "1970-01-01"
  castString
    | .string value => some value
    | _ => none
  castFilter
    | some (.string value) => some ⟨(· = some value), some value⟩
    | _ => none

/-- The message `null` makes the consumer throw, whatever is stored and however often it is
delivered. -/
theorem partition_blocked :
    (∀ now db, eachMessage plainHost now db (some [110, 117, 108, 108]) =
      .error (.error "TypeError")) ∧
    ¬ ∀ now db value, Returns plainHost now db value := by
  have parsed : readMessage (some [110, 117, 108, 108]) = some .null := by
    have text : Utf8.decode [110, 117, 108, 108] = Json.stringify .null := by decide
    rw [readMessage, Option.bind_some, text]
    rw [Json.parse_stringify]
    rfl
  have throws : ∀ now db, eachMessage plainHost now db (some [110, 117, 108, 108]) =
      .error (.error "TypeError") := by
    intro now db
    rw [eachMessage, parsed]
    rfl
  refine ⟨throws, fun returns => ?_⟩
  rcases returns 0 .empty (some [110, 117, 108, 108]) with ⟨outcome, db', returned⟩
  cases (throws 0 .empty).symm.trans returned

end WorkflowEngine.Consumers
