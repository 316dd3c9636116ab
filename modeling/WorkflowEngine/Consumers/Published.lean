import WorkflowEngine.Consumers.Guarantees.Poison
import WorkflowEngine.Events.Analytics

/-!
# Messages that the relay publishes

Of an event that was published the consumer makes what its transaction makes of the event.
-/

open Text

namespace WorkflowEngine.Consumers

/-! ## The message of an event -/

/-- The type of an event as `emit` is given it. -/
def typeText : EventType → Text
  | .executionStarted => ofString "execution.started"
  | .executionPaused => ofString "execution.paused"
  | .executionResumed => ofString "execution.resumed"
  | .executionCompleted => ofString "execution.completed"
  | .executionFailed => ofString "execution.failed"
  | .executionCancelled => ofString "execution.cancelled"
  | .taskStarted => ofString "task.started"
  | .taskCompleted => ofString "task.completed"
  | .taskFailed => ofString "task.failed"
  | .taskDeadLettered => ofString "task.dead_lettered"
  | .taskRetrying => ofString "task.retrying"
  | .approvalRequested => ofString "approval.requested"
  | .approvalDecided .approved => ofString "approval.approved"
  | .approvalDecided .rejected => ofString "approval.rejected"
  | .approvalDecided .expired => ofString "approval.expired"

/-- How the other parts of an event are written. -/
structure Wording where
  eventId : ℕ → Text
  aggregateId : ExecutionId → Text
  date : Time → Text
  payload : EventPayload → Json

/-- The value of the message before it is printed. -/
def Wording.value (wording : Wording) (event : Events.Event) : Json :=
  .object
    [(ofString "eventId", .string (wording.eventId event.eventId)),
      (ofString "type", .string (typeText event.type)),
      (ofString "aggregateId", .string (wording.aggregateId event.aggregateId)),
      (ofString "occurredAt", .string (wording.date event.occurredAt)),
      (ofString "payload", wording.payload event.payload)]

/-- A day whose name has a year of four digits. -/
def Named (day : ℤ) : Prop := 0 ≤ day ∧ day < 2932897

/-- The host reads what was written. -/
structure Host.Reads (host : Host) (wording : Wording) : Prop where
  eventId_injective : Function.Injective wording.eventId
  eventId_ne_nil : ∀ id, wording.eventId id ≠ []
  parseDate : ∀ time, Named (Events.dayOf time) → host.parseDate (wording.date time) = some time
  isoDay : ∀ left right, Named (Events.dayOf left) → Named (Events.dayOf right) →
    (host.isoDay left = host.isoDay right ↔ Events.dayOf left = Events.dayOf right)
  castString : ∀ text, host.castString (.string text) = some text
  castFilter : ∀ text, host.castFilter (some (.string text)) = some ⟨(· = some text), some text⟩

/-- A counter as it is stored. -/
def stored (host : Host) (stat : Events.EventStat) : EventStat :=
  { day := host.isoDay (stat.day * 86400000)
    type := some (typeText stat.type)
    count := stat.count }

/-- The collections as they are stored, the newest document first. -/
def Wording.db (wording : Wording) (host : Host) (analytics : Events.AnalyticsDb) : Db where
  processed := (analytics.processed.values.map fun marker =>
    (marker.consumer, wording.eventId marker.eventId)).reverse
  stats := (analytics.stats.values.map (stored host)).reverse

/-- All types of events. -/
def types : List EventType :=
  [.executionStarted, .executionPaused, .executionResumed, .executionCompleted, .executionFailed,
    .executionCancelled, .taskStarted, .taskCompleted, .taskFailed, .taskDeadLettered,
    .taskRetrying, .approvalRequested, .approvalDecided .approved, .approvalDecided .rejected,
    .approvalDecided .expired]

theorem mem_types (type : EventType) : type ∈ types := by
  cases type with
  | approvalDecided decision => cases decision <;> decide
  | _ => decide

theorem typeText_injective : Function.Injective typeText := by
  have apart : ∀ left ∈ types, ∀ right ∈ types, typeText left = typeText right → left = right := by
    decide
  exact fun left right => apart left (mem_types left) right (mem_types right)

variable {host : Host} {wording : Wording} {event : Events.Event}
  {analytics : Events.AnalyticsDb} {now : ℤ}

/-- The keys of a message. -/
theorem listed_keys : Json.Listed ([ofString "eventId", ofString "type", ofString "aggregateId",
    ofString "occurredAt", ofString "payload"]) :=
  ⟨by decide, by decide⟩

/-- What a message is parsed to: the keys of the payload come in order. -/
def Wording.parsed (wording : Wording) : Wording :=
  { wording with payload := fun payload => Json.reorder (Json.kept (wording.payload payload)) }

theorem parse_value (wording : Wording) (event : Events.Event) :
    Json.parse (Json.stringify (wording.value event)) = some (wording.parsed.value event) := by
  rw [Json.parse_stringify]
  exact congrArg (fun entries => some (Json.object entries)) (Json.Listed.collect listed_keys)

theorem field_eventId : field (wording.value event) (ofString "eventId") =
    some (.string (wording.eventId event.eventId)) := rfl

theorem field_type : field (wording.value event) (ofString "type") =
    some (.string (typeText event.type)) := rfl

/-! ## The counters -/

/-- The counter of this day and type with one event more. -/
def counted (day type : Text) (stat : EventStat) : EventStat :=
  if stat.day = day ∧ stat.type = some type then { stat with count := stat.count + 1 } else stat

/-- Where no two counters have one key, the counter of the key is incremented. -/
theorem increment_of_mem {day type : Text} {stats : List EventStat}
    (nodup : (stats.map fun stat => (stat.day, stat.type)).Nodup)
    (present : (day, some type) ∈ stats.map fun stat => (stat.day, stat.type)) :
    increment day ⟨(· = some type), some type⟩ stats = some (stats.map (counted day type)) := by
  induction stats with
  | nil => exact absurd present List.not_mem_nil
  | cons stat rest ih =>
      rw [List.map_cons, List.nodup_cons] at nodup
      rw [List.map_cons, List.mem_cons] at present
      rw [increment, List.map_cons]
      by_cases isKey : stat.day = day ∧ stat.type = some type
      · have others : rest.map (counted day type) = rest := by
          refine (List.map_congr_left fun other membership => ?_).trans (List.map_id rest)
          refine if_neg fun isOther => nodup.1 ?_
          rw [isKey.1, isKey.2, ← isOther.1, ← isOther.2]
          exact List.mem_map_of_mem membership
        rw [if_pos ⟨isKey.1, decide_eq_true isKey.2⟩, others, counted, if_pos isKey]
      · have later : (day, some type) ∈ rest.map fun stat => (stat.day, stat.type) := by
          refine present.resolve_left fun same => isKey ?_
          exact ⟨(congrArg Prod.fst same).symm, (congrArg Prod.snd same).symm⟩
        rw [if_neg fun found => isKey ⟨found.1, of_decide_eq_true found.2⟩, ih nodup.2 later]
        rw [Option.map_some, counted, if_neg isKey]

/-- The days of the counters have a year of four digits. -/
def AllNamed (analytics : Events.AnalyticsDb) : Prop :=
  ∀ stat ∈ analytics.stats.values, Named stat.day

theorem dayOf_mul (day : ℤ) : Events.dayOf (day * 86400000) = day :=
  Int.mul_ediv_cancel day (by decide)

/-- A counter is stored under the key of an event if it counts the event. -/
theorem stored_key_iff (reads : host.Reads wording) {stat : Events.EventStat}
    (named : Named stat.day) (eventNamed : Named (Events.dayOf event.occurredAt)) :
    ((stored host stat).day = host.isoDay event.occurredAt ∧
        (stored host stat).type = some (typeText event.type)) ↔
      (stat.day, stat.type) = event.statKey := by
  have days := reads.isoDay (stat.day * 86400000) event.occurredAt
    (by rwa [dayOf_mul]) eventNamed
  rw [dayOf_mul] at days
  rw [stored, days, Option.some.injEq, typeText_injective.eq_iff, Events.Event.statKey,
    Prod.mk.injEq]

section Db

variable (reads : host.Reads wording) (keyed : analytics.Keyed) (named : AllNamed analytics)
  (eventNamed : Named (Events.dayOf event.occurredAt))

include reads

/-- The marker of an event is stored under its id. -/
theorem mem_processed_iff :
    (consumerName, wording.eventId event.eventId) ∈ (wording.db host analytics).processed ↔
      (consumerName, event.eventId) ∈ analytics.processed.ids := by
  rw [Wording.db, List.mem_reverse, ← DocStore.Collection.values_ids, List.mem_map, List.mem_map]
  refine exists_congr fun marker => and_congr_right fun _ => ?_
  rw [Prod.mk.injEq, reads.eventId_injective.eq_iff]
  exact Prod.mk.injEq .. ▸ Iff.rfl

include named eventNamed in
/-- The counter of an event is stored under its day and type. -/
theorem mem_stats_iff :
    (host.isoDay event.occurredAt, some (typeText event.type)) ∈
        ((wording.db host analytics).stats.map fun stat => (stat.day, stat.type)) ↔
      event.statKey ∈ analytics.stats.ids := by
  rw [Wording.db, List.map_reverse, List.mem_reverse, List.map_map, ←
    DocStore.Collection.values_ids, List.mem_map, List.mem_map]
  refine exists_congr fun stat => and_congr_right fun membership => ?_
  rw [Function.comp_apply, Prod.mk.injEq]
  exact stored_key_iff reads (named stat membership) eventNamed

include keyed named in
/-- No two counters are stored under one key. -/
theorem nodup_stats :
    ((wording.db host analytics).stats.map fun stat => (stat.day, stat.type)).Nodup := by
  rw [Wording.db, List.map_reverse, List.nodup_reverse, List.map_map]
  have keys := keyed.stats
  rw [← DocStore.Collection.values_ids] at keys
  refine List.Nodup.map_on ?_ keys.of_map
  intro left leftMem right rightMem same
  rw [Function.comp_apply, Function.comp_apply, Prod.mk.injEq] at same
  have days := (reads.isoDay (left.day * 86400000) (right.day * 86400000)
    (by rw [dayOf_mul]; exact named left leftMem)
    (by rw [dayOf_mul]; exact named right rightMem)).mp same.1
  rw [dayOf_mul, dayOf_mul] at days
  have types : left.type = right.type := typeText_injective (Option.some.inj same.2)
  exact List.inj_on_of_nodup_map keys leftMem rightMem (Prod.ext days types)

include named eventNamed in
/-- The increment of a counter is stored as one. -/
theorem map_counted :
    (wording.db host analytics).stats.map
        (counted (host.isoDay event.occurredAt) (typeText event.type)) =
      ((analytics.stats.values.map (Events.increment.only event.statKey).onValue).map
        (stored host)).reverse := by
  rw [Wording.db, List.map_reverse, List.map_map, List.map_map]
  refine congrArg List.reverse (List.map_congr_left fun stat membership => ?_)
  have isKey := stored_key_iff reads (named stat membership) eventNamed
  rw [Function.comp_apply, Function.comp_apply, counted, DocStore.Update.onValue]
  by_cases same : (stat.day, stat.type) = event.statKey
  · have matched : (Events.increment.only event.statKey).filter stat = true := by
      rw [DocStore.Update.only, Bool.and_eq_true]
      exact ⟨decide_eq_true same, rfl⟩
    rw [if_pos (isKey.mpr same), if_pos matched]
    rfl
  · have unmatched : ¬ (Events.increment.only event.statKey).filter stat = true := fun matched =>
      same (DocStore.Update.id_of_only matched)
    rw [if_neg fun found => same (isKey.mp found), if_neg unmatched]

include keyed named eventNamed in
/-- The transaction of a published event. -/
theorem applyEvent_published :
    applyEvent host (wording.db host analytics) (host.isoDay event.occurredAt)
        (wording.value event) =
      match (Events.applyEvent consumerName event).run analytics with
      | .ok (_, view) => .ok (wording.db host view)
      | .error _ => .error (.duplicateKey ["consumer", "eventId"]) := by
  have id : requiredString host (some (.string (wording.eventId event.eventId))) =
      some (wording.eventId event.eventId) := by
    change Option.filter _ (host.castString (.string (wording.eventId event.eventId))) = _
    rw [reads.castString, Option.filter_some]
    exact if_pos (decide_eq_true (reads.eventId_ne_nil event.eventId))
  rw [applyEvent_eq rfl, field_eventId, field_type, createProcessed, id]
  dsimp only
  cases ran : (Events.applyEvent consumerName event).run analytics with
  | error thrown =>
      have marked := (Events.applyEvent_error keyed ran).2
      rw [if_pos ((mem_processed_iff reads).mpr marked)]
      rfl
  | ok outcome =>
      rcases outcome with ⟨_, view⟩
      rcases Events.applyEvent_ok keyed ran with ⟨unmarked, processed, stats⟩
      have inserted : (wording.db host view).processed =
          (consumerName, wording.eventId event.eventId) :: (wording.db host analytics).processed := by
        rw [Wording.db, processed, DocStore.Collection.values_rewrite]
        simp [Wording.db, DocStore.Script.onValue]
      rw [if_neg fun marked => unmarked ((mem_processed_iff reads).mp marked)]
      change countEvent host { wording.db host analytics with processed := _ } _ _ = _
      rw [← inserted, countEvent, reads.castFilter]
      dsimp only
      rcases stats with ⟨present, stats⟩ | ⟨absent, stats⟩
      · rw [increment_of_mem (nodup_stats reads keyed named)
          ((mem_stats_iff reads named eventNamed).mpr present), map_counted reads named eventNamed]
        have values : view.stats.values =
            analytics.stats.values.map (Events.increment.only event.statKey).onValue := by
          rw [stats, DocStore.Collection.values_rewrite, List.append_nil]
          rfl
        rw [← values]
        rfl
      · have missing : ¬ (host.isoDay event.occurredAt, some (typeText event.type)) ∈
            (wording.db host analytics).stats.map fun stat => (stat.day, stat.type) :=
          fun present => absent ((mem_stats_iff reads named eventNamed).mp present)
        have unfound : ¬ ∃ stat ∈ (wording.db host analytics).stats,
            stat.day = host.isoDay event.occurredAt ∧ stat.type = some (typeText event.type) := by
          rintro ⟨stat, membership, isDay, isType⟩
          exact missing (List.mem_map.mpr ⟨stat, membership, Prod.ext isDay isType⟩)
        rw [increment_eq_none_iff.mpr (by simpa using unfound)]
        dsimp only
        rw [if_neg unfound]
        have values : view.stats.values = analytics.stats.values ++
            [⟨Events.dayOf event.occurredAt, event.type, 1⟩] := by
          rw [stats, DocStore.Collection.values_rewrite]
          exact congrArg (· ++ _) (List.map_id _)
        have day := (reads.isoDay (Events.dayOf event.occurredAt * 86400000) event.occurredAt
          (by rwa [dayOf_mul]) eventNamed).mpr (dayOf_mul _)
        rw [Wording.db, Wording.db, values, List.map_append, List.reverse_append, ← day]
        rfl

include keyed named eventNamed in
/-- What the consumer makes of a published event. -/
theorem processEvent_published (now : ℤ) :
    processEvent host now (wording.db host analytics) (wording.value event) =
      match (Events.applyEvent consumerName event).run analytics with
      | .ok (_, view) => .ok (.applied, wording.db host view)
      | .error _ => .ok (.duplicate, wording.db host analytics) := by
  have date : dateValue host (.string (wording.date event.occurredAt)) =
      .ok (some event.occurredAt) :=
    congrArg Except.ok (reads.parseDate event.occurredAt eventNamed)
  have occurred : given (field (wording.value event) (ofString "occurredAt")) =
      some (.string (wording.date event.occurredAt)) := rfl
  have day : eventDay host now (wording.value event) = .ok (host.isoDay event.occurredAt) := by
    rw [eventDay, property_eq rfl]
    simp only [bind, Except.bind, occurred, date]
  rw [processEvent, day]
  change settled _ (applyEvent host _ (host.isoDay event.occurredAt) _) = _
  rw [applyEvent_published reads keyed named eventNamed]
  cases (Events.applyEvent consumerName event).run analytics with
  | error thrown => rfl
  | ok outcome => rfl

include keyed named eventNamed in
/-- What the consumer makes of the bytes of a published event. -/
theorem eachMessage_published (now : ℤ) {bytes : List UInt8}
    (sent : Utf8.decode bytes = Json.stringify (wording.value event)) :
    eachMessage host now (wording.db host analytics) (some bytes) =
      match (Events.applyEvent consumerName event).run analytics with
      | .ok (_, view) => .ok (.applied, wording.db host view)
      | .error _ => .ok (.duplicate, wording.db host analytics) := by
  have parsed : readMessage (some bytes) = some (wording.parsed.value event) := by
    rw [readMessage, Option.bind_some, sent, parse_value]
  have readsParsed : host.Reads wording.parsed := { reads with }
  rw [eachMessage, parsed]
  exact processEvent_published readsParsed keyed named eventNamed now

end Db

end WorkflowEngine.Consumers
