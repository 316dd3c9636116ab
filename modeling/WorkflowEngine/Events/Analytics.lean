import WorkflowEngine.Foundations.Session
import WorkflowEngine.Models

/-!
# The analytics consumer

One transaction inserts a marker for the event and counts the event.  A marker that
exists already stops the transaction, so that a redelivered event is not counted again.
-/

namespace WorkflowEngine.Events

open DocStore

/-- The value of a published message. -/
structure Event where
  eventId : Nat
  type : EventType
  aggregateId : ExecutionId
  occurredAt : Time
  payload : EventPayload
  deriving DecidableEq

/-- An event of execution 1, for schedules that are written out. -/
def Schedule.event (eventId : Nat) (type : EventType) : Event :=
  { eventId, type, aggregateId := 1, occurredAt := 5, payload := .empty }

/-- The number of a UTC day, as `toISOString().slice(0, 10)` names it. -/
def dayOf (occurredAt : Time) : Int := occurredAt / 86400000

/-- A marker: the consumer has processed the event. -/
structure ProcessedEvent where
  consumer : String
  eventId : Nat
  deriving DecidableEq

structure EventStat where
  day : Int
  type : EventType
  count : Nat
  deriving DecidableEq

/-- Unique index on `(consumer, eventId)`. -/
instance : Document ProcessedEvent (String × Nat) where
  id marker := (marker.consumer, marker.eventId)
  clash _ _ := false

/-- Unique index on `(day, type)`. -/
instance : Document EventStat (Int × EventType) where
  id stat := (stat.day, stat.type)
  clash _ _ := false

/-- The collections of the consumer. -/
structure AnalyticsDb where
  processed : Collection ProcessedEvent
  stats : Collection EventStat

instance : Holds AnalyticsDb ProcessedEvent where
  get := AnalyticsDb.processed
  set db processed := { db with processed }
  get_set _ _ := rfl
  set_get _ := rfl

instance : Holds AnalyticsDb EventStat where
  get := AnalyticsDb.stats
  set db stats := { db with stats }
  get_set _ _ := rfl
  set_get _ := rfl

/-- A duplicate key, with the index it violates. -/
inductive AnalyticsError where
  | duplicateEventId | duplicateStat
  deriving DecidableEq

/-- `{ $inc: { count: 1 } }` -/
def increment : Update EventStat where
  filter _ := true
  set stat := { stat with count := stat.count + 1 }
  id_set _ := rfl

/-- The transaction of `process`. -/
def applyEvent (consumer : String) (event : Event) : Session AnalyticsDb AnalyticsError Unit := do
  Session.create .duplicateEventId ({ consumer, eventId := event.eventId } : ProcessedEvent)
  let matched ← Session.updateOne (dayOf event.occurredAt, event.type) increment
  -- `upsert: true`
  if matched = 0 then
    Session.create .duplicateStat
      ({ day := dayOf event.occurredAt, type := event.type, count := 1 } : EventStat)
  else
    return ()

namespace AnalyticsDb

def empty : AnalyticsDb := { processed := [], stats := [] }

def commit (committed snapshot view : AnalyticsDb) : Option AnalyticsDb := do
  let processed ← committed.processed.rebase snapshot.processed view.processed
  let stats ← committed.stats.rebase snapshot.stats view.stats
  return { processed, stats }

/-- `EventStat.count`, which is 0 before the first event. -/
def count (db : AnalyticsDb) (day : Int) (type : EventType) : Nat :=
  (db.stats.findById (day, type)).elim 0 (·.count)

structure Keyed (db : AnalyticsDb) : Prop where
  processed : db.processed.ids.Nodup
  stats : db.stats.ids.Nodup

/-- The second database can follow the first one. -/
structure Since (earlier later : AnalyticsDb) : Prop where
  processed : Collection.Extends earlier.processed later.processed
  stats : Collection.Extends earlier.stats later.stats

theorem Since.refl (db : AnalyticsDb) : db.Since db :=
  ⟨.refl _, .refl _⟩

theorem Since.trans {first second third : AnalyticsDb} (before : first.Since second)
    (after : second.Since third) : first.Since third :=
  ⟨before.processed.trans after.processed, before.stats.trans after.stats⟩

end AnalyticsDb

/-- The event counts for this day and type. -/
def Event.countsFor (day : Int) (type : EventType) (event : Event) : Bool :=
  dayOf event.occurredAt = day ∧ event.type = type

/-- The counter an event belongs to. -/
def Event.statKey (event : Event) : Int × EventType :=
  (dayOf event.occurredAt, event.type)

/-- What a transaction that does not throw writes. -/
theorem applyEvent_ok {consumer : String} {event : Event} {snapshot view : AnalyticsDb}
    (keyed : snapshot.Keyed) (ran : (applyEvent consumer event).run snapshot = .ok ((), view)) :
    (consumer, event.eventId) ∉ snapshot.processed.ids ∧
      view.processed = snapshot.processed.rewrite [] [⟨consumer, event.eventId⟩] ∧
      (event.statKey ∈ snapshot.stats.ids ∧
          view.stats = snapshot.stats.rewrite [increment.only event.statKey] [] ∨
        event.statKey ∉ snapshot.stats.ids ∧
          view.stats = snapshot.stats.rewrite []
            [⟨dayOf event.occurredAt, event.type, 1⟩]) := by
  rcases Session.bind_eq_ok.mp ran with ⟨_, marked, created, rest⟩
  rcases Session.create_eq_ok.mp created with ⟨fresh, rfl⟩
  rcases Session.bind_eq_ok.mp rest with ⟨matched, counted, updated, rest⟩
  have absent : (consumer, event.eventId) ∉ snapshot.processed.ids := by
    intro present
    rcases List.mem_map.mp present with ⟨doc, docMem, same⟩
    have clear := List.any_eq_false.mp fresh doc docMem
    simp only [Bool.or_eq_true, decide_eq_true_eq] at clear
    exact clear (.inl same)
  refine ⟨absent, ?_⟩
  rcases Session.updateOne_eq_ok keyed.stats updated with
    ⟨rfl, rfl, unmatched⟩ | ⟨rfl, found, search, _, rfl⟩
  · have missing : event.statKey ∉ snapshot.stats.ids := by
      intro present
      cases search : snapshot.stats.findById event.statKey with
      | none => exact Collection.findById_eq_none.mp search present
      | some found => cases unmatched found search
    rw [if_pos rfl] at rest
    rcases Session.create_eq_ok.mp rest with ⟨_, rfl⟩
    exact ⟨Collection.append_eq_rewrite snapshot.processed [⟨consumer, event.eventId⟩],
      .inr ⟨missing, Collection.append_eq_rewrite snapshot.stats [⟨_, _, 1⟩]⟩⟩
  · have present : event.statKey ∈ snapshot.stats.ids := by
      by_contra missing
      have none := Collection.findById_eq_none.mpr missing
      exact absurd (search.symm.trans none) nofun
    rw [if_neg Nat.one_ne_zero] at rest
    rcases Session.pure_eq_ok.mp rest with ⟨_, rfl⟩
    exact ⟨Collection.append_eq_rewrite snapshot.processed [⟨consumer, event.eventId⟩],
      .inl ⟨present, Collection.updateMany_eq_rewrite snapshot.stats _⟩⟩

/-- A transaction throws only when the event's marker exists. -/
theorem applyEvent_error {consumer : String} {event : Event} {snapshot : AnalyticsDb}
    {thrown : AnalyticsError} (keyed : snapshot.Keyed)
    (ran : (applyEvent consumer event).run snapshot = .error thrown) :
    thrown = .duplicateEventId ∧ (consumer, event.eventId) ∈ snapshot.processed.ids := by
  rcases Session.bind_eq_error.mp ran with marking | ⟨_, marked, created, rest⟩
  · simp only [Session.create, StateT.run] at marking
    split at marking
    · next duplicate =>
      cases marking
      refine ⟨rfl, ?_⟩
      rcases List.any_eq_true.mp duplicate with ⟨doc, docMem, clashes⟩
      rcases (Bool.or_eq_true _ _).mp clashes with same | clash
      · exact List.mem_map.mpr ⟨doc, docMem, of_decide_eq_true same⟩
      · cases clash
    · cases marking
  · -- The counter that is created is missing from the view, so this cannot throw.
    rcases Session.create_eq_ok.mp created with ⟨_, rfl⟩
    rcases Session.bind_eq_error.mp rest with updating | ⟨matched, counted, updated, rest⟩
    · cases updating
    · rcases Session.updateOne_eq_ok keyed.stats updated with
        ⟨rfl, rfl, unmatched⟩ | ⟨rfl, found, search, _, rfl⟩
      · rw [if_pos rfl] at rest
        simp only [Session.create, StateT.run] at rest
        split at rest
        · next duplicate =>
          rcases List.any_eq_true.mp duplicate with ⟨doc, docMem, clashes⟩
          rcases (Bool.or_eq_true _ _).mp clashes with same | clash
          · have search := (Collection.findById_eq_some keyed.stats).mpr
              ⟨Collection.val_mem_values docMem, of_decide_eq_true same⟩
            cases unmatched _ search
          · cases clash
        · cases rest
      · rw [if_neg Nat.one_ne_zero] at rest
        cases rest

/-! ## Counting -/

/-- A committed increment of one counter. -/
theorem values_increment {committed snapshot result : Collection EventStat}
    {key : Int × EventType} (nodup : committed.ids.Nodup) (present : key ∈ snapshot.ids)
    (rebased : Collection.Rebased committed snapshot [increment.only key] [] result) :
    result.values = committed.values.map (increment.only key).onValue := by
  rcases List.mem_map.mp present with ⟨counter, counterMem, isKey⟩
  have matched : (increment.only key).filter counter.val = true := by
    rw [Update.only, Bool.and_eq_true]
    exact ⟨decide_eq_true isKey, rfl⟩
  have current := rebased.current_of_filter counterMem matched
  have rewritten : ∀ doc ∈ committed,
      (Collection.onSnapshot snapshot [increment.only key] doc).val =
        (increment.only key).onValue doc.val := by
    intro doc docMem
    by_cases inSnapshot : doc ∈ snapshot
    · rw [Collection.onSnapshot_of_mem inSnapshot, Script.val_onStored]
      rfl
    · rw [Collection.onSnapshot_of_not_mem inSnapshot, Update.onValue, if_neg]
      intro isMatch
      have sameId : Collection.idOf doc = Collection.idOf counter :=
        (Update.id_of_only isMatch).trans isKey.symm
      exact inSnapshot (Collection.eq_of_idOf_eq nodup docMem current sameId ▸ counterMem)
  rw [rebased.values_result rewritten, List.append_nil]

namespace AnalyticsDb

/-- The counter for a day and type. -/
def counter? (stats : List EventStat) (key : Int × EventType) : Option EventStat :=
  stats.find? fun stat => (stat.day, stat.type) = key

theorem count_eq (db : AnalyticsDb) (day : Int) (type : EventType) :
    db.count day type = (counter? db.stats.values (day, type)).elim 0 (·.count) := by
  rw [count, counter?, Collection.values, List.find?_map]
  rfl

theorem counter?_key {stats : List EventStat} {key : Int × EventType} {stat : EventStat}
    (found : counter? stats key = some stat) : (stat.day, stat.type) = key := by
  have isKey := List.find?_some found
  exact of_decide_eq_true isKey

theorem counter?_increment (stats : List EventStat) (key other : Int × EventType) :
    counter? (stats.map (increment.only key).onValue) other =
      (counter? stats other).map (increment.only key).onValue := by
  rw [counter?, List.find?_map, counter?]
  congr 2
  funext stat
  have same := (increment.only key).id_onValue stat
  exact congrArg (fun found => decide (found = other)) same

/-- The counters after one more event. -/
structure CountedOnce (db next : AnalyticsDb) (event : Event) : Prop where
  keyed : next.Keyed
  since : db.Since next
  count : ∀ day type, next.count day type =
    db.count day type + if event.countsFor day type then 1 else 0

end AnalyticsDb

theorem Event.countsFor_iff {event : Event} {day : Int} {type : EventType} :
    event.countsFor day type = true ↔ event.statKey = (day, type) := by
  rw [countsFor, decide_eq_true_iff, statKey, Prod.mk.injEq]

/-- The counter of the event grows by one, and no other. -/
theorem count_increment {committed next : AnalyticsDb} {event : Event}
    (present : event.statKey ∈ committed.stats.ids)
    (values : next.stats.values =
      committed.stats.values.map (increment.only event.statKey).onValue)
    (day : Int) (type : EventType) :
    next.count day type =
      committed.count day type + if event.countsFor day type then 1 else 0 := by
  rw [AnalyticsDb.count_eq, AnalyticsDb.count_eq, values, AnalyticsDb.counter?_increment]
  cases found : AnalyticsDb.counter? committed.stats.values (day, type) with
  | none =>
      have absent : event.countsFor day type = false := by
        rw [← Bool.not_eq_true, Event.countsFor_iff]
        intro same
        rcases Collection.mem_ids.mp present with ⟨stat, statMem, isKey⟩
        exact List.find?_eq_none.mp found stat statMem (decide_eq_true (isKey.trans same))
      rw [absent]
      rfl
  | some stat =>
      have isStat : (stat.day, stat.type) = (day, type) :=
        AnalyticsDb.counter?_key found
      by_cases counts : event.countsFor day type = true
      · have matched : (increment.only event.statKey).filter stat = true := by
          rw [Update.only, Bool.and_eq_true]
          exact ⟨decide_eq_true (isStat.trans (Event.countsFor_iff.mp counts).symm), rfl⟩
        rw [if_pos counts, Option.map_some, Update.onValue, if_pos matched]
        rfl
      · have unmatched : ¬ (increment.only event.statKey).filter stat = true := by
          intro matched
          exact counts (Event.countsFor_iff.mpr ((Update.id_of_only matched).symm.trans isStat))
        rw [if_neg counts, Option.map_some, Update.onValue, if_neg unmatched]
        rfl

/-- The first event of a day and type creates its counter. -/
theorem count_create {committed next : AnalyticsDb} {event : Event}
    (absent : event.statKey ∉ committed.stats.ids)
    (values : next.stats.values =
      committed.stats.values ++ [⟨dayOf event.occurredAt, event.type, 1⟩])
    (day : Int) (type : EventType) :
    next.count day type =
      committed.count day type + if event.countsFor day type then 1 else 0 := by
  rw [AnalyticsDb.count_eq, AnalyticsDb.count_eq, values, AnalyticsDb.counter?, List.find?_append]
  change Option.elim (Option.or (AnalyticsDb.counter? committed.stats.values (day, type)) _) _ _ = _
  cases found : AnalyticsDb.counter? committed.stats.values (day, type) with
  | none =>
      by_cases counts : event.countsFor day type = true
      · have isKey : dayOf event.occurredAt = day ∧ event.type = type :=
          of_decide_eq_true counts
        simp [isKey.1, isKey.2, counts]
      · have other : ¬ (dayOf event.occurredAt = day ∧ event.type = type) := fun same =>
          counts (decide_eq_true same)
        simp [other, counts]
  | some stat =>
      have isStat : (stat.day, stat.type) = (day, type) :=
        AnalyticsDb.counter?_key found
      have unrelated : event.countsFor day type = false := by
        rw [← Bool.not_eq_true, Event.countsFor_iff]
        intro same
        exact absent (Collection.mem_ids.mpr
          ⟨stat, List.mem_of_find?_eq_some found, isStat.trans same.symm⟩)
      rw [unrelated]
      rfl

/-- A transaction that commits marks the event and counts it once. -/
theorem applyEvent_commit {consumer : String} {event : Event}
    {committed snapshot view next : AnalyticsDb} (snapshotKeyed : snapshot.Keyed)
    (keyed : committed.Keyed) (since : snapshot.Since committed)
    (ran : (applyEvent consumer event).run snapshot = .ok ((), view))
    (commits : committed.commit snapshot view = some next) :
    next.processed.values = committed.processed.values ++ [⟨consumer, event.eventId⟩] ∧
      committed.CountedOnce next event := by
  rcases Option.bind_eq_some_iff.mp commits with ⟨processed, processedEq, rest⟩
  rcases Option.bind_eq_some_iff.mp rest with ⟨stats, statsEq, rest⟩
  cases rest
  rcases applyEvent_ok snapshotKeyed ran with ⟨unmarked, viewProcessed, viewStats⟩
  rw [viewProcessed] at processedEq
  have marked := Collection.rebase_rewrite snapshotKeyed.processed keyed.processed
    (fun marker membership => by
      rw [List.mem_singleton.mp membership]
      exact unmarked) since.processed processedEq
  have markedKeyed := marked.nodup_result keyed.processed (List.nodup_singleton _)
  refine ⟨marked.values_of_nil, ?_⟩
  rcases viewStats with ⟨present, viewStats⟩ | ⟨missing, viewStats⟩
  · rw [viewStats] at statsEq
    have counted := Collection.rebase_rewrite snapshotKeyed.stats keyed.stats
      (fun _ membership => absurd membership List.not_mem_nil) since.stats statsEq
    exact
      { keyed := ⟨markedKeyed, counted.nodup_result keyed.stats .nil⟩
        since := ⟨marked.extends_result, counted.extends_result⟩
        count := count_increment (since.stats.ids_subset _ present)
          (values_increment keyed.stats present counted) }
  · rw [viewStats] at statsEq
    have created := Collection.rebase_rewrite snapshotKeyed.stats keyed.stats
      (fun stat membership => by
        rw [List.mem_singleton.mp membership]
        exact missing) since.stats statsEq
    exact
      { keyed := ⟨markedKeyed, created.nodup_result keyed.stats (List.nodup_singleton _)⟩
        since := ⟨marked.extends_result, created.extends_result⟩
        count := count_create (created.fresh_id List.mem_cons_self) created.values_of_nil }

/-! ## Concurrent deliveries -/

/-- A call of `process` in progress. -/
inductive ProcessFrame where
  | start (event : Event)
  | callback (event : Event) (snapshot : AnalyticsDb)
  /-- the transaction has committed -/
  | committed (event : Event)

/-- The consumers of one group.  `applied` and `returned` are histories: the events whose
transaction committed, and the events for which a call returned. -/
structure Consumers where
  calls : List (Option ProcessFrame)
  analytics : AnalyticsDb
  applied : List Event
  returned : List Event

namespace Consumers

inductive Action where
  /-- a message is delivered; `process` is called -/
  | deliver (event : Event)
  | advance (call : Nat)
  | crash (call : Nat)

def init : Consumers :=
  { calls := [], analytics := .empty, applied := [], returned := [] }

/-- One step of a call of `process`. -/
def advance (consumer : String) (consumers : Consumers) (call : Nat) :
    ProcessFrame → Consumers
  | .start event =>
      { consumers with
        calls := consumers.calls.set call (some (.callback event consumers.analytics)) }
  | .callback event snapshot =>
      match (applyEvent consumer event).run snapshot with
      | .ok (_, view) =>
          match consumers.analytics.commit snapshot view with
          | some analytics =>
              { consumers with
                calls := consumers.calls.set call (some (.committed event))
                analytics
                applied := consumers.applied ++ [event] }
          -- a write conflict: the callback is retried on a new snapshot
          | none => { consumers with calls := consumers.calls.set call (some (.start event)) }
      -- "duplicate"
      | .error .duplicateEventId =>
          { consumers with
            calls := consumers.calls.set call none, returned := consumers.returned ++ [event] }
      | .error .duplicateStat => { consumers with calls := consumers.calls.set call none }
  -- "applied"
  | .committed event =>
      { consumers with
        calls := consumers.calls.set call none, returned := consumers.returned ++ [event] }

def step (consumer : String) (consumers : Consumers) : Action → Option Consumers
  | .deliver event => some { consumers with calls := consumers.calls ++ [some (.start event)] }
  | .advance call =>
      match consumers.calls[call]? with
      | some (some frame) => some (consumers.advance consumer call frame)
      | _ => none
  | .crash call => some { consumers with calls := consumers.calls.set call none }

/-- The event was applied. -/
def Applied (consumers : Consumers) (event : Event) : Prop :=
  event.eventId ∈ consumers.applied.map Event.eventId

/-- What a call of `process` knows. -/
def FrameOk (published : Event → Prop) (consumers : Consumers) : ProcessFrame → Prop
  | .start event => published event
  | .callback event snapshot =>
      published event ∧ snapshot.Keyed ∧ snapshot.Since consumers.analytics
  | .committed event => published event ∧ consumers.Applied event

/-- Markers, counters and the applied events agree. -/
structure Inv (consumer : String) (published : Event → Prop) (consumers : Consumers) : Prop where
  keyed : consumers.analytics.Keyed
  markers : consumers.analytics.processed.values =
    consumers.applied.map fun event => ⟨consumer, event.eventId⟩
  count : ∀ day type, consumers.analytics.count day type =
    consumers.applied.countP (Event.countsFor day type)
  applied : ∀ event ∈ consumers.applied, published event
  returned : ∀ event ∈ consumers.returned, published event ∧ consumers.Applied event
  frames : ∀ frame, some frame ∈ consumers.calls → consumers.FrameOk published frame

theorem inv_init (consumer : String) (published : Event → Prop) :
    init.Inv consumer published where
  keyed := ⟨.nil, .nil⟩
  markers := rfl
  count _ _ := rfl
  applied _ membership := absurd membership List.not_mem_nil
  returned _ membership := absurd membership List.not_mem_nil
  frames _ membership := absurd membership List.not_mem_nil

theorem FrameOk.mono {published wider : Event → Prop} {consumers next : Consumers}
    {frame : ProcessFrame} (ok : consumers.FrameOk published frame)
    (more : ∀ event, published event → wider event)
    (since : consumers.analytics.Since next.analytics)
    (applied : ∀ event, consumers.Applied event → next.Applied event) :
    next.FrameOk wider frame := by
  cases frame with
  | start event => exact more event ok
  | callback event snapshot => exact ⟨more event ok.1, ok.2.1, ok.2.2.trans since⟩
  | committed event => exact ⟨more event ok.1, applied event ok.2⟩

theorem call_set {calls : List (Option ProcessFrame)} {call : Nat}
    {replacement : Option ProcessFrame} {frame : ProcessFrame}
    (membership : some frame ∈ calls.set call replacement) :
    some frame ∈ calls ∨ replacement = some frame := by
  rcases List.mem_or_eq_of_mem_set membership with old | new
  · exact .inl old
  · exact .inr new.symm

namespace Inv

variable {consumer : String} {published : Event → Prop} {consumers : Consumers}
  (inv : consumers.Inv consumer published)

include inv

/-- More messages may be published meanwhile. -/
theorem mono {wider : Event → Prop} (more : ∀ event, published event → wider event) :
    consumers.Inv consumer wider :=
  { inv with
    applied := fun event membership => more event (inv.applied event membership)
    returned := fun event membership =>
      ⟨more event (inv.returned event membership).1, (inv.returned event membership).2⟩
    frames := fun frame membership =>
      (inv.frames frame membership).mono more (.refl _) fun _ same => same }

/-- A call goes on, and the database stays as it is. -/
theorem calls (calls : List (Option ProcessFrame))
    (frames : ∀ frame, some frame ∈ calls → consumers.FrameOk published frame) :
    ({ consumers with calls } : Consumers).Inv consumer published :=
  { inv with
    frames := fun frame membership =>
      (frames frame membership).mono (fun _ same => same) (.refl _) fun _ same => same }

theorem finish {call : Nat} {event : Event} (isPublished : published event)
    (applied : consumers.Applied event) :
    ({ consumers with
        calls := consumers.calls.set call none
        returned := consumers.returned ++ [event] } : Consumers).Inv consumer published :=
  { inv with
    returned := fun other membership => by
      rcases List.mem_append.mp membership with old | new
      · exact inv.returned other old
      · cases List.mem_singleton.mp new
        exact ⟨isPublished, applied⟩
    frames := fun frame membership => by
      rcases call_set membership with old | new
      · exact (inv.frames frame old).mono (fun _ same => same) (.refl _) fun _ same => same
      · cases new }

theorem apply {call : Nat} {event : Event} {analytics : AnalyticsDb}
    (isPublished : published event)
    (marked : analytics.processed.values =
      consumers.analytics.processed.values ++ [⟨consumer, event.eventId⟩])
    (counted : consumers.analytics.CountedOnce analytics event) :
    ({ consumers with
        calls := consumers.calls.set call (some (.committed event))
        analytics
        applied := consumers.applied ++ [event] } : Consumers).Inv consumer published := by
  have more : ∀ other, consumers.Applied other →
      other.eventId ∈ (consumers.applied ++ [event]).map Event.eventId := by
    intro other applied
    rw [List.map_append]
    exact List.mem_append_left _ applied
  constructor
  · exact counted.keyed
  · rw [marked, inv.markers, List.map_append]
    rfl
  · intro day type
    rw [counted.count, inv.count, List.countP_append, List.countP_singleton]
  · intro other membership
    rcases List.mem_append.mp membership with old | new
    · exact inv.applied other old
    · cases List.mem_singleton.mp new
      exact isPublished
  · exact fun other membership =>
      ⟨(inv.returned other membership).1, more other (inv.returned other membership).2⟩
  · intro frame membership
    rcases call_set membership with old | new
    · exact (inv.frames frame old).mono (fun _ same => same) counted.since more
    · cases new
      refine ⟨isPublished, ?_⟩
      rw [Applied, List.map_append]
      exact List.mem_append_right _ List.mem_cons_self

/-- A marker belongs to an applied event. -/
theorem applied_of_marker {event : Event}
    (marker : (consumer, event.eventId) ∈ consumers.analytics.processed.ids) :
    consumers.Applied event := by
  rw [← Collection.values_ids, inv.markers, List.map_map, List.mem_map] at marker
  rcases marker with ⟨other, otherMem, same⟩
  exact List.mem_map.mpr ⟨other, otherMem, (Prod.mk.inj same).2⟩

theorem advance {call : Nat} {frame : ProcessFrame}
    (found : consumers.calls[call]? = some (some frame)) :
    (consumers.advance consumer call frame).Inv consumer published := by
  have ok := inv.frames frame (List.mem_of_getElem? found)
  cases frame with
  | start event =>
      refine inv.calls _ fun frame membership => ?_
      rcases call_set membership with old | new
      · exact inv.frames frame old
      · cases new
        exact ⟨ok, inv.keyed, .refl _⟩
  | callback event snapshot =>
      rcases ok with ⟨isPublished, keyed, since⟩
      simp only [Consumers.advance]
      cases ran : (applyEvent consumer event).run snapshot with
      | error thrown =>
          rcases applyEvent_error keyed ran with ⟨rfl, marker⟩
          exact inv.finish isPublished
            (inv.applied_of_marker (since.processed.ids_subset _ marker))
      | ok outcome =>
          cases outcome with | mk _ view =>
          cases commits : consumers.analytics.commit snapshot view with
          | none =>
              simp only [commits]
              refine inv.calls _ fun frame membership => ?_
              rcases call_set membership with old | new
              · exact inv.frames frame old
              · cases new
                exact isPublished
          | some analytics =>
              simp only [commits]
              rcases applyEvent_commit keyed inv.keyed since ran commits with ⟨marked, counted⟩
              exact inv.apply isPublished marked counted
  | committed event => exact inv.finish ok.1 ok.2

theorem step {next : Consumers} {action : Action}
    (delivered : ∀ event, action = .deliver event → published event)
    (taken : consumers.step consumer action = some next) : next.Inv consumer published := by
  cases action with
  | deliver event =>
      cases taken
      refine inv.calls _ fun frame membership => ?_
      rcases List.mem_append.mp membership with old | new
      · exact inv.frames frame old
      · cases List.mem_singleton.mp new
        exact delivered event rfl
  | advance call =>
      simp only [Consumers.step] at taken
      split at taken
      · next frame found =>
        cases taken
        exact inv.advance found
      · cases taken
  | crash call =>
      cases taken
      refine inv.calls _ fun frame membership => ?_
      rcases call_set membership with old | new
      · exact inv.frames frame old
      · cases new

/-- No event is applied twice. -/
theorem applied_nodup : (consumers.applied.map Event.eventId).Nodup := by
  have ids := inv.keyed.processed
  rw [← Collection.values_ids, inv.markers, List.map_map] at ids
  refine List.Nodup.of_map (fun eventId => (consumer, eventId)) ?_
  rw [List.map_map]
  exact ids

end Inv

end Consumers

end WorkflowEngine.Events
