import WorkflowEngine.Events.Relay
import Mathlib.Data.List.Perm.Subperm
import Mathlib.Data.Finset.Card
import Mathlib.Data.Finset.Dedup

/-!
# From the outbox to the counters

The broker delivers the messages it has, each any number of times and in any order, to
any number of calls of `process`.  Every hand-over may happen twice, and none is lost:
the counters tell how many events were committed.
-/

namespace WorkflowEngine.Events

/-- Producers, relays and consumers. -/
structure Pipeline where
  outbox : Outbox
  consumers : Consumers

namespace Pipeline

inductive Action where
  | outbox (action : Outbox.Action)
  /-- the broker delivers a message it has -/
  | deliver (message : Message)
  | consume (call : Nat)
  | crashConsumer (call : Nat)

def step (batchSize : Nat) (consumer : String) (pipeline : Pipeline) : Action → Option Pipeline
  | .outbox action =>
      (pipeline.outbox.step batchSize action).map fun outbox => { pipeline with outbox }
  | .deliver message =>
      if message ∈ pipeline.outbox.broker then
        (pipeline.consumers.step consumer (.deliver message.value)).map fun consumers =>
          { pipeline with consumers }
      else
        none
  | .consume call =>
      (pipeline.consumers.step consumer (.advance call)).map fun consumers =>
        { pipeline with consumers }
  | .crashConsumer call =>
      (pipeline.consumers.step consumer (.crash call)).map fun consumers =>
        { pipeline with consumers }

end Pipeline

/-- The pipeline, with any batch size, consumer group and initial counters. -/
def eventPipeline (batchSize : Nat) (consumer : String) (counters : Nat → Nat) :
    Transition.System Pipeline Pipeline.Action where
  init := ⟨.init counters, .init⟩
  step := Pipeline.step batchSize consumer

/-- The event of a committed row. -/
def Outbox.HasEvent (outbox : Outbox) (event : Event) : Prop :=
  ∃ row ∈ outbox.committed, row.event = event

/-- Committed rows stay committed. -/
theorem Outbox.committed_step {batchSize : Nat} {outbox next : Outbox} {action : Outbox.Action}
    (taken : outbox.step batchSize action = some next) :
    ∀ row ∈ outbox.committed, row ∈ next.committed := by
  intro row membership
  cases action with
  | commit transaction =>
      rcases Option.map_eq_some_iff.mp taken with ⟨rows, _, rfl⟩
      split
      · exact (Outbox.mem_committed_concat rfl).mpr (.inl membership)
      · exact membership
  | emit transaction process seconds event =>
      rcases Option.map_eq_some_iff.mp taken with ⟨rows, _, rfl⟩
      exact membership
  | begin | abort | relayOnce | crash | expire =>
      cases taken
      exact membership
  | find | publish | mark =>
      simp only [Outbox.step] at taken
      split at taken <;> cases taken
      exact membership
  | publishFails relay written =>
      simp only [Outbox.step] at taken
      split at taken
      · split at taken <;> cases taken
        exact membership
      · cases taken

namespace Pipeline

/-- The invariants of both sides. -/
structure Inv (consumer : String) (pipeline : Pipeline) : Prop where
  outbox : pipeline.outbox.Inv
  consumers : pipeline.consumers.Inv consumer pipeline.outbox.HasEvent

theorem Inv.step {batchSize : Nat} {consumer : String} {pipeline next : Pipeline}
    {action : Action} (inv : pipeline.Inv consumer)
    (taken : pipeline.step batchSize consumer action = some next) : next.Inv consumer := by
  cases action with
  | outbox action =>
      rcases Option.map_eq_some_iff.mp taken with ⟨outbox, stepped, rfl⟩
      refine ⟨inv.outbox.step stepped, inv.consumers.mono ?_⟩
      rintro event ⟨row, membership, isEvent⟩
      exact ⟨row, Outbox.committed_step stepped row membership, isEvent⟩
  | deliver message =>
      simp only [Pipeline.step] at taken
      split at taken
      · next present =>
        rcases Option.map_eq_some_iff.mp taken with ⟨consumers, stepped, rfl⟩
        refine ⟨inv.outbox, inv.consumers.step ?_ stepped⟩
        intro event isEvent
        cases isEvent
        rcases inv.outbox.broker message present with ⟨row, membership, isMessage⟩
        exact ⟨row, membership, congrArg Message.value isMessage⟩
      · cases taken
  | consume call =>
      rcases Option.map_eq_some_iff.mp taken with ⟨consumers, stepped, rfl⟩
      refine ⟨inv.outbox, inv.consumers.step (fun _ same => ?_) stepped⟩
      cases same
  | crashConsumer call =>
      simp only [Pipeline.step] at taken
      rcases Option.map_eq_some_iff.mp taken with ⟨consumers, stepped, rfl⟩
      refine ⟨inv.outbox, inv.consumers.step (fun _ same => ?_) stepped⟩
      cases same

theorem inv_of_reachable {batchSize : Nat} {consumer : String} {counters : Nat → Nat}
    {pipeline : Pipeline}
    (reachable : (eventPipeline batchSize consumer counters).Reachable pipeline) :
    pipeline.Inv consumer := by
  induction reachable with
  | init => exact ⟨Outbox.inv_init counters, Consumers.inv_init consumer _⟩
  | step _ _ taken ih => exact ih.step taken

/-- How many committed rows are of this day and type. -/
def committedCount (pipeline : Pipeline) (day : Int) (type : EventType) : Nat :=
  pipeline.outbox.committed.countP fun row => row.event.countsFor day type

/-- The identifiers of the events of this day and type whose transaction committed. -/
def appliedIds (pipeline : Pipeline) (day : Int) (type : EventType) : Finset Nat :=
  ((pipeline.consumers.applied.filter (Event.countsFor day type)).map Event.eventId).toFinset

/-- Nothing is lost between a commit and its count, and nothing is counted twice. -/
structure ExactlyOnce (pipeline : Pipeline) : Prop where
  /-- a row is marked only after a publish call that contained it succeeded -/
  marked : ∀ row ∈ pipeline.outbox.rows, row.publishedAt ≠ none →
    ∃ sent ∈ pipeline.outbox.acknowledged, sent.id = row.id
  /-- a committed row is in the collection, unpublished, or was published -/
  kept : ∀ row ∈ pipeline.outbox.committed, row.publishedAt = none ∧
    (row ∈ pipeline.outbox.rows ∨ row ∈ pipeline.outbox.acknowledged)
  counted : ∀ day type, pipeline.consumers.analytics.count day type =
    (pipeline.appliedIds day type).card
  bounded : ∀ day type, pipeline.consumers.analytics.count day type ≤
    pipeline.committedCount day type
  complete : (∀ row ∈ pipeline.outbox.committed, row ∈ pipeline.outbox.acknowledged ∧
      row.event ∈ pipeline.consumers.returned) →
    ∀ day type, pipeline.consumers.analytics.count day type = pipeline.committedCount day type

namespace Inv

variable {consumer : String} {pipeline : Pipeline} (inv : pipeline.Inv consumer)

include inv

theorem counted (day : Int) (type : EventType) :
    pipeline.consumers.analytics.count day type = (pipeline.appliedIds day type).card := by
  have distinct := inv.consumers.applied_nodup.sublist
    ((List.filter_sublist (p := Event.countsFor day type)
      (l := pipeline.consumers.applied)).map Event.eventId)
  rw [inv.consumers.count, appliedIds, List.toFinset_card_of_nodup distinct, List.length_map,
    List.countP_eq_length_filter]

/-- An applied event is the event of a committed row, and the row is the only one with
its event identifier. -/
theorem event_of_applied {row : Row} (membership : row ∈ pipeline.outbox.committed)
    (applied : pipeline.consumers.Applied row.event) : row.event ∈ pipeline.consumers.applied := by
  rcases List.mem_map.mp applied with ⟨event, eventMem, sameId⟩
  rcases inv.consumers.applied event eventMem with ⟨other, otherMem, rfl⟩
  have same := List.inj_on_of_nodup_map inv.outbox.eventIds otherMem membership sameId
  exact same ▸ eventMem

theorem applied_le (day : Int) (type : EventType) :
    pipeline.consumers.applied.countP (Event.countsFor day type) ≤
      pipeline.committedCount day type := by
  have distinct : (pipeline.consumers.applied.filter (Event.countsFor day type)).Nodup :=
    (List.Nodup.of_map _ inv.consumers.applied_nodup).filter _
  have counts : (pipeline.outbox.committed.map Row.event).countP (Event.countsFor day type) =
      pipeline.committedCount day type := List.countP_map
  rw [← counts, List.countP_eq_length_filter, List.countP_eq_length_filter]
  refine (List.subperm_of_subset distinct fun event membership => ?_).length_le
  rw [List.mem_filter] at membership ⊢
  rcases inv.consumers.applied event membership.1 with ⟨row, rowMem, isEvent⟩
  exact ⟨List.mem_map.mpr ⟨row, rowMem, isEvent⟩, membership.2⟩

theorem le_applied (returned : ∀ row ∈ pipeline.outbox.committed,
    row.event ∈ pipeline.consumers.returned) (day : Int) (type : EventType) :
    pipeline.committedCount day type ≤
      pipeline.consumers.applied.countP (Event.countsFor day type) := by
  have events : (pipeline.outbox.committed.map Row.event).Nodup := by
    refine List.Nodup.of_map Event.eventId ?_
    rw [List.map_map]
    exact inv.outbox.eventIds
  have counts : (pipeline.outbox.committed.map Row.event).countP (Event.countsFor day type) =
      pipeline.committedCount day type := List.countP_map
  rw [← counts, List.countP_eq_length_filter, List.countP_eq_length_filter]
  refine (List.subperm_of_subset (events.filter _) fun event membership => ?_).length_le
  rw [List.mem_filter] at membership ⊢
  rcases List.mem_map.mp membership.1 with ⟨row, rowMem, rfl⟩
  exact ⟨inv.event_of_applied rowMem (inv.consumers.returned _ (returned row rowMem)).2,
    membership.2⟩

end Inv

end Pipeline

/-- Every state of the pipeline has counted every processed event exactly once. -/
theorem events_exactly_once {batchSize : Nat} {consumer : String} {counters : Nat → Nat}
    {pipeline : Pipeline}
    (reachable : (eventPipeline batchSize consumer counters).Reachable pipeline) :
    pipeline.ExactlyOnce := by
  have inv := Pipeline.inv_of_reachable reachable
  constructor
  · intro row membership published
    rcases inv.outbox.stored row membership with committed | ⟨_, sent⟩
    · exact absurd (inv.outbox.unpublished row committed) published
    · exact sent
  · exact fun row membership =>
      ⟨inv.outbox.unpublished row membership, inv.outbox.kept row membership⟩
  · exact inv.counted
  · intro day type
    rw [inv.consumers.count]
    exact inv.applied_le day type
  · intro handed day type
    rw [inv.consumers.count]
    exact Nat.le_antisymm (inv.applied_le day type)
      (inv.le_applied (fun row membership => (handed row membership).2) day type)

namespace Schedule

/-- One event is published twice and delivered twice; the consumer crashes after its
commit. -/
def redelivered : List Pipeline.Action :=
  [.outbox .begin, .outbox (.emit 0 7 100 (event 1 .executionStarted)), .outbox (.commit 0),
    .outbox .relayOnce, .outbox (.find 0), .outbox (.publish 0), .outbox (.crash 0),
    .outbox .relayOnce, .outbox (.find 1), .outbox (.publish 1), .outbox (.mark 1 50),
    .deliver ⟨1, event 1 .executionStarted⟩, .consume 0, .consume 0, .crashConsumer 0,
    .deliver ⟨1, event 1 .executionStarted⟩, .consume 1, .consume 1]

end Schedule

theorem events_exactly_once_redelivered :
    (((eventPipeline 100 "analytics" fun _ => 0).run Schedule.redelivered).get
      (by decide)).ExactlyOnce :=
  events_exactly_once (Transition.System.get_run_reachable
    (eventPipeline 100 "analytics" fun _ => 0) Schedule.redelivered (by decide))

end WorkflowEngine.Events
