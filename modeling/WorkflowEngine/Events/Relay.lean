import WorkflowEngine.Events.Analytics
import WorkflowEngine.Workflow.System
import Mathlib.Algebra.Group.Nat.Defs
import Mathlib.Data.Prod.Lex
import Mathlib.Data.List.Sort

/-!
# The outbox and its relays

Transactions write event rows, each under an identifier that its process generates when
it creates the row, and the rows become visible when the transaction commits.  A call of
`relayOnce` reads the oldest unpublished rows, publishes them and marks them, in three
steps; any number of calls may be in progress.

`commits` and `acknowledged` are histories that no operation reads: the rows of every
transaction that committed, in the order of the commits, and the rows of the publish calls
that succeeded, in the order of publication.
-/

namespace WorkflowEngine.Events

/-- An ObjectId: a time in seconds, the random value of the process that generated it and
a counter of that process, compared in this order. -/
abbrev RowId := Nat ×ₗ Nat ×ₗ Nat

/-- An outbox row. -/
structure Row where
  id : RowId
  event : Event
  publishedAt : Option Time
  deriving DecidableEq

/-- A message on the topic.  All events of one execution have one key. -/
structure Message where
  key : ExecutionId
  value : Event
  deriving DecidableEq

def Row.message (row : Row) : Message :=
  { key := row.event.aggregateId, value := row.event }

/-- A call of `relayOnce` in progress. -/
inductive RelayFrame where
  | find
  | publish (batch : List Row)
  | mark (batch : List Row)
  deriving DecidableEq

structure Outbox where
  /-- the counter of each process's identifiers -/
  counters : Nat → Nat
  /-- what the open transactions have written -/
  transactions : List (List Row)
  /-- the collection -/
  rows : List Row
  /-- the calls of `relayOnce` -/
  relays : List (Option RelayFrame)
  /-- the messages the broker has -/
  broker : List Message
  commits : List (List Row)
  acknowledged : List Row

namespace Outbox

/-- Every row that was ever committed. -/
def committed (outbox : Outbox) : List Row :=
  outbox.commits.flatten

/-- Oldest unpublished first. -/
def findBatch (batchSize : Nat) (rows : List Row) : List Row :=
  limited batchSize
    ((rows.filter fun row => row.publishedAt.isNone).insertionSort fun left right =>
      left.id ≤ right.id)

/-- `{ _id: { $in: ids } } -> { $set: { publishedAt: now } }` -/
def markPublished (ids : List RowId) (now : Time) (row : Row) : Row :=
  if row.id ∈ ids then { row with publishedAt := some now } else row

/-- The TTL index on `publishedAt` in milliseconds: 7 days.  Null never expires. -/
def expired (now : Time) (row : Row) : Bool :=
  row.publishedAt.any fun publishedAt => publishedAt + 7 * 24 * 3600 * 1000 ≤ now

/-- No identifier and no event identifier is used twice, in the collection or in rows
that were removed from it. -/
def fresh (outbox : Outbox) (rows : List Row) : Bool :=
  ((outbox.committed ++ rows).map Row.id).Nodup ∧
    ((outbox.committed ++ rows).map fun row => row.event.eventId).Nodup

inductive Action where
  | begin
  /-- `emit` in a transaction, by a process and at a time in seconds -/
  | emit (transaction process seconds : Nat) (event : Event)
  | commit (transaction : Nat)
  | abort (transaction : Nat)
  /-- some leader calls `relayOnce` -/
  | relayOnce
  | find (relay : Nat)
  | publish (relay : Nat)
  /-- the publish call throws; the broker may have some of its messages nevertheless -/
  | publishFails (relay : Nat) (written : List Message)
  | mark (relay : Nat) (now : Time)
  | crash (relay : Nat)
  /-- the TTL monitor removes a row -/
  | expire (id : RowId) (now : Time)

/-- The row that `emit` creates. -/
def newRow (outbox : Outbox) (process seconds : Nat) (event : Event) : Row :=
  { id := toLex (seconds, toLex (process, outbox.counters process)), event, publishedAt := none }

def step (batchSize : Nat) (outbox : Outbox) : Action → Option Outbox
  | .begin => some { outbox with transactions := outbox.transactions ++ [[]] }
  | .emit transaction process seconds event =>
      outbox.transactions[transaction]?.map fun rows =>
        { outbox with
          -- the counter has three bytes
          counters := Function.update outbox.counters process
            ((outbox.counters process + 1) % 2 ^ 24)
          transactions := outbox.transactions.set transaction
            (rows ++ [outbox.newRow process seconds event]) }
  | .commit transaction =>
      outbox.transactions[transaction]?.map fun rows =>
        if outbox.fresh rows then
          { outbox with
            transactions := outbox.transactions.set transaction []
            rows := outbox.rows ++ rows
            commits := outbox.commits ++ [rows] }
        else
          { outbox with transactions := outbox.transactions.set transaction [] }
  | .abort transaction =>
      some { outbox with transactions := outbox.transactions.set transaction [] }
  | .relayOnce => some { outbox with relays := outbox.relays ++ [some .find] }
  | .find relay =>
      match outbox.relays[relay]? with
      | some (some .find) =>
          let batch := findBatch batchSize outbox.rows
          some { outbox with
            relays := outbox.relays.set relay
              (if batch.length = 0 then none else some (.publish batch)) }
      | _ => none
  | .publish relay =>
      match outbox.relays[relay]? with
      | some (some (.publish batch)) =>
          some { outbox with
            relays := outbox.relays.set relay (some (.mark batch))
            broker := outbox.broker ++ batch.map Row.message
            acknowledged := outbox.acknowledged ++ batch }
      | _ => none
  | .publishFails relay written =>
      match outbox.relays[relay]? with
      | some (some (.publish batch)) =>
          if ∀ message ∈ written, message ∈ batch.map Row.message then
            some { outbox with
              relays := outbox.relays.set relay none, broker := outbox.broker ++ written }
          else
            none
      | _ => none
  | .mark relay now =>
      match outbox.relays[relay]? with
      | some (some (.mark batch)) =>
          some { outbox with
            relays := outbox.relays.set relay none
            rows := outbox.rows.map (markPublished (batch.map Row.id) now) }
      | _ => none
  | .crash relay => some { outbox with relays := outbox.relays.set relay none }
  | .expire id now =>
      some { outbox with
        rows := outbox.rows.filter fun row => !(row.id = id && expired now row) }

/-- No rows, and processes whose counters start anywhere. -/
def init (counters : Nat → Nat) : Outbox :=
  { counters, transactions := [], rows := [], relays := [], broker := [], commits := []
    acknowledged := [] }

/-! ## What the rows are -/

/-- What a call of `relayOnce` holds. -/
def FrameOk (outbox : Outbox) : RelayFrame → Prop
  | .find => True
  | .publish batch => ∀ row ∈ batch, row ∈ outbox.committed
  | .mark batch => ∀ row ∈ batch, row ∈ outbox.acknowledged

structure Inv (outbox : Outbox) : Prop where
  ids : (outbox.committed.map Row.id).Nodup
  eventIds : (outbox.committed.map fun row => row.event.eventId).Nodup
  clean : ∀ rows ∈ outbox.transactions, ∀ row ∈ rows, row.publishedAt = none
  unpublished : ∀ row ∈ outbox.committed, row.publishedAt = none
  acknowledged : ∀ row ∈ outbox.acknowledged, row ∈ outbox.committed
  /-- a row of the collection is as it was committed, or was published -/
  stored : ∀ row ∈ outbox.rows, row ∈ outbox.committed ∨
    row.publishedAt ≠ none ∧ ∃ sent ∈ outbox.acknowledged, sent.id = row.id
  /-- a committed row is in the collection, or was published -/
  kept : ∀ row ∈ outbox.committed, row ∈ outbox.rows ∨ row ∈ outbox.acknowledged
  frames : ∀ frame, some frame ∈ outbox.relays → outbox.FrameOk frame
  broker : ∀ message ∈ outbox.broker, ∃ row ∈ outbox.committed, row.message = message

theorem inv_init (counters : Nat → Nat) : (init counters).Inv := by
  constructor <;> simp [init, committed]

/-- One more transaction has committed. -/
theorem committed_concat {outbox next : Outbox} {rows : List Row}
    (commits : next.commits = outbox.commits ++ [rows]) :
    next.committed = outbox.committed ++ rows := by
  rw [committed, commits, List.flatten_append, List.flatten_singleton]
  rfl

theorem mem_committed_concat {outbox next : Outbox} {rows : List Row} {row : Row}
    (commits : next.commits = outbox.commits ++ [rows]) :
    row ∈ next.committed ↔ row ∈ outbox.committed ∨ row ∈ rows := by
  rw [committed_concat commits, List.mem_append]

theorem mem_findBatch {batchSize : Nat} {rows : List Row} {row : Row}
    (found : row ∈ findBatch batchSize rows) : row ∈ rows ∧ row.publishedAt = none := by
  have sorted : row ∈ (rows.filter fun row => row.publishedAt.isNone).insertionSort
      fun left right => left.id ≤ right.id := by
    unfold findBatch limited at found
    split at found
    · exact found
    · exact List.mem_of_mem_take found
  have filtered := (List.perm_insertionSort _ _).mem_iff.mp sorted
  rw [List.mem_filter, Option.isNone_iff_eq_none] at filtered
  exact filtered

theorem FrameOk.mono {outbox next : Outbox} {frame : RelayFrame} (ok : outbox.FrameOk frame)
    (committed : ∀ row ∈ outbox.committed, row ∈ next.committed)
    (acknowledged : ∀ row ∈ outbox.acknowledged, row ∈ next.acknowledged) :
    next.FrameOk frame := by
  cases frame with
  | find => trivial
  | publish batch => exact fun row membership => committed row (ok row membership)
  | mark batch => exact fun row membership => acknowledged row (ok row membership)

/-- A frame of the calls after one of them was replaced. -/
theorem frame_set {relays : List (Option RelayFrame)} {relay : Nat}
    {replacement : Option RelayFrame} {frame : RelayFrame}
    (membership : some frame ∈ relays.set relay replacement) :
    some frame ∈ relays ∨ replacement = some frame := by
  rcases List.mem_or_eq_of_mem_set membership with old | new
  · exact .inl old
  · exact .inr new.symm

namespace Inv

variable {outbox : Outbox} (inv : outbox.Inv)

include inv

/-- Rows of an open transaction change nothing that is committed. -/
theorem transactions (counters : Nat → Nat) (transactions : List (List Row))
    (clean : ∀ rows ∈ transactions, ∀ row ∈ rows, row.publishedAt = none) :
    ({ outbox with counters, transactions } : Outbox).Inv :=
  { inv with clean := clean }

theorem clean_set (transaction : Nat) {rows : List Row}
    (clean : ∀ row ∈ rows, row.publishedAt = none) :
    ∀ others ∈ outbox.transactions.set transaction rows, ∀ row ∈ others,
      row.publishedAt = none := by
  intro others membership
  rcases List.mem_or_eq_of_mem_set membership with old | rfl
  · exact inv.clean others old
  · exact clean

/-- A call of `relayOnce` goes on. -/
theorem relays (relays : List (Option RelayFrame))
    (frames : ∀ frame, some frame ∈ relays → outbox.FrameOk frame) :
    ({ outbox with relays } : Outbox).Inv :=
  { inv with
    frames := fun frame membership =>
      (frames frame membership).mono (fun _ same => same) fun _ same => same }

theorem commit {transaction : Nat} {rows : List Row}
    (found : outbox.transactions[transaction]? = some rows) (fresh : outbox.fresh rows = true) :
    ({ outbox with
        transactions := outbox.transactions.set transaction []
        rows := outbox.rows ++ rows
        commits := outbox.commits ++ [rows] } : Outbox).Inv where
  ids := by
    rw [committed_concat rfl]
    exact (of_decide_eq_true fresh).1
  eventIds := by
    rw [committed_concat rfl]
    exact (of_decide_eq_true fresh).2
  clean := inv.clean_set transaction fun _ none => absurd none List.not_mem_nil
  unpublished row membership := by
    rcases (mem_committed_concat rfl).mp membership with old | new
    · exact inv.unpublished row old
    · exact inv.clean rows (List.mem_of_getElem? found) row new
  acknowledged row membership :=
    (mem_committed_concat rfl).mpr (.inl (inv.acknowledged row membership))
  stored row membership := by
    rcases List.mem_append.mp membership with old | new
    · rcases inv.stored row old with committed | published
      · exact .inl ((mem_committed_concat rfl).mpr (.inl committed))
      · exact .inr published
    · exact .inl ((mem_committed_concat rfl).mpr (.inr new))
  kept row membership := by
    rcases (mem_committed_concat rfl).mp membership with old | new
    · rcases inv.kept row old with stored | sent
      · exact .inl (List.mem_append_left _ stored)
      · exact .inr sent
    · exact .inl (List.mem_append_right _ new)
  frames frame membership := (inv.frames frame membership).mono
    (fun _ old => (mem_committed_concat rfl).mpr (.inl old)) fun _ same => same
  broker message membership := by
    rcases inv.broker message membership with ⟨row, committed, same⟩
    exact ⟨row, (mem_committed_concat rfl).mpr (.inl committed), same⟩

/-- An unpublished row of the collection is as it was committed. -/
theorem committed_of_unpublished {row : Row} (membership : row ∈ outbox.rows)
    (unpublished : row.publishedAt = none) : row ∈ outbox.committed := by
  rcases inv.stored row membership with committed | ⟨published, _⟩
  · exact committed
  · exact absurd unpublished published

theorem find {batchSize : Nat} {relay : Nat} :
    ({ outbox with
        relays := outbox.relays.set relay
          (if (findBatch batchSize outbox.rows).length = 0 then none
            else some (.publish (findBatch batchSize outbox.rows))) } : Outbox).Inv := by
  refine inv.relays _ fun frame membership => ?_
  rcases frame_set membership with old | new
  · exact inv.frames frame old
  · split at new
    · cases new
    · cases new
      intro row found
      have stored := mem_findBatch found
      exact inv.committed_of_unpublished stored.1 stored.2

theorem publish {relay : Nat} {batch : List Row}
    (found : outbox.relays[relay]? = some (some (.publish batch))) :
    ({ outbox with
        relays := outbox.relays.set relay (some (.mark batch))
        broker := outbox.broker ++ batch.map Row.message
        acknowledged := outbox.acknowledged ++ batch } : Outbox).Inv :=
  have batchOk : ∀ row ∈ batch, row ∈ outbox.committed :=
    inv.frames _ (List.mem_of_getElem? found)
  { inv with
    acknowledged := fun row membership => by
      rcases List.mem_append.mp membership with old | new
      · exact inv.acknowledged row old
      · exact batchOk row new
    stored := fun row membership => by
      rcases inv.stored row membership with committed | ⟨published, sent, sentMem, same⟩
      · exact .inl committed
      · exact .inr ⟨published, sent, List.mem_append_left _ sentMem, same⟩
    kept := fun row membership => by
      rcases inv.kept row membership with stored | sent
      · exact .inl stored
      · exact .inr (List.mem_append_left _ sent)
    frames := fun frame membership => by
      rcases frame_set membership with old | new
      · exact (inv.frames frame old).mono (fun _ same => same)
          fun _ sent => List.mem_append_left _ sent
      · cases new
        exact fun row sent => List.mem_append_right _ sent
    broker := fun message membership => by
      rcases List.mem_append.mp membership with old | new
      · exact inv.broker message old
      · rcases List.mem_map.mp new with ⟨row, rowMem, same⟩
        exact ⟨row, batchOk row rowMem, same⟩ }

theorem publishFails {relay : Nat} {batch : List Row} {written : List Message}
    (found : outbox.relays[relay]? = some (some (.publish batch)))
    (partOf : ∀ message ∈ written, message ∈ batch.map Row.message) :
    ({ outbox with
        relays := outbox.relays.set relay none
        broker := outbox.broker ++ written } : Outbox).Inv :=
  { inv with
    frames := fun frame membership => by
      rcases frame_set membership with old | new
      · exact (inv.frames frame old).mono (fun _ same => same) fun _ same => same
      · cases new
    broker := fun message membership => by
      rcases List.mem_append.mp membership with old | new
      · exact inv.broker message old
      · rcases List.mem_map.mp (partOf message new) with ⟨row, rowMem, same⟩
        exact ⟨row, inv.frames _ (List.mem_of_getElem? found) row rowMem, same⟩ }

theorem mark {relay : Nat} {batch : List Row} {now : Time}
    (found : outbox.relays[relay]? = some (some (.mark batch))) :
    ({ outbox with
        relays := outbox.relays.set relay none
        rows := outbox.rows.map (markPublished (batch.map Row.id) now) } : Outbox).Inv :=
  have batchOk : ∀ row ∈ batch, row ∈ outbox.acknowledged :=
    inv.frames _ (List.mem_of_getElem? found)
  { inv with
    stored := fun row membership => by
      rcases List.mem_map.mp membership with ⟨source, sourceMem, rfl⟩
      unfold markPublished
      split
      · next marked =>
        rcases List.mem_map.mp marked with ⟨sent, sentMem, same⟩
        exact .inr ⟨nofun, sent, batchOk sent sentMem, same⟩
      · exact inv.stored source sourceMem
    kept := fun row membership => by
      rcases inv.kept row membership with stored | sent
      · by_cases marked : row.id ∈ batch.map Row.id
        · rcases List.mem_map.mp marked with ⟨sent, sentMem, same⟩
          have sentAck := batchOk sent sentMem
          have isRow := List.inj_on_of_nodup_map inv.ids (inv.acknowledged sent sentAck)
            membership same
          exact .inr (isRow ▸ sentAck)
        · refine .inl (List.mem_map.mpr ⟨row, stored, ?_⟩)
          rw [markPublished, if_neg marked]
      · exact .inr sent
    frames := fun frame membership => by
      rcases frame_set membership with old | new
      · exact (inv.frames frame old).mono (fun _ same => same) fun _ same => same
      · cases new }

/-- The TTL monitor removes published rows only. -/
theorem expire (id : RowId) (now : Time) :
    ({ outbox with
        rows := outbox.rows.filter fun row => !(row.id = id && expired now row) } : Outbox).Inv :=
  { inv with
    stored := fun row membership => inv.stored row (List.mem_filter.mp membership).1
    kept := fun row membership => by
      rcases inv.kept row membership with stored | sent
      · refine .inl (List.mem_filter.mpr ⟨stored, ?_⟩)
        simp [expired, inv.unpublished row membership]
      · exact .inr sent
    frames := fun frame membership =>
      (inv.frames frame membership).mono (fun _ same => same) fun _ same => same }

theorem step {batchSize : Nat} {next : Outbox} {action : Action}
    (taken : outbox.step batchSize action = some next) : next.Inv := by
  cases action with
  | begin =>
      cases taken
      refine inv.transactions outbox.counters _ fun rows membership => ?_
      rcases List.mem_append.mp membership with old | new
      · exact inv.clean rows old
      · cases List.mem_singleton.mp new
        exact fun _ none => absurd none List.not_mem_nil
  | emit transaction process seconds event =>
      rcases Option.map_eq_some_iff.mp taken with ⟨rows, found, rfl⟩
      refine inv.transactions _ _ (inv.clean_set transaction fun row membership => ?_)
      rcases List.mem_append.mp membership with old | new
      · exact inv.clean rows (List.mem_of_getElem? found) row old
      · cases List.mem_singleton.mp new
        rfl
  | commit transaction =>
      rcases Option.map_eq_some_iff.mp taken with ⟨rows, found, rfl⟩
      split
      · next fresh => exact inv.commit found fresh
      · exact inv.transactions outbox.counters _
          (inv.clean_set transaction (List.forall_mem_nil _))
  | abort transaction =>
      cases taken
      exact inv.transactions outbox.counters _
        (inv.clean_set transaction (List.forall_mem_nil _))
  | relayOnce =>
      cases taken
      refine inv.relays _ fun frame membership => ?_
      rcases List.mem_append.mp membership with old | new
      · exact inv.frames frame old
      · cases List.mem_singleton.mp new
        trivial
  | find relay =>
      simp only [Outbox.step] at taken
      split at taken
      · cases taken
        exact inv.find
      · cases taken
  | publish relay =>
      simp only [Outbox.step] at taken
      split at taken
      · next found =>
        cases taken
        exact inv.publish found
      · cases taken
  | publishFails relay written =>
      simp only [Outbox.step] at taken
      split at taken
      · next found =>
        split at taken
        · next partOf =>
          cases taken
          exact inv.publishFails found partOf
        · cases taken
      · cases taken
  | mark relay now =>
      simp only [Outbox.step] at taken
      split at taken
      · next found =>
        cases taken
        exact inv.mark found
      · cases taken
  | crash relay =>
      cases taken
      refine inv.relays _ fun frame membership => ?_
      rcases frame_set membership with old | new
      · exact inv.frames frame old
      · cases new
  | expire id now =>
      cases taken
      exact inv.expire id now

end Inv

end Outbox

end WorkflowEngine.Events
