import WorkflowEngine.Events.Relay
import WorkflowEngine.Foundations.Transition
import Mathlib.Data.List.ProdSigma

/-!
# The order of the events of one execution

A relay publishes by identifier, and identifiers are generated before the commit and by
different processes.  One relay that never crashes publishes the events of an execution in
the order of the commits exactly as far as the identifiers in each batch follow it.
-/

namespace WorkflowEngine.Events

/-- Producers and relays, with any batch size and initial counters. -/
def outboxSystem (batchSize : Nat) (counters : Nat → Nat) :
    Transition.System Outbox Outbox.Action where
  init := .init counters
  step := Outbox.step batchSize

/-- The pairs of rows whose transactions committed one after the other. -/
def commitPairs : List (List Row) → List (Row × Row)
  | [] => []
  | rows :: rest => rows.product rest.flatten ++ commitPairs rest

namespace Outbox

/-- A pair of events of one execution, in the order in which they were committed. -/
def eventPairs (outbox : Outbox) : List (Row × Row) :=
  (commitPairs outbox.commits).filter fun pair =>
    pair.1.event.aggregateId = pair.2.event.aggregateId

/-- No event was published before an event of its execution that committed earlier. -/
def InCommitOrder (outbox : Outbox) : Prop :=
  ∀ pair ∈ outbox.eventPairs, ¬ [pair.2, pair.1].Sublist outbox.acknowledged

/-- The next batch has no event with a smaller identifier than an unpublished event of its
execution that committed earlier. -/
def readsInOrder (batchSize : Nat) (outbox : Outbox) : Bool :=
  ∀ pair ∈ outbox.eventPairs, pair.1 ∈ outbox.rows →
    pair.2 ∈ findBatch batchSize outbox.rows → pair.1.id < pair.2.id

/-- There is one relay, which makes one call after the other and never crashes. -/
def oneRelay (outbox : Outbox) : Action → Bool
  | .crash _ => false
  | .relayOnce => outbox.relays.all Option.isNone
  | _ => true

/-- The relay reads batches in commit order only. -/
def relaysInOrder (batchSize : Nat) (outbox : Outbox) (action : Action) : Bool :=
  outbox.oneRelay action &&
    match action with
    | .find _ => outbox.readsInOrder batchSize
    | _ => true

end Outbox

/-! ## Pairs of commits -/

theorem mem_of_commitPairs {commits : List (List Row)} {pair : Row × Row}
    (membership : pair ∈ commitPairs commits) :
    pair.1 ∈ commits.flatten ∧ pair.2 ∈ commits.flatten := by
  induction commits with
  | nil => cases membership
  | cons rows rest ih =>
      rw [List.flatten_cons, List.mem_append, List.mem_append]
      rcases List.mem_append.mp membership with here | later
      · have both := List.pair_mem_product.mp here
        exact ⟨.inl both.1, .inr both.2⟩
      · exact ⟨.inr (ih later).1, .inr (ih later).2⟩

/-- A new commit is the second one of its pairs. -/
theorem mem_commitPairs_concat {commits : List (List Row)} {rows : List Row} {pair : Row × Row} :
    pair ∈ commitPairs (commits ++ [rows]) ↔
      pair ∈ commitPairs commits ∨ pair.1 ∈ commits.flatten ∧ pair.2 ∈ rows := by
  cases pair with | mk left right =>
  induction commits with
  | nil => simp [commitPairs, List.pair_mem_product]
  | cons first rest ih =>
      rw [List.cons_append, commitPairs, commitPairs, List.mem_append, List.mem_append, ih,
        List.flatten_append, List.flatten_singleton, List.flatten_cons]
      simp only [List.pair_mem_product, List.mem_append]
      tauto

/-! ## One call at a time -/

/-- At most one call of `relayOnce` is in progress. -/
def Alone (relays : List (Option RelayFrame)) : Prop :=
  ∀ (i j : Nat) (left right : RelayFrame), relays[i]? = some (some left) → relays[j]? = some (some right) → i = j

namespace Alone

variable {relays : List (Option RelayFrame)} (alone : Alone relays) {relay : Nat}
  {frame : RelayFrame} (found : relays[relay]? = some (some frame))

include alone found

theorem eq_of_mem {other : RelayFrame} (membership : some other ∈ relays) : other = frame := by
  rcases List.getElem?_of_mem membership with ⟨i, here⟩
  cases alone i relay other frame here found
  rw [found] at here
  exact (Option.some.inj (Option.some.inj here)).symm

/-- The only call goes on or ends. -/
theorem of_set {replacement : Option RelayFrame} {i : Nat} {other : RelayFrame}
    (here : (relays.set relay replacement)[i]? = some (some other)) :
    i = relay ∧ replacement = some other := by
  by_cases same : i = relay
  · subst same
    have bound := (List.getElem?_eq_some_iff.mp found).1
    rw [List.getElem?_set_self bound] at here
    exact ⟨rfl, Option.some.inj here⟩
  · rw [List.getElem?_set_ne (Ne.symm same)] at here
    exact absurd (alone i relay other frame here found) same

theorem set (replacement : Option RelayFrame) : Alone (relays.set relay replacement) :=
  fun _ _ _ _ left right => (alone.of_set found left).1.trans (alone.of_set found right).1.symm

theorem of_mem_set {replacement : Option RelayFrame} {other : RelayFrame}
    (membership : some other ∈ relays.set relay replacement) : replacement = some other := by
  rcases List.getElem?_of_mem membership with ⟨i, here⟩
  exact (alone.of_set found here).2

end Alone

/-- A call may start when none is in progress. -/
theorem Alone.start {relays : List (Option RelayFrame)}
    (idle : relays.all Option.isNone = true) :
    Alone (relays ++ [some .find]) ∧
      ∀ frame, some frame ∈ relays ++ [some .find] → frame = .find := by
  have none : ∀ (i : Nat) (frame : RelayFrame), relays[i]? ≠ some (some frame) := by
    intro i frame found
    have isNone := List.all_eq_true.mp idle _ (List.mem_of_getElem? found)
    cases isNone
  have last : ∀ (i : Nat) (frame : RelayFrame),
      (relays ++ [some .find])[i]? = some (some frame) → i = relays.length ∧ frame = .find := by
    intro i frame found
    rcases Nat.lt_or_ge i relays.length with before | after
    · rw [List.getElem?_append_left before] at found
      exact absurd found (none i frame)
    · rw [List.getElem?_append_right after] at found
      rcases List.getElem?_eq_some_iff.mp found with ⟨bound, value⟩
      have position : i - relays.length = 0 := Nat.lt_one_iff.mp bound
      simp only [position, List.getElem_cons_zero, Option.some.injEq] at value
      exact ⟨Nat.le_antisymm (Nat.sub_eq_zero_iff_le.mp position) after, value.symm⟩
  constructor
  · exact fun i j left right here there => (last i left here).1.trans (last j right there).1.symm
  · intro frame membership
    rcases List.getElem?_of_mem membership with ⟨i, here⟩
    exact (last i frame here).2

/-! ## What a batch is -/

theorem findBatch_sorted (batchSize : Nat) (rows : List Row) :
    (Outbox.findBatch batchSize rows).Pairwise fun left right => left.id ≤ right.id := by
  have sorted := List.pairwise_insertionSort (fun left right : Row => left.id ≤ right.id)
    (rows.filter fun row => row.publishedAt.isNone)
  unfold Outbox.findBatch limited
  split
  · exact sorted
  · exact sorted.sublist (List.take_sublist _ _)

/-- A batch has every unpublished row with a smaller identifier than one of its rows. -/
theorem mem_findBatch_of_lt {batchSize : Nat} {rows : List Row} {first second : Row}
    (stored : first ∈ rows) (unpublished : first.publishedAt = none)
    (found : second ∈ Outbox.findBatch batchSize rows) (less : first.id < second.id) :
    first ∈ Outbox.findBatch batchSize rows := by
  have listed : first ∈ (rows.filter fun row => row.publishedAt.isNone).insertionSort
      fun left right => left.id ≤ right.id := by
    refine (List.perm_insertionSort _ _).mem_iff.mpr (List.mem_filter.mpr ⟨stored, ?_⟩)
    rw [unpublished]
    rfl
  have sorted := List.pairwise_insertionSort (fun left right : Row => left.id ≤ right.id)
    (rows.filter fun row => row.publishedAt.isNone)
  unfold Outbox.findBatch limited at found ⊢
  split
  · exact listed
  · next limit =>
    rw [if_neg limit] at found
    rw [← List.take_append_drop batchSize ((rows.filter _).insertionSort _)] at listed sorted
    rcases List.mem_append.mp listed with inside | outside
    · exact inside
    · have order := (List.pairwise_append.mp sorted).2.2 second found first outside
      exact absurd less (not_lt.mpr order)

namespace Outbox

variable {outbox : Outbox}

theorem mem_of_eventPairs {pair : Row × Row} (membership : pair ∈ outbox.eventPairs) :
    pair.1 ∈ outbox.committed ∧ pair.2 ∈ outbox.committed :=
  mem_of_commitPairs (List.mem_filter.mp membership).1

/-- The pairs that a commit adds end in one of its rows. -/
theorem eventPairs_concat {next : Outbox} {rows : List Row}
    (commits : next.commits = outbox.commits ++ [rows]) {pair : Row × Row}
    (membership : pair ∈ next.eventPairs) : pair ∈ outbox.eventPairs ∨ pair.2 ∈ rows := by
  rcases List.mem_filter.mp membership with ⟨isPair, same⟩
  rw [commits] at isPair
  rcases mem_commitPairs_concat.mp isPair with old | ⟨_, new⟩
  · exact .inl (List.mem_filter.mpr ⟨old, same⟩)
  · exact .inr new

/-- A row that is committed now was not committed before. -/
theorem not_mem_of_fresh {rows : List Row} (fresh : outbox.fresh rows = true) {row : Row}
    (new : row ∈ rows) : row ∉ outbox.committed := by
  have ids := (of_decide_eq_true fresh).1
  rw [List.map_append, List.nodup_append'] at ids
  exact fun old => ids.2.2 (List.mem_map_of_mem old) (List.mem_map_of_mem new)

/-- What the relay knows of the batch it is about to publish. -/
structure BatchOk (outbox : Outbox) (batch : List Row) : Prop where
  sorted : batch.Pairwise fun left right => left.id ≤ right.id
  new : ∀ row ∈ batch, row ∉ outbox.acknowledged
  closed : ∀ pair ∈ outbox.eventPairs, pair.2 ∈ batch →
    pair.1 ∈ batch ∨ pair.1 ∈ outbox.acknowledged
  inOrder : ∀ pair ∈ outbox.eventPairs, pair.1 ∈ batch → pair.2 ∈ batch → pair.1.id < pair.2.id

/-- What holds while one relay reads its batches in commit order. -/
structure Ordered (outbox : Outbox) : Prop where
  alone : Alone outbox.relays
  /-- a published row is marked, or about to be -/
  marked : ∀ row ∈ outbox.acknowledged, row ∈ outbox.rows →
    ∃ batch, some (.mark batch) ∈ outbox.relays ∧ row ∈ batch
  closed : ∀ pair ∈ outbox.eventPairs, pair.2 ∈ outbox.acknowledged →
    pair.1 ∈ outbox.acknowledged
  batches : ∀ batch, some (.publish batch) ∈ outbox.relays → outbox.BatchOk batch
  order : outbox.InCommitOrder

theorem ordered_init (counters : Nat → Nat) : (init counters).Ordered where
  alone := by simp [Alone, init]
  marked := by simp [init]
  closed := by simp [init]
  batches := by simp [init]
  order := by simp [InCommitOrder, init, eventPairs, commitPairs]

namespace Ordered

variable (ordered : outbox.Ordered) (inv : outbox.Inv)

include ordered

/-- Neither the relay nor the history changes, and no row is added. -/
theorem keep (counters : Nat → Nat) (transactions : List (List Row)) {rows : List Row}
    (kept : ∀ row ∈ rows, row ∈ outbox.rows) :
    ({ outbox with counters, transactions, rows } : Outbox).Ordered where
  alone := ordered.alone
  marked row sent stored := ordered.marked row sent (kept row stored)
  closed := ordered.closed
  batches batch publishes :=
    have ok := ordered.batches batch publishes
    ⟨ok.sorted, ok.new, ok.closed, ok.inOrder⟩
  order := ordered.order

/-- A call of `relayOnce` starts. -/
theorem start (idle : outbox.relays.all Option.isNone = true) :
    ({ outbox with relays := outbox.relays ++ [some .find] } : Outbox).Ordered where
  alone := (Alone.start idle).1
  marked row sent stored := by
    rcases ordered.marked row sent stored with ⟨batch, marks, inBatch⟩
    exact ⟨batch, List.mem_append_left _ marks, inBatch⟩
  closed := ordered.closed
  batches _ publishes := nomatch (Alone.start idle).2 _ publishes
  order := ordered.order

/-- A call of `relayOnce` ends. -/
theorem finish {relay : Nat} {frame : RelayFrame}
    (found : outbox.relays[relay]? = some (some frame)) (rows : List Row)
    (unmarked : ∀ row ∈ outbox.acknowledged, row ∉ rows) (broker : List Message) :
    ({ outbox with relays := outbox.relays.set relay none, rows, broker } : Outbox).Ordered where
  alone := ordered.alone.set found none
  marked row sent stored := absurd stored (unmarked row sent)
  closed := ordered.closed
  batches _ membership := nomatch ordered.alone.of_mem_set found membership
  order := ordered.order

/-- While no batch is being marked, no published row is stored as it was committed. -/
theorem unmarked {relay : Nat} {frame : RelayFrame}
    (found : outbox.relays[relay]? = some (some frame)) (other : ∀ batch, frame ≠ .mark batch) :
    ∀ row ∈ outbox.acknowledged, row ∉ outbox.rows := by
  intro row sent stored
  rcases ordered.marked row sent stored with ⟨batch, marks, _⟩
  exact other batch (ordered.alone.eq_of_mem found marks).symm

include inv

theorem commit {transaction : Nat} {rows : List Row} (fresh : outbox.fresh rows = true) :
    ({ outbox with
        transactions := outbox.transactions.set transaction []
        rows := outbox.rows ++ rows
        commits := outbox.commits ++ [rows] } : Outbox).Ordered where
  alone := ordered.alone
  marked row sent stored := by
    rcases List.mem_append.mp stored with old | new
    · exact ordered.marked row sent old
    · exact absurd (inv.acknowledged row sent) (not_mem_of_fresh fresh new)
  closed pair isPair sent := by
    rcases eventPairs_concat rfl isPair with old | new
    · exact ordered.closed pair old sent
    · exact absurd (inv.acknowledged _ sent) (not_mem_of_fresh fresh new)
  batches batch publishes := by
    have ok := ordered.batches batch publishes
    have known : ∀ row ∈ batch, row ∈ outbox.committed := inv.frames _ publishes
    constructor
    · exact ok.sorted
    · exact ok.new
    · intro pair isPair inBatch
      rcases eventPairs_concat rfl isPair with old | new
      · exact ok.closed pair old inBatch
      · exact absurd (known _ inBatch) (not_mem_of_fresh fresh new)
    · intro pair isPair first second
      rcases eventPairs_concat rfl isPair with old | new
      · exact ok.inOrder pair old first second
      · exact absurd (known _ second) (not_mem_of_fresh fresh new)
  order pair isPair inverted := by
    rcases eventPairs_concat rfl isPair with old | new
    · exact ordered.order pair old inverted
    · have sent : pair.2 ∈ outbox.acknowledged := inverted.subset List.mem_cons_self
      exact absurd (inv.acknowledged _ sent) (not_mem_of_fresh fresh new)

theorem find {batchSize relay : Nat} (found : outbox.relays[relay]? = some (some .find))
    (inOrder : outbox.readsInOrder batchSize = true) :
    ({ outbox with
        relays := outbox.relays.set relay
          (if (findBatch batchSize outbox.rows).length = 0 then none
            else some (.publish (findBatch batchSize outbox.rows))) } : Outbox).Ordered where
  alone := ordered.alone.set found _
  marked row sent stored := absurd stored (ordered.unmarked found nofun row sent)
  closed := ordered.closed
  batches batch publishes := by
    have isBatch := ordered.alone.of_mem_set found publishes
    split at isBatch
    · cases isBatch
    · cases isBatch
      constructor
      · exact findBatch_sorted batchSize outbox.rows
      · exact fun row inBatch sent =>
          ordered.unmarked found nofun row sent (mem_findBatch inBatch).1
      · intro pair isPair inBatch
        have committed := (mem_of_eventPairs isPair).1
        rcases inv.kept pair.1 committed with stored | sent
        · have less := of_decide_eq_true inOrder pair isPair stored inBatch
          exact .inl (mem_findBatch_of_lt stored (inv.unpublished _ committed) inBatch less)
        · exact .inr sent
      · intro pair isPair first second
        exact of_decide_eq_true inOrder pair isPair (mem_findBatch first).1 second
  order := ordered.order

omit inv in
theorem publish {relay : Nat} {batch : List Row}
    (found : outbox.relays[relay]? = some (some (.publish batch))) :
    ({ outbox with
        relays := outbox.relays.set relay (some (.mark batch))
        broker := outbox.broker ++ batch.map Row.message
        acknowledged := outbox.acknowledged ++ batch } : Outbox).Ordered := by
  have ok := ordered.batches batch (List.mem_of_getElem? found)
  constructor
  · exact ordered.alone.set found _
  · intro row sent stored
    rcases List.mem_append.mp sent with old | new
    · exact absurd stored (ordered.unmarked found nofun row old)
    · exact ⟨batch, List.mem_set (List.getElem?_eq_some_iff.mp found).1 _, new⟩
  · intro pair isPair sent
    rcases List.mem_append.mp sent with old | new
    · exact List.mem_append_left _ (ordered.closed pair isPair old)
    · rcases ok.closed pair isPair new with inBatch | before
      · exact List.mem_append_right _ inBatch
      · exact List.mem_append_left _ before
  · intro other publishes
    cases ordered.alone.of_mem_set found publishes
  · intro pair isPair inverted
    rcases List.sublist_append_iff.mp inverted with ⟨before, after, split, sent, inBatch⟩
    cases before with
    | nil =>
        rw [List.nil_append] at split
        rw [← split] at inBatch
        have sorted := ok.sorted.sublist inBatch
        have later := (List.pairwise_cons.mp sorted).1 pair.1 List.mem_cons_self
        have earlier := ok.inOrder pair isPair
          (inBatch.subset (List.mem_cons_of_mem _ List.mem_cons_self))
          (inBatch.subset List.mem_cons_self)
        exact absurd earlier (not_lt.mpr later)
    | cons head rest =>
        rcases List.cons.inj split with ⟨isHead, tail⟩
        have second : pair.2 ∈ outbox.acknowledged := by
          rw [isHead]
          exact sent.subset List.mem_cons_self
        have first := ordered.closed pair isPair second
        cases rest with
        | nil =>
            have rest : [pair.1] = after := tail
            rw [← rest] at inBatch
            exact ok.new _ (inBatch.subset List.mem_cons_self) first
        | cons next rest =>
            rcases List.cons.inj tail with ⟨isNext, tail⟩
            rw [(List.append_eq_nil_iff.mp tail.symm).1, ← isHead, ← isNext] at sent
            exact ordered.order pair isPair sent

theorem mark {relay : Nat} {batch : List Row} {now : Time}
    (found : outbox.relays[relay]? = some (some (.mark batch))) :
    ({ outbox with
        relays := outbox.relays.set relay none
        rows := outbox.rows.map (markPublished (batch.map Row.id) now) } : Outbox).Ordered := by
  refine ordered.finish found _ (fun row sent stored => ?_) outbox.broker
  have unpublished := inv.unpublished row (inv.acknowledged row sent)
  rcases List.mem_map.mp stored with ⟨source, sourceMem, isRow⟩
  unfold markPublished at isRow
  split at isRow
  · rw [← isRow] at unpublished
    cases unpublished
  · next unmarked =>
    subst isRow
    rcases ordered.marked source sent sourceMem with ⟨other, marks, inOther⟩
    cases ordered.alone.eq_of_mem found marks
    exact unmarked (List.mem_map_of_mem inOther)

theorem step {batchSize : Nat} {next : Outbox} {action : Action}
    (allowed : outbox.relaysInOrder batchSize action = true)
    (taken : outbox.step batchSize action = some next) : next.Ordered := by
  rcases Bool.and_eq_true_iff.mp allowed with ⟨oneRelay, inOrder⟩
  cases action with
  | begin =>
      cases taken
      exact ordered.keep outbox.counters _ fun _ same => same
  | emit transaction process seconds event =>
      rcases Option.map_eq_some_iff.mp taken with ⟨rows, _, rfl⟩
      exact ordered.keep _ _ fun _ same => same
  | commit transaction =>
      rcases Option.map_eq_some_iff.mp taken with ⟨rows, _, rfl⟩
      split
      · next fresh => exact ordered.commit inv fresh
      · exact ordered.keep outbox.counters _ fun _ same => same
  | abort transaction =>
      cases taken
      exact ordered.keep outbox.counters _ fun _ same => same
  | relayOnce =>
      cases taken
      exact ordered.start oneRelay
  | find relay =>
      simp only [Outbox.step] at taken
      split at taken
      · next found =>
        cases taken
        exact ordered.find inv found inOrder
      · cases taken
  | publish relay =>
      simp only [Outbox.step] at taken
      split at taken
      · next found =>
        cases taken
        exact ordered.publish found
      · cases taken
  | publishFails relay written =>
      simp only [Outbox.step] at taken
      split at taken
      · next found =>
        split at taken
        · cases taken
          have unmarked := ordered.unmarked found fun _ => RelayFrame.noConfusion
          exact ordered.finish found outbox.rows unmarked _
        · cases taken
      · cases taken
  | mark relay now =>
      simp only [Outbox.step] at taken
      split at taken
      · next found =>
        cases taken
        exact ordered.mark inv found
      · cases taken
  | crash relay => cases oneRelay
  | expire id now =>
      cases taken
      exact ordered.keep outbox.counters outbox.transactions
        fun row stored => (List.mem_filter.mp stored).1

end Ordered

theorem inv_of_reachableBy {batchSize : Nat} {counters : Nat → Nat}
    {allowed : Outbox → Action → Prop}
    (reachable : (outboxSystem batchSize counters).ReachableBy allowed outbox) : outbox.Inv := by
  induction reachable with
  | init => exact inv_init counters
  | step _ _ taken ih => exact ih.step taken

theorem ordered_of_reachableBy {batchSize : Nat} {counters : Nat → Nat}
    (reachable : (outboxSystem batchSize counters).ReachableBy
      (fun outbox action => outbox.relaysInOrder batchSize action = true) outbox) :
    outbox.Ordered := by
  induction reachable with
  | init => exact ordered_init counters
  | step reached allowed taken ih => exact ih.step (inv_of_reachableBy reached) allowed taken

end Outbox

/-- One relay that never crashes publishes the events of every execution in the order of
their commits, in every schedule in which it reads every batch in commit order. -/
theorem events_in_commit_order {batchSize : Nat} {counters : Nat → Nat} {outbox : Outbox}
    (reachable : (outboxSystem batchSize counters).ReachableBy
      (fun outbox action => outbox.relaysInOrder batchSize action = true) outbox) :
    outbox.InCommitOrder :=
  (Outbox.ordered_of_reachableBy reachable).order

namespace Schedule

/-- Two processes report tasks of one execution in the same second, one after the other;
the first one has the larger random value. -/
def sameSecond : List Outbox.Action :=
  [.begin, .emit 0 9 100 (event 1 .taskCompleted), .commit 0, .begin,
    .emit 1 7 100 (event 2 .taskCompleted)]

/-- The relay publishes each event before the next one is committed. -/
def relayedBetween : List Outbox.Action :=
  sameSecond ++ [.relayOnce, .find 0, .publish 0, .mark 0 50, .commit 1, .relayOnce, .find 1,
    .publish 1]

/-- The relay reads both events in one batch. -/
def relayedAfter : List Outbox.Action :=
  sameSecond ++ [.commit 1, .relayOnce, .find 0, .publish 0]

end Schedule

theorem events_in_commit_order_relayedBetween :
    (((outboxSystem 100 fun _ => 0).runBy (Outbox.relaysInOrder 100) (.init fun _ => 0)
      Schedule.relayedBetween).get (by decide)).InCommitOrder :=
  events_in_commit_order (Transition.System.get_runBy_reachableBy (outboxSystem 100 fun _ => 0)
    (Outbox.relaysInOrder 100) Schedule.relayedBetween (by decide))

/-- The event of the transaction that committed second is published first. -/
theorem not_events_in_commit_order :
    ¬ ∀ outbox : Outbox, (outboxSystem 100 fun _ => 0).ReachableBy
      (fun outbox action => outbox.oneRelay action = true) outbox → outbox.InCommitOrder := by
  intro always
  have ordered := always _ (Transition.System.get_runBy_reachableBy (outboxSystem 100 fun _ => 0)
    Outbox.oneRelay Schedule.relayedAfter (by decide))
  have pair : (⟨toLex (100, toLex (9, 0)), Schedule.event 1 .taskCompleted, none⟩,
      ⟨toLex (100, toLex (7, 0)), Schedule.event 2 .taskCompleted, none⟩) ∈
        (((outboxSystem 100 fun _ => 0).runBy Outbox.oneRelay (.init fun _ => 0)
          Schedule.relayedAfter).get (by decide)).eventPairs := by decide
  exact ordered _ pair (by decide)

end WorkflowEngine.Events
