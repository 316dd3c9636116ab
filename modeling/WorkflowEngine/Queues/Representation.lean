import WorkflowEngine.Queues.TaskQueue
import Mathlib.Data.List.Sublists

/-!
# Where an id is

Abstractly an id is in one place at a time, and every served call moves it along
a life cycle: absent, ready, leased or delayed.  The keys of the queue represent
exactly these places, so that no id is lost or doubled, and the order of the
ready list is the order of the moves into it.
-/

namespace WorkflowEngine.Queues

variable {Id : Type} [LinearOrder Id] {Worker : Type}

/-- Where an id can be. -/
inductive Place where
  | absent | ready | leased | delayed
  deriving DecidableEq

/-- What a call can do to an id. -/
inductive Event where
  | enqueued | delayed | claimed | acked | requeued | promoted
  deriving DecidableEq

namespace Event

/-- Where an event leaves the id. -/
def target : Event → Place
  | .enqueued | .requeued | .promoted => .ready
  | .delayed => .delayed
  | .claimed => .leased
  | .acked => .absent

/-- Where an event finds the id. -/
def finds : Event → Place → Bool
  | .enqueued, place => place = .absent
  | .delayed, place => place = .leased ∨ place = .absent
  | .claimed, place => place = .ready
  | .acked, place => place = .leased
  | .requeued, place => place = .leased
  | .promoted, place => place = .delayed

/-- Where an id is after an event, or after none. -/
def move (place : Place) : Option Event → Place
  | none => place
  | some event => event.target

end Event

/-- What a call with its reply did to an id. -/
def Call.event? (id : Id) : Call Id → Reply Id → Option Event
  | .enqueue taskId, .done true => if taskId = id then some .enqueued else none
  | .enqueueDelayed taskId _, .done true => if taskId = id then some .delayed else none
  | .claim _, .claimed (some taskId) => if taskId = id then some .claimed else none
  | .ack taskId, .done true => if taskId = id then some .acked else none
  | .requeueExpired _, .moved taskIds => if id ∈ taskIds then some .requeued else none
  | .promoteDue _, .moved taskIds => if id ∈ taskIds then some .promoted else none
  | _, _ => none

def Served.event? (id : Id) (served : Served Id Worker) : Option Event :=
  served.call.event? id served.reply

/-- What happened to an id, first event first. -/
def eventsOf (id : Id) (log : List (Served Id Worker)) : List Event :=
  log.filterMap (Served.event? id)

/-- Where a history of events leaves an id that was absent. -/
def placeAfter (events : List Event) : Place :=
  events.foldl (fun _ event => event.target) .absent

/-- The keys of the queue represent a place for every id. -/
structure Queue.Represents (queue : Queue Id) (place : Id → Place) : Prop where
  distinct : queue.ready.Nodup
  ready : ∀ id, id ∈ queue.ready ↔ place id = .ready
  leases : ∀ id, id ∈ queue.leases ↔ place id = .leased
  delayed : ∀ id, id ∈ queue.delayed ↔ place id = .delayed
  members : ∀ id, id ∈ queue.members ↔ place id ≠ .absent

/-- The call moves every id from the place where its event finds it. -/
def Call.Moves (call : Call Id) (queue : Queue Id) (now : Int) (place : Id → Place) : Prop :=
  (call.run queue now).1.Represents
      (fun id => Event.move (place id) (call.event? id (call.run queue now).2)) ∧
    ∀ id event, call.event? id (call.run queue now).2 = some event →
      event.finds (place id) = true

section

-- derives the equations of these functions once, for all the proofs below
attribute [local grind =] Event.move Event.target Event.finds Call.event?

end

namespace Queue.Represents

variable {queue : Queue Id} {place : Id → Place} (represents : queue.Represents place)
  (now : Int)

include represents

theorem enqueue (taskId : Id) : (Call.enqueue taskId).Moves queue now place := by
  have known := represents.members taskId
  by_cases member : taskId ∈ queue.members
  · have run : (Call.enqueue taskId).run queue now = (queue, .done false) := by
      simp [Call.run, wfEnqueue, member]
    rw [Call.Moves, run]
    exact ⟨represents, fun _ _ none => nomatch none⟩
  · have run : (Call.enqueue taskId).run queue now =
        ({ queue with
          members := insert taskId queue.members, ready := queue.ready ++ [taskId] },
          .done true) := by
      simp [Call.run, wfEnqueue, member]
    have absent : place taskId = .absent := by
      by_contra present
      exact member (known.mpr present)
    have unready : taskId ∉ queue.ready := by
      rw [represents.ready, absent]
      decide
    rw [Call.Moves, run]
    constructor
    · constructor
      · exact List.nodup_append.mpr ⟨represents.distinct, List.nodup_singleton _, by grind⟩
      · grind [Event.move, Event.target, Call.event?, represents.ready]
      · grind [Event.move, Event.target, Call.event?, represents.leases]
      · grind [Event.move, Event.target, Call.event?, represents.delayed]
      · grind [Event.move, Event.target, Call.event?, represents.members]
    · grind [Call.event?, Event.finds]

theorem enqueueDelayed (taskId : Id) (delayMs : Int) :
    (Call.enqueueDelayed taskId delayMs).Moves queue now place := by
  have known := represents.members taskId
  have leased := represents.leases taskId
  by_cases taken : taskId ∈ queue.leases ∨ taskId ∉ queue.members
  · have run : (Call.enqueueDelayed taskId delayMs).run queue now =
        ({ queue with
          leases := queue.leases.rem taskId, members := insert taskId queue.members
          delayed := queue.delayed.add (now + max 0 delayMs) taskId }, .done true) := by
      simp [Call.run, wfEnqueueDelayed, taken]
    have unready : place taskId ≠ .ready := by grind
    rw [Call.Moves, run]
    constructor
    · constructor
      · exact represents.distinct
      · grind [Event.move, Event.target, Call.event?, represents.ready]
      · grind [Event.move, Event.target, Call.event?, represents.leases, SortedSet.mem_rem]
      · grind [Event.move, Event.target, Call.event?, represents.delayed, SortedSet.mem_add]
      · grind [Event.move, Event.target, Call.event?, represents.members]
    · grind [Call.event?, Event.finds]
  · have run : (Call.enqueueDelayed taskId delayMs).run queue now =
        ({ queue with
          leases := queue.leases.rem taskId, members := insert taskId queue.members },
          .done false) := by
      simp [Call.run, wfEnqueueDelayed, taken]
    rw [Call.Moves, run]
    constructor
    · constructor
      · exact represents.distinct
      · exact represents.ready
      · grind [Event.move, Call.event?, represents.leases, SortedSet.mem_rem]
      · exact represents.delayed
      · grind [Event.move, Call.event?, represents.members]
    · exact fun _ _ none => nomatch none

theorem claim (leaseMs : Int) : (Call.claim leaseMs).Moves queue now place := by
  cases listed : queue.ready with
  | nil =>
      have run : (Call.claim leaseMs).run queue now = (queue, .claimed none) := by
        simp [Call.run, wfClaim, listed]
      rw [Call.Moves, run]
      exact ⟨represents, fun _ _ none => nomatch none⟩
  | cons taskId rest =>
      have run : (Call.claim leaseMs).run queue now =
          ({ queue with ready := rest, leases := queue.leases.add (now + leaseMs) taskId },
            .claimed (some taskId)) := by
        simp [Call.run, wfClaim, listed]
      have distinct := represents.distinct
      have ready := represents.ready
      rw [listed] at distinct ready
      have apart := List.nodup_cons.mp distinct
      rw [Call.Moves, run]
      constructor
      · constructor
        · exact apart.2
        · grind [Event.move, Event.target, Call.event?]
        · grind [Event.move, Event.target, Call.event?, represents.leases, SortedSet.mem_add]
        · grind [Event.move, Event.target, Call.event?, represents.delayed]
        · grind [Event.move, Event.target, Call.event?, represents.members]
      · grind [Call.event?, Event.finds]

theorem extendLease (taskId : Id) (leaseMs : Int) :
    (Call.extendLease taskId leaseMs).Moves queue now place := by
  by_cases leased : taskId ∈ queue.leases
  · have run : (Call.extendLease taskId leaseMs).run queue now =
        ({ queue with leases := queue.leases.add (now + leaseMs) taskId }, .done true) := by
      simp [Call.run, wfExtendLease, leased]
    rw [Call.Moves, run]
    constructor
    · constructor
      · exact represents.distinct
      · exact represents.ready
      · grind [Event.move, Call.event?, represents.leases, SortedSet.mem_add]
      · exact represents.delayed
      · exact represents.members
    · exact fun _ _ none => nomatch none
  · have run : (Call.extendLease taskId leaseMs).run queue now = (queue, .done false) := by
      simp [Call.run, wfExtendLease, leased]
    rw [Call.Moves, run]
    exact ⟨represents, fun _ _ none => nomatch none⟩

theorem ack (taskId : Id) : (Call.ack taskId).Moves queue now place := by
  by_cases leased : taskId ∈ queue.leases
  · have run : (Call.ack taskId).run queue now =
        ({ queue with
          leases := queue.leases.rem taskId, members := queue.members.erase taskId },
          .done true) := by
      simp [Call.run, wfAck, leased]
    have held := (represents.leases taskId).mp leased
    rw [Call.Moves, run]
    constructor
    · constructor
      · exact represents.distinct
      · grind [Event.move, Event.target, Call.event?, represents.ready]
      · grind [Event.move, Event.target, Call.event?, represents.leases, SortedSet.mem_rem]
      · grind [Event.move, Event.target, Call.event?, represents.delayed]
      · grind [Event.move, Event.target, Call.event?, represents.members]
    · grind [Call.event?, Event.finds]
  · have run : (Call.ack taskId).run queue now = (queue, .done false) := by
      simp [Call.run, wfAck, leased]
    rw [Call.Moves, run]
    exact ⟨represents, fun _ _ none => nomatch none⟩

/-- The ids that a maintenance script moves were not ready before. -/
theorem nodup_moved {ids : List Id} (distinct : ids.Nodup)
    (unready : ∀ id ∈ ids, place id ≠ .ready) : (queue.ready ++ ids).Nodup := by
  refine List.nodup_append.mpr ⟨represents.distinct, distinct, ?_⟩
  rintro id listed _ moved rfl
  exact unready id moved ((represents.ready id).mp listed)

theorem requeueExpired (limit : Int) : (Call.requeueExpired limit).Moves queue now place := by
  have found : ∀ id ∈ queue.leases.upTo now limit, place id = .leased := fun id listed =>
    (represents.leases id).mp (SortedSet.mem_of_mem_upTo listed)
  have moved := foldl_moveDue queue.ready (queue.leases.upTo_nodup now limit)
    fun _ => SortedSet.mem_of_mem_upTo
  have run : (Call.requeueExpired limit).run queue now =
      ({ queue with
        leases := ((queue.leases.upTo now limit).foldl moveDue (queue.leases, queue.ready)).1
        ready := ((queue.leases.upTo now limit).foldl moveDue (queue.leases, queue.ready)).2 },
        .moved (queue.leases.upTo now limit)) := rfl
  rw [Call.Moves, run, moved.1]
  constructor
  · constructor
    · exact represents.nodup_moved (queue.leases.upTo_nodup now limit) (by grind)
    · grind [Event.move, Event.target, Call.event?, represents.ready]
    · grind [Event.move, Event.target, Call.event?, represents.leases]
    · grind [Event.move, Event.target, Call.event?, represents.delayed]
    · grind [Event.move, Event.target, Call.event?, represents.members]
  · grind [Call.event?, Event.finds]

theorem promoteDue (limit : Int) : (Call.promoteDue limit).Moves queue now place := by
  have found : ∀ id ∈ queue.delayed.upTo now limit, place id = .delayed := fun id listed =>
    (represents.delayed id).mp (SortedSet.mem_of_mem_upTo listed)
  have moved := foldl_moveDue queue.ready (queue.delayed.upTo_nodup now limit)
    fun _ => SortedSet.mem_of_mem_upTo
  have run : (Call.promoteDue limit).run queue now =
      ({ queue with
        delayed := ((queue.delayed.upTo now limit).foldl moveDue (queue.delayed, queue.ready)).1
        ready := ((queue.delayed.upTo now limit).foldl moveDue (queue.delayed, queue.ready)).2 },
        .moved (queue.delayed.upTo now limit)) := rfl
  rw [Call.Moves, run, moved.1]
  constructor
  · constructor
    · exact represents.nodup_moved (queue.delayed.upTo_nodup now limit) (by grind)
    · grind [Event.move, Event.target, Call.event?, represents.ready]
    · grind [Event.move, Event.target, Call.event?, represents.leases]
    · grind [Event.move, Event.target, Call.event?, represents.delayed]
    · grind [Event.move, Event.target, Call.event?, represents.members]
  · grind [Call.event?, Event.finds]

theorem moves (call : Call Id) : call.Moves queue now place := by
  cases call with
  | enqueue taskId => exact represents.enqueue now taskId
  | enqueueDelayed taskId delayMs => exact represents.enqueueDelayed now taskId delayMs
  | claim leaseMs => exact represents.claim now leaseMs
  | extendLease taskId leaseMs => exact represents.extendLease now taskId leaseMs
  | ack taskId => exact represents.ack now taskId
  | requeueExpired limit => exact represents.requeueExpired now limit
  | promoteDue limit => exact represents.promoteDue now limit

end Queue.Represents

/-! ## The life of an id -/

/-- Every event of a history finds the id where the event before it left it. -/
def follows (place : Place) : List Event → Bool
  | [] => true
  | event :: rest => event.finds place && follows event.target rest

/-- What lies between two claims of an id. -/
def Separated (events : List Event) : Prop :=
  .requeued ∈ events ∨ [.delayed, .promoted].Sublist events ∨ [.acked, .enqueued].Sublist events

theorem follows_append {place : Place} {events later : List Event} :
    follows place (events ++ later) = true ↔
      follows place events = true ∧
        follows (events.foldl (fun _ event => event.target) place) later = true := by
  induction events generalizing place with
  | nil => simp [follows]
  | cons event rest ih => simp [follows, ih, and_assoc]

theorem follows_singleton {place : Place} {event : Event} :
    follows place [event] = event.finds place :=
  Bool.and_true _

/-- A delayed id is promoted before it is claimed. -/
theorem promoted_of_delayed {events : List Event}
    (history : follows .delayed (events ++ [.claimed]) = true) : .promoted ∈ events := by
  cases events with
  | nil => cases history
  | cons event rest =>
      cases event with
      | promoted => exact List.mem_cons_self
      | enqueued | delayed | claimed | acked | requeued => cases history

/-- An absent id is enqueued or delayed before it is claimed. -/
theorem enqueued_of_absent {events : List Event}
    (history : follows .absent (events ++ [.claimed]) = true) :
    .enqueued ∈ events ∨ [.delayed, .promoted].Sublist events := by
  cases events with
  | nil => cases history
  | cons event rest =>
      cases event with
      | enqueued => exact .inl List.mem_cons_self
      | delayed =>
          exact .inr ((List.singleton_sublist.mpr (promoted_of_delayed history)).cons_cons _)
      | claimed | acked | requeued | promoted => cases history

/-- A leased id leaves its lease in one of three ways before it is claimed again. -/
theorem separated_of_leased {events : List Event}
    (history : follows .leased (events ++ [.claimed]) = true) : Separated events := by
  cases events with
  | nil => cases history
  | cons event rest =>
      cases event with
      | requeued => exact .inl List.mem_cons_self
      | delayed =>
          exact .inr (.inl ((List.singleton_sublist.mpr (promoted_of_delayed history)).cons_cons _))
      | acked =>
          rcases enqueued_of_absent history with enqueued | promoted
          · exact .inr (.inr ((List.singleton_sublist.mpr enqueued).cons_cons _))
          · exact .inr (.inl (promoted.cons _))
      | enqueued | claimed | promoted => cases history

/-! ## The ready list -/

/-- The ids a call pushed on the ready list, in the order in which it did. -/
def Served.inserted (served : Served Id Worker) : List Id :=
  match served.call, served.reply with
  | .enqueue taskId, .done true => [taskId]
  | .requeueExpired _, .moved taskIds => taskIds
  | .promoteDue _, .moved taskIds => taskIds
  | _, _ => []

/-- The id a claim returned. -/
def Served.popped (served : Served Id Worker) : Option Id :=
  match served.call, served.reply with
  | .claim _, .claimed taskId => taskId
  | _, _ => none

omit [LinearOrder Id] in
/-- A claim that returns an id inserts nothing. -/
theorem Served.inserted_of_popped {served : Served Id Worker} {id : Id}
    (popped : served.popped = some id) : served.inserted = [] := by
  grind [Served.popped, Served.inserted]

/-- Every insertion into the ready list, first one first. -/
def insertions (log : List (Served Id Worker)) : List Id :=
  log.flatMap Served.inserted

/-- Every id that was claimed, first one first. -/
def claims (log : List (Served Id Worker)) : List Id :=
  log.filterMap Served.popped

/-- A call pops on the left what it returns and pushes on the right. -/
theorem Call.ready_run (call : Call Id) (queue : Queue Id) (now : Int) (caller : Worker) :
    queue.ready ++ (Served.mk caller call (call.run queue now).2).inserted =
      (Served.mk caller call (call.run queue now).2).popped.toList ++
        (call.run queue now).1.ready := by
  cases call with
  | enqueue taskId =>
      by_cases member : taskId ∈ queue.members <;>
        simp [Call.run, Queue.wfEnqueue, member, Served.inserted, Served.popped]
  | enqueueDelayed taskId delayMs =>
      by_cases taken : taskId ∈ queue.leases ∨ taskId ∉ queue.members <;>
        simp [Call.run, Queue.wfEnqueueDelayed, taken, Served.inserted, Served.popped]
  | claim leaseMs =>
      cases listed : queue.ready <;>
        simp [Call.run, Queue.wfClaim, listed, Served.inserted, Served.popped]
  | extendLease taskId leaseMs =>
      by_cases leased : taskId ∈ queue.leases <;>
        simp [Call.run, Queue.wfExtendLease, leased, Served.inserted, Served.popped]
  | ack taskId =>
      by_cases leased : taskId ∈ queue.leases <;>
        simp [Call.run, Queue.wfAck, leased, Served.inserted, Served.popped]
  | requeueExpired limit =>
      exact (Queue.foldl_moveDue queue.ready (queue.leases.upTo_nodup now limit)
        fun _ => SortedSet.mem_of_mem_upTo).1.symm
  | promoteDue limit =>
      exact (Queue.foldl_moveDue queue.ready (queue.delayed.upTo_nodup now limit)
        fun _ => SortedSet.mem_of_mem_upTo).1.symm

/-! ## Every served call -/

@[simp] theorem eventsOf_concat (id : Id) (log : List (Served Id Worker))
    (served : Served Id Worker) :
    eventsOf id (log ++ [served]) = eventsOf id log ++ (served.event? id).toList := by
  rw [eventsOf, List.filterMap_append]
  cases found : served.event? id <;> simp [eventsOf, found]

theorem placeAfter_append (events : List Event) (event : Option Event) :
    placeAfter (events ++ event.toList) = Event.move (placeAfter events) event := by
  cases event with
  | none => exact congrArg placeAfter (List.append_nil events)
  | some event => exact List.foldl_append

/-- The queue represents what its history says of every id. -/
structure Server.Inv (server : Server Id Worker) : Prop where
  represents : server.queue.Represents fun id => placeAfter (eventsOf id server.log)
  history : ∀ id, follows .absent (eventsOf id server.log) = true
  fifo : insertions server.log = claims server.log ++ server.queue.ready

theorem Server.Inv.init (start : Int) : (taskQueue Id Worker start).init.Inv where
  represents :=
    { distinct := .nil
      ready := by simp [taskQueue, Queue.empty, eventsOf, placeAfter]
      leases := by simp [taskQueue, Queue.empty, eventsOf, placeAfter]
      delayed := by simp [taskQueue, Queue.empty, eventsOf, placeAfter]
      members := by simp [taskQueue, Queue.empty, eventsOf, placeAfter] }
  history _ := rfl
  fifo := rfl

theorem Server.Inv.step {server : Server Id Worker} (inv : server.Inv)
    (action : Server.Action Id Worker) : (server.step action).Inv := by
  cases action with
  | tick ms => exact ⟨inv.represents, inv.history, inv.fifo⟩
  | call caller call =>
      rcases inv.represents.moves server.now call with ⟨represents, finds⟩
      constructor
      · have same : (fun id => placeAfter (eventsOf id (server.step (.call caller call)).log)) =
            fun id => Event.move (placeAfter (eventsOf id server.log))
              (call.event? id (call.run server.queue server.now).2) := by
          funext id
          rw [Server.step, eventsOf_concat, placeAfter_append]
          rfl
        rw [same]
        exact represents
      · intro id
        rw [Server.step, eventsOf_concat, Served.event?]
        cases found : call.event? id (call.run server.queue server.now).2 with
        | none => simpa using inv.history id
        | some event =>
            refine follows_append.mpr ⟨inv.history id, ?_⟩
            exact follows_singleton.trans (finds id event found)
      · have popped := call.ready_run server.queue server.now caller
        simp only [Server.step, insertions, claims, List.flatMap_append, List.flatMap_singleton,
          List.filterMap_append]
        change insertions server.log ++ _ = _
        rw [inv.fifo, List.append_assoc, popped, ← List.append_assoc]
        rfl

theorem Server.inv_of_reachable {start : Int} {server : Server Id Worker}
    (reachable : (taskQueue Id Worker start).Reachable server) : server.Inv := by
  refine reachable.invariant (Server.Inv.init start) fun state action next inv _ taken => ?_
  cases taken
  exact inv.step action

/-- Only an acknowledged id becomes absent. -/
theorem Call.of_acked {call : Call Id} {reply : Reply Id} {id : Id}
    (acked : call.event? id reply = some .acked) : call = .ack id ∧ reply = .done true := by
  unfold Call.event? at acked
  split at acked <;> grind

/-- An id leaves the queue only through an ack that returns true. -/
theorem Server.Inv.leaves {server : Server Id Worker} (inv : server.Inv)
    {action : Server.Action Id Worker} {id : Id} (member : id ∈ server.queue.members)
    (left : id ∉ (server.step action).queue.members) :
    ∃ caller, (server.step action).log = server.log ++ [⟨caller, .ack id, .done true⟩] := by
  cases action with
  | tick ms => exact absurd member left
  | call caller call =>
      have moved := (inv.represents.moves server.now call).1.members id
      have absent : Event.move (placeAfter (eventsOf id server.log))
          (call.event? id (call.run server.queue server.now).2) = .absent := by
        by_contra present
        exact left (moved.mpr present)
      cases found : call.event? id (call.run server.queue server.now).2 with
      | none =>
          rw [found] at absent
          exact absurd absent ((inv.represents.members id).mp member)
      | some event =>
          rw [found] at absent
          cases event with
          | acked =>
              rcases Call.of_acked found with ⟨rfl, replied⟩
              refine ⟨caller, ?_⟩
              rw [← replied]
              rfl
          | enqueued | delayed | claimed | requeued | promoted => cases absent

/-- A claim returns the first insertion that no claim before it returned, and this is the
latest insertion of the id. -/
def Ordered (log : List (Served Id Worker)) : Prop :=
  ∀ before claim after id, log = before ++ claim :: after → claim.popped = some id →
    ∃ rest, insertions before = claims before ++ id :: rest ∧ id ∉ rest

theorem Server.Inv.ordered_step {server : Server Id Worker} (inv : server.Inv)
    (action : Server.Action Id Worker) (ordered : Ordered server.log) :
    Ordered (server.step action).log := by
  cases action with
  | tick ms => exact ordered
  | call caller call =>
      intro before claim after id split popped
      rcases List.eq_nil_or_concat after with rfl | ⟨later, last, rfl⟩
      · rcases List.append_inj' split rfl with ⟨rfl, same⟩
        rcases List.singleton_inj.mp same
        have ready := call.ready_run server.queue server.now caller
        rw [popped, Served.inserted_of_popped popped, List.append_nil] at ready
        have distinct := inv.represents.distinct
        rw [ready] at distinct
        exact ⟨_, inv.fifo.trans (congrArg _ ready), (List.nodup_cons.mp distinct).1⟩
      · rw [List.concat_eq_append, ← List.cons_append, ← List.append_assoc] at split
        exact ordered before claim later id (List.append_inj' split rfl).1 popped

theorem Server.ordered_of_reachable {start : Int} {server : Server Id Worker}
    (reachable : (taskQueue Id Worker start).Reachable server) : Ordered server.log := by
  induction reachable with
  | init =>
      intro before claim after id split
      cases before <;> cases split
  | @step server next action reached _ taken ih =>
      cases taken
      exact (Server.inv_of_reachable reached).ordered_step action ih

/-- Two claims of an id have its way back to the ready list between them. -/
theorem Server.Inv.separated {server : Server Id Worker} (inv : server.Inv) {id : Id}
    {before between after : List (Served Id Worker)} {first second : Served Id Worker}
    (split : server.log = before ++ first :: (between ++ second :: after))
    (claimed : first.event? id = some .claimed) (again : second.event? id = some .claimed) :
    Separated (eventsOf id between) := by
  have history := inv.history id
  have events : eventsOf id server.log =
      eventsOf id before ++ [.claimed] ++ ((eventsOf id between ++ [.claimed]) ++
        eventsOf id after) := by
    rw [split]
    simp [eventsOf, claimed, again]
  rw [events] at history
  have leased := (follows_append.mp (follows_append.mp history).2).1
  rw [List.foldl_append] at leased
  exact separated_of_leased leased

/-! ## The guarantee -/

/-- No id is lost or doubled, and claims are first in, first out. -/
structure Server.KeepsIds (start : Int) (server : Server Id Worker) : Prop where
  distinct : server.queue.ready.Nodup
  ready_leases : ∀ id ∈ server.queue.ready, id ∉ server.queue.leases
  ready_delayed : ∀ id ∈ server.queue.ready, id ∉ server.queue.delayed
  leases_delayed : ∀ id ∈ server.queue.leases, id ∉ server.queue.delayed
  members : ∀ id, id ∈ server.queue.members ↔
    id ∈ server.queue.ready ∨ id ∈ server.queue.leases ∨ id ∈ server.queue.delayed
  leaves : ∀ action next, (taskQueue Id Worker start).step server action = some next →
    ∀ id ∈ server.queue.members, id ∉ next.queue.members →
      ∃ caller, next.log = server.log ++ [⟨caller, .ack id, .done true⟩]
  ordered : Ordered server.log
  separated : ∀ id before first between second after,
    server.log = before ++ first :: (between ++ second :: after) →
      first.event? id = some .claimed → second.event? id = some .claimed →
        Separated (eventsOf id between)

theorem queue_keeps_ids {start : Int} {server : Server Id Worker}
    (reachable : (taskQueue Id Worker start).Reachable server) : server.KeepsIds start := by
  have inv := Server.inv_of_reachable reachable
  have ready := inv.represents.ready
  have leases := inv.represents.leases
  have delayed := inv.represents.delayed
  have members := inv.represents.members
  constructor
  · exact inv.represents.distinct
  · grind
  · grind
  · grind
  · intro id
    rw [members, ready, leases, delayed]
    cases placeAfter (eventsOf id server.log) <;> decide
  · intro action next taken id member left
    cases taken
    exact inv.leaves member left
  · exact Server.ordered_of_reachable reachable
  · exact fun id before first between second after => inv.separated

namespace Schedule

/-- A task is claimed, its lease expires, and another worker claims it again; a second
task waits for a retry meanwhile. -/
def reaped : List (Server.Action Nat Nat) :=
  [.call 0 (.enqueue 5), .call 0 (.enqueueDelayed 6 50), .call 1 (.claim 10), .tick 10,
    .call 0 (.requeueExpired 100), .call 2 (.claim 10)]

end Schedule

theorem queue_keeps_ids_reaped : (Server.after 0 Schedule.reaped).KeepsIds 0 :=
  queue_keeps_ids (Server.after_reachable 0 Schedule.reaped)

end WorkflowEngine.Queues
