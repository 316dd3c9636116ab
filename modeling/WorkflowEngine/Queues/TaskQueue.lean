import WorkflowEngine.Foundations.SortedSet
import WorkflowEngine.Foundations.Transition
import Mathlib.Data.Finset.Basic

/-!
# The reliable task queue

The seven scripts that Redis runs, each as one step, over the four keys of the
queue.  Time is Redis time in milliseconds.  A server is the queue, its clock and
the calls it has served, with their callers and replies.
-/

namespace WorkflowEngine.Queues

variable {Id : Type} [LinearOrder Id] {Worker : Type}

/-- The keys of the queue. -/
structure Queue (Id : Type) [LinearOrder Id] where
  /-- ids waiting for a worker: pushed on the right, popped on the left -/
  ready : List Id
  /-- claimed ids; the score is the lease deadline -/
  leases : SortedSet Id
  /-- ids that must wait; the score is when they become ready -/
  delayed : SortedSet Id
  /-- every id currently in one of the other keys -/
  members : Finset Id
  deriving DecidableEq

namespace Queue

def empty : Queue Id :=
  ⟨[], .empty, .empty, ∅⟩

/-- Add to the ready list unless the id is already somewhere in the queue. -/
def wfEnqueue (queue : Queue Id) (id : Id) : Queue Id × Bool :=
  if id ∈ queue.members then
    (queue, false)
  else
    ({ queue with members := insert id queue.members, ready := queue.ready ++ [id] }, true)

/-- Move a leased id to the delayed set; deduplicate any other id. -/
def wfEnqueueDelayed (queue : Queue Id) (now : Int) (id : Id) (delay : Int) :
    Queue Id × Bool :=
  let wasLeased := id ∈ queue.leases
  let isNew := id ∉ queue.members
  let joined :=
    { queue with leases := queue.leases.rem id, members := insert id queue.members }
  if wasLeased ∨ isNew then
    ({ joined with delayed := joined.delayed.add (now + delay) id }, true)
  else
    (joined, false)

/-- Pop the next id and record a lease for it. -/
def wfClaim (queue : Queue Id) (now leaseMs : Int) : Queue Id × Option Id :=
  match queue.ready with
  | [] => (queue, none)
  | id :: rest =>
      ({ queue with ready := rest, leases := queue.leases.add (now + leaseMs) id }, some id)

/-- Push a lease deadline out if there is a lease. -/
def wfExtendLease (queue : Queue Id) (now : Int) (id : Id) (leaseMs : Int) :
    Queue Id × Bool :=
  if id ∈ queue.leases then
    ({ queue with leases := queue.leases.add (now + leaseMs) id }, true)
  else
    (queue, false)

/-- Forget an id that has a lease. -/
def wfAck (queue : Queue Id) (id : Id) : Queue Id × Bool :=
  if id ∈ queue.leases then
    ({ queue with leases := queue.leases.rem id, members := queue.members.erase id }, true)
  else
    (queue, false)

/-- Move one id from a sorted set to the ready list, if it is still there. -/
def moveDue (keys : SortedSet Id × List Id) (id : Id) : SortedSet Id × List Id :=
  if id ∈ keys.1 then (keys.1.rem id, keys.2 ++ [id]) else keys

/-- Leases whose deadline passed go back to the ready list. -/
def wfRequeueExpired (queue : Queue Id) (now limit : Int) : Queue Id × List Id :=
  let ids := queue.leases.upTo now limit
  let moved := ids.foldl moveDue (queue.leases, queue.ready)
  ({ queue with leases := moved.1, ready := moved.2 }, ids)

/-- Delayed ids whose time has come go to the ready list. -/
def wfPromoteDue (queue : Queue Id) (now limit : Int) : Queue Id × List Id :=
  let ids := queue.delayed.upTo now limit
  let moved := ids.foldl moveDue (queue.delayed, queue.ready)
  ({ queue with delayed := moved.1, ready := moved.2 }, ids)

/-- What moving a list of distinct members leaves behind and pushes. -/
theorem foldl_moveDue {set : SortedSet Id} (ready : List Id) {ids : List Id}
    (distinct : ids.Nodup) (present : ∀ id ∈ ids, id ∈ set) :
    (ids.foldl moveDue (set, ready)).2 = ready ++ ids ∧
      ∀ id, id ∈ (ids.foldl moveDue (set, ready)).1 ↔ id ∈ set ∧ id ∉ ids := by
  induction ids generalizing set ready with
  | nil =>
      refine ⟨(List.append_nil _).symm, fun id => ?_⟩
      exact (and_iff_left List.not_mem_nil).symm
  | cons first rest ih =>
      have apart := (List.nodup_cons.mp distinct).1
      have moved : moveDue (set, ready) first = (set.rem first, ready ++ [first]) :=
        if_pos (present first List.mem_cons_self)
      have remain : ∀ id ∈ rest, id ∈ set.rem first := by
        intro id listed
        refine SortedSet.mem_rem.mpr ⟨present id (List.mem_cons_of_mem _ listed), ?_⟩
        rintro rfl
        exact apart listed
      have later := ih (ready ++ [first]) (List.nodup_cons.mp distinct).2 remain
      rw [List.foldl_cons, moved]
      refine ⟨by rw [later.1, List.append_assoc, List.singleton_append], fun id => ?_⟩
      rw [later.2, SortedSet.mem_rem, List.mem_cons, not_or, and_assoc]

end Queue

/-- The operations of `createTaskQueue`. -/
inductive Call (Id : Type) where
  | enqueue (taskId : Id)
  | enqueueDelayed (taskId : Id) (delayMs : Int)
  | claim (leaseMs : Int)
  | extendLease (taskId : Id) (leaseMs : Int)
  | ack (taskId : Id)
  | requeueExpired (limit : Int)
  | promoteDue (limit : Int)
  deriving DecidableEq

inductive Reply (Id : Type) where
  | done (answer : Bool)
  | claimed (taskId : Option Id)
  | moved (taskIds : List Id)
  deriving DecidableEq

/-- What a call does to the keys and replies.  A negative delay counts as no
delay. -/
def Call.run (queue : Queue Id) (now : Int) : Call Id → Queue Id × Reply Id
  | .enqueue taskId => (queue.wfEnqueue taskId).map id .done
  | .enqueueDelayed taskId delayMs =>
      (queue.wfEnqueueDelayed now taskId (max 0 delayMs)).map id .done
  | .claim leaseMs => (queue.wfClaim now leaseMs).map id .claimed
  | .extendLease taskId leaseMs => (queue.wfExtendLease now taskId leaseMs).map id .done
  | .ack taskId => (queue.wfAck taskId).map id .done
  | .requeueExpired limit => (queue.wfRequeueExpired now limit).map id .moved
  | .promoteDue limit => (queue.wfPromoteDue now limit).map id .moved

/-- A call that was served. -/
structure Served (Id Worker : Type) where
  caller : Worker
  call : Call Id
  reply : Reply Id
  deriving DecidableEq

/-- Redis: the queue, the clock and the calls served so far. -/
structure Server (Id : Type) [LinearOrder Id] (Worker : Type) where
  queue : Queue Id
  now : Int
  log : List (Served Id Worker)
  deriving DecidableEq

namespace Server

inductive Action (Id Worker : Type) where
  /-- time passes -/
  | tick (ms : Nat)
  | call (caller : Worker) (call : Call Id)
  deriving DecidableEq

def step (server : Server Id Worker) : Action Id Worker → Server Id Worker
  | .tick ms => { server with now := server.now + ms }
  | .call caller call =>
      let outcome := call.run server.queue server.now
      { server with
        queue := outcome.1
        log := server.log ++ [⟨caller, call, outcome.2⟩] }

end Server

/-- The queue from empty keys, with a clock that starts anywhere. -/
def taskQueue (Id Worker : Type) [LinearOrder Id] (start : Int) :
    Transition.System (Server Id Worker) (Server.Action Id Worker) where
  init := ⟨.empty, start, []⟩
  step server action := some (server.step action)

/-- The server after a schedule. -/
def Server.after (start : Int) (actions : List (Server.Action Id Worker)) :
    Server Id Worker :=
  actions.foldl Server.step ⟨.empty, start, []⟩

theorem Server.after_reachable (start : Int) (actions : List (Server.Action Id Worker)) :
    (taskQueue Id Worker start).Reachable (Server.after start actions) := by
  have replay : ∀ server : Server Id Worker,
      (taskQueue Id Worker start).runFrom server actions =
        some (actions.foldl Server.step server) := by
    induction actions with
    | nil => exact fun _ => rfl
    | cons action rest ih => exact fun server => ih (server.step action)
  exact Transition.System.runFrom_reachable .init (replay _)

end WorkflowEngine.Queues
