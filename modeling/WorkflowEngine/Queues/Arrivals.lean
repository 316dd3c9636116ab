import WorkflowEngine.Queues.TaskQueue

/-!
# How ids get ready

An id becomes ready when it is enqueued, when its lease has expired or when its delay is
over.  It is delayed by `enqueueDelayed` only, and claimed only when it is ready.
-/

namespace WorkflowEngine.Queues

variable {Id : Type} [LinearOrder Id]

namespace Queue

/-- Moving ids delays nothing. -/
theorem entries_foldl_moveDue {ids : List Id} {keys : SortedSet Id × List Id}
    {entry : Int ×ₗ Id} (membership : entry ∈ (ids.foldl moveDue keys).1.entries) :
    entry ∈ keys.1.entries := by
  induction ids generalizing keys with
  | nil => exact membership
  | cons first rest ih =>
      have remained := ih membership
      unfold moveDue at remained
      split at remained
      · exact (SortedSet.mem_entries_rem.mp remained).1
      · exact remained

/-- The ready list after moving what is due. -/
theorem mem_ready_moved {set : SortedSet Id} {ready : List Id} {now limit : Int} {id : Id}
    (membership : id ∈ ((set.upTo now limit).foldl moveDue (set, ready)).2) :
    id ∈ ready ∨ id ∈ set.upTo now limit := by
  rw [(foldl_moveDue ready (set.upTo_nodup now limit)
    fun _ listed => SortedSet.mem_of_mem_upTo listed).1] at membership
  exact List.mem_append.mp membership

end Queue

namespace Call

variable {queue : Queue Id} {now : Int} {call : Call Id} {id : Id}

/-- What makes an id ready. -/
inductive Readies (queue : Queue Id) (now : Int) (id : Id) : Call Id → Prop where
  | enqueue : id ∉ queue.members → Readies queue now id (.enqueue id)
  | requeueExpired {limit : Int} :
      id ∈ queue.leases.upTo now limit → Readies queue now id (.requeueExpired limit)
  | promoteDue {limit : Int} :
      id ∈ queue.delayed.upTo now limit → Readies queue now id (.promoteDue limit)

/-- The call delays the id. -/
def delays (queue : Queue Id) (id : Id) : Call Id → Bool
  | .enqueueDelayed taskId _ =>
      decide (taskId = id) && (decide (id ∈ queue.leases) || decide (id ∉ queue.members))
  | _ => false

theorem mem_ready_run (membership : id ∈ (call.run queue now).1.ready) :
    id ∈ queue.ready ∨ call.Readies queue now id := by
  cases call with
  | enqueue taskId =>
      simp only [run, Queue.wfEnqueue] at membership
      split at membership
      · exact .inl membership
      · next isNew =>
        rcases List.mem_append.mp membership with old | new
        · exact .inl old
        · cases List.mem_singleton.mp new
          exact .inr (.enqueue isNew)
  | enqueueDelayed taskId delayMs =>
      simp only [run, Queue.wfEnqueueDelayed] at membership
      split at membership <;> exact .inl membership
  | claim leaseMs =>
      simp only [run, Queue.wfClaim] at membership
      split at membership
      · exact .inl membership
      · next isReady =>
        left
        rw [isReady]
        exact List.mem_cons_of_mem _ membership
  | extendLease taskId leaseMs =>
      simp only [run, Queue.wfExtendLease] at membership
      split at membership <;> exact .inl membership
  | ack taskId =>
      simp only [run, Queue.wfAck] at membership
      split at membership <;> exact .inl membership
  | requeueExpired limit =>
      rcases Queue.mem_ready_moved membership with old | moved
      · exact .inl old
      · exact .inr (.requeueExpired moved)
  | promoteDue limit =>
      rcases Queue.mem_ready_moved membership with old | moved
      · exact .inl old
      · exact .inr (.promoteDue moved)

theorem mem_delayed_run {score : Int}
    (membership : toLex (score, id) ∈ (call.run queue now).1.delayed.entries) :
    toLex (score, id) ∈ queue.delayed.entries ∨ call.delays queue id = true ∧
      ∃ delayMs, call = .enqueueDelayed id delayMs ∧ score = now + max 0 delayMs := by
  cases call with
  | enqueue taskId =>
      simp only [run, Queue.wfEnqueue] at membership
      split at membership <;> exact .inl membership
  | enqueueDelayed taskId delayMs =>
      simp only [run, Queue.wfEnqueueDelayed] at membership
      split at membership
      · next added =>
        rcases SortedSet.mem_entries_add.mp membership with new | ⟨old, _⟩
        · cases toLex.injective new
          exact .inr ⟨by simpa [delays] using added, delayMs, rfl, rfl⟩
        · exact .inl old
      · exact .inl membership
  | claim leaseMs =>
      simp only [run, Queue.wfClaim] at membership
      split at membership <;> exact .inl membership
  | extendLease taskId leaseMs =>
      simp only [run, Queue.wfExtendLease] at membership
      split at membership <;> exact .inl membership
  | ack taskId =>
      simp only [run, Queue.wfAck] at membership
      split at membership <;> exact .inl membership
  | requeueExpired limit => exact .inl membership
  | promoteDue limit => exact .inl (Queue.entries_foldl_moveDue membership)

theorem ready_of_claimed {leaseMs : Int} {later : Queue Id}
    (claimed : (Call.claim leaseMs).run queue now = (later, .claimed (some id))) :
    id ∈ queue.ready := by
  simp only [run, Queue.wfClaim] at claimed
  split at claimed
  · cases claimed
  · next isReady =>
    cases claimed
    rw [isReady]
    exact List.mem_cons_self

end Call

end WorkflowEngine.Queues
