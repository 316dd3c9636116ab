import WorkflowEngine.Queues.Representation

/-!
# Who holds a lease

Leases are kept by id alone.  A worker whose claim has ended, and whose id another
worker has claimed since, still acknowledges and extends the lease of that worker.
-/

namespace WorkflowEngine.Queues

variable {Id : Type} [LinearOrder Id] {Worker : Type}

/-- The caller of the newest claim of an id, unless its lease has ended since: the id was
acknowledged, its lease was reaped, or it was moved to the delayed set. -/
def holder (id : Id) (log : List (Served Id Worker)) : Option Worker :=
  log.foldl (fun held served =>
    match served.event? id with
    | none => held
    | some .claimed => some served.caller
    | some _ => none) none

/-- After a claim of the id by this worker its lease was reaped or moved to the delayed
set, and another worker has claimed the id since. -/
def Server.Superseded (server : Server Id Worker) (worker : Worker) (id : Id) : Prop :=
  ∃ before first between second after,
    server.log = before ++ first :: (between ++ second :: after) ∧
      first.caller = worker ∧ first.event? id = some .claimed ∧
      ((eventsOf id between).head? = some .requeued ∨
        (eventsOf id between).head? = some .delayed) ∧
      second.caller ≠ worker ∧ second.event? id = some .claimed

/-- The calls by which a worker speaks for its claim of an id. -/
def Call.speaksFor (id : Id) : Call Id → Bool
  | .ack taskId | .extendLease taskId _ => taskId = id
  | _ => false

/-- The call returns false and changes no key. -/
def Call.Refused (call : Call Id) (server : Server Id Worker) : Prop :=
  call.run server.queue server.now = (server.queue, .done false)

theorem Call.refused_iff {call : Call Id} {id : Id} {server : Server Id Worker}
    (speaks : call.speaksFor id = true) :
    call.Refused server ↔ id ∉ server.queue.leases := by
  cases call with
  | ack taskId =>
      cases of_decide_eq_true speaks
      by_cases leased : id ∈ server.queue.leases <;>
        simp [Refused, run, Queue.wfAck, leased]
  | extendLease taskId leaseMs =>
      cases of_decide_eq_true speaks
      by_cases leased : id ∈ server.queue.leases <;>
        simp [Refused, run, Queue.wfExtendLease, leased]
  | enqueue | enqueueDelayed | claim | requeueExpired | promoteDue => cases speaks

/-- An id is leased exactly while somebody holds it. -/
theorem placeAfter_eq_leased_iff (id : Id) (log : List (Served Id Worker)) :
    placeAfter (eventsOf id log) = .leased ↔ holder id log ≠ none := by
  induction log using List.reverseRecOn with
  | nil => simp [eventsOf, placeAfter, holder]
  | append_singleton log served ih =>
      rw [eventsOf_concat, placeAfter_append, holder, List.foldl_append]
      cases found : served.event? id with
      | none => simpa [Event.move, found, holder] using ih
      | some event => cases event <;> simp [Event.move, Event.target, found]

/-- A call for a claim, be it late or not, is refused exactly when nobody holds the id. -/
theorem late_call_refused_iff {start : Int} {server : Server Id Worker}
    (reachable : (taskQueue Id Worker start).Reachable server) {id : Id} {call : Call Id}
    (speaks : call.speaksFor id = true) :
    call.Refused server ↔ holder id server.log = none := by
  have represents := (Server.inv_of_reachable reachable).represents
  rw [Call.refused_iff speaks, represents.leases, placeAfter_eq_leased_iff, ne_eq, not_not]

namespace Schedule

/-- Worker 1 has lost task 5 to worker 2. -/
theorem reaped_superseded : (Server.after 0 reaped).Superseded 1 5 :=
  ⟨[⟨0, .enqueue 5, .done true⟩, ⟨0, .enqueueDelayed 6 50, .done true⟩],
    ⟨1, .claim 10, .claimed (some 5)⟩, [⟨0, .requeueExpired 100, .moved [5]⟩],
    ⟨2, .claim 10, .claimed (some 5)⟩, [], by decide, rfl, by decide, .inl (by decide),
    by decide, by decide⟩

/-- Worker 1 has lost task 5 to worker 2, which has acknowledged it. -/
def settled : List (Server.Action Nat Nat) :=
  reaped ++ [.call 2 (.ack 5)]

end Schedule

theorem late_call_refused_iff_settled :
    (Call.ack 5).Refused (Server.after 0 Schedule.settled) ↔
      holder 5 (Server.after 0 Schedule.settled).log = none :=
  late_call_refused_iff (Server.after_reachable 0 Schedule.settled) (by decide)

/-- Worker 1 acknowledges the task that worker 2 has claimed. -/
theorem not_late_call_refused :
    ¬ ∀ (server : Server Nat Nat) (worker id : Nat) (call : Call Nat),
      (taskQueue Nat Nat 0).Reachable server → server.Superseded worker id →
        call.speaksFor id = true → call.Refused server := by
  intro always
  have refused := always _ 1 5 (.ack 5) (Server.after_reachable 0 Schedule.reaped)
    Schedule.reaped_superseded (by decide)
  have reply : ((Call.ack 5).run (Server.after 0 Schedule.reaped).queue
      (Server.after 0 Schedule.reaped).now).2 = .done true := by decide
  rw [refused] at reply
  cases reply

end WorkflowEngine.Queues
