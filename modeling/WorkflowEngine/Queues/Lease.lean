import WorkflowEngine.Queues.Lock
import WorkflowEngine.Models

/-!
# The lock on the clock of Redis

A key that `SET ... PX` has written exists until its time to live is over, and `PEXPIRE`
starts that time anew.  A client that was confirmed to hold the lock keeps it for the time
to live from that moment on, whatever the other clients do.
-/

namespace WorkflowEngine.Queues

variable {Token : Type}

namespace Lock

/-- The holder is the client that took the lock last. -/
def HeldByLast (lock : Lock Token) : Prop :=
  ∀ token, lock.holder = some token → lock.taken.getLast? = some token

theorem HeldByLast.step [DecidableEq Token] {ttlMs : Int} {lock next : Lock Token}
    {action : Action Token} (last : lock.HeldByLast)
    (taken : lock.step ttlMs action = some next) : next.HeldByLast := by
  cases action with
  | set token =>
      simp only [Lock.step] at taken
      split at taken
      · cases taken
      · split at taken
        · cases taken
          exact last
        · cases taken
          intro holder held
          rw [List.getLast?_concat]
          exact held
  | incr token =>
      simp only [Lock.step] at taken
      split at taken
      · cases taken
        exact last
      · cases taken
  | release token | extend token newTtlMs =>
      simp only [Lock.step] at taken
      split at taken
      · cases taken
        intro holder held
        cases held
      · cases taken
        exact last
  | expire =>
      cases taken
      intro holder held
      cases held

/-- Clients that took the lock are not forgotten. -/
theorem taken_prefix [DecidableEq Token] {ttlMs : Int} {lock next : Lock Token}
    {action : Action Token} (taken : lock.step ttlMs action = some next) :
    lock.taken <+: next.taken := by
  cases action with
  | set token =>
      simp only [Lock.step] at taken
      split at taken
      · cases taken
      · split at taken
        · cases taken
          exact List.prefix_rfl
        · cases taken
          exact List.prefix_append _ _
  | incr token =>
      simp only [Lock.step] at taken
      split at taken
      · cases taken
        exact List.prefix_rfl
      · cases taken
  | release token | extend token newTtlMs =>
      simp only [Lock.step] at taken
      split at taken
      · cases taken
        exact List.prefix_rfl
      · cases taken
        exact List.prefix_rfl
  | expire =>
      cases taken
      exact List.prefix_rfl

theorem HeldByLast.mem {lock : Lock Token} (last : lock.HeldByLast) {holder : Token}
    (held : lock.holder = some holder) : holder ∈ lock.taken :=
  List.mem_of_getLast? (last holder held)

/-- Whoever took the lock before its holder did. -/
theorem HeldByLast.sublist {lock : Lock Token} (last : lock.HeldByLast) {first holder : Token}
    (held : lock.holder = some holder) (before : first ∈ lock.taken) :
    first = holder ∨ [first, holder].Sublist lock.taken := by
  rcases List.getLast?_eq_some_iff.mp (last holder held) with ⟨earlier, split⟩
  rw [split] at before ⊢
  rcases List.mem_append.mp before with inside | isLast
  · exact .inr (List.Sublist.append (List.singleton_sublist.mpr inside) (List.Sublist.refl _))
  · exact .inl (List.mem_singleton.mp isLast)

end Lock

/-- A lock and the moment when its key expires, if it exists. -/
structure TimedLock (Token : Type) where
  now : Time
  lock : Lock Token
  expiresAt : Time

/-- The token of a command that may write the key. -/
def Lock.Action.writes? : Lock.Action Token → Option Token
  | .set token | .release token | .extend token _ => some token
  | .incr _ | .expire => none

namespace TimedLock

def init : TimedLock Token := { now := 0, lock := .init, expiresAt := 0 }

/-- Redis does not see a key whose time to live is over. -/
def lapse (timed : TimedLock Token) : TimedLock Token :=
  if timed.expiresAt ≤ timed.now then
    { timed with lock := { timed.lock with holder := none } }
  else
    timed

/-- Time passes. -/
def wait (timed : TimedLock Token) (now : Time) : TimedLock Token :=
  { timed with now := max timed.now now }

/-- The key holds the token until that moment, unless its client gives it up. -/
def Holds (timed : TimedLock Token) (token : Token) (deadline : Time) : Prop :=
  timed.lock.holder = some token ∧ deadline ≤ timed.expiresAt

section Lapse

variable {timed : TimedLock Token} {token : Token} {deadline : Time}

@[simp] theorem lapse_now : timed.lapse.now = timed.now := by
  unfold lapse
  split <;> rfl

@[simp] theorem lapse_taken : timed.lapse.lock.taken = timed.lock.taken := by
  unfold lapse
  split <;> rfl

/-- The time to live of the key is not over. -/
theorem Holds.lapse (holds : timed.Holds token deadline) (before : timed.now < deadline) :
    timed.lapse = timed :=
  if_neg (Int.not_le.mpr (Int.lt_of_lt_of_le before holds.2))

end Lapse

variable [DecidableEq Token]

/-- When the key expires after a command that left this lock. -/
def expiry (ttlMs : Int) (timed : TimedLock Token) (lock : Lock Token) :
    Lock.Action Token → Time
  | .set token => if lock.holder = some token then timed.now + ttlMs else timed.expiresAt
  | .extend token newTtlMs =>
      if lock.holder = some token then timed.now + newTtlMs else timed.expiresAt
  | _ => timed.expiresAt

/-- A client's command. -/
def command (ttlMs : Int) (timed : TimedLock Token) (action : Lock.Action Token) :
    Option (TimedLock Token) :=
  (timed.lapse.lock.step ttlMs action).map fun lock =>
    { timed with lock, expiresAt := timed.lapse.expiry ttlMs lock action }

variable {ttlMs : Int} {timed next : TimedLock Token} {token : Token} {deadline : Time}
  {action : Lock.Action Token}

theorem command_now (taken : timed.command ttlMs action = some next) :
    next.now = timed.now := by
  rcases Option.map_eq_some_iff.mp taken with ⟨lock, _, rfl⟩
  rfl

/-- While a client holds the lock, the commands of the others change nothing for it. -/
theorem Holds.command (holds : timed.Holds token deadline) (before : timed.now < deadline)
    (other : action.writes? ≠ some token) (isCommand : action ≠ .expire)
    (taken : timed.command ttlMs action = some next) : next.Holds token deadline := by
  rcases Option.map_eq_some_iff.mp taken with ⟨lock, stepped, rfl⟩
  rw [holds.lapse before] at stepped ⊢
  have held := holds.1
  cases action with
  | set other' =>
      simp only [Lock.step] at stepped
      split at stepped
      · cases stepped
      · rw [if_pos (.inr (by rw [held]; exact Option.some_ne_none _))] at stepped
        cases stepped
        refine ⟨held, ?_⟩
        simp only [expiry]
        rw [if_neg (fun same => other (same.symm.trans held))]
        exact holds.2
  | incr other' =>
      simp only [Lock.step] at stepped
      split at stepped
      · cases stepped
        exact ⟨held, holds.2⟩
      · cases stepped
  | release other' =>
      simp only [Lock.step] at stepped
      rw [if_neg (fun same => other (same.symm.trans held))] at stepped
      cases stepped
      exact ⟨held, holds.2⟩
  | extend other' newTtlMs =>
      simp only [Lock.step] at stepped
      rw [if_neg (fun both => other (both.1.symm.trans held))] at stepped
      cases stepped
      refine ⟨held, ?_⟩
      simp only [expiry]
      rw [if_neg (fun same => other (same.symm.trans held))]
      exact holds.2
  | expire => exact absurd rfl isCommand

/-- The holder's `EXTEND` starts the time to live anew. -/
theorem Holds.extend (holds : timed.Holds token deadline) (before : timed.now < deadline)
    {newTtlMs : Int} (positive : 0 < newTtlMs)
    (taken : timed.command ttlMs (.extend token newTtlMs) = some next) :
    next.Holds token (timed.now + newTtlMs) := by
  rcases Option.map_eq_some_iff.mp taken with ⟨lock, stepped, rfl⟩
  rw [holds.lapse before] at stepped ⊢
  simp only [Lock.step] at stepped
  rw [if_neg fun both => absurd both.2 (Int.not_le.mpr positive)] at stepped
  cases stepped
  exact ⟨holds.1, Int.le_of_eq (if_pos holds.1).symm⟩

/-- A client whose `SET` was answered with OK holds the lock for the time to live. -/
theorem holds_of_set (taken : timed.command ttlMs (.set token) = some next)
    (won : next.lock.holder = some token) : next.Holds token (timed.now + ttlMs) := by
  rcases Option.map_eq_some_iff.mp taken with ⟨lock, _, rfl⟩
  refine ⟨won, ?_⟩
  have isTtl : timed.now + ttlMs = timed.lapse.now + ttlMs := by rw [lapse_now]
  exact Int.le_of_eq (isTtl.trans (if_pos won).symm)

/-- So does a client whose token was found by `EXTEND`. -/
theorem holds_of_extend {newTtlMs : Int}
    (taken : timed.command ttlMs (.extend token newTtlMs) = some next)
    (won : next.lock.holder = some token) : next.Holds token (timed.now + newTtlMs) := by
  rcases Option.map_eq_some_iff.mp taken with ⟨lock, _, rfl⟩
  refine ⟨won, ?_⟩
  have isTtl : timed.now + newTtlMs = timed.lapse.now + newTtlMs := by rw [lapse_now]
  exact Int.le_of_eq (isTtl.trans (if_pos won).symm)

/-- A command is a step of the lock, maybe after its key has expired. -/
theorem command_invariant {holds : Lock Token → Prop}
    (kept : ∀ lock action lock', holds lock → lock.step ttlMs action = some lock' → holds lock')
    (before : holds timed.lock) (taken : timed.command ttlMs action = some next) :
    holds next.lock := by
  rcases Option.map_eq_some_iff.mp taken with ⟨lock, stepped, rfl⟩
  have seen : holds timed.lapse.lock := by
    unfold lapse
    split
    · exact kept timed.lock .expire _ before rfl
    · exact before
  exact kept _ action lock seen stepped

theorem command_taken (taken : timed.command ttlMs action = some next) :
    timed.lock.taken <+: next.lock.taken := by
  rcases Option.map_eq_some_iff.mp taken with ⟨lock, stepped, rfl⟩
  have grown := Lock.taken_prefix stepped
  rw [lapse_taken] at grown
  exact grown

/-- A token that took the lock is new. -/
theorem not_mem_of_set (taken : timed.command ttlMs (.set token) = some next) :
    token ∉ timed.lock.taken := by
  rcases Option.map_eq_some_iff.mp taken with ⟨lock, stepped, rfl⟩
  intro known
  simp only [Lock.step] at stepped
  rw [if_pos (by rw [lapse_taken]; exact known)] at stepped
  cases stepped

end TimedLock

end WorkflowEngine.Queues
