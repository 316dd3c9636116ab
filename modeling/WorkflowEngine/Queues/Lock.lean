import WorkflowEngine.Foundations.Transition
import Mathlib.Data.List.Sublists

/-!
# The distributed lock

`acquire` takes the lock with one command and draws its fencing token with a second
one.  Between the two the lock can expire and be taken again, and the later holder can
draw first: then the fences do not follow the order in which the lock was taken.
-/

namespace WorkflowEngine.Queues

variable {Token : Type} [DecidableEq Token]

/-- The two keys of a lock, and what its acquire calls got from them. -/
structure Lock (Token : Type) where
  /-- the key, unless it was deleted or has expired -/
  holder : Option Token
  /-- the last fencing token that was drawn -/
  fence : Nat
  /-- the acquire calls that took the lock, first one first -/
  taken : List Token
  /-- the acquire calls that drew their fencing token and returned it -/
  drawn : List (Token × Nat)
  deriving DecidableEq

namespace Lock

/-- The commands of the clients, and the end of a time to live. -/
inductive Action (Token : Type) where
  /-- `SET key token PX ttlMs NX` -/
  | set (token : Token)
  /-- `INCR fenceKey` -/
  | incr (token : Token)
  | release (token : Token)
  | extend (token : Token) (newTtlMs : Int)
  | expire
  deriving DecidableEq

def init : Lock Token :=
  { holder := none, fence := 0, taken := [], drawn := [] }

/-- The acquire call has taken the lock and not drawn its fencing token. -/
def draws (lock : Lock Token) (token : Token) : Bool :=
  token ∈ lock.taken ∧ token ∉ lock.drawn.map Prod.fst

/-- Tokens are random and never drawn twice. -/
def step (ttlMs : Int) (lock : Lock Token) : Action Token → Option (Lock Token)
  | .set token =>
      if token ∈ lock.taken then none
      -- Redis refuses a time to live that is not positive, and `acquire` throws.
      else if ttlMs ≤ 0 ∨ lock.holder ≠ none then some lock
      else some { lock with holder := some token, taken := lock.taken ++ [token] }
  | .incr token =>
      if lock.draws token then
        some { lock with
          fence := lock.fence + 1, drawn := lock.drawn ++ [(token, lock.fence + 1)] }
      else
        none
  | .release token =>
      if lock.holder = some token then some { lock with holder := none } else some lock
  | .extend token newTtlMs =>
      -- A time to live that is not positive deletes the key.
      if lock.holder = some token ∧ newTtlMs ≤ 0 then some { lock with holder := none }
      else some lock
  | .expire => some { lock with holder := none }

end Lock

/-- One lock and any number of clients. -/
def lockSystem (Token : Type) [DecidableEq Token] (ttlMs : Int) :
    Transition.System (Lock Token) (Lock.Action Token) where
  init := Lock.init
  step := Lock.step ttlMs

namespace Lock

/-- Of two acquire calls that returned, the one that took the lock first has the smaller
fencing token. -/
def Fenced (lock : Lock Token) : Prop :=
  ∀ first second firstFence secondFence, [first, second].Sublist lock.taken →
    (first, firstFence) ∈ lock.drawn → (second, secondFence) ∈ lock.drawn →
      firstFence < secondFence

/-- Some acquire call that took the lock later has drawn its fencing token already. -/
def overtaken (lock : Lock Token) (token : Token) : Bool :=
  lock.drawn.any fun entry => [token, entry.1].Sublist lock.taken

/-- A fencing token is drawn only by a call that no later holder has overtaken. -/
def drawsInTurn (lock : Lock Token) : Action Token → Bool
  | .incr token => !lock.overtaken token
  | _ => true

structure Inv (lock : Lock Token) : Prop where
  taken : lock.taken.Nodup
  drawn : ∀ entry ∈ lock.drawn, entry.1 ∈ lock.taken ∧ entry.2 ≤ lock.fence

omit [DecidableEq Token] in
theorem inv_init : (init : Lock Token).Inv :=
  ⟨.nil, nofun⟩

theorem Inv.step {ttlMs : Int} {lock next : Lock Token} {action : Action Token}
    (inv : lock.Inv) (taken : lock.step ttlMs action = some next) : next.Inv := by
  cases action with
  | set token =>
      simp only [Lock.step] at taken
      split at taken
      · cases taken
      · next fresh =>
        split at taken
        · cases taken
          exact inv
        · cases taken
          refine ⟨?_, fun entry drawn => ?_⟩
          · exact List.nodup_append.mpr ⟨inv.taken, List.nodup_singleton _, by grind⟩
          · exact ⟨List.mem_append_left _ (inv.drawn entry drawn).1, (inv.drawn entry drawn).2⟩
  | incr token =>
      simp only [Lock.step] at taken
      split at taken
      · next draws =>
        cases taken
        refine ⟨inv.taken, fun entry drawn => ?_⟩
        rcases List.mem_append.mp drawn with before | new
        · exact ⟨(inv.drawn entry before).1, Nat.le_succ_of_le (inv.drawn entry before).2⟩
        · cases List.mem_singleton.mp new
          exact ⟨(of_decide_eq_true draws).1, Nat.le_refl _⟩
      · cases taken
  | release token =>
      simp only [Lock.step] at taken
      split at taken <;> cases taken <;> exact ⟨inv.taken, inv.drawn⟩
  | extend token newTtlMs =>
      simp only [Lock.step] at taken
      split at taken <;> cases taken <;> exact ⟨inv.taken, inv.drawn⟩
  | expire =>
      cases taken
      exact ⟨inv.taken, inv.drawn⟩

theorem inv_of_reachableBy {ttlMs : Int} {allowed : Lock Token → Action Token → Prop}
    {lock : Lock Token} (reachable : (lockSystem Token ttlMs).ReachableBy allowed lock) :
    lock.Inv :=
  reachable.invariant inv_init fun _ _ _ inv _ taken => inv.step taken

omit [DecidableEq Token] in
/-- A new last token is the first one of no pair. -/
theorem pair_append {first second token : Token} {taken : List Token}
    (pair : [first, second].Sublist (taken ++ [token])) :
    [first, second].Sublist taken ∨ second = token := by
  rcases List.sublist_append_iff.mp pair with ⟨front, back, split, inFront, inBack⟩
  rcases List.sublist_singleton.mp inBack with rfl | rfl
  · rw [List.append_nil] at split
    exact .inl (split ▸ inFront)
  · have last := congrArg List.getLast? split
    rw [List.getLast?_append] at last
    exact .inr (Option.some.inj last)

theorem Fenced.step {ttlMs : Int} {lock next : Lock Token} {action : Action Token}
    (fenced : lock.Fenced) (inv : lock.Inv) (inTurn : lock.drawsInTurn action = true)
    (taken : lock.step ttlMs action = some next) : next.Fenced := by
  cases action with
  | set token =>
      simp only [Lock.step] at taken
      split at taken
      · cases taken
      · next fresh =>
        split at taken
        · cases taken
          exact fenced
        · cases taken
          intro first second firstFence secondFence pair firstDrawn secondDrawn
          rcases pair_append pair with before | rfl
          · exact fenced _ _ _ _ before firstDrawn secondDrawn
          · exact absurd (inv.drawn _ secondDrawn).1 fresh
  | incr token =>
      simp only [Lock.step] at taken
      split at taken
      · next draws =>
        cases taken
        intro first second firstFence secondFence pair firstDrawn secondDrawn
        rcases List.mem_append.mp firstDrawn with firstBefore | firstNew
        · rcases List.mem_append.mp secondDrawn with secondBefore | secondNew
          · exact fenced _ _ _ _ pair firstBefore secondBefore
          · cases List.mem_singleton.mp secondNew
            exact Nat.lt_succ_of_le (inv.drawn _ firstBefore).2
        · cases List.mem_singleton.mp firstNew
          rcases List.mem_append.mp secondDrawn with secondBefore | secondNew
          · -- The second call took the lock later and has drawn already.
            have overtaken : lock.overtaken token = true :=
              List.any_eq_true.mpr ⟨_, secondBefore, decide_eq_true pair⟩
            rw [drawsInTurn, overtaken] at inTurn
            cases inTurn
          · cases List.mem_singleton.mp secondNew
            exact absurd (pair.nodup inv.taken) (by simp)
      · cases taken
  | release token =>
      simp only [Lock.step] at taken
      split at taken <;> cases taken <;> exact fenced
  | extend token newTtlMs =>
      simp only [Lock.step] at taken
      split at taken <;> cases taken <;> exact fenced
  | expire =>
      cases taken
      exact fenced

/-- A draw that comes too late gives the earlier holder the larger fencing token. -/
theorem Inv.not_fenced {ttlMs : Int} {lock next : Lock Token} {token : Token} (inv : lock.Inv)
    (overtaken : lock.overtaken token = true)
    (taken : lock.step ttlMs (.incr token) = some next) : ¬ next.Fenced := by
  rcases List.any_eq_true.mp overtaken with ⟨later, drawn, pair⟩
  simp only [Lock.step] at taken
  split at taken
  · cases taken
    intro fenced
    have smaller := fenced _ _ _ _ (of_decide_eq_true pair)
      (List.mem_append_right _ List.mem_cons_self) (List.mem_append_left _ drawn)
    exact absurd (inv.drawn later drawn).2 (Nat.not_le_of_lt (Nat.lt_of_succ_lt smaller))
  · cases taken

end Lock

/-- Fencing tokens follow the order in which the lock was taken, in every schedule in
which each call draws its token before any later holder does. -/
theorem lock_fenced {ttlMs : Int} {lock : Lock Token}
    (reachable : (lockSystem Token ttlMs).ReachableBy
      (fun lock action => lock.drawsInTurn action = true) lock) : lock.Fenced := by
  induction reachable with
  | init => exact fun _ _ _ _ _ drawn _ => absurd drawn List.not_mem_nil
  | step reached inTurn taken ih => exact ih.step (Lock.inv_of_reachableBy reached) inTurn taken

namespace Schedule

/-- Two clients hold the lock one after the other, and the first one pauses past its time
to live before it draws. -/
def takenTwice : List (Lock.Action Nat) :=
  [.set 1, .expire, .set 2]

end Schedule

theorem lock_fenced_takenTwice :
    ((((lockSystem Nat 1000).runBy Lock.drawsInTurn Lock.init
      (Schedule.takenTwice ++ [.incr 1, .incr 2])).get (by decide)).Fenced) :=
  lock_fenced (Transition.System.get_runBy_reachableBy (lockSystem Nat 1000) Lock.drawsInTurn
    (Schedule.takenTwice ++ [.incr 1, .incr 2]) (by decide))

/-- The first holder draws its fencing token after the second one. -/
theorem not_lock_fenced :
    ¬ ∀ lock : Lock Nat, (lockSystem Nat 1000).Reachable lock → lock.Fenced := by
  intro always
  have fenced := always _ (Transition.System.get_run_reachable (lockSystem Nat 1000)
    (Schedule.takenTwice ++ [.incr 2, .incr 1]) (by decide))
  exact absurd (fenced 1 2 2 1 (by decide) (by decide) (by decide)) (by decide)

end WorkflowEngine.Queues
