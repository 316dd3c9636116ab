import WorkflowEngine.Events.Runner

/-!
# One leader at a time

While a runner's last confirmation is younger than the time to live, its lock cannot have
expired, so no other runner is in that position.  Runs in which every step of a relay call
is taken by such a runner are runs of one leader after the other.
-/

namespace WorkflowEngine.Events

open Queues

variable {Token : Type}

/-! ## Leases -/

/-- The token of a command that is on its way. -/
def Phase.token? : Phase Token → Option Token
  | .extend token | .incr token => some token
  | _ => none

namespace Runner

/-- The last confirmation is younger than the time to live. -/
def leased (ttlMs : Int) (now : Time) (runner : Runner Token) : Bool :=
  runner.lease.any fun lease => decide (now < lease.2 + ttlMs)

theorem leased_iff {ttlMs : Int} {now : Time} {runner : Runner Token} :
    runner.leased ttlMs now = true ↔
      ∃ token confirmedAt, runner.lease = some (token, confirmedAt) ∧ now < confirmedAt + ttlMs := by
  rw [leased, Option.any_eq_true]
  constructor
  · rintro ⟨⟨token, confirmedAt⟩, isLease, before⟩
    exact ⟨token, confirmedAt, isLease, of_decide_eq_true before⟩
  · rintro ⟨token, confirmedAt, isLease, before⟩
    exact ⟨(token, confirmedAt), isLease, decide_eq_true before⟩

/-- A token that the runner remembers. -/
def Owns (runner : Runner Token) (token : Token) : Prop :=
  runner.held.map Prod.fst = some token ∨ runner.phase.bind Phase.token? = some token ∨
    runner.stopping = some token ∨ runner.lease.map Prod.fst = some token

theorem not_owns_init {token : Token} : ¬ (init : Runner Token).Owns token := by
  simp [Owns, init]

theorem owns_of_lease {runner : Runner Token} {token : Token} {confirmedAt : Time}
    (isLease : runner.lease = some (token, confirmedAt)) : runner.Owns token :=
  .inr (.inr (.inr (congrArg (Option.map Prod.fst) isLease)))

theorem owns_of_phase {runner : Runner Token} {token : Token} {phase : Phase Token}
    (isPhase : runner.phase = some phase) (isToken : phase.token? = some token) :
    runner.Owns token :=
  .inr (.inl ((congrArg (Option.bind · Phase.token?) isPhase).trans isToken))

/-- Where a token comes from that the runner remembers with a new phase and lease. -/
theorem Owns.of_update {runner : Runner Token} {token : Token} {phase : Option (Phase Token)}
    {lease : Option (Token × Time)} (owns : ({ runner with phase, lease } : Runner Token).Owns token) :
    phase.bind Phase.token? = some token ∨ lease.map Prod.fst = some token ∨
      runner.Owns token := by
  rcases owns with held | isPhase | stopping | isLease
  · exact .inr (.inr (.inl held))
  · exact .inl isPhase
  · exact .inr (.inr (.inr (.inr (.inl stopping))))
  · exact .inr (.inl isLease)

/-- A phase without a token is no new reason to remember one. -/
theorem Owns.of_phase {runner : Runner Token} {token : Token} {phase : Option (Phase Token)}
    (none : phase.bind Phase.token? = none)
    (owns : ({ runner with phase } : Runner Token).Owns token) : runner.Owns token := by
  have source : phase.bind Phase.token? = some token ∨
      runner.lease.map Prod.fst = some token ∨ runner.Owns token := owns.of_update
  rcases source with isPhase | isLease | known
  · rw [none] at isPhase
    cases isPhase
  · exact .inr (.inr (.inr isLease))
  · exact known

end Runner

/-- A step of a relay call is taken while the runner is the leader. -/
def Relays.inLease (ttlMs : Int) (relays : Relays Token) : Relays.Action Token → Bool
  | .find runner | .publish runner | .publishFails runner _ | .mark runner _ =>
      (relays.runners runner).leased ttlMs relays.timed.now
  | _ => true

/-- The runners know who holds the lock. -/
structure Elected (ttlMs : Int) (timed : TimedLock Token) (runners : Nat → Runner Token)
    (steps : List Token) : Prop where
  lock : timed.lock.Inv
  last : timed.lock.HeldByLast
  taken : ∀ i token, (runners i).Owns token → token ∈ timed.lock.taken
  own : ∀ i j token, (runners i).Owns token → (runners j).Owns token → i = j
  lease : ∀ i token confirmedAt, (runners i).lease = some (token, confirmedAt) →
    confirmedAt ≤ timed.now ∧
      (timed.now < confirmedAt + ttlMs → timed.Holds token (confirmedAt + ttlMs))
  known : ∀ token ∈ steps, token ∈ timed.lock.taken
  inTurn : steps.Pairwise fun first second =>
    first = second ∨ [first, second].Sublist timed.lock.taken

namespace Elected

variable {ttlMs : Int} {timed next : TimedLock Token} {runners : Nat → Runner Token}
  {steps : List Token} {runner : Nat} {state : Runner Token}

theorem init : Elected ttlMs (.init : TimedLock Token) (fun _ => .init) [] where
  lock := Lock.inv_init
  last token held := by cases held
  taken i token owns := absurd owns Runner.not_owns_init
  own i j token owns := absurd owns Runner.not_owns_init
  lease i token confirmedAt isLease := by cases isLease
  known token membership := by cases membership
  inTurn := .nil

/-- There is one leader. -/
theorem leased_unique (elected : Elected ttlMs timed runners steps) {i j : Nat}
    (left : (runners i).leased ttlMs timed.now = true)
    (right : (runners j).leased ttlMs timed.now = true) : i = j := by
  rcases Runner.leased_iff.mp left with ⟨token, confirmedAt, isLease, before⟩
  rcases Runner.leased_iff.mp right with ⟨other, otherAt, isOther, otherBefore⟩
  have held := ((elected.lease i token confirmedAt isLease).2 before).1
  have otherHeld := ((elected.lease j other otherAt isOther).2 otherBefore).1
  cases held.symm.trans otherHeld
  exact elected.own i j token (Runner.owns_of_lease isLease) (Runner.owns_of_lease isOther)

theorem wait (elected : Elected ttlMs timed runners steps) (now : Time) :
    Elected ttlMs (timed.wait now) runners steps :=
  { elected with
    lease := by
      intro i token confirmedAt isLease
      have lease := elected.lease i token confirmedAt isLease
      refine ⟨Int.le_trans lease.1 (Int.le_max_left _ _), fun before => ?_⟩
      exact lease.2 (Int.lt_of_le_of_lt (Int.le_max_left _ _) before) }

/-- One runner goes on without a new token. -/
theorem update (elected : Elected ttlMs timed runners steps)
    (owns : ∀ token, state.Owns token → (runners runner).Owns token)
    (lease : ∀ found, state.lease = some found → (runners runner).lease = some found) :
    Elected ttlMs timed (Function.update runners runner state) steps := by
  have owner : ∀ i token, (Function.update runners runner state i).Owns token →
      (runners i).Owns token := by
    intro i token holds
    by_cases same : i = runner
    · subst same
      rw [Function.update_self] at holds
      exact owns token holds
    · rwa [Function.update_of_ne same] at holds
  refine { elected with taken := ?_, own := ?_, lease := ?_ }
  · exact fun i token holds => elected.taken i token (owner i token holds)
  · exact fun i j token left right => elected.own i j token (owner i token left) (owner j token right)
  · intro i token confirmedAt isLease
    by_cases same : i = runner
    · subst same
      rw [Function.update_self] at isLease
      exact elected.lease i token confirmedAt (lease _ isLease)
    · rw [Function.update_of_ne same] at isLease
      exact elected.lease i token confirmedAt isLease

/-- Redis executes a command of one runner. -/
theorem command [DecidableEq Token] (elected : Elected ttlMs timed runners steps)
    {action : Lock.Action Token}
    (sent : timed.command ttlMs action = some next) (isCommand : action ≠ .expire)
    (mine : ∀ i, i ≠ runner → ∀ token, (runners i).Owns token → action.writes? ≠ some token)
    (owns : ∀ token, state.Owns token → token ∈ next.lock.taken ∧
      ∀ i, i ≠ runner → ¬ (runners i).Owns token)
    (lease : ∀ token confirmedAt, state.lease = some (token, confirmedAt) →
      confirmedAt ≤ timed.now ∧
        (timed.now < confirmedAt + ttlMs → next.Holds token (confirmedAt + ttlMs))) :
    Elected ttlMs next (Function.update runners runner state) steps := by
  have grown := TimedLock.command_taken sent
  have sameNow := TimedLock.command_now sent
  constructor
  · exact TimedLock.command_invariant (fun _ _ _ inv taken => inv.step taken) elected.lock sent
  · exact TimedLock.command_invariant (fun _ _ _ last taken => last.step taken) elected.last sent
  · intro i token holds
    by_cases same : i = runner
    · subst same
      rw [Function.update_self] at holds
      exact (owns token holds).1
    · rw [Function.update_of_ne same] at holds
      exact grown.subset (elected.taken i token holds)
  · intro i j token left right
    by_cases isLeft : i = runner
    · by_cases isRight : j = runner
      · exact isLeft.trans isRight.symm
      · subst isLeft
        rw [Function.update_self] at left
        rw [Function.update_of_ne isRight] at right
        exact absurd right ((owns token left).2 j isRight)
    · rw [Function.update_of_ne isLeft] at left
      by_cases isRight : j = runner
      · subst isRight
        rw [Function.update_self] at right
        exact absurd left ((owns token right).2 i isLeft)
      · rw [Function.update_of_ne isRight] at right
        exact elected.own i j token left right
  · intro i token confirmedAt isLease
    rw [sameNow]
    by_cases same : i = runner
    · subst same
      rw [Function.update_self] at isLease
      exact lease token confirmedAt isLease
    · rw [Function.update_of_ne same] at isLease
      have before := elected.lease i token confirmedAt isLease
      refine ⟨before.1, fun young => (before.2 young).command young ?_ isCommand sent⟩
      exact mine i same token (Runner.owns_of_lease isLease)
  · exact fun token membership => grown.subset (elected.known token membership)
  · exact elected.inTurn.imp fun order => order.imp_right fun pair => pair.trans grown.sublist

/-- The leader takes a step of its relay call. -/
theorem steps_concat (elected : Elected ttlMs timed runners steps)
    (leads : (runners runner).leased ttlMs timed.now = true) :
    Elected ttlMs timed runners
      (steps ++ ((runners runner).lease.map Prod.fst).toList) := by
  rcases Runner.leased_iff.mp leads with ⟨token, confirmedAt, isLease, before⟩
  have held := ((elected.lease runner token confirmedAt isLease).2 before).1
  have taken : token ∈ timed.lock.taken := elected.last.mem held
  rw [isLease]
  refine { elected with known := ?_, inTurn := ?_ }
  · intro other membership
    rcases List.mem_append.mp membership with old | new
    · exact elected.known other old
    · cases List.mem_singleton.mp new
      exact taken
  · apply List.pairwise_append.mpr
    refine ⟨elected.inTurn, List.pairwise_singleton _ _, ?_⟩
    intro first old second new
    cases List.mem_singleton.mp new
    exact elected.last.sublist held (elected.known first old)

end Elected

section Steps

variable [DecidableEq Token] {ttlMs : Int} {batchSize : Nat} {relays next : Relays Token}

/-- What an unanswered or foreign command leaves of a lease. -/
theorem Elected.lease_kept {timed later : TimedLock Token} {runners : Nat → Runner Token}
    {steps : List Token} (elected : Elected ttlMs timed runners steps) {runner : Nat}
    {action : Lock.Action Token} (sent : timed.command ttlMs action = some later)
    (isCommand : action ≠ .expire) {token : Token} {confirmedAt : Time}
    (isLease : (runners runner).lease = some (token, confirmedAt))
    (other : action.writes? ≠ some token) :
    confirmedAt ≤ timed.now ∧
      (timed.now < confirmedAt + ttlMs → later.Holds token (confirmedAt + ttlMs)) := by
  have before := elected.lease runner token confirmedAt isLease
  exact ⟨before.1, fun young => (before.2 young).command young other isCommand sent⟩

/-- A lease lasts at least as long after its own `EXTEND`. -/
theorem Elected.lease_extended {timed later : TimedLock Token} {runners : Nat → Runner Token}
    {steps : List Token} (elected : Elected ttlMs timed runners steps) {runner : Nat}
    {extended : Token} (sent : timed.command ttlMs (.extend extended ttlMs) = some later)
    {token : Token} {confirmedAt : Time}
    (isLease : (runners runner).lease = some (token, confirmedAt)) :
    confirmedAt ≤ timed.now ∧
      (timed.now < confirmedAt + ttlMs → later.Holds token (confirmedAt + ttlMs)) := by
  by_cases same : extended = token
  · subst same
    have before := elected.lease runner extended confirmedAt isLease
    refine ⟨before.1, fun young => ?_⟩
    have positive : 0 < ttlMs :=
      Int.lt_of_add_lt_add_left (a := confirmedAt)
        (by simpa using Int.lt_of_le_of_lt before.1 young)
    have holds := (before.2 young).extend young positive sent
    exact ⟨holds.1, Int.le_trans (Int.add_le_add_right before.1 ttlMs) holds.2⟩
  · refine elected.lease_kept sent (fun absurdity => by cases absurdity) isLease ?_
    exact fun isToken => same (Option.some.inj isToken)

/-- A command with a token of the runner. -/
theorem Elected.command_own {timed later : TimedLock Token} {runners : Nat → Runner Token}
    {steps : List Token} (elected : Elected ttlMs timed runners steps) {runner : Nat}
    {state : Runner Token} {action : Lock.Action Token} {token : Token}
    (sent : timed.command ttlMs action = some later) (isCommand : action ≠ .expire)
    (writes : ∀ other, action.writes? = some other → other = token)
    (isOwn : (runners runner).Owns token)
    (owns : ∀ other, state.Owns other → other = token ∨ (runners runner).Owns other)
    (lease : ∀ other confirmedAt, state.lease = some (other, confirmedAt) →
      confirmedAt ≤ timed.now ∧
        (timed.now < confirmedAt + ttlMs → later.Holds other (confirmedAt + ttlMs))) :
    Elected ttlMs later (Function.update runners runner state) steps := by
  refine elected.command sent isCommand ?_ ?_ lease
  · intro i different other holds isOther
    rw [writes other isOther] at holds
    exact different (elected.own i runner token holds isOwn)
  · intro other holds
    have before : (runners runner).Owns other := by
      rcases owns other holds with rfl | known
      · exact isOwn
      · exact known
    refine ⟨(TimedLock.command_taken sent).subset (elected.taken runner other before), ?_⟩
    intro i different foreign
    exact different (elected.own i runner other foreign before)

/-! ## Steps of the runners -/

omit [DecidableEq Token] in
theorem Relays.callRelayOnce_ok {runner round : Nat}
    (called : relays.callRelayOnce batchSize runner round = some next) :
    next = { relays.update runner
        { relays.runners runner with
          phase := some (.relay round relays.outbox.relays.length) } with
      outbox :=
        { relays.outbox with relays := relays.outbox.relays ++ [some .find] } } := by
  rcases Option.map_eq_some_iff.mp called with ⟨outbox, stepped, rfl⟩
  cases stepped
  rfl

omit [DecidableEq Token] in
theorem Relays.advance_ok {runner : Nat} {action : Nat → Outbox.Action}
    (advanced : relays.advance batchSize runner action = some next) :
    ∃ call outbox, relays.call? runner = some call ∧
      relays.outbox.step batchSize (action call) = some outbox ∧
      next = { relays with
        outbox, steps := relays.steps ++ ((relays.runners runner).lease.map Prod.fst).toList } := by
  unfold Relays.advance at advanced
  split at advanced
  · next call isCall =>
    rcases Option.map_eq_some_iff.mp advanced with ⟨outbox, stepped, rfl⟩
    exact ⟨call, outbox, isCall, stepped, rfl⟩
  · cases advanced

/-- The runner's call ends, or it was in none. -/
inductive Relays.Abandoned (relays : Relays Token) (runner : Nat) (state : Runner Token) :
    Relays Token → Prop where
  | call {call : Nat} : relays.call? runner = some call →
      Abandoned relays runner state
        { relays.update runner state with
          outbox := { relays.outbox with relays := relays.outbox.relays.set call none }
          abandoned := relays.abandoned ++ relays.unmarkedBy runner }
  | idle : relays.call? runner = none →
      Abandoned relays runner state (relays.update runner state)

omit [DecidableEq Token] in
theorem Relays.abandon_ok {runner : Nat} {state : Runner Token}
    (ended : relays.abandon batchSize runner state = some next) :
    relays.Abandoned runner state next := by
  unfold Relays.abandon at ended
  split at ended
  · next call isCall =>
    rcases Option.map_eq_some_iff.mp ended with ⟨outbox, stepped, rfl⟩
    cases stepped
    exact .call isCall
  · next isIdle =>
    cases ended
    exact .idle isIdle

namespace Elected

variable {timed : TimedLock Token} {runners : Nat → Runner Token} {steps : List Token}

omit [DecidableEq Token] in
/-- The tick of a runner goes on without a token, or ends. -/
theorem phase (elected : Elected ttlMs timed runners steps) {runner : Nat}
    {phase : Option (Phase Token)} (none : phase.bind Phase.token? = none) :
    Elected ttlMs timed
      (Function.update runners runner { runners runner with phase }) steps :=
  elected.update (fun _ owns => owns.of_phase none) fun _ => id

theorem extend {runner : Nat} {token : Token} (answered : Bool)
    (elected : Elected ttlMs relays.timed relays.runners relays.steps)
    (isPhase : (relays.runners runner).phase = some (.extend token)) {timed : TimedLock Token}
    (sent : relays.timed.command ttlMs (.extend token ttlMs) = some timed) :
    Elected ttlMs timed (Function.update relays.runners runner
      (if answered = false then { relays.runners runner with phase := none }
      else if timed.lock.holder = some token then
        { relays.runners runner with
          phase := some (.extended true), lease := some (token, timed.now) }
      else { relays.runners runner with phase := some (.extended false) })) relays.steps := by
  refine elected.command_own sent (fun absurdity => by cases absurdity)
    (fun other isOther => (Option.some.inj isOther).symm) (Runner.owns_of_phase isPhase rfl) ?_ ?_
  · intro other owns
    split at owns
    · exact .inr (owns.of_phase rfl)
    · split at owns
      · rcases owns.of_update with absurdity | isLease | known
        · cases absurdity
        · exact .inl (Option.some.inj isLease).symm
        · exact .inr known
      · exact .inr (owns.of_phase rfl)
  · intro other confirmedAt isLease
    split at isLease
    · exact elected.lease_extended sent isLease
    · split at isLease
      · next won =>
        cases isLease
        rw [TimedLock.command_now sent]
        exact ⟨Int.le_refl _, fun _ => TimedLock.holds_of_extend sent won⟩
      · exact elected.lease_extended sent isLease

theorem set (runner : Nat) {token : Token} (answered : Bool)
    (elected : Elected ttlMs relays.timed relays.runners relays.steps) {timed : TimedLock Token}
    (sent : relays.timed.command ttlMs (.set token) = some timed) :
    Elected ttlMs timed (Function.update relays.runners runner
      (if answered ∧ timed.lock.holder = some token then
        { relays.runners runner with
          phase := some (.incr token), lease := some (token, timed.now) }
      else { relays.runners runner with phase := none })) relays.steps := by
  have unknown : ∀ i, ¬ (relays.runners i).Owns token :=
    fun i owns => TimedLock.not_mem_of_set sent (elected.taken i token owns)
  have known : ∀ other, (relays.runners runner).Owns other →
      other ∈ timed.lock.taken ∧ ∀ i, i ≠ runner → ¬ (relays.runners i).Owns other := by
    intro other owns
    refine ⟨(TimedLock.command_taken sent).subset (elected.taken runner other owns), ?_⟩
    exact fun i different also => different (elected.own i runner other also owns)
  have last : timed.lock.HeldByLast :=
    TimedLock.command_invariant (fun _ _ _ last taken => last.step taken) elected.last sent
  refine elected.command sent (fun absurdity => by cases absurdity) ?_ ?_ ?_
  · intro i _ other owns isOther
    cases isOther
    exact unknown i owns
  · intro other owns
    split at owns
    · next won =>
      have new : token ∈ timed.lock.taken ∧ ∀ i, i ≠ runner → ¬ (relays.runners i).Owns token :=
        ⟨last.mem won.2, fun i _ => unknown i⟩
      rcases owns.of_update with isPhase | isLease | before
      · cases isPhase
        exact new
      · cases isLease
        exact new
      · exact known other before
    · exact known other (owns.of_phase rfl)
  · intro other confirmedAt isLease
    split at isLease
    · next won =>
      cases isLease
      rw [TimedLock.command_now sent]
      exact ⟨Int.le_refl _, fun _ => TimedLock.holds_of_set sent won.2⟩
    · refine elected.lease_kept sent (fun absurdity => by cases absurdity) isLease ?_
      intro isOther
      cases isOther
      exact unknown runner (Runner.owns_of_lease isLease)

theorem incr {runner : Nat} {token : Token} {held : Option (Token × Nat)}
    {phase : Option (Phase Token)}
    (elected : Elected ttlMs relays.timed relays.runners relays.steps)
    (isPhase : (relays.runners runner).phase = some (.incr token)) {timed : TimedLock Token}
    (sent : relays.timed.command ttlMs (.incr token) = some timed)
    (none : phase.bind Phase.token? = none)
    (isHeld : held.map Prod.fst = some token ∨ held = (relays.runners runner).held) :
    Elected ttlMs timed (Function.update relays.runners runner
      { relays.runners runner with held, phase }) relays.steps := by
  refine elected.command_own sent (fun absurdity => by cases absurdity)
    (fun other absurdity => by cases absurdity) (Runner.owns_of_phase isPhase rfl) ?_ ?_
  · rintro other (given | absurdity | stopping | isLease)
    · rcases isHeld with new | rfl
      · exact .inl (Option.some.inj (given.symm.trans new))
      · exact .inr (.inl given)
    · exact absurd (absurdity.symm.trans none) (Option.some_ne_none _)
    · exact .inr (.inr (.inr (.inl stopping)))
    · exact .inr (.inr (.inr (.inr isLease)))
  · intro other confirmedAt isLease
    exact elected.lease_kept sent (fun absurdity => by cases absurdity) isLease
      fun absurdity => by cases absurdity

theorem release {runner : Nat} {token : Token}
    (elected : Elected ttlMs relays.timed relays.runners relays.steps)
    (isToken : (relays.runners runner).stopping = some token) {timed : TimedLock Token}
    (sent : relays.timed.command ttlMs (.release token) = some timed) :
    Elected ttlMs timed (Function.update relays.runners runner
      { relays.runners runner with
        lease := (relays.runners runner).lease.filter fun lease => lease.1 ≠ token })
      relays.steps := by
  have source : ∀ lease, (relays.runners runner).lease.filter (fun lease => lease.1 ≠ token) =
      some lease → (relays.runners runner).lease = some lease ∧ lease.1 ≠ token := by
    intro lease kept
    rw [Option.filter_eq_some_iff] at kept
    exact ⟨kept.1, of_decide_eq_true kept.2⟩
  refine elected.command_own sent (fun absurdity => by cases absurdity)
    (fun other isOther => (Option.some.inj isOther).symm) (.inr (.inr (.inl isToken))) ?_ ?_
  · rintro other (held | isPhase | stopping | isLease)
    · exact .inr (.inl held)
    · exact .inr (.inr (.inl isPhase))
    · exact .inr (.inr (.inr (.inl stopping)))
    · rcases Option.map_eq_some_iff.mp isLease with ⟨lease, kept, rfl⟩
      exact .inr (Runner.owns_of_lease (source lease kept).1)
  · intro other confirmedAt isLease
    have before := source _ isLease
    exact elected.lease_kept sent (fun absurdity => by cases absurdity) before.1
      fun same => before.2 (Option.some.inj same).symm

theorem step (elected : Elected ttlMs relays.timed relays.runners relays.steps)
    {action : Relays.Action Token} (allowed : relays.inLease ttlMs action = true)
    (taken : relays.step ttlMs batchSize action = some next) :
    Elected ttlMs next.timed next.runners next.steps := by
  cases action with
  | wait now =>
      cases taken
      exact elected.wait now
  | produce action =>
      simp only [Relays.step] at taken
      split at taken
      · rcases Option.map_eq_some_iff.mp taken with ⟨outbox, _, rfl⟩
        exact elected
      · cases taken
  | tick runner =>
      simp only [Relays.step] at taken
      split at taken
      · cases taken
        exact elected
      · cases taken
        refine elected.update ?_ fun _ => id
        intro token owns
        rcases owns.of_update with isPhase | isLease | known
        · cases held : (relays.runners runner).held with
          | none =>
              rw [held] at isPhase
              cases isPhase
          | some pair =>
              rw [held] at isPhase
              exact .inl (by rw [held]; exact isPhase)
        · exact .inr (.inr (.inr isLease))
        · exact known
  | extend runner answered =>
      simp only [Relays.step] at taken
      split at taken
      · next token isPhase =>
        rcases Option.map_eq_some_iff.mp taken with ⟨timed, sent, rfl⟩
        have extended := elected.extend answered isPhase sent
        cases answered with
        | false => exact extended
        | true =>
            rw [if_neg (by simp)]
            by_cases won : timed.lock.holder = some token
            · rw [if_neg (by simp), if_pos won] at extended
              rw [if_pos won]
              exact extended
            · rw [if_neg (by simp), if_neg won] at extended
              rw [if_neg won]
              exact extended
      · cases taken
  | resume runner =>
      simp only [Relays.step] at taken
      split at taken
      · split at taken
        · cases Relays.callRelayOnce_ok taken
          exact elected.phase rfl
        · cases taken
          refine elected.update ?_ fun _ => id
          rintro token (absurdity | absurdity | stopping | isLease)
          · cases absurdity
          · cases absurdity
          · exact .inr (.inr (.inl stopping))
          · exact .inr (.inr (.inr isLease))
      · cases taken
  | set runner token answered =>
      simp only [Relays.step] at taken
      split at taken
      · rcases Option.map_eq_some_iff.mp taken with ⟨timed, sent, rfl⟩
        have taken := elected.set runner answered sent
        split at taken
        · next won =>
          rw [if_pos won]
          exact taken
        · next lost =>
          rw [if_neg lost]
          exact taken
      · cases taken
  | incr runner token answered =>
      simp only [Relays.step] at taken
      split at taken
      · next isPhase =>
        rcases Option.bind_eq_some_iff.mp taken with ⟨timed, sent, rest⟩
        split at rest
        · cases Relays.callRelayOnce_ok rest
          have drawn : Elected ttlMs timed (Function.update relays.runners runner
              { relays.runners runner with
                held := some (token, timed.lock.fence)
                phase := some (.relay 0 relays.outbox.relays.length) }) relays.steps :=
            elected.incr isPhase sent rfl (.inl rfl)
          simpa [Relays.update] using drawn
        · cases rest
          exact elected.incr isPhase sent rfl (.inr rfl)
      · cases taken
  | find runner =>
      rcases Option.map_eq_some_iff.mp taken with ⟨middle, advanced, rfl⟩
      rcases Relays.advance_ok advanced with ⟨call, outbox, _, _, rfl⟩
      split
      · exact (elected.steps_concat allowed).phase rfl
      · exact elected.steps_concat allowed
  | publish runner =>
      rcases Relays.advance_ok taken with ⟨call, outbox, _, _, rfl⟩
      exact elected.steps_concat allowed
  | publishFails runner written =>
      rcases Option.map_eq_some_iff.mp taken with ⟨middle, advanced, rfl⟩
      rcases Relays.advance_ok advanced with ⟨call, outbox, _, _, rfl⟩
      exact (elected.steps_concat allowed).phase rfl
  | mark runner publishedAt =>
      rcases Option.bind_eq_some_iff.mp taken with ⟨middle, advanced, rest⟩
      rcases Relays.advance_ok advanced with ⟨call, outbox, _, _, rfl⟩
      simp only at rest
      split at rest
      · split at rest
        · cases Relays.callRelayOnce_ok rest
          exact (elected.steps_concat allowed).phase rfl
        · cases rest
          exact (elected.steps_concat allowed).phase rfl
      · cases rest
  | throws runner =>
      cases Relays.abandon_ok taken with
      | call => exact elected.phase rfl
      | idle => exact elected.phase rfl
  | stop runner =>
      cases taken
      refine elected.update ?_ fun _ => id
      rintro token (held | isPhase | stopping | isLease)
      · exact .inl held
      · exact .inr (.inl isPhase)
      · exact .inl stopping
      · exact .inr (.inr (.inr isLease))
  | release runner =>
      simp only [Relays.step] at taken
      split at taken
      · next token isToken =>
        rcases Option.map_eq_some_iff.mp taken with ⟨timed, sent, rfl⟩
        exact elected.release isToken sent
      · cases taken
  | forget runner =>
      simp only [Relays.step] at taken
      split at taken
      · cases taken
        refine elected.update ?_ fun _ => id
        rintro token (absurdity | isPhase | absurdity | isLease)
        · cases absurdity
        · exact .inr (.inl isPhase)
        · cases absurdity
        · exact .inr (.inr (.inr isLease))
      · cases taken
  | crash runner =>
      have stopped : Elected ttlMs relays.timed
          (Function.update relays.runners runner .init) relays.steps := by
        apply elected.update
        · exact fun token owns => absurd owns Runner.not_owns_init
        · exact fun found absurdity => by cases absurdity
      cases Relays.abandon_ok taken with
      | call => exact stopped
      | idle => exact stopped

end Elected

end Steps

end WorkflowEngine.Events
