import WorkflowEngine.Foundations.Transition
import Mathlib.Data.List.Nodup
import Mathlib.Data.List.Perm.Basic

/-!
# The circuit breaker of one provider

Calls that the breaker admits report later, after any delay and in any order.  A report
carries no identity: a late failure of a call from before the outage is taken for the
failure of the call that probes recovery.
-/

namespace WorkflowEngine.Providers

inductive CircuitState where
  | closed | opened | halfOpen
  deriving DecidableEq, Repr

/-- The options of a breaker. -/
structure BreakerOptions where
  failureThreshold : Nat
  cooldownMs : Int

structure CircuitBreaker where
  state : CircuitState
  failures : Nat
  openedAt : Int
  trialInFlight : Bool
  deriving DecidableEq, Repr

namespace CircuitBreaker

variable (options : BreakerOptions)

/-- `createCircuitBreaker` -/
def create : CircuitBreaker :=
  { state := .closed, failures := 0, openedAt := 0, trialInFlight := false }

/-- The cooldown of an open circuit is over. -/
def cooled (breaker : CircuitBreaker) (now : Int) : Bool :=
  decide (breaker.state = .opened) && decide (now - breaker.openedAt ≥ options.cooldownMs)

/-- OPEN becomes HALF_OPEN when the cooldown is over. -/
def awaken (breaker : CircuitBreaker) (now : Int) : CircuitBreaker :=
  if breaker.cooled options now then
    { breaker with state := .halfOpen, trialInFlight := false }
  else
    breaker

/-- May a call go through right now? -/
def allow (breaker : CircuitBreaker) (now : Int) : CircuitBreaker × Bool :=
  let breaker := breaker.awaken options now
  match breaker.state with
  | .closed => (breaker, true)
  | .halfOpen =>
      if breaker.trialInFlight then
        (breaker, false)
      else
        -- exactly one trial call probes recovery
        ({ breaker with trialInFlight := true }, true)
  | .opened => (breaker, false)

def success (breaker : CircuitBreaker) : CircuitBreaker :=
  { breaker with state := .closed, failures := 0, trialInFlight := false }

def failure (breaker : CircuitBreaker) (now : Int) : CircuitBreaker :=
  let failures := breaker.failures + 1
  if breaker.state = .halfOpen ∨ failures ≥ options.failureThreshold then
    { state := .opened, failures, openedAt := now, trialInFlight := false }
  else
    { breaker with failures, trialInFlight := false }

variable {options}

/-- Every trial is in flight: no call leaves a breaker HALF_OPEN without one. -/
def Trying (breaker : CircuitBreaker) : Prop :=
  breaker.state = .halfOpen → breaker.trialInFlight = true

theorem trying_create : create.Trying :=
  nofun

theorem trying_success (breaker : CircuitBreaker) : breaker.success.Trying :=
  nofun

/-- What a call of `allow` does. -/
theorem allow_cases {breaker : CircuitBreaker} (trying : breaker.Trying) (now : Int) :
    breaker.state = .closed ∧ breaker.allow options now = (breaker, true) ∨
      breaker.cooled options now = true ∧
        breaker.allow options now =
          ({ breaker with state := .halfOpen, trialInFlight := true }, true) ∨
      breaker.state ≠ .closed ∧ breaker.cooled options now = false ∧
        breaker.allow options now = (breaker, false) := by
  rcases breaker with ⟨state, failures, openedAt, trialInFlight⟩
  cases state with
  | closed => exact .inl ⟨rfl, rfl⟩
  | opened =>
      by_cases passed : cooled options ⟨.opened, failures, openedAt, trialInFlight⟩ now = true
      · exact .inr (.inl ⟨passed, by simp [allow, awaken, passed]⟩)
      · exact .inr (.inr ⟨nofun, by simpa using passed, by simp [allow, awaken, passed]⟩)
  | halfOpen =>
      cases trying rfl
      exact .inr (.inr ⟨nofun, rfl, rfl⟩)

/-- After a failure the circuit is not HALF_OPEN. -/
theorem failure_state (breaker : CircuitBreaker) (now : Int) :
    (breaker.failure options now).state ≠ .halfOpen := by
  simp only [failure]
  split
  · exact nofun
  · next quiet => exact fun same => quiet (.inl same)

theorem trying_failure (breaker : CircuitBreaker) (now : Int) :
    (breaker.failure options now).Trying :=
  fun same => absurd same (breaker.failure_state now)

end CircuitBreaker

/-! ## Concurrent calls -/

/-- A call that was admitted and has not reported. -/
structure Admitted where
  /-- it was admitted while the circuit was HALF_OPEN -/
  probe : Bool
  /-- how often the circuit had been closed before -/
  closings : Nat
  deriving DecidableEq, Repr

/-- One breaker and the calls that go through it. -/
structure Guarded where
  now : Int
  breaker : CircuitBreaker
  /-- the calls that are outstanding -/
  calls : List Admitted
  /-- how often `success` has closed the circuit -/
  closings : Nat
  deriving DecidableEq, Repr

namespace Guarded

inductive Action where
  /-- time passes -/
  | tick (ms : Nat)
  /-- a call asks the breaker -/
  | allow
  /-- an outstanding call ends -/
  | success (call : Nat)
  | failure (call : Nat)

def init (start : Int) : Guarded :=
  { now := start, breaker := .create, calls := [], closings := 0 }

def step (options : BreakerOptions) (guarded : Guarded) : Action → Option Guarded
  | .tick ms => some { guarded with now := guarded.now + ms }
  | .allow =>
      let asked := guarded.breaker.allow options guarded.now
      let call : Admitted :=
        { probe := decide (asked.1.state = .halfOpen), closings := guarded.closings }
      some { guarded with
        breaker := asked.1, calls := guarded.calls ++ if asked.2 then [call] else [] }
  | .success call =>
      if call < guarded.calls.length then
        some { guarded with
          breaker := guarded.breaker.success, calls := guarded.calls.eraseIdx call
          closings := guarded.closings + 1 }
      else
        none
  | .failure call =>
      if call < guarded.calls.length then
        some { guarded with
          breaker := guarded.breaker.failure options guarded.now
          calls := guarded.calls.eraseIdx call }
      else
        none

end Guarded

/-- Any number of calls through one breaker. -/
def guardedCalls (options : BreakerOptions) (start : Int) :
    Transition.System Guarded Guarded.Action where
  init := Guarded.init start
  step := Guarded.step options

namespace Guarded

/-- The outstanding calls that were admitted while the circuit was HALF_OPEN, each with the
number of closings before its admission. -/
def probes (guarded : Guarded) : List Nat :=
  (guarded.calls.filter Admitted.probe).map Admitted.closings

/-- No two outstanding probes have been admitted without the circuit being CLOSED in
between. -/
def OneProbe (guarded : Guarded) : Prop :=
  guarded.probes.Nodup

/-- A failure is reported to a HALF_OPEN circuit by a call that does not probe it. -/
def misreports (guarded : Guarded) : Action → Bool
  | .failure call =>
      decide (guarded.breaker.state = .halfOpen) && guarded.calls[call]?.any fun admitted =>
        !(admitted.probe && admitted.closings == guarded.closings)
  | _ => false

/-- While the circuit is HALF_OPEN its probe is outstanding, and no other one. -/
structure Inv (guarded : Guarded) : Prop where
  trying : guarded.breaker.Trying
  past : ∀ call ∈ guarded.calls, call.closings ≤ guarded.closings
  one : guarded.OneProbe
  probing : guarded.breaker.state = .halfOpen ↔ guarded.closings ∈ guarded.probes

theorem inv_init (start : Int) : (init start).Inv :=
  ⟨nofun, nofun, .nil, ⟨nofun, nofun⟩⟩

theorem probes_append (calls : List Admitted) (call : Admitted) :
    ((calls ++ [call]).filter Admitted.probe).map Admitted.closings =
      (calls.filter Admitted.probe).map Admitted.closings ++
        if call.probe then [call.closings] else [] := by
  rw [List.filter_append, List.map_append]
  cases probe : call.probe with
  | true => rw [List.filter_cons_of_pos probe]; rfl
  | false => rw [List.filter_cons_of_neg (by rw [probe]; exact Bool.false_ne_true)]; rfl

/-- The probes are those of one outstanding call and of the others. -/
theorem probes_perm {calls : List Admitted} {index : Nat} {call : Admitted}
    (found : calls[index]? = some call) :
    ((calls.filter Admitted.probe).map Admitted.closings).Perm
      ((if call.probe then [call.closings] else []) ++
        ((calls.eraseIdx index).filter Admitted.probe).map Admitted.closings) := by
  rcases List.getElem?_eq_some_iff.mp found with ⟨inside, rfl⟩
  have moved := (((List.getElem_cons_eraseIdx_perm inside).filter Admitted.probe).map
    Admitted.closings).symm
  cases probe : calls[index].probe with
  | true =>
      rw [List.filter_cons_of_pos probe] at moved
      exact moved
  | false =>
      rw [List.filter_cons_of_neg (by rw [probe]; exact Bool.false_ne_true)] at moved
      exact moved

theorem mem_probes {guarded : Guarded} {closings : Nat} :
    closings ∈ guarded.probes ↔
      ∃ call ∈ guarded.calls, call.probe = true ∧ call.closings = closings := by
  simp only [probes, List.mem_map, List.mem_filter, and_assoc]

namespace Inv

variable {options : BreakerOptions} {guarded next : Guarded} (inv : guarded.Inv)
include inv

theorem allow (taken : guarded.step options .allow = some next) : next.Inv := by
  simp only [Guarded.step, Option.some.injEq] at taken
  rcases CircuitBreaker.allow_cases inv.trying guarded.now with
    ⟨closed, asked⟩ | ⟨cooled, asked⟩ | ⟨_, _, asked⟩
  · -- an ordinary call
    rw [asked, if_pos rfl] at taken
    subst taken
    have same : ((guarded.calls ++ [(⟨decide (guarded.breaker.state = .halfOpen),
        guarded.closings⟩ : Admitted)]).filter Admitted.probe).map Admitted.closings =
          guarded.probes := by
      rw [probes_append, closed]
      exact List.append_nil _
    refine ⟨inv.trying, ?_, ?_, ?_⟩
    · intro call membership
      rcases List.mem_append.mp membership with before | new
      · exact inv.past call before
      · cases List.mem_singleton.mp new
        exact Nat.le_refl guarded.closings
    · rw [OneProbe, probes, same]
      exact inv.one
    · rw [probes, same]
      exact inv.probing
  · -- the probe; the circuit was OPEN, so no other one is outstanding
    rw [asked, if_pos rfl] at taken
    subst taken
    simp only [CircuitBreaker.cooled, Bool.and_eq_true, decide_eq_true_eq] at cooled
    have none : guarded.closings ∉ guarded.probes := by
      rw [← inv.probing, cooled.1]
      exact nofun
    have more : ((guarded.calls ++ [(⟨true, guarded.closings⟩ : Admitted)]).filter
        Admitted.probe).map Admitted.closings = guarded.probes ++ [guarded.closings] :=
      probes_append _ _
    refine ⟨fun _ => rfl, ?_, ?_, ?_⟩
    · intro call membership
      rcases List.mem_append.mp membership with before | new
      · exact inv.past call before
      · cases List.mem_singleton.mp new
        exact Nat.le_refl guarded.closings
    · show (((guarded.calls ++ [(⟨true, guarded.closings⟩ : Admitted)]).filter
        Admitted.probe).map Admitted.closings).Nodup
      rw [more]
      exact List.nodup_append_comm.mp (List.nodup_cons.mpr ⟨none, inv.one⟩)
    · show CircuitState.halfOpen = .halfOpen ↔ guarded.closings ∈
        ((guarded.calls ++ [(⟨true, guarded.closings⟩ : Admitted)]).filter
          Admitted.probe).map Admitted.closings
      rw [more]
      exact iff_of_true rfl (List.mem_append_right _ List.mem_cons_self)
  · rw [asked, if_neg Bool.false_ne_true, List.append_nil] at taken
    subst taken
    exact inv

theorem success {call : Nat} (taken : guarded.step options (.success call) = some next) :
    next.Inv := by
  simp only [Guarded.step] at taken
  split at taken
  · cases taken
    have past : ∀ other ∈ guarded.calls.eraseIdx call, other.closings ≤ guarded.closings :=
      fun other membership => inv.past other (List.mem_of_mem_eraseIdx membership)
    refine ⟨nofun, ?_, ?_, ?_⟩
    · exact fun other membership => Nat.le_succ_of_le (past other membership)
    · exact List.Nodup.sublist (((List.eraseIdx_sublist _ call).filter _).map _) inv.one
    · refine iff_of_false nofun fun probing => ?_
      rcases mem_probes.mp probing with ⟨other, membership, _, same⟩
      have before := past other membership
      rw [same] at before
      exact Nat.not_succ_le_self _ before
  · cases taken

theorem failure {call : Nat} (reported : guarded.misreports (.failure call) = false)
    (taken : guarded.step options (.failure call) = some next) : next.Inv := by
  simp only [Guarded.step] at taken
  split at taken
  · next inside =>
    cases taken
    have found := List.getElem?_eq_getElem inside
    have moved := probes_perm found
    refine ⟨CircuitBreaker.trying_failure _ _, ?_, ?_, ?_⟩
    · exact fun other membership => inv.past other (List.mem_of_mem_eraseIdx membership)
    · exact List.Nodup.sublist (((List.eraseIdx_sublist _ call).filter _).map _) inv.one
    · refine iff_of_false (CircuitBreaker.failure_state _ _) fun probing => ?_
      by_cases halfOpen : guarded.breaker.state = .halfOpen
      · -- the probe itself has reported
        rw [misreports, found, Option.any_some, decide_eq_true halfOpen, Bool.true_and,
          Bool.not_eq_false', Bool.and_eq_true, beq_iff_eq] at reported
        rw [if_pos reported.1, reported.2] at moved
        exact (List.nodup_cons.mp (moved.nodup_iff.mp inv.one)).1 probing
      · exact halfOpen (inv.probing.mpr (moved.mem_iff.mpr (List.mem_append_right _ probing)))
  · cases taken

theorem step {action : Action} (reported : guarded.misreports action = false)
    (taken : guarded.step options action = some next) : next.Inv := by
  cases action with
  | tick ms =>
      cases taken
      exact ⟨inv.trying, inv.past, inv.one, inv.probing⟩
  | allow => exact inv.allow taken
  | success call => exact inv.success taken
  | failure call => exact inv.failure reported taken

/-- After a failure of another call, and the cooldown, a second probe is admitted. -/
theorem two_probes {start : Int} {call : Nat}
    (misreported : guarded.misreports (.failure call) = true) :
    ∃ later, (guardedCalls options start).runFrom guarded
      [.failure call, .tick options.cooldownMs.toNat, .allow] = some later ∧ ¬ later.OneProbe := by
  rw [misreports, Bool.and_eq_true, decide_eq_true_iff] at misreported
  rcases (Option.any_eq_true _ _).mp misreported.2 with ⟨admitted, found, other⟩
  have inside := (List.getElem?_eq_some_iff.mp found).1
  have reopened : guarded.breaker.failure options guarded.now =
      ⟨.opened, guarded.breaker.failures + 1, guarded.now, false⟩ := by
    simp only [CircuitBreaker.failure, misreported.1, true_or, if_true]
  have cooled : CircuitBreaker.cooled options
      ⟨.opened, guarded.breaker.failures + 1, guarded.now, false⟩
        (guarded.now + options.cooldownMs.toNat) = true := by
    simp only [CircuitBreaker.cooled, decide_true, Bool.true_and, decide_eq_true_eq]
    omega
  have allowed : CircuitBreaker.allow options
      ⟨.opened, guarded.breaker.failures + 1, guarded.now, false⟩
        (guarded.now + options.cooldownMs.toNat) =
          (⟨.halfOpen, guarded.breaker.failures + 1, guarded.now, true⟩, true) := by
    simp only [CircuitBreaker.allow, CircuitBreaker.awaken, if_pos cooled]
    rfl
  -- the first probe is still outstanding
  have outstanding : guarded.closings ∈
      ((guarded.calls.eraseIdx call).filter Admitted.probe).map Admitted.closings := by
    have probing := (probes_perm found).mem_iff.mp (inv.probing.mp misreported.1)
    rcases List.mem_append.mp probing with own | rest
    · cases probe : admitted.probe with
      | true =>
          rw [probe, if_pos rfl] at own
          simp [probe, List.mem_singleton.mp own] at other
      | false =>
          rw [probe, if_neg Bool.false_ne_true] at own
          exact absurd own List.not_mem_nil
    · exact rest
  refine ⟨⟨guarded.now + options.cooldownMs.toNat,
    ⟨.halfOpen, guarded.breaker.failures + 1, guarded.now, true⟩,
    guarded.calls.eraseIdx call ++ [⟨true, guarded.closings⟩], guarded.closings⟩, ?_, ?_⟩
  · simp only [Transition.System.runFrom, guardedCalls, Guarded.step, if_pos inside,
      Option.bind_some, reopened, allowed]
    rfl
  · simp only [OneProbe, probes]
    rw [probes_append]
    intro distinct
    exact (List.nodup_cons.mp (List.nodup_append_comm.mp distinct)).1 outstanding

end Inv

end Guarded

/-- At most one probe is outstanding since the circuit was last CLOSED, in every schedule
in which only the probe reports a failure to a HALF_OPEN circuit. -/
theorem one_probe {options : BreakerOptions} {start : Int} {guarded : Guarded}
    (reachable : (guardedCalls options start).ReachableBy
      (fun guarded action => guarded.misreports action = false) guarded) : guarded.OneProbe := by
  have inv : guarded.Inv := reachable.invariant (Guarded.inv_init start)
    fun _ _ _ inv reported taken => inv.step reported taken
  exact inv.one

namespace Schedule

/-- One failure opens the circuit for a second. -/
def nervous : BreakerOptions :=
  { failureThreshold := 1, cooldownMs := 1000 }

/-- Of two calls one fails and opens the circuit; after the cooldown it is probed. -/
def probed : List Guarded.Action :=
  [.allow, .allow, .failure 0, .tick 1000, .allow]

end Schedule

theorem one_probe_probed :
    (((guardedCalls Schedule.nervous 0).runBy (fun guarded action => !guarded.misreports action)
      (.init 0) Schedule.probed).get (by decide)).OneProbe :=
  one_probe ((Transition.System.get_runBy_reachableBy (guardedCalls Schedule.nervous 0)
    (fun guarded action => !guarded.misreports action) Schedule.probed (by decide)).mono
      fun _ _ reported => Bool.not_eq_eq_eq_not.mp reported)

/-- The call from before the outage fails while the circuit is probed. -/
theorem not_one_probe :
    ¬ ∀ guarded : Guarded, (guardedCalls Schedule.nervous 0).Reachable guarded →
      guarded.OneProbe := by
  intro always
  have one := always _ (Transition.System.get_run_reachable (guardedCalls Schedule.nervous 0)
    (Schedule.probed ++ [.failure 0, .tick 1000, .allow]) (by decide))
  exact absurd one (by unfold Guarded.OneProbe; decide)

end WorkflowEngine.Providers
