import WorkflowEngine.Foundations.Simulation
import WorkflowEngine.Providers.Fallback
import Mathlib.Data.List.Forall2

/-!
# A chain of providers goes by their histories

The purpose of a circuit breaker in terms of what its calls have told it, without a state
of its own: after failures in a row a provider is distrusted until it serves a call again,
and a distrusted provider gets one probe after the cooldown since its last failure.  The
fallback provider answers every schedule of concurrent calls as one that reads the
histories.
-/

namespace WorkflowEngine.Providers

/-- What a call tells a breaker. -/
inductive Told where
  | allow (now : Int)
  | success
  | failure (now : Int)
  deriving DecidableEq, Repr

/-- What a breaker has been told, newest first. -/
abbrev History := List Told

namespace History

/-- The failures in a row. -/
def streak : History → Nat
  | [] => 0
  | .allow _ :: before => streak before
  | .success :: _ => 0
  | .failure _ :: before => streak before + 1

/-- When the provider failed last. -/
def failedAt : History → Option Int
  | [] => none
  | .failure now :: _ => some now
  | _ :: before => failedAt before

variable (options : BreakerOptions)

/-- The provider is distrusted; one failure at least has been seen. -/
def distrusted (history : History) : Bool :=
  decide (max 1 options.failureThreshold ≤ history.streak)

/-- The cooldown since the last failure is over. -/
def rested (history : History) (now : Int) : Bool :=
  history.failedAt.all fun failed => decide (now - failed ≥ options.cooldownMs)

/-- A probe has been let through since the last report. -/
def probed : History → Bool
  | [] => false
  | .allow now :: before =>
      probed before || distrusted options before && rested options before now
  | .success :: _ => false
  | .failure _ :: _ => false

/-- May a call go through? -/
def admits (history : History) (now : Int) : Bool :=
  !distrusted options history || rested options history now && !probed options history

/-- What the circuit shows. -/
def shown (history : History) (now : Int) : CircuitState :=
  if !distrusted options history then
    .closed
  else if rested options history now || probed options history then
    .halfOpen
  else
    .opened

variable {options}

theorem trusted_of_streak {history : History} (unfailing : history.streak = 0) :
    history.distrusted options = false := by
  rw [distrusted, unfailing]
  exact decide_eq_false (Nat.not_le.mpr (Nat.le_max_left 1 options.failureThreshold))

end History

namespace CircuitBreaker

/-- The getter `state`. -/
def shown (options : BreakerOptions) (breaker : CircuitBreaker) (now : Int) : CircuitState :=
  if breaker.cooled options now then .halfOpen else breaker.state

/-- What a breaker remembers of its history. -/
structure Remembers (options : BreakerOptions) (breaker : CircuitBreaker) (history : History) :
    Prop where
  failures : breaker.failures = history.streak
  closed : breaker.state = .closed ↔ history.distrusted options = false
  halfOpen : breaker.state = .halfOpen ↔ history.probed options = true
  openedAt : breaker.state ≠ .closed → history.failedAt = some breaker.openedAt
  trying : breaker.Trying

namespace Remembers

variable {options : BreakerOptions} {breaker : CircuitBreaker} {history : History}

theorem create : CircuitBreaker.create.Remembers options [] :=
  ⟨rfl, iff_of_true rfl (History.trusted_of_streak rfl), by simp [CircuitBreaker.create, History.probed],
    fun notClosed => absurd rfl notClosed, trying_create⟩

theorem success : breaker.success.Remembers options (.success :: history) :=
  ⟨rfl, iff_of_true rfl (History.trusted_of_streak rfl),
    by simp [CircuitBreaker.success, History.probed],
    fun notClosed => absurd rfl notClosed, trying_success breaker⟩

theorem distrusted (remembers : breaker.Remembers options history)
    (notClosed : breaker.state ≠ .closed) : history.distrusted options = true := by
  rw [Ne, remembers.closed, Bool.not_eq_false] at notClosed
  exact notClosed

/-- The circuit opens when the failures are enough to distrust the provider. -/
theorem opens_iff (remembers : breaker.Remembers options history) (now : Int) :
    breaker.state = .halfOpen ∨ breaker.failures + 1 ≥ options.failureThreshold ↔
      History.distrusted options (.failure now :: history) = true := by
  have counted : History.distrusted options (.failure now :: history) =
      decide (max 1 options.failureThreshold ≤ breaker.failures + 1) := by
    rw [remembers.failures]
    rfl
  rw [counted, decide_eq_true_eq]
  constructor
  · rintro (halfOpen | reached)
    · have before := remembers.distrusted (by simp [halfOpen])
      rw [History.distrusted, ← remembers.failures, decide_eq_true_eq] at before
      omega
    · omega
  · intro enough
    exact .inr (by omega)

theorem failure (remembers : breaker.Remembers options history) (now : Int) :
    (breaker.failure options now).Remembers options (.failure now :: history) := by
  have trying : (breaker.failure options now).Trying := breaker.trying_failure now
  have settled : (breaker.failure options now).state ≠ .halfOpen := breaker.failure_state now
  have quiet : ¬ History.probed options (.failure now :: history) = true := by
    simp [History.probed]
  simp only [CircuitBreaker.failure] at trying settled ⊢
  by_cases opens : breaker.state = .halfOpen ∨ breaker.failures + 1 ≥ options.failureThreshold
  · have distrusted := (remembers.opens_iff now).mp opens
    rw [if_pos opens] at settled trying ⊢
    refine ⟨congrArg (· + 1) remembers.failures, ?_, iff_of_false settled quiet, fun _ => rfl,
      trying⟩
    simp [distrusted]
  · have trusted := (remembers.opens_iff now).not.mp opens
    rw [Bool.not_eq_true] at trusted
    rw [if_neg opens] at settled trying ⊢
    have closed : breaker.state = .closed := by
      refine remembers.closed.mpr ?_
      rw [History.distrusted, decide_eq_false_iff_not] at trusted ⊢
      exact fun before => trusted (Nat.le_succ_of_le before)
    exact ⟨congrArg (· + 1) remembers.failures, iff_of_true closed trusted,
      iff_of_false settled quiet, fun notClosed => absurd closed notClosed, trying⟩

/-- An OPEN circuit has let no probe through since the last report. -/
theorem unprobed (remembers : breaker.Remembers options history)
    (opened : breaker.state = .opened) : history.probed options = false := by
  rw [← Bool.not_eq_true, ← remembers.halfOpen, opened]
  simp

theorem cooled (remembers : breaker.Remembers options history)
    (opened : breaker.state = .opened) (now : Int) :
    breaker.cooled options now = history.rested options now := by
  have since := remembers.openedAt (by simp [opened])
  rw [CircuitBreaker.cooled, History.rested, since, opened]
  rfl

/-- A breaker admits what its history admits.  An admitted call is told to it, and a
refused one changes nothing. -/
theorem allow (remembers : breaker.Remembers options history) (now : Int) :
    (breaker.allow options now).2 = history.admits options now ∧
      (history.admits options now = true →
        (breaker.allow options now).1.Remembers options (.allow now :: history)) ∧
      (history.admits options now = false → (breaker.allow options now).1 = breaker) := by
  rcases allow_cases remembers.trying now with
    ⟨closed, asked⟩ | ⟨cooled, asked⟩ | ⟨notClosed, notCooled, asked⟩
  · -- an ordinary call
    have trusted := remembers.closed.mp closed
    have admits : history.admits options now = true := by
      rw [History.admits, trusted]
      rfl
    have same : History.probed options (.allow now :: history) = history.probed options := by
      rw [History.probed, trusted, Bool.false_and, Bool.or_false]
    rw [asked, admits]
    refine ⟨rfl, fun _ => ⟨remembers.failures, remembers.closed, ?_, remembers.openedAt,
      remembers.trying⟩, by simp⟩
    rw [same]
    exact remembers.halfOpen
  · -- the probe
    have opened : breaker.state = .opened := by
      rw [CircuitBreaker.cooled, Bool.and_eq_true, decide_eq_true_eq] at cooled
      exact cooled.1
    have notClosed : breaker.state ≠ .closed := by
      simp [opened]
    have distrusted := remembers.distrusted notClosed
    have quiet := remembers.unprobed opened
    have rested := (remembers.cooled opened now).symm.trans cooled
    have admits : history.admits options now = true := by
      rw [History.admits, rested, quiet]
      exact Bool.or_true _
    have probed : History.probed options (.allow now :: history) = true := by
      rw [History.probed, distrusted, rested]
      exact Bool.or_true _
    have still : ¬ History.distrusted options (.allow now :: history) = false := by
      rw [Bool.not_eq_false]
      exact distrusted
    rw [asked, admits]
    exact ⟨rfl, fun _ => ⟨remembers.failures, iff_of_false (by simp) still,
      iff_of_true rfl probed, fun _ => remembers.openedAt notClosed, fun _ => rfl⟩, by simp⟩
  · have refuses : history.admits options now = false := by
      rw [History.admits, remembers.distrusted notClosed, Bool.not_true, Bool.false_or]
      cases state : breaker.state with
      | closed => exact absurd state notClosed
      | opened => rw [← remembers.cooled state now, notCooled, Bool.false_and]
      | halfOpen => rw [remembers.halfOpen.mp state, Bool.not_true, Bool.and_false]
    rw [asked, refuses]
    exact ⟨rfl, by simp, fun _ => rfl⟩

theorem shown (remembers : breaker.Remembers options history) (now : Int) :
    breaker.shown options now = history.shown options now := by
  rw [CircuitBreaker.shown, History.shown]
  cases state : breaker.state with
  | closed =>
      rw [remembers.closed.mp state, CircuitBreaker.cooled, state]
      rfl
  | opened =>
      have distrusted := remembers.distrusted (by simp [state])
      rw [remembers.cooled state now, distrusted, remembers.unprobed state, Bool.or_false]
      rfl
  | halfOpen =>
      have distrusted := remembers.distrusted (by simp [state])
      rw [distrusted, remembers.halfOpen.mp state, Bool.or_true, CircuitBreaker.cooled, state]
      rfl

end Remembers

end CircuitBreaker

/-! ## The specification of the chain -/

/-- The first provider from this index on that may get a call. -/
def firstAdmitting (options : BreakerOptions) (now : Int) (start : Nat)
    (histories : List History) : Option Nat :=
  ((histories.drop start).findIdx? (·.admits options now)).map (· + start)

/-- A chain of providers and what each of them has been told. -/
structure Chronicle where
  now : Int
  histories : List History
  calls : List ProviderCall
  /-- newest first -/
  answers : List Answer
  deriving DecidableEq, Repr

namespace Chronicle

def init (providers : Nat) (start : Int) : Chronicle :=
  { now := start, histories := List.replicate providers [], calls := [], answers := [] }

def tell (chronicle : Chronicle) (provider : Nat) (told : Told) : Chronicle :=
  { chronicle with histories := chronicle.histories.modify provider (told :: ·) }

/-- A provider gets a call. -/
def send (chronicle : Chronicle) (call : ProviderCall) : Chronicle :=
  { chronicle.tell call.provider (.allow chronicle.now) with calls := chronicle.calls ++ [call] }

def answer (chronicle : Chronicle) (answer : Answer) : Chronicle :=
  { chronicle with answers := answer :: chronicle.answers }

variable (options : BreakerOptions)

/-- The request goes to the first provider that may get it. -/
def attempt (chronicle : Chronicle) (start : Nat) : Chronicle :=
  match firstAdmitting options chronicle.now start chronicle.histories with
  | some provider => chronicle.send (.chat provider)
  | none => chronicle.answer (.threw true)

def finish (chronicle : Chronicle) (call : ProviderCall) : Outcome → Chronicle
  | .success =>
      (chronicle.tell call.provider .success).answer
        (.served call.provider (decide (0 < call.provider)))
  | .nonRetryable => chronicle.answer (.threw false)
  | .retryable =>
      let told := chronicle.tell call.provider (.failure chronicle.now)
      match call with
      | .chat provider => told.attempt options (provider + 1)
      | .embed => told.answer (.threw true)

def step (chronicle : Chronicle) : FallbackProvider.Action → Option Chronicle
  | .tick ms => some { chronicle with now := chronicle.now + ms }
  | .chat => some (chronicle.attempt options 0)
  | .embed =>
      chronicle.histories.head?.map fun first =>
        if first.admits options chronicle.now then
          chronicle.send .embed
        else
          chronicle.answer (.threw true)
  | .finish index outcome =>
      chronicle.calls[index]?.map fun call =>
        { chronicle with calls := chronicle.calls.eraseIdx index }.finish options call outcome

end Chronicle

/-- The chain of providers without breakers. -/
def chronicles (options : BreakerOptions) (providers : Nat) (start : Int) :
    Transition.System Chronicle FallbackProvider.Action where
  init := Chronicle.init providers start
  step := Chronicle.step options

/-- What the callers and the operators of a chain of providers see. -/
structure Seen where
  now : Int
  circuits : List CircuitState
  calls : List ProviderCall
  answers : List Answer
  deriving DecidableEq, Repr

def FallbackProvider.seen (options : BreakerOptions) (fallback : FallbackProvider) : Seen :=
  { now := fallback.now, circuits := fallback.chain.map (·.shown options fallback.now)
    calls := fallback.calls, answers := fallback.answers }

def Chronicle.seen (options : BreakerOptions) (chronicle : Chronicle) : Seen :=
  { now := chronicle.now, circuits := chronicle.histories.map (·.shown options chronicle.now)
    calls := chronicle.calls, answers := chronicle.answers }

/-! ## The breakers go by the histories -/

section

variable {options : BreakerOptions} {now : Int}

theorem firstAdmitting_nil (start : Nat) : firstAdmitting options now start [] = none := by
  rw [firstAdmitting, List.drop_nil]
  rfl

theorem firstAdmitting_succ (start : Nat) (first : History) (rest : List History) :
    firstAdmitting options now (start + 1) (first :: rest) =
      (firstAdmitting options now start rest).map (· + 1) := by
  rw [firstAdmitting, firstAdmitting, List.drop_succ_cons, Option.map_map]
  rfl

theorem firstAdmitting_zero (first : History) (rest : List History) :
    firstAdmitting options now 0 (first :: rest) =
      if first.admits options now then some 0
      else (firstAdmitting options now 0 rest).map (· + 1) := by
  rw [firstAdmitting, firstAdmitting, List.drop_zero, List.drop_zero, List.findIdx?_cons]
  split
  · rfl
  · rw [Option.map_map, Option.map_map]
    rfl

theorem forall₂_modify {α β : Type} {related : α → β → Prop} {items : List α}
    {others : List β} {change : α → α} {changeOther : β → β}
    (all : List.Forall₂ related items others) (index : Nat)
    (keeps : ∀ item other, related item other → related (change item) (changeOther other)) :
    List.Forall₂ related (items.modify index change) (others.modify index changeOther) := by
  induction all generalizing index with
  | nil => cases index <;> exact .nil
  | cons first rest ih =>
      cases index with
      | zero => exact .cons (keeps _ _ first) rest
      | succ index => exact .cons first (ih index)

/-- What is told to a provider behind the first one. -/
theorem told_behind {breaker : CircuitBreaker} {history : History} {told : Told}
    {chain : List CircuitBreaker} {histories : List History} {next : Option Nat}
    (remembers : breaker.Remembers options history)
    (behind : List.Forall₂ (CircuitBreaker.Remembers options) chain
      (next.elim histories fun provider => histories.modify provider (told :: ·))) :
    List.Forall₂ (CircuitBreaker.Remembers options) (breaker :: chain)
      ((next.map (· + 1)).elim (history :: histories) fun provider =>
        (history :: histories).modify provider (told :: ·)) := by
  cases next with
  | none => exact .cons remembers behind
  | some provider => exact .cons remembers behind

/-- The search for a provider finds the one that the histories speak for, and tells it. -/
theorem askFrom_remembers {chain : List CircuitBreaker} {histories : List History}
    (remember : List.Forall₂ (CircuitBreaker.Remembers options) chain histories) (start : Nat) :
    (askFrom options now start chain).2 = firstAdmitting options now start histories ∧
      List.Forall₂ (CircuitBreaker.Remembers options) (askFrom options now start chain).1
        ((firstAdmitting options now start histories).elim histories fun provider =>
          histories.modify provider (.allow now :: ·)) := by
  induction remember generalizing start with
  | nil =>
      rw [firstAdmitting_nil]
      cases start with
      | zero => exact ⟨rfl, .nil⟩
      | succ start => exact ⟨rfl, .nil⟩
  | @cons breaker history chain histories remembers rest ih =>
      cases start with
      | succ start =>
          rcases ih start with ⟨found, told⟩
          rw [firstAdmitting_succ, askFrom, found]
          exact ⟨rfl, told_behind remembers told⟩
      | zero =>
          rcases remembers.allow now with ⟨asked, admitted, refused⟩
          rw [firstAdmitting_zero, askFrom]
          cases admits : history.admits options now with
          | true =>
              have changed := admitted admits
              rw [admits] at asked
              rw [← Prod.eta (breaker.allow options now), asked]
              exact ⟨rfl, .cons changed rest⟩
          | false =>
              have same := refused admits
              rw [admits] at asked
              rcases ih 0 with ⟨found, told⟩
              rw [← Prod.eta (breaker.allow options now), asked, same]
              exact ⟨congrArg (Option.map (· + 1)) found, told_behind remembers told⟩

end

theorem map_shown {options : BreakerOptions} {now : Int} {chain : List CircuitBreaker}
    {histories : List History}
    (remember : List.Forall₂ (CircuitBreaker.Remembers options) chain histories) :
    chain.map (·.shown options now) = histories.map (·.shown options now) := by
  induction remember with
  | nil => rfl
  | cons remembers _ ih => rw [List.map_cons, List.map_cons, remembers.shown now, ih]

/-- The breakers of a chain remember the histories of its providers. -/
structure FallbackProvider.Follows (options : BreakerOptions) (fallback : FallbackProvider)
    (chronicle : Chronicle) : Prop where
  now : fallback.now = chronicle.now
  chain : List.Forall₂ (CircuitBreaker.Remembers options) fallback.chain chronicle.histories
  calls : fallback.calls = chronicle.calls
  answers : fallback.answers = chronicle.answers

namespace FallbackProvider.Follows

variable {options : BreakerOptions} {fallback : FallbackProvider} {chronicle : Chronicle}

theorem init (providers : Nat) (start : Int) :
    (FallbackProvider.init providers start).Follows options (.init providers start) := by
  refine ⟨rfl, ?_, rfl, rfl⟩
  change List.Forall₂ _ (List.replicate providers _) (List.replicate providers _)
  induction providers with
  | zero => exact .nil
  | succ providers ih => exact .cons .create ih

theorem seen (follows : fallback.Follows options chronicle) :
    fallback.seen options = chronicle.seen options := by
  rw [FallbackProvider.seen, Chronicle.seen, map_shown follows.chain, follows.now,
    follows.calls, follows.answers]

/-- A call tells a breaker. -/
theorem told (follows : fallback.Follows options chronicle)
    {change : CircuitBreaker → CircuitBreaker} {told : Told} (provider : Nat)
    (keeps : ∀ breaker history, CircuitBreaker.Remembers options breaker history →
      (change breaker).Remembers options (told :: history)) :
    Follows options { fallback with chain := fallback.chain.modify provider change }
      (chronicle.tell provider told) :=
  ⟨follows.now, forall₂_modify follows.chain provider keeps, follows.calls, follows.answers⟩

theorem answer (follows : fallback.Follows options chronicle) (answer : Answer) :
    Follows options { fallback with answers := answer :: fallback.answers }
      (chronicle.answer answer) :=
  ⟨follows.now, follows.chain, follows.calls, congrArg (answer :: ·) follows.answers⟩

theorem attempt (follows : fallback.Follows options chronicle) (start : Nat) :
    (fallback.attempt options start).Follows options (chronicle.attempt options start) := by
  rcases @askFrom_remembers options fallback.now _ _ follows.chain start with ⟨found, told⟩
  rw [FallbackProvider.attempt, Chronicle.attempt, ← follows.now]
  rw [← found] at told ⊢
  generalize askFrom options fallback.now start fallback.chain = asked at told ⊢
  rcases asked with ⟨chain, provider⟩
  cases provider with
  | none =>
      exact ⟨follows.now, told, follows.calls, congrArg (.threw true :: ·) follows.answers⟩
  | some provider =>
      refine ⟨follows.now, ?_, congrArg (· ++ [.chat provider]) follows.calls, follows.answers⟩
      rw [follows.now] at told
      exact told

theorem finish (follows : fallback.Follows options chronicle) (call : ProviderCall)
    (outcome : Outcome) :
    (fallback.finish options call outcome).Follows options
      (chronicle.finish options call outcome) := by
  cases outcome with
  | success =>
      exact (follows.told call.provider fun _ _ _ => .success).answer _
  | nonRetryable => exact follows.answer _
  | retryable =>
      have failed : Follows options
          { fallback with
            chain := fallback.chain.modify call.provider (·.failure options fallback.now) }
          (chronicle.tell call.provider (.failure chronicle.now)) := by
        rw [← follows.now]
        exact follows.told call.provider fun _ _ remembers => remembers.failure fallback.now
      cases call with
      | chat provider => exact failed.attempt (provider + 1)
      | embed => exact failed.answer (.threw true)

theorem step (follows : fallback.Follows options chronicle) (action : Action) :
    Option.Rel (Follows options) (fallback.step options action)
      (chronicle.step options action) := by
  cases action with
  | tick ms =>
      exact .some ⟨congrArg (· + (ms : Int)) follows.now, follows.chain, follows.calls,
        follows.answers⟩
  | chat => exact .some (follows.attempt 0)
  | embed =>
      rcases fallback with ⟨now, chain, calls, answers⟩
      rcases chronicle with ⟨_, histories, _, _⟩
      rcases follows with ⟨rfl, remember, rfl, rfl⟩
      cases remember with
      | nil => exact .none
      | @cons first history chain histories remembers rest =>
          rcases remembers.allow now with ⟨asked, admitted, refused⟩
          simp only [FallbackProvider.step, Chronicle.step, List.head?_cons, Option.map_some]
          cases admits : history.admits options now with
          | true =>
              have changed := admitted admits
              rw [admits] at asked
              rw [← Prod.eta (first.allow options now), asked]
              exact .some ⟨rfl, .cons changed rest, rfl, rfl⟩
          | false =>
              have same := refused admits
              rw [admits] at asked
              rw [← Prod.eta (first.allow options now), asked, same]
              exact .some ⟨rfl, .cons remembers rest, rfl, rfl⟩
  | finish index outcome =>
      rw [FallbackProvider.step, Chronicle.step, ← follows.calls]
      cases fallback.calls[index]? with
      | none => exact .none
      | some call =>
          have ended : Follows options { fallback with calls := fallback.calls.eraseIdx index }
              { chronicle with calls := fallback.calls.eraseIdx index } :=
            ⟨follows.now, follows.chain, rfl, follows.answers⟩
          exact .some (ended.finish call outcome)

end FallbackProvider.Follows

/-- The fallback provider serves, refuses and shows in every schedule of concurrent calls
what one does that reads the histories of its providers. -/
theorem fallback_goes_by_histories (options : BreakerOptions) (providers : Nat) (start : Int)
    (actions : List FallbackProvider.Action) :
    ((fallbackCalls options providers start).run actions).map (·.seen options) =
      ((chronicles options providers start).run actions).map (·.seen options) := by
  have inStep : Transition.System.InStep (FallbackProvider.Follows options)
      (fallbackCalls options providers start) (chronicles options providers start) :=
    { init := .init providers start, step := fun follows action => follows.step action }
  exact inStep.map_run (fun _ _ follows => follows.seen) actions

end WorkflowEngine.Providers
