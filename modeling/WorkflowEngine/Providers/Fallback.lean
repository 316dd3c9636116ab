import WorkflowEngine.Providers.CircuitBreaker

/-!
# The fallback provider

Several providers in order, each behind a circuit breaker.  Concurrent calls of `chat` go
from one provider to the next, calls of `embed` use the first one only.  What happens
between two replies of providers is one step.
-/

namespace WorkflowEngine.Providers

/-- How a call of a provider ends. -/
inductive Outcome where
  | success
  /-- an error, unless it says `retryable: false` -/
  | retryable
  | nonRetryable
  deriving DecidableEq, Repr

/-- A call that waits for a provider. -/
inductive ProviderCall where
  | chat (provider : Nat)
  | embed
  deriving DecidableEq, Repr

/-- The provider that the call waits for. -/
def ProviderCall.provider : ProviderCall → Nat
  | .chat provider => provider
  | .embed => 0

/-- What a call returned. -/
inductive Answer where
  | served (provider : Nat) (fallbackUsed : Bool)
  | threw (retryable : Bool)
  deriving DecidableEq, Repr

/-- The breakers of the chain and the calls in flight. -/
structure FallbackProvider where
  now : Int
  chain : List CircuitBreaker
  calls : List ProviderCall
  /-- newest first -/
  answers : List Answer
  deriving DecidableEq, Repr

/-- The first provider from this index on whose breaker admits a call. -/
def askFrom (options : BreakerOptions) (now : Int) :
    Nat → List CircuitBreaker → List CircuitBreaker × Option Nat
  | _, [] => ([], none)
  | start + 1, breaker :: rest =>
      let asked := askFrom options now start rest
      (breaker :: asked.1, asked.2.map (· + 1))
  | 0, breaker :: rest =>
      match breaker.allow options now with
      | (breaker, true) => (breaker :: rest, some 0)
      | (breaker, false) =>
          let asked := askFrom options now 0 rest
          (breaker :: asked.1, asked.2.map (· + 1))

namespace FallbackProvider

inductive Action where
  /-- time passes -/
  | tick (ms : Nat)
  | chat
  | embed
  /-- a provider answers one of the calls in flight -/
  | finish (call : Nat) (outcome : Outcome)

def init (providers : Nat) (start : Int) : FallbackProvider :=
  { now := start, chain := List.replicate providers .create, calls := [], answers := [] }

variable (options : BreakerOptions)

/-- Try the providers from this index on. -/
def attempt (fallback : FallbackProvider) (start : Nat) : FallbackProvider :=
  match askFrom options fallback.now start fallback.chain with
  | (chain, some provider) => { fallback with chain, calls := fallback.calls ++ [.chat provider] }
  -- nobody left: a retryable error, so that the task retries later
  | (chain, none) => { fallback with chain, answers := .threw true :: fallback.answers }

/-- The provider of a call in flight has answered. -/
def finish (fallback : FallbackProvider) (call : ProviderCall) :
    Outcome → FallbackProvider
  | .success =>
      { fallback with
        chain := fallback.chain.modify call.provider .success
        answers := .served call.provider (decide (0 < call.provider)) :: fallback.answers }
  | .nonRetryable => { fallback with answers := .threw false :: fallback.answers }
  | .retryable =>
      let failed :=
        { fallback with
          chain := fallback.chain.modify call.provider (·.failure options fallback.now) }
      match call with
      | .chat provider => failed.attempt options (provider + 1)
      | .embed => { failed with answers := .threw true :: failed.answers }

def step (fallback : FallbackProvider) : Action → Option FallbackProvider
  | .tick ms => some { fallback with now := fallback.now + ms }
  | .chat => some (fallback.attempt options 0)
  | .embed =>
      match fallback.chain with
      | [] => none
      | first :: rest =>
          match first.allow options fallback.now with
          | (first, true) =>
              some { fallback with chain := first :: rest, calls := fallback.calls ++ [.embed] }
          | (first, false) =>
              some { fallback with
                chain := first :: rest, answers := .threw true :: fallback.answers }
  | .finish index outcome =>
      fallback.calls[index]?.map fun call =>
        { fallback with calls := fallback.calls.eraseIdx index }.finish options call outcome

end FallbackProvider

/-- Any number of concurrent calls through one chain of providers. -/
def fallbackCalls (options : BreakerOptions) (providers : Nat) (start : Int) :
    Transition.System FallbackProvider FallbackProvider.Action where
  init := FallbackProvider.init providers start
  step := FallbackProvider.step options

/-- What a search for a provider changes: at most the breaker that admits the call. -/
theorem admit_cases {options : BreakerOptions} {now : Int} {start : Nat}
    {chain : List CircuitBreaker} (trying : ∀ breaker ∈ chain, breaker.Trying) :
    askFrom options now start chain = (chain, none) ∨
      ∃ index breaker admitting, chain[index]? = some breaker ∧
        breaker.allow options now = (admitting, true) ∧
          askFrom options now start chain = (chain.set index admitting, some index) := by
  induction chain generalizing start with
  | nil => exact .inl (by cases start <;> rfl)
  | cons first rest ih =>
      have later := fun start => @ih start fun breaker membership =>
        trying breaker (List.mem_cons_of_mem _ membership)
      cases start with
      | succ start =>
          rcases later start with none | ⟨index, breaker, admitting, found, allowed, asked⟩
          · exact .inl (by simp only [askFrom, none]; rfl)
          · exact .inr ⟨index + 1, breaker, admitting, found, allowed, by
              simp only [askFrom, asked]; rfl⟩
      | zero =>
          cases asked : first.allow options now with
          | mk changed admitted =>
              cases admitted with
              | true => exact .inr ⟨0, first, changed, rfl, asked, by simp only [askFrom, asked]; rfl⟩
              | false =>
                  have same : changed = first := by
                    rcases CircuitBreaker.allow_cases (trying first List.mem_cons_self) now with
                      ⟨_, other⟩ | ⟨_, other⟩ | ⟨_, _, other⟩
                    · cases asked.symm.trans other
                    · cases asked.symm.trans other
                    · exact congrArg Prod.fst (asked.symm.trans other)
                  subst same
                  rcases later 0 with none | ⟨index, breaker, admitting, found, allowed, searched⟩
                  · exact .inl (by simp only [askFrom, asked, none]; rfl)
                  · exact .inr ⟨index + 1, breaker, admitting, found, allowed, by
                      simp only [askFrom, asked, searched]; rfl⟩

/-- A breaker that has admitted a call tries it, if the circuit is not CLOSED. -/
theorem CircuitBreaker.trying_of_allow {options : BreakerOptions} {now : Int}
    {breaker admitting : CircuitBreaker} (trying : breaker.Trying)
    (allowed : breaker.allow options now = (admitting, true)) :
    admitting.Trying ∧ admitting.state ≠ .opened := by
  rcases CircuitBreaker.allow_cases trying now with ⟨closed, asked⟩ | ⟨_, asked⟩ | ⟨_, _, asked⟩
  · cases allowed.symm.trans asked
    exact ⟨trying, by rw [closed]; exact nofun⟩
  · cases allowed.symm.trans asked
    exact ⟨fun _ => rfl, nofun⟩
  · cases allowed.symm.trans asked

/-- After a failure an open circuit has not been opened in the future. -/
theorem CircuitBreaker.failure_openedAt {options : BreakerOptions} {breaker : CircuitBreaker}
    {now : Int} (past : breaker.state = .opened → breaker.openedAt ≤ now)
    (opened : (breaker.failure options now).state = .opened) :
    (breaker.failure options now).openedAt ≤ now := by
  simp only [failure] at opened ⊢
  split
  · exact Int.le_refl now
  · next quiet =>
    rw [if_neg quiet] at opened
    exact past opened

/-- Another call than the one that ends stays in flight. -/
theorem mem_eraseIdx_of_ne {α : Type} {items : List α} {index : Nat} {item other : α}
    (found : items[index]? = some item) (membership : other ∈ items) (different : other ≠ item) :
    other ∈ items.eraseIdx index := by
  rcases List.getElem?_eq_some_iff.mp found with ⟨inside, rfl⟩
  have moved := (List.getElem_cons_eraseIdx_perm inside).mem_iff.mpr membership
  exact (List.mem_cons.mp moved).resolve_left different

namespace FallbackProvider

/-- A call ends with a non-retryable error while its provider's circuit is HALF_OPEN, and no
other call of this provider is in flight. -/
def strands (fallback : FallbackProvider) : Action → Bool
  | .finish index .nonRetryable =>
      fallback.calls[index]?.any fun call =>
        fallback.chain[call.provider]?.any (fun breaker => decide (breaker.state = .halfOpen)) &&
          (fallback.calls.eraseIdx index).all fun other => other.provider != call.provider
  | _ => false

/-- Every circuit that is HALF_OPEN is tried by a call in flight. -/
structure Inv (fallback : FallbackProvider) : Prop where
  trying : ∀ breaker ∈ fallback.chain, breaker.Trying
  past : ∀ breaker ∈ fallback.chain, breaker.state = .opened → breaker.openedAt ≤ fallback.now
  tried : ∀ index breaker, fallback.chain[index]? = some breaker → breaker.state = .halfOpen →
    ∃ call ∈ fallback.calls, call.provider = index

theorem inv_init (providers : Nat) (start : Int) : (init providers start).Inv := by
  have created : ∀ breaker ∈ (init providers start).chain, breaker = .create :=
    fun breaker membership => List.eq_of_mem_replicate membership
  refine ⟨?_, ?_, ?_⟩
  · intro breaker membership
    rw [created breaker membership]
    exact CircuitBreaker.trying_create
  · intro breaker membership opened
    rw [created breaker membership] at opened
    cases opened
  · intro index breaker found halfOpen
    rw [created breaker (List.mem_of_getElem? found)] at halfOpen
    cases halfOpen

namespace Inv

variable {options : BreakerOptions} {fallback : FallbackProvider} (inv : fallback.Inv)
include inv

/-- The breaker of a provider admits a call, which is then in flight. -/
theorem admitted {index : Nat} {breaker admitting : CircuitBreaker} {call : ProviderCall}
    (found : fallback.chain[index]? = some breaker)
    (allowed : breaker.allow options fallback.now = (admitting, true))
    (isProvider : call.provider = index) :
    Inv { fallback with
      chain := fallback.chain.set index admitting, calls := fallback.calls ++ [call] } := by
  have tries := CircuitBreaker.trying_of_allow (inv.trying breaker (List.mem_of_getElem? found))
    allowed
  refine ⟨?_, ?_, ?_⟩
  · intro other membership
    rcases List.mem_or_eq_of_mem_set membership with before | rfl
    · exact inv.trying other before
    · exact tries.1
  · intro other membership opened
    rcases List.mem_or_eq_of_mem_set membership with before | rfl
    · exact inv.past other before opened
    · exact absurd opened tries.2
  · intro place other there halfOpen
    by_cases same : index = place
    · exact ⟨call, List.mem_append_right _ List.mem_cons_self, isProvider.trans same⟩
    · rw [List.getElem?_set_ne same] at there
      rcases inv.tried place other there halfOpen with ⟨own, membership, isPlace⟩
      exact ⟨own, List.mem_append_left _ membership, isPlace⟩

theorem attempt (start : Nat) : (fallback.attempt options start).Inv := by
  unfold FallbackProvider.attempt
  rcases @admit_cases options fallback.now start fallback.chain inv.trying with
    asked | ⟨index, breaker, admitting, found, allowed, asked⟩
  · rw [asked]
    exact ⟨inv.trying, inv.past, inv.tried⟩
  · rw [asked]
    exact inv.admitted found allowed rfl

/-- A call in flight has reported to its breaker. -/
theorem reported {index : Nat} {call : ProviderCall} {report : CircuitBreaker → CircuitBreaker}
    (found : fallback.calls[index]? = some call)
    (settles : ∀ breaker, (report breaker).state ≠ .halfOpen)
    (past : ∀ breaker ∈ fallback.chain, (report breaker).state = .opened →
      (report breaker).openedAt ≤ fallback.now) :
    Inv { fallback with
      chain := fallback.chain.modify call.provider report
      calls := fallback.calls.eraseIdx index } := by
  have source : ∀ breaker ∈ fallback.chain.modify call.provider report,
      breaker ∈ fallback.chain ∨ ∃ before ∈ fallback.chain, report before = breaker := by
    intro breaker membership
    rcases List.mem_iff_getElem?.mp membership with ⟨place, there⟩
    rw [List.getElem?_modify] at there
    rcases Option.map_eq_some_iff.mp there with ⟨before, stood, rfl⟩
    split
    · exact .inr ⟨before, List.mem_of_getElem? stood, rfl⟩
    · exact .inl (List.mem_of_getElem? stood)
  refine ⟨?_, ?_, ?_⟩
  · intro breaker membership
    rcases source breaker membership with before | ⟨before, _, rfl⟩
    · exact inv.trying breaker before
    · exact fun halfOpen => absurd halfOpen (settles before)
  · intro breaker membership opened
    rcases source breaker membership with before | ⟨before, stood, rfl⟩
    · exact inv.past breaker before opened
    · exact past before stood opened
  · intro place breaker there halfOpen
    rw [List.getElem?_modify] at there
    rcases Option.map_eq_some_iff.mp there with ⟨before, stood, rfl⟩
    by_cases own : call.provider = place
    · rw [if_pos own] at halfOpen
      exact absurd halfOpen (settles before)
    · rw [if_neg own] at halfOpen
      rcases inv.tried place before stood halfOpen with ⟨other, membership, isPlace⟩
      refine ⟨other, ?_, isPlace⟩
      exact mem_eraseIdx_of_ne found membership fun same => own (same ▸ isPlace)

theorem finish {index : Nat} {call : ProviderCall} {outcome : Outcome}
    (kept : fallback.strands (.finish index outcome) = false)
    (found : fallback.calls[index]? = some call) :
    ({ fallback with calls := fallback.calls.eraseIdx index }.finish options call outcome).Inv := by
  cases outcome with
  | success =>
      have settled := @reported fallback inv index call .success found (fun _ => nofun) nofun
      exact ⟨settled.trying, settled.past, settled.tried⟩
  | retryable =>
      have failed := @reported fallback inv index call (·.failure options fallback.now) found
        (fun breaker => breaker.failure_state fallback.now)
        fun breaker membership => breaker.failure_openedAt (inv.past breaker membership)
      cases call with
      | chat provider => exact failed.attempt (provider + 1)
      | embed => exact ⟨failed.trying, failed.past, failed.tried⟩
  | nonRetryable =>
      refine ⟨inv.trying, inv.past, ?_⟩
      intro place breaker there halfOpen
      change fallback.chain[place]? = some breaker at there
      by_cases own : call.provider = place
      · -- the circuit is HALF_OPEN, so some other call tries it
        subst own
        rw [strands, found, Option.any_some, there, Option.any_some, decide_eq_true halfOpen,
          Bool.true_and, List.all_eq_false] at kept
        rcases kept with ⟨other, membership, same⟩
        exact ⟨other, membership, by simpa using same⟩
      · rcases inv.tried place breaker there halfOpen with ⟨other, membership, isPlace⟩
        refine ⟨other, ?_, isPlace⟩
        exact mem_eraseIdx_of_ne found membership fun same => own (same ▸ isPlace)

theorem step {action : Action} {next : FallbackProvider}
    (kept : fallback.strands action = false)
    (taken : fallback.step options action = some next) : next.Inv := by
  cases action with
  | tick ms =>
      cases taken
      refine ⟨inv.trying, ?_, inv.tried⟩
      intro breaker membership opened
      have before := inv.past breaker membership opened
      show breaker.openedAt ≤ fallback.now + ms
      omega
  | chat =>
      cases taken
      exact inv.attempt 0
  | embed =>
      rcases fallback with ⟨now, chain, calls, answers⟩
      cases chain with
      | nil => cases taken
      | cons first rest =>
          simp only [FallbackProvider.step] at taken
          split at taken
          · next admitting allowed =>
            cases taken
            exact @admitted options _ inv 0 first admitting .embed rfl allowed rfl
          · next refusing refused =>
            cases taken
            rcases CircuitBreaker.allow_cases (inv.trying first List.mem_cons_self) now with
              ⟨_, asked⟩ | ⟨_, asked⟩ | ⟨_, _, asked⟩
            · cases refused.symm.trans asked
            · cases refused.symm.trans asked
            · cases refused.symm.trans asked
              exact ⟨inv.trying, inv.past, inv.tried⟩
  | finish index outcome =>
      simp only [FallbackProvider.step] at taken
      rcases Option.map_eq_some_iff.mp taken with ⟨call, found, rfl⟩
      exact inv.finish kept found

/-- When no call is in flight, every breaker admits a call after the cooldown. -/
theorem recovers (idle : fallback.calls = []) {breaker : CircuitBreaker}
    (membership : breaker ∈ fallback.chain) {later : Int}
    (cooled : fallback.now + options.cooldownMs ≤ later) :
    (breaker.allow options later).2 = true := by
  rcases CircuitBreaker.allow_cases (inv.trying breaker membership) later with
    ⟨_, asked⟩ | ⟨_, asked⟩ | ⟨notClosed, notCooled, _⟩
  · rw [asked]
  · rw [asked]
  · cases state : breaker.state with
    | closed => exact absurd state notClosed
    | opened =>
        have past := inv.past breaker membership state
        rw [CircuitBreaker.cooled, decide_eq_true state, Bool.true_and,
          decide_eq_false_iff_not] at notCooled
        omega
    | halfOpen =>
        rcases List.mem_iff_getElem?.mp membership with ⟨index, found⟩
        rcases inv.tried index breaker found state with ⟨call, inFlight, _⟩
        rw [idle] at inFlight
        exact absurd inFlight List.not_mem_nil

end Inv

/-! ## A circuit that is stranded -/

/-- The circuit of a provider is HALF_OPEN and no call tries it. -/
structure Stranded (provider : Nat) (fallback : FallbackProvider) : Prop where
  trying : ∀ breaker ∈ fallback.chain, breaker.Trying
  halfOpen : ∃ breaker, fallback.chain[provider]? = some breaker ∧ breaker.state = .halfOpen
  alone : ∀ call ∈ fallback.calls, call.provider ≠ provider

theorem Inv.stranded {options : BreakerOptions} {fallback next : FallbackProvider} {index : Nat}
    (inv : fallback.Inv) (strands : fallback.strands (.finish index .nonRetryable) = true)
    (taken : fallback.step options (.finish index .nonRetryable) = some next) :
    ∃ provider, next.Stranded provider := by
  simp only [FallbackProvider.step] at taken
  rcases Option.map_eq_some_iff.mp taken with ⟨call, found, rfl⟩
  rw [FallbackProvider.strands, found, Option.any_some, Bool.and_eq_true] at strands
  rcases (Option.any_eq_true _ _).mp strands.1 with ⟨breaker, there, halfOpen⟩
  refine ⟨call.provider, inv.trying, ⟨breaker, there, of_decide_eq_true halfOpen⟩, ?_⟩
  intro other membership
  exact bne_iff_ne.mp (List.all_eq_true.mp strands.2 other membership)

namespace Stranded

variable {options : BreakerOptions} {provider : Nat} {fallback : FallbackProvider}
  (stranded : fallback.Stranded provider)
include stranded

/-- The breaker refuses every call, however long the circuit has been HALF_OPEN. -/
theorem refuses {breaker : CircuitBreaker} (there : fallback.chain[provider]? = some breaker)
    (now : Int) : breaker.allow options now = (breaker, false) := by
  rcases stranded.halfOpen with ⟨own, stands, halfOpen⟩
  cases stands.symm.trans there
  rcases CircuitBreaker.allow_cases (stranded.trying breaker (List.mem_of_getElem? there)) now with
    ⟨closed, _⟩ | ⟨cooled, _⟩ | ⟨_, _, asked⟩
  · cases halfOpen.symm.trans closed
  · rw [CircuitBreaker.cooled, halfOpen] at cooled
    cases cooled
  · exact asked

theorem admitted {index : Nat} {breaker admitting : CircuitBreaker} {call : ProviderCall}
    (found : fallback.chain[index]? = some breaker)
    (allowed : breaker.allow options fallback.now = (admitting, true))
    (isProvider : call.provider = index) :
    Stranded provider { fallback with
      chain := fallback.chain.set index admitting, calls := fallback.calls ++ [call] } := by
  have apart : index ≠ provider := by
    rintro rfl
    cases (stranded.refuses found fallback.now).symm.trans allowed
  refine ⟨?_, ?_, ?_⟩
  · intro other membership
    rcases List.mem_or_eq_of_mem_set membership with before | rfl
    · exact stranded.trying other before
    · exact (CircuitBreaker.trying_of_allow
        (stranded.trying breaker (List.mem_of_getElem? found)) allowed).1
  · rcases stranded.halfOpen with ⟨own, stands, halfOpen⟩
    exact ⟨own, by rw [List.getElem?_set_ne apart]; exact stands, halfOpen⟩
  · intro other membership
    rcases List.mem_append.mp membership with before | new
    · exact stranded.alone other before
    · rw [List.mem_singleton.mp new, isProvider]
      exact apart

theorem attempt (start : Nat) : (fallback.attempt options start).Stranded provider := by
  unfold FallbackProvider.attempt
  rcases @admit_cases options fallback.now start fallback.chain stranded.trying with
    asked | ⟨index, breaker, admitting, found, allowed, asked⟩
  · rw [asked]
    exact ⟨stranded.trying, stranded.halfOpen, stranded.alone⟩
  · rw [asked]
    exact stranded.admitted found allowed rfl

/-- A call of another provider reports. -/
theorem reported {index : Nat} {call : ProviderCall} {report : CircuitBreaker → CircuitBreaker}
    (found : fallback.calls[index]? = some call) (settles : ∀ breaker, (report breaker).Trying) :
    Stranded provider { fallback with
      chain := fallback.chain.modify call.provider report
      calls := fallback.calls.eraseIdx index } := by
  refine ⟨?_, ?_, ?_⟩
  · intro breaker membership
    rcases List.mem_iff_getElem?.mp membership with ⟨place, there⟩
    rw [List.getElem?_modify] at there
    rcases Option.map_eq_some_iff.mp there with ⟨before, stood, rfl⟩
    split
    · exact settles before
    · exact stranded.trying before (List.mem_of_getElem? stood)
  · rcases stranded.halfOpen with ⟨own, stands, halfOpen⟩
    have apart := stranded.alone call (List.mem_of_getElem? found)
    refine ⟨own, ?_, halfOpen⟩
    rw [List.getElem?_modify, stands]
    exact congrArg some (if_neg apart)
  · exact fun other membership => stranded.alone other (List.mem_of_mem_eraseIdx membership)

/-- No step ends it. -/
theorem step {action : Action} {next : FallbackProvider}
    (taken : fallback.step options action = some next) : next.Stranded provider := by
  cases action with
  | tick ms =>
      cases taken
      exact ⟨stranded.trying, stranded.halfOpen, stranded.alone⟩
  | chat =>
      cases taken
      exact stranded.attempt 0
  | embed =>
      rcases fallback with ⟨now, chain, calls, answers⟩
      cases chain with
      | nil => cases taken
      | cons first rest =>
          simp only [FallbackProvider.step] at taken
          split at taken
          · next admitting allowed =>
            cases taken
            exact @admitted options provider _ stranded 0 first admitting .embed rfl allowed rfl
          · next refusing refused =>
            cases taken
            rcases CircuitBreaker.allow_cases (stranded.trying first List.mem_cons_self) now with
              ⟨_, asked⟩ | ⟨_, asked⟩ | ⟨_, _, asked⟩
            · cases refused.symm.trans asked
            · cases refused.symm.trans asked
            · cases refused.symm.trans asked
              exact ⟨stranded.trying, stranded.halfOpen, stranded.alone⟩
  | finish index outcome =>
      simp only [FallbackProvider.step] at taken
      rcases Option.map_eq_some_iff.mp taken with ⟨call, found, rfl⟩
      cases outcome with
      | success =>
          have settled := @reported provider fallback stranded index call .success found
            CircuitBreaker.trying_success
          exact ⟨settled.trying, settled.halfOpen, settled.alone⟩
      | nonRetryable =>
          exact ⟨stranded.trying, stranded.halfOpen, fun other membership =>
            stranded.alone other (List.mem_of_mem_eraseIdx membership)⟩
      | retryable =>
          have failed := @reported provider fallback stranded index call
            (·.failure options fallback.now) found (·.trying_failure fallback.now)
          cases call with
          | chat own => exact failed.attempt (own + 1)
          | embed => exact ⟨failed.trying, failed.halfOpen, failed.alone⟩

end Stranded

/-- A stranded circuit refuses calls forever. -/
theorem Stranded.forever {options : BreakerOptions} {providers provider : Nat} {start : Int}
    {fallback later : FallbackProvider} (stranded : fallback.Stranded provider)
    (leads : (fallbackCalls options providers start).Leads fallback later) :
    later.Stranded provider := by
  induction leads with
  | refl => exact stranded
  | tail _ taken ih =>
      rcases taken with ⟨_, taken⟩
      exact ih.step taken

end FallbackProvider

/-- A circuit recovers, in every schedule in which no call that ends with a non-retryable
error leaves a HALF_OPEN circuit without a call in flight. -/
theorem circuit_recovers {options : BreakerOptions} {providers : Nat} {start : Int}
    {fallback : FallbackProvider}
    (reachable : (fallbackCalls options providers start).ReachableBy
      (fun fallback action => fallback.strands action = false) fallback)
    (idle : fallback.calls = []) :
    ∀ breaker ∈ fallback.chain, ∀ later, fallback.now + options.cooldownMs ≤ later →
      (breaker.allow options later).2 = true := by
  have inv : fallback.Inv := reachable.invariant (FallbackProvider.inv_init providers start)
    fun _ _ _ inv kept taken => inv.step kept taken
  exact fun breaker membership later cooled => inv.recovers idle membership cooled

namespace Schedule

/-- The only provider fails; after the cooldown a call probes it. -/
def probing : List FallbackProvider.Action :=
  [.chat, .finish 0 .retryable, .tick 1000, .chat]

end Schedule

theorem circuit_recovers_probing :
    (((fallbackCalls Schedule.nervous 1 0).runBy
      (fun fallback action => !fallback.strands action) (.init 1 0)
      (Schedule.probing ++ [.finish 0 .retryable])).get (by decide)).chain.all
        (fun breaker => (breaker.allow Schedule.nervous 2000).2) = true := by
  have reachable := Transition.System.get_runBy_reachableBy (fallbackCalls Schedule.nervous 1 0)
    (fun fallback action => !fallback.strands action)
    (Schedule.probing ++ [.finish 0 .retryable]) (by decide)
  apply List.all_eq_true.mpr
  intro breaker membership
  exact circuit_recovers (reachable.mono fun _ _ kept => Bool.not_eq_eq_eq_not.mp kept)
    (by decide) breaker membership 2000 (by decide)

/-- The probe ends with a non-retryable error. -/
theorem not_circuit_recovers :
    ¬ ∀ fallback : FallbackProvider, (fallbackCalls Schedule.nervous 1 0).Reachable fallback →
      fallback.calls = [] → ∀ breaker ∈ fallback.chain, ∀ later,
        fallback.now + Schedule.nervous.cooldownMs ≤ later →
          (breaker.allow Schedule.nervous later).2 = true := by
  intro always
  have allowed := always _ (Transition.System.get_run_reachable
    (fallbackCalls Schedule.nervous 1 0) (Schedule.probing ++ [.finish 0 .nonRetryable])
      (by decide)) (by decide) ⟨.halfOpen, 1, 0, true⟩ (by decide) 2000 (by decide)
  exact absurd allowed (by decide)

end WorkflowEngine.Providers
