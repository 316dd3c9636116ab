import WorkflowEngine.Middleware.RateLimit

/-!
# Refusals

A refusal names the time until the oldest counted request leaves the window.  Nothing is
recorded for a refused request, so the key stays as it is until the next request.
-/

namespace WorkflowEngine.Middleware

namespace Key

variable {key : Key} {limit windowMs : Nat} {now : Int}

/-- There is room for one more request. -/
theorem slidingWindow_of_room (pid seq : Nat)
    (room : (key.recent windowMs now).entries.length < limit) :
    ∃ remaining, (key.slidingWindow limit windowMs now pid seq).2 = some (.allowed remaining) := by
  simp only [slidingWindow, if_pos room]
  exact ⟨_, rfl⟩

/-- The oldest counted request decides how long to wait. -/
theorem slidingWindow_of_full (pid seq : Nat) {oldest : Int ×ₗ Member}
    {rest : List (Int ×ₗ Member)}
    (counted : (key.recent windowMs now).entries = oldest :: rest)
    (full : limit ≤ (key.recent windowMs now).entries.length) :
    key.slidingWindow limit windowMs now pid seq =
      ({ key with requests := key.recent windowMs now },
        some (.refused ((ofLex oldest).1 + windowMs - now))) := by
  simp only [slidingWindow, if_neg (not_lt.mpr full)]
  rw [counted, List.head?_cons, Option.map_some]

/-- A key without room has an oldest request. -/
theorem exists_oldest (positive : 1 ≤ limit)
    (full : limit ≤ (key.recent windowMs now).entries.length) :
    ∃ oldest rest, (key.recent windowMs now).entries = oldest :: rest := by
  cases counted : (key.recent windowMs now).entries with
  | nil =>
      rw [counted, List.length_nil] at full
      omega
  | cons oldest rest => exact ⟨oldest, rest, rfl⟩

/-- No request is older than the first one. -/
theorem le_score {oldest : Int ×ₗ Member} {rest : List (Int ×ₗ Member)} {set : SortedSet Member}
    (counted : set.entries = oldest :: rest) {entry : Int ×ₗ Member}
    (membership : entry ∈ set.entries) : (ofLex oldest).1 ≤ (ofLex entry).1 := by
  have sorted := set.sorted
  rw [counted] at sorted membership
  cases membership with
  | head => exact le_refl _
  | tail _ later =>
      have before := (List.pairwise_cons.mp sorted).1 entry later
      cases Prod.Lex.le_iff.mp before with
      | inl earlier => exact le_of_lt earlier
      | inr same => exact le_of_eq same.1

/-- Until the oldest request leaves the window all of them are counted. -/
theorem recent_eq_of_early {oldest : Int ×ₗ Member} {rest : List (Int ×ₗ Member)}
    (counted : key.requests.entries = oldest :: rest)
    (kept : (ofLex oldest).1 + windowMs ≤ key.expiresAt)
    (early : now < (ofLex oldest).1 + windowMs) :
    (key.recent windowMs now).entries = key.requests.entries := by
  have live : ¬ key.expiresAt < now := by omega
  rw [recent, if_neg live]
  apply List.filter_eq_self.mpr
  intro entry membership
  have older := le_score counted membership
  simp only [decide_eq_true_eq]
  omega

/-- When the oldest request has left the window fewer are counted. -/
theorem length_recent_of_due {oldest : Int ×ₗ Member} {rest : List (Int ×ₗ Member)}
    (counted : key.requests.entries = oldest :: rest)
    (due : now = (ofLex oldest).1 + windowMs) :
    (key.recent windowMs now).entries.length < key.requests.entries.length := by
  have fewer : (key.recent windowMs now).entries ⊆ rest := by
    intro entry membership
    have found := Limiter.mem_recent.mp membership
    have stored := found.2.1
    rw [counted] at stored
    cases stored with
    | head => omega
    | tail _ later => exact later
  have distinct : (key.recent windowMs now).entries.Nodup :=
    List.Nodup.of_map _ (key.recent windowMs now).nodup
  have bound := (List.subperm_of_subset distinct fewer).length_le
  rw [counted, List.length_cons]
  omega

end Key

/-- `Retry-After` is not shorter than the wait. -/
theorem retryAfter_covers (failClosed : Bool) (wait : Int) :
    ∃ seconds, rateLimitMiddleware failClosed (some (.refused wait)) = .tooManyRequests seconds ∧
      wait ≤ 1000 * seconds := by
  refine ⟨_, rfl, ?_⟩
  have longer : -((-wait) / 1000) ≤ max 1 (-((-wait) / 1000)) := le_max_right 1 _
  omega

namespace Limiter

/-- No request is executed. -/
def Action.isQuiet : Action → Bool
  | .execute _ => false
  | _ => true

/-- Every request that is executed now is allowed, or else every one is refused. -/
def Answers (limit windowMs : Nat) (limiter : Limiter) (allowed : Bool) : Prop :=
  ∀ index next, limiter.step limit windowMs (.execute index) = some next →
    ∃ request reply, next.log = ⟨limiter.now, request, some reply⟩ :: limiter.log ∧
      reply.isAllowed = allowed

/-- A refusal with this wait is justified, and the wait is as long as it must be. -/
structure RefusedFor (limit windowMs : Nat) (limiter next : Limiter) (wait : Int) : Prop where
  /-- the window is full -/
  full : limit ≤ limiter.allowedIn (limiter.now - windowMs) limiter.now
  positive : 0 < wait
  within : wait ≤ windowMs
  /-- a request before the wait is over is refused -/
  early : ∀ actions later, (∀ action ∈ actions, action.isQuiet = true) →
    (rateLimiter limit windowMs 0).runFrom next actions = some later →
      later.now < limiter.now + wait → later.Answers limit windowMs false
  /-- a request when the wait is over is allowed -/
  due : ∀ actions later, (∀ action ∈ actions, action.isQuiet = true) →
    (rateLimiter limit windowMs 0).runFrom next actions = some later →
      later.now = limiter.now + wait → later.Answers limit windowMs true
  header : ∀ failClosed, ∃ seconds,
    rateLimitMiddleware failClosed (some (.refused wait)) = .tooManyRequests seconds ∧
      wait ≤ 1000 * seconds

section Steps

variable {limit windowMs : Nat} {limiter next : Limiter}

/-- What a request that is executed does to the key and to the log. -/
theorem step_execute {index : Nat}
    (taken : limiter.step limit windowMs (.execute index) = some next) :
    ∃ request : Request, next.now = limiter.now ∧
      next.key = (limiter.key.slidingWindow limit windowMs limiter.now request.process.pid
        request.seq).1 ∧
      next.log = ⟨limiter.now, request, (limiter.key.slidingWindow limit windowMs limiter.now
        request.process.pid request.seq).2⟩ :: limiter.log := by
  simp only [step] at taken
  cases Option.map_eq_some_iff.mp taken with
  | intro request found =>
      cases found.2
      exact ⟨request, rfl, rfl, rfl⟩

/-- A quiet step leaves the key as it is. -/
theorem step_quiet {action : Action} (quiet : action.isQuiet = true)
    (taken : limiter.step limit windowMs action = some next) :
    next.key = limiter.key ∧ limiter.now ≤ next.now := by
  cases action with
  | tick ms =>
      cases taken
      constructor
      · rfl
      · show limiter.now ≤ limiter.now + ms
        omega
  | request process =>
      cases taken
      exact ⟨rfl, le_refl limiter.now⟩
  | lose index =>
      cases taken
      exact ⟨rfl, le_refl limiter.now⟩
  | execute index => cases quiet

/-- The key is left as it is until the next request. -/
theorem run_quiet {start : Int} {actions : List Action} {later : Limiter}
    (quiet : ∀ action ∈ actions, action.isQuiet = true)
    (replay : (rateLimiter limit windowMs start).runFrom limiter actions = some later) :
    later.key = limiter.key ∧ limiter.now ≤ later.now := by
  induction actions generalizing limiter with
  | nil =>
      cases replay
      exact ⟨rfl, le_refl later.now⟩
  | cons action rest ih =>
      simp only [Transition.System.runFrom] at replay
      cases Option.bind_eq_some_iff.mp replay with
      | intro next found =>
          have first : next.key = limiter.key ∧ limiter.now ≤ next.now :=
            step_quiet (quiet action List.mem_cons_self) found.1
          have others := ih
            (fun action membership => quiet action (List.mem_cons_of_mem _ membership)) found.2
          exact ⟨others.1.trans first.1, le_trans first.2 others.2⟩

/-- There is room for every request that is executed now. -/
theorem answers_of_room
    (room : (limiter.key.recent windowMs limiter.now).entries.length < limit) :
    limiter.Answers limit windowMs true := by
  intro index next taken
  cases step_execute taken with
  | intro request executed =>
      have logged := executed.2.2
      cases Key.slidingWindow_of_room request.process.pid request.seq room with
      | intro remaining allowed =>
          rw [allowed] at logged
          exact ⟨request, _, logged, rfl⟩

/-- There is room for no request that is executed now. -/
theorem answers_of_full (positive : 1 ≤ limit)
    (full : limit ≤ (limiter.key.recent windowMs limiter.now).entries.length) :
    limiter.Answers limit windowMs false := by
  intro index next taken
  rcases Key.exists_oldest positive full with ⟨oldest, rest, counted⟩
  cases step_execute taken with
  | intro request executed =>
      have logged := executed.2.2
      rw [Key.slidingWindow_of_full _ _ counted full] at logged
      exact ⟨request, _, logged, rfl⟩

end Steps

/-- No more requests are kept than the limit. -/
def Bounded (limit : Nat) (limiter : Limiter) : Prop :=
  limiter.key.requests.entries.length ≤ limit

/-- The script counts no more requests than the key keeps. -/
theorem length_recent_le (key : Key) (windowMs : Nat) (now : Int) :
    (key.recent windowMs now).entries.length ≤ key.requests.entries.length := by
  apply List.Subperm.length_le
  apply List.subperm_of_subset
  · exact List.Nodup.of_map _ (key.recent windowMs now).nodup
  · intro entry membership
    exact (mem_recent.mp membership).2.1

theorem Bounded.step {limit windowMs : Nat} {limiter next : Limiter} {action : Action}
    (bounded : limiter.Bounded limit)
    (taken : limiter.step limit windowMs action = some next) : next.Bounded limit := by
  cases action with
  | tick ms =>
      cases taken
      exact bounded
  | request process =>
      cases taken
      exact bounded
  | lose index =>
      cases taken
      exact bounded
  | execute index =>
      rcases step_execute taken with ⟨request, _, key, _⟩
      rw [Bounded, key, Key.slidingWindow]
      by_cases room : (limiter.key.recent windowMs limiter.now).entries.length < limit
      · simp only [if_pos room]
        have one := SortedSet.length_add_le (limiter.key.recent windowMs limiter.now) limiter.now
          ⟨limiter.now, request.process.pid, request.seq⟩
        omega
      · simp only [if_neg room]
        exact le_trans (length_recent_le _ _ _) bounded

/-- What is refused is refused for as long as the oldest counted request stays. -/
theorem refusedFor {limit windowMs : Nat} {limiter next : Limiter}
    {oldest : Int ×ₗ Member} {rest : List (Int ×ₗ Member)} (positive : 1 ≤ limit)
    (counts : limiter.Counts windowMs) (bounded : limiter.Bounded limit)
    (counted : (limiter.key.recent windowMs limiter.now).entries = oldest :: rest)
    (full : limit ≤ (limiter.key.recent windowMs limiter.now).entries.length)
    (key : next.key =
      { limiter.key with requests := limiter.key.recent windowMs limiter.now }) :
    limiter.RefusedFor limit windowMs next ((ofLex oldest).1 + windowMs - limiter.now) := by
  have first : oldest ∈ (limiter.key.recent windowMs limiter.now).entries := by
    rw [counted]
    exact List.mem_cons_self
  rcases mem_recent.mp first with ⟨_, stored, inside⟩
  have kept := counts.kept oldest stored
  have remaining : next.key.requests.entries = oldest :: rest := by
    rw [key]
    exact counted
  have lasts : (ofLex oldest).1 + windowMs ≤ next.key.expiresAt := by
    rw [key]
    exact kept.2
  have held : next.key.requests.entries = (limiter.key.recent windowMs limiter.now).entries := by
    rw [key]
  constructor
  · exact le_trans full counts.length_le
  · omega
  · omega
  · intro actions later quiet replay early
    have same := (run_quiet quiet replay).1
    apply answers_of_full positive
    rw [same, Key.recent_eq_of_early remaining lasts (by omega), held]
    exact full
  · intro actions later quiet replay due
    have same := (run_quiet quiet replay).1
    apply answers_of_room
    have fewer : (next.key.recent windowMs later.now).entries.length <
        next.key.requests.entries.length :=
      Key.length_recent_of_due remaining (by omega)
    have most := le_trans (length_recent_le limiter.key windowMs limiter.now) bounded
    rw [same]
    rw [held] at fewer
    exact lt_of_lt_of_le fewer most
  · intro failClosed
    exact retryAfter_covers failClosed _

/-- An entry of the window is still there. -/
theorem Counts.live {windowMs : Nat} {limiter : Limiter} (counts : limiter.Counts windowMs)
    {entry : Int ×ₗ Member} (stored : entry ∈ limiter.key.requests.entries)
    (inside : limiter.now - windowMs < (ofLex entry).1) : ¬ limiter.key.expiresAt < limiter.now := by
  have kept := (counts.kept entry stored).2
  omega

end Limiter

/-- Refusals are exact, in every schedule: the key is not deleted while it holds a request of
the window, every command is answered, and a refusal is as long as the window is full. -/
theorem refusals_exact {limit windowMs : Nat} {start : Int} {limiter : Limiter}
    (positive : 1 ≤ limit) (reachable : (rateLimiter limit windowMs start).Reachable limiter) :
    (∀ entry ∈ limiter.key.requests.entries, limiter.now - windowMs < (ofLex entry).1 →
      ¬ limiter.key.expiresAt < limiter.now) ∧
    ∀ index next, limiter.step limit windowMs (.execute index) = some next →
      ∃ request reply, next.log = ⟨limiter.now, request, some reply⟩ :: limiter.log ∧
        ∀ wait, reply = .refused wait → limiter.RefusedFor limit windowMs next wait := by
  have counts : limiter.Counts windowMs :=
    reachable.invariant (Limiter.counts_init windowMs start)
      fun _ _ _ counts _ taken => counts.step taken
  have bounded : limiter.Bounded limit :=
    reachable.invariant (Nat.zero_le limit) fun _ _ _ bounded _ taken => bounded.step taken
  constructor
  · intro entry stored inside
    exact counts.live stored inside
  · intro index next taken
    rcases Limiter.step_execute taken with ⟨request, _, key, logged⟩
    by_cases room : (limiter.key.recent windowMs limiter.now).entries.length < limit
    · cases Key.slidingWindow_of_room request.process.pid request.seq room with
      | intro remaining allowed =>
          rw [allowed] at logged
          exact ⟨request, _, logged, nofun⟩
    · have full := not_lt.mp room
      rcases Key.exists_oldest positive full with ⟨oldest, rest, counted⟩
      rw [Key.slidingWindow_of_full _ _ counted full] at key logged
      refine ⟨request, _, logged, ?_⟩
      intro wait refused
      cases refused
      exact Limiter.refusedFor positive counts bounded counted full key

namespace Schedule

/-- Two requests are allowed, 400 ms apart, and a third one is on its way 100 ms later. -/
def thirdOnItsWay : List Limiter.Action :=
  [.request ⟨0, 1⟩, .execute 0, .tick 400, .request ⟨0, 1⟩, .execute 0, .tick 100,
    .request ⟨1, 7⟩]

end Schedule

theorem thirdOnItsWay_isSome :
    ((rateLimiter 2 1000 0).run Schedule.thirdOnItsWay).isSome = true := by
  decide

theorem refusals_exact_thirdOnItsWay :
    ∃ limiter next, (rateLimiter 2 1000 0).run Schedule.thirdOnItsWay = some limiter ∧
      limiter.step 2 1000 (.execute 0) = some next ∧ limiter.RefusedFor 2 1000 next 500 := by
  have executes : ((((rateLimiter 2 1000 0).run Schedule.thirdOnItsWay).get
    thirdOnItsWay_isSome).step 2 1000 (.execute 0)).isSome = true := by decide
  have taken := (Option.some_get executes).symm
  have reachable := Transition.System.get_run_reachable (rateLimiter 2 1000 0)
    Schedule.thirdOnItsWay thirdOnItsWay_isSome
  rcases (refusals_exact (by decide) reachable).2 0 _ taken with ⟨request, reply, logged, justified⟩
  have refused : some reply = some (.refused 500) :=
    (congrArg (fun log : List Served => log.head?.bind Served.reply) logged).symm
  exact ⟨_, _, (Option.some_get thirdOnItsWay_isSome).symm, taken, justified 500 (Option.some.inj refused)⟩

end WorkflowEngine.Middleware
