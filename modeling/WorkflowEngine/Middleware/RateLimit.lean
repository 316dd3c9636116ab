import WorkflowEngine.Foundations.SortedSet
import WorkflowEngine.Foundations.Transition

/-!
# The sliding-window rate limiter

API processes on any number of hosts count the requests of one limiter key in one
sorted set.  The script runs as one command of Redis.  The member that it adds for a
request is made of the time, the pid and the sequence number of the process.  Processes
of two hosts may have one pid, so two requests may be recorded as one member.
-/

namespace WorkflowEngine.Middleware

/-- `now .. '-' .. ARGV[3]`, where the argument is the pid and the sequence number. -/
structure Member where
  now : Int
  pid : Nat
  seq : Nat
  deriving DecidableEq

/-- Redis orders the members of one score as strings; here any order of them will do. -/
instance : LinearOrder Member :=
  .lift' (fun member => toLex (member.now, toLex (member.pid, member.seq))) <| by
    rintro ⟨now, pid, seq⟩ ⟨now', pid', seq'⟩ same
    cases toLex.injective same
    rfl

/-- The key of one limiter. -/
structure Key where
  requests : SortedSet Member
  /-- the key is deleted after this time -/
  expiresAt : Int
  deriving DecidableEq

/-- What the script returns. -/
inductive Reply where
  | allowed (remaining : Nat)
  | refused (retryAfterMs : Int)
  deriving DecidableEq

namespace Reply

def isAllowed : Reply → Bool
  | .allowed _ => true
  | .refused _ => false

end Reply

namespace Key

def empty : Key :=
  { requests := .empty, expiresAt := 0 }

/-- The requests that the script counts. -/
def recent (key : Key) (windowMs : Nat) (now : Int) : SortedSet Member :=
  (if key.expiresAt < now then SortedSet.empty else key.requests).remUpTo (now - windowMs)

/-- `SLIDING_WINDOW`; no reply when there is no oldest request to read. -/
def slidingWindow (key : Key) (limit windowMs : Nat) (now : Int) (pid seq : Nat) :
    Key × Option Reply :=
  let requests := key.recent windowMs now
  let count := requests.entries.length
  if count < limit then
    ({ requests := requests.add now ⟨now, pid, seq⟩, expiresAt := now + windowMs },
      some (.allowed (limit - count - 1)))
  else
    ({ key with requests }, requests.entries.head?.map fun oldest =>
      .refused ((ofLex oldest).1 + windowMs - now))

end Key

/-- What becomes of a request. -/
inductive Response where
  | next
  /-- 429 RATE_LIMITED -/
  | tooManyRequests (retryAfterSeconds : Int)
  /-- 503 RATE_LIMITER_UNAVAILABLE -/
  | unavailable
  deriving DecidableEq

/-- The middleware after the script; no reply is an error. -/
def rateLimitMiddleware (failClosed : Bool) : Option Reply → Response
  | none => if failClosed then .unavailable else .next
  | some (.allowed _) => .next
  | some (.refused retryAfterMs) => .tooManyRequests (max 1 (-((-retryAfterMs) / 1000)))

/-! ## Processes -/

/-- One process of the API. -/
structure Process where
  host : Nat
  pid : Nat
  deriving DecidableEq

/-- A command on its way to Redis. -/
structure Request where
  process : Process
  seq : Nat
  deriving DecidableEq

/-- A command that Redis has run. -/
structure Served where
  now : Int
  request : Request
  reply : Option Reply
  deriving DecidableEq

/-- One limiter key and the processes that use it. -/
structure Limiter where
  /-- the time of Redis -/
  now : Int
  key : Key
  /-- how many requests each process has numbered -/
  seq : Process → Nat
  sent : List Request
  /-- newest first -/
  log : List Served

namespace Limiter

inductive Action where
  /-- time passes -/
  | tick (ms : Nat)
  /-- a request arrives at a process -/
  | request (process : Process)
  /-- a command arrives at Redis -/
  | execute (index : Nat)
  /-- a command is lost -/
  | lose (index : Nat)

def init (start : Int) : Limiter :=
  { now := start, key := .empty, seq := fun _ => 0, sent := [], log := [] }

/-- The member of a request that is executed now. -/
def member (limiter : Limiter) (request : Request) : Member :=
  ⟨limiter.now, request.process.pid, request.seq⟩

def execute (limit windowMs : Nat) (limiter : Limiter) (request : Request) : Limiter :=
  let outcome := limiter.key.slidingWindow limit windowMs limiter.now request.process.pid
    request.seq
  { limiter with
    key := outcome.1, log := ⟨limiter.now, request, outcome.2⟩ :: limiter.log }

def step (limit windowMs : Nat) (limiter : Limiter) : Action → Option Limiter
  | .tick ms => some { limiter with now := limiter.now + ms }
  | .request process =>
      let seq := limiter.seq process + 1
      some { limiter with
        seq := Function.update limiter.seq process seq
        sent := limiter.sent ++ [⟨process, seq⟩] }
  | .execute index =>
      limiter.sent[index]?.map fun request =>
        { limiter.execute limit windowMs request with sent := limiter.sent.eraseIdx index }
  | .lose index => some { limiter with sent := limiter.sent.eraseIdx index }

end Limiter

/-- Any number of processes that use one limiter key. -/
def rateLimiter (limit windowMs : Nat) (start : Int) :
    Transition.System Limiter Limiter.Action where
  init := Limiter.init start
  step := Limiter.step limit windowMs

namespace Served

/-- The script allowed the request. -/
def isAllowed (served : Served) : Bool :=
  served.reply.any Reply.isAllowed

/-- The member that was recorded for the request. -/
def member (served : Served) : Member :=
  ⟨served.now, served.request.process.pid, served.request.seq⟩

/-- The request was allowed in this half-open window. -/
def allowedIn (after upTo : Int) (served : Served) : Bool :=
  served.isAllowed && decide (after < served.now) && decide (served.now ≤ upTo)

end Served

namespace Limiter

/-- How many requests were allowed in this half-open window. -/
def allowedIn (limiter : Limiter) (after upTo : Int) : Nat :=
  limiter.log.countP (Served.allowedIn after upTo)

/-- The next request is allowed, and recorded as a member that the set has already. -/
def collides (limit windowMs : Nat) (limiter : Limiter) : Action → Bool
  | .execute index =>
      limiter.sent[index]?.any fun request =>
        let requests := limiter.key.recent windowMs limiter.now
        decide (requests.entries.length < limit) && decide (limiter.member request ∈ requests)
  | _ => false

/-- The set counts the requests of the last window. -/
structure Inv (limit windowMs : Nat) (limiter : Limiter) : Prop where
  past : ∀ served ∈ limiter.log, served.now ≤ limiter.now
  recorded : ∀ served ∈ limiter.log,
    served.allowedIn (limiter.now - windowMs) limiter.now = true →
      toLex (served.now, served.member) ∈ limiter.key.requests.entries
  distinct : ((limiter.log.filter (Served.allowedIn (limiter.now - windowMs) limiter.now)).map
    Served.member).Nodup
  kept : ∀ entry ∈ limiter.key.requests.entries, (ofLex entry).1 ≤ limiter.now ∧
    (ofLex entry).1 + windowMs ≤ limiter.key.expiresAt
  source : ∀ entry ∈ limiter.key.requests.entries, ∃ served ∈ limiter.log,
    served.isAllowed = true ∧ toLex (served.now, served.member) = entry
  within : ∀ upTo, limiter.allowedIn (upTo - windowMs) upTo ≤ limit

theorem mem_recent {key : Key} {windowMs : Nat} {now : Int} {entry : Int ×ₗ Member} :
    entry ∈ (key.recent windowMs now).entries ↔
      ¬ key.expiresAt < now ∧ entry ∈ key.requests.entries ∧ now - windowMs < (ofLex entry).1 := by
  rw [Key.recent, SortedSet.mem_entries_remUpTo]
  split
  · next expired => simp [expired, SortedSet.empty]
  · next live => simp [live]

/-- The key holds requests that were allowed, each until it leaves the window. -/
structure Counts (windowMs : Nat) (limiter : Limiter) : Prop where
  past : ∀ served ∈ limiter.log, served.now ≤ limiter.now
  kept : ∀ entry ∈ limiter.key.requests.entries, (ofLex entry).1 ≤ limiter.now ∧
    (ofLex entry).1 + windowMs ≤ limiter.key.expiresAt
  source : ∀ entry ∈ limiter.key.requests.entries, ∃ served ∈ limiter.log,
    served.isAllowed = true ∧ toLex (served.now, served.member) = entry

namespace Counts

variable {limit windowMs : Nat} {limiter : Limiter} (counts : limiter.Counts windowMs)
include counts

/-- The script counts only requests that it allowed in the last window. -/
theorem length_le : (limiter.key.recent windowMs limiter.now).entries.length ≤
    limiter.allowedIn (limiter.now - windowMs) limiter.now := by
  have allowed : (limiter.key.recent windowMs limiter.now).entries ⊆
      (limiter.log.filter (Served.allowedIn (limiter.now - windowMs) limiter.now)).map
        fun served => toLex (served.now, served.member) := by
    intro entry membership
    rcases Limiter.mem_recent.mp membership with ⟨_, stored, late⟩
    rcases counts.source entry stored with ⟨served, logged, isAllowed, rfl⟩
    refine List.mem_map.mpr ⟨served, List.mem_filter.mpr ⟨logged, ?_⟩, rfl⟩
    rw [ofLex_toLex] at late
    simp only [Served.allowedIn, isAllowed, Bool.true_and, Bool.and_eq_true, decide_eq_true_eq]
    exact ⟨late, counts.past served logged⟩
  have distinct : (limiter.key.recent windowMs limiter.now).entries.Nodup :=
    List.Nodup.of_map _ (limiter.key.recent windowMs limiter.now).nodup
  have fewer := (List.subperm_of_subset distinct allowed).length_le
  rw [List.length_map, ← List.countP_eq_length_filter] at fewer
  exact fewer

theorem tick (ms : Nat) : Counts windowMs { limiter with now := limiter.now + ms } := by
  constructor
  · intro served membership
    have past := counts.past served membership
    show served.now ≤ limiter.now + ms
    omega
  · intro entry membership
    have kept := counts.kept entry membership
    exact ⟨by show (ofLex entry).1 ≤ limiter.now + ms; omega, kept.2⟩
  · exact counts.source

/-- The request of a new entry of the log was not later than now. -/
theorem past_cons {request : Request} {reply : Option Reply} :
    ∀ served ∈ (⟨limiter.now, request, reply⟩ :: limiter.log : List Served),
      served.now ≤ limiter.now := by
  intro served membership
  cases membership with
  | head => exact le_refl limiter.now
  | tail _ before => exact counts.past served before

/-- A request that is counted was in the log before the new one. -/
theorem source_recent {entry : Int ×ₗ Member} (newest : Served)
    (counted : entry ∈ (limiter.key.recent windowMs limiter.now).entries) :
    ∃ served ∈ newest :: limiter.log,
      served.isAllowed = true ∧ toLex (served.now, served.member) = entry := by
  cases counts.source entry (Limiter.mem_recent.mp counted).2.1 with
  | intro served found => exact ⟨served, List.mem_cons_of_mem _ found.1, found.2⟩

theorem allow (request : Request) (remaining : Nat) :
    Counts windowMs { limiter with
      key :=
        { requests := (limiter.key.recent windowMs limiter.now).add limiter.now
            (limiter.member request)
          expiresAt := limiter.now + windowMs }
      log := ⟨limiter.now, request, some (.allowed remaining)⟩ :: limiter.log } := by
  refine ⟨counts.past_cons, ?_, ?_⟩
  · intro entry membership
    rcases SortedSet.mem_entries_add.mp membership with rfl | ⟨counted, _⟩
    · exact ⟨le_refl limiter.now, le_refl (limiter.now + windowMs)⟩
    · have kept := (counts.kept entry (Limiter.mem_recent.mp counted).2.1).1
      exact ⟨kept, by show (ofLex entry).1 + windowMs ≤ limiter.now + windowMs; omega⟩
  · intro entry membership
    rcases SortedSet.mem_entries_add.mp membership with rfl | ⟨counted, _⟩
    · exact ⟨_, List.mem_cons_self, rfl, rfl⟩
    · exact counts.source_recent _ counted

theorem refuse (request : Request) (reply : Option Reply) :
    Counts windowMs { limiter with
      key := { limiter.key with requests := limiter.key.recent windowMs limiter.now }
      log := ⟨limiter.now, request, reply⟩ :: limiter.log } := by
  refine ⟨counts.past_cons, ?_, ?_⟩
  · intro entry counted
    exact counts.kept entry (Limiter.mem_recent.mp counted).2.1
  · intro entry counted
    exact counts.source_recent _ counted

theorem execute (request : Request) :
    Counts windowMs (limiter.execute limit windowMs request) := by
  simp only [Limiter.execute, Key.slidingWindow]
  by_cases room : (limiter.key.recent windowMs limiter.now).entries.length < limit
  · simp only [if_pos room]
    exact counts.allow request _
  · simp only [if_neg room]
    exact counts.refuse request _

end Counts

theorem counts_init (windowMs : Nat) (start : Int) : Counts windowMs (init start) :=
  ⟨nofun, nofun, nofun⟩

theorem Counts.step {limit windowMs : Nat} {limiter next : Limiter} {action : Action}
    (counts : limiter.Counts windowMs)
    (taken : limiter.step limit windowMs action = some next) : next.Counts windowMs := by
  cases action with
  | tick ms =>
      cases taken
      exact counts.tick ms
  | request process =>
      cases taken
      exact ⟨counts.past, counts.kept, counts.source⟩
  | lose index =>
      cases taken
      exact ⟨counts.past, counts.kept, counts.source⟩
  | execute index =>
      simp only [Limiter.step] at taken
      rcases Option.map_eq_some_iff.mp taken with ⟨request, _, rfl⟩
      have executed : Counts windowMs (limiter.execute limit windowMs request) :=
        counts.execute request
      exact ⟨executed.past, executed.kept, executed.source⟩

/-- A stronger condition chooses fewer items. -/
theorem filter_sublist_of_imp {α : Type} {narrow wide : α → Bool} {items : List α}
    (wider : ∀ item ∈ items, narrow item = true → wide item = true) :
    (items.filter narrow).Sublist (items.filter wide) := by
  have same : items.filter narrow = (items.filter wide).filter narrow := by
    rw [List.filter_filter]
    apply List.filter_congr
    intro item membership
    cases chosen : narrow item with
    | false => rfl
    | true => rw [wider item membership chosen, Bool.true_and]
  rw [same]
  exact List.filter_sublist

/-- A later window that ends now has every request of a window that ends later. -/
theorem allowedIn_of_later {windowMs : Nat} {now upTo : Int} {served : Served}
    (past : served.now ≤ now) (later : now ≤ upTo)
    (allowed : served.allowedIn (upTo - windowMs) upTo = true) :
    served.allowedIn (now - windowMs) now = true := by
  simp only [Served.allowedIn, Bool.and_eq_true, decide_eq_true_eq] at allowed ⊢
  exact ⟨⟨allowed.1.1, by omega⟩, past⟩

namespace Inv

variable {limit windowMs : Nat} {limiter : Limiter} (inv : limiter.Inv limit windowMs)
include inv

theorem counts : limiter.Counts windowMs :=
  ⟨inv.past, inv.kept, inv.source⟩

/-- A request of the last window is counted. -/
theorem mem_recent {served : Served} (membership : served ∈ limiter.log)
    (allowed : served.allowedIn (limiter.now - windowMs) limiter.now = true) :
    toLex (served.now, served.member) ∈ (limiter.key.recent windowMs limiter.now).entries := by
  have stored := inv.recorded served membership allowed
  have kept := (inv.kept _ stored).2
  simp only [Served.allowedIn, Bool.and_eq_true, decide_eq_true_eq] at allowed
  refine Limiter.mem_recent.mpr ⟨?_, stored, allowed.1.2⟩
  rw [ofLex_toLex] at kept
  omega

/-- Every request of the last window is counted. -/
theorem count_le : limiter.log.countP (Served.allowedIn (limiter.now - windowMs) limiter.now) ≤
    (limiter.key.recent windowMs limiter.now).entries.length := by
  have counted : ((limiter.log.filter
      (Served.allowedIn (limiter.now - windowMs) limiter.now)).map Served.member) ⊆
        (limiter.key.recent windowMs limiter.now).members := by
    intro member membership
    rcases List.mem_map.mp membership with ⟨served, chosen, rfl⟩
    rcases List.mem_filter.mp chosen with ⟨logged, allowed⟩
    exact List.mem_map.mpr ⟨_, inv.mem_recent logged allowed, rfl⟩
  have fewer := (List.subperm_of_subset inv.distinct counted).length_le
  rw [List.length_map, SortedSet.members, List.length_map, ← List.countP_eq_length_filter] at fewer
  exact fewer

/-- Time passes. -/
theorem tick (ms : Nat) : Inv limit windowMs { limiter with now := limiter.now + ms } := by
  have earlier : ∀ served ∈ limiter.log,
      served.allowedIn (limiter.now + ms - windowMs) (limiter.now + ms) = true →
        served.allowedIn (limiter.now - windowMs) limiter.now = true :=
    fun served membership => allowedIn_of_later (inv.past served membership) (by omega)
  have counts := inv.counts.tick ms
  refine ⟨counts.past, ?_, ?_, counts.kept, counts.source, inv.within⟩
  · intro served membership allowed
    exact inv.recorded served membership (earlier served membership allowed)
  · exact List.Nodup.sublist ((filter_sublist_of_imp earlier).map _) inv.distinct

/-- A request is allowed and recorded as a new member. -/
theorem allow {request : Request} {remaining : Nat}
    (room : (limiter.key.recent windowMs limiter.now).entries.length < limit)
    (new : limiter.member request ∉ limiter.key.recent windowMs limiter.now) :
    Inv limit windowMs { limiter with
      key :=
        { requests := (limiter.key.recent windowMs limiter.now).add limiter.now
            (limiter.member request)
          expiresAt := limiter.now + windowMs }
      log := ⟨limiter.now, request, some (.allowed remaining)⟩ :: limiter.log } := by
  have apart : ∀ served ∈ limiter.log,
      served.allowedIn (limiter.now - windowMs) limiter.now = true →
        served.member ≠ limiter.member request := by
    intro served membership allowed same
    exact new (List.mem_map.mpr ⟨_, inv.mem_recent membership allowed, same⟩)
  have counts := inv.counts.allow request remaining
  refine ⟨counts.past, ?_, ?_, counts.kept, counts.source, ?_⟩
  · intro served membership allowed
    apply SortedSet.mem_entries_add.mpr
    rcases List.mem_cons.mp membership with rfl | before
    · exact .inl rfl
    · exact .inr ⟨inv.mem_recent before allowed, apart served before allowed⟩
  · simp only [List.filter_cons]
    split
    · refine List.nodup_cons.mpr ⟨?_, inv.distinct⟩
      intro taken
      rcases List.mem_map.mp taken with ⟨served, chosen, same⟩
      rcases List.mem_filter.mp chosen with ⟨logged, allowed⟩
      exact apart served logged allowed same
    · exact inv.distinct
  · intro upTo
    rw [allowedIn, List.countP_cons]
    by_cases later : limiter.now ≤ upTo
    · -- the earlier requests of the window are still counted now
      have counted : limiter.log.countP (Served.allowedIn (upTo - windowMs) upTo) ≤
          limiter.log.countP (Served.allowedIn (limiter.now - windowMs) limiter.now) :=
        List.countP_mono_left fun served membership allowed =>
          allowedIn_of_later (inv.past served membership) later allowed
      have fewer := inv.count_le
      split <;> omega
    · have outside : Served.allowedIn (upTo - windowMs) upTo
          ⟨limiter.now, request, some (.allowed remaining)⟩ = false := by
        simp [Served.allowedIn, later]
      rw [if_neg (by rw [outside]; exact Bool.false_ne_true)]
      exact inv.within upTo

/-- A request is refused. -/
theorem refuse {request : Request} {reply : Option Reply}
    (refused : reply.any Reply.isAllowed = false) :
    Inv limit windowMs { limiter with
      key := { limiter.key with requests := limiter.key.recent windowMs limiter.now }
      log := ⟨limiter.now, request, reply⟩ :: limiter.log } := by
  have outside : ∀ after upTo,
      Served.allowedIn after upTo ⟨limiter.now, request, reply⟩ = false := by
    intro after upTo
    simp [Served.allowedIn, Served.isAllowed, refused]
  have counts := inv.counts.refuse request reply
  refine ⟨counts.past, ?_, ?_, counts.kept, counts.source, ?_⟩
  · intro served membership allowed
    rcases List.mem_cons.mp membership with rfl | before
    · rw [outside] at allowed
      cases allowed
    · exact inv.mem_recent before allowed
  · rw [List.filter_cons_of_neg (by rw [outside]; exact Bool.false_ne_true)]
    exact inv.distinct
  · intro upTo
    rw [allowedIn, List.countP_cons_of_neg (by rw [outside]; exact Bool.false_ne_true)]
    exact inv.within upTo

/-- A command is run that does not collide. -/
theorem execute {request : Request}
    (apart : (limiter.key.recent windowMs limiter.now).entries.length < limit →
      limiter.member request ∉ limiter.key.recent windowMs limiter.now) :
    Inv limit windowMs (limiter.execute limit windowMs request) := by
  unfold Limiter.execute Key.slidingWindow
  by_cases room : (limiter.key.recent windowMs limiter.now).entries.length < limit
  · simp only [if_pos room]
    exact inv.allow room (apart room)
  · simp only [if_neg room]
    apply inv.refuse
    cases (limiter.key.recent windowMs limiter.now).entries.head? with
    | none => rfl
    | some oldest => rfl

/-- The script counts exactly the requests that it allowed in the last window. -/
theorem count_eq : limiter.allowedIn (limiter.now - windowMs) limiter.now =
    (limiter.key.recent windowMs limiter.now).entries.length :=
  Nat.le_antisymm inv.count_le inv.counts.length_le

/-- After a collision the script has allowed a request that it does not count. -/
theorem undercounts {request : Request} (positive : 0 < windowMs)
    (room : (limiter.key.recent windowMs limiter.now).entries.length < limit)
    (taken : limiter.member request ∈ limiter.key.recent windowMs limiter.now) :
    ((limiter.execute limit windowMs request).key.requests).entries.length <
      (limiter.execute limit windowMs request).allowedIn (limiter.now - windowMs)
        limiter.now := by
  have counted := inv.count_eq
  unfold Limiter.execute Key.slidingWindow
  simp only [if_pos room]
  have same : ((limiter.key.recent windowMs limiter.now).add limiter.now
      (limiter.member request)).entries.length =
        (limiter.key.recent windowMs limiter.now).entries.length :=
    SortedSet.length_add_of_mem taken
  have inside : Served.allowedIn (limiter.now - windowMs) limiter.now
      ⟨limiter.now, request, some (.allowed
        (limit - (limiter.key.recent windowMs limiter.now).entries.length - 1))⟩ = true := by
    simp only [Served.allowedIn, Served.isAllowed, Reply.isAllowed, Option.any_some,
      Bool.true_and, Bool.and_eq_true, decide_eq_true_eq]
    exact ⟨by omega, le_refl limiter.now⟩
  show ((limiter.key.recent windowMs limiter.now).add limiter.now
    (limiter.member request)).entries.length < _
  rw [same, allowedIn, List.countP_cons_of_pos inside, ← counted]
  exact Nat.lt_succ_self _

end Inv

theorem inv_init (limit windowMs : Nat) (start : Int) : Inv limit windowMs (init start) :=
  ⟨nofun, nofun, .nil, nofun, nofun, fun _ => Nat.zero_le limit⟩

theorem Inv.step {limit windowMs : Nat} {limiter next : Limiter} {action : Action}
    (inv : limiter.Inv limit windowMs) (apart : limiter.collides limit windowMs action = false)
    (taken : limiter.step limit windowMs action = some next) : next.Inv limit windowMs := by
  cases action with
  | tick ms =>
      cases taken
      exact inv.tick ms
  | request process =>
      cases taken
      exact ⟨inv.past, inv.recorded, inv.distinct, inv.kept, inv.source, inv.within⟩
  | lose index =>
      cases taken
      exact ⟨inv.past, inv.recorded, inv.distinct, inv.kept, inv.source, inv.within⟩
  | execute index =>
      simp only [Limiter.step] at taken
      rcases Option.map_eq_some_iff.mp taken with ⟨request, arrives, rfl⟩
      simp only [collides, arrives, Option.any_some, Bool.and_eq_false_iff,
        decide_eq_false_iff_not] at apart
      have executed := inv.execute fun room => apart.resolve_left (not_not.mpr room)
      exact ⟨executed.past, executed.recorded, executed.distinct, executed.kept,
        executed.source, executed.within⟩

end Limiter

/-- In no window are more requests allowed than the limit, in every schedule in which no
request is recorded as the member of another one. -/
theorem window_respected {limit windowMs : Nat} {start : Int} {limiter : Limiter}
    (reachable : (rateLimiter limit windowMs start).ReachableBy
      (fun limiter action => limiter.collides limit windowMs action = false) limiter)
    (upTo : Int) : limiter.allowedIn (upTo - windowMs) upTo ≤ limit := by
  have inv := reachable.invariant (Limiter.inv_init limit windowMs start)
    fun _ _ _ inv apart taken => inv.step apart taken
  exact inv.within upTo

namespace Schedule

/-- Two hosts number their first requests alike, and both are executed in one
millisecond. -/
def samePid : List Limiter.Action :=
  [.request ⟨0, 1⟩, .request ⟨1, 1⟩, .request ⟨0, 1⟩, .execute 0, .execute 0]

/-- Of three requests to two hosts the third one is refused. -/
def otherPid : List Limiter.Action :=
  [.request ⟨0, 1⟩, .request ⟨1, 7⟩, .request ⟨0, 1⟩, .execute 0, .execute 0, .execute 0]

end Schedule

theorem window_respected_otherPid :
    (((rateLimiter 2 1000 0).runBy (fun limiter action => !limiter.collides 2 1000 action)
      (.init 0) Schedule.otherPid).get (by decide)).allowedIn (0 - 1000) 0 ≤ 2 :=
  @window_respected 2 1000 0 _
    ((Transition.System.get_runBy_reachableBy (rateLimiter 2 1000 0)
      (fun limiter action => !limiter.collides 2 1000 action) Schedule.otherPid (by decide)).mono
        fun _ _ apart => Bool.not_eq_eq_eq_not.mp apart) 0

/-- Two requests are recorded as one member, and a third one is allowed. -/
theorem not_window_respected :
    ¬ ∀ limiter : Limiter, (rateLimiter 2 1000 0).Reachable limiter →
      ∀ upTo, limiter.allowedIn (upTo - 1000) upTo ≤ 2 := by
  intro always
  have within := always _ (Transition.System.get_run_reachable (rateLimiter 2 1000 0)
    (Schedule.samePid ++ [.execute 0]) (by decide)) 0
  exact absurd within (by decide)

end WorkflowEngine.Middleware
