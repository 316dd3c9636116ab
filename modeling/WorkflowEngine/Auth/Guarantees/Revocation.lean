import WorkflowEngine.Auth.History

/-!
# Revocation is final

A refresh succeeds only on the current token version of the user, a token signed
from a user that was read before a revocation is never accepted by a refresh that
reads the user after it, and an access token carries the role that was read.
-/

namespace WorkflowEngine.Auth

open DocStore

variable {deps : Deps} {start : Start} {state : State}

/-- A login or a refresh returned these tokens. -/
def Issued (history : List Event) (call : CallId) (tokens : IssuedTokens) : Prop :=
  (∃ user, .loggedIn call user tokens ∈ history) ∨ ∃ token, .refreshed call token tokens ∈ history

/-- The call read this user, who was stored like this at that moment. -/
def ReadUser (start : Start) (history : List Event) (call : CallId) (user : Account) : Prop :=
  ∃ before after, history = before ++ .read call (some user) :: after ∧
    (usersAfter start.users before).findById user.id = some user

namespace Inv

theorem readUser (inv : Inv deps start state) {call : CallId} {user : Account}
    (read : .read call (some user) ∈ state.history) : ReadUser start state.history call user := by
  obtain ⟨before, after, split⟩ := List.append_of_mem read
  exact ⟨before, after, split, inv.reads before after call user split⟩

/-- What a call returns is signed from the user that it read. -/
theorem issued (inv : Inv deps start state) {call : CallId} {tokens : IssuedTokens}
    (issued : Issued state.history call tokens) :
    ∃ user, .read call (some user) ∈ state.history ∧ ∃ now, tokens = issueTokens deps user now := by
  rcases issued with ⟨user, loggedIn⟩ | ⟨token, refreshed⟩
  · exact ⟨user, inv.loggedIn call user tokens loggedIn⟩
  · obtain ⟨user, read, _, _, signed⟩ := inv.refreshed call token tokens refreshed
    exact ⟨user, read, signed⟩

/-- A revocation between two reads of a user is seen by the second one. -/
theorem version_lt (inv : Inv deps start state) {call later : CallId} {user found : Account}
    {revocation : Event} (revokes : revocation.revokes user.id = true) (same : found.id = user.id)
    (order : List.Sublist [.read call (some user), revocation, .read later (some found)]
      state.history) : user.tokenVersion < found.tokenVersion := by
  obtain ⟨upTo, rest, split, readFirst, order⟩ := List.cons_sublist_iff.mp order
  obtain ⟨middle, final, rest_eq, revoked, order⟩ := List.cons_sublist_iff.mp order
  obtain ⟨before, between, upTo_eq⟩ := List.append_of_mem readFirst
  obtain ⟨ahead, after, final_eq⟩ := List.append_of_mem (List.singleton_sublist.mp order)
  have first := inv.reads before (between ++ (middle ++ final)) call user (by
    rw [split, upTo_eq, rest_eq, List.append_assoc, List.cons_append])
  have second := inv.reads
    (before ++ .read call (some user) :: (between ++ (middle ++ ahead))) after later found (by
      simp [split, upTo_eq, rest_eq, final_eq])
  obtain ⟨current, foundCurrent, counted⟩ :=
    version_usersAfter (.read call (some user) :: (between ++ (middle ++ ahead))) first
  rw [usersAfter_append, same, foundCurrent] at second
  cases second
  rw [counted]
  have positive : 0 < middle.countP (Event.revokes user.id) :=
    List.countP_pos_iff.mpr ⟨revocation, revoked, revokes⟩
  simp only [List.countP_cons, List.countP_append]
  omega

end Inv

/-- However the calls of the service interleave: a refresh succeeds only for a token
whose version is the one of the user when the refresh reads it; a token signed from
a user read before a revocation is never what a refresh that reads after it accepts;
and every access token carries the role that the call read. -/
theorem revocation_is_final (reachable : (system deps start).Reachable state) :
    (∀ call token tokens, .refreshed call token tokens ∈ state.history →
      ∃ user, ReadUser start state.history call user ∧ user.id = token.claims.sub ∧
        token.claims.tv = some user.tokenVersion) ∧
    (∀ call later user found revocation tokens token refreshed,
      List.Sublist [.read call (some user), revocation, .read later found] state.history →
      Event.revokes user.id revocation = true → Issued state.history call tokens →
      .refreshed later token refreshed ∈ state.history → token ≠ tokens.refreshToken) ∧
    ∀ call tokens, Issued state.history call tokens →
      ∃ user, ReadUser start state.history call user ∧
        tokens.accessToken.claims.sub = user.id ∧
        tokens.accessToken.claims.role = some user.role := by
  have inv := inv_of_reachable reachable
  refine ⟨?_, ?_, ?_⟩
  · intro call token tokens refreshed
    obtain ⟨user, read, isUser, current, _⟩ := inv.refreshed call token tokens refreshed
    exact ⟨user, inv.readUser read, isUser, current⟩
  · intro call later user found revocation tokens token refreshed order revokes issued accepted
      sameToken
    -- the token carries the version of the first read, the refresh that of the second
    obtain ⟨account, readAccount, signedAt, signed⟩ := inv.issued issued
    obtain ⟨current, readCurrent, isUser, version, _⟩ := inv.refreshed later token refreshed accepted
    have isFirst := inv.read_once call _ _ readAccount (order.subset List.mem_cons_self)
    cases isFirst
    have readLater : .read later found ∈ state.history := order.subset (by simp)
    have isFound := inv.read_once later _ _ readCurrent readLater
    subst isFound
    rw [sameToken, signed] at isUser version
    have sameUser : current.id = user.id := isUser
    have older := inv.version_lt revokes sameUser order
    have equal : user.tokenVersion = current.tokenVersion := Option.some.inj version
    omega
  · intro call tokens issued
    obtain ⟨user, read, now, rfl⟩ := inv.issued issued
    exact ⟨user, inv.readUser read, rfl, rfl⟩

namespace Schedule

def service : Deps where
  tokens :=
    { accessSecret := "access-secret", refreshSecret := "refresh-secret"
      accessTtl := "15m", refreshTtl := "7d"
      timespan := fun ttl => if ttl = "15m" then 900 else 604800 }
  verifyPassword plain hash := plain == "correct horse" && hash == "$2b$12$ada"
  dummyHash := "$2b$12$dummy"

def ada : Account where
  id := 1
  email := "ada@example.com"
  passwordHash := "$2b$12$ada"
  role := .operator
  tokenVersion := 0

def oneUser : Start where
  users := [⟨0, ada⟩]
  signed := []
  ids_nodup := by decide

/-- The tokens of a login that read the user before a logout and signed after it. -/
def stale : IssuedTokens := issueTokens service ada 2000

/-- A logout commits while a login is in flight; its refresh token is refused, and the
one of a later login is accepted. -/
def inFlight : List Action :=
  [.loginReads 0 "ada@example.com" "correct horse", .logoutAll 1 1, .loginFinishes 0 2000,
    .refreshVerifies 2 stale.refreshToken 3000, .refreshReads 2, .refreshFinishes 2 3000,
    .loginReads 3 "ada@example.com" "correct horse", .loginFinishes 3 4000,
    .refreshVerifies 4 (service.tokens.signRefreshToken { ada with tokenVersion := 1 } 4000) 5000,
    .refreshReads 4, .refreshFinishes 4 5000]

theorem inFlight_isSome : ((system service oneUser).run inFlight).isSome = true := by
  decide +kernel

/-- The state after the schedule. -/
def afterInFlight : State := ((system service oneUser).run inFlight).get inFlight_isSome

end Schedule

open Schedule in
theorem revocation_is_final_inFlight :
    .failed 2 tokenRevoked ∈ afterInFlight.history ∧
      .refreshed 4 (service.tokens.signRefreshToken { ada with tokenVersion := 1 } 4000)
        (issueTokens service { ada with tokenVersion := 1 } 5000) ∈ afterInFlight.history ∧
      ∀ token tokens, .refreshed 4 token tokens ∈ afterInFlight.history →
        token ≠ stale.refreshToken := by
  have reachable := Transition.System.get_run_reachable (system service oneUser) inFlight
    inFlight_isSome
  refine ⟨by decide +kernel, by decide +kernel, ?_⟩
  intro token tokens refreshed
  exact (revocation_is_final reachable).2.1 0 4 ada (some { ada with tokenVersion := 1 })
    (.loggedOutAll 1) stale token tokens (by decide +kernel) (by decide)
    (.inl ⟨ada, by decide +kernel⟩) refreshed

end WorkflowEngine.Auth
