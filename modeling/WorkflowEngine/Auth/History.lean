import WorkflowEngine.Auth.Service
import WorkflowEngine.Foundations.Separators

/-!
# The history of the users

The history of the service determines its users: replaying the committed operations
gives the stored users, every read returned a user of the replay up to it, and the
token version of a user counts the revocations.
-/

namespace WorkflowEngine.Auth

open DocStore

variable {deps : Deps} {start : Start} {state next : State}

/-! ## Replaying the committed operations -/

namespace Event

/-- What an event did to the users. -/
def apply (users : Collection Account) : Event → Collection Account
  | .created user => users ++ [⟨0, user⟩]
  | .loggedOutAll userId => users.updateMany (revoke.only userId)
  | .roleChanged userId role => users.updateMany ((assignRole role).only userId)
  | .read _ _ | .loggedIn _ _ _ | .refreshed _ _ _ | .failed _ _ => users

/-- The event is a committed `logoutAll` or `changeRole` of the user. -/
def revokes (userId : UserId) : Event → Bool
  | .loggedOutAll id => id == userId
  | .roleChanged id _ => id == userId
  | .created _ | .read _ _ | .loggedIn _ _ _ | .refreshed _ _ _ | .failed _ _ => false

end Event

/-- The users after some events. -/
def usersAfter (users : Collection Account) (events : List Event) : Collection Account :=
  events.foldl Event.apply users

@[simp] theorem usersAfter_nil (users : Collection Account) : usersAfter users [] = users := rfl

@[simp] theorem usersAfter_append (users : Collection Account) (first second : List Event) :
    usersAfter users (first ++ second) = usersAfter (usersAfter users first) second :=
  List.foldl_append

@[simp] theorem usersAfter_cons (users : Collection Account) (event : Event)
    (events : List Event) :
    usersAfter users (event :: events) = usersAfter (event.apply users) events := rfl

/-- A revocation by an update that matches every user. -/
theorem version_updateMany {users : Collection Account} {user : Account} {update : Update Account}
    {userId : UserId} (all : ∀ account, update.filter account = true)
    (counts : ∀ account, (update.set account).tokenVersion = account.tokenVersion + 1)
    (found : users.findById user.id = some user) :
    ∃ later, (users.updateMany (update.only userId)).findById user.id = some later ∧
      later.tokenVersion = user.tokenVersion + if (userId == user.id) = true then 1 else 0 := by
  rw [Collection.findById_updateMany, found]
  refine ⟨_, rfl, ?_⟩
  by_cases same : userId = user.id
  · have matched : (update.only userId).filter user = true := by
      simp [Update.only, Document.id, same, all]
    have written : (update.only userId).onValue user = update.set user := by
      rw [Update.onValue, if_pos matched]
      rfl
    rw [written, counts, if_pos (beq_iff_eq.mpr same)]
  · have unmatched : (update.only userId).filter user = false := by
      have other : ¬ user.id = userId := fun equal => same equal.symm
      simp [Update.only, Document.id, other]
    have kept : (update.only userId).onValue user = user := by
      rw [Update.onValue, unmatched]
      rfl
    simp [kept, same]

/-- No event removes a user, and the token version of a user counts the revocations. -/
theorem version_apply {users : Collection Account} {user : Account} (event : Event)
    (found : users.findById user.id = some user) :
    ∃ later, (event.apply users).findById user.id = some later ∧
      later.tokenVersion = user.tokenVersion + if event.revokes user.id then 1 else 0 := by
  cases event with
  | created other =>
      refine ⟨user, ?_, rfl⟩
      have stored := found
      simp only [Collection.findById, Option.map_eq_some_iff, Collection.findStored] at stored ⊢
      obtain ⟨doc, search, isUser⟩ := stored
      exact ⟨doc, by rw [Event.apply, List.find?_append, search, Option.some_or], isUser⟩
  | loggedOutAll userId =>
      exact version_updateMany (fun _ => rfl) (fun _ => rfl) found
  | roleChanged userId role =>
      exact version_updateMany (fun _ => rfl) (fun _ => rfl) found
  | read call read => exact ⟨user, found, rfl⟩
  | loggedIn call account tokens => exact ⟨user, found, rfl⟩
  | refreshed call token tokens => exact ⟨user, found, rfl⟩
  | failed call error => exact ⟨user, found, rfl⟩

theorem id_of_findById {users : Collection Account} {userId : UserId} {user : Account}
    (found : users.findById userId = some user) : user.id = userId := by
  simp only [Collection.findById, Option.map_eq_some_iff, Collection.findStored] at found
  obtain ⟨doc, search, rfl⟩ := found
  have same := List.find?_some search
  exact of_decide_eq_true same

theorem version_usersAfter {users : Collection Account} {user : Account} (events : List Event)
    (found : users.findById user.id = some user) :
    ∃ later, (usersAfter users events).findById user.id = some later ∧
      later.tokenVersion = user.tokenVersion + events.countP (Event.revokes user.id) := by
  induction events generalizing users user with
  | nil => exact ⟨user, found, rfl⟩
  | cons event rest ih =>
      obtain ⟨middle, foundMiddle, counted⟩ := version_apply event found
      have sameId : middle.id = user.id := id_of_findById foundMiddle
      rw [← sameId] at foundMiddle
      obtain ⟨later, foundLater, countedLater⟩ := ih foundMiddle
      rw [sameId] at foundLater countedLater
      refine ⟨later, foundLater, ?_⟩
      rw [countedLater, counted, List.countP_cons]
      omega

/-! ## What a step does -/

/-- The steps by what they record. -/
inductive Took (deps : Deps) (state : State) : State → Prop where
  | created {user : Account} (fresh : user.id ∉ state.users.ids) :
      Took deps state
        (State.record { state with users := state.users ++ [⟨0, user⟩] } (.created user))
  | revoked {event : Event} {userId : UserId} (revokes : event.revokes userId = true) :
      Took deps state (State.record { state with users := event.apply state.users } event)
  | failed {calls : CallId → Option Call} {call : CallId} {error : AppError}
      (kept : calls = state.calls ∨ calls = Function.update state.calls call (some .returned)) :
      Took deps state (State.record { state with calls } (.failed call error))
  | loginRead {call : CallId} {password : String} {user : Option Account}
      (idle : state.calls call = none) (stored : ∀ account, user = some account →
        state.users.findById account.id = some account) :
      Took deps state ((state.progress call (.loggingIn password user)).record (.read call user))
  | loggedIn {call : CallId} {password : String} {user : Account} {now : Time}
      (reading : state.calls call = some (.loggingIn password (some user))) :
      Took deps state (((state.progress call .returned).sign (issueTokens deps user now)).record
        (.loggedIn call user (issueTokens deps user now)))
  | verified {call : CallId} {token : Token} (idle : state.calls call = none) :
      Took deps state (state.progress call (.verified token token.claims))
  | refreshRead {call : CallId} {token : Token} {claims : Claims}
      (reading : state.calls call = some (.verified token claims)) :
      Took deps state ((state.progress call
        (.refreshing token claims (state.users.findById claims.sub))).record
          (.read call (state.users.findById claims.sub)))
  | refreshed {call : CallId} {token : Token} {claims : Claims} {user : Account} {now : Time}
      (reading : state.calls call = some (.refreshing token claims (some user)))
      (current : claims.tv = some user.tokenVersion) :
      Took deps state (((state.progress call .returned).sign (issueTokens deps user now)).record
        (.refreshed call token (issueTokens deps user now)))

theorem create_run {id : UserId} {email passwordHash : String} {role : Role} {user : Account}
    {users after : Collection Account}
    (ran : (create id email passwordHash role).run users = .ok (user, after)) :
    user.id ∉ users.ids ∧ after = users ++ [⟨0, user⟩] := by
  obtain ⟨_, middle, created, returned⟩ := Session.bind_eq_ok.mp ran
  obtain ⟨clear, rfl⟩ := Session.create_eq_ok.mp created
  obtain ⟨rfl, rfl⟩ := Session.pure_eq_ok.mp returned
  refine ⟨?_, rfl⟩
  intro known
  obtain ⟨stored, membership, same⟩ := List.mem_map.mp known
  have clash := List.any_eq_false.mp clear stored membership
  apply clash
  rw [Bool.or_eq_true]
  exact .inl (decide_eq_true same)

theorem changeRole_run {actorId : UserId} {target : PathId} {role : Role} {user : Account}
    {users after : Collection Account} (nodup : users.ids.Nodup)
    (ran : (changeRole actorId target role).run users = .ok (user, after)) :
    user.id = target.id ∧ after = users.updateMany ((assignRole role).only target.id) := by
  by_cases self : idText actorId = target.text
  · rw [changeRole, if_pos self] at ran
    cases ran
  · rw [changeRole, if_neg self] at ran
    obtain ⟨found, middle, updated, returned⟩ := Session.bind_eq_ok.mp ran
    rcases Session.findOneAndUpdate_eq_ok nodup updated with
      ⟨rfl, _⟩ | ⟨old, search, _, rfl, rfl⟩
    · cases returned
    · obtain ⟨rfl, rfl⟩ := Session.pure_eq_ok.mp returned
      have same : old.id = target.id := id_of_findById search
      exact ⟨same, rfl⟩

theorem loginFound_eq_ok {password : String} {user : Option Account} {now : Time}
    {result : Account × IssuedTokens} (accepted : loginFound deps password user now = .ok result) :
    ∃ account, user = some account ∧ result = (account, issueTokens deps account now) := by
  cases user with
  | none => cases accepted
  | some account =>
      simp only [loginFound] at accepted
      split at accepted
      · next known same _ =>
        cases same
        cases accepted
        exact ⟨account, rfl, rfl⟩
      · cases accepted

theorem refreshFound_eq_ok {claims : Claims} {user : Option Account} {now : Time}
    {tokens : IssuedTokens} (accepted : refreshFound deps claims user now = .ok tokens) :
    ∃ account, user = some account ∧ claims.tv = some account.tokenVersion ∧
      tokens = issueTokens deps account now := by
  cases user with
  | none => cases accepted
  | some account =>
      simp only [refreshFound] at accepted
      split at accepted
      · cases accepted
      · next same =>
        cases accepted
        exact ⟨account, rfl, (not_not.mp same).symm, rfl⟩

theorem findByEmail_run (users : Collection Account) (email : String) :
    (findByEmail email).run users =
      .ok ((users.find fun user => user.email == email).head?, users) := rfl

theorem took_of_step {action : Action} (nodup : state.users.ids.Nodup)
    (taken : step deps state action = some next) : Took deps state next := by
  cases action with
  | create call id email passwordHash role =>
      simp only [step, State.perform, Option.some.injEq] at taken
      split at taken
      · subst taken
        exact .failed (.inl rfl)
      · next user after ran =>
        subst taken
        obtain ⟨fresh, rfl⟩ := create_run ran
        exact .created fresh
  | loginReads call email password =>
      simp only [step] at taken
      split at taken
      · cases taken
      · next idle =>
        rw [State.perform, findByEmail_run] at taken
        cases taken
        apply Took.loginRead idle
        intro account found
        have stored := List.mem_of_mem_head? found
        exact (Collection.findById_eq_some nodup).mpr ⟨List.mem_of_mem_filter stored, rfl⟩
  | loginFinishes call now =>
      simp only [step] at taken
      split at taken
      · next password user reading =>
        simp only [State.finish, Option.some.injEq] at taken
        split at taken
        · subst taken
          exact .failed (.inr rfl)
        · next result accepted =>
          subst taken
          obtain ⟨account, rfl, rfl⟩ := loginFound_eq_ok accepted
          exact .loggedIn reading
      · cases taken
  | refreshVerifies call token now =>
      simp only [step] at taken
      split at taken
      · cases taken
      · next idle =>
        rw [Option.some.injEq] at taken
        split at taken
        · subst taken
          exact .failed (.inr rfl)
        · next claims accepted =>
          subst taken
          obtain ⟨_, _, _, _, _, _, rfl⟩ := verify_eq_ok.mp accepted
          exact .verified idle
  | refreshReads call =>
      simp only [step] at taken
      split at taken
      · next token claims reading =>
        cases taken
        exact .refreshRead reading
      · cases taken
  | refreshFinishes call now =>
      simp only [step] at taken
      split at taken
      · next token claims user reading =>
        simp only [State.finish, Option.some.injEq] at taken
        split at taken
        · subst taken
          exact .failed (.inr rfl)
        · next tokens accepted =>
          subst taken
          obtain ⟨account, rfl, current, rfl⟩ := refreshFound_eq_ok accepted
          exact .refreshed reading current
      · cases taken
  | logoutAll call userId =>
      cases taken
      have isUser : (Event.loggedOutAll userId).revokes userId = true := beq_self_eq_true userId
      exact .revoked isUser
  | changeRole call actorId target role =>
      simp only [step, State.perform, Option.some.injEq] at taken
      split at taken
      · subst taken
        exact .failed (.inl rfl)
      · next user after ran =>
        subst taken
        obtain ⟨isTarget, rfl⟩ := changeRole_run nodup ran
        rw [← isTarget]
        have isUser : (Event.roleChanged user.id role).revokes user.id = true :=
          beq_self_eq_true user.id
        exact .revoked isUser

/-! ## The invariant -/

/-- What a call in flight knows. -/
def Known (history : List Event) (call : CallId) : Option Call → Prop
  | none | some (.verified _ _) => ∀ user, .read call user ∉ history
  | some (.loggingIn _ user) => .read call user ∈ history
  | some (.refreshing _ claims user) => .read call user ∈ history ∧
      ∀ account, user = some account → account.id = claims.sub
  | some .returned => True

/-- The claims that a refresh goes by are those of the token that it was given. -/
def FromToken : Option Call → Prop
  | some (.verified token claims) | some (.refreshing token claims _) => claims = token.claims
  | none | some (.loggingIn _ _) | some .returned => True

structure Inv (deps : Deps) (start : Start) (state : State) : Prop where
  ids_nodup : state.users.ids.Nodup
  replayed : state.users = usersAfter start.users state.history
  reads : ∀ (before after : List Event) (call : CallId) (user : Account),
    state.history = before ++ .read call (some user) :: after →
      (usersAfter start.users before).findById user.id = some user
  /-- a call reads once -/
  read_once : ∀ (call : CallId) (first second : Option Account),
    .read call first ∈ state.history → .read call second ∈ state.history → first = second
  known : ∀ call, Known state.history call (state.calls call)
  fromToken : ∀ call, FromToken (state.calls call)
  loggedIn : ∀ (call : CallId) (user : Account) (tokens : IssuedTokens),
    .loggedIn call user tokens ∈ state.history →
      .read call (some user) ∈ state.history ∧ ∃ now, tokens = issueTokens deps user now
  refreshed : ∀ (call : CallId) (token : Token) (tokens : IssuedTokens),
    .refreshed call token tokens ∈ state.history →
      ∃ user, .read call (some user) ∈ state.history ∧ user.id = token.claims.sub ∧
        token.claims.tv = some user.tokenVersion ∧ ∃ now, tokens = issueTokens deps user now

theorem Known.append {history : List Event} {event : Event} {call : CallId} {progress : Option Call}
    (known : Known history call progress) (other : ∀ user, event ≠ .read call user) :
    Known (history ++ [event]) call progress := by
  cases progress with
  | none =>
      intro user
      simp [known user, (other user).symm]
  | some progress =>
      cases progress with
      | loggingIn password user => exact List.mem_append_left _ known
      | verified token claims =>
          intro user
          simp [known user, (other user).symm]
      | refreshing token claims user => exact ⟨List.mem_append_left _ known.1, known.2⟩
      | returned => trivial

theorem known_returned (history : List Event) (call : CallId) :
    Known history call (some .returned) := trivial

/-- What a recorded event has to be explained by. -/
structure Explained (deps : Deps) (state : State) (event : Event) : Prop where
  read : ∀ (call : CallId) (user : Option Account), event = .read call user →
    (∀ other, .read call other ∉ state.history) ∧
      ∀ account, user = some account → state.users.findById account.id = some account
  loggedIn : ∀ (call : CallId) (user : Account) (tokens : IssuedTokens),
    event = .loggedIn call user tokens →
      .read call (some user) ∈ state.history ∧ ∃ now, tokens = issueTokens deps user now
  refreshed : ∀ (call : CallId) (token : Token) (tokens : IssuedTokens),
    event = .refreshed call token tokens →
      ∃ user, .read call (some user) ∈ state.history ∧ user.id = token.claims.sub ∧
        token.claims.tv = some user.tokenVersion ∧ ∃ now, tokens = issueTokens deps user now

theorem Inv.record (inv : Inv deps start state) {event : Event} {signed : List Token}
    {calls : CallId → Option Call} (explained : Explained deps state event)
    (ids_nodup : (event.apply state.users).ids.Nodup)
    (known : ∀ call, Known (state.history ++ [event]) call (calls call))
    (fromToken : ∀ call, FromToken (calls call)) :
    Inv deps start
      { users := event.apply state.users, signed, calls, history := state.history ++ [event] } where
  ids_nodup := ids_nodup
  replayed := by
    rw [usersAfter_append, ← inv.replayed]
    rfl
  reads before after call user same := by
    rcases Separators.append_singleton_eq_append_cons same with ⟨rfl, isRead⟩ | ⟨rest, _, same⟩
    · rw [← inv.replayed]
      exact (explained.read call (some user) isRead).2 user rfl
    · exact inv.reads before rest call user same
  read_once call first second readFirst readSecond := by
    rcases List.mem_append.mp readFirst with inFirst | lastFirst
    · rcases List.mem_append.mp readSecond with inSecond | lastSecond
      · exact inv.read_once call first second inFirst inSecond
      · have isRead := (List.mem_singleton.mp lastSecond).symm
        exact absurd inFirst ((explained.read call second isRead).1 first)
    · have isRead := (List.mem_singleton.mp lastFirst).symm
      rcases List.mem_append.mp readSecond with inSecond | lastSecond
      · exact absurd inSecond ((explained.read call first isRead).1 second)
      · have same := isRead.symm.trans (List.mem_singleton.mp lastSecond).symm
        cases same
        rfl
  known := known
  fromToken := fromToken
  loggedIn call user tokens membership := by
    rcases List.mem_append.mp membership with earlier | last
    · have was := inv.loggedIn call user tokens earlier
      exact ⟨List.mem_append_left _ was.1, was.2⟩
    · have is := explained.loggedIn call user tokens (List.mem_singleton.mp last).symm
      exact ⟨List.mem_append_left _ is.1, is.2⟩
  refreshed call token tokens membership := by
    rcases List.mem_append.mp membership with earlier | last
    · obtain ⟨user, read, was⟩ := inv.refreshed call token tokens earlier
      exact ⟨user, List.mem_append_left _ read, was⟩
    · obtain ⟨user, read, is⟩ :=
        explained.refreshed call token tokens (List.mem_singleton.mp last).symm
      exact ⟨user, List.mem_append_left _ read, is⟩

/-- An operation on the users and a failure are no read and no answer. -/
theorem explained_of_revokes {event : Event} {userId : UserId}
    (revokes : event.revokes userId = true) : Explained deps state event := by
  constructor
  · intro call user isRead
    rw [isRead] at revokes
    cases revokes
  · intro call user tokens isLogin
    rw [isLogin] at revokes
    cases revokes
  · intro call token tokens isRefresh
    rw [isRefresh] at revokes
    cases revokes

theorem ids_nodup_of_revokes {event : Event} {userId : UserId} {users : Collection Account}
    (revokes : event.revokes userId = true) (nodup : users.ids.Nodup) :
    (event.apply users).ids.Nodup := by
  cases event with
  | loggedOutAll id =>
      rw [Event.apply, Collection.ids_updateMany]
      exact nodup
  | roleChanged id role =>
      rw [Event.apply, Collection.ids_updateMany]
      exact nodup
  | created user => cases revokes
  | read call user => cases revokes
  | loggedIn call user tokens => cases revokes
  | refreshed call token tokens => cases revokes
  | failed call error => cases revokes

/-- Moving one call on. -/
theorem known_update {history : List Event} {calls : CallId → Option Call} {call : CallId}
    {progress : Option Call} (moved : Known history call progress)
    (others : ∀ other, other ≠ call → Known history other (calls other)) (other : CallId) :
    Known history other (Function.update calls call progress other) := by
  by_cases same : other = call
  · subst same
    rw [Function.update_self]
    exact moved
  · rw [Function.update_of_ne same]
    exact others other same

theorem fromToken_update {calls : CallId → Option Call} {call : CallId} {progress : Option Call}
    (fromToken : ∀ other, FromToken (calls other)) (moved : FromToken progress) (other : CallId) :
    FromToken (Function.update calls call progress other) := by
  by_cases same : other = call
  · subst same
    rw [Function.update_self]
    exact moved
  · rw [Function.update_of_ne same]
    exact fromToken other

theorem Inv.step (inv : Inv deps start state) (took : Took deps state next) :
    Inv deps start next := by
  cases took with
  | @created user fresh =>
      apply @Inv.record deps start state inv (.created user)
      · constructor <;> intros <;> contradiction
      · rw [Event.apply, Collection.ids, List.map_append]
        exact inv.ids_nodup.append (List.nodup_singleton user.id)
          (List.disjoint_singleton.mpr fresh)
      · intro call
        exact (inv.known call).append fun _ => Event.noConfusion
      · exact inv.fromToken
  | @revoked event userId revokes =>
      apply inv.record (explained_of_revokes revokes) (ids_nodup_of_revokes revokes inv.ids_nodup)
      · intro call
        apply (inv.known call).append
        intro user isRead
        rw [isRead] at revokes
        cases revokes
      · exact inv.fromToken
  | @failed calls call error kept =>
      have known : ∀ other, Known state.history other (calls other) ∧ FromToken (calls other) := by
        intro other
        rcases kept with rfl | rfl
        · exact ⟨inv.known other, inv.fromToken other⟩
        · have noToken : FromToken (some .returned) := trivial
          exact ⟨known_update (known_returned _ call) (fun other _ => inv.known other) other,
            fromToken_update inv.fromToken noToken other⟩
      apply @Inv.record deps start state inv (.failed call error)
      · constructor <;> intros <;> contradiction
      · exact inv.ids_nodup
      · intro other
        exact (known other).1.append fun _ => Event.noConfusion
      · exact fun other => (known other).2
  | @loginRead call password user idle stored =>
      have unread : ∀ other, .read call other ∉ state.history := by
        have known := inv.known call
        rw [idle] at known
        exact known
      apply @Inv.record deps start state inv (.read call user)
      · constructor
        · intro _ _ same
          cases same
          exact ⟨unread, stored⟩
        · intros
          contradiction
        · intros
          contradiction
      · exact inv.ids_nodup
      · apply known_update
        · exact List.mem_append_right _ List.mem_cons_self
        · intro other different
          apply (inv.known other).append
          intro account same
          cases same
          exact different rfl
      · exact fromToken_update inv.fromToken trivial
  | @loggedIn call password user now reading =>
      have read : .read call (some user) ∈ state.history := by
        have known := inv.known call
        rw [reading] at known
        exact known
      apply @Inv.record deps start state inv (.loggedIn call user (issueTokens deps user now))
      · constructor
        · intros
          contradiction
        · intro _ _ _ same
          cases same
          exact ⟨read, now, rfl⟩
        · intros
          contradiction
      · exact inv.ids_nodup
      · apply known_update (known_returned _ call)
        intro other _
        exact (inv.known other).append fun _ => Event.noConfusion
      · exact fromToken_update inv.fromToken trivial
  | @verified call token idle =>
      have unread : ∀ other, .read call other ∉ state.history := by
        have known := inv.known call
        rw [idle] at known
        exact known
      exact {
        ids_nodup := inv.ids_nodup
        replayed := inv.replayed
        reads := inv.reads
        read_once := inv.read_once
        known := known_update unread fun other _ => inv.known other
        fromToken := fromToken_update inv.fromToken rfl
        loggedIn := inv.loggedIn
        refreshed := inv.refreshed }
  | @refreshRead call token claims reading =>
      have unread : ∀ other, .read call other ∉ state.history := by
        have known := inv.known call
        rw [reading] at known
        exact known
      have isId : ∀ account, state.users.findById claims.sub = some account →
          account.id = claims.sub := fun account found => id_of_findById found
      apply @Inv.record deps start state inv (.read call (state.users.findById claims.sub))
      · constructor
        · intro _ _ same
          cases same
          refine ⟨unread, ?_⟩
          intro account found
          rw [isId account found]
          exact found
        · intros
          contradiction
        · intros
          contradiction
      · exact inv.ids_nodup
      · apply known_update
        · exact ⟨List.mem_append_right _ List.mem_cons_self, isId⟩
        · intro other different
          apply (inv.known other).append
          intro account same
          cases same
          exact different rfl
      · have fromToken := inv.fromToken call
        rw [reading] at fromToken
        exact fromToken_update inv.fromToken fromToken
  | @refreshed call token claims user now reading current =>
      have known := inv.known call
      have fromToken := inv.fromToken call
      rw [reading] at known fromToken
      have isToken : claims = token.claims := fromToken
      subst isToken
      apply @Inv.record deps start state inv (.refreshed call token (issueTokens deps user now))
      · constructor
        · intros
          contradiction
        · intros
          contradiction
        · intro _ _ _ same
          cases same
          exact ⟨user, known.1, known.2 user rfl, current, now, rfl⟩
      · exact inv.ids_nodup
      · apply known_update (known_returned _ call)
        intro other _
        exact (inv.known other).append fun _ => Event.noConfusion
      · exact fromToken_update inv.fromToken trivial

theorem inv_init : Inv deps start (system deps start).init where
  ids_nodup := start.ids_nodup
  replayed := rfl
  reads before after call user same := by
    cases before <;> cases same
  read_once _ _ _ impossible := absurd impossible List.not_mem_nil
  known _ _ := List.not_mem_nil
  fromToken _ := trivial
  loggedIn _ _ _ impossible := absurd impossible List.not_mem_nil
  refreshed _ _ _ impossible := absurd impossible List.not_mem_nil

theorem inv_of_reachable (reachable : (system deps start).Reachable state) :
    Inv deps start state := by
  apply reachable.invariant inv_init
  intro state action next inv _ taken
  exact inv.step (took_of_step inv.ids_nodup taken)

end WorkflowEngine.Auth
