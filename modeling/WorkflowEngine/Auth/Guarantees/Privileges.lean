import Mathlib.Algebra.Order.Ring.Int
import WorkflowEngine.Auth.Guarantees.Revocation
import WorkflowEngine.Auth.Requests

/-!
# Where privileges come from

An admitted request rests on an access token that was signed, less than its time to live
before, from the stored user.  So a role changes only by the request of somebody who was
stored as an admin then and whose id the request does not spell, and where there is no
admin nobody gets a role.
-/

namespace WorkflowEngine.Auth

open DocStore

variable {deps : Deps} {start : Start}

/-! ## What the operations record and sign -/

section Steps

variable {state next : State} {action : Action}

/-- The operation that an event records. -/
def Event.MadeBy (action : Action) : Event → Prop
  | .created user => ∃ call email passwordHash,
      action = .create call user.id email passwordHash user.role
  | .roleChanged userId role => ∃ call actorId target,
      action = .changeRole call actorId target role ∧ target.id = userId ∧
        idText actorId ≠ target.text
  | _ => True

/-- The event is a committed change of a role. -/
def Event.changesRole : Event → Bool
  | .roleChanged _ _ => true
  | .created _ | .loggedOutAll _ | .read _ _ | .loggedIn _ _ _ | .refreshed _ _ _ | .failed _ _ =>
      false

/-- The step signs nothing, or the tokens of the user that its call has read. -/
inductive Signs (deps : Deps) (state next : State) (action : Action) : Prop where
  | nothing : next.signed = state.signed → Signs deps state next action
  | tokens {call : CallId} {user : Account} {now : Time} :
      action = .loginFinishes call now ∨ action = .refreshFinishes call now →
      .read call (some user) ∈ state.history →
      Issued next.history call (issueTokens deps user now) →
      next.signed = state.signed ++
        [deps.tokens.signAccessToken user now, deps.tokens.signRefreshToken user now] →
      Signs deps state next action

/-- What a step adds to the history and to the tokens. -/
structure Advances (deps : Deps) (state next : State) (action : Action) : Prop where
  history : next.history = state.history ∨
    ∃ event, next.history = state.history ++ [event] ∧ event.MadeBy action
  signs : Signs deps state next action

theorem Advances.extends (advances : Advances deps state next action) :
    ∃ more, next.history = state.history ++ more := by
  cases advances.history with
  | inl same => exact ⟨[], same.trans (List.append_nil _).symm⟩
  | inr recorded =>
      obtain ⟨event, grown, _⟩ := recorded
      exact ⟨[event], grown⟩

theorem Advances.recorded {event : Event} (history : next.history = state.history ++ [event])
    (madeBy : event.MadeBy action) (signed : next.signed = state.signed) :
    Advances deps state next action :=
  ⟨.inr ⟨event, history, madeBy⟩, .nothing signed⟩

theorem Advances.issued {call : CallId} {user : Account} {now : Time} {event : Event}
    (isAction : action = .loginFinishes call now ∨ action = .refreshFinishes call now)
    (read : .read call (some user) ∈ state.history)
    (history : next.history = state.history ++ [event]) (madeBy : event.MadeBy action)
    (issued : Issued [event] call (issueTokens deps user now))
    (signed : next.signed = state.signed ++
      [deps.tokens.signAccessToken user now, deps.tokens.signRefreshToken user now]) :
    Advances deps state next action := by
  apply Advances.mk (.inr ⟨event, history, madeBy⟩)
  apply Signs.tokens isAction read _ signed
  rw [history]
  cases issued with
  | inl byLogin =>
      obtain ⟨account, loggedIn⟩ := byLogin
      exact .inl ⟨account, List.mem_append_right _ loggedIn⟩
  | inr byRefresh =>
      obtain ⟨token, refreshed⟩ := byRefresh
      exact .inr ⟨token, List.mem_append_right _ refreshed⟩

theorem create_made {id : UserId} {email passwordHash : String} {role : Role} {user : Account}
    {users after : Collection Account}
    (ran : (create id email passwordHash role).run users = .ok (user, after)) :
    user.id = id ∧ user.role = role := by
  obtain ⟨_, middle, _, returned⟩ := Session.bind_eq_ok.mp ran
  obtain ⟨rfl, _⟩ := Session.pure_eq_ok.mp returned
  exact ⟨rfl, rfl⟩

theorem changeRole_other {actorId : UserId} {target : PathId} {role : Role} {user : Account}
    {users after : Collection Account}
    (ran : (changeRole actorId target role).run users = .ok (user, after)) :
    idText actorId ≠ target.text := by
  intro self
  rw [changeRole, if_pos self] at ran
  cases ran

theorem advances_of_step (inv : Inv deps start state) (taken : step deps state action = some next) :
    Advances deps state next action := by
  cases action with
  | create call id email passwordHash role =>
      simp only [step, State.perform, Option.some.injEq] at taken
      split at taken
      · subst taken
        exact .recorded rfl trivial rfl
      · next user after ran =>
        subst taken
        obtain ⟨rfl, rfl⟩ := create_made ran
        exact .recorded rfl ⟨call, email, passwordHash, rfl⟩ rfl
  | loginReads call email password =>
      simp only [step] at taken
      split at taken
      · cases taken
      · rw [State.perform, findByEmail_run] at taken
        cases taken
        exact .recorded rfl trivial rfl
  | loginFinishes call now =>
      simp only [step] at taken
      split at taken
      · next password user reading =>
        simp only [State.finish, Option.some.injEq] at taken
        split at taken
        · subst taken
          exact .recorded rfl trivial rfl
        · next result accepted =>
          subst taken
          rcases loginFound_eq_ok accepted with ⟨account, rfl, rfl⟩
          have known := inv.known call
          rw [reading] at known
          exact .issued (.inl rfl) known rfl trivial (.inl ⟨account, List.mem_singleton_self _⟩) rfl
      · cases taken
  | refreshVerifies call token now =>
      simp only [step] at taken
      split at taken
      · cases taken
      · rw [Option.some.injEq] at taken
        split at taken
        · subst taken
          exact .recorded rfl trivial rfl
        · subst taken
          exact ⟨.inl rfl, .nothing rfl⟩
  | refreshReads call =>
      simp only [step] at taken
      split at taken
      · cases taken
        exact .recorded rfl trivial rfl
      · cases taken
  | refreshFinishes call now =>
      simp only [step] at taken
      split at taken
      · next token claims user reading =>
        simp only [State.finish, Option.some.injEq] at taken
        split at taken
        · subst taken
          exact .recorded rfl trivial rfl
        · next tokens accepted =>
          subst taken
          rcases refreshFound_eq_ok accepted with ⟨account, rfl, _, rfl⟩
          have known := inv.known call
          rw [reading] at known
          exact .issued (.inr rfl) known.1 rfl trivial (.inr ⟨token, List.mem_singleton_self _⟩) rfl
      · cases taken
  | logoutAll call userId =>
      cases taken
      exact .recorded rfl trivial rfl
  | changeRole call actorId target role =>
      simp only [step, State.perform, Option.some.injEq] at taken
      split at taken
      · subst taken
        exact .recorded rfl trivial rfl
      · next user after ran =>
        subst taken
        have isTarget := (changeRole_run inv.ids_nodup ran).1
        exact .recorded rfl
          ⟨call, actorId, target, rfl, isTarget.symm, changeRole_other ran⟩ rfl

end Steps

/-! ## Tokens and admissions -/

/-- This call has signed tokens from the user that it had read. -/
structure SignedFor (deps : Deps) (history : List Event) (call : CallId) (user : Account)
    (signedAt : Time) : Prop where
  read : .read call (some user) ∈ history
  issued : Issued history call (issueTokens deps user signedAt)

/-- The token was there at the start, or a call has signed it not after this time. -/
inductive Genuine (deps : Deps) (start : Start) (history : List Event) (now : Time) (token : Token) :
    Prop where
  | before : token ∈ start.signed → Genuine deps start history now token
  | access {call : CallId} {user : Account} {signedAt : Time} :
      SignedFor deps history call user signedAt → signedAt ≤ now →
      token = deps.tokens.signAccessToken user signedAt → Genuine deps start history now token
  | refresh {call : CallId} {user : Account} {signedAt : Time} :
      SignedFor deps history call user signedAt → signedAt ≤ now →
      token = deps.tokens.signRefreshToken user signedAt → Genuine deps start history now token

/-- The access token of an admitted request, and who it says the requester is. -/
structure Lawful (deps : Deps) (start : Start) (entry : Entry) : Prop where
  verified : ∃ claims, claims.type = .access ∧ entry.admission.token.claims = claims ∧
    entry.admission.user = ⟨claims.sub, claims.role⟩
  unexpired : clockTimestamp entry.admission.admittedAt < entry.admission.token.expiresAt
  genuine : Genuine deps start entry.seen entry.admission.admittedAt entry.admission.token
  checked : entry.admission.request.check entry.admission.user = .ok ()

/-- The request asks for this change of a role, and does not spell the requester's own id. -/
def Entry.Asks (userId : UserId) (role : Role) (entry : Entry) : Prop :=
  ∃ target, entry.admission.request = .changeRole target role ∧ target.id = userId ∧
    idText entry.admission.user.id ≠ target.text

theorem SignedFor.append {history : List Event} {call : CallId} {user : Account} {signedAt : Time}
    (signed : SignedFor deps history call user signedAt) (more : List Event) :
    SignedFor deps (history ++ more) call user signedAt := by
  refine ⟨List.mem_append_left _ signed.read, ?_⟩
  rcases signed.issued with ⟨account, loggedIn⟩ | ⟨token, refreshed⟩
  · exact .inl ⟨account, List.mem_append_left _ loggedIn⟩
  · exact .inr ⟨token, List.mem_append_left _ refreshed⟩

theorem Genuine.append {history : List Event} {now later : Time} {token : Token}
    (genuine : Genuine deps start history now token) (more : List Event) (passed : now ≤ later) :
    Genuine deps start (history ++ more) later token := by
  cases genuine with
  | before known => exact .before known
  | access signed past isToken => exact .access (signed.append more) (le_trans past passed) isToken
  | refresh signed past isToken => exact .refresh (signed.append more) (le_trans past passed) isToken

namespace Api

/-- What holds of the routes. -/
structure Inv (deps : Deps) (start : Start) (api : Api) : Prop where
  auth : Auth.Inv deps start api.auth
  signed : ∀ token ∈ api.auth.signed, Genuine deps start api.auth.history api.now token
  lawful : ∀ entry ∈ api.entered, Lawful deps start entry
  earlier : ∀ entry ∈ api.entered, entry.seen <+: api.auth.history
  admitted : ∀ call admission, api.admissions call = some admission →
    ∃ entry ∈ api.entered, entry.admission = admission
  /-- a change of a role was asked for by a request that had been let in -/
  changed : ∀ before after userId role, api.auth.history = before ++ .roleChanged userId role :: after →
    ∃ entry ∈ api.entered, entry.seen <+: before ∧ entry.Asks userId role
  /-- whoever registers is a viewer -/
  registered : ∀ user, .created user ∈ api.auth.history → user.role = .viewer

variable {api next : Api}

theorem inv_init (now : Time) : Inv deps start (apiSystem deps start now).init where
  auth := Auth.inv_init
  signed _ known := .before known
  lawful _ absurdity := absurd absurdity List.not_mem_nil
  earlier _ absurdity := absurd absurdity List.not_mem_nil
  admitted _ _ absurdity := by cases absurdity
  changed before after _ _ absurdity := by simp [apiSystem, system] at absurdity
  registered _ absurdity := absurd absurdity List.not_mem_nil

/-- The operation that the service performs is what the routes let it perform. -/
structure Routed (api : Api) (action : Auth.Action) : Prop where
  clock : ∀ call now, action = .loginFinishes call now ∨ action = .refreshFinishes call now →
    now = api.now
  entered : ∀ call actorId target role, action = .changeRole call actorId target role →
    ∃ entry ∈ api.entered, entry.admission.request = .changeRole target role ∧
      entry.admission.user.id = actorId
  registers : ∀ call id email passwordHash role, action = .create call id email passwordHash role →
    role = .viewer

theorem Inv.service (inv : Inv deps start api) {action : Auth.Action}
    (routed : Routed api action) (taken : api.service deps action = some next) :
    Inv deps start next := by
  obtain ⟨auth, stepped, rfl⟩ := Option.map_eq_some_iff.mp taken
  have advances := advances_of_step inv.auth stepped
  obtain ⟨more, grown⟩ := advances.extends
  constructor
  case auth => exact inv.auth.step (took_of_step inv.auth.ids_nodup stepped)
  case signed =>
    show ∀ token ∈ auth.signed, Genuine deps start auth.history api.now token
    have still : ∀ token ∈ api.auth.signed, Genuine deps start auth.history api.now token := by
      intro token known
      rw [grown]
      exact (inv.signed token known).append more (le_refl _)
    cases advances.signs with
    | nothing signed =>
        rw [signed]
        exact still
    | @tokens call user now isAction read issued signed =>
        have signedFor : SignedFor deps auth.history call user now := by
          refine ⟨?_, issued⟩
          rw [grown]
          exact List.mem_append_left _ read
        have isNow := le_of_eq (routed.clock call now isAction)
        intro token membership
        rw [signed] at membership
        cases List.mem_append.mp membership with
        | inl old => exact still token old
        | inr new =>
            cases List.mem_cons.mp new with
            | inl isAccess => exact .access signedFor isNow isAccess
            | inr rest => exact .refresh signedFor isNow (List.mem_singleton.mp rest)
  case lawful => exact inv.lawful
  case earlier =>
    intro entry membership
    show entry.seen <+: auth.history
    rw [grown]
    exact (inv.earlier entry membership).trans (List.prefix_append _ _)
  case admitted => exact inv.admitted
  case changed =>
    show ∀ before after userId role, auth.history = before ++ .roleChanged userId role :: after → _
    intro before after userId role split
    cases advances.history with
    | inl same => exact inv.changed before after userId role (same.symm.trans split)
    | inr recorded =>
        obtain ⟨event, last, madeBy⟩ := recorded
        rw [last] at split
        cases Separators.append_singleton_eq_append_cons split with
        | inl isLast =>
            obtain ⟨rfl, rfl⟩ := isLast
            obtain ⟨call, actorId, target, isAction, isTarget, other⟩ := madeBy
            obtain ⟨entry, membership, request, isActor⟩ :=
              routed.entered call actorId target role isAction
            exact ⟨entry, membership, inv.earlier entry membership, target, request, isTarget,
              isActor ▸ other⟩
        | inr earlier =>
            obtain ⟨rest, _, split⟩ := earlier
            exact inv.changed before rest userId role split
  case registered =>
    show ∀ user, .created user ∈ auth.history → _
    intro user membership
    cases advances.history with
    | inl same => exact inv.registered user (same ▸ membership)
    | inr recorded =>
        obtain ⟨event, last, madeBy⟩ := recorded
        rw [last] at membership
        cases List.mem_append.mp membership with
        | inl old => exact inv.registered user old
        | inr new =>
            cases List.mem_singleton.mp new
            obtain ⟨call, email, passwordHash, isAction⟩ := madeBy
            exact routed.registers _ _ _ _ _ isAction

/-- A request is let in on an access token that verifies now. -/
theorem Inv.enter (inv : Inv deps start api) (call : CallId) (header : Authorization)
    (request : Request) : Inv deps start (api.enter deps call header request) := by
  rw [Api.enter]
  split
  · next token user isToken isUser =>
    split
    · next checked =>
      have lawful : Lawful deps start
          ⟨{ token, user, admittedAt := api.now, request }, api.auth.history⟩ := by
        simp only [authenticate, isToken] at isUser
        split at isUser
        · cases isUser
        · split at isUser
          · cases isUser
          · next claims accepted =>
            cases isUser
            obtain ⟨known, _, _, _, fresh, typed, rfl⟩ := verify_eq_ok.mp accepted
            exact ⟨⟨token.claims, typed, rfl, rfl⟩, fresh, inv.signed token known, checked⟩
      refine { inv with lawful := ?_, earlier := ?_, admitted := ?_, changed := ?_ }
      · intro entry membership
        cases List.mem_append.mp membership with
        | inl old => exact inv.lawful entry old
        | inr new =>
            rw [List.mem_singleton.mp new]
            exact lawful
      · intro entry membership
        cases List.mem_append.mp membership with
        | inl old => exact inv.earlier entry old
        | inr new =>
            cases List.mem_singleton.mp new
            exact List.prefix_rfl
      · intro other admission isAdmission
        by_cases same : other = call
        · subst same
          simp only [Function.update_self, Option.some.injEq] at isAdmission
          exact ⟨_, List.mem_append_right _ (List.mem_singleton_self _), isAdmission⟩
        · simp only [Function.update_of_ne same] at isAdmission
          obtain ⟨entry, membership, isEntry⟩ := inv.admitted other admission isAdmission
          exact ⟨entry, List.mem_append_left _ membership, isEntry⟩
      · intro before after userId role split
        obtain ⟨entry, membership, asks⟩ := inv.changed before after userId role split
        exact ⟨entry, List.mem_append_left _ membership, asks⟩
    · exact inv
  · exact inv

/-- An admitted request performs what it was admitted for. -/
theorem routed_operation {call : CallId} {entry : Entry} (membership : entry ∈ api.entered) :
    Routed api (operation call entry.admission) where
  clock other now isAction := by
    cases request : entry.admission.request <;> simp only [operation, request] at isAction <;>
      cases isAction <;> contradiction
  entered other actorId target role isAction := by
    cases request : entry.admission.request with
    | logout => simp only [operation, request, reduceCtorEq] at isAction
    | changeRole given assigned =>
        simp only [operation, request, Auth.Action.changeRole.injEq] at isAction
        obtain ⟨_, rfl, rfl, rfl⟩ := isAction
        exact ⟨entry, membership, request, rfl⟩
  registers other id email passwordHash role isAction := by
    cases request : entry.admission.request <;> simp only [operation, request, reduceCtorEq] at isAction

theorem Inv.step (inv : Inv deps start api) {action : Action}
    (taken : api.step deps action = some next) : Inv deps start next := by
  cases action with
  | tick ms =>
      cases taken
      refine { inv with signed := ?_ }
      intro token known
      have passed : api.now ≤ api.now + ms := Int.le_add_of_nonneg_right (Int.natCast_nonneg ms)
      have later := (inv.signed token known).append [] passed
      rwa [List.append_nil] at later
  | register | loginReads | loginFinishes | refreshVerifies | refreshReads | refreshFinishes =>
      apply inv.service _ taken
      constructor <;> simp +contextual
  | enter call header request =>
      simp only [Api.step] at taken
      split at taken
      · cases taken
      · cases taken
        exact inv.enter call header request
  | perform call =>
      simp only [Api.step] at taken
      split at taken
      · next admission isAdmission =>
        obtain ⟨served, isServed, rfl⟩ := Option.map_eq_some_iff.mp taken
        obtain ⟨entry, membership, rfl⟩ := inv.admitted call admission isAdmission
        have after := inv.service (routed_operation membership) isServed
        refine { after with admitted := ?_ }
        intro other still isStill
        by_cases same : other = call
        · subst same
          simp only [Function.update_self, reduceCtorEq] at isStill
        · simp only [Function.update_of_ne same] at isStill
          exact after.admitted other still isStill
      · cases taken

theorem inv_of_reachable {now : Time} (reachable : (apiSystem deps start now).Reachable api) :
    Inv deps start api := by
  apply reachable.invariant (inv_init now)
  intro state action next inv _ taken
  exact inv.step taken

end Api

/-! ## Admins -/

/-- The request was let in, unexpired, on the access token of an admin: one from before the
start, or one that was signed for a call from the user as it was stored when the call read
it. -/
inductive AdminToken (deps : Deps) (start : Start) (entry : Entry) : Prop where
  | before : entry.admission.token ∈ start.signed →
      entry.admission.token.claims.sub = entry.admission.user.id →
      entry.admission.token.claims.role = some .admin →
      clockTimestamp entry.admission.admittedAt < entry.admission.token.expiresAt →
      AdminToken deps start entry
  | signed {call : CallId} {user : Account} {signedAt : Time} :
      ReadUser start entry.seen call user → user.id = entry.admission.user.id →
      user.role = .admin → Issued entry.seen call (issueTokens deps user signedAt) →
      entry.admission.token = deps.tokens.signAccessToken user signedAt →
      signedAt ≤ entry.admission.admittedAt →
      clockTimestamp entry.admission.admittedAt <
        clockTimestamp signedAt + deps.tokens.timespan deps.tokens.accessTtl →
      AdminToken deps start entry

theorem admin_of_check {user : Requester} {target : PathId} {role : Role}
    (checked : (Request.changeRole target role).check user = .ok ()) : user.role = some .admin := by
  obtain ⟨id, held⟩ := user
  cases held with
  | none => cases checked
  | some held =>
      cases held with
      | admin => rfl
      | operator => cases checked
      | viewer => cases checked

/-- Who lets a change of a role in holds the token of an admin. -/
theorem Lawful.adminToken {state : State} (inv : Inv deps start state) {entry : Entry}
    (earlier : entry.seen <+: state.history) (lawful : Lawful deps start entry) {target : PathId}
    {role : Role} (request : entry.admission.request = .changeRole target role) :
    AdminToken deps start entry := by
  have isAdmin := admin_of_check (request ▸ lawful.checked)
  obtain ⟨claims, isAccess, isClaims, isUser⟩ := lawful.verified
  rw [isUser] at isAdmin
  have unexpired := lawful.unexpired
  cases lawful.genuine with
  | before known =>
      subst isClaims
      exact .before known (congrArg Requester.id isUser).symm isAdmin unexpired
  | @access call user signedAt signed past isToken =>
      obtain ⟨before, between, isHistory⟩ := List.append_of_mem signed.read
      have stored : (usersAfter start.users before).findById user.id = some user := by
        obtain ⟨after, split⟩ := earlier
        apply inv.reads before (between ++ after) call user
        rw [← split, isHistory, List.append_assoc, List.cons_append]
      rw [isToken] at isClaims unexpired
      subst isClaims
      have read : ReadUser start entry.seen call user := ⟨before, between, isHistory, stored⟩
      exact .signed read (congrArg Requester.id isUser).symm (Option.some.inj isAdmin)
        signed.issued isToken past unexpired
  | refresh signed past isToken =>
      -- a refresh token is of the other type
      rw [isToken] at isClaims
      subst isClaims
      cases isAccess

/-- As long as no role changes, each user has its role from the start or is a viewer. -/
theorem role_usersAfter {users : Collection Account} {events : List Event}
    (kept : ∀ userId role, .roleChanged userId role ∉ events)
    (registered : ∀ user, .created user ∈ events → user.role = .viewer) :
    ∀ user ∈ (usersAfter users events).values,
      user.role = .viewer ∨ ∃ was ∈ users.values, was.id = user.id ∧ was.role = user.role := by
  induction events generalizing users with
  | nil => exact fun user known => .inr ⟨user, known, rfl, rfl⟩
  | cons event rest ih =>
      intro user known
      rw [usersAfter_cons] at known
      have keptRest : ∀ userId role, .roleChanged userId role ∉ rest :=
        fun userId role more => kept userId role (List.mem_cons_of_mem _ more)
      have registeredRest : ∀ user, .created user ∈ rest → user.role = .viewer :=
        fun user more => registered user (List.mem_cons_of_mem _ more)
      cases ih keptRest registeredRest user known with
      | inl isViewer => exact .inl isViewer
      | inr unchanged =>
          obtain ⟨middle, stored, sameId, sameRole⟩ := unchanged
          rw [← sameId, ← sameRole]
          cases event with
          | created other =>
              rw [Event.apply, Collection.values, List.map_append] at stored
              cases List.mem_append.mp stored with
              | inl old => exact .inr ⟨middle, old, rfl, rfl⟩
              | inr new =>
                  rw [List.mem_singleton.mp new]
                  exact .inl (registered other List.mem_cons_self)
          | loggedOutAll userId =>
              rw [Event.apply, Collection.values_updateMany] at stored
              obtain ⟨was, known, rfl⟩ := List.mem_map.mp stored
              refine .inr ⟨was, known, (Update.id_onValue _ was).symm, ?_⟩
              rw [Update.onValue]
              split
              · rfl
              · rfl
          | roleChanged userId role => exact absurd List.mem_cons_self (kept userId role)
          | read | loggedIn | refreshed | failed => exact .inr ⟨middle, stored, rfl, rfl⟩

/-- Where nobody is an admin and nobody holds the token of one, no role ever changes. -/
theorem kept_of_adminless {api : Api} (inv : Api.Inv deps start api)
    (adminless : ∀ user ∈ start.users.values, user.role ≠ .admin)
    (tokenless : ∀ token ∈ start.signed, token.claims.role ≠ some .admin) :
    ∀ userId role, .roleChanged userId role ∉ api.auth.history := by
  intro userId role changed
  -- the first change of a role rests on an admin that no change has made
  have some_change : ∃ event ∈ api.auth.history, event.changesRole = true := ⟨_, changed, rfl⟩
  obtain ⟨event, found⟩ := Option.isSome_iff_exists.mp (List.find?_isSome.mpr some_change)
  obtain ⟨isChange, before, after, split, first⟩ := List.find?_eq_some_iff_append.mp found
  cases event with
  | roleChanged userId role =>
      obtain ⟨entry, membership, earlier, target, request, _⟩ :=
        inv.changed before after userId role split
      have token := (inv.lawful entry membership).adminToken inv.auth
        (inv.earlier entry membership) request
      cases token with
      | before known _ isAdmin => exact tokenless _ known isAdmin
      | @signed call user signedAt read _ isAdmin =>
          obtain ⟨upTo, rest, isSeen, stored⟩ := read
          have within : ∀ other ∈ upTo, other ∈ before := by
            intro other known
            apply earlier.subset
            rw [isSeen]
            exact List.mem_append_left _ known
          have kept : ∀ userId role, .roleChanged userId role ∉ upTo := by
            intro userId role known
            have unchanging := first _ (within _ known)
            cases unchanging
          have registered : ∀ user, .created user ∈ upTo → user.role = .viewer := by
            intro user known
            apply inv.registered user
            rw [split]
            exact List.mem_append_left _ (within _ known)
          cases role_usersAfter kept registered user (Collection.mem_values_of_findById stored) with
          | inl isViewer =>
              rw [isViewer] at isAdmin
              cases isAdmin
          | inr unchanged =>
              obtain ⟨was, known, _, sameRole⟩ := unchanged
              exact adminless was known (sameRole.trans isAdmin)
  | created | loggedOutAll | read | loggedIn | refreshed | failed => cases isChange

/-- A request that was let in before has changed the role: one that does not spell the
requester's own id, and so that of somebody else unless it spells the id in another way. -/
structure Granted (deps : Deps) (start : Start) (before : List Event) (userId : UserId)
    (role : Role) (entry : Entry) : Prop where
  earlier : entry.seen <+: before
  asks : entry.Asks userId role
  other : (∃ target, entry.admission.request = .changeRole target role ∧
    target.text = idText userId) → entry.admission.user.id ≠ userId
  token : AdminToken deps start entry

/-- However the requests interleave: a role changes only by a request that was let in before
on the unexpired access token of an admin, issued before to a login or a refresh that had
read that user as an admin, and that does not spell the admin's own id; and where nobody is
an admin or holds the token of one, every user stays what it was at the start or is a
viewer. -/
theorem roles_granted_by_admins {now : Time} {api : Api}
    (reachable : (apiSystem deps start now).Reachable api) :
    (∀ before after userId role, api.auth.history = before ++ .roleChanged userId role :: after →
      ∃ entry ∈ api.entered, Granted deps start before userId role entry) ∧
    ((∀ user ∈ start.users.values, user.role ≠ .admin) →
      (∀ token ∈ start.signed, token.claims.role ≠ some .admin) →
      (∀ userId role, .roleChanged userId role ∉ api.auth.history) ∧
      ∀ user ∈ api.auth.users.values, user.role = .viewer ∨
        ∃ was ∈ start.users.values, was.id = user.id ∧ was.role = user.role) := by
  have inv := Api.inv_of_reachable reachable
  constructor
  · intro before after userId role split
    obtain ⟨entry, membership, earlier, target, request, isTarget, other⟩ :=
      inv.changed before after userId role split
    refine ⟨entry, membership, earlier, ⟨target, request, isTarget, other⟩, ?_,
      (inv.lawful entry membership).adminToken inv.auth (inv.earlier entry membership) request⟩
    rintro ⟨spelled, asked, isText⟩ rfl
    cases asked.symm.trans request
    exact other isText.symm
  · intro adminless tokenless
    have kept := kept_of_adminless inv adminless tokenless
    refine ⟨kept, ?_⟩
    rw [inv.auth.replayed]
    exact role_usersAfter kept inv.registered

namespace Schedule

/-- A path with an id. -/
def path (text : String) (valid : (castId text).isSome = true) : PathId :=
  ⟨text, (castId text).get valid, (Option.some_get valid).symm⟩

/-- Her id ends in the digit a. -/
def grace : Account where
  id := 10
  email := "grace@example.com"
  passwordHash := "$2b$12$ada"
  role := .admin
  tokenVersion := 0

def twoUsers : Start where
  users := [⟨0, ada⟩, ⟨0, grace⟩]
  signed := []
  ids_nodup := by decide

def graceHeader : Authorization where
  scheme := "Bearer"
  token := some (service.tokens.signAccessToken grace 2000)

/-- The admin logs in and promotes a user; an attempt on her own role fails, unless her id
is written in upper case. -/
def promotion : List Api.Action :=
  [.loginReads 0 "grace@example.com" "correct horse", .tick 1000, .loginFinishes 0,
    .tick 500000,
    .enter 1 graceHeader (.changeRole (path "000000000000000000000001" (by decide)) .admin),
    .enter 2 graceHeader (.changeRole (path "00000000000000000000000a" (by decide)) .viewer),
    .tick 300000, .perform 2, .perform 1,
    .enter 3 graceHeader (.changeRole (path "00000000000000000000000A" (by decide)) .viewer),
    .tick 100000, .perform 3,
    .enter 4 graceHeader (.changeRole (path "000000000000000000000001" (by decide)) .viewer),
    .tick 100000]

theorem promotion_isSome :
    ((apiSystem service twoUsers 1000).run promotion).isSome = true := by
  decide +kernel

/-- The routes after the promotion. -/
def afterPromotion : Api :=
  ((apiSystem service twoUsers 1000).run promotion).get promotion_isSome

theorem history_afterPromotion : afterPromotion.auth.history =
    [.read 0 (some grace), .loggedIn 0 grace (issueTokens service grace 2000),
      .failed 2 selfRoleChange, .roleChanged 1 .admin, .roleChanged 10 .viewer] := by
  decide +kernel

/-- A user registers where nobody is an admin. -/
def registration : List Api.Action :=
  [.register 0 2 "grace@example.com" "$2b$12$ada",
    .loginReads 1 "grace@example.com" "correct horse", .loginFinishes 1,
    .enter 2 ⟨"Bearer", some (service.tokens.signAccessToken { grace with role := .viewer } 1000)⟩
      (.changeRole (path "000000000000000000000001" (by decide)) .admin)]

theorem registration_isSome :
    ((apiSystem service oneUser 1000).run registration).isSome = true := by
  decide +kernel

/-- The routes after the registration. -/
def afterRegistration : Api :=
  ((apiSystem service oneUser 1000).run registration).get registration_isSome

end Schedule

open Schedule in
theorem roles_granted_by_admins_promotion :
    (∃ entry ∈ afterPromotion.entered, Granted service twoUsers [.read 0 (some grace),
      .loggedIn 0 grace (issueTokens service grace 2000), .failed 2 selfRoleChange] 1 .admin
        entry) ∧
    (∃ entry ∈ afterPromotion.entered, Granted service twoUsers [.read 0 (some grace),
      .loggedIn 0 grace (issueTokens service grace 2000), .failed 2 selfRoleChange,
        .roleChanged 1 .admin] 10 .viewer entry) ∧
    ∀ user ∈ afterRegistration.auth.users.values, user.role = .viewer ∨
      ∃ was ∈ oneUser.users.values, was.id = user.id ∧ was.role = user.role := by
  have promoted := Transition.System.get_run_reachable (apiSystem service twoUsers 1000)
    promotion promotion_isSome
  refine ⟨?_, ?_, ?_⟩
  · exact (roles_granted_by_admins promoted).1 _ [.roleChanged 10 .viewer] 1 .admin
      history_afterPromotion
  · exact (roles_granted_by_admins promoted).1 _ [] 10 .viewer history_afterPromotion
  · have reachable := Transition.System.get_run_reachable (apiSystem service oneUser 1000)
      registration registration_isSome
    exact ((roles_granted_by_admins reachable).2 (by decide) (by decide)).2

end WorkflowEngine.Auth
