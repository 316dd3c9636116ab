import WorkflowEngine.Auth.Tokens
import WorkflowEngine.Foundations.Transition

/-!
# The authentication service

Calls of the service interleave between their operations on the users: a login and
a refresh read the user in one step and sign in a later one.  The history records
the operations in the order in which they took place and what each call returned.
-/

namespace WorkflowEngine

open DocStore

instance : Document Account UserId where
  id := Account.id
  clash left right := left.email == right.email

/-- The collection of users is the whole database of the service. -/
instance : Holds (Collection Account) Account where
  get := id
  set _ users := users
  get_set _ _ := rfl
  set_get _ := rfl

namespace Auth

/-! ## Ids in texts -/

/-- `String(_id)`: 24 hexadecimal digits in lower case. -/
def idText (id : UserId) : String := String.ofList ((Nat.toDigits 16 id).leftpad 24 '0')

/-- The value of a hexadecimal digit in either case. -/
def hexValue? (char : Char) : Option Nat :=
  if '0' ≤ char && char ≤ '9' then some (char.toNat - 48)
  else if 'a' ≤ char && char ≤ 'f' then some (char.toNat - 87)
  else if 'A' ≤ char && char ≤ 'F' then some (char.toNat - 55)
  else none

/-- The id that Mongoose casts a text of 24 hexadecimal digits to. -/
def castId (text : String) : Option UserId :=
  if text.length = 24 then
    text.toList.foldlM (fun value char => (hexValue? char).map (16 * value + ·)) 0
  else
    none

/-- An id in a path that `mongoose.isValidObjectId` accepts, as it was written and as it is
cast. -/
structure PathId where
  text : String
  id : UserId
  isValid : castId text = some id
  deriving DecidableEq

/-! ## Operations -/

/-- What the service is created with.  `verifyPassword` is bcrypt's comparison. -/
structure Deps where
  tokens : TokenConfig
  verifyPassword : (plain hash : String) → Bool
  dummyHash : String

structure IssuedTokens where
  tokenType : String
  accessToken : Token
  expiresIn : String
  refreshToken : Token
  deriving DecidableEq

/-- An operation on the users outside a transaction. -/
abbrev Op := Session (Collection Account) AppError

variable (deps : Deps)

def issueTokens (user : Account) (now : Time) : IssuedTokens where
  tokenType := "Bearer"
  accessToken := deps.tokens.signAccessToken user now
  expiresIn := deps.tokens.accessTtl
  refreshToken := deps.tokens.signRefreshToken user now

def emailTaken : AppError :=
  conflictError "An account with this email already exists" "EMAIL_TAKEN" .none

def invalidCredentials : AppError :=
  unauthorizedError "Invalid email or password" "INVALID_CREDENTIALS"

def tokenRevoked : AppError :=
  unauthorizedError "Refresh token has been revoked" "TOKEN_REVOKED"

def selfRoleChange : AppError :=
  { message := "You cannot change your own role"
    statusCode := 403, code := "SELF_ROLE_CHANGE", details := .none }

/-- `User.create`: by `register` with the schema's defaults, by the script that
makes the first admin with another role. -/
def create (id : UserId) (email passwordHash : String) (role : Role) : Op Account := do
  let user : Account := { id, email, passwordHash, role, tokenVersion := 0 }
  Session.create emailTaken user
  return user

/-- `login`: the read of the user. -/
def findByEmail (email : String) : Op (Option Account) := do
  let users ← Session.find Account fun user => user.email == email
  return users.head?

/-- `login` after the read: one comparison, whether or not the user exists. -/
def loginFound (password : String) (user : Option Account) (now : Time) :
    Except AppError (Account × IssuedTokens) :=
  let hash := match user with
    | some user => user.passwordHash
    | none => deps.dummyHash
  match user, deps.verifyPassword password hash with
  | some user, true => .ok (user, issueTokens deps user now)
  | _, _ => .error invalidCredentials

/-- `refresh` after the read of the user of the token. -/
def refreshFound (claims : Claims) (user : Option Account) (now : Time) :
    Except AppError IssuedTokens :=
  match user with
  | none => .error tokenRevoked
  | some user =>
      if some user.tokenVersion ≠ claims.tv then
        .error tokenRevoked
      else
        .ok (issueTokens deps user now)

/-- `{ $inc: { tokenVersion: 1 } }` -/
def revoke : Update Account where
  filter _ := true
  set user := { user with tokenVersion := user.tokenVersion + 1 }
  id_set _ := rfl

/-- `{ $set: { role }, $inc: { tokenVersion: 1 } }` -/
def assignRole (role : Role) : Update Account where
  filter _ := true
  set user := { user with role, tokenVersion := user.tokenVersion + 1 }
  id_set _ := rfl

def logoutAll (userId : UserId) : Op Unit := do
  let _ ← Session.updateOne userId revoke

/-- The ids are compared as they are written. -/
def changeRole (actorId : UserId) (target : PathId) (role : Role) : Op Account := do
  if idText actorId = target.text then
    throw selfRoleChange
  match ← Session.findOneAndUpdate target.id (assignRole role) with
  | none => throw (notFoundError "User not found")
  | some user => return user

/-! ## Calls in flight -/

abbrev CallId := Nat

/-- How far a `login` or a `refresh` has come. -/
inductive Call where
  | loggingIn (password : String) (user : Option Account)
  | verified (token : Token) (claims : Claims)
  | refreshing (token : Token) (claims : Claims) (user : Option Account)
  | returned

inductive Event where
  | created (user : Account)
  | loggedOutAll (userId : UserId)
  | roleChanged (userId : UserId) (role : Role)
  /-- a `login` or a `refresh` read the user -/
  | read (call : CallId) (user : Option Account)
  | loggedIn (call : CallId) (user : Account) (tokens : IssuedTokens)
  | refreshed (call : CallId) (token : Token) (tokens : IssuedTokens)
  | failed (call : CallId) (error : AppError)
  deriving DecidableEq

structure State where
  users : Collection Account
  /-- the tokens that exist -/
  signed : List Token
  calls : CallId → Option Call
  history : List Event

inductive Action where
  | create (call : CallId) (id : UserId) (email passwordHash : String) (role : Role)
  | loginReads (call : CallId) (email password : String)
  | loginFinishes (call : CallId) (now : Time)
  | refreshVerifies (call : CallId) (token : Token) (now : Time)
  | refreshReads (call : CallId)
  | refreshFinishes (call : CallId) (now : Time)
  | logoutAll (call : CallId) (userId : UserId)
  | changeRole (call : CallId) (actorId : UserId) (target : PathId) (role : Role)

namespace State

def record (state : State) (event : Event) : State :=
  { state with history := state.history ++ [event] }

def progress (state : State) (call : CallId) (next : Call) : State :=
  { state with calls := Function.update state.calls call (some next) }

def sign (state : State) (tokens : IssuedTokens) : State :=
  { state with signed := state.signed ++ [tokens.accessToken, tokens.refreshToken] }

/-- Run an operation on the users; what it threw is what the call returns. -/
def perform {α : Type} (state : State) (call : CallId) (op : Op α) (done : α → State → State) :
    State :=
  match op.run state.users with
  | .error error => state.record (.failed call error)
  | .ok (result, users) => done result { state with users }

/-- A call returns what it decided on the user that it read. -/
def finish {α : Type} (state : State) (call : CallId) (result : Except AppError α)
    (done : α → State → State) : State :=
  match result with
  | .error error => (state.progress call .returned).record (.failed call error)
  | .ok value => done value (state.progress call .returned)

end State

def step (state : State) : Action → Option State
  | .create call id email passwordHash role =>
      some (state.perform call (create id email passwordHash role) fun user next =>
        next.record (.created user))
  | .loginReads call email password =>
      match state.calls call with
      | some _ => none
      | none =>
          some (state.perform call (findByEmail email) fun user next =>
            (next.progress call (.loggingIn password user)).record (.read call user))
  | .loginFinishes call now =>
      match state.calls call with
      | some (.loggingIn password user) =>
          some (state.finish call (loginFound deps password user now) fun result next =>
            (next.sign result.2).record (.loggedIn call result.1 result.2))
      | _ => none
  | .refreshVerifies call token now =>
      match state.calls call with
      | some _ => none
      | none =>
          some (match deps.tokens.verifyRefreshToken state.signed token now with
            | .error error => (state.progress call .returned).record (.failed call error)
            | .ok claims => state.progress call (.verified token claims))
  | .refreshReads call =>
      match state.calls call with
      | some (.verified token claims) =>
          some (state.perform call (Session.findById Account claims.sub) fun user next =>
            (next.progress call (.refreshing token claims user)).record (.read call user))
      | _ => none
  | .refreshFinishes call now =>
      match state.calls call with
      | some (.refreshing token claims user) =>
          some (state.finish call (refreshFound deps claims user now) fun tokens next =>
            (next.sign tokens).record (.refreshed call token tokens))
      | _ => none
  | .logoutAll call userId =>
      some (state.perform call (logoutAll userId) fun _ next => next.record (.loggedOutAll userId))
  | .changeRole call actorId target role =>
      some (state.perform call (changeRole actorId target role) fun user next =>
        next.record (.roleChanged user.id role))

/-- The users and the tokens that exist when the service starts, no two users with
one identifier. -/
structure Start where
  users : Collection Account
  signed : List Token
  ids_nodup : users.ids.Nodup

def system (start : Start) : Transition.System State Action where
  init := { users := start.users, signed := start.signed, calls := fun _ => none, history := [] }
  step := step deps

end Auth

end WorkflowEngine
