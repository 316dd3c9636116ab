import WorkflowEngine.Auth.History

/-!
# Requests of users

The routes of the users behind the authentication and permission checks.  A request is
let in on the strength of its access token alone, without a look at the users, and its
operation takes place some time later.  All processes read one clock.
-/

namespace WorkflowEngine.Auth

/-- What `header.split(" ")` makes of the Authorization header: the scheme, and the token
unless it is missing or empty. -/
structure Authorization where
  scheme : String
  token : Option Token

/-- `req.user` -/
structure Requester where
  id : UserId
  role : Option Role
  deriving DecidableEq

def malformedHeader : AppError :=
  unauthorizedError "Missing or malformed Authorization header" "UNAUTHENTICATED"

/-- Who are you?  The signature, the type and the expiry answer. -/
def authenticate (tokens : TokenConfig) (signed : List Token) (header : Authorization)
    (now : Time) : Except AppError Requester :=
  match header.token with
  | none => .error malformedHeader
  | some token =>
      if header.scheme ≠ "Bearer" then
        .error malformedHeader
      else
        match tokens.verifyAccessToken signed token now with
        | .error error => .error error
        | .ok claims => .ok { id := claims.sub, role := claims.role }

/-- May this role do this kind of thing?  An undefined role may do nothing. -/
def requirePermission (permission : Permission) (user : Requester) : Except AppError Unit :=
  if user.role.any fun role => hasPermission role permission then
    .ok ()
  else
    .error (forbiddenError permission)

/-- The routes that ask who you are. -/
inductive Request where
  /-- `POST /auth/logout` -/
  | logout
  /-- `PATCH /users/:id/role` -/
  | changeRole (target : PathId) (role : Role)
  deriving DecidableEq

/-- The checks in front of a route. -/
def Request.check (user : Requester) : Request → Except AppError Unit
  | .logout => .ok ()
  | .changeRole _ _ => requirePermission .userManage user

/-- A request that was let in, and its operation not yet performed. -/
structure Admission where
  token : Token
  user : Requester
  admittedAt : Time
  request : Request

/-- A request that was let in, and what the service had recorded by then. -/
structure Entry where
  admission : Admission
  seen : List Event

structure Api where
  auth : State
  now : Time
  admissions : CallId → Option Admission
  /-- all requests that were ever let in -/
  entered : List Entry

namespace Api

inductive Action where
  /-- time passes -/
  | tick (ms : Nat)
  | register (call : CallId) (id : UserId) (email passwordHash : String)
  | loginReads (call : CallId) (email password : String)
  | loginFinishes (call : CallId)
  | refreshVerifies (call : CallId) (token : Token)
  | refreshReads (call : CallId)
  | refreshFinishes (call : CallId)
  | enter (call : CallId) (header : Authorization) (request : Request)
  | perform (call : CallId)

variable (deps : Deps)

/-- The operation on the users that an admitted request asks for. -/
def operation (call : CallId) (admission : Admission) : Auth.Action :=
  match admission.request with
  | .logout => .logoutAll call admission.user.id
  | .changeRole target role => .changeRole call admission.user.id target role

/-- A step of the service, now. -/
def service (api : Api) (action : Auth.Action) : Option Api :=
  (step deps api.auth action).map fun auth => { api with auth }

/-- Let a request in, or answer it with an error. -/
def enter (api : Api) (call : CallId) (header : Authorization) (request : Request) : Api :=
  match header.token, authenticate deps.tokens api.auth.signed header api.now with
  | some token, .ok user =>
      match request.check user with
      | .ok () =>
          let admission : Admission := { token, user, admittedAt := api.now, request }
          { api with
            admissions := Function.update api.admissions call (some admission)
            entered := api.entered ++ [⟨admission, api.auth.history⟩] }
      | .error _ => api
  | _, _ => api

def step (api : Api) : Action → Option Api
  | .tick ms => some { api with now := api.now + ms }
  | .register call id email passwordHash =>
      api.service deps (.create call id email passwordHash .viewer)
  | .loginReads call email password => api.service deps (.loginReads call email password)
  | .loginFinishes call => api.service deps (.loginFinishes call api.now)
  | .refreshVerifies call token => api.service deps (.refreshVerifies call token api.now)
  | .refreshReads call => api.service deps (.refreshReads call)
  | .refreshFinishes call => api.service deps (.refreshFinishes call api.now)
  | .enter call header request =>
      match api.admissions call with
      | some _ => none
      | none => some (api.enter deps call header request)
  | .perform call =>
      match api.admissions call with
      | some admission =>
          (api.service deps (operation call admission)).map fun next =>
            { next with admissions := Function.update next.admissions call none }
      | none => none

end Api

/-- The routes of the users, from some users and some tokens at some time. -/
def apiSystem (deps : Deps) (start : Start) (now : Time) : Transition.System Api Api.Action where
  init := { auth := (system deps start).init, now, admissions := fun _ => none, entered := [] }
  step := Api.step deps

end WorkflowEngine.Auth
