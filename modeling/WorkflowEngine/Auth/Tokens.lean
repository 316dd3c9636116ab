import WorkflowEngine.Services.Access

/-!
# Tokens

The token service over the signatures that exist.  A token is what was signed
together with the key it was signed under; `jwt.verify` accepts a token only if
it was signed, so a client that does not know a key presents signed tokens or is
refused.
-/

namespace WorkflowEngine

inductive TokenType where
  | access | refresh
  deriving DecidableEq, Repr

/-- The payload of a token.  A field that was not signed reads as undefined. -/
structure Claims where
  sub : UserId
  role : Option Role
  tv : Option Nat
  type : TokenType
  deriving DecidableEq, Repr

/-- What `jwt.sign` makes of a payload. -/
structure Token where
  claims : Claims
  issuer : String
  expiresAt : Time
  algorithm : String
  secret : String
  deriving DecidableEq, Repr

/-- A document of the users. -/
structure Account where
  id : UserId
  email : String
  passwordHash : String
  role : Role
  tokenVersion : Nat
  deriving DecidableEq, Repr

/-- `createTokenService`'s configuration; `timespan` is how the library reads a
time to live, in seconds. -/
structure TokenConfig where
  accessSecret : String
  refreshSecret : String
  accessTtl : String
  refreshTtl : String
  timespan : String → Int

def unauthorizedError (message code : String) : AppError :=
  { message, statusCode := 401, code, details := .none }

/-- Why `jwt.verify` throws. -/
inductive JwtError where
  | tokenExpired | jsonWebToken
  deriving DecidableEq, Repr

/-- The whole seconds of a clock reading. -/
def clockTimestamp (now : Time) : Int := now / 1000

/-- `jwt.verify` when the tokens in `signed` are the ones that were ever signed. -/
def jwtVerify (signed : List Token) (token : Token) (secret algorithm issuer : String)
    (now : Time) : Except JwtError Claims :=
  if token ∉ signed ∨ token.secret ≠ secret ∨ token.algorithm ≠ algorithm then
    .error .jsonWebToken
  else if token.expiresAt ≤ clockTimestamp now then
    .error .tokenExpired
  else if token.issuer ≠ issuer then
    .error .jsonWebToken
  else
    .ok token.claims

/-- `ISSUER` -/
def tokenIssuer : String := "workflow-engine"

/-- `ALGORITHM` -/
def tokenAlgorithm : String := "HS256"

namespace TokenConfig

variable (config : TokenConfig)

def sign (payload : Claims) (secret expiresIn : String) (now : Time) : Token where
  claims := payload
  issuer := tokenIssuer
  expiresAt := clockTimestamp now + config.timespan expiresIn
  algorithm := tokenAlgorithm
  secret := secret

/-- The token never chooses how it is checked. -/
def verify (signed : List Token) (token : Token) (secret : String) (expectedType : TokenType)
    (now : Time) : Except AppError Claims :=
  match jwtVerify signed token secret tokenAlgorithm tokenIssuer now with
  | .error .tokenExpired => .error (unauthorizedError "Token has expired" "TOKEN_EXPIRED")
  | .error .jsonWebToken => .error (unauthorizedError "Invalid token" "INVALID_TOKEN")
  | .ok claims =>
      if claims.type ≠ expectedType then
        .error (unauthorizedError "Invalid token" "INVALID_TOKEN")
      else
        .ok claims

def signAccessToken (user : Account) (now : Time) : Token :=
  config.sign { sub := user.id, role := some user.role, tv := none, type := .access }
    config.accessSecret config.accessTtl now

def signRefreshToken (user : Account) (now : Time) : Token :=
  config.sign { sub := user.id, role := none, tv := some user.tokenVersion, type := .refresh }
    config.refreshSecret config.refreshTtl now

def verifyAccessToken (signed : List Token) (token : Token) (now : Time) :
    Except AppError Claims :=
  verify signed token config.accessSecret .access now

def verifyRefreshToken (signed : List Token) (token : Token) (now : Time) :
    Except AppError Claims :=
  verify signed token config.refreshSecret .refresh now

end TokenConfig

/-- Verification accepts the signed tokens with the key, the algorithm, the issuer
and the type asked for that are not expired, and reads their payload. -/
theorem verify_eq_ok {signed : List Token} {token : Token} {secret : String}
    {expectedType : TokenType} {now : Time} {claims : Claims} :
    TokenConfig.verify signed token secret expectedType now = .ok claims ↔
      token ∈ signed ∧ token.secret = secret ∧ token.algorithm = tokenAlgorithm ∧
        token.issuer = tokenIssuer ∧ clockTimestamp now < token.expiresAt ∧
        token.claims.type = expectedType ∧ claims = token.claims := by
  constructor
  · intro accepted
    simp only [TokenConfig.verify, jwtVerify] at accepted
    split at accepted
    · cases accepted
    · cases accepted
    · next read verified =>
      split at verified
      · cases verified
      · next known =>
        split at verified
        · cases verified
        · next fresh =>
          split at verified
          · cases verified
          · next issued =>
            cases verified
            split at accepted
            · cases accepted
            · next typed =>
              cases accepted
              simp only [not_or, not_not] at known issued typed
              exact ⟨known.1, known.2.1, known.2.2, issued, Int.not_le.mp fresh, typed, rfl⟩
  · intro genuine
    obtain ⟨known, key, algorithm, issuer, fresh, typed, rfl⟩ := genuine
    have current : ¬ token.expiresAt ≤ clockTimestamp now := Int.not_le.mpr fresh
    simp [TokenConfig.verify, jwtVerify, known, key, algorithm, issuer, current, typed]

/-- A token that was signed is accepted, as what it was signed as, while it lives. -/
theorem verifyRefreshToken_signRefreshToken {config : TokenConfig} {signed : List Token}
    {user : Account} {signedAt now : Time}
    (known : config.signRefreshToken user signedAt ∈ signed)
    (lives : clockTimestamp now < clockTimestamp signedAt + config.timespan config.refreshTtl) :
    config.verifyRefreshToken signed (config.signRefreshToken user signedAt) now =
      .ok (config.signRefreshToken user signedAt).claims :=
  verify_eq_ok.mpr ⟨known, rfl, rfl, rfl, lives, rfl, rfl⟩

/-- An access token is no refresh token, also under equal keys. -/
theorem verifyRefreshToken_signAccessToken {config : TokenConfig} {signed : List Token}
    {user : Account} {signedAt now : Time} {claims : Claims} :
    config.verifyRefreshToken signed (config.signAccessToken user signedAt) now ≠ .ok claims := by
  intro accepted
  have genuine := verify_eq_ok.mp accepted
  cases genuine.2.2.2.2.2.1

end WorkflowEngine
