import CryptoVaultHub.Auth.Tokens
import CryptoVaultHub.Semantics.Execution

/-!
# Requests to the auth service

The endpoints that open, continue and end logins, and those that turn two-factor authentication on
and off. A request that is refused before it changes anything is `none`. The rate limiters admit a
request or not.
-/

namespace CryptoVaultHub.Auth

/-- The configuration, the password check, and the check of a TOTP code against a secret. -/
structure Settings where
  comparePassword : String → String → Bool
  otpVerify : String → String → Nat → Bool
  jwtExpiresIn : Nat
  refreshTokenTtlMs : Nat

/-- `TOTP_USED_CODE_TTL`, in milliseconds. -/
def totpUsedCodeTtl : Nat := 90000

/-- The lifetime of a challenge token, in seconds. -/
def challengeTtl : Nat := 120

/-- An invite that `validateToken` accepts. -/
structure Invite where
  email : String
  clientId : ClientId
deriving DecidableEq

namespace AuthState

/-! ## Tokens -/

/-- Sign a token. -/
def sign (state : AuthState) (claims : Claims) (expiresIn login : Nat) (user : User) :
    AuthState :=
  { state with
    issued := state.issued ++
      [⟨claims, state.now / 1000 + expiresIn, login, user.totpEnabled,
        login ∈ state.validated⟩] }

def accessClaims (user : User) : Claims where
  sub := some user.id
  email := some user.email
  role := some user.role
  clientId := user.clientId
  clientRole := user.clientRole
  userId := none
  purpose := none

def challengeClaims (user : User) : Claims where
  sub := none
  email := none
  role := none
  clientId := none
  clientRole := none
  userId := some user.id
  purpose := some challengePurpose

/-- `issueTokens`. -/
def issueTokens (settings : Settings) (state : AuthState) (user : User) (login : Nat) :
    AuthState :=
  let signed := state.sign (accessClaims user) settings.jwtExpiresIn login user
  { signed with
    sessions := signed.sessions ++
      [⟨user.id, state.drawn, state.now + settings.refreshTokenTtlMs, login⟩]
    drawn := state.drawn + 1 }

/-! ## TOTP codes -/

def isCodeUsed (state : AuthState) (userId : UserId) (code : String) : Bool :=
  state.usedCodes.any fun used =>
    used.userId = userId && used.code = code && state.now < used.expiresAt

/-- `markCodeUsed`, in a login. -/
def markCodeUsed (state : AuthState) (userId : UserId) (code : String) (login : Nat) : AuthState :=
  { state with
    usedCodes := ⟨userId, code, state.now + totpUsedCodeTtl⟩ :: state.usedCodes
    validated := login :: state.validated }

/-- `validateCode`; `none` when it throws or the code is invalid. -/
def validateCode (settings : Settings) (state : AuthState) (userId : UserId) (code : String)
    (login : Nat) : Option AuthState := do
  let user ← state.user? userId
  let secret ← user.totpSecret
  if user.totpEnabled && !state.isCodeUsed userId code &&
      settings.otpVerify code secret state.now then
    return state.markCodeUsed userId code login
  else none

/-! ## Logins -/

/-- `completeLoginAfter2fa`; the code stays used when the user is not active. -/
def completeLoginAfter2fa (settings : Settings) (state : AuthState) (userId : UserId)
    (login : Nat) : AuthState :=
  match state.user? userId with
  | some user => if user.isActive then state.issueTokens settings user login else state
  | none => state

/-- `POST /auth/login`. -/
def login (settings : Settings) (state : AuthState) (email password : String)
    (totpCode : Option String) (admitted : Bool) : Option AuthState := do
  let user ← state.users.find? fun user => user.email = email
  if admitted && user.isActive && settings.comparePassword password user.passwordHash then
    let opened := { state with logins := state.logins + 1 }
    if user.totpEnabled then
      match totpCode.filter fun code => code ≠ "" with
      | some code =>
        let accepted ← opened.validateCode settings user.id code state.logins
        return accepted.completeLoginAfter2fa settings user.id state.logins
      | none => return opened.sign (challengeClaims user) challengeTtl state.logins user
    else return opened.issueTokens settings user state.logins
  else none

/-- `POST /auth/2fa/challenge`. -/
def verify2faChallenge (settings : Settings) (state : AuthState) (token : Nat) (code : String)
    (admitted : Bool) : Option AuthState := do
  let issue ← state.issued[token]?
  let claims ← state.verify token
  let userId ← claims.userId
  if claims.purpose = some challengePurpose && admitted then
    let accepted ← state.validateCode settings userId code issue.login
    return accepted.completeLoginAfter2fa settings userId issue.login
  else none

/-- `POST /auth/refresh`. -/
def refresh (settings : Settings) (state : AuthState) (refreshToken : Nat) : Option AuthState := do
  let session ← state.sessions.find? fun session =>
    session.refreshToken = refreshToken && state.now < session.expiresAt
  let user ← state.user? session.userId
  if user.isActive then
    return { state with sessions := state.sessions.erase session }.issueTokens settings user
      session.login
  else none

/-- `POST /auth/logout`. -/
def logout (state : AuthState) (refreshToken : Nat) : AuthState :=
  { state with
    sessions := state.sessions.filter fun session => session.refreshToken ≠ refreshToken }

/-- `acceptInvite`. -/
def acceptInvite (settings : Settings) (state : AuthState) (invite : Invite)
    (passwordHash : String) : Option AuthState :=
  if state.users.any fun user => user.email = invite.email then none
  else
    let user : User :=
      { id := (state.users.map User.id).foldr max 0 + 1
        email := invite.email
        passwordHash := passwordHash
        role := "viewer"
        clientId := some invite.clientId
        clientRole := some "owner"
        isActive := true
        totpSecret := none
        totpEnabled := false }
    some ({ state with users := state.users ++ [user], logins := state.logins + 1 }.issueTokens
      settings user state.logins)

/-! ## Two-factor authentication -/

def updateUser (state : AuthState) (id : UserId) (change : User → User) : AuthState :=
  { state with users := state.users.map fun user => if user.id = id then change user else user }

/-- `POST /auth/2fa/setup`, with the secret that is generated. -/
def setup2fa (state : AuthState) (token : Nat) (secret : String) : Option AuthState := do
  let userId ← state.authenticate token
  let user ← state.user? userId
  if user.totpEnabled then none
  else return state.updateUser userId fun user => { user with totpSecret := some secret }

/-- `POST /auth/2fa/verify`. -/
def verify2fa (settings : Settings) (state : AuthState) (token : Nat) (code : String) :
    Option AuthState := do
  let issue ← state.issued[token]?
  let userId ← state.authenticate token
  let user ← state.user? userId
  let secret ← user.totpSecret
  if !state.isCodeUsed userId code && settings.otpVerify code secret state.now then
    return (state.markCodeUsed userId code issue.login).updateUser userId fun user =>
      { user with totpEnabled := true }
  else none

/-- `POST /auth/2fa/disable`. -/
def disable2fa (settings : Settings) (state : AuthState) (token : Nat) (password code : String) :
    Option AuthState := do
  let issue ← state.issued[token]?
  let userId ← state.authenticate token
  let user ← state.user? userId
  if settings.comparePassword password user.passwordHash then
    let accepted ← state.validateCode settings userId code issue.login
    return accepted.updateUser userId fun user =>
      { user with totpSecret := none, totpEnabled := false }
  else none

end AuthState

/-! ## The system -/

/-- A request that can change something, or the passing of time. -/
inductive Request where
  | login (email password : String) (totpCode : Option String) (admitted : Bool)
  | challenge (token : Nat) (code : String) (admitted : Bool)
  | refresh (refreshToken : Nat)
  | logout (refreshToken : Nat)
  | acceptInvite (invite : Invite) (passwordHash : String)
  | setup (token : Nat) (secret : String)
  | verify (token : Nat) (code : String)
  | disable (token : Nat) (password code : String)
  | wait (milliseconds : Nat)

def AuthState.step (settings : Settings) (state : AuthState) : Request → Option AuthState
  | .login email password totpCode admitted =>
    state.login settings email password totpCode admitted
  | .challenge token code admitted => state.verify2faChallenge settings token code admitted
  | .refresh refreshToken => state.refresh settings refreshToken
  | .logout refreshToken => some (state.logout refreshToken)
  | .acceptInvite invite passwordHash => state.acceptInvite settings invite passwordHash
  | .setup token secret => state.setup2fa token secret
  | .verify token code => state.verify2fa settings token code
  | .disable token password code => state.disable2fa settings token password code
  | .wait milliseconds => some { state with now := state.now + milliseconds }

/-- The auth service, from any users and before the first login. -/
def authService (settings : Settings) : TransitionSystem AuthState Request where
  Initial state := state.issued = [] ∧ state.sessions = []
  step := AuthState.step settings

end CryptoVaultHub.Auth
