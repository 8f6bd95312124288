import Mathlib

/-!
# Signed tokens and the services that read them

The auth service signs two kinds of tokens with one secret: access tokens, which name their user in
`sub`, and the challenge tokens of a login, which name it in `userId` and carry a `purpose`. A token
is its position in the list of the tokens that were issued; no other one has a valid signature.

An issued token records the login that it belongs to, and what held of its user and of that login
when it was issued; no service reads that.
-/

namespace CryptoVaultHub.Auth

abbrev UserId := Nat
abbrev ClientId := Nat

/-! ## Records -/

structure User where
  id : UserId
  email : String
  passwordHash : String
  role : String
  clientId : Option ClientId
  clientRole : Option String
  isActive : Bool
  totpSecret : Option String
  totpEnabled : Bool
deriving DecidableEq

/-- The payload of a token. -/
structure Claims where
  sub : Option UserId
  email : Option String
  role : Option String
  clientId : Option ClientId
  clientRole : Option String
  userId : Option UserId
  purpose : Option String
deriving DecidableEq

/-- An issued token, with its `exp` in seconds. -/
structure Issue where
  claims : Claims
  expiresAt : Nat
  login : Nat
  totpEnabled : Bool
  codeValidated : Bool
deriving DecidableEq

/-- A row of `sessions`, with its login. -/
structure Session where
  userId : UserId
  refreshToken : Nat
  expiresAt : Nat
  login : Nat
deriving DecidableEq

/-- A key `used:<user>:<code>` in Redis. -/
structure UsedCode where
  userId : UserId
  code : String
  expiresAt : Nat
deriving DecidableEq

/-- The tables, the keys in Redis, the clock in milliseconds, and the random refresh tokens that
were drawn. `validated` has the logins in which a TOTP code was accepted. -/
structure AuthState where
  users : List User
  sessions : List Session
  usedCodes : List UsedCode
  issued : List Issue
  now : Nat
  drawn : Nat
  logins : Nat
  validated : List Nat
deriving DecidableEq

namespace AuthState

def user? (state : AuthState) (id : UserId) : Option User :=
  state.users.find? fun user => user.id = id

/-- `jwt.verify`. -/
def verify (state : AuthState) (token : Nat) : Option Claims :=
  (state.issued[token]?).bind fun issue =>
    if state.now / 1000 < issue.expiresAt then some issue.claims else none

end AuthState

/-! ## The verifiers -/

/-- The purpose of a challenge token. -/
def challengePurpose : String := "2fa_challenge"

/-- The user in the answer of `GET /auth/validate`. -/
structure ValidatedUser where
  id : UserId
  email : String
  role : String
  clientId : Option ClientId
  clientRole : Option String
deriving DecidableEq

/-- `GET /auth/validate`. -/
def AuthState.validate (state : AuthState) (token : Nat) : Option ValidatedUser := do
  let claims ← state.verify token
  let userId ← claims.userId.or claims.sub
  let user ← state.user? userId
  return {
    id := user.id
    email := user.email
    role := user.role
    clientId := user.clientId.filter fun clientId => clientId ≠ 0
    clientRole := user.clientRole.or claims.clientRole }

/-- The payload check of `JwtStrategy` and of the guard of admin-api. -/
def AuthState.authenticate (state : AuthState) (token : Nat) : Option UserId := do
  let claims ← state.verify token
  claims.sub

/-- `mapRoleToScopes`. -/
def mapRoleToScopes (role : String) : List String :=
  match role with
  | "owner" => ["read", "write", "withdraw", "admin"]
  | "admin" => ["read", "write", "withdraw"]
  | _ => ["read"]

/-- `authenticateWithJwt` of the API key guard; the scopes are checked by the endpoint's list. -/
def AuthState.authenticateWithJwt (state : AuthState) (permits : List String → Bool)
    (token : Nat) : Option ClientId := do
  let user ← state.validate token
  if user.id = 0 then none else
    let clientId ← user.clientId
    if permits (mapRoleToScopes ((user.clientRole.filter fun role => role ≠ "").getD user.role))
    then return clientId else none

/-- The JWT-only guard. -/
def AuthState.jwtOnly (state : AuthState) (token : Nat) : Option ClientId := do
  let user ← state.validate token
  if user.id = 0 then none else user.clientId

/-- Who reads tokens besides the challenge endpoint. -/
inductive Verifier where
  | validate
  | jwtStrategy
  | apiKeyAuthGuard (permits : List String → Bool)
  | jwtOnlyAuthGuard
  | jwtAuthGuard

def Verifier.accepts (state : AuthState) (token : Nat) : Verifier → Bool
  | .validate => (state.validate token).isSome
  | .jwtStrategy | .jwtAuthGuard => (state.authenticate token).isSome
  | .apiKeyAuthGuard permits => (state.authenticateWithJwt permits token).isSome
  | .jwtOnlyAuthGuard => (state.jwtOnly token).isSome

/-- The guards of client-api ask `GET /auth/validate`. -/
def Verifier.asksValidate : Verifier → Bool
  | .validate | .apiKeyAuthGuard _ | .jwtOnlyAuthGuard => true
  | .jwtStrategy | .jwtAuthGuard => false

end CryptoVaultHub.Auth
