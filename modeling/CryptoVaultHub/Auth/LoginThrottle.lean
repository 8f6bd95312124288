import CryptoVaultHub.Auth.Tokens
import CryptoVaultHub.Semantics.Calls
import CryptoVaultHub.Semantics.CountingWindows

/-!
# The throttling of logins

`POST /auth/login` counts its attempts in Redis, and locks an address after failed ones. The keys
hold the e-mail address as it stands in the request, while the user is found under the collation of
the database. The process can die between the `INCR` of a counter and its `EXPIRE`.

Requests run one after another, and time passes between them. A state has a log of what happens to
the logins of one account, whatever the spelling of its address; no request reads it.
-/

namespace CryptoVaultHub.Auth.LoginThrottle

open TransitionSystem

/-! ## States -/

inductive LoginKey where
  | lockout (email : String)
  | ip (address : String)
  | email (email : String)
  | failures (email : String)
deriving DecidableEq

/-- The counters, each with an `INCR` and an `EXPIRE`. -/
inductive Counter where
  | ip
  | email
  | failures
deriving DecidableEq

inductive Failure where
  | tooManyRequests (message : String)
  | unauthorized (message : String)
  | thrown
  | died
deriving DecidableEq

inductive LoginEvent where
  /-- An attempt is counted. -/
  | counted
  /-- The password is compared. -/
  | checked (passed : Bool)
  /-- A login succeeds, and its counters are deleted. -/
  | reset
deriving DecidableEq

structure LogEntry where
  time : Nat
  event : LoginEvent
deriving DecidableEq

abbrev Redis := ExpiringStore LoginKey Nat

/-- Redis, and the log of an account, the latest entry first. -/
structure LoginState where
  redis : Redis
  log : List LogEntry

/-- The users, how the database compares their addresses, and the password check. -/
structure Directory where
  users : List User
  collation : String → String
  comparePassword : String → String → Bool

/-- The body and the IP address of a request, and what happens to it: the answer of `validateCode`,
`none` when it throws, whether the tokens are issued, and the counter at which the process dies. -/
structure Request where
  email : String
  password : String
  totpCode : Option String
  ip : Option String
  codeValid : Option Bool
  issuesTokens : Bool
  dies : Option Counter

/-- What `JwtAuthService.login` returns; the tokens are left out. -/
structure LoginResult where
  user : User
  requires2fa : Bool

inductive LoginAnswer where
  | loggedIn (user : User)
  | challenge (userId : UserId) (message : String)

abbrev Attempt := Call LoginState Failure

variable (directory : Directory) (account : User)

/-- `findUnique` by the address. -/
def Directory.findUnique (email : String) : Option User :=
  directory.users.find? fun user => directory.collation user.email = directory.collation email

/-- The address is a spelling of that of the account. -/
@[reducible] def Spells (email : String) : Prop := directory.findUnique email = some account

/-! ## Requests -/

/-- A command to Redis. -/
def redis {Value : Type} (command : Redis → Redis × Value) : Attempt Value :=
  Call.act fun state => ({ state with redis := (command state.redis).1 }, (command state.redis).2)

/-- An entry in the log of the account. -/
def note (email : String) (event : LoginEvent) : Attempt Unit :=
  Call.act fun state =>
    (if Spells directory account email then
      { state with log := ⟨state.redis.now, event⟩ :: state.log }
    else state, ())

/-- The answer of `TTL`. -/
def ttlAnswer : Option (Option Nat) → Int
  | none => -2
  | some none => -1
  | some (some seconds) => seconds

/-- `windowSec`. -/
def windowSec : Nat := 5 * 60

def lockoutWindowSec : Nat := 15 * 60

/-- `INCR`, and `EXPIRE` after the first. -/
def count (key : LoginKey) (seconds : Nat) (dies : Bool) : Attempt Nat := do
  let counted ← redis fun store => store.incr key
  if counted = 1 then
    Call.refuseIf dies .died
    redis fun store => (store.expire key seconds, ())
    return counted
  else
    return counted

def checkAndTrackLoginAttempt (email ip : String) (dies : Option Counter) : Attempt Unit := do
  let lockoutTtl ← redis fun store => (store, ttlAnswer (store.ttl (.lockout email)))
  Call.refuseIf (0 < lockoutTtl) <|
    .tooManyRequests s!"Account temporarily locked. Try again in {lockoutTtl} seconds."
  let ipCount ← count (.ip ip) windowSec (dies = some .ip)
  Call.refuseIf (5 < ipCount) <|
    .tooManyRequests "Too many login attempts from this IP. Try again later."
  note directory account email .counted
  let emailCount ← count (.email email) windowSec (dies = some .email)
  Call.refuseIf (5 < emailCount) <|
    .tooManyRequests "Too many login attempts for this account. Try again later."

def recordFailedLogin (email : String) (dies : Option Counter) : Attempt Unit := do
  let failures ← count (.failures email) lockoutWindowSec (dies = some .failures)
  if 10 ≤ failures then
    redis fun store => (store.setEx (.lockout email) 1 lockoutWindowSec, ())
    redis fun store => (store.del (.failures email), ())
  else
    return ()

def resetLoginAttempts (email ip : String) : Attempt Unit := do
  note directory account email .reset
  redis fun store =>
    ((((store.del (.email email)).del (.ip ip)).del (.lockout email)).del (.failures email), ())

def JwtAuthService.login (request : Request) : Attempt LoginResult :=
  match (directory.findUnique request.email).filter User.isActive with
  | none => do
    recordFailedLogin request.email request.dies
    Call.fail (.unauthorized "Invalid credentials")
  | some user => do
    let passwordValid := directory.comparePassword request.password user.passwordHash
    note directory account request.email (.checked passwordValid)
    if passwordValid then
      if user.totpEnabled then
        return ⟨user, true⟩
      else
        Call.refuseIf (!request.issuesTokens) .thrown
        return ⟨user, false⟩
    else
      recordFailedLogin request.email request.dies
      Call.fail (.unauthorized "Invalid credentials")

def completeLoginAfter2fa (userId : UserId) (request : Request) : Attempt LoginAnswer :=
  match (directory.users.find? fun user => user.id = userId).filter User.isActive with
  | none => Call.fail (.unauthorized "User not found or inactive")
  | some user => do
    Call.refuseIf (!request.issuesTokens) .thrown
    return .loggedIn user

/-- `req.ip ?? 'unknown'`. -/
def Request.address (request : Request) : String := request.ip.getD "unknown"

/-- The part of `POST /auth/login` behind the check of the password. -/
def AuthController.answer (request : Request) (result : LoginResult) : Attempt LoginAnswer :=
  if result.requires2fa then
    match request.totpCode.filter fun code => code ≠ "" with
    | some _ => do
      Call.refuseIf (request.codeValid = none) .thrown
      Call.refuseIf (request.codeValid = some false) (.unauthorized "Invalid TOTP code")
      resetLoginAttempts directory account request.email request.address
      completeLoginAfter2fa directory result.user.id request
    | none => return .challenge result.user.id "Two-factor authentication required"
  else do
    resetLoginAttempts directory account request.email request.address
    return .loggedIn result.user

/-- `POST /auth/login`. -/
def AuthController.login (request : Request) : Attempt LoginAnswer := do
  checkAndTrackLoginAttempt directory account request.email request.address request.dies
  let result ← JwtAuthService.login directory account request
  AuthController.answer directory account request result

inductive LoginAction where
  | login (request : Request)
  | wait (seconds : Nat)

def LoginState.advance (state : LoginState) (seconds : Nat) : LoginState :=
  { state with redis := state.redis.advance seconds }

/-- Login requests, from an empty Redis on. -/
def loginSystem : TransitionSystem LoginState LoginAction where
  Initial state := ∃ now, state = ⟨.empty now, []⟩
  step state
    | .login request => some (AuthController.login directory account request state).2
    | .wait seconds => some (state.advance seconds)

/-! ## What should hold of the log -/

/-- The window of the attempts; a successful login ends it. -/
def attemptWindow : List LogEntry → Option Window
  | [] => none
  | ⟨now, .counted⟩ :: log => some (Window.hit windowSec now (attemptWindow log))
  | ⟨_, .checked _⟩ :: log => attemptWindow log
  | ⟨_, .reset⟩ :: _ => none

/-- The password checks in that window. -/
def checksInWindow : List LogEntry → Nat
  | [] => 0
  | ⟨now, .counted⟩ :: log =>
    if (Window.current windowSec now (attemptWindow log)).isSome then checksInWindow log else 0
  | ⟨_, .checked _⟩ :: log => checksInWindow log + 1
  | ⟨_, .reset⟩ :: _ => 0

/-- The window of the failed checks; a successful login ends it, and the tenth of them. -/
def failingWindow : List LogEntry → Option Window
  | [] => none
  | ⟨now, .checked false⟩ :: log =>
    let window := Window.hit lockoutWindowSec now (failingWindow log)
    if 10 ≤ window.hits then none else some window
  | ⟨_, .reset⟩ :: _ => none
  | ⟨_, .checked true⟩ :: log | ⟨_, .counted⟩ :: log => failingWindow log

/-- Until when the failed checks of one window lock the account. -/
def lockedByWindow : List LogEntry → Nat
  | [] => 0
  | ⟨now, .checked false⟩ :: log =>
    if 10 ≤ (Window.hit lockoutWindowSec now (failingWindow log)).hits then
      now + lockoutWindowSec
    else lockedByWindow log
  | ⟨_, .reset⟩ :: log | ⟨_, .checked true⟩ :: log | ⟨_, .counted⟩ :: log => lockedByWindow log

/-- The failed checks of the last 15 minutes. -/
def recentFailures (now : Nat) (log : List LogEntry) : Nat :=
  log.countP fun entry => entry.event = .checked false && now < entry.time + lockoutWindowSec

/-- Until when ten failed checks within 15 minutes lock the account, wherever their windows end. -/
def lockedByRecent : List LogEntry → Nat
  | [] => 0
  | ⟨now, .checked false⟩ :: log =>
    if 10 ≤ recentFailures now log + 1 then now + lockoutWindowSec else lockedByRecent log
  | ⟨_, .reset⟩ :: log | ⟨_, .checked true⟩ :: log | ⟨_, .counted⟩ :: log => lockedByRecent log

/-- No password is compared while the account is locked. -/
def Respects (lockedUntil : List LogEntry → Nat) (log : List LogEntry) : Prop :=
  ∀ time passed earlier, (⟨time, .checked passed⟩ :: earlier) <:+ log → lockedUntil earlier ≤ time

/-- After 15 minutes, an attempt is admitted, under any address. -/
def NeverBlocked (state : LoginState) : Prop :=
  ∀ email ip seconds, lockoutWindowSec ≤ seconds →
    (checkAndTrackLoginAttempt directory account email ip none (state.advance seconds)).1 = .ok ()

/-! ## The conditions -/

/-- No counter of the address is live. -/
structure Quiet (store : Redis) (email : String) : Prop where
  attempts : store.live (.email email) = none
  failures : store.live (.failures email) = none
  lockout : store.live (.lockout email) = none

/-- A request for the account finds no counter of another spelling. -/
def OneSpelling (state : LoginState) : LoginAction → Prop
  | .login request => Spells directory account request.email →
      ∀ other, Spells directory account other → other ≠ request.email → Quiet state.redis other
  | .wait _ => True

/-- A request for the account finds the counter of its failed checks, or has none from the last 15
minutes to count, unless it is refused. -/
def StillCounted (state : LoginState) : LoginAction → Prop
  | .login request => Spells directory account request.email →
      recentFailures state.redis.now state.log = 0 ∨
        (state.redis.live (.failures request.email)).isSome = true ∨
          (state.redis.live (.lockout request.email)).isSome = true
  | .wait _ => True

/-- The process does not die before a counter of attempts has its deadline. -/
def Uninterrupted (_ : LoginState) : LoginAction → Prop
  | .login request => request.dies ≠ some .ip ∧ request.dies ≠ some .email
  | .wait _ => True

end CryptoVaultHub.Auth.LoginThrottle
