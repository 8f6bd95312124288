import CryptoVaultHub.Auth.Requests

/-!
# Two-factor authentication along runs

Every token is the answer of one request; `step_issues` says which. A challenge token answers a
login without a code, and `GET /auth/validate` reads its `userId` without a look at its purpose, so
`two_factor_kept` has to avoid such logins. It also has to avoid that a session which is older than
the activation of two-factor authentication is refreshed.
-/

namespace CryptoVaultHub.Auth

open TransitionSystem List Option

variable {settings : Settings} {state after : AuthState}

/-- A challenge token. -/
def Issue.isChallenge (issue : Issue) : Bool := issue.claims.purpose = some challengePurpose

/-- What `GET /auth/validate` accepts was issued after a code of the login was accepted, if its user
had two-factor authentication on; and no verifier accepts a challenge token. -/
structure AuthState.TwoFactorKept (state : AuthState) : Prop where
  afterCode : ∀ (token : Nat) issue (verifier : Verifier), state.issued[token]? = some issue →
    issue.totpEnabled = true → verifier.asksValidate = true →
    verifier.accepts state token = true → issue.codeValidated = true
  challengeOnly : ∀ (token : Nat) issue (verifier : Verifier), state.issued[token]? = some issue →
    issue.isChallenge = true → verifier.accepts state token = false

/-- The condition on the requests: a login of a user with two-factor authentication brings a code,
and a session of such a user is refreshed only in a login in which a code was accepted. -/
def AuthState.bringsCode (state : AuthState) : Request → Bool
  | .login email _ totpCode _ =>
    (state.users.find? fun user => user.email = email).all fun user =>
      !user.totpEnabled || (totpCode.filter fun code => code ≠ "").isSome
  | .refresh refreshToken =>
    (state.sessions.find? fun session =>
      session.refreshToken = refreshToken && state.now < session.expiresAt).all fun session =>
        (state.user? session.userId).all fun user =>
          !user.totpEnabled || session.login ∈ state.validated
  | .challenge .. | .logout _ | .acceptInvite .. | .setup .. | .verify .. | .disable ..
  | .wait _ => true

@[reducible] def AuthState.BringsCode (state : AuthState) (request : Request) : Prop :=
  state.bringsCode request = true

/-! ## What a request issues -/

/-- An access token names its user in `sub` only. -/
structure Issue.IsAccess (issue : Issue) : Prop where
  sub : issue.claims.sub.isSome = true
  userId : issue.claims.userId = none
  purpose : issue.claims.purpose = none

/-- The requests that issue a token. -/
inductive AuthState.Issues (state : AuthState) : Request → Issue → Prop where
  | challenge {email password : String} {totpCode : Option String} {admitted : Bool} {user : User}
      {issue : Issue}
      (found : state.users.find? (fun user => user.email = email) = some user)
      (enabled : user.totpEnabled = true)
      (missing : (totpCode.filter fun code => code ≠ "") = none)
      (claims : issue.claims = challengeClaims user) :
      Issues state (.login email password totpCode admitted) issue
  | coded {request : Request} {issue : Issue}
      (access : issue.IsAccess) (validated : issue.codeValidated = true) :
      Issues state request issue
  | plain {request : Request} {issue : Issue}
      (access : issue.IsAccess) (disabled : issue.totpEnabled = false) :
      Issues state request issue
  | refreshed {refreshToken : Nat} {session : Session} {user : User} {issue : Issue}
      (found : state.sessions.find? (fun session =>
        session.refreshToken = refreshToken && state.now < session.expiresAt) = some session)
      (owner : state.user? session.userId = some user)
      (access : issue.IsAccess) (enabled : issue.totpEnabled = user.totpEnabled)
      (validated : issue.codeValidated = decide (session.login ∈ state.validated)) :
      Issues state (.refresh refreshToken) issue

/-- One more token, or none. -/
def AuthState.Grows (state after : AuthState) (request : Request) : Prop :=
  after.issued = state.issued ∨
    ∃ issue, after.issued = state.issued ++ [issue] ∧ state.Issues request issue

theorem issued_issueTokens (settings : Settings) (state : AuthState) (user : User) (login : Nat) :
    ∃ issue : Issue, (state.issueTokens settings user login).issued = state.issued ++ [issue] ∧
      issue.IsAccess ∧ issue.totpEnabled = user.totpEnabled ∧
      issue.codeValidated = decide (login ∈ state.validated) :=
  ⟨_, rfl, ⟨rfl, rfl, rfl⟩, rfl, rfl⟩

/-- A code that is accepted counts for its login, and no token is issued with it. -/
theorem validated_of_validateCode {userId : UserId} {code : String} {login : Nat}
    (accepted : state.validateCode settings userId code login = some after) :
    login ∈ after.validated ∧ after.issued = state.issued := by
  obtain ⟨user, _, rest⟩ := bind_eq_some_iff.mp accepted
  obtain ⟨secret, _, checked⟩ := bind_eq_some_iff.mp rest
  split at checked
  · cases checked
    exact ⟨mem_cons_self, rfl⟩
  · cases checked

/-- A login that is completed after a code issues an access token, if any. -/
theorem grows_completeLogin {request : Request} {userId : UserId} {login : Nat}
    {accepted : AuthState} (validated : login ∈ accepted.validated)
    (same : accepted.issued = state.issued) :
    state.Grows (accepted.completeLoginAfter2fa settings userId login) request := by
  unfold AuthState.completeLoginAfter2fa
  split
  · rename_i user found
    split
    · obtain ⟨issue, issued, access, _, coded⟩ :=
        issued_issueTokens settings accepted user login
      refine .inr ⟨issue, by rw [issued, same], .coded access ?_⟩
      rw [coded, decide_eq_true validated]
    · exact .inl same
  · exact .inl same

theorem login_grows {email password : String} {totpCode : Option String} {admitted : Bool}
    (stepped : state.login settings email password totpCode admitted = some after) :
    state.Grows after (.login email password totpCode admitted) := by
  obtain ⟨user, found, rest⟩ := bind_eq_some_iff.mp stepped
  split at rest
  · split at rest
    · rename_i enabled
      split at rest
      · obtain ⟨accepted, validated, completed⟩ := bind_eq_some_iff.mp rest
        cases completed
        obtain ⟨coded, same⟩ := validated_of_validateCode validated
        exact grows_completeLogin coded same
      · rename_i missing
        cases rest
        exact .inr ⟨_, rfl, .challenge found enabled missing rfl⟩
    · rename_i disabled
      cases rest
      exact .inr ⟨_, rfl, .plain ⟨rfl, rfl, rfl⟩ (by simpa using disabled)⟩
  · cases rest

theorem challenge_grows {token : Nat} {code : String} {admitted : Bool}
    (stepped : state.verify2faChallenge settings token code admitted = some after) :
    state.Grows after (.challenge token code admitted) := by
  obtain ⟨issue, _, rest⟩ := bind_eq_some_iff.mp stepped
  obtain ⟨claims, _, rest⟩ := bind_eq_some_iff.mp rest
  obtain ⟨userId, _, rest⟩ := bind_eq_some_iff.mp rest
  split at rest
  · obtain ⟨accepted, validated, completed⟩ := bind_eq_some_iff.mp rest
    cases completed
    obtain ⟨coded, same⟩ := validated_of_validateCode validated
    exact grows_completeLogin coded same
  · cases rest

theorem refresh_grows {refreshToken : Nat}
    (stepped : state.refresh settings refreshToken = some after) :
    state.Grows after (.refresh refreshToken) := by
  obtain ⟨session, found, rest⟩ := bind_eq_some_iff.mp stepped
  obtain ⟨user, owner, rest⟩ := bind_eq_some_iff.mp rest
  split at rest
  · cases rest
    exact .inr ⟨_, rfl, .refreshed found owner ⟨rfl, rfl, rfl⟩ rfl rfl⟩
  · cases rest

theorem disable_grows {token : Nat} {password code : String}
    (stepped : state.disable2fa settings token password code = some after) :
    after.issued = state.issued := by
  obtain ⟨issue, _, rest⟩ := bind_eq_some_iff.mp stepped
  obtain ⟨userId, _, rest⟩ := bind_eq_some_iff.mp rest
  obtain ⟨user, _, rest⟩ := bind_eq_some_iff.mp rest
  split at rest
  · obtain ⟨accepted, validated, same⟩ := bind_eq_some_iff.mp rest
    cases same
    exact (validated_of_validateCode validated).2
  · cases rest

/-- Every request issues at most one token, of a kind that the request tells. -/
theorem step_issues {request : Request} (stepped : state.step settings request = some after) :
    state.Grows after request := by
  cases request with
  | login email password totpCode admitted => exact login_grows stepped
  | challenge token code admitted => exact challenge_grows stepped
  | refresh refreshToken => exact refresh_grows stepped
  | logout | wait =>
    cases stepped
    exact .inl rfl
  | acceptInvite invite passwordHash =>
    simp only [AuthState.step, AuthState.acceptInvite] at stepped
    split at stepped
    · cases stepped
    · cases stepped
      exact .inr ⟨_, rfl, .plain ⟨rfl, rfl, rfl⟩ rfl⟩
  | setup token secret =>
    obtain ⟨userId, _, rest⟩ := bind_eq_some_iff.mp stepped
    obtain ⟨user, _, rest⟩ := bind_eq_some_iff.mp rest
    split at rest
    · cases rest
    · cases rest
      exact .inl rfl
  | verify token code =>
    obtain ⟨issue, _, rest⟩ := bind_eq_some_iff.mp stepped
    obtain ⟨userId, _, rest⟩ := bind_eq_some_iff.mp rest
    obtain ⟨user, _, rest⟩ := bind_eq_some_iff.mp rest
    obtain ⟨secret, _, rest⟩ := bind_eq_some_iff.mp rest
    split at rest
    · cases rest
      exact .inl rfl
    · cases rest
  | disable token password code => exact .inl (disable_grows stepped)

/-! ## Along runs -/

def AuthState.EveryIssue (Property : Issue → Prop) (state : AuthState) : Prop :=
  ∀ issue ∈ state.issued, Property issue

/-- What holds of every token that an allowed request issues holds of all tokens. -/
theorem issued_of_steps {Allowed : AuthState → Request → Prop} {Property : Issue → Prop}
    (reached : (authService settings).Reachable Allowed state)
    (issues : ∀ (before : AuthState) request issue, Allowed before request →
      before.Issues request issue → Property issue) :
    state.EveryIssue Property := by
  refine reached.invariant ?_ ?_
  · intro start initial issue inside
    rw [initial.1] at inside
    cases inside
  · intro before request later holds allowed stepped issue inside
    rcases step_issues stepped with same | ⟨fresh, added, origin⟩
    · exact holds issue (same ▸ inside)
    · rw [added] at inside
      rcases mem_append.mp inside with old | new
      · exact holds issue old
      · rw [mem_singleton.mp new]
        exact issues before request fresh allowed origin

/-- As long as every login and every refresh of a user with two-factor authentication has its code,
no token that `GET /auth/validate` accepts is issued before one. -/
theorem two_factor_kept (reached : (authService settings).Reachable AuthState.BringsCode state) :
    state.TwoFactorKept := by
  have kept : state.EveryIssue fun issue =>
      issue.IsAccess ∧ (issue.totpEnabled = true → issue.codeValidated = true) := by
    refine issued_of_steps reached ?_
    intro before request issue allowed origin
    cases origin with
    | challenge found enabled missing claims =>
      rw [AuthState.BringsCode, AuthState.bringsCode, found, all_some, enabled,
        missing] at allowed
      cases allowed
    | coded access validated => exact ⟨access, fun _ => validated⟩
    | plain access disabled =>
      refine ⟨access, ?_⟩
      intro enabled
      rw [disabled] at enabled
      cases enabled
    | @refreshed refreshToken session user issue found owner access same validated =>
      refine ⟨access, ?_⟩
      intro enabled
      have on : user.totpEnabled = true := same.symm.trans enabled
      have coded : session.login ∈ before.validated := by
        simpa [AuthState.BringsCode, AuthState.bringsCode, found, owner, on] using allowed
      rw [validated, decide_eq_true coded]
  refine ⟨?_, ?_⟩
  · intro token issue verifier found enabled _ _
    exact (kept issue (mem_of_getElem? found)).2 enabled
  · intro token issue verifier found challenge
    have access := (kept issue (mem_of_getElem? found)).1
    simp [Issue.isChallenge, access.purpose] at challenge

/-! ## A user with two-factor authentication -/

/-- Passwords are their own hashes, and the code of a secret is the secret. -/
def sampleSettings : Settings where
  comparePassword password hash := password = hash
  otpVerify code secret _ := code = secret
  jwtExpiresIn := 900
  refreshTokenTtlMs := 604800000

def sampleUser : User where
  id := 42
  email := "secure@test.com"
  passwordHash := "password123"
  role := "viewer"
  clientId := some 7
  clientRole := some "owner"
  isActive := true
  totpSecret := some "123456"
  totpEnabled := true

def sampleState : AuthState := ⟨[sampleUser], [], [], [], 1700000000000, 0, 0, []⟩

def sampleLogin (totpCode : Option String) : Request :=
  .login "secure@test.com" "password123" totpCode true

/-- The user logs in with a code and refreshes the session. -/
theorem two_factor_kept_sample :
    ∃ state : AuthState, (state.issued.map Issue.codeValidated) = [true, true] ∧
      Verifier.jwtOnlyAuthGuard.accepts state 1 = true ∧ state.TwoFactorKept := by
  obtain ⟨state, reached, coded, accepted⟩ : ∃ state,
      (authService sampleSettings).Reachable AuthState.BringsCode state ∧
      (state.issued.map Issue.codeValidated) = [true, true] ∧
        Verifier.jwtOnlyAuthGuard.accepts state 1 = true :=
    exists_reachable (⟨rfl, rfl⟩ : (authService sampleSettings).Initial sampleState)
      [sampleLogin (some "123456"), .wait 60000, .refresh 0] (by decide +kernel)
  exact ⟨state, coded, accepted, two_factor_kept reached⟩

/-- A login with the password alone: its challenge token opens the JWT-only guard. -/
theorem challenge_token_authenticates :
    ¬ ∀ settings (state : AuthState), (authService settings).Reachable Unrestricted state →
      state.TwoFactorKept := by
  intro always
  obtain ⟨state, reached, single, accepted⟩ : ∃ state,
      (authService sampleSettings).Reachable Unrestricted state ∧
      (state.issued.map fun issue => (issue.totpEnabled, issue.codeValidated)) =
        [(true, false)] ∧ Verifier.jwtOnlyAuthGuard.accepts state 0 = true :=
    exists_reachable (⟨rfl, rfl⟩ : (authService sampleSettings).Initial sampleState)
      [sampleLogin none] (by decide +kernel)
  obtain ⟨issue, one, enabled⟩ := map_eq_singleton_iff.mp single
  have there : state.issued[0]? = some issue := by simp [one]
  have coded := (always sampleSettings state reached).afterCode 0 issue .jwtOnlyAuthGuard there
    (congrArg Prod.fst enabled) rfl accepted
  rw [show issue.codeValidated = false from congrArg Prod.snd enabled] at coded
  cases coded

end CryptoVaultHub.Auth
