import CryptoVaultHub.Auth.LoginCommands
import CryptoVaultHub.Auth.LoginViews

/-!
# Login throttling along runs

A request for the account keeps the counters of its spelling behind the log, and leaves those of
other addresses alone. So the counters of one spelling follow the log of the account in every run in
which a request finds no counter of another one.
-/

namespace CryptoVaultHub.Auth.LoginThrottle

open TransitionSystem ExpiringStore

/-! ## A request for the account -/

section Requests

variable {directory : Directory} {account : User} {state after : LoginState} {email : String}
  {entry : Expiring Nat} {strict : Prop} {request : Request}

theorem Sets.view_ip {address : String} (sets : Sets (.ip address) entry state after) :
    after.view email = state.view email := by
  simp only [LoginState.view, sets.now, sets.log, sets.others (.email email) (by simp),
    sets.others (.failures email) (by simp), sets.others (.lockout email) (by simp)]

theorem Sets.view_email (sets : Sets (.email email) entry state after) :
    after.view email = { state.view email with attempts := some entry } := by
  simp only [LoginState.view, sets.now, sets.log, sets.live,
    sets.others (.failures email) (by simp), sets.others (.lockout email) (by simp)]

theorem Sets.view_failures (sets : Sets (.failures email) entry state after) :
    after.view email = { state.view email with failures := some entry } := by
  simp only [LoginState.view, sets.now, sets.log, sets.live,
    sets.others (.email email) (by simp), sets.others (.lockout email) (by simp)]

theorem view_noted (spells : Spells directory account email) (event : LoginEvent) :
    (noted directory account state email event).view email =
      { state.view email with log := ⟨state.redis.now, event⟩ :: state.log } := by
  rw [noted_of_spells spells]
  rfl

theorem record_view (email : String) (dies : Option Counter) (timed : Timed (fun _ => True) state) :
    ∃ entry, Bumped lockoutWindowSec state.redis.now (state.view email).failures (some entry) ∧
      (recordFailedLogin email dies state).2.view email = (state.view email).fail entry := by
  have counted := count_cases lockoutWindowSec (by decide) (dies = some .failures)
    fun entry lives => (timed (.failures email) entry lives).1
  rcases executed : count (.failures email) lockoutWindowSec (dies = some .failures) state with
    ⟨result, middle⟩
  rw [executed] at counted
  obtain ⟨entry, sets, bumped, ⟨failure, rfl, single⟩ | rfl⟩ := counted.bumped
  · refine ⟨entry, bumped, ?_⟩
    unfold recordFailedLogin View.fail
    rw [Call.bind_apply_error executed, if_neg (by omega), sets.view_failures]
  · refine ⟨entry, bumped, ?_⟩
    unfold recordFailedLogin View.fail
    rw [Call.bind_apply_ok executed]
    split
    · unfold redis
      rw [Call.act_bind_apply]
      have attempts := sets.others (.email email) (by simp)
      simp [Call.act, LoginState.view, del, setEx, Expiring.lives, lockoutWindowSec, sets.now,
        sets.log, attempts]
    · exact sets.view_failures

theorem reset_view (spells : Spells directory account email) (address : String) :
    (resetLoginAttempts directory account email address state).2.view email =
      (state.view email).reset := by
  unfold resetLoginAttempts redis
  rw [note_bind_apply, noted_of_spells spells]
  simp [Call.act, LoginState.view, View.reset, ExpiringStore.del]

/-- A lock that ends is one that `TTL` finds. -/
theorem unlocked_of_ttl (locks : (state.view email).Locks strict)
    (unlocked : ¬ 0 < ttlAnswer (state.redis.ttl (.lockout email))) :
    (state.view email).lockout = none := by
  cases found : (state.view email).lockout with
  | none => rfl
  | some entry =>
    obtain ⟨deadline, limited, future⟩ := locks.limited entry found
    have lives : state.redis.live (.lockout email) = some entry := found
    have present : state.redis.now < deadline := future
    refine absurd ?_ unlocked
    simp only [ExpiringStore.ttl, lives, Option.map_some, limited, ttlAnswer]
    omega

/-- A login that succeeds deletes the counters, and nothing else is written any more. -/
theorem answer_follows (spells : Spells directory account request.email)
    (follows : (state.view request.email).Follows account strict)
    (unlocked : (state.view request.email).lockout = none) (result : LoginResult) :
    ((AuthController.answer directory account request result state).2.view
      request.email).Follows account strict := by
  let holds : LoginState → Prop := fun state => (state.view request.email).Follows account strict
  have reset : holds
      (resetLoginAttempts directory account request.email request.address state).2 := by
    change View.Follows _ _ _
    rw [reset_view spells]
    exact follows.reset unlocked
  unfold AuthController.answer
  split
  · cases request.totpCode.filter fun code => code ≠ "" with
    | none => exact follows
    | some code =>
      simp only [Call.refuseIf_bind_apply]
      split
      · exact follows
      · split
        · exact follows
        · exact Call.bind_holds reset fun _ => Kept.complete _
  · exact Call.bind_holds reset fun _ => Call.Keeps.pure _

variable (spells : Spells directory account request.email)
  (timed : Timed (fun _ => True) state)
  (follows : (state.view request.email).Follows account strict)

include spells timed follows

/-- The check of an attempt that was admitted. -/
theorem check_follows (admitted : (state.view request.email).Admitted)
    (unlocked : account.isActive = true → (state.view request.email).lockout = none)
    (counts : strict → account.isActive = true → recentFailures state.redis.now state.log = 0 ∨
      (state.view request.email).failures.isSome = true) :
    ((JwtAuthService.login directory account request state).2.view
        request.email).Follows account strict ∧
      ∀ result, (JwtAuthService.login directory account request state).1 = .ok result →
        ((JwtAuthService.login directory account request state).2.view
          request.email).lockout = none := by
  unfold JwtAuthService.login
  by_cases active : account.isActive = true
  · have found : (directory.findUnique request.email).filter User.isActive = some account := by
      rw [spells, Option.filter_some, if_pos active]
    rw [found]
    simp only [note_bind_apply]
    have logged : ∀ passed, (noted directory account state request.email (.checked passed)).view
        request.email = (state.view request.email).check passed :=
      fun passed => view_noted spells (.checked passed)
    cases passed : directory.comparePassword request.password account.passwordHash with
    | true =>
      have checked := follows.check_passed admitted active (unlocked active)
      have free : ((state.view request.email).check true).lockout = none := unlocked active
      rw [← logged true] at checked free
      simp only [if_true]
      split
      · exact ⟨checked, fun _ _ => free⟩
      · rw [Call.refuseIf_bind_apply]
        split <;> exact ⟨checked, fun _ _ => free⟩
    | false =>
      have kept : Kept directory account (Timed fun _ => True) request :=
        Timed.kept (fun _ => trivial) (fun _ => trivial) trivial
      have still : Timed (fun _ => True)
          (noted directory account state request.email (.checked false)) :=
        kept.note (.checked false) state timed
      obtain ⟨entry, bumped, recorded⟩ := record_view request.email request.dies still
      rw [logged, noted_redis] at bumped
      have failed :
          (((state.view request.email).check false).fail entry).Follows account strict :=
        follows.check_failed admitted active (unlocked active) bumped
          fun strictly => counts strictly active
      simp only [Bool.false_eq_true, if_false]
      refine ⟨?_, ?_⟩
      · rw [Call.bind_fail_store, recorded, logged]
        exact failed
      · intro result returned
        obtain ⟨_, _, _, impossible⟩ := Call.bind_ok returned
        cases impossible
  · have missing : (directory.findUnique request.email).filter User.isActive = none := by
      rw [spells, Option.filter_some, if_neg active]
    rw [missing]
    obtain ⟨entry, -, recorded⟩ := record_view request.email request.dies timed
    refine ⟨?_, ?_⟩
    · rw [Call.bind_fail_store, recorded]
      exact follows.fail active
    · intro result returned
      obtain ⟨_, _, _, impossible⟩ := Call.bind_ok returned
      cases impossible

theorem login_follows
    (counts : strict → recentFailures state.redis.now state.log = 0 ∨
      (state.view request.email).failures.isSome = true ∨
        (state.view request.email).lockout.isSome = true) :
    ((AuthController.login directory account request state).2.view request.email).Follows account
      strict := by
  have kept : Kept directory account (Timed fun _ => True) request :=
    Timed.kept (fun _ => trivial) (fun _ => trivial) trivial
  have attempted := attempt_cases directory account request.email
    request.address request.dies fun key entry lives => (timed key entry lives).1
  have still := kept.attempt state timed
  unfold AuthController.login
  rcases executed : checkAndTrackLoginAttempt directory account request.email request.address
    request.dies state with ⟨result, middle⟩
  rw [executed] at attempted still
  cases attempted with
  | locked failure =>
    rw [Call.bind_apply_error executed]
    exact follows
  | refused failure sets =>
    rw [Call.bind_apply_error executed, sets.view_ip]
    exact follows
  | @counted _ entry before _ _ unlocked sets bumped counted few =>
    have viewed : middle.view request.email = (state.view request.email).attempt entry := by
      rw [counted.view_email, view_noted spells, sets.view_ip, sets.now, sets.log]
      rfl
    obtain ⟨attempted, admits⟩ := follows.attempt bumped
    rw [← viewed] at attempted admits
    cases result with
    | error failure =>
      rw [Call.bind_apply_error executed]
      exact attempted
    | ok _ =>
      rw [Call.bind_apply_ok executed]
      have free : account.isActive = true → (state.view request.email).lockout = none :=
        fun active => unlocked_of_ttl (follows.locks active) unlocked
      have stillCounts : strict → account.isActive = true →
          recentFailures middle.redis.now middle.log = 0 ∨
            (middle.view request.email).failures.isSome = true := by
        intro strictly active
        have same : recentFailures middle.redis.now middle.log =
            recentFailures state.redis.now state.log := by
          have logs : middle.log = ⟨state.redis.now, .counted⟩ :: state.log :=
            congrArg View.log viewed
          have clocks : middle.redis.now = state.redis.now := congrArg View.now viewed
          rw [logs, clocks]
          simp [recentFailures]
        rw [same, viewed]
        obtain nothing | found | locked := counts strictly
        · exact .inl nothing
        · exact .inr found
        · rw [free active] at locked
          cases locked
      obtain ⟨checked, passes⟩ := check_follows spells still attempted (admits (few rfl))
        (by rw [viewed]; exact free) stillCounts
      rcases result : JwtAuthService.login directory account request middle with
        ⟨failure | answer, after⟩
      · rw [result] at checked
        rw [Call.bind_apply_error result]
        exact checked
      · rw [result] at checked passes
        rw [Call.bind_apply_ok result]
        exact answer_follows spells checked (passes answer rfl) answer

end Requests

/-! ## Runs -/

section Runs

variable {directory : Directory} {account : User} {strict : Prop} {request : Request}
  {before state next : LoginState} {action : LoginAction} {email : String}

theorem Elsewhere.quiet (elsewhere : Elsewhere directory account request before state)
    (other : email ≠ request.email) (quiet : Quiet before.redis email) :
    Quiet state.redis email where
  attempts := by rw [elsewhere.live _ (by simp [Request.Uses, other]), quiet.attempts]
  failures := by rw [elsewhere.live _ (by simp [Request.Uses, other]), quiet.failures]
  lockout := by rw [elsewhere.live _ (by simp [Request.Uses, other]), quiet.lockout]

theorem Elsewhere.view (elsewhere : Elsewhere directory account request before state)
    (other : email ≠ request.email) (unspelled : ¬ Spells directory account request.email) :
    state.view email = before.view email := by
  simp only [LoginState.view, elsewhere.now, elsewhere.log unspelled,
    elsewhere.live (.email email) (by simp [Request.Uses, other]),
    elsewhere.live (.failures email) (by simp [Request.Uses, other]),
    elsewhere.live (.lockout email) (by simp [Request.Uses, other])]

theorem Quiet.view (quiet : Quiet state.redis email) :
    state.view email = ⟨state.redis.now, none, none, none, state.log⟩ := by
  simp only [LoginState.view, quiet.attempts, quiet.failures, quiet.lockout]

theorem Quiet.advance (quiet : Quiet state.redis email) (seconds : Nat) :
    Quiet (state.advance seconds).redis email where
  attempts := by rw [LoginState.advance, live_advance, quiet.attempts]; rfl
  failures := by rw [LoginState.advance, live_advance, quiet.failures]; rfl
  lockout := by rw [LoginState.advance, live_advance, quiet.lockout]; rfl

theorem view_advance (seconds : Nat) :
    (state.advance seconds).view email = (state.view email).advance seconds := by
  simp only [LoginState.view, View.advance, LoginState.advance, live_advance]
  rfl

/-- The spelling of the last request for the account has the counters. -/
structure Tracked (directory : Directory) (account : User) (strict : Prop) (state : LoginState) :
    Prop where
  timed : Timed (fun _ => True) state
  orderly : Orderly strict state.log
  current : ∀ spelling, Spells directory account spelling → ∃ email,
    Spells directory account email ∧
      (∀ other, Spells directory account other → other ≠ email → Quiet state.redis other) ∧
        (state.view email).Follows account strict

/-- The condition on a step. -/
def Conforms (directory : Directory) (account : User) (strict : Prop) (state : LoginState)
    (action : LoginAction) : Prop :=
  OneSpelling directory account state action ∧
    (strict → StillCounted directory account state action)

theorem tracked_initial (now : Nat) : Tracked directory account strict ⟨.empty now, []⟩ where
  timed := by
    intro key entry impossible
    cases impossible
  orderly := .nil
  current spelling spells := by
    refine ⟨spelling, spells, fun other _ _ => ⟨rfl, rfl, rfl⟩, .nil, .of_closed rfl, ?_⟩
    exact fun _ => View.Locks.initial now

theorem Tracked.login (tracked : Tracked directory account strict state)
    (conforms : Conforms directory account strict state (.login request)) :
    Tracked directory account strict (AuthController.login directory account request state).2 := by
  have elsewhere : Elsewhere directory account request state
      (AuthController.login directory account request state).2 :=
    Elsewhere.kept.login state ⟨tracked.timed, rfl, fun _ _ => rfl, fun _ => rfl⟩
  by_cases spells : Spells directory account request.email
  · obtain ⟨email, spelled, quiet, follows⟩ := tracked.current request.email spells
    have here : (state.view request.email).Follows account strict := by
      by_cases same : email = request.email
      · exact same ▸ follows
      · rw [(conforms.1 spells email spelled same).view] at follows
        rw [(quiet request.email spells (Ne.symm same)).view]
        exact follows
    have after := login_follows spells tracked.timed here fun strictly =>
      conforms.2 strictly spells
    refine ⟨elsewhere.timed, after.orderly, fun _ _ => ⟨request.email, spells, ?_, after⟩⟩
    intro other spelledOther different
    exact elsewhere.quiet different (conforms.1 spells other spelledOther different)
  · refine ⟨elsewhere.timed, elsewhere.log spells ▸ tracked.orderly, ?_⟩
    intro spelling spelled
    obtain ⟨email, spelledEmail, quiet, follows⟩ := tracked.current spelling spelled
    have ne : ∀ other, Spells directory account other → other ≠ request.email := by
      rintro other spelledOther rfl
      exact spells spelledOther
    refine ⟨email, spelledEmail, ?_, ?_⟩
    · intro other spelledOther different
      exact elsewhere.quiet (ne other spelledOther) (quiet other spelledOther different)
    · rw [elsewhere.view (ne email spelledEmail) spells]
      exact follows

theorem Tracked.advance (tracked : Tracked directory account strict state) (seconds : Nat) :
    Tracked directory account strict (state.advance seconds) where
  timed := tracked.timed.advance seconds
  orderly := tracked.orderly
  current spelling spells := by
    obtain ⟨email, spelled, quiet, follows⟩ := tracked.current spelling spells
    refine ⟨email, spelled, fun other spelledOther different =>
      (quiet other spelledOther different).advance seconds, ?_⟩
    rw [view_advance]
    exact follows.advance seconds

theorem tracked_reachable
    (reached : (loginSystem directory account).Reachable (Conforms directory account strict)
      state) : Tracked directory account strict state := by
  refine reached.invariant ?_ ?_
  · rintro _ ⟨now, rfl⟩
    exact tracked_initial now
  · intro state action next tracked conforms transition
    cases action with
    | login request =>
      cases transition
      exact tracked.login conforms
    | wait seconds =>
      cases transition
      exact tracked.advance seconds

theorem timed_reachable {Allowed : LoginState → LoginAction → Prop} {endless : LoginKey → Prop}
    (reached : (loginSystem directory account).Reachable Allowed state)
    (ends : ∀ state request, Allowed state (.login request) →
      (request.dies = some .ip → endless (.ip request.address)) ∧
        (request.dies = some .email → endless (.email request.email)) ∧
          endless (.failures request.email)) : Timed endless state := by
  refine reached.invariant ?_ ?_
  · rintro _ ⟨now, rfl⟩ key entry ⟨⟩
  · intro state action next timed allowed transition
    cases action with
    | login request =>
      cases transition
      obtain ⟨ip, email, failures⟩ := ends state request allowed
      exact (Timed.kept ip email failures).login state timed
    | wait seconds =>
      cases transition
      exact timed.advance seconds

/-- A counter of attempts without a deadline refuses the address for ever. -/
theorem refused_of_endless {entry : Expiring Nat}
    (timed : Timed (fun _ => True) state) (found : state.redis.live (.email email) = some entry)
    (endless : entry.deadline = none) (many : 5 ≤ entry.value) (ip : String)
    (dies : Option Counter) (seconds : Nat) :
    (checkAndTrackLoginAttempt directory account email ip dies (state.advance seconds)).1 ≠
      .ok () := by
  have later : (state.advance seconds).redis.live (.email email) = some entry := by
    rw [LoginState.advance, live_advance, found, Option.filter_some, if_pos]
    simp [Expiring.lives, endless]
  have attempted := attempt_cases directory account email ip dies
    fun key entry lives => ((timed.advance seconds) key entry lives).1
  rcases executed : checkAndTrackLoginAttempt directory account email ip dies
    (state.advance seconds) with ⟨result, after⟩
  rw [executed] at attempted
  rintro ⟨⟩
  cases attempted with
  | counted _ unlocked sets bumped counts few =>
    rw [later] at bumped
    have low := few rfl
    cases bumped
    simp only at low
    omega

/-- Every window of attempts has at most five password checks, ten failed checks lock the account,
and no counter blocks it for longer than 15 minutes: the first as long as the requests for the
account spell its address in one way at a time; the second besides as long as no failed check is
forgotten within 15 minutes, unless the ten fall into one window; and the third as long as the
process does not die between the `INCR` of a counter of attempts and its `EXPIRE`. -/
theorem logins_throttled (directory : Directory) (account : User) :
    (∀ state, (loginSystem directory account).Reachable (OneSpelling directory account) state →
      checksInWindow state.log ≤ 5 ∧ Respects lockedByWindow state.log) ∧
    (∀ state, (loginSystem directory account).Reachable
        (fun state action => OneSpelling directory account state action ∧
          StillCounted directory account state action) state →
      Respects lockedByRecent state.log) ∧
    ∀ state, (loginSystem directory account).Reachable Uninterrupted state →
      NeverBlocked directory account state := by
  refine ⟨?_, ?_, ?_⟩
  · intro state reached
    have tracked : Tracked directory account False state :=
      tracked_reachable (reached.mono fun _ _ one => ⟨one, False.elim⟩)
    exact ⟨tracked.orderly.bounded, tracked.orderly.byWindow⟩
  · intro state reached
    have tracked : Tracked directory account True state :=
      tracked_reachable (reached.mono fun _ _ both => ⟨both.1, fun _ => both.2⟩)
    exact tracked.orderly.byRecent trivial
  · intro state reached
    refine neverBlocked_of_timed (timed_reachable reached ?_)
    intro state request survives
    exact ⟨fun dies => absurd dies survives.1, fun dies => absurd dies survives.2, _, rfl⟩

end Runs

/-! ## Two spellings, and a crash -/

/-- A user, in a database that does not tell upper case from lower case. -/
def sampleUser : User where
  id := 1
  email := "ann@example.com"
  passwordHash := "right"
  role := "viewer"
  clientId := none
  clientRole := none
  isActive := true
  totpSecret := none
  totpEnabled := false

def sampleDirectory (collation : String → String) : Directory where
  users := [sampleUser]
  collation := collation
  comparePassword password hash := password = hash

def sampleCollation (email : String) : String :=
  if email = "Ann@example.com" then "ann@example.com" else email

/-- An attempt with a wrong password. -/
def sampleAttempt (email ip : String) (dies : Option Counter) : LoginAction :=
  .login
    { email := email
      password := "wrong"
      totpCode := none
      ip := some ip
      codeValid := none
      issuesTokens := true
      dies := dies }

/-- Ten failed checks in two windows, under one spelling. -/
def sampleFailures : List LoginAction :=
  List.replicate 5 (sampleAttempt "ann@example.com" "10.0.0.1" none) ++ [.wait 300] ++
    List.replicate 5 (sampleAttempt "ann@example.com" "10.0.0.1" none)

theorem spells_sample {email : String} (spells : Spells (sampleDirectory id) sampleUser email) :
    email = sampleUser.email := by
  have same := List.find?_some spells
  exact (of_decide_eq_true same).symm

theorem sample_reached (directory : Directory) (actions : List LoginAction)
    (check : LoginState → Bool)
    (passed : ((loginSystem directory sampleUser).run Unrestricted ⟨.empty 0, []⟩ actions).any
      check = true) :
    ∃ state, (loginSystem directory sampleUser).Reachable Unrestricted state ∧
      check state = true := by
  have valid : (loginSystem directory sampleUser).Initial ⟨.empty 0, []⟩ := ⟨0, rfl⟩
  exact exists_reachable_of_run valid actions check passed

/-- The account is locked, and no password is compared until the lock ends. -/
theorem logins_throttled_sample : ∃ state,
    (loginSystem (sampleDirectory id) sampleUser).Reachable
        (OneSpelling (sampleDirectory id) sampleUser) state ∧
      lockedByWindow state.log = 1200 ∧ checksInWindow state.log ≤ 5 ∧
        Respects lockedByWindow state.log := by
  obtain ⟨state, reached, locked⟩ :=
    sample_reached (sampleDirectory id) sampleFailures
      (fun state => lockedByWindow state.log = 1200) (by decide +kernel)
  have one : (loginSystem (sampleDirectory id) sampleUser).Reachable
      (OneSpelling (sampleDirectory id) sampleUser) state := by
    refine reached.mono ?_
    rintro state (request | seconds) -
    · intro spells other spelled different
      exact absurd ((spells_sample spelled).trans (spells_sample spells).symm) different
    · trivial
  exact ⟨state, one, of_decide_eq_true locked, (logins_throttled _ _).1 state one⟩

/-- With two spellings of the address, ten passwords are checked in one window. When the process
dies before a counter has its deadline, the account is refused for ever. -/
theorem logins_not_throttled :
    (∃ state, (loginSystem (sampleDirectory sampleCollation) sampleUser).Reachable Unrestricted
        state ∧ checksInWindow state.log = 10) ∧
      ∃ state, (loginSystem (sampleDirectory sampleCollation) sampleUser).Reachable Unrestricted
        state ∧ ∀ ip dies seconds, (checkAndTrackLoginAttempt (sampleDirectory sampleCollation)
          sampleUser "ann@example.com" ip dies (state.advance seconds)).1 ≠ .ok () := by
  constructor
  · obtain ⟨state, reached, many⟩ :=
      sample_reached (sampleDirectory sampleCollation)
        (List.replicate 5 (sampleAttempt "ann@example.com" "10.0.0.1" none) ++
          List.replicate 5 (sampleAttempt "Ann@example.com" "10.0.0.2" none))
        (fun state => checksInWindow state.log = 10) (by decide +kernel)
    exact ⟨state, reached, of_decide_eq_true many⟩
  · obtain ⟨state, reached, endless⟩ :=
      sample_reached (sampleDirectory sampleCollation)
        (sampleAttempt "ann@example.com" "10.0.0.1" (some .email) ::
          List.replicate 4 (sampleAttempt "ann@example.com" "10.0.0.1" none))
        (fun state => state.redis.live (.email "ann@example.com") = some ⟨5, none⟩)
        (by decide +kernel)
    refine ⟨state, reached, ?_⟩
    have timed : Timed (fun _ => True) state :=
      timed_reachable reached fun _ _ _ => ⟨fun _ => trivial, fun _ => trivial, trivial⟩
    exact fun ip dies => refused_of_endless timed (of_decide_eq_true endless) rfl (Nat.le_refl 5)
      ip dies

end CryptoVaultHub.Auth.LoginThrottle
