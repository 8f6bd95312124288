import CryptoVaultHub.Auth.LoginThrottle

/-!
# What the commands of a login request do

`count_cases` and `attempt_cases` say how far a counter and an attempt come. `Kept.login` carries a
property through a request that each of its commands keeps: that every key has a deadline, which
makes sure that no one is blocked for long, and that the keys of other addresses stay as they are.
-/

namespace CryptoVaultHub.Auth.LoginThrottle

open ExpiringStore

/-! ## Commands -/

section Commands

variable {directory : Directory} {account : User} {state after : LoginState} {key : LoginKey}
  {entry : Expiring Nat}

/-- One key has a new entry. -/
structure Sets (key : LoginKey) (entry : Expiring Nat) (state after : LoginState) : Prop where
  live : after.redis.live key = some entry
  others : ∀ other, other ≠ key → after.redis.live other = state.redis.live other
  now : after.redis.now = state.redis.now
  log : after.log = state.log

theorem sets_put (lives : Expiring.lives entry state.redis.now = true) :
    Sets key entry state { state with redis := state.redis.put key (some entry) } where
  live := by simp [live_put_self, lives]
  others other different := live_put_of_ne different _
  now := rfl
  log := rfl

theorem Sets.trans {first : Expiring Nat} {middle : LoginState} (sets : Sets key first state middle)
    (again : Sets key entry middle after) : Sets key entry state after where
  live := again.live
  others other different := by rw [again.others other different, sets.others other different]
  now := by rw [again.now, sets.now]
  log := by rw [again.log, sets.log]

/-- A counter is increased, and a new one gets its deadline unless the process dies. -/
inductive Counted (key : LoginKey) (seconds : Nat) (dies : Bool) (state : LoginState) :
    Except Failure Nat × LoginState → Prop where
  | died {after : LoginState} (dead : dies = true) (absent : state.redis.live key = none)
      (sets : Sets key ⟨1, none⟩ state after) :
      Counted key seconds dies state (.error .died, after)
  | first {after : LoginState} (absent : state.redis.live key = none)
      (sets : Sets key ⟨1, some (state.redis.now + seconds)⟩ state after) :
      Counted key seconds dies state (.ok 1, after)
  | next {before : Expiring Nat} {after : LoginState}
      (found : state.redis.live key = some before)
      (sets : Sets key { before with value := before.value + 1 } state after) :
      Counted key seconds dies state (.ok (before.value + 1), after)

theorem count_cases (seconds : Nat) (timed : 0 < seconds) (dies : Bool)
    (positive : ∀ entry, state.redis.live key = some entry → 0 < entry.value) :
    Counted key seconds dies state (count key seconds dies state) := by
  unfold count redis
  cases lives : state.redis.live key with
  | none =>
    simp only [Call.act_bind_apply, incr_of_none lives, if_true, Call.refuseIf_bind_apply]
    have fresh : Sets key ⟨1, none⟩ state
        { state with redis := state.redis.put key (some ⟨1, none⟩) } := sets_put rfl
    cases dies with
    | true => exact .died rfl lives fresh
    | false =>
      let first : LoginState := { state with redis := state.redis.put key (some ⟨1, none⟩) }
      have limited : Sets key ⟨1, some (state.redis.now + seconds)⟩ first
          { first with redis := first.redis.put key _ } :=
        sets_put (by simpa [Expiring.lives, first] using timed)
      refine .first lives ?_
      rw [expire_of_live fresh.live]
      exact fresh.trans limited
  | some before =>
    have several : before.value + 1 ≠ 1 := by
      have := positive before lives
      omega
    simp only [Call.act_bind_apply, incr_of_live lives, if_neg several]
    refine .next lives (sets_put ?_)
    have alive := lives_of_live lives
    exact alive

/-- A counter that is increased has counted a hit. -/
theorem Counted.bumped {seconds : Nat} {dies : Bool} {result : Except Failure Nat}
    (counted : Counted key seconds dies state (result, after)) :
    ∃ entry, Sets key entry state after ∧
      Bumped seconds state.redis.now (state.redis.live key) (some entry) ∧
        ((∃ failure, result = .error failure ∧ entry.value = 1) ∨ result = .ok entry.value) := by
  cases counted with
  | died _ absent sets => exact ⟨_, sets, absent ▸ .interrupted, .inl ⟨_, rfl, rfl⟩⟩
  | first absent sets => exact ⟨_, sets, absent ▸ .first, .inr rfl⟩
  | next found sets => exact ⟨_, sets, found ▸ .next _, .inr rfl⟩

variable (directory account state) in
/-- The state with an entry in the log. -/
def noted (email : String) (event : LoginEvent) : LoginState :=
  (note directory account email event state).2

theorem note_bind_apply {Value : Type} {rest : Unit → Attempt Value} (email : String)
    (event : LoginEvent) : (note directory account email event >>= rest) state =
      rest () (noted directory account state email event) := rfl

@[simp] theorem noted_redis (email : String) (event : LoginEvent) :
    (noted directory account state email event).redis = state.redis := by
  unfold noted note Call.act
  split <;> rfl

theorem noted_of_spells {email : String} (spells : Spells directory account email)
    (event : LoginEvent) : noted directory account state email event =
      { state with log := ⟨state.redis.now, event⟩ :: state.log } := by
  unfold noted note Call.act
  exact if_pos spells

/-- How far an attempt comes: it is refused by the lock, or ends at the address it comes from, or at
the counter of the e-mail address, or is admitted. -/
inductive Attempted (directory : Directory) (account : User) (email ip : String)
    (state : LoginState) : Except Failure Unit × LoginState → Prop where
  | locked (failure : Failure) (lockout : 0 < ttlAnswer (state.redis.ttl (.lockout email))) :
      Attempted directory account email ip state (.error failure, state)
  | refused {entry : Expiring Nat} {after : LoginState} (failure : Failure)
      (sets : Sets (.ip ip) entry state after) :
      Attempted directory account email ip state (.error failure, after)
  | counted {first entry : Expiring Nat} {middle after : LoginState}
      (result : Except Failure Unit)
      (unlocked : ¬ 0 < ttlAnswer (state.redis.ttl (.lockout email)))
      (sets : Sets (.ip ip) first state middle)
      (bumped : Bumped windowSec state.redis.now (state.redis.live (.email email)) (some entry))
      (counts : Sets (.email email) entry (noted directory account middle email .counted) after)
      (few : result = .ok () → entry.value ≤ 5) :
      Attempted directory account email ip state (result, after)

variable (directory account) in
/-- An attempt, in a state in which every live key has counted something. -/
theorem attempt_cases (email ip : String) (dies : Option Counter)
    (positive : ∀ key entry, state.redis.live key = some entry → 0 < entry.value) :
    Attempted directory account email ip state
      (checkAndTrackLoginAttempt directory account email ip dies state) := by
  unfold checkAndTrackLoginAttempt redis
  rw [Call.act_bind_apply, Call.refuseIf_bind_apply]
  split
  · rename_i lockout
    exact .locked _ (of_decide_eq_true lockout)
  · rename_i unlocked
    rcases executed : count (.ip ip) windowSec (dies = some .ip) state with
      ⟨failure | address, middle⟩
    all_goals
      have step := count_cases windowSec (by decide) (dies = some .ip) (positive (.ip ip))
      rw [executed] at step
      obtain ⟨first, sets, -⟩ := step.bumped
    · rw [Call.bind_apply_error executed]
      exact .refused _ sets
    · rw [Call.bind_apply_ok executed, Call.refuseIf_bind_apply]
      split
      · exact .refused _ sets
      · rw [note_bind_apply]
        have quiet : ∀ entry, (noted directory account middle email .counted).redis.live
            (.email email) = some entry → 0 < entry.value := by
          intro entry found
          rw [noted_redis, sets.others (.email email) (by simp)] at found
          exact positive _ entry found
        rcases executed : count (.email email) windowSec (dies = some .email)
          (noted directory account middle email .counted) with ⟨failure | attempts, after⟩
        all_goals
          have step := count_cases windowSec (by decide) (dies = some .email) quiet
          rw [executed] at step
          obtain ⟨entry, counts, bumped, value⟩ := step.bumped
          rw [noted_redis, sets.now, sets.others (.email email) (by simp)] at bumped
        · rw [Call.bind_apply_error executed]
          exact .counted _ (by simpa using unlocked) sets bumped counts (by simp)
        · rw [Call.bind_apply_ok executed, Call.refuseIf_apply]
          refine .counted _ (by simpa using unlocked) sets bumped counts ?_
          obtain ⟨_, ⟨⟩, _⟩ | ⟨⟨⟩⟩ := value
          split
          · rintro ⟨⟩
          · rename_i few
            simpa using few

end Commands

/-! ## What the commands of a request keep -/

/-- The keys of a request. -/
def Request.Uses (request : Request) (key : LoginKey) : Prop :=
  key = .ip request.address ∨ key = .email request.email ∨ key = .failures request.email ∨
    key = .lockout request.email

/-- Every command of a request keeps a property. -/
structure Kept (directory : Directory) (account : User) (Property : LoginState → Prop)
    (request : Request) : Prop where
  ip : (count (.ip request.address) windowSec (request.dies = some .ip)).Keeps Property
  email : (count (.email request.email) windowSec (request.dies = some .email)).Keeps Property
  failures : (count (.failures request.email) lockoutWindowSec
    (request.dies = some .failures)).Keeps Property
  lock : ∀ state, Property state → Property
    { state with redis := state.redis.setEx (.lockout request.email) 1 lockoutWindowSec }
  del : ∀ key state, request.Uses key → Property state →
    Property { state with redis := state.redis.del key }
  note : ∀ event, (note directory account request.email event).Keeps Property

namespace Kept

variable {directory : Directory} {account : User} {Property : LoginState → Prop}
  {request : Request}

theorem attempt (kept : Kept directory account Property request) :
    (checkAndTrackLoginAttempt directory account request.email request.address
      request.dies).Keeps Property := by
  refine Call.Keeps.bind (Call.Keeps.act fun _ holds => holds) fun _ => ?_
  refine Call.Keeps.bind (Call.Keeps.refuseIf _ _) fun _ => ?_
  refine Call.Keeps.bind kept.ip fun _ => ?_
  refine Call.Keeps.bind (Call.Keeps.refuseIf _ _) fun _ => ?_
  refine Call.Keeps.bind (kept.note _) fun _ => ?_
  exact Call.Keeps.bind kept.email fun _ => Call.Keeps.refuseIf _ _

theorem record (kept : Kept directory account Property request) :
    (recordFailedLogin request.email request.dies).Keeps Property := by
  refine Call.Keeps.bind kept.failures fun failures => ?_
  split
  · refine Call.Keeps.bind (Call.Keeps.act kept.lock) fun _ => Call.Keeps.act ?_
    exact fun state holds => kept.del _ state (.inr (.inr (.inl rfl))) holds
  · exact Call.Keeps.pure ()

theorem reset (kept : Kept directory account Property request) :
    (resetLoginAttempts directory account request.email request.address).Keeps Property := by
  refine Call.Keeps.bind (kept.note _) fun _ => Call.Keeps.act fun state holds => ?_
  have first := kept.del _ _ (.inr (.inl rfl)) holds
  have second := kept.del _ _ (.inl rfl) first
  have third := kept.del _ _ (.inr (.inr (.inr rfl))) second
  exact kept.del _ _ (.inr (.inr (.inl rfl))) third

theorem check (kept : Kept directory account Property request) :
    (JwtAuthService.login directory account request).Keeps Property := by
  unfold JwtAuthService.login
  split
  · exact Call.Keeps.bind kept.record fun _ => Call.Keeps.fail _
  · refine Call.Keeps.bind (kept.note _) fun _ => ?_
    split
    · split
      · exact Call.Keeps.pure _
      · exact Call.Keeps.bind (Call.Keeps.refuseIf _ _) fun _ => Call.Keeps.pure _
    · exact Call.Keeps.bind kept.record fun _ => Call.Keeps.fail _

/-- After the second factor, nothing is written any more. -/
theorem complete (userId : UserId) :
    (completeLoginAfter2fa directory userId request).Keeps Property := by
  unfold completeLoginAfter2fa
  split
  · exact Call.Keeps.fail _
  · exact Call.Keeps.bind (Call.Keeps.refuseIf _ _) fun _ => Call.Keeps.pure _

theorem login (kept : Kept directory account Property request) :
    (AuthController.login directory account request).Keeps Property := by
  refine Call.Keeps.bind kept.attempt fun _ => Call.Keeps.bind kept.check fun result => ?_
  unfold AuthController.answer
  split
  · split
    · refine Call.Keeps.bind (Call.Keeps.refuseIf _ _) fun _ => ?_
      refine Call.Keeps.bind (Call.Keeps.refuseIf _ _) fun _ => ?_
      exact Call.Keeps.bind kept.reset fun _ => complete result.user.id
    · exact Call.Keeps.pure _
  · exact Call.Keeps.bind kept.reset fun _ => Call.Keeps.pure _

end Kept

/-! ## Deadlines -/

section Timed

variable {directory : Directory} {account : User} {state after : LoginState} {request : Request}
  {endless : LoginKey → Prop} {key : LoginKey}

/-- Every live key has counted something, and ends within 15 minutes unless it may be endless. -/
def Timed (endless : LoginKey → Prop) (state : LoginState) : Prop :=
  ∀ key entry, state.redis.live key = some entry → 0 < entry.value ∧
    (endless key ∨ ∃ deadline, entry.deadline = some deadline ∧
      deadline ≤ state.redis.now + lockoutWindowSec)

theorem Timed.sets {entry : Expiring Nat} (timed : Timed endless state)
    (sets : Sets key entry state after)
    (new : 0 < entry.value ∧ (endless key ∨ ∃ deadline, entry.deadline = some deadline ∧
      deadline ≤ state.redis.now + lockoutWindowSec)) : Timed endless after := by
  intro other found lives
  rw [sets.now]
  by_cases same : other = key
  · rw [same, sets.live] at lives
    cases lives
    exact same ▸ new
  · rw [sets.others other same] at lives
    exact timed other found lives

theorem Timed.del (timed : Timed endless state) :
    Timed endless { state with redis := state.redis.del key } := by
  intro other found lives
  by_cases same : other = key
  · rw [same, live_del_self] at lives
    cases lives
  · exact timed other found ((live_put_of_ne same none) ▸ lives)

theorem Timed.count {seconds : Nat} {dies : Bool} (positive : 0 < seconds)
    (bounded : seconds ≤ lockoutWindowSec) (survives : dies = true → endless key) :
    (count key seconds dies).Keeps (Timed endless) := by
  intro state timed
  have counted := count_cases seconds positive dies fun entry lives => (timed key entry lives).1
  rcases executed : LoginThrottle.count key seconds dies state with ⟨result, after⟩
  rw [executed] at counted
  cases counted with
  | died dead _ sets => exact timed.sets sets ⟨Nat.one_pos, .inl (survives dead)⟩
  | first _ sets => exact timed.sets sets ⟨Nat.one_pos, .inr ⟨_, rfl, by omega⟩⟩
  | next found sets => exact timed.sets sets ⟨Nat.succ_pos _, (timed key _ found).2⟩

theorem Timed.kept (ip : request.dies = some .ip → endless (.ip request.address))
    (email : request.dies = some .email → endless (.email request.email))
    (failures : endless (.failures request.email)) :
    Kept directory account (Timed endless) request where
  ip := Timed.count (by decide) (by decide) fun dies => ip (of_decide_eq_true dies)
  email := Timed.count (by decide) (by decide) fun dies => email (of_decide_eq_true dies)
  failures := Timed.count (by decide) (by decide) fun _ => failures
  lock state timed :=
    timed.sets (sets_put (by simp [Expiring.lives, lockoutWindowSec]))
      ⟨Nat.one_pos, .inr ⟨_, rfl, Nat.le_refl _⟩⟩
  del _ _ _ timed := timed.del
  note event state timed := by
    unfold LoginThrottle.note Call.act
    split <;> exact timed

theorem Timed.advance (timed : Timed endless state) (seconds : Nat) :
    Timed endless (state.advance seconds) := by
  intro key entry lives
  obtain ⟨positive, ends⟩ := timed key entry (live_of_advance lives)
  refine ⟨positive, ends.imp_right ?_⟩
  rintro ⟨deadline, limited, bounded⟩
  exact ⟨deadline, limited, Nat.le_trans bounded
    (Nat.add_le_add_right (Nat.le_add_right state.redis.now seconds) lockoutWindowSec)⟩

/-- A key that ends is gone after 15 minutes. -/
theorem Timed.gone {seconds : Nat} (timed : Timed endless state) (ends : ¬ endless key)
    (elapsed : lockoutWindowSec ≤ seconds) : (state.advance seconds).redis.live key = none := by
  cases lives : (state.advance seconds).redis.live key with
  | none => rfl
  | some entry =>
    obtain ⟨-, impossible | ⟨deadline, limited, bounded⟩⟩ :=
      timed key entry (live_of_advance lives)
    · exact absurd impossible ends
    · have alive : Expiring.lives entry (state.redis.now + seconds) = true := lives_of_live lives
      simp only [Expiring.lives, limited, Option.all_some, decide_eq_true_eq] at alive
      omega

end Timed

/-- In runs without a deadline missing, an attempt is admitted after 15 minutes. -/
theorem neverBlocked_of_timed {directory : Directory} {account : User} {state : LoginState}
    (timed : Timed (fun key => ∃ email, key = .failures email) state) :
    NeverBlocked directory account state := by
  intro email ip seconds elapsed
  have gone : ∀ key, (¬ ∃ email, key = LoginKey.failures email) →
      (state.advance seconds).redis.live key = none :=
    fun key ends => timed.gone ends elapsed
  have lockout := gone (.lockout email) (by simp)
  have address := gone (.ip ip) (by simp)
  have attempts := gone (.email email) (by simp)
  have step : ∀ (key : LoginKey) (before : LoginState), before.redis.live key = none →
      ∃ after, Sets key ⟨1, some (before.redis.now + windowSec)⟩ before after ∧
        count key windowSec false before = (.ok 1, after) := by
    intro key before absent
    have counted : Counted key windowSec false before _ :=
      count_cases windowSec (by decide) false (by simp [absent])
    rcases executed : count key windowSec false before with ⟨result, after⟩
    rw [executed] at counted
    cases counted with
    | died dead => cases dead
    | first _ sets => exact ⟨after, sets, rfl⟩
    | next found =>
      rw [absent] at found
      cases found
  obtain ⟨middle, sets, first⟩ := step _ _ address
  obtain ⟨after, -, second⟩ := step (.email email)
    (noted directory account middle email .counted)
    (by rw [noted_redis, sets.others _ (by simp), attempts])
  have unlocked : ttlAnswer ((state.advance seconds).redis.ttl (.lockout email)) = -2 := by
    rw [ExpiringStore.ttl, lockout]
    rfl
  unfold checkAndTrackLoginAttempt redis
  rw [Call.act_bind_apply, Call.refuseIf_bind_apply, if_neg (by simp [unlocked])]
  refine (congrArg Prod.fst (Call.bind_apply_ok first)).trans ?_
  rw [Call.refuseIf_bind_apply, if_neg (by decide), note_bind_apply]
  refine (congrArg Prod.fst (Call.bind_apply_ok second)).trans ?_
  rw [Call.refuseIf_apply, if_neg (by decide)]

/-! ## Other addresses -/

section Elsewhere

variable {directory : Directory} {account : User} {request : Request}

/-- What a request leaves as it was. -/
structure Elsewhere (directory : Directory) (account : User) (request : Request)
    (before state : LoginState) : Prop where
  timed : Timed (fun _ => True) state
  now : state.redis.now = before.redis.now
  live : ∀ key, ¬ request.Uses key → state.redis.live key = before.redis.live key
  log : ¬ Spells directory account request.email → state.log = before.log

variable {before state after : LoginState} {key : LoginKey} {entry : Expiring Nat}

theorem Elsewhere.sets (elsewhere : Elsewhere directory account request before state)
    (uses : request.Uses key) (sets : Sets key entry state after)
    (timed : Timed (fun _ => True) after) : Elsewhere directory account request before after where
  timed := timed
  now := by rw [sets.now, elsewhere.now]
  live other unused := by
    rw [sets.others other fun same => unused (same ▸ uses), elsewhere.live other unused]
  log unspelled := by rw [sets.log, elsewhere.log unspelled]

theorem Elsewhere.count (uses : request.Uses key) {seconds : Nat} (dies : Bool)
    (positive : 0 < seconds) (bounded : seconds ≤ lockoutWindowSec) :
    (count key seconds dies).Keeps (Elsewhere directory account request before) := by
  intro state elsewhere
  have timed : Timed (fun _ => True) (LoginThrottle.count key seconds dies state).2 :=
    Timed.count positive bounded (fun _ => trivial) state elsewhere.timed
  have counted := count_cases seconds positive dies fun entry lives =>
    (elsewhere.timed key entry lives).1
  rcases executed : LoginThrottle.count key seconds dies state with ⟨result, after⟩
  rw [executed] at counted timed
  obtain ⟨entry, sets, -⟩ := counted.bumped
  exact elsewhere.sets uses sets timed

theorem Elsewhere.kept :
    Kept directory account (Elsewhere directory account request before) request := by
  have timed : Kept directory account (Timed fun _ => True) request :=
    Timed.kept (fun _ => trivial) (fun _ => trivial) trivial
  refine ⟨?_, ?_, ?_, ?_, ?_, ?_⟩
  · exact Elsewhere.count (.inl rfl) _ (by decide) (by decide)
  · exact Elsewhere.count (.inr (.inl rfl)) _ (by decide) (by decide)
  · exact Elsewhere.count (.inr (.inr (.inl rfl))) _ (by decide) (by decide)
  · intro state elsewhere
    exact elsewhere.sets (.inr (.inr (.inr rfl)))
      (sets_put (by simp [Expiring.lives, lockoutWindowSec])) (timed.lock state elsewhere.timed)
  · intro key state uses elsewhere
    refine ⟨timed.del key state uses elsewhere.timed, elsewhere.now, ?_, elsewhere.log⟩
    intro other unused
    rw [← elsewhere.live other unused]
    exact live_put_of_ne (fun same : other = key => unused (same ▸ uses)) none
  · intro event state elsewhere
    unfold LoginThrottle.note Call.act
    split
    · rename_i spells
      exact ⟨elsewhere.timed, elsewhere.now, elsewhere.live, absurd spells⟩
    · exact elsewhere

end Elsewhere

end CryptoVaultHub.Auth.LoginThrottle
