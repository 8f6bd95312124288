import CryptoVaultHub.Auth.Requests
import CryptoVaultHub.Semantics.Statement

/-!
# The uses of a TOTP code

`validateCode`, `verify2fa` and `disable2fa` look up a key in Redis, verify the code, and set the
key, in steps of their own between which other calls run. A key lives for 90 seconds, which is as
long as a code is accepted: the code of a time step is accepted in the step before it, in the step
itself, and in the step after it. Two calls that both look before one of them sets the key are both
accepted.
-/

namespace CryptoVaultHub.Auth

open TransitionSystem

/-! ## Verifying a code -/

/-- `period`, in seconds. -/
def totpPeriod : Nat := 30

/-- `epochTolerance`, in seconds. -/
def epochTolerance : Nat := 30

/-- `otpVerify`, for the code of each time step of a secret, at a time in milliseconds. -/
def otpVerify (hotp : String → Nat → String) (code secret : String) (now : Nat) : Bool :=
  let epoch := now / 1000
  let first := (epoch - epochTolerance) / totpPeriod
  let last := (epoch + epochTolerance) / totpPeriod
  (List.range' first (last + 1 - first)).any fun step => hotp secret step = code

/-- The times at which the code of a time step is accepted. -/
def InWindow (step now : Nat) : Prop := 30000 * step ≤ now + 30000 ∧ now < 30000 * (step + 2)

theorem otpVerify_inWindow {hotp : String → Nat → String} {code secret : String} {now : Nat}
    (accepted : otpVerify hotp code secret now = true) :
    ∃ step, hotp secret step = code ∧ InWindow step now := by
  simp only [otpVerify, List.any_eq_true, decide_eq_true_eq, List.mem_range'_1] at accepted
  obtain ⟨step, ⟨low, high⟩, same⟩ := accepted
  refine ⟨step, same, ?_⟩
  simp only [epochTolerance, totpPeriod] at low high
  constructor <;> omega

/-! ## Calls -/

/-- A call that was accepted, with the time at which its code was verified. -/
structure Acceptance where
  userId : UserId
  code : String
  verifiedAt : Nat
deriving DecidableEq

/-- The tables and keys of the service, with the calls that were accepted, which it does
not store. -/
structure CodeState where
  auth : AuthState
  accepted : List Acceptance
deriving DecidableEq

inductive CodeEndpoint where
  | verify2fa
  | validateCode
  | disable2fa
deriving DecidableEq

/-- The points of a call, with the row that it has read. The time at which it looked up the
key is not in the program. -/
inductive CodePoint where
  | findUser
  | isCodeUsed (user : User)
  | otpVerify (user : User) (checkedAt : Nat)
  | markCodeUsed (user : User) (verifiedAt : Nat)
  | updateUser (verifiedAt : Nat)
  | answer (verifiedAt : Nat)
deriving DecidableEq

/-- A call, in a login. -/
structure CodeCall where
  endpoint : CodeEndpoint
  userId : UserId
  code : String
  login : Nat
  point : CodePoint
deriving DecidableEq

def CodeCall.goTo (call : CodeCall) (point : CodePoint) : Option CodeCall :=
  some { call with point := point }

/-- Whether a row lets the call go on; `verify2fa` needs a secret only. -/
def CodeEndpoint.admits (endpoint : CodeEndpoint) (user : User) : Bool :=
  user.totpSecret.isSome && (endpoint = .verify2fa || user.totpEnabled)

/-- Where a call goes on when the code is marked. -/
def CodeEndpoint.afterMark (endpoint : CodeEndpoint) (user : User) (verifiedAt : Nat) :
    CodePoint :=
  match endpoint with
  | .validateCode => .answer verifiedAt
  | .disable2fa => .updateUser verifiedAt
  | .verify2fa => if user.totpEnabled then .answer verifiedAt else .updateUser verifiedAt

def CodeEndpoint.change (endpoint : CodeEndpoint) (user : User) : User :=
  match endpoint with
  | .verify2fa => { user with totpEnabled := true }
  | .validateCode => user
  | .disable2fa => { user with totpSecret := none, totpEnabled := false }

def CodeCall.statement (hotp : String → Nat → String) (state : CodeState) (call : CodeCall)
    (_ : Unit) : Statement CodeState CodeCall :=
  match call.point with
  | .findUser =>
    { after := state
      next := ((state.auth.user? call.userId).filter call.endpoint.admits).bind fun user =>
        call.goTo (.isCodeUsed user) }
  | .isCodeUsed user =>
    { after := state
      next :=
        if state.auth.isCodeUsed call.userId call.code then none
        else call.goTo (.otpVerify user state.auth.now) }
  | .otpVerify user _ =>
    { after := state
      next :=
        if user.totpSecret.any fun secret =>
            Auth.otpVerify hotp call.code secret state.auth.now then
          call.goTo (.markCodeUsed user state.auth.now)
        else none }
  | .markCodeUsed user verifiedAt =>
    { after := { state with auth := state.auth.markCodeUsed call.userId call.code call.login }
      next := call.goTo (call.endpoint.afterMark user verifiedAt) }
  | .updateUser verifiedAt =>
    { after := { state with auth := state.auth.updateUser call.userId call.endpoint.change }
      next := call.goTo (.answer verifiedAt) }
  | .answer verifiedAt =>
    { after := { state with accepted := ⟨call.userId, call.code, verifiedAt⟩ :: state.accepted }
      next := none }

/-- A request, the generation of a secret, or the passing of time. -/
inductive CodeStart where
  | call (endpoint : CodeEndpoint) (userId : UserId) (code : String) (login : Nat)
  | setup2fa (userId : UserId) (secret : String)
  | wait (milliseconds : Nat)

def CodeState.start (state : CodeState) : CodeStart → Option (CodeState × Option CodeCall)
  | .call endpoint userId code login => some (state, some ⟨endpoint, userId, code, login, .findUser⟩)
  | .setup2fa userId secret => do
    let user ← state.auth.user? userId
    if user.totpEnabled then none
    else
      let changed := state.auth.updateUser userId fun user =>
        { user with totpSecret := some secret }
      return ({ state with auth := changed }, none)
  | .wait milliseconds =>
    some ({ state with auth := { state.auth with now := state.auth.now + milliseconds } }, none)

/-- The calls, before any code was used. -/
def codeCalls (hotp : String → Nat → String) :
    ProcessPool CodeState CodeCall (Input Unit) CodeStart :=
  .ofStatements (fun state => state.auth.usedCodes = [] ∧ state.accepted = [])
    (CodeCall.statement hotp) CodeState.start

abbrev CodePool := PoolState CodeState CodeCall

/-! ## The property and its condition -/

/-- A call has found its code unused and has not set the key. -/
def CodePoint.pending : CodePoint → Bool
  | .otpVerify .. | .markCodeUsed .. => true
  | .findUser | .isCodeUsed _ | .updateUser _ | .answer _ => false

/-- No call looks up a code while another one with the same code of the user is pending. -/
def CodePool.noOverlap (state : CodePool) : PoolAction (Input Unit) CodeStart → Bool
  | .advance pid _ => (state.process? pid).all fun call =>
    match call.point with
    | .isCodeUsed _ => state.every fun _ other =>
      !(other.userId = call.userId && other.code = call.code && other.point.pending)
    | .findUser | .otpVerify .. | .markCodeUsed .. | .updateUser _ | .answer _ => true
  | .launch _ | .crash _ => true

@[reducible] def CodePool.NoOverlap (state : CodePool) (action : PoolAction (Input Unit) CodeStart) : Prop :=
  CodePool.noOverlap state action = true

/-- A code of a user is accepted in the window of a time step whose code it is, and of the calls
that present it in one window at most one is accepted. -/
structure CodeState.ConsumedOnce (hotp : String → Nat → String) (state : CodeState) : Prop where
  valid : ∀ acceptance ∈ state.accepted, ∃ secret step,
    hotp secret step = acceptance.code ∧ InWindow step acceptance.verifiedAt
  once : state.accepted.Pairwise fun first second =>
    first.userId = second.userId → first.code = second.code →
      ∀ step, ¬ (InWindow step first.verifiedAt ∧ InWindow step second.verifiedAt)

/-! ## What a call knows -/

variable {hotp : String → Nat → String}

def CodePoint.verifiedAt? : CodePoint → Option Nat
  | .markCodeUsed _ verifiedAt | .updateUser verifiedAt | .answer verifiedAt => some verifiedAt
  | .findUser | .isCodeUsed _ | .otpVerify .. => none

def CodePoint.checkedAt? : CodePoint → Option Nat
  | .otpVerify _ checkedAt => some checkedAt
  | .findUser | .isCodeUsed _ | .markCodeUsed .. | .updateUser _ | .answer _ => none

/-- Two times so far apart that no window has both. -/
def Separate (first second : Nat) : Prop :=
  first + totpUsedCodeTtl ≤ second ∨ second + totpUsedCodeTtl ≤ first

theorem Separate.symm {first second : Nat} (separate : Separate first second) :
    Separate second first := Or.symm separate

theorem not_inWindow_of_separate {first second : Nat} (separate : Separate first second)
    (step : Nat) : ¬ (InWindow step first ∧ InWindow step second) := by
  rintro ⟨⟨firstLow, firstHigh⟩, secondLow, secondHigh⟩
  simp only [Separate, totpUsedCodeTtl] at separate
  omega

/-- The key of a code lives as long as its window could. -/
def CodeState.Marked (state : CodeState) (userId : UserId) (code : String) (verifiedAt : Nat) :
    Prop :=
  ∃ used ∈ state.auth.usedCodes, used.userId = userId ∧ used.code = code ∧
    verifiedAt + totpUsedCodeTtl ≤ used.expiresAt

/-- The code was the one of some time step around. -/
def Valid (hotp : String → Nat → String) (code : String) (verifiedAt : Nat) : Prop :=
  ∃ secret step, hotp secret step = code ∧ InWindow step verifiedAt

/-- What holds of the calls that were accepted. -/
structure CodeState.Sound (hotp : String → Nat → String) (state : CodeState) : Prop where
  valid : ∀ acceptance ∈ state.accepted, Valid hotp acceptance.code acceptance.verifiedAt
  marked : ∀ acceptance ∈ state.accepted,
    state.Marked acceptance.userId acceptance.code acceptance.verifiedAt
  separate : state.accepted.Pairwise fun first second =>
    first.userId = second.userId → first.code = second.code →
      Separate first.verifiedAt second.verifiedAt

/-- What holds of a call: what it has verified is apart from every other use, and when it looked
up its key those of the earlier uses had expired. -/
structure CodeCall.Sound (hotp : String → Nat → String) (state : CodeState) (call : CodeCall) :
    Prop where
  checked : ∀ checkedAt ∈ call.point.checkedAt?, checkedAt ≤ state.auth.now ∧
    ∀ acceptance ∈ state.accepted, acceptance.userId = call.userId →
      acceptance.code = call.code → acceptance.verifiedAt + totpUsedCodeTtl ≤ checkedAt
  verified : ∀ verifiedAt ∈ call.point.verifiedAt?, verifiedAt ≤ state.auth.now ∧
    Valid hotp call.code verifiedAt ∧ ∀ acceptance ∈ state.accepted,
      acceptance.userId = call.userId → acceptance.code = call.code →
        Separate acceptance.verifiedAt verifiedAt
  marked : call.point.pending = false → ∀ verifiedAt ∈ call.point.verifiedAt?,
    state.Marked call.userId call.code verifiedAt

/-- Two calls with one code of a user. -/
structure CodeCall.Compatible (first second : CodeCall) : Prop where
  pending : first.point.pending = true → second.point.pending = false
  separate : ∀ left ∈ first.point.verifiedAt?, ∀ right ∈ second.point.verifiedAt?,
    Separate left right
  before : ∀ verifiedAt ∈ first.point.verifiedAt?, ∀ checkedAt ∈ second.point.checkedAt?,
    verifiedAt + totpUsedCodeTtl ≤ checkedAt
  after : ∀ checkedAt ∈ first.point.checkedAt?, ∀ verifiedAt ∈ second.point.verifiedAt?,
    verifiedAt + totpUsedCodeTtl ≤ checkedAt

theorem CodeCall.Compatible.symm {first second : CodeCall} (both : first.Compatible second) :
    second.Compatible first where
  pending := by
    intro waits
    cases other : first.point.pending with
    | false => rfl
    | true => exact absurd waits (by simp [both.pending other])
  separate left atLeft right atRight := (both.separate right atRight left atLeft).symm
  before verifiedAt at_ checkedAt checks := both.after checkedAt checks verifiedAt at_
  after checkedAt checks verifiedAt at_ := both.before verifiedAt at_ checkedAt checks

def codeOutline (hotp : String → Nat → String) : ProofOutline CodeState CodeCall where
  Global := CodeState.Sound hotp
  Local := CodeCall.Sound hotp
  Apart first second :=
    first.userId = second.userId → first.code = second.code → first.Compatible second
  apart_symm apart users codes := (apart users.symm codes.symm).symm

/-! ## Frames -/

/-- Time passes, keys are set, and no call is accepted. -/
structure CodeState.Extends (before after : CodeState) : Prop where
  now : before.auth.now ≤ after.auth.now
  usedCodes : before.auth.usedCodes ⊆ after.auth.usedCodes
  accepted : after.accepted = before.accepted

theorem CodeState.Extends.refl (state : CodeState) : state.Extends state :=
  ⟨Nat.le_refl _, List.Subset.refl _, rfl⟩

theorem CodeState.Marked.mono {before after : CodeState} {userId : UserId} {code : String}
    {verifiedAt : Nat} (marked : before.Marked userId code verifiedAt)
    (usedCodes : before.auth.usedCodes ⊆ after.auth.usedCodes) :
    after.Marked userId code verifiedAt := by
  obtain ⟨used, member, same⟩ := marked
  exact ⟨used, usedCodes member, same⟩

theorem CodeState.Sound.mono {before after : CodeState} (sound : before.Sound hotp)
    (extends_ : before.Extends after) : after.Sound hotp := by
  obtain ⟨_, usedCodes, accepted⟩ := extends_
  refine ⟨?_, ?_, ?_⟩
  · rw [accepted]
    exact sound.valid
  · rw [accepted]
    exact fun acceptance member => (sound.marked acceptance member).mono usedCodes
  · rw [accepted]
    exact sound.separate

theorem CodeCall.Sound.mono {before after : CodeState} {call : CodeCall}
    (sound : call.Sound hotp before) (extends_ : before.Extends after) :
    call.Sound hotp after := by
  obtain ⟨now, usedCodes, accepted⟩ := extends_
  refine ⟨?_, ?_, ?_⟩
  · rw [accepted]
    intro checkedAt checks
    obtain ⟨past, earlier⟩ := sound.checked checkedAt checks
    exact ⟨past.trans now, earlier⟩
  · rw [accepted]
    intro verifiedAt at_
    obtain ⟨past, valid, apart⟩ := sound.verified verifiedAt at_
    exact ⟨past.trans now, valid, apart⟩
  · exact fun done verifiedAt at_ => (sound.marked done verifiedAt at_).mono usedCodes

/-- A call that has neither looked up nor verified its code. -/
theorem CodeCall.sound_of_fresh {state : CodeState} {call : CodeCall}
    (unchecked : call.point.checkedAt? = none) (unverified : call.point.verifiedAt? = none) :
    call.Sound hotp state := by
  refine ⟨?_, ?_, ?_⟩
  · simp [unchecked]
  · simp [unverified]
  · simp [unverified]

theorem CodeCall.compatible_of_fresh {first second : CodeCall}
    (idle : first.point.pending = false) (unchecked : first.point.checkedAt? = none)
    (unverified : first.point.verifiedAt? = none) : first.Compatible second := by
  refine ⟨?_, ?_, ?_, ?_⟩
  · simp [idle]
  · simp [unverified]
  · simp [unverified]
  · simp [unchecked]

/-! ## The steps of a call -/

/-- What one operation of a call can do. -/
inductive CodeCall.Moves (hotp : String → Nat → String) (state after : CodeState)
    (call : CodeCall) : Option CodeCall → Prop where
  | ended (extends_ : state.Extends after) : Moves hotp state after call none
  | found {user : User} (extends_ : state.Extends after) :
      Moves hotp state after call (call.goTo (.isCodeUsed user))
  | checked {user : User} (at_ : call.point = .isCodeUsed user) (same : after = state)
      (unused : state.auth.isCodeUsed call.userId call.code = false) :
      Moves hotp state after call (call.goTo (.otpVerify user state.auth.now))
  | verified {user : User} {checkedAt : Nat} (at_ : call.point = .otpVerify user checkedAt)
      (same : after = state) (valid : Valid hotp call.code state.auth.now) :
      Moves hotp state after call (call.goTo (.markCodeUsed user state.auth.now))
  | marked {user : User} {verifiedAt : Nat} {point : CodePoint}
      (at_ : call.point = .markCodeUsed user verifiedAt) (extends_ : state.Extends after)
      (key : ⟨call.userId, call.code, state.auth.now + totpUsedCodeTtl⟩ ∈ after.auth.usedCodes)
      (next : point = .answer verifiedAt ∨ point = .updateUser verifiedAt) :
      Moves hotp state after call (call.goTo point)
  | updated {verifiedAt : Nat} (at_ : call.point = .updateUser verifiedAt)
      (extends_ : state.Extends after) :
      Moves hotp state after call (call.goTo (.answer verifiedAt))
  | answered {verifiedAt : Nat} (at_ : call.point = .answer verifiedAt)
      (accepted : after =
        { state with accepted := ⟨call.userId, call.code, verifiedAt⟩ :: state.accepted }) :
      Moves hotp state after call none

theorem CodeEndpoint.afterMark_cases (endpoint : CodeEndpoint) (user : User) (verifiedAt : Nat) :
    endpoint.afterMark user verifiedAt = .answer verifiedAt ∨
      endpoint.afterMark user verifiedAt = .updateUser verifiedAt := by
  unfold CodeEndpoint.afterMark
  split
  · exact .inl rfl
  · exact .inr rfl
  · split
    · exact .inl rfl
    · exact .inr rfl

theorem CodeState.extends_mark (state : CodeState) (userId : UserId) (code : String)
    (login : Nat) :
    state.Extends { state with auth := state.auth.markCodeUsed userId code login } :=
  ⟨Nat.le_refl _, List.subset_cons_self _ _, rfl⟩

theorem CodeCall.perform_moves {state after : CodeState} {call : CodeCall} {answer : Unit}
    {ending : Ending} {next : Option CodeCall}
    (performed : (call.statement hotp state answer).perform state ending = (after, next)) :
    call.Moves hotp state after next := by
  unfold CodeCall.statement at performed
  obtain ⟨endpoint, userId, code, login, point⟩ := call
  cases point with
  | findUser =>
    obtain ⟨rfl, ⟨_, rfl⟩ | ⟨_, rfl⟩⟩ | ⟨_, rfl, rfl⟩ := Statement.perform_cases performed
    · dsimp only
      cases ((after.auth.user? userId).filter endpoint.admits) with
      | none => exact .ended (.refl _)
      | some user => exact .found (.refl _)
    · exact .ended (.refl _)
    · exact .ended (.refl _)
  | isCodeUsed user =>
    obtain ⟨rfl, ⟨_, rfl⟩ | ⟨_, rfl⟩⟩ | ⟨_, rfl, rfl⟩ := Statement.perform_cases performed
    · dsimp only
      split
      · exact .ended (.refl _)
      · rename_i unused
        exact .checked rfl rfl (by simpa using unused)
    · exact .ended (.refl _)
    · exact .ended (.refl _)
  | otpVerify user checkedAt =>
    obtain ⟨rfl, ⟨_, rfl⟩ | ⟨_, rfl⟩⟩ | ⟨_, rfl, rfl⟩ := Statement.perform_cases performed
    · dsimp only
      split
      · rename_i accepted
        obtain ⟨secret, _, verifies⟩ := (Option.any_eq_true _ _).mp accepted
        obtain ⟨step, same, window⟩ := otpVerify_inWindow verifies
        exact .verified rfl rfl ⟨secret, step, same, window⟩
      · exact .ended (.refl _)
    · exact .ended (.refl _)
    · exact .ended (.refl _)
  | markCodeUsed user verifiedAt =>
    have grows := state.extends_mark userId code login
    obtain ⟨rfl, ⟨_, rfl⟩ | ⟨_, rfl⟩⟩ | ⟨_, rfl, rfl⟩ := Statement.perform_cases performed
    · exact .marked rfl grows List.mem_cons_self (endpoint.afterMark_cases user verifiedAt)
    · exact .ended grows
    · exact .ended (.refl _)
  | updateUser verifiedAt =>
    have grows : state.Extends
        { state with auth := state.auth.updateUser userId endpoint.change } :=
      ⟨Nat.le_refl _, List.Subset.refl _, rfl⟩
    obtain ⟨rfl, ⟨_, rfl⟩ | ⟨_, rfl⟩⟩ | ⟨_, rfl, rfl⟩ := Statement.perform_cases performed
    · exact .updated rfl grows
    · exact .ended grows
    · exact .ended (.refl _)
  | answer verifiedAt =>
    obtain ⟨rfl, ⟨_, rfl⟩ | ⟨_, rfl⟩⟩ | ⟨_, rfl, rfl⟩ := Statement.perform_cases performed
    · exact .answered rfl rfl
    · exact .answered rfl rfl
    · exact .ended (.refl _)

/-! ## Keeping the outline -/

section Keeping

variable {state : CodePool} {pid : Nat} {call : CodeCall} {after : CodeState}

/-- A step that accepts no call keeps what the others know. -/
theorem keeps_of_extends (holds : (codeOutline hotp).Holds state)
    (extends_ : state.shared.Extends after) {next : Option CodeCall}
    (own : ∀ later, next = some later → later.Sound hotp after)
    (apart : ∀ later other right, next = some later → other ≠ pid →
      state.process? other = some right → later.userId = right.userId →
        later.code = right.code → later.Compatible right) :
    (codeOutline hotp).Keeps state pid after next where
  global := holds.global.mono extends_
  own := own
  others other point _ running := (holds.locals other point running).mono extends_
  apart later other right found different running :=
    apart later other right found different running

/-- No key of the code is alive, so every earlier use is over. -/
theorem expired_of_unused {shared : CodeState} {userId : UserId} {code : String}
    {verifiedAt : Nat} (unused : shared.auth.isCodeUsed userId code = false)
    (marked : shared.Marked userId code verifiedAt) :
    verifiedAt + totpUsedCodeTtl ≤ shared.auth.now := by
  obtain ⟨used, member, sameUser, sameCode, lives⟩ := marked
  have dead := List.any_eq_false.mp unused used member
  simp only [sameUser, sameCode, decide_true, Bool.and_self, Bool.true_and, decide_eq_true_eq,
    Nat.not_lt] at dead
  omega

/-- Passing the check while no other call is pending. -/
theorem keeps_checked (holds : (codeOutline hotp).Holds state) {user : User}
    (alone : ∀ other right, state.process? other = some right → right.userId = call.userId →
      right.code = call.code → right.point.pending = false)
    (unused : state.shared.auth.isCodeUsed call.userId call.code = false) :
    (codeOutline hotp).Keeps state pid state.shared
      (call.goTo (.otpVerify user state.shared.auth.now)) := by
  refine keeps_of_extends holds (.refl _) ?_ ?_
  · rintro later ⟨⟩
    refine ⟨?_, ?_, ?_⟩
    · rintro checkedAt ⟨⟩
      refine ⟨Nat.le_refl _, fun acceptance member sameUser sameCode => ?_⟩
      have marked := holds.global.marked acceptance member
      rw [sameUser, sameCode] at marked
      exact expired_of_unused unused marked
    · rintro verifiedAt ⟨⟩
    · rintro _ verifiedAt ⟨⟩
  · rintro later other right ⟨⟩ different runs sameUser sameCode
    have idle := alone other right runs sameUser.symm sameCode.symm
    refine ⟨fun _ => idle, ?_, ?_, ?_⟩
    · rintro left ⟨⟩
    · rintro verifiedAt ⟨⟩
    · rintro checkedAt ⟨⟩ verifiedAt claimed
      have marked : state.shared.Marked right.userId right.code verifiedAt :=
        (holds.locals other right runs).marked idle verifiedAt claimed
      rw [← sameUser, ← sameCode] at marked
      exact expired_of_unused unused marked

/-- Verifying a code whose earlier uses are over. -/
theorem keeps_verified (holds : (codeOutline hotp).Holds state)
    (running : state.process? pid = some call) {user : User} {checkedAt : Nat}
    (at_ : call.point = .otpVerify user checkedAt)
    (valid : Valid hotp call.code state.shared.auth.now) :
    (codeOutline hotp).Keeps state pid state.shared
      (call.goTo (.markCodeUsed user state.shared.auth.now)) := by
  have checks : checkedAt ∈ call.point.checkedAt? := by rw [at_]; rfl
  have waits : call.point.pending = true := by rw [at_]; rfl
  obtain ⟨past, earlier⟩ := (holds.locals pid call running).checked checkedAt checks
  refine keeps_of_extends holds (.refl _) ?_ ?_
  · rintro later ⟨⟩
    refine ⟨?_, ?_, ?_⟩
    · rintro other ⟨⟩
    · rintro verifiedAt ⟨⟩
      refine ⟨Nat.le_refl _, valid, fun acceptance member sameUser sameCode => ?_⟩
      exact .inl ((earlier acceptance member sameUser sameCode).trans past)
    · rintro ⟨⟩
  · rintro later other right ⟨⟩ different runs sameUser sameCode
    have both := holds.apart pid other call right (Ne.symm different) running runs sameUser sameCode
    have idle := both.pending waits
    refine ⟨fun _ => idle, ?_, ?_, ?_⟩
    · rintro left ⟨⟩ claimedAt claimed
      exact .inr ((both.after checkedAt checks claimedAt claimed).trans past)
    · intro verifiedAt _ other checked
      have waiting : right.point.pending = true := by
        cases point : right.point <;> simp_all [CodePoint.checkedAt?, CodePoint.pending]
      rw [idle] at waiting
      cases waiting
    · rintro checkedAt ⟨⟩

/-- Going on with the time of the verification, once the key is set. -/
theorem keeps_claimed (holds : (codeOutline hotp).Holds state)
    (running : state.process? pid = some call) {verifiedAt : Nat} {point : CodePoint}
    (claimed : call.point.verifiedAt? = some verifiedAt)
    (extends_ : state.shared.Extends after)
    (marked : after.Marked call.userId call.code verifiedAt)
    (next : point = .answer verifiedAt ∨ point = .updateUser verifiedAt) :
    (codeOutline hotp).Keeps state pid after (call.goTo point) := by
  have here : point.verifiedAt? = some verifiedAt ∧ point.checkedAt? = none ∧
      point.pending = false := by
    obtain rfl | rfl := next <;> exact ⟨rfl, rfl, rfl⟩
  obtain ⟨verifies, unchecked, idle⟩ := here
  obtain ⟨past, valid, separate⟩ :=
    (holds.locals pid call running).verified verifiedAt (by rw [claimed]; rfl)
  refine keeps_of_extends holds extends_ ?_ ?_
  · rintro later ⟨⟩
    refine ⟨?_, ?_, ?_⟩
    · simp [unchecked]
    · intro other same
      dsimp only at same
      obtain rfl : verifiedAt = other := Option.some.inj (verifies.symm.trans same)
      rw [extends_.accepted]
      exact ⟨past.trans extends_.now, valid, separate⟩
    · intro _ other same
      dsimp only at same
      obtain rfl : verifiedAt = other := Option.some.inj (verifies.symm.trans same)
      exact marked
  · rintro later other right ⟨⟩ different runs sameUser sameCode
    have both := holds.apart pid other call right (Ne.symm different) running runs sameUser sameCode
    refine ⟨?_, ?_, ?_, ?_⟩
    · simp [idle]
    · dsimp only
      rw [verifies, ← claimed]
      exact both.separate
    · dsimp only
      rw [verifies, ← claimed]
      exact both.before
    · simp [unchecked]

/-- Accepting a call. -/
theorem keeps_answered (holds : (codeOutline hotp).Holds state)
    (running : state.process? pid = some call) {verifiedAt : Nat}
    (at_ : call.point = .answer verifiedAt) :
    (codeOutline hotp).Keeps state pid
      { state.shared with
        accepted := ⟨call.userId, call.code, verifiedAt⟩ :: state.shared.accepted } none := by
  have claims : verifiedAt ∈ call.point.verifiedAt? := by rw [at_]; rfl
  have sound : call.Sound hotp state.shared := holds.locals pid call running
  obtain ⟨past, valid, separate⟩ := sound.verified verifiedAt claims
  have marked := sound.marked (by rw [at_]; rfl) verifiedAt claims
  refine ⟨⟨?_, ?_, ?_⟩, ?_, ?_, ?_⟩
  · intro acceptance member
    obtain rfl | old := List.mem_cons.mp member
    · exact valid
    · exact holds.global.valid acceptance old
  · intro acceptance member
    obtain rfl | old := List.mem_cons.mp member
    · exact marked
    · exact holds.global.marked acceptance old
  · refine List.pairwise_cons.mpr ⟨fun acceptance old sameUser sameCode => ?_, holds.global.separate⟩
    exact (separate acceptance old sameUser.symm sameCode.symm).symm
  · rintro later ⟨⟩
  · intro other right different runs
    have known : right.Sound hotp state.shared := holds.locals other right runs
    have apart := holds.apart pid other call right (Ne.symm different) running runs
    refine ⟨?_, ?_, known.marked⟩
    · intro checkedAt checks
      obtain ⟨before, earlier⟩ := known.checked checkedAt checks
      refine ⟨before, fun acceptance member sameUser sameCode => ?_⟩
      obtain rfl | old := List.mem_cons.mp member
      · exact (apart sameUser sameCode).before verifiedAt claims checkedAt checks
      · exact earlier acceptance old sameUser sameCode
    · intro otherAt claimed
      obtain ⟨before, otherValid, others⟩ := known.verified otherAt claimed
      refine ⟨before, otherValid, fun acceptance member sameUser sameCode => ?_⟩
      obtain rfl | old := List.mem_cons.mp member
      · exact (apart sameUser sameCode).separate verifiedAt claims otherAt claimed
      · exact others acceptance old sameUser sameCode
  · rintro later other right ⟨⟩

end Keeping

/-! ## Runs -/

theorem CodeState.start_extends {state after : CodeState} {begun : CodeStart}
    {process : Option CodeCall} (started : state.start begun = some (after, process)) :
    state.Extends after ∧ ∀ call, process = some call → call.point = .findUser := by
  cases begun with
  | call endpoint userId code login =>
    cases started
    refine ⟨.refl _, ?_⟩
    rintro call ⟨⟩
    rfl
  | setup2fa userId secret =>
    obtain ⟨user, _, rest⟩ := Option.bind_eq_some_iff.mp started
    split at rest
    · cases rest
    · cases rest
      exact ⟨⟨Nat.le_refl _, List.Subset.refl _, rfl⟩, by simp⟩
  | wait milliseconds =>
    cases started
    exact ⟨⟨Nat.le_add_right _ _, List.Subset.refl _, rfl⟩, by simp⟩

theorem CodePool.alone_of_noOverlap {state : CodePool} {pid : Nat} {input : Input Unit}
    {call : CodeCall} {user : User} (allowed : CodePool.NoOverlap state (.advance pid input))
    (running : state.process? pid = some call) (at_ : call.point = .isCodeUsed user) :
    ∀ other right, state.process? other = some right → right.userId = call.userId →
      right.code = call.code → right.point.pending = false := by
  intro other right runs sameUser sameCode
  simp only [CodePool.NoOverlap, CodePool.noOverlap, running, Option.all_some, at_] at allowed
  have passed := PoolState.every_apply allowed runs
  simpa [sameUser, sameCode] using passed

/-- The step of a call that meets the condition. -/
theorem CodeCall.keeps {state : CodePool} {pid : Nat} {input : Input Unit} {call : CodeCall}
    {after : CodeState} {next : Option CodeCall} (holds : (codeOutline hotp).Holds state)
    (allowed : CodePool.NoOverlap state (.advance pid input))
    (running : state.process? pid = some call) (moves : call.Moves hotp state.shared after next) :
    (codeOutline hotp).Keeps state pid after next := by
  cases moves with
  | ended extends_ => exact keeps_of_extends holds extends_ (by simp) (by simp)
  | found extends_ =>
    refine keeps_of_extends holds extends_ ?_ ?_
    · rintro later ⟨⟩
      exact sound_of_fresh rfl rfl
    · rintro later other right ⟨⟩ _ _ _ _
      exact compatible_of_fresh rfl rfl rfl
  | checked at_ same unused =>
    subst same
    exact keeps_checked holds (CodePool.alone_of_noOverlap allowed running at_) unused
  | verified at_ same valid =>
    subst same
    exact keeps_verified holds running at_ valid
  | @marked user verifiedAt point at_ extends_ key next =>
    have claimed : call.point.verifiedAt? = some verifiedAt := by rw [at_]; rfl
    obtain ⟨past, _⟩ := (holds.locals pid call running).verified verifiedAt (by rw [claimed]; rfl)
    have lives : verifiedAt + totpUsedCodeTtl ≤ state.shared.auth.now + totpUsedCodeTtl := by
      omega
    exact keeps_claimed holds running claimed extends_ ⟨_, key, rfl, rfl, lives⟩ next
  | @updated verifiedAt at_ extends_ =>
    have claimed : call.point.verifiedAt? = some verifiedAt := by rw [at_]; rfl
    have marked := (holds.locals pid call running).marked (by rw [at_]; rfl) verifiedAt
      (by rw [claimed]; rfl)
    exact keeps_claimed holds running claimed extends_ (marked.mono extends_.usedCodes) (.inl rfl)
  | answered at_ accepted =>
    subst accepted
    exact keeps_answered holds running at_

/-- In a run in which no call looks up a code while another one with that code of the user is
pending, a code is accepted in the window of its time step only, and there at most once. -/
theorem codes_consumed_once (hotp : String → Nat → String) {state : CodePool}
    (reached : (codeCalls hotp).system.Reachable CodePool.NoOverlap state) :
    state.shared.ConsumedOnce hotp := by
  have holds : (codeOutline hotp).Holds state := by
    refine ProofOutline.reachable reached ?_ ?_ ?_
    · rintro shared ⟨_, none⟩
      refine ⟨?_, ?_, ?_⟩ <;> simp [none]
    · intro before begun shared process holds _ started
      obtain ⟨extends_, fresh⟩ := CodeState.start_extends started
      refine keeps_of_extends holds extends_ ?_ ?_
      · intro call found
        have at_ := fresh call found
        exact CodeCall.sound_of_fresh (by rw [at_]; rfl) (by rw [at_]; rfl)
      · intro call _ _ found _ _ _ _
        have at_ := fresh call found
        exact CodeCall.compatible_of_fresh (by rw [at_]; rfl) (by rw [at_]; rfl) (by rw [at_]; rfl)
    · intro before pid call input shared next holds allowed running moved
      exact CodeCall.keeps holds allowed running (CodeCall.perform_moves (Option.some.inj moved))
  refine ⟨holds.global.valid, holds.global.separate.imp ?_⟩
  intro first second separate sameUser sameCode step
  exact not_inWindow_of_separate (separate sameUser sameCode) step

/-- A user with two-factor authentication, whose code is always the same. -/
def sampleCodeState : CodeState :=
  ⟨⟨[⟨1, "a", "h", "viewer", none, none, true, some "s", true⟩], [], [], [], 60000, 0, 0, []⟩, []⟩

def sampleCodeMove (pid : Nat) : PoolAction (Input Unit) CodeStart := .advance pid ⟨.done, ()⟩

theorem sampleCodeState_initial (hotp : String → Nat → String) :
    (codeCalls hotp).system.Initial ⟨sampleCodeState, []⟩ := ⟨⟨rfl, rfl⟩, rfl⟩

/-- A code that is presented a second time is refused. -/
theorem codes_consumed_once_sample :
    ∃ state : CodePool, state.shared.accepted = [⟨1, "000000", 60000⟩] ∧
      state.process? 1 = none ∧ state.shared.ConsumedOnce fun _ _ => "000000" := by
  obtain ⟨state, reached, accepted, refused⟩ : ∃ state,
      (codeCalls fun _ _ => "000000").system.Reachable CodePool.NoOverlap state ∧
      state.shared.accepted = [⟨1, "000000", 60000⟩] ∧ state.process? 1 = none :=
    exists_reachable (sampleCodeState_initial fun _ _ => "000000")
      ([.launch (.call .validateCode 1 "000000" 0)] ++ List.replicate 5 (sampleCodeMove 0) ++
        [.launch (.call .disable2fa 1 "000000" 1), sampleCodeMove 1, sampleCodeMove 1])
      (by decide +kernel)
  exact ⟨state, accepted, refused, codes_consumed_once _ reached⟩

/-- Two calls look up the code before one of them sets its key. -/
theorem code_consumed_twice :
    ¬ ∀ (hotp : String → Nat → String) (state : CodePool),
      (codeCalls hotp).system.Reachable Unrestricted state → state.shared.ConsumedOnce hotp := by
  intro always
  obtain ⟨state, reached, found⟩ : ∃ state,
      (codeCalls fun _ _ => "000000").system.Reachable Unrestricted state ∧
      state.shared.accepted = [⟨1, "000000", 60000⟩, ⟨1, "000000", 60000⟩] :=
    exists_reachable (sampleCodeState_initial fun _ _ => "000000")
      ([.launch (.call .validateCode 1 "000000" 0), .launch (.call .validateCode 1 "000000" 1)] ++
        List.replicate 2 (sampleCodeMove 0) ++ List.replicate 2 (sampleCodeMove 1) ++
        List.replicate 3 (sampleCodeMove 0) ++ List.replicate 3 (sampleCodeMove 1))
      (by decide +kernel)
  have once := (always _ state reached).once
  rw [found] at once
  have window : InWindow 2 60000 := by
    constructor <;> omega
  have apart := List.rel_of_pairwise_cons once List.mem_cons_self
  exact apart rfl rfl 2 ⟨window, window⟩

end CryptoVaultHub.Auth
