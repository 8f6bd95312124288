import CryptoVaultHub.Auth.LoginThrottle

/-!
# The counters of an address

A view is what Redis holds about one address, together with the log of the account. `View.Follows`
says that the counters keep up with the log: they count at least the attempts and the failed checks
of their windows, and the address is locked when the log asks for it. Each part of a request keeps
it, and so does time.
-/

namespace CryptoVaultHub.Auth.LoginThrottle

open ExpiringStore

/-! ## The log -/

section Log

variable {strict : Prop} {log : List LogEntry} {now : Nat}

theorem Respects.checked {lockedUntil : List LogEntry → Nat} {passed : Bool}
    (respects : Respects lockedUntil log) (free : lockedUntil log ≤ now) :
    Respects lockedUntil (⟨now, .checked passed⟩ :: log) := by
  intro time outcome earlier suffix
  rcases List.suffix_cons_iff.mp suffix with same | before
  · cases same
    exact free
  · exact respects time outcome earlier before

theorem Respects.unchecked {lockedUntil : List LogEntry → Nat} {event : LoginEvent}
    (respects : Respects lockedUntil log) (other : ∀ passed, event ≠ .checked passed) :
    Respects lockedUntil (⟨now, event⟩ :: log) := by
  intro time outcome earlier suffix
  rcases List.suffix_cons_iff.mp suffix with same | before
  · cases same
    exact absurd rfl (other outcome)
  · exact respects time outcome earlier before

/-- The attempts in the window. -/
def attemptsInWindow (log : List LogEntry) : Nat := (attemptWindow log).elim 0 Window.hits

/-- What holds of the log between two requests. The second lock is observed only when asked for. -/
structure Orderly (strict : Prop) (log : List LogEntry) : Prop where
  counted : checksInWindow log ≤ attemptsInWindow log
  bounded : checksInWindow log ≤ 5
  byWindow : Respects lockedByWindow log
  byRecent : strict → Respects lockedByRecent log

theorem Orderly.nil : Orderly strict [] where
  counted := Nat.le_refl 0
  bounded := Nat.zero_le 5
  byWindow _ _ _ suffix := by simp at suffix
  byRecent _ _ _ _ suffix := by simp at suffix

/-- An attempt that is counted leaves room for a check. -/
theorem Orderly.attempt (orderly : Orderly strict log) (now : Nat) :
    Orderly strict (⟨now, .counted⟩ :: log) ∧
      checksInWindow (⟨now, .counted⟩ :: log) + 1 ≤ attemptsInWindow (⟨now, .counted⟩ :: log) := by
  have room : checksInWindow (⟨now, .counted⟩ :: log) + 1 ≤
      attemptsInWindow (⟨now, .counted⟩ :: log) := by
    have before := orderly.counted
    simp only [checksInWindow, attemptsInWindow, attemptWindow, Option.elim_some]
    cases opened : Window.current windowSec now (attemptWindow log) with
    | none => simp [Window.hit_of_none opened]
    | some one =>
      simp only [attemptsInWindow, (Window.current_eq_some.mp opened).1, Option.elim_some]
        at before
      simpa [Window.hit_of_current opened] using before
  have bounded : checksInWindow (⟨now, .counted⟩ :: log) ≤ 5 := by
    simp only [checksInWindow]
    split
    · exact orderly.bounded
    · exact Nat.zero_le 5
  exact ⟨⟨Nat.le_of_succ_le room, bounded, orderly.byWindow.unchecked (by simp),
    fun strictly => (orderly.byRecent strictly).unchecked (by simp)⟩, room⟩

/-- A check that has room, of an account that is not locked. -/
theorem Orderly.check {passed : Bool} (orderly : Orderly strict log)
    (room : checksInWindow log + 1 ≤ attemptsInWindow log) (admitted : attemptsInWindow log ≤ 5)
    (byWindow : lockedByWindow log ≤ now) (byRecent : strict → lockedByRecent log ≤ now) :
    Orderly strict (⟨now, .checked passed⟩ :: log) where
  counted := room
  bounded := Nat.le_trans room admitted
  byWindow := orderly.byWindow.checked byWindow
  byRecent strictly := (orderly.byRecent strictly).checked (byRecent strictly)

theorem Orderly.reset (orderly : Orderly strict log) :
    Orderly strict (⟨now, .reset⟩ :: log) where
  counted := Nat.le_refl 0
  bounded := Nat.zero_le 5
  byWindow := orderly.byWindow.unchecked (by simp)
  byRecent strictly := (orderly.byRecent strictly).unchecked (by simp)

end Log

/-! ## The counters of one address -/

/-- The live entries of an address, and the log. -/
structure View where
  now : Nat
  attempts : Option (Expiring Nat)
  failures : Option (Expiring Nat)
  lockout : Option (Expiring Nat)
  log : List LogEntry

def LoginState.view (state : LoginState) (email : String) : View where
  now := state.redis.now
  attempts := state.redis.live (.email email)
  failures := state.redis.live (.failures email)
  lockout := state.redis.live (.lockout email)
  log := state.log

namespace View

/-- The address is locked until then, or then is over. -/
def LockedTo (view : View) (moment : Nat) : Prop :=
  moment ≤ view.now ∨ ∃ entry deadline, view.lockout = some entry ∧
    entry.deadline = some deadline ∧ moment ≤ deadline

/-- The end of a window of failed checks. -/
def windowEnd (window : Option Window) : Nat :=
  window.elim 0 fun one => one.since + lockoutWindowSec

/-- The failed checks are counted, and the locks that the log asks for are set. A lock that comes
early, because its counter has outlived a window, outlives the window. -/
structure Locks (strict : Prop) (view : View) : Prop where
  limited : ∀ entry, view.lockout = some entry → ∃ deadline, entry.deadline = some deadline ∧
    view.now < deadline
  begun : ∀ one, failingWindow view.log = some one → one.since ≤ view.now
  failing : Implements lockoutWindowSec view.now view.failures (failingWindow view.log) ∨
    (view.failures = none ∧ view.LockedTo (windowEnd (failingWindow view.log)))
  byWindow : view.LockedTo (lockedByWindow view.log)
  byRecent : strict → view.LockedTo (lockedByRecent view.log)
  recent : strict → ∀ entry, view.failures = some entry →
    recentFailures view.now view.log ≤ entry.value

variable {strict : Prop} {view : View} {entry : Expiring Nat}

theorem Locks.initial (now : Nat) : (⟨now, none, none, none, []⟩ : View).Locks strict where
  limited _ impossible := by cases impossible
  begun _ impossible := by cases impossible
  failing := .inl (Implements.of_closed rfl)
  byWindow := .inl (Nat.zero_le now)
  byRecent _ := .inl (Nat.zero_le now)
  recent _ _ impossible := by cases impossible

theorem LockedTo.free {moment : Nat} (locked : view.LockedTo moment)
    (unlocked : view.lockout = none) : moment ≤ view.now := by
  obtain past | ⟨entry, _, impossible, _⟩ := locked
  · exact past
  · rw [unlocked] at impossible
    cases impossible

/-- An entry of the log that is no failed check. -/
theorem Locks.note {event : LoginEvent} (locks : view.Locks strict)
    (other : event = .counted ∨ event = .checked true) (attempts : Option (Expiring Nat)) :
    { view with attempts, log := ⟨view.now, event⟩ :: view.log }.Locks strict := by
  have same : recentFailures view.now (⟨view.now, event⟩ :: view.log) =
      recentFailures view.now view.log := by
    rcases other with rfl | rfl <;> simp [recentFailures]
  rcases other with rfl | rfl
  all_goals
    refine ⟨locks.limited, locks.begun, locks.failing, locks.byWindow, locks.byRecent, ?_⟩
    intro strictly entry found
    exact Nat.le_trans (Nat.le_of_eq same) (locks.recent strictly entry found)

/-- No counter is left by a successful login. -/
theorem Locks.reset (locks : view.Locks strict) (unlocked : view.lockout = none) :
    { view with attempts := none, failures := none, lockout := none,
                log := ⟨view.now, .reset⟩ :: view.log : View }.Locks strict where
  limited _ impossible := by cases impossible
  begun _ impossible := by cases impossible
  failing := .inl (Implements.of_closed rfl)
  byWindow := .inl (locks.byWindow.free unlocked)
  byRecent strictly := .inl ((locks.byRecent strictly).free unlocked)
  recent _ _ impossible := by cases impossible

/-- The counter of the failed checks, when the address is not locked. -/
theorem Locks.implements (locks : view.Locks strict) (unlocked : view.lockout = none) :
    Implements lockoutWindowSec view.now view.failures (failingWindow view.log) := by
  obtain implements | ⟨absent, locked⟩ := locks.failing
  · exact implements
  · rw [absent]
    refine Implements.of_closed ?_
    have past := locked.free unlocked
    cases opened : Window.current lockoutWindowSec view.now (failingWindow view.log) with
    | none => rfl
    | some one =>
      obtain ⟨same, current⟩ := Window.current_eq_some.mp opened
      simp only [windowEnd, same, Option.elim_some] at past
      omega

/-- What a failed check makes of the counter, and of the lock with its tenth count. -/
def fail (view : View) (entry : Expiring Nat) : View :=
  if 10 ≤ entry.value then
    { view with
      failures := none
      lockout := some ⟨1, some (view.now + lockoutWindowSec)⟩ }
  else { view with failures := some entry }

section Fail

variable (locks : view.Locks strict) (unlocked : view.lockout = none)
  (bumped : Bumped lockoutWindowSec view.now view.failures (some entry))

include locks

theorem Locks.hit_begun :
    (Window.hit lockoutWindowSec view.now (failingWindow view.log)).since ≤ view.now := by
  cases opened : Window.current lockoutWindowSec view.now (failingWindow view.log) with
  | none => rw [Window.hit_of_none opened]
  | some one =>
    rw [Window.hit_of_current opened]
    exact locks.begun one (Window.current_eq_some.mp opened).1

include unlocked bumped

/-- The counter has at least the hits of the window. -/
theorem Locks.hits_le :
    (Window.hit lockoutWindowSec view.now (failingWindow view.log)).hits ≤ entry.value := by
  have implements := (locks.implements unlocked).bumped (by decide) bumped
  obtain ⟨_, ⟨⟩, counted⟩ :=
    implements.counts _ (Window.current_eq_some.mpr ⟨rfl, Window.now_lt_hit (by decide)⟩)
  exact counted

omit unlocked in
/-- The counter has at least the failed checks of the last 15 minutes. -/
theorem Locks.recent_le (strictly : strict)
    (counts : recentFailures view.now view.log = 0 ∨ view.failures.isSome = true) :
    recentFailures view.now view.log + 1 ≤ entry.value := by
  cases found : view.failures with
  | none =>
    rw [found] at bumped counts
    have nothing : recentFailures view.now view.log = 0 := by simpa using counts
    cases bumped <;> simp [nothing]
  | some before =>
    have counted := locks.recent strictly before found
    rw [found] at bumped
    cases bumped
    exact Nat.succ_le_succ counted

theorem Locks.fail
    (counts : strict → recentFailures view.now view.log = 0 ∨ view.failures.isSome = true) :
    ({ view with log := ⟨view.now, .checked false⟩ :: view.log }.fail entry).Locks strict := by
  have implements := (locks.implements unlocked).bumped (by decide) bumped
  have begun := locks.hit_begun
  have counted := locks.hits_le unlocked bumped
  have recent := fun strictly => locks.recent_le bumped strictly (counts strictly)
  have byWindow := locks.byWindow.free unlocked
  have byRecent := fun strictly => (locks.byRecent strictly).free unlocked
  have grown : recentFailures view.now (⟨view.now, .checked false⟩ :: view.log) =
      recentFailures view.now view.log + 1 := by
    simp [recentFailures, lockoutWindowSec]
  unfold View.fail
  split
  · -- the lock lasts longer than any window that has begun, and than any lock that is asked for
    have covers : ∀ moment, moment ≤ view.now + lockoutWindowSec →
        ({ view with log := ⟨view.now, .checked false⟩ :: view.log
                     failures := none
                     lockout := some ⟨1, some (view.now + lockoutWindowSec)⟩ } : View).LockedTo
          moment :=
      fun moment earlier => .inr ⟨_, _, rfl, rfl, earlier⟩
    refine ⟨?_, ?_, .inr ⟨rfl, covers _ ?_⟩, covers _ ?_, fun strictly => covers _ ?_, ?_⟩
    · rintro _ ⟨⟩
      exact ⟨_, rfl, by simp [lockoutWindowSec]⟩
    · intro one opened
      simp only [failingWindow] at opened
      split at opened
      · cases opened
      · cases opened
        exact begun
    · simp only [windowEnd, failingWindow]
      split
      · simp
      · simpa using begun
    · simp only [lockedByWindow]
      split <;> omega
    · have earlier := byRecent strictly
      simp only [lockedByRecent]
      split <;> omega
    · rintro _ _ ⟨⟩
  · rename_i few
    have unfilled :
        ¬ 10 ≤ (Window.hit lockoutWindowSec view.now (failingWindow view.log)).hits := by omega
    have window : failingWindow (⟨view.now, .checked false⟩ :: view.log) =
        some (Window.hit lockoutWindowSec view.now (failingWindow view.log)) := by
      simp only [failingWindow, if_neg unfilled]
    refine ⟨?_, ?_, .inl ?_, .inl ?_, fun strictly => .inl ?_, ?_⟩
    · rintro _ locked
      exact locks.limited _ locked
    · intro one opened
      rw [window] at opened
      cases opened
      exact begun
    · rw [window]
      exact implements
    · simp only [lockedByWindow, if_neg unfilled]
      exact byWindow
    · have isFew : ¬ 10 ≤ recentFailures view.now view.log + 1 := by
        have := recent strictly
        omega
      simp only [lockedByRecent, if_neg isFew]
      exact byRecent strictly
    · rintro strictly _ ⟨⟩
      rw [grown]
      exact recent strictly

end Fail

/-- Time passes. -/
def advance (view : View) (seconds : Nat) : View where
  now := view.now + seconds
  attempts := view.attempts.filter fun entry => Expiring.lives entry (view.now + seconds)
  failures := view.failures.filter fun entry => Expiring.lives entry (view.now + seconds)
  lockout := view.lockout.filter fun entry => Expiring.lives entry (view.now + seconds)
  log := view.log

theorem LockedTo.advance {moment : Nat} (locked : view.LockedTo moment) (seconds : Nat) :
    (view.advance seconds).LockedTo moment := by
  obtain past | ⟨entry, deadline, found, limited, covers⟩ := locked
  · exact .inl (Nat.le_add_right_of_le past)
  · rcases Nat.lt_or_ge (view.now + seconds) moment with future | past
    · refine .inr ⟨entry, deadline, Option.filter_eq_some_iff.mpr ⟨found, ?_⟩, limited, covers⟩
      simpa [Expiring.lives, limited] using Nat.lt_of_lt_of_le future covers
    · exact .inl past

theorem Locks.advance (locks : view.Locks strict) (seconds : Nat) :
    (view.advance seconds).Locks strict where
  limited entry lives := by
    obtain ⟨found, alive⟩ := Option.filter_eq_some_iff.mp lives
    obtain ⟨deadline, limited, -⟩ := locks.limited entry found
    simp only [Expiring.lives, limited, Option.all_some, decide_eq_true_eq] at alive
    exact ⟨deadline, limited, alive⟩
  begun one opened := Nat.le_add_right_of_le (locks.begun one opened)
  failing := by
    obtain implements | ⟨absent, locked⟩ := locks.failing
    · exact .inl (implements.advance seconds)
    · exact .inr ⟨by simp [View.advance, absent], locked.advance seconds⟩
  byWindow := locks.byWindow.advance seconds
  byRecent strictly := (locks.byRecent strictly).advance seconds
  recent strictly entry lives := by
    refine Nat.le_trans ?_
      (locks.recent strictly entry (Option.filter_eq_some_iff.mp lives).1)
    refine List.countP_mono_left fun logged _ later => ?_
    simp only [Bool.and_eq_true, decide_eq_true_eq] at later ⊢
    exact ⟨later.1, Nat.lt_of_le_of_lt (Nat.le_add_right view.now seconds) later.2⟩

/-- The counters of the address follow the log. An account that is not active has no checks. -/
structure Follows (account : User) (strict : Prop) (view : View) : Prop where
  orderly : Orderly strict view.log
  attempts : Implements windowSec view.now view.attempts (attemptWindow view.log)
  locks : account.isActive = true → view.Locks strict

variable {account : User}

theorem Follows.advance (follows : view.Follows account strict) (seconds : Nat) :
    (view.advance seconds).Follows account strict where
  orderly := follows.orderly
  attempts := follows.attempts.advance seconds
  locks active := (follows.locks active).advance seconds

/-- What an attempt makes of the counter and the log. -/
def attempt (view : View) (entry : Expiring Nat) : View :=
  { view with attempts := some entry, log := ⟨view.now, .counted⟩ :: view.log }

/-- A check is possible. -/
structure Admitted (view : View) : Prop where
  room : checksInWindow view.log + 1 ≤ attemptsInWindow view.log
  admitted : attemptsInWindow view.log ≤ 5

theorem Follows.attempt (follows : view.Follows account strict)
    (bumped : Bumped windowSec view.now view.attempts (some entry)) :
    (view.attempt entry).Follows account strict ∧
      (entry.value ≤ 5 → (view.attempt entry).Admitted) := by
  have implements := follows.attempts.bumped (by decide) bumped
  obtain ⟨orderly, room⟩ := follows.orderly.attempt view.now
  refine ⟨⟨orderly, implements, ?_⟩, ?_⟩
  · exact fun active => (follows.locks active).note (.inl rfl) _
  · intro few
    obtain ⟨_, ⟨⟩, counted⟩ :=
      implements.counts _ (Window.current_eq_some.mpr ⟨rfl, Window.now_lt_hit (by decide)⟩)
    exact ⟨room, Nat.le_trans counted few⟩

/-- What a check makes of the log. -/
def check (view : View) (passed : Bool) : View :=
  { view with log := ⟨view.now, .checked passed⟩ :: view.log }

section Check

variable (follows : view.Follows account strict) (admitted : view.Admitted)
  (active : account.isActive = true) (unlocked : view.lockout = none)

include follows admitted active unlocked

theorem Follows.orderly_check (passed : Bool) : Orderly strict (view.check passed).log :=
  follows.orderly.check admitted.room admitted.admitted
    ((follows.locks active).byWindow.free unlocked)
    fun strictly => ((follows.locks active).byRecent strictly).free unlocked

theorem Follows.check_passed : (view.check true).Follows account strict where
  orderly := follows.orderly_check admitted active unlocked true
  attempts := follows.attempts
  locks _ := (follows.locks active).note (.inr rfl) _

theorem Follows.check_failed
    (bumped : Bumped lockoutWindowSec view.now view.failures (some entry))
    (counts : strict → recentFailures view.now view.log = 0 ∨ view.failures.isSome = true) :
    ((view.check false).fail entry).Follows account strict := by
  refine ⟨?_, ?_, fun _ => (follows.locks active).fail unlocked bumped counts⟩
  · have orderly := follows.orderly_check admitted active unlocked false
    unfold View.fail
    split <;> exact orderly
  · have attempts := follows.attempts
    unfold View.fail
    split <;> exact attempts

end Check

/-- Failures of an account that is not active are counted without a check. -/
theorem Follows.fail (follows : view.Follows account strict) (inactive : account.isActive ≠ true) :
    (view.fail entry).Follows account strict := by
  have attempts := follows.attempts
  have orderly := follows.orderly
  unfold View.fail
  split
  all_goals exact ⟨orderly, attempts, fun active => absurd active inactive⟩

/-- A successful login deletes the counters. -/
def reset (view : View) : View where
  now := view.now
  attempts := none
  failures := none
  lockout := none
  log := ⟨view.now, .reset⟩ :: view.log

theorem Follows.reset (follows : view.Follows account strict) (unlocked : view.lockout = none) :
    view.reset.Follows account strict where
  orderly := follows.orderly.reset
  attempts := Implements.of_closed rfl
  locks active := (follows.locks active).reset unlocked

end View

end CryptoVaultHub.Auth.LoginThrottle
