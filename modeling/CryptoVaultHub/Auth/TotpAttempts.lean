import CryptoVaultHub.Semantics.ExpiringStore
import CryptoVaultHub.Semantics.Execution

/-!
# Attempts at a TOTP code

Four endpoints compare codes with the secret of a user, and one of them counts its attempts. The
requests about one user, one after another; those about others touch neither its counter nor its
secret. `codes_bounded` shows that at most five codes are compared in each window of the counter as
long as the other endpoints compare none.
-/

namespace CryptoVaultHub.Auth.Totp

open TransitionSystem ExpiringStore

inductive Endpoint where
  | login
  | challenge
  | verify
  | disable
deriving DecidableEq

/-- Whether a request that is not refused for its attempts gets as far as the comparison, and
whether the process dies after an `INCR` that begins a window. -/
structure CodeRequest where
  endpoint : Endpoint
  compares : Bool
  dies : Bool
deriving DecidableEq

/-- The counter `totp:<user>`, and how many codes were compared since each time it began, latest
first, which is not in the program. -/
structure TotpState where
  redis : ExpiringStore Unit Nat
  compared : List Nat

inductive Action where
  | request (request : CodeRequest)
  | pass (seconds : Nat)
deriving DecidableEq

namespace TotpState

variable (state : TotpState)

/-- `checkTotpAttempt`, and whether it admits the request. -/
def checkTotpAttempt (dies : Bool) : TotpState × Bool :=
  let (redis, count) := state.redis.incr ()
  if count = 1 then
    (⟨if dies then redis else redis.expire () (5 * 60), 0 :: state.compared⟩, !dies)
  else (⟨redis, state.compared⟩, count ≤ 5)

/-- `otpVerify`. -/
def compare : TotpState :=
  { state with compared := (state.compared.headD 0 + 1) :: state.compared.tail }

def step : Action → Option TotpState
  | .request request =>
    match request.endpoint with
    | .challenge =>
      let (counted, admitted) := state.checkTotpAttempt request.dies
      some (if admitted && request.compares then counted.compare else counted)
    | .login | .verify | .disable => some (if request.compares then state.compare else state)
  | .pass seconds => some { state with redis := state.redis.advance seconds }

/-- At most five codes are compared in each window. -/
@[reducible] def Bounded : Prop := ∀ count ∈ state.compared, count ≤ 5

end TotpState

/-- Codes are compared by `2fa/challenge` only. -/
def OnlyChallenges (_ : TotpState) : Action → Prop
  | .request request => request.compares = true → request.endpoint = .challenge
  | .pass _ => True

instance (state : TotpState) (action : Action) : Decidable (OnlyChallenges state action) := by
  cases action <;> unfold OnlyChallenges <;> infer_instance

def attempts : TransitionSystem TotpState Action where
  Initial state := state.redis.entries = (fun _ => none) ∧ state.compared = []
  step := TotpState.step

/-- The counter has counted the codes of its window. -/
structure Counted (state : TotpState) : Prop where
  bounded : state.Bounded
  counter : ∀ entry, state.redis.live () = some entry →
    1 ≤ entry.value ∧ state.compared.headD 0 ≤ entry.value

variable {state : TotpState}

/-- The window has room for a code, which the counter has counted. -/
def Room (state : TotpState) : Prop :=
  state.compared.headD 0 < 5 ∧ ∀ entry, state.redis.live () = some entry →
    state.compared.headD 0 < entry.value

theorem Counted.compare (counted : Counted state) (room : Room state) :
    Counted state.compare := by
  obtain ⟨room, counter⟩ := room
  refine ⟨fun count member => ?_, fun entry lives => ?_⟩
  · rcases List.mem_cons.mp member with rfl | old
    · exact room
    · exact counted.bounded count (List.mem_of_mem_tail old)
  · exact ⟨Nat.zero_lt_of_lt (counter entry lives), counter entry lives⟩

theorem value_of_live_put {store : ExpiringStore Unit Nat} {count : Nat} {deadline : Option Nat}
    {entry : Expiring Nat} (found : (store.put () (some ⟨count, deadline⟩)).live () = some entry) :
    entry.value = count := by
  rw [live_put_self] at found
  cases (Option.filter_eq_some_iff.mp found).1
  rfl

/-- `checkTotpAttempt` admits a request where there is room for its code. -/
theorem Counted.checkTotpAttempt (counted : Counted state) (dies : Bool) :
    Counted (state.checkTotpAttempt dies).1 ∧
      ((state.checkTotpAttempt dies).2 = true → Room (state.checkTotpAttempt dies).1) := by
  cases lives : state.redis.live () with
  | none =>
    have created : (state.redis.put () (some ⟨1, none⟩)).live () = some ⟨1, none⟩ := by
      simp [Expiring.lives]
    simp only [TotpState.checkTotpAttempt, incr_of_none lives, if_true, expire_of_live created]
    have one : ∀ entry, (if dies then state.redis.put () (some ⟨1, none⟩) else
        (state.redis.put () (some ⟨1, none⟩)).put ()
          (some ⟨1, some ((state.redis.put () (some ⟨1, none⟩)).now + 5 * 60)⟩)).live () =
            some entry → entry.value = 1 := by
      intro entry found
      split at found <;> exact value_of_live_put found
    refine ⟨⟨?_, fun entry found => ?_⟩, fun _ => ⟨by simp, fun entry found => ?_⟩⟩
    · exact List.forall_mem_cons.mpr ⟨Nat.zero_le 5, counted.bounded⟩
    · simp [one entry found]
    · simp [one entry found]
  | some entry =>
    obtain ⟨positive, count⟩ := counted.counter entry lives
    have more : entry.value + 1 ≠ 1 := by omega
    simp only [TotpState.checkTotpAttempt, incr_of_live lives, more, if_false, decide_eq_true_eq]
    refine ⟨⟨counted.bounded, fun later found => ?_⟩, fun admitted => ⟨?_, fun later found => ?_⟩⟩
    · rw [value_of_live_put found]
      exact ⟨by omega, Nat.le_succ_of_le count⟩
    · exact Nat.lt_of_le_of_lt count admitted
    · rw [value_of_live_put found]
      exact Nat.lt_succ_of_le count

/-- As long as only `2fa/challenge` compares codes, at most five codes of a user are compared in
each window of the counter. -/
theorem codes_bounded (reached : attempts.Reachable OnlyChallenges state) : state.Bounded := by
  have counted : Counted state := by
    refine reached.invariant ?_ ?_
    · rintro ⟨⟨now, entries⟩, compared⟩ ⟨none, empty⟩
      obtain rfl : entries = _ := none
      obtain rfl : compared = [] := empty
      exact ⟨fun _ member => (List.not_mem_nil member).elim, fun _ lives => by cases lives⟩
    · intro before action after counted allowed transition
      cases action with
      | pass seconds =>
        cases transition
        exact ⟨counted.bounded, fun entry lives => counted.counter entry (live_of_advance lives)⟩
      | request request =>
        obtain ⟨endpoint, compares, dies⟩ := request
        obtain ⟨next, room⟩ := counted.checkTotpAttempt dies
        cases endpoint with
        | challenge =>
          obtain rfl : (if (before.checkTotpAttempt dies).2 && compares then
              (before.checkTotpAttempt dies).1.compare else (before.checkTotpAttempt dies).1) =
                after := Option.some.inj transition
          split
          · rename_i passes
            exact next.compare (room (Bool.and_eq_true_iff.mp passes).1)
          · exact next
        | _ =>
          -- another endpoint that compares a code is not allowed
          cases compares with
          | true => cases allowed rfl
          | false =>
            cases transition
            exact counted
  exact counted.bounded

def freshState : TotpState := ⟨.empty 0, []⟩

def codeAt (endpoint : Endpoint) : Action := .request ⟨endpoint, true, false⟩

/-- The sixth challenge of a window is refused, and the first of the next is not. -/
theorem codes_bounded_sample : ∃ state, attempts.Reachable OnlyChallenges state ∧
    state.compared = [1, 5] ∧ state.Bounded := by
  obtain ⟨state, reached, found⟩ := @exists_reachable _ _ attempts OnlyChallenges _ freshState (fun
    state => state.compared = [1, 5]) _ ⟨rfl, rfl⟩ (List.replicate 6 (codeAt .challenge) ++ [.pass
    300, codeAt .challenge]) (by decide +kernel)
  exact ⟨state, reached, found, codes_bounded reached⟩

/-- Five codes at `2fa/verify` after one challenge, in the same window. -/
theorem codes_not_bounded : ∃ state, attempts.Reachable Unrestricted state ∧ ¬ state.Bounded := by
  obtain ⟨state, reached, found⟩ := @exists_reachable _ _ attempts Unrestricted _ freshState (fun
    state => ¬ state.Bounded) _ ⟨rfl, rfl⟩ (codeAt .challenge :: List.replicate 5 (codeAt .verify))
    (by decide +kernel)
  exact ⟨state, reached, found⟩

end CryptoVaultHub.Auth.Totp
